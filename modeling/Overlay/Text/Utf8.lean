import Overlay.Text.Hexadecimal

/-! UTF-8 read byte by byte. Between characters any byte that can begin one is accepted; after it, each
    owed byte has to lie between two bounds, which shut out overlong forms, surrogates and numbers above
    the last code point. The first byte that fits nowhere is a fault, and so is an end inside a character.
    The stretch of a fault is never empty, so a reader may put a replacement for it and go on behind it. -/

namespace Overlay
namespace Utf8

/-- What is wrong with a byte sequence. --/
inductive Reason where
  | invalidStart
  | invalidContinuation
  | truncated
deriving DecidableEq, Repr

/-- A wrong stretch of bytes: its first byte, that byte's position and the number of its bytes. --/
structure Fault where
  reason : Reason
  byte : UInt8
  position : Nat
  length : Nat
deriving DecidableEq, Repr

/-- The reason in words. --/
def Reason.text : Reason → String
  | .invalidStart => "invalid start byte"
  | .invalidContinuation => "invalid continuation byte"
  | .truncated => "unexpected end of data"

/-- The message for a fault: one byte is shown itself, several by their positions. --/
def Fault.message (f : Fault) : String :=
  let place :=
    if f.length ≤ 1 then
      let shown := Hexadecimal.lower f.byte.toNat
      let zeros := if shown.length < 2 then "0" else ""
      s!"byte 0x{zeros}{shown} in position {f.position}"
    else s!"bytes in position {f.position}-{f.position + f.length - 1}"
  s!"'utf-8' codec can't decode {place}: {f.reason.text}"

/-- A character that is not complete: the number of bytes owed, the bounds of the next one, the bits read
    so far, and the first byte with its position. --/
structure Open where
  owed : Nat
  low : UInt8
  high : UInt8
  bits : Nat
  byte : UInt8
  position : Nat

/-- The state after a byte that begins a character of several bytes. --/
def opening? (b : UInt8) (position : Nat) : Option Open :=
  let after (owed : Nat) (low high : UInt8) (mask : Nat) : Option Open :=
    some ⟨owed, low, high, b.toNat % mask, b, position⟩
  if b < 0xc2 then none
  else if b < 0xe0 then after 1 0x80 0xbf 0x20
  else if b == 0xe0 then after 2 0xa0 0xbf 0x10
  else if b == 0xed then after 2 0x80 0x9f 0x10
  else if b < 0xf0 then after 2 0x80 0xbf 0x10
  else if b == 0xf0 then after 3 0x90 0xbf 0x08
  else if b < 0xf4 then after 3 0x80 0xbf 0x08
  else if b == 0xf4 then after 3 0x80 0x8f 0x08
  else none

/-- Reads the bytes from `position` on; `done` holds the characters before, the last one first. --/
def decodeFrom (position : Nat) (done : List Char) : Option Open → List UInt8 → Except Fault (List Char)
  | none, [] => .ok done.reverse
  | some o, [] => .error ⟨.truncated, o.byte, o.position, position - o.position⟩
  | none, b :: rest =>
    if b < 0x80 then decodeFrom (position + 1) (Char.ofNat b.toNat :: done) none rest
    else match opening? b position with
      | some o => decodeFrom (position + 1) done (some o) rest
      | none => .error ⟨.invalidStart, b, position, 1⟩
  | some o, b :: rest =>
    if o.low ≤ b && b ≤ o.high then
      let bits := o.bits * 0x40 + b.toNat % 0x40
      if o.owed ≤ 1 then decodeFrom (position + 1) (Char.ofNat bits :: done) none rest
      else decodeFrom (position + 1) done (some { o with owed := o.owed - 1, low := 0x80, high := 0xbf, bits }) rest
    else .error ⟨.invalidContinuation, o.byte, o.position, position - o.position⟩

/-- The characters that a byte sequence encodes. --/
def decode (bytes : List UInt8) : Except Fault (List Char) := decodeFrom 0 [] none bytes

/-! ### Reading on after faults -/

theorem opening?_position {b : UInt8} {position : Nat} {o : Open} (h : opening? b position = some o) :
    o.position = position := by
  grind [opening?]

theorem stretch_le_of_decodeFrom_eq_error {position : Nat} {done : List Char} {o : Option Open}
    {bytes : List UInt8} {fault : Fault} (ho : ∀ x ∈ o, x.position < position)
    (h : decodeFrom position done o bytes = .error fault) :
    0 < fault.length ∧ fault.position + fault.length ≤ position + bytes.length := by
  fun_induction decodeFrom position done o bytes with
  | case1 => cases h
  | case2 | case8 =>
    have := ho _ rfl
    cases h
    grind
  | case3 _ _ _ _ _ ih | case6 _ _ _ _ _ _ _ _ ih => grind
  | case4 _ _ _ _ _ o hopen ih =>
    have := ih (by simp [opening?_position hopen]) h
    grind
  | case5 =>
    cases h
    grind
  | case7 _ _ _ _ _ _ _ _ ih =>
    have := ih (by grind) h
    grind

/-- The stretch of a fault is not empty and lies within the bytes. --/
theorem stretch_le_of_decode_eq_error {bytes : List UInt8} {fault : Fault} (h : decode bytes = .error fault) :
    0 < fault.length ∧ fault.position + fault.length ≤ bytes.length := by
  simpa using stretch_le_of_decodeFrom_eq_error (by simp) h

/-- The characters that a byte sequence encodes, with a replacement character for each wrong stretch. --/
def decodeReplacing (bytes : List UInt8) : List Char :=
  match h : decode bytes with
  | .ok characters => characters
  | .error fault =>
    have := stretch_le_of_decode_eq_error h
    (decode (bytes.take fault.position)).toOption.getD [] ++
      '\ufffd' :: decodeReplacing (bytes.drop (fault.position + fault.length))
termination_by bytes.length
decreasing_by grind

end Utf8
end Overlay
