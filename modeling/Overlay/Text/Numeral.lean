import Overlay.Text.Blank
import Overlay.Text.Numeric

/-! Integers written as numerals by people: blanks around, a sign, digits of any script, and single
    underscores that group the digits. A numeral in base sixteen may carry `0x` after its sign, and one
    underscore after that. Decimal numerals have a limited number of digits, where they are read and where
    they are written. -/

namespace Overlay
namespace Numeral

/-- Why a text is not read as a number. --/
inductive Fault where
  | malformed
  | tooLong (digits : Nat)
deriving DecidableEq, Repr

/-! ### Characters -/

/-- A character outside ASCII as the ASCII character that it stands for: a blank as a space, a decimal
    digit as the digit of the same value. --/
def toAscii (c : Char) : Char :=
  if c.toNat < 0x7f then c
  else if Text.isBlank c then ' '
  else match Text.decimalValue? c with
    | some value => Nat.digitChar value
    | none => c

/-- A blank that may stand around a numeral. --/
def isSpace (c : Char) : Bool := c == ' ' || (0x9 ≤ c.toNat && c.toNat ≤ 0xd)

/-- The value of a digit, or of a letter that serves as one. --/
def digitValue? (c : Char) : Option Nat :=
  if '0' ≤ c ∧ c ≤ '9' then some (c.toNat - 0x30)
  else if 'a' ≤ c ∧ c ≤ 'f' then some (c.toNat - 0x57)
  else if 'A' ≤ c ∧ c ≤ 'F' then some (c.toNat - 0x37)
  else none

/-- A digit below `base`. --/
def isDigitOf (base : Nat) (c : Char) : Bool :=
  match digitValue? c with
  | some value => value < base
  | none => false

/-- The number that digits denote, the highest first. --/
def ofDigits (base : Nat) (ds : List Char) : Nat :=
  ds.foldl (fun n c => n * base + (digitValue? c).getD 0) 0

/-! ### Parts of a numeral -/

/-- The sign at the front, and the characters after it. --/
def splitSign : List Char → Bool × List Char
  | '-' :: rest => (true, rest)
  | '+' :: rest => (false, rest)
  | cs => (false, cs)

/-- The characters after a `0x` and one underscore. --/
def dropMarker : List Char → List Char
  | '0' :: x :: rest =>
    if x == 'x' || x == 'X' then
      match rest with
      | '_' :: more => more
      | _ => rest
    else '0' :: x :: rest
  | cs => cs

/-- Whether every underscore stands after one digit and before another. --/
def wellGrouped : List Char → Bool
  | [] => true
  | '_' :: _ => false
  | [_] => true
  | _ :: '_' :: [] => false
  | _ :: '_' :: c :: rest => wellGrouped (c :: rest)
  | _ :: c :: rest => wellGrouped (c :: rest)

/-! ### Reading -/

/-- Reads an unsigned numeral: grouped digits, at most `limit` of them, and blanks. --/
def readDigits (base : Nat) (limit : Option Nat) (cs : List Char) : Except Fault Nat :=
  let isPart (c : Char) : Bool := c == '_' || isDigitOf base c
  let run := cs.takeWhile isPart
  let ds := run.filter (· != '_')
  if run.isEmpty || !wellGrouped run then .error .malformed
  else if limit.any (· < ds.length) then .error (.tooLong ds.length)
  else if (cs.dropWhile isPart).all isSpace then .ok (ofDigits base ds)
  else .error .malformed

/-- Reads a signed numeral; `marked` allows `0x` before the digits. --/
def read (base : Nat) (marked : Bool) (limit : Option Nat) (text : List Char) : Except Fault Int :=
  let (negative, cs) := splitSign ((text.map toAscii).dropWhile isSpace)
  match readDigits base limit (if marked then dropMarker cs else cs) with
  | .ok n => .ok (if negative then -(n : Int) else n)
  | .error fault => .error fault

/-- The most digits that a decimal numeral may have. --/
def digitLimit : Nat := 4300

/-- The message for a numeral beyond the limit; digits are counted only where they are read. --/
def digitLimitMessage (counted : Option Nat) : String :=
  let count := match counted with
    | some digits => s!": value has {digits} digits"
    | none => ""
  s!"Exceeds the limit ({digitLimit} digits) for integer string conversion{count}; " ++
    "use sys.set_int_max_str_digits() to increase the limit"

/-- Reads a decimal numeral. --/
def decimal (text : String) : Except Fault Int := read 10 false (some digitLimit) text.toList

/-- Reads a hexadecimal numeral, with one `0x` before all else. --/
def hexadecimal? (text : String) : Option Int :=
  let body := match Text.trimBlanks text.toList with
    | '0' :: x :: rest => if x == 'x' || x == 'X' then rest else '0' :: x :: rest
    | cs => cs
  (read 16 true none body).toOption

/-! ### Writing -/

/-- The decimal numeral of a number, unless it has more than `limit` digits. --/
def write? (limit : Option Nat) (n : Int) : Option String :=
  if limit.any (· < (Nat.toDigits 10 n.natAbs).length) then none else some (toString n)

end Numeral
end Overlay
