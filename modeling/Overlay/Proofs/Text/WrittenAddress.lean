import Overlay.Proofs.Text.AddressLiteral
import Overlay.Proofs.Text.Hexadecimal

/-! Addresses that are written and read. A number written as an address is read as itself. A literal is written again
    with the digits that count, in upper case: those behind its leading zeros, or a single zero where all are zeros. -/

namespace Overlay

/-- Digits without the zeros in front of them, but for one zero where there are no others. --/
def significant (ds : List Char) : List Char :=
  match ds.dropWhile (· == '0') with
  | [] => ['0']
  | d :: rest => d :: rest

namespace Hexadecimal

/-! ### Digits of a number -/

theorem exists_of_mem_digits {n : Nat} {c : Char} (h : c ∈ digits n) : ∃ v < 16, c = Nat.digitChar v := by
  induction n using Nat.strongRecOn with
  | ind n ih =>
    unfold digits at ih h
    by_cases hlt : n < 16
    · rw [Nat.toDigits_of_lt_base hlt] at h
      exact ⟨n, hlt, List.mem_singleton.mp h⟩
    · rw [Nat.toDigits_of_base_le (by decide) (Nat.le_of_not_lt hlt)] at h
      rcases List.mem_append.mp h with h | h
      · exact ih (n / 16) (by omega) h
      · exact ⟨n % 16, Nat.mod_lt n (by decide), List.mem_singleton.mp h⟩

theorem isHexDigit_upper {n : Nat} : ∀ d ∈ (digits n).map Char.toUpper, Lexeme.isHexDigit d = true := by
  have hall : ∀ v < 16, Lexeme.isHexDigit (Nat.digitChar v).toUpper = true := by decide
  intro d hd
  obtain ⟨c, hc, rfl⟩ := List.mem_map.mp hd
  obtain ⟨v, hv, rfl⟩ := exists_of_mem_digits hc
  exact hall v hv

theorem isAddressLiteral_address (n : Nat) : IsAddressLiteral (address n) :=
  ⟨'x', _, toList_address n, .inl rfl, fun h => Nat.toDigits_ne_nil (List.map_eq_nil_iff.mp h), isHexDigit_upper⟩

/-- A number that is written as an address is read as itself. --/
theorem hexadecimal?_address (n : Nat) : Numeral.hexadecimal? (address n) = some (n : Int) := by
  rw [Numeral.hexadecimal?_of_isAddressLiteral (isAddressLiteral_address n), toList_address]
  exact congrArg (fun m : Nat => some (m : Int)) (Numeral.ofDigits_upper n)

/-! ### Digits of a literal -/

/-- A hexadecimal digit is the digit of its value, but for its case. --/
theorem upper_digitChar {d : Char} (h : Lexeme.isHexDigit d = true) : ∃ v < 16, Numeral.digitValue? d = some v ∧
    (Nat.digitChar v).toUpper = d.toUpper ∧ (v = 0 → d = '0') := by
  have hall : ∀ n < 103, Lexeme.isHexDigit (Char.ofNat n) = true → ∃ v < 16,
      Numeral.digitValue? (Char.ofNat n) = some v ∧ (Nat.digitChar v).toUpper = (Char.ofNat n).toUpper ∧
        (v = 0 → Char.ofNat n = '0') := by decide
  have hlt : d.toNat < 103 := by
    have := Numeral.isHexDigit_iff.mp h
    omega
  rw [← Char.ofNat_toNat d] at h ⊢
  exact hall d.toNat hlt h

/-- Behind a number that is not zero, every further digit is one of the digits of the whole. --/
theorem digits_foldl {ds : List Char} (h : ∀ d ∈ ds, Lexeme.isHexDigit d = true) {n : Nat} (hn : 0 < n) :
    (digits (ds.foldl (fun n c => n * 16 + (Numeral.digitValue? c).getD 0) n)).map Char.toUpper =
      (digits n).map Char.toUpper ++ ds.map Char.toUpper := by
  induction ds generalizing n with
  | nil => rw [List.foldl_nil, List.map_nil, List.append_nil]
  | cons d ds ih =>
    obtain ⟨hd, hds⟩ := List.forall_mem_cons.mp h
    obtain ⟨v, hv, hvalue, hupper, -⟩ := upper_digitChar hd
    have hdigits : digits (n * 16 + v) = digits n ++ [Nat.digitChar v] := by
      unfold digits
      rw [Nat.mul_comm, ← Nat.toDigits_append_toDigits (by decide) hn hv, Nat.toDigits_of_lt_base hv]
    rw [List.foldl_cons, hvalue, Option.getD_some, ih hds (by omega), hdigits, List.map_append, List.map_singleton,
      hupper, List.append_assoc, List.map_cons, List.singleton_append]

theorem ofDigits_zero_cons (ds : List Char) : Numeral.ofDigits 16 ('0' :: ds) = Numeral.ofDigits 16 ds := rfl

/-- The number that digits denote has those of them that count, in upper case. --/
theorem upper_digits_ofDigits {ds : List Char} (h : ∀ d ∈ ds, Lexeme.isHexDigit d = true) :
    (digits (Numeral.ofDigits 16 ds)).map Char.toUpper = (significant ds).map Char.toUpper := by
  induction ds with
  | nil => rfl
  | cons d ds ih =>
    obtain ⟨hd, hds⟩ := List.forall_mem_cons.mp h
    by_cases hzero : d = '0'
    · subst hzero
      rw [ofDigits_zero_cons, ih hds, significant, significant, List.dropWhile_cons_of_pos rfl]
    · obtain ⟨v, hv, hvalue, hupper, hv0⟩ := upper_digitChar hd
      have hpos : 0 < v := Nat.pos_of_ne_zero fun h0 => hzero (hv0 h0)
      have hsignificant : significant (d :: ds) = d :: ds := by
        rw [significant, List.dropWhile_cons_of_neg (by simpa using hzero)]
      have hfirst : Numeral.ofDigits 16 (d :: ds) =
          ds.foldl (fun n c => n * 16 + (Numeral.digitValue? c).getD 0) v := by
        rw [Numeral.ofDigits, List.foldl_cons, hvalue, Nat.zero_mul, Nat.zero_add, Option.getD_some]
      rw [hfirst, digits_foldl hds hpos, hsignificant, digits, Nat.toDigits_of_lt_base hv, List.map_singleton, hupper,
        List.map_cons, List.singleton_append]

/-- The text that a literal is written as again: the digits that count in upper case, behind `0x`. --/
def canonical (text : String) : String := "0x" ++ String.ofList ((significant (text.toList.drop 2)).map Char.toUpper)

theorem address_of_literal {text : String} (h : IsAddressLiteral text) :
    address (Numeral.ofDigits 16 (text.toList.drop 2) : Nat) = canonical text := by
  obtain ⟨x, ds, htext, -, -, hexDigits⟩ := h
  rw [← String.toList_inj, toList_address, canonical, htext]
  simp [upper_digits_ofDigits hexDigits]

end Hexadecimal
end Overlay
