import Mathlib.Data.List.TakeWhile
import Overlay.Source.Lexeme
import Overlay.Text.Numeral

/-! Reading the numerals of addresses. The digits after the `0x` of an address are read as they stand: none of them is
    a blank, a sign, an underscore or the start of another `0x`. -/

namespace Overlay

/-- A text that is `0x` and hexadecimal digits. --/
def IsAddressLiteral (text : String) : Prop :=
  ∃ x digits, text.toList = '0' :: x :: digits ∧ (x = 'x' ∨ x = 'X') ∧ digits ≠ [] ∧
    ∀ d ∈ digits, Lexeme.isHexDigit d = true

namespace Numeral

/-! ### Hexadecimal digits -/

theorem le_iff_toNat_le {a b : Char} : a ≤ b ↔ a.toNat ≤ b.toNat := by
  rw [Char.le_def, UInt32.le_iff_toNat_le]
  rfl

section
variable {c : Char}

theorem isHexDigit_iff : Lexeme.isHexDigit c = true ↔ (48 ≤ c.toNat ∧ c.toNat ≤ 57) ∨ (97 ≤ c.toNat ∧ c.toNat ≤ 102) ∨
    (65 ≤ c.toNat ∧ c.toNat ≤ 70) := by
  simp only [Lexeme.isHexDigit, Bool.or_eq_true, Bool.and_eq_true, decide_eq_true_eq, le_iff_toNat_le, or_assoc]
  rfl

theorem isBlank_of_isHexDigit (h : Lexeme.isHexDigit c = true) : Text.isBlank c = false := by
  have := isHexDigit_iff.mp h
  simp only [Text.isBlank, Bool.or_eq_false_iff, Bool.and_eq_false_iff, decide_eq_false_iff_not, beq_eq_false_iff_ne]
  omega

theorem toAscii_of_isHexDigit (h : Lexeme.isHexDigit c = true) : toAscii c = c := by
  have := isHexDigit_iff.mp h
  exact if_pos (by omega)

theorem isSpace_of_isHexDigit (h : Lexeme.isHexDigit c = true) : isSpace c = false := by
  have := isHexDigit_iff.mp h
  have hne : c ≠ ' ' := by
    rintro rfl
    revert h
    decide
  simp only [isSpace, Bool.or_eq_false_iff, Bool.and_eq_false_iff, decide_eq_false_iff_not, beq_eq_false_iff_ne]
  exact ⟨hne, by omega⟩

theorem isDigitOf_of_isHexDigit (h : Lexeme.isHexDigit c = true) : isDigitOf 16 c = true := by
  have hvalue : ∃ n, digitValue? c = some n ∧ n < 16 := by
    have hc := isHexDigit_iff.mp h
    unfold digitValue?
    simp only [le_iff_toNat_le]
    change ∃ n, (if 48 ≤ c.toNat ∧ c.toNat ≤ 57 then some (c.toNat - 0x30)
      else if 97 ≤ c.toNat ∧ c.toNat ≤ 102 then some (c.toNat - 0x57)
      else if 65 ≤ c.toNat ∧ c.toNat ≤ 70 then some (c.toNat - 0x37) else none) = some n ∧ n < 16
    rcases hc with hc | hc | hc
    · exact ⟨_, if_pos hc, by omega⟩
    · exact ⟨_, by rw [if_neg (by omega), if_pos hc], by omega⟩
    · exact ⟨_, by rw [if_neg (by omega), if_neg (by omega), if_pos hc], by omega⟩
  obtain ⟨n, hn, hlt⟩ := hvalue
  simp [isDigitOf, hn, hlt]

end

/-! ### Digits as they stand -/

section
variable {ds : List Char}

theorem trimBlanks_eq_self (h : ∀ c ∈ ds, Text.isBlank c = false) : Text.trimBlanks ds = ds := by
  have hfront : ∀ cs : List Char, (∀ c ∈ cs, Text.isBlank c = false) → cs.dropWhile Text.isBlank = cs := fun cs hcs =>
    List.dropWhile_eq_self_iff.mpr fun hl => by simp [hcs _ (List.getElem_mem hl)]
  rw [Text.trimBlanks, hfront ds h, hfront ds.reverse (by simpa using h), List.reverse_reverse]

theorem wellGrouped_of_ne (h : ∀ c ∈ ds, c ≠ '_') : wellGrouped ds = true := by
  fun_induction wellGrouped ds with
  | case1 => rfl
  | case2 => exact absurd rfl (h '_' List.mem_cons_self)
  | case3 => rfl
  | case4 | case5 => exact absurd rfl (h '_' (List.mem_cons_of_mem _ List.mem_cons_self))
  | case6 =>
    rename_i ih
    exact ih fun c hc => h c (List.mem_cons_of_mem _ hc)

variable (h : ∀ d ∈ ds, Lexeme.isHexDigit d = true)
include h

theorem ne_of_hexDigits {c : Char} (hc : Lexeme.isHexDigit c = false) : ∀ d ∈ ds, d ≠ c := by
  rintro d hd rfl
  rw [h d hd] at hc
  cases hc

theorem readDigits_of_hexDigits (hne : ds ≠ []) : readDigits 16 none ds = .ok (ofDigits 16 ds) := by
  have hpart : ∀ d ∈ ds, (d == '_' || isDigitOf 16 d) = true := fun d hd => by simp [isDigitOf_of_isHexDigit (h d hd)]
  have hgroup : ∀ d ∈ ds, d ≠ '_' := ne_of_hexDigits h (by decide)
  have hall : ds.filter (· != '_') = ds := List.filter_eq_self.mpr fun d hd => by simp [hgroup d hd]
  unfold readDigits
  dsimp only
  rw [List.takeWhile_eq_self_iff.mpr hpart, List.dropWhile_eq_nil_iff.mpr hpart, hall, wellGrouped_of_ne hgroup]
  simp [hne]

theorem read_of_hexDigits (hne : ds ≠ []) : read 16 true none ds = .ok (ofDigits 16 ds : Nat) := by
  have hascii : ds.map toAscii = ds := (List.map_congr_left fun d hd => toAscii_of_isHexDigit (h d hd)).trans (List.map_id ds)
  have hspace : ds.dropWhile isSpace = ds :=
    List.dropWhile_eq_self_iff.mpr fun hl => by simp [isSpace_of_isHexDigit (h _ (List.getElem_mem hl))]
  have hsign : splitSign ds = (false, ds) := by
    unfold splitSign
    split
    · exact absurd rfl (ne_of_hexDigits h (c := '-') (by decide) _ List.mem_cons_self)
    · exact absurd rfl (ne_of_hexDigits h (c := '+') (by decide) _ List.mem_cons_self)
    · rfl
  -- A second `0x` would need an `x` among the digits.
  have hmarker : dropMarker ds = ds := by
    unfold dropMarker
    split
    · rename_i x rest
      have hx : ∀ c, Lexeme.isHexDigit c = false → x ≠ c := fun c hc =>
        ne_of_hexDigits h hc x (List.mem_cons_of_mem _ List.mem_cons_self)
      rw [if_neg (by simp [hx 'x' (by decide), hx 'X' (by decide)])]
    · rfl
  rw [read, hascii, hspace, hsign]
  dsimp only
  rw [if_pos rfl, hmarker, readDigits_of_hexDigits h hne]
  rfl

end

/-- The numeral of an address denotes the value of its digits. --/
theorem hexadecimal?_of_isAddressLiteral {text : String} (h : IsAddressLiteral text) :
    hexadecimal? text = some ((ofDigits 16 (text.toList.drop 2) : Nat) : Int) := by
  obtain ⟨x, digits, htext, hx, hne, hdigits⟩ := h
  have htrim : Text.trimBlanks ('0' :: x :: digits) = '0' :: x :: digits := by
    refine trimBlanks_eq_self (List.forall_mem_cons.mpr ⟨by decide, List.forall_mem_cons.mpr ⟨?_, ?_⟩⟩)
    · rcases hx with rfl | rfl <;> decide
    · exact fun d hd => isBlank_of_isHexDigit (hdigits d hd)
  have hmark : (x == 'x' || x == 'X') = true := by simpa using hx
  rw [hexadecimal?, htext, htrim]
  change (read 16 true none (if (x == 'x' || x == 'X') = true then digits else _)).toOption = _
  rw [if_pos hmark, read_of_hexDigits hdigits hne]
  rfl

end Numeral
end Overlay
