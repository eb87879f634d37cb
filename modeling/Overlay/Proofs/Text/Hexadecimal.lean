import Overlay.Text.Hexadecimal
import Overlay.Text.Numeral

/-! Numbers written in base sixteen and read again. The digits of a number denote it in upper and in lower case, so no
    two numbers are written alike. -/

namespace Overlay

section
variable {spell : Char → Char} (h : ∀ d < 16, (Numeral.digitValue? (spell (Nat.digitChar d))).getD 0 = d)
include h

/-- The digits of a number denote it, spelled in any way that keeps the value of each digit. --/
theorem Numeral.ofDigits_map_digits (n : Nat) : Numeral.ofDigits 16 ((Hexadecimal.digits n).map spell) = n := by
  induction n using Nat.strongRecOn with
  | ind n ih =>
    unfold Hexadecimal.digits at ih ⊢
    by_cases hlt : n < 16
    · rw [Nat.toDigits_of_lt_base hlt]
      simp [Numeral.ofDigits, h n hlt]
    · rw [Nat.toDigits_of_base_le (by decide) (Nat.le_of_not_lt hlt)]
      have hrest := ih (n / 16) (by omega)
      unfold Numeral.ofDigits at hrest ⊢
      rw [List.map_append, List.foldl_append, hrest]
      simp only [List.map_cons, List.map_nil, List.foldl_cons, List.foldl_nil, h (n % 16) (by omega)]
      omega

end

theorem Numeral.ofDigits_digits (n : Nat) : Numeral.ofDigits 16 (Hexadecimal.digits n) = n := by
  have h : Numeral.ofDigits 16 ((Hexadecimal.digits n).map id) = n := Numeral.ofDigits_map_digits (by decide) n
  rwa [List.map_id] at h

theorem Numeral.ofDigits_upper (n : Nat) : Numeral.ofDigits 16 ((Hexadecimal.digits n).map Char.toUpper) = n :=
  Numeral.ofDigits_map_digits (by decide) n

namespace Hexadecimal

theorem toList_lower (n : Nat) : (lower n).toList = digits n := by
  have hnat : ¬(n : Int) < 0 := by omega
  simp [lower, hnat]

theorem toList_address (n : Nat) : (address n).toList = '0' :: 'x' :: (digits n).map Char.toUpper := by
  have hnat : ¬(n : Int) < 0 := by omega
  simp [address, upper, hnat]

theorem lower_injective {m n : Nat} (h : lower m = lower n) : m = n := by
  have hdigits : digits m = digits n := by rw [← toList_lower, h, toList_lower]
  rw [← Numeral.ofDigits_digits m, hdigits, Numeral.ofDigits_digits]

theorem address_injective {m n : Nat} (h : address m = address n) : m = n := by
  have hlists := congrArg String.toList h
  rw [toList_address, toList_address, List.cons.injEq, List.cons.injEq] at hlists
  rw [← Numeral.ofDigits_upper m, hlists.2.2, Numeral.ofDigits_upper]

end Hexadecimal
end Overlay
