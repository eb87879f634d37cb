/-! Numbers written in base sixteen. Negative numbers carry a minus sign, which stands before the digits
    in `address` and before the `0x` in `literal`. -/

namespace Overlay
namespace Hexadecimal

/-- The digits of `n`, the highest first and in lower case. --/
def digits (n : Nat) : List Char := Nat.toDigits 16 n

/-- `n` in lower-case digits, without `0x`. --/
def lower (n : Int) : String :=
  (if n < 0 then "-" else "") ++ String.ofList (digits n.natAbs)

/-- `n` in upper-case digits, without `0x`. --/
def upper (n : Int) : String :=
  (if n < 0 then "-" else "") ++ String.ofList ((digits n.natAbs).map Char.toUpper)

/-- `n` as an address in code and messages: `0x` and the digits in upper case. --/
def address (n : Int) : String := "0x" ++ upper n

/-- `n` as a signed literal: an optional minus sign, `0x` and the digits in lower case. --/
def literal (n : Int) : String :=
  (if n < 0 then "-0x" else "0x") ++ String.ofList (digits n.natAbs)

end Hexadecimal
end Overlay
