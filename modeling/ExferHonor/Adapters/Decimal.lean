import Mathlib.Data.Int.Basic

/-! Integers as decimal text, the way `toString(10)`, `BigInt(text)` and `Number(text)` carry
them through a TEXT column and through the BIGINT columns of node-postgres. -/
namespace ExferHonor

def decimalText : Int → String
  | .ofNat n => String.ofList (Nat.toDigits 10 n)
  | .negSucc n => String.ofList ('-' :: Nat.toDigits 10 (n + 1))

def decimalValue (text : String) : Int :=
  match text.toList with
  | '-' :: digits => -(Nat.ofDigitChars 10 digits 0 : Int)
  | digits => Nat.ofDigitChars 10 digits 0

private theorem digit_ne_minus (n : Nat) : ∀ c ∈ Nat.toDigits 10 n, c ≠ '-' := by
  intro c hc hminus
  have hdigit := Nat.isDigit_of_mem_toDigits (by decide) (by decide) hc
  rw [hminus] at hdigit
  contradiction

@[simp] theorem decimalValue_decimalText (n : Int) : decimalValue (decimalText n) = n := by
  cases n with
  | ofNat n =>
    unfold decimalText decimalValue
    rw [String.toList_ofList]
    split
    next digits hdigits => exact absurd rfl (digit_ne_minus n '-' (by simp [hdigits]))
    next => rw [Nat.ofDigitChars_ten_toDigits]; rfl
  | negSucc n =>
    simp [decimalText, decimalValue, Nat.ofDigitChars_ten_toDigits, Int.negSucc_eq]

end ExferHonor
