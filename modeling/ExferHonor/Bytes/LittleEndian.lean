import Mathlib.Data.Nat.Digits.Defs
import Mathlib.Data.Nat.Digits.Lemmas

/-! Naturals as a fixed number of little-endian bytes, and the same numbers put together with the
bitwise operators of a machine word or of an unbounded integer. -/
namespace Bytes

def toBytes : Nat → Nat → List UInt8
  | 0, _ => []
  | width + 1, n => UInt8.ofNat n :: toBytes width (n / 256)

def ofBytes (bytes : List UInt8) : Nat := Nat.ofDigits 256 (bytes.map UInt8.toNat)

@[simp] theorem ofBytes_nil : ofBytes [] = 0 := rfl

@[simp] theorem ofBytes_cons (b : UInt8) (bytes : List UInt8) :
    ofBytes (b :: bytes) = b.toNat + 256 * ofBytes bytes :=
  Nat.ofDigits_cons

@[simp] theorem length_toBytes (width n : Nat) : (toBytes width n).length = width := by
  induction width generalizing n with
  | zero => rfl
  | succ width ih => simp [toBytes, ih]

theorem ofBytes_lt (bytes : List UInt8) : ofBytes bytes < 256 ^ bytes.length := by
  have digits : ∀ digit ∈ bytes.map UInt8.toNat, digit < 256 := by
    simp only [List.mem_map]
    rintro _ ⟨b, -, rfl⟩
    exact b.toNat_lt
  simpa [ofBytes] using Nat.ofDigits_lt_base_pow_length (by decide) digits

theorem ofBytes_toBytes {width n : Nat} (fits : n < 256 ^ width) :
    ofBytes (toBytes width n) = n := by
  induction width generalizing n with
  | zero =>
    simp only [pow_zero, Nat.lt_one_iff] at fits
    simp [toBytes, fits]
  | succ width ih =>
    rw [Nat.pow_succ] at fits
    rw [toBytes, ofBytes_cons, ih (by omega), UInt8.toNat_ofNat']
    omega

theorem toBytes_ofBytes (bytes : List UInt8) : toBytes bytes.length (ofBytes bytes) = bytes := by
  induction bytes with
  | nil => rfl
  | cons b bytes ih =>
    have small := b.toNat_lt
    rw [List.length_cons, toBytes, ofBytes_cons,
      show (b.toNat + 256 * ofBytes bytes) / 256 = ofBytes bytes by omega, ih]
    congr 1
    apply UInt8.toNat_inj.1
    rw [UInt8.toNat_ofNat']
    omega

/-- The bytes of that many places are the encoding of exactly one number in range. -/
theorem eq_ofBytes_iff {width n : Nat} {bytes : List UInt8} :
    (bytes.length = width ∧ n = ofBytes bytes) ↔ n < 256 ^ width ∧ bytes = toBytes width n := by
  constructor
  · rintro ⟨rfl, rfl⟩
    exact ⟨ofBytes_lt bytes, (toBytes_ofBytes bytes).symm⟩
  · rintro ⟨fits, rfl⟩
    exact ⟨length_toBytes width n, (ofBytes_toBytes fits).symm⟩

theorem shiftLeft_or_byte (high : Nat) (b : UInt8) :
    high <<< 8 ||| b.toNat = b.toNat + 256 * high := by
  rw [← Nat.shiftLeft_add_eq_or_of_lt (show b.toNat < 2 ^ 8 from b.toNat_lt), Nat.shiftLeft_eq]
  omega

theorem foldr_or (bytes : List UInt8) :
    bytes.foldr (fun b high => high <<< 8 ||| b.toNat) 0 = ofBytes bytes := by
  induction bytes with
  | nil => rfl
  | cons b bytes ih => rw [List.foldr_cons, ih, shiftLeft_or_byte, ofBytes_cons]

theorem or_shiftLeft {low k : Nat} (high : Nat) (fits : low < 2 ^ k) :
    low ||| high <<< k = low + 2 ^ k * high := by
  rw [Nat.or_comm, ← Nat.shiftLeft_add_eq_or_of_lt fits, Nat.shiftLeft_eq]
  ring

theorem toNat_shiftLeft (b : UInt8) {k : Nat} (room : k ≤ 24) :
    (b.toBitVec.setWidth 32 <<< k).toNat = b.toNat <<< k := by
  have small := b.toNat_lt
  have bound : b.toNat * 2 ^ k < 2 ^ 32 := calc
    b.toNat * 2 ^ k ≤ 255 * 2 ^ 24 :=
      Nat.mul_le_mul (by omega) (Nat.pow_le_pow_right (by decide) room)
    _ < 2 ^ 32 := by decide
  have wide : b.toNat % 2 ^ 32 = b.toNat := Nat.mod_eq_of_lt (by omega)
  rw [BitVec.toNat_shiftLeft, BitVec.toNat_setWidth, UInt8.toNat_toBitVec, wide, Nat.shiftLeft_eq,
    Nat.mod_eq_of_lt bound]

theorem word16 (b₀ b₁ : UInt8) :
    (b₀.toBitVec.setWidth 32 ||| b₁.toBitVec.setWidth 32 <<< 8).toNat = ofBytes [b₀, b₁] := by
  have h₀ := b₀.toNat_lt
  have low : (b₀.toBitVec.setWidth 32).toNat = b₀.toNat := by
    rw [BitVec.toNat_setWidth, UInt8.toNat_toBitVec, Nat.mod_eq_of_lt (by omega)]
  rw [BitVec.toNat_or, low, toNat_shiftLeft b₁ (by decide), or_shiftLeft _ h₀]
  simp

theorem word32 (b₀ b₁ b₂ b₃ : UInt8) :
    (b₀.toBitVec.setWidth 32 ||| b₁.toBitVec.setWidth 32 <<< 8 |||
      b₂.toBitVec.setWidth 32 <<< 16 ||| b₃.toBitVec.setWidth 32 <<< 24).toNat =
        ofBytes [b₀, b₁, b₂, b₃] := by
  have h₂ := b₂.toNat_lt
  have low16 : ofBytes [b₀, b₁] < 2 ^ 16 := by simpa using ofBytes_lt [b₀, b₁]
  have low24 : ofBytes [b₀, b₁] + 2 ^ 16 * b₂.toNat < 2 ^ 24 := by omega
  rw [BitVec.toNat_or, BitVec.toNat_or, word16, toNat_shiftLeft b₂ (by decide),
    toNat_shiftLeft b₃ (by decide), or_shiftLeft _ low16, or_shiftLeft _ low24]
  simp only [ofBytes_cons, ofBytes_nil]
  omega

end Bytes
