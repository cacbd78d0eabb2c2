import ExferHonor.Spec.Errors
import ExferHonor.Spec.Types

/-! Bytes as hex text, and hex text as bytes the way JavaScript reads it. A string there is a list
of UTF-16 code units. -/
namespace ExferHonor

abbrev JsString := List UInt16

def utf16 (c : Char) : JsString :=
  if c.val < 0x10000 then [c.val.toUInt16]
  else
    let rest : UInt32 := c.val - 0x10000
    [(0xD800 : UInt16) + (rest >>> 10).toUInt16, (0xDC00 : UInt16) + (rest &&& 0x3FF).toUInt16]

def codeUnits (text : String) : JsString := text.toList.flatMap utf16

/-- `byte.toString(16).padStart(2, "0")` -/
def hexByte (byte : UInt8) : List Char := (Nat.toDigits 16 byte.toNat).leftpad 2 '0'

def hexText (bytes : List UInt8) : Hex := String.ofList (bytes.flatMap hexByte)

def isWhiteSpace (unit : UInt16) : Bool :=
  (0x9 ≤ unit && unit ≤ 0xD) || unit == 0x20 || unit == 0xA0 || unit == 0x1680 ||
    (0x2000 ≤ unit && unit ≤ 0x200A) || unit == 0x2028 || unit == 0x2029 || unit == 0x202F ||
    unit == 0x205F || unit == 0x3000 || unit == 0xFEFF

def hexDigit? (unit : UInt16) : Option Nat :=
  if 0x30 ≤ unit ∧ unit ≤ 0x39 then some (unit.toNat - 0x30)
  else if 0x61 ≤ unit ∧ unit ≤ 0x66 then some (unit.toNat - 0x61 + 10)
  else if 0x41 ≤ unit ∧ unit ≤ 0x46 then some (unit.toNat - 0x41 + 10)
  else none

def hexRun : JsString → List Nat
  | [] => []
  | unit :: text =>
      match hexDigit? unit with
      | some digit => digit :: hexRun text
      | none => []

def dropRadix : JsString → JsString
  | 0x30 :: 0x78 :: text => text
  | 0x30 :: 0x58 :: text => text
  | text => text

/-- `Number.parseInt(text, 16)`; `none` is `NaN`. -/
def parseInt16 (text : JsString) : Option Int :=
  let trimmed := text.dropWhile isWhiteSpace
  let sign : Int := if trimmed.head? = some 0x2D then -1 else 1
  let unsigned :=
    if trimmed.head? = some 0x2D ∨ trimmed.head? = some 0x2B then trimmed.tail else trimmed
  let digits := hexRun (dropRadix unsigned)
  if digits.isEmpty then none
  else some (sign * (digits.foldl (fun value digit => 16 * value + digit) 0 : Nat))

/-- `out[i] = byte` in a `Uint8Array` -/
def toUint8 (value : Int) : UInt8 := UInt8.ofNat (value % 256).toNat

def hexOddLength (length : Nat) : Thrown := .error 5 none s!"tx_hex has odd length: {length}"
def hexNotBare (i : Nat) : Thrown := .error 6 none s!"tx_hex is not bare hex at byte {i}"

def hexPair (i : Nat) (pair : JsString) : Except Thrown UInt8 :=
  match parseInt16 pair with
  | none => .error (hexNotBare i)
  | some byte => .ok (toUint8 byte)

def hexPairs : Nat → JsString → Except Thrown (List UInt8)
  | i, first :: second :: rest =>
      (hexPair i [first, second]).bind fun byte =>
        (hexPairs (i + 1) rest).map (byte :: ·)
  | _, [_] => .ok []
  | _, [] => .ok []

def hexToBytes (hex : JsString) : Except Thrown (List UInt8) :=
  if hex.length % 2 ≠ 0 then .error (hexOddLength hex.length)
  else hexPairs 0 hex

/-! The two digits of a byte are read as that byte. -/

def readsAs (byte : UInt8) : JsString → Bool
  | [first, second] => (parseInt16 [first, second]).map toUint8 == some byte
  | _ => false

theorem hexByte_readsAs (byte : UInt8) :
    readsAs byte ((hexByte byte).flatMap utf16) = true := by
  have all : ∀ n : Fin 256,
      readsAs (UInt8.ofNat n) ((hexByte (UInt8.ofNat n)).flatMap utf16) = true := by
    decide +kernel
  simpa using all ⟨byte.toNat, byte.toNat_lt⟩

theorem hexByte_units (byte : UInt8) : ∃ first second,
    (hexByte byte).flatMap utf16 = [first, second] ∧
      (parseInt16 [first, second]).map toUint8 = some byte := by
  have reads := hexByte_readsAs byte
  generalize (hexByte byte).flatMap utf16 = units at reads
  unfold readsAs at reads
  split at reads
  next first second => exact ⟨first, second, rfl, by simpa using reads⟩
  next => contradiction

theorem codeUnits_hexText_cons (byte : UInt8) (bytes : List UInt8) :
    codeUnits (hexText (byte :: bytes)) =
      (hexByte byte).flatMap utf16 ++ codeUnits (hexText bytes) := by
  simp [codeUnits, hexText]

theorem hexPairs_hexText (i : Nat) (bytes : List UInt8) :
    hexPairs i (codeUnits (hexText bytes)) = .ok bytes := by
  induction bytes generalizing i with
  | nil => rfl
  | cons byte bytes ih =>
    obtain ⟨first, second, hunits, hreads⟩ := hexByte_units byte
    obtain ⟨value, hparse, hvalue⟩ := Option.map_eq_some_iff.1 hreads
    rw [codeUnits_hexText_cons, hunits]
    simp only [List.cons_append, List.nil_append, hexPairs, hexPair, hparse, ih, hvalue]
    rfl

theorem length_hexText (bytes : List UInt8) :
    (codeUnits (hexText bytes)).length = 2 * bytes.length := by
  induction bytes with
  | nil => rfl
  | cons byte bytes ih =>
    obtain ⟨first, second, hunits, -⟩ := hexByte_units byte
    rw [codeUnits_hexText_cons, hunits, List.length_append, ih, List.length_cons]
    simp only [List.length_cons, List.length_nil]
    omega

theorem hexToBytes_hexText (bytes : List UInt8) :
    hexToBytes (codeUnits (hexText bytes)) = .ok bytes := by
  unfold hexToBytes
  rw [if_neg (by rw [length_hexText]; omega), hexPairs_hexText]

end ExferHonor
