import ExferHonor.Adapters.HexText
import ExferHonor.Bytes.LittleEndian
import ExferHonor.Bytes.Reader

/-! The transaction wire decoder. The cursor over the bytes, the body it reads off them and the
wire layout that it is the inverse of. -/
namespace ExferHonor
open Bytes

abbrev ByteReader (α : Type) := Reader Thrown UInt8 α

namespace ByteReader

def truncated (n pos left : Nat) : Thrown :=
  .error 7 none s!"tx_hex truncated: need {n} bytes at offset {pos}, have {left}"

def need (n : Nat) : ByteReader Unit := Reader.need n (truncated n)

/-- `bytes[i]` as the operand of a bitwise operator -/
def word (bytes : List UInt8) (i : Nat) : BitVec 32 := (bytes.getD i 0).toBitVec.setWidth 32

def u8 : ByteReader UInt8 := do
  need 1
  Reader.slice 1 fun b => b.getD 0 0

/-- The operators give a signed 32-bit integer. -/
def u16le : ByteReader Nat := do
  need 2
  Reader.slice 2 fun b => (word b 0 ||| word b 1 <<< 8).toInt.toNat

/-- `>>> 0` takes the bits for an unsigned integer. -/
def u32le : ByteReader Nat := do
  need 4
  Reader.slice 4 fun b =>
    (word b 0 ||| word b 1 <<< 8 ||| word b 2 <<< 16 ||| word b 3 <<< 24).toNat

/-- `for (let i = 7; i >= 0; i--) v = (v << 8n) | BigInt(b[i])` -/
def u64le : ByteReader Nat := do
  need 8
  Reader.slice 8 fun b => b.foldr (fun byte v => v <<< 8 ||| byte.toNat) 0

def hex (n : Nat) : ByteReader Hex := do
  need n
  Reader.slice n hexText

def skipVarBytes : ByteReader Unit := do
  let len ← u16le
  need len
  Reader.slice len fun _ => ()

def varBytesHex : ByteReader Hex := do
  let len ← u16le
  hex len

def flagged (nonCanonical : UInt8 → Thrown) (field : ByteReader Unit) : ByteReader Unit := do
  let flag ← u8
  if flag = 1 then field
  else if flag ≠ 0 then Reader.fail (nonCanonical flag)
  else Reader.pure ()

end ByteReader

structure DecodedInput where
  prevTxId : Hex
  prevOutputIndex : Int
  deriving DecidableEq, Repr

structure DecodedOutput where
  value : Int
  scriptHex : Hex
  deriving DecidableEq, Repr

structure DecodedTx where
  inputs : List DecodedInput
  outputs : List DecodedOutput
  deriving DecidableEq, Repr

namespace DecodedTx
open ByteReader

def hasDatumFlag (flag : UInt8) : Thrown :=
  .error 8 none s!"non-canonical has_datum flag: {flag}"

def hasDatumHashFlag (flag : UInt8) : Thrown :=
  .error 9 none s!"non-canonical has_datum_hash flag: {flag}"

def readInput : ByteReader DecodedInput := do
  let prevTxId ← hex 32
  let prevOutputIndex ← u32le
  Reader.pure ⟨prevTxId, prevOutputIndex⟩

def readOutput : ByteReader DecodedOutput := do
  let value ← u64le
  let scriptHex ← varBytesHex
  flagged hasDatumFlag skipVarBytes
  flagged hasDatumHashFlag ((hex 32).bind fun _ => Reader.pure ())
  Reader.pure ⟨value, scriptHex⟩

def readBody : ByteReader DecodedTx := do
  let inputCount ← u16le
  let outputCount ← u16le
  let inputs ← readInput.times inputCount
  let outputs ← readOutput.times outputCount
  Reader.pure ⟨inputs, outputs⟩

end DecodedTx

/-- Witnesses follow the body and are not read. -/
def decodeTxHex (txHex : JsString) : Except Thrown DecodedTx :=
  (hexToBytes txHex).bind fun bytes => (DecodedTx.readBody bytes 0).map Prod.fst

/-! The wire layout. -/

def Counted (α : Type) : Type := {items : List α // items.length < 256 ^ 2}

abbrev VarBytes := Counted UInt8

structure TxInput where
  prevTxId : Vector UInt8 32
  outputIndex : UInt32

structure TxOutput where
  value : UInt64
  script : VarBytes
  datum : Option VarBytes
  datumHash : Option (Vector UInt8 32)

structure TxBody where
  inputs : Counted TxInput
  outputs : Counted TxOutput

def VarBytes.encode (bytes : VarBytes) : List UInt8 := toBytes 2 bytes.val.length ++ bytes.val

def encodeFlagged {α : Type} (encode : α → List UInt8) : Option α → List UInt8
  | none => [0]
  | some field => 1 :: encode field

def TxInput.encode (input : TxInput) : List UInt8 :=
  input.prevTxId.toList ++ toBytes 4 input.outputIndex.toNat

def TxOutput.encode (output : TxOutput) : List UInt8 :=
  toBytes 8 output.value.toNat ++ (output.script.encode ++
    (encodeFlagged VarBytes.encode output.datum ++
      encodeFlagged Vector.toList output.datumHash))

def TxBody.encode (body : TxBody) : List UInt8 :=
  toBytes 2 body.inputs.val.length ++ (toBytes 2 body.outputs.val.length ++
    (body.inputs.val.flatMap TxInput.encode ++ body.outputs.val.flatMap TxOutput.encode))

def TxInput.decoded (input : TxInput) : DecodedInput :=
  ⟨hexText input.prevTxId.toList, input.outputIndex.toNat⟩

def TxOutput.decoded (output : TxOutput) : DecodedOutput :=
  ⟨output.value.toNat, hexText output.script.val⟩

def TxBody.decoded (body : TxBody) : DecodedTx :=
  ⟨body.inputs.val.map TxInput.decoded, body.outputs.val.map TxOutput.decoded⟩

/-! Each reader is exact for its part of the layout. -/
open Reader

namespace ByteReader

theorem u8_exact : Exact u8 fun flag own => own = [flag] := by
  refine (Exact.block 1 (truncated 1) fun b : List UInt8 => b.getD 0 0).congr fun flag own => ?_
  constructor
  · rintro ⟨hlength, rfl⟩
    obtain ⟨b, rfl⟩ := List.length_eq_one_iff.1 hlength
    rfl
  · rintro rfl
    exact ⟨rfl, rfl⟩

theorem number_exact {width : Nat} {read : List UInt8 → Nat}
    (value : ∀ own : List UInt8, own.length = width → read own = ofBytes own) :
    Exact ((need width).bind fun _ => slice width read) fun n own =>
      n < 256 ^ width ∧ own = toBytes width n := by
  refine (Exact.block width (truncated width) read).congr fun n own => ?_
  rw [← eq_ofBytes_iff]
  exact and_congr_right fun hlength => by rw [value own hlength]

theorem u16le_exact : Exact u16le fun n own => n < 256 ^ 2 ∧ own = toBytes 2 n := by
  refine number_exact fun own hlength => ?_
  obtain ⟨b₀, b₁, rfl⟩ := List.length_eq_two.1 hlength
  have small : (word [b₀, b₁] 0 ||| word [b₀, b₁] 1 <<< 8).toNat = ofBytes [b₀, b₁] :=
    word16 b₀ b₁
  have fits : ofBytes [b₀, b₁] < 65536 := by simpa using ofBytes_lt [b₀, b₁]
  rw [BitVec.toInt_eq_toNat_of_lt (by omega), small, Int.toNat_natCast]

theorem u32le_exact : Exact u32le fun n own => n < 256 ^ 4 ∧ own = toBytes 4 n := by
  refine number_exact fun own hlength => ?_
  obtain ⟨b₀, b₁, b₂, b₃, rfl⟩ := List.length_eq_four.1 hlength
  exact word32 b₀ b₁ b₂ b₃

theorem u64le_exact : Exact u64le fun n own => n < 256 ^ 8 ∧ own = toBytes 8 n :=
  number_exact fun own _ => foldr_or own

theorem hex_exact (n : Nat) : Exact (hex n) fun text own => own.length = n ∧ text = hexText own :=
  Exact.block n (truncated n) hexText

theorem counted_exact {α : Type} {field : Nat → ByteReader α} {read : List UInt8 → α}
    (exact_ : ∀ n, Exact (field n) fun value own => own.length = n ∧ value = read own) :
    Exact (u16le.bind field) (Codes (fun bytes : VarBytes => read bytes.val) VarBytes.encode) := by
  refine (Exact.bind u16le_exact exact_).congr fun value own => ⟨?_, ?_⟩
  · rintro ⟨_, _, back, ⟨fits, rfl⟩, ⟨rfl, rfl⟩, rfl⟩
    exact ⟨⟨back, fits⟩, rfl, rfl⟩
  · rintro ⟨bytes, rfl, rfl⟩
    exact ⟨_, _, _, ⟨bytes.property, rfl⟩, ⟨rfl, rfl⟩, rfl⟩

theorem varBytesHex_exact :
    Exact varBytesHex (Codes (fun bytes : VarBytes => hexText bytes.val) VarBytes.encode) :=
  counted_exact hex_exact

theorem skipVarBytes_exact : Exact skipVarBytes (Codes (fun _ => ()) VarBytes.encode) :=
  counted_exact fun n => Exact.block n (truncated n) fun _ => ()

theorem flagged_exact {σ : Type} {encode : σ → List UInt8} {field : ByteReader Unit}
    (nonCanonical : UInt8 → Thrown) (exact_ : Exact field (Codes (fun _ => ()) encode)) :
    Exact (flagged nonCanonical field) (Codes (fun _ => ()) (encodeFlagged encode)) := by
  refine (Exact.bind u8_exact fun flag => Exact.ite exact_ (Exact.ite (Exact.fail _)
    (Exact.pure ()))).congr fun _ own => ⟨?_, ?_⟩
  · rintro ⟨flag, _, back, rfl, hfield, rfl⟩
    split at hfield
    next one =>
      obtain ⟨source, -, rfl⟩ := hfield
      exact ⟨some source, rfl, by rw [one]; rfl⟩
    next =>
      split at hfield
      next => contradiction
      next zero =>
        obtain ⟨-, rfl⟩ := hfield
        exact ⟨none, rfl, by rw [not_not.1 zero]; rfl⟩
  · rintro ⟨_ | source, -, rfl⟩
    · exact ⟨0, [0], [], rfl, ⟨rfl, rfl⟩, rfl⟩
    · exact ⟨1, [1], encode source, rfl, ⟨source, rfl, rfl⟩, rfl⟩

end ByteReader

namespace DecodedTx
open ByteReader

theorem exists_vector {own : List UInt8} (hlength : own.length = 32) :
    ∃ vector : Vector UInt8 32, vector.toList = own :=
  ⟨⟨own.toArray, by simpa using hlength⟩, by simp⟩

theorem readInput_exact : Exact readInput (Codes TxInput.decoded TxInput.encode) := by
  refine (Exact.bind (hex_exact 32) fun prevTxId => Exact.bind u32le_exact fun index =>
    Exact.pure _).congr fun value own => ⟨?_, ?_⟩
  · rintro ⟨_, front, _, ⟨hlength, rfl⟩, ⟨index, _, _, ⟨fits, rfl⟩, ⟨rfl, rfl⟩, rfl⟩, rfl⟩
    obtain ⟨prevTxId, rfl⟩ := exists_vector hlength
    have small : (UInt32.ofNat index).toNat = index := UInt32.toNat_ofNat_of_lt' fits
    exact ⟨⟨prevTxId, .ofNat index⟩, by simp [TxInput.decoded, small],
      by simp [TxInput.encode, small]⟩
  · rintro ⟨input, rfl, rfl⟩
    exact ⟨_, _, _, ⟨by simp, rfl⟩, ⟨_, _, [], ⟨input.outputIndex.toNat_lt, rfl⟩,
      ⟨rfl, rfl⟩, rfl⟩, by simp [TxInput.encode]⟩

theorem datumHash_exact : Exact ((hex 32).bind fun _ => Reader.pure ())
    (Codes (fun _ => ()) (Vector.toList : Vector UInt8 32 → List UInt8)) := by
  refine (Exact.bind (hex_exact 32) fun _ => Exact.pure ()).congr fun _ own => ⟨?_, ?_⟩
  · rintro ⟨_, front, _, ⟨hlength, rfl⟩, ⟨-, rfl⟩, rfl⟩
    obtain ⟨hash, rfl⟩ := exists_vector hlength
    exact ⟨hash, rfl, by simp⟩
  · rintro ⟨hash, -, rfl⟩
    exact ⟨_, hash.toList, [], ⟨hash.length_toList, rfl⟩, ⟨rfl, rfl⟩, by simp⟩

theorem readOutput_exact : Exact readOutput (Codes TxOutput.decoded TxOutput.encode) := by
  refine (Exact.bind u64le_exact fun value => Exact.bind varBytesHex_exact fun scriptHex =>
    Exact.bind (flagged_exact hasDatumFlag skipVarBytes_exact) fun _ =>
    Exact.bind (flagged_exact hasDatumHashFlag datumHash_exact) fun _ =>
    Exact.pure _).congr fun result own => ⟨?_, ?_⟩
  · rintro ⟨value, _, _, ⟨fits, rfl⟩, ⟨_, _, _, ⟨script, rfl, rfl⟩, ⟨_, _, _, ⟨datum, -, rfl⟩,
      ⟨_, _, _, ⟨datumHash, -, rfl⟩, ⟨rfl, rfl⟩, rfl⟩, rfl⟩, rfl⟩, rfl⟩
    have small : (UInt64.ofNat value).toNat = value := UInt64.toNat_ofNat_of_lt' fits
    exact ⟨⟨.ofNat value, script, datum, datumHash⟩, by simp [TxOutput.decoded, small],
      by simp [TxOutput.encode, small]⟩
  · rintro ⟨output, rfl, rfl⟩
    exact ⟨_, _, _, ⟨output.value.toNat_lt, rfl⟩, ⟨_, _, _, ⟨output.script, rfl, rfl⟩,
      ⟨(), _, _, ⟨output.datum, rfl, rfl⟩, ⟨(), _, [], ⟨output.datumHash, rfl, rfl⟩,
        ⟨rfl, rfl⟩, rfl⟩, rfl⟩, rfl⟩, by simp [TxOutput.encode]⟩

theorem readBody_exact : Exact readBody (Codes TxBody.decoded TxBody.encode) := by
  refine (Exact.bind u16le_exact fun inputCount => Exact.bind u16le_exact fun outputCount =>
    Exact.bind (readInput_exact.times_codes inputCount) fun _ =>
    Exact.bind (readOutput_exact.times_codes outputCount) fun _ =>
    Exact.pure _).congr fun result own => ⟨?_, ?_⟩
  · rintro ⟨_, _, _, ⟨fits, rfl⟩, ⟨_, _, _, ⟨fits', rfl⟩, ⟨_, _, _, ⟨inputs, rfl, rfl, rfl⟩,
      ⟨_, _, _, ⟨outputs, rfl, rfl, rfl⟩, ⟨rfl, rfl⟩, rfl⟩, rfl⟩, rfl⟩, rfl⟩
    exact ⟨⟨⟨inputs, fits⟩, ⟨outputs, fits'⟩⟩, rfl, by simp [TxBody.encode]⟩
  · rintro ⟨body, rfl, rfl⟩
    exact ⟨_, _, _, ⟨body.inputs.property, rfl⟩, ⟨_, _, _, ⟨body.outputs.property, rfl⟩,
      ⟨_, _, _, ⟨body.inputs.val, rfl, rfl, rfl⟩, ⟨_, _, [], ⟨body.outputs.val, rfl, rfl, rfl⟩,
        ⟨rfl, rfl⟩, rfl⟩, rfl⟩, rfl⟩, by simp [TxBody.encode]⟩

end DecodedTx

theorem decodeTxHex_of_bytes {txHex : JsString} {bytes : List UInt8}
    (read : hexToBytes txHex = .ok bytes) (tx : DecodedTx) :
    decodeTxHex txHex = .ok tx ↔
      ∃ body : TxBody, body.decoded = tx ∧ body.encode <+: bytes := by
  have exact_ := DecodedTx.readBody_exact bytes 0 (Nat.zero_le _) tx
  unfold decodeTxHex
  rw [read]
  simp only [Except.bind]
  constructor
  · intro decoded
    cases hbody : DecodedTx.readBody bytes 0 with
    | error e => simp [hbody, Except.map] at decoded
    | ok result =>
      simp only [hbody, Except.map, Except.ok.injEq] at decoded
      subst decoded
      obtain ⟨_, ⟨body, hdecoded, rfl⟩, starts, -⟩ := (exact_ _).1 hbody
      exact ⟨body, hdecoded, by simpa using starts⟩
  · rintro ⟨body, rfl, starts⟩
    rw [(exact_ _).2 ⟨_, ⟨body, rfl, rfl⟩, by simpa using starts, rfl⟩]
    rfl

/-- The decoder returns on the hex of a body with anything behind it, and what it returns is that
body. -/
theorem decodeTxHex_hexText (bytes : List UInt8) (tx : DecodedTx) :
    decodeTxHex (codeUnits (hexText bytes)) = .ok tx ↔
      ∃ body : TxBody, body.decoded = tx ∧ body.encode <+: bytes :=
  decodeTxHex_of_bytes (hexToBytes_hexText bytes) tx

theorem decodeTxHex_truncated (body : TxBody) (bytes : List UInt8) (cut : bytes <+: body.encode)
    (proper : bytes ≠ body.encode) :
    ∃ e, decodeTxHex (codeUnits (hexText bytes)) = .error e := by
  obtain ⟨e, fails⟩ :=
    DecodedTx.readBody_exact.fails_of_proper_prefix ⟨body, rfl, rfl⟩ cut proper
  exact ⟨e, by rw [decodeTxHex, hexToBytes_hexText, Except.bind, fails]; rfl⟩

end ExferHonor
