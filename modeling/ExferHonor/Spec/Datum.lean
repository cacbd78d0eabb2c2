import ExferHonor.Spec.Types

/-! The strict settlement-datum codec: a v1 datum is the bare 16-byte quote id. -/
namespace ExferHonor

def quoteIdBytes : Nat := 16

inductive DecodeFailure where
  | notHex
  | oddLength
  | wrongLength
  | unknownVersion
  deriving DecidableEq, Repr

def DecodeFailure.text : DecodeFailure → String
  | .notHex => "not_hex"
  | .oddLength => "odd_length"
  | .wrongLength => "wrong_length"
  | .unknownVersion => "unknown_version"

def isHexDigit (c : Char) : Bool :=
  ('0' ≤ c && c ≤ '9') || ('a' ≤ c && c ≤ 'f')

/-- `/^[0-9a-f]*$/` -/
def isBareHex (s : String) : Bool := s.toList.all isHexDigit

def decodeSettlementDatum (datumHex : Hex) (version : Nat) : Except DecodeFailure QuoteId :=
  if version ≠ settlementDatumVersion then .error .unknownVersion
  else if !isBareHex datumHex then .error .notHex
  else if datumHex.length % 2 ≠ 0 then .error .oddLength
  else if datumHex.length / 2 ≠ quoteIdBytes then .error .wrongLength
  else .ok datumHex

/-- Exactly the strings that name a quote: 32 bare lowercase hex characters. -/
def IsQuoteId (s : String) : Prop := isBareHex s = true ∧ s.length = 32

instance (s : String) : Decidable (IsQuoteId s) := inferInstanceAs (Decidable (_ ∧ _))

theorem decodeSettlementDatum_ok_iff (datumHex : Hex) (quoteId : QuoteId) :
    decodeSettlementDatum datumHex settlementDatumVersion = .ok quoteId ↔
      IsQuoteId datumHex ∧ quoteId = datumHex := by
  unfold decodeSettlementDatum IsQuoteId quoteIdBytes
  rw [if_neg (by simp)]
  cases hhex : isBareHex datumHex
  · simp
  · simp only [Bool.not_true, Bool.false_eq_true, if_false, true_and]
    by_cases heven : datumHex.length % 2 = 0
    · by_cases hbytes : datumHex.length / 2 = 16
      · rw [if_neg (by simpa using heven), if_neg (by simpa using hbytes)]
        have hlength : datumHex.length = 32 := by omega
        simp [hlength, eq_comm]
      · rw [if_neg (by simpa using heven), if_pos hbytes]
        have hlength : datumHex.length ≠ 32 := by omega
        simp [hlength]
    · rw [if_pos heven]
      have hlength : datumHex.length ≠ 32 := by omega
      simp [hlength]

/-- Whatever the decoder accepts decodes to itself, so equal ids come from equal data. -/
theorem decodeSettlementDatum_of_isQuoteId {datumHex : Hex} (strict : IsQuoteId datumHex) :
    decodeSettlementDatum datumHex settlementDatumVersion = .ok datumHex :=
  (decodeSettlementDatum_ok_iff datumHex datumHex).2 ⟨strict, rfl⟩

theorem decodeSettlementDatum_error {datumHex : Hex} (loose : ¬ IsQuoteId datumHex) :
    ∃ reason, decodeSettlementDatum datumHex settlementDatumVersion = .error reason := by
  cases decoded : decodeSettlementDatum datumHex settlementDatumVersion with
  | error reason => exact ⟨reason, rfl⟩
  | ok quoteId => exact absurd ((decodeSettlementDatum_ok_iff _ _).1 decoded).1 loose

end ExferHonor
