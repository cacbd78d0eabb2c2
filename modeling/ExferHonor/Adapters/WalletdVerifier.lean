import ExferHonor.Effects.Runs
import ExferHonor.Spec.Errors
import ExferHonor.Spec.Types

/-! The ACCEPT bridge over walletd's `quote_verify`: the quote it makes of a verified credential,
and which of the call's errors it takes for a malformed one. -/
namespace ExferHonor
open Effects

/-- The credential's fields that the bridge reads; the numbers are integral. -/
structure QuoteJson where
  quoteId : String
  exferAmount : Int
  payeePubkey : String
  payerPubkey : Option String
  issuedAt : Int
  expiresAt : Int
  signerPubkey : String
  deriving DecidableEq, Repr

structure QuoteVerifyResult where
  valid : Bool
  reason : Option String
  deriving DecidableEq, Repr

inductive AcceptOutcome where
  | accepted (quote : AcceptedQuote)
  | rejected (reason : String)
  deriving DecidableEq, Repr

/-- The payer is `null` exactly if `payer_pubkey` is absent. -/
def toAcceptedQuote (q : QuoteJson) (form : SettlementFormId) : AcceptedQuote where
  quoteId := q.quoteId
  signerPubkey := q.signerPubkey
  payeePubkey := q.payeePubkey
  payerPubkey := q.payerPubkey
  exferAmount := q.exferAmount
  expiresAt := q.expiresAt
  issuedAt := q.issuedAt
  form := form

inductive VerifyOp where
  | quoteVerify (quote : QuoteJson)

abbrev VerifyOp.Reply : VerifyOp → Type
  | .quoteVerify _ => Except Thrown QuoteVerifyResult

/-- One marker stands in `text` with no letter next to it. -/
def OccursAlone (isLetter : Char → Bool) (marker text : List Char) : Prop :=
  ∃ before behind, text = before ++ marker ++ behind ∧
    before.getLast?.any isLetter = false ∧ behind.head?.any isLetter = false

def OccursInWord (isLetter : Char → Bool) (marker text : List Char) : Prop :=
  ∃ before behind, text = before ++ marker ++ behind ∧
    (before.getLast?.any isLetter = true ∨ behind.head?.any isLetter = true)

theorem occursAlone_iff (isLetter : Char → Bool) (marker text : List Char) :
    OccursAlone isLetter marker text ↔ ∃ n ∈ List.range (text.length + 1),
      marker <+: text.drop n ∧ (text.take n).getLast?.any isLetter = false ∧
        (text.drop (n + marker.length)).head?.any isLetter = false := by
  constructor
  · rintro ⟨before, behind, rfl, alone⟩
    refine ⟨before.length, List.mem_range.2 (by simp only [List.length_append]; omega), ?_⟩
    rw [List.append_assoc, List.drop_left, List.take_left, ← List.append_assoc,
      ← List.length_append, List.drop_left]
    exact ⟨List.prefix_append _ _, alone⟩
  · rintro ⟨n, -, ⟨behind, split⟩, before, after⟩
    refine ⟨text.take n, behind, ?_, before, ?_⟩
    · rw [List.append_assoc, split, List.take_append_drop]
    · rwa [← List.drop_drop, ← split, List.drop_left] at after

instance (isLetter : Char → Bool) (marker text : List Char) :
    Decidable (OccursAlone isLetter marker text) :=
  decidable_of_iff _ (occursAlone_iff isLetter marker text).symm

theorem infix_iff_occurs (isLetter : Char → Bool) (marker text : List Char) :
    marker <:+: text ↔ OccursAlone isLetter marker text ∨ OccursInWord isLetter marker text := by
  constructor
  · rintro ⟨before, behind, rfl⟩
    by_cases alone :
        before.getLast?.any isLetter = false ∧ behind.head?.any isLetter = false
    · exact .inl ⟨before, behind, rfl, alone⟩
    · refine .inr ⟨before, behind, rfl, ?_⟩
      simpa only [Classical.not_and_iff_not_or_not, Bool.not_eq_false] using alone
  · rintro (⟨before, behind, rfl, -⟩ | ⟨before, behind, rfl, -⟩) <;>
      exact ⟨before, behind, rfl⟩

namespace WalletdVerifier
variable (toLowerCase : String → String)

def decodeMarkers : List String :=
  ["-32602", "bad hex", "badhex", "bad params", "badparams", "invalid params", "strict decode",
    "wrong length", "expected"]

def isStrictDecodeFault (e : Thrown) : Except Thrown Bool := do
  let code ← e.readCode
  if code = some (.number (-32602)) then return true
  e.mentionsAny toLowerCase decodeMarkers

def malformed (e : Thrown) : Thrown :=
  .honorError .malformedQuote
    "quote_verify rejected the credential at strict decode (≈ -32602)" e

def unavailable (e : Thrown) : Thrown :=
  .honorError .chainFault
    "quote_verify unavailable (transient node/transport fault during genesis fetch)" e

def accept (quote : QuoteJson) (form : SettlementFormId) :
    Program VerifyOp VerifyOp.Reply Thrown AcceptOutcome := do
  let res ← (.call (.quoteVerify quote) .ofExcept :
      Program VerifyOp VerifyOp.Reply Thrown QuoteVerifyResult).handle fun e => do
    if ← Program.ofExcept (isStrictDecodeFault toLowerCase e) then throw (malformed e)
    else throw (unavailable e)
  if !res.valid then pure (.rejected (res.reason.getD "quote_verify: not valid"))
  else pure (.accepted (toAcceptedQuote quote form))

/-- `accept` when `quote_verify` throws. -/
def acceptThrows (quote : QuoteJson) (form : SettlementFormId) (e : Thrown) :
    Except Thrown AcceptOutcome :=
  (accept toLowerCase quote form).eval fun (.quoteVerify _) => .error e

def isChainFault : Except Thrown AcceptOutcome → Bool
  | .error (.honorError .chainFault _ _) => true
  | _ => false

variable {toLowerCase}

theorem isStrictDecodeFault_of_isReadable {e : Thrown} (readable : e.isReadable = true)
    (code : e.code? ≠ some (.number (-32602))) :
    isStrictDecodeFault toLowerCase e =
      .ok (decide (∃ marker ∈ decodeMarkers, marker.toList <:+: e.lowered toLowerCase)) := by
  unfold isStrictDecodeFault
  rw [Thrown.readCode_of_isReadable readable]
  simp only [bind, Except.bind, if_neg code]
  exact Thrown.mentionsAny_of_isReadable toLowerCase readable (by decide)

theorem acceptThrows_eq (quote : QuoteJson) (form : SettlementFormId) (e : Thrown) :
    acceptThrows toLowerCase quote form e =
      (isStrictDecodeFault toLowerCase e).bind fun strict =>
        .error (if strict then malformed e else unavailable e) := by
  unfold acceptThrows accept
  cases hstrict : isStrictDecodeFault toLowerCase e with
  | error other => simp [Program.handle, Program.eval, hstrict, Except.bind]
  | ok strict => cases strict <;> simp [Program.handle, Program.eval, hstrict, Except.bind] <;> rfl

theorem acceptThrows_unreadable (quote : QuoteJson) (form : SettlementFormId) {e : Thrown}
    (unreadable : e.isReadable = false) :
    isChainFault (acceptThrows toLowerCase quote form e) = false := by
  cases e <;> first | rfl | cases unreadable

theorem isChainFault_acceptThrows_iff (quote : QuoteJson) (form : SettlementFormId) {e : Thrown}
    (readable : e.isReadable = true) (code : e.code? ≠ some (.number (-32602))) :
    isChainFault (acceptThrows toLowerCase quote form e) = true ↔
      ∀ marker ∈ decodeMarkers, ¬ marker.toList <:+: e.lowered toLowerCase := by
  rw [acceptThrows_eq, isStrictDecodeFault_of_isReadable readable code]
  by_cases found : ∃ marker ∈ decodeMarkers, marker.toList <:+: e.lowered toLowerCase
  · simp only [decide_eq_true found, Except.bind, if_true, isChainFault, malformed,
      Bool.false_eq_true, false_iff]
    obtain ⟨marker, listed, occurs⟩ := found
    exact fun clean => clean marker listed occurs
  · simp only [decide_eq_false found, Except.bind, Bool.false_eq_true, if_false, isChainFault,
      unavailable, true_iff]
    exact fun marker listed occurs => found ⟨marker, listed, occurs⟩

/-- Of an error that has no marker standing alone, `accept` makes a `chain_fault` exactly when it
has none inside a longer word either. -/
theorem chain_fault_iff (isLetter : Char → Bool) (quote : QuoteJson) (form : SettlementFormId)
    (e : Thrown) (code : e.code? ≠ some (.number (-32602)))
    (unmarked : ∀ marker ∈ decodeMarkers,
      ¬ OccursAlone isLetter marker.toList (e.lowered toLowerCase)) :
    isChainFault (acceptThrows toLowerCase quote form e) = true ↔
      e.isReadable = true ∧ ∀ marker ∈ decodeMarkers,
        ¬ OccursInWord isLetter marker.toList (e.lowered toLowerCase) := by
  cases hreadable : e.isReadable with
  | false => simp [acceptThrows_unreadable quote form hreadable]
  | true =>
    rw [isChainFault_acceptThrows_iff quote form hreadable code]
    simp only [true_and]
    refine forall₂_congr fun marker listed => not_congr ?_
    rw [infix_iff_occurs isLetter]
    exact or_iff_right (unmarked marker listed)

def sampleQuoteJson : QuoteJson where
  quoteId := "q"
  exferAmount := 100
  payeePubkey := "payee"
  payerPubkey := none
  issuedAt := 0
  expiresAt := 10
  signerPubkey := "signer"

def nodeDown : Thrown := .error 18 none "node down"

theorem nodeDown_unmarked :
    ∀ marker ∈ decodeMarkers, ¬ marker.toList <:+: nodeDown.lowered asciiLower := by
  decide +kernel

theorem chain_fault_iff_down :
    isChainFault (acceptThrows asciiLower sampleQuoteJson .plain nodeDown) = true := by
  have unmarked {marker : String} (listed : marker ∈ decodeMarkers) :=
    mt (infix_iff_occurs Char.isAlpha _ _).mpr (nodeDown_unmarked marker listed)
  exact (chain_fault_iff Char.isAlpha sampleQuoteJson .plain nodeDown (by decide)
    fun marker listed alone => unmarked listed (.inl alone)).mpr
      ⟨rfl, fun marker listed inWord => unmarked listed (.inr inWord)⟩

def upstreamUnexpected : Thrown := .error 19 none "UpstreamUnexpected: connection reset"

theorem upstream_malformed :
    upstreamUnexpected.code? ≠ some (.number (-32602)) ∧
      (∀ marker ∈ decodeMarkers, ¬ OccursAlone Char.isAlpha marker.toList
        (upstreamUnexpected.lowered asciiLower)) ∧
      acceptThrows asciiLower sampleQuoteJson .plain upstreamUnexpected =
        .error (malformed upstreamUnexpected) := by
  refine ⟨by decide, by decide +kernel, ?_⟩
  have found : ∃ marker ∈ decodeMarkers,
      marker.toList <:+: upstreamUnexpected.lowered asciiLower := by decide +kernel
  rw [acceptThrows_eq, isStrictDecodeFault_of_isReadable rfl (by decide), decide_eq_true found]
  rfl

end WalletdVerifier
end ExferHonor
