import Mathlib.Logic.Basic

/-! The canonical value types. Branded hex strings are plain strings at run time; `bigint` and
integral `number` values are integers. -/
namespace ExferHonor

abbrev Hex := String
abbrev QuoteId := Hex
abbrev PubKey := Hex

inductive SettlementFormId where
  | plain
  | htlc
  deriving DecidableEq, Repr

structure AcceptedQuote where
  quoteId : QuoteId
  signerPubkey : PubKey
  payeePubkey : PubKey
  payerPubkey : Option PubKey
  exferAmount : Int
  expiresAt : Int
  issuedAt : Int
  form : SettlementFormId
  deriving DecidableEq, Repr

structure Outpoint where
  txId : Hex
  outputIndex : Int
  deriving DecidableEq, Repr

structure SettlementCandidate where
  form : SettlementFormId
  quoteId : QuoteId
  txId : Hex
  outputIndex : Int
  value : Int
  scriptHex : Hex
  blockHeight : Option Int
  honorable : Bool
  deriving DecidableEq, Repr

/-- The outpoint that honoring the candidate consumes. -/
def SettlementCandidate.outpoint (candidate : SettlementCandidate) : Outpoint :=
  ⟨candidate.txId, candidate.outputIndex⟩

inductive WaitReason where
  | noCandidate
  | insufficientDepth
  | htlcClaimPending
  | reorgWithheld
  deriving DecidableEq, Repr

inductive DeclineReason where
  | expiredUnobserved
  | amountMismatch
  | datumUnhonorable
  | addressMismatch
  | payeeNotControlled
  | payerBindingFailed
  | alreadyHonored
  | outpointConsumed
  deriving DecidableEq, Repr

inductive HonorVerdict where
  | honor (candidate : SettlementCandidate) (form : SettlementFormId)
  | wait (reason : WaitReason) (detail : Option String)
  | decline (reason : DeclineReason) (detail : Option String)
  deriving DecidableEq, Repr

/-- The discriminant of a verdict. -/
inductive Decision where
  | honor
  | wait
  | decline
  deriving DecidableEq, Repr

def HonorVerdict.decision : HonorVerdict → Decision
  | .honor _ _ => .honor
  | .wait _ _ => .wait
  | .decline _ _ => .decline

/-- `deliveryFailed` is `{ status: "delivery_failed", retryable: true }`. -/
inductive HonorOutcome where
  | honored (outpoint : Outpoint)
  | notReady (verdict : HonorVerdict)
  | deliveryFailed
  deriving DecidableEq, Repr

structure HonorKey where
  signerPubkey : PubKey
  quoteId : QuoteId
  deriving DecidableEq, Repr

def AcceptedQuote.key (quote : AcceptedQuote) : HonorKey :=
  ⟨quote.signerPubkey, quote.quoteId⟩

def sampleQuote : AcceptedQuote where
  quoteId := "000102030405060708090a0b0c0d0e0f"
  signerPubkey := "aa"
  payeePubkey := "bb"
  payerPubkey := none
  exferAmount := 500
  expiresAt := 1000
  issuedAt := 0
  form := .plain

structure RegisterOpts where
  now : Option Int := none
  preScreenPayeeCustody : Bool := false
  rethrowDeliveryErrors : Bool := false
  deriving DecidableEq, Repr

structure RegisterResult where
  created : Bool
  retainUntil : Int
  deriving DecidableEq, Repr

structure ObserveResult where
  observedBeforeExpiry : Bool
  withinWindow : Bool
  deriving DecidableEq, Repr

inductive HonorStatus where
  | accepted
  | claimSubmitted (claimTxId : Hex)
  | honored (honoredAt : Int) (outpoint : Outpoint)
  deriving DecidableEq, Repr

/-- Discriminates a synchronous (better-sqlite3) store from an async (postgres) one. -/
inductive TxnModel where
  | sync
  | async
  deriving DecidableEq, Repr

def settlementDatumVersion : Nat := 1

end ExferHonor
