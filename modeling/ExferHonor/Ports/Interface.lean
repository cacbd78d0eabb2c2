import ExferHonor.Effects.Footprint
import ExferHonor.Ports.Store

/-! The operations an engine call can perform on its ports, and on the two in-process maps of
the HTLC form and of the engine. A reply that is an `Except` can be a throw. -/
namespace ExferHonor
open Effects

structure RawSettlementCandidate where
  outpoint : Outpoint
  value : Int
  scriptHex : Hex
  blockHeight : Option Int
  deriving DecidableEq, Repr

structure OutputDatum where
  quoteIdHex : Option QuoteId
  honorable : Bool
  deriving DecidableEq, Repr

inductive HtlcState where
  | locked
  | claimed
  | reclaimed
  deriving DecidableEq, Repr

structure OnChainHtlc where
  lock : Outpoint
  receiverPubkey : PubKey
  senderPubkey : PubKey
  hashLock : Hex
  timeoutHeight : Int
  value : Int
  lockBlockHeight : Option Int
  state : HtlcState
  deriving DecidableEq, Repr

/-- A known transaction; `blockHeight` is `none` while it is unconfirmed. -/
structure TxInfo where
  blockHeight : Option Int
  deriving DecidableEq, Repr

structure ClaimRecord where
  claimTxId : Hex
  lock : Outpoint
  deriving DecidableEq, Repr

inductive Op (G : Type) where
  | clockNow
  | upsertAccepted (quote : AcceptedQuote) (acceptedAt retainUntil : Int)
  | getSeen (key : HonorKey)
  | markObservedBeforeExpiry (key : HonorKey) (now : Int)
  | reserveClaimOutpoint (key : HonorKey) (outpoint : Outpoint) (claimTxId : Hex) (now : Int)
  | runHonorTxn (input : HonorTxnInput G)
  | sweep (now : Int)
  | tipHeight
  | getOutputDatum (outpoint : Outpoint)
  | findSettlementsByQuoteId (quoteId : QuoteId)
  | getTransaction (txId : Hex)
  | getTxInputs (txId : Hex)
  | getOutputScript (outpoint : Outpoint)
  | getHtlc (lock : Outpoint)
  | submitClaim (htlc : OnChainHtlc) (preimage : Hex)
  | controlsPayee (payeePubkey : PubKey)
  | htlcPreimageFor (quoteId : QuoteId) (payeePubkey : PubKey)
  | claimsGet (rk : String)
  | claimsSet (rk : String) (record : ClaimRecord)
  | claimTxIdsGet (rowKey : String)
  | claimTxIdsSet (rowKey : String) (claimTxId : Hex)

variable {G : Type}

abbrev Op.Reply : Op G → Type
  | .clockNow => Except Thrown Int
  | .upsertAccepted _ _ _ => Except Thrown Unit
  | .getSeen _ => Except Thrown (Option SeenRow)
  | .markObservedBeforeExpiry _ _ => Except Thrown Unit
  | .reserveClaimOutpoint _ _ _ _ => Except Thrown Unit
  | .runHonorTxn _ => TxnReply
  | .sweep _ => Except Thrown SweepResult
  | .tipHeight => Except Thrown Int
  | .getOutputDatum _ => Except Thrown OutputDatum
  | .findSettlementsByQuoteId _ => Except Thrown (List RawSettlementCandidate)
  | .getTransaction _ => Except Thrown (Option TxInfo)
  | .getTxInputs _ => Except Thrown (List Outpoint)
  | .getOutputScript _ => Except Thrown Hex
  | .getHtlc _ => Except Thrown (Option OnChainHtlc)
  | .submitClaim _ _ => Except Thrown Hex
  | .controlsPayee _ => Except Thrown Bool
  | .htlcPreimageFor _ _ => Except Thrown (Option Hex)
  | .claimsGet _ => Option ClaimRecord
  | .claimsSet _ _ => Unit
  | .claimTxIdsGet _ => Option Hex
  | .claimTxIdsSet _ _ => Unit

def Op.isQuery : Op G → Bool
  | .tipHeight => true
  | .getOutputDatum _ => true
  | .findSettlementsByQuoteId _ => true
  | .getTransaction _ => true
  | .getTxInputs _ => true
  | .getOutputScript _ => true
  | .getHtlc _ => true
  | .controlsPayee _ => true
  | .htlcPreimageFor _ _ => true
  | _ => false

def Op.onlyReads : Op G → Bool
  | .clockNow => true
  | .getSeen _ => true
  | .claimsGet _ => true
  | .claimTxIdsGet _ => true
  | op => op.isQuery

theorem Op.onlyReads_of_isQuery {op : Op G} (query : op.isQuery = true) : op.onlyReads = true := by
  cases op <;> first | rfl | contradiction

/-- What a form is handed: the chain, the keystore, a claim reserver and its own map. -/
def Op.byForm : Op G → Bool
  | .submitClaim _ _ => true
  | .reserveClaimOutpoint _ _ _ _ => true
  | .claimsGet _ => true
  | .claimsSet _ _ => true
  | op => op.isQuery

theorem Op.byForm_of_isQuery {op : Op G} (query : op.isQuery = true) : op.byForm = true := by
  cases op <;> first | rfl | contradiction

abbrev PortCall (G : Type) := Call (Op G) Op.Reply
abbrev Async (G α : Type) := Program (Op G) Op.Reply Thrown α

namespace Port

def clockNow : Async G Int := .call .clockNow .ofExcept
def upsertAccepted (quote : AcceptedQuote) (acceptedAt retainUntil : Int) : Async G Unit :=
  .call (.upsertAccepted quote acceptedAt retainUntil) .ofExcept
def getSeen (key : HonorKey) : Async G (Option SeenRow) := .call (.getSeen key) .ofExcept
def markObservedBeforeExpiry (key : HonorKey) (now : Int) : Async G Unit :=
  .call (.markObservedBeforeExpiry key now) .ofExcept
def reserveClaimOutpoint (key : HonorKey) (outpoint : Outpoint) (claimTxId : Hex) (now : Int) :
    Async G Unit :=
  .call (.reserveClaimOutpoint key outpoint claimTxId now) .ofExcept
def runHonorTxn (input : HonorTxnInput G) : Async G TxnReply :=
  .call (.runHonorTxn input) .pure
def sweep (now : Int) : Async G SweepResult := .call (.sweep now) .ofExcept
def tipHeight : Async G Int := .call .tipHeight .ofExcept
def getOutputDatum (outpoint : Outpoint) : Async G OutputDatum :=
  .call (.getOutputDatum outpoint) .ofExcept
def findSettlementsByQuoteId (quoteId : QuoteId) : Async G (List RawSettlementCandidate) :=
  .call (.findSettlementsByQuoteId quoteId) .ofExcept
def getTransaction (txId : Hex) : Async G (Option TxInfo) := .call (.getTransaction txId) .ofExcept
def getTxInputs (txId : Hex) : Async G (List Outpoint) := .call (.getTxInputs txId) .ofExcept
def getOutputScript (outpoint : Outpoint) : Async G Hex :=
  .call (.getOutputScript outpoint) .ofExcept
def getHtlc (lock : Outpoint) : Async G (Option OnChainHtlc) := .call (.getHtlc lock) .ofExcept
def submitClaim (htlc : OnChainHtlc) (preimage : Hex) : Async G Hex :=
  .call (.submitClaim htlc preimage) .ofExcept
def controlsPayee (payeePubkey : PubKey) : Async G Bool :=
  .call (.controlsPayee payeePubkey) .ofExcept
def htlcPreimageFor (quoteId : QuoteId) (payeePubkey : PubKey) : Async G (Option Hex) :=
  .call (.htlcPreimageFor quoteId payeePubkey) .ofExcept
def claimsGet (rk : String) : Async G (Option ClaimRecord) := .call (.claimsGet rk) .pure
def claimsSet (rk : String) (record : ClaimRecord) : Async G Unit :=
  .call (.claimsSet rk record) .pure
def claimTxIdsGet (rowKey : String) : Async G (Option Hex) := .call (.claimTxIdsGet rowKey) .pure
def claimTxIdsSet (rowKey : String) (claimTxId : Hex) : Async G Unit :=
  .call (.claimTxIdsSet rowKey claimTxId) .pure

end Port

inductive PayerBinding where
  | consent
  | source
  deriving DecidableEq, Repr

structure HonorConfig where
  confirmationDepth : Int
  maxReorgDepth : Int
  claimMargin : Int
  maxRecheckWindow : Int
  payerBinding : PayerBinding
  requirePayerFunded : Bool
  addressDeriver : Option (PubKey → Hex)

structure OptionalPorts where
  submitClaim : Bool
  htlcPreimageFor : Bool
  deriving DecidableEq, Repr

structure ScoringCtx where
  quote : AcceptedQuote
  tip : Int
  now : Int
  config : HonorConfig
  optional : OptionalPorts

inductive PrepareResult where
  | ready
  | claimSubmitted (claimTxId : Hex)
  | wait (reason : WaitReason)
  deriving DecidableEq, Repr

/-- A strategy of the form registry; `prepare` takes the candidate of an `honor` verdict. A form
can call nothing but what it is handed. -/
structure SettlementForm (G : Type) where
  id : SettlementFormId
  discover : ScoringCtx → Async G (List RawSettlementCandidate)
  score : ScoringCtx → List RawSettlementCandidate → Async G HonorVerdict
  prepare : Option (ScoringCtx → SettlementCandidate → Async G PrepareResult)
  gateMode : GateMode
  discover_uses : ∀ ctx, Uses (·.byForm) (discover ctx)
  score_uses : ∀ ctx raw, Uses (·.byForm) (score ctx raw)
  prepare_uses : ∀ program ∈ prepare, ∀ ctx candidate, Uses (·.byForm) (program ctx candidate)

abbrev SettlementFormRegistry (G : Type) := SettlementFormId → Option (SettlementForm G)

end ExferHonor
