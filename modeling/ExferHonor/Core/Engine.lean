import ExferHonor.Core.Scorer

/-! The honor engine: its constructor's assertions and the six façade operations. -/
namespace ExferHonor
open Effects

variable {G : Type}

/-- Built by `createHonorEngine` only, which asserts the margin. -/
structure HonorEngine (G : Type) where
  deps : HonorDeps G
  margin : deps.config.claimMargin =
    deps.config.maxReorgDepth + deps.config.confirmationDepth + 1

/-- D1: the claim margin is derived and asserted at construction. -/
def createHonorEngine (deps : HonorDeps G) : Except Thrown (HonorEngine G) :=
  let maxReorgDepth := deps.config.maxReorgDepth
  let confirmationDepth := deps.config.confirmationDepth
  let claimMargin := deps.config.claimMargin
  let derived := maxReorgDepth + confirmationDepth + 1
  if margin : claimMargin = derived then .ok ⟨deps, margin⟩
  else .error (.honorError .claimMarginAssertion
    (s!"CLAIM_MARGIN must equal MAX_REORG_DEPTH({maxReorgDepth}) + " ++
      s!"CONFIRMATION_DEPTH({confirmationDepth}) + 1 = {derived}, got {claimMargin}") .undefined)

/-- What `honor` makes of the transaction's end. The wrapper around `deliver` records a
synchronous throw only; `rethrow` is `opts.rethrowDeliveryErrors`. -/
def settleTxn (rethrow : Bool) (outpoint : Outpoint) (reply : TxnReply) :
    Except Thrown HonorOutcome :=
  match reply.result with
  | .ok _ => .ok (.honored outpoint)
  | .error e =>
      match reply.called with
      | some (.error deliverThrew) =>
          if rethrow then .error deliverThrew else .ok .deliveryFailed
      | _ =>
          match e with
          | .gateViolation .seenAlreadyHonored _ => .ok (.notReady (.decline .alreadyHonored none))
          | .gateViolation .expiredWindow _ => .ok (.notReady (.decline .expiredUnobserved none))
          | .gateViolation .outpointConsumed _ => .ok (.notReady (.decline .outpointConsumed none))
          | e => .error e

namespace HonorEngine
variable (engine : HonorEngine G)

/-- `opt ?? this.deps.clock.now()` -/
def now (opt : Option Int) : Async G Int :=
  match opt with
  | some now => pure now
  | none => Port.clockNow

def rowKey (key : HonorKey) : String := key.signerPubkey ++ ":" ++ key.quoteId

/-- Unavailability is a retryable fault and never a negative answer. -/
def controlsPayeeOrThrow (payeePubkey : PubKey) : Async G Bool :=
  (Port.controlsPayee payeePubkey).handle fun e =>
    .throw (.honorError .keystoreFault "payee custody test unavailable" e)

def preScreen (quote : AcceptedQuote) (wanted : Bool) : Async G Unit :=
  if wanted then do
    let ok ← controlsPayeeOrThrow quote.payeePubkey
    if !ok then
      throw (.honorError .malformedQuote
        "payee not controlled at register-time pre-screen (R2/M3)" .undefined)
  else pure ()

def register (quote : AcceptedQuote) (opts : RegisterOpts) : Async G RegisterResult := do
  let now ← now opts.now
  let retainUntil := quote.expiresAt + engine.deps.config.maxRecheckWindow
  match ← Port.getSeen quote.key with
  | some existing => pure ⟨false, existing.retainUntil⟩
  | none => do
      preScreen quote opts.preScreenPayeeCustody
      Port.upsertAccepted quote now retainUntil
      pure ⟨true, retainUntil⟩

def markObserved (key : HonorKey) (observedAt : Int) : Async G ObserveResult := do
  match ← Port.getSeen key with
  | none => pure ⟨false, false⟩
  | some row => do
      let withinWindow := decide (observedAt < row.expiresAt)
      if withinWindow && !row.observedBeforeExpiry then
        Port.markObservedBeforeExpiry key observedAt
      pure ⟨withinWindow || row.observedBeforeExpiry, withinWindow⟩

def canHonor (key : HonorKey) : Async G HonorVerdict := do
  let now ← now none
  match gateStep0 (← Port.getSeen key) with
  | .error step0 => pure step0
  | .ok seen => scoreQuote engine.deps (quoteFromSeen seen) now

def prepare (form : SettlementForm G) (quote : AcceptedQuote) (now : Int)
    (candidate : SettlementCandidate) : Async G PrepareResult :=
  match form.prepare with
  | none => pure .ready
  | some prepare => do
      let tip ← Port.tipHeight
      prepare (scoringCtx engine.deps quote tip now) candidate

def txnInput (key : HonorKey) (deliver : Deliver G) (seen : SeenRow) (now : Int)
    (candidate : SettlementCandidate) (mode : GateMode) : HonorTxnInput G where
  key := key
  candidate := candidate
  outpoint := candidate.outpoint
  now := now
  retainUntil := seen.retainUntil
  mode := mode
  deliver := deliver

def runGate (key : HonorKey) (deliver : Deliver G) (rethrow : Bool) (seen : SeenRow)
    (now : Int) (candidate : SettlementCandidate) (mode : GateMode) : Async G HonorOutcome := do
  let reply ← Port.runHonorTxn (txnInput key deliver seen now candidate mode)
  Program.ofExcept (settleTxn rethrow candidate.outpoint reply)

def honorCandidate (key : HonorKey) (deliver : Deliver G) (rethrow : Bool) (seen : SeenRow)
    (now : Int) (candidate : SettlementCandidate) : Async G HonorOutcome := do
  let quote := quoteFromSeen seen
  let form ← Program.ofExcept (engine.deps.forms.get quote.form)
  match ← engine.prepare form quote now candidate with
  | .claimSubmitted claimTxId => do
      Port.claimTxIdsSet (rowKey key) claimTxId
      pure (.notReady (.wait .htlcClaimPending none))
  | .wait reason => pure (.notReady (.wait reason none))
  | .ready => runGate key deliver rethrow seen now candidate form.gateMode

def honor (key : HonorKey) (deliver : Deliver G) (opts : RegisterOpts) :
    Async G HonorOutcome := do
  let now ← now opts.now
  match gateStep0 (← Port.getSeen key) with
  | .error step0 => pure (.notReady step0)
  | .ok seen =>
      match ← scoreQuote engine.deps (quoteFromSeen seen) now with
      | .honor candidate _ =>
          engine.honorCandidate key deliver opts.rethrowDeliveryErrors seen now candidate
      | verdict => pure (.notReady verdict)

def status (key : HonorKey) : Async G (Option HonorStatus) := do
  match ← Port.getSeen key with
  | none => pure none
  | some row =>
      match row.honoredAt with
      | some honoredAt => pure (some (.honored honoredAt (row.honoredOutpoint.getD ⟨"", -1⟩)))
      | none => do
          match ← Port.claimTxIdsGet (rowKey key) with
          | some claimTxId => pure (some (.claimSubmitted claimTxId))
          | none => pure (some .accepted)

def sweep (now : Int) : Async G SweepResult := Port.sweep now

end HonorEngine
end ExferHonor
