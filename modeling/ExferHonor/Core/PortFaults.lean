import ExferHonor.Core.HtlcRuns
import ExferHonor.Core.World
import ExferHonor.Effects.Escape

/-! What a port that throws does to `canHonor` and `honor`: the only error either of them throws is
that of its last call, and nothing but the custody test is wrapped on the way out. -/
namespace ExferHonor
open Effects

variable {G : Type}

def Op.isChain : Op G → Bool
  | .tipHeight => true
  | .getOutputDatum _ => true
  | .findSettlementsByQuoteId _ => true
  | .getTransaction _ => true
  | .getTxInputs _ => true
  | .getOutputScript _ => true
  | .getHtlc _ => true
  | .submitClaim _ _ => true
  | _ => false

def Op.isCustodyTest : Op G → Bool
  | .controlsPayee _ => true
  | _ => false

def thrown? {α : Type} : Except Thrown α → Option Thrown
  | .ok _ => none
  | .error e => some e

theorem thrown?_eq_some_iff {α : Type} {result : Except Thrown α} {e : Thrown} :
    thrown? result = some e ↔ result = .error e := by
  cases result <;> simp [thrown?]

/-- What a call of a port throws. Of a transaction that is what `settleTxn` makes of its end: the
gate's refusals and, unless it is to be rethrown, a throw of `deliver` are outcomes. -/
def portFault (rethrow : Bool) : PortCall G → Option Thrown
  | ⟨.clockNow, reply⟩ => thrown? reply
  | ⟨.upsertAccepted _ _ _, reply⟩ => thrown? reply
  | ⟨.getSeen _, reply⟩ => thrown? reply
  | ⟨.markObservedBeforeExpiry _ _, reply⟩ => thrown? reply
  | ⟨.reserveClaimOutpoint _ _ _ _, reply⟩ => thrown? reply
  | ⟨.runHonorTxn input, reply⟩ => thrown? (settleTxn rethrow input.outpoint reply)
  | ⟨.sweep _, reply⟩ => thrown? reply
  | ⟨.tipHeight, reply⟩ => thrown? reply
  | ⟨.getOutputDatum _, reply⟩ => thrown? reply
  | ⟨.findSettlementsByQuoteId _, reply⟩ => thrown? reply
  | ⟨.getTransaction _, reply⟩ => thrown? reply
  | ⟨.getTxInputs _, reply⟩ => thrown? reply
  | ⟨.getOutputScript _, reply⟩ => thrown? reply
  | ⟨.getHtlc _, reply⟩ => thrown? reply
  | ⟨.submitClaim _ _, reply⟩ => thrown? reply
  | ⟨.controlsPayee _, reply⟩ => thrown? reply
  | ⟨.htlcPreimageFor _ _, reply⟩ => thrown? reply
  | ⟨.claimsGet _, _⟩ => none
  | ⟨.claimsSet _ _, _⟩ => none
  | ⟨.claimTxIdsGet _, _⟩ => none
  | ⟨.claimTxIdsSet _ _, _⟩ => none

def custodyFault (e : Thrown) : Thrown :=
  .honorError .keystoreFault "payee custody test unavailable (R2/M3)" e

def raised (rethrow : Bool) (call : PortCall G) : Option Thrown :=
  if call.op.isCustodyTest then (portFault rethrow call).map custodyFault
  else portFault rethrow call

abbrev RaisesFaults (rethrow : Bool) {α : Type} (program : Async G α) : Prop :=
  Raises (raised rethrow) program

section
variable (rethrow : Bool)

theorem checkPrevouts_raises (expectedPayerScript : Hex) (inputs : List Outpoint) :
    RaisesFaults rethrow (checkPrevouts (G := G) expectedPayerScript inputs) := by
  induction inputs with
  | nil => trivial
  | cons prevout inputs ih =>
    exact Raises.bind (Raises.ask fun _ _ => thrown?_eq_some_iff) fun script =>
      Raises.ite trivial ih

theorem checkPayerBinding_raises (ctx : ScoringCtx) (settlementTxId : Hex) :
    RaisesFaults rethrow (checkPayerBinding (G := G) ctx settlementTxId) := by
  unfold checkPayerBinding
  split
  · trivial
  · refine Raises.ite trivial (Raises.bind (Raises.ask fun _ _ => thrown?_eq_some_iff) ?_)
    exact fun inputs => Raises.ite trivial (checkPrevouts_raises rethrow _ _)

/-- The custody test is the one call whose error is wrapped. -/
theorem custodyTest_raises (payeePubkey : PubKey) :
    RaisesFaults rethrow ((Port.controlsPayee (G := G) payeePubkey).handle fun e =>
      .throw (custodyFault e)) := by
  intro reply
  cases reply with
  | ok controls => exact ⟨nofun, fun _ => trivial⟩
  | error e => exact ⟨fun _ raises => congrArg Program.throw (Option.some.inj raises), nofun⟩

theorem runCustodySpine_raises (ctx : ScoringCtx) (raw : RawSettlementCandidate)
    (formId : SettlementFormId) :
    RaisesFaults rethrow (runCustodySpine (G := G) ctx raw formId) := by
  refine Raises.bind (custodyTest_raises rethrow _) fun controls => Raises.ite trivial ?_
  refine Raises.bind (checkPayerBinding_raises rethrow _ _) fun payerFail => ?_
  cases payerFail <;> trivial

theorem runBindingSpine_raises (ctx : ScoringCtx) (raw : RawSettlementCandidate)
    (formId : SettlementFormId) :
    RaisesFaults rethrow (runBindingSpine (G := G) ctx raw formId) := by
  refine Raises.bind (Raises.ask fun _ _ => thrown?_eq_some_iff) fun datum => ?_
  split
  · split
    · trivial
    · exact Raises.ite trivial (Raises.ite trivial (Raises.ite trivial
        (runCustodySpine_raises rethrow _ _ _)))
  · trivial

namespace PlainOutputForm

theorem scoreLoop_raises (ctx : ScoringCtx) (raw : List RawSettlementCandidate)
    (lastDecline : Option HonorVerdict) (sawSkippedOnly : Bool) :
    RaisesFaults rethrow (scoreLoop (G := G) ctx raw lastDecline sawSkippedOnly) := by
  induction raw generalizing lastDecline sawSkippedOnly with
  | nil => cases lastDecline <;> trivial
  | cons c raw ih =>
    refine Raises.bind (runBindingSpine_raises rethrow ctx c .plain) fun spine => ?_
    split
    · exact ih _ _
    · exact ih _ _
    · split
      · trivial
      · exact ih _ _

theorem score_raises (ctx : ScoringCtx) (raw : List RawSettlementCandidate) :
    RaisesFaults rethrow (score (G := G) ctx raw) :=
  Raises.ite trivial (scoreLoop_raises rethrow ctx raw none true)

end PlainOutputForm

namespace HtlcForm

theorem score_raises (ctx : ScoringCtx) (raw : List RawSettlementCandidate) :
    RaisesFaults rethrow (score (G := G) ctx raw) := by
  cases raw with
  | nil => trivial
  | cons c rest =>
    refine Raises.bind (Raises.ask fun _ _ => thrown?_eq_some_iff) fun htlc => ?_
    split
    · trivial
    · split <;> trivial

theorem claimLock_raises (reserver : Bool) (ctx : ScoringCtx) (lock : Outpoint)
    (htlc : OnChainHtlc) (preimage : Hex) :
    RaisesFaults rethrow (claimLock (G := G) reserver ctx lock htlc preimage) := by
  have records (claimTxId : Hex) :
      RaisesFaults rethrow (recordClaim (G := G) ctx claimTxId lock) :=
    Raises.tell (fun _ => rfl) fun _ => trivial
  refine Raises.bind (Raises.ask fun _ _ => thrown?_eq_some_iff) fun claimTxId => ?_
  exact Raises.ite (Raises.bind (Raises.ask fun _ _ => thrown?_eq_some_iff) fun _ =>
    records claimTxId) (records claimTxId)

theorem phaseA_raises (reserver : Bool) (ctx : ScoringCtx) (candidate : SettlementCandidate) :
    RaisesFaults rethrow (phaseA (G := G) reserver ctx candidate) := by
  refine Raises.bind (Raises.ask fun _ _ => thrown?_eq_some_iff) fun htlc => ?_
  cases htlc with
  | none => trivial
  | some htlc =>
    refine Raises.ite trivial (Raises.ite trivial ?_)
    refine Raises.bind (Raises.ask fun _ _ => thrown?_eq_some_iff) fun preimage => ?_
    cases preimage with
    | none => trivial
    | some preimage => exact Raises.ite trivial (claimLock_raises rethrow _ _ _ _ _)

theorem phaseB_raises (ctx : ScoringCtx) (prior : ClaimRecord) :
    RaisesFaults rethrow (phaseB (G := G) ctx prior) := by
  refine Raises.bind (Raises.ask fun _ _ => thrown?_eq_some_iff) fun claim => ?_
  split
  · exact Raises.ite trivial trivial
  · trivial

theorem prepare_raises (reserver : Bool) (ctx : ScoringCtx) (candidate : SettlementCandidate) :
    RaisesFaults rethrow (prepare (G := G) reserver ctx candidate) := by
  refine Raises.tell (fun _ => rfl) fun prior => ?_
  cases prior with
  | none => exact phaseA_raises rethrow reserver ctx candidate
  | some prior => exact phaseB_raises rethrow ctx prior

end HtlcForm

theorem builtinForms_registered (reserver : Bool) (id : SettlementFormId) :
    ∃ form, (createFormRegistry (builtinForms (G := G) reserver)).get id = .ok form := by
  cases id <;> exact ⟨_, rfl⟩

theorem scoreQuote_raises {deps : HonorDeps G} {reserver : Bool}
    (forms : deps.forms = createFormRegistry (builtinForms reserver)) (quote : AcceptedQuote)
    (now : Int) : RaisesFaults rethrow (scoreQuote deps quote now) := by
  obtain ⟨form, registered⟩ := builtinForms_registered (G := G) reserver quote.form
  unfold scoreQuote
  rw [forms, registered]
  simp only [Program.ofExcept_ok, Program.bind_eq, Program.pure_bind]
  refine Raises.bind (Raises.ask fun _ _ => thrown?_eq_some_iff) fun tip => ?_
  rcases builtinForms_get registered with ⟨_, rfl⟩ | ⟨_, rfl⟩
  · exact Raises.bind (Raises.ask fun _ _ => thrown?_eq_some_iff) fun raw =>
      PlainOutputForm.score_raises rethrow _ raw
  · exact Raises.bind (Raises.ask fun _ _ => thrown?_eq_some_iff) fun raw =>
      HtlcForm.score_raises rethrow _ raw

namespace HonorEngine

theorem now_raises (opt : Option Int) : RaisesFaults rethrow (now (G := G) opt) := by
  cases opt with
  | none => exact Raises.ask fun _ _ => thrown?_eq_some_iff
  | some now => trivial

variable {engine : HonorEngine G} {reserver : Bool}

theorem canHonor_raises
    (forms : engine.deps.forms = createFormRegistry (builtinForms reserver)) (key : HonorKey) :
    RaisesFaults rethrow (engine.canHonor key) := by
  refine Raises.bind (now_raises rethrow none) fun now => ?_
  refine Raises.bind (Raises.ask fun _ _ => thrown?_eq_some_iff) fun row => ?_
  cases gateStep0 row with
  | error step0 => trivial
  | ok seen => exact scoreQuote_raises rethrow forms _ _

theorem honorCandidate_raises
    (forms : engine.deps.forms = createFormRegistry (builtinForms reserver)) (key : HonorKey)
    (deliver : Deliver G) (seen : SeenRow) (now : Int) (candidate : SettlementCandidate) :
    RaisesFaults rethrow (engine.honorCandidate key deliver rethrow seen now candidate) := by
  obtain ⟨form, registered⟩ :=
    builtinForms_registered (G := G) reserver (quoteFromSeen seen).form
  unfold honorCandidate
  dsimp only
  rw [forms, registered]
  simp only [Program.ofExcept_ok, Program.bind_eq, Program.pure_bind]
  have preparing :
      RaisesFaults rethrow (engine.prepare form (quoteFromSeen seen) now candidate) := by
    rcases builtinForms_get registered with ⟨_, rfl⟩ | ⟨_, rfl⟩
    · exact Raises.bind (Raises.ask fun _ _ => thrown?_eq_some_iff) fun _ => trivial
    · exact Raises.bind (Raises.ask fun _ _ => thrown?_eq_some_iff) fun tip =>
        HtlcForm.prepare_raises rethrow _ _ _
  refine Raises.bind preparing fun prep => ?_
  cases prep with
  | claimSubmitted claimTxId => exact Raises.tell (fun _ => rfl) fun _ => trivial
  | wait reason => trivial
  | ready => exact Raises.ask fun _ _ => thrown?_eq_some_iff

theorem honor_raises (forms : engine.deps.forms = createFormRegistry (builtinForms reserver))
    (key : HonorKey) (deliver : Deliver G) (opts : RegisterOpts) :
    RaisesFaults opts.rethrowDeliveryErrors (engine.honor key deliver opts) := by
  refine Raises.bind (now_raises _ opts.now) fun now => ?_
  refine Raises.bind (Raises.ask fun _ _ => thrown?_eq_some_iff) fun row => ?_
  cases gateStep0 row with
  | error step0 => trivial
  | ok seen =>
    refine Raises.bind (scoreQuote_raises _ forms _ _) fun verdict => ?_
    cases verdict with
    | honor candidate formId => exact honorCandidate_raises _ forms _ _ _ _ _
    | wait reason detail => trivial
    | decline reason detail => trivial

end HonorEngine
end
end ExferHonor
