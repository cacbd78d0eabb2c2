import ExferHonor.Adapters.GateTables
import ExferHonor.Core.PortFaults

/-! Which errors of `canHonor` and `honor` are typed: only the custody test is given a code by the
library, every other error keeps what its port threw. -/
namespace ExferHonor
open Effects

variable {G : Type}

/-- Whose fault it is that a call threw; `thenable` is a promise that `deliver` hands to the
synchronous store. -/
inductive Culprit where
  | clock
  | chain
  | keystore
  | store
  | deliver
  | thenable
  deriving DecidableEq, Repr

namespace Culprit

def admits : Culprit → HonorErrorCode → Bool
  | .clock, _ => true
  | .chain, code => code == .chainFault || code == .indexerFault
  | .keystore, code => code == .keystoreFault
  | .store, code => code == .dbFault
  | .deliver, _ => true
  | .thenable, code => code == .contractViolation

def tells (culprit : Culprit) : Thrown → Bool
  | .honorError code _ _ => culprit.admits code
  | _ => false

end Culprit

def txnCulprit : TxnModel → Option (Except Thrown DeliverEnd) → Culprit
  | _, some (.error _) => .deliver
  | .sync, some (.ok .resolves) => .thenable
  | .sync, some (.ok (.rejects _)) => .thenable
  | .async, some (.ok (.rejects _)) => .deliver
  | _, _ => .store

def culprit (model : TxnModel) : PortCall G → Culprit
  | ⟨.clockNow, _⟩ => .clock
  | ⟨.controlsPayee _, _⟩ => .keystore
  | ⟨.htlcPreimageFor _ _, _⟩ => .keystore
  | ⟨.runHonorTxn _, reply⟩ => txnCulprit model reply.called
  | ⟨op, _⟩ => if op.isChain then .chain else .store

/-- How a honor transaction can end: as the store ends it in some state, or by a failure of the
database before `deliver` is called or once it has ended well. -/
inductive TxnEnds (model : TxnModel) (input : HonorTxnInput G) : TxnReply → Prop
  | ended (db : Db G) : TxnEnds model input (Store.runHonorTxn model db input).1
  | unopened (e : Thrown) : TxnEnds model input ⟨none, .error e⟩
  | uncommitted (ended : DeliverEnd) (e : Thrown)
      (accepted : txnCulprit model (some (.ok ended)) = .store) :
      TxnEnds model input ⟨some (.ok ended), .error e⟩

/-- The replies the engine can receive: any value or any error from every port, and from the honor
transaction one of its ends. -/
def StoreReplies (model : TxnModel) : PortCall G → Prop
  | ⟨.runHonorTxn input, reply⟩ => TxnEnds model input reply
  | _ => True

def EngineTask.keepsDeliveryErrors : EngineTask G → Bool
  | .canHonor _ => true
  | .honor _ _ opts => !opts.rethrowDeliveryErrors
  | _ => false

def TypedFault (model : TxnModel) (past : List (PortCall G)) (e : Thrown) : Prop :=
  ∃ before call, past = before ++ [call] ∧ (portFault false call).isSome = true ∧
    (culprit model call).tells e = true

/-- What a port may throw for the error to be typed: anything in the custody test, and elsewhere
an error that is typed already. -/
def ThrowsTyped (model : TxnModel) (call : PortCall G) (e : Thrown) : Prop :=
  call.op.isCustodyTest = true ∨
    culprit model call ≠ .thenable ∧ (culprit model call).tells e = true

theorem culprit_of_isCustodyTest {model : TxnModel} {call : PortCall G}
    (custody : call.op.isCustodyTest = true) : culprit model call = .keystore := by
  obtain ⟨op, reply⟩ := call
  cases op <;> first | rfl | contradiction

theorem txnCulprit_async_ne (called : Option (Except Thrown DeliverEnd)) :
    txnCulprit .async called ≠ .thenable := by
  unfold txnCulprit
  split <;> simp_all

theorem thenable_untyped {model : TxnModel} {input : HonorTxnInput G} {reply : TxnReply}
    {e : Thrown} (ends : TxnEnds model input reply)
    (thenable : txnCulprit model reply.called = .thenable)
    (throws : thrown? (settleTxn false input.outpoint reply) = some e) :
    e = SqliteStore.asyncDeliver := by
  cases ends with
  | unopened fault => cases model <;> cases thenable
  | uncommitted ended fault accepted => exact absurd (accepted.symm.trans thenable) (by decide)
  | ended db =>
    cases model with
    | sync =>
      simp only [Store.runHonorTxn, SqliteStore.runHonorTxn] at thenable throws
      split at thenable
      next refusal => cases thenable
      next gated passed =>
        rw [passed] at throws
        dsimp only at thenable throws
        split at thenable
        next => cases thenable
        next => cases thenable
        next ended plain hended =>
          rw [hended] at throws
          cases ended with
          | value => exact absurd rfl plain
          | resolves => exact (Option.some.inj throws).symm
          | rejects reason => exact (Option.some.inj throws).symm
    | async => exact absurd thenable (txnCulprit_async_ne _)

theorem not_thenable {model : TxnModel} {call : PortCall G} {e : Thrown}
    (replies : StoreReplies model call) (throws : portFault false call = some e)
    (told : (culprit model call).tells e = true) : culprit model call ≠ .thenable := by
  intro thenable
  obtain ⟨op, reply⟩ := call
  cases op
  case runHonorTxn input =>
    rw [thenable_untyped replies thenable throws] at told
    contradiction
  all_goals cases thenable

theorem tells_raised_iff {model : TxnModel} {call : PortCall G} {thrown e : Thrown}
    (replies : StoreReplies model call) (throws : portFault false call = some thrown)
    (raises : raised false call = some e) :
    (culprit model call).tells e = true ↔ ThrowsTyped model call thrown := by
  unfold raised at raises
  by_cases custody : call.op.isCustodyTest = true
  · rw [if_pos custody, throws] at raises
    cases raises
    rw [culprit_of_isCustodyTest custody]
    exact ⟨fun _ => .inl custody, fun _ => rfl⟩
  · rw [if_neg custody, throws] at raises
    cases raises
    constructor
    · exact fun told => .inr ⟨not_thenable replies throws told, told⟩
    · rintro (impossible | ⟨-, told⟩)
      · exact absurd impossible custody
      · exact told

theorem raised_isSome (call : PortCall G) :
    (raised false call).isSome = (portFault false call).isSome := by
  unfold raised
  split
  · exact Option.isSome_map
  · rfl

namespace HonorEngine
variable {engine : HonorEngine G} {reserver : Bool}

theorem program_raises
    (forms : engine.deps.forms = createFormRegistry (builtinForms reserver))
    {task : EngineTask G} (keeps : task.keepsDeliveryErrors = true) :
    RaisesFaults false (engine.program task) := by
  cases task
  case canHonor key => exact Raises.bind (canHonor_raises false forms key) fun _ => trivial
  case honor key deliver opts =>
    have raises := honor_raises forms key deliver opts
    simp only [EngineTask.keepsDeliveryErrors, Bool.not_eq_true'] at keeps
    rw [keeps] at raises
    exact Raises.bind raises fun _ => trivial
  all_goals contradiction

/-- Whatever the ports reply, the error that comes out is a `HonorError` that tells the faulty
component if and only if every port that threw was the custody test or threw such an error. -/
theorem faults_typed_iff (engine : HonorEngine G) (reserver : Bool)
    (forms : engine.deps.forms = createFormRegistry (builtinForms reserver)) (model : TxnModel)
    (task : EngineTask G) (keeps : task.keepsDeliveryErrors = true) (past : List (PortCall G))
    (result : Except Thrown EngineResult) (returns : (engine.program task).Returns past result)
    (replies : ∀ call ∈ past, StoreReplies model call) :
    (∀ e, result = .error e → TypedFault model past e) ↔
      ∀ call ∈ past, ∀ e, portFault false call = some e → ThrowsTyped model call e := by
  have silent (call : PortCall G) (sound : raised false call = none) (e : Thrown) :
      portFault false call ≠ some e := by
    intro throws
    have := raised_isSome call
    simp [sound, throws] at this
  rcases (program_raises forms keeps).returns returns with
    ⟨sound, value, rfl⟩ | ⟨before, call, e, rfl, raises, sound, rfl⟩
  · constructor
    · exact fun _ call made e throws => absurd throws (silent call (sound call made) e)
    · rintro - e ⟨⟩
  · have member : call ∈ before ++ [call] := by simp
    obtain ⟨thrown, throws⟩ := Option.isSome_iff_exists.1
      ((raised_isSome call).symm.trans (Option.isSome_of_eq_some raises))
    have told := tells_raised_iff (replies call member) throws raises
    constructor
    · intro typed other made e' throws'
      obtain ⟨earlier, last, hpast, -, tells⟩ := typed e rfl
      obtain rfl := List.singleton_inj.1 (List.append_inj' hpast rfl).2
      rcases List.mem_append.1 made with hmade | hmade
      · exact absurd throws' (silent other (sound other hmade) e')
      · obtain rfl := List.mem_singleton.1 hmade
        rw [throws] at throws'
        cases throws'
        exact told.1 tells
    · rintro typed _ ⟨⟩
      exact ⟨before, call, rfl, by rw [throws]; rfl, told.2 (typed call member thrown throws)⟩

/-! The paid `sampleQuote` on the synchronous store, with a chain that cannot tell its tip, and
with an `async` deliver. -/

def refusedTip (e : Thrown) : (op : Op Unit) → op.Reply
  | .tipHeight => .error e
  | op => paidPorts.answer op

def sampleTask (task : EngineTask Unit) (answer : (op : Op Unit) → op.Reply) :
    List (PortCall Unit) × Except Thrown EngineResult × World Unit :=
  (sampleEngine.program task).run (fun world op => world.perform .sync op (answer op))
    (.booted (Store.registeredDb .sync) 20)

def asyncHonor : EngineTask Unit :=
  .honor sampleQuote.key (fun _ => .pure .resolves) {}

def fetchFailed : Thrown := .error 0 none "fetch failed"

theorem sampleTask_replies (task : EngineTask Unit) (answer : (op : Op Unit) → op.Reply)
    (opens : ∀ input, answer (.runHonorTxn input) = ⟨none, .ok ()⟩) :
    ∀ call ∈ (sampleTask task answer).1, StoreReplies .sync call := by
  refine Program.run_answered (StoreReplies .sync) (fun world op => ?_) _ _
  cases op
  case runHonorTxn input =>
    rw [opens]
    exact .ended world.db
  all_goals trivial

theorem faults_untyped :
    ((sampleTask (.canHonor sampleQuote.key) (refusedTip fetchFailed)).2.1 = .error fetchFailed ∧
      ¬ TypedFault .sync (sampleTask (.canHonor sampleQuote.key) (refusedTip fetchFailed)).1
        fetchFailed) ∧
    (sampleTask asyncHonor paidPorts.answer).2.1 = .error SqliteStore.asyncDeliver ∧
      ¬ TypedFault .sync (sampleTask asyncHonor paidPorts.answer).1 SqliteStore.asyncDeliver := by
  refine ⟨⟨rfl, ?_⟩, rfl, ?_⟩ <;> rintro ⟨before, call, -, -, told⟩ <;> revert told <;>
    cases culprit .sync call <;> decide

theorem faults_typed_iff_tip :
    TypedFault .sync (sampleTask (.canHonor sampleQuote.key) (refusedTip (.honorError .chainFault
      "tip" fetchFailed))).1 (.honorError .chainFault "tip" fetchFailed) := by
  refine (faults_typed_iff sampleEngine true rfl .sync (.canHonor sampleQuote.key) rfl _ _
    (Program.run_returns _ _ _) (sampleTask_replies _ _ fun _ => rfl)).2 ?_ _ rfl
  have only : (sampleTask (.canHonor sampleQuote.key) (refusedTip (.honorError .chainFault "tip"
      fetchFailed))).1.all (fun call => (portFault false call).all fun e =>
        call.op.isCustodyTest || culprit .sync call != .thenable &&
          (culprit .sync call).tells e) = true := by decide +kernel
  intro call made e throws
  have := List.all_eq_true.1 only call made
  rw [throws] at this
  simpa [ThrowsTyped] using this

end HonorEngine
end ExferHonor
