import ExferHonor.Core.World

/-! What each façade operation can call at all: only `register` accepts a quote, only
`markObserved` sets the latch, and only `honor` moves goods. -/
namespace ExferHonor
open Effects Program

variable {G : Type}

namespace Op

def byRegister : Op G → Bool
  | .clockNow => true
  | .getSeen _ => true
  | .upsertAccepted _ _ _ => true
  | op => op.isQuery

def byMarkObserved : Op G → Bool
  | .getSeen _ => true
  | .markObservedBeforeExpiry _ _ => true
  | _ => false

def byCanHonor : Op G → Bool
  | .clockNow => true
  | .getSeen _ => true
  | op => op.byForm

def byHonor : Op G → Bool
  | .runHonorTxn _ => true
  | .claimTxIdsSet _ _ => true
  | op => op.byCanHonor

def byStatus : Op G → Bool
  | .getSeen _ => true
  | .claimTxIdsGet _ => true
  | _ => false

def bySweep : Op G → Bool
  | .sweep _ => true
  | _ => false

theorem byRegister_of_isQuery {op : Op G} (query : op.isQuery = true) : op.byRegister = true := by
  cases op <;> first | rfl | contradiction

theorem byCanHonor_of_byForm {op : Op G} (form : op.byForm = true) : op.byCanHonor = true := by
  cases op <;> first | rfl | contradiction

theorem byHonor_of_byForm {op : Op G} (form : op.byForm = true) : op.byHonor = true := by
  cases op <;> first | rfl | contradiction

end Op

def EngineTask.mayCall : EngineTask G → Op G → Bool
  | .register _ _ => Op.byRegister
  | .markObserved _ _ => Op.byMarkObserved
  | .canHonor _ => Op.byCanHonor
  | .honor _ _ _ => Op.byHonor
  | .status _ => Op.byStatus
  | .sweep _ => Op.bySweep

namespace HonorEngine
variable (engine : HonorEngine G)

theorem preScreen_uses (quote : AcceptedQuote) (wanted : Bool) :
    Uses (·.isQuery) (preScreen (G := G) quote wanted) := by
  unfold preScreen
  split
  · refine Uses.bind (Uses.handle (Uses.ask rfl) fun _ => trivial) fun ok => ?_
    cases ok <;> trivial
  · trivial

theorem register_uses (quote : AcceptedQuote) (opts : RegisterOpts) :
    Uses (·.byRegister) (engine.register quote opts) := by
  apply Uses.bind ((now_uses _).mono fun _ h => h ▸ rfl)
  intro now
  refine Uses.bind (Uses.ask rfl) fun row => ?_
  cases row with
  | some existing => trivial
  | none =>
    apply Uses.bind ((preScreen_uses _ _).mono fun _ => Op.byRegister_of_isQuery)
    intro _
    exact Uses.bind (Uses.ask rfl) fun _ => trivial

theorem markObserved_uses (key : HonorKey) (observedAt : Int) :
    Uses (·.byMarkObserved) (markObserved (G := G) key observedAt) := by
  refine Uses.bind (Uses.ask rfl) fun row => ?_
  cases row with
  | none => trivial
  | some row =>
    dsimp only
    split
    · exact Uses.bind (Uses.ask rfl) fun _ => trivial
    · trivial

theorem canHonor_uses (key : HonorKey) : Uses (·.byCanHonor) (engine.canHonor key) := by
  apply Uses.bind ((now_uses _).mono fun _ h => h ▸ rfl)
  intro now
  refine Uses.bind (Uses.ask rfl) fun row => ?_
  split
  · trivial
  · exact (scoreQuote_uses _ _ _).mono fun _ => Op.byCanHonor_of_byForm

theorem honorCandidate_uses (key : HonorKey) (deliver : Deliver G) (rethrow : Bool)
    (seen : SeenRow) (now : Int) (candidate : SettlementCandidate) :
    Uses (·.byHonor) (engine.honorCandidate key deliver rethrow seen now candidate) := by
  apply Uses.bind (Uses.ofExcept _)
  intro form
  apply Uses.bind ((engine.prepare_uses _ _ _ _).mono fun _ => Op.byHonor_of_byForm)
  intro prep
  cases prep with
  | claimSubmitted claimTxId => exact ⟨rfl, fun _ => trivial⟩
  | wait reason => trivial
  | ready => exact ⟨rfl, fun _ => Uses.ofExcept _⟩

theorem honor_uses (key : HonorKey) (deliver : Deliver G) (opts : RegisterOpts) :
    Uses (·.byHonor) (engine.honor key deliver opts) := by
  apply Uses.bind ((now_uses _).mono fun _ h => h ▸ rfl)
  intro now
  refine Uses.bind (Uses.ask rfl) fun row => ?_
  split
  · trivial
  · apply Uses.bind ((scoreQuote_uses _ _ _).mono fun _ => Op.byHonor_of_byForm)
    intro verdict
    split
    · exact engine.honorCandidate_uses _ _ _ _ _ _
    · trivial

theorem status_uses (key : HonorKey) : Uses (·.byStatus) (status (G := G) key) := by
  refine Uses.bind (Uses.ask rfl) fun row => ?_
  cases row with
  | none => trivial
  | some row =>
    dsimp only
    split
    · trivial
    · refine Uses.bind ⟨rfl, fun _ => trivial⟩ fun claimTxId => ?_
      cases claimTxId <;> trivial

theorem program_uses (task : EngineTask G) :
    Uses (task.mayCall ·) (engine.program task) := by
  cases task with
  | register quote opts => exact Uses.bind (engine.register_uses _ _) fun _ => trivial
  | markObserved key observedAt => exact Uses.bind (markObserved_uses _ _) fun _ => trivial
  | canHonor key => exact Uses.bind (engine.canHonor_uses _) fun _ => trivial
  | honor key deliver opts => exact Uses.bind (engine.honor_uses _ _ _) fun _ => trivial
  | status key => exact Uses.bind (status_uses _) fun _ => trivial
  | sweep now => exact Uses.bind (Uses.ask rfl) fun _ => trivial

variable {engine}

theorem register_runs_upsert {quote other : AcceptedQuote} {opts : RegisterOpts}
    {calls : List (PortCall G)} {acceptedAt retainUntil : Int}
    {resume : Except Thrown Unit → Async G RegisterResult}
    (run : (engine.register quote opts).Runs calls
      (.call (.upsertAccepted other acceptedAt retainUntil) resume)) :
    other = quote ∧ retainUntil = quote.expiresAt + engine.deps.config.maxRecheckWindow := by
  obtain ⟨_, now, _, _, _, reading⟩ := (now_uses opts.now).of_bind_call run nofun
  obtain ⟨_, row, _, _, _, found⟩ := reading.of_ask_bind nofun
  cases row with
  | some existing => cases ((runs_pure_iff _).1 found).2
  | none =>
    obtain ⟨_, _, _, _, _, accepting⟩ := (preScreen_uses _ _).of_bind_call found nofun
    rcases (runs_call_iff _ _).1 accepting with ⟨_, hcall⟩ | ⟨reply, _, _, tail⟩
    · cases hcall
      exact ⟨rfl, rfl⟩
    · obtain ⟨_, _, hend⟩ := Runs.of_ofExcept_bind tail
      cases ((runs_pure_iff _).1 hend).2

theorem markObserved_runs_latch {key latched : HonorKey} {observedAt now : Int}
    {calls : List (PortCall G)} {resume : Except Thrown Unit → Async G ObserveResult}
    (run : (markObserved key observedAt).Runs calls
      (.call (.markObservedBeforeExpiry latched now) resume)) :
    latched = key ∧ now = observedAt ∧ ∃ row, calls = [⟨.getSeen key, .ok (some row)⟩] ∧
      observedAt < row.expiresAt := by
  obtain ⟨_, row, _, rfl, rfl, found⟩ := Runs.of_ask_bind run nofun
  cases row with
  | none => cases ((runs_pure_iff _).1 found).2
  | some row =>
    dsimp only at found
    split at found
    next hlatch =>
      rcases (runs_call_iff _ _).1 found with ⟨rfl, hcall⟩ | ⟨reply, _, _, tail⟩
      · cases hcall
        rw [Bool.and_eq_true, decide_eq_true_eq] at hlatch
        exact ⟨rfl, rfl, row, rfl, hlatch.1⟩
      · obtain ⟨_, _, hend⟩ := Runs.of_ofExcept_bind tail
        cases ((runs_pure_iff _).1 hend).2
    next => cases ((runs_pure_iff _).1 found).2

theorem program_runs_upsert {task : EngineTask G} {quote : AcceptedQuote}
    {calls : List (PortCall G)} {acceptedAt retainUntil : Int}
    {resume : Except Thrown Unit → Async G EngineResult}
    (run : (engine.program task).Runs calls
      (.call (.upsertAccepted quote acceptedAt retainUntil) resume)) :
    (∃ opts, task = .register quote opts) ∧
      retainUntil = quote.expiresAt + engine.deps.config.maxRecheckWindow := by
  have allowed := (engine.program_uses task).of_call run
  cases task with
  | register other opts =>
    obtain ⟨_, inner, _⟩ := Runs.of_map_call run
    obtain ⟨rfl, hretain⟩ := register_runs_upsert inner
    exact ⟨⟨opts, rfl⟩, hretain⟩
  | _ => contradiction

end HonorEngine
end ExferHonor
