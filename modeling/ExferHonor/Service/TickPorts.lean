import ExferHonor.Adapters.GateTables
import ExferHonor.Service.OnPaid

/-! What a tick of the loop has done when it calls one of the engine's ports, and the clock reading
it starts with. -/
namespace ExferHonor
namespace OnPaid
open Effects Program Store

variable {G : Type}

theorem own_uses (op : LoopOp) :
    Uses (·.isRight) (.call (.inr op) .pure : LoopAsync G op.Reply) :=
  ⟨rfl, fun _ => trivial⟩

theorem settle_uses (outcome : HonorOutcome) :
    Uses (·.isRight) (settle (G := G) outcome) := by
  unfold settle
  split
  · exact own_uses _
  · trivial
  · exact own_uses _
  · trivial

theorem surface_uses (e : Thrown) : Uses (·.isRight) (surface (G := G) e) := by
  unfold surface
  split
  · trivial
  · exact own_uses _

variable {loop : OnPaid G} {calls : List (LoopCall G)} {op : Op G}
  {resume : op.Reply → LoopAsync G Unit}

theorem observeAndHonor_runs_port
    (run : loop.observeAndHonor.Runs calls (.call (.inl op) resume)) (notClock : op ≠ .clockNow) :
    ∃ now own, calls = ⟨.inl .clockNow, .ok now⟩ :: own ∧
      ((∃ seen inner, own = seen.map Call.alongside ∧
          (HonorEngine.markObserved loop.quote.key now).Runs seen (.call op inner)) ∨
        ∃ first seen inner, own = first ++ seen.map Call.alongside ∧
          (loop.engine.honor loop.quote.key loop.deliver loop.opts).Runs seen
            (.call op inner)) := by
  rcases (runs_call_iff (Sum.inl Op.clockNow) _).1 run with ⟨_, hcall⟩ | ⟨reply, later, rfl, tail⟩
  · cases hcall
    contradiction
  · obtain e | now := (reply : Except Thrown Int)
    · cases ((runs_throw_iff e).1 tail).2
    · refine ⟨now, later, rfl, ?_⟩
      change ((HonorEngine.markObserved loop.quote.key now).alongside.bind _).Runs later _ at tail
      rcases tail.of_bind_call with ⟨_, observing, _⟩ | ⟨first, _, honoring, rfl, _, honorRun⟩
      · obtain ⟨seen, inner, rfl, observed⟩ := observing.of_alongside_call
        exact .inl ⟨seen, inner, rfl, observed⟩
      · rcases honorRun.of_bind_call with ⟨_, honored, _⟩ | ⟨_, outcome, _, _, _, settling⟩
        · obtain ⟨seen, inner, rfl, honor⟩ := honored.of_alongside_call
          exact .inr ⟨first, seen, inner, rfl, honor⟩
        · cases (settle_uses outcome).of_call settling

theorem tick_runs_port (run : loop.tick.Runs calls (.call (.inl op) resume))
    (notClock : op ≠ .clockNow) :
    ∃ now own, calls = ⟨.inr .enterTick, true⟩ :: ⟨.inl .clockNow, .ok now⟩ :: own ∧
      ((∃ seen inner, own = seen.map Call.alongside ∧
          (HonorEngine.markObserved loop.quote.key now).Runs seen (.call op inner)) ∨
        ∃ first seen inner, own = first ++ seen.map Call.alongside ∧
          (loop.engine.honor loop.quote.key loop.deliver loop.opts).Runs seen
            (.call op inner)) := by
  rcases (runs_call_iff (Sum.inr LoopOp.enterTick) _).1 run with
    ⟨_, hcall⟩ | ⟨entered, later, rfl, tail⟩
  · cases hcall
  · obtain _ | _ := (entered : Bool)
    · cases ((runs_pure_iff _).1 tail).2
    · change ((loop.observeAndHonor.handle surface).bind _).Runs later _ at tail
      rcases tail.of_bind_call with ⟨_, body, _⟩ | ⟨_, _, _, _, _, leaving⟩
      · rcases body.of_handle_call with ⟨_, run⟩ | ⟨_, e, _, _, surfacing⟩
        · obtain ⟨now, own, rfl, h⟩ := observeAndHonor_runs_port run notClock
          exact ⟨now, own, rfl, h⟩
        · cases (surface_uses e).of_call surfacing
      · cases (own_uses .leaveTick).of_call leaving

theorem startup_runs_port (run : loop.startup.Runs calls (.call (.inl op) resume)) :
    ∃ own inner, (loop.engine.register loop.quote {}).Runs own (.call op inner) := by
  rcases Runs.of_bind_call run with ⟨_, registering, _⟩ | ⟨_, going, _, _, _, starting⟩
  · rcases registering.of_handle_call with ⟨_, body⟩ | ⟨_, e, _, _, catching⟩
    · obtain ⟨_, body, _⟩ := body.of_map_call
      obtain ⟨own, inner, _, run⟩ := body.of_alongside_call
      exact ⟨own, inner, run⟩
    · split at catching
      · cases ((runs_pure_iff _).1 catching).2
      · rcases catching.of_bind_call with ⟨_, failing, _⟩ | ⟨_, _, _, _, _, hend⟩
        · cases (own_uses (.fail e)).of_call failing
        · cases ((runs_pure_iff _).1 hend).2
  · split at starting
    · cases (own_uses .startTimer).of_call starting
    · cases ((runs_pure_iff _).1 starting).2

def clockReading : LoopCall G → Option Int
  | ⟨.inl .clockNow, reply⟩ => Except.toOption (show Except Thrown Int from reply)
  | _ => none

def tickTime (past : List (LoopCall G)) : Option Int := past.findSome? clockReading

variable {task : LoopTask} {past : List (LoopCall G)}

theorem program_runs_upsert {quote : AcceptedQuote} {acceptedAt retainUntil : Int}
    {resume : Except Thrown Unit → LoopAsync G Unit}
    (run : (loop.program task).Runs past
      (.call (.inl (.upsertAccepted quote acceptedAt retainUntil)) resume)) :
    quote = loop.quote := by
  cases task with
  | startup =>
    obtain ⟨_, _, registering⟩ := startup_runs_port run
    exact (HonorEngine.register_runs_upsert registering).1
  | tick =>
    obtain ⟨_, _, _, ⟨_, _, _, observing⟩ | ⟨_, _, _, _, honoring⟩⟩ := tick_runs_port run nofun
    · cases (HonorEngine.markObserved_uses _ _).of_call observing
    · cases (loop.engine.honor_uses _ _ _).of_call honoring
  | cancel => cases (own_uses _).of_call run

theorem program_runs_latch {key : HonorKey} {now : Int}
    {resume : Except Thrown Unit → LoopAsync G Unit}
    (run : (loop.program task).Runs past
      (.call (.inl (.markObservedBeforeExpiry key now)) resume)) :
    task = .tick ∧ tickTime past = some now := by
  cases task with
  | startup =>
    obtain ⟨_, _, registering⟩ := startup_runs_port run
    cases (loop.engine.register_uses _ _).of_call registering
  | tick =>
    obtain ⟨_, _, rfl, ⟨_, _, _, observing⟩ | ⟨_, _, _, _, honoring⟩⟩ := tick_runs_port run nofun
    · obtain ⟨_, rfl, _⟩ := HonorEngine.markObserved_runs_latch observing
      exact ⟨rfl, rfl⟩
    · cases (loop.engine.honor_uses _ _ _).of_call honoring
  | cancel => cases (own_uses _).of_call run

theorem program_runs_gate {input : HonorTxnInput G} {resume : TxnReply → LoopAsync G Unit}
    (run : (loop.program task).Runs past (.call (.inl (.runHonorTxn input)) resume)) :
    input.key = loop.quote.key := by
  cases task with
  | startup =>
    obtain ⟨_, _, registering⟩ := startup_runs_port run
    cases (loop.engine.register_uses _ _).of_call registering
  | tick =>
    obtain ⟨_, _, _, ⟨_, _, _, observing⟩ | ⟨_, _, _, _, honoring⟩⟩ := tick_runs_port run nofun
    · cases (HonorEngine.markObserved_uses _ _).of_call observing
    · cases (HonorEngine.honor_runs_gate honoring).1
      rfl
  | cancel => cases (own_uses _).of_call run

theorem performPort_seen (state : LoopState G) (op : Op G) (answer : op.Reply) (key : HonorKey) :
    SeenChange key (state.world.db.seen.find? key) ⟨op, (state.performPort op answer).1⟩
      ((state.performPort op answer).2.world.db.seen.find? key) := by
  unfold LoopState.performPort
  split
  · exact .same
  · exact World.perform_seen _ _ _ _ _

theorem performOwn_world (state : LoopState G) (op : LoopOp) :
    (state.performOwn op).2.world = state.world := by
  cases op <;> simp only [LoopState.performOwn, LoopState.settle] <;> split <;> rfl

def early (quote : AcceptedQuote) (past : List (LoopCall G)) : Bool :=
  (tickTime past).any fun now => decide (now < quote.expiresAt)

def EarlyTick (quote : AcceptedQuote) (event : LoopEvent G) : Prop :=
  event.task = .tick ∧ early quote event.past = true

instance (quote : AcceptedQuote) (event : LoopEvent G) : Decidable (EarlyTick quote event) :=
  inferInstanceAs (Decidable (_ ∧ _))

theorem tickTime_append {now : Int} (sampled : tickTime past = some now)
    (later : List (LoopCall G)) : tickTime (past ++ later) = some now := by
  rw [tickTime, List.findSome?_append, show past.findSome? clockReading = _ from sampled]
  rfl

theorem early_append {quote : AcceptedQuote} (later : List (LoopCall G))
    (isEarly : early quote past = true) : early quote (past ++ later) = true := by
  obtain ⟨now, sampled, before⟩ := (Option.any_eq_true _ _).1 isEarly
  rw [early, tickTime_append sampled]
  exact before

/-! One loop for `sampleQuote`. -/

abbrev LoopMove :=
  Move (LoopState Unit) (Op Unit ⊕ LoopOp) (Sum.elim Op.Reply LoopOp.Reply) LoopTask

def sampleLoop : OnPaid Unit := ⟨sampleEngine, sampleQuote, sampleTxn.deliver, false⟩

def loopAnswer : (op : Op Unit ⊕ LoopOp) → Sum.elim Op.Reply LoopOp.Reply op
  | .inl op => paidPorts.answer op
  | .inr .enterTick => true
  | .inr .leaveTick => ()
  | .inr .startTimer => ()
  | .inr (.finish _) => ()
  | .inr (.fail _) => ()

def turns (index count : Nat) : List LoopMove := .replicate count (.advance index loopAnswer)

end OnPaid
end ExferHonor
