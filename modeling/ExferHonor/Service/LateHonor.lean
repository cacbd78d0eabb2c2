import ExferHonor.Core.HtlcRuns
import ExferHonor.Service.OneTick

/-! A honor past the expiry needs the latch, and the loop's latch needs only a tick before the
expiry, whether the chain source returns a candidate to that tick or not. -/
namespace ExferHonor
namespace OnPaid
open Effects Program Store Statements Facade

variable {G : Type}

/-- Whatever row there is under the quote's key is the quote's, not latched yet. -/
def Unlatched (quote : AcceptedQuote) (db : Db G) : Prop :=
  ∀ row, db.seen.find? quote.key = some row →
    row.expiresAt = quote.expiresAt ∧ row.observedBeforeExpiry = false

theorem unlatched_empty (quote : AcceptedQuote) (goods : G) : Unlatched quote (.empty goods) := by
  intro row found
  cases (Relational.Table.find?_empty quote.key).symm.trans found

def findsCandidate (quote : AcceptedQuote) : LoopCall G → Bool
  | ⟨.inl (.findSettlementsByQuoteId quoteId), reply⟩ =>
      decide (quoteId = quote.quoteId) &&
        (Except.toOption (show Except Thrown (List RawSettlementCandidate) from reply)).any
          (!·.isEmpty)
  | _ => false

def setsLatch : LoopCall G → Bool
  | ⟨.inl (.markObservedBeforeExpiry _ _), reply⟩ =>
      (Except.toOption (show Except Thrown Unit from reply)).isSome
  | _ => false

/-- No tick before the expiry is returned a candidate of the quote. -/
def NoCandidateEarly (quote : AcceptedQuote) (log : List (LoopEvent G)) : Prop :=
  ∀ event ∈ log, EarlyTick quote event → findsCandidate quote event.call = false

instance (quote : AcceptedQuote) (log : List (LoopEvent G)) :
    Decidable (NoCandidateEarly quote log) :=
  inferInstanceAs (Decidable (∀ event ∈ log, _ → _))

/-- A tick that has set the latch has, by its end, been returned a candidate of the quote. -/
def LatchesOnCandidate (quote : AcceptedQuote) (log : List (LoopEvent G)) : Prop :=
  ∀ event ∈ log, leaves event.call = true → event.past.any setsLatch = true →
    event.past.any (findsCandidate quote) = true

instance (quote : AcceptedQuote) (log : List (LoopEvent G)) :
    Decidable (LatchesOnCandidate quote log) :=
  inferInstanceAs (Decidable (∀ event ∈ log, _ → _ → _))

def CommitsLate (quote : AcceptedQuote) (call : LoopCall G) : Prop :=
  ∃ input reply, call = ⟨.inl (.runHonorTxn input), reply⟩ ∧ quote.expiresAt ≤ input.now ∧
    TxnReply.result reply = .ok ()

section
variable {quote : AcceptedQuote} {state : LoopState G} {op : Op G} {answer : op.Reply}

theorem Unlatched.performPort (unlatched : Unlatched quote state.world.db)
    (accepts : ∀ other acceptedAt retainUntil, op = .upsertAccepted other acceptedAt retainUntil →
      other = quote)
    (noLatch : setsLatch ⟨.inl op, (state.performPort op answer).1⟩ = true → ∀ now,
      op = .markObservedBeforeExpiry quote.key now → ¬ now < quote.expiresAt) :
    Unlatched quote (state.performPort op answer).2.world.db := by
  -- a latch that failed has changed nothing
  have late_or_idle : (∀ now, op = .markObservedBeforeExpiry quote.key now →
      ¬ now < quote.expiresAt) ∨
      (state.performPort op answer).2.world.db = state.world.db := by
    by_cases sets : setsLatch ⟨.inl op, (state.performPort op answer).1⟩ = true
    · exact .inl (noLatch sets)
    · by_cases latch : ∃ now, op = .markObservedBeforeExpiry quote.key now
      · obtain ⟨now, rfl⟩ := latch
        cases answer with
        | error e => exact .inr rfl
        | ok _ => exact absurd rfl sets
      · exact .inl fun now h => absurd ⟨now, h⟩ latch
  intro row hrow
  rcases late_or_idle with late | idle
  · have change := performPort_seen state op answer quote.key
    rw [hrow] at change
    generalize (state.performPort op answer).1 = reply at change
    generalize hbefore : state.world.db.seen.find? quote.key = before at change
    cases change with
    | same => exact unlatched row hbefore
    | accepted =>
      obtain rfl := accepts _ _ _ rfl
      exact ⟨rfl, rfl⟩
    | observed present early =>
      obtain ⟨hexpires, -⟩ := unlatched _ (hbefore.trans present)
      exact absurd (hexpires ▸ early) (late _ rfl)
    | locked _ present => exact (unlatched _ (hbefore.trans present) :)
  · rw [idle] at hrow
    exact unlatched row hrow

theorem Unlatched.not_commitsLate (unlatched : Unlatched quote state.world.db)
    (own : ∀ input, op = .runHonorTxn input → input.key = quote.key) :
    ¬ CommitsLate quote ⟨.inl op, (state.performPort op answer).1⟩ := by
  rintro ⟨input, reply, hcall, late, resolved⟩
  obtain rfl : op = .runHonorTxn input := Sum.inl.inj (congrArg Call.op hcall)
  obtain rfl : (state.performPort (.runHonorTxn input) answer).1 = reply :=
    eq_of_heq (Call.mk.inj hcall).2
  obtain ⟨row, hrow, ⟨_, _, early | latched⟩, -⟩ := perform_txn_locks resolved
  · rw [own input rfl] at hrow
    have hexpires := (unlatched row hrow).1
    omega
  · rw [own input rfl] at hrow
    rw [(unlatched row hrow).2] at latched
    contradiction

end

structure Latching (quote : AcceptedQuote) (thread : FacadeThread (Op G) Op.Reply) : Prop where
  tick : thread.task = .tick
  within : inside thread = true
  isEarly : early quote thread.past = true
  latched : thread.past.any setsLatch = true

def Unseen (quote : AcceptedQuote) (pool : LoopPool G) : Prop :=
  Unlatched quote pool.shared.world.db ∨
    ∃ index : Nat, ∃ thread, pool.threads[index]? = some thread ∧ Latching quote thread

section
variable {loop : OnPaid G} {reserver : Bool} {initial : LoopState G} {pool : LoopPool G}

theorem seen_own (reached : Reachable loop.system initial pool) :
    ∀ thread ∈ pool.threads, ∀ key row,
      ⟨.inl (.getSeen key), .ok (some row)⟩ ∈ thread.past → row.key = key := by
  have answers : ∀ thread ∈ pool.threads, ∀ call ∈ thread.past, ∀ key row,
      call = ⟨.inl (.getSeen key), .ok (some row)⟩ → row.key = key := by
    refine reached.answered fun shared op answer key row h => ?_
    obtain rfl : op = .inl (.getSeen key) := congrArg Call.op h
    exact World.perform_getSeen_key (eq_of_heq (Call.mk.inj h).2)
  exact fun thread there key row call => answers thread there _ call key row rfl

theorem gate_finds (forms : loop.engine.deps.forms = createFormRegistry (builtinForms reserver))
    (reached : Reachable loop.system initial pool) {task : LoopTask} {past : List (LoopCall G)}
    {input : HonorTxnInput G} {resume : TxnReply → LoopAsync G Unit}
    (present : ⟨task, past, .call (.inl (.runHonorTxn input)) resume⟩ ∈ pool.threads) :
    task = .tick ∧ past.any (findsCandidate loop.quote) = true := by
  have run := reached.runs _ present
  cases task with
  | startup =>
    obtain ⟨_, _, registering⟩ := startup_runs_port run
    cases (loop.engine.register_uses _ _).of_call registering
  | cancel => cases (own_uses _).of_call run
  | tick =>
    refine ⟨rfl, ?_⟩
    obtain ⟨_, _, hpast, ⟨_, _, _, observing⟩ | ⟨first, own, _, hown, honoring⟩⟩ :=
      tick_runs_port run nofun
    · cases (HonorEngine.markObserved_uses _ _).of_call observing
    · have among {call : PortCall G} (made : call ∈ own) : call.alongside ∈ past := by
        simp only [show past = _ from hpast, hown, List.mem_cons, List.mem_append]
        exact .inr (.inr (.inr (List.mem_map_of_mem made)))
      cases (HonorEngine.honor_runs_gate honoring).1 with
      | @mk now sampling seen scoring candidate formId form preparing sampled unhonored scored =>
        obtain ⟨listed, more, found⟩ := scoreQuote_listed forms scored
        have own : seen.key = loop.quote.key :=
          seen_own reached _ present _ _ (among (List.mem_append_right _ List.mem_cons_self))
        have same : seen.quoteId = loop.quote.quoteId := congrArg HonorKey.quoteId own
        refine List.any_eq_true.2 ⟨_, among (List.mem_append_right _ (List.mem_cons_of_mem _
          (List.mem_append_left _ found))), ?_⟩
        simp [findsCandidate, quoteFromSeen, same, Except.toOption]

variable {task : LoopTask} {past : List (LoopCall G)} {op : Op G ⊕ LoopOp}
  {resume : Sum.elim Op.Reply LoopOp.Reply op → LoopAsync G Unit} {index : Nat}

theorem early_unfound (reached : Reachable loop.system initial pool)
    (nothing : NoCandidateEarly loop.quote pool.log) {thread : FacadeThread (Op G) Op.Reply}
    (present : pool.threads[index]? = some thread) (tick : thread.task = .tick)
    (isEarly : early loop.quote thread.past = true) :
    thread.past.any (findsCandidate loop.quote) = false := by
  rw [Bool.eq_false_iff]
  intro finds
  obtain ⟨call, made, found⟩ := List.any_eq_true.1 finds
  obtain ⟨first, later, hpast⟩ := List.mem_iff_append.1 made
  obtain ⟨event, logged, -, htask, rfl, rfl⟩ :=
    reached.event_of_past index thread present first call later hpast
  obtain ⟨quoteId, hop⟩ : ∃ quoteId, event.call.op = .inl (.findSettlementsByQuoteId quoteId) := by
    unfold findsCandidate at found
    split at found
    next hcall => exact ⟨_, congrArg Call.op hcall⟩
    next => cases found
  obtain ⟨_, run⟩ := reached.runs_to_op logged hop
  rw [htask.trans tick] at run
  obtain ⟨now, _, hfirst, -⟩ := tick_runs_port run nofun
  have sampled : tickTime event.past = some now := by rw [hfirst]; rfl
  refine absurd (nothing event logged ⟨htask.trans tick, ?_⟩) (by simp [found])
  rw [early, hpast, tickTime_append sampled] at isEarly
  rw [early, sampled]
  exact isEarly

theorem tick_inside {port : Op G} {next : port.Reply → LoopAsync G Unit}
    (run : (loop.program .tick).Runs past (.call (.inl port) next)) :
    past.any enters = true ∧ past.any leaves = false := by
  rw [loop.program_eq] at run
  rcases program_inside run with ⟨-, h⟩ | ⟨-, entered, unleft⟩ | ⟨-, -, h, -⟩
  · cases h
  · exact ⟨entered, unleft⟩
  · contradiction

/-- While the row is unlatched a call either leaves it so, or it is a tick's that sets the latch
before the expiry. -/
theorem Unlatched.advance (unlatched : Unlatched loop.quote pool.shared.world.db)
    (reached : Reachable loop.system initial pool)
    (waiting : pool.threads[index]? = some ⟨task, past, .call op resume⟩)
    (answer : Sum.elim Op.Reply LoopOp.Reply op) :
    Unseen loop.quote (pool.advance loop.system index task past op resume answer) := by
  have run := reached.runs _ (List.mem_of_getElem? waiting)
  cases op with
  | inr own => exact .inl ((performOwn_world pool.shared own).symm ▸ unlatched)
  | inl op =>
    by_cases latching : setsLatch ⟨.inl op, (pool.shared.performPort op answer).1⟩ = true ∧
        ∃ now, op = .markObservedBeforeExpiry loop.quote.key now ∧ now < loop.quote.expiresAt
    · obtain ⟨sets, now, rfl, before⟩ := latching
      obtain ⟨rfl, sampled⟩ := program_runs_latch run
      obtain ⟨entered, unleft⟩ := tick_inside run
      refine .inr ⟨index, _, (Pool.getElem?_advance _ waiting answer _).trans (if_pos rfl), rfl,
        ?_, early_append _ ?_, ?_⟩
      · simp [inside, entered, unleft, leaves]
      · simp [early, sampled, before]
      · exact List.any_eq_true.2 ⟨_, List.mem_append_right _ (List.mem_singleton_self _), sets⟩
    · refine .inl (unlatched.performPort ?_ fun sets now latch before =>
        latching ⟨sets, now, latch, before⟩)
      rintro other acceptedAt retainUntil rfl
      exact program_runs_upsert run

/-- A tick that has set the latch before the expiry keeps running, and meanwhile nobody commits. -/
theorem Latching.advance
    (forms : loop.engine.deps.forms = createFormRegistry (builtinForms reserver))
    (fresh : initial.vars = .fresh) (reached : Reachable loop.system initial pool)
    {latcher : Nat} {thread : FacadeThread (Op G) Op.Reply}
    (present : pool.threads[latcher]? = some thread) (latching : Latching loop.quote thread)
    (waiting : pool.threads[index]? = some ⟨task, past, .call op resume⟩)
    (answer : Sum.elim Op.Reply LoopOp.Reply op)
    (nothing : NoCandidateEarly loop.quote pool.log)
    (stays : latcher = index →
      leaves (⟨op, (pool.shared.perform op answer).1⟩ : LoopCall G) = true →
      past.any (findsCandidate loop.quote) = true) :
    Unseen loop.quote (pool.advance loop.system index task past op resume answer) ∧
      ¬ CommitsLate loop.quote ⟨op, (pool.shared.perform op answer).1⟩ := by
  have exclusive := loop.hosts.exclusive fresh reached
  have unfound := early_unfound reached nothing present latching.tick latching.isEarly
  have run := reached.runs _ (List.mem_of_getElem? waiting)
  by_cases mine : latcher = index
  · subst mine
    obtain rfl := Option.some.inj (present.symm.trans waiting)
    have remains : leaves (⟨op, (pool.shared.perform op answer).1⟩ : LoopCall G) = false := by
      rw [Bool.eq_false_iff]
      intro leaving
      rw [stays rfl leaving] at unfound
      cases unfound
    constructor
    · refine .inr ⟨latcher, _, (Pool.getElem?_advance _ waiting answer _).trans (if_pos rfl),
        latching.tick, ?_, early_append _ latching.isEarly, ?_⟩
      · obtain ⟨entered, unleft⟩ := Bool.and_eq_true_iff.1 latching.within
        have left : leaves (⟨op, (loop.system.perform pool.shared op answer).1⟩ : LoopCall G) =
          false := remains
        simp only [inside, List.any_append, entered, List.any_cons, List.any_nil, left]
        simpa using unleft
      · rw [List.any_append, latching.latched]
        rfl
    · rintro ⟨input, reply, hcall, -⟩
      obtain rfl : op = .inl (.runHonorTxn input) := congrArg Call.op hcall
      rw [(gate_finds forms reached (List.mem_of_getElem? waiting)).2] at unfound
      cases unfound
  · have elsewhere := (exclusive.others present latching.within index mine waiting).1
    constructor
    · exact .inr ⟨latcher, thread, (Pool.getElem?_advance _ waiting answer _).trans
        ((if_neg (Ne.symm mine)).trans present), latching⟩
    · rintro ⟨input, reply, hcall, -⟩
      obtain rfl : op = .inl (.runHonorTxn input) := congrArg Call.op hcall
      obtain ⟨rfl, -⟩ := gate_finds forms reached (List.mem_of_getElem? waiting)
      obtain ⟨entered, unleft⟩ := tick_inside run
      simp [inside, entered, unleft] at elsewhere

end

/-- If no tick before the expiry is returned a candidate, nothing commits from the expiry on,
provided each tick that has set the latch is returned one before it ends. -/
theorem late_commit_needs_candidate (loop : OnPaid G) {reserver : Bool}
    (forms : loop.engine.deps.forms = createFormRegistry (builtinForms reserver)) (db : Db G)
    (clock : Int) (listed : QuoteId → List RawSettlementCandidate)
    (unlatched : Unlatched loop.quote db) (pool : LoopPool G)
    (reached : Reachable loop.system (.booted db clock listed) pool)
    (nothing : NoCandidateEarly loop.quote pool.log)
    (latches : LatchesOnCandidate loop.quote pool.log) :
    ∀ event ∈ pool.log, ¬ CommitsLate loop.quote event.call := by
  suffices inv : NoCandidateEarly loop.quote pool.log → LatchesOnCandidate loop.quote pool.log →
      Unseen loop.quote pool ∧ ∀ event ∈ pool.log, ¬ CommitsLate loop.quote event.call from
    (inv nothing latches).2
  refine reached.invariant (fun pool => NoCandidateEarly loop.quote pool.log →
    LatchesOnCandidate loop.quote pool.log → Unseen loop.quote pool ∧
      ∀ event ∈ pool.log, ¬ CommitsLate loop.quote event.call)
    (fun _ _ => ⟨.inl unlatched, by simp [Pool.fresh]⟩)
    fun before after run ih step nothing latches => ?_
  cases step with
  | start task may =>
    obtain ⟨unseen, late⟩ := ih nothing latches
    refine ⟨unseen.imp id ?_, late⟩
    rintro ⟨index, thread, present, latching⟩
    refine ⟨index, thread, ?_, latching⟩
    rw [Pool.start, List.getElem?_append_left (List.getElem?_eq_some_iff.1 present).1]
    exact present
  | shift next may =>
    obtain ⟨unseen, late⟩ := ih nothing latches
    refine ⟨unseen.imp (fun unlatched => ?_) id, late⟩
    rw [Pool.shift, show next = _ from may]
    exact unlatched
  | @advance index task past op resume answer waiting =>
    have nothingBefore : NoCandidateEarly loop.quote before.log :=
      fun event h => nothing event (List.mem_append_left _ h)
    obtain ⟨unseen, late⟩ := ih nothingBefore fun event h =>
      latches event (List.mem_append_left _ h)
    suffices Unseen loop.quote (before.advance loop.system index task past op resume answer) ∧
        ¬ CommitsLate loop.quote ⟨op, (before.shared.perform op answer).1⟩ from
      ⟨this.1, List.forall_mem_append.2 ⟨late, List.forall_mem_singleton.2 this.2⟩⟩
    rcases unseen with unlatched | ⟨latcher, thread, present, latching⟩
    · refine ⟨unlatched.advance run waiting answer, ?_⟩
      cases op with
      | inr own =>
        rintro ⟨_, _, hcall, -⟩
        cases congrArg Call.op hcall
      | inl op =>
        refine unlatched.not_commitsLate ?_
        rintro input rfl
        exact program_runs_gate (run.runs _ (List.mem_of_getElem? waiting))
    · refine latching.advance forms rfl run present waiting answer nothingBefore ?_
      rintro rfl leaving
      obtain rfl := Option.some.inj (present.symm.trans waiting)
      exact latches _ (List.mem_append_right _ (List.mem_singleton_self _)) leaving
        latching.latched

/-! The loop for `sampleQuote`, which is paid long after it has expired at time 1000. -/

def paidLate : LoopMove :=
  .shift fun state => { state with
    world := { state.world with clock := 2000 }
    listed := paidPorts.settlements }

def earlyTickMoves : List LoopMove :=
  .start .startup :: turns 0 4 ++ .start .tick :: turns 1 9 ++
    paidLate :: .start .tick :: turns 2 13

def lateTickMoves : List LoopMove :=
  .start .startup :: turns 0 4 ++ paidLate :: .start .tick :: turns 1 13

def loopPool (moves : List LoopMove) : LoopPool Unit :=
  (Pool.fresh (.booted (.empty ()) 20 fun _ => [])).play sampleLoop.system moves

theorem late_commit_unseen :
    Reachable sampleLoop.system (.booted (.empty ()) 20 fun _ => []) (loopPool earlyTickMoves) ∧
    NoCandidateEarly sampleQuote (loopPool earlyTickMoves).log ∧
    ∃ event ∈ (loopPool earlyTickMoves).log, CommitsLate sampleQuote event.call := by
  refine ⟨Pool.play_reachable ?_, ?_, _, List.mem_of_getElem? (i := 23) rfl, _, _, rfl,
    by decide, rfl⟩
  · simp only [earlyTickMoves, turns, List.append_assoc, List.cons_append]
    refine ⟨trivial, Pool.allowed_advances 4 ⟨rfl, Pool.allowed_advances 9 ⟨rfl, rfl, ?_⟩⟩⟩
    exact List.append_nil (List.replicate 13 _) ▸ Pool.allowed_advances 13 trivial
  · decide +kernel

theorem late_commit_needs_candidate_late :
    (loopPool lateTickMoves).shared.settled.isSome = true ∧
    ∀ event ∈ (loopPool lateTickMoves).log, ¬ CommitsLate sampleQuote event.call := by
  have reached : Reachable sampleLoop.system (.booted (.empty ()) 20 fun _ => [])
      (loopPool lateTickMoves) := by
    apply Pool.play_reachable
    simp only [lateTickMoves, turns, List.cons_append]
    refine ⟨trivial, Pool.allowed_advances 4 ⟨rfl, rfl, ?_⟩⟩
    exact List.append_nil (List.replicate 13 _) ▸ Pool.allowed_advances 13 trivial
  have nothing : NoCandidateEarly sampleQuote (loopPool lateTickMoves).log := by decide +kernel
  have latches : LatchesOnCandidate sampleQuote (loopPool lateTickMoves).log := by
    decide +kernel
  have settled : (loopPool lateTickMoves).shared.settled.isSome = true := by decide +kernel
  exact ⟨settled, late_commit_needs_candidate sampleLoop rfl (.empty ()) 20 (fun _ => [])
    (unlatched_empty _ _) _ reached nothing latches⟩

end OnPaid
end ExferHonor
