import ExferHonor.Service.OneTick

/-! Cancelling a loop. A tick that has passed its guard before the cancel goes on, and begins its
`honor` if it had not begun it yet. -/
namespace ExferHonor

namespace Facade
open Effects
variable {EOp : Type} {EReply : EOp → Type}

def startsTimer : FacadeCall EOp EReply → Bool
  | ⟨.inr .startTimer, _⟩ => true
  | _ => false

def StartedOnce {σ : Type} (pool : FacadePool σ EOp EReply) : Prop :=
  ∀ thread ∈ pool.threads.tail, thread.task ≠ .startup

instance {σ : Type} (pool : FacadePool σ EOp EReply) : Decidable (StartedOnce pool) :=
  inferInstanceAs (Decidable (∀ thread ∈ pool.threads.tail, thread.task ≠ .startup))

theorem StartedOnce.index {σ : Type} {pool : FacadePool σ EOp EReply} (once : StartedOnce pool)
    {index : Nat} {thread : FacadeThread EOp EReply}
    (present : pool.threads[index]? = some thread) (task : thread.task = .startup) : index = 0 := by
  cases index with
  | zero => rfl
  | succ index =>
    rw [← List.getElem?_tail] at present
    exact absurd task (once thread (List.mem_of_getElem? present))

end Facade

namespace LoopVars
open Facade
variable {EOp : Type} {EReply : EOp → Type}

theorem perform_timer (vars : LoopVars) (op : LoopOp) (reply : op.Reply)
    (timed : (vars.perform op).2.timer = true) :
    vars.timer = true ∨ startsTimer (⟨.inr op, reply⟩ : FacadeCall EOp EReply) = true := by
  have settling (result : Except Thrown OnPaidResult) (timed : (vars.settle result).timer = true) :
      vars.timer = true := by
    unfold settle at timed
    split at timed
    · exact timed
    · contradiction
  cases op with
  | enterTick =>
    simp only [perform] at timed
    split at timed <;> exact .inl timed
  | leaveTick => exact .inl timed
  | startTimer => exact .inr rfl
  | finish result => exact .inl (settling _ timed)
  | fail e => exact .inl (settling _ timed)

end LoopVars

namespace Facade
open Effects Program
variable {EOp : Type} {EReply : EOp → Type} {facade : Facade EOp EReply} {task : LoopTask}
  {past : List (FacadeCall EOp EReply)} {op : EOp ⊕ LoopOp}
  {resume : Sum.elim EReply LoopOp.Reply op → FacadeAsync EOp EReply Unit}
  {rest : FacadeAsync EOp EReply Unit}

theorem startsTimer_task (run : (facade.program task).Runs past (.call op resume))
    {reply : Sum.elim EReply LoopOp.Reply op} (starts : startsTimer ⟨op, reply⟩ = true) :
    task = .startup := by
  cases task with
  | startup => rfl
  | cancel =>
    obtain ⟨-, rfl⟩ := cancel_calls run
    contradiction
  | tick =>
    cases tick_calls run with
    | enter => contradiction
    | port trying => contradiction
    | @settle own ended result returns hsettles => cases result <;> contradiction
    | leave returns => contradiction

theorem enters_task (run : (facade.program task).Runs past (.call op resume))
    {reply : Sum.elim EReply LoopOp.Reply op} (passes : enters ⟨op, reply⟩ = true) :
    task = .tick := by
  cases task with
  | tick => rfl
  | cancel =>
    obtain ⟨-, rfl⟩ := cancel_calls run
    contradiction
  | startup => cases startup_calls run <;> contradiction

theorem task_of_inside (run : (facade.program task).Runs past rest)
    (isInside : inside (⟨task, past, rest⟩ : FacadeThread EOp EReply) = true) :
    task = .tick := by
  rw [inside, Bool.and_eq_true, List.any_eq_true] at isInside
  obtain ⟨⟨call, hcall, passes⟩, -⟩ := isInside
  obtain ⟨earlier, later, rfl⟩ := List.mem_iff_append.1 hcall
  obtain ⟨_, first, _⟩ := run.split
  exact enters_task first passes

end Facade

namespace Hosts
open Effects Program Facade LoopVars
variable {EOp : Type} {EReply : EOp → Type} {facade : Facade EOp EReply} {σ : Type}
  {vars : σ → LoopVars}
  {system : System σ (EOp ⊕ LoopOp) (Sum.elim EReply LoopOp.Reply) Thrown Unit LoopTask}
  {initial : σ} {pool : FacadePool σ EOp EReply}

theorem timer_started (host : Hosts facade vars system) (fresh : vars initial = .fresh)
    (reached : Reachable system initial pool) :
    ((vars pool.shared).timer = true ∨ ∃ thread ∈ pool.threads, thread.task = .tick) →
      ∃ event ∈ pool.log, startsTimer event.call = true := by
  refine reached.invariant (fun pool =>
    ((vars pool.shared).timer = true ∨ ∃ thread ∈ pool.threads, thread.task = .tick) →
      ∃ event ∈ pool.log, startsTimer event.call = true) ?_ fun before after run ih step => ?_
  · rintro (timed | ⟨thread, hthread, _⟩)
    · rw [Pool.fresh, fresh] at timed
      contradiction
    · simp [Pool.fresh] at hthread
  · cases step with
    | start task may =>
      rintro (timed | ⟨thread, hthread, htask⟩)
      · exact ih (.inl timed)
      · rcases List.mem_append.1 hthread with h | h
        · exact ih (.inr ⟨thread, h, htask⟩)
        · rw [List.mem_singleton.1 h] at htask
          obtain rfl : task = .tick := htask
          exact ih (.inl (host.timed _ may))
    | shift next may =>
      rw [Pool.shift, host.shifted _ _ may]
      exact ih
    | @advance index task past op resume answer waiting =>
      have earlier (started : (vars before.shared).timer = true ∨
          ∃ thread ∈ before.threads, thread.task = .tick) :
          ∃ event ∈ (before.advance system index task past op resume answer).log,
            startsTimer event.call = true := by
        obtain ⟨event, hevent, hstarts⟩ := ih started
        exact ⟨event, List.mem_append_left _ hevent, hstarts⟩
      rintro (timed | ⟨thread, hthread, htask⟩)
      · cases op with
        | inl op =>
          rw [Pool.advance, host.port] at timed
          exact earlier (.inl timed)
        | inr op =>
          rw [Pool.advance, host.changed] at timed
          rcases perform_timer _ op (system.perform before.shared (.inr op) answer).1 timed with
            timed | starts
          · exact earlier (.inl timed)
          · exact ⟨_, List.mem_append_right _ (List.mem_singleton_self _), starts⟩
      · rcases List.mem_or_eq_of_mem_set hthread with h | rfl
        · exact earlier (.inr ⟨thread, h, htask⟩)
        · exact earlier (.inr ⟨_, List.mem_of_getElem? waiting, htask⟩)

/-- While a tick is inside, nothing but that tick and a cancel settles `done`. -/
theorem settler (host : Hosts facade vars system) (fresh : vars initial = .fresh)
    (reached : Reachable system initial pool) (once : StartedOnce pool) {index other : Nat}
    {task : LoopTask} {past : List (FacadeCall EOp EReply)} {op : EOp ⊕ LoopOp}
    {resume : Sum.elim EReply LoopOp.Reply op → FacadeAsync EOp EReply Unit}
    (waiting : pool.threads[index]? = some ⟨task, past, .call op resume⟩)
    {reply : Sum.elim EReply LoopOp.Reply op} {result : Except Thrown OnPaidResult}
    (settling : settles ⟨op, reply⟩ = some result) {thread : FacadeThread EOp EReply}
    (present : pool.threads[other]? = some thread) (isInside : inside thread = true) :
    index = other ∨ task = .cancel := by
  have run := reached.runs _ (List.mem_of_getElem? waiting)
  rw [host.program] at run
  cases (settles_iff run reply result).1 settling with
  | cancel => exact .inr rfl
  | tick returns _ =>
    refine .inl ((host.exclusive fresh reached).alone index other _ _ waiting present ?_ isInside)
    simp [inside, entering, enters, leaves]
  | @startup own e returns fatal =>
    have htick : thread.task = .tick := by
      have inRun := reached.runs _ (List.mem_of_getElem? present)
      rw [host.program] at inRun
      exact task_of_inside inRun isInside
    obtain ⟨event, hevent, starts⟩ :=
      host.timer_started fresh reached (.inr ⟨thread, List.mem_of_getElem? present, htick⟩)
    obtain ⟨starter, hstarter, hsame, later, hpast⟩ := reached.thread_of_event event hevent
    obtain ⟨_, starting⟩ := reached.runs_to_event event hevent
    rw [host.program] at starting
    have htask := startsTimer_task starting starts
    obtain rfl := once.index waiting rfl
    rw [once.index hstarter (hsame.trans htask), waiting] at hstarter
    cases hstarter
    have untimed : (own.map Call.alongside).any (startsTimer : FacadeCall EOp EReply → Bool) =
        false := any_alongside own fun _ => rfl
    rw [show own.map Call.alongside = _ from hpast, List.any_append, List.any_cons, starts,
      Bool.true_or, Bool.or_true] at untimed
    contradiction

end Hosts
namespace OnPaid
open Effects Program Facade
variable {G : Type} (loop : OnPaid G)

def readsClock : LoopCall G → Bool
  | ⟨.inl .clockNow, _⟩ => true
  | _ => false

def preparing (thread : FacadeThread (Op G) Op.Reply) : Bool :=
  inside thread && decide (thread.past.countP readsClock < 2)

def BeginsHonor (event : LoopEvent G) : Prop :=
  event.task = .tick ∧ ∃ now seen result,
    event.past = entering :: ⟨.inl .clockNow, .ok now⟩ :: seen.map Call.alongside ∧
      (HonorEngine.markObserved loop.quote.key now).Returns seen (.ok result)

def Commits (call : LoopCall G) : Prop :=
  ∃ input reply, call = ⟨.inl (.runHonorTxn input), reply⟩ ∧ TxnReply.result reply = .ok ()

/-- `cancel` is not called while a tick is past its guard and has not begun its `honor`. -/
def CancelsOutside (before after : LoopPool G) : Prop :=
  ∀ event ∈ after.log.drop before.log.length, event.task = .cancel →
    ∀ thread ∈ before.threads, preparing thread = false

instance : DecidableRel (CancelsOutside (G := G)) := fun before after =>
  inferInstanceAs (Decidable (∀ event ∈ after.log.drop before.log.length, event.task = .cancel →
    ∀ thread ∈ before.threads, preparing thread = false))

def Undisturbed (pool : LoopPool G) : Prop :=
  ∀ thread ∈ pool.threads, preparing thread = true →
    (∀ call ∈ thread.past, settles call = none) → pool.shared.settled = none

variable {loop} {initial : LoopState G} {before : LoopPool G} {index : Nat} {task : LoopTask}
  {past : List (LoopCall G)} {op : Op G ⊕ LoopOp}
  {resume : Sum.elim Op.Reply LoopOp.Reply op → LoopAsync G Unit}

theorem Undisturbed.advance (undisturbed : Undisturbed before)
    (fresh : initial.vars = .fresh) (run : Reachable loop.system initial before)
    (once : StartedOnce before)
    (waiting : before.threads[index]? = some ⟨task, past, .call op resume⟩)
    (answer : Sum.elim Op.Reply LoopOp.Reply op)
    (cancels : task = .cancel → ∀ thread ∈ before.threads, preparing thread = false) :
    Undisturbed (before.advance loop.system index task past op resume answer) := by
  have host := loop.hosts
  have hsettled := host.performed_settled before.shared op answer
  intro thread hthread hpreparing unsettling
  change ((loop.system.perform before.shared op answer).2).vars.settled = none
  obtain ⟨k, hk⟩ := List.getElem?_of_mem hthread
  rw [Pool.getElem?_advance loop.system waiting] at hk
  split at hk
  next moved =>
    cases hk
    obtain ⟨earlier, hlast⟩ := List.forall_mem_append.1 unsettling
    rw [hsettled, hlast _ (List.mem_singleton_self _), Option.or_none]
    rw [preparing, Bool.and_eq_true, decide_eq_true_eq, List.countP_append] at hpreparing
    obtain ⟨isInside, once⟩ := hpreparing
    have program := run.runs _ (List.mem_of_getElem? waiting)
    rw [host.program] at program
    rcases program_inside program with ⟨rfl, rfl⟩ | ⟨noEntry, entered, unleft⟩ |
      ⟨noEntry, noExit, noTick, unentered⟩
    · have passed : (loop.system.perform before.shared (.inr .enterTick) answer).1 = true := by
        simpa [inside, enters, leaves] using isInside
      rw [host.replied] at passed
      exact (LoopVars.perform_enterTick _ passed).1
    · refine undisturbed _ (List.mem_of_getElem? waiting) ?_ earlier
      rw [preparing, inside, entered, unleft, Bool.not_false, Bool.true_and, Bool.true_and,
        decide_eq_true_eq]
      exact Nat.lt_of_le_of_lt (Nat.le_add_right _ _) once
    · simp [inside, unentered, enters_eq_false, noEntry] at isInside
  next other =>
    have present := List.mem_of_getElem? hk
    rw [hsettled, show before.shared.vars.settled = none from
      undisturbed thread present hpreparing unsettling, Option.none_or]
    cases hsettles : settles ⟨op, (loop.system.perform before.shared op answer).1⟩ with
    | none => rfl
    | some result =>
      have isInside : inside thread = true := (Bool.and_eq_true_iff.1 hpreparing).1
      rcases host.settler fresh run once waiting hsettles hk isInside with same | rfl
      · exact absurd same other
      · rw [cancels rfl thread present] at hpreparing
        contradiction

theorem BeginsHonor.preparing {event : LoopEvent G} (begins : loop.BeginsHonor event)
    (rest : LoopAsync G Unit) :
    preparing (⟨event.task, event.past, rest⟩ : FacadeThread (Op G) Op.Reply) = true ∧
      ∀ call ∈ event.past, settles call = none := by
  obtain ⟨-, now, seen, result, hpast, returns⟩ := begins
  have observing := ((HonorEngine.markObserved_uses loop.quote.key now).runs returns).1
  have latchOnly : ∀ call ∈ seen.map Call.alongside, readsClock call = false := by
    intro call hcall
    obtain ⟨latch, hlatch, rfl⟩ := List.mem_map.1 hcall
    have allowed := observing latch hlatch
    obtain ⟨op, reply⟩ := latch
    cases op <;> first | rfl | contradiction
  constructor
  · have hcount : (seen.map Call.alongside).countP readsClock = 0 :=
      List.countP_eq_zero.2 fun call hcall => by simp [latchOnly call hcall]
    rw [OnPaid.preparing, inside, hpast, List.countP_cons, List.countP_cons, hcount]
    simp [entering, enters, leaves, readsClock]
  · intro call hcall
    rw [hpast] at hcall
    rcases List.mem_cons.1 hcall with rfl | hcall
    · rfl
    · rcases List.mem_cons.1 hcall with rfl | hcall
      · rfl
      · obtain ⟨latch, -, rfl⟩ := List.mem_map.1 hcall
        rfl

theorem poll_runs_honor {own : List (PortCall G)} {op : Op G}
    {resume : op.Reply → Async G HonorOutcome} (run : loop.facade.poll.Runs own (.call op resume))
    (notClock : .clockNow ≠ op) (notLatch : ¬ op.byMarkObserved = true) :
    ∃ now seen result honoring, own = ⟨.clockNow, .ok now⟩ :: (seen ++ honoring) ∧
      (HonorEngine.markObserved loop.quote.key now).Returns seen (.ok result) ∧
      (loop.engine.honor loop.quote.key loop.deliver loop.opts).Runs honoring
        (.call op resume) := by
  obtain ⟨_, now, _, rfl, rfl, observing⟩ := Runs.of_ask_bind run notClock
  obtain ⟨seen, result, later, rfl, observed, honoring⟩ :=
    (HonorEngine.markObserved_uses _ _).of_bind_call observing notLatch
  exact ⟨now, seen, result, later, rfl, observed, honoring⟩

theorem poll_runs_gate {own : List (PortCall G)} {input : HonorTxnInput G}
    {resume : TxnReply → Async G HonorOutcome}
    (run : loop.facade.poll.Runs own (.call (.runHonorTxn input) resume)) :
    ∃ now seen result first later, own = ⟨.clockNow, .ok now⟩ :: (seen ++ first :: later) ∧
      (HonorEngine.markObserved loop.quote.key now).Returns seen (.ok result) := by
  obtain ⟨now, seen, result, honoring, rfl, observed, atGate⟩ := poll_runs_honor run nofun nofun
  cases (HonorEngine.honor_runs_gate atGate).1 with
  | @mk _ sampling row scoring _ _ _ preparing sampled _ _ _ _ =>
    cases sampling with
    | nil => exact ⟨now, seen, result, _, _, rfl, observed⟩
    | cons first sampling => exact ⟨now, seen, result, _, _, rfl, observed⟩

theorem begun_of_gate {pool : LoopPool G} (reached : Reachable loop.system initial pool)
    {event : LoopEvent G} (logged : event ∈ pool.log) {input : HonorTxnInput G}
    (gate : event.call.op = .inl (.runHonorTxn input)) :
    ∃ begun ∈ pool.log, begun.thread = event.thread ∧ loop.BeginsHonor begun := by
  obtain ⟨resume, run⟩ := reached.runs_to_event event logged
  obtain ⟨thread, hthread, htask, rest, hpast⟩ := reached.thread_of_event event logged
  obtain ⟨_, task, past, _, ⟨op, reply⟩, _⟩ := event
  obtain rfl : op = .inl (.runHonorTxn input) := gate
  rw [show loop.system.program = _ from loop.hosts.program] at run
  rcases program_runs_port run with ⟨-, _, _, -, registering⟩ | ⟨rfl, own, _, rfl, polling⟩
  · cases (loop.engine.register_uses _ _).of_call registering
  · obtain ⟨now, seen, result, first, later, rfl, observed⟩ := poll_runs_gate polling
    obtain ⟨begun, hbegun, hsame, hbegunTask, hbegunPast, -⟩ := reached.event_of_past _ thread
      hthread (entering :: ⟨.inl .clockNow, .ok now⟩ :: seen.map Call.alongside) first.alongside
      (later.map Call.alongside ++ ⟨.inl (.runHonorTxn input), reply⟩ :: rest) (by simp [hpast])
    exact ⟨begun, hbegun, hsame, hbegunTask.trans htask, now, seen, result, hbegunPast, observed⟩

/-- Provided `cancel` is not called while a tick is past its guard and has not begun its `honor`,
no `honor` begins once `done` has settled, and what commits belongs to one that had begun. -/
theorem honor_begins_unsettled (loop : OnPaid G) (db : Db G) (clock : Int)
    (listed : QuoteId → List RawSettlementCandidate) (pool : LoopPool G)
    (reached : ReachableBy loop.system
      (fun before after => StartedOnce after ∧ CancelsOutside before after)
      (.booted db clock listed) pool) :
    (∀ event ∈ pool.log, loop.BeginsHonor event → event.before.settled = none) ∧
    ∀ event ∈ pool.log, Commits event.call → ∃ begun ∈ pool.log,
      begun.thread = event.thread ∧ loop.BeginsHonor begun ∧ begun.before.settled = none := by
  have begins : StartedOnce pool ∧ Undisturbed pool ∧
      ∀ event ∈ pool.log, loop.BeginsHonor event → event.before.settled = none := by
    refine reached.invariant (fun pool => StartedOnce pool ∧ Undisturbed pool ∧
        ∀ event ∈ pool.log, loop.BeginsHonor event → event.before.settled = none)
      (by simp [Pool.fresh, StartedOnce, Undisturbed]) fun before after run ih step allowed => ?_
    obtain ⟨once, undisturbed, unsettled⟩ := ih
    obtain ⟨onceAfter, outside⟩ := allowed
    refine ⟨onceAfter, ?_⟩
    cases step with
    | start task may =>
      refine ⟨fun thread hthread hpreparing => ?_, unsettled⟩
      rcases List.mem_append.1 hthread with h | h
      · exact undisturbed thread h hpreparing
      · rw [List.mem_singleton.1 h] at hpreparing
        contradiction
    | shift next may =>
      have hsettled : next.settled = before.shared.settled := by rw [show next = _ from may]
      exact ⟨fun thread hthread hpreparing unsettling =>
        hsettled.trans (undisturbed thread hthread hpreparing unsettling), unsettled⟩
    | @advance index task past op resume answer waiting =>
      refine ⟨undisturbed.advance rfl run once waiting answer fun hcancel =>
        outside ⟨index, task, past, before.shared, _, _⟩ (by simp [Pool.advance]; exact ⟨rfl, rfl⟩)
          hcancel, fun event hevent hbegins => ?_⟩
      rcases List.mem_append.1 hevent with h | h
      · exact unsettled event h hbegins
      · rw [List.mem_singleton.1 h] at hbegins ⊢
        obtain ⟨hpreparing, unsettling⟩ := hbegins.preparing (.call op resume)
        exact undisturbed _ (List.mem_of_getElem? waiting) hpreparing unsettling
  refine ⟨begins.2.2, fun event hevent commits => ?_⟩
  obtain ⟨input, reply, hcall, -⟩ := commits
  obtain ⟨begun, hbegun, hsame, hbegins⟩ :=
    begun_of_gate reached.reachable hevent (congrArg Call.op hcall)
  exact ⟨begun, hbegun, hsame, hbegins, begins.2.2 begun hbegun hbegins⟩

/-! A cancel while the first tick awaits the latch, and one while it is in its `honor`. -/

def cancelAt (calls rest : Nat) : List LoopMove :=
  .start .startup :: turns 0 4 ++ .start .tick :: turns 1 calls ++
    .start .cancel :: turns 2 1 ++ turns 1 rest

def listedPool (moves : List LoopMove) : LoopPool Unit :=
  (Pool.fresh (.booted (.empty ()) 20 paidPorts.settlements)).play sampleLoop.system moves

theorem cancelAt_allowed (calls rest : Nat) :
    (Pool.fresh (.booted (.empty ()) 20 paidPorts.settlements)).Allowed sampleLoop.system
      (cancelAt calls rest) := by
  simp only [cancelAt, turns, List.append_assoc, List.cons_append]
  refine ⟨trivial, Pool.allowed_advances 4 ⟨rfl, Pool.allowed_advances calls ⟨trivial,
    Pool.allowed_advances 1 ?_⟩⟩⟩
  exact List.append_nil (List.replicate rest _) ▸ Pool.allowed_advances rest trivial

def latching : List (PortCall Unit) :=
  [⟨.getSeen sampleQuote.key,
      .ok (some (SqliteStore.rowFromSql (Statements.acceptedRow sampleQuote 20 4600)))⟩,
    ⟨.markObservedBeforeExpiry sampleQuote.key 20, .ok ()⟩]

theorem honor_begins_cancelled :
    Reachable sampleLoop.system (.booted (.empty ()) 20 paidPorts.settlements)
        (listedPool (cancelAt 3 11)) ∧
    StartedOnce (listedPool (cancelAt 3 11)) ∧
    (∃ event ∈ (listedPool (cancelAt 3 11)).log, sampleLoop.BeginsHonor event ∧
      event.before.settled = some (.ok .cancelled)) ∧
    ∃ event ∈ (listedPool (cancelAt 3 11)).log, Commits event.call ∧
      event.before.settled = some (.ok .cancelled) := by
  refine ⟨Pool.play_reachable (cancelAt_allowed 3 11), by decide +kernel,
    ⟨_, List.mem_of_getElem? (i := 9) rfl, ⟨rfl, 20, latching, ⟨true, true⟩, rfl, ?_⟩, rfl⟩,
    _, List.mem_of_getElem? (i := 16) rfl, ⟨_, _, rfl, rfl⟩, rfl⟩
  exact .call _ (.call _ .nil)

theorem honor_begins_unsettled_honoring :
    (∃ event ∈ (listedPool (cancelAt 6 8)).log, Commits event.call ∧
      event.before.settled = some (.ok .cancelled)) ∧
    (∀ event ∈ (listedPool (cancelAt 6 8)).log, sampleLoop.BeginsHonor event →
      event.before.settled = none) ∧
    ∀ event ∈ (listedPool (cancelAt 6 8)).log, Commits event.call →
      ∃ begun ∈ (listedPool (cancelAt 6 8)).log, begun.thread = event.thread ∧
        sampleLoop.BeginsHonor begun ∧ begun.before.settled = none := by
  refine ⟨⟨_, List.mem_of_getElem? (i := 16) rfl, ⟨_, _, rfl, rfl⟩, rfl⟩,
    honor_begins_unsettled sampleLoop (.empty ()) 20 paidPorts.settlements _
      (Pool.play_reachableBy (cancelAt_allowed 6 8) ?_)⟩
  decide +kernel

end OnPaid
end ExferHonor
