import ExferHonor.Effects.Footprint
import Mathlib.Logic.Relation

/-! Interleaved runs of programs over one shared state. Every call is one atomic step of the
shared state; between two calls of a program any other program, or the surroundings, may
move. Each call is recorded with the state before and after it. -/
namespace Effects

/-- What the programs share and how it reacts. `perform` executes one call; its third argument
is the reply of the outside world, used where the state does not decide the reply itself. -/
structure System (σ Op : Type) (Reply : Op → Type) (ε α Task : Type) where
  program : Task → Program Op Reply ε α
  perform : σ → (op : Op) → Reply op → Reply op × σ
  mayStart : σ → Task → Prop
  mayShift : σ → σ → Prop

structure Thread (Op : Type) (Reply : Op → Type) (ε α Task : Type) where
  task : Task
  past : List (Call Op Reply)
  rest : Program Op Reply ε α

/-- `past` holds the calls the thread had made before this one. -/
structure Event (σ Op : Type) (Reply : Op → Type) (Task : Type) where
  thread : Nat
  task : Task
  past : List (Call Op Reply)
  before : σ
  call : Call Op Reply
  after : σ

structure Pool (σ Op : Type) (Reply : Op → Type) (ε α Task : Type) where
  shared : σ
  threads : List (Thread Op Reply ε α Task)
  log : List (Event σ Op Reply Task)

variable {σ Op : Type} {Reply : Op → Type} {ε α Task : Type}

namespace Pool

def fresh (shared : σ) : Pool σ Op Reply ε α Task := ⟨shared, [], []⟩

def start (system : System σ Op Reply ε α Task) (pool : Pool σ Op Reply ε α Task)
    (task : Task) : Pool σ Op Reply ε α Task :=
  { pool with threads := pool.threads ++ [⟨task, [], system.program task⟩] }

def shift (pool : Pool σ Op Reply ε α Task) (next : σ) : Pool σ Op Reply ε α Task :=
  { pool with shared := next }

def advance (system : System σ Op Reply ε α Task) (pool : Pool σ Op Reply ε α Task)
    (index : Nat) (task : Task) (past : List (Call Op Reply)) (op : Op)
    (resume : Reply op → Program Op Reply ε α) (answer : Reply op) :
    Pool σ Op Reply ε α Task :=
  let result := system.perform pool.shared op answer
  { shared := result.2
    threads := pool.threads.set index ⟨task, past ++ [⟨op, result.1⟩], resume result.1⟩
    log := pool.log ++ [⟨index, task, past, pool.shared, ⟨op, result.1⟩, result.2⟩] }

theorem getElem?_advance (system : System σ Op Reply ε α Task) {pool : Pool σ Op Reply ε α Task}
    {index : Nat} {task : Task} {past : List (Call Op Reply)} {op : Op}
    {resume : Reply op → Program Op Reply ε α}
    (waiting : pool.threads[index]? = some ⟨task, past, .call op resume⟩) (answer : Reply op)
    (other : Nat) :
    (pool.advance system index task past op resume answer).threads[other]? =
      if index = other then some ⟨task, past ++ [⟨op, (system.perform pool.shared op answer).1⟩],
        resume (system.perform pool.shared op answer).1⟩
      else pool.threads[other]? := by
  rw [advance, List.getElem?_set, if_pos (List.getElem?_eq_some_iff.1 waiting).1]

theorem countP_advance (system : System σ Op Reply ε α Task) {pool : Pool σ Op Reply ε α Task}
    (holds : Thread Op Reply ε α Task → Bool) {index : Nat} {task : Task}
    {past : List (Call Op Reply)} {op : Op} {resume : Reply op → Program Op Reply ε α}
    (waiting : pool.threads[index]? = some ⟨task, past, .call op resume⟩)
    (before : holds ⟨task, past, .call op resume⟩ = false) (answer : Reply op) :
    (pool.advance system index task past op resume answer).threads.countP holds =
      pool.threads.countP holds + if holds
        ⟨task, past ++ [⟨op, (system.perform pool.shared op answer).1⟩],
          resume (system.perform pool.shared op answer).1⟩ then 1 else 0 := by
  obtain ⟨hlength, hthread⟩ := List.getElem?_eq_some_iff.1 waiting
  rw [advance, List.countP_set hlength, hthread]
  simp [before]

end Pool

inductive Step (system : System σ Op Reply ε α Task) :
    Pool σ Op Reply ε α Task → Pool σ Op Reply ε α Task → Prop
  | start {pool} (task : Task) (may : system.mayStart pool.shared task) :
      Step system pool (pool.start system task)
  | shift {pool} (next : σ) (may : system.mayShift pool.shared next) :
      Step system pool (pool.shift next)
  | advance {pool} {index task past op resume} (answer : Reply op)
      (waiting : pool.threads[index]? = some ⟨task, past, .call op resume⟩) :
      Step system pool (pool.advance system index task past op resume answer)

def Reachable (system : System σ Op Reply ε α Task) (initial : σ)
    (pool : Pool σ Op Reply ε α Task) : Prop :=
  Relation.ReflTransGen (Step system) (Pool.fresh initial) pool

def ReachableBy (system : System σ Op Reply ε α Task)
    (allowed : Pool σ Op Reply ε α Task → Pool σ Op Reply ε α Task → Prop) (initial : σ)
    (pool : Pool σ Op Reply ε α Task) : Prop :=
  Relation.ReflTransGen (fun before after => Step system before after ∧ allowed before after)
    (Pool.fresh initial) pool

/-- Every entry of the log satisfies `holds`, given the entries before it. -/
def Along {E : Type} (holds : List E → E → Prop) (log : List E) : Prop :=
  ∀ earlier entry later, log = earlier ++ entry :: later → holds earlier entry

theorem along_concat_iff {E : Type} {holds : List E → E → Prop} {log : List E} {entry : E} :
    Along holds (log ++ [entry]) ↔ Along holds log ∧ holds log entry := by
  constructor
  · intro h
    exact ⟨fun earlier first later hlog => h earlier first (later ++ [entry]) (by simp [hlog]),
      h log entry [] rfl⟩
  · rintro ⟨hlog, hentry⟩ earlier first later heq
    rcases List.eq_nil_or_concat later with rfl | ⟨rest, last, rfl⟩
    · obtain ⟨rfl, h⟩ := List.append_inj' heq rfl
      rw [← List.head_eq_of_cons_eq h]
      exact hentry
    · rw [List.concat_eq_append, ← List.cons_append, ← List.append_assoc] at heq
      exact hlog earlier first rest (List.append_inj' heq rfl).1

theorem along_of_pairwise {E : Type} (paired : E → E → Prop) {holds : List E → E → Prop}
    {log : List E} (pairwise : log.Pairwise paired)
    (enough : ∀ earlier entry, (∀ first ∈ earlier, paired first entry) → holds earlier entry) :
    Along holds log := by
  rintro earlier entry later rfl
  obtain ⟨-, -, across⟩ := List.pairwise_append.1 pairwise
  exact enough earlier entry fun first hfirst => across first hfirst entry List.mem_cons_self

namespace ReachableBy
variable {system : System σ Op Reply ε α Task}
  {allowed : Pool σ Op Reply ε α Task → Pool σ Op Reply ε α Task → Prop} {initial : σ}
  {pool : Pool σ Op Reply ε α Task}

theorem reachable (reached : ReachableBy system allowed initial pool) :
    Reachable system initial pool :=
  Relation.ReflTransGen.mono (fun _ _ => And.left) _ _ reached

theorem invariant (reached : ReachableBy system allowed initial pool)
    (holds : Pool σ Op Reply ε α Task → Prop) (initially : holds (.fresh initial))
    (preserved : ∀ before after, Reachable system initial before → holds before →
      Step system before after → allowed before after → holds after) : holds pool := by
  induction reached with
  | refl => exact initially
  | tail run step ih => exact preserved _ _ (reachable run) ih step.1 step.2

end ReachableBy

namespace Reachable
variable {system : System σ Op Reply ε α Task} {initial : σ} {pool : Pool σ Op Reply ε α Task}

/-- The rule for properties of whole pools: a step may use everything already known of the run
up to it. -/
theorem invariant (reached : Reachable system initial pool)
    (holds : Pool σ Op Reply ε α Task → Prop) (initially : holds (.fresh initial))
    (preserved : ∀ before after, Reachable system initial before → holds before →
      Step system before after → holds after) : holds pool := by
  induction reached with
  | refl => exact initially
  | tail run step ih => exact preserved _ _ run ih step

/-- The rule for properties of single threads: they hold of every program that may start and
survive one call. -/
theorem forall_thread (reached : Reachable system initial pool)
    {holds : Thread Op Reply ε α Task → Prop}
    (started : ∀ shared task, system.mayStart shared task →
      holds ⟨task, [], system.program task⟩)
    (advanced : ∀ shared task past op resume answer,
      holds ⟨task, past, .call op resume⟩ →
      holds ⟨task, past ++ [⟨op, (system.perform shared op answer).1⟩],
        resume (system.perform shared op answer).1⟩) :
    ∀ thread ∈ pool.threads, holds thread := by
  refine reached.invariant (fun pool => ∀ thread ∈ pool.threads, holds thread)
    (by simp [Pool.fresh]) fun before after _ ih step => ?_
  cases step with
  | start task may =>
    intro thread hthread
    rcases List.mem_append.1 hthread with h | h
    · exact ih thread h
    · rw [List.mem_singleton.1 h]
      exact started _ task may
  | shift next may => exact ih
  | @advance index task past op resume answer waiting =>
    intro thread hthread
    rcases List.mem_or_eq_of_mem_set hthread with h | h
    · exact ih thread h
    · rw [h]
      exact advanced _ task past op resume answer (ih _ (List.mem_of_getElem? waiting))

theorem runs (reached : Reachable system initial pool) :
    ∀ thread ∈ pool.threads, (system.program thread.task).Runs thread.past thread.rest :=
  reached.forall_thread (fun _ _ _ => .nil) fun _ _ _ _ _ _ run => run.snoc _

theorem answered (reached : Reachable system initial pool)
    {answers : Call Op Reply → Prop}
    (replies : ∀ shared op answer, answers ⟨op, (system.perform shared op answer).1⟩) :
    ∀ thread ∈ pool.threads, ∀ call ∈ thread.past, answers call := by
  refine reached.forall_thread (fun _ _ _ => by simp) fun shared _ past op _ answer ih => ?_
  intro call hcall
  rcases List.mem_append.1 hcall with h | h
  · exact ih call h
  · rw [List.mem_singleton.1 h]
    exact replies shared op answer

theorem task_may_start (reached : Reachable system initial pool) :
    ∀ thread ∈ pool.threads, ∃ shared, system.mayStart shared thread.task :=
  reached.forall_thread (fun shared _ may => ⟨shared, may⟩) fun _ _ _ _ _ _ h => h

theorem thread_of_event (reached : Reachable system initial pool) :
    ∀ event ∈ pool.log, ∃ thread, pool.threads[event.thread]? = some thread ∧
      thread.task = event.task ∧ ∃ later, thread.past = event.past ++ event.call :: later := by
  refine reached.invariant (fun pool => ∀ event ∈ pool.log, ∃ thread,
    pool.threads[event.thread]? = some thread ∧ thread.task = event.task ∧
      ∃ later, thread.past = event.past ++ event.call :: later) (by simp [Pool.fresh])
    fun before after _ ih step => ?_
  cases step with
  | start task may =>
    intro event hevent
    obtain ⟨thread, hthread, hrest⟩ := ih event hevent
    refine ⟨thread, ?_, hrest⟩
    rw [Pool.start, List.getElem?_append_left (List.getElem?_eq_some_iff.1 hthread).1]
    exact hthread
  | shift next may => exact ih
  | @advance index task past op resume answer waiting =>
    intro event hevent
    have present := Pool.getElem?_advance system waiting answer
    rcases List.mem_append.1 hevent with h | h
    · obtain ⟨thread, hthread, htask, later, hpast⟩ := ih event h
      by_cases hsame : index = event.thread
      · rw [← hsame, waiting] at hthread
        cases hthread
        refine ⟨_, (present _).trans (if_pos hsame), htask,
          later ++ [⟨op, (system.perform before.shared op answer).1⟩], ?_⟩
        simp [show past = _ from hpast]
      · exact ⟨thread, (present _).trans ((if_neg hsame).trans hthread), htask, later, hpast⟩
    · rw [List.mem_singleton.1 h]
      exact ⟨_, (present _).trans (if_pos rfl), rfl, [], rfl⟩

theorem event_of_past (reached : Reachable system initial pool) :
    ∀ (index : Nat) thread, pool.threads[index]? = some thread → ∀ past call later,
      thread.past = past ++ call :: later →
      ∃ event ∈ pool.log, event.thread = index ∧ event.task = thread.task ∧
        event.past = past ∧ event.call = call := by
  refine reached.invariant (fun pool => ∀ (index : Nat) thread,
    pool.threads[index]? = some thread → ∀ past call later,
      thread.past = past ++ call :: later →
      ∃ event ∈ pool.log, event.thread = index ∧ event.task = thread.task ∧
        event.past = past ∧ event.call = call) (by simp [Pool.fresh])
    fun before after _ ih step => ?_
  intro index thread hthread past call later hpast
  cases step with
  | start task may =>
    rw [Pool.start, List.getElem?_append] at hthread
    split at hthread
    · exact ih index thread hthread past call later hpast
    · have hfresh := List.mem_singleton.1 (List.mem_of_getElem? hthread)
      simp [hfresh] at hpast
  | shift next may => exact ih index thread hthread past call later hpast
  | @advance moved task own op resume answer waiting =>
    rw [Pool.getElem?_advance system waiting] at hthread
    split at hthread
    next hindex =>
      cases hthread
      rcases List.eq_nil_or_concat later with rfl | ⟨rest, last, rfl⟩
      · obtain ⟨rfl, hcall⟩ := List.append_inj' hpast rfl
        cases hcall
        exact ⟨_, List.mem_append_right _ (List.mem_singleton_self _), hindex, rfl, rfl, rfl⟩
      · rw [List.concat_eq_append, ← List.cons_append, ← List.append_assoc] at hpast
        obtain ⟨event, hevent, hrest⟩ := ih moved _ waiting past call rest
          (List.append_inj' hpast rfl).1
        exact ⟨event, List.mem_append_left _ hevent, hindex ▸ hrest⟩
    next =>
      obtain ⟨event, hevent, hrest⟩ := ih index thread hthread past call later hpast
      exact ⟨event, List.mem_append_left _ hevent, hrest⟩

theorem performed (reached : Reachable system initial pool) :
    ∀ event ∈ pool.log, ∃ answer,
      event.call.reply = (system.perform event.before event.call.op answer).1 ∧
        event.after = (system.perform event.before event.call.op answer).2 := by
  refine reached.invariant (fun pool => ∀ event ∈ pool.log, ∃ answer,
    event.call.reply = (system.perform event.before event.call.op answer).1 ∧
      event.after = (system.perform event.before event.call.op answer).2) (by simp [Pool.fresh])
    fun before after _ ih step => ?_
  cases step with
  | start task may => exact ih
  | shift next may => exact ih
  | @advance index task past op resume answer waiting =>
    intro event hevent
    rcases List.mem_append.1 hevent with h | h
    · exact ih event h
    · rw [List.mem_singleton.1 h]
      exact ⟨answer, rfl, rfl⟩

theorem runs_to_event (reached : Reachable system initial pool) :
    ∀ event ∈ pool.log, ∃ resume,
      (system.program event.task).Runs event.past (.call event.call.op resume) := by
  intro event hevent
  obtain ⟨thread, hthread, htask, later, hpast⟩ := reached.thread_of_event event hevent
  have run := reached.runs thread (List.mem_of_getElem? hthread)
  rw [htask, hpast] at run
  obtain ⟨resume, first, _⟩ := run.split
  exact ⟨resume, first⟩

theorem runs_to_op (reached : Reachable system initial pool)
    {event : Event σ Op Reply Task} (logged : event ∈ pool.log) {op : Op}
    (called : event.call.op = op) :
    ∃ resume : Reply op → Program Op Reply ε α,
      (system.program event.task).Runs event.past (.call op resume) := by
  cases called
  exact reached.runs_to_event event logged

theorem event_of_event_past (reached : Reachable system initial pool) :
    ∀ event ∈ pool.log, ∀ call ∈ event.past, ∃ earlier ∈ pool.log,
      earlier.thread = event.thread ∧ earlier.task = event.task ∧ earlier.call = call := by
  intro event hevent call hcall
  obtain ⟨thread, hthread, htask, later, hpast⟩ := reached.thread_of_event event hevent
  obtain ⟨past, rest, hsplit⟩ := List.mem_iff_append.1 hcall
  rw [hsplit, List.append_assoc, List.cons_append] at hpast
  obtain ⟨earlier, hmem, hindex, hsame, -, rfl⟩ :=
    reached.event_of_past event.thread thread hthread past call _ hpast
  exact ⟨earlier, hmem, hindex, hsame.trans htask, rfl⟩

end Reachable

private theorem set_present {T : Type} {threads : List T} {index : Nat} {thread : T}
    (present : threads[index]? = some thread) : threads.set index thread = threads := by
  obtain ⟨hlength, hthread⟩ := List.getElem?_eq_some_iff.1 present
  rw [← hthread, List.set_getElem_self]

section
variable (system : System σ Op Reply ε α Task) (answer : (op : Op) → Reply op)
include answer

theorem exists_finish {pool : Pool σ Op Reply ε α Task} {index : Nat} {task : Task}
    {past : List (Call Op Reply)} {rest : Program Op Reply ε α}
    (present : pool.threads[index]? = some ⟨task, past, rest⟩) :
    ∃ final past' rest', Relation.ReflTransGen (Step system) pool final ∧
      final.threads = pool.threads.set index ⟨task, past', rest'⟩ ∧ rest'.waits = false := by
  induction rest generalizing pool past with
  | pure value => exact ⟨pool, past, _, .refl, (set_present present).symm, rfl⟩
  | throw error => exact ⟨pool, past, _, .refl, (set_present present).symm, rfl⟩
  | call op resume ih =>
    have advanced := Pool.getElem?_advance system present (answer op) index
    rw [if_pos rfl] at advanced
    obtain ⟨final, past', rest', steps, hthreads, ended⟩ := ih _ advanced
    refine ⟨final, past', rest', .head (.advance (answer op) present) steps, ?_, ended⟩
    rw [hthreads, Pool.advance, List.set_set]

theorem exists_finished (pool : Pool σ Op Reply ε α Task) :
    ∃ final, Relation.ReflTransGen (Step system) pool final ∧
      final.threads.map (·.task) = pool.threads.map (·.task) ∧
      ∀ thread ∈ final.threads, thread.rest.waits = false := by
  suffices upTo : ∀ count ≤ pool.threads.length, ∃ final,
      Relation.ReflTransGen (Step system) pool final ∧
      final.threads.map (·.task) = pool.threads.map (·.task) ∧
      ∀ index < count, ∀ thread, final.threads[index]? = some thread →
        thread.rest.waits = false by
    obtain ⟨final, steps, tasks, ended⟩ := upTo _ (Nat.le_refl _)
    refine ⟨final, steps, tasks, fun thread hthread => ?_⟩
    obtain ⟨index, hindex⟩ := List.getElem?_of_mem hthread
    refine ended index ?_ thread hindex
    have hlength := congrArg List.length tasks
    rw [List.length_map, List.length_map] at hlength
    exact hlength ▸ (List.getElem?_eq_some_iff.1 hindex).1
  intro count hcount
  induction count with
  | zero => exact ⟨pool, .refl, rfl, fun index h => absurd h (Nat.not_lt_zero _)⟩
  | succ count ih =>
    obtain ⟨middle, steps, tasks, ended⟩ := ih (Nat.le_of_succ_le hcount)
    have hlength := congrArg List.length tasks
    rw [List.length_map, List.length_map] at hlength
    have present := List.getElem?_eq_getElem (show count < middle.threads.length by omega)
    obtain ⟨final, past', rest', later, hthreads, done⟩ := exists_finish system answer present
    refine ⟨final, steps.trans later, ?_, fun index hindex thread hthread => ?_⟩
    · rw [hthreads, List.map_set, ← tasks]
      refine List.ext_getElem? fun i => ?_
      rw [List.getElem?_set]
      split
      next h => subst h; simp [show count < middle.threads.length by omega]
      next => rfl
    · rw [hthreads, List.getElem?_set] at hthread
      split at hthread
      next =>
        obtain ⟨-, rfl⟩ : _ ∧ _ = thread := by simpa using hthread
        exact done
      next h => exact ended index (by omega) thread hthread

end

/-! Runs of a concrete system, one move at a time. -/

inductive Move (σ Op : Type) (Reply : Op → Type) (Task : Type) where
  | start (task : Task)
  | shift (next : σ → σ)
  | advance (index : Nat) (answer : (op : Op) → Reply op)

namespace Pool

/-- A move that does not apply leaves the pool as it is. -/
def move (system : System σ Op Reply ε α Task) (pool : Pool σ Op Reply ε α Task) :
    Move σ Op Reply Task → Pool σ Op Reply ε α Task
  | .start task => pool.start system task
  | .shift next => pool.shift (next pool.shared)
  | .advance index answer =>
      match pool.threads[index]? with
      | some ⟨task, past, .call op resume⟩ =>
          pool.advance system index task past op resume (answer op)
      | _ => pool

def play (system : System σ Op Reply ε α Task) :
    Pool σ Op Reply ε α Task → List (Move σ Op Reply Task) → Pool σ Op Reply ε α Task
  | pool, [] => pool
  | pool, next :: moves => (pool.move system next).play system moves

def Allowed (system : System σ Op Reply ε α Task) :
    Pool σ Op Reply ε α Task → List (Move σ Op Reply Task) → Prop
  | _, [] => True
  | pool, next :: moves =>
      (match next with
        | .start task => system.mayStart pool.shared task
        | .shift next => system.mayShift pool.shared (next pool.shared)
        | .advance _ _ => True) ∧
      (pool.move system next).Allowed system moves

theorem allowed_advances {system : System σ Op Reply ε α Task}
    {pool : Pool σ Op Reply ε α Task} {moves : List (Move σ Op Reply Task)} {index : Nat}
    {answer : (op : Op) → Reply op} (count : Nat)
    (allowed : (pool.play system (.replicate count (.advance index answer))).Allowed system
      moves) :
    pool.Allowed system (.replicate count (.advance index answer) ++ moves) := by
  induction count generalizing pool with
  | zero => exact allowed
  | succ count ih => exact ⟨trivial, ih allowed⟩

def AllowedBy (system : System σ Op Reply ε α Task)
    (allowed : Pool σ Op Reply ε α Task → Pool σ Op Reply ε α Task → Prop) :
    Pool σ Op Reply ε α Task → List (Move σ Op Reply Task) → Prop
  | _, [] => True
  | pool, next :: moves =>
      allowed pool (pool.move system next) ∧ (pool.move system next).AllowedBy system allowed moves

instance decidableAllowedBy (system : System σ Op Reply ε α Task)
    (allowed : Pool σ Op Reply ε α Task → Pool σ Op Reply ε α Task → Prop) [DecidableRel allowed]
    (pool : Pool σ Op Reply ε α Task) :
    (moves : List (Move σ Op Reply Task)) → Decidable (pool.AllowedBy system allowed moves)
  | [] => isTrue trivial
  | next :: moves =>
      have := decidableAllowedBy system allowed (pool.move system next) moves
      inferInstanceAs (Decidable (_ ∧ _))

theorem move_step {system : System σ Op Reply ε α Task} {pool : Pool σ Op Reply ε α Task}
    (next : Move σ Op Reply Task) (allowed : pool.Allowed system [next]) :
    Step system pool (pool.move system next) ∨ pool.move system next = pool := by
  cases next with
  | start task => exact .inl (.start task allowed.1)
  | shift next => exact .inl (.shift _ allowed.1)
  | advance index answer =>
    simp only [move]
    split
    next task past op resume waiting => exact .inl (.advance _ waiting)
    next => exact .inr rfl

private theorem play_steps {system : System σ Op Reply ε α Task}
    {pool : Pool σ Op Reply ε α Task} {moves : List (Move σ Op Reply Task)}
    (allowed : pool.Allowed system moves) :
    Relation.ReflTransGen (Step system) pool (pool.play system moves) := by
  induction moves generalizing pool with
  | nil => exact .refl
  | cons next moves ih =>
    refine Relation.ReflTransGen.trans ?_ (ih allowed.2)
    rcases move_step next ⟨allowed.1, trivial⟩ with step | stays
    · exact .single step
    · rw [stays]

theorem play_reachable {system : System σ Op Reply ε α Task} {initial : σ}
    {moves : List (Move σ Op Reply Task)}
    (allowed : (Pool.fresh initial).Allowed system moves) :
    Reachable system initial ((Pool.fresh initial).play system moves) :=
  play_steps allowed

theorem play_answered {system : System σ Op Reply ε α Task} {answers : Call Op Reply → Prop}
    {pool : Pool σ Op Reply ε α Task} {moves : List (Move σ Op Reply Task)}
    (before : ∀ event ∈ pool.log, answers event.call)
    (each : ∀ index answer, .advance index answer ∈ moves → ∀ shared op,
      answers ⟨op, (system.perform shared op (answer op)).1⟩) :
    ∀ event ∈ (pool.play system moves).log, answers event.call := by
  induction moves generalizing pool with
  | nil => exact before
  | cons next moves ih =>
    refine ih ?_ fun index answer among => each index answer (List.mem_cons_of_mem _ among)
    cases next with
    | start task => exact before
    | shift next => exact before
    | advance index answer =>
      simp only [move]
      split
      · rw [advance]
        exact List.forall_mem_append.2 ⟨before, List.forall_mem_singleton.2
          (each index answer List.mem_cons_self _ _)⟩
      · exact before

private theorem play_stepsBy {system : System σ Op Reply ε α Task}
    {allowed : Pool σ Op Reply ε α Task → Pool σ Op Reply ε α Task → Prop}
    {pool : Pool σ Op Reply ε α Task} {moves : List (Move σ Op Reply Task)}
    (may : pool.Allowed system moves) (allowedBy : pool.AllowedBy system allowed moves) :
    Relation.ReflTransGen (fun before after => Step system before after ∧ allowed before after)
      pool (pool.play system moves) := by
  induction moves generalizing pool with
  | nil => exact .refl
  | cons next moves ih =>
    refine Relation.ReflTransGen.trans ?_ (ih may.2 allowedBy.2)
    rcases move_step next ⟨may.1, trivial⟩ with step | stays
    · exact .single ⟨step, allowedBy.1⟩
    · rw [stays]

theorem play_reachableBy {system : System σ Op Reply ε α Task}
    {allowed : Pool σ Op Reply ε α Task → Pool σ Op Reply ε α Task → Prop} {initial : σ}
    {moves : List (Move σ Op Reply Task)} (may : (Pool.fresh initial).Allowed system moves)
    (allowedBy : (Pool.fresh initial).AllowedBy system allowed moves) :
    ReachableBy system allowed initial ((Pool.fresh initial).play system moves) :=
  play_stepsBy may allowedBy

end Pool
end Effects
