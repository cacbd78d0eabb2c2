import ExferHonor.Effects.Carried
import ExferHonor.Effects.Pool
import Mathlib.Data.List.Forall2

/-! A system whose threads carry out every call of another system by a program of their own. The
call takes effect with the last step of that program, and nothing shows before. -/
namespace Effects

variable {σ σ' Op Op' : Type} {Reply : Op → Type} {Reply' : Op' → Type} {ε α β Task : Type}

namespace Program

theorem waits_bind {program : Program Op Reply ε α} (next : α → Program Op Reply ε β)
    (waits : program.waits = true) : (program.bind next).waits = true := by
  cases program <;> first | rfl | cases waits

theorem waits_attempt {program : Program Op Reply ε α} (waits : program.waits = true) :
    program.attempt.waits = true := by
  cases program <;> first | rfl | cases waits

theorem waits_interpret {handler : (op : Op) → Program Op' Reply' ε (Reply op)}
    {program : Program Op Reply ε α} (waits : program.waits = true)
    (handled : ∀ op, (handler op).waits = true) : (program.interpret handler).waits = true := by
  cases program with
  | pure value => cases waits
  | throw error => cases waits
  | call op resume => exact waits_bind _ (handled op)

end Program

/-- `step` looks at one step of a program that carries out `op`: it is about to make the call
`called`, and `performed` is what comes of it. -/
structure Refinement (upper : System σ Op Reply ε α Task)
    (lower : System σ' Op' Reply' ε α Task) where
  handler : (op : Op) → Program Op' Reply' ε (Reply op)
  view : σ' → σ
  program : ∀ task, lower.program task = (upper.program task).interpret handler
  starts : ∀ {shared task}, lower.mayStart shared task → upper.mayStart (view shared) task
  shifts : ∀ {before after}, lower.mayShift before after →
    upper.mayShift (view before) (view after)
  waits : ∀ op, (handler op).waits = true
  step : ∀ {op own called resume}, (handler op).Runs own (.call called resume) →
    ∀ shared answer, let performed := lower.perform shared called answer
      ((resume performed.1).waits = true ∧ view performed.2 = view shared) ∨
      ∃ reply answer', resume performed.1 = .pure reply ∧
        upper.perform (view shared) op answer' = (reply, view performed.2)

namespace Refinement
variable {upper : System σ Op Reply ε α Task} {lower : System σ' Op' Reply' ε α Task}
  (refinement : Refinement upper lower)

/-- A thread inside the call that the other thread is about to make, or both at their end. -/
inductive Shows (thread : Thread Op' Reply' ε α Task) (seen : Thread Op Reply ε α Task) : Prop
  | inside {before own op resume inner} (task : seen.task = thread.task)
      (past : thread.past = before ++ own) (carried : Carried refinement.handler seen.past before)
      (asks : seen.rest = .call op resume) (run : (refinement.handler op).Runs own inner)
      (waits : inner.waits = true)
      (rest : thread.rest = inner.bind fun reply => (resume reply).interpret refinement.handler)
  | ended {result} (task : seen.task = thread.task)
      (carried : Carried refinement.handler seen.past thread.past)
      (rest : thread.rest = .ofExcept result) (ends : seen.rest = .ofExcept result)

structure ShowsEvent (event : Event σ' Op' Reply' Task) (seen : Event σ Op Reply Task) : Prop where
  thread : seen.thread = event.thread
  task : seen.task = event.task
  before : seen.before = refinement.view event.before
  after : seen.after = refinement.view event.after
  carried : ∃ past own, event.past = past ++ own ∧ Carried refinement.handler seen.past past ∧
    (refinement.handler seen.call.op).Returns (own ++ [event.call]) (.ok seen.call.reply)

structure Inside (event : Event σ' Op' Reply' Task) : Prop where
  still : refinement.view event.after = refinement.view event.before
  waits : ∃ op own resume, (refinement.handler op).Runs own (.call event.call.op resume) ∧
    (resume event.call.reply).waits = true

inductive ShowsLog : List (Event σ' Op' Reply' Task) → List (Event σ Op Reply Task) → Prop
  | nil : ShowsLog [] []
  | inside {log seen event} (before : ShowsLog log seen) (inside : refinement.Inside event) :
      ShowsLog (log ++ [event]) seen
  | answered {log seen event next} (before : ShowsLog log seen)
      (shows : refinement.ShowsEvent event next) : ShowsLog (log ++ [event]) (seen ++ [next])

structure Shown (pool : Pool σ' Op' Reply' ε α Task) (seen : Pool σ Op Reply ε α Task) : Prop where
  shared : seen.shared = refinement.view pool.shared
  threads : List.Forall₂ refinement.Shows pool.threads seen.threads
  log : refinement.ShowsLog pool.log seen.log

end Refinement

private theorem forall₂_at {S T : Type} {related : S → T → Prop} {list : List S} {list' : List T}
    (matched : List.Forall₂ related list list') {index : Nat} {entry : S}
    (present : list[index]? = some entry) :
    ∃ mine, list'[index]? = some mine ∧ related entry mine ∧
      (∀ next, related next mine → List.Forall₂ related (list.set index next) list') ∧
      ∀ next next', related next next' →
        List.Forall₂ related (list.set index next) (list'.set index next') := by
  induction matched generalizing index with
  | nil => cases present
  | cons own later ih =>
    cases index with
    | zero =>
      cases present
      exact ⟨_, rfl, own, fun next still => .cons still later, fun next next' both =>
        .cons both later⟩
    | succ index =>
      obtain ⟨mine, found, same, one, both⟩ := ih present
      exact ⟨mine, found, same, fun next still => .cons own (one next still),
        fun next next' moved => .cons own (both next next' moved)⟩

namespace Refinement
variable {upper : System σ Op Reply ε α Task} {lower : System σ' Op' Reply' ε α Task}
  {refinement : Refinement upper lower}

theorem shows_between {task : Task} {past : List (Call Op' Reply')} {calls : List (Call Op Reply)}
    (carried : Carried refinement.handler calls past) (rest : Program Op Reply ε α) :
    refinement.Shows ⟨task, past, rest.interpret refinement.handler⟩ ⟨task, calls, rest⟩ := by
  cases rest with
  | pure value => exact .ended rfl carried (Program.ofExcept_ok value).symm rfl
  | throw error => exact .ended rfl carried (Program.ofExcept_error error).symm rfl
  | call op resume =>
    exact .inside rfl (List.append_nil past).symm carried rfl .nil (refinement.waits op) rfl

variable {pool : Pool σ' Op' Reply' ε α Task} {seen : Pool σ Op Reply ε α Task} {index : Nat}
  {task : Task} {past : List (Call Op' Reply')} {called : Op'}
  {resume : Reply' called → Program Op' Reply' ε α}

/-- A step inside a call leaves the upper pool as it is, and the last one makes the call. -/
theorem Shown.advance (shown : refinement.Shown pool seen)
    (waiting : pool.threads[index]? = some ⟨task, past, .call called resume⟩)
    (answer : Reply' called) :
    ∃ next, (next = seen ∨ Step upper seen next) ∧
      refinement.Shown (pool.advance lower index task past called resume answer) next := by
  obtain ⟨⟨mtask, calls, mrest⟩, present, shows, one, both⟩ := forall₂_at shown.threads waiting
  cases shows with
  | ended _ _ rest _ => exact absurd rest (Program.call_ne_ofExcept _ _ _)
  | @inside before own op outer inner same split carried asks run waits rest =>
    dsimp only at same split carried asks rest
    subst same asks split
    cases inner with
    | pure value => cases waits
    | throw error => cases waits
    | call called' inner =>
      cases rest
      rcases refinement.step run pool.shared answer with
        ⟨waits', still⟩ | ⟨reply, answer', ended, performed⟩
      · refine ⟨seen, .inl rfl, shown.shared.trans still.symm, ?_,
          .inside shown.log ⟨still, op, own, inner, run, waits'⟩⟩
        refine one _ (.inside rfl (List.append_assoc _ _ _) carried rfl (run.snoc _) waits' rfl)
      · have returns : (refinement.handler op).Returns
            (own ++ [⟨called, (lower.perform pool.shared called answer).1⟩]) (.ok reply) := by
          unfold Program.Returns
          rw [Program.ofExcept_ok, ← ended]
          exact run.snoc _
        refine ⟨_, .inr (.advance answer' present), ?_, ?_, ?_⟩
        · rw [Pool.advance, shown.shared, performed]
          rfl
        · rw [Pool.advance, Pool.advance, shown.shared, performed, ended, List.append_assoc]
          exact both _ _ (shows_between (carried.snoc returns) _)
        · rw [Pool.advance, Pool.advance, shown.shared, performed]
          exact .answered shown.log ⟨rfl, rfl, rfl, rfl, before, own, rfl, carried, returns⟩

/-- What shows of a run of the lower system is a run of the upper one. -/
theorem exists_shown (refinement : Refinement upper lower) {initial : σ'}
    (reached : Reachable lower initial pool) :
    ∃ seen, Reachable upper (refinement.view initial) seen ∧ refinement.Shown pool seen := by
  refine reached.invariant (fun pool => ∃ seen, Reachable upper (refinement.view initial) seen ∧
    refinement.Shown pool seen) ⟨.fresh _, .refl, rfl, .nil, .nil⟩ ?_
  rintro before after - ⟨seen, reachable, shown⟩ step
  cases step with
  | start task may =>
    refine ⟨_, reachable.tail (.start task (shown.shared ▸ refinement.starts may)), shown.shared,
      ?_, shown.log⟩
    refine List.rel_append shown.threads (.cons ?_ .nil)
    rw [refinement.program]
    exact shows_between .nil _
  | shift next may =>
    exact ⟨_, reachable.tail (.shift _ (shown.shared ▸ refinement.shifts may)), rfl, shown.threads,
      shown.log⟩
  | advance answer waiting =>
    obtain ⟨next, rfl | step, shows⟩ := shown.advance waiting answer
    · exact ⟨_, reachable, shows⟩
    · exact ⟨next, reachable.tail step, shows⟩

theorem Shows.same_task {thread : Thread Op' Reply' ε α Task} {seen : Thread Op Reply ε α Task}
    (shows : refinement.Shows thread seen) : seen.task = thread.task := by
  cases shows with
  | inside task => exact task
  | ended task => exact task

theorem Shows.ends_iff {thread : Thread Op' Reply' ε α Task} {seen : Thread Op Reply ε α Task}
    (shows : refinement.Shows thread seen) (result : Except ε α) :
    thread.rest = .ofExcept result ↔ seen.rest = .ofExcept result := by
  cases shows with
  | @inside before own op resume inner task past carried asks run waits rest =>
    rw [rest, asks]
    cases inner with
    | pure value => cases waits
    | throw error => cases waits
    | call called inner =>
      exact iff_of_false (Program.call_ne_ofExcept _ _ _) (Program.call_ne_ofExcept _ _ _)
  | @ended last task carried rest ends =>
    rw [rest, ends]
    cases last <;> cases result <;> simp

theorem ShowsLog.of_mem {log : List (Event σ' Op' Reply' Task)}
    {seen : List (Event σ Op Reply Task)} (shows : refinement.ShowsLog log seen)
    {event : Event σ' Op' Reply' Task} (logged : event ∈ log) :
    refinement.Inside event ∨ ∃ next ∈ seen, refinement.ShowsEvent event next := by
  induction shows with
  | nil => cases logged
  | inside _ inside ih =>
    rcases List.mem_append.1 logged with earlier | this
    · exact ih earlier
    · exact .inl (List.mem_singleton.1 this ▸ inside)
  | @answered _ _ _ next _ shows ih =>
    rcases List.mem_append.1 logged with earlier | this
    · rcases ih earlier with inside | ⟨other, present, shown⟩
      · exact .inl inside
      · exact .inr ⟨other, List.mem_append_left _ present, shown⟩
    · exact .inr ⟨next, List.mem_append_right _ (List.mem_singleton_self _),
        List.mem_singleton.1 this ▸ shows⟩

theorem ShowsLog.filterMap_eq {log : List (Event σ' Op' Reply' Task)}
    {seen : List (Event σ Op Reply Task)} (shows : refinement.ShowsLog log seen)
    (tell : Event σ' Op' Reply' Task → Option β) (tell' : Event σ Op Reply Task → Option β)
    (silent : ∀ event, refinement.Inside event → tell event = none)
    (alike : ∀ event next, refinement.ShowsEvent event next → tell event = tell' next) :
    log.filterMap tell = seen.filterMap tell' := by
  induction shows with
  | nil => rfl
  | inside _ inside ih =>
    rw [List.filterMap_append, ih, List.filterMap_cons_none (silent _ inside), List.filterMap_nil,
      List.append_nil]
  | answered _ shows ih =>
    rw [List.filterMap_append, List.filterMap_append, ih, List.filterMap_cons, List.filterMap_cons,
      alike _ _ shows]
    rfl

end Refinement
end Effects
