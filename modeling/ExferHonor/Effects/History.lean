import ExferHonor.Effects.Pool
import Mathlib.Data.List.Induction
import Mathlib.Data.List.Infix

/-! What a stretch of a run makes of a part of the shared state that changes in calls only. -/
namespace Effects

variable {σ Op : Type} {Reply : Op → Type} {ε α Task β : Type}

/-- The event's reply and the state after it are what the system makes of a call. -/
def Event.PerformedBy (system : System σ Op Reply ε α Task) (event : Event σ Op Reply Task) :
    Prop :=
  ∃ index task past before op answer, event = ⟨index, task, past, before,
    ⟨op, (system.perform before op answer).1⟩, (system.perform before op answer).2⟩

theorem Reachable.performedBy {system : System σ Op Reply ε α Task} {initial : σ}
    {pool : Pool σ Op Reply ε α Task} (reached : Reachable system initial pool) :
    ∀ event ∈ pool.log, event.PerformedBy system := by
  rintro ⟨index, task, past, before, ⟨op, reply⟩, after⟩ logged
  obtain ⟨answer, hreply, hafter⟩ := reached.performed _ logged
  dsimp only at hreply hafter
  exact ⟨index, task, past, before, op, answer, by rw [hreply, hafter]⟩

theorem Step.tasks_grow {system : System σ Op Reply ε α Task}
    {before after : Pool σ Op Reply ε α Task} (step : Step system before after) :
    before.threads.map (·.task) <+: after.threads.map (·.task) := by
  cases step with
  | start task may => simp [Pool.start]
  | shift next may => exact List.prefix_refl _
  | @advance index task past op resume answer waiting =>
    obtain ⟨hindex, hthread⟩ := List.getElem?_eq_some_iff.1 waiting
    have same : before.threads.map (·.task) =
        (before.advance system index task past op resume answer).threads.map (·.task) := by
      rw [Pool.advance, List.map_set]
      refine (List.set_getElem_self (by simpa using hindex) ▸ ?_)
      simp [hthread]
    exact same ▸ List.prefix_refl _

theorem Step.log_grows {system : System σ Op Reply ε α Task}
    {before after : Pool σ Op Reply ε α Task} (step : Step system before after) :
    before.log <+: after.log := by
  cases step with
  | start task may => exact List.prefix_refl _
  | shift next may => exact List.prefix_refl _
  | advance answer waiting => exact List.prefix_append _ _

theorem filterMap_cons_toList {T : Type} (look : T → Option β) (entry : T) (list : List T) :
    (entry :: list).filterMap look = (look entry).toList ++ list.filterMap look := by
  rw [List.filterMap_cons]
  cases look entry <;> rfl

private theorem perm_set {T : Type} {list : List T} {index : Nat} {entry : T}
    (present : list[index]? = some entry) (next : T) :
    (entry :: list.set index next).Perm (next :: list) := by
  obtain ⟨hindex, rfl⟩ := List.getElem?_eq_some_iff.1 present
  rw [List.set_eq_take_append_cons_drop, if_pos hindex]
  refine ((List.perm_middle).cons _).trans ((List.Perm.swap _ _ _).trans (.cons _ ?_))
  refine List.perm_middle.symm.trans (.of_eq ?_)
  rw [← List.drop_eq_getElem_cons hindex, List.take_append_drop]

theorem Pool.perm_advance {system : System σ Op Reply ε α Task} {pool : Pool σ Op Reply ε α Task}
    {index : Nat} {task : Task} {past : List (Call Op Reply)} {op : Op}
    {resume : Reply op → Program Op Reply ε α}
    (waiting : pool.threads[index]? = some ⟨task, past, .call op resume⟩) (answer : Reply op)
    (look : Thread Op Reply ε α Task → Option β) :
    ((look ⟨task, past, .call op resume⟩).toList ++
      (pool.advance system index task past op resume answer).threads.filterMap look).Perm
    ((look ⟨task, past ++ [⟨op, (system.perform pool.shared op answer).1⟩],
      resume (system.perform pool.shared op answer).1⟩).toList ++
      pool.threads.filterMap look) := by
  rw [← filterMap_cons_toList, ← filterMap_cons_toList]
  exact (perm_set waiting _).filterMap look

theorem Reachable.moment {system : System σ Op Reply ε α Task} {initial : σ}
    {pool : Pool σ Op Reply ε α Task} (reached : Reachable system initial pool) :
    ∀ event ∈ pool.log, ∃ earlier, Reachable system initial earlier ∧
      earlier.shared = event.before ∧
      (∃ resume, earlier.threads[event.thread]? =
        some ⟨event.task, event.past, .call event.call.op resume⟩) ∧
      earlier.log <+: pool.log ∧
      earlier.threads.map (·.task) <+: pool.threads.map (·.task) := by
  refine reached.invariant (fun pool => ∀ event ∈ pool.log, ∃ earlier,
    Reachable system initial earlier ∧ earlier.shared = event.before ∧
      (∃ resume, earlier.threads[event.thread]? =
        some ⟨event.task, event.past, .call event.call.op resume⟩) ∧
      earlier.log <+: pool.log ∧ earlier.threads.map (·.task) <+: pool.threads.map (·.task))
    (by simp [Pool.fresh]) fun before after run ih step event hevent => ?_
  by_cases old : event ∈ before.log
  · obtain ⟨earlier, reachable, shared, waiting, log, tasks⟩ := ih event old
    exact ⟨earlier, reachable, shared, waiting, log.trans step.log_grows,
      tasks.trans step.tasks_grow⟩
  · have grows := step.log_grows
    have kept := step.tasks_grow
    cases step with
    | start task may => exact absurd hevent old
    | shift next may => exact absurd hevent old
    | advance answer waiting =>
      obtain rfl := List.mem_singleton.1 ((List.mem_append.1 hevent).resolve_left old)
      exact ⟨before, run, rfl, ⟨_, waiting⟩, grows, kept⟩

theorem Reachable.logged_in_order {system : System σ Op Reply ε α Task} {initial : σ}
    {pool : Pool σ Op Reply ε α Task} (reached : Reachable system initial pool) :
    pool.log.Pairwise fun first second =>
      first.thread = second.thread → first.past.length < second.past.length := by
  refine reached.invariant (fun pool => pool.log.Pairwise fun first second =>
    first.thread = second.thread → first.past.length < second.past.length) .nil
    fun before after run ih step => ?_
  cases step with
  | start task may => exact ih
  | shift next may => exact ih
  | @advance index task past op resume answer waiting =>
    refine List.pairwise_append.2 ⟨ih, List.pairwise_singleton _ _,
      fun first hfirst second last => ?_⟩
    rw [List.mem_singleton.1 last]
    intro same
    obtain ⟨thread, present, -, later, hpast⟩ := run.thread_of_event first hfirst
    rw [show first.thread = index from same, waiting] at present
    cases present
    rw [show past = _ from hpast]
    simp

def lastLook (look : σ → β) (initial : σ) (events : List (Event σ Op Reply Task)) : β :=
  (events.getLast?.map fun event => look event.after).getD (look initial)

@[simp] theorem lastLook_nil (look : σ → β) (initial : σ) :
    lastLook look initial ([] : List (Event σ Op Reply Task)) = look initial := rfl

@[simp] theorem lastLook_concat (look : σ → β) (initial : σ)
    (events : List (Event σ Op Reply Task)) (event : Event σ Op Reply Task) :
    lastLook look initial (events ++ [event]) = look event.after := by
  simp [lastLook]

theorem lastLook_append_cons (look : σ → β) (initial : σ)
    (earlier later : List (Event σ Op Reply Task)) (event : Event σ Op Reply Task) :
    lastLook look initial (earlier ++ event :: later) = lastLook look event.after later := by
  rcases List.eq_nil_or_concat later with rfl | ⟨rest, last, rfl⟩
  · exact lastLook_concat _ _ _ _
  · rw [List.concat_eq_append, ← List.cons_append, ← List.append_assoc, lastLook_concat,
      lastLook_concat]

namespace Reachable
variable {system : System σ Op Reply ε α Task} {initial : σ} {pool : Pool σ Op Reply ε α Task}
  {look : σ → β}

theorem lastLook_log (reached : Reachable system initial pool)
    (still : ∀ before after, system.mayShift before after → look after = look before) :
    lastLook look initial pool.log = look pool.shared := by
  refine reached.invariant (fun pool => lastLook look initial pool.log = look pool.shared) rfl
    fun before after _ ih step => ?_
  cases step with
  | start task may => exact ih
  | shift next may => exact ih.trans (still _ _ may).symm
  | advance answer waiting => exact lastLook_concat _ _ _ _

theorem lastLook_before (reached : Reachable system initial pool)
    (still : ∀ before after, system.mayShift before after → look after = look before) :
    ∀ earlier event later, pool.log = earlier ++ event :: later →
      lastLook look initial earlier = look event.before := by
  refine reached.invariant (fun pool => ∀ earlier event later,
    pool.log = earlier ++ event :: later → lastLook look initial earlier = look event.before)
    (by simp [Pool.fresh]) fun before after run ih step => ?_
  cases step with
  | start task may => exact ih
  | shift next may => exact ih
  | advance answer waiting =>
    intro earlier event later hlog
    rcases List.eq_nil_or_concat later with rfl | ⟨rest, last, rfl⟩
    · obtain ⟨rfl, hevent⟩ := List.append_inj' hlog rfl
      rw [← List.head_eq_of_cons_eq hevent]
      exact run.lastLook_log still
    · rw [List.concat_eq_append, ← List.cons_append, ← List.append_assoc] at hlog
      exact ih earlier event rest (List.append_inj' hlog rfl).1

/-- The rule for stretches of a run: what holds of no calls and survives one call holds between any
two moments. -/
theorem history (reached : Reachable system initial pool)
    (still : ∀ before after, system.mayShift before after → look after = look before)
    (spans : β → List (Event σ Op Reply Task) → β → Prop) (none : ∀ start, spans start [] start)
    (one : ∀ start events event, event.PerformedBy system →
      spans start events (look event.before) → spans start (events ++ [event]) (look event.after)) :
    ∀ earlier during later, pool.log = earlier ++ during ++ later →
      spans (lastLook look initial earlier) during (lastLook look initial (earlier ++ during)) := by
  intro earlier during
  induction during using List.reverseRecOn with
  | nil =>
    intro later _
    rw [List.append_nil]
    exact none _
  | append_singleton during event ih =>
    intro later hlog
    have split : pool.log = (earlier ++ during) ++ event :: later := by simp [hlog]
    have before := ih (event :: later) split
    rw [reached.lastLook_before still _ _ _ split] at before
    rw [← List.append_assoc, lastLook_concat]
    refine one _ _ event (reached.performedBy event ?_) before
    simp [split]

theorem lasts (reached : Reachable system initial pool)
    (still : ∀ before after, system.mayShift before after → look after = look before)
    (holds : β → Prop) {earlier during later : List (Event σ Op Reply Task)}
    (split : pool.log = earlier ++ during ++ later) (began : holds (lastLook look initial earlier))
    (kept : ∀ event ∈ during, holds (look event.before) → holds (look event.after)) :
    holds (lastLook look initial (earlier ++ during)) := by
  induction during using List.reverseRecOn generalizing later with
  | nil =>
    rw [List.append_nil]
    exact began
  | append_singleton during event ih =>
    obtain ⟨before, last⟩ := List.forall_mem_append.1 kept
    have split' : pool.log = (earlier ++ during) ++ event :: later := by simp [split]
    have holding := ih split' before
    rw [reached.lastLook_before still _ _ _ split'] at holding
    rw [← List.append_assoc, lastLook_concat]
    exact last event (List.mem_singleton_self _) holding

/-- What one call has brought about another one still finds, unless a call between them has
undone it. -/
theorem between (reached : Reachable system initial pool) (look : σ → β)
    (still : ∀ before after, system.mayShift before after → look after = look before)
    (holds : β → Prop) {earlier during later : List (Event σ Op Reply Task)}
    {first second : Event σ Op Reply Task}
    (split : pool.log = earlier ++ first :: (during ++ second :: later))
    (began : holds (look first.after))
    (kept : ∀ event ∈ during, holds (look event.before) → holds (look event.after)) :
    holds (look second.before) := by
  have split' : pool.log = (earlier ++ [first]) ++ during ++ second :: later := by simp [split]
  rw [← reached.lastLook_before still _ _ _ split']
  refine reached.lasts still holds split' ?_ kept
  rw [lastLook_concat]
  exact began

end Reachable
end Effects
