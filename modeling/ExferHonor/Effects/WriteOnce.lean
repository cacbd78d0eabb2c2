import ExferHonor.Effects.History

/-! A cell of the shared state that keeps the first value written to it. What it holds, and what a
read of it finds, is told by the log. -/
namespace Effects

variable {σ Op : Type} {Reply : Op → Type} {ε α Task V : Type}

/-- The programs that may start only make calls in `may`, and in those the cell takes a value only
while it is empty. -/
structure WriteOnce (system : System σ Op Reply ε α Task) (may : Op → Prop) (cell : σ → Option V)
    (writes : Call Op Reply → Option V) (reads : Call Op Reply → Option (Option V)) : Prop where
  uses : ∀ shared task, system.mayStart shared task → Uses may (system.program task)
  performed : ∀ state op answer, may op →
    cell (system.perform state op answer).2 =
      (cell state).or (writes ⟨op, (system.perform state op answer).1⟩)
  found : ∀ state op answer value, reads ⟨op, (system.perform state op answer).1⟩ = some value →
    value = cell state
  shifted : ∀ before after, system.mayShift before after → cell after = cell before

def firstWritten (writes : Call Op Reply → Option V) (events : List (Event σ Op Reply Task)) :
    Option V :=
  events.findSome? fun event => writes event.call

@[simp] theorem firstWritten_concat (writes : Call Op Reply → Option V)
    (events : List (Event σ Op Reply Task)) (event : Event σ Op Reply Task) :
    firstWritten writes (events ++ [event]) =
      (firstWritten writes events).or (writes event.call) := by
  simp [firstWritten, List.findSome?_append]

theorem firstWritten_append {writes : Call Op Reply → Option V}
    {earlier : List (Event σ Op Reply Task)} {value : V}
    (first : firstWritten writes earlier = some value) (later : List (Event σ Op Reply Task)) :
    firstWritten writes (earlier ++ later) = some value := by
  rw [firstWritten, List.findSome?_append, ← firstWritten, first, Option.some_or]

theorem firstWritten_eq_some {writes : Call Op Reply → Option V}
    {events : List (Event σ Op Reply Task)} {value : V}
    (first : firstWritten writes events = some value) :
    ∃ event ∈ events, writes event.call = some value :=
  List.exists_of_findSome?_eq_some first

theorem firstWritten_isSome {writes : Call Op Reply → Option V}
    {events : List (Event σ Op Reply Task)} {event : Event σ Op Reply Task} {value : V}
    (logged : event ∈ events) (written : writes event.call = some value) :
    (firstWritten writes events).isSome = true :=
  List.findSome?_isSome_iff.2 ⟨event, logged, by rw [written]; rfl⟩

namespace WriteOnce
variable {system : System σ Op Reply ε α Task} {may : Op → Prop} {cell : σ → Option V}
  {writes : Call Op Reply → Option V} {reads : Call Op Reply → Option (Option V)} {initial : σ}
  {pool : Pool σ Op Reply ε α Task}

theorem cell_eq (once : WriteOnce system may cell writes reads)
    (reached : Reachable system initial pool) (empty : cell initial = none) :
    cell pool.shared = firstWritten writes pool.log := by
  refine reached.invariant (fun pool => cell pool.shared = firstWritten writes pool.log) empty
    fun before after run ih step => ?_
  cases step with
  | start task started => exact ih
  | shift next moved => exact (once.shifted _ _ moved).trans ih
  | @advance index task past op resume answer waiting =>
    have hthread := List.mem_of_getElem? waiting
    obtain ⟨shared, started⟩ := run.task_may_start _ hthread
    have allowed : may op := (once.uses shared _ started).of_call (run.runs _ hthread)
    rw [Pool.advance, firstWritten_concat, ← ih]
    exact once.performed _ _ _ allowed

theorem found_eq (once : WriteOnce system may cell writes reads)
    (reached : Reachable system initial pool) (empty : cell initial = none) :
    Along (fun earlier event => ∀ value, reads event.call = some value →
      value = firstWritten writes earlier) pool.log := by
  refine reached.invariant (fun pool => Along (fun earlier event => ∀ value,
    reads event.call = some value → value = firstWritten writes earlier) pool.log)
    (fun _ _ _ hlog => absurd hlog (by simp [Pool.fresh])) fun before after run ih step => ?_
  cases step with
  | start task started => exact ih
  | shift next moved => exact ih
  | advance answer waiting =>
    refine along_concat_iff.2 ⟨ih, fun value read => ?_⟩
    rw [← once.cell_eq run empty]
    exact once.found _ _ _ _ read

end WriteOnce

/-- Where an entry of a kind is never behind another one of it, there is one at most. -/
theorem countP_le_one_of_along {E : Type} {kind : E → Bool} {log : List E}
    (alone : Along (fun earlier entry => kind entry = true →
      ∀ other ∈ earlier, kind other = false) log) : log.countP kind ≤ 1 := by
  induction log using List.reverseRecOn with
  | nil => simp
  | append_singleton log entry ih =>
    obtain ⟨before, last⟩ := along_concat_iff.1 alone
    rw [List.countP_append, List.countP_singleton]
    cases hkind : kind entry with
    | false => simpa using ih before
    | true =>
      have none : log.countP kind = 0 :=
        List.countP_eq_zero.2 fun other mem => by simp [last hkind other mem]
      simp [none]

theorem eq_of_countP_eq_one {E : Type} {kind : E → Bool} {entries : List E}
    (one : entries.countP kind = 1) {entry other : E} (mem : entry ∈ entries)
    (holds : kind entry = true) (mem' : other ∈ entries) (holds' : kind other = true) :
    entry = other := by
  rw [List.countP_eq_length_filter] at one
  obtain ⟨only, honly⟩ := List.length_eq_one_iff.1 one
  have first := List.mem_filter.2 ⟨mem, holds⟩
  have second := List.mem_filter.2 ⟨mem', holds'⟩
  rw [honly, List.mem_singleton] at first second
  exact first.trans second.symm

private theorem countP_set_same {T : Type} {holds : T → Bool} {threads : List T} {index : Nat}
    {thread next : T} (present : threads[index]? = some thread)
    (same : holds next = holds thread) :
    (threads.set index next).countP holds = threads.countP holds := by
  obtain ⟨hlength, hthread⟩ := List.getElem?_eq_some_iff.1 present
  rw [List.countP_set hlength, hthread, same]
  cases hholds : holds thread with
  | false => simp
  | true =>
    have counted : 0 < threads.countP holds :=
      List.countP_pos_iff.2 ⟨thread, List.mem_of_getElem? present, hholds⟩
    simp only [if_true]
    omega

theorem Reachable.countP_past {system : System σ Op Reply ε α Task} {initial : σ}
    {pool : Pool σ Op Reply ε α Task} (reached : Reachable system initial pool)
    (kind : Call Op Reply → Bool)
    (single : ∀ shared task, system.mayStart shared task → ∀ past op resume reply,
      (system.program task).Runs past (.call op resume) → kind ⟨op, reply⟩ = true →
      past.any kind = false) :
    pool.threads.countP (fun thread => thread.past.any kind) =
      pool.log.countP fun event => kind event.call := by
  refine reached.invariant (fun pool => pool.threads.countP (fun thread => thread.past.any kind) =
      pool.log.countP fun event => kind event.call) rfl fun before after run ih step => ?_
  cases step with
  | start task started => simpa [Pool.start] using ih
  | shift next moved => exact ih
  | @advance index task past op resume answer waiting =>
    have hthread := List.mem_of_getElem? waiting
    obtain ⟨shared, started⟩ := run.task_may_start _ hthread
    have alone := single shared task started past op resume
      (system.perform before.shared op answer).1 (run.runs _ hthread)
    cases hkind : kind ⟨op, (system.perform before.shared op answer).1⟩ with
    | true =>
      rw [Pool.countP_advance system (fun thread => thread.past.any kind) waiting (alone hkind)
        answer, ih]
      simp [Pool.advance, hkind]
    | false =>
      have same : List.any (past ++ [⟨op, (system.perform before.shared op answer).1⟩]) kind =
          past.any kind := by simp [hkind]
      simp only [Pool.advance, List.countP_append, List.countP_singleton, hkind,
        Bool.false_eq_true, if_false, Nat.add_zero]
      rw [countP_set_same waiting same]
      exact ih

end Effects
