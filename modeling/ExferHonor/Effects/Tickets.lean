import ExferHonor.Effects.Pool

/-! Calls that hand out a new number each time: no two threads hold the same one. -/
namespace Effects

variable {σ Op : Type} {Reply : Op → Type} {ε α Task : Type}

/-- A call with a `ticket` has been given the `next` number, which nobody gets again. -/
structure Issues (system : System σ Op Reply ε α Task) (ticket : Call Op Reply → Option Nat)
    (next : σ → Nat) : Prop where
  grows : ∀ shared op answer, next shared ≤ next (system.perform shared op answer).2
  fresh : ∀ shared op answer number,
    ticket ⟨op, (system.perform shared op answer).1⟩ = some number →
    number = next shared ∧ number < next (system.perform shared op answer).2
  shifted : ∀ before after, system.mayShift before after → next before ≤ next after

def Thread.Holds (ticket : Call Op Reply → Option Nat) (thread : Thread Op Reply ε α Task)
    (number : Nat) : Prop :=
  ∃ call ∈ thread.past, ticket call = some number

structure Issued (ticket : Call Op Reply → Option Nat) (next : σ → Nat)
    (pool : Pool σ Op Reply ε α Task) : Prop where
  past : ∀ thread ∈ pool.threads, ∀ number, thread.Holds ticket number → number < next pool.shared
  distinct : ∀ (i j : Nat) (thread other : Thread Op Reply ε α Task) (number : Nat),
    pool.threads[i]? = some thread → pool.threads[j]? = some other → thread.Holds ticket number →
    other.Holds ticket number → i = j

section
variable {system : System σ Op Reply ε α Task} {ticket : Call Op Reply → Option Nat}
  {next : σ → Nat}

theorem Issues.holds_advanced (issues : Issues system ticket next) {shared : σ} {op : Op}
    {answer : Reply op} {task : Task} {past : List (Call Op Reply)}
    {rest before : Program Op Reply ε α} {number : Nat}
    (holds : Thread.Holds ticket
      (⟨task, past ++ [⟨op, (system.perform shared op answer).1⟩], rest⟩ :
        Thread Op Reply ε α Task) number) :
    Thread.Holds ticket (⟨task, past, before⟩ : Thread Op Reply ε α Task) number ∨
      number = next shared ∧ number < next (system.perform shared op answer).2 := by
  obtain ⟨call, called, given⟩ := holds
  rcases List.mem_append.1 called with h | h
  · exact .inl ⟨call, h, given⟩
  · rw [List.mem_singleton.1 h] at given
    exact .inr (issues.fresh shared op answer number given)

theorem Reachable.issued {initial : σ} {pool : Pool σ Op Reply ε α Task}
    (reached : Reachable system initial pool) (issues : Issues system ticket next) :
    Issued ticket next pool := by
  apply reached.invariant (Issued ticket next) ⟨by simp [Pool.fresh], by simp [Pool.fresh]⟩
  rintro before after - ⟨past, distinct⟩ step
  cases step with
  | start task may =>
    have old {i : Nat} {thread : Thread Op Reply ε α Task} {number : Nat}
        (present : (before.start system task).threads[i]? = some thread)
        (holds : thread.Holds ticket number) : before.threads[i]? = some thread := by
      rw [Pool.start, List.getElem?_append] at present
      split at present
      · exact present
      · rw [List.mem_singleton.1 (List.mem_of_getElem? present)] at holds
        obtain ⟨call, called, -⟩ := holds
        cases called
    constructor
    · intro thread present number holds
      obtain ⟨i, hi⟩ := List.getElem?_of_mem present
      exact past thread (List.mem_of_getElem? (old hi holds)) number holds
    · intro i j thread other number hi hj first second
      exact distinct i j thread other number (old hi first) (old hj second) first second
  | shift following may =>
    refine ⟨fun thread present number holds => ?_, distinct⟩
    exact Nat.lt_of_lt_of_le (past thread present number holds) (issues.shifted _ _ may)
  | @advance index task own op resume answer waiting =>
    have mine := past _ (List.mem_of_getElem? waiting)
    have grows := issues.grows before.shared op answer
    constructor
    · intro thread present number holds
      rcases List.mem_or_eq_of_mem_set present with h | rfl
      · exact Nat.lt_of_lt_of_le (past thread h number holds) grows
      · rcases issues.holds_advanced holds with h | ⟨-, given⟩
        · exact Nat.lt_of_lt_of_le (mine number h) grows
        · exact given
    · intro i j thread other number hi hj first second
      rw [Pool.getElem?_advance _ waiting] at hi hj
      split at hi <;> split at hj
      next hi' hj' => exact hi'.symm.trans hj'
      next hi' _ =>
        cases hi
        rcases issues.holds_advanced first with h | ⟨rfl, -⟩
        · exact hi' ▸ distinct index j _ other number waiting hj h second
        · exact absurd (past other (List.mem_of_getElem? hj) _ second) (Nat.lt_irrefl _)
      next _ hj' =>
        cases hj
        rcases issues.holds_advanced second with h | ⟨rfl, -⟩
        · exact hj' ▸ distinct i index thread _ number hi waiting first h
        · exact absurd (past thread (List.mem_of_getElem? hi) _ first) (Nat.lt_irrefl _)
      next => exact distinct i j thread other number hi hj first second

end
end Effects
