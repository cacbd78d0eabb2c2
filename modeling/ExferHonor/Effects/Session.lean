import ExferHonor.Effects.Runs

/-! A program that has the state to itself. Each of its calls is answered by the state that the
call before it left behind; what the state does not decide, the outside world answers, and it need
not answer alike twice. -/
namespace Effects

variable {σ Op : Type} {Reply : Op → Type} {ε α : Type}

inductive Session (perform : σ → (op : Op) → Reply op → Reply op × σ) :
    σ → List (Call Op Reply) → σ → Prop
  | nil {state} : Session perform state [] state
  | cons {before calls after} (op : Op) (answer : Reply op)
      (later : Session perform (perform before op answer).2 calls after) :
      Session perform before (⟨op, (perform before op answer).1⟩ :: calls) after

namespace Session
variable {perform : σ → (op : Op) → Reply op → Reply op × σ} {before after : σ}
  {calls later : List (Call Op Reply)}

theorem append_iff : Session perform before (calls ++ later) after ↔
    ∃ middle, Session perform before calls middle ∧ Session perform middle later after := by
  constructor
  · intro session
    induction calls generalizing before with
    | nil => exact ⟨before, .nil, session⟩
    | cons call calls ih =>
      cases session with
      | cons op answer rest =>
        obtain ⟨middle, first, second⟩ := ih rest
        exact ⟨middle, .cons op answer first, second⟩
  · rintro ⟨middle, first, second⟩
    induction first with
    | nil => exact second
    | cons op answer _ ih => exact .cons op answer (ih second)

theorem cons_iff {op : Op} {reply : Reply op} :
    Session perform before (⟨op, reply⟩ :: later) after ↔
      ∃ answer, reply = (perform before op answer).1 ∧
        Session perform (perform before op answer).2 later after := by
  constructor
  · intro session
    cases session with
    | cons _ answer rest => exact ⟨answer, rfl, rest⟩
  · rintro ⟨answer, rfl, rest⟩
    exact .cons op answer rest

theorem answered (session : Session perform before calls after) {op : Op} {reply : Reply op}
    (called : ⟨op, reply⟩ ∈ calls) :
    ∃ past later middle answer, calls = past ++ ⟨op, reply⟩ :: later ∧
      Session perform before past middle ∧ reply = (perform middle op answer).1 ∧
      Session perform (perform middle op answer).2 later after := by
  obtain ⟨past, later, rfl⟩ := List.mem_iff_append.1 called
  obtain ⟨middle, first, second⟩ := append_iff.1 session
  obtain ⟨answer, hreply, rest⟩ := cons_iff.1 second
  exact ⟨past, later, middle, answer, rfl, first, hreply, rest⟩

theorem frame {β : Type} (view : σ → β) {allowed : Op → Prop}
    (keeps : ∀ state op answer, allowed op → view (perform state op answer).2 = view state)
    (session : Session perform before calls after) (uses : ∀ call ∈ calls, allowed call.op) :
    view after = view before := by
  induction session with
  | nil => rfl
  | cons op answer _ ih =>
    obtain ⟨first, rest⟩ := List.forall_mem_cons.1 uses
    exact (ih rest).trans (keeps _ op answer first)

theorem of_run (answer : σ → (op : Op) → Reply op) (program : Program Op Reply ε α) (state : σ) :
    Session perform state
      (program.run (fun state op => perform state op (answer state op)) state).1
      (program.run (fun state op => perform state op (answer state op)) state).2.2 := by
  induction program generalizing state with
  | pure value => exact .nil
  | throw error => exact .nil
  | call op resume ih => exact .cons op (answer state op) (ih _ _)

end Session
end Effects
