import ExferHonor.Effects.Runs

/-! The operations a program can call and the values it can end with, whatever the replies. -/
namespace Effects

variable {Op : Type} {Reply : Op → Type} {ε α β : Type}

def Uses (allowed : Op → Prop) : Program Op Reply ε α → Prop
  | .pure _ => True
  | .throw _ => True
  | .call op resume => allowed op ∧ ∀ reply, Uses allowed (resume reply)

namespace Uses
variable {allowed : Op → Prop}

@[simp] theorem ofExcept (result : Except ε α) :
    Uses allowed (Program.ofExcept result : Program Op Reply ε α) := by
  cases result <;> trivial

theorem bind {program : Program Op Reply ε α} {next : α → Program Op Reply ε β}
    (first : Uses allowed program) (rest : ∀ value, Uses allowed (next value)) :
    Uses allowed (program.bind next) := by
  induction program with
  | pure value => exact rest value
  | throw error => trivial
  | call op resume ih => exact ⟨first.1, fun reply => ih reply (first.2 reply)⟩

theorem handle {program : Program Op Reply ε α} {handler : ε → Program Op Reply ε α}
    (first : Uses allowed program) (rest : ∀ error, Uses allowed (handler error)) :
    Uses allowed (program.handle handler) := by
  induction program with
  | pure value => trivial
  | throw error => exact rest error
  | call op resume ih => exact ⟨first.1, fun reply => ih reply (first.2 reply)⟩

theorem ite {p : Prop} [Decidable p] {yes no : Program Op Reply ε α} (hyes : Uses allowed yes)
    (hno : Uses allowed no) : Uses allowed (if p then yes else no) := by
  split
  · exact hyes
  · exact hno

theorem mono {wider : Op → Prop} {program : Program Op Reply ε α}
    (uses : Uses allowed program) (hwider : ∀ op, allowed op → wider op) :
    Uses wider program := by
  induction program with
  | pure value => trivial
  | throw error => trivial
  | call op resume ih => exact ⟨hwider op uses.1, fun reply => ih reply (uses.2 reply)⟩

theorem runs {program rest : Program Op Reply ε α} {calls : List (Call Op Reply)}
    (uses : Uses allowed program) (run : program.Runs calls rest) :
    (∀ call ∈ calls, allowed call.op) ∧ Uses allowed rest := by
  induction run with
  | nil => exact ⟨by simp, uses⟩
  | call reply _ ih =>
    obtain ⟨hcalls, hrest⟩ := ih (uses.2 reply)
    exact ⟨List.forall_mem_cons.2 ⟨uses.1, hcalls⟩, hrest⟩

theorem of_call {program : Program Op Reply ε α} {calls : List (Call Op Reply)} {op : Op}
    {resume : Reply op → Program Op Reply ε α} (uses : Uses allowed program)
    (run : program.Runs calls (.call op resume)) : allowed op :=
  (uses.runs run).2.1

theorem ask {op : Op} {reads : Reply op → Except ε α} (hop : allowed op) :
    Uses allowed (Program.call op fun reply => Program.ofExcept (reads reply)) :=
  ⟨hop, fun _ => ofExcept _⟩

theorem of_bind_call {program : Program Op Reply ε α} {next : α → Program Op Reply ε β}
    {calls : List (Call Op Reply)} {op : Op} {resume : Reply op → Program Op Reply ε β}
    (uses : Uses allowed program) (run : (program.bind next).Runs calls (.call op resume))
    (avoids : ¬ allowed op) :
    ∃ own value later, calls = own ++ later ∧ program.Returns own (.ok value) ∧
      (next value).Runs later (.call op resume) := by
  rcases run.of_bind_call with ⟨inner, hinner, _⟩ | h
  · exact absurd (uses.of_call hinner) avoids
  · exact h

theorem run_eq {σ : Type} {handler : σ → (op : Op) → Reply op × σ}
    {answer : (op : Op) → Reply op} {program : Program Op Reply ε α} (uses : Uses allowed program)
    (inert : ∀ op, allowed op → ∀ state, handler state op = (answer op, state)) (state : σ) :
    program.run handler state = ((program.run handler state).1, program.eval answer, state) := by
  induction program with
  | pure value => rfl
  | throw error => rfl
  | call op resume ih =>
    have hrest := ih _ (uses.2 (answer op))
    simp only [Program.run, Program.eval, inert op uses.1]
    rw [hrest]

end Uses

def Yields (values : α → Prop) : Program Op Reply ε α → Prop
  | .pure value => values value
  | .throw _ => True
  | .call _ resume => ∀ reply, Yields values (resume reply)

namespace Yields
variable {values : α → Prop}

theorem pure {value : α} (h : values value) :
    Yields values (.pure value : Program Op Reply ε α) := h

theorem bind {values : β → Prop} {program : Program Op Reply ε α}
    {next : α → Program Op Reply ε β} (rest : ∀ value, Yields values (next value)) :
    Yields values (program.bind next) := by
  induction program with
  | pure value => exact rest value
  | throw error => trivial
  | call op resume ih => exact fun reply => ih reply

theorem bind_of {wanted : β → Prop} {program : Program Op Reply ε α}
    {next : α → Program Op Reply ε β} (first : Yields values program)
    (rest : ∀ value, values value → Yields wanted (next value)) :
    Yields wanted (program.bind next) := by
  induction program with
  | pure value => exact rest value first
  | throw error => trivial
  | call op resume ih => exact fun reply => ih reply (first reply)

theorem ite {p : Prop} [Decidable p] {yes no : Program Op Reply ε α}
    (hyes : Yields values yes) (hno : Yields values no) :
    Yields values (if p then yes else no) := by
  split
  · exact hyes
  · exact hno

theorem returns {program : Program Op Reply ε α} {calls : List (Call Op Reply)} {value : α}
    (yields : Yields values program) (returns : program.Returns calls (.ok value)) :
    values value := by
  induction program generalizing calls with
  | pure other =>
    obtain ⟨_, hvalue⟩ := (Program.returns_pure_iff other).1 returns
    cases hvalue
    exact yields
  | throw error => simp at returns
  | call op resume ih =>
    obtain ⟨reply, later, _, tail⟩ := (Program.returns_call_iff op resume).1 returns
    exact ih reply (yields reply) tail

end Yields
end Effects
