import ExferHonor.Effects.Footprint
import ExferHonor.Effects.Session

/-! Programs whose calls are carried out by programs over other calls, and the rules that take
their runs apart. -/
namespace Effects

variable {Op Op' : Type} {Reply : Op → Type} {Reply' : Op' → Type} {ε α β : Type}

namespace Program

/-- Every call replaced by the program that carries it out. -/
def interpret (handler : (op : Op) → Program Op' Reply' ε (Reply op)) :
    Program Op Reply ε α → Program Op' Reply' ε α
  | .pure value => .pure value
  | .throw error => .throw error
  | .call op resume => (handler op).bind fun reply => (resume reply).interpret handler

/-- How the program ends, a throw included, as a value. -/
def attempt : Program Op Reply ε α → Program Op Reply ε (Except ε α)
  | .pure value => .pure (.ok value)
  | .throw error => .pure (.error error)
  | .call op resume => .call op fun reply => (resume reply).attempt

theorem attempt_not_throws {program : Program Op Reply ε α} {calls : List (Call Op Reply)}
    {error : ε} : ¬ program.attempt.Returns calls (.error error) := by
  induction program generalizing calls with
  | pure value =>
    intro returns
    cases ((returns_pure_iff _).1 returns).2
  | throw error =>
    intro returns
    cases ((returns_pure_iff _).1 returns).2
  | call op resume ih =>
    intro returns
    obtain ⟨reply, later, -, tail⟩ := (returns_call_iff _ _).1 returns
    exact ih reply tail

theorem Runs.of_bind {program : Program Op Reply ε α} {next : α → Program Op Reply ε β}
    {calls : List (Call Op Reply)} {rest : Program Op Reply ε β}
    (run : (program.bind next).Runs calls rest) :
    (∃ inner, program.Runs calls inner ∧ inner.waits = true ∧ rest = inner.bind next) ∨
      (∃ error, program.Returns calls (.error error) ∧ rest = .throw error) ∨
      ∃ own value later, calls = own ++ later ∧ program.Returns own (.ok value) ∧
        (next value).Runs later rest := by
  induction program generalizing calls with
  | pure value => exact .inr (.inr ⟨[], value, calls, rfl, .nil, run⟩)
  | throw error =>
    obtain ⟨rfl, rfl⟩ := (runs_throw_iff error).1 run
    exact .inr (.inl ⟨error, .nil, rfl⟩)
  | call op resume ih =>
    rcases (runs_call_iff _ _).1 run with ⟨rfl, rfl⟩ | ⟨reply, later, rfl, tail⟩
    · exact .inl ⟨.call op resume, .nil, rfl, rfl⟩
    · rcases ih reply tail with ⟨inner, own, waits, rfl⟩ | ⟨error, throws, rfl⟩ |
        ⟨own, value, last, rfl, returns, rest⟩
      · exact .inl ⟨inner, .call reply own, waits, rfl⟩
      · exact .inr (.inl ⟨error, .call reply throws, rfl⟩)
      · exact .inr (.inr ⟨_, value, last, rfl, .call reply returns, rest⟩)

theorem Runs.of_attempt_bind {program : Program Op Reply ε α}
    {next : Except ε α → Program Op Reply ε β} {calls : List (Call Op Reply)}
    {rest : Program Op Reply ε β} (run : (program.attempt.bind next).Runs calls rest) :
    (∃ inner, program.attempt.Runs calls inner ∧ inner.waits = true ∧ rest = inner.bind next) ∨
      ∃ own result later, calls = own ++ later ∧ program.attempt.Returns own (.ok result) ∧
        (next result).Runs later rest := by
  rcases Runs.of_bind run with inside | ⟨error, throws, -⟩ | beyond
  · exact .inl inside
  · exact absurd throws attempt_not_throws
  · exact .inr beyond

theorem run_attempt {σ : Type} (handler : σ → (op : Op) → Reply op × σ) (state : σ)
    (program : Program Op Reply ε α) :
    program.attempt.run handler state = ((program.run handler state).1,
      .ok (program.run handler state).2.1, (program.run handler state).2.2) := by
  induction program generalizing state with
  | pure value => rfl
  | throw error => rfl
  | call op resume ih => simp only [attempt, run, ih]

end Program

namespace Uses
variable {allowed : Op → Prop} {allowed' : Op' → Prop}

theorem interpret {handler : (op : Op) → Program Op' Reply' ε (Reply op)}
    (handled : ∀ op, Uses allowed' (handler op)) (program : Program Op Reply ε α) :
    Uses allowed' (program.interpret handler) := by
  induction program with
  | pure value => trivial
  | throw error => trivial
  | call op resume ih => exact (handled op).bind ih

theorem attempt {program : Program Op Reply ε α} (uses : Uses allowed program) :
    Uses allowed program.attempt := by
  induction program with
  | pure value => trivial
  | throw error => trivial
  | call op resume ih => exact ⟨uses.1, fun reply => ih reply (uses.2 reply)⟩

end Uses

theorem Session.run_eq {σ : Type} {handler : σ → (op : Op) → Reply op × σ} {before after : σ}
    {calls : List (Call Op Reply)} {program : Program Op Reply ε α} {result : Except ε α}
    (session : Session (fun state op _ => handler state op) before calls after)
    (returns : program.Returns calls result) :
    program.run handler before = (calls, result, after) := by
  induction session generalizing program with
  | nil =>
    cases program with
    | pure value =>
      obtain ⟨_, rfl⟩ := (Program.returns_pure_iff value).1 returns
      rfl
    | throw error =>
      obtain ⟨_, rfl⟩ := (Program.returns_throw_iff error).1 returns
      rfl
    | call op resume =>
      obtain ⟨_, _, hcalls, _⟩ := (Program.returns_call_iff op resume).1 returns
      cases hcalls
  | cons op answer later ih =>
    cases program with
    | pure value => cases ((Program.returns_pure_iff value).1 returns).1
    | throw error => cases ((Program.returns_throw_iff error).1 returns).1
    | call op' resume =>
      obtain ⟨reply, rest, hcalls, tail⟩ := (Program.returns_call_iff op' resume).1 returns
      cases hcalls
      rw [Program.run, ih tail]

end Effects
