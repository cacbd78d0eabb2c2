import ExferHonor.Effects.Interpret

/-! The end of a program taken as a value. A body with a handler around it continues from that
value, so a run of it is a run of the body and then of what its end calls for. -/
namespace Effects

variable {Op Own : Type} {Reply : Op → Type} {OwnReply : Own → Type} {ε α β : Type}

namespace Program

def either (next : α → Program Op Reply ε β) (handler : ε → Program Op Reply ε β) :
    Except ε α → Program Op Reply ε β
  | .ok value => next value
  | .error error => handler error

theorem handle_bind (program : Program Op Reply ε α) (next : α → Program Op Reply ε β)
    (handler : ε → Program Op Reply ε β) :
    (program.bind next).handle handler =
      program.attempt.bind (either (fun value => (next value).handle handler) handler) := by
  induction program with
  | pure value => rfl
  | throw error => rfl
  | call op resume ih => exact congrArg (Program.call op) (funext ih)

theorem alongside_bind (program : Program Op Reply ε α) (next : α → Program Op Reply ε β) :
    (program.bind next).alongside = program.alongside.bind fun value =>
      ((next value).alongside : Program (Op ⊕ Own) (Sum.elim Reply OwnReply) ε β) := by
  induction program with
  | pure value => rfl
  | throw error => rfl
  | call op resume ih => exact congrArg (Program.call (Sum.inl op)) (funext ih)

theorem alongside_attempt (program : Program Op Reply ε α) :
    program.alongside.attempt =
      (program.attempt.alongside : Program (Op ⊕ Own) (Sum.elim Reply OwnReply) ε _) := by
  induction program with
  | pure value => rfl
  | throw error => rfl
  | call op resume ih => exact congrArg (Program.call (Sum.inl op)) (funext ih)

theorem Runs.unique {program rest other : Program Op Reply ε α} {calls : List (Call Op Reply)}
    (run : program.Runs calls rest) (again : program.Runs calls other) : rest = other := by
  induction run with
  | nil =>
    cases again with
    | nil => rfl
  | call reply _ ih =>
    cases again with
    | call _ tail => exact ih tail

theorem Returns.not_waits {program rest : Program Op Reply ε α} {calls : List (Call Op Reply)}
    {result : Except ε α} (returns : program.Returns calls result)
    (run : program.Runs calls rest) : rest.waits = false := by
  cases run.unique returns
  cases result <;> rfl

theorem Returns.unique {program : Program Op Reply ε α} {calls : List (Call Op Reply)}
    {result other : Except ε α} (returns : program.Returns calls result)
    (again : program.Returns calls other) : result = other := by
  have same := Runs.unique returns again
  cases result <;> cases other <;> cases same <;> rfl

theorem Returns.unique_of_append {program : Program Op Reply ε α}
    {own other : List (Call Op Reply)} {result again : Except ε α}
    {later last : List (Call (Op ⊕ Own) (Sum.elim Reply OwnReply))}
    (returns : program.Returns own result) (returnsAgain : program.Returns other again)
    (same : own.map Call.alongside ++ later = other.map Call.alongside ++ last) :
    own = other ∧ later = last ∧ result = again := by
  induction program generalizing own other with
  | pure value =>
    obtain ⟨rfl, rfl⟩ := (returns_pure_iff value).1 returns
    obtain ⟨rfl, rfl⟩ := (returns_pure_iff value).1 returnsAgain
    exact ⟨rfl, same, rfl⟩
  | throw error =>
    obtain ⟨rfl, rfl⟩ := (returns_throw_iff error).1 returns
    obtain ⟨rfl, rfl⟩ := (returns_throw_iff error).1 returnsAgain
    exact ⟨rfl, same, rfl⟩
  | call op resume ih =>
    obtain ⟨reply, calls, rfl, tail⟩ := (returns_call_iff op resume).1 returns
    obtain ⟨answer, rest, rfl, tail'⟩ := (returns_call_iff op resume).1 returnsAgain
    obtain ⟨hcall, hrest⟩ := List.cons.inj same
    cases hcall
    obtain ⟨rfl, hlater, hresult⟩ := ih reply tail tail' hrest
    exact ⟨rfl, hlater, hresult⟩

theorem Runs.of_attempt_alongside_bind {program : Program Op Reply ε α}
    {next : Except ε α → Program (Op ⊕ Own) (Sum.elim Reply OwnReply) ε β}
    {calls : List (Call (Op ⊕ Own) (Sum.elim Reply OwnReply))}
    {rest : Program (Op ⊕ Own) (Sum.elim Reply OwnReply) ε β}
    (run : (program.attempt.alongside.bind next).Runs calls rest) :
    (∃ own inner, calls = own.map Call.alongside ∧ program.Runs own inner ∧
      inner.waits = true ∧ rest = inner.attempt.alongside.bind next) ∨
    ∃ own result later, calls = own.map Call.alongside ++ later ∧ program.Returns own result ∧
      (next result).Runs later rest := by
  induction program generalizing calls with
  | pure value => exact .inr ⟨[], .ok value, calls, rfl, .nil, run⟩
  | throw error => exact .inr ⟨[], .error error, calls, rfl, .nil, run⟩
  | call op resume ih =>
    rcases (runs_call_iff (Sum.inl op) _).1 run with ⟨rfl, rfl⟩ | ⟨reply, later, rfl, tail⟩
    · exact .inl ⟨[], .call op resume, rfl, .nil, rfl, rfl⟩
    · have hcall : (⟨.inl op, reply⟩ : Call (Op ⊕ Own) (Sum.elim Reply OwnReply)) =
        Call.alongside ⟨op, (reply : Reply op)⟩ := rfl
      rcases ih reply tail with ⟨own, inner, rfl, hown, waits, hrest⟩ |
        ⟨own, result, rest', rfl, returns, hnext⟩
      · exact .inl ⟨⟨op, reply⟩ :: own, inner, rfl, .call (show Reply op from reply) hown, waits,
          hrest⟩
      · exact .inr ⟨⟨op, reply⟩ :: own, result, rest', rfl,
          .call (show Reply op from reply) returns, hnext⟩

end Program

theorem Call.alongside_injective :
    Function.Injective
      (Call.alongside : Call Op Reply → Call (Op ⊕ Own) (Sum.elim Reply OwnReply)) := by
  rintro ⟨op, reply⟩ ⟨other, answer⟩ same
  cases same
  rfl

end Effects
