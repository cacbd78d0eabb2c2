import ExferHonor.Effects.Interpret

/-! The calls of a program and the calls that carried them out. -/
namespace Effects

variable {Op Op' : Type} {Reply : Op → Type} {Reply' : Op' → Type} {ε α β : Type}

/-- `past` is what the handler's programs did to give `calls` their replies, one call after the
other. -/
inductive Carried (handler : (op : Op) → Program Op' Reply' ε (Reply op)) :
    List (Call Op Reply) → List (Call Op' Reply') → Prop
  | nil : Carried handler [] []
  | snoc {calls past own op reply} (before : Carried handler calls past)
      (carries : (handler op).Returns own (.ok reply)) :
      Carried handler (calls ++ [⟨op, reply⟩]) (past ++ own)

variable {handler : (op : Op) → Program Op' Reply' ε (Reply op)}

theorem Carried.cons {op : Op} {reply : Reply op} {own : List (Call Op' Reply')}
    {calls : List (Call Op Reply)} {past : List (Call Op' Reply')}
    (carries : (handler op).Returns own (.ok reply)) (carried : Carried handler calls past) :
    Carried handler (⟨op, reply⟩ :: calls) (own ++ past) := by
  induction carried with
  | nil =>
    have alone : Carried handler ([] ++ [⟨op, reply⟩]) ([] ++ own) := .snoc .nil carries
    simpa using alone
  | snoc before last ih =>
    rw [← List.append_assoc, ← List.cons_append]
    exact .snoc ih last

namespace Program

theorem Returns.of_interpret {program : Program Op Reply ε α} {past : List (Call Op' Reply')}
    {result : Except ε α} (returns : (program.interpret handler).Returns past result) :
    (∃ calls, Carried handler calls past ∧ program.Returns calls result) ∨
    ∃ calls before own op resume error, Carried handler calls before ∧
      program.Runs calls (.call op resume) ∧ past = before ++ own ∧
      (handler op).Returns own (.error error) ∧ result = .error error := by
  induction program generalizing past with
  | pure value =>
    obtain ⟨rfl, rfl⟩ := (returns_pure_iff value).1 returns
    exact .inl ⟨[], .nil, .nil⟩
  | throw error =>
    obtain ⟨rfl, rfl⟩ := (returns_throw_iff error).1 returns
    exact .inl ⟨[], .nil, .nil⟩
  | call op resume ih =>
    rcases Returns.of_bind returns with ⟨error, throws, rfl⟩ | ⟨own, reply, later, rfl, first, rest⟩
    · exact .inr ⟨[], [], past, op, resume, error, .nil, .nil, rfl, throws, rfl⟩
    · rcases ih reply rest with ⟨calls, carried, ended⟩ |
        ⟨calls, before, mine, op', resume', error, carried, run, rfl, throws, rfl⟩
      · exact .inl ⟨_, carried.cons first, .call reply ended⟩
      · refine .inr ⟨_, _, mine, op', resume', error, carried.cons first, .call reply run, ?_,
          throws, rfl⟩
        rw [List.append_assoc]

theorem Returns.of_attempt {program : Program Op Reply ε α} {calls : List (Call Op Reply)}
    {result : Except ε (Except ε α)} (returns : program.attempt.Returns calls result) :
    ∃ ended, result = .ok ended ∧ program.Returns calls ended := by
  induction program generalizing calls with
  | pure value =>
    obtain ⟨rfl, rfl⟩ := (returns_pure_iff _).1 returns
    exact ⟨_, rfl, .nil⟩
  | throw error =>
    obtain ⟨rfl, rfl⟩ := (returns_pure_iff _).1 returns
    exact ⟨.error error, rfl, .nil⟩
  | call op resume ih =>
    obtain ⟨reply, later, rfl, tail⟩ := (returns_call_iff _ _).1 returns
    obtain ⟨ended, rfl, inner⟩ := ih reply tail
    exact ⟨ended, rfl, .call reply inner⟩

end Program

theorem Carried.answered {answers : Call Op Reply → Prop} {calls : List (Call Op Reply)}
    {past : List (Call Op' Reply')} (carried : Carried handler calls past)
    (each : ∀ op own reply, own <:+: past → (handler op).Returns own (.ok reply) →
      answers ⟨op, reply⟩) : ∀ call ∈ calls, answers call := by
  induction carried with
  | nil => simp
  | @snoc calls past own op reply before last ih =>
    intro call present
    rcases List.mem_append.1 present with earlier | this
    · exact ih (fun op' own' reply' among returns =>
        each op' own' reply' (among.trans (List.prefix_append _ _).isInfix) returns) call earlier
    · rw [List.mem_singleton.1 this]
      exact each op own reply (List.suffix_append _ _).isInfix last

theorem Program.Returns.interpret_eval {answer : (op : Op) → Reply op}
    {program : Program Op Reply ε α} {past : List (Call Op' Reply')} {result : Except ε α}
    (returns : (program.interpret handler).Returns past result)
    (each : ∀ op own ended, own <:+: past → (handler op).Returns own ended →
      ended = .ok (answer op)) : program.eval answer = result := by
  rcases Returns.of_interpret returns with ⟨calls, carried, inner⟩ |
    ⟨calls, before, own, op, resume, error, -, -, rfl, throws, -⟩
  · refine Returns.eval_eq inner (carried.answered fun op own reply among returns => ?_)
    exact Except.ok.inj (each op own _ among returns)
  · cases each op own _ (List.suffix_append _ _).isInfix throws

end Effects
