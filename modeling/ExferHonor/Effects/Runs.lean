import ExferHonor.Effects.Program

/-! What a program has done so far. A run is the list of calls made, each with its reply; the
rules below take a run of a composed program apart into runs of its parts. -/
namespace Effects

variable {Op Own : Type} {Reply : Op → Type} {OwnReply : Own → Type} {ε α β : Type}

namespace Program

/-- The program made `calls` and `rest` is what is left of it. -/
inductive Runs : Program Op Reply ε α → List (Call Op Reply) → Program Op Reply ε α → Prop
  | nil {program} : Runs program [] program
  | call {op resume calls rest} (reply : Reply op) (tail : Runs (resume reply) calls rest) :
      Runs (.call op resume) (⟨op, reply⟩ :: calls) rest

/-- The program made exactly `calls` and ended with `result`. -/
def Returns (program : Program Op Reply ε α) (calls : List (Call Op Reply))
    (result : Except ε α) : Prop :=
  Runs program calls (ofExcept result)

section
variable {calls : List (Call Op Reply)} {rest : Program Op Reply ε α}

@[simp] theorem runs_pure_iff (value : α) :
    (Program.pure value).Runs calls rest ↔ calls = [] ∧ rest = .pure value := by
  constructor
  · rintro ⟨⟩
    exact ⟨rfl, rfl⟩
  · rintro ⟨rfl, rfl⟩
    exact .nil

@[simp] theorem runs_throw_iff (error : ε) :
    (Program.throw error).Runs calls rest ↔ calls = [] ∧ rest = .throw error := by
  constructor
  · rintro ⟨⟩
    exact ⟨rfl, rfl⟩
  · rintro ⟨rfl, rfl⟩
    exact .nil

theorem runs_call_iff (op : Op) (resume : Reply op → Program Op Reply ε α) :
    (Program.call op resume).Runs calls rest ↔
      (calls = [] ∧ rest = .call op resume) ∨
      ∃ reply later, calls = ⟨op, reply⟩ :: later ∧ (resume reply).Runs later rest := by
  constructor
  · intro run
    cases run with
    | nil => exact .inl ⟨rfl, rfl⟩
    | call reply tail => exact .inr ⟨reply, _, rfl, tail⟩
  · rintro (⟨rfl, rfl⟩ | ⟨reply, later, rfl, tail⟩)
    · exact .nil
    · exact .call reply tail

theorem runs_ofExcept_iff (result : Except ε α) :
    (ofExcept result : Program Op Reply ε α).Runs calls rest ↔
      calls = [] ∧ rest = ofExcept result := by
  cases result <;> simp

end

namespace Runs

theorem trans {program middle rest : Program Op Reply ε α} {calls later : List (Call Op Reply)}
    (first : program.Runs calls middle) (second : middle.Runs later rest) :
    program.Runs (calls ++ later) rest := by
  induction first with
  | nil => exact second
  | call reply _ ih => exact .call reply (ih second)

theorem snoc {program : Program Op Reply ε α} {calls : List (Call Op Reply)} {op : Op}
    {resume : Reply op → Program Op Reply ε α} (run : program.Runs calls (.call op resume))
    (reply : Reply op) : program.Runs (calls ++ [⟨op, reply⟩]) (resume reply) :=
  run.trans (.call reply .nil)

theorem bind {program rest : Program Op Reply ε α} {calls : List (Call Op Reply)}
    (run : program.Runs calls rest) (next : α → Program Op Reply ε β) :
    (program.bind next).Runs calls (rest.bind next) := by
  induction run with
  | nil => exact .nil
  | call reply _ ih => exact .call reply ih

theorem split {program rest : Program Op Reply ε α} {past later : List (Call Op Reply)}
    {call : Call Op Reply} (run : program.Runs (past ++ call :: later) rest) :
    ∃ resume, program.Runs past (.call call.op resume) ∧
      (resume call.reply).Runs later rest := by
  induction past generalizing program with
  | nil =>
    cases run with
    | call reply tail => exact ⟨_, .nil, tail⟩
  | cons first past ih =>
    cases run with
    | call reply tail =>
      obtain ⟨resume, hpast, hlater⟩ := ih tail
      exact ⟨resume, .call reply hpast, hlater⟩

theorem split_at {program rest : Program Op Reply ε α} {calls : List (Call Op Reply)}
    (run : program.Runs calls rest) {index : Nat} {call : Call Op Reply}
    (called : calls[index]? = some call) :
    ∃ resume, program.Runs (calls.take index) (.call call.op resume) ∧
      (resume call.reply).Runs (calls.drop (index + 1)) rest := by
  obtain ⟨hindex, rfl⟩ := List.getElem?_eq_some_iff.1 called
  apply split
  rw [← List.drop_eq_getElem_cons hindex, List.take_append_drop]
  exact run

theorem of_bind_call {program : Program Op Reply ε α} {next : α → Program Op Reply ε β}
    {calls : List (Call Op Reply)} {op : Op} {resume : Reply op → Program Op Reply ε β}
    (run : (program.bind next).Runs calls (.call op resume)) :
    (∃ inner, program.Runs calls (.call op inner) ∧
      resume = fun reply => (inner reply).bind next) ∨
    ∃ own value later, calls = own ++ later ∧ program.Returns own (.ok value) ∧
      (next value).Runs later (.call op resume) := by
  induction program generalizing calls with
  | pure value => exact .inr ⟨[], value, calls, rfl, .nil, run⟩
  | throw error => cases ((runs_throw_iff error).1 run).2
  | call first rest ih =>
    rw [call_bind] at run
    rcases (runs_call_iff first _).1 run with ⟨rfl, hcall⟩ | ⟨reply, later, rfl, tail⟩
    · cases hcall
      exact .inl ⟨rest, .nil, rfl⟩
    · rcases ih reply tail with ⟨inner, hinner, hresume⟩ | ⟨own, value, rest', rfl, hown, hnext⟩
      · exact .inl ⟨inner, .call reply hinner, hresume⟩
      · exact .inr ⟨⟨first, reply⟩ :: own, value, rest', rfl, .call reply hown, hnext⟩

theorem of_handle_call {program : Program Op Reply ε α} {handler : ε → Program Op Reply ε α}
    {calls : List (Call Op Reply)} {op : Op} {resume : Reply op → Program Op Reply ε α}
    (run : (program.handle handler).Runs calls (.call op resume)) :
    (∃ inner, program.Runs calls (.call op inner)) ∨
    ∃ own error later, calls = own ++ later ∧ (handler error).Runs later (.call op resume) := by
  induction program generalizing calls with
  | pure value => cases ((runs_pure_iff _).1 run).2
  | throw error => exact .inr ⟨[], error, calls, rfl, run⟩
  | call first rest ih =>
    rcases (runs_call_iff first _).1 run with ⟨rfl, hcall⟩ | ⟨reply, later, rfl, tail⟩
    · cases hcall
      exact .inl ⟨rest, .nil⟩
    · rcases ih reply tail with ⟨inner, hinner⟩ | ⟨own, error, rest', rfl, hhandler⟩
      · exact .inl ⟨inner, .call reply hinner⟩
      · exact .inr ⟨⟨first, reply⟩ :: own, error, rest', rfl, hhandler⟩

theorem of_alongside {program : Program Op Reply ε α}
    {calls : List (Call (Op ⊕ Own) (Sum.elim Reply OwnReply))}
    {rest : Program (Op ⊕ Own) (Sum.elim Reply OwnReply) ε α}
    (run : program.alongside.Runs calls rest) :
    ∃ own inner, calls = own.map Call.alongside ∧ rest = inner.alongside ∧
      program.Runs own inner := by
  induction program generalizing calls with
  | pure value =>
    obtain ⟨rfl, rfl⟩ := (runs_pure_iff value).1 run
    exact ⟨[], .pure value, rfl, rfl, .nil⟩
  | throw error =>
    obtain ⟨rfl, rfl⟩ := (runs_throw_iff error).1 run
    exact ⟨[], .throw error, rfl, rfl, .nil⟩
  | call op resume ih =>
    rcases (runs_call_iff (Sum.inl op) _).1 run with ⟨rfl, rfl⟩ | ⟨reply, later, rfl, tail⟩
    · exact ⟨[], .call op resume, rfl, rfl, .nil⟩
    · obtain ⟨own, inner, rfl, rfl, hown⟩ := ih reply tail
      exact ⟨⟨op, reply⟩ :: own, inner, rfl, rfl, .call (show Reply op from reply) hown⟩

theorem of_alongside_call {program : Program Op Reply ε α}
    {calls : List (Call (Op ⊕ Own) (Sum.elim Reply OwnReply))} {op : Op}
    {resume : Reply op → Program (Op ⊕ Own) (Sum.elim Reply OwnReply) ε α}
    (run : program.alongside.Runs calls (.call (.inl op) resume)) :
    ∃ own inner, calls = own.map Call.alongside ∧ program.Runs own (.call op inner) := by
  obtain ⟨own, inner, rfl, hrest, hown⟩ := run.of_alongside
  cases inner with
  | pure value => cases hrest
  | throw error => cases hrest
  | call op resume =>
    cases hrest
    exact ⟨own, resume, rfl, hown⟩

theorem of_map_call {program : Program Op Reply ε α} {f : α → β} {calls : List (Call Op Reply)}
    {op : Op} {resume : Reply op → Program Op Reply ε β}
    (run : (program.bind fun value => .pure (f value)).Runs calls (.call op resume)) :
    ∃ inner, program.Runs calls (.call op inner) ∧
      resume = fun reply => (inner reply).bind fun value => .pure (f value) := by
  rcases run.of_bind_call with h | ⟨_, _, _, rfl, _, hend⟩
  · exact h
  · cases ((runs_pure_iff _).1 hend).2

end Runs

namespace Returns

theorem of_bind {program : Program Op Reply ε α} {next : α → Program Op Reply ε β}
    {calls : List (Call Op Reply)} {result : Except ε β}
    (returns : (program.bind next).Returns calls result) :
    (∃ error, program.Returns calls (.error error) ∧ result = .error error) ∨
    ∃ own value later, calls = own ++ later ∧ program.Returns own (.ok value) ∧
      (next value).Returns later result := by
  induction program generalizing calls with
  | pure value => exact .inr ⟨[], value, calls, rfl, .nil, returns⟩
  | throw error =>
    obtain ⟨rfl, hresult⟩ := (runs_throw_iff error).1 returns
    refine .inl ⟨error, .nil, ?_⟩
    cases result with
    | ok value => cases hresult
    | error other =>
      cases hresult
      rfl
  | call first rest ih =>
    unfold Returns at returns
    rw [call_bind] at returns
    rcases (runs_call_iff first _).1 returns with ⟨_, hend⟩ | ⟨reply, later, rfl, tail⟩
    · cases result <;> cases hend
    · rcases ih reply tail with ⟨error, herror, hresult⟩ | ⟨own, value, rest', rfl, hown, hnext⟩
      · exact .inl ⟨error, .call reply herror, hresult⟩
      · exact .inr ⟨⟨first, reply⟩ :: own, value, rest', rfl, .call reply hown, hnext⟩

theorem of_map {program : Program Op Reply ε α} {f : α → β} {calls : List (Call Op Reply)}
    {result : Except ε β}
    (returns : (program.bind fun value => .pure (f value)).Returns calls result) :
    ∃ inner, program.Returns calls inner ∧ result = inner.map f := by
  rcases of_bind returns with ⟨error, throws, rfl⟩ | ⟨own, value, later, rfl, first, ended⟩
  · exact ⟨.error error, throws, rfl⟩
  · obtain ⟨hlater, hresult⟩ := (runs_pure_iff _).1 ended
    subst hlater
    refine ⟨.ok value, (List.append_nil own).symm ▸ first, ?_⟩
    cases result with
    | ok mapped =>
      cases hresult
      rfl
    | error e => cases hresult

theorem ok_of_bind {program : Program Op Reply ε α} {next : α → Program Op Reply ε β}
    {calls : List (Call Op Reply)} {value : β}
    (returns : (program.bind next).Returns calls (.ok value)) :
    ∃ own first later, calls = own ++ later ∧ program.Returns own (.ok first) ∧
      (next first).Returns later (.ok value) := by
  rcases of_bind returns with ⟨_, _, hresult⟩ | h
  · cases hresult
  · exact h

end Returns

section
variable {calls : List (Call Op Reply)} {result : Except ε α}

@[simp] theorem returns_pure_iff (value : α) :
    (Program.pure value : Program Op Reply ε α).Returns calls result ↔
      calls = [] ∧ result = .ok value := by
  unfold Returns
  cases result <;> simp [eq_comm]

@[simp] theorem returns_throw_iff (error : ε) :
    (Program.throw error : Program Op Reply ε α).Returns calls result ↔
      calls = [] ∧ result = .error error := by
  unfold Returns
  cases result <;> simp [eq_comm]

@[simp] theorem returns_ofExcept_iff (first : Except ε α) :
    (ofExcept first : Program Op Reply ε α).Returns calls result ↔
      calls = [] ∧ result = first := by
  cases first <;> simp

theorem returns_call_iff (op : Op) (resume : Reply op → Program Op Reply ε α) :
    (Program.call op resume).Returns calls result ↔
      ∃ reply later, calls = ⟨op, reply⟩ :: later ∧ (resume reply).Returns later result := by
  unfold Returns
  rw [runs_call_iff]
  constructor
  · rintro (⟨_, hend⟩ | h)
    · cases result <;> cases hend
    · exact h
  · exact .inr

theorem returns_ask_iff {op : Op} {reads : Reply op → Except ε α} :
    (Program.call op fun reply => ofExcept (reads reply)).Returns calls result ↔
      ∃ reply, calls = [⟨op, reply⟩] ∧ result = reads reply := by
  rw [returns_call_iff]
  constructor
  · rintro ⟨reply, later, rfl, h⟩
    obtain ⟨rfl, rfl⟩ := (returns_ofExcept_iff _).1 h
    exact ⟨reply, rfl, rfl⟩
  · rintro ⟨reply, rfl, rfl⟩
    exact ⟨reply, [], rfl, (returns_ofExcept_iff _).2 ⟨rfl, rfl⟩⟩

end

theorem Runs.of_ask_bind {op op' : Op} {reads : Reply op → Except ε α}
    {next : α → Program Op Reply ε β} {calls : List (Call Op Reply)}
    {resume : Reply op' → Program Op Reply ε β}
    (run : ((Program.call op fun reply => ofExcept (reads reply)).bind next).Runs calls
      (.call op' resume)) (other : op ≠ op') :
    ∃ reply value later, calls = ⟨op, reply⟩ :: later ∧ reads reply = .ok value ∧
      (next value).Runs later (.call op' resume) := by
  rcases (runs_call_iff _ _).1 run with ⟨_, hcall⟩ | ⟨reply, later, rfl, tail⟩
  · cases hcall
    contradiction
  · cases hreads : reads reply with
    | error e =>
      simp only [hreads] at tail
      cases ((runs_throw_iff e).1 tail).2
    | ok value =>
      simp only [hreads] at tail
      exact ⟨reply, value, later, rfl, hreads, tail⟩

theorem Runs.of_ofExcept_bind {first : Except ε α} {next : α → Program Op Reply ε β}
    {calls : List (Call Op Reply)} {op : Op} {resume : Reply op → Program Op Reply ε β}
    (run : ((ofExcept first).bind next).Runs calls (.call op resume)) :
    ∃ value, first = .ok value ∧ (next value).Runs calls (.call op resume) := by
  cases first with
  | error e => cases ((runs_throw_iff e).1 run).2
  | ok value => exact ⟨value, rfl, run⟩

theorem Returns.of_ask_bind {op : Op} {reads : Reply op → Except ε α}
    {next : α → Program Op Reply ε β} {calls : List (Call Op Reply)} {value : β}
    (returns : ((Program.call op fun reply => ofExcept (reads reply)).bind next).Returns calls
      (.ok value)) :
    ∃ reply first later, calls = ⟨op, reply⟩ :: later ∧ reads reply = .ok first ∧
      (next first).Returns later (.ok value) := by
  obtain ⟨own, first, later, rfl, hask, hrest⟩ := returns.ok_of_bind
  obtain ⟨reply, rfl, hreads⟩ := returns_ask_iff.1 hask
  exact ⟨reply, first, later, rfl, hreads.symm, hrest⟩

theorem Returns.eval_eq {answer : (op : Op) → Reply op} {program : Program Op Reply ε α}
    {calls : List (Call Op Reply)} {result : Except ε α}
    (returns : program.Returns calls result)
    (answered : ∀ call ∈ calls, call.reply = answer call.op) : program.eval answer = result := by
  induction program generalizing calls with
  | pure value => exact ((returns_pure_iff value).1 returns).2.symm
  | throw error => exact ((returns_throw_iff error).1 returns).2.symm
  | call op resume ih =>
    obtain ⟨reply, later, rfl, tail⟩ := (returns_call_iff op resume).1 returns
    obtain ⟨hreply, hlater⟩ := List.forall_mem_cons.1 answered
    obtain rfl : reply = answer op := hreply
    exact ih _ tail hlater

theorem returns_eval (answer : (op : Op) → Reply op) (program : Program Op Reply ε α) :
    ∃ calls, program.Returns calls (program.eval answer) ∧
      ∀ call ∈ calls, call.reply = answer call.op := by
  induction program with
  | pure value => exact ⟨[], .nil, by simp⟩
  | throw error => exact ⟨[], .nil, by simp⟩
  | call op resume ih =>
    obtain ⟨calls, returns, answered⟩ := ih (answer op)
    exact ⟨⟨op, answer op⟩ :: calls, .call _ returns, List.forall_mem_cons.2 ⟨rfl, answered⟩⟩

section
variable {σ : Type} {handler : σ → (op : Op) → Reply op × σ} {state after : σ}
  {program : Program Op Reply ε α} {next : α → Program Op Reply ε β}
  {calls : List (Call Op Reply)}

@[simp] theorem run_ofExcept (result : Except ε α) :
    (ofExcept result : Program Op Reply ε α).run handler state = ([], result, state) := by
  cases result <;> rfl

theorem run_bind_ok {value : α} (first : program.run handler state = (calls, .ok value, after)) :
    (program.bind next).run handler state =
      (calls ++ ((next value).run handler after).1, ((next value).run handler after).2) := by
  induction program generalizing state calls with
  | pure other =>
    cases first
    rfl
  | throw error => cases first
  | call op resume ih =>
    simp only [run, Prod.mk.injEq] at first
    obtain ⟨rfl, hrest⟩ := first
    simp only [call_bind, run, ih _ (Prod.ext rfl hrest), List.cons_append]

theorem run_bind_error {error : ε}
    (first : program.run handler state = (calls, .error error, after)) :
    (program.bind next).run handler state = (calls, .error error, after) := by
  induction program generalizing state calls with
  | pure other => cases first
  | throw other =>
    cases first
    rfl
  | call op resume ih =>
    simp only [run, Prod.mk.injEq] at first
    obtain ⟨rfl, hrest⟩ := first
    simp only [call_bind, run, ih _ (Prod.ext rfl hrest)]

end

theorem run_returns {σ : Type} (handler : σ → (op : Op) → Reply op × σ) (state : σ)
    (program : Program Op Reply ε α) :
    program.Returns (program.run handler state).1 (program.run handler state).2.1 := by
  induction program generalizing state with
  | pure value => exact .nil
  | throw error => exact .nil
  | call op resume ih => exact .call _ (ih _ _)

theorem run_answered {σ : Type} {handler : σ → (op : Op) → Reply op × σ}
    (answers : Call Op Reply → Prop)
    (replies : ∀ state op, answers ⟨op, (handler state op).1⟩) (state : σ)
    (program : Program Op Reply ε α) : ∀ call ∈ (program.run handler state).1, answers call := by
  induction program generalizing state with
  | pure value => simp [run]
  | throw error => simp [run]
  | call op resume ih => exact List.forall_mem_cons.2 ⟨replies state op, ih _ _⟩

end Program
end Effects
