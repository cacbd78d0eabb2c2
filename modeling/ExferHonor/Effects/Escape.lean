import ExferHonor.Effects.Footprint

/-! Errors that no handler stops: a program from which the faults of some calls always escape ends
with the first of them. -/
namespace Effects

variable {Op : Type} {Reply : Op → Type} {ε α β : Type}

/-- Wherever a call is answered by a fault, the program throws it. -/
def Escapes (fault : Call Op Reply → Option ε) : Program Op Reply ε α → Prop
  | .pure _ => True
  | .throw _ => True
  | .call op resume => ∀ reply,
      (∀ e, fault ⟨op, reply⟩ = some e → resume reply = .throw e) ∧ Escapes fault (resume reply)

namespace Escapes
variable {fault : Call Op Reply → Option ε}

@[simp] theorem ofExcept (result : Except ε α) :
    Escapes fault (Program.ofExcept result : Program Op Reply ε α) := by
  cases result <;> trivial

theorem bind {program : Program Op Reply ε α} {next : α → Program Op Reply ε β}
    (first : Escapes fault program) (rest : ∀ value, Escapes fault (next value)) :
    Escapes fault (program.bind next) := by
  induction program with
  | pure value => exact rest value
  | throw error => trivial
  | call op resume ih =>
    refine fun reply => ⟨fun e faulty => ?_, ih reply (first reply).2⟩
    exact congrArg (·.bind next) ((first reply).1 e faulty)

theorem ask {op : Op} {reads : Reply op → Except ε α}
    (throws : ∀ reply e, fault ⟨op, reply⟩ = some e → reads reply = .error e) :
    Escapes fault (Program.call op fun reply => Program.ofExcept (reads reply)) := by
  refine fun reply => ⟨fun e faulty => ?_, ofExcept _⟩
  exact congrArg Program.ofExcept (throws reply e faulty)

theorem of_uses {allowed : Op → Prop} {program : Program Op Reply ε α}
    (uses : Uses allowed program) (sound : ∀ op reply, allowed op → fault ⟨op, reply⟩ = none) :
    Escapes fault program := by
  induction program with
  | pure value => trivial
  | throw error => trivial
  | call op resume ih =>
    refine fun reply => ⟨fun e faulty => ?_, ih reply (uses.2 reply)⟩
    rw [sound op reply uses.1] at faulty
    contradiction

theorem ite {p : Prop} [Decidable p] {yes no : Program Op Reply ε α} (hyes : Escapes fault yes)
    (hno : Escapes fault no) : Escapes fault (if p then yes else no) := by
  split
  · exact hyes
  · exact hno

theorem runs {program rest : Program Op Reply ε α} {past later : List (Call Op Reply)}
    {call : Call Op Reply} {e : ε} (escapes : Escapes fault program)
    (run : program.Runs (past ++ call :: later) rest) (faulty : fault call = some e) :
    later = [] ∧ rest = .throw e := by
  induction past generalizing program with
  | nil =>
    cases run with
    | call reply tail =>
      rw [(escapes reply).1 e faulty] at tail
      exact (Program.runs_throw_iff e).1 tail
  | cons first past ih =>
    cases run with
    | call reply tail => exact ih (escapes reply).2 tail

end Escapes

def Raises (fault : Call Op Reply → Option ε) : Program Op Reply ε α → Prop
  | .pure _ => True
  | .throw _ => False
  | .call op resume => ∀ reply,
      (∀ e, fault ⟨op, reply⟩ = some e → resume reply = .throw e) ∧
        (fault ⟨op, reply⟩ = none → Raises fault (resume reply))

namespace Raises
variable {fault : Call Op Reply → Option ε}

theorem bind {program : Program Op Reply ε α} {next : α → Program Op Reply ε β}
    (first : Raises fault program) (rest : ∀ value, Raises fault (next value)) :
    Raises fault (program.bind next) := by
  induction program with
  | pure value => exact rest value
  | throw error => exact first.elim
  | call op resume ih =>
    refine fun reply => ⟨fun e faulty => ?_, fun sound => ih reply ((first reply).2 sound)⟩
    exact congrArg (·.bind next) ((first reply).1 e faulty)

theorem ask {op : Op} {reads : Reply op → Except ε α}
    (throws : ∀ reply e, fault ⟨op, reply⟩ = some e ↔ reads reply = .error e) :
    Raises fault (Program.call op fun reply => Program.ofExcept (reads reply)) := by
  refine fun reply => ⟨fun e faulty => congrArg Program.ofExcept ((throws reply e).1 faulty), ?_⟩
  intro sound
  cases result : reads reply with
  | ok value =>
    dsimp only
    rw [result]
    trivial
  | error e => simp [(throws reply e).2 result] at sound

theorem tell {op : Op} {resume : Reply op → Program Op Reply ε α}
    (sound : ∀ reply, fault ⟨op, reply⟩ = none) (rest : ∀ reply, Raises fault (resume reply)) :
    Raises fault (Program.call op resume) := by
  refine fun reply => ⟨fun e faulty => ?_, fun _ => rest reply⟩
  rw [sound reply] at faulty
  contradiction

theorem ite {p : Prop} [Decidable p] {yes no : Program Op Reply ε α} (hyes : Raises fault yes)
    (hno : Raises fault no) : Raises fault (if p then yes else no) := by
  split
  · exact hyes
  · exact hno

theorem escapes {narrower : Call Op Reply → Option ε} {program : Program Op Reply ε α}
    (raises : Raises fault program)
    (among : ∀ call e, narrower call = some e → fault call = some e) :
    Escapes narrower program := by
  induction program with
  | pure value => trivial
  | throw error => trivial
  | call op resume ih =>
    refine fun reply => ⟨fun e faulty => (raises reply).1 e (among _ e faulty), ?_⟩
    cases hfault : fault ⟨op, reply⟩ with
    | none => exact ih reply ((raises reply).2 hfault)
    | some e =>
      rw [(raises reply).1 e hfault]
      trivial

/-- Either no call was answered by a fault and the program ends with a value, or the last call was
the only one and the program ends with its fault. -/
theorem returns {program : Program Op Reply ε α} {past : List (Call Op Reply)}
    {result : Except ε α} (raises : Raises fault program) (returns : program.Returns past result) :
    ((∀ call ∈ past, fault call = none) ∧ ∃ value, result = .ok value) ∨
      ∃ before call e, past = before ++ [call] ∧ fault call = some e ∧
        (∀ other ∈ before, fault other = none) ∧ result = .error e := by
  induction program generalizing past with
  | pure value =>
    obtain ⟨rfl, rfl⟩ := (Program.returns_pure_iff value).1 returns
    exact .inl ⟨by simp, value, rfl⟩
  | throw error => exact raises.elim
  | call op resume ih =>
    obtain ⟨reply, later, rfl, tail⟩ := (Program.returns_call_iff op resume).1 returns
    cases hfault : fault ⟨op, reply⟩ with
    | some e =>
      rw [(raises reply).1 e hfault, Program.returns_throw_iff] at tail
      obtain ⟨rfl, rfl⟩ := tail
      exact .inr ⟨[], _, e, rfl, hfault, by simp, rfl⟩
    | none =>
      rcases ih reply ((raises reply).2 hfault) tail with
        ⟨sound, value, hvalue⟩ | ⟨before, call, e, rfl, hcall, sound, hresult⟩
      · exact .inl ⟨List.forall_mem_cons.2 ⟨hfault, sound⟩, value, hvalue⟩
      · exact .inr ⟨_ :: before, call, e, rfl, hcall, List.forall_mem_cons.2 ⟨hfault, sound⟩,
          hresult⟩

end Raises
end Effects
