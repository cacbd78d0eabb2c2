import ExferHonor.Effects.Interpret

/-! Programs that keep to the rules of the party they talk to. A protocol says what may be called
in each of its states and where each reply leads; a program follows it if it makes no other calls,
whatever the replies. -/
namespace Effects

structure Protocol (S Op : Type) (Reply : Op → Type) where
  may : S → Op → Prop
  moves : S → (op : Op) → Reply op → S → Prop

variable {S Op Op' : Type} {Reply : Op → Type} {Reply' : Op' → Type} {ε α β : Type}

namespace Program
variable {protocol : Protocol S Op Reply}

/-- Started in `state`, the program only makes calls it may make, and where it ends with a result,
`ends` holds of the result and the state reached. -/
def Follows (protocol : Protocol S Op Reply) :
    S → Program Op Reply ε α → (Except ε α → S → Prop) → Prop
  | state, .pure value, ends => ends (.ok value) state
  | state, .throw error, ends => ends (.error error) state
  | state, .call op resume, ends => protocol.may state op ∧
      ∀ reply after, protocol.moves state op reply after →
        (resume reply).Follows protocol after ends

namespace Follows
variable {state : S} {program : Program Op Reply ε α} {ends wider : Except ε α → S → Prop}

theorem mono (follows : program.Follows protocol state ends)
    (weakens : ∀ result after, ends result after → wider result after) :
    program.Follows protocol state wider := by
  induction program generalizing state with
  | pure value => exact weakens _ _ follows
  | throw error => exact weakens _ _ follows
  | call op resume ih => exact ⟨follows.1, fun reply after moves => ih _ (follows.2 _ _ moves)⟩

theorem bind {next : α → Program Op Reply ε β} {last : Except ε β → S → Prop}
    (first : program.Follows protocol state fun result after =>
      match result with
      | .ok value => (next value).Follows protocol after last
      | .error error => last (.error error) after) :
    (program.bind next).Follows protocol state last := by
  induction program generalizing state with
  | pure value => exact first
  | throw error => exact first
  | call op resume ih => exact ⟨first.1, fun reply after moves => ih _ (first.2 _ _ moves)⟩

theorem handle {handler : ε → Program Op Reply ε α}
    (body : program.Follows protocol state fun result after =>
      match result with
      | .ok value => ends (.ok value) after
      | .error error => (handler error).Follows protocol after ends) :
    (program.handle handler).Follows protocol state ends := by
  induction program generalizing state with
  | pure value => exact body
  | throw error => exact body
  | call op resume ih => exact ⟨body.1, fun reply after moves => ih _ (body.2 _ _ moves)⟩

theorem attempt {last : Except ε (Except ε α) → S → Prop}
    (body : program.Follows protocol state fun result after => last (.ok result) after) :
    program.attempt.Follows protocol state last := by
  induction program generalizing state with
  | pure value => exact body
  | throw error => exact body
  | call op resume ih => exact ⟨body.1, fun reply after moves => ih _ (body.2 _ _ moves)⟩

theorem ofExcept {result : Except ε α} (ended : ends result state) :
    (Program.ofExcept result : Program Op Reply ε α).Follows protocol state ends := by
  cases result <;> exact ended

theorem ask {op : Op} {reads : Reply op → Except ε α} (may : protocol.may state op)
    (replied : ∀ reply after, protocol.moves state op reply after → ends (reads reply) after) :
    (Program.call op fun reply => Program.ofExcept (reads reply)).Follows protocol state ends :=
  ⟨may, fun reply after moves => ofExcept (replied reply after moves)⟩

theorem interpret {program : Program Op' Reply' ε α}
    {handler : (op : Op') → Program Op Reply ε (Reply' op)} {stays : S → Prop}
    (each : ∀ op before, stays before →
      (handler op).Follows protocol before fun _ after => stays after)
    (within : stays state) :
    (program.interpret handler).Follows protocol state fun _ after => stays after := by
  induction program generalizing state with
  | pure value => exact within
  | throw error => exact within
  | call op resume ih =>
    refine bind ((each op state within).mono fun result after stayed => ?_)
    cases result with
    | ok reply => exact ih reply stayed
    | error error => exact stayed

theorem advance {op : Op} {resume : Reply op → Program Op Reply ε α}
    (follows : (Program.call op resume).Follows protocol state ends) {reply : Reply op} {after : S}
    (moves : protocol.moves state op reply after) : (resume reply).Follows protocol after ends :=
  follows.2 reply after moves

end Follows
end Program
end Effects
