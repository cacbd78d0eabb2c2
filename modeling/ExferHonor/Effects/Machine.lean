import Mathlib.Logic.Basic

/-! Machines that answer one input after the other, and when two of them cannot be told apart. -/
namespace Effects

abbrev Machine (State Input Output : Type) := State → Input → Output × State

variable {State State' Input Output : Type}

namespace Machine

def replay (machine : Machine State Input Output) : State → List Input → List Output × State
  | state, [] => ([], state)
  | state, input :: later =>
      let answered := machine state input
      let rest := machine.replay answered.2 later
      (answered.1 :: rest.1, rest.2)

/-- From related states both machines answer an allowed input alike and stay related. -/
def Agrees (machine : Machine State Input Output) (other : Machine State' Input Output)
    (related : State → State' → Prop) (allowed : Input → Prop) : Prop :=
  ∀ state state' input, related state state' → allowed input →
    (machine state input).1 = (other state' input).1 ∧
      related (machine state input).2 (other state' input).2

theorem Agrees.replay {machine : Machine State Input Output} {other : Machine State' Input Output}
    {related : State → State' → Prop} {allowed : Input → Prop}
    (agrees : Agrees machine other related allowed) {state : State} {state' : State'}
    (start : related state state') {inputs : List Input} (all : ∀ input ∈ inputs, allowed input) :
    (machine.replay state inputs).1 = (other.replay state' inputs).1 ∧
      related (machine.replay state inputs).2 (other.replay state' inputs).2 := by
  induction inputs generalizing state state' with
  | nil => exact ⟨rfl, start⟩
  | cons input later ih =>
    obtain ⟨first, rest⟩ := List.forall_mem_cons.1 all
    obtain ⟨answer, stays⟩ := agrees state state' input start first
    obtain ⟨answers, ends⟩ := ih stays rest
    refine ⟨?_, ends⟩
    unfold Machine.replay
    dsimp only
    rw [answer, answers]

end Machine
end Effects
