import ExferHonor.Effects.Attempt
import ExferHonor.Service.OnPaid

/-! The loop of `onPaid` by itself, over any engine: what its calls do and what they reply is left
open. One tick at a time, and the first terminal event settles it. -/
namespace ExferHonor
open Effects

variable {EOp : Type} {EReply : EOp → Type}

structure Facade (EOp : Type) (EReply : EOp → Type) where
  clockNow : Program EOp EReply Thrown Int
  register : Program EOp EReply Thrown RegisterResult
  markObserved : Int → Program EOp EReply Thrown ObserveResult
  honor : Program EOp EReply Thrown HonorOutcome

abbrev FacadeCall (EOp : Type) (EReply : EOp → Type) :=
  Call (EOp ⊕ LoopOp) (Sum.elim EReply LoopOp.Reply)
abbrev FacadeAsync (EOp : Type) (EReply : EOp → Type) (α : Type) :=
  Program (EOp ⊕ LoopOp) (Sum.elim EReply LoopOp.Reply) Thrown α

def LoopOp.ask (op : LoopOp) : FacadeAsync EOp EReply op.Reply := .call (.inr op) .pure

namespace Facade

def settle (outcome : HonorOutcome) : FacadeAsync EOp EReply Unit :=
  match outcome with
  | .honored _ => LoopOp.ask (.finish (.honored outcome))
  | .deliveryFailed => pure ()
  | .notReady (.decline reason _) => LoopOp.ask (.finish (.declined reason outcome))
  | .notReady _ => pure ()

def surface (e : Thrown) : FacadeAsync EOp EReply Unit :=
  if isRetryableFault e then pure () else LoopOp.ask (.fail e)

variable (facade : Facade EOp EReply)

def observeAndHonor : FacadeAsync EOp EReply Unit := do
  let now ← facade.clockNow.alongside
  let _ ← (facade.markObserved now).alongside
  let outcome ← facade.honor.alongside
  settle outcome

def tick : FacadeAsync EOp EReply Unit := do
  if ← LoopOp.ask .enterTick then do
    facade.observeAndHonor.handle surface
    LoopOp.ask .leaveTick
  else pure ()

def startup : FacadeAsync EOp EReply Unit := do
  let going ← (facade.register.alongside.bind fun _ => .pure true).handle
    fun e => if isRetryableFault e then .pure true
      else (LoopOp.ask (.fail e)).bind fun _ => .pure false
  if going then LoopOp.ask .startTimer else pure ()

def cancel : FacadeAsync EOp EReply Unit := LoopOp.ask (.finish .cancelled)

def program : LoopTask → FacadeAsync EOp EReply Unit
  | .startup => facade.startup
  | .tick => facade.tick
  | .cancel => cancel

end Facade

/-- The variables of one loop; `settled` is how the promise `done` has settled. -/
structure LoopVars where
  settled : Option (Except Thrown OnPaidResult)
  ticking : Bool
  timer : Bool

namespace LoopVars

def fresh : LoopVars := ⟨none, false, false⟩

/-- The first of `finish` and `fail` settles the loop and stops its timer. -/
def settle (vars : LoopVars) (result : Except Thrown OnPaidResult) : LoopVars :=
  if vars.settled.isSome then vars else { vars with settled := some result, timer := false }

def perform (vars : LoopVars) : (op : LoopOp) → op.Reply × LoopVars
  | .enterTick =>
      if vars.settled.isSome || vars.ticking then (false, vars)
      else (true, { vars with ticking := true })
  | .leaveTick => ((), { vars with ticking := false })
  | .startTimer => if vars.settled.isSome then ((), vars) else ((), { vars with timer := true })
  | .finish result => ((), vars.settle (.ok result))
  | .fail e => ((), vars.settle (.error e))

end LoopVars

/-- One loop beside surroundings that answer the engine's calls with `perform` and change by
themselves as they like. -/
def Facade.system {E : Type} (facade : Facade EOp EReply)
    (perform : E → (op : EOp) → EReply op → EReply op × E) :
    System (E × LoopVars) (EOp ⊕ LoopOp) (Sum.elim EReply LoopOp.Reply) Thrown Unit LoopTask where
  program := facade.program
  perform := fun state op answer =>
    match op, answer with
    | .inl op, answer =>
        ((perform state.1 op answer).1, ((perform state.1 op answer).2, state.2))
    | .inr op, _ => ((state.2.perform op).1, (state.1, (state.2.perform op).2))
  mayStart := fun state task => task = .tick → state.2.timer = true
  mayShift := fun before after => after.2 = before.2

/-- A system that runs the loop of `facade` and keeps its variables where `vars` reads them. -/
structure Hosts {σ : Type} (facade : Facade EOp EReply) (vars : σ → LoopVars)
    (system : System σ (EOp ⊕ LoopOp) (Sum.elim EReply LoopOp.Reply) Thrown Unit LoopTask) :
    Prop where
  program : system.program = facade.program
  port : ∀ state (op : EOp) answer, vars (system.perform state (.inl op) answer).2 = vars state
  replied : ∀ state (op : LoopOp) answer,
    (system.perform state (.inr op) answer).1 = ((vars state).perform op).1
  changed : ∀ state (op : LoopOp) answer,
    vars (system.perform state (.inr op) answer).2 = ((vars state).perform op).2
  timed : ∀ state, system.mayStart state .tick → (vars state).timer = true
  shifted : ∀ before after, system.mayShift before after → vars after = vars before

theorem Facade.hosts {E : Type} (facade : Facade EOp EReply)
    (perform : E → (op : EOp) → EReply op → EReply op × E) :
    Hosts facade Prod.snd (facade.system perform) where
  program := rfl
  port _ _ _ := rfl
  replied _ _ _ := rfl
  changed _ _ _ := rfl
  timed _ may := may rfl
  shifted _ _ may := may

namespace OnPaid
variable {G : Type}

def facade (loop : OnPaid G) : Facade (Op G) Op.Reply where
  clockNow := Port.clockNow
  register := loop.engine.register loop.quote {}
  markObserved := HonorEngine.markObserved loop.quote.key
  honor := loop.engine.honor loop.quote.key loop.deliver loop.opts

theorem settle_eq (outcome : HonorOutcome) :
    settle (G := G) outcome = Facade.settle outcome := by
  cases outcome with
  | honored outpoint => rfl
  | deliveryFailed => rfl
  | notReady verdict => cases verdict <;> rfl

theorem program_eq (loop : OnPaid G) : loop.program = loop.facade.program := by
  funext task
  cases task with
  | startup => rfl
  | tick =>
    unfold program Facade.program tick Facade.tick observeAndHonor Facade.observeAndHonor
    rw [funext settle_eq]
    rfl
  | cancel => rfl

end OnPaid

def LoopState.vars {G : Type} (state : LoopState G) : LoopVars :=
  ⟨state.settled, state.ticking, state.timer⟩

namespace LoopState
variable {G : Type}

theorem settle_vars (state : LoopState G) (result : Except Thrown OnPaidResult) :
    (state.settle result).vars = state.vars.settle result := by
  by_cases hsettled : state.settled.isSome = true <;>
    simp [settle, LoopVars.settle, vars, hsettled]

theorem performOwn_eq (state : LoopState G) (op : LoopOp) :
    (state.performOwn op).1 = (state.vars.perform op).1 ∧
      (state.performOwn op).2.vars = (state.vars.perform op).2 := by
  cases op with
  | leaveTick => exact ⟨rfl, rfl⟩
  | enterTick =>
    by_cases barred : (state.settled.isSome || state.ticking) = true <;>
      simp [performOwn, LoopVars.perform, vars, barred]
  | startTimer =>
    by_cases hsettled : state.settled.isSome = true <;>
      simp [performOwn, LoopVars.perform, vars, hsettled]
  | finish result => exact ⟨rfl, state.settle_vars _⟩
  | fail e => exact ⟨rfl, state.settle_vars _⟩

theorem performPort_vars (state : LoopState G) (op : Op G) (answer : op.Reply) :
    (state.performPort op answer).2.vars = state.vars := by
  unfold performPort
  split <;> rfl

end LoopState

theorem OnPaid.hosts {G : Type} (loop : OnPaid G) :
    Hosts loop.facade LoopState.vars loop.system where
  program := loop.program_eq
  port state op answer := state.performPort_vars op answer
  replied state op _ := (state.performOwn_eq op).1
  changed state op _ := (state.performOwn_eq op).2
  timed _ may := may
  shifted _ _ may := by rw [show _ = _ from may]; rfl

end ExferHonor
