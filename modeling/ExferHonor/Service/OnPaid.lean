import ExferHonor.Core.TaskCalls

/-! The façade's `onPaid`: register the quote, then tick on a timer until an outcome is terminal.
The loop has a few variables of its own beside the engine's ports. -/
namespace ExferHonor
open Effects

variable {G : Type}

inductive OnPaidResult where
  | honored (outcome : HonorOutcome)
  | declined (reason : DeclineReason) (outcome : HonorOutcome)
  | cancelled
  deriving DecidableEq, Repr

inductive LoopOp where
  | enterTick
  | leaveTick
  | startTimer
  | finish (result : OnPaidResult)
  | fail (e : Thrown)

abbrev LoopOp.Reply : LoopOp → Type
  | .enterTick => Bool
  | .leaveTick => Unit
  | .startTimer => Unit
  | .finish _ => Unit
  | .fail _ => Unit

abbrev LoopCall (G : Type) := Call (Op G ⊕ LoopOp) (Sum.elim Op.Reply LoopOp.Reply)
abbrev LoopAsync (G α : Type) :=
  Program (Op G ⊕ LoopOp) (Sum.elim Op.Reply LoopOp.Reply) Thrown α

namespace Loop

def enterTick : LoopAsync G Bool := .call (.inr .enterTick) .pure
def leaveTick : LoopAsync G Unit := .call (.inr .leaveTick) .pure
def startTimer : LoopAsync G Unit := .call (.inr .startTimer) .pure
def finish (result : OnPaidResult) : LoopAsync G Unit := .call (.inr (.finish result)) .pure
def fail (e : Thrown) : LoopAsync G Unit := .call (.inr (.fail e)) .pure

end Loop

/-- Retryable faults retry on the next tick; everything else is terminal. -/
def isRetryableFault : Thrown → Bool
  | .honorError .chainFault _ _ => true
  | .honorError .keystoreFault _ _ => true
  | .honorError .dbFault _ _ => true
  | .honorError .indexerFault _ _ => true
  | _ => false

structure OnPaid (G : Type) where
  engine : HonorEngine G
  quote : AcceptedQuote
  deliver : Deliver G
  rethrow : Bool

namespace OnPaid
variable (loop : OnPaid G)

def opts : RegisterOpts := { rethrowDeliveryErrors := loop.rethrow }

/-- A decline is terminal; a wait or a failed delivery is tried again at the next tick. -/
def settle (outcome : HonorOutcome) : LoopAsync G Unit :=
  match outcome with
  | .honored _ => Loop.finish (.honored outcome)
  | .deliveryFailed => pure ()
  | .notReady (.decline reason _) => Loop.finish (.declined reason outcome)
  | .notReady _ => pure ()

/-- The latch is set unconditionally, the engine enforces the window. -/
def observeAndHonor : LoopAsync G Unit := do
  let now ← Port.clockNow.alongside
  let _ ← (HonorEngine.markObserved loop.quote.key now).alongside
  let outcome ← (loop.engine.honor loop.quote.key loop.deliver loop.opts).alongside
  settle outcome

def surface (e : Thrown) : LoopAsync G Unit :=
  if isRetryableFault e then pure () else Loop.fail e

/-- One tick. A tick that finds another one running, or the loop settled, does nothing. -/
def tick : LoopAsync G Unit := do
  if ← Loop.enterTick then do
    loop.observeAndHonor.handle surface
    Loop.leaveTick
  else pure ()

/-- A transient fault of `register` does not keep the timer from starting. -/
def startup : LoopAsync G Unit := do
  let going ← ((loop.engine.register loop.quote {}).alongside.bind fun _ => .pure true).handle
    fun e => if isRetryableFault e then .pure true else (Loop.fail e).bind fun _ => .pure false
  if going then Loop.startTimer else pure ()

def cancel : LoopAsync G Unit := Loop.finish .cancelled

end OnPaid

inductive LoopTask where
  | startup
  | tick
  | cancel
  deriving DecidableEq, Repr

def OnPaid.program (loop : OnPaid G) : LoopTask → LoopAsync G Unit
  | .startup => loop.startup
  | .tick => loop.tick
  | .cancel => OnPaid.cancel

/-- The process with its loop, and what the chain lists at the moment. `settled` is how the
promise `done` has settled. -/
structure LoopState (G : Type) where
  world : World G
  listed : QuoteId → List RawSettlementCandidate
  settled : Option (Except Thrown OnPaidResult)
  ticking : Bool
  timer : Bool

namespace LoopState

def booted (db : Db G) (clock : Int) (listed : QuoteId → List RawSettlementCandidate) :
    LoopState G :=
  ⟨.booted db clock, listed, none, false, false⟩

def settle (state : LoopState G) (result : Except Thrown OnPaidResult) : LoopState G :=
  if state.settled.isSome then state
  else { state with settled := some result, timer := false }

def performOwn (state : LoopState G) : (op : LoopOp) → op.Reply × LoopState G
  | .enterTick =>
      if state.settled.isSome || state.ticking then (false, state)
      else (true, { state with ticking := true })
  | .leaveTick => ((), { state with ticking := false })
  | .startTimer =>
      if state.settled.isSome then ((), state) else ((), { state with timer := true })
  | .finish result => ((), state.settle (.ok result))
  | .fail e => ((), state.settle (.error e))

/-- The candidates found are those listed at the moment; the service runs on SQLite. -/
def performPort (state : LoopState G) : (op : Op G) → op.Reply → op.Reply × LoopState G
  | .findSettlementsByQuoteId quoteId, .ok _ => (.ok (state.listed quoteId), state)
  | op, answer =>
      ((World.perform .sync state.world op answer).1,
        { state with world := (World.perform .sync state.world op answer).2 })

def perform (state : LoopState G) : (op : Op G ⊕ LoopOp) → Sum.elim Op.Reply LoopOp.Reply op →
    Sum.elim Op.Reply LoopOp.Reply op × LoopState G
  | .inl op, answer => state.performPort op answer
  | .inr op, _ => state.performOwn op

/-- The timer fires while it is on; the first tick is kicked when it is set. -/
def mayStart (state : LoopState G) : LoopTask → Prop
  | .startup => True
  | .tick => state.timer = true
  | .cancel => True

def mayShift (before after : LoopState G) : Prop :=
  after = { before with
    world := { before.world with clock := after.world.clock }
    listed := after.listed }

end LoopState

abbrev LoopEvent (G : Type) :=
  Event (LoopState G) (Op G ⊕ LoopOp) (Sum.elim Op.Reply LoopOp.Reply) LoopTask
abbrev LoopPool (G : Type) :=
  Pool (LoopState G) (Op G ⊕ LoopOp) (Sum.elim Op.Reply LoopOp.Reply) Thrown Unit LoopTask

def OnPaid.system (loop : OnPaid G) :
    System (LoopState G) (Op G ⊕ LoopOp) (Sum.elim Op.Reply LoopOp.Reply) Thrown Unit LoopTask where
  program := loop.program
  perform := LoopState.perform
  mayStart := LoopState.mayStart
  mayShift := LoopState.mayShift

end ExferHonor
