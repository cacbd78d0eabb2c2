import ExferHonor.Service.Loop

/-! What a task of the loop has done when it makes a call, whatever the engine replies. -/
namespace ExferHonor
namespace Facade
open Effects Program

variable {EOp : Type} {EReply : EOp → Type} (facade : Facade EOp EReply)

def poll : Program EOp EReply Thrown HonorOutcome := do
  let now ← facade.clockNow
  let _ ← facade.markObserved now
  facade.honor

def settlement : Except Thrown HonorOutcome → Option (Except Thrown OnPaidResult)
  | .ok (.honored outpoint) => some (.ok (.honored (.honored outpoint)))
  | .ok .deliveryFailed => none
  | .ok (.notReady (.decline reason detail)) =>
      some (.ok (.declined reason (.notReady (.decline reason detail))))
  | .ok (.notReady _) => none
  | .error e => if isRetryableFault e then none else some (.error e)

def settlingOp : Except Thrown OnPaidResult → LoopOp
  | .ok result => .finish result
  | .error e => .fail e

def settling : Except Thrown OnPaidResult → FacadeCall EOp EReply
  | .ok result => ⟨.inr (.finish result), ()⟩
  | .error e => ⟨.inr (.fail e), ()⟩

def conclude : Option (Except Thrown OnPaidResult) → FacadeAsync EOp EReply Unit
  | none => .pure ()
  | some (.ok result) => LoopOp.ask (.finish result)
  | some (.error e) => LoopOp.ask (.fail e)

def after (ended : Except Thrown HonorOutcome) : FacadeAsync EOp EReply Unit :=
  (conclude (settlement ended)).bind fun _ => LoopOp.ask .leaveTick

def entered (facade : Facade EOp EReply) : Bool → FacadeAsync EOp EReply Unit
  | true => facade.poll.attempt.alongside.bind after
  | false => .pure ()

def registered : Except Thrown RegisterResult → FacadeAsync EOp EReply Unit
  | .ok _ => LoopOp.ask .startTimer
  | .error e => if isRetryableFault e then LoopOp.ask .startTimer else LoopOp.ask (.fail e)

theorem settle_handle (outcome : HonorOutcome) :
    (settle outcome : FacadeAsync EOp EReply Unit).handle surface =
      conclude (settlement (.ok outcome)) := by
  cases outcome with
  | honored outpoint => rfl
  | deliveryFailed => rfl
  | notReady verdict => cases verdict <;> rfl

theorem surface_eq (e : Thrown) :
    (surface e : FacadeAsync EOp EReply Unit) = conclude (settlement (.error e)) := by
  by_cases retryable : isRetryableFault e = true <;>
    simp [surface, settlement, conclude, retryable]

theorem tick_eq : facade.tick = (LoopOp.ask .enterTick).bind facade.entered := by
  have body : facade.observeAndHonor.handle surface =
      facade.poll.attempt.alongside.bind fun ended => conclude (settlement ended) := by
    have flat : facade.observeAndHonor = facade.poll.alongside.bind settle := by
      simp only [observeAndHonor, poll, bind_eq, alongside_bind, bind_assoc]
    rw [flat, handle_bind, alongside_attempt]
    congr 1
    funext ended
    cases ended with
    | ok outcome => exact settle_handle outcome
    | error e => exact surface_eq e
  unfold tick
  rw [bind_eq]
  congr 1
  funext passed
  cases passed with
  | false => rfl
  | true =>
    change (facade.observeAndHonor.handle surface).bind _ = _
    rw [body, bind_assoc]
    rfl

theorem startup_eq : facade.startup = facade.register.attempt.alongside.bind registered := by
  unfold startup
  rw [handle_bind, alongside_attempt, bind_eq, bind_assoc]
  congr 1
  funext ended
  cases ended with
  | ok result => rfl
  | error e =>
    simp only [either, registered]
    split <;> rfl

def entering : FacadeCall EOp EReply := ⟨.inr .enterTick, true⟩

/-- The calls of a tick before each kind of call it makes. -/
inductive TickCall : List (FacadeCall EOp EReply) → EOp ⊕ LoopOp → Prop
  | enter : TickCall [] (.inr .enterTick)
  | port {own op inner} (run : facade.poll.Runs own (.call op inner)) :
      TickCall (entering :: own.map Call.alongside) (.inl op)
  | settle {own ended result} (returns : facade.poll.Returns own ended)
      (settles : settlement ended = some result) :
      TickCall (entering :: own.map Call.alongside) (.inr (settlingOp result))
  | leave {own ended} (returns : facade.poll.Returns own ended) :
      TickCall (entering :: (own.map Call.alongside ++ (settlement ended).toList.map settling))
        (.inr .leaveTick)

inductive StartupCall : List (FacadeCall EOp EReply) → EOp ⊕ LoopOp → Prop
  | port {own op inner} (run : facade.register.Runs own (.call op inner)) :
      StartupCall (own.map Call.alongside) (.inl op)
  | timer {own ended} (returns : facade.register.Returns own ended)
      (goes : ∀ e, ended = .error e → isRetryableFault e = true) :
      StartupCall (own.map Call.alongside) (.inr .startTimer)
  | fail {own e} (returns : facade.register.Returns own (.error e))
      (fatal : isRetryableFault e = false) :
      StartupCall (own.map Call.alongside) (.inr (.fail e))

variable {facade} {past : List (FacadeCall EOp EReply)} {op : EOp ⊕ LoopOp}
  {resume : Sum.elim EReply LoopOp.Reply op → FacadeAsync EOp EReply Unit}

theorem ask_runs {own : LoopOp} {next : own.Reply → FacadeAsync EOp EReply Unit}
    (run : ((LoopOp.ask own).bind next).Runs past (.call op resume)) :
    (past = [] ∧ op = .inr own) ∨
      ∃ reply later, past = ⟨.inr own, reply⟩ :: later ∧
        (next reply).Runs later (.call op resume) := by
  rcases (runs_call_iff (Sum.inr own) _).1 run with ⟨rfl, hcall⟩ | ⟨reply, later, rfl, tail⟩
  · cases hcall
    exact .inl ⟨rfl, rfl⟩
  · exact .inr ⟨reply, later, rfl, tail⟩

theorem asks_last {α : Type} {own : LoopOp} {value : own.Reply → α}
    {resume : Sum.elim EReply LoopOp.Reply op → FacadeAsync EOp EReply α}
    (run : (.call (.inr own) fun reply => .pure (value reply) :
      FacadeAsync EOp EReply α).Runs past (.call op resume)) :
    past = [] ∧ op = .inr own := by
  rcases (runs_call_iff _ _).1 run with ⟨rfl, hcall⟩ | ⟨_, _, _, tail⟩
  · cases hcall
    exact ⟨rfl, rfl⟩
  · cases ((runs_pure_iff _).1 tail).2

theorem after_runs {ended : Except Thrown HonorOutcome}
    (run : (after ended : FacadeAsync EOp EReply Unit).Runs past (.call op resume)) :
    (∃ result, settlement ended = some result ∧ past = [] ∧
        op = .inr (settlingOp result)) ∨
      (past = (settlement ended).toList.map settling ∧ op = .inr .leaveTick) := by
  unfold after at run
  cases hsettles : settlement ended with
  | none =>
    rw [hsettles] at run
    exact .inr (asks_last run)
  | some result =>
    rw [hsettles] at run
    cases result with
    | ok result =>
      rcases ask_runs run with ⟨rfl, rfl⟩ | ⟨_, _, rfl, tail⟩
      · exact .inl ⟨_, rfl, rfl, rfl⟩
      · obtain ⟨rfl, rfl⟩ := asks_last tail
        exact .inr ⟨rfl, rfl⟩
    | error e =>
      rcases ask_runs run with ⟨rfl, rfl⟩ | ⟨_, _, rfl, tail⟩
      · exact .inl ⟨_, rfl, rfl, rfl⟩
      · obtain ⟨rfl, rfl⟩ := asks_last tail
        exact .inr ⟨rfl, rfl⟩

theorem tick_calls (run : facade.tick.Runs past (.call op resume)) : facade.TickCall past op := by
  rw [tick_eq] at run
  rcases ask_runs run with ⟨rfl, rfl⟩ | ⟨passed, later, rfl, tail⟩
  · exact .enter
  · cases passed with
    | false => cases ((runs_pure_iff _).1 tail).2
    | true =>
      rcases tail.of_attempt_alongside_bind with ⟨own, inner, rfl, trying, waits, hrest⟩ |
        ⟨own, ended, last, rfl, returns, ending⟩
      · cases inner with
        | pure value => cases waits
        | throw error => cases waits
        | call op resume =>
          cases hrest
          exact .port trying
      · rcases after_runs ending with ⟨result, hsettles, rfl, rfl⟩ | ⟨rfl, rfl⟩
        · rw [List.append_nil]
          exact .settle returns hsettles
        · exact .leave returns

theorem startup_calls (run : facade.startup.Runs past (.call op resume)) :
    facade.StartupCall past op := by
  rw [startup_eq] at run
  rcases run.of_attempt_alongside_bind with ⟨own, inner, rfl, trying, waits, hrest⟩ |
    ⟨own, ended, last, rfl, returns, ending⟩
  · cases inner with
    | pure value => cases waits
    | throw error => cases waits
    | call op resume =>
      cases hrest
      exact .port trying
  · cases ended with
    | ok result =>
      obtain ⟨rfl, rfl⟩ := asks_last ending
      rw [List.append_nil]
      exact .timer returns nofun
    | error e =>
      by_cases retryable : isRetryableFault e = true
      · rw [registered, if_pos retryable] at ending
        obtain ⟨rfl, rfl⟩ := asks_last ending
        rw [List.append_nil]
        refine .timer returns fun other hother => ?_
        cases hother
        exact retryable
      · rw [registered, if_neg retryable] at ending
        obtain ⟨rfl, rfl⟩ := asks_last ending
        rw [List.append_nil]
        exact .fail returns (by simpa using retryable)

theorem cancel_calls
    (run : (cancel : FacadeAsync EOp EReply Unit).Runs past (.call op resume)) :
    past = [] ∧ op = .inr (.finish .cancelled) :=
  asks_last run

theorem program_runs_port {task : LoopTask} {port : EOp}
    {resume : EReply port → FacadeAsync EOp EReply Unit}
    (run : (facade.program task).Runs past (.call (.inl port) resume)) :
    (task = .startup ∧ ∃ own inner, past = own.map Call.alongside ∧
        facade.register.Runs own (.call port inner)) ∨
      (task = .tick ∧ ∃ own inner, past = entering :: own.map Call.alongside ∧
        facade.poll.Runs own (.call port inner)) := by
  cases task with
  | startup =>
    cases startup_calls run with
    | port running => exact .inl ⟨rfl, _, _, rfl, running⟩
  | tick =>
    cases tick_calls run with
    | port trying => exact .inr ⟨rfl, _, _, rfl, trying⟩
  | cancel => cases (cancel_calls run).2

end Facade
end ExferHonor
