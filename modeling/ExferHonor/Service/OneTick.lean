import ExferHonor.Service.LoopCalls
import ExferHonor.Service.TickPorts

/-! The law of the loop: at most one tick past its guard, and `done` settled by the first terminal
event, over every interleaving of ticks, start-ups and cancels and whatever the engine replies. -/
namespace ExferHonor
namespace Facade
open Effects Program

variable {EOp : Type} {EReply : EOp → Type}

abbrev FacadeThread (EOp : Type) (EReply : EOp → Type) :=
  Thread (EOp ⊕ LoopOp) (Sum.elim EReply LoopOp.Reply) Thrown Unit LoopTask
abbrev FacadePool (σ EOp : Type) (EReply : EOp → Type) :=
  Pool σ (EOp ⊕ LoopOp) (Sum.elim EReply LoopOp.Reply) Thrown Unit LoopTask

def enters : FacadeCall EOp EReply → Bool
  | ⟨.inr .enterTick, passed⟩ => show Bool from passed
  | _ => false

def leaves : FacadeCall EOp EReply → Bool
  | ⟨.inr .leaveTick, _⟩ => true
  | _ => false

def inside (thread : FacadeThread EOp EReply) : Bool :=
  thread.past.any enters && !thread.past.any leaves

def settles : FacadeCall EOp EReply → Option (Except Thrown OnPaidResult)
  | ⟨.inr (.finish result), _⟩ => some (.ok result)
  | ⟨.inr (.fail e), _⟩ => some (.error e)
  | _ => none

variable (facade : Facade EOp EReply)

/-- The terminal events: an outcome or a fault of a tick that ends the loop, a fault of `register`
that does, and a cancel. -/
inductive Terminal : LoopTask → List (FacadeCall EOp EReply) → Except Thrown OnPaidResult → Prop
  | tick {own ended result} (returns : facade.poll.Returns own ended)
      (settles : settlement ended = some result) :
      Terminal .tick (entering :: own.map Call.alongside) result
  | startup {own e} (returns : facade.register.Returns own (.error e))
      (fatal : isRetryableFault e = false) : Terminal .startup (own.map Call.alongside) (.error e)
  | cancel : Terminal .cancel [] (.ok .cancelled)

def Honored (thread : FacadeThread EOp EReply) : Prop :=
  thread.task = .tick ∧ ∃ own later outpoint,
    thread.past = entering :: (own.map Call.alongside ++ later) ∧
      facade.poll.Returns own (.ok (.honored outpoint))

def Concludes (thread : FacadeThread EOp EReply) : Prop :=
  thread.task = .tick ∧ ∃ own later ended result,
    thread.past = entering :: (own.map Call.alongside ++ later) ∧
      facade.poll.Returns own ended ∧ settlement ended = some result

theorem Honored.concludes {facade : Facade EOp EReply} {thread : FacadeThread EOp EReply}
    (honored : facade.Honored thread) : facade.Concludes thread := by
  obtain ⟨htask, own, later, outpoint, hpast, returns⟩ := honored
  exact ⟨htask, own, later, _, _, hpast, returns, rfl⟩

def AtMostOne {T : Type} (holds : T → Prop) (threads : List T) : Prop :=
  ∀ (first second : Nat) t u, threads[first]? = some t → threads[second]? = some u →
    holds t → holds u → first = second

structure Law {σ : Type} (vars : σ → LoopVars) (pool : FacadePool σ EOp EReply) : Prop where
  exclusive : AtMostOne (inside · = true) pool.threads
  first : (vars pool.shared).settled = pool.log.findSome? fun event => settles event.call
  image : ∀ event ∈ pool.log, ∀ result,
    settles event.call = some result ↔ facade.Terminal event.task event.past result
  kept : ∀ event ∈ pool.log, ∀ result, (vars event.before).settled = some result →
    (vars event.after).settled = some result
  stopped : (vars pool.shared).settled.isSome = true → (vars pool.shared).timer = false
  guarded : ∀ event ∈ pool.log, enters event.call = true → (vars event.before).settled = none
  once : AtMostOne facade.Honored pool.threads

end Facade

namespace LoopVars
open Facade
variable {EOp : Type} {EReply : EOp → Type} (vars : LoopVars)

theorem settle_settled (result : Except Thrown OnPaidResult) :
    (vars.settle result).settled = vars.settled.or (some result) := by
  unfold settle
  cases hsettled : vars.settled <;> simp [hsettled]

theorem settle_stopped (result : Except Thrown OnPaidResult)
    (stopped : vars.settled.isSome = true → vars.timer = false) :
    (vars.settle result).timer = false := by
  unfold settle
  split
  next hsettled => exact stopped hsettled
  next => rfl

theorem perform_settled (op : LoopOp) (reply : op.Reply) :
    (vars.perform op).2.settled =
      vars.settled.or (settles (⟨.inr op, reply⟩ : FacadeCall EOp EReply)) := by
  cases op with
  | enterTick =>
    simp only [perform, settles, Option.or_none]
    split <;> rfl
  | leaveTick => simp only [perform, settles, Option.or_none]
  | startTimer =>
    simp only [perform, settles, Option.or_none]
    split <;> rfl
  | finish result => exact vars.settle_settled _
  | fail e => exact vars.settle_settled _

theorem perform_stopped (op : LoopOp)
    (stopped : vars.settled.isSome = true → vars.timer = false) :
    (vars.perform op).2.settled.isSome = true → (vars.perform op).2.timer = false := by
  cases op with
  | enterTick =>
    simp only [perform]
    split <;> exact stopped
  | leaveTick => exact stopped
  | startTimer =>
    simp only [perform]
    split
    next => exact stopped
    next unsettled => exact fun settled => absurd settled unsettled
  | finish result => exact fun _ => vars.settle_stopped _ stopped
  | fail e => exact fun _ => vars.settle_stopped _ stopped

theorem perform_enterTick (passed : (vars.perform .enterTick).1 = true) :
    vars.settled = none ∧ vars.ticking = false := by
  simp only [perform] at passed
  split at passed
  · contradiction
  · simp_all

theorem settle_going (result : Except Thrown OnPaidResult) :
    (vars.settle result).settled.isSome = true := by
  rw [settle_settled, Option.isSome_or, Option.isSome_some, Bool.or_true]

theorem perform_going (op : LoopOp) (going : vars.settled.isSome = true ∨ vars.timer = true) :
    (vars.perform op).2.settled.isSome = true ∨ (vars.perform op).2.timer = true := by
  cases op with
  | enterTick =>
    simp only [perform]
    split <;> exact going
  | leaveTick => exact going
  | startTimer =>
    simp only [perform]
    split
    next => exact going
    next => exact .inr rfl
  | finish result => exact .inl (vars.settle_going _)
  | fail e => exact .inl (vars.settle_going _)

theorem settle_ticking (result : Except Thrown OnPaidResult) :
    (vars.settle result).ticking = vars.ticking := by
  unfold settle
  split <;> rfl

theorem perform_ticking {op : LoopOp} (noEntry : op ≠ .enterTick) (noExit : op ≠ .leaveTick) :
    (vars.perform op).2.ticking = vars.ticking := by
  cases op with
  | enterTick => contradiction
  | leaveTick => contradiction
  | startTimer =>
    simp only [perform]
    split <;> rfl
  | finish result => exact vars.settle_ticking _
  | fail e => exact vars.settle_ticking _

end LoopVars

namespace Facade
open Effects Program
variable {EOp : Type} {EReply : EOp → Type} {facade : Facade EOp EReply} {task : LoopTask}
  {past : List (FacadeCall EOp EReply)} {op : EOp ⊕ LoopOp}
  {resume : Sum.elim EReply LoopOp.Reply op → FacadeAsync EOp EReply Unit}

theorem settles_settling (result : Except Thrown OnPaidResult)
    (reply : Sum.elim EReply LoopOp.Reply (.inr (settlingOp result))) :
    settles ⟨.inr (settlingOp result), reply⟩ = some result := by
  cases result <;> rfl

theorem terminal_startup_iff {own : List (Call EOp EReply)} {result : Except Thrown OnPaidResult} :
    facade.Terminal .startup (own.map Call.alongside) result ↔
      ∃ e, facade.register.Returns own (.error e) ∧ isRetryableFault e = false ∧
        result = .error e := by
  constructor
  · intro terminal
    generalize hpast : List.map Call.alongside _ = past at terminal
    cases terminal with
    | startup returns fatal =>
      cases List.map_injective_iff.2 Call.alongside_injective hpast
      exact ⟨_, returns, fatal, rfl⟩
  · rintro ⟨e, returns, fatal, rfl⟩
    exact .startup returns fatal

theorem terminal_tick_iff {own : List (Call EOp EReply)} {result : Except Thrown OnPaidResult} :
    facade.Terminal .tick (entering :: own.map Call.alongside) result ↔
      ∃ ended, facade.poll.Returns own ended ∧ settlement ended = some result := by
  constructor
  · intro terminal
    generalize hpast : entering :: List.map Call.alongside _ = past at terminal
    cases terminal with
    | tick returns settles =>
      cases List.map_injective_iff.2 Call.alongside_injective (List.cons.inj hpast).2
      exact ⟨_, returns, settles⟩
  · rintro ⟨ended, returns, settles⟩
    exact .tick returns settles

theorem settles_iff (run : (facade.program task).Runs past (.call op resume))
    (reply : Sum.elim EReply LoopOp.Reply op) (result : Except Thrown OnPaidResult) :
    settles ⟨op, reply⟩ = some result ↔ facade.Terminal task past result := by
  cases task with
  | cancel =>
    obtain ⟨rfl, rfl⟩ := cancel_calls run
    constructor
    · intro settled
      cases settled
      exact .cancel
    · intro terminal
      cases terminal
      rfl
  | startup =>
    cases startup_calls run with
    | port running =>
      refine ⟨nofun, fun terminal => ?_⟩
      obtain ⟨e, returns, -⟩ := terminal_startup_iff.1 terminal
      cases returns.not_waits running
    | timer returns goes =>
      refine ⟨nofun, fun terminal => ?_⟩
      obtain ⟨e, failing, fatal, -⟩ := terminal_startup_iff.1 terminal
      rw [goes e (returns.unique failing)] at fatal
      contradiction
    | fail returns fatal =>
      rw [terminal_startup_iff]
      constructor
      · intro settled
        cases settled
        exact ⟨_, returns, fatal, rfl⟩
      · rintro ⟨e, failing, -, rfl⟩
        cases returns.unique failing
        rfl
  | tick =>
    cases tick_calls run with
    | enter => exact ⟨nofun, nofun⟩
    | port trying =>
      refine ⟨nofun, fun terminal => ?_⟩
      obtain ⟨ended, returns, -⟩ := terminal_tick_iff.1 terminal
      cases returns.not_waits trying
    | settle returns hsettles =>
      rw [settles_settling, terminal_tick_iff]
      constructor
      · intro settled
        cases settled
        exact ⟨_, returns, hsettles⟩
      · rintro ⟨ended, again, settlesAgain⟩
        cases returns.unique again
        exact hsettles.symm.trans settlesAgain
    | leave returns =>
      refine ⟨nofun, fun terminal => ?_⟩
      generalize hpast : entering :: _ = past at terminal
      cases terminal with
      | tick again settlesAgain =>
        obtain ⟨-, hnone, rfl⟩ := returns.unique_of_append again
          ((List.cons.inj hpast).2.trans (List.append_nil _).symm)
        rw [settlesAgain] at hnone
        contradiction

theorem tick_leaves (run : facade.tick.Runs past (.call op resume))
    (leaving : op = .inr .leaveTick) :
    ∃ own ended, facade.poll.Returns own ended ∧
      past = entering :: (own.map Call.alongside ++ (settlement ended).toList.map settling) := by
  cases tick_calls run with
  | enter => cases leaving
  | port trying => cases leaving
  | @settle own ended result returns hsettles => cases result <;> cases leaving
  | leave returns => exact ⟨_, _, returns, rfl⟩

theorem concludes_leaves {extra : List (FacadeCall EOp EReply)}
    {rest : FacadeAsync EOp EReply Unit}
    (concludes : facade.Concludes ⟨task, past ++ extra, rest⟩)
    (run : (facade.program task).Runs past (.call op resume)) (leaving : op = .inr .leaveTick) :
    ∃ call ∈ past, (settles call).isSome = true := by
  obtain ⟨htask, own, later, ended, result, hpast, returns, hsettles⟩ := concludes
  rw [show task = .tick from htask] at run
  obtain ⟨other, last, left, rfl⟩ := tick_leaves run leaving
  rw [List.cons_append, List.append_assoc] at hpast
  obtain ⟨-, -, rfl⟩ := left.unique_of_append returns (List.cons.inj hpast).2
  refine ⟨settling result, by simp [hsettles], ?_⟩
  cases result <;> rfl

end Facade

namespace Hosts
open Effects Program Facade LoopVars
variable {EOp : Type} {EReply : EOp → Type} {facade : Facade EOp EReply} {σ : Type}
  {vars : σ → LoopVars}
  {system : System σ (EOp ⊕ LoopOp) (Sum.elim EReply LoopOp.Reply) Thrown Unit LoopTask}
  {initial : σ} {pool : FacadePool σ EOp EReply}

theorem performed_settled (host : Hosts facade vars system) (state : σ) (op : EOp ⊕ LoopOp)
    (answer : Sum.elim EReply LoopOp.Reply op) :
    (vars (system.perform state op answer).2).settled =
      (vars state).settled.or (settles ⟨op, (system.perform state op answer).1⟩) := by
  cases op with
  | inl op =>
    rw [host.port]
    exact Option.or_none.symm
  | inr op =>
    rw [host.changed]
    exact perform_settled _ op _

theorem performed_stopped (host : Hosts facade vars system) (state : σ) (op : EOp ⊕ LoopOp)
    (answer : Sum.elim EReply LoopOp.Reply op)
    (stopped : (vars state).settled.isSome = true → (vars state).timer = false) :
    (vars (system.perform state op answer).2).settled.isSome = true →
      (vars (system.perform state op answer).2).timer = false := by
  cases op with
  | inl op =>
    rw [host.port]
    exact stopped
  | inr op =>
    rw [host.changed]
    exact perform_stopped _ op stopped

theorem settled_first (host : Hosts facade vars system) (fresh : vars initial = .fresh)
    (reached : Reachable system initial pool) :
    (vars pool.shared).settled = pool.log.findSome? fun event => settles event.call := by
  refine reached.invariant (fun pool =>
    (vars pool.shared).settled = pool.log.findSome? fun event => settles event.call)
    (by rw [Pool.fresh, fresh]; rfl) fun before after _ ih step => ?_
  cases step with
  | start task may => exact ih
  | shift next may => rw [Pool.shift, host.shifted _ _ may, ih]
  | advance answer waiting =>
    rw [Pool.advance, List.findSome?_append, ← ih, List.findSome?_singleton]
    exact host.performed_settled _ _ answer

theorem stopped_of_settled (host : Hosts facade vars system) (fresh : vars initial = .fresh)
    (reached : Reachable system initial pool) :
    (vars pool.shared).settled.isSome = true → (vars pool.shared).timer = false := by
  refine reached.invariant (fun pool =>
    (vars pool.shared).settled.isSome = true → (vars pool.shared).timer = false)
    (by rw [Pool.fresh, fresh]; exact fun _ => rfl) fun before after _ ih step => ?_
  cases step with
  | start task may => exact ih
  | shift next may =>
    rw [Pool.shift, host.shifted _ _ may]
    exact ih
  | advance answer waiting => exact host.performed_stopped _ _ answer ih

theorem timer_runs (host : Hosts facade vars system) (reached : Reachable system initial pool) :
    (∃ thread ∈ pool.threads, thread.task = .tick) →
      (vars pool.shared).settled.isSome = true ∨ (vars pool.shared).timer = true := by
  refine reached.invariant (fun pool => (∃ thread ∈ pool.threads, thread.task = .tick) →
      (vars pool.shared).settled.isSome = true ∨ (vars pool.shared).timer = true)
    (by simp [Pool.fresh]) fun before after _ ih step => ?_
  cases step with
  | start task may =>
    rintro ⟨thread, hthread, htask⟩
    rcases List.mem_append.1 hthread with h | h
    · exact ih ⟨thread, h, htask⟩
    · rw [List.mem_singleton.1 h] at htask
      obtain rfl : task = .tick := htask
      exact .inr (host.timed _ may)
  | shift next may =>
    rw [Pool.shift, host.shifted _ _ may]
    exact ih
  | @advance index task past op resume answer waiting =>
    rintro ⟨thread, hthread, htask⟩
    have going := ih (by
      rcases List.mem_or_eq_of_mem_set hthread with h | rfl
      · exact ⟨thread, h, htask⟩
      · exact ⟨_, List.mem_of_getElem? waiting, htask⟩)
    cases op with
    | inl op =>
      rw [Pool.advance, host.port]
      exact going
    | inr op =>
      rw [Pool.advance, host.changed]
      exact perform_going _ op going

theorem image (host : Hosts facade vars system) (reached : Reachable system initial pool) :
    ∀ event ∈ pool.log, ∀ result,
      settles event.call = some result ↔ facade.Terminal event.task event.past result := by
  intro event hevent result
  obtain ⟨resume, run⟩ := reached.runs_to_event event hevent
  rw [host.program] at run
  exact settles_iff run event.call.reply result

theorem kept (host : Hosts facade vars system) (reached : Reachable system initial pool) :
    ∀ event ∈ pool.log, ∀ result, (vars event.before).settled = some result →
      (vars event.after).settled = some result := by
  intro event hevent result hsettled
  obtain ⟨answer, -, hafter⟩ := reached.performed event hevent
  rw [hafter, host.performed_settled, hsettled, Option.some_or]

theorem guarded (host : Hosts facade vars system) (reached : Reachable system initial pool) :
    ∀ event ∈ pool.log, enters event.call = true → (vars event.before).settled = none := by
  intro event hevent entered
  obtain ⟨answer, hreply, -⟩ := reached.performed event hevent
  obtain ⟨_, _, _, before, ⟨op, reply⟩, after⟩ := event
  unfold enters at entered
  split at entered
  next passed hcall =>
    cases hcall
    rw [host.replied] at hreply
    exact (perform_enterTick _ (hreply ▸ entered)).1
  next => contradiction

theorem settled_of_past (host : Hosts facade vars system) (fresh : vars initial = .fresh)
    (reached : Reachable system initial pool) {thread : FacadeThread EOp EReply}
    (present : thread ∈ pool.threads) {call : FacadeCall EOp EReply} (made : call ∈ thread.past)
    (settled : (settles call).isSome = true) : (vars pool.shared).settled.isSome = true := by
  obtain ⟨index, hindex⟩ := List.getElem?_of_mem present
  obtain ⟨past, later, hpast⟩ := List.mem_iff_append.1 made
  obtain ⟨event, hevent, -, -, -, rfl⟩ :=
    reached.event_of_past index thread hindex past call later hpast
  rw [host.settled_first fresh reached, List.findSome?_isSome_iff]
  exact ⟨event, hevent, settled⟩

end Hosts

namespace Facade
open Effects Program
variable {EOp : Type} {EReply : EOp → Type} {facade : Facade EOp EReply}

variable (facade) in
structure Exclusive (threads : List (FacadeThread EOp EReply)) (vars : LoopVars) : Prop where
  alone : AtMostOne (inside · = true) threads
  ticking : ∀ thread ∈ threads, inside thread = true → vars.ticking = true
  left : ∀ thread ∈ threads, facade.Concludes thread → inside thread = false →
    vars.settled.isSome = true ∧ ∀ other ∈ threads, inside other = false
  once : AtMostOne facade.Concludes threads

namespace Exclusive
variable {threads after : List (FacadeThread EOp EReply)} {vars next : LoopVars} {index : Nat}
  {moved : FacadeThread EOp EReply}

theorem others (exclusive : facade.Exclusive threads vars) {thread : FacadeThread EOp EReply}
    (present : threads[index]? = some thread) (isInside : inside thread = true) (other : Nat)
    (differs : index ≠ other) {t : FacadeThread EOp EReply} (found : threads[other]? = some t) :
    inside t = false ∧ ¬ facade.Concludes t := by
  have outside : inside t = false := by
    by_contra hinside
    exact differs (exclusive.alone index other thread t present found isInside
      (by simpa using hinside))
  refine ⟨outside, fun concluding => ?_⟩
  have hleft := (exclusive.left t (List.mem_of_getElem? found) concluding outside).2 thread
    (List.mem_of_getElem? present)
  rw [isInside] at hleft
  contradiction

theorem of_alone (changed : ∀ k, after[k]? = if index = k then some moved else threads[k]?)
    (others : ∀ k t, index ≠ k → threads[k]? = some t → inside t = false ∧ ¬ facade.Concludes t)
    (ticking : inside moved = true → next.ticking = true)
    (left : facade.Concludes moved → inside moved = false → next.settled.isSome = true) :
    facade.Exclusive after next := by
  have only {k : Nat} {t : FacadeThread EOp EReply} (found : after[k]? = some t) :
      (index = k ∧ t = moved) ∨ (index ≠ k ∧ inside t = false ∧ ¬ facade.Concludes t) := by
    rw [changed] at found
    split at found
    next same => exact .inl ⟨same, (Option.some.inj found).symm⟩
    next differs => exact .inr ⟨differs, others k t differs found⟩
  constructor
  · intro k l t u hk hl ht hu
    rcases only hk with ⟨rfl, -⟩ | ⟨-, houtside, -⟩
    · rcases only hl with ⟨rfl, -⟩ | ⟨-, houtside, -⟩
      · rfl
      · rw [houtside] at hu
        contradiction
    · rw [houtside] at ht
      contradiction
  · intro t ht hinside
    obtain ⟨k, hk⟩ := List.getElem?_of_mem ht
    rcases only hk with ⟨-, rfl⟩ | ⟨-, houtside, -⟩
    · exact ticking hinside
    · rw [houtside] at hinside
      contradiction
  · intro t ht concluding houtside
    obtain ⟨k, hk⟩ := List.getElem?_of_mem ht
    rcases only hk with ⟨-, rfl⟩ | ⟨-, -, unconcluded⟩
    · refine ⟨left concluding houtside, fun other hother => ?_⟩
      obtain ⟨l, hl⟩ := List.getElem?_of_mem hother
      rcases only hl with ⟨-, rfl⟩ | ⟨-, houtside, -⟩ <;> exact houtside
    · exact absurd concluding unconcluded
  · intro k l t u hk hl ht hu
    rcases only hk with ⟨rfl, -⟩ | ⟨-, -, unconcluded⟩
    · rcases only hl with ⟨rfl, -⟩ | ⟨-, -, unconcluded⟩
      · rfl
      · exact absurd hu unconcluded
    · exact absurd ht unconcluded

theorem of_bystander (exclusive : facade.Exclusive threads vars)
    (changed : ∀ k, after[k]? = if index = k then some moved else threads[k]?)
    (outside : inside moved = false) (unconcluded : ¬ facade.Concludes moved)
    (ticking : next.ticking = vars.ticking)
    (settled : vars.settled.isSome = true → next.settled.isSome = true) :
    facade.Exclusive after next := by
  have cases {k : Nat} {t : FacadeThread EOp EReply} (found : after[k]? = some t) :
      t = moved ∨ threads[k]? = some t := by
    rw [changed] at found
    split at found
    next => exact .inl (Option.some.inj found).symm
    next => exact .inr found
  constructor
  · intro k l t u hk hl ht hu
    rcases cases hk with rfl | hk
    · rw [outside] at ht
      contradiction
    · rcases cases hl with rfl | hl
      · rw [outside] at hu
        contradiction
      · exact exclusive.alone k l t u hk hl ht hu
  · intro t ht hinside
    obtain ⟨k, hk⟩ := List.getElem?_of_mem ht
    rcases cases hk with rfl | hk
    · rw [outside] at hinside
      contradiction
    · exact ticking ▸ exclusive.ticking t (List.mem_of_getElem? hk) hinside
  · intro t ht concluding houtside
    obtain ⟨k, hk⟩ := List.getElem?_of_mem ht
    rcases cases hk with rfl | hk
    · exact absurd concluding unconcluded
    · obtain ⟨hsettled, hothers⟩ := exclusive.left t (List.mem_of_getElem? hk) concluding houtside
      refine ⟨settled hsettled, fun other hother => ?_⟩
      obtain ⟨l, hl⟩ := List.getElem?_of_mem hother
      rcases cases hl with rfl | hl
      · exact outside
      · exact hothers other (List.mem_of_getElem? hl)
  · intro k l t u hk hl ht hu
    rcases cases hk with rfl | hk
    · exact absurd ht unconcluded
    · rcases cases hl with rfl | hl
      · exact absurd hu unconcluded
      · exact exclusive.once k l t u hk hl ht hu

end Exclusive

section
variable {task : LoopTask} {past : List (FacadeCall EOp EReply)} {op : EOp ⊕ LoopOp}
  {resume : Sum.elim EReply LoopOp.Reply op → FacadeAsync EOp EReply Unit}
  {rest : FacadeAsync EOp EReply Unit}

theorem any_alongside {holds : FacadeCall EOp EReply → Bool} (own : List (Call EOp EReply))
    (never : ∀ call : Call EOp EReply, holds call.alongside = false) :
    (own.map Call.alongside).any holds = false := by
  simp [never]

theorem settling_leaves (result : Except Thrown OnPaidResult) :
    leaves (settling result : FacadeCall EOp EReply) = false := by
  cases result <;> rfl

theorem enters_eq_false {call : FacadeCall EOp EReply} (other : call.op ≠ .inr .enterTick) :
    enters call = false := by
  unfold enters
  split
  next => contradiction
  next => rfl

theorem leaves_eq_false {call : FacadeCall EOp EReply} (other : call.op ≠ .inr .leaveTick) :
    leaves call = false := by
  unfold leaves
  split
  next => contradiction
  next => rfl

theorem program_inside (run : (facade.program task).Runs past (.call op resume)) :
    (past = [] ∧ op = .inr .enterTick) ∨
    (op ≠ .inr .enterTick ∧ past.any enters = true ∧ past.any leaves = false) ∨
    (op ≠ .inr .enterTick ∧ op ≠ .inr .leaveTick ∧ task ≠ .tick ∧ past.any enters = false) := by
  cases task with
  | cancel =>
    obtain ⟨rfl, rfl⟩ := cancel_calls run
    exact .inr (.inr ⟨nofun, nofun, nofun, rfl⟩)
  | startup =>
    refine .inr (.inr ?_)
    cases startup_calls run with
    | port running => exact ⟨nofun, nofun, nofun, any_alongside _ fun _ => rfl⟩
    | timer returns goes => exact ⟨nofun, nofun, nofun, any_alongside _ fun _ => rfl⟩
    | fail returns fatal => exact ⟨nofun, nofun, nofun, any_alongside _ fun _ => rfl⟩
  | tick =>
    cases tick_calls run with
    | enter => exact .inl ⟨rfl, rfl⟩
    | port trying => exact .inr (.inl ⟨nofun, rfl, any_alongside _ fun _ => rfl⟩)
    | @settle own ended result returns hsettles =>
      refine .inr (.inl ⟨?_, rfl, any_alongside _ fun _ => rfl⟩)
      cases result <;> nofun
    | @leave own ended returns =>
      refine .inr (.inl ⟨nofun, rfl, ?_⟩)
      change List.any (_ ++ _) leaves = false
      rw [List.any_append, any_alongside own fun _ => rfl]
      cases settlement ended with
      | none => rfl
      | some result => simp [settling_leaves]

end

end Facade

namespace Hosts
open Effects Program Facade LoopVars
variable {EOp : Type} {EReply : EOp → Type} {facade : Facade EOp EReply} {σ : Type}
  {vars : σ → LoopVars}
  {system : System σ (EOp ⊕ LoopOp) (Sum.elim EReply LoopOp.Reply) Thrown Unit LoopTask}
  {initial : σ} {pool : FacadePool σ EOp EReply}

theorem performed_ticking (host : Hosts facade vars system) (state : σ) {op : EOp ⊕ LoopOp}
    (answer : Sum.elim EReply LoopOp.Reply op) (noEntry : op ≠ .inr .enterTick)
    (noExit : op ≠ .inr .leaveTick) :
    (vars (system.perform state op answer).2).ticking = (vars state).ticking := by
  cases op with
  | inl op => rw [host.port]
  | inr op =>
    rw [host.changed]
    exact perform_ticking _ (fun h => noEntry (h ▸ rfl)) fun h => noExit (h ▸ rfl)

theorem exclusive_enter (host : Hosts facade vars system) {threads after : List _} {index : Nat}
    {task : LoopTask} {rest : FacadeAsync EOp EReply Unit} {state : σ}
    (exclusive : facade.Exclusive threads (vars state)) (answer : Bool)
    (changed : ∀ k, after[k]? = if index = k then
      some ⟨task, [⟨.inr .enterTick, (system.perform state (.inr .enterTick) answer).1⟩], rest⟩
      else threads[k]?) :
    facade.Exclusive after (vars (system.perform state (.inr .enterTick) answer).2) := by
  have hreply := host.replied state .enterTick answer
  have hchanged := host.changed state .enterTick answer
  revert changed
  generalize (system.perform state (.inr .enterTick) answer).1 = reply at hreply
  intro changed
  subst hreply
  rw [hchanged]
  by_cases barred : ((vars state).settled.isSome || (vars state).ticking) = true
  · simp only [LoopVars.perform, if_pos barred] at changed ⊢
    refine exclusive.of_bystander changed rfl ?_ rfl id
    rintro ⟨_, _, _, _, _, hpast, _⟩
    cases hpast
  · simp only [LoopVars.perform, if_neg barred] at changed ⊢
    rw [Bool.or_eq_true, not_or, Bool.not_eq_true, Bool.not_eq_true] at barred
    refine .of_alone changed (fun k t _ found => ?_) (fun _ => rfl)
      fun _ outside => absurd outside (by simp [inside, enters, leaves])
    have present := List.mem_of_getElem? found
    have outside : inside t = false := by
      by_contra hinside
      rw [exclusive.ticking t present (by simpa using hinside)] at barred
      exact absurd barred.2 (by decide)
    refine ⟨outside, fun concluding => ?_⟩
    rw [(exclusive.left t present concluding outside).1] at barred
    exact absurd barred.1 (by decide)

theorem exclusive_start {threads : List (FacadeThread EOp EReply)} {loopVars : LoopVars}
    (exclusive : facade.Exclusive threads loopVars) (task : LoopTask)
    (rest : FacadeAsync EOp EReply Unit) :
    facade.Exclusive (threads ++ [⟨task, [], rest⟩]) loopVars := by
  have changed (k : Nat) : (threads ++ [⟨task, [], rest⟩])[k]? =
      if threads.length = k then some ⟨task, [], rest⟩ else threads[k]? := by
    rw [List.getElem?_append]
    split
    next h => rw [if_neg (by omega)]
    next h =>
      by_cases last : threads.length = k
      · simp [last]
      · rw [if_neg last, List.getElem?_eq_none (by simp; omega),
          List.getElem?_eq_none (by omega)]
  refine exclusive.of_bystander changed rfl ?_ rfl id
  rintro ⟨_, _, _, _, _, hpast, _⟩
  cases hpast

/-- The tick inside makes a call. It stays inside, or it leaves and has settled `done` if its poll
has ended the loop. -/
theorem exclusive_inside (host : Hosts facade vars system) (fresh : vars initial = .fresh)
    (run : Reachable system initial pool) (exclusive : facade.Exclusive pool.threads
      (vars pool.shared)) {index : Nat} {task : LoopTask} {past : List (FacadeCall EOp EReply)}
    {op : EOp ⊕ LoopOp} {resume : Sum.elim EReply LoopOp.Reply op → FacadeAsync EOp EReply Unit}
    (waiting : pool.threads[index]? = some ⟨task, past, .call op resume⟩)
    (answer : Sum.elim EReply LoopOp.Reply op) (noEntry : op ≠ .inr .enterTick)
    (entered : past.any enters = true) (unleft : past.any leaves = false) :
    facade.Exclusive (pool.advance system index task past op resume answer).threads
      (vars (system.perform pool.shared op answer).2) := by
  have changed := Pool.getElem?_advance system waiting answer
  have present := List.mem_of_getElem? waiting
  have program := run.runs _ present
  rw [host.program] at program
  have isInside : inside (⟨task, past, .call op resume⟩ : FacadeThread EOp EReply) = true := by
    rw [inside, entered, unleft]
    rfl
  have stays (noExit : op ≠ .inr .leaveTick) :
      inside (⟨task, past ++ [⟨op, (system.perform pool.shared op answer).1⟩],
        resume (system.perform pool.shared op answer).1⟩ : FacadeThread EOp EReply) = true := by
    simp [inside, entered, unleft, leaves_eq_false, noExit]
  refine .of_alone changed
    (fun k t differs found => exclusive.others waiting isInside k differs found) ?_ ?_
  · intro hinside
    by_cases leaving : op = .inr .leaveTick
    · subst leaving
      simp [inside, leaves] at hinside
    · exact (host.performed_ticking pool.shared answer noEntry leaving).trans
        (exclusive.ticking _ present isInside)
  · intro concluding outside
    by_cases leaving : op = .inr .leaveTick
    · obtain ⟨call, made, hsettles⟩ := concludes_leaves concluding program leaving
      rw [host.performed_settled, Option.isSome_or,
        host.settled_of_past fresh run present made hsettles, Bool.true_or]
    · rw [stays leaving] at outside
      contradiction

theorem exclusive (host : Hosts facade vars system) (fresh : vars initial = .fresh)
    (reached : Reachable system initial pool) :
    facade.Exclusive pool.threads (vars pool.shared) := by
  refine reached.invariant (fun pool => facade.Exclusive pool.threads (vars pool.shared))
    ?_ fun before after run ih step => ?_
  · constructor <;> simp [Pool.fresh, AtMostOne]
  · cases step with
    | start task may => exact exclusive_start ih task _
    | shift next may =>
      rw [Pool.shift, host.shifted _ _ may]
      exact ih
    | @advance index task past op resume answer waiting =>
      have program := run.runs _ (List.mem_of_getElem? waiting)
      rw [host.program] at program
      rcases program_inside program with ⟨rfl, rfl⟩ | ⟨noEntry, entered, unleft⟩ |
        ⟨noEntry, noExit, noTick, unentered⟩
      · exact host.exclusive_enter ih answer (Pool.getElem?_advance system waiting answer)
      · exact host.exclusive_inside fresh run ih waiting answer noEntry entered unleft
      · refine ih.of_bystander (Pool.getElem?_advance system waiting answer) ?_
          (fun concluding => noTick concluding.1)
          (host.performed_ticking before.shared answer noEntry noExit) fun earlier => ?_
        · simp [inside, unentered, enters_eq_false, noEntry]
        · change (vars (system.perform before.shared op answer).2).settled.isSome = true
          rw [host.performed_settled, Option.isSome_or, earlier, Bool.true_or]

theorem law (host : Hosts facade vars system) (fresh : vars initial = .fresh)
    (reached : Reachable system initial pool) : facade.Law vars pool where
  exclusive := (host.exclusive fresh reached).alone
  first := host.settled_first fresh reached
  image := host.image reached
  kept := host.kept reached
  stopped := host.stopped_of_settled fresh reached
  guarded := host.guarded reached
  once first second t u ht hu honored again := (host.exclusive fresh reached).once first second t u
    ht hu honored.concludes again.concludes

end Hosts
namespace Facade
open Effects
variable {EOp : Type} {EReply : EOp → Type}

/-- Whatever the engine and its surroundings do, one tick runs at a time, and `done` settles once,
with the first terminal event. -/
theorem settles_once {E : Type} (facade : Facade EOp EReply)
    (perform : E → (op : EOp) → EReply op → EReply op × E) (surroundings : E)
    (pool : FacadePool (E × LoopVars) EOp EReply)
    (reached : Reachable (facade.system perform) (surroundings, .fresh) pool) :
    facade.Law Prod.snd pool :=
  (facade.hosts perform).law rfl reached

/-! Two ticks of one loop and a cancel while the first of them is inside. -/

abbrev WorldLoopMove :=
  Move (World Unit × LoopVars) (Op Unit ⊕ LoopOp) (Sum.elim Op.Reply LoopOp.Reply) LoopTask

def takes (index count : Nat) : List WorldLoopMove :=
  .replicate count (.advance index OnPaid.loopAnswer)

def overlapMoves : List WorldLoopMove :=
  .start .startup :: takes 0 4 ++ .start .tick :: takes 1 8 ++ .start .tick :: takes 2 1 ++
    .start .cancel :: takes 3 1 ++ takes 1 6

def overlapPool : FacadePool (World Unit × LoopVars) (Op Unit) Op.Reply :=
  (Pool.fresh (.booted (.empty ()) 20, .fresh)).play
    (OnPaid.sampleLoop.facade.system (World.perform .sync)) overlapMoves

theorem settles_once_overlap :
    overlapPool.shared.2.settled = some (.ok .cancelled) ∧
      OnPaid.sampleLoop.facade.Law Prod.snd overlapPool := by
  refine ⟨by decide +kernel, settles_once OnPaid.sampleLoop.facade (World.perform .sync)
    (.booted (.empty ()) 20) _ (Pool.play_reachable ?_)⟩
  simp only [overlapMoves, takes, List.append_assoc, List.cons_append]
  refine ⟨nofun, Pool.allowed_advances 4 ⟨fun _ => rfl, Pool.allowed_advances 8 ⟨fun _ => rfl,
    Pool.allowed_advances 1 ⟨nofun, Pool.allowed_advances 1 ?_⟩⟩⟩⟩
  exact List.append_nil (List.replicate 6 _) ▸ Pool.allowed_advances 6 trivial

end Facade
end ExferHonor
