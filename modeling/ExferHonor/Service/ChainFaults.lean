import ExferHonor.Core.ChainFaults
import ExferHonor.Service.OneTick

/-! A chain that throws under the loop. The chain's own error reaches the loop as it is, and the
loop goes on after the four kinds of `HonorError` that it takes for retryable only. -/
namespace ExferHonor
namespace OnPaid
open Effects Program Facade

variable {G : Type}

def loopFault : LoopCall G → Option Thrown
  | ⟨.inl op, reply⟩ => chainFault ⟨op, show op.Reply from reply⟩
  | _ => none

theorem loopFault_port {call : LoopCall G} {e : Thrown} (faulty : loopFault call = some e) :
    ∃ port : PortCall G, call = port.alongside ∧ chainFault port = some e := by
  obtain ⟨op, reply⟩ := call
  cases op with
  | inl op => exact ⟨⟨op, reply⟩, rfl, faulty⟩
  | inr op => contradiction

def isHonored : Except Thrown OnPaidResult → Bool
  | .ok (.honored _) => true
  | _ => false

/-- What settles `done` is an honored outcome or comes from a tick in which the chain threw. -/
def FaultsOnly (pool : LoopPool G) : Prop :=
  ∀ event ∈ pool.log, ∀ result ∈ settles event.call, isHonored result = true ∨
    event.task = .tick ∧ ∃ call ∈ event.past, (loopFault call).isSome = true

def FaultsRetryable (pool : LoopPool G) : Prop :=
  ∀ thread ∈ pool.threads, thread.task = .tick → ∀ call ∈ thread.past, ∀ e ∈ loopFault call,
    isRetryableFault e = true

def HasHonored (pool : LoopPool G) : Prop :=
  ∃ event ∈ pool.log, (settles event.call).any isHonored = true

variable {loop : OnPaid G} {reserver : Bool}

theorem poll_passes
    (forms : loop.engine.deps.forms = createFormRegistry (builtinForms reserver)) :
    PassesFaults loop.facade.poll := by
  refine Escapes.bind (passes_ask rfl) fun now => Escapes.bind ?_ fun _ =>
    HonorEngine.honor_passes forms _ _ _
  refine Escapes.of_uses (HonorEngine.markObserved_uses _ _) fun op reply allowed => ?_
  cases op <;> first | rfl | contradiction

theorem fault_polled
    (forms : loop.engine.deps.forms = createFormRegistry (builtinForms reserver))
    {past : List (LoopCall G)} {rest : LoopAsync G Unit}
    (run : (loop.facade.program .tick).Runs past rest) {call : LoopCall G} (made : call ∈ past)
    {e : Thrown} (faulty : loopFault call = some e) :
    ∃ own later, past = entering :: (own.map Call.alongside ++ later) ∧
      loop.facade.poll.Returns own (.error e) := by
  obtain ⟨port, rfl, thrown⟩ := loopFault_port faulty
  obtain ⟨earlier, later, rfl⟩ := List.mem_iff_append.1 made
  obtain ⟨_, first, -⟩ := run.split
  rcases program_runs_port first with ⟨hstartup, -⟩ | ⟨-, own, inner, rfl, polling⟩
  · cases hstartup
  · have answered := polling.snoc port.reply
    obtain ⟨-, hrest⟩ := (poll_passes forms).runs answered thrown
    rw [hrest] at answered
    exact ⟨own ++ [port], later, by simp, answered⟩

theorem concludes_of_fault
    (forms : loop.engine.deps.forms = createFormRegistry (builtinForms reserver))
    {thread : FacadeThread (Op G) Op.Reply}
    (run : (loop.facade.program thread.task).Runs thread.past thread.rest)
    (tick : thread.task = .tick) {call : LoopCall G} (made : call ∈ thread.past)
    {e : Thrown} (faulty : loopFault call = some e) (fatal : ¬ isRetryableFault e = true) :
    loop.facade.Concludes thread := by
  rw [tick] at run
  obtain ⟨own, later, hpast, returns⟩ := fault_polled forms run made faulty
  exact ⟨tick, own, later, _, .error e, hpast, returns, if_neg fatal⟩

variable {initial : LoopState G} {pool : LoopPool G}

theorem not_settles_of_retryable
    (forms : loop.engine.deps.forms = createFormRegistry (builtinForms reserver))
    (reached : Reachable loop.system initial pool) {event : LoopEvent G}
    (logged : event ∈ pool.log) (tick : event.task = .tick) {call : LoopCall G}
    {thread : FacadeThread (Op G) Op.Reply} (present : pool.threads[event.thread]? = some thread)
    (made : call ∈ thread.past) {e : Thrown} (faulty : loopFault call = some e)
    (retryable : isRetryableFault e = true) : settles event.call = none := by
  cases hsettles : settles event.call with
  | none => rfl
  | some result =>
    have terminal := (loop.hosts.image reached event logged result).1 hsettles
    obtain ⟨other, hother, htask, later, hpast⟩ := reached.thread_of_event event logged
    rw [present] at hother
    cases hother
    have run := reached.runs thread (List.mem_of_getElem? present)
    rw [show loop.system.program = _ from loop.hosts.program, htask, tick] at run
    obtain ⟨own, last, hown, returns⟩ := fault_polled forms run made faulty
    rw [tick] at terminal
    generalize event.past = past at terminal hpast
    cases terminal with
    | tick ended hsettlement =>
      rw [hpast, List.cons_append] at hown
      obtain ⟨-, -, rfl⟩ := ended.unique_of_append returns (List.cons.inj hown).2
      rw [settlement, if_pos retryable] at hsettlement
      contradiction

/-- Where only honored ticks and faults of the chain can end the loop and every fault was one that
the loop retries, only an honored tick has ended it. -/
theorem honored_of_settles
    (forms : loop.engine.deps.forms = createFormRegistry (builtinForms reserver))
    (reached : Reachable loop.system initial pool) (only : FaultsOnly pool)
    (retryable : FaultsRetryable pool) {event : LoopEvent G} (logged : event ∈ pool.log)
    {result : Except Thrown OnPaidResult} (hsettles : settles event.call = some result) :
    isHonored result = true := by
  rcases only event logged result hsettles with honored | ⟨tick, call, made, faulty⟩
  · exact honored
  · obtain ⟨e, he⟩ := Option.isSome_iff_exists.1 faulty
    obtain ⟨thread, present, htask, later, hpast⟩ := reached.thread_of_event event logged
    have madeThere : call ∈ thread.past := hpast ▸ List.mem_append_left _ made
    have none := not_settles_of_retryable forms reached logged tick present madeThere he
      (retryable thread (List.mem_of_getElem? present) (htask.trans tick) call madeThere e he)
    rw [hsettles] at none
    contradiction

theorem tick_survives {loop : OnPaid G} {reserver : Bool}
    (forms : loop.engine.deps.forms = createFormRegistry (builtinForms reserver)) {db : Db G}
    {clock : Int} {listed : QuoteId → List RawSettlementCandidate} {pool : LoopPool G}
    (reached : Reachable loop.system (.booted db clock listed) pool) {index : Nat}
    {thread : FacadeThread (Op G) Op.Reply} {call : LoopCall G} {e : Thrown}
    (present : pool.threads[index]? = some thread) (tick : thread.task = .tick)
    (left : inside thread = false) (made : call ∈ thread.past) (faulty : loopFault call = some e)
    (alone : ∀ event ∈ pool.log, event.thread ≠ index → settles event.call = none) :
    (pool.shared.settled = none ∧ pool.shared.timer = true) ↔ isRetryableFault e = true := by
  have host := loop.hosts
  have member := List.mem_of_getElem? present
  constructor
  · rintro ⟨unsettled, -⟩
    by_contra fatal
    have settled := ((host.exclusive rfl reached).left thread member (concludes_of_fault forms
      (host.program ▸ reached.runs thread member) tick made faulty fatal) left).1
    rw [show pool.shared.vars.settled = none from unsettled] at settled
    contradiction
  · intro retryable
    have unsettled : pool.shared.vars.settled = none := by
      rw [host.settled_first rfl reached, List.findSome?_eq_none_iff]
      intro event hevent
      by_cases same : event.thread = index
      · obtain ⟨other, hother, htask, -⟩ := reached.thread_of_event event hevent
        rw [same, present] at hother
        cases hother
        exact not_settles_of_retryable forms reached hevent (htask.symm.trans tick)
          (same ▸ present) made faulty retryable
      · exact alone event hevent same
    rcases host.timer_runs reached ⟨thread, member, tick⟩ with settled | timed
    · rw [unsettled] at settled
      contradiction
    · exact ⟨unsettled, timed⟩

/-- Provided nothing else settles `done`, a tick in which the chain threw leaves the loop going if
and only if the error is one that the loop retries. Where every fault of the chain was such an
error, the loop goes on until a tick honors, and then resolves as honored. -/
theorem survives_chain_faults (loop : OnPaid G) (reserver : Bool)
    (forms : loop.engine.deps.forms = createFormRegistry (builtinForms reserver)) (db : Db G)
    (clock : Int) (listed : QuoteId → List RawSettlementCandidate) (pool : LoopPool G)
    (reached : Reachable loop.system (.booted db clock listed) pool) :
    (∀ (index : Nat) thread call e, pool.threads[index]? = some thread → thread.task = .tick →
      inside thread = false → call ∈ thread.past → loopFault call = some e →
      (∀ event ∈ pool.log, event.thread ≠ index → settles event.call = none) →
      ((pool.shared.settled = none ∧ pool.shared.timer = true) ↔ isRetryableFault e = true)) ∧
    (FaultsOnly pool → FaultsRetryable pool →
      (HasHonored pool → pool.shared.settled.any isHonored = true) ∧
      (¬ HasHonored pool → pool.shared.settled = none ∧
        ((∃ thread ∈ pool.threads, thread.task = .tick) → pool.shared.timer = true))) := by
  have host := loop.hosts
  have first := host.settled_first rfl reached
  constructor
  · intro index thread call e present tick left made faulty alone
    exact tick_survives forms reached present tick left made faulty alone
  · intro only retryable
    constructor
    · rintro ⟨honoring, hhonoring, hhonors⟩
      have settled : (pool.log.findSome? fun event => settles event.call).isSome = true := by
        rw [List.findSome?_isSome_iff]
        exact ⟨honoring, hhonoring, Option.isSome_of_any hhonors⟩
      obtain ⟨result, hresult⟩ := Option.isSome_iff_exists.1 settled
      obtain ⟨event, hevent, hsettles⟩ := List.exists_of_findSome?_eq_some hresult
      rw [show pool.shared.settled = some result from first.trans hresult]
      exact honored_of_settles forms reached only retryable hevent hsettles
    · intro unhonored
      have unsettled : pool.shared.vars.settled = none := by
        rw [first, List.findSome?_eq_none_iff]
        intro event hevent
        cases hsettles : settles event.call with
        | none => rfl
        | some result =>
          have honored := honored_of_settles forms reached only retryable hevent hsettles
          exact absurd ⟨event, hevent, by rw [hsettles]; exact honored⟩ unhonored
      refine ⟨unsettled, fun ticked => ?_⟩
      rcases host.timer_runs reached ticked with settled | timed
      · rw [unsettled] at settled
        contradiction
      · exact timed

/-! A tick in which reading the tip throws, and a second one that honors. -/

def tipThrows (e : Thrown) : (op : Op Unit ⊕ LoopOp) → Sum.elim Op.Reply LoopOp.Reply op
  | .inl .tipHeight => .error e
  | op => loopAnswer op

def faultMoves (e : Thrown) : List LoopMove :=
  .start .startup :: turns 0 4 ++ .start .tick :: .replicate 9 (.advance 1 (tipThrows e))

def retryMoves (e : Thrown) : List LoopMove := faultMoves e ++ .start .tick :: turns 2 13

def nodeError : Thrown := .error 0 (some (.number (-32603))) "internal error"

def nodeFault : Thrown := .honorError .chainFault "tip unavailable" nodeError

def faultPool (moves : List LoopMove) : LoopPool Unit :=
  (Pool.fresh (.booted (.empty ()) 20 paidPorts.settlements)).play sampleLoop.system moves

theorem faultMoves_allowed (e : Thrown) :
    (Pool.fresh (.booted (.empty ()) 20 paidPorts.settlements)).Allowed sampleLoop.system
      (faultMoves e) := by
  simp only [faultMoves, turns, List.cons_append]
  refine ⟨trivial, Pool.allowed_advances 4 ⟨rfl, ?_⟩⟩
  exact List.append_nil (List.replicate 9 _) ▸ Pool.allowed_advances 9 trivial

theorem chain_fault_kills :
    Reachable sampleLoop.system (.booted (.empty ()) 20 paidPorts.settlements)
        (faultPool (faultMoves nodeError)) ∧
    (∃ thread, (faultPool (faultMoves nodeError)).threads[1]? = some thread ∧
      thread.task = .tick ∧ ∃ call ∈ thread.past, loopFault call = some nodeError) ∧
    (faultPool (faultMoves nodeError)).shared.settled = some (.error nodeError) ∧
    (faultPool (faultMoves nodeError)).shared.timer = false :=
  ⟨Pool.play_reachable (faultMoves_allowed nodeError),
    ⟨_, rfl, rfl, ⟨.inl .tipHeight, .error nodeError⟩, List.mem_of_getElem? (i := 6) rfl, rfl⟩,
    rfl, rfl⟩

theorem survives_chain_faults_retried :
    ((faultPool (faultMoves nodeFault)).shared.settled = none ∧
      (faultPool (faultMoves nodeFault)).shared.timer = true) ∧
    (faultPool (retryMoves nodeFault)).shared.settled.any isHonored = true := by
  constructor
  · have alone : (faultPool (faultMoves nodeFault)).log.all
        (fun event => event.thread == 1 || (settles event.call).isNone) = true := by
      decide +kernel
    refine ((survives_chain_faults sampleLoop true rfl (.empty ()) 20 paidPorts.settlements _
      (Pool.play_reachable (faultMoves_allowed nodeFault))).1 1 _
        ⟨.inl .tipHeight, .error nodeFault⟩ nodeFault rfl rfl rfl
        (List.mem_of_getElem? (i := 6) rfl) rfl fun event hevent other => ?_).2 rfl
    simpa [other] using List.all_eq_true.1 alone event hevent
  · refine ((survives_chain_faults sampleLoop true rfl (.empty ()) 20 paidPorts.settlements _
      (Pool.play_reachable ?_)).2 ?_ ?_).1 ?_
    · simp only [retryMoves, faultMoves, turns, List.cons_append, List.append_assoc]
      refine ⟨trivial, Pool.allowed_advances 4 ⟨rfl, Pool.allowed_advances 9 ⟨rfl, ?_⟩⟩⟩
      exact List.append_nil (List.replicate 13 _) ▸ Pool.allowed_advances 13 trivial
    · unfold FaultsOnly
      decide +kernel
    · unfold FaultsRetryable
      decide +kernel
    · unfold HasHonored
      decide +kernel

end OnPaid
end ExferHonor
