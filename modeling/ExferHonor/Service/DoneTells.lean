import ExferHonor.Adapters.StoreCalls
import ExferHonor.Core.Clients
import ExferHonor.Core.Delivery
import ExferHonor.Service.Cancel

/-! What the promise `done` tells of the delivery: it resolves as honored only when a transaction of
the loop has committed, and while nobody cancels the loop every such transaction makes it do so. -/
namespace ExferHonor
namespace Facade
open Effects
variable {EOp : Type} {EReply : EOp → Type} {σ : Type}

def Uncancelled (pool : FacadePool σ EOp EReply) : Prop :=
  StartedOnce pool ∧ ∀ thread ∈ pool.threads, thread.task ≠ .cancel

instance (pool : FacadePool σ EOp EReply) : Decidable (Uncancelled pool) :=
  inferInstanceAs (Decidable (StartedOnce pool ∧ ∀ thread ∈ pool.threads, thread.task ≠ .cancel))

theorem uncancelled_iff {pool : FacadePool σ EOp EReply} :
    Uncancelled pool ↔ (∀ task ∈ (pool.threads.map (·.task)).tail, task ≠ .startup) ∧
      ∀ task ∈ pool.threads.map (·.task), task ≠ .cancel := by
  unfold Uncancelled StartedOnce
  rw [← List.map_tail, List.forall_mem_map, List.forall_mem_map]

theorem Uncancelled.before
    {system : System σ (EOp ⊕ LoopOp) (Sum.elim EReply LoopOp.Reply) Thrown Unit LoopTask}
    {before after : FacadePool σ EOp EReply} (uncancelled : Uncancelled after)
    (step : Step system before after) : Uncancelled before := by
  rw [uncancelled_iff] at uncancelled ⊢
  have grows := step.tasks_grow
  rw [← List.drop_one] at uncancelled ⊢
  exact ⟨fun task htask => uncancelled.1 task ((grows.drop 1).subset htask),
    fun task htask => uncancelled.2 task (grows.subset htask)⟩

theorem Terminal.honored {facade : Facade EOp EReply} {task : LoopTask}
    {past : List (FacadeCall EOp EReply)} {outcome : HonorOutcome}
    (terminal : facade.Terminal task past (.ok (.honored outcome))) :
    task = .tick ∧ ∃ own outpoint, outcome = .honored outpoint ∧
      past = entering :: own.map Call.alongside ∧
      facade.poll.Returns own (.ok (.honored outpoint)) := by
  cases terminal with
  | @tick own ended _ returns settles =>
    cases ended with
    | error e =>
      by_cases retryable : isRetryableFault e = true <;> simp [settlement, retryable] at settles
    | ok outcome =>
      cases outcome with
      | honored other =>
        cases settles
        exact ⟨rfl, own, other, rfl, rfl, returns⟩
      | deliveryFailed => cases settles
      | notReady verdict => cases verdict <;> cases settles

end Facade

namespace Hosts
open Effects Program Facade LoopVars
variable {EOp : Type} {EReply : EOp → Type} {facade : Facade EOp EReply} {σ : Type}
  {vars : σ → LoopVars}
  {system : System σ (EOp ⊕ LoopOp) (Sum.elim EReply LoopOp.Reply) Thrown Unit LoopTask}
  {initial : σ} {pool : FacadePool σ EOp EReply}

def Quiet (vars : σ → LoopVars) (pool : FacadePool σ EOp EReply) : Prop :=
  ∀ thread ∈ pool.threads, inside thread = true → (∀ call ∈ thread.past, settles call = none) →
    (vars pool.shared).settled = none

def Lasting (vars : σ → LoopVars) (pool : FacadePool σ EOp EReply) : Prop :=
  ∀ event ∈ pool.log, event.task = .tick → ∀ result, settles event.call = some result →
    (vars pool.shared).settled = some result

section
variable {index : Nat} {task : LoopTask} {past : List (FacadeCall EOp EReply)} {op : EOp ⊕ LoopOp}
  {resume : Sum.elim EReply LoopOp.Reply op → FacadeAsync EOp EReply Unit}

theorem Quiet.advance (host : Hosts facade vars system) (quiet : Quiet vars pool)
    (fresh : vars initial = .fresh) (reached : Reachable system initial pool)
    (uncancelled : Uncancelled pool)
    (waiting : pool.threads[index]? = some ⟨task, past, .call op resume⟩)
    (answer : Sum.elim EReply LoopOp.Reply op) :
    Quiet vars (pool.advance system index task past op resume answer) := by
  have settled := host.performed_settled pool.shared op answer
  have present := List.mem_of_getElem? waiting
  intro thread hthread isInside unsettling
  change (vars (system.perform pool.shared op answer).2).settled = none
  obtain ⟨k, hk⟩ := List.getElem?_of_mem hthread
  rw [Pool.getElem?_advance system waiting] at hk
  split at hk
  next moved =>
    cases hk
    obtain ⟨earlier, last⟩ := List.forall_mem_append.1 unsettling
    rw [settled, last _ (List.mem_singleton_self _), Option.or_none]
    have program := reached.runs _ present
    rw [host.program] at program
    rcases program_inside program with ⟨rfl, rfl⟩ | ⟨noEntry, entered, unleft⟩ |
      ⟨noEntry, noExit, noTick, unentered⟩
    · have passed : (system.perform pool.shared (.inr .enterTick) answer).1 = true := by
        simpa [inside, enters, leaves] using isInside
      rw [host.replied] at passed
      exact (perform_enterTick _ passed).1
    · exact quiet _ present (by simp [inside, entered, unleft]) earlier
    · simp [inside, unentered, enters_eq_false, noEntry] at isInside
  next other =>
    have standing := List.mem_of_getElem? hk
    rw [settled, quiet thread standing isInside unsettling, Option.none_or]
    cases hsettles : settles ⟨op, (system.perform pool.shared op answer).1⟩ with
    | none => rfl
    | some result =>
      rcases host.settler fresh reached uncancelled.1 waiting hsettles hk isInside with same | rfl
      · exact absurd same other
      · exact absurd rfl (uncancelled.2 _ present)

theorem inside_of_settles (host : Hosts facade vars system)
    (reached : Reachable system initial pool)
    (waiting : pool.threads[index]? = some ⟨.tick, past, .call op resume⟩)
    {reply : Sum.elim EReply LoopOp.Reply op} {result : Except Thrown OnPaidResult}
    (hsettles : settles ⟨op, reply⟩ = some result) :
    inside (⟨.tick, past, .call op resume⟩ : FacadeThread EOp EReply) = true ∧
      ∀ call ∈ past, settles call = none := by
  have program := reached.runs _ (List.mem_of_getElem? waiting)
  rw [host.program] at program
  cases (settles_iff program reply result).1 hsettles with
  | @tick own ended _ returns _ =>
    constructor
    · have unleft : (own.map Call.alongside).any (leaves : FacadeCall EOp EReply → Bool) = false :=
        any_alongside own fun _ => rfl
      rw [inside, List.any_cons, List.any_cons, unleft]
      rfl
    · intro call hcall
      rcases List.mem_cons.1 hcall with rfl | hcall
      · rfl
      · obtain ⟨port, -, rfl⟩ := List.mem_map.1 hcall
        rfl

end

theorem quiet_lasting (host : Hosts facade vars system) (fresh : vars initial = .fresh)
    (reached : Reachable system initial pool) (uncancelled : Uncancelled pool) :
    Quiet vars pool ∧ Lasting vars pool := by
  refine reached.invariant (fun pool => Uncancelled pool → Quiet vars pool ∧ Lasting vars pool)
    (fun _ => by simp [Pool.fresh, Quiet, Lasting]) (fun before after run ih step kept => ?_)
    uncancelled
  obtain ⟨quiet, lasting⟩ := ih (kept.before step)
  cases step with
  | start task may =>
    refine ⟨fun thread hthread isInside => ?_, lasting⟩
    rcases List.mem_append.1 hthread with h | h
    · exact quiet thread h isInside
    · rw [List.mem_singleton.1 h] at isInside
      contradiction
  | shift next may =>
    have same : (vars next).settled = (vars before.shared).settled := by
      rw [host.shifted _ _ may]
    exact ⟨fun thread hthread isInside unsettling =>
        same.trans (quiet thread hthread isInside unsettling),
      fun event hevent tick result hsettles =>
        same.trans (lasting event hevent tick result hsettles)⟩
  | @advance index task past op resume answer waiting =>
    refine ⟨quiet.advance host fresh run (kept.before (.advance answer waiting)) waiting answer,
      fun event hevent tick result hsettles => ?_⟩
    change (vars (system.perform before.shared op answer).2).settled = some result
    rw [host.performed_settled]
    rcases List.mem_append.1 hevent with h | h
    · rw [lasting event h tick result hsettles, Option.some_or]
    · rw [List.mem_singleton.1 h] at tick hsettles
      obtain rfl : task = .tick := tick
      obtain ⟨isInside, unsettling⟩ := host.inside_of_settles run waiting hsettles
      rw [quiet _ (List.mem_of_getElem? waiting) isInside unsettling, Option.none_or]
      exact hsettles

theorem settled_of_concludes (host : Hosts facade vars system) (fresh : vars initial = .fresh)
    (reached : Reachable system initial pool) (uncancelled : Uncancelled pool)
    {thread : FacadeThread EOp EReply} (present : thread ∈ pool.threads)
    (tick : thread.task = .tick) {own : List (Call EOp EReply)}
    {later : List (FacadeCall EOp EReply)}
    (past : thread.past = entering :: (own.map Call.alongside ++ later))
    {ended : Except Thrown HonorOutcome} (returns : facade.poll.Returns own ended)
    {result : Except Thrown OnPaidResult} (ends : settlement ended = some result)
    (outside : inside thread = false) : (vars pool.shared).settled = some result := by
  obtain ⟨index, hindex⟩ := List.getElem?_of_mem present
  have left : thread.past.any leaves = true := by
    have entered : thread.past.any enters = true := by
      rw [past]
      rfl
    rw [inside, entered, Bool.true_and] at outside
    simpa using outside
  obtain ⟨leaving, hleaving, leaves⟩ := List.any_eq_true.1 left
  obtain ⟨before, rest, split⟩ := List.mem_iff_append.1 hleaving
  obtain ⟨event, hevent, -, htask, hpast, hcall⟩ :=
    reached.event_of_past index thread hindex before leaving rest split
  obtain ⟨resume, run⟩ := reached.runs_to_event event hevent
  rw [host.program, htask, tick, hpast] at run
  have gone : event.call.op = .inr .leaveTick := by
    by_contra other
    rw [← hcall, leaves_eq_false other] at leaves
    contradiction
  obtain ⟨polled, last, polling, hbefore⟩ := tick_leaves run gone
  obtain ⟨-, rfl, rfl⟩ := polling.unique_of_append returns (by
    rw [past, hbefore, List.cons_append, List.append_assoc] at split
    exact (List.cons.inj split).2.symm)
  rw [hbefore, ends, Option.toList_some, List.map_singleton, List.cons_append,
    List.append_assoc] at split
  obtain ⟨settler, hsettler, -, hsame, -, hsettling⟩ := reached.event_of_past index thread hindex
    (entering :: polled.map Call.alongside) (settling result) (leaving :: rest) (by
      rw [split, List.cons_append]
      rfl)
  have lasting := (host.quiet_lasting fresh reached uncancelled).2
  refine lasting settler hsettler (hsame.trans tick) result ?_
  rw [hsettling]
  cases result <;> rfl

theorem settled_of_poll (host : Hosts facade vars system) (fresh : vars initial = .fresh)
    (reached : Reachable system initial pool) (uncancelled : Uncancelled pool)
    {thread : FacadeThread EOp EReply} (present : thread ∈ pool.threads)
    (tick : thread.task = .tick) {own : List (Call EOp EReply)}
    {later : List (FacadeCall EOp EReply)}
    (past : thread.past = entering :: (own.map Call.alongside ++ later))
    {ended : Except Thrown HonorOutcome} (returns : facade.poll.Returns own ended)
    {result : Except Thrown OnPaidResult} (ends : settlement ended = some result)
    (settled : (vars pool.shared).settled ≠ none) : (vars pool.shared).settled = some result := by
  obtain ⟨quiet, lasting⟩ := host.quiet_lasting fresh reached uncancelled
  cases isInside : inside thread with
  | false =>
    exact host.settled_of_concludes fresh reached uncancelled present tick past returns ends
      isInside
  | true =>
    have unquiet : ¬ ∀ call ∈ thread.past, settles call = none :=
      fun unsettling => settled (quiet thread present isInside unsettling)
    push Not at unquiet
    obtain ⟨call, hcall, hsettles⟩ := unquiet
    obtain ⟨other, hother⟩ := Option.ne_none_iff_exists'.1 hsettles
    obtain ⟨index, hindex⟩ := List.getElem?_of_mem present
    obtain ⟨before, rest, split⟩ := List.mem_iff_append.1 hcall
    obtain ⟨event, logged, -, htask, hpast, rfl⟩ :=
      reached.event_of_past index thread hindex before call rest split
    obtain ⟨resume, run⟩ := reached.runs_to_event event logged
    rw [host.program, htask, tick, hpast] at run
    obtain ⟨polled, hpolled, ended', polling, ends'⟩ : ∃ polled,
        before = entering :: polled.map Call.alongside ∧
        ∃ ended, facade.poll.Returns polled ended ∧ settlement ended = some other := by
      cases (settles_iff run _ other).1 hother with
      | tick returns ends => exact ⟨_, rfl, _, returns, ends⟩
    obtain ⟨-, -, rfl⟩ := polling.unique_of_append returns (by
      rw [past, hpolled, List.cons_append] at split
      exact (List.cons.inj split).2.symm)
    rw [lasting event logged (htask.trans tick) other hother, ← ends', ends]

end Hosts

namespace OnPaid
open Effects Program Facade Store Statements
variable {G : Type} {loop : OnPaid G}

def delivered : LoopCall G → Option (HonorTxnInput G)
  | ⟨.inl op, reply⟩ => committed ⟨op, reply⟩
  | _ => none

theorem delivered_eq_some {call : LoopCall G} {input : HonorTxnInput G}
    (commits : delivered call = some input) :
    ∃ reply, call = ⟨.inl (.runHonorTxn input), reply⟩ ∧
      succeeds (⟨.runHonorTxn input, reply⟩ : PortCall G) = true := by
  obtain ⟨op, reply⟩ := call
  cases op with
  | inr op => cases commits
  | inl op =>
    obtain ⟨hop, success⟩ := committed_eq_some commits
    obtain rfl : op = .runHonorTxn input := hop
    exact ⟨reply, rfl, success⟩

/-- What the gate writes for the loop's quote and what its `deliver` leaves of the goods, committed
in one step. -/
structure Delivery (loop : OnPaid G) (event : LoopEvent G) (input : HonorTxnInput G) : Prop where
  task : event.task = .tick
  key : input.key = loop.quote.key
  deliver : input.deliver = loop.deliver
  db : ∃ gated, gateWrites SqliteStore.driver event.before.world.db input = .ok gated ∧
    event.after.world.db =
      { gated with goods := goodsAfter gated.goods (deliverCalls .sync gated.goods input) }

theorem poll_returns_of_gate {own : List (PortCall G)} {input : HonorTxnInput G}
    {resume : TxnReply → Async G HonorOutcome}
    (run : loop.facade.poll.Runs own (.call (.runHonorTxn input) resume)) (reply : TxnReply) :
    input.key = loop.quote.key ∧ input.deliver = loop.deliver ∧
      loop.facade.poll.Returns (own ++ [⟨.runHonorTxn input, reply⟩])
        (settleTxn loop.rethrow input.outpoint reply) := by
  obtain ⟨now, seen, result, honoring, rfl, observed, atGate⟩ := poll_runs_honor run nofun nofun
  obtain ⟨gate, rfl⟩ := HonorEngine.honor_runs_gate atGate
  refine ⟨?_, ?_, run.snoc reply⟩
  · cases gate
    rfl
  · cases gate
    rfl

theorem poll_returns_honored {own : List (PortCall G)} {outpoint : Outpoint}
    (returns : loop.facade.poll.Returns own (.ok (.honored outpoint))) :
    ∃ past input reply, own = past ++ [⟨.runHonorTxn input, reply⟩] ∧ input.outpoint = outpoint ∧
      succeeds (⟨.runHonorTxn input, reply⟩ : PortCall G) = true := by
  obtain ⟨first, now, later, rfl, -, observing⟩ := Returns.ok_of_bind returns
  obtain ⟨seen, result, last, rfl, -, honoring⟩ := observing.ok_of_bind
  obtain ⟨past, input, reply, rfl⟩ := HonorEngine.honor_returns_honored honoring
  obtain ⟨-, -, settles⟩ := HonorEngine.honor_returns_of_gate honoring
  obtain ⟨resolved, rfl⟩ := HonorEngine.settleTxn_honored settles.symm
  exact ⟨first ++ (seen ++ past), input, reply, by simp, rfl, succeeds_txn_iff.2 resolved⟩

theorem tick_honors {task : LoopTask} {past : List (LoopCall G)} {call : LoopCall G}
    {resume : Sum.elim Op.Reply LoopOp.Reply call.op → LoopAsync G Unit} {input : HonorTxnInput G}
    (run : (loop.facade.program task).Runs past (.call call.op resume))
    (commits : delivered call = some input) :
    task = .tick ∧ input.key = loop.quote.key ∧ input.deliver = loop.deliver ∧
      ∃ own, past ++ [call] = entering :: own.map Call.alongside ∧
        loop.facade.poll.Returns own (.ok (.honored input.outpoint)) := by
  obtain ⟨reply, rfl, success⟩ := delivered_eq_some commits
  rcases program_runs_port run with ⟨-, _, _, -, registering⟩ | ⟨rfl, own, _, rfl, polling⟩
  · cases (loop.engine.register_uses _ _).of_call registering
  · obtain ⟨key, deliver, returns⟩ := poll_returns_of_gate polling reply
    have settled : settleTxn loop.rethrow input.outpoint reply =
        .ok (.honored input.outpoint) := by
      unfold settleTxn
      rw [succeeds_txn_iff.1 success]
    exact ⟨rfl, key, deliver, own ++ [⟨.runHonorTxn input, reply⟩], by simp, settled ▸ returns⟩

section
variable {σ : Type} {vars : σ → LoopVars}
  {system : System σ (Op G ⊕ LoopOp) (Sum.elim Op.Reply LoopOp.Reply) Thrown Unit LoopTask}
  {initial : σ} {pool : FacadePool σ (Op G) Op.Reply}
  {event : Event σ (Op G ⊕ LoopOp) (Sum.elim Op.Reply LoopOp.Reply) LoopTask}
  {input : HonorTxnInput G}

theorem honored_of_delivered (host : Hosts loop.facade vars system)
    (reached : Reachable system initial pool) (logged : event ∈ pool.log)
    (commits : delivered event.call = some input) :
    ∃ thread own later, pool.threads[event.thread]? = some thread ∧ thread.task = .tick ∧
      event.past ++ [event.call] = entering :: own.map Call.alongside ∧
      thread.past = entering :: (own.map Call.alongside ++ later) ∧
      loop.facade.poll.Returns own (.ok (.honored input.outpoint)) := by
  obtain ⟨resume, run⟩ := reached.runs_to_event event logged
  obtain ⟨thread, present, htask, later, hthread⟩ := reached.thread_of_event event logged
  rw [host.program] at run
  obtain ⟨tick, -, -, own, hpast, returns⟩ := tick_honors run commits
  refine ⟨thread, own, later, present, htask.trans tick, hpast, ?_, returns⟩
  rw [hthread, List.append_cons, hpast, List.cons_append]

theorem delivered_once (host : Hosts loop.facade vars system) (fresh : vars initial = .fresh)
    (reached : Reachable system initial pool) :
    (pool.log.filter fun event => (delivered event.call).isSome).length ≤ 1 := by
  have ordered := reached.logged_in_order.filter fun event => (delivered event.call).isSome
  have unordered : ∀ first ∈ pool.log, (delivered first.call).isSome = true →
      ∀ second ∈ pool.log, (delivered second.call).isSome = true →
      first.thread = second.thread ∧ first.past.length = second.past.length := by
    intro first hfirst delivers second hsecond again
    obtain ⟨input, hinput⟩ := Option.isSome_iff_exists.1 delivers
    obtain ⟨other, hother⟩ := Option.isSome_iff_exists.1 again
    obtain ⟨thread, own, later, present, tick, hpast, hthread, returns⟩ :=
      honored_of_delivered host reached hfirst hinput
    obtain ⟨thread', own', later', present', tick', hpast', hthread', returns'⟩ :=
      honored_of_delivered host reached hsecond hother
    have same := (host.law fresh reached).once _ _ thread thread' present present'
      ⟨tick, own, later, _, hthread, returns⟩ ⟨tick', own', later', _, hthread', returns'⟩
    rw [same, present'] at present
    cases present
    obtain ⟨rfl, -, -⟩ := returns.unique_of_append returns'
      (List.cons.inj (hthread.symm.trans hthread')).2
    have lengths := congrArg List.length (hpast.trans hpast'.symm)
    rw [List.length_append, List.length_append] at lengths
    exact ⟨same, Nat.add_right_cancel lengths⟩
  cases hfilter : pool.log.filter fun event => (delivered event.call).isSome with
  | nil => simp
  | cons first rest =>
    cases rest with
    | nil => simp
    | cons second rest =>
      rw [hfilter] at ordered
      obtain ⟨hfirst, delivers⟩ := List.mem_filter.1 (hfilter ▸ List.mem_cons_self)
      obtain ⟨hsecond, again⟩ := List.mem_filter.1
        (hfilter ▸ List.mem_cons_of_mem first List.mem_cons_self)
      obtain ⟨same, lengths⟩ := unordered first hfirst delivers second hsecond again
      have less := (List.pairwise_cons.1 ordered).1 second List.mem_cons_self same
      omega

theorem delivered_of_settled (host : Hosts loop.facade vars system) (fresh : vars initial = .fresh)
    (reached : Reachable system initial pool) {outcome : HonorOutcome}
    (settled : (vars pool.shared).settled = some (.ok (.honored outcome))) :
    ∃ event ∈ pool.log, event.task = .tick ∧ ∃ input, delivered event.call = some input ∧
      outcome = .honored input.outpoint := by
  have law := host.law fresh reached
  obtain ⟨event, logged, hsettles⟩ :=
    List.exists_of_findSome?_eq_some (law.first.symm.trans settled)
  obtain ⟨tick, own, outpoint, houtcome, hpast, returns⟩ :=
    ((law.image event logged _).1 hsettles).honored
  obtain ⟨past, input, reply, rfl, rfl, success⟩ := poll_returns_honored returns
  obtain ⟨earlier, hearlier, -, htask, hcall⟩ := reached.event_of_event_past event logged
    (⟨.runHonorTxn input, reply⟩ : PortCall G).alongside (by rw [hpast]; simp)
  refine ⟨earlier, hearlier, htask.trans tick, input, ?_, houtcome⟩
  rw [hcall]
  exact committed_of_succeeds success

theorem settled_of_delivered (host : Hosts loop.facade vars system) (fresh : vars initial = .fresh)
    (reached : Reachable system initial pool) (uncancelled : Uncancelled pool)
    (logged : event ∈ pool.log) (commits : delivered event.call = some input)
    (settled : (vars pool.shared).settled ≠ none) :
    (vars pool.shared).settled = some (.ok (.honored (.honored input.outpoint))) := by
  obtain ⟨thread, own, later, present, tick, -, hthread, returns⟩ :=
    honored_of_delivered host reached logged commits
  exact host.settled_of_poll fresh reached uncancelled (List.mem_of_getElem? present) tick hthread
    returns rfl settled

end

variable {initial : LoopState G} {pool : LoopPool G}

theorem delivery_of_delivered (reached : Reachable loop.system initial pool) {event : LoopEvent G}
    (logged : event ∈ pool.log) {input : HonorTxnInput G}
    (commits : delivered event.call = some input) : loop.Delivery event input := by
  obtain ⟨resume, run⟩ := reached.runs_to_event event logged
  obtain ⟨answer, hreply, hafter⟩ := reached.performed event logged
  rw [show loop.system.program = _ from loop.hosts.program] at run
  obtain ⟨tick, key, deliver, -⟩ := tick_honors run commits
  obtain ⟨reply, hcall, success⟩ := delivered_eq_some commits
  obtain ⟨_, task, past, before, call, after⟩ := event
  obtain rfl : call = _ := hcall
  dsimp only at hreply hafter
  have performed : reply = (Store.perform .sync before.world.db (.runHonorTxn input) answer).1 :=
    hreply
  obtain ⟨gated, passed, committed⟩ := committed_txn (performed ▸ success)
  refine ⟨tick, key, deliver, gated, passed, ?_⟩
  rw [show after = _ from hafter]
  exact committed

/-- `done` resolves as honored only after a delivery of the loop's own, of which there is never more
than one. Nobody cancelling, it does so as soon as the tick that has delivered ends. -/
theorem done_tells_delivery (loop : OnPaid G) (db : Db G) (clock : Int)
    (listed : QuoteId → List RawSettlementCandidate) (pool : LoopPool G)
    (reached : Reachable loop.system (.booted db clock listed) pool) :
    (∀ outpoint, pool.shared.settled = some (.ok (.honored (.honored outpoint))) →
      ∃ event ∈ pool.log, ∃ input, delivered event.call = some input ∧
        input.outpoint = outpoint) ∧
    (pool.log.filter fun event => (delivered event.call).isSome).length ≤ 1 ∧
    ∀ event ∈ pool.log, ∀ input, delivered event.call = some input → loop.Delivery event input ∧
      (Uncancelled pool → ∀ thread, pool.threads[event.thread]? = some thread →
        inside thread = false →
          pool.shared.settled = some (.ok (.honored (.honored input.outpoint)))) := by
  refine ⟨fun outpoint settled => ?_, delivered_once loop.hosts rfl reached,
    fun event logged input commits => ⟨delivery_of_delivered reached logged commits,
      fun uncancelled thread present outside => ?_⟩⟩
  · obtain ⟨event, logged, -, input, commits, same⟩ :=
      delivered_of_settled loop.hosts rfl reached settled
    cases same
    exact ⟨event, logged, input, commits, rfl⟩
  · obtain ⟨thread', own, later, present', tick, -, hthread, returns⟩ :=
      honored_of_delivered loop.hosts reached logged commits
    rw [present] at present'
    cases present'
    exact loop.hosts.settled_of_concludes rfl reached uncancelled (List.mem_of_getElem? present)
      tick hthread returns rfl outside

/-! A loop whose first tick delivers. -/

def payMoves : List LoopMove := .start .startup :: turns 0 4 ++ .start .tick :: turns 1 13

theorem payMoves_allowed :
    (Pool.fresh (.booted (.empty ()) 20 paidPorts.settlements)).Allowed sampleLoop.system
      payMoves := by
  simp only [payMoves, turns, List.cons_append]
  refine ⟨trivial, Pool.allowed_advances 4 ⟨rfl, ?_⟩⟩
  exact List.append_nil (List.replicate 13 _) ▸ Pool.allowed_advances 13 trivial

theorem done_tells_delivery_paid :
    Uncancelled (listedPool payMoves) ∧
    (listedPool payMoves).shared.settled = some (.ok (.honored (.honored ⟨"01", 0⟩))) ∧
    ∃ event ∈ (listedPool payMoves).log, ∃ input, delivered event.call = some input ∧
      input.outpoint = ⟨"01", 0⟩ ∧ sampleLoop.Delivery event input := by
  have settled : (listedPool payMoves).shared.settled =
      some (.ok (.honored (.honored ⟨"01", 0⟩))) := rfl
  obtain ⟨honored, -, deliveries⟩ := done_tells_delivery sampleLoop (.empty ()) 20
    paidPorts.settlements _ (Pool.play_reachable payMoves_allowed)
  obtain ⟨event, logged, input, delivers, taken⟩ := honored _ settled
  exact ⟨by decide +kernel, settled, event, logged, input, delivers, taken,
    (deliveries event logged input delivers).1⟩

end OnPaid
end ExferHonor
