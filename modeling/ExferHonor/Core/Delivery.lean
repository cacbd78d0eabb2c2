import ExferHonor.Adapters.GateTables
import ExferHonor.Core.World

/-! What `honor` says about the delivery and what the database holds afterwards, for every
`deliver` and under both transaction models. -/
namespace ExferHonor
namespace HonorEngine
open Effects Program Store Statements

variable {G : Type}

/-- The transaction of the run was executed by the store on `db`. -/
def Executed (model : TxnModel) (db : Db G) (calls : List (PortCall G)) : Prop :=
  ∀ input reply, ⟨.runHonorTxn input, reply⟩ ∈ calls →
    reply = (Store.runHonorTxn model db input).1

structure Durable (after : Db G) (key : HonorKey) (outpoint : Outpoint) (now : Int) (goods : G) :
    Prop where
  seen : ∃ row, after.seen.find? key = some row ∧ row.honoredAt = some now
  consumed : ∃ row, after.consumed.find? outpoint = some row ∧ row.state = .honored
  goods : after.goods = goods

theorem settleTxn_honored {rethrow : Bool} {outpoint honored : Outpoint} {reply : TxnReply}
    (h : settleTxn rethrow outpoint reply = .ok (.honored honored)) :
    reply.result = .ok () ∧ honored = outpoint := by
  unfold settleTxn at h
  split at h
  next hresult =>
    cases h
    exact ⟨hresult, rfl⟩
  next =>
    split at h
    · split at h <;> cases h
    · split at h <;> cases h

theorem durable_iff_of_resolved {model : TxnModel} {db : Db G} {input : HonorTxnInput G}
    (resolved : (Store.runHonorTxn model db input).1.result = .ok ()) :
    Durable (Store.runHonorTxn model db input).2 input.key input.outpoint input.now
        (goodsAfter db.goods (deliverCalls model db.goods input)) ↔
      model = .sync ∨ ∀ call ∈ deliverCalls model db.goods input, failed call = false := by
  obtain ⟨gated, passed, hafter⟩ := runHonorTxn_ok resolved
  obtain ⟨⟨row, hrow, lockable, hseen⟩, ⟨honored, hnew, hconsumed⟩, hgoods⟩ :=
    gateWrites_ok passed
  rw [hgoods] at hafter
  by_cases haborted : model = .async ∧ (deliverCalls model db.goods input).any failed
  · rw [if_pos haborted] at hafter
    refine iff_of_false (fun durable => ?_) ?_
    · obtain ⟨after, hfound, hat⟩ := durable.seen
      rw [hafter, hrow] at hfound
      cases hfound
      rw [lockable.1] at hat
      contradiction
    · obtain ⟨rfl, hfailed⟩ := haborted
      obtain ⟨call, hcall, hfailed⟩ := List.any_eq_true.1 hfailed
      rintro (h | hnone)
      · contradiction
      · rw [hnone call hcall] at hfailed
        contradiction
  · rw [if_neg haborted] at hafter
    refine iff_of_true ⟨?_, ?_, ?_⟩ ?_
    · exact ⟨lockedRow input.now input.outpoint row, by simp [hafter, hseen], rfl⟩
    · exact ⟨honored, by simp [hafter, hconsumed], hnew.state⟩
    · rw [hafter]
    · cases model with
      | sync => exact .inl rfl
      | async => exact .inr (by simpa using haborted)

/-- An `honored` outcome is in the database, except where the asynchronous store's transaction
had been aborted by a statement of `deliver` that failed. -/
theorem honored_durable_iff (engine : HonorEngine G) (model : TxnModel) (key : HonorKey)
    (deliver : Deliver G) (opts : RegisterOpts) (db : Db G) (calls : List (PortCall G))
    (outpoint : Outpoint)
    (returns : (engine.honor key deliver opts).Returns calls (.ok (.honored outpoint)))
    (executed : Executed model db calls) :
    ∃ sampling now rest input reply,
      calls = sampling ++ rest ++ [⟨.runHonorTxn input, reply⟩] ∧
      (HonorEngine.now opts.now).Returns sampling (.ok now) ∧ input.deliver = deliver ∧
      (Durable (Store.runHonorTxn model db input).2 key outpoint now
          (goodsAfter db.goods (deliverCalls model db.goods input)) ↔
        model = .sync ∨ ∀ call ∈ deliverCalls model db.goods input, failed call = false) := by
  obtain ⟨past, input, reply, rfl⟩ := honor_returns_honored returns
  obtain ⟨reached, -, hsettle⟩ := honor_returns_of_gate returns
  cases reached with
  | @mk now sampling seen scoring candidate formId form preparing sampled _ _ _ _ =>
    obtain ⟨hresult, rfl⟩ := settleTxn_honored hsettle.symm
    rw [executed _ reply (List.mem_append_right _ (List.mem_singleton_self _))] at hresult
    exact ⟨sampling, now, _, _, reply, rfl, sampled, rfl, durable_iff_of_resolved hresult⟩

def failureReport (rethrow : Bool) (e : Thrown) : Except Thrown HonorOutcome :=
  if rethrow then .error e else .ok .deliveryFailed

/-- The wrapper around `deliver` sees a synchronous throw only, so a rejection is reported as
promised just when it is to be thrown again and is no gate violation. -/
theorem settleTxn_failure_iff (rethrow : Bool) (outpoint : Outpoint) (e : Thrown)
    (ended : Except Thrown DeliverEnd) (failed : ended = .error e ∨ ended = .ok (.rejects e)) :
    settleTxn rethrow outpoint ⟨some ended, .error e⟩ = failureReport rethrow e ↔
      ended = .error e ∨ (rethrow = true ∧ e.isGateViolation = false) := by
  rcases failed with rfl | rfl
  · cases rethrow <;> simp [settleTxn, failureReport]
  · cases e with
    | gateViolation kind message =>
      cases kind <;> cases rethrow <;>
        simp [settleTxn, failureReport, Thrown.isGateViolation]
    | _ => cases rethrow <;> simp [settleTxn, failureReport, Thrown.isGateViolation]

/-- A delivery that fails behind the gate is always rolled back; it is reported as a delivery
failure exactly when it threw synchronously, or is to be thrown again and is no gate violation. -/
theorem delivery_failure_reported_iff (engine : HonorEngine G) (model : TxnModel)
    (key : HonorKey) (deliver : Deliver G) (opts : RegisterOpts) (db gated : Db G)
    (calls : List (PortCall G)) (result : Except Thrown HonorOutcome) (input : HonorTxnInput G)
    (reply : TxnReply) (e : Thrown)
    (returns : (engine.honor key deliver opts).Returns calls result)
    (called : ⟨.runHonorTxn input, reply⟩ ∈ calls) (executed : Executed model db calls)
    (passed : gateWrites (driver model) db input = .ok gated)
    (fails : FailsWith model gated.goods input e) :
    (Store.runHonorTxn model db input).2 = db ∧
    (result = failureReport opts.rethrowDeliveryErrors e ↔
      deliverEnd model gated.goods input = .error e ∨
        (opts.rethrowDeliveryErrors = true ∧ e.isGateViolation = false)) := by
  obtain ⟨past, later, rfl⟩ := List.mem_iff_append.1 called
  obtain ⟨-, -, rfl⟩ := honor_returns_of_gate returns
  have hreply := executed input reply called
  rw [runHonorTxn_fails passed fails] at hreply ⊢
  subst hreply
  exact ⟨rfl, settleTxn_failure_iff _ _ e _ (fails.imp id And.right)⟩

theorem executed_of_last {engine : HonorEngine G} {model : TxnModel} {key : HonorKey}
    {deliver : Deliver G} {opts : RegisterOpts} {db : Db G} {calls : List (PortCall G)}
    {result : Except Thrown HonorOutcome} (input : HonorTxnInput G)
    (returns : (engine.honor key deliver opts).Returns calls result)
    (last : calls.getLast? =
      some ⟨.runHonorTxn input, (Store.runHonorTxn model db input).1⟩) :
    Executed model db calls := by
  intro other reply called
  obtain ⟨past, later, rfl⟩ := List.mem_iff_append.1 called
  obtain ⟨-, rfl, -⟩ := honor_returns_of_gate returns
  rw [List.getLast?_concat] at last
  cases last
  rfl

/-! `sampleQuote`, paid and deep enough, honored at time 20. -/

def sampleHonor (model : TxnModel) (deliver : Deliver Unit) :
    List (PortCall Unit) × Except Thrown HonorOutcome × World Unit :=
  runAlone model paidPorts (.booted (registeredDb model) 20)
    (sampleEngine.honor sampleQuote.key deliver {})

theorem sampleHonor_returns (model : TxnModel) (deliver : Deliver Unit) :
    (sampleEngine.honor sampleQuote.key deliver {}).Returns (sampleHonor model deliver).1
      (sampleHonor model deliver).2.1 :=
  run_returns _ _ _

def deliverTxn (deliver : Deliver Unit) : HonorTxnInput Unit :=
  { sampleTxn with deliver := deliver }

def boom : Thrown := .text "boom"
def rejecting : Deliver Unit := fun _ => .pure (.rejects boom)
def throwing : Deliver Unit := fun _ => .throw boom

/-- Its one statement fails, which it ignores. -/
def swallowing : Deliver Unit := fun _ =>
  .call ⟨fun _ => .error (.error 9 (some (.text "23503")) "foreign key violation")⟩
    fun _ => .pure .resolves

theorem delivery_rejection_escapes :
    (sampleEngine.honor sampleQuote.key rejecting {}).Returns (sampleHonor .async rejecting).1
      (.error boom) ∧
    Executed .async (registeredDb .async) (sampleHonor .async rejecting).1 ∧
    (∃ reply, ⟨.runHonorTxn (deliverTxn rejecting), reply⟩ ∈
      (sampleHonor .async rejecting).1) ∧
    (∃ gated, gateWrites (driver .async) (registeredDb .async) (deliverTxn rejecting) =
      .ok gated ∧ FailsWith .async gated.goods (deliverTxn rejecting) boom) ∧
    (.error boom : Except Thrown HonorOutcome) ≠ failureReport false boom := by
  have returns := sampleHonor_returns .async rejecting
  refine ⟨returns, executed_of_last (deliverTxn rejecting) returns rfl, ?_, ?_, nofun⟩
  · exact ⟨_, List.mem_of_getLast? rfl⟩
  · exact ⟨_, rfl, .inr ⟨rfl, rfl⟩⟩

theorem delivery_failure_reported_iff_throwing :
    (Store.runHonorTxn .async (registeredDb .async) (deliverTxn throwing)).2 =
      registeredDb .async ∧
    (sampleHonor .async throwing).2.1 = failureReport false boom := by
  have returns := sampleHonor_returns .async throwing
  obtain ⟨rolledBack, reported⟩ := delivery_failure_reported_iff sampleEngine .async
    sampleQuote.key throwing {} (registeredDb .async) _ _ _ (deliverTxn throwing) _ boom returns
    (List.mem_of_getLast? rfl) (executed_of_last (deliverTxn throwing) returns rfl) rfl (.inl rfl)
  exact ⟨rolledBack, reported.2 (.inl rfl)⟩

theorem honored_not_durable :
    (sampleEngine.honor sampleQuote.key swallowing {}).Returns
      (sampleHonor .async swallowing).1 (.ok (.honored ⟨"01", 0⟩)) ∧
    Executed .async (registeredDb .async) (sampleHonor .async swallowing).1 ∧
    (∃ reply, ⟨.runHonorTxn (deliverTxn swallowing), reply⟩ ∈
      (sampleHonor .async swallowing).1) ∧
    ¬ Durable (Store.runHonorTxn .async (registeredDb .async) (deliverTxn swallowing)).2
      sampleQuote.key ⟨"01", 0⟩ 20
      (goodsAfter () (deliverCalls .async () (deliverTxn swallowing))) := by
  have returns := sampleHonor_returns .async swallowing
  refine ⟨returns, executed_of_last (deliverTxn swallowing) returns rfl,
    ⟨_, List.mem_of_getLast? rfl⟩, fun durable => ?_⟩
  obtain ⟨row, hrow, hat⟩ := durable.seen
  cases hrow
  cases hat

theorem honored_durable_iff_paid :
    Durable (Store.runHonorTxn .async (registeredDb .async) sampleTxn).2 sampleQuote.key
      ⟨"01", 0⟩ 20 (goodsAfter () (deliverCalls .async () sampleTxn)) := by
  have returns := sampleHonor_returns .async sampleTxn.deliver
  obtain ⟨sampling, now, rest, input, reply, hcalls, sampled, -, durable⟩ :=
    honored_durable_iff sampleEngine .async sampleQuote.key sampleTxn.deliver {}
      (registeredDb .async) _ ⟨"01", 0⟩ returns (executed_of_last sampleTxn returns rfl)
  obtain ⟨_, rfl, hnow⟩ := returns_ask_iff.1 sampled
  have first := congrArg List.head? hcalls
  have last := congrArg List.getLast? hcalls
  rw [List.getLast?_concat] at last
  cases first
  cases last
  cases hnow
  exact durable.2 (.inr (by decide))

end HonorEngine
end ExferHonor
