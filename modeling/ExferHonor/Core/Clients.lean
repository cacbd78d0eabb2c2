import ExferHonor.Adapters.StoreCalls
import ExferHonor.Core.World
import ExferHonor.Effects.History

/-! The store under all its clients: the calls of an engine and calls of the store by themselves,
such as those of another process, in any interleaving. -/
namespace ExferHonor
open Effects

variable {G : Type}

def Op.ofStore : Op G → Bool
  | .upsertAccepted _ _ _ => true
  | .getSeen _ => true
  | .markObservedBeforeExpiry _ _ => true
  | .reserveClaimOutpoint _ _ _ _ => true
  | .runHonorTxn _ => true
  | .sweep _ => true
  | _ => false

inductive Client (G : Type) where
  | task (task : EngineTask G)
  | call (op : Op G)

def Client.mayStart : Client G → Prop
  | .task _ => True
  | .call op => op.ofStore = true

def HonorEngine.client (engine : HonorEngine G) : Client G → Async G Unit
  | .task task => (engine.program task).bind fun _ => .pure ()
  | .call op => .call op fun _ => .pure ()

def ClockMoves (before after : World G) : Prop :=
  after = { before with clock := after.clock }

def clientSystem (engine : HonorEngine G) :
    System (World G) (Op G) Op.Reply Thrown Unit (Client G) where
  program := engine.client
  perform := World.perform .sync
  mayStart _ client := client.mayStart
  mayShift := ClockMoves

abbrev ClientEvent (G : Type) := Event (World G) (Op G) Op.Reply (Client G)
abbrev ClientPool (G : Type) := Pool (World G) (Op G) Op.Reply Thrown Unit (Client G)

namespace World

def seenRow (key : HonorKey) (world : World G) : Option SeenRowSql := world.db.seen.find? key

def consumedRow (outpoint : Outpoint) (world : World G) : Option ConsumedRow :=
  world.db.consumed.find? outpoint

theorem perform_seenRow (world : World G) (op : Op G) (answer : op.Reply) (key : HonorKey) :
    (perform .sync world op answer).2.seenRow key =
      if Store.succeeds ⟨op, (perform .sync world op answer).1⟩ = true then
        Store.seenAfter key (world.seenRow key) op
      else world.seenRow key := by
  unfold perform
  split
  iterate 5 rfl
  exact Store.perform_seenAfter _ _ _ _

theorem perform_consumedRow (world : World G) (op : Op G) (answer : op.Reply)
    (outpoint : Outpoint) :
    (perform .sync world op answer).2.consumedRow outpoint =
      if Store.succeeds ⟨op, (perform .sync world op answer).1⟩ = true then
        Store.consumedAfter outpoint (world.consumedRow outpoint) op
      else world.consumedRow outpoint := by
  unfold perform
  split
  iterate 5 rfl
  exact Store.perform_consumedAfter _ _ _ _

end World

def committed (call : PortCall G) : Option (HonorTxnInput G) :=
  match call.op with
  | .runHonorTxn input => if Store.succeeds call then some input else none
  | _ => none

section
variable {engine : HonorEngine G} {event : ClientEvent G}

theorem seenRow_after (performed : event.PerformedBy (clientSystem engine)) (key : HonorKey) :
    event.after.seenRow key = if Store.succeeds event.call = true then
      Store.seenAfter key (event.before.seenRow key) event.call.op
    else event.before.seenRow key := by
  obtain ⟨_, _, _, before, op, answer, rfl⟩ := performed
  exact World.perform_seenRow before op answer key

theorem consumedRow_after (performed : event.PerformedBy (clientSystem engine))
    (outpoint : Outpoint) :
    event.after.consumedRow outpoint = if Store.succeeds event.call = true then
      Store.consumedAfter outpoint (event.before.consumedRow outpoint) event.call.op
    else event.before.consumedRow outpoint := by
  obtain ⟨_, _, _, before, op, answer, rfl⟩ := performed
  exact World.perform_consumedRow before op answer outpoint

theorem committed_eq_some {call : PortCall G} {input : HonorTxnInput G}
    (commits : committed call = some input) :
    call.op = .runHonorTxn input ∧ Store.succeeds call = true := by
  unfold committed at commits
  split at commits
  next op =>
    split at commits
    next success =>
      cases commits
      exact ⟨op, success⟩
    next => cases commits
  next => cases commits

theorem committed_of_succeeds {input : HonorTxnInput G} {reply : TxnReply}
    (success : Store.succeeds (⟨.runHonorTxn input, reply⟩ : PortCall G) = true) :
    committed (⟨.runHonorTxn input, reply⟩ : PortCall G) = some input :=
  if_pos success

theorem World.perform_goods {world : World G} {op : Op G} {answer : op.Reply}
    (uncommitted : committed ⟨op, (perform .sync world op answer).1⟩ = none) :
    (perform .sync world op answer).2.db.goods = world.db.goods := by
  by_cases txn : ∃ input, op = .runHonorTxn input
  · obtain ⟨input, rfl⟩ := txn
    have failed : Store.succeeds ⟨.runHonorTxn input,
        (perform .sync world (.runHonorTxn input) answer).1⟩ = false := by
      by_contra success
      rw [committed_of_succeeds (by simpa using success)] at uncommitted
      cases uncommitted
    exact congrArg Db.goods (Store.perform_fails failed)
  · unfold perform
    split
    iterate 5 rfl
    exact Store.perform_goods _ _ fun input same => txn ⟨input, same⟩

theorem World.perform_committed {world : World G} {op : Op G} {answer : op.Reply}
    {input : HonorTxnInput G}
    (commits : committed ⟨op, (perform .sync world op answer).1⟩ = some input) :
    ∃ gated, gateWrites SqliteStore.driver world.db input = .ok gated ∧
      (perform .sync world op answer).2.db = { gated with
        goods := Store.goodsAfter gated.goods (Store.deliverCalls .sync gated.goods input) } ∧
      Store.deliverEnd .sync gated.goods input = .ok .value := by
  obtain ⟨hop, success⟩ := committed_eq_some commits
  obtain rfl : op = .runHonorTxn input := hop
  obtain ⟨gated, passed, hdb⟩ := Store.committed_txn success
  exact ⟨gated, passed, hdb, Store.ended_txn success passed⟩

theorem gated_of_committed (performed : event.PerformedBy (clientSystem engine))
    {input : HonorTxnInput G} (commits : committed event.call = some input) :
    (∃ row, event.before.seenRow input.key = some row ∧ Statements.Lockable input.now row) ∧
      ∃ row, HonoredRow input (event.before.consumedRow input.outpoint) row := by
  obtain ⟨hop, success⟩ := committed_eq_some commits
  obtain ⟨_, _, _, before, op, answer, rfl⟩ := performed
  obtain rfl : op = .runHonorTxn input := hop
  exact Store.txn_gated success

end

/-! One process of the library and a client of its own, over one empty database. -/

abbrev ClientMove := Move (World Unit) (Op Unit) Op.Reply (Client Unit)

def clientTurns (index count : Nat) : List ClientMove :=
  .replicate count (.advance index paidPorts.answer)

def clientPool (moves : List ClientMove) : ClientPool Unit :=
  (Pool.fresh (.booted (.empty ()) 20)).play (clientSystem sampleEngine) moves

end ExferHonor
