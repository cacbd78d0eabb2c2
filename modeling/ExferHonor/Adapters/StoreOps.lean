import ExferHonor.Adapters.Store
import ExferHonor.Effects.Machine
import Mathlib.Data.Finset.Lattice.Lemmas
import Mathlib.Data.Multiset.MapFold

/-! Every operation of the store port, answered by each of the two SQL stores, and what such a
store holds. The consumer's goods are the keys recorded so far. -/
namespace ExferHonor
open Effects Relational

abbrev Goods := Finset String

def recordGoods (goodsKey : String) : GoodsStmt Goods where
  exec goods := .ok (insert goodsKey goods)

/-- A `deliver` that records goods under `keys` through `ctx.db` and then completes or throws. -/
structure Recording where
  keys : List String
  ends : Except Thrown Unit

/-- The end of a `deliver`: a plain value or a synchronous throw under the synchronous store, a
promise under the other. -/
def deliverEnds : TxnModel → Except Thrown Unit → Except Thrown DeliverEnd
  | .sync, .ok _ => .ok .value
  | .sync, .error e => .error e
  | .async, .ok _ => .ok .resolves
  | .async, .error e => .ok (.rejects e)

def recordAll (keys : List String) (ends : Except Thrown DeliverEnd) :
    Program (GoodsStmt Goods) GoodsReply Thrown DeliverEnd :=
  match keys with
  | [] => .ofExcept ends
  | goodsKey :: keys => (Program.call (recordGoods goodsKey) .ofExcept).bind fun _ =>
      recordAll keys ends

/-- The input of an honor transaction, for a store of either model. -/
structure HonorTxn where
  key : HonorKey
  candidate : SettlementCandidate
  outpoint : Outpoint
  now : Int
  retainUntil : Int
  mode : GateMode
  deliver : DeliverContext → Recording

def HonorTxn.input (txn : HonorTxn) (model : TxnModel) : HonorTxnInput Goods where
  key := txn.key
  candidate := txn.candidate
  outpoint := txn.outpoint
  now := txn.now
  retainUntil := txn.retainUntil
  mode := txn.mode
  deliver ctx := recordAll (txn.deliver ctx).keys (deliverEnds model (txn.deliver ctx).ends)

inductive StoreOp where
  | upsertAccepted (quote : AcceptedQuote) (acceptedAt retainUntil : Int)
  | getSeen (key : HonorKey)
  | listHonorable (signerPubkey : PubKey) (now : Int)
  | markObservedBeforeExpiry (key : HonorKey) (now : Int)
  | isOutpointConsumed (outpoint : Outpoint)
  | reserveClaimOutpoint (key : HonorKey) (outpoint : Outpoint) (claimTxId : Hex) (now : Int)
  | runHonorTxn (txn : HonorTxn)
  | sweep (now : Int)

def StoreOp.signer? : StoreOp → Option PubKey
  | .upsertAccepted quote _ _ => some quote.signerPubkey
  | .getSeen key => some key.signerPubkey
  | .listHonorable signerPubkey _ => some signerPubkey
  | .markObservedBeforeExpiry key _ => some key.signerPubkey
  | .isOutpointConsumed _ => none
  | .reserveClaimOutpoint key _ _ _ => some key.signerPubkey
  | .runHonorTxn txn => some txn.key.signerPubkey
  | .sweep _ => none

/-- How a transaction ends for its caller: a violation of the gate counts by its kind, anything
`deliver` throws as it is. -/
inductive TxnOutcome where
  | committed
  | refused (kind : GateViolationKind)
  | failed (e : Thrown)
  deriving DecidableEq, Repr

def TxnReply.outcome (reply : TxnReply) : TxnOutcome :=
  match reply.result with
  | .ok _ => .committed
  | .error e =>
      match reply.called, e with
      | none, .gateViolation kind _ => .refused kind
      | _, e => .failed e

/-- The answer to an operation. Rows come in no particular order. -/
inductive StoreAnswer where
  | done
  | row (row : Option SeenRow)
  | rows (rows : Multiset SeenRow)
  | consumed (consumed : Bool)
  | txn (outcome : TxnOutcome)
  | swept (result : SweepResult)
  deriving DecidableEq

structure OutpointRow where
  txId : Hex
  outputIndex : Int
  signerPubkey : PubKey
  quoteId : QuoteId
  state : ConsumedState
  honoredAt : Option Int
  retainUntil : Int
  deriving DecidableEq, Repr

def ConsumedRow.outpointRow (row : ConsumedRow) : OutpointRow where
  txId := row.txId
  outputIndex := row.outputIndex
  signerPubkey := row.signerPubkey
  quoteId := row.quoteId
  state := row.state
  honoredAt := row.honoredAt
  retainUntil := row.retainUntil

structure Contents where
  seen : Multiset SeenRow
  consumed : Multiset OutpointRow
  goods : Goods
  deriving DecidableEq

namespace Store

def execute (model : TxnModel) : Machine (Db Goods) StoreOp StoreAnswer
  | db, .upsertAccepted quote acceptedAt retainUntil =>
      (.done, { db with seen := Statements.upsertAccepted db.seen quote acceptedAt retainUntil })
  | db, .getSeen key => (.row ((Statements.getSeen db.seen key).map (rowFromSql model)), db)
  | db, .listHonorable signerPubkey now => (.rows (listHonorable model db signerPubkey now), db)
  | db, .markObservedBeforeExpiry key now =>
      (.done, { db with seen := Statements.markObserved db.seen key now })
  | db, .isOutpointConsumed outpoint =>
      (.consumed (Statements.isOutpointConsumed db.consumed outpoint), db)
  | db, .reserveClaimOutpoint key outpoint claimTxId _ =>
      (.done, { db with consumed := Statements.reserveClaim db.consumed key outpoint claimTxId })
  | db, .runHonorTxn txn =>
      let run := runHonorTxn model db (txn.input model)
      (.txn run.1.outcome, run.2)
  | db, .sweep now => (.swept (sweep db now).1, (sweep db now).2)

def contents (model : TxnModel) (db : Db Goods) : Contents where
  seen := db.seen.rows.map (rowFromSql model)
  consumed := db.consumed.rows.map ConsumedRow.outpointRow
  goods := db.goods

end Store

theorem recordAll_run {σ : Type} (handler : σ → (stmt : GoodsStmt Goods) → GoodsReply stmt × σ)
    (holding : Goods → σ) (records : ∀ goods goodsKey,
      handler (holding goods) (recordGoods goodsKey) =
        (.ok (insert goodsKey goods), holding (insert goodsKey goods)))
    (goods : Goods) (keys : List String) (ends : Except Thrown DeliverEnd) :
    ((recordAll keys ends).run handler (holding goods)).2 =
      (ends, holding (goods ∪ keys.toFinset)) := by
  induction keys generalizing goods with
  | nil =>
    rw [List.toFinset_nil, Finset.union_empty]
    cases ends <;> rfl
  | cons goodsKey keys ih =>
    have later := ih (insert goodsKey goods)
    rw [Finset.insert_union, ← Finset.union_insert, ← List.toFinset_cons] at later
    simpa only [recordAll, Program.bind, Program.ofExcept, Program.run, records] using later

def HonorTxn.ctx (txn : HonorTxn) : DeliverContext where
  key := txn.key
  candidate := txn.candidate
  honoredAt := txn.now

def HonorTxn.records (txn : HonorTxn) : Recording := txn.deliver txn.ctx

/-- Behind the gate `deliver` decides: its completion commits, its error rolls back. -/
def HonorTxn.settle {S : Type} (txn : HonorTxn) (committed before : S) : StoreAnswer × S :=
  match txn.records.ends with
  | .ok _ => (.txn .committed, committed)
  | .error e => (.txn (.failed e), before)

namespace Store
variable {model : TxnModel} {db gated : Db Goods} {txn : HonorTxn}

theorem execute_stopped {e : Thrown}
    (stopped : gateWrites (driver model) db (txn.input model) = .error e) :
    execute model db (.runHonorTxn txn) = (.txn (TxnReply.outcome ⟨none, .error e⟩), db) := by
  cases model <;>
    simp only [driver] at stopped <;>
    simp only [execute, runHonorTxn, SqliteStore.runHonorTxn, PostgresStore.runHonorTxn, stopped]

theorem execute_passed (passed : gateWrites (driver model) db (txn.input model) = .ok gated) :
    execute model db (.runHonorTxn txn) =
      txn.settle { gated with goods := gated.goods ∪ txn.records.keys.toFinset } db := by
  unfold HonorTxn.settle
  cases model with
  | sync =>
    simp only [driver] at passed
    have run := recordAll_run SqliteStore.exec id (fun _ _ => rfl) gated.goods
      txn.records.keys (deliverEnds .sync txn.records.ends)
    have hdeliver : (txn.input .sync).deliver (txn.input .sync).ctx =
      recordAll txn.records.keys (deliverEnds .sync txn.records.ends) := rfl
    simp only [id] at run
    simp only [execute, runHonorTxn, SqliteStore.runHonorTxn, passed, hdeliver, run]
    cases txn.records.ends <;> rfl
  | async =>
    simp only [driver] at passed
    have run := recordAll_run PostgresStore.exec (⟨·, false⟩) (fun _ _ => rfl) gated.goods
      txn.records.keys (deliverEnds .async txn.records.ends)
    have hdeliver : (txn.input .async).deliver (txn.input .async).ctx =
      recordAll txn.records.keys (deliverEnds .async txn.records.ends) := rfl
    simp only [execute, runHonorTxn, PostgresStore.runHonorTxn, passed, hdeliver, run]
    cases txn.records.ends <;> rfl

theorem driver_recognises (model : TxnModel) :
    (driver model).isUniqueViolation (driver model).uniqueViolation = true := by
  cases model <;> decide

theorem gateWrites_models (db : Db Goods) (txn : HonorTxn) (model : TxnModel) :
    gateWrites (driver model) db (txn.input model) =
      gateWrites (driver .sync) db (txn.input .sync) := by
  have consumed : gateConsumed (driver model) db.consumed (txn.input model) =
      gateConsumed (driver .sync) db.consumed (txn.input .sync) := by
    unfold gateConsumed
    simp only [driver_recognises, if_true]
    rfl
  unfold gateWrites
  rw [consumed]
  rfl

/-- The two SQL stores answer every operation alike and leave the same rows behind. -/
theorem execute_models (model : TxnModel) (db : Db Goods) (op : StoreOp) :
    execute model db op = execute .sync db op := by
  have rows : rowFromSql model = rowFromSql .sync := funext (rowFromSql_eq model)
  cases op with
  | runHonorTxn txn =>
    have gates := gateWrites_models db txn model
    cases gate : gateWrites (driver .sync) db (txn.input .sync) with
    | error e => rw [execute_stopped gate, execute_stopped (gates.trans gate)]
    | ok gated => rw [execute_passed gate, execute_passed (gates.trans gate)]
  | getSeen key => simp only [execute, rows]
  | listHonorable signerPubkey now => simp only [execute, listHonorable, rows]
  | _ => rfl

theorem contents_models (model : TxnModel) (db : Db Goods) :
    contents model db = contents .sync db := by
  have rows : rowFromSql model = rowFromSql .sync := funext (rowFromSql_eq model)
  simp only [contents, rows]

end Store
end ExferHonor
