import ExferHonor.Adapters.StoreOps
import ExferHonor.Relational.OrderedMap

/-! The reference in-memory store of the engine tests: two maps and the committed goods, with an
honor transaction that works on staged copies and publishes them at its end. -/
namespace ExferHonor
open Effects Relational

def outpointKey (o : Outpoint) : String := o.txId ++ ":" ++ decimalText o.outputIndex

structure FakeSyncStore where
  seen : OrderedMap String SeenRow
  outpoints : OrderedMap String OutpointRow
  goods : Goods

namespace FakeSyncStore

def empty : FakeSyncStore := ⟨.empty, .empty, ∅⟩

def rk (key : HonorKey) : String := key.signerPubkey ++ ":" ++ key.quoteId

def acceptedRow (a : AcceptedQuote) (acceptedAt retainUntil : Int) : SeenRow where
  signerPubkey := a.signerPubkey
  quoteId := a.quoteId
  payeePubkey := a.payeePubkey
  payerPubkey := a.payerPubkey
  exferAmount := a.exferAmount
  form := a.form
  acceptedAt := acceptedAt
  expiresAt := a.expiresAt
  observedBeforeExpiry := false
  honoredAt := none
  honoredOutpoint := none
  retainUntil := retainUntil

def upsertAccepted (store : FakeSyncStore) (a : AcceptedQuote) (acceptedAt retainUntil : Int) :
    FakeSyncStore :=
  { store with
    seen := store.seen.setNew (rk a.key) (acceptedRow a acceptedAt retainUntil) }

def getSeen (store : FakeSyncStore) (key : HonorKey) : Option SeenRow := store.seen.get? (rk key)

def listHonorable (store : FakeSyncStore) (signerPubkey : PubKey) (now : Int) : List SeenRow :=
  store.seen.values.filter fun r =>
    r.signerPubkey = signerPubkey ∧ r.honoredAt = none ∧ now < r.retainUntil

def markObservedBeforeExpiry (store : FakeSyncStore) (key : HonorKey) (now : Int) :
    FakeSyncStore :=
  match store.seen.get? (rk key) with
  | some row =>
      if now < row.expiresAt then
        { store with seen := store.seen.set (rk key) { row with observedBeforeExpiry := true } }
      else store
  | none => store

def isOutpointConsumed (store : FakeSyncStore) (o : Outpoint) : Bool :=
  match store.outpoints.get? (outpointKey o) with
  | some row => row.state = .honored
  | none => false

def reservedRow (key : HonorKey) (o : Outpoint) : OutpointRow where
  txId := o.txId
  outputIndex := o.outputIndex
  signerPubkey := key.signerPubkey
  quoteId := key.quoteId
  state := .claimPending
  honoredAt := none
  retainUntil := maxSafeInteger

def reserveClaimOutpoint (store : FakeSyncStore) (key : HonorKey) (o : Outpoint) :
    FakeSyncStore :=
  { store with outpoints := store.outpoints.setNew (outpointKey o) (reservedRow key o) }

def missingRow : Thrown := .gateViolation .expiredWindow "SEEN row missing (swept mid-honor)"
def alreadyHonored : Thrown :=
  .gateViolation .seenAlreadyHonored "SEEN row already honored (concurrent honor / re-honor)"
def notLockable : Thrown :=
  .gateViolation .expiredWindow
    "SEEN row not lockable (out-of-window / late-honor without observation, §5.9)"
def pkCollision : Thrown := .gateViolation .outpointConsumed "PK collision on insert (R1)"
def notPending : Thrown :=
  .gateViolation .outpointConsumed "promote target not in claim_pending (F13)"

/-- Step 1: the SEEN hard-lock, on a staged copy. -/
def stageSeen (store : FakeSyncStore) (input : HonorTxnInput Goods) : Except Thrown SeenRow :=
  match store.seen.get? (rk input.key) with
  | none => .error missingRow
  | some stagedSeen =>
      if stagedSeen.honoredAt ≠ none then .error alreadyHonored
      else
        let insideRetention : Bool := input.now < stagedSeen.retainUntil
        let lateHonorOk := input.now < stagedSeen.expiresAt || stagedSeen.observedBeforeExpiry
        if !insideRetention || !lateHonorOk then .error notLockable
        else .ok { stagedSeen with
          honoredAt := some input.now
          honoredOutpoint := some input.outpoint }

def insertedRow (input : HonorTxnInput Goods) : OutpointRow where
  txId := input.outpoint.txId
  outputIndex := input.outpoint.outputIndex
  signerPubkey := input.key.signerPubkey
  quoteId := input.key.quoteId
  state := .honored
  honoredAt := some input.now
  retainUntil := input.retainUntil

def stageOutpoint (store : FakeSyncStore) (input : HonorTxnInput Goods) :
    Except Thrown OutpointRow :=
  match input.mode, store.outpoints.get? (outpointKey input.outpoint) with
  | .single, some _ => .error pkCollision
  | .single, none => .ok (insertedRow input)
  | .promote, none => .error notPending
  | .promote, some existing =>
      if existing.state ≠ .claimPending then .error notPending
      else .ok { existing with
        state := .honored
        honoredAt := some input.now
        retainUntil := input.retainUntil }

/-- A statement of `deliver` acts on the goods it has staged itself. -/
def stageGoods (stagedGoods : Goods) (stmt : GoodsStmt Goods) : GoodsReply stmt × Goods :=
  match stmt.exec stagedGoods with
  | .ok after => (.ok after, after)
  | .error e => (.error e, stagedGoods)

def asyncDeliver : Thrown :=
  .error 4 none "async deliver under sync store (F8 runtime guard)"

def stage (store : FakeSyncStore) (input : HonorTxnInput Goods) :
    Except Thrown (SeenRow × OutpointRow) := do
  let stagedSeen ← store.stageSeen input
  let stagedOutpoint ← store.stageOutpoint input
  pure (stagedSeen, stagedOutpoint)

/-- COMMIT: the staged rows and goods become visible together. -/
def publish (store : FakeSyncStore) (input : HonorTxnInput Goods)
    (staged : SeenRow × OutpointRow) (stagedGoods : Goods) : FakeSyncStore where
  seen := store.seen.set (rk input.key) staged.1
  outpoints := store.outpoints.set (outpointKey input.outpoint) staged.2
  goods := store.goods ∪ stagedGoods

def runHonorTxn (store : FakeSyncStore) (input : HonorTxnInput Goods) :
    TxnReply × FakeSyncStore :=
  match store.stage input with
  | .error e => (⟨none, .error e⟩, store)
  | .ok staged =>
      let run := (input.deliver input.ctx).run stageGoods ∅
      match run.2.1 with
      | .error e => (⟨some (.error e), .error e⟩, store)
      | .ok .value => (⟨some (.ok .value), .ok ()⟩, store.publish input staged run.2.2)
      | .ok promise => (⟨some (.ok promise), .error asyncDeliver⟩, store)

def sweep (store : FakeSyncStore) (now : Int) : SweepResult × FakeSyncStore :=
  let seen := store.seen.deleteEach fun r => r.retainUntil < now
  let outpoints := store.outpoints.deleteEach fun r => r.retainUntil < now
  (⟨seen.2, outpoints.2⟩, { store with seen := seen.1, outpoints := outpoints.1 })

def execute : Machine FakeSyncStore StoreOp StoreAnswer
  | store, .upsertAccepted quote acceptedAt retainUntil =>
      (.done, store.upsertAccepted quote acceptedAt retainUntil)
  | store, .getSeen key => (.row (store.getSeen key), store)
  | store, .listHonorable signerPubkey now => (.rows (store.listHonorable signerPubkey now), store)
  | store, .markObservedBeforeExpiry key now => (.done, store.markObservedBeforeExpiry key now)
  | store, .isOutpointConsumed outpoint => (.consumed (store.isOutpointConsumed outpoint), store)
  | store, .reserveClaimOutpoint key outpoint _ _ =>
      (.done, store.reserveClaimOutpoint key outpoint)
  | store, .runHonorTxn txn =>
      let run := store.runHonorTxn (txn.input .sync)
      (.txn run.1.outcome, run.2)
  | store, .sweep now => (.swept (store.sweep now).1, (store.sweep now).2)

def contents (store : FakeSyncStore) : Contents where
  seen := store.seen.values
  consumed := store.outpoints.values
  goods := store.goods

variable {store : FakeSyncStore} {txn : HonorTxn} {staged : SeenRow × OutpointRow}

theorem execute_stopped {e : Thrown} (stopped : store.stage (txn.input .sync) = .error e) :
    store.execute (.runHonorTxn txn) = (.txn (TxnReply.outcome ⟨none, .error e⟩), store) := by
  simp only [execute, runHonorTxn, stopped]

theorem execute_passed (passed : store.stage (txn.input .sync) = .ok staged) :
    store.execute (.runHonorTxn txn) =
      txn.settle (store.publish (txn.input .sync) staged txn.records.keys.toFinset) store := by
  have run := recordAll_run stageGoods id (fun _ _ => rfl) ∅ txn.records.keys
    (deliverEnds .sync txn.records.ends)
  have hdeliver : (txn.input .sync).deliver (txn.input .sync).ctx =
    recordAll txn.records.keys (deliverEnds .sync txn.records.ends) := rfl
  simp only [id, Finset.empty_union] at run
  simp only [execute, runHonorTxn, passed, hdeliver, run]
  unfold HonorTxn.settle
  cases txn.records.ends <;> rfl

end FakeSyncStore
end ExferHonor
