import ExferHonor.Adapters.Gate

/-! The asynchronous store over node-postgres. The gate writes, `deliver` and COMMIT run in one
transaction on one client; once a statement has failed the transaction can only roll back. -/
namespace ExferHonor
namespace PostgresStore
open Effects

variable {G : Type}

def uniqueViolation : Thrown :=
  .error 2 (some (.text "23505"))
    "duplicate key value violates unique constraint \"quote_consumed_outpoint_pkey\""

def isUniqueViolation (e : Thrown) : Bool := e.code? = some (.text "23505")

def driver : Driver := ⟨uniqueViolation, isUniqueViolation⟩

/-- A BIGINT column: node-postgres hands it over as decimal text. -/
inductive BigInt64 where
  | text (value : String)
  | number (value : Int)
  deriving DecidableEq, Repr

def num : BigInt64 → Int
  | .text value => decimalValue value
  | .number value => value

structure DriverRow where
  row : SeenRowSql
  acceptedAt : BigInt64
  expiresAt : BigInt64
  honoredAt : Option BigInt64
  retainUntil : BigInt64
  deriving DecidableEq, Repr

def driverRow (r : SeenRowSql) : DriverRow where
  row := r
  acceptedAt := .text (decimalText r.acceptedAt)
  expiresAt := .text (decimalText r.expiresAt)
  honoredAt := r.honoredAt.map fun at_ => .text (decimalText at_)
  retainUntil := .text (decimalText r.retainUntil)

def rowFromSql (r : DriverRow) : SeenRow where
  signerPubkey := r.row.signerPubkey
  quoteId := r.row.quoteId
  payeePubkey := r.row.payeePubkey
  payerPubkey := r.row.payerPubkey
  exferAmount := decimalValue r.row.exferAmount
  form := r.row.form
  acceptedAt := num r.acceptedAt
  expiresAt := num r.expiresAt
  observedBeforeExpiry := r.row.observedBeforeExpiry
  honoredAt := r.honoredAt.map num
  honoredOutpoint := r.row.honoredOutpoint
  retainUntil := num r.retainUntil

/-- The open transaction: the goods as it sees them and whether a statement has failed. -/
structure Txn (G : Type) where
  goods : G
  aborted : Bool

def inFailedTransaction : Thrown :=
  .error 3 (some (.text "25P02"))
    "current transaction is aborted, commands ignored until end of transaction block"

def exec (txn : Txn G) (stmt : GoodsStmt G) : GoodsReply stmt × Txn G :=
  if txn.aborted then (.error inFailedTransaction, txn)
  else match stmt.exec txn.goods with
    | .ok after => (.ok after, { txn with goods := after })
    | .error e => (.error e, { txn with aborted := true })

/-- COMMIT of an aborted transaction ends it as a rollback, without an error. -/
def commit (db gated : Db G) (txn : Txn G) : Db G :=
  if txn.aborted then db else { gated with goods := txn.goods }

/-- `await input.deliver(ctx)`, then COMMIT; any throw or rejection is followed by ROLLBACK and
comes out again. -/
def runHonorTxn (db : Db G) (input : HonorTxnInput G) : TxnReply × Db G :=
  match gateWrites driver db input with
  | .error e => (⟨none, .error e⟩, db)
  | .ok gated =>
      let run := (input.deliver input.ctx).run exec ⟨gated.goods, false⟩
      match run.2.1 with
      | .error e => (⟨some (.error e), .error e⟩, db)
      | .ok (.rejects e) => (⟨some (.ok (.rejects e)), .error e⟩, db)
      | .ok ended => (⟨some (.ok ended), .ok ()⟩, commit db gated run.2.2)

end PostgresStore
end ExferHonor
