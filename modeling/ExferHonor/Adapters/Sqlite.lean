import ExferHonor.Adapters.Gate

/-! The synchronous store over better-sqlite3. The whole honor transaction runs between BEGIN
and COMMIT without giving up the event loop; a statement that fails is undone alone. -/
namespace ExferHonor
namespace SqliteStore
open Effects

variable {G : Type}

def uniqueViolation : Thrown :=
  .error 0 (some (.text "SQLITE_CONSTRAINT_PRIMARYKEY"))
    "UNIQUE constraint failed: quote_consumed_outpoint.tx_id, quote_consumed_outpoint.output_index"

def isUniqueViolation (e : Thrown) : Bool :=
  match e.code? with
  | some (.text code) => "SQLITE_CONSTRAINT".toList.isPrefixOf code.toList
  | _ => false

def driver : Driver := ⟨uniqueViolation, isUniqueViolation⟩

def rowFromSql (r : SeenRowSql) : SeenRow where
  signerPubkey := r.signerPubkey
  quoteId := r.quoteId
  payeePubkey := r.payeePubkey
  payerPubkey := r.payerPubkey
  exferAmount := decimalValue r.exferAmount
  form := r.form
  acceptedAt := r.acceptedAt
  expiresAt := r.expiresAt
  observedBeforeExpiry := r.observedBeforeExpiry
  honoredAt := r.honoredAt
  honoredOutpoint := r.honoredOutpoint
  retainUntil := r.retainUntil

def exec (goods : G) (stmt : GoodsStmt G) : GoodsReply stmt × G :=
  match stmt.exec goods with
  | .ok after => (.ok after, after)
  | .error e => (.error e, goods)

/-- The F8 runtime guard. -/
def asyncDeliver : Thrown :=
  .error 1 none
    "async deliver under a sync (better-sqlite3) store: returned a Promise (F8 runtime guard)"

/-- `db.transaction(fn)`: a throw in the body rolls everything back and comes out again. -/
def runHonorTxn (db : Db G) (input : HonorTxnInput G) : TxnReply × Db G :=
  match gateWrites driver db input with
  | .error e => (⟨none, .error e⟩, db)
  | .ok gated =>
      let run := (input.deliver input.ctx).run exec gated.goods
      match run.2.1 with
      | .error e => (⟨some (.error e), .error e⟩, db)
      | .ok .value => (⟨some (.ok .value), .ok ()⟩, { gated with goods := run.2.2 })
      | .ok promise => (⟨some (.ok promise), .error asyncDeliver⟩, db)

end SqliteStore
end ExferHonor
