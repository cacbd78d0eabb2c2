import ExferHonor.Adapters.Postgres
import ExferHonor.Adapters.Sqlite
import ExferHonor.Ports.Interface

/-! Both stores as one database that answers the store's operations, each of them atomic. The
transaction model tells the stores apart: `sync` is the SqliteStore, `async` the PostgresStore. -/
namespace ExferHonor
namespace Store
open Effects Relational Statements

variable {G : Type}

def driver : TxnModel → Driver
  | .sync => SqliteStore.driver
  | .async => PostgresStore.driver

def rowFromSql (model : TxnModel) (r : SeenRowSql) : SeenRow :=
  match model with
  | .sync => SqliteStore.rowFromSql r
  | .async => PostgresStore.rowFromSql (PostgresStore.driverRow r)

def listHonorable (model : TxnModel) (db : Db G) (signerPubkey : PubKey) (now : Int) :
    List SeenRow :=
  (Statements.listHonorable db.seen signerPubkey now).map (rowFromSql model)

def runHonorTxn (model : TxnModel) (db : Db G) (input : HonorTxnInput G) : TxnReply × Db G :=
  match model with
  | .sync => SqliteStore.runHonorTxn db input
  | .async => PostgresStore.runHonorTxn db input

def sweep (db : Db G) (now : Int) : SweepResult × Db G :=
  let seen := sweepSeen db.seen now
  let consumed := sweepOutpoints db.consumed now
  (⟨seen.2, consumed.2⟩, { db with seen := seen.1, consumed := consumed.1 })

/-- A call of the store. Where the outside world answers with a fault, the call throws it and
changes nothing; calls of other ports are none of the store's business. -/
def perform (model : TxnModel) (db : Db G) : (op : Op G) → op.Reply → op.Reply × Db G
  | .upsertAccepted quote acceptedAt retainUntil, .ok _ =>
      (.ok (), { db with seen := upsertAccepted db.seen quote acceptedAt retainUntil })
  | .getSeen key, .ok _ => (.ok ((getSeen db.seen key).map (rowFromSql model)), db)
  | .markObservedBeforeExpiry key now, .ok _ =>
      (.ok (), { db with seen := markObserved db.seen key now })
  | .reserveClaimOutpoint key outpoint claimTxId _, .ok _ =>
      (.ok (), { db with consumed := reserveClaim db.consumed key outpoint claimTxId })
  | .runHonorTxn _, ⟨none, .error e⟩ => (⟨none, .error e⟩, db)
  | .runHonorTxn input, _ => runHonorTxn model db input
  | .sweep now, .ok _ => (.ok (sweep db now).1, (sweep db now).2)
  | _, answer => (answer, db)

theorem rowFromSql_eq (model : TxnModel) (r : SeenRowSql) :
    rowFromSql model r = SqliteStore.rowFromSql r := by
  cases model with
  | sync => rfl
  | async =>
    simp [rowFromSql, PostgresStore.rowFromSql, PostgresStore.driverRow, PostgresStore.num,
      SqliteStore.rowFromSql, Function.comp_def]

/-! What a `deliver` leaves behind. -/

abbrev GoodsCall (G : Type) := Call (GoodsStmt G) GoodsReply

def goodsAfter (goods : G) (calls : List (GoodsCall G)) : G :=
  calls.foldl (fun goods call => match call.reply with
    | .ok after => after
    | .error _ => goods) goods

def failed (call : GoodsCall G) : Bool :=
  match call.reply with
  | .ok _ => false
  | .error _ => true

def deliverCalls (model : TxnModel) (goods : G) (input : HonorTxnInput G) :
    List (GoodsCall G) :=
  match model with
  | .sync => ((input.deliver input.ctx).run SqliteStore.exec goods).1
  | .async => ((input.deliver input.ctx).run PostgresStore.exec ⟨goods, false⟩).1

def deliverEnd (model : TxnModel) (goods : G) (input : HonorTxnInput G) :
    Except Thrown DeliverEnd :=
  match model with
  | .sync => ((input.deliver input.ctx).run SqliteStore.exec goods).2.1
  | .async => ((input.deliver input.ctx).run PostgresStore.exec ⟨goods, false⟩).2.1

/-- A `deliver` that fails with `e`: a synchronous throw, or a rejection the asynchronous store
awaits. -/
def FailsWith (model : TxnModel) (goods : G) (input : HonorTxnInput G) (e : Thrown) : Prop :=
  deliverEnd model goods input = .error e ∨
    (model = .async ∧ deliverEnd model goods input = .ok (.rejects e))

private theorem sqlite_run (goods : G)
    (program : Program (GoodsStmt G) GoodsReply Thrown DeliverEnd) :
    (program.run SqliteStore.exec goods).2.2 =
      goodsAfter goods (program.run SqliteStore.exec goods).1 := by
  induction program generalizing goods with
  | pure ended => rfl
  | throw error => rfl
  | call stmt resume ih =>
    simp only [Program.run, goodsAfter, List.foldl_cons, ih]
    unfold SqliteStore.exec
    cases stmt.exec goods <;> rfl

private theorem postgres_run (txn : PostgresStore.Txn G)
    (program : Program (GoodsStmt G) GoodsReply Thrown DeliverEnd) :
    (program.run PostgresStore.exec txn).2.2 =
      ⟨goodsAfter txn.goods (program.run PostgresStore.exec txn).1,
        txn.aborted || (program.run PostgresStore.exec txn).1.any failed⟩ := by
  induction program generalizing txn with
  | pure ended => simp [Program.run, goodsAfter]
  | throw error => simp [Program.run, goodsAfter]
  | call stmt resume ih =>
    simp only [Program.run, goodsAfter, List.foldl_cons, List.any_cons, ih]
    unfold PostgresStore.exec
    cases haborted : txn.aborted
    · cases stmt.exec txn.goods <;> simp [failed]
    · simp [haborted]

/-- A transaction that resolves has passed the gate. It is committed, unless the store is the
asynchronous one and a statement of `deliver` failed. -/
theorem runHonorTxn_ok {model : TxnModel} {db : Db G} {input : HonorTxnInput G}
    (h : (runHonorTxn model db input).1.result = .ok ()) :
    ∃ gated, gateWrites (driver model) db input = .ok gated ∧
      (runHonorTxn model db input).2 =
        if model = .async ∧ (deliverCalls model gated.goods input).any failed then db
        else
          { gated with
            goods := goodsAfter gated.goods (deliverCalls model gated.goods input) } := by
  cases model with
  | sync =>
    simp only [runHonorTxn, SqliteStore.runHonorTxn, driver] at h ⊢
    split at h
    next => contradiction
    next gated hgated =>
      refine ⟨gated, hgated, ?_⟩
      split at h <;> first | contradiction | skip
      next => simp [deliverCalls, sqlite_run]
  | async =>
    simp only [runHonorTxn, PostgresStore.runHonorTxn, driver] at h ⊢
    split at h
    next => contradiction
    next gated hgated =>
      refine ⟨gated, hgated, ?_⟩
      split at h <;> first | contradiction | skip
      next ended hends hended =>
        cases ended with
        | rejects reason => exact absurd rfl (hends reason)
        | _ => simp [PostgresStore.commit, postgres_run, deliverCalls]

theorem runHonorTxn_error {model : TxnModel} {db : Db G} {input : HonorTxnInput G} {e : Thrown}
    (h : (runHonorTxn model db input).1.result = .error e) :
    (runHonorTxn model db input).2 = db := by
  cases model with
  | sync =>
    simp only [runHonorTxn, SqliteStore.runHonorTxn] at h ⊢
    split
    next => rfl
    next gated hgated =>
      rw [hgated] at h
      dsimp only at h ⊢
      split <;> first | rfl | skip
      next hended => simp [hended] at h
  | async =>
    simp only [runHonorTxn, PostgresStore.runHonorTxn] at h ⊢
    split
    next => rfl
    next gated hgated =>
      rw [hgated] at h
      dsimp only at h ⊢
      split <;> first | rfl | skip
      next ended hends hended =>
        cases ended with
        | rejects reason => exact absurd rfl (hends reason)
        | _ => simp [hended] at h

theorem runHonorTxn_fails {model : TxnModel} {db gated : Db G} {input : HonorTxnInput G}
    {e : Thrown} (passed : gateWrites (driver model) db input = .ok gated)
    (fails : FailsWith model gated.goods input e) :
    runHonorTxn model db input =
      (⟨some (deliverEnd model gated.goods input), .error e⟩, db) := by
  cases model with
  | sync =>
    rcases fails with hthrow | ⟨hmodel, _⟩
    · simp only [deliverEnd] at hthrow
      simp only [runHonorTxn, SqliteStore.runHonorTxn, deliverEnd,
        show gateWrites SqliteStore.driver db input = .ok gated from passed, hthrow]
    · cases hmodel
  | async =>
    have hpassed : gateWrites PostgresStore.driver db input = .ok gated := passed
    rcases fails with hthrow | ⟨_, hreject⟩
    · simp only [deliverEnd] at hthrow
      simp only [runHonorTxn, PostgresStore.runHonorTxn, deliverEnd, hpassed, hthrow]
    · simp only [deliverEnd] at hreject
      simp only [runHonorTxn, PostgresStore.runHonorTxn, deliverEnd, hpassed, hreject]

inductive Change (model : TxnModel) (db : Db G) : Op G → Db G → Prop
  | same {op} : Change model db op db
  | accepted {quote acceptedAt retainUntil} :
      Change model db (.upsertAccepted quote acceptedAt retainUntil)
        { db with seen := upsertAccepted db.seen quote acceptedAt retainUntil }
  | observed {key now} :
      Change model db (.markObservedBeforeExpiry key now)
        { db with seen := markObserved db.seen key now }
  | reserved {key outpoint claimTxId now} :
      Change model db (.reserveClaimOutpoint key outpoint claimTxId now)
        { db with consumed := reserveClaim db.consumed key outpoint claimTxId }
  | honored {input gated goods} (passed : gateWrites (driver model) db input = .ok gated) :
      Change model db (.runHonorTxn input) { gated with goods := goods }
  | swept {now} : Change model db (.sweep now) (sweep db now).2

theorem runHonorTxn_change (model : TxnModel) (db : Db G) (input : HonorTxnInput G) :
    Change model db (.runHonorTxn input) (runHonorTxn model db input).2 := by
  cases hresult : (runHonorTxn model db input).1.result with
  | error e =>
    rw [runHonorTxn_error hresult]
    exact .same
  | ok _ =>
    obtain ⟨gated, hgated, hafter⟩ := runHonorTxn_ok hresult
    rw [hafter]
    split
    · exact .same
    · exact .honored hgated

theorem perform_change (model : TxnModel) (db : Db G) (op : Op G) (answer : op.Reply) :
    Change model db op (perform model db op answer).2 := by
  unfold perform
  split
  · exact .accepted
  · exact .same
  · exact .observed
  · exact .reserved
  · exact .same
  · exact runHonorTxn_change _ _ _
  · exact .swept
  · exact .same

end Store
end ExferHonor
