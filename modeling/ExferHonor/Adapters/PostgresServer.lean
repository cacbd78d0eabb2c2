import ExferHonor.Adapters.Postgres
import ExferHonor.Effects.Interpret

/-! A Postgres server, one command of a client at a time. The honor transaction is SERIALIZABLE: it
works on the snapshot that its first statement takes when it arrives, and a change of a row that
another transaction has changed and committed since then fails. `sweep` is READ COMMITTED: each of
its statements works on what is committed by then. -/
namespace ExferHonor
namespace PostgresServer
open Effects Relational Statements

variable {G : Type}

/-- What is committed. A commit gives every row it has changed a new version. -/
structure Committed (G : Type) where
  db : Db G
  seenVersion : HonorKey → Nat
  consumedVersion : Outpoint → Nat

inductive Stmt (G : Type) where
  | lockSeen (key : HonorKey) (now : Int) (outpoint : Outpoint)
  | selectHonoredAt (key : HonorKey)
  | insertConsumed (key : HonorKey) (outpoint : Outpoint) (now retainUntil : Int)
  | promoteConsumed (outpoint : Outpoint) (now retainUntil : Int)
  | goods (stmt : GoodsStmt G)
  | sweepSeen (now : Int)
  | sweepOutpoints (now : Int)

abbrev Stmt.Reply : Stmt G → Type
  | .lockSeen _ _ _ => Except Thrown Nat
  | .selectHonoredAt _ => Except Thrown (Option (Option Int))
  | .insertConsumed _ _ _ _ => Except Thrown Unit
  | .promoteConsumed _ _ _ => Except Thrown Nat
  | .goods _ => Except Thrown G
  | .sweepSeen _ => Except Thrown Nat
  | .sweepOutpoints _ => Except Thrown Nat

def Stmt.fail (e : Thrown) : (stmt : Stmt G) → stmt.Reply
  | .lockSeen _ _ _ => .error e
  | .selectHonoredAt _ => .error e
  | .insertConsumed _ _ _ _ => .error e
  | .promoteConsumed _ _ _ => .error e
  | .goods _ => .error e
  | .sweepSeen _ => .error e
  | .sweepOutpoints _ => .error e

/-- A transaction with its snapshot: what it sees after its own statements, the rows it has changed
and how its commit changes the database. -/
structure Open (G : Type) where
  snapshot : Committed G
  view : Db G
  seenChanged : List HonorKey
  consumedChanged : List Outpoint
  redo : Db G → Db G
  replays : redo snapshot.db = view

namespace Open

def fresh (snapshot : Committed G) : Open G := ⟨snapshot, snapshot.db, [], [], id, rfl⟩

def changeSeen (txn : Open G) (key : HonorKey) (change : SeenTable → SeenTable) : Open G :=
  { txn with
    view := { txn.view with seen := change txn.view.seen }
    seenChanged := key :: txn.seenChanged
    redo := fun db => { txn.redo db with seen := change (txn.redo db).seen }
    replays := by rw [txn.replays] }

def changeConsumed (txn : Open G) (outpoint : Outpoint)
    (change : ConsumedTable → ConsumedTable) : Open G :=
  { txn with
    view := { txn.view with consumed := change txn.view.consumed }
    consumedChanged := outpoint :: txn.consumedChanged
    redo := fun db => { txn.redo db with consumed := change (txn.redo db).consumed }
    replays := by rw [txn.replays] }

def setGoods (txn : Open G) (goods : G) : Open G :=
  { txn with
    view := { txn.view with goods := goods }
    redo := fun db => { txn.redo db with goods := goods }
    replays := by rw [txn.replays] }

/-- The next statement of a READ COMMITTED transaction sees what is committed by now. -/
def refresh (txn : Open G) (committed : Committed G) : Open G :=
  { txn with
    snapshot := committed
    view := txn.redo committed.db
    replays := rfl }

def deleteSeen (txn : Open G) (keys : List HonorKey) : Open G :=
  { txn with
    view := { txn.view with seen := (txn.view.seen.deleteWhere (·.key ∈ keys)).1 }
    seenChanged := keys ++ txn.seenChanged
    redo := fun db => { txn.redo db with
      seen := ((txn.redo db).seen.deleteWhere (·.key ∈ keys)).1 }
    replays := by rw [txn.replays] }

def deleteConsumed (txn : Open G) (outpoints : List Outpoint) : Open G :=
  { txn with
    view := { txn.view with consumed := (txn.view.consumed.deleteWhere (·.outpoint ∈ outpoints)).1 }
    consumedChanged := outpoints ++ txn.consumedChanged
    redo := fun db => { txn.redo db with
      consumed := ((txn.redo db).consumed.deleteWhere (·.outpoint ∈ outpoints)).1 }
    replays := by rw [txn.replays] }

end Open

/-- A client between transactions, after BEGIN, in a transaction with a snapshot, or in one that a
failed statement has aborted. -/
inductive ClientState (G : Type) where
  | idle
  | begun
  | active (txn : Open G)
  | failed

def serializationFailure : Thrown :=
  .error 4 (some (.text "40001")) "could not serialize access due to concurrent update"

namespace Open
variable (committed : Committed G) (txn : Open G)

/-- Nobody else stands in the way of the statement; what is committed can still conflict with it. -/
def exec : (stmt : Stmt G) → stmt.Reply × ClientState G
  | .lockSeen key now outpoint =>
      let locked := lockSeen txn.view.seen key now outpoint
      if locked.2 = 0 then (.ok 0, .active txn)
      else if committed.seenVersion key ≠ txn.snapshot.seenVersion key then
        (.error serializationFailure, .failed)
      else
        (.ok locked.2, .active (txn.changeSeen key fun seen =>
          (lockSeen seen key now outpoint).1))
  | .selectHonoredAt key => (.ok ((txn.view.seen.find? key).map (·.honoredAt)), .active txn)
  | .insertConsumed key outpoint now retainUntil =>
      -- the unique index holds what is committed by now, whatever the snapshot shows
      match insertConsumed (txn.redo committed.db).consumed key outpoint now retainUntil with
      | none => (.error PostgresStore.uniqueViolation, .failed)
      | some _ =>
          (.ok (), .active (txn.changeConsumed outpoint fun consumed =>
            (insertConsumed consumed key outpoint now retainUntil).getD consumed))
  | .promoteConsumed outpoint now retainUntil =>
      let promoted := promoteConsumed txn.view.consumed outpoint now retainUntil
      if promoted.2 = 0 then (.ok 0, .active txn)
      else if committed.consumedVersion outpoint ≠ txn.snapshot.consumedVersion outpoint then
        (.error serializationFailure, .failed)
      else
        (.ok promoted.2, .active (txn.changeConsumed outpoint fun consumed =>
          (promoteConsumed consumed outpoint now retainUntil).1))
  | .goods stmt =>
      match stmt.exec txn.view.goods with
      | .error e => (.error e, .failed)
      | .ok after => (.ok after, .active (txn.setGoods after))
  | .sweepSeen now =>
      let txn := txn.refresh committed
      let expired := (txn.view.seen.rows.filter (·.retainUntil < now)).map (·.key)
      (.ok expired.length, .active (txn.deleteSeen expired))
  | .sweepOutpoints now =>
      let txn := txn.refresh committed
      let expired := (txn.view.consumed.rows.filter (·.retainUntil < now)).map (·.outpoint)
      (.ok expired.length, .active (txn.deleteConsumed expired))

def commit : Committed G where
  db := txn.redo committed.db
  seenVersion key := committed.seenVersion key + if key ∈ txn.seenChanged then 1 else 0
  consumedVersion outpoint :=
    committed.consumedVersion outpoint + if outpoint ∈ txn.consumedChanged then 1 else 0

def blocks : Stmt G → Bool
  | .lockSeen key _ _ => key ∈ txn.seenChanged
  | .insertConsumed _ outpoint _ _ => outpoint ∈ txn.consumedChanged
  | .promoteConsumed outpoint _ _ => outpoint ∈ txn.consumedChanged
  | .sweepSeen now => txn.seenChanged.any fun key =>
      (txn.snapshot.db.seen.find? key).any (·.retainUntil < now)
  | .sweepOutpoints now => txn.consumedChanged.any fun outpoint =>
      (txn.snapshot.db.consumed.find? outpoint).any (·.retainUntil < now)
  | _ => false

end Open

def ClientState.blocks : ClientState G → Stmt G → Bool
  | .active txn, stmt => txn.blocks stmt
  | _, _ => false

/-- What a client sends. A statement first arrives and is answered later: in between it may have to
wait. -/
inductive Command (G : Type) where
  | begin
  | arrive
  | stmt (stmt : Stmt G)
  | commit
  | rollback

abbrev Command.Reply : Command G → Type
  | .begin => Except Thrown Unit
  | .arrive => Unit
  | .stmt s => s.Reply
  | .commit => Except Thrown Unit
  | .rollback => Except Thrown Unit

def Command.isStatement : Command G → Bool
  | .arrive => true
  | .stmt _ => true
  | _ => false

/-- COMMIT of an aborted transaction is a rollback, without an error. -/
def ClientState.commit (committed : Committed G) : ClientState G → Committed G
  | .active txn => txn.commit committed
  | _ => committed

def ClientState.arrive (committed : Committed G) : ClientState G → ClientState G
  | .begun => .active (.fresh committed)
  | state => state

def execute (committed : Committed G) (state : ClientState G) :
    (command : Command G) → command.Reply × Committed G × ClientState G
  | .begin => (.ok (), committed, match state with
      | .idle => .begun
      | state => state)
  | .arrive => ((), committed, state.arrive committed)
  | .stmt stmt =>
      match state.arrive committed with
      | .active txn => ((txn.exec committed stmt).1, committed, (txn.exec committed stmt).2)
      | .failed => (stmt.fail PostgresStore.inFailedTransaction, committed, .failed)
      | state =>
          -- outside a transaction the statement is one of its own
          let alone := (Open.fresh committed).exec committed stmt
          (alone.1, alone.2.commit committed, state)
  | .commit => (.ok (), state.commit committed, .idle)
  | .rollback => (.ok (), committed, .idle)

def serve (state : Committed G × ClientState G) (command : Command G) :
    command.Reply × Committed G × ClientState G :=
  execute state.1 state.2 command

theorem execute_committed (committed : Committed G) {state : ClientState G} {command : Command G}
    (inside : state ≠ .idle) (notCommit : command ≠ .commit) :
    (execute committed state command).2.1 = committed := by
  cases command with
  | begin => rfl
  | arrive => rfl
  | stmt stmt =>
    cases state with
    | idle => exact absurd rfl inside
    | begun => rfl
    | active txn => rfl
    | failed => rfl
  | commit => exact absurd rfl notCommit
  | rollback => rfl

/-! The transactions of the PostgresStore, statement by statement. -/

abbrev ClientCall (G : Type) := Call (Command G) Command.Reply
abbrev OnClient (G α : Type) := Program (Command G) Command.Reply Thrown α

namespace Client

def begin : OnClient G Unit := .call .begin .ofExcept
def commit : OnClient G Unit := .call .commit .ofExcept
def lockSeen (key : HonorKey) (now : Int) (outpoint : Outpoint) : OnClient G Nat :=
  .call .arrive fun _ => .call (.stmt (.lockSeen key now outpoint)) .ofExcept
def selectHonoredAt (key : HonorKey) : OnClient G (Option (Option Int)) :=
  .call .arrive fun _ => .call (.stmt (.selectHonoredAt key)) .ofExcept
def insertConsumed (key : HonorKey) (outpoint : Outpoint) (now retainUntil : Int) :
    OnClient G Unit :=
  .call .arrive fun _ => .call (.stmt (.insertConsumed key outpoint now retainUntil)) .ofExcept
def promoteConsumed (outpoint : Outpoint) (now retainUntil : Int) : OnClient G Nat :=
  .call .arrive fun _ => .call (.stmt (.promoteConsumed outpoint now retainUntil)) .ofExcept
def goods (stmt : GoodsStmt G) : OnClient G (GoodsReply stmt) :=
  .call .arrive fun _ => .call (.stmt (.goods stmt)) .pure
def sweepSeen (now : Int) : OnClient G Nat :=
  .call .arrive fun _ => .call (.stmt (.sweepSeen now)) .ofExcept
def sweepOutpoints (now : Int) : OnClient G Nat :=
  .call .arrive fun _ => .call (.stmt (.sweepOutpoints now)) .ofExcept

end Client

def lockOrThrow (input : HonorTxnInput G) : OnClient G Unit := do
  let locked ← Client.lockSeen input.key input.now input.outpoint
  if locked ≠ 1 then
    match ← Client.selectHonoredAt input.key with
    | some (some _) => throw alreadyHonored
    | _ => throw notLockable
  else pure ()

def consumeOrThrow (input : HonorTxnInput G) : OnClient G Unit :=
  match input.mode with
  | .single =>
      (Client.insertConsumed input.key input.outpoint input.now input.retainUntil).handle fun e =>
        .throw (if PostgresStore.isUniqueViolation e then pkCollision else e)
  | .promote => do
      let promoted ← Client.promoteConsumed input.outpoint input.now input.retainUntil
      if promoted ≠ 1 then throw notPending else pure ()

def gate (input : HonorTxnInput G) : OnClient G Unit := do
  lockOrThrow input
  consumeOrThrow input

/-- ROLLBACK, whose own failure is swallowed. -/
def rolledBack (reply : TxnReply) : OnClient G TxnReply := .call .rollback fun _ => .pure reply

def commitOrRollback (ended : DeliverEnd) : OnClient G TxnReply := do
  match ← Client.commit.attempt with
  | .error e => rolledBack ⟨some (.ok ended), .error e⟩
  | .ok _ => pure ⟨some (.ok ended), .ok ()⟩

def deliverAndCommit (input : HonorTxnInput G) : OnClient G TxnReply := do
  match ← ((input.deliver input.ctx).interpret Client.goods).attempt with
  | .error e => rolledBack ⟨some (.error e), .error e⟩
  | .ok (.rejects e) => rolledBack ⟨some (.ok (.rejects e)), .error e⟩
  | .ok ended => commitOrRollback ended

def runHonorTxn (input : HonorTxnInput G) : OnClient G TxnReply := do
  match ← Client.begin.attempt with
  | .error e => pure ⟨none, .error e⟩
  | .ok _ =>
      match ← (gate input).attempt with
      | .error e => rolledBack ⟨none, .error e⟩
      | .ok _ => deliverAndCommit input

def sweepBody (now : Int) : OnClient G SweepResult := do
  Client.begin
  let s ← Client.sweepSeen now
  let o ← Client.sweepOutpoints now
  Client.commit
  pure ⟨s, o⟩

/-- ROLLBACK also follows a BEGIN that has failed. -/
def sweep (now : Int) : OnClient G (Except Thrown SweepResult) := do
  match ← (sweepBody now).attempt with
  | .error e => .call .rollback fun _ => .pure (.error e)
  | .ok swept => pure (.ok swept)

end PostgresServer
end ExferHonor
