import ExferHonor.Adapters.PostgresServer

/-! The honor transaction on its client: where it can be while it waits for the server, and that
with the server to itself it does what the store does in one step. -/
namespace ExferHonor
namespace PostgresServer
open Effects Relational Statements Program

variable {G : Type}

inductive Stage : List (ClientCall G) → OnClient G TxnReply → Prop
  | begin {resume} : Stage [] (.call .begin resume)
  | statement {later command resume} (statements : ∀ call ∈ later, call.op.isStatement = true)
      (own : command.isStatement = true) (arrived : later = [] ∨ ⟨.arrive, ()⟩ ∈ later) :
      Stage (⟨.begin, .ok ()⟩ :: later) (.call command resume)
  | commit {later resume reply} (statements : ∀ call ∈ later, call.op.isStatement = true)
      (arrived : ⟨.arrive, ()⟩ ∈ later) (ends : resume (.ok ()) = .pure reply) :
      Stage (⟨.begin, .ok ()⟩ :: later) (.call .commit resume)
  | rollback {later reply} (statements : ∀ call ∈ later, call.op.isStatement = true)
      (arrived : ⟨.arrive, ()⟩ ∈ later) : Stage (⟨.begin, .ok ()⟩ :: later) (rolledBack reply)
  | uncommitted {calls e reply} (failed : ⟨.commit, .error e⟩ ∈ calls) :
      Stage calls (rolledBack reply)

section
variable {input : HonorTxnInput G} {calls : List (ClientCall G)} {rest : OnClient G TxnReply}

theorem gate_statements (input : HonorTxnInput G) : Uses (·.isStatement = true) (gate input) := by
  refine Uses.bind ?_ fun _ => ?_
  · refine Uses.bind ⟨rfl, fun _ => Uses.ask rfl⟩ fun locked => Uses.ite ?_ trivial
    refine Uses.bind ⟨rfl, fun _ => Uses.ask rfl⟩ fun row => ?_
    split <;> trivial
  · unfold consumeOrThrow
    split
    · exact Uses.handle ⟨rfl, fun _ => Uses.ask rfl⟩ fun _ => trivial
    · exact Uses.bind ⟨rfl, fun _ => Uses.ask rfl⟩ fun _ => Uses.ite trivial trivial

theorem rolledBack_runs {reply : TxnReply} (run : (rolledBack reply).Runs calls rest)
    (waits : rest.waits = true) : calls = [] ∧ rest = rolledBack reply := by
  rcases (runs_call_iff _ _).1 run with h | ⟨_, _, _, tail⟩
  · exact h
  · rw [((runs_pure_iff _).1 tail).2] at waits
    cases waits

theorem statements_runs {α : Type} {program : OnClient G α}
    {next : Except Thrown α → OnClient G TxnReply}
    (uses : Uses (·.isStatement = true) program)
    (run : (program.attempt.bind next).Runs calls rest) (waits : rest.waits = true) :
    (∃ command resume, program.attempt.Runs calls (.call command resume) ∧
      rest = (Program.call command resume).bind next ∧ command.isStatement = true ∧
      ∀ call ∈ calls, call.op.isStatement = true) ∨
    ∃ own result later, calls = own ++ later ∧ program.attempt.Returns own (.ok result) ∧
      (∀ call ∈ own, call.op.isStatement = true) ∧ (next result).Runs later rest := by
  rcases Runs.of_attempt_bind run with ⟨inner, inside, waiting, rfl⟩ |
    ⟨own, result, later, rfl, returns, beyond⟩
  · cases inner with
    | call command resume =>
      obtain ⟨statements, own⟩ := uses.attempt.runs inside
      exact .inl ⟨command, resume, inside, rfl, own.1, statements⟩
    | _ => cases waiting
  · exact .inr ⟨own, result, later, rfl, returns, (uses.attempt.runs returns).1, beyond⟩

theorem gate_arrives {inner : OnClient G (Except Thrown Unit)}
    (run : (gate input).attempt.Runs calls inner) :
    (calls = [] ∧ inner.waits = true) ∨ ⟨.arrive, ()⟩ ∈ calls := by
  obtain ⟨resume, hgate⟩ : ∃ resume, (gate input).attempt = .call .arrive resume := ⟨_, rfl⟩
  rw [hgate] at run
  rcases (runs_call_iff _ _).1 run with ⟨rfl, rfl⟩ | ⟨reply, later, rfl, -⟩
  · exact .inl ⟨rfl, rfl⟩
  · exact .inr (List.mem_cons_self ..)

theorem deliverAndCommit_stage {past : List (ClientCall G)}
    (before : ∀ call ∈ past, call.op.isStatement = true) (arrived : ⟨.arrive, ()⟩ ∈ past)
    (run : (deliverAndCommit input).Runs calls rest) (waits : rest.waits = true) :
    Stage (⟨.begin, .ok ()⟩ :: (past ++ calls)) rest := by
  have uses : Uses (·.isStatement = true) ((input.deliver input.ctx).interpret Client.goods) := by
    refine Uses.interpret (fun stmt => ?_) _
    exact ⟨rfl, fun _ => ⟨rfl, fun _ => trivial⟩⟩
  rcases statements_runs uses run waits with ⟨command, resume, -, rfl, own, statements⟩ |
    ⟨own, result, later, rfl, -, statements, beyond⟩
  · exact .statement (List.forall_mem_append.2 ⟨before, statements⟩) own
      (.inr (List.mem_append_left _ arrived))
  · have inside := List.forall_mem_append.2 ⟨before, statements⟩
    have arrives : ⟨.arrive, ()⟩ ∈ past ++ own := List.mem_append_left _ arrived
    have ended (reply : TxnReply) (run : (rolledBack reply).Runs later rest) :
        Stage (⟨.begin, .ok ()⟩ :: (past ++ (own ++ later))) rest := by
      obtain ⟨rfl, rfl⟩ := rolledBack_runs run waits
      rw [List.append_nil]
      exact .rollback inside arrives
    have committing (ended : DeliverEnd) (run : (commitOrRollback ended).Runs later rest) :
        Stage (⟨.begin, .ok ()⟩ :: (past ++ (own ++ later))) rest := by
      rcases (runs_call_iff _ _).1 run with ⟨rfl, rfl⟩ | ⟨reply, last, rfl, tail⟩
      · rw [List.append_nil]
        exact .commit inside arrives rfl
      · cases reply with
        | ok done =>
          rw [((runs_pure_iff _).1 tail).2] at waits
          cases waits
        | error e =>
          obtain ⟨rfl, rfl⟩ := rolledBack_runs tail waits
          exact .uncommitted (e := e) (by simp)
    cases result with
    | error e => exact ended _ beyond
    | ok result =>
      cases result with
      | rejects e => exact ended _ beyond
      | value => exact committing _ beyond
      | resolves => exact committing _ beyond

theorem runHonorTxn_stage (run : (runHonorTxn input).Runs calls rest)
    (waits : rest.waits = true) : Stage calls rest := by
  rcases (runs_call_iff _ _).1 run with ⟨rfl, rfl⟩ | ⟨reply, later, rfl, tail⟩
  · exact .begin
  · cases reply with
    | error e =>
      rw [((runs_pure_iff _).1 tail).2] at waits
      cases waits
    | ok begun =>
      rcases statements_runs (gate_statements input) tail waits with
        ⟨command, resume, inside, rfl, own, statements⟩ |
        ⟨own, result, last, rfl, returns, statements, beyond⟩
      · exact .statement statements own ((gate_arrives inside).imp And.left id)
      · have arrived : ⟨.arrive, ()⟩ ∈ own := by
          apply (gate_arrives returns).resolve_left
          intro h
          cases h.2
        cases result with
        | error e =>
          obtain ⟨rfl, rfl⟩ := rolledBack_runs beyond waits
          rw [List.append_nil]
          exact .rollback statements arrived
        | ok _ => exact deliverAndCommit_stage statements arrived beyond waits

end

section
variable {committed : Committed G} {input : HonorTxnInput G} {txn : Open G}

theorem lock_run_ok {seen : SeenTable}
    (locks : gateSeen committed.db.seen input.key input.now input.outpoint = .ok seen) :
    ∃ calls txn, (lockOrThrow input).run serve (committed, .begun) =
      (calls, .ok (), committed, .active txn) ∧ txn.snapshot = committed ∧
        txn.view = { committed.db with seen := seen } := by
  unfold gateSeen at locks
  dsimp only at locks
  split at locks
  next => split at locks <;> cases locks
  next h =>
    cases locks
    refine ⟨_, (Open.fresh committed).changeSeen input.key fun seen =>
      (lockSeen seen input.key input.now input.outpoint).1, Prod.ext rfl ?_, rfl, rfl⟩
    simp [lockOrThrow, Client.lockSeen, serve, execute, ClientState.arrive, Open.exec, Open.fresh,
      not_not.1 h, Program.run]

theorem lock_run_error {e : Thrown}
    (fails : gateSeen committed.db.seen input.key input.now input.outpoint = .error e) :
    ∃ calls state, (lockOrThrow input).run serve (committed, .begun) =
      (calls, .error e, committed, state) := by
  obtain ⟨unlocked, why⟩ := gateSeen_error fails
  refine ⟨_, .active (.fresh committed), Prod.ext rfl ?_⟩
  simp only [lockOrThrow, Client.lockSeen, Client.selectHonoredAt, serve, execute,
    ClientState.arrive, Open.exec, Open.fresh, unlocked, Program.run, Program.bind_eq,
    Program.call_bind, if_true, Program.ofExcept_ok, Program.pure_bind, ne_eq, Nat.zero_ne_one,
    not_false_eq_true]
  rcases why with ⟨row, at_, hrow, honored, rfl⟩ | ⟨unhonored, rfl⟩
  · rw [hrow, Option.map_some, honored]
    rfl
  · cases hrow : committed.db.seen.find? input.key with
    | none => rfl
    | some row =>
      rw [Option.map_some, unhonored row hrow]
      rfl

theorem consume_run_ok {consumed : ConsumedTable}
    (fresh : txn.snapshot = committed) (same : txn.view.consumed = committed.db.consumed)
    (consumes : gateConsumed PostgresStore.driver committed.db.consumed input = .ok consumed) :
    ∃ calls after, (consumeOrThrow input).run serve (committed, .active txn) =
      (calls, .ok (), committed, .active after) ∧ after.snapshot = committed ∧
        after.view = { txn.view with consumed := consumed } := by
  unfold gateConsumed at consumes
  split at consumes
  next hmode =>
    split at consumes
    next inserted hinsert =>
      cases consumes
      have indexed : (txn.redo committed.db).consumed = committed.db.consumed := by
        rw [← same, ← txn.replays, fresh]
      refine ⟨_, txn.changeConsumed input.outpoint fun consumed =>
        (insertConsumed consumed input.key input.outpoint input.now input.retainUntil).getD
          consumed, Prod.ext rfl ?_, fresh, ?_⟩
      · simp [consumeOrThrow, hmode, Client.insertConsumed, serve, execute, ClientState.arrive,
          Open.exec, Program.run, indexed, hinsert, Program.handle]
      · simp [Open.changeConsumed, same, hinsert]
    next => split at consumes <;> cases consumes
  next hmode =>
    dsimp only at consumes
    split at consumes
    next => cases consumes
    next h =>
      cases consumes
      refine ⟨_, txn.changeConsumed input.outpoint fun consumed =>
        (promoteConsumed consumed input.outpoint input.now input.retainUntil).1,
        Prod.ext rfl ?_, fresh, ?_⟩
      · simp [consumeOrThrow, hmode, Client.promoteConsumed, serve, execute, ClientState.arrive,
          Open.exec, Program.run, fresh, same, not_not.1 h]
      · simp [Open.changeConsumed, same]

theorem consume_run_error {e : Thrown} (fresh : txn.snapshot = committed)
    (same : txn.view.consumed = committed.db.consumed)
    (fails : gateConsumed PostgresStore.driver committed.db.consumed input = .error e) :
    ∃ calls state, (consumeOrThrow input).run serve (committed, .active txn) =
      (calls, .error e, committed, state) := by
  unfold gateConsumed at fails
  split at fails
  next hmode =>
    split at fails
    next => cases fails
    next hinsert =>
      have indexed : (txn.redo committed.db).consumed = committed.db.consumed := by
        rw [← same, ← txn.replays, fresh]
      cases fails
      refine ⟨_, .failed, Prod.ext rfl ?_⟩
      simp [consumeOrThrow, hmode, Client.insertConsumed, serve, execute, ClientState.arrive,
        Open.exec, Program.run, indexed, hinsert, Program.handle]
      exact fun h => absurd h (by decide)
  next hmode =>
    dsimp only at fails
    split at fails
    next h =>
      have unchanged : (promoteConsumed committed.db.consumed input.outpoint input.now
          input.retainUntil).2 = 0 := by
        rw [promoteConsumed_changes] at h ⊢
        split <;> simp_all
      cases fails
      refine ⟨_, .active txn, Prod.ext rfl ?_⟩
      simp [consumeOrThrow, hmode, Client.promoteConsumed, serve, execute, ClientState.arrive,
        Open.exec, Program.run, same, unchanged]
      rfl
    next => cases fails

theorem gate_run_ok {gated : Db G}
    (passed : gateWrites PostgresStore.driver committed.db input = .ok gated) :
    ∃ calls txn, (gate input).run serve (committed, .begun) =
      (calls, .ok (), committed, .active txn) ∧ txn.snapshot = committed ∧ txn.view = gated := by
  obtain ⟨seen, consumed, hseen, hconsumed, rfl⟩ := gateWrites_eq_ok_iff.1 passed
  obtain ⟨first, locked, locks, fresh, hview⟩ := lock_run_ok hseen
  obtain ⟨second, txn, consumes, still, hafter⟩ :=
    consume_run_ok fresh (by rw [hview]) hconsumed
  refine ⟨first ++ second, txn, ?_, still, by rw [hafter, hview]⟩
  rw [gate, Program.bind_eq, Program.run_bind_ok locks, consumes]

theorem gate_run_error {e : Thrown}
    (fails : gateWrites PostgresStore.driver committed.db input = .error e) :
    ∃ calls state, (gate input).run serve (committed, .begun) =
      (calls, .error e, committed, state) := by
  rcases gateWrites_eq_error_iff.1 fails with unlocked | ⟨seen, hseen, unconsumed⟩
  · obtain ⟨calls, state, locks⟩ := lock_run_error unlocked
    exact ⟨calls, state, Program.run_bind_error locks⟩
  · obtain ⟨first, locked, locks, fresh, hview⟩ := lock_run_ok hseen
    obtain ⟨second, state, consumes⟩ := consume_run_error fresh (by rw [hview]) unconsumed
    refine ⟨first ++ second, state, ?_⟩
    rw [gate, Program.bind_eq, Program.run_bind_ok locks, consumes]

inductive Tracks (committed : Committed G) (gated : Db G) :
    ClientState G → PostgresStore.Txn G → Prop
  | live {txn goods} (fresh : txn.snapshot = committed)
      (view : txn.view = { gated with goods := goods }) :
      Tracks committed gated (.active txn) ⟨goods, false⟩
  | aborted {goods} : Tracks committed gated .failed ⟨goods, true⟩

section
variable {gated : Db G} {state : ClientState G} {atomic : PostgresStore.Txn G}

theorem Tracks.goods (tracks : Tracks committed gated state atomic) (stmt : GoodsStmt G) :
    ∃ calls after, (Client.goods stmt).run serve (committed, state) =
        (calls, .ok (PostgresStore.exec atomic stmt).1, committed, after) ∧
      Tracks committed gated after (PostgresStore.exec atomic stmt).2 := by
  cases tracks with
  | @live txn goods fresh view =>
    have hgoods : txn.view.goods = goods := by rw [view]
    cases hexec : stmt.exec goods with
    | error e =>
      refine ⟨_, .failed, Prod.ext rfl ?_, ?_⟩
      · simp [Client.goods, Program.run, serve, execute, ClientState.arrive, Open.exec,
          PostgresStore.exec, hgoods, hexec]
      · simp only [PostgresStore.exec, hexec]
        exact .aborted
    | ok after =>
      refine ⟨_, .active (txn.setGoods after), Prod.ext rfl ?_, ?_⟩
      · simp [Client.goods, Program.run, serve, execute, ClientState.arrive, Open.exec,
          PostgresStore.exec, hgoods, hexec]
      · simp only [PostgresStore.exec, hexec]
        exact .live fresh (by simp [Open.setGoods, view])
  | aborted => exact ⟨_, .failed, rfl, .aborted⟩

theorem deliver_run (program : Program (GoodsStmt G) GoodsReply Thrown DeliverEnd)
    (tracks : Tracks committed gated state atomic) :
    ∃ calls after, (program.interpret Client.goods).run serve (committed, state) =
        (calls, (program.run PostgresStore.exec atomic).2.1, committed, after) ∧
      Tracks committed gated after (program.run PostgresStore.exec atomic).2.2 := by
  induction program generalizing state atomic with
  | pure ended => exact ⟨[], state, rfl, tracks⟩
  | throw error => exact ⟨[], state, rfl, tracks⟩
  | call stmt resume ih =>
    obtain ⟨first, middle, executed, still⟩ := tracks.goods stmt
    obtain ⟨later, after, rest, atEnd⟩ := ih (PostgresStore.exec atomic stmt).1 still
    refine ⟨first ++ later, after, ?_, atEnd⟩
    rw [interpret, run_bind_ok executed, rest]
    rfl

theorem Tracks.commit (tracks : Tracks committed gated state atomic) :
    (state.commit committed).db = PostgresStore.commit committed.db gated atomic := by
  cases tracks with
  | @live txn goods fresh view =>
    have replayed := txn.replays
    rw [fresh, view] at replayed
    exact replayed
  | aborted => rfl

end

theorem deliverAndCommit_run {gated : Db G}
    (passed : gateWrites PostgresStore.driver committed.db input = .ok gated)
    (fresh : txn.snapshot = committed) (view : txn.view = gated) :
    ∃ calls after, (deliverAndCommit input).run serve (committed, .active txn) =
        (calls, .ok (PostgresStore.runHonorTxn committed.db input).1, after, .idle) ∧
      after.db = (PostgresStore.runHonorTxn committed.db input).2 := by
  obtain ⟨calls, state, delivered, tracks⟩ := deliver_run (input.deliver input.ctx)
    (Tracks.live fresh (show txn.view = { gated with goods := gated.goods } from view))
  have attempted := run_attempt serve (committed, .active txn)
    ((input.deliver input.ctx).interpret Client.goods)
  rw [delivered] at attempted
  simp only [PostgresStore.runHonorTxn, passed]
  cases hended : ((input.deliver input.ctx).run PostgresStore.exec ⟨gated.goods, false⟩).2.1 with
  | error e =>
    rw [hended] at attempted
    refine ⟨_, committed, Prod.ext rfl ?_, rfl⟩
    rw [deliverAndCommit, bind_eq, run_bind_ok attempted]
    rfl
  | ok ended =>
    rw [hended] at attempted
    cases ended with
    | rejects e =>
      refine ⟨_, committed, Prod.ext rfl ?_, rfl⟩
      rw [deliverAndCommit, bind_eq, run_bind_ok attempted]
      rfl
    | value =>
      refine ⟨_, state.commit committed, Prod.ext rfl ?_, tracks.commit⟩
      rw [deliverAndCommit, bind_eq, run_bind_ok attempted]
      rfl
    | resolves =>
      refine ⟨_, state.commit committed, Prod.ext rfl ?_, tracks.commit⟩
      rw [deliverAndCommit, bind_eq, run_bind_ok attempted]
      rfl

/-- With the server to itself, the transaction is the store's atomic one. -/
theorem runHonorTxn_refines (committed : Committed G) (input : HonorTxnInput G) :
    ∃ calls after, (runHonorTxn input).run serve (committed, .idle) =
        (calls, .ok (PostgresStore.runHonorTxn committed.db input).1, after, .idle) ∧
      after.db = (PostgresStore.runHonorTxn committed.db input).2 := by
  have begun : (Client.begin (G := G)).attempt.run serve (committed, .idle) =
      ([⟨.begin, .ok ()⟩], .ok (.ok ()), committed, .begun) := rfl
  have attempted := run_attempt serve (committed, .begun) (gate input)
  rw [runHonorTxn, bind_eq, run_bind_ok begun]
  dsimp only
  cases hgate : gateWrites PostgresStore.driver committed.db input with
  | error e =>
    obtain ⟨calls, state, gated⟩ := gate_run_error hgate
    rw [gated] at attempted
    simp only [PostgresStore.runHonorTxn, hgate]
    refine ⟨_, committed, Prod.ext rfl ?_, rfl⟩
    rw [bind_eq, run_bind_ok attempted]
    rfl
  | ok gated =>
    obtain ⟨calls, txn, passes, fresh, view⟩ := gate_run_ok hgate
    rw [passes] at attempted
    obtain ⟨later, after, delivered, hdb⟩ := deliverAndCommit_run hgate fresh view
    refine ⟨_, after, Prod.ext rfl ?_, hdb⟩
    rw [bind_eq, run_bind_ok attempted, delivered]

end

/-! One transaction among the others. -/

/-- The commands have been answered as if the client were alone with the server. -/
abbrev Alone (committed : Committed G) (commands : List (ClientCall G)) (state : ClientState G) :
    Prop :=
  Session (fun state command _ => serve state command) (committed, .idle) commands
    (committed, state)

section
variable {committed : Committed G} {state : ClientState G}
  {commands : List (ClientCall G)} {input : HonorTxnInput G}

theorem exec_inside (committed : Committed G) (txn : Open G) (stmt : Stmt G) :
    (txn.exec committed stmt).2 ≠ .idle := by
  intro idle
  cases stmt with
  | lockSeen key now outpoint =>
    simp only [Open.exec] at idle
    split at idle
    · cases idle
    · split at idle <;> cases idle
  | selectHonoredAt key => cases idle
  | insertConsumed key outpoint now retainUntil =>
    simp only [Open.exec] at idle
    split at idle <;> cases idle
  | promoteConsumed outpoint now retainUntil =>
    simp only [Open.exec] at idle
    split at idle
    · cases idle
    · split at idle <;> cases idle
  | goods stmt =>
    simp only [Open.exec] at idle
    split at idle <;> cases idle
  | sweepSeen now => cases idle
  | sweepOutpoints now => cases idle

theorem execute_inside {command : Command G} (statement : command.isStatement = true)
    (inside : state ≠ .idle) :
    (execute committed state command).2.1 = committed ∧
      (execute committed state command).2.2 ≠ .idle := by
  cases command with
  | arrive =>
    refine ⟨rfl, ?_⟩
    cases state <;> first | contradiction | exact nofun
  | stmt s =>
    refine ⟨execute_committed committed inside nofun, ?_⟩
    cases state with
    | idle => contradiction
    | failed => exact nofun
    | begun => exact exec_inside committed _ s
    | active txn => exact exec_inside committed txn s
  | _ => contradiction

theorem statements_inside {before after : Committed G × ClientState G}
    (session : Session (fun state command _ => serve state command) before commands after)
    (statements : ∀ call ∈ commands, call.op.isStatement = true) (inside : before.2 ≠ .idle) :
    after.2 ≠ .idle := by
  induction session with
  | nil => exact inside
  | cons command answer later ih =>
    obtain ⟨first, rest⟩ := List.forall_mem_cons.1 statements
    exact ih rest (execute_inside first inside).2

/-- Only the COMMIT of a transaction that has sent a statement changes what is committed; then the
transaction has ended. -/
theorem execute_keeps {command : Command G}
    {resume : command.Reply → OnClient G TxnReply} (stage : Stage commands (.call command resume))
    (alone : Alone committed commands state) :
    (execute committed state command).2.1 = committed ∨
      ⟨.arrive, ()⟩ ∈ commands ∧
        (resume (execute committed state command).1).waits = false := by
  cases stage with
  | begin => exact .inl rfl
  | statement statements own arrived =>
    refine .inl (execute_inside own ?_).1
    obtain ⟨answer, -, later⟩ := Session.cons_iff.1 alone
    exact statements_inside later statements nofun
  | @commit later resume reply statements arrived ends =>
    refine .inr ⟨List.mem_cons_of_mem _ arrived, ?_⟩
    show (resume (.ok ())).waits = false
    rw [ends]
    rfl
  | rollback statements arrived => exact .inl rfl
  | uncommitted failed => exact .inl rfl

theorem Alone.snoc (alone : Alone committed commands state) (command : Command G)
    (same : (execute committed state command).2.1 = committed) :
    Alone committed (commands ++ [⟨command, (execute committed state command).1⟩])
      (execute committed state command).2.2 := by
  have after : (serve (committed, state) command).2 =
      (committed, (execute committed state command).2.2) := Prod.ext same rfl
  refine Session.append_iff.2 ⟨_, alone, ?_⟩
  rw [← after]
  exact .cons command (execute committed state command).1 .nil

theorem Alone.restart {rest : OnClient G TxnReply} (stage : Stage commands rest)
    (alone : Alone committed commands state) (still : ⟨.arrive, ()⟩ ∉ commands)
    (committed' : Committed G) : Alone committed' commands state := by
  cases stage with
  | begin =>
    cases alone
    exact .nil
  | statement statements own arrived =>
    obtain rfl := arrived.resolve_right fun h => still (List.mem_cons_of_mem _ h)
    obtain ⟨answer, -, later⟩ := Session.cons_iff.1 alone
    cases later
    exact Session.cons Command.begin (Except.ok () : Except Thrown Unit) .nil
  | commit statements arrived ends => exact absurd (List.mem_cons_of_mem _ arrived) still
  | rollback statements arrived => exact absurd (List.mem_cons_of_mem _ arrived) still
  | @uncommitted _ e reply failed =>
    obtain ⟨_, _, middle, _, -, -, hreply, -⟩ := alone.answered failed
    cases hreply

theorem Alone.returns {after : Committed G × ClientState G} {result : Except Thrown TxnReply}
    (session : Session (fun state command _ => serve state command) (committed, .idle) commands
      after) (returned : (runHonorTxn input).Returns commands result) :
    result = .ok (PostgresStore.runHonorTxn committed.db input).1 ∧
      after.1.db = (PostgresStore.runHonorTxn committed.db input).2 := by
  obtain ⟨calls, final, hrun, hdb⟩ := runHonorTxn_refines committed input
  rw [session.run_eq returned] at hrun
  cases hrun
  exact ⟨rfl, hdb⟩

end

end PostgresServer
end ExferHonor
