import ExferHonor.Core.Delivery
import ExferHonor.Core.PostgresPool

/-! Where a call of the race is, and what its next call does: before its transaction, in it, and
after its end. -/
namespace ExferHonor
namespace PostgresPool
open Effects Program Store Statements PostgresServer HonorEngine

variable {G : Type}

abbrev RaceTold (key : HonorKey) (row : SeenRowSql) (settled : Prop) : PortCall G → Prop :=
  Told key row (fun call => ∀ e, call ≠ ⟨.tipHeight, .error e⟩) (fun _ _ => False) settled

def Faultless (key : HonorKey) (call : PortCall G) : Prop :=
  ∀ e, call ≠ ⟨.getSeen key, .error e⟩ ∧ call ≠ ⟨.tipHeight, .error e⟩

structure Raced (key : HonorKey) (row : SeenRowSql) (server : Server G) : Prop where
  found : server.world.db.seen.find? key = some row
  plain : row.form = .plain
  lockable : Lockable server.world.clock row

inductive Phase (engine : HonorEngine G) (key : HonorKey) (row : SeenRowSql) (server : Server G)
    (thread : RaceThread G) : Prop
  | outside {calls program}
      (run : (engine.honor key thread.task.deliver thread.task.opts).Runs calls program)
      (told : ∀ call ∈ calls, RaceTold key row (Settled key server.world.db) call)
      (past : thread.past = calls.map onPort) (rest : thread.rest = program.interpret onPool)
      (waits : program.waits = true)
  | inside {calls input resume id commands inner}
      (run : (engine.honor key thread.task.deliver thread.task.opts).Runs calls
        (.call (.runHonorTxn input) resume))
      (told : ∀ call ∈ calls, RaceTold key row (Settled key server.world.db) call)
      (sending : (PostgresServer.runHonorTxn input).Runs commands inner)
      (alone : Alone server.committed commands (server.clients id))
      (past : thread.past = calls.map onPort ++ ⟨.connect, id⟩ :: commands.map (sent id))
      (rest : thread.rest = (inner.interpret (onClient id)).bind fun reply =>
        (resume reply).interpret onPool)
      (waits : inner.waits = true)
  | honored {outpoint} (rest : thread.rest = .pure (.honored outpoint))
  | declined (rest : thread.rest = .pure (.notReady (.decline .alreadyHonored none)))
      (since : Settled key server.world.db)

inductive Moved (engine : HonorEngine G) (key : HonorKey) (row : SeenRowSql) (db : Db G)
    (server server' : Server G) (before after : RaceThread G) : Prop
  | on (phase : Phase engine key row server' after)
      (sameDb : server'.world.db = server.world.db)
      (quiet : server'.committed = server.committed ∨ inFlight before = true)
      (lost : wins after = false)
  | wins (unsettled : server.world.db = db) (settled : Settled key server'.world.db)
      (won : PostgresPool.wins after = true) (flying : inFlight before = true)

/-! The transaction of a call. -/

section
variable {committed : Committed G} {commands : List (ClientCall G)} {input : HonorTxnInput G}

theorem txn_honors {db : Db G} {row : SeenRowSql} (found : db.seen.find? input.key = some row)
    (lockable : Lockable input.now row) (single : input.mode = .single)
    (free : db.consumed.find? input.outpoint = none) (resolves : Resolves db.goods input.deliver)
    (clean : Clean db.goods input.deliver) :
    (PostgresStore.runHonorTxn db input).1.result = .ok () ∧
      Settled input.key (PostgresStore.runHonorTxn db input).2 := by
  obtain ⟨gated, passed⟩ := gateWrites_passes PostgresStore.driver found lockable single free
  have hgoods : gated.goods = db.goods := (gateWrites_ok passed).2.2
  obtain ⟨ended, hended, notRejected⟩ := resolves input rfl
  have resolved : (PostgresStore.runHonorTxn db input).1.result = .ok () := by
    rw [← hgoods, deliverEnd] at hended
    simp only [PostgresStore.runHonorTxn, passed, hended]
  obtain ⟨gated', passed', after⟩ :=
    runHonorTxn_ok (show (Store.runHonorTxn .async db input).1.result = .ok () from resolved)
  obtain ⟨⟨row', -, -, hseen⟩, -, hgoods'⟩ := gateWrites_ok passed'
  refine ⟨resolved, lockedRow input.now input.outpoint row', ?_, Option.some_ne_none _⟩
  rw [if_neg] at after
  · rw [show PostgresStore.runHonorTxn db input = Store.runHonorTxn .async db input from rfl, after]
    exact (hseen input.key).trans (if_pos rfl)
  · rintro ⟨-, failed⟩
    obtain ⟨call, called, fails⟩ := List.any_eq_true.1 failed
    rw [clean input rfl call (hgoods' ▸ called)] at fails
    cases fails

theorem txn_late {db : Db G} (settled : Settled input.key db) :
    PostgresStore.runHonorTxn db input = (⟨none, .error alreadyHonored⟩, db) := by
  obtain ⟨row, found, honored⟩ := settled
  simp only [PostgresStore.runHonorTxn, gateWrites_honored PostgresStore.driver found honored]

theorem Alone.settles {db : Db G} {row : SeenRowSql} {after : Committed G × ClientState G}
    {result : Except Thrown TxnReply} (found : db.seen.find? input.key = some row)
    (lockable : Lockable input.now row) (single : input.mode = .single)
    (free : db.consumed.find? input.outpoint = none) (resolves : Resolves db.goods input.deliver)
    (clean : Clean db.goods input.deliver)
    (state : committed.db = db ∨ Settled input.key committed.db)
    (session : Session (fun state command _ => serve state command) (committed, .idle) commands
      after) (returned : (PostgresServer.runHonorTxn input).Returns commands result)
    (rethrow : Bool) :
    ∃ reply, result = .ok reply ∧
      ((committed.db = db ∧ Settled input.key after.1.db ∧
          settleTxn rethrow input.outpoint reply = .ok (.honored input.outpoint)) ∨
        (Settled input.key committed.db ∧ after.1.db = committed.db ∧
          settleTxn rethrow input.outpoint reply =
            .ok (.notReady (.decline .alreadyHonored none)))) := by
  obtain ⟨rfl, hdb⟩ := Alone.returns session returned
  refine ⟨_, rfl, ?_⟩
  rcases state with unsettled | settled
  · obtain ⟨resolved, settled⟩ := txn_honors found lockable single free resolves clean
    rw [unsettled] at hdb ⊢
    refine .inl ⟨rfl, hdb ▸ settled, ?_⟩
    rw [settleTxn, resolved]
  · rw [txn_late settled] at hdb ⊢
    exact .inr ⟨settled, hdb, rfl⟩

theorem Alone.step {db : Db G} {row : SeenRowSql} {client : ClientState G} {command : Command G}
    {next : command.Reply → OnClient G TxnReply} (found : db.seen.find? input.key = some row)
    (lockable : Lockable input.now row) (single : input.mode = .single)
    (free : db.consumed.find? input.outpoint = none) (resolves : Resolves db.goods input.deliver)
    (clean : Clean db.goods input.deliver)
    (state : committed.db = db ∨ Settled input.key committed.db)
    (sending : (PostgresServer.runHonorTxn input).Runs commands (.call command next))
    (alone : Alone committed commands client) (rethrow : Bool) :
    ((next (execute committed client command).1).waits = true ∧
      (execute committed client command).2.1 = committed ∧
      Alone committed (commands ++ [⟨command, (execute committed client command).1⟩])
        (execute committed client command).2.2) ∨
    ∃ reply, next (execute committed client command).1 = .ofExcept (.ok reply) ∧
      ((committed.db = db ∧ Settled input.key (execute committed client command).2.1.db ∧
          settleTxn rethrow input.outpoint reply = .ok (.honored input.outpoint)) ∨
        (Settled input.key committed.db ∧
          (execute committed client command).2.1.db = committed.db ∧
          settleTxn rethrow input.outpoint reply =
            .ok (.notReady (.decline .alreadyHonored none)))) := by
  have sent := sending.snoc (execute committed client command).1
  cases waits : (next (execute committed client command).1).waits with
  | true =>
    have same := (execute_keeps (runHonorTxn_stage sending rfl) alone).resolve_right fun h => by
      rw [h.2] at waits
      cases waits
    exact .inl ⟨rfl, same, alone.snoc command same⟩
  | false =>
    obtain ⟨returned, ended⟩ := exists_ofExcept waits
    rw [ended] at sent
    have session := Session.append_iff.2 ⟨_, alone, Session.cons command
      (execute committed client command).1 .nil⟩
    obtain ⟨reply, rfl, ends⟩ := Alone.settles found lockable single free resolves clean state
      session sent rethrow
    exact .inr ⟨reply, ended, ends⟩

end

section
variable {engine : HonorEngine G} {reserver : Bool} {key : HonorKey} {row : SeenRowSql}
  {server server' : Server G} {thread : RaceThread G}

theorem RaceTold.mono {settled later : Prop} (imp : settled → later) {call : PortCall G}
    (told : RaceTold key row settled call) : RaceTold key row later call :=
  Told.mono (fun _ _ => id) imp told

theorem Phase.of_wins (won : wins thread = true) : Phase engine key row server thread := by
  unfold wins at won
  split at won
  next hrest => exact .honored hrest
  next => cases won

theorem Phase.of_ended (phase : Phase engine key row server thread)
    (ended : thread.rest.waits = false) :
    (∃ outpoint, thread.rest = .pure (.honored outpoint)) ∨
      thread.rest = .pure (.notReady (.decline .alreadyHonored none)) ∧
        Settled key server.world.db := by
  cases phase with
  | outside run told past rest waits =>
    rw [rest, waits_outside waits] at ended
    cases ended
  | inside run told sending alone past rest waits =>
    rw [rest, waits_inside _ _ waits] at ended
    cases ended
  | honored rest => exact .inl ⟨_, rest⟩
  | declined rest since => exact .inr ⟨rest, since⟩

theorem Phase.mono (phase : Phase engine key row server thread)
    (settles : Settled key server.world.db → Settled key server'.world.db)
    (own : ∀ id, Holds id thread → server'.clients id = server.clients id)
    (same : server'.committed = server.committed ∨ inFlight thread = false) :
    Phase engine key row server' thread := by
  cases phase with
  | outside run told past rest waits =>
    exact .outside run (fun call hcall => (told call hcall).mono settles) past rest waits
  | @inside calls input resume id commands inner run told sending alone past rest waits =>
    refine .inside run (fun call hcall => (told call hcall).mono settles) sending ?_ past rest waits
    rw [own id (by simp [Holds, past])]
    rcases same with same | unarrived
    · exact same ▸ alone
    · refine alone.restart (runHonorTxn_stage sending waits) (fun arrived => ?_) _
      rw [inFlight_inside past rest waits arrived] at unarrived
      cases unarrived
  | honored rest => exact .honored rest
  | declined rest since => exact .declined rest (settles since)

theorem asked {world : World G} {db : Db G} (found : db.seen.find? key = some row)
    (inside : Lockable world.clock row)
    (state : world.db = db ∨ Settled key world.db) {op : Op G}
    (reads : op.isQuery = true ∨ op = .clockNow ∨ op = .getSeen key) (answer : op.Reply)
    (read : ∀ e, (⟨op, (World.perform .async world op answer).1⟩ : PortCall G) ≠
      ⟨.getSeen key, .error e⟩)
    (tipped : ∀ e, (⟨op, (World.perform .async world op answer).1⟩ : PortCall G) ≠
      ⟨.tipHeight, .error e⟩) :
    (World.perform .async world op answer).2 = world ∧
      RaceTold key row (Settled key world.db)
        ⟨op, (World.perform .async world op answer).1⟩ := by
  rcases reads with query | rfl | rfl
  · rw [World.perform_query .async world query] at tipped ⊢
    exact ⟨rfl, .query query tipped⟩
  · exact ⟨rfl, .clock inside⟩
  · cases answer with
    | error e => exact absurd rfl (read e)
    | ok _ =>
      refine ⟨rfl, ?_⟩
      have seen {r : SeenRowSql} (hr : world.db.seen.find? key = some r) :
          ((getSeen world.db.seen key).map (Store.rowFromSql .async)) =
            some (SqliteStore.rowFromSql r) := by
        rw [getSeen, hr, Option.map_some, rowFromSql_eq]
      show RaceTold key row _ ⟨.getSeen key, .ok ((getSeen world.db.seen key).map _)⟩
      rcases state with rfl | ⟨other, hother, honored⟩
      · rw [seen found]
        exact .unhonored
      · rw [seen hother]
        exact .honored honored ⟨other, hother, honored⟩

theorem connect_moves {input : HonorTxnInput G} {resume : TxnReply → Async G HonorOutcome}
    {db : Db G} {before : RaceThread G} {task : HonorCall G} {calls : List (PortCall G)}
    (told : ∀ call ∈ calls, RaceTold key row (Settled key server.world.db) call)
    (run : (engine.honor key task.deliver task.opts).Runs calls
      (.call (.runHonorTxn input) resume)) (answer : Nat) :
    Moved engine key row db server (perform server .connect answer).2 before
      ⟨task, calls.map onPort ++ [⟨.connect, (perform server .connect answer).1⟩],
        ((PostgresServer.runHonorTxn input).interpret
          (onClient (perform server .connect answer).1)).bind fun reply =>
            (resume reply).interpret onPool⟩ := by
  refine .on (.inside run told .nil ?_ rfl rfl rfl) rfl (.inl rfl) rfl
  show Alone server.committed [] (if server.connected = server.connected then .idle else _)
  rw [if_pos rfl]
  exact .nil

theorem unsettled_row {db : Db G} (found : db.seen.find? key = some row)
    (unhonored : row.honoredAt = none) : ¬ Settled key db := by
  rintro ⟨other, hother, honored⟩
  rw [found] at hother
  cases hother
  exact honored unhonored

theorem settled_rest (id : Nat) {rethrow : Bool} {outpoint : Outpoint} {reply : TxnReply}
    {outcome : HonorOutcome} (settles : settleTxn rethrow outpoint reply = .ok outcome) :
    ((Program.ofExcept (.ok reply) : OnClient G TxnReply).interpret (onClient id)).bind
      (fun reply => (Program.ofExcept (settleTxn rethrow outpoint reply) :
        Async G HonorOutcome).interpret onPool) = .pure outcome := by
  show (Program.ofExcept (settleTxn rethrow outpoint reply) :
    Async G HonorOutcome).interpret onPool = .pure outcome
  rw [settles]
  rfl

section
variable {db : Db G} {task : HonorCall G} {calls : List (PortCall G)} {free : Outpoint → Prop}
  (forms : engine.deps.forms = createFormRegistry (builtinForms reserver))
  (plain : row.form = .plain) (unhonored : row.honoredAt = none)
  (found : db.seen.find? key = some row)
  (state : server.world.db = db ∨ Settled key server.world.db)
  (injected : ∀ now, task.opts.now = some now → Lockable now row)
  (told : ∀ call ∈ calls, RaceTold key row (Settled key server.world.db) call)
include forms plain unhonored found state injected told

theorem outside_moves (inside : Lockable server.world.clock row) {op : Op G}
    {resume : op.Reply → Async G HonorOutcome} {before : RaceThread G}
    (run : (engine.honor key task.deliver task.opts).Runs calls (.call op resume))
    (notTxn : ∀ input, op ≠ .runHonorTxn input) (answer : op.Reply)
    (faultless : Faultless key ⟨op, (World.perform .async server.world op answer).1⟩)
    (scored : Scored engine key task.opts free
      (calls ++ [⟨op, (World.perform .async server.world op answer).1⟩])) :
    Moved engine key row db server (perform server (.port op) answer).2 before
      ⟨task, calls.map onPort ++ [⟨.port op, (perform server (.port op) answer).1⟩],
        (resume (perform server (.port op) answer).1).interpret onPool⟩ := by
  have reads : op.isQuery = true ∨ op = .clockNow ∨ op = .getSeen key := by
    rcases contender_calls forms plain told run with query | clock | seen | ⟨input, rfl⟩
    · exact .inl query
    · exact .inr (.inl clock)
    · exact .inr (.inr seen)
    · exact absurd rfl (notTxn input)
  obtain ⟨same, asked⟩ := asked found inside state reads answer (fun e => (faultless e).1)
    fun e => (faultless e).2
  generalize hreply : (World.perform .async server.world op answer).1 = reply at *
  rw [perform_port server (Prod.ext hreply same)]
  have tolds : ∀ call ∈ calls ++ [⟨op, reply⟩],
      RaceTold key row (Settled key server.world.db) call :=
    List.forall_mem_append.2 ⟨told, List.forall_mem_singleton.2 asked⟩
  have past : calls.map onPort ++ [(⟨.port op, reply⟩ : PgCall G)] =
      (calls ++ [(⟨op, reply⟩ : PortCall G)]).map onPort := by
    rw [List.map_append]
    rfl
  cases waits : (resume reply).waits with
  | true =>
    refine .on (.outside (run.snoc reply) tolds past rfl waits) rfl (.inl rfl) ?_
    exact wins_of_waits (waits_outside waits)
  | false =>
    obtain ⟨result, ended⟩ := exists_ofExcept waits
    have returns : (engine.honor key task.deliver task.opts).Returns (calls ++ [⟨op, reply⟩])
        result := by
      have snoc := run.snoc reply
      rw [ended] at snoc
      exact snoc
    rcases contender_ends forms plain unhonored injected (fun e h => h e rfl) scored tolds returns
      with ⟨_, _, _, impossible, _⟩ | ⟨since, rfl⟩
    · exact impossible.elim
    · exact .on (.declined (by rw [ended]; rfl) since) rfl (.inl rfl) (by rw [ended]; rfl)

theorem inside_moves {input : HonorTxnInput G} {resume : TxnReply → Async G HonorOutcome}
    {id : Nat} {commands : List (ClientCall G)} {command : Command G}
    {next : command.Reply → OnClient G TxnReply} (resolves : Resolves db.goods task.deliver)
    (clean : Clean db.goods task.deliver)
    (run : (engine.honor key task.deliver task.opts).Runs calls
      (.call (.runHonorTxn input) resume))
    (sending : (PostgresServer.runHonorTxn input).Runs commands (.call command next))
    (alone : Alone server.committed commands (server.clients id))
    (scored : Scored engine key task.opts (fun outpoint => db.consumed.find? outpoint = none) calls)
    (answer : command.Reply) :
    Moved engine key row db server (perform server (.client id command) answer).2
      ⟨task, calls.map onPort ++ ⟨.connect, id⟩ :: commands.map (sent id),
        ((Program.call command next).interpret (onClient id)).bind fun reply =>
          (resume reply).interpret onPool⟩
      ⟨task, (calls.map onPort ++ ⟨.connect, id⟩ :: commands.map (sent id)) ++
          [⟨.client id command, (perform server (.client id command) answer).1⟩],
        ((next (perform server (.client id command) answer).1).interpret (onClient id)).bind
          fun reply => (resume reply).interpret onPool⟩ := by
  have keeps := execute_keeps (runHonorTxn_stage sending rfl) alone
  have flying (arrived : ⟨.arrive, ()⟩ ∈ commands) : inFlight (G := G)
      ⟨task, calls.map onPort ++ ⟨.connect, id⟩ :: commands.map (sent id),
        ((Program.call command next).interpret (onClient id)).bind fun reply =>
          (resume reply).interpret onPool⟩ = true :=
    inFlight_inside rfl rfl rfl arrived
  have state' : (perform server (.client id command) answer).2.clients id =
      (execute server.committed (server.clients id) command).2.2 := if_pos rfl
  have committed' : (perform server (.client id command) answer).2.committed =
      (execute server.committed (server.clients id) command).2.1 := rfl
  have reply' : (perform server (.client id command) answer).1 =
      (execute server.committed (server.clients id) command).1 := rfl
  generalize perform server (.client id command) answer = result at *
  obtain ⟨reply, server'⟩ := result
  dsimp only at *
  subst reply'
  have past : (calls.map onPort ++ ⟨.connect, id⟩ :: commands.map (sent id)) ++
      [⟨.client id command, (execute server.committed (server.clients id) command).1⟩] =
      calls.map onPort ++ ⟨.connect, id⟩ :: (commands ++
        [(⟨command, (execute server.committed (server.clients id) command).1⟩ :
          ClientCall G)]).map (sent id) := by
    rw [List.map_append, List.append_assoc]
    rfl
  have quiet : server'.committed = server.committed ∨ ⟨.arrive, ()⟩ ∈ commands :=
    keeps.imp (committed'.trans ·) And.left
  have hdb : server'.world.db = (execute server.committed (server.clients id) command).2.1.db :=
    congrArg Committed.db committed'
  obtain ⟨reached, rfl⟩ := honor_runs_gate run
  obtain ⟨rfl, hdeliver, single, lockable, free⟩ :=
    contender_gate forms plain injected scored told reached
  rcases Alone.step found lockable single free (hdeliver ▸ resolves) (hdeliver ▸ clean) state
    sending alone task.opts.rethrowDeliveryErrors with
    ⟨waits, same, alone'⟩ | ⟨reply, ended, ends⟩
  · have sameDb : server'.world.db = server.world.db := hdb.trans (congrArg Committed.db same)
    refine .on (.inside run ?_ (sending.snoc _) ?_ past rfl waits) sameDb
      (quiet.imp_right flying) ?_
    · rw [sameDb]
      exact told
    · rw [state', committed', same]
      exact alone'
    · exact wins_of_waits (waits_inside _ _ waits)
  · rw [ended]
    rcases ends with ⟨unsettled, settled, honored⟩ | ⟨settled, sameDb, late⟩
    · refine .wins unsettled (hdb ▸ settled) (by rw [settled_rest id honored]; rfl) (flying ?_)
      refine quiet.resolve_left fun same => unsettled_row found unhonored ?_
      rw [← unsettled, ← same, committed']
      exact settled
    · have same : server'.world.db = server.world.db := hdb.trans sameDb
      refine .on (.declined (settled_rest id late) (same ▸ settled)) same
        (quiet.imp_right flying) ?_
      rw [settled_rest id late]
      rfl

end

end

section
variable {engine : HonorEngine G} {reserver : Bool} {key : HonorKey} {row : SeenRowSql}
  {server : Server G} {db : Db G}

theorem Phase.holds {task : HonorCall G} {past : List (PgCall G)} {id : Nat} {command : Command G}
    {resume : command.Reply → OverPool G HonorOutcome}
    (phase : Phase engine key row server ⟨task, past, .call (.client id command) resume⟩) :
    Holds id ⟨task, past, .call (.client id command) resume⟩ := by
  cases phase with
  | @outside calls program run told hpast rest waits =>
    cases program with
    | call op next => cases op <;> cases rest
    | _ => cases waits
  | @inside calls input next own commands inner run told sending alone hpast rest waits =>
    cases inner with
    | call command' next' =>
      cases rest
      show _ ∈ past
      rw [show past = _ from hpast]
      simp
    | _ => cases waits
  | honored rest => cases rest
  | declined rest since => cases rest

theorem phase_moves (forms : engine.deps.forms = createFormRegistry (builtinForms reserver))
    (plain : row.form = .plain) (unhonored : row.honoredAt = none)
    (found : db.seen.find? key = some row)
    (state : server.world.db = db ∨ Settled key server.world.db)
    (inside : Lockable server.world.clock row) {task : HonorCall G}
    (injected : ∀ now, task.opts.now = some now → Lockable now row)
    (resolves : Resolves db.goods task.deliver) (clean : Clean db.goods task.deliver)
    {past : List (PgCall G)} {op : PgOp G} {resume : op.Reply → OverPool G HonorOutcome}
    (phase : Phase engine key row server ⟨task, past, .call op resume⟩) (answer : op.Reply)
    (faultless : ∀ call ∈ ports (past ++ [⟨op, (perform server op answer).1⟩]),
      Faultless key call)
    (scored : Scored engine key task.opts (fun outpoint => db.consumed.find? outpoint = none)
      (ports (past ++ [⟨op, (perform server op answer).1⟩]))) :
    Moved engine key row db server (perform server op answer).2 ⟨task, past, .call op resume⟩
      ⟨task, past ++ [⟨op, (perform server op answer).1⟩],
        resume (perform server op answer).1⟩ := by
  cases phase with
  | @outside calls program run told hpast rest waits =>
    obtain rfl : past = calls.map onPort := hpast
    cases program with
    | call own next =>
      by_cases txn : ∃ input, own = .runHonorTxn input
      · obtain ⟨input, rfl⟩ := txn
        cases rest
        exact connect_moves told run answer
      · have once : (Program.call own next).interpret onPool =
            .call (.port own) fun reply => (next reply).interpret onPool := by
          have swept := (engine.honor_uses key task.deliver task.opts).of_call run
          cases own <;> first | rfl | exact absurd ⟨_, rfl⟩ txn | cases swept
        have same := Eq.trans (show Program.call op resume = _ from rest) once
        cases same
        rw [ports_append, ports_onPort] at faultless scored
        exact outside_moves forms plain unhonored found state injected told inside run
          (fun input h => txn ⟨input, h⟩) answer
          (faultless _ (by simp [ports, portCall?, perform])) scored
    | _ => cases waits
  | @inside calls input next own commands inner run told sending alone hpast rest waits =>
    obtain rfl : past = calls.map onPort ++ ⟨.connect, own⟩ :: commands.map (sent own) := hpast
    cases inner with
    | call command resume' =>
      cases rest
      rw [ports_append, ports_inside] at scored
      exact inside_moves forms plain unhonored found state injected told resolves clean run sending
        alone scored.of_append answer
    | _ => cases waits
  | honored rest => cases rest
  | declined rest since => cases rest

end

end PostgresPool
end ExferHonor
