import ExferHonor.Adapters.GateTables
import ExferHonor.Adapters.PostgresSweep
import ExferHonor.Core.Clients
import ExferHonor.Core.PostgresPool
import ExferHonor.Effects.Carried
import ExferHonor.Effects.History
import ExferHonor.Effects.Tickets

/-! Any calls of the library over one shared PostgresStore, their transactions interleaved statement
by statement: a COMMIT that takes effect, acknowledged or not, makes all the writes of its
transaction on what is committed by then. -/
namespace ExferHonor
namespace PostgresPool
open Effects Program Statements PostgresServer

variable {G α Task : Type}

/-! Commands that fail for reasons of the server or of the connection to it. -/

def stmtRefusal : (stmt : Stmt G) → stmt.Reply → Option Thrown
  | .lockSeen _ _ _, .error e => some e
  | .selectHonoredAt _, .error e => some e
  | .insertConsumed _ _ _ _, .error e => some e
  | .promoteConsumed _ _ _, .error e => some e
  | .goods _, .error e => some e
  | .sweepSeen _, .error e => some e
  | .sweepOutpoints _, .error e => some e
  | _, _ => none

def refusal : (command : Command G) → command.Reply → Option Thrown
  | .begin, .error e => some e
  | .stmt stmt, answer => stmtRefusal stmt answer
  | .commit, .error e => some e
  | .rollback, .error e => some e
  | _, _ => none

def acknowledged : (op : Op G) → op.Reply → op.Reply
  | .upsertAccepted _ _ _, _ => .ok ()
  | .markObservedBeforeExpiry _ _, _ => .ok ()
  | .reserveClaimOutpoint _ _ _ _, _ => .ok ()
  | _, answer => answer

namespace Server

/-- A failed statement aborts its transaction. A COMMIT that fails ends it, and it may have taken
effect: then only the reply was lost. -/
def refuse (server : Server G) (id : Nat) (e : Thrown) : (command : Command G) →
    command.Reply × Committed G × ClientState G
  | .begin => (.error e, server.committed, server.clients id)
  | .arrive => ((), server.committed, server.clients id)
  | .stmt stmt => (stmt.fail e, server.committed, match server.clients id with
      | .idle => .idle
      | _ => .failed)
  | .commit => (.error e,
      if server.deaf then (server.clients id).commit server.committed else server.committed, .idle)
  | .rollback => (.error e, server.committed, .idle)

def respond (server : Server G) (id : Nat) (command : Command G) (answer : command.Reply) :
    command.Reply × Committed G × ClientState G :=
  match refusal command answer with
  | some e => server.refuse id e command
  | none => execute server.committed (server.clients id) command

end Server

def performOrRefuse (server : Server G) : (op : PgOp G) → op.Reply → op.Reply × Server G
  | .client id command, answer =>
      let result := server.respond id command answer
      (result.1, (server.set server.world result.2.1).setClient id result.2.2)
  | .port op, answer =>
      ((perform server (.port op) answer).1,
        (perform server (.port op) (if server.deaf then acknowledged op answer else answer)).2)
  | .connect, answer => perform server .connect answer

/-- The calls of any number of instances, started at any time. The clock, what an instance keeps in
its own memory and whether replies get lost change as they like. -/
def instances (program : Task → Async G α) :
    System (Server G) (PgOp G) PgOp.Reply Thrown α Task where
  program task := (program task).interpret onPool
  perform := performOrRefuse
  mayStart _ _ := True
  mayShift before after :=
    ∃ world deaf, world.db = before.world.db ∧
      after = { before with world := world, deaf := deaf }

abbrev PgThread (G α Task : Type) := Thread (PgOp G) PgOp.Reply Thrown α Task
abbrev PgEvent (G Task : Type) := Event (Server G) (PgOp G) PgOp.Reply Task
abbrev PgPool (G α Task : Type) := Pool (Server G) (PgOp G) PgOp.Reply Thrown α Task

namespace Server

def Apart (server : Server G) (id other : Nat) : Prop :=
  (∀ key ∈ (server.clients id).seenChanged, key ∉ (server.clients other).seenChanged) ∧
    ∀ outpoint ∈ (server.clients id).consumedChanged,
      outpoint ∉ (server.clients other).consumedChanged

instance (server : Server G) (id other : Nat) : Decidable (server.Apart id other) :=
  inferInstanceAs (Decidable (_ ∧ _))

def Spares (before after : Server G) (id : Nat) : Prop :=
  (∀ key ∈ (before.clients id).seenChanged,
    after.world.db.seen.find? key = before.world.db.seen.find? key) ∧
  ∀ outpoint ∈ (before.clients id).consumedChanged,
    after.world.db.consumed.find? outpoint = before.world.db.consumed.find? outpoint

instance (before after : Server G) (id : Nat) : Decidable (before.Spares after id) :=
  inferInstanceAs (Decidable (_ ∧ _))

end Server

/-- A row that an open transaction has changed is locked: a statement of another transaction and a
write outside the transactions change it only after that one has ended. -/
def RowLocks (before after : Server G) : PgOp G → Prop
  | .client id (.stmt _) => ∀ other < before.connected, other ≠ id → after.Apart id other
  | .port _ => ∀ id < before.connected, before.Spares after id
  | _ => True

instance (before after : Server G) : (op : PgOp G) → Decidable (RowLocks before after op)
  | .client id (.stmt _) =>
      inferInstanceAs (Decidable (∀ other < before.connected, other ≠ id → after.Apart id other))
  | .port _ => inferInstanceAs (Decidable (∀ id < before.connected, before.Spares after id))
  | .connect => isTrue trivial
  | .client _ .begin => isTrue trivial
  | .client _ .arrive => isTrue trivial
  | .client _ .commit => isTrue trivial
  | .client _ .rollback => isTrue trivial

def Waited (event : PgEvent G Task) : Prop := RowLocks event.before event.after event.call.op

instance (event : PgEvent G Task) : Decidable (Waited event) :=
  inferInstanceAs (Decidable (RowLocks _ _ _))

/-- The transaction is open on the client: the thread has started it there and sent some of its
commands. -/
def InTransaction (program : Task → Async G α) (event : PgEvent G Task) (id : Nat)
    (txn : StoreTxn G) : Prop :=
  ∃ calls resume before, ∃ commands : List (ClientCall G), Carried onPool calls before ∧
    (program event.task).Runs calls (.call txn.op resume) ∧
    event.past = before ++ ⟨.connect, id⟩ :: commands.map (sent id)

def Ends (event : PgEvent G Task) (id : Nat) : Prop :=
  event.call.op = .client id .commit ∧ ∃ opened, event.before.clients id = .active opened

def Honors (event : PgEvent G Task) (input : HonorTxnInput G) : Prop :=
  ∃ gated, gateWrites PostgresStore.driver event.before.world.db input = .ok gated ∧
    event.after.world.db.seen = gated.seen ∧ event.after.world.db.consumed = gated.consumed

/-- What one call does to what is committed. A COMMIT has its whole effect, or it has failed. -/
structure Serial (program : Task → Async G α) (event : PgEvent G Task) : Prop where
  port : ∀ op, event.call.op = .port op → (∀ txn : StoreTxn G, txn.op ≠ op) ∧
    Store.Change .async event.before.world.db op event.after.world.db
  commit : ∀ id, Ends event id →
    (∃ txn, InTransaction program event id txn ∧
      txn.Makes event.before.world.db event.after.world.db) ∨
    (∃ e, event.call = ⟨.client id .commit, .error e⟩) ∧
      event.after.world.db = event.before.world.db
  quiet : (∀ op, event.call.op ≠ .port op) → (∀ id, ¬ Ends event id) →
    event.after.world.db = event.before.world.db

/-- Where a call is: outside the store's transactions, inside one that waits for the reply to its
next command, or at the throw of one. -/
inductive Stage (program : Task → Async G α) (server : Server G) (thread : PgThread G α Task) :
    Prop
  | outside {calls inner} (run : (program thread.task).Runs calls inner)
      (carried : Carried onPool calls thread.past) (rest : thread.rest = inner.interpret onPool)
  | inside {calls before} {txn : StoreTxn G} {resume id commands inner at_}
      (run : (program thread.task).Runs calls (.call txn.op resume))
      (carried : Carried onPool calls before)
      (past : thread.past = before ++ ⟨.connect, id⟩ :: commands.map (sent id))
      (sending : txn.program.Runs commands inner)
      (follows : inner.Follows txn.protocol at_ fun _ after => after = .outside)
      (holds : txn.Holds server.committed at_ (server.clients id))
      (rest : thread.rest = (inner.interpret (onClient id)).bind fun reply =>
        (resume reply).interpret onPool) (waits : inner.waits = true)
  | threw (ended : thread.rest.waits = false)

structure Locked (program : Task → Async G α) (pool : PgPool G α Task) : Prop where
  stages : ∀ thread ∈ pool.threads, Stage program pool.shared thread
  apart : ∀ id < pool.shared.connected, ∀ other < pool.shared.connected, id ≠ other →
    pool.shared.Apart id other

def client? : PgCall G → Option Nat
  | ⟨.connect, id⟩ => some id
  | _ => none

theorem onPool_txn (txn : StoreTxn G) :
    onPool txn.op = .call .connect fun id => txn.program.interpret (onClient id) := by
  cases txn <;> rfl

section
variable {program : Task → Async G α} {server server' : Server G} {thread : PgThread G α Task}

/-- What others do matters only through the rows the call has changed. -/
theorem Stage.frame (stage : Stage program server thread)
    (since : server.committed.Since server'.committed)
    (own : ∀ id, thread.Holds client? id →
      server'.clients id = server.clients id ∧ server.Spares server' id) :
    Stage program server' thread := by
  cases stage with
  | outside run carried rest => exact .outside run carried rest
  | @inside calls before txn resume id commands inner at_ run carried past sending follows holds
      rest waits =>
    obtain ⟨same, seen, consumed⟩ := own id ⟨⟨.connect, id⟩, by rw [past]; simp, rfl⟩
    refine .inside run carried past sending follows ?_ rest waits
    rw [same]
    exact holds.frame since seen consumed
  | threw ended => exact .threw ended

theorem onClient_runs {β : Type} (id : Nat) {inner rest : OnClient G β}
    {commands : List (ClientCall G)} (run : inner.Runs commands rest) :
    (inner.interpret (onClient id)).Runs (commands.map (sent id))
      (rest.interpret (onClient id)) := by
  induction run with
  | nil => exact .nil
  | call reply _ ih => exact (runs_call_iff _ _).2 (.inr ⟨reply, _, rfl, ih⟩)

theorem Stage.of_inner {calls : List (PortCall G)} {before : List (PgCall G)} {txn : StoreTxn G}
    {resume : txn.op.Reply → Async G α} {id : Nat} {commands : List (ClientCall G)}
    {inner : OnClient G txn.op.Reply} {at_ : Progress}
    (run : (program thread.task).Runs calls (.call txn.op resume))
    (carried : Carried onPool calls before)
    (past : thread.past = before ++ ⟨.connect, id⟩ :: commands.map (sent id))
    (sending : txn.program.Runs commands inner)
    (follows : inner.Follows txn.protocol at_ fun _ after => after = .outside)
    (holds : txn.Holds server.committed at_ (server.clients id))
    (rest : thread.rest = (inner.interpret (onClient id)).bind fun reply =>
      (resume reply).interpret onPool) : Stage program server thread := by
  cases inner with
  | pure reply =>
    refine .outside (run.snoc reply) ?_ rest
    rw [past]
    refine carried.snoc ?_
    rw [onPool_txn]
    exact (returns_call_iff _ _).2 ⟨id, _, rfl, onClient_runs id sending⟩
  | throw error =>
    refine .threw ?_
    rw [rest]
    rfl
  | call command next => exact .inside run carried past sending follows holds rest rfl

theorem written_since (committed : Committed G) (db : Db G) :
    committed.Since (written committed db) where
  seen key := by
    refine ⟨Nat.le_add_right _ _, fun same => ?_⟩
    simpa [written] using same
  consumed outpoint := by
    refine ⟨Nat.le_add_right _ _, fun same => ?_⟩
    simpa [written] using same

theorem performOrRefuse_client (server : Server G) (id : Nat) (command : Command G)
    (answer : command.Reply) :
    (performOrRefuse server (.client id command) answer).2.clients id =
        (server.respond id command answer).2.2 ∧
      ∀ other, other ≠ id →
        (performOrRefuse server (.client id command) answer).2.clients other =
          server.clients other :=
  ⟨if_pos rfl, fun _ ne => if_neg ne⟩

section
variable {txn : StoreTxn G} {id : Nat} {at_ : Progress} {command : Command G}

theorem refuse_moves {e : Thrown} (holds : txn.Holds server.committed at_ (server.clients id))
    (may : txn.protocol.may at_ command) (notArrive : command ≠ .arrive)
    (notCommit : command ≠ .commit) :
    (server.refuse id e command).2.1 = server.committed ∧
    ∃ after, at_.leads command (server.refuse id e command).1 after ∧
      txn.Holds server.committed after (server.refuse id e command).2.2 := by
  refine ⟨by cases command <;> first | rfl | contradiction, ?_⟩
  cases command with
  | begin => exact ⟨at_, rfl, holds⟩
  | arrive => contradiction
  | stmt stmt =>
    have aborted : (server.refuse id e (.stmt stmt)).2.2 = .failed := by
      simp only [Server.refuse]
      split
      next idle => exact absurd (idle ▸ holds).outside_of_idle (StoreTxn.within_of_may may)
      next => rfl
    exact ⟨.aborted, Progress.leads_fail _ stmt e, aborted ▸ txn.holds_failed⟩
  | commit => contradiction
  | rollback => exact ⟨.outside, rfl, txn.holds_idle⟩

theorem respond_moves (holds : txn.Holds server.committed at_ (server.clients id))
    (may : txn.protocol.may at_ command) (notCommit : command ≠ .commit)
    (answer : command.Reply) :
    (server.respond id command answer).2.1 = server.committed ∧
    ∃ after, txn.protocol.moves at_ command (server.respond id command answer).1 after ∧
      txn.Holds server.committed after (server.respond id command answer).2.2 := by
  unfold Server.respond
  split
  next e refused =>
    rw [txn.protocol_moves]
    refine refuse_moves holds may ?_ notCommit
    rintro rfl
    cases refused
  next =>
    refine ⟨?_, holds.execute may notCommit⟩
    by_cases idle : server.clients id = .idle
    · rw [idle] at holds ⊢
      obtain rfl := holds.outside_of_idle
      cases command with
      | stmt stmt => exact absurd rfl (StoreTxn.within_of_may may)
      | commit => exact absurd rfl notCommit
      | _ => rfl
    · exact execute_committed _ idle notCommit

theorem respond_commit (server : Server G) (id : Nat) (answer : Except Thrown Unit) :
    (server.respond id .commit answer).2.2 = .idle ∧
    (((server.respond id .commit answer).2.1 = server.committed ∧
        ∀ opened, server.clients id = .active opened →
          ∃ e, (server.respond id .commit answer).1 = .error e) ∨
      ∃ opened, server.clients id = .active opened ∧
        (server.respond id .commit answer).2.1 = opened.commit server.committed) := by
  have effect : (server.clients id).commit server.committed = server.committed ∧
      (∀ opened, server.clients id ≠ .active opened) ∨
      ∃ opened, server.clients id = .active opened ∧
        (server.clients id).commit server.committed = opened.commit server.committed := by
    cases server.clients id with
    | active opened => exact .inr ⟨opened, rfl, rfl⟩
    | _ => exact .inl ⟨rfl, nofun⟩
  cases answer with
  | error e =>
    refine ⟨rfl, ?_⟩
    simp only [Server.respond, refusal, Server.refuse]
    split
    · rcases effect with ⟨same, -⟩ | committed
      · exact .inl ⟨same, fun _ _ => ⟨e, rfl⟩⟩
      · exact .inr committed
    · exact .inl ⟨rfl, fun _ _ => ⟨e, rfl⟩⟩
  | ok _ =>
    refine ⟨rfl, ?_⟩
    rcases effect with ⟨same, unopened⟩ | committed
    · exact .inl ⟨same, fun opened active => absurd active (unopened opened)⟩
    · exact .inr committed

end

theorem Server.Apart.symm {id other : Nat} (apart : server.Apart id other) :
    server.Apart other id :=
  ⟨fun key there here => apart.1 key here there,
    fun outpoint there here => apart.2 outpoint here there⟩

theorem Server.Apart.of_clients {id other id' other' : Nat} (apart : server.Apart id other)
    (seen : ∀ key ∈ (server'.clients id').seenChanged, key ∈ (server.clients id).seenChanged)
    (consumed : ∀ outpoint ∈ (server'.clients id').consumedChanged,
      outpoint ∈ (server.clients id).consumedChanged)
    (same : server'.clients other' = server.clients other) : server'.Apart id' other' := by
  unfold Server.Apart
  rw [same]
  exact ⟨fun key here => apart.1 key (seen key here),
    fun outpoint here => apart.2 outpoint (consumed outpoint here)⟩

theorem changed_of_not_stmt {own : Nat} {command : Command G}
    (notStmt : ∀ stmt, command ≠ .stmt stmt) (answer : command.Reply) :
    (∀ key ∈ (server.respond own command answer).2.2.seenChanged,
      key ∈ (server.clients own).seenChanged) ∧
    ∀ outpoint ∈ (server.respond own command answer).2.2.consumedChanged,
      outpoint ∈ (server.clients own).consumedChanged := by
  cases command with
  | stmt stmt => exact absurd rfl (notStmt stmt)
  | begin =>
    cases answer <;> simp only [Server.respond, refusal, Server.refuse, execute]
    · exact ⟨fun _ => id, fun _ => id⟩
    · cases server.clients own <;> exact ⟨fun _ => id, fun _ => id⟩
  | arrive =>
    simp only [Server.respond, refusal, execute]
    cases server.clients own <;> exact ⟨fun _ => id, fun _ => id⟩
  | commit =>
    cases answer <;> simp only [Server.respond, refusal, Server.refuse, execute] <;>
      exact ⟨List.forall_mem_nil _, List.forall_mem_nil _⟩
  | rollback =>
    cases answer <;> simp only [Server.respond, refusal, Server.refuse, execute] <;>
      exact ⟨List.forall_mem_nil _, List.forall_mem_nil _⟩

section
variable {pool : PgPool G α Task} {index : Nat} {task : Task} {past : List (PgCall G)}
  {op : PgOp G} {resume : op.Reply → OverPool G α}

theorem Locked.stages_advance (locked : Locked program pool)
    (issued : Issued client? Server.connected pool)
    (waiting : pool.threads[index]? = some ⟨task, past, .call op resume⟩) (answer : op.Reply)
    (since : pool.shared.committed.Since (performOrRefuse pool.shared op answer).2.committed)
    (others : ∀ id < pool.shared.connected,
      ¬ Thread.Holds client? (⟨task, past, .call op resume⟩ : PgThread G α Task) id →
      (performOrRefuse pool.shared op answer).2.clients id = pool.shared.clients id ∧
        pool.shared.Spares (performOrRefuse pool.shared op answer).2 id)
    (self : Stage program (performOrRefuse pool.shared op answer).2
      ⟨task, past ++ [⟨op, (performOrRefuse pool.shared op answer).1⟩],
        resume (performOrRefuse pool.shared op answer).1⟩) :
    ∀ thread ∈ (pool.advance (instances program) index task past op resume answer).threads,
      Stage program (performOrRefuse pool.shared op answer).2 thread := by
  intro thread there
  obtain ⟨other, present⟩ := List.getElem?_of_mem there
  rw [Pool.getElem?_advance _ waiting] at present
  split at present
  next =>
    cases present
    exact self
  next elsewhere =>
    have hmem := List.mem_of_getElem? present
    refine (locked.stages thread hmem).frame since fun id holds => ?_
    refine others id (issued.past thread hmem id holds) fun mine => elsewhere ?_
    exact issued.distinct index other _ thread id waiting present mine holds

theorem client_ne_port {own : Nat} {command : Command G} {op : Op G} :
    (PgOp.client own command) ≠ .port op := nofun

theorem connect_ne_port {op : Op G} : PgOp.connect ≠ .port op := nofun

def nextEvent (pool : PgPool G α Task) (index : Nat) (task : Task) (past : List (PgCall G))
    (op : PgOp G) (answer : op.Reply) : PgEvent G Task :=
  ⟨index, task, past, pool.shared, ⟨op, (performOrRefuse pool.shared op answer).1⟩,
    (performOrRefuse pool.shared op answer).2⟩

theorem Locked.advance_port (locked : Locked program pool)
    (issued : Issued client? Server.connected pool) {port : Op G}
    {next : port.Reply → Async G α} {calls : List (PortCall G)}
    (notTxn : ∀ txn : StoreTxn G, txn.op ≠ port)
    (run : (program task).Runs calls (.call port next)) (carried : Carried onPool calls past)
    (waiting : pool.threads[index]? = some ⟨task, past, .call (.port port) fun reply =>
      (next reply).interpret onPool⟩) (answer : port.Reply)
    (waited : Waited (nextEvent pool index task past (.port port) answer)) :
    Locked program (pool.advance (instances program) index task past (.port port)
        (fun reply => (next reply).interpret onPool) answer) ∧
      Serial program (nextEvent pool index task past (.port port) answer) := by
  refine ⟨⟨locked.stages_advance issued waiting answer (written_since _ _)
    (fun id old _ => ⟨rfl, waited id old⟩) ?_, locked.apart⟩, ?_, nofun, ?_⟩
  · refine .outside (run.snoc _) (carried.snoc ?_) rfl
    have asks : onPool port = .call (.port port) .pure := by
      cases port <;>
        first | rfl | exact absurd rfl (notTxn (.honor _)) | exact absurd rfl (notTxn (.sweep _))
    rw [asks]
    exact (returns_call_iff _ _).2 ⟨_, [], rfl, .nil⟩
  · rintro op same
    cases same
    exact ⟨notTxn, World.perform_change .async pool.shared.world port _⟩
  · exact fun other => absurd rfl (other port)

theorem Locked.advance_connect (locked : Locked program pool)
    (issued : Issued client? Server.connected pool) {txn : StoreTxn G}
    {next : txn.op.Reply → Async G α} {calls : List (PortCall G)}
    (run : (program task).Runs calls (.call txn.op next))
    (carried : Carried onPool calls past)
    (waiting : pool.threads[index]? = some ⟨task, past, .call .connect fun id =>
      (txn.program.interpret (onClient id)).bind fun reply =>
        (next reply).interpret onPool⟩) (answer : Nat) :
    Locked program (pool.advance (instances program) index task past .connect
        (fun id => (txn.program.interpret (onClient id)).bind fun reply =>
          (next reply).interpret onPool) answer) ∧
      Serial program (nextEvent pool index task past .connect answer) := by
  have idle : (performOrRefuse pool.shared .connect answer).2.clients pool.shared.connected =
      .idle := if_pos rfl
  have old (id : Nat) (lt : id < pool.shared.connected) :
      (performOrRefuse pool.shared .connect answer).2.clients id = pool.shared.clients id :=
    if_neg (Nat.ne_of_lt lt)
  refine ⟨⟨locked.stages_advance issued waiting answer (.refl _)
    (fun id lt _ => ⟨old id lt, fun _ _ => rfl, fun _ _ => rfl⟩) ?_, ?_⟩,
    fun _ same => absurd same connect_ne_port, fun _ ends => absurd ends.1 nofun,
    fun _ _ => rfl⟩
  · exact .of_inner run carried rfl .nil txn.program_follows (idle ▸ txn.holds_idle) rfl
  · intro id lt other lt' ne
    rcases Nat.lt_succ_iff_lt_or_eq.1 lt with h | rfl <;>
      rcases Nat.lt_succ_iff_lt_or_eq.1 lt' with h' | rfl
    · refine (locked.apart id h other h' ne).of_clients (fun key there => ?_)
        (fun outpoint there => ?_) (old other h')
      · exact old id h ▸ there
      · exact old id h ▸ there
    · refine Server.Apart.symm ⟨fun key there => ?_, fun outpoint there => ?_⟩
      · exact absurd (idle ▸ there : key ∈ ClientState.idle.seenChanged) List.not_mem_nil
      · exact absurd (idle ▸ there : outpoint ∈ ClientState.idle.consumedChanged) List.not_mem_nil
    · refine ⟨fun key there => ?_, fun outpoint there => ?_⟩
      · exact absurd (idle ▸ there : key ∈ ClientState.idle.seenChanged) List.not_mem_nil
      · exact absurd (idle ▸ there : outpoint ∈ ClientState.idle.consumedChanged) List.not_mem_nil
    · exact absurd rfl ne

theorem Locked.apart_advance (locked : Locked program pool) {own : Nat} {command : Command G}
    (lt : own < pool.shared.connected) (answer : command.Reply)
    (waited : Waited (nextEvent pool index task past (.client own command) answer)) :
    ∀ id < (performOrRefuse pool.shared (.client own command) answer).2.connected,
      ∀ other < (performOrRefuse pool.shared (.client own command) answer).2.connected,
      id ≠ other → (performOrRefuse pool.shared (.client own command) answer).2.Apart id other := by
  obtain ⟨own', others⟩ := performOrRefuse_client pool.shared own command answer
  have mine (other : Nat) (lt' : other < pool.shared.connected) (ne : other ≠ own) :
      (performOrRefuse pool.shared (.client own command) answer).2.Apart own other := by
    by_cases stmt : ∃ stmt, command = .stmt stmt
    · obtain ⟨stmt, rfl⟩ := stmt
      exact waited other lt' ne
    · obtain ⟨seen, consumed⟩ := @changed_of_not_stmt _ pool.shared own command
        (fun s h => stmt ⟨s, h⟩) answer
      exact (locked.apart own lt other lt' (Ne.symm ne)).of_clients (own' ▸ seen)
        (own' ▸ consumed) (others other ne)
  intro id hid other hother ne
  by_cases h : id = own
  · subst h
    exact mine other hother (Ne.symm ne)
  · by_cases h' : other = own
    · subst h'
      exact (mine id hid ne).symm
    · refine (locked.apart id hid other hother ne).of_clients ?_ ?_ (others other h')
      · exact fun key there => others id h ▸ there
      · exact fun outpoint there => others id h ▸ there

/-! A command of an open transaction. -/

abbrev onward {txn : StoreTxn G} {command : Command G} (own : Nat)
    (inner : command.Reply → OnClient G txn.op.Reply) (next : txn.op.Reply → Async G α)
    (reply : command.Reply) : OverPool G α :=
  ((inner reply).interpret (onClient own)).bind fun reply => (next reply).interpret onPool

/-- A thread inside `txn` is about to send `command` on its client. -/
structure Sends (program : Task → Async G α) (server : Server G) (task : Task)
    (past : List (PgCall G)) {txn : StoreTxn G} (next : txn.op.Reply → Async G α) (own : Nat)
    {command : Command G} (inner : command.Reply → OnClient G txn.op.Reply) (at_ : Progress) :
    Prop where
  begun : ∃ calls before, ∃ commands : List (ClientCall G), Carried onPool calls before ∧
    (program task).Runs calls (.call txn.op next) ∧
    past = before ++ ⟨.connect, own⟩ :: commands.map (sent own) ∧
    txn.program.Runs commands (.call command inner)
  follows : (Program.call command inner).Follows txn.protocol at_ fun _ after => after = .outside
  holds : txn.Holds server.committed at_ (server.clients own)

section
variable {txn : StoreTxn G} {next : txn.op.Reply → Async G α} {own : Nat} {command : Command G}
  {inner : command.Reply → OnClient G txn.op.Reply} {at_ : Progress}

theorem Sends.held (sends : Sends program server task past next own inner at_) :
    Thread.Holds client?
      (⟨task, past, .call (.client own command) (onward own inner next)⟩ : PgThread G α Task)
      own := by
  obtain ⟨_, _, _, _, _, hpast, _⟩ := sends.begun
  exact ⟨⟨.connect, own⟩, by simp [hpast], rfl⟩

theorem Sends.transacting (sends : Sends program pool.shared task past next own inner at_)
    (answer : command.Reply) :
    InTransaction program (nextEvent pool index task past (.client own command) answer) own
      txn := by
  obtain ⟨calls, before, commands, carried, run, hpast, _⟩ := sends.begun
  exact ⟨calls, next, before, commands, carried, run, hpast⟩

theorem Sends.goesOn (sends : Sends program server task past next own inner at_)
    (answer : command.Reply) {after : Progress}
    (moves : txn.protocol.moves at_ command (server.respond own command answer).1 after)
    (holds : txn.Holds (server.respond own command answer).2.1 after
      (server.respond own command answer).2.2) :
    Stage program (performOrRefuse server (.client own command) answer).2
      ⟨task, past ++ [⟨.client own command,
          (performOrRefuse server (.client own command) answer).1⟩],
        onward own inner next (performOrRefuse server (.client own command) answer).1⟩ := by
  obtain ⟨calls, before, commands, carried, run, hpast, sending⟩ := sends.begun
  obtain ⟨mine, -⟩ := performOrRefuse_client server own command answer
  refine .of_inner run carried ?_ (sending.snoc _) (sends.follows.advance moves) (mine ▸ holds) rfl
  rw [List.map_append, hpast, List.append_assoc]
  rfl

theorem Locked.advance_unmoved (locked : Locked program pool)
    (issued : Issued client? Server.connected pool)
    (sends : Sends program pool.shared task past next own inner at_)
    (waiting : pool.threads[index]? =
      some ⟨task, past, .call (.client own command) (onward own inner next)⟩)
    (answer : command.Reply)
    (waited : Waited (nextEvent pool index task past (.client own command) answer))
    (same : (pool.shared.respond own command answer).2.1 = pool.shared.committed)
    {after : Progress}
    (moves : txn.protocol.moves at_ command (pool.shared.respond own command answer).1 after)
    (holds : txn.Holds (pool.shared.respond own command answer).2.1 after
      (pool.shared.respond own command answer).2.2) :
    Locked program (pool.advance (instances program) index task past (.client own command)
      (onward own inner next) answer) := by
  have lt := issued.past _ (List.mem_of_getElem? waiting) own sends.held
  obtain ⟨-, others⟩ := performOrRefuse_client pool.shared own command answer
  refine ⟨locked.stages_advance issued waiting answer ?_ (fun id _ free => ?_)
    (sends.goesOn answer moves holds), locked.apart_advance lt answer waited⟩
  · show pool.shared.committed.Since (pool.shared.respond own command answer).2.1
    rw [same]
    exact .refl _
  · refine ⟨others id fun h => free (h ▸ sends.held), fun key _ => ?_, fun outpoint _ => ?_⟩
    · exact congrArg (fun committed => committed.db.seen.find? key) same
    · exact congrArg (fun committed => committed.db.consumed.find? outpoint) same

theorem Locked.advance_commit (locked : Locked program pool)
    (issued : Issued client? Server.connected pool)
    (sends : Sends program pool.shared task past next own inner at_)
    (waiting : pool.threads[index]? =
      some ⟨task, past, .call (.client own command) (onward own inner next)⟩)
    (answer : command.Reply)
    (waited : Waited (nextEvent pool index task past (.client own command) answer))
    (commits : command = .commit) {opened : Open G}
    (active : pool.shared.clients own = .active opened)
    (idle : (pool.shared.respond own command answer).2.2 = .idle)
    (committed : (pool.shared.respond own command answer).2.1 =
      opened.commit pool.shared.committed) :
    Locked program (pool.advance (instances program) index task past (.client own command)
        (onward own inner next) answer) ∧
      txn.Makes pool.shared.world.db
        (performOrRefuse pool.shared (.client own command) answer).2.world.db := by
  subst commits
  have lt := issued.past _ (List.mem_of_getElem? waiting) own sends.held
  obtain ⟨-, others⟩ := performOrRefuse_client pool.shared own .commit answer
  obtain ⟨makes, confined⟩ := StoreTxn.Holds.commit (active ▸ sends.holds) sends.follows.1
  have db : (performOrRefuse pool.shared (.client own .commit) answer).2.world.db =
      (opened.commit pool.shared.committed).db := congrArg Committed.db committed
  refine ⟨⟨locked.stages_advance issued waiting answer ?_ (fun id old free => ?_)
    (sends.goesOn answer (txn.protocol_moves ▸ rfl) (idle ▸ txn.holds_idle)),
    locked.apart_advance lt answer waited⟩, db ▸ makes⟩
  · show pool.shared.committed.Since (pool.shared.respond own .commit answer).2.1
    rw [committed]
    exact confined.since
  · have ne : id ≠ own := fun h => free (h ▸ sends.held)
    obtain ⟨keys, outpoints⟩ := locked.apart id old own lt ne
    rw [active] at keys outpoints
    refine ⟨others id ne, fun key there => ?_, fun outpoint there => ?_⟩
    · rw [db]
      exact confined.seen key (keys key there)
    · rw [db]
      exact confined.consumed outpoint (outpoints outpoint there)

theorem Locked.advance_client (locked : Locked program pool)
    (issued : Issued client? Server.connected pool)
    (sends : Sends program pool.shared task past next own inner at_)
    (waiting : pool.threads[index]? =
      some ⟨task, past, .call (.client own command) (onward own inner next)⟩)
    (answer : command.Reply)
    (waited : Waited (nextEvent pool index task past (.client own command) answer)) :
    Locked program (pool.advance (instances program) index task past (.client own command)
        (onward own inner next) answer) ∧
      Serial program (nextEvent pool index task past (.client own command) answer) := by
  by_cases commits : command = .commit
  · subst commits
    obtain ⟨idle, ⟨same, failed⟩ | ⟨opened, active, committed⟩⟩ :=
      respond_commit pool.shared own answer
    · refine ⟨locked.advance_unmoved issued sends waiting answer waited same
          (txn.protocol_moves ▸ rfl) (idle ▸ txn.holds_idle),
        fun _ same => absurd same client_ne_port, ?_, fun _ _ => congrArg Committed.db same⟩
      rintro id ⟨hcall, opened, active⟩
      cases hcall
      obtain ⟨e, refused⟩ := failed opened active
      refine .inr ⟨⟨e, ?_⟩, congrArg Committed.db same⟩
      show (⟨.client own .commit, (pool.shared.respond own .commit answer).1⟩ : PgCall G) = _
      rw [refused]
    · obtain ⟨stays, makes⟩ :=
        locked.advance_commit issued sends waiting answer waited rfl active idle committed
      refine ⟨stays, fun _ same => absurd same client_ne_port, ?_, ?_⟩
      · rintro id ⟨hcall, -⟩
        cases hcall
        exact .inl ⟨txn, sends.transacting answer, makes⟩
      · exact fun _ unended => absurd ⟨rfl, opened, active⟩ (unended own)
  · obtain ⟨same, after, moves, holds⟩ := respond_moves sends.holds sends.follows.1 commits answer
    refine ⟨locked.advance_unmoved issued sends waiting answer waited same moves (same ▸ holds),
      fun _ same => absurd same client_ne_port, ?_, fun _ _ => congrArg Committed.db same⟩
    rintro id ⟨hcall, -⟩
    exact absurd (PgOp.client.inj hcall).2 commits

end

theorem Locked.advance (locked : Locked program pool)
    (issued : Issued client? Server.connected pool)
    (waiting : pool.threads[index]? = some ⟨task, past, .call op resume⟩) (answer : op.Reply)
    (waited : Waited (nextEvent pool index task past op answer)) :
    Locked program (pool.advance (instances program) index task past op resume answer) ∧
      Serial program (nextEvent pool index task past op answer) := by
  cases locked.stages _ (List.mem_of_getElem? waiting) with
  | @outside calls inner run carried rest =>
    cases inner with
    | pure value => cases rest
    | throw error => cases rest
    | call port next =>
      by_cases txn : ∃ txn : StoreTxn G, txn.op = port
      · obtain ⟨txn, rfl⟩ := txn
        have connects : (Program.call txn.op next).interpret onPool =
            .call .connect fun id => (txn.program.interpret (onClient id)).bind fun reply =>
              (next reply).interpret onPool := by
          cases txn <;> rfl
        have same := Eq.trans (show Program.call op resume = _ from rest) connects
        cases same
        exact locked.advance_connect issued run carried waiting answer
      · have once : (Program.call port next).interpret onPool =
            .call (.port port) fun reply => (next reply).interpret onPool := by
          cases port <;>
            first | rfl | exact absurd ⟨.honor _, rfl⟩ txn | exact absurd ⟨.sweep _, rfl⟩ txn
        have same := Eq.trans (show Program.call op resume = _ from rest) once
        cases same
        exact locked.advance_port issued (fun own h => txn ⟨own, h⟩) run carried waiting answer
          waited
  | @inside calls before txn next own commands inner at_ run carried hpast sending follows holds
      rest waits =>
    cases inner with
    | call command following =>
      cases rest
      exact locked.advance_client issued
        ⟨⟨calls, before, commands, carried, run, hpast, sending⟩, follows, holds⟩ waiting answer
        waited
    | _ => cases waits
  | threw ended => cases ended

end

end

/-- Honored SEEN rows stay honored and honored CONSUMED rows stay taken, unless they are deleted. -/
structure Keeps (before after : Db G) : Prop where
  seen : ∀ key row next, before.seen.find? key = some row → row.honoredAt ≠ none →
    after.seen.find? key = some next → next.honoredAt ≠ none
  consumed : ∀ outpoint row next, before.consumed.find? outpoint = some row →
    row.state = .honored → after.consumed.find? outpoint = some next → next.state = .honored

theorem keeps_gated {driver : Driver} {db gated after : Db G} {input : HonorTxnInput G}
    (passed : gateWrites driver db input = .ok gated) (hseen : after.seen = gated.seen)
    (hconsumed : after.consumed = gated.consumed) : Keeps db after := by
  obtain ⟨⟨own, hown, lockable, rows⟩, ⟨taken, honored, outpoints⟩, -⟩ := gateWrites_ok passed
  constructor
  · intro key row next found at_ found'
    rw [hseen, rows] at found'
    split at found'
    · cases found'
      exact Option.some_ne_none _
    · rw [found] at found'
      cases found'
      exact at_
  · intro outpoint row next found state found'
    rw [hconsumed, outpoints] at found'
    split at found'
    · cases found'
      exact honored.state
    · rw [found] at found'
      cases found'
      exact state

theorem keeps_sweeps {now : Int} {db after : Db G} (sweeps : Sweeps now db after) :
    Keeps db after := by
  constructor
  · intro key row next found at_ found'
    rcases sweeps.seen key with same | ⟨_, -, -, gone⟩
    · rw [same, found] at found'
      cases found'
      exact at_
    · rw [gone] at found'
      cases found'
  · intro outpoint row next found state found'
    rcases sweeps.consumed outpoint with same | ⟨_, -, -, gone⟩
    · rw [same, found] at found'
      cases found'
      exact state
    · rw [gone] at found'
      cases found'

theorem keeps_made {txn : StoreTxn G} {db after : Db G} (makes : txn.Makes db after) :
    Keeps db after := by
  cases txn with
  | honor input =>
    obtain ⟨gated, passed, seen, consumed⟩ := makes
    exact keeps_gated passed seen consumed
  | sweep now => exact keeps_sweeps makes

theorem keeps_same (db : Db G) : Keeps db db := by
  constructor
  · rintro key row next found at_ found'
    cases found.symm.trans found'
    exact at_
  · rintro outpoint row next found state found'
    cases found.symm.trans found'
    exact state

theorem keeps_change {db after : Db G} {op : Op G} (notTxn : ∀ txn : StoreTxn G, txn.op ≠ op)
    (change : Store.Change .async db op after) : Keeps db after := by
  cases change with
  | same => exact keeps_same db
  | accepted =>
    refine ⟨fun key row next found at_ found' => ?_, (keeps_same db).consumed⟩
    simp only [find?_upsertAccepted, found, Option.getD_some, ite_self, Option.some.injEq] at found'
    exact found' ▸ at_
  | observed =>
    refine ⟨fun key row next found at_ found' => ?_, (keeps_same db).consumed⟩
    simp only [find?_markObserved, found, Option.map_some, Option.some.injEq] at found'
    subst found'
    split <;> exact at_
  | reserved =>
    refine ⟨(keeps_same db).seen, fun outpoint row next found state found' => ?_⟩
    simp only [find?_reserveClaim, found, Option.getD_some, ite_self, Option.some.injEq] at found'
    exact found' ▸ state
  | honored => exact absurd rfl (notTxn (.honor _))
  | swept => exact absurd rfl (notTxn (.sweep _))

theorem Serial.keeps {program : Task → Async G α} {event : PgEvent G Task}
    (serial : Serial program event) : Keeps event.before.world.db event.after.world.db := by
  by_cases port : ∃ op, event.call.op = .port op
  · obtain ⟨op, hop⟩ := port
    obtain ⟨notTxn, change⟩ := serial.port op hop
    exact keeps_change notTxn change
  · by_cases ends : ∃ id, Ends event id
    · obtain ⟨id, ends⟩ := ends
      rcases serial.commit id ends with ⟨txn, -, makes⟩ | ⟨-, same⟩
      · exact keeps_made makes
      · exact same ▸ keeps_same _
    · rw [serial.quiet (fun op h => port ⟨op, h⟩) fun id h => ends ⟨id, h⟩]
      exact keeps_same _

end PostgresPool
end ExferHonor
