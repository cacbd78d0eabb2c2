import ExferHonor.Adapters.PostgresTxn
import ExferHonor.Core.Contenders

/-! Honors over one PostgresStore at the grain of the commands that their transactions send. Every
transaction has a client of its own; all other calls are single queries. -/
namespace ExferHonor
namespace PostgresPool
open Effects Program Statements PostgresServer

variable {G : Type}

def written (committed : Committed G) (db : Db G) : Committed G where
  db := db
  seenVersion key := committed.seenVersion key +
    if db.seen.find? key = committed.db.seen.find? key then 0 else 1
  consumedVersion outpoint := committed.consumedVersion outpoint +
    if db.consumed.find? outpoint = committed.db.consumed.find? outpoint then 0 else 1

theorem written_same (committed : Committed G) : written committed committed.db = committed := by
  simp [written]

/-- The world with its rows' versions, and the clients handed out so far. While `deaf`, what fails
has been carried out all the same: only the reply was lost. -/
structure Server (G : Type) where
  world : World G
  seenVersion : HonorKey → Nat
  consumedVersion : Outpoint → Nat
  clients : Nat → ClientState G
  connected : Nat
  deaf : Bool

namespace Server

def committed (server : Server G) : Committed G :=
  ⟨server.world.db, server.seenVersion, server.consumedVersion⟩

def set (server : Server G) (world : World G) (committed : Committed G) : Server G :=
  { server with
    world := { world with db := committed.db }
    seenVersion := committed.seenVersion
    consumedVersion := committed.consumedVersion }

def setClient (server : Server G) (id : Nat) (state : ClientState G) : Server G :=
  { server with clients := fun other => if other = id then state else server.clients other }

def blocked (server : Server G) (id : Nat) (stmt : Stmt G) : Bool :=
  (List.range server.connected).any fun other => other ≠ id && (server.clients other).blocks stmt

end Server

inductive PgOp (G : Type) where
  | port (op : Op G)
  | connect
  | client (id : Nat) (command : Command G)

abbrev PgOp.Reply : PgOp G → Type
  | .port op => op.Reply
  | .connect => Nat
  | .client _ command => command.Reply

abbrev PgCall (G : Type) := Call (PgOp G) PgOp.Reply
abbrev OverPool (G α : Type) := Program (PgOp G) PgOp.Reply Thrown α

def perform (server : Server G) : (op : PgOp G) → op.Reply → op.Reply × Server G
  | .port op, answer =>
      let result := World.perform .async server.world op answer
      (result.1, server.set result.2 (written server.committed result.2.db))
  | .connect, _ =>
      (server.connected,
        { server.setClient server.connected .idle with connected := server.connected + 1 })
  | .client id command, _ =>
      let result := execute server.committed (server.clients id) command
      (result.1, (server.set server.world result.2.1).setClient id result.2.2)

def onClient (id : Nat) (command : Command G) : OverPool G command.Reply :=
  .call (.client id command) .pure

/-- A transaction runs on a client of the pool, whatever else is called is one query. -/
def onPool : (op : Op G) → OverPool G op.Reply
  | .runHonorTxn input =>
      .call .connect fun id => (PostgresServer.runHonorTxn input).interpret (onClient id)
  | .sweep now => .call .connect fun id => (PostgresServer.sweep now).interpret (onClient id)
  | op => .call (.port op) .pure

structure HonorCall (G : Type) where
  deliver : Deliver G
  opts : RegisterOpts

abbrev RaceThread (G : Type) := Thread (PgOp G) PgOp.Reply Thrown HonorOutcome (HonorCall G)
abbrev RacePool (G : Type) :=
  Pool (Server G) (PgOp G) PgOp.Reply Thrown HonorOutcome (HonorCall G)

def Resolves (goods : G) (deliver : Deliver G) : Prop :=
  ∀ input : HonorTxnInput G, input.deliver = deliver →
    ∃ ended, Store.deliverEnd .async goods input = .ok ended ∧ ∀ e, ended ≠ .rejects e

def Clean (goods : G) (deliver : Deliver G) : Prop :=
  ∀ input : HonorTxnInput G, input.deliver = deliver →
    ∀ call ∈ Store.deliverCalls .async goods input, Store.failed call = false

/-- Honors of one quote inside its window; nothing but the clock moves besides. -/
def race (engine : HonorEngine G) (key : HonorKey) (row : SeenRowSql) (goods : G) :
    System (Server G) (PgOp G) PgOp.Reply Thrown HonorOutcome (HonorCall G) where
  program call := (engine.honor key call.deliver call.opts).interpret onPool
  perform := perform
  mayStart _ call :=
    (∀ now, call.opts.now = some now → Lockable now row) ∧ Resolves goods call.deliver
  mayShift before after := Lockable after.world.clock row ∧
    after = { before with world := { before.world with clock := after.world.clock } }

def portCall? : PgCall G → Option (PortCall G)
  | ⟨.port op, reply⟩ => some ⟨op, reply⟩
  | _ => none

def ports (calls : List (PgCall G)) : List (PortCall G) := calls.filterMap portCall?

def onPort (call : PortCall G) : PgCall G := ⟨.port call.op, call.reply⟩
def sent (id : Nat) (call : ClientCall G) : PgCall G := ⟨.client id call.op, call.reply⟩

@[simp] theorem ports_append (calls more : List (PgCall G)) :
    ports (calls ++ more) = ports calls ++ ports more :=
  List.filterMap_append

@[simp] theorem ports_onPort (calls : List (PortCall G)) : ports (calls.map onPort) = calls := by
  induction calls with
  | nil => rfl
  | cons call calls ih => exact congrArg (call :: ·) ih

theorem ports_inside (calls : List (PortCall G)) (id : Nat) (commands : List (ClientCall G)) :
    ports (calls.map onPort ++ ⟨.connect, id⟩ :: commands.map (sent id)) = calls := by
  have none : ports (commands.map (sent id)) = [] := by
    induction commands with
    | nil => rfl
    | cons command commands ih => exact ih
  rw [ports_append, ports_onPort]
  show calls ++ ports (commands.map (sent id)) = calls
  rw [none, List.append_nil]

def arrives (call : PgCall G) : Bool :=
  match call.op with
  | .client _ .arrive => true
  | _ => false

def inFlight (thread : RaceThread G) : Bool := thread.past.any arrives && thread.rest.waits

def wins (thread : RaceThread G) : Bool :=
  match thread.rest with
  | .pure (.honored _) => true
  | _ => false

/-! What one call does to the server. -/

section
variable {server : Server G}

theorem perform_clients {op : PgOp G} (answer : op.Reply) {id : Nat} (old : id < server.connected)
    (other : ∀ command, op ≠ .client id command) :
    (perform server op answer).2.clients id = server.clients id := by
  cases op with
  | port op => rfl
  | connect => exact if_neg (Nat.ne_of_lt old)
  | client own command =>
    apply if_neg
    rintro rfl
    exact other command rfl

theorem perform_clock (server : Server G) (op : PgOp G) (answer : op.Reply) :
    (perform server op answer).2.world.clock = server.world.clock := by
  cases op with
  | port op => exact World.perform_clock .async server.world op answer
  | connect => rfl
  | client id command => rfl

theorem perform_port (server : Server G) {op : Op G} {answer : op.Reply} {reply : op.Reply}
    (same : World.perform .async server.world op answer = (reply, server.world)) :
    perform server (.port op) answer = (reply, server) := by
  simp only [perform, same]
  refine Prod.ext rfl ?_
  show server.set server.world (written server.committed server.committed.db) = server
  rw [written_same]
  rfl

end

/-! Where a call is in flight. -/

section
variable {thread : RaceThread G}

theorem wins_of_waits (waits : thread.rest.waits = true) : wins thread = false := by
  unfold wins
  split
  next hrest =>
    rw [hrest] at waits
    cases waits
  next => rfl

theorem arrived_iff {calls : List (PortCall G)} {id : Nat} {commands : List (ClientCall G)} :
    (calls.map onPort ++ ⟨.connect, id⟩ :: commands.map (sent id)).any arrives = true ↔
      ⟨.arrive, ()⟩ ∈ commands := by
  have before : (calls.map onPort).any arrives = false := by
    simp [onPort, arrives]
  rw [List.any_append, before, Bool.false_or, List.any_cons, List.any_map]
  show commands.any (arrives ∘ sent id) = true ↔ _
  rw [List.any_eq_true]
  constructor
  · rintro ⟨⟨command, reply⟩, called, arrived⟩
    cases command <;> first | exact called | cases arrived
  · exact fun called => ⟨_, called, rfl⟩

theorem waits_outside {program : Async G HonorOutcome} (waits : program.waits = true) :
    (program.interpret onPool).waits = true := by
  cases program with
  | call op resume => cases op <;> rfl
  | _ => cases waits

theorem waits_inside {inner : OnClient G TxnReply} (id : Nat)
    (next : TxnReply → OverPool G HonorOutcome) (waits : inner.waits = true) :
    ((inner.interpret (onClient id)).bind next).waits = true := by
  cases inner <;> first | rfl | cases waits

theorem inFlight_inside {calls : List (PortCall G)} {id : Nat} {commands : List (ClientCall G)}
    {inner : OnClient G TxnReply} {next : TxnReply → OverPool G HonorOutcome}
    (past : thread.past = calls.map onPort ++ ⟨.connect, id⟩ :: commands.map (sent id))
    (rest : thread.rest = (inner.interpret (onClient id)).bind next) (waits : inner.waits = true)
    (arrived : ⟨.arrive, ()⟩ ∈ commands) : inFlight thread = true := by
  rw [inFlight, past, arrived_iff.2 arrived, rest, waits_inside id next waits]
  rfl

end

/-! The clients of different calls are different. -/

def Holds (id : Nat) (thread : RaceThread G) : Prop := ⟨.connect, id⟩ ∈ thread.past

structure Owned (pool : RacePool G) : Prop where
  handedOut : ∀ thread ∈ pool.threads, ∀ id, Holds id thread → id < pool.shared.connected
  distinct : ∀ (i j : Nat) (thread other : RaceThread G) (id : Nat),
    pool.threads[i]? = some thread → pool.threads[j]? = some other → Holds id thread →
    Holds id other → i = j

section
variable {engine : HonorEngine G} {key : HonorKey} {row : SeenRowSql} {goods : G}
  {initial : Server G} {pool : RacePool G}

theorem perform_connected (server : Server G) (op : PgOp G) (answer : op.Reply) :
    server.connected ≤ (perform server op answer).2.connected := by
  cases op with
  | port op => exact Nat.le_refl _
  | connect => exact Nat.le_succ _
  | client id command => exact Nat.le_refl _

theorem holds_advanced {server : Server G} {op : PgOp G} {answer : op.Reply}
    {past : List (PgCall G)} {id : Nat}
    (holds : ⟨.connect, id⟩ ∈ past ++ [⟨op, (perform server op answer).1⟩]) :
    (⟨.connect, id⟩ : PgCall G) ∈ past ∨
      id = server.connected ∧ server.connected < (perform server op answer).2.connected := by
  rcases List.mem_append.1 holds with h | h
  · exact .inl h
  · have hcall := List.mem_singleton.1 h
    cases op with
    | port op => cases hcall
    | client id command => cases hcall
    | connect =>
      cases hcall
      exact .inr ⟨rfl, Nat.lt_succ_self _⟩

theorem owned (reached : Reachable (race engine key row goods) initial pool) : Owned pool := by
  apply reached.invariant Owned ⟨by simp [Pool.fresh], by simp [Pool.fresh]⟩
  rintro before after - ⟨handedOut, distinct⟩ step
  cases step with
  | start task may =>
    have old {i : Nat} {thread : RaceThread G} {id : Nat}
        (present : (before.start (race engine key row goods) task).threads[i]? = some thread)
        (holds : Holds id thread) : before.threads[i]? = some thread := by
      rw [Pool.start, List.getElem?_append] at present
      split at present
      · exact present
      · rw [List.mem_singleton.1 (List.mem_of_getElem? present)] at holds
        cases holds
    refine ⟨fun thread present id holds => ?_, fun i j thread other id hi hj first second => ?_⟩
    · obtain ⟨i, hi⟩ := List.getElem?_of_mem present
      exact handedOut thread (List.mem_of_getElem? (old hi holds)) id holds
    · exact distinct i j thread other id (old hi first) (old hj second) first second
  | shift next may =>
    obtain ⟨-, hnext⟩ := may
    refine ⟨?_, distinct⟩
    rw [Pool.shift, hnext]
    exact handedOut
  | @advance index task past op resume answer waiting =>
    have own := handedOut _ (List.mem_of_getElem? waiting)
    have more := perform_connected before.shared op answer
    refine ⟨fun thread present id holds => ?_, fun i j thread other id hi hj first second => ?_⟩
    · rcases List.mem_or_eq_of_mem_set present with h | rfl
      · exact Nat.lt_of_lt_of_le (handedOut thread h id holds) more
      · rcases holds_advanced holds with h | ⟨rfl, h⟩
        · exact Nat.lt_of_lt_of_le (own id h) more
        · exact h
    · rw [Pool.getElem?_advance _ waiting] at hi hj
      split at hi <;> split at hj
      next hi' hj' => exact hi'.symm.trans hj'
      next hi' _ =>
        cases hi
        rcases holds_advanced first with h | ⟨rfl, -⟩
        · exact hi' ▸ distinct index j _ other id waiting hj h second
        · exact absurd (handedOut other (List.mem_of_getElem? hj) _ second) (Nat.lt_irrefl _)
      next _ hj' =>
        cases hj
        rcases holds_advanced second with h | ⟨rfl, -⟩
        · exact hj' ▸ distinct i index thread _ id hi waiting first h
        · exact absurd (handedOut thread (List.mem_of_getElem? hi) _ first) (Nat.lt_irrefl _)
      next => exact distinct i j thread other id hi hj first second

end

end PostgresPool
end ExferHonor
