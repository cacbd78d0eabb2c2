import ExferHonor.Adapters.GateTables
import ExferHonor.Effects.Refinement
import ExferHonor.Service.Wiring

/-! The engine over the network is the engine over its ports: what the adapters and the transport do
between two calls of the engine, and however the other calls of the process are interleaved with
it, adds no behaviour. -/
namespace ExferHonor
open Effects

variable {G : Type}

def WireOp.isWire : WireOp G → Bool
  | .port _ => false
  | _ => true

/-- Something on the network comes first, nothing but the network is called, and nothing is
thrown. -/
structure Asks {α : Type} (program : WireAsync G α) : Prop where
  uses : Uses (·.isWire) program
  waits : program.waits = true
  total : ∀ calls e, ¬ program.Returns calls (.error e)

inductive Carrier (op : Op G) : WireAsync G op.Reply → Prop
  | direct : Carrier op (.call (.port op) .pure)
  | query {program} (query : op.isQuery = true) (asks : Asks program) : Carrier op program

namespace HonorServiceConfig
variable (config : HonorServiceConfig)

theorem rpc_uses (method : RpcMethod) : Uses (·.isWire) (config.rpc (G := G) method) := by
  unfold rpc
  split
  · exact ⟨rfl, fun reply => Uses.ofExcept reply⟩
  · exact ⟨rfl, fun id => Uses.within _ fun _ => rfl⟩

theorem rpc_waits (method : RpcMethod) : (config.rpc (G := G) method).waits = true := by
  unfold rpc
  split <;> rfl

theorem chainCall_uses (txProperty : String) (op : RpcOp) :
    Uses (·.isWire) (config.chainCall (G := G) txProperty op) :=
  (config.rpc_uses _).attempt.bind fun _ => trivial

theorem signCall_uses (op : SignOp) : Uses (·.isWire) (config.signCall (G := G) op) :=
  (config.rpc_uses _).attempt.bind fun _ => trivial

theorem chainCall_waits (txProperty : String) (op : RpcOp) :
    (config.chainCall (G := G) txProperty op).waits = true :=
  Program.waits_bind _ (Program.waits_attempt (config.rpc_waits _))

theorem signCall_waits (op : SignOp) : (config.signCall (G := G) op).waits = true :=
  Program.waits_bind _ (Program.waits_attempt (config.rpc_waits _))

variable {config}

theorem asks_chain {α : Type} (txProperty : String) {program : RpcAsync α}
    (waits : program.waits = true) :
    Asks (program.interpret (config.chainCall (G := G) txProperty)).attempt where
  uses := (Uses.interpret (config.chainCall_uses txProperty) program).attempt
  waits := Program.waits_attempt (Program.waits_interpret waits (config.chainCall_waits txProperty))
  total _ _ := Program.attempt_not_throws

theorem asks_sign {α : Type} {program : Program SignOp SignOp.Reply Thrown α}
    (waits : program.waits = true) :
    Asks (program.interpret (config.signCall (G := G))).attempt where
  uses := (Uses.interpret config.signCall_uses program).attempt
  waits := Program.waits_attempt (Program.waits_interpret waits config.signCall_waits)
  total _ _ := Program.attempt_not_throws

theorem carrier_onChain {op : Op G} (query : op.isQuery = true) {program : WireAsync G op.Reply}
    (asks : Asks program) : Carrier op (config.onChain op program) := by
  unfold onChain
  split
  · exact .direct
  · exact .query query asks

theorem carrier_onKeys {op : Op G} (query : op.isQuery = true) {program : WireAsync G op.Reply}
    (asks : Asks program) : Carrier op (config.onKeys op program) := by
  unfold onKeys
  split
  · exact .direct
  · exact .query query asks

theorem carry_carrier (toLowerCase : String → String) (op : Op G) :
    Carrier op (config.carry toLowerCase op) := by
  cases op with
  | tipHeight => exact carrier_onChain rfl (asks_chain "tx_hex" rfl)
  | getOutputDatum outpoint => exact carrier_onChain rfl (asks_chain "tx_hex" rfl)
  | findSettlementsByQuoteId quoteId => exact carrier_onChain rfl (asks_chain "tx_hex" rfl)
  | getTransaction txId => exact carrier_onChain rfl (asks_chain "block_height" rfl)
  | getTxInputs txId => exact carrier_onChain rfl (asks_chain "tx_hex" rfl)
  | getOutputScript outpoint => exact carrier_onChain rfl (asks_chain "tx_hex" rfl)
  | getHtlc lock => exact carrier_onChain rfl (asks_chain "tx_hex" rfl)
  | controlsPayee payeePubkey => exact carrier_onKeys rfl (asks_sign rfl)
  | _ => exact .direct

end HonorServiceConfig

theorem WireWorld.perform_wire (model : TxnModel) (shared : WireWorld G) {op : WireOp G}
    (wire : op.isWire = true) (answer : op.Reply) :
    (shared.perform model op answer).2.world = shared.world := by
  cases op <;> first | rfl | cases wire

theorem Carrier.waits {op : Op G} {program : WireAsync G op.Reply} (carrier : Carrier op program) :
    program.waits = true := by
  cases carrier with
  | direct => rfl
  | query _ asks => exact asks.waits

theorem Carrier.not_throws {op : Op G} {program : WireAsync G op.Reply}
    (carrier : Carrier op program) {calls : List (WireCall G)} {e : Thrown} :
    ¬ program.Returns calls (.error e) := by
  cases carrier with
  | direct =>
    intro returns
    obtain ⟨_, _, -, tail⟩ := (Program.returns_call_iff _ _).1 returns
    cases ((Program.returns_pure_iff _).1 tail).2
  | query _ asks => exact asks.total _ _

/-- What one step of a call does: nothing that shows, or with the last one all of it. -/
theorem Carrier.step {op : Op G} {program : WireAsync G op.Reply} (carrier : Carrier op program)
    {own : List (WireCall G)} {called : WireOp G} {resume : called.Reply → WireAsync G op.Reply}
    (run : program.Runs own (.call called resume)) (model : TxnModel) (shared : WireWorld G)
    (answer : called.Reply) :
    ((resume (shared.perform model called answer).1).waits = true ∧
      (shared.perform model called answer).2.world = shared.world) ∨
    ∃ reply answer', resume (shared.perform model called answer).1 = .pure reply ∧
      shared.world.perform model op answer' =
        (reply, (shared.perform model called answer).2.world) := by
  cases carrier with
  | direct =>
    rcases (Program.runs_call_iff _ _).1 run with ⟨-, same⟩ | ⟨reply, later, -, tail⟩
    · cases same
      exact .inr ⟨_, answer, rfl, rfl⟩
    · cases ((Program.runs_pure_iff _).1 tail).2
  | query query asks =>
    have still := shared.perform_wire model (asks.uses.of_call run) answer
    have after := run.snoc (shared.perform model called answer).1
    cases ended : resume (shared.perform model called answer).1 with
    | pure reply => exact .inr ⟨reply, reply, rfl, by rw [World.perform_query _ _ query, still]⟩
    | throw e =>
      rw [ended] at after
      exact absurd after (asks.total _ e)
    | call next resume => exact .inl ⟨rfl, still⟩

theorem Carrier.wire_of_waits {op : Op G} {program : WireAsync G op.Reply}
    (carrier : Carrier op program) {own : List (WireCall G)} {called : WireOp G}
    {resume : called.Reply → WireAsync G op.Reply} (run : program.Runs own (.call called resume))
    {reply : called.Reply} (waits : (resume reply).waits = true) : called.isWire = true := by
  cases carrier with
  | direct =>
    rcases (Program.runs_call_iff _ _).1 run with ⟨-, same⟩ | ⟨_, later, -, tail⟩
    · cases same
      cases waits
    · cases ((Program.runs_pure_iff _).1 tail).2
  | query query asks => exact asks.uses.of_call run

theorem Carrier.last {op : Op G} {program : WireAsync G op.Reply} (carrier : Carrier op program)
    {own : List (WireCall G)} {call : WireCall G} {reply : op.Reply}
    (returns : program.Returns (own ++ [call]) (.ok reply)) :
    call = ⟨.port op, reply⟩ ∨ op.isQuery = true ∧ call.op.isWire = true := by
  cases carrier with
  | direct =>
    obtain ⟨answer, later, split, tail⟩ := (Program.returns_call_iff _ _).1 returns
    obtain ⟨rfl, same⟩ := (Program.returns_pure_iff _).1 tail
    cases same
    have single : own ++ [call] = [] ++ [⟨.port op, reply⟩] := split
    exact .inl (List.head_eq_of_cons_eq (List.append_inj' single rfl).2)
  | query query asks =>
    exact .inr ⟨query, asks.uses.runs returns |>.1 call (by simp)⟩

/-! What a call of the store, the clock, the maps of the process or the submitter has done. -/

abbrev Told (G : Type) := Nat × EngineTask G × World G × PortCall G × World G

def EngineEvent.told (event : EngineEvent G) : Option (Told G) :=
  if event.call.op.isQuery then none
  else some (event.thread, event.task, event.before, event.call, event.after)

abbrev WireEvent (G : Type) := Event (WireWorld G) (WireOp G) WireOp.Reply (EngineTask G)

/-- A query that the consumer's own port answers is told no more than one on the network. -/
def WireEvent.told (event : WireEvent G) : Option (Told G) :=
  match event.call with
  | ⟨.port op, reply⟩ =>
      if op.isQuery then none
      else some (event.thread, event.task, event.before.world, ⟨op, reply⟩, event.after.world)
  | _ => none

theorem WireEvent.told_wire {event : WireEvent G} (wire : event.call.op.isWire = true) :
    WireEvent.told event = none := by
  obtain ⟨_, _, _, _, ⟨op, reply⟩, _⟩ := event
  cases op <;> first | rfl | cases wire

namespace HonorService
variable (service : HonorService G) (toLowerCase : String → String) (model : TxnModel)
  (mayStart : World G → EngineTask G → Prop) (mayShift : World G → World G → Prop)

/-- A query takes effect when its last answer has come, and everything else at once. -/
def refinement : Refinement (engineSystem service.engine model mayStart mayShift)
    (service.wireSystem toLowerCase model mayStart mayShift) where
  handler := service.config.carry toLowerCase
  view := WireWorld.world
  program _ := rfl
  starts := id
  shifts := id
  waits op := (HonorServiceConfig.carry_carrier toLowerCase op).waits
  step run shared answer :=
    (HonorServiceConfig.carry_carrier toLowerCase _).step run model shared answer

variable {service toLowerCase model mayStart mayShift}

theorem told_inside {event : WireEvent G}
    (inside : (service.refinement toLowerCase model mayStart mayShift).Inside event) :
    WireEvent.told event = none := by
  obtain ⟨op, own, resume, run, waits⟩ := inside.waits
  have carrier := service.config.carry_carrier toLowerCase op
  exact WireEvent.told_wire (carrier.wire_of_waits run waits)

theorem told_alike {event : WireEvent G} {seen : EngineEvent G}
    (shows : (service.refinement toLowerCase model mayStart mayShift).ShowsEvent event seen) :
    WireEvent.told event = EngineEvent.told seen := by
  obtain ⟨past, own, -, -, returns⟩ := shows.carried
  have carrier := service.config.carry_carrier toLowerCase seen.call.op
  rcases carrier.last returns with same | ⟨query, wire⟩
  · rw [WireEvent.told, EngineEvent.told, same, shows.thread, shows.task, shows.before, shows.after]
    rfl
  · rw [WireEvent.told_wire wire, EngineEvent.told, if_pos query]

/-- Whatever results of the documented shapes the network answers, whatever fails and however long
it takes, there is a run of the engine over its ports with the same threads at the same ends, the
same world, and the same history of everything that acts. -/
theorem wire_refines_ports {initial : WireWorld G}
    {pool : Pool (WireWorld G) (WireOp G) WireOp.Reply Thrown EngineResult (EngineTask G)}
    (reached : Reachable (service.wireSystem toLowerCase model mayStart mayShift) initial pool) :
    ∃ seen, Reachable (engineSystem service.engine model mayStart mayShift) initial.world seen ∧
      seen.shared = pool.shared.world ∧
      List.Forall₂ (fun thread mine => mine.task = thread.task ∧
        ∀ result, thread.rest = .ofExcept result ↔ mine.rest = .ofExcept result)
        pool.threads seen.threads ∧
      pool.log.filterMap WireEvent.told = seen.log.filterMap EngineEvent.told := by
  obtain ⟨seen, reachable, shown⟩ :=
    (service.refinement toLowerCase model mayStart mayShift).exists_shown reached
  refine ⟨seen, reachable, shown.shared, shown.threads.imp fun thread mine shows => ?_,
    shown.log.filterMap_eq _ _ (fun _ => told_inside) fun _ _ => told_alike⟩
  exact ⟨shows.same_task, shows.ends_iff⟩

/-! A node that is busy for as long as anybody asks. -/

def sampleServiceConfig : HonorServiceConfig where
  walletd := .url "http://walletd"
  indexer := .url "http://indexer"
  node := .url "http://node"
  token := some "t"
  claimMargin := none
  confirmationDepth := none
  maxReorgDepth := none
  maxRecheckWindow := none
  payerBinding := none
  requirePayerFunded := none
  addressDeriver := some fun _ => "ee"
  chainSource := none
  keyCustody := none
  claimSubmit := false

def sampleHonorService : HonorService G :=
  ⟨sampleServiceConfig, ⟨sampleServiceConfig.deps, rfl⟩, rfl⟩

abbrev WireMove := Move (WireWorld Unit) (WireOp Unit) WireOp.Reply (EngineTask Unit)

def sampleWire : System (WireWorld Unit) (WireOp Unit) WireOp.Reply Thrown EngineResult
    (EngineTask Unit) :=
  sampleHonorService.wireSystem asciiLower .sync (fun _ _ => True) fun _ _ => True

def busy : (op : WireOp Unit) → op.Reply
  | .port op => paidPorts.answer op
  | .nextId _ => 0
  | .http _ _ (.fetch _) => .responds 503 .null
  | .http _ _ (.sleep _) => ()
  | .transport _ _ => .ok none

/-- A status is told while an honor is between two of its attempts. -/
def busyMoves : List WireMove :=
  .start (.register sampleQuote {}) :: (.replicate 3 (.advance 0 busy) ++
    .start (.honor sampleQuote.key Store.sampleTxn.deliver {}) ::
      (.replicate 5 (.advance 1 busy) ++ .start (.status sampleQuote.key) ::
        (.replicate 2 (.advance 2 busy) ++ .replicate 7 (.advance 1 busy))))

def busyPool :
    Pool (WireWorld Unit) (WireOp Unit) WireOp.Reply Thrown EngineResult (EngineTask Unit) :=
  (Pool.fresh ⟨.booted (.empty ()) 20, fun _ => 1⟩).play sampleWire busyMoves

theorem wire_refines_ports_busy :
    busyPool.log.map (·.thread) = [0, 0, 0, 1, 1, 1, 1, 1, 2, 2, 1, 1, 1, 1, 1, 1, 1] ∧
    ∃ seen, Reachable (engineSystem sampleHonorService.engine .sync (fun _ _ => True)
        fun _ _ => True) (.booted (.empty ()) 20) seen ∧
      seen.shared = busyPool.shared.world ∧
      busyPool.log.filterMap WireEvent.told = seen.log.filterMap EngineEvent.told := by
  have allowed : (Pool.fresh ⟨.booted (.empty ()) 20, fun _ => 1⟩).Allowed sampleWire busyMoves :=
    ⟨trivial, Pool.allowed_advances 3 ⟨trivial, Pool.allowed_advances 5 ⟨trivial,
      Pool.allowed_advances 2 (Pool.allowed_advances 7 trivial)⟩⟩⟩
  obtain ⟨seen, reachable, shared, -, log⟩ := wire_refines_ports (Pool.play_reachable allowed)
  exact ⟨by decide +kernel, seen, reachable, shared, log⟩

end HonorService
end ExferHonor
