import ExferHonor.Adapters.SeenRow
import ExferHonor.Core.HonorRuns
import ExferHonor.Effects.Pool
import ExferHonor.Ports.Total

/-! One process of the engine over one database: its shared state, its calls in flight and how
they interleave at their awaits. -/
namespace ExferHonor
open Effects

variable {G : Type}

/-- What the calls in flight share: the database, the clock, the claims of the HTLC form and the
claim ids the engine reports. -/
structure World (G : Type) where
  db : Db G
  clock : Int
  claims : String → Option ClaimRecord
  claimTxIds : String → Option Hex

namespace World

def booted (db : Db G) (clock : Int) : World G := ⟨db, clock, fun _ => none, fun _ => none⟩

/-- One call. The chain and the keystore reply what the outside world answers. -/
def perform (model : TxnModel) (world : World G) : (op : Op G) → op.Reply → op.Reply × World G
  | .clockNow, _ => (.ok world.clock, world)
  | .claimsGet rk, _ => (world.claims rk, world)
  | .claimsSet rk record, _ =>
      ((), { world with claims := fun other => if other = rk then some record
        else world.claims other })
  | .claimTxIdsGet rowKey, _ => (world.claimTxIds rowKey, world)
  | .claimTxIdsSet rowKey claimTxId, _ =>
      ((), { world with claimTxIds := fun other => if other = rowKey then some claimTxId
        else world.claimTxIds other })
  | op, answer =>
      ((Store.perform model world.db op answer).1,
        { world with db := (Store.perform model world.db op answer).2 })

theorem perform_clock (model : TxnModel) (world : World G) (op : Op G) (answer : op.Reply) :
    (perform model world op answer).2.clock = world.clock := by
  unfold perform
  split <;> rfl

theorem perform_change (model : TxnModel) (world : World G) (op : Op G) (answer : op.Reply) :
    Store.Change model world.db op (perform model world op answer).2.db := by
  unfold perform
  split
  iterate 5 exact .same
  exact Store.perform_change _ _ _ _

theorem perform_seen (model : TxnModel) (world : World G) (op : Op G) (answer : op.Reply)
    (key : HonorKey) :
    Store.SeenChange key (world.db.seen.find? key) ⟨op, (perform model world op answer).1⟩
      ((perform model world op answer).2.db.seen.find? key) := by
  unfold perform
  split
  iterate 5 exact .same
  exact Store.perform_seen _ _ _ _ _

theorem perform_query (model : TxnModel) (world : World G) {op : Op G} (query : op.isQuery = true)
    (answer : op.Reply) : perform model world op answer = (answer, world) := by
  cases op <;> first | rfl | contradiction

theorem perform_getSeen {model : TxnModel} {world : World G} {key : HonorKey}
    {answer : (Op.getSeen (G := G) key).Reply} {row : SeenRow}
    (read : (perform model world (.getSeen key) answer).1 = .ok (some row)) :
    ∃ r, world.db.seen.find? key = some r ∧ row = Store.rowFromSql model r := by
  cases answer with
  | error e => cases read
  | ok _ =>
    obtain ⟨r, hr, hrow⟩ := Option.map_eq_some_iff.1 (Except.ok.inj read)
    exact ⟨r, hr, hrow.symm⟩

theorem perform_getSeen_key {model : TxnModel} {world : World G} {key : HonorKey}
    {answer : (Op.getSeen (G := G) key).Reply} {row : SeenRow}
    (read : (perform model world (.getSeen key) answer).1 = .ok (some row)) : row.key = key := by
  obtain ⟨r, found, rfl⟩ := perform_getSeen read
  have own : r.key = key := Relational.Table.find?_key found
  rw [Store.rowFromSql_eq]
  exact own

theorem perform_claims (model : TxnModel) (world : World G) (op : Op G) (answer : op.Reply)
    {rk : String} {record : ClaimRecord}
    (found : (perform model world op answer).2.claims rk = some record) :
    world.claims rk = some record ∨ op = .claimsSet rk record := by
  unfold perform at found
  split at found
  · exact .inl found
  · exact .inl found
  · dsimp only at found
    split at found
    next h =>
      cases found
      exact .inr (h ▸ rfl)
    next => exact .inl found
  · exact .inl found
  · exact .inl found
  · exact .inl found

theorem perform_claims_other (model : TxnModel) (world : World G) (op : Op G) (answer : op.Reply)
    {rk : String} (other : ∀ record, op ≠ .claimsSet rk record) :
    (perform model world op answer).2.claims rk = world.claims rk := by
  unfold perform
  split
  · rfl
  · rfl
  · apply if_neg
    rintro rfl
    exact other _ rfl
  · rfl
  · rfl
  · rfl

end World

inductive EngineTask (G : Type) where
  | register (quote : AcceptedQuote) (opts : RegisterOpts)
  | markObserved (key : HonorKey) (observedAt : Int)
  | canHonor (key : HonorKey)
  | honor (key : HonorKey) (deliver : Deliver G) (opts : RegisterOpts)
  | status (key : HonorKey)
  | sweep (now : Int)

inductive EngineResult where
  | registered (result : RegisterResult)
  | observed (result : ObserveResult)
  | verdict (result : HonorVerdict)
  | outcome (result : HonorOutcome)
  | status (result : Option HonorStatus)
  | swept (result : SweepResult)

def HonorEngine.program (engine : HonorEngine G) : EngineTask G → Async G EngineResult
  | .register quote opts => (engine.register quote opts).bind fun r => .pure (.registered r)
  | .markObserved key observedAt => (markObserved key observedAt).bind fun r => .pure (.observed r)
  | .canHonor key => (engine.canHonor key).bind fun r => .pure (.verdict r)
  | .honor key deliver opts => (engine.honor key deliver opts).bind fun r => .pure (.outcome r)
  | .status key => (status key).bind fun r => .pure (.status r)
  | .sweep now => (sweep now).bind fun r => .pure (.swept r)

/-- The calls of one process, in any interleaving. -/
def engineSystem (engine : HonorEngine G) (model : TxnModel)
    (mayStart : World G → EngineTask G → Prop) (mayShift : World G → World G → Prop) :
    System (World G) (Op G) Op.Reply Thrown EngineResult (EngineTask G) where
  program := engine.program
  perform := World.perform model
  mayStart := mayStart
  mayShift := mayShift

abbrev EngineEvent (G : Type) := Event (World G) (Op G) Op.Reply (EngineTask G)
abbrev EnginePool (G : Type) := Pool (World G) (Op G) Op.Reply Thrown EngineResult (EngineTask G)

/-- The library's own wiring: the recommended tuning and the two builtin forms. -/
def sampleEngine : HonorEngine G where
  deps := ⟨createFormRegistry (builtinForms true), sampleConfig, ⟨true, true⟩⟩
  margin := rfl

def runAlone {α : Type} (model : TxnModel) (ports : TotalPorts) (world : World G)
    (program : Async G α) : List (PortCall G) × Except Thrown α × World G :=
  program.run (fun world op => world.perform model op (ports.answer op)) world

end ExferHonor
