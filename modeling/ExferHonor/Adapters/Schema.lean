import ExferHonor.Adapters.Decimal
import ExferHonor.Ports.Store
import ExferHonor.Relational.Table

/-! The two gate tables of the standard and the statements both stores run on them. The
consumer's goods tables live in the same database, with contents of any type `G`. -/
namespace ExferHonor
open Relational

/-- A row of `quote_seen`. Amounts are stored as decimal text. -/
structure SeenRowSql where
  signerPubkey : PubKey
  quoteId : QuoteId
  payeePubkey : PubKey
  payerPubkey : Option PubKey
  exferAmount : String
  form : SettlementFormId
  acceptedAt : Int
  expiresAt : Int
  observedBeforeExpiry : Bool
  honoredAt : Option Int
  honoredTxId : Option Hex
  honoredOutputIndex : Option Int
  retainUntil : Int
  deriving DecidableEq, Repr

/-- `CHECK (state IN ('claim_pending','honored'))` -/
inductive ConsumedState where
  | claimPending
  | honored
  deriving DecidableEq, Repr

structure ConsumedRow where
  txId : Hex
  outputIndex : Int
  signerPubkey : PubKey
  quoteId : QuoteId
  state : ConsumedState
  honoredAt : Option Int
  claimTxId : Option Hex
  retainUntil : Int
  deriving DecidableEq, Repr

def SeenRowSql.key (row : SeenRowSql) : HonorKey := ⟨row.signerPubkey, row.quoteId⟩
def ConsumedRow.outpoint (row : ConsumedRow) : Outpoint := ⟨row.txId, row.outputIndex⟩
def ConsumedRow.key (row : ConsumedRow) : HonorKey := ⟨row.signerPubkey, row.quoteId⟩

abbrev SeenTable := Table HonorKey SeenRowSql SeenRowSql.key
abbrev ConsumedTable := Table Outpoint ConsumedRow ConsumedRow.outpoint

structure Db (G : Type) where
  seen : SeenTable
  consumed : ConsumedTable
  goods : G

def Db.empty {G : Type} (goods : G) : Db G := ⟨.empty, .empty, goods⟩

def maxSafeInteger : Int := 9007199254740991

def SeenRowSql.honoredOutpoint (row : SeenRowSql) : Option Outpoint :=
  match row.honoredTxId, row.honoredOutputIndex with
  | some txId, some outputIndex => some ⟨txId, outputIndex⟩
  | _, _ => none

namespace Statements

def acceptedRow (a : AcceptedQuote) (acceptedAt retainUntil : Int) : SeenRowSql where
  signerPubkey := a.signerPubkey
  quoteId := a.quoteId
  payeePubkey := a.payeePubkey
  payerPubkey := a.payerPubkey
  exferAmount := decimalText a.exferAmount
  form := a.form
  acceptedAt := acceptedAt
  expiresAt := a.expiresAt
  observedBeforeExpiry := false
  honoredAt := none
  honoredTxId := none
  honoredOutputIndex := none
  retainUntil := retainUntil

def upsertAccepted (seen : SeenTable) (a : AcceptedQuote) (acceptedAt retainUntil : Int) :
    SeenTable :=
  seen.insertIgnore (acceptedRow a acceptedAt retainUntil)

def getSeen (seen : SeenTable) (key : HonorKey) : Option SeenRowSql := seen.find? key

def listHonorable (seen : SeenTable) (signerPubkey : PubKey) (now : Int) : List SeenRowSql :=
  seen.rows.filter fun row =>
    row.signerPubkey = signerPubkey ∧ row.honoredAt = none ∧ now < row.retainUntil

def observedRow (row : SeenRowSql) : SeenRowSql := { row with observedBeforeExpiry := true }

@[simp] theorem observedRow_key (row : SeenRowSql) : (observedRow row).key = row.key := rfl

def markObserved (seen : SeenTable) (key : HonorKey) (now : Int) : SeenTable :=
  (seen.updateWhere (fun row => row.key = key ∧ now < row.expiresAt) observedRow
    observedRow_key).1

def Lockable (now : Int) (row : SeenRowSql) : Prop :=
  row.honoredAt = none ∧ now < row.retainUntil ∧
    (now < row.expiresAt ∨ row.observedBeforeExpiry = true)

instance (now : Int) (row : SeenRowSql) : Decidable (Lockable now row) :=
  inferInstanceAs (Decidable (_ ∧ _ ∧ _))

def lockedRow (now : Int) (outpoint : Outpoint) (row : SeenRowSql) : SeenRowSql :=
  { row with
    honoredAt := some now
    honoredTxId := some outpoint.txId
    honoredOutputIndex := some outpoint.outputIndex }

@[simp] theorem lockedRow_key (now : Int) (outpoint : Outpoint) (row : SeenRowSql) :
    (lockedRow now outpoint row).key = row.key := rfl

def lockSeen (seen : SeenTable) (key : HonorKey) (now : Int) (outpoint : Outpoint) :
    SeenTable × Nat :=
  seen.updateWhere (fun row => row.key = key ∧ Lockable now row) (lockedRow now outpoint)
    (lockedRow_key now outpoint)

def isOutpointConsumed (consumed : ConsumedTable) (outpoint : Outpoint) : Bool :=
  consumed.rows.any fun row => row.outpoint = outpoint ∧ row.state = .honored

def reservedRow (key : HonorKey) (outpoint : Outpoint) (claimTxId : Hex) : ConsumedRow where
  txId := outpoint.txId
  outputIndex := outpoint.outputIndex
  signerPubkey := key.signerPubkey
  quoteId := key.quoteId
  state := .claimPending
  honoredAt := none
  claimTxId := some claimTxId
  retainUntil := maxSafeInteger

def reserveClaim (consumed : ConsumedTable) (key : HonorKey) (outpoint : Outpoint)
    (claimTxId : Hex) : ConsumedTable :=
  consumed.insertIgnore (reservedRow key outpoint claimTxId)

def consumedRow (key : HonorKey) (outpoint : Outpoint) (now retainUntil : Int) :
    ConsumedRow where
  txId := outpoint.txId
  outputIndex := outpoint.outputIndex
  signerPubkey := key.signerPubkey
  quoteId := key.quoteId
  state := .honored
  honoredAt := some now
  claimTxId := none
  retainUntil := retainUntil

/-- `none` is the primary-key violation. -/
def insertConsumed (consumed : ConsumedTable) (key : HonorKey) (outpoint : Outpoint)
    (now retainUntil : Int) : Option ConsumedTable :=
  consumed.insert? (consumedRow key outpoint now retainUntil)

def promotedRow (now retainUntil : Int) (row : ConsumedRow) : ConsumedRow :=
  { row with state := .honored, honoredAt := some now, retainUntil := retainUntil }

@[simp] theorem promotedRow_outpoint (now retainUntil : Int) (row : ConsumedRow) :
    (promotedRow now retainUntil row).outpoint = row.outpoint := rfl

def promoteConsumed (consumed : ConsumedTable) (outpoint : Outpoint) (now retainUntil : Int) :
    ConsumedTable × Nat :=
  consumed.updateWhere (fun row => row.outpoint = outpoint ∧ row.state = .claimPending)
    (promotedRow now retainUntil) (promotedRow_outpoint now retainUntil)

def sweepSeen (seen : SeenTable) (now : Int) : SeenTable × Nat :=
  seen.deleteWhere fun row => row.retainUntil < now

def sweepOutpoints (consumed : ConsumedTable) (now : Int) : ConsumedTable × Nat :=
  consumed.deleteWhere fun row => row.retainUntil < now

/-! What a statement leaves at each key. -/

theorem find?_upsertAccepted (seen : SeenTable) (a : AcceptedQuote)
    (acceptedAt retainUntil : Int) (k : HonorKey) :
    (upsertAccepted seen a acceptedAt retainUntil).find? k =
      if a.key = k then some ((seen.find? k).getD (acceptedRow a acceptedAt retainUntil))
      else seen.find? k :=
  Table.find?_insertIgnore seen (acceptedRow a acceptedAt retainUntil) k

theorem find?_markObserved (seen : SeenTable) (key : HonorKey) (now : Int) (k : HonorKey) :
    (markObserved seen key now).find? k = (seen.find? k).map fun row =>
      if k = key ∧ now < row.expiresAt then observedRow row else row := by
  rw [markObserved, Table.find?_updateWhere]
  apply Option.map_congr
  intro row hrow
  simp [Table.find?_key hrow]

theorem find?_lockSeen (seen : SeenTable) (key : HonorKey) (now : Int) (outpoint : Outpoint)
    (k : HonorKey) :
    (lockSeen seen key now outpoint).1.find? k = (seen.find? k).map fun row =>
      if k = key ∧ Lockable now row then lockedRow now outpoint row else row := by
  rw [lockSeen, Table.find?_updateWhere]
  apply Option.map_congr
  intro row hrow
  simp [Table.find?_key hrow]

theorem lockSeen_changes (seen : SeenTable) (key : HonorKey) (now : Int) (outpoint : Outpoint) :
    (lockSeen seen key now outpoint).2 =
      if (seen.find? key).any fun row => decide (Lockable now row) then 1 else 0 := by
  rw [lockSeen, Table.updateWhere_changes _ _ _ _ key fun row h => by simp_all]
  cases hrow : seen.find? key with
  | none => rfl
  | some row => simp [show row.key = key from Table.find?_key hrow]

theorem exists_of_lockSeen {seen : SeenTable} {key : HonorKey} {now : Int} {outpoint : Outpoint}
    (changed : (lockSeen seen key now outpoint).2 ≠ 0) :
    (lockSeen seen key now outpoint).2 = 1 ∧
      ∃ row, seen.find? key = some row ∧ Lockable now row := by
  have changes := lockSeen_changes seen key now outpoint
  cases found : seen.find? key with
  | none => simp [changes, found] at changed
  | some row =>
    have lockable : Lockable now row := by simpa [changes, found] using changed
    exact ⟨by simp [changes, found, lockable], row, rfl, lockable⟩

theorem find?_reserveClaim (consumed : ConsumedTable) (key : HonorKey) (outpoint : Outpoint)
    (claimTxId : Hex) (o : Outpoint) :
    (reserveClaim consumed key outpoint claimTxId).find? o =
      if outpoint = o then some ((consumed.find? o).getD (reservedRow key outpoint claimTxId))
      else consumed.find? o :=
  Table.find?_insertIgnore consumed (reservedRow key outpoint claimTxId) o

theorem find?_insertConsumed {consumed after : ConsumedTable} {key : HonorKey}
    {outpoint : Outpoint} {now retainUntil : Int}
    (inserted : insertConsumed consumed key outpoint now retainUntil = some after)
    (o : Outpoint) :
    after.find? o = if outpoint = o then some (consumedRow key outpoint now retainUntil)
      else consumed.find? o :=
  Table.find?_of_insert? inserted o

theorem find?_promoteConsumed (consumed : ConsumedTable) (outpoint : Outpoint)
    (now retainUntil : Int) (o : Outpoint) :
    (promoteConsumed consumed outpoint now retainUntil).1.find? o =
      (consumed.find? o).map fun row =>
        if o = outpoint ∧ row.state = .claimPending then promotedRow now retainUntil row
        else row := by
  rw [promoteConsumed, Table.find?_updateWhere]
  apply Option.map_congr
  intro row hrow
  simp [Table.find?_key hrow]

theorem promoteConsumed_changes (consumed : ConsumedTable) (outpoint : Outpoint)
    (now retainUntil : Int) :
    (promoteConsumed consumed outpoint now retainUntil).2 =
      if (consumed.find? outpoint).any fun row => decide (row.state = .claimPending)
      then 1 else 0 := by
  rw [promoteConsumed, Table.updateWhere_changes _ _ _ _ outpoint fun row h => by simp_all]
  cases hrow : consumed.find? outpoint with
  | none => rfl
  | some row => simp [show row.outpoint = outpoint from Table.find?_key hrow]

theorem exists_of_promoteConsumed {consumed : ConsumedTable} {outpoint : Outpoint}
    {now retainUntil : Int} (changed : (promoteConsumed consumed outpoint now retainUntil).2 ≠ 0) :
    (promoteConsumed consumed outpoint now retainUntil).2 = 1 ∧
      ∃ pending, consumed.find? outpoint = some pending ∧ pending.state = .claimPending := by
  have changes := promoteConsumed_changes consumed outpoint now retainUntil
  cases found : consumed.find? outpoint with
  | none => simp [changes, found] at changed
  | some pending =>
    have state : pending.state = .claimPending := by simpa [changes, found] using changed
    exact ⟨by simp [changes, found, state], pending, rfl, state⟩

theorem find?_sweepSeen (seen : SeenTable) (now : Int) (k : HonorKey) :
    (sweepSeen seen now).1.find? k = (seen.find? k).filter fun row => !(row.retainUntil < now) :=
  Table.find?_deleteWhere seen _ k

theorem find?_sweepOutpoints (consumed : ConsumedTable) (now : Int) (o : Outpoint) :
    (sweepOutpoints consumed now).1.find? o =
      (consumed.find? o).filter fun row => !(row.retainUntil < now) :=
  Table.find?_deleteWhere consumed _ o

end Statements
end ExferHonor
