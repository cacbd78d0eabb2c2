import ExferHonor.Core.FakeStore
import ExferHonor.Spec.Datum

/-! The stores are interchangeable: operation by operation the in-memory store answers as the SQL
stores do, and it goes on holding the same rows and goods. -/
namespace ExferHonor
open Effects Relational

/-! Keys of the two maps. A hex string holds no colon, and neither does a decimal number. -/

theorem append_colon_inj {xs ys xs' ys' : List Char} (free : ':' ∉ xs) (free' : ':' ∉ xs')
    (same : xs ++ ':' :: ys = xs' ++ ':' :: ys') : xs = xs' ∧ ys = ys' := by
  induction xs generalizing xs' with
  | nil =>
    cases xs' with
    | nil => exact ⟨rfl, List.tail_eq_of_cons_eq same⟩
    | cons c xs' =>
      have hc := List.head_eq_of_cons_eq same
      exact absurd (hc ▸ List.mem_cons_self) free'
  | cons c xs ih =>
    cases xs' with
    | nil =>
      have hc := List.head_eq_of_cons_eq same
      exact absurd (hc ▸ List.mem_cons_self) free
    | cons c' xs' =>
      obtain ⟨rfl, rest⟩ := List.cons.inj same
      obtain ⟨rfl, rfl⟩ := ih (fun h => free (.tail _ h)) (fun h => free' (.tail _ h)) rest
      exact ⟨rfl, rfl⟩

theorem colon_not_mem_hex {s : String} (hex : isBareHex s = true) : ':' ∉ s.toList := by
  intro h
  have digit := List.all_eq_true.1 hex _ h
  contradiction

theorem colon_not_mem_decimal (n : Int) : ':' ∉ (decimalText n).toList := by
  have digits (m : Nat) : ':' ∉ Nat.toDigits 10 m := by
    intro h
    have digit := Nat.isDigit_of_mem_toDigits (by decide) (by decide) h
    contradiction
  cases n with
  | ofNat m => simpa [decimalText] using digits m
  | negSucc m => simpa [decimalText] using digits (m + 1)

theorem rk_inj (key key' : HonorKey) (hex : isBareHex key.signerPubkey = true)
    (hex' : isBareHex key'.signerPubkey = true)
    (same : FakeSyncStore.rk key = FakeSyncStore.rk key') : key = key' := by
  have split := congrArg String.toList same
  simp only [FakeSyncStore.rk, String.toList_append, List.append_assoc] at split
  obtain ⟨hsigner, hquote⟩ :=
    append_colon_inj (colon_not_mem_hex hex) (colon_not_mem_hex hex') split
  cases key
  cases key'
  simp_all [String.toList_inj]

/-- Whatever the transaction id: the last colon is the one before the index. -/
theorem outpointKey_inj (o o' : Outpoint) (_ : True) (_ : True)
    (same : outpointKey o = outpointKey o') : o = o' := by
  have split : (decimalText o.outputIndex).toList.reverse ++ ':' :: o.txId.toList.reverse =
      (decimalText o'.outputIndex).toList.reverse ++ ':' :: o'.txId.toList.reverse := by
    simpa [outpointKey] using congrArg (List.reverse ∘ String.toList) same
  obtain ⟨hindex, htx⟩ := append_colon_inj (by simpa using colon_not_mem_decimal _)
    (by simpa using colon_not_mem_decimal _) split
  rw [List.reverse_inj, String.toList_inj] at hindex htx
  have index := congrArg decimalValue hindex
  rw [decimalValue_decimalText, decimalValue_decimalText] at index
  cases o
  cases o'
  exact congrArg₂ Outpoint.mk htx index

/-! The gate. -/

inductive Matches {α β : Type} (related : α → β → Prop) : Except Thrown α → Except Thrown β → Prop
  | refused {kind message message'} : Matches related (.error (.gateViolation kind message))
      (.error (.gateViolation kind message'))
  | passed {a b} (both : related a b) : Matches related (.ok a) (.ok b)

namespace FakeSyncStore

structure Holds (store : FakeSyncStore) (db : Db Goods) : Prop where
  seen : Mirrors rk SqliteStore.rowFromSql (fun key => isBareHex key.signerPubkey = true)
    db.seen store.seen
  outpoints : Mirrors outpointKey ConsumedRow.outpointRow (fun _ => True) db.consumed
    store.outpoints
  goods : store.goods = db.goods

namespace Holds
variable {store : FakeSyncStore} {db : Db Goods}

theorem stageSeen (holds : store.Holds db) {input : HonorTxnInput Goods}
    (hex : isBareHex input.key.signerPubkey = true) :
    Matches (fun after staged => Mirrors rk SqliteStore.rowFromSql
        (fun key => isBareHex key.signerPubkey = true) after (store.seen.set (rk input.key) staged))
      (gateSeen db.seen input.key input.now input.outpoint) (store.stageSeen input) := by
  unfold FakeSyncStore.stageSeen
  rw [holds.seen.get? rk_inj hex]
  cases found : db.seen.find? input.key with
  | none =>
    rw [gateSeen_missing found]
    exact .refused
  | some row =>
    rw [Option.map_some]
    dsimp only [SqliteStore.rowFromSql]
    have window : (!decide (input.now < row.retainUntil) ||
        !(decide (input.now < row.expiresAt) || row.observedBeforeExpiry)) = true ↔
        ¬ (input.now < row.retainUntil ∧
          (input.now < row.expiresAt ∨ row.observedBeforeExpiry = true)) := by
      rw [← Bool.not_and, Bool.not_eq_true', ← Bool.not_eq_true]
      simp
    by_cases lockable : Statements.Lockable input.now row
    · rw [gateSeen_lockable found lockable, if_neg (not_not.2 lockable.1),
        if_neg fun h => window.1 h lockable.2]
      have set := holds.seen.set_present rk_inj hex found
        (f := Statements.lockedRow input.now input.outpoint)
        (p := fun row => row.key = input.key ∧ Statements.Lockable input.now row)
        (Statements.lockedRow_key input.now input.outpoint) (fun other h => by simp_all)
        (by simp [lockable, Relational.Table.find?_key found])
      exact .passed set
    · rw [gateSeen_unlockable found lockable]
      by_cases honored : row.honoredAt = none
      · rw [if_neg (not_not.2 honored), if_neg (not_not.2 honored),
          if_pos (window.2 fun inside => lockable ⟨honored, inside⟩)]
        exact .refused
      · rw [if_pos honored, if_pos honored]
        exact .refused

theorem stageOutpoint (holds : store.Holds db) {input : HonorTxnInput Goods} {driver : Driver}
    (recognised : driver.isUniqueViolation driver.uniqueViolation = true) :
    Matches (fun after staged => Mirrors outpointKey ConsumedRow.outpointRow (fun _ => True) after
        (store.outpoints.set (outpointKey input.outpoint) staged))
      (gateConsumed driver db.consumed input) (store.stageOutpoint input) := by
  unfold FakeSyncStore.stageOutpoint gateConsumed
  rw [holds.outpoints.get? outpointKey_inj trivial]
  cases input.mode with
  | single =>
    dsimp only
    cases inserted : Statements.insertConsumed db.consumed input.key input.outpoint input.now
        input.retainUntil with
    | none =>
      obtain ⟨row, found⟩ := Option.ne_none_iff_exists'.1 (Table.insert?_eq_none_iff.1 inserted)
      rw [show db.consumed.find? input.outpoint = some row from found]
      dsimp only
      rw [if_pos recognised]
      exact .refused
    | some after =>
      rw [show db.consumed.find? input.outpoint = none from
        (Table.insert?_eq_some_iff.1 inserted).1]
      have set := holds.outpoints.set_new outpointKey_inj trivial inserted
      exact .passed set
  | promote =>
    dsimp only
    rw [Statements.promoteConsumed_changes]
    cases found : db.consumed.find? input.outpoint with
    | none => exact .refused
    | some row =>
      rw [Option.map_some]
      dsimp only [ConsumedRow.outpointRow]
      by_cases pending : row.state = .claimPending
      · rw [if_neg (by simp [pending]), if_neg (not_not.2 pending)]
        have set := holds.outpoints.set_present outpointKey_inj trivial found
          (f := Statements.promotedRow input.now input.retainUntil)
          (p := fun row => row.outpoint = input.outpoint ∧ row.state = .claimPending)
          (Statements.promotedRow_outpoint input.now input.retainUntil)
          (fun other h => by simp_all) (by simp [pending, Relational.Table.find?_key found])
        exact .passed set
      · rw [if_pos (by simp [pending]), if_pos pending]
        exact .refused

theorem stage (holds : store.Holds db) {input : HonorTxnInput Goods} {driver : Driver}
    (recognised : driver.isUniqueViolation driver.uniqueViolation = true)
    (hex : isBareHex input.key.signerPubkey = true) :
    Matches (fun gated staged => ∀ stagedGoods,
        (store.publish input staged stagedGoods).Holds
          { gated with goods := gated.goods ∪ stagedGoods })
      (gateWrites driver db input) (store.stage input) := by
  have first := holds.stageSeen hex
  have second : Matches _ (gateConsumed driver db.consumed input) (store.stageOutpoint input) :=
    holds.stageOutpoint recognised
  unfold gateWrites FakeSyncStore.stage
  generalize gateSeen db.seen input.key input.now input.outpoint = seen at first ⊢
  generalize gateConsumed driver db.consumed input = consumed at second ⊢
  generalize store.stageSeen input = stagedSeen at first ⊢
  generalize store.stageOutpoint input = stagedOutpoint at second ⊢
  cases first with
  | refused => exact .refused
  | passed seen =>
    cases second with
    | refused => exact .refused
    | passed outpoints => exact .passed fun _ => ⟨seen, outpoints, congrArg (· ∪ _) holds.goods⟩

theorem runHonorTxn (holds : store.Holds db) {txn : HonorTxn}
    (hex : isBareHex txn.key.signerPubkey = true) :
    (Store.execute .sync db (.runHonorTxn txn)).1 = (store.execute (.runHonorTxn txn)).1 ∧
      (store.execute (.runHonorTxn txn)).2.Holds
        (Store.execute .sync db (.runHonorTxn txn)).2 := by
  have gate : Matches _ (gateWrites (Store.driver .sync) db (txn.input .sync))
    (store.stage (txn.input .sync)) := holds.stage (Store.driver_recognises .sync) hex
  cases hdb : gateWrites (Store.driver .sync) db (txn.input .sync) with
  | error e =>
    cases hstore : store.stage (txn.input .sync) with
    | error e' =>
      rw [hdb, hstore] at gate
      rw [Store.execute_stopped hdb, execute_stopped hstore]
      cases gate
      exact ⟨rfl, holds⟩
    | ok staged =>
      rw [hdb, hstore] at gate
      cases gate
  | ok gated =>
    cases hstore : store.stage (txn.input .sync) with
    | error e' =>
      rw [hdb, hstore] at gate
      cases gate
    | ok staged =>
      rw [hdb, hstore] at gate
      rw [Store.execute_passed hdb, execute_passed hstore]
      cases gate with
      | passed both =>
        unfold HonorTxn.settle
        cases txn.records.ends with
        | ok _ => exact ⟨rfl, both _⟩
        | error e => exact ⟨rfl, holds⟩

theorem markObserved (holds : store.Holds db) {key : HonorKey} {now : Int}
    (hex : isBareHex key.signerPubkey = true) :
    (store.markObservedBeforeExpiry key now).Holds
      { db with seen := Statements.markObserved db.seen key now } := by
  unfold FakeSyncStore.markObservedBeforeExpiry
  rw [holds.seen.get? rk_inj hex]
  have missed (closed : ∀ row, db.seen.find? key = some row → ¬ now < row.expiresAt) :
      store.Holds { db with seen := Statements.markObserved db.seen key now } := by
    have untouched (row : SeenRowSql) (hrow : row ∈ db.seen.rows) :
        decide (row.key = key ∧ now < row.expiresAt) = false := by
      refine decide_eq_false fun hit => ?_
      exact closed row (Table.find?_eq_some_iff.2 ⟨hrow, hit.1⟩) hit.2
    exact ⟨holds.seen.updateWhere_none Statements.observedRow_key untouched, holds.outpoints,
      holds.goods⟩
  cases found : db.seen.find? key with
  | none => exact missed (by simp [found])
  | some row =>
    rw [Option.map_some]
    dsimp only [SqliteStore.rowFromSql]
    by_cases early : now < row.expiresAt
    · rw [if_pos early]
      have set := holds.seen.set_present rk_inj hex found (f := Statements.observedRow)
        (p := fun row => row.key = key ∧ now < row.expiresAt) Statements.observedRow_key
        (fun other h => by simp_all) (by simp [early, Table.find?_key found])
      exact ⟨set, holds.outpoints, holds.goods⟩
    · rw [if_neg early]
      exact missed fun other h => by simp_all

theorem sweep (holds : store.Holds db) (now : Int) :
    (Store.sweep db now).1 = (store.sweep now).1 ∧
      (store.sweep now).2.Holds (Store.sweep db now).2 := by
  obtain ⟨seen, seenDeleted⟩ := holds.seen.deleteWhere fun r => r.retainUntil < now
  obtain ⟨outpoints, outpointsDeleted⟩ := holds.outpoints.deleteWhere fun r => r.retainUntil < now
  exact ⟨(congrArg₂ SweepResult.mk seenDeleted outpointsDeleted).symm, seen, outpoints,
    holds.goods⟩

theorem contents (holds : store.Holds db) : store.contents = Store.contents .sync db := by
  unfold FakeSyncStore.contents
  rw [holds.seen.values, holds.outpoints.values, holds.goods]
  rfl

end Holds

theorem execute_agrees : Machine.Agrees (Store.execute .sync) execute
    (fun db store => store.Holds db) fun op => ∀ signer ∈ op.signer?, isBareHex signer = true := by
  intro db store op holds typed
  cases op with
  | upsertAccepted quote acceptedAt retainUntil =>
    have hex := typed quote.signerPubkey rfl
    have set := holds.seen.setNew rk_inj (Statements.acceptedRow quote acceptedAt retainUntil) hex
    rw [show SqliteStore.rowFromSql _ = acceptedRow quote acceptedAt retainUntil by
      simp [SqliteStore.rowFromSql, Statements.acceptedRow, acceptedRow,
        SeenRowSql.honoredOutpoint]] at set
    exact ⟨rfl, set, holds.outpoints, holds.goods⟩
  | getSeen key =>
    have hex := typed key.signerPubkey rfl
    refine ⟨congrArg StoreAnswer.row ?_, holds⟩
    exact (holds.seen.get? rk_inj hex).symm
  | listHonorable signerPubkey now =>
    refine ⟨congrArg StoreAnswer.rows (congrArg _ ?_), holds⟩
    unfold FakeSyncStore.listHonorable
    rw [holds.seen.values, List.filter_map]
    rfl
  | markObservedBeforeExpiry key now => exact ⟨rfl, holds.markObserved (typed key.signerPubkey rfl)⟩
  | isOutpointConsumed outpoint =>
    refine ⟨congrArg StoreAnswer.consumed ?_, holds⟩
    unfold FakeSyncStore.isOutpointConsumed Statements.isOutpointConsumed
    rw [holds.outpoints.get? outpointKey_inj trivial, Table.any_key]
    cases db.consumed.find? outpoint <;> rfl
  | reserveClaimOutpoint key outpoint claimTxId now =>
    have set := holds.outpoints.setNew outpointKey_inj
      (Statements.reservedRow key outpoint claimTxId) trivial
    exact ⟨rfl, holds.seen, set, holds.goods⟩
  | runHonorTxn txn => exact holds.runHonorTxn (typed txn.key.signerPubkey rfl)
  | sweep now =>
    obtain ⟨counts, after⟩ := holds.sweep now
    exact ⟨congrArg StoreAnswer.swept counts, after⟩

end FakeSyncStore

/-- From empty tables every sequence of operations gets the same answers from all three stores,
which hold the same rows and goods at its end. -/
theorem stores_interchangeable (ops : List StoreOp)
    (typed : ∀ op ∈ ops, ∀ signer ∈ op.signer?, isBareHex signer = true) :
    let sqlite := (Store.execute .sync).replay (.empty ∅) ops
    let postgres := (Store.execute .async).replay (.empty ∅) ops
    let memory := FakeSyncStore.execute.replay .empty ops
    (postgres.1 = sqlite.1 ∧ memory.1 = sqlite.1) ∧
      Store.contents .async postgres.2 = Store.contents .sync sqlite.2 ∧
      memory.2.contents = Store.contents .sync sqlite.2 := by
  intro sqlite postgres memory
  have models : postgres = sqlite := by
    have executes : Store.execute .async = Store.execute .sync :=
      funext fun db => funext fun op => Store.execute_models .async db op
    unfold postgres sqlite
    rw [executes]
  have start : FakeSyncStore.empty.Holds (.empty ∅) := ⟨.empty, .empty, rfl⟩
  obtain ⟨answers, holds⟩ := FakeSyncStore.execute_agrees.replay start typed
  rw [models]
  exact ⟨⟨rfl, answers.symm⟩, Store.contents_models .async _, holds.contents⟩

/-- A quote honored by promoting its reservation, after a `deliver` that threw and before a
second honor. -/
def sampleOps : List StoreOp :=
  let honor (records : Recording) : StoreOp := .runHonorTxn {
    key := sampleQuote.key
    candidate := ⟨.htlc, sampleQuote.quoteId, "01", 0, 500, "ee", some 90, true⟩
    outpoint := ⟨"01", 0⟩
    now := 20
    retainUntil := 4600
    mode := .promote
    deliver := fun _ => records }
  [.upsertAccepted sampleQuote 10 4600,
    .reserveClaimOutpoint sampleQuote.key ⟨"01", 0⟩ "c0" 10,
    honor ⟨["goods"], .error (.text "out of stock")⟩,
    .isOutpointConsumed ⟨"01", 0⟩,
    honor ⟨["goods"], .ok ()⟩,
    honor ⟨["again"], .ok ()⟩,
    .sweep 4600,
    .sweep 4601]

theorem stores_interchangeable_sample :
    (FakeSyncStore.execute.replay .empty sampleOps).1 =
        ((Store.execute .sync).replay (.empty ∅) sampleOps).1 ∧
      (FakeSyncStore.execute.replay .empty sampleOps).1 =
        [.done, .done, .txn (.failed (.text "out of stock")), .consumed false, .txn .committed,
          .txn (.refused .seenAlreadyHonored), .swept ⟨0, 0⟩, .swept ⟨1, 1⟩] ∧
      (FakeSyncStore.execute.replay .empty sampleOps).2.contents = ⟨0, 0, {"goods"}⟩ := by
  have typed : ∀ op ∈ sampleOps, ∀ signer ∈ op.signer?, isBareHex signer = true := by
    simp [sampleOps, StoreOp.signer?]
    decide
  exact ⟨(stores_interchangeable sampleOps typed).1.2, rfl, rfl⟩

end ExferHonor
