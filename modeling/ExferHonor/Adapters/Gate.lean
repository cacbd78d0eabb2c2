import ExferHonor.Adapters.Schema

/-! The gate writes of the honor transaction, in the order both stores make them: lock the
SEEN row, then insert the consumed outpoint or promote its reservation. -/
namespace ExferHonor
open Relational Statements

variable {G : Type}

structure Driver where
  uniqueViolation : Thrown
  isUniqueViolation : Thrown → Bool

def alreadyHonored : Thrown :=
  .gateViolation .seenAlreadyHonored "SEEN row already honored (concurrent honor / re-honor)"
def notLockable : Thrown :=
  .gateViolation .expiredWindow
    "SEEN row not lockable (swept / out-of-window / late-honor unobserved, §5.9)"
def pkCollision : Thrown :=
  .gateViolation .outpointConsumed "PK collision inserting consumed outpoint (R1)"
def notPending : Thrown :=
  .gateViolation .outpointConsumed "promote target not in claim_pending (F13)"

/-- Step 1. No row locked: a follow-up read tells why. -/
def gateSeen (seen : SeenTable) (key : HonorKey) (now : Int) (outpoint : Outpoint) :
    Except Thrown SeenTable :=
  let locked := lockSeen seen key now outpoint
  if locked.2 ≠ 1 then
    match getSeen locked.1 key with
    | some existing => .error (if existing.honoredAt ≠ none then alreadyHonored else notLockable)
    | none => .error notLockable
  else .ok locked.1

def gateConsumed (driver : Driver) (consumed : ConsumedTable) (input : HonorTxnInput G) :
    Except Thrown ConsumedTable :=
  match input.mode with
  | .single =>
      match insertConsumed consumed input.key input.outpoint input.now input.retainUntil with
      | some inserted => .ok inserted
      | none =>
          if driver.isUniqueViolation driver.uniqueViolation then .error pkCollision
          else .error driver.uniqueViolation
  | .promote =>
      let promoted := promoteConsumed consumed input.outpoint input.now input.retainUntil
      if promoted.2 ≠ 1 then .error notPending else .ok promoted.1

def gateWrites (driver : Driver) (db : Db G) (input : HonorTxnInput G) : Except Thrown (Db G) := do
  let seen ← gateSeen db.seen input.key input.now input.outpoint
  let consumed ← gateConsumed driver db.consumed input
  pure { db with seen := seen, consumed := consumed }

def HonorTxnInput.ctx (input : HonorTxnInput G) : DeliverContext where
  key := input.key
  candidate := input.candidate
  honoredAt := input.now

/-- `row` is the honored row that step 2 leaves at the outpoint: a new one, or the reservation
found there, promoted. -/
inductive HonoredRow (input : HonorTxnInput G) : Option ConsumedRow → ConsumedRow → Prop
  | inserted (mode : input.mode = .single) :
      HonoredRow input none
        (consumedRow input.key input.outpoint input.now input.retainUntil)
  | promoted {pending} (mode : input.mode = .promote) (state : pending.state = .claimPending)
      (outpoint : pending.outpoint = input.outpoint) :
      HonoredRow input (some pending) (promotedRow input.now input.retainUntil pending)

namespace HonoredRow
variable {input : HonorTxnInput G} {before : Option ConsumedRow} {row : ConsumedRow}

theorem state (honored : HonoredRow input before row) : row.state = .honored := by
  cases honored <;> rfl

theorem honoredAt (honored : HonoredRow input before row) : row.honoredAt = some input.now := by
  cases honored <;> rfl

theorem retainUntil (honored : HonoredRow input before row) :
    row.retainUntil = input.retainUntil := by
  cases honored <;> rfl

theorem before_state (honored : HonoredRow input before row) :
    ∀ old, before = some old → old.state = .claimPending := by
  cases honored with
  | inserted mode => simp
  | promoted mode state outpoint => simpa using state

end HonoredRow

theorem gateSeen_ok {seen after : SeenTable} {key : HonorKey} {now : Int} {outpoint : Outpoint}
    (h : gateSeen seen key now outpoint = .ok after) :
    ∃ row, seen.find? key = some row ∧ Lockable now row ∧ ∀ k, after.find? k =
      if k = key then some (lockedRow now outpoint row) else seen.find? k := by
  unfold gateSeen at h
  dsimp only at h
  split at h
  next => split at h <;> contradiction
  next hchanges =>
    obtain ⟨-, row, hrow, hlockable⟩ := exists_of_lockSeen
      (show (lockSeen seen key now outpoint).2 ≠ 0 by omega)
    refine ⟨row, hrow, hlockable, fun k => ?_⟩
    rw [← Except.ok.inj h, find?_lockSeen]
    by_cases hk : k = key
    · simp [hk, hrow, hlockable]
    · simp [hk]

theorem gateSeen_error {seen : SeenTable} {key : HonorKey} {now : Int} {outpoint : Outpoint}
    {e : Thrown} (h : gateSeen seen key now outpoint = .error e) :
    (lockSeen seen key now outpoint).2 = 0 ∧
      ((∃ row at_, seen.find? key = some row ∧ row.honoredAt = some at_ ∧ e = alreadyHonored) ∨
        (∀ row, seen.find? key = some row → row.honoredAt = none) ∧ e = notLockable) := by
  unfold gateSeen at h
  dsimp only at h
  split at h
  next hchanges =>
    have unlocked : ∀ row, seen.find? key = some row → ¬ Lockable now row := by
      intro row hrow lockable
      simp [lockSeen_changes, hrow, lockable] at hchanges
    have same : getSeen (lockSeen seen key now outpoint).1 key = seen.find? key := by
      rw [getSeen, find?_lockSeen]
      cases hrow : seen.find? key with
      | none => rfl
      | some row => simp [unlocked row hrow]
    refine ⟨?_, ?_⟩
    · cases hrow : seen.find? key with
      | none => simp [lockSeen_changes, hrow]
      | some row => simp [lockSeen_changes, hrow, unlocked row hrow]
    · rw [same] at h
      split at h
      next row hrow =>
        cases hat : row.honoredAt with
        | none =>
          simp only [hat, ne_eq, not_true_eq_false, if_false] at h
          cases h
          exact .inr ⟨by simp [hrow, hat], rfl⟩
        | some at_ =>
          simp only [hat, ne_eq, reduceCtorEq, not_false_eq_true, if_true] at h
          cases h
          exact .inl ⟨row, at_, hrow, hat, rfl⟩
      next hrow =>
        cases h
        exact .inr ⟨by simp [hrow], rfl⟩
  next => cases h

theorem gateConsumed_ok {driver : Driver} {consumed after : ConsumedTable}
    {input : HonorTxnInput G} (h : gateConsumed driver consumed input = .ok after) :
    ∃ row, HonoredRow input (consumed.find? input.outpoint) row ∧ ∀ o, after.find? o =
      if o = input.outpoint then some row else consumed.find? o := by
  unfold gateConsumed at h
  split at h
  next hmode =>
    split at h
    next inserted hinsert =>
      cases h
      obtain ⟨habsent, -⟩ := Table.insert?_eq_some_iff.1 hinsert
      refine ⟨consumedRow input.key input.outpoint input.now input.retainUntil, ?_, fun o => ?_⟩
      · rw [show consumed.find? input.outpoint = none from habsent]
        exact .inserted hmode
      · rw [find?_insertConsumed hinsert]
        simp only [eq_comm]
    next => split at h <;> contradiction
  next hmode =>
    dsimp only at h
    split at h
    next => contradiction
    next hchanges =>
      obtain ⟨-, pending, hrow, hstate⟩ := exists_of_promoteConsumed
        (show (promoteConsumed consumed input.outpoint input.now input.retainUntil).2 ≠ 0 by omega)
      rw [hrow]
      refine ⟨_, .promoted hmode hstate (Table.find?_key hrow), fun o => ?_⟩
      rw [← Except.ok.inj h, find?_promoteConsumed]
      by_cases ho : o = input.outpoint
      · simp [ho, hrow, hstate]
      · simp [ho]

theorem gateWrites_eq_ok_iff {driver : Driver} {db gated : Db G} {input : HonorTxnInput G} :
    gateWrites driver db input = .ok gated ↔
      ∃ seen consumed, gateSeen db.seen input.key input.now input.outpoint = .ok seen ∧
        gateConsumed driver db.consumed input = .ok consumed ∧
        gated = { db with seen := seen, consumed := consumed } := by
  unfold gateWrites
  cases gateSeen db.seen input.key input.now input.outpoint with
  | error e => simp [bind, Except.bind]
  | ok seen =>
    cases gateConsumed driver db.consumed input with
    | error e => simp [bind, Except.bind]
    | ok consumed => simp [bind, Except.bind, pure, Except.pure, eq_comm]

theorem gateWrites_eq_error_iff {driver : Driver} {db : Db G} {input : HonorTxnInput G}
    {e : Thrown} :
    gateWrites driver db input = .error e ↔
      gateSeen db.seen input.key input.now input.outpoint = .error e ∨
      ∃ seen, gateSeen db.seen input.key input.now input.outpoint = .ok seen ∧
        gateConsumed driver db.consumed input = .error e := by
  unfold gateWrites
  cases gateSeen db.seen input.key input.now input.outpoint with
  | error e => simp [bind, Except.bind]
  | ok seen =>
    cases gateConsumed driver db.consumed input with
    | error e => simp [bind, Except.bind]
    | ok consumed => simp [bind, Except.bind, pure, Except.pure]

theorem gateWrites_ok {driver : Driver} {db gated : Db G} {input : HonorTxnInput G}
    (h : gateWrites driver db input = .ok gated) :
    (∃ row, db.seen.find? input.key = some row ∧ Lockable input.now row ∧
      ∀ k, gated.seen.find? k =
        if k = input.key then some (lockedRow input.now input.outpoint row)
        else db.seen.find? k) ∧
    (∃ row, HonoredRow input (db.consumed.find? input.outpoint) row ∧
      ∀ o, gated.consumed.find? o =
        if o = input.outpoint then some row else db.consumed.find? o) ∧
    gated.goods = db.goods := by
  obtain ⟨seen, consumed, hseen, hconsumed, rfl⟩ := gateWrites_eq_ok_iff.1 h
  exact ⟨gateSeen_ok hseen, gateConsumed_ok hconsumed, rfl⟩

/-- A row that cannot be locked stops the transaction at step 1, and the follow-up read tells
why. -/
theorem gateSeen_unlockable {seen : SeenTable} {key : HonorKey} {now : Int}
    {row : SeenRowSql} (found : seen.find? key = some row) (closed : ¬ Lockable now row)
    (outpoint : Outpoint) :
    gateSeen seen key now outpoint =
      .error (if row.honoredAt ≠ none then alreadyHonored else notLockable) := by
  have hread : getSeen (lockSeen seen key now outpoint).1 key = some row := by
    rw [getSeen, find?_lockSeen, found, Option.map_some, if_neg fun h => closed h.2]
  rw [gateSeen, if_pos]
  · simp only [hread]
  · rw [lockSeen_changes, found]
    simp [closed]

theorem gateSeen_missing {seen : SeenTable} {key : HonorKey} (absent : seen.find? key = none)
    (now : Int) (outpoint : Outpoint) :
    gateSeen seen key now outpoint = .error notLockable := by
  have hread : getSeen (lockSeen seen key now outpoint).1 key = none := by
    rw [getSeen, find?_lockSeen, absent, Option.map_none]
  rw [gateSeen, if_pos]
  · simp only [hread]
  · rw [lockSeen_changes, absent]
    simp

theorem gateSeen_lockable {seen : SeenTable} {key : HonorKey} {now : Int} {outpoint : Outpoint}
    {row : SeenRowSql} (found : seen.find? key = some row) (lockable : Lockable now row) :
    gateSeen seen key now outpoint = .ok (lockSeen seen key now outpoint).1 := by
  rw [gateSeen, if_neg]
  rw [lockSeen_changes, found]
  simp [lockable]

theorem gateWrites_honored {db : Db G} {input : HonorTxnInput G} {row : SeenRowSql}
    (driver : Driver) (found : db.seen.find? input.key = some row)
    (honored : row.honoredAt ≠ none) : gateWrites driver db input = .error alreadyHonored := by
  have closed : ¬ Lockable input.now row := fun lockable => honored lockable.1
  have hseen := gateSeen_unlockable found closed input.outpoint
  rw [if_pos honored] at hseen
  exact gateWrites_eq_error_iff.2 (.inl hseen)

theorem gateWrites_closed {db : Db G} {input : HonorTxnInput G} {row : SeenRowSql}
    (driver : Driver) (found : db.seen.find? input.key = some row)
    (unhonored : row.honoredAt = none) (closed : ¬ Lockable input.now row) :
    gateWrites driver db input = .error notLockable := by
  have hseen := gateSeen_unlockable found closed input.outpoint
  rw [if_neg (not_not.2 unhonored)] at hseen
  exact gateWrites_eq_error_iff.2 (.inl hseen)

theorem gateWrites_taken {db : Db G} {input : HonorTxnInput G} {row : SeenRowSql}
    (driver : Driver) (found : db.seen.find? input.key = some row)
    (lockable : Lockable input.now row) (single : input.mode = .single)
    (taken : db.consumed.find? input.outpoint ≠ none)
    (recognised : driver.isUniqueViolation driver.uniqueViolation = true) :
    gateWrites driver db input = .error pkCollision := by
  have hinsert : insertConsumed db.consumed input.key input.outpoint input.now
      input.retainUntil = none := Table.insert?_eq_none_iff.2 taken
  have hconsumed : gateConsumed driver db.consumed input = .error pkCollision := by
    rw [gateConsumed, single]
    simp only [hinsert, recognised, if_true]
  exact gateWrites_eq_error_iff.2 (.inr ⟨_, gateSeen_lockable found lockable, hconsumed⟩)

theorem gateWrites_passes {db : Db G} {input : HonorTxnInput G} {row : SeenRowSql}
    (driver : Driver) (found : db.seen.find? input.key = some row)
    (lockable : Lockable input.now row) (single : input.mode = .single)
    (free : db.consumed.find? input.outpoint = none) :
    ∃ gated, gateWrites driver db input = .ok gated := by
  obtain ⟨inserted, hinsert⟩ : ∃ inserted, insertConsumed db.consumed input.key input.outpoint
      input.now input.retainUntil = some inserted := by
    apply Option.ne_none_iff_exists'.1
    intro h
    exact Table.insert?_eq_none_iff.1 h free
  have hconsumed : gateConsumed driver db.consumed input = .ok inserted := by
    rw [gateConsumed, single]
    simp only [hinsert]
  exact ⟨_, gateWrites_eq_ok_iff.2 ⟨_, inserted, gateSeen_lockable found lockable, hconsumed, rfl⟩⟩

end ExferHonor
