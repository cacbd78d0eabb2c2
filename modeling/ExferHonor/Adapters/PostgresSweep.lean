import ExferHonor.Adapters.PostgresProtocol
import ExferHonor.Ports.Interface

/-! The sweep on its client among other transactions, and what the store's two transactions have in
common: what they need of the rows they have changed, and what their COMMIT does. -/
namespace ExferHonor
namespace PostgresServer
open Effects Relational Statements Program

variable {G : Type}

def sweeping (now : Int) : Protocol Progress (Command G) Command.Reply where
  may at_ command :=
    match command with
    | .begin => at_ = .outside
    | .arrive => at_ ≠ .outside
    | .stmt (.sweepSeen until_) => at_ = .unlocked ∧ until_ = now
    | .stmt (.sweepOutpoints until_) => at_ = .unlocked ∧ until_ = now
    | .stmt _ => False
    | .commit => at_ = .unlocked
    | .rollback => True
  moves := Progress.leads

theorem sweep_follows (now : Int) :
    (sweep now : OnClient G (Except Thrown SweepResult)).Follows (sweeping now) .outside
      fun _ after => after = .outside := by
  have rolled (at_ : Progress) (result : Except Thrown SweepResult) :
      (.call .rollback fun _ => .pure result : OnClient G (Except Thrown SweepResult)).Follows
        (sweeping now) at_ fun _ after => after = .outside := ⟨trivial, fun _ _ moves => moves⟩
  refine Follows.bind (Follows.attempt (Follows.bind (Follows.ask rfl ?_)))
  rintro (error | begun) at_ rfl
  · exact rolled _ _
  · refine Follows.bind ⟨nofun, ?_⟩
    rintro - at_ rfl
    refine Follows.ask ⟨rfl, rfl⟩ ?_
    rintro (error | seenDeleted) at_ rfl
    · exact rolled _ _
    · refine Follows.bind ⟨nofun, ?_⟩
      rintro - at_ rfl
      refine Follows.ask ⟨rfl, rfl⟩ ?_
      rintro (error | outpointsDeleted) at_ rfl
      · exact rolled _ _
      · refine Follows.bind (Follows.ask rfl ?_)
        rintro (error | done) at_ rfl
        · exact rolled _ _
        · rfl

structure Open.Deletes (txn : Open G) : Prop where
  seen : ∀ db key, (txn.redo db).seen.find? key =
    if key ∈ txn.seenChanged then none else db.seen.find? key
  consumed : ∀ db outpoint, (txn.redo db).consumed.find? outpoint =
    if outpoint ∈ txn.consumedChanged then none else db.consumed.find? outpoint
  goods : ∀ db, (txn.redo db).goods = db.goods

namespace Open.Deletes
variable {txn : Open G}

theorem fresh (snapshot : Committed G) : (Open.fresh snapshot).Deletes :=
  ⟨fun _ _ => rfl, fun _ _ => rfl, fun _ => rfl⟩

theorem refresh (deletes : txn.Deletes) (committed : Committed G) :
    (txn.refresh committed).Deletes :=
  ⟨deletes.seen, deletes.consumed, deletes.goods⟩

theorem deleteSeen (deletes : txn.Deletes) (keys : List HonorKey) :
    (txn.deleteSeen keys).Deletes where
  seen db key := by
    simp only [Open.deleteSeen, Table.find?_deleteWhere, deletes.seen, List.mem_append]
    by_cases changed : key ∈ txn.seenChanged
    · simp [changed]
    · cases found : db.seen.find? key with
      | none => simp
      | some row => by_cases h : key ∈ keys <;> simp [changed, h, Table.find?_key found]
  consumed := deletes.consumed
  goods := deletes.goods

theorem deleteConsumed (deletes : txn.Deletes) (outpoints : List Outpoint) :
    (txn.deleteConsumed outpoints).Deletes where
  seen := deletes.seen
  consumed db outpoint := by
    simp only [Open.deleteConsumed, Table.find?_deleteWhere, deletes.consumed, List.mem_append]
    by_cases changed : outpoint ∈ txn.consumedChanged
    · simp [changed]
    · cases found : db.consumed.find? outpoint with
      | none => simp
      | some row => by_cases h : outpoint ∈ outpoints <;> simp [changed, h, Table.find?_key found]
  goods := deletes.goods

end Open.Deletes

/-- The sweep's transaction at each point of its progress: the rows it has deleted are committed
past their retention. -/
inductive Sweeping (committed : Committed G) (now : Int) : Progress → ClientState G → Prop
  | outside : Sweeping committed now .outside .idle
  | begun : Sweeping committed now .unlocked .begun
  | deleting {txn : Open G} (deletes : txn.Deletes)
      (seen : ∀ key ∈ txn.seenChanged, ∃ row,
        committed.db.seen.find? key = some row ∧ row.retainUntil < now)
      (consumed : ∀ outpoint ∈ txn.consumedChanged, ∃ row,
        committed.db.consumed.find? outpoint = some row ∧ row.retainUntil < now) :
      Sweeping committed now .unlocked (.active txn)
  | aborted : Sweeping committed now .aborted .failed

structure Sweeps (now : Int) (before after : Db G) : Prop where
  seen : ∀ key, after.seen.find? key = before.seen.find? key ∨
    ∃ row, before.seen.find? key = some row ∧ row.retainUntil < now ∧ after.seen.find? key = none
  consumed : ∀ outpoint, after.consumed.find? outpoint = before.consumed.find? outpoint ∨
    ∃ row, before.consumed.find? outpoint = some row ∧ row.retainUntil < now ∧
      after.consumed.find? outpoint = none
  goods : after.goods = before.goods

structure Open.Confined (txn : Open G) (committed : Committed G) : Prop where
  seen : ∀ key, key ∉ txn.seenChanged →
    (txn.commit committed).db.seen.find? key = committed.db.seen.find? key
  consumed : ∀ outpoint, outpoint ∉ txn.consumedChanged →
    (txn.commit committed).db.consumed.find? outpoint = committed.db.consumed.find? outpoint

theorem Open.Confined.since {txn : Open G} {committed : Committed G}
    (confined : txn.Confined committed) : committed.Since (txn.commit committed) where
  seen key := by
    refine ⟨Nat.le_add_right _ _, fun same => confined.seen key fun changed => ?_⟩
    simp [Open.commit, changed] at same
  consumed outpoint := by
    refine ⟨Nat.le_add_right _ _, fun same => confined.consumed outpoint fun changed => ?_⟩
    simp [Open.commit, changed] at same

section
variable {committed committed' : Committed G} {now : Int} {at_ : Progress} {state : ClientState G}

theorem Sweeping.frame (holding : Sweeping committed now at_ state)
    (seen : ∀ key ∈ state.seenChanged,
      committed'.db.seen.find? key = committed.db.seen.find? key)
    (consumed : ∀ outpoint ∈ state.consumedChanged,
      committed'.db.consumed.find? outpoint = committed.db.consumed.find? outpoint) :
    Sweeping committed' now at_ state := by
  cases holding with
  | outside => exact .outside
  | begun => exact .begun
  | deleting deletes expired expired' =>
    refine .deleting deletes (fun key changed => ?_) fun outpoint changed => ?_
    · rw [seen key changed]
      exact expired key changed
    · rw [consumed outpoint changed]
      exact expired' outpoint changed
  | aborted => exact .aborted

theorem Sweeping.arrive (holding : Sweeping committed now .unlocked state) :
    ∃ txn, state.arrive committed = .active txn ∧
      Sweeping committed now .unlocked (.active txn) := by
  cases holding with
  | begun => exact ⟨_, rfl, .deleting (.fresh committed) (List.forall_mem_nil _)
      (List.forall_mem_nil _)⟩
  | deleting deletes seen consumed => exact ⟨_, rfl, .deleting deletes seen consumed⟩

theorem Sweeping.exec {txn : Open G} {stmt : Stmt G}
    (holding : Sweeping committed now .unlocked (.active txn))
    (may : (sweeping now).may .unlocked (.stmt stmt)) :
    (sweeping now).moves .unlocked (.stmt stmt) (txn.exec committed stmt).1 .unlocked ∧
      Sweeping committed now .unlocked (txn.exec committed stmt).2 := by
  cases holding with
  | deleting deletes seen consumed =>
    cases stmt with
    | sweepSeen until_ =>
      obtain ⟨-, rfl⟩ := may
      refine ⟨rfl, .deleting ((deletes.refresh committed).deleteSeen _) (fun key changed => ?_)
        consumed⟩
      rcases List.mem_append.1 changed with h | h
      · obtain ⟨row, hrow, rfl⟩ := List.mem_map.1 h
        obtain ⟨there, expired⟩ := List.mem_filter.1 hrow
        have found : (txn.redo committed.db).seen.find? row.key = some row :=
          Table.find?_eq_some_iff.2 ⟨there, rfl⟩
        rw [deletes.seen] at found
        split at found
        · cases found
        · exact ⟨row, found, of_decide_eq_true expired⟩
      · exact seen key h
    | sweepOutpoints until_ =>
      obtain ⟨-, rfl⟩ := may
      refine ⟨rfl, .deleting ((deletes.refresh committed).deleteConsumed _) seen
        fun outpoint changed => ?_⟩
      rcases List.mem_append.1 changed with h | h
      · obtain ⟨row, hrow, rfl⟩ := List.mem_map.1 h
        obtain ⟨there, expired⟩ := List.mem_filter.1 hrow
        have found : (txn.redo committed.db).consumed.find? row.outpoint = some row :=
          Table.find?_eq_some_iff.2 ⟨there, rfl⟩
        rw [deletes.consumed] at found
        split at found
        · cases found
        · exact ⟨row, found, of_decide_eq_true expired⟩
      · exact consumed outpoint h
    | _ => cases may

theorem Sweeping.execute {command : Command G} (holding : Sweeping committed now at_ state)
    (may : (sweeping now).may at_ command) (notCommit : command ≠ .commit) :
    ∃ after, (sweeping now).moves at_ command (execute committed state command).1 after ∧
      Sweeping committed now after (execute committed state command).2.2 := by
  cases command with
  | begin =>
    obtain rfl : at_ = .outside := may
    cases holding
    exact ⟨.unlocked, rfl, .begun⟩
  | arrive =>
    refine ⟨at_, rfl, ?_⟩
    cases holding with
    | outside => exact absurd rfl may
    | begun =>
      exact .deleting (.fresh committed) (List.forall_mem_nil _) (List.forall_mem_nil _)
    | deleting deletes seen consumed => exact .deleting deletes seen consumed
    | aborted => exact .aborted
  | stmt stmt =>
    obtain rfl : at_ = .unlocked := by cases stmt <;> first | exact may.1 | cases may
    obtain ⟨txn, active, arrived⟩ := holding.arrive
    simp only [PostgresServer.execute, active]
    exact ⟨.unlocked, arrived.exec may⟩
  | commit => exact absurd rfl notCommit
  | rollback => exact ⟨.outside, rfl, .outside⟩

/-- COMMIT of the sweep deletes what its statements have found, and it is past its retention. -/
theorem Sweeping.commit {txn : Open G} (holding : Sweeping committed now at_ (.active txn)) :
    Sweeps now committed.db (txn.commit committed).db ∧ txn.Confined committed := by
  cases holding with
  | deleting deletes seen consumed =>
    refine ⟨⟨fun key => ?_, fun outpoint => ?_, deletes.goods _⟩,
      fun key other => (deletes.seen _ _).trans (if_neg other),
      fun outpoint other => (deletes.consumed _ _).trans (if_neg other)⟩
    · by_cases changed : key ∈ txn.seenChanged
      · obtain ⟨row, found, expired⟩ := seen key changed
        exact .inr ⟨row, found, expired, (deletes.seen _ _).trans (if_pos changed)⟩
      · exact .inl ((deletes.seen _ _).trans (if_neg changed))
    · by_cases changed : outpoint ∈ txn.consumedChanged
      · obtain ⟨row, found, expired⟩ := consumed outpoint changed
        exact .inr ⟨row, found, expired, (deletes.consumed _ _).trans (if_pos changed)⟩
      · exact .inl ((deletes.consumed _ _).trans (if_neg changed))

end

inductive StoreTxn (G : Type) where
  | honor (input : HonorTxnInput G)
  | sweep (now : Int)

namespace StoreTxn

def op : StoreTxn G → Op G
  | .honor input => .runHonorTxn input
  | .sweep now => .sweep now

def program : (txn : StoreTxn G) → OnClient G txn.op.Reply
  | .honor input => PostgresServer.runHonorTxn input
  | .sweep now => PostgresServer.sweep now

def protocol : StoreTxn G → Protocol Progress (Command G) Command.Reply
  | .honor input => transaction input
  | .sweep now => sweeping now

def Holds (committed : Committed G) : StoreTxn G → Progress → ClientState G → Prop
  | .honor input => Holding committed input
  | .sweep now => Sweeping committed now

def Makes (before after : Db G) : StoreTxn G → Prop
  | .honor input => ∃ gated, gateWrites PostgresStore.driver before input = .ok gated ∧
      after.seen = gated.seen ∧ after.consumed = gated.consumed
  | .sweep now => Sweeps now before after

variable {txn : StoreTxn G} {committed committed' : Committed G} {at_ : Progress}
  {state : ClientState G}

theorem program_follows (txn : StoreTxn G) :
    txn.program.Follows txn.protocol .outside fun _ after => after = .outside := by
  cases txn with
  | honor input => exact runHonorTxn_follows
  | sweep now => exact sweep_follows now

theorem protocol_moves (txn : StoreTxn G) : txn.protocol.moves = Progress.leads := by
  cases txn <;> rfl

theorem within_of_may {stmt : Stmt G} (may : txn.protocol.may at_ (.stmt stmt)) :
    at_ ≠ .outside := by
  rintro rfl
  cases txn <;> cases stmt <;> simp [protocol, transaction, sweeping] at may

theorem holds_idle (txn : StoreTxn G) : txn.Holds committed .outside .idle := by
  cases txn with
  | honor input => exact .outside
  | sweep now => exact .outside

theorem holds_failed (txn : StoreTxn G) : txn.Holds committed .aborted .failed := by
  cases txn with
  | honor input => exact .aborted
  | sweep now => exact .aborted

namespace Holds

theorem outside_of_idle (holds : txn.Holds committed at_ .idle) : at_ = .outside := by
  cases txn <;> cases holds <;> rfl

theorem frame (holds : txn.Holds committed at_ state) (since : committed.Since committed')
    (seen : ∀ key ∈ state.seenChanged,
      committed'.db.seen.find? key = committed.db.seen.find? key)
    (consumed : ∀ outpoint ∈ state.consumedChanged,
      committed'.db.consumed.find? outpoint = committed.db.consumed.find? outpoint) :
    txn.Holds committed' at_ state := by
  cases txn with
  | honor input => exact Holding.frame holds since seen consumed
  | sweep now => exact Sweeping.frame holds seen consumed

theorem execute {command : Command G} (holds : txn.Holds committed at_ state)
    (may : txn.protocol.may at_ command) (notCommit : command ≠ .commit) :
    ∃ after, txn.protocol.moves at_ command (PostgresServer.execute committed state command).1
        after ∧
      txn.Holds committed after (PostgresServer.execute committed state command).2.2 := by
  cases txn with
  | honor input => exact Holding.execute holds may notCommit
  | sweep now => exact Sweeping.execute holds may notCommit

theorem confined {input : HonorTxnInput G} {opened : Open G} {gated : Db G}
    (seen : opened.seenChanged = [input.key]) (consumed : opened.consumedChanged = [input.outpoint])
    (passed : gateWrites PostgresStore.driver committed.db input = .ok gated)
    (hseen : (opened.commit committed).db.seen = gated.seen)
    (hconsumed : (opened.commit committed).db.consumed = gated.consumed) :
    opened.Confined committed := by
  obtain ⟨⟨row, -, -, rows⟩, ⟨after, -, outpoints⟩, -⟩ := gateWrites_ok passed
  constructor
  · intro key other
    rw [seen, List.mem_singleton] at other
    rw [hseen, rows, if_neg other]
  · intro outpoint other
    rw [consumed, List.mem_singleton] at other
    rw [hconsumed, outpoints, if_neg other]

theorem commit {opened : Open G} (holds : txn.Holds committed at_ (.active opened))
    (may : txn.protocol.may at_ .commit) :
    txn.Makes committed.db (opened.commit committed).db ∧ opened.Confined committed := by
  cases txn with
  | honor input =>
    obtain ⟨⟨gated, passed, hseen, hconsumed⟩, seen, consumed⟩ := Holding.commit holds may
    exact ⟨⟨gated, passed, hseen, hconsumed⟩, confined seen consumed passed hseen hconsumed⟩
  | sweep now => exact Sweeping.commit holds

end Holds
end StoreTxn

end PostgresServer
end ExferHonor
