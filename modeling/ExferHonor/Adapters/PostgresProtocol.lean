import ExferHonor.Adapters.PostgresTxn
import ExferHonor.Effects.Protocol

/-! The store's transactions on their clients among other transactions: which rows one has changed
so far, and that these are committed as it needs them for as long as nobody else changes them. -/
namespace ExferHonor
namespace PostgresServer
open Effects Relational Statements Program

variable {G : Type}

/-- A row that still has its version is the row it was. -/
structure Committed.Since (earlier later : Committed G) : Prop where
  seen : ∀ key, earlier.seenVersion key ≤ later.seenVersion key ∧
    (earlier.seenVersion key = later.seenVersion key →
      later.db.seen.find? key = earlier.db.seen.find? key)
  consumed : ∀ outpoint, earlier.consumedVersion outpoint ≤ later.consumedVersion outpoint ∧
    (earlier.consumedVersion outpoint = later.consumedVersion outpoint →
      later.db.consumed.find? outpoint = earlier.db.consumed.find? outpoint)

theorem Committed.Since.refl (committed : Committed G) : committed.Since committed :=
  ⟨fun _ => ⟨Nat.le_refl _, fun _ => rfl⟩, fun _ => ⟨Nat.le_refl _, fun _ => rfl⟩⟩

theorem Committed.Since.trans {first second third : Committed G} (before : first.Since second)
    (after : second.Since third) : first.Since third := by
  constructor
  · intro key
    obtain ⟨le, same⟩ := before.seen key
    obtain ⟨le', same'⟩ := after.seen key
    refine ⟨Nat.le_trans le le', fun version => ?_⟩
    rw [same' (by omega), same (by omega)]
  · intro outpoint
    obtain ⟨le, same⟩ := before.consumed outpoint
    obtain ⟨le', same'⟩ := after.consumed outpoint
    refine ⟨Nat.le_trans le le', fun version => ?_⟩
    rw [same' (by omega), same (by omega)]

namespace ClientState

def seenChanged : ClientState G → List HonorKey
  | .active txn => txn.seenChanged
  | _ => []

def consumedChanged : ClientState G → List Outpoint
  | .active txn => txn.consumedChanged
  | _ => []

end ClientState

inductive Progress where
  | outside
  | unlocked
  | locked
  | gated
  | aborted
  deriving DecidableEq

def Progress.leads (at_ : Progress) (command : Command G) (reply : command.Reply)
    (after : Progress) : Prop :=
  match command, reply with
  | .begin, .ok _ => after = .unlocked
  | .begin, .error _ => after = at_
  | .arrive, _ => after = at_
  | .stmt (.lockSeen _ _ _), .ok count =>
      (count = 0 ∧ after = at_) ∨ (count = 1 ∧ after = .locked)
  | .stmt (.selectHonoredAt _), .ok _ => after = at_
  | .stmt (.insertConsumed _ _ _ _), .ok _ => after = .gated
  | .stmt (.promoteConsumed _ _ _), .ok count =>
      (count = 0 ∧ after = at_) ∨ (count = 1 ∧ after = .gated)
  | .stmt (.goods _), .ok _ => after = at_
  | .stmt (.sweepSeen _), .ok _ => after = at_
  | .stmt (.sweepOutpoints _), .ok _ => after = at_
  | .stmt (.lockSeen _ _ _), .error _ => after = .aborted
  | .stmt (.selectHonoredAt _), .error _ => after = .aborted
  | .stmt (.insertConsumed _ _ _ _), .error _ => after = .aborted
  | .stmt (.promoteConsumed _ _ _), .error _ => after = .aborted
  | .stmt (.goods _), .error _ => after = .aborted
  | .stmt (.sweepSeen _), .error _ => after = .aborted
  | .stmt (.sweepOutpoints _), .error _ => after = .aborted
  | .commit, _ => after = .outside
  | .rollback, _ => after = .outside

theorem Progress.leads_fail (at_ : Progress) (stmt : Stmt G) (e : Thrown) :
    at_.leads (.stmt stmt) (stmt.fail e) .aborted := by
  cases stmt <;> rfl

def transaction (input : HonorTxnInput G) : Protocol Progress (Command G) Command.Reply where
  may at_ command :=
    match command with
    | .begin => at_ = .outside
    | .arrive => at_ ≠ .outside
    | .stmt (.lockSeen key now outpoint) =>
        at_ = .unlocked ∧ key = input.key ∧ now = input.now ∧ outpoint = input.outpoint
    | .stmt (.selectHonoredAt _) => at_ = .unlocked
    | .stmt (.insertConsumed key outpoint now retainUntil) =>
        at_ = .locked ∧ input.mode = .single ∧ key = input.key ∧ outpoint = input.outpoint ∧
          now = input.now ∧ retainUntil = input.retainUntil
    | .stmt (.promoteConsumed outpoint now retainUntil) =>
        at_ = .locked ∧ input.mode = .promote ∧ outpoint = input.outpoint ∧ now = input.now ∧
          retainUntil = input.retainUntil
    | .stmt (.goods _) => at_ = .gated ∨ at_ = .aborted
    | .stmt (.sweepSeen _) => False
    | .stmt (.sweepOutpoints _) => False
    | .commit => at_ = .gated ∨ at_ = .aborted
    | .rollback => True
  moves := Progress.leads

section
variable {input : HonorTxnInput G}

theorem lockOrThrow_follows :
    (lockOrThrow input).Follows (transaction input) .unlocked fun result after =>
      result = .ok () → after = .locked := by
  refine ⟨nofun, ?_⟩
  rintro - at_ rfl
  refine Follows.bind (Follows.ask ⟨rfl, rfl, rfl, rfl⟩ ?_)
  rintro (error | count) after moves
  · exact nofun
  · rcases moves with ⟨rfl, rfl⟩ | ⟨rfl, rfl⟩
    · refine ⟨nofun, ?_⟩
      rintro - at_ rfl
      refine Follows.bind (Follows.ask rfl ?_)
      rintro (error | row) after moves
      · exact nofun
      · rcases row with _ | _ | _ <;> exact nofun
    · exact fun _ => rfl

theorem consumeOrThrow_follows :
    (consumeOrThrow input).Follows (transaction input) .locked fun result after =>
      result = .ok () → after = .gated := by
  unfold consumeOrThrow
  split
  next single =>
    refine Follows.handle ⟨nofun, ?_⟩
    rintro - at_ rfl
    refine Follows.ask ⟨rfl, single, rfl, rfl, rfl, rfl⟩ ?_
    rintro (error | done) after moves
    · exact nofun
    · exact fun _ => moves
  next promote =>
    refine ⟨nofun, ?_⟩
    rintro - at_ rfl
    refine Follows.bind (Follows.ask ⟨rfl, promote, rfl, rfl, rfl⟩ ?_)
    rintro (error | count) after moves
    · exact nofun
    · rcases moves with ⟨rfl, rfl⟩ | ⟨rfl, rfl⟩
      · exact nofun
      · exact fun _ => rfl

theorem gate_follows :
    (gate input).Follows (transaction input) .unlocked fun result after =>
      result = .ok () → after = .gated := by
  refine Follows.bind (lockOrThrow_follows.mono fun result after locked => ?_)
  cases result with
  | error error => exact nofun
  | ok _ =>
    rw [locked rfl]
    exact consumeOrThrow_follows

theorem rolledBack_follows (reply : TxnReply) (at_ : Progress) :
    (rolledBack reply).Follows (transaction input) at_ fun _ after => after = .outside :=
  ⟨trivial, fun _ _ moves => moves⟩

theorem deliver_follows {at_ : Progress} (within : at_ = .gated ∨ at_ = .aborted) :
    ((input.deliver input.ctx).interpret Client.goods).Follows (transaction input) at_
      fun _ after => after = .gated ∨ after = .aborted := by
  refine Follows.interpret (fun stmt before stays => ⟨?_, ?_⟩) within
  · rintro rfl
    cases stays <;> contradiction
  · rintro - at_ rfl
    refine ⟨stays, ?_⟩
    rintro (error | goods) after moves
    · exact .inr moves
    · rw [show after = _ from moves]
      exact stays

theorem deliverAndCommit_follows :
    (deliverAndCommit input).Follows (transaction input) .gated
      fun _ after => after = .outside := by
  refine Follows.bind (Follows.attempt ((deliver_follows (.inl rfl)).mono ?_))
  intro result at_ inside
  have commits (ended : DeliverEnd) : (commitOrRollback ended).Follows (transaction input) at_
      fun _ after => after = .outside := by
    refine ⟨inside, ?_⟩
    rintro (error | done) after moves
    · exact rolledBack_follows _ _
    · exact moves
  rcases result with error | ended
  · exact rolledBack_follows _ _
  · cases ended with
    | rejects error => exact rolledBack_follows _ _
    | value => exact commits _
    | resolves => exact commits _

theorem runHonorTxn_follows :
    (runHonorTxn input).Follows (transaction input) .outside fun _ after => after = .outside := by
  refine ⟨rfl, ?_⟩
  rintro (error | begun) at_ rfl
  · exact rfl
  · show ((gate input).attempt.bind _).Follows _ _ _
    refine Follows.bind (Follows.attempt (gate_follows.mono fun result after gated => ?_))
    cases result with
    | error error => exact rolledBack_follows _ _
    | ok _ =>
      rw [gated rfl]
      exact deliverAndCommit_follows

end

def taken (input : HonorTxnInput G) (consumed : ConsumedTable) : ConsumedTable :=
  match input.mode with
  | .single =>
      (insertConsumed consumed input.key input.outpoint input.now input.retainUntil).getD consumed
  | .promote => (promoteConsumed consumed input.outpoint input.now input.retainUntil).1

def Takes (input : HonorTxnInput G) (row : Option ConsumedRow) : Prop :=
  match input.mode with
  | .single => row = none
  | .promote => ∃ pending, row = some pending ∧ pending.state = .claimPending

def lockedOpen (input : HonorTxnInput G) (snapshot : Committed G) : Open G :=
  (Open.fresh snapshot).changeSeen input.key fun seen =>
    (lockSeen seen input.key input.now input.outpoint).1

/-- The client's transaction at each point of its progress: what its COMMIT will change, and what it
relies on in the rows it has changed. -/
inductive Holding (committed : Committed G) (input : HonorTxnInput G) :
    Progress → ClientState G → Prop
  | outside : Holding committed input .outside .idle
  | begun : Holding committed input .unlocked .begun
  | unlocked {snapshot} (since : snapshot.Since committed) :
      Holding committed input .unlocked (.active (.fresh snapshot))
  | locked {snapshot row} (since : snapshot.Since committed)
      (found : committed.db.seen.find? input.key = some row) (lockable : Lockable input.now row) :
      Holding committed input .locked (.active (lockedOpen input snapshot))
  | gated {txn row} (seen : txn.seenChanged = [input.key])
      (consumed : txn.consumedChanged = [input.outpoint])
      (found : committed.db.seen.find? input.key = some row) (lockable : Lockable input.now row)
      (takes : Takes input (committed.db.consumed.find? input.outpoint))
      (redo : ∀ db, (txn.redo db).seen = (lockSeen db.seen input.key input.now input.outpoint).1 ∧
        (txn.redo db).consumed = taken input db.consumed) :
      Holding committed input .gated (.active txn)
  | aborted : Holding committed input .aborted .failed

section
variable {committed committed' : Committed G} {input : HonorTxnInput G} {at_ : Progress}
  {state : ClientState G}

theorem gateConsumed_taken {consumed : ConsumedTable}
    (takes : Takes input (consumed.find? input.outpoint)) :
    gateConsumed PostgresStore.driver consumed input = .ok (taken input consumed) := by
  unfold Takes at takes
  cases hmode : input.mode with
  | single =>
    simp only [hmode] at takes
    obtain ⟨inserted, hinsert⟩ : ∃ inserted, insertConsumed consumed input.key input.outpoint
        input.now input.retainUntil = some inserted :=
      Option.ne_none_iff_exists'.1 fun h => Table.insert?_eq_none_iff.1 h takes
    simp only [gateConsumed, taken, hmode, hinsert, Option.getD_some]
  | promote =>
    simp only [hmode] at takes
    obtain ⟨pending, found, state⟩ := takes
    have one : (promoteConsumed consumed input.outpoint input.now input.retainUntil).2 = 1 := by
      rw [promoteConsumed_changes, found]
      simp [state]
    simp only [gateConsumed, taken, hmode]
    exact if_neg (not_not.2 one)

theorem Holding.frame (holding : Holding committed input at_ state)
    (since : committed.Since committed')
    (seen : ∀ key ∈ state.seenChanged,
      committed'.db.seen.find? key = committed.db.seen.find? key)
    (consumed : ∀ outpoint ∈ state.consumedChanged,
      committed'.db.consumed.find? outpoint = committed.db.consumed.find? outpoint) :
    Holding committed' input at_ state := by
  cases holding with
  | outside => exact .outside
  | begun => exact .begun
  | unlocked before => exact .unlocked (before.trans since)
  | locked before found lockable =>
    refine .locked (before.trans since) ?_ lockable
    rw [seen input.key (List.mem_singleton_self _), found]
  | gated hseen hconsumed found lockable takes redo =>
    simp only [ClientState.seenChanged, hseen] at seen
    simp only [ClientState.consumedChanged, hconsumed] at consumed
    refine .gated hseen hconsumed ?_ lockable ?_ redo
    · rw [seen input.key (List.mem_singleton_self _), found]
    · rw [consumed input.outpoint (List.mem_singleton_self _)]
      exact takes
  | aborted => exact .aborted

theorem Holding.arrive (holding : Holding committed input at_ state) (inside : at_ ≠ .outside) :
    Holding committed input at_ (state.arrive committed) ∧
      ((∃ txn, state.arrive committed = .active txn) ∨
        at_ = .aborted ∧ state.arrive committed = .failed) := by
  cases holding with
  | outside => exact absurd rfl inside
  | begun => exact ⟨.unlocked (.refl committed), .inl ⟨_, rfl⟩⟩
  | unlocked since => exact ⟨.unlocked since, .inl ⟨_, rfl⟩⟩
  | locked since found lockable => exact ⟨.locked since found lockable, .inl ⟨_, rfl⟩⟩
  | gated seen consumed found lockable takes redo =>
    exact ⟨.gated seen consumed found lockable takes redo, .inl ⟨_, rfl⟩⟩
  | aborted => exact ⟨.aborted, .inr ⟨rfl, rfl⟩⟩

theorem Holding.exec {txn : Open G} {stmt : Stmt G}
    (holding : Holding committed input at_ (.active txn))
    (may : (transaction input).may at_ (.stmt stmt)) :
    ∃ after, (transaction input).moves at_ (.stmt stmt) (txn.exec committed stmt).1 after ∧
      Holding committed input after (txn.exec committed stmt).2 := by
  cases stmt with
  | lockSeen key now outpoint =>
    obtain ⟨rfl, rfl, rfl, rfl⟩ := may
    cases holding with
    | @unlocked snapshot since =>
      simp only [Open.exec]
      split
      next none => exact ⟨.unlocked, .inl ⟨rfl, rfl⟩, .unlocked since⟩
      next some =>
        split
        next => exact ⟨.aborted, rfl, .aborted⟩
        next version =>
          obtain ⟨one, row, found, lockable⟩ := exists_of_lockSeen some
          refine ⟨.locked, .inr ⟨one, rfl⟩, .locked since ?_ lockable⟩
          rw [(since.seen input.key).2 (not_not.1 version).symm]
          exact found
  | selectHonoredAt key =>
    obtain rfl : at_ = .unlocked := may
    exact ⟨.unlocked, rfl, holding⟩
  | insertConsumed key outpoint now retainUntil =>
    obtain ⟨rfl, single, rfl, rfl, rfl, rfl⟩ := may
    cases holding with
    | @locked snapshot row since found lockable =>
      simp only [Open.exec]
      split
      next => exact ⟨.aborted, rfl, .aborted⟩
      next inserted =>
        have free : committed.db.consumed.find? input.outpoint = none :=
          (Table.insert?_eq_some_iff.1 inserted).1
        refine ⟨.gated, rfl, .gated rfl rfl found lockable ?_ fun db => ⟨rfl, ?_⟩⟩
        · simpa [Takes, single] using free
        · simp [Open.changeConsumed, taken, single, lockedOpen, Open.changeSeen, Open.fresh]
  | promoteConsumed outpoint now retainUntil =>
    obtain ⟨rfl, promote, rfl, rfl, rfl⟩ := may
    cases holding with
    | @locked snapshot row since found lockable =>
      simp only [Open.exec]
      split
      next none => exact ⟨.locked, .inl ⟨rfl, rfl⟩, .locked since found lockable⟩
      next some =>
        split
        next => exact ⟨.aborted, rfl, .aborted⟩
        next version =>
          obtain ⟨one, pending, there, state⟩ := exists_of_promoteConsumed some
          refine ⟨.gated, .inr ⟨one, rfl⟩, .gated rfl rfl found lockable ?_ fun db => ⟨rfl, ?_⟩⟩
          · simp only [Takes, promote]
            rw [(since.consumed input.outpoint).2 (not_not.1 version).symm]
            exact ⟨pending, there, state⟩
          · simp [Open.changeConsumed, taken, promote, lockedOpen, Open.changeSeen, Open.fresh]
  | goods stmt =>
    rcases may with rfl | rfl
    · cases holding with
      | gated seen consumed found lockable takes redo =>
        simp only [Open.exec]
        split
        · exact ⟨.aborted, rfl, .aborted⟩
        · exact ⟨.gated, rfl, .gated seen consumed found lockable takes redo⟩
    · cases holding
  | sweepSeen now => cases may
  | sweepOutpoints now => cases may

theorem Holding.execute {command : Command G} (holding : Holding committed input at_ state)
    (may : (transaction input).may at_ command) (notCommit : command ≠ .commit) :
    ∃ after, (transaction input).moves at_ command (execute committed state command).1 after ∧
      Holding committed input after (execute committed state command).2.2 := by
  cases command with
  | begin =>
    obtain rfl : at_ = .outside := may
    cases holding
    exact ⟨.unlocked, rfl, .begun⟩
  | arrive => exact ⟨at_, rfl, (holding.arrive may).1⟩
  | stmt stmt =>
    have inside : at_ ≠ .outside := by
      rintro rfl
      cases stmt <;> simp [transaction] at may
    obtain ⟨arrived, ⟨txn, active⟩ | ⟨rfl, failed⟩⟩ := holding.arrive inside
    · rw [active] at arrived
      simp only [PostgresServer.execute, active]
      exact arrived.exec may
    · simp only [PostgresServer.execute, failed]
      exact ⟨.aborted, Progress.leads_fail _ stmt _, .aborted⟩
  | commit => exact absurd rfl notCommit
  | rollback => exact ⟨.outside, rfl, .outside⟩

/-- COMMIT of a transaction that no statement has aborted makes the writes of the gate, as the store
would make them in one step on what is committed by then. -/
theorem Holding.commit {txn : Open G} (holding : Holding committed input at_ (.active txn))
    (may : (transaction input).may at_ .commit) :
    (∃ gated, gateWrites PostgresStore.driver committed.db input = .ok gated ∧
      (txn.commit committed).db.seen = gated.seen ∧
      (txn.commit committed).db.consumed = gated.consumed) ∧
    txn.seenChanged = [input.key] ∧ txn.consumedChanged = [input.outpoint] := by
  rcases may with rfl | rfl
  · cases holding with
    | gated seen consumed found lockable takes redo =>
      obtain ⟨hseen, hconsumed⟩ := redo committed.db
      refine ⟨⟨_, gateWrites_eq_ok_iff.2 ⟨_, _, gateSeen_lockable found lockable,
        gateConsumed_taken takes, rfl⟩, hseen, hconsumed⟩, seen, consumed⟩
  · cases holding

end

end PostgresServer
end ExferHonor
