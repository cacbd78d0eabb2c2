import ExferHonor.Adapters.Store
import Mathlib.Logic.Relation

/-! The two gate tables tell one story: the honored SEEN rows and the honored consumed
outpoints are the same settlements, each with the same times. -/
namespace ExferHonor
namespace Store
open Effects Relational Statements

variable {G : Type}

def SeenHonor (db : Db G) (key : HonorKey) (outpoint : Outpoint) (at_ retainUntil : Int) : Prop :=
  ∃ row, db.seen.find? key = some row ∧ row.honoredAt = some at_ ∧
    row.honoredOutpoint = some outpoint ∧ row.retainUntil = retainUntil

def ConsumedHonor (db : Db G) (outpoint : Outpoint) (at_ : Option Int) (retainUntil : Int) :
    Prop :=
  ∃ row, db.consumed.find? outpoint = some row ∧ row.state = .honored ∧ row.honoredAt = at_ ∧
    row.retainUntil = retainUntil

structure Linked (db : Db G) : Prop where
  together : ∀ key row, db.seen.find? key = some row →
    (row.honoredAt ≠ none ↔ row.honoredOutpoint ≠ none)
  consumed : ∀ key outpoint at_ retainUntil, SeenHonor db key outpoint at_ retainUntil →
    ConsumedHonor db outpoint (some at_) retainUntil
  live : ∀ outpoint at_ retainUntil, ConsumedHonor db outpoint at_ retainUntil →
    ∃ key at' retain', SeenHonor db key outpoint at' retain'
  distinct : ∀ key key' outpoint at_ at' retain retain', SeenHonor db key outpoint at_ retain →
    SeenHonor db key' outpoint at' retain' → key = key'

/-- As the engine does, the honor transaction is given the retention time of the key's row. -/
def RetainsAsSeen (db : Db G) : Op G → Prop
  | .runHonorTxn input => ∀ row, db.seen.find? input.key = some row →
      input.retainUntil = row.retainUntil
  | _ => True

def Calls (model : TxnModel) (permits : Db G → Op G → Prop) (before after : Db G) : Prop :=
  ∃ op answer, permits before op ∧ after = (perform model before op answer).2

theorem linked_empty (goods : G) : Linked (Db.empty goods) where
  together key row h := by simp [Db.empty] at h
  consumed key outpoint at_ retainUntil h := by simp [SeenHonor, Db.empty] at h
  live outpoint at_ retainUntil h := by simp [ConsumedHonor, Db.empty] at h
  distinct key key' outpoint at_ at' retain retain' h := by simp [SeenHonor, Db.empty] at h

theorem Linked.of_same {db after : Db G} (linked : Linked db)
    (together : ∀ key row, after.seen.find? key = some row →
      (row.honoredAt ≠ none ↔ row.honoredOutpoint ≠ none))
    (seen : ∀ key outpoint at_ retainUntil,
      SeenHonor after key outpoint at_ retainUntil ↔ SeenHonor db key outpoint at_ retainUntil)
    (consumed : ∀ outpoint at_ retainUntil,
      ConsumedHonor after outpoint at_ retainUntil ↔ ConsumedHonor db outpoint at_ retainUntil) :
    Linked after where
  together := together
  consumed key outpoint at_ retainUntil h :=
    (consumed _ _ _).2 (linked.consumed _ _ _ _ ((seen _ _ _ _).1 h))
  live outpoint at_ retainUntil h := by
    obtain ⟨key, at', retain', hseen⟩ := linked.live _ _ _ ((consumed _ _ _).1 h)
    exact ⟨key, at', retain', (seen _ _ _ _).2 hseen⟩
  distinct key key' outpoint at_ at' retain retain' h h' :=
    linked.distinct _ _ _ _ _ _ _ ((seen _ _ _ _).1 h) ((seen _ _ _ _).1 h')

theorem Linked.accepted {db : Db G} (linked : Linked db) (quote : AcceptedQuote)
    (acceptedAt retainUntil : Int) :
    Linked { db with seen := upsertAccepted db.seen quote acceptedAt retainUntil } := by
  refine linked.of_same ?_ ?_ fun _ _ _ => Iff.rfl
  · intro key row h
    rw [find?_upsertAccepted] at h
    split at h
    next =>
      cases hfound : db.seen.find? key with
      | none =>
        rw [hfound] at h
        cases h
        simp [acceptedRow, SeenRowSql.honoredOutpoint]
      | some old =>
        rw [hfound] at h
        cases h
        exact linked.together key old hfound
    next => exact linked.together key row h
  · intro key outpoint at_ retain
    simp only [SeenHonor, find?_upsertAccepted]
    split
    next =>
      cases hfound : db.seen.find? key with
      | none => simp [acceptedRow]
      | some old => simp
    next => rfl

theorem Linked.observed {db : Db G} (linked : Linked db) (observedKey : HonorKey) (now : Int) :
    Linked { db with seen := markObserved db.seen observedKey now } := by
  refine linked.of_same ?_ ?_ fun _ _ _ => Iff.rfl
  · intro key row h
    rw [find?_markObserved, Option.map_eq_some_iff] at h
    obtain ⟨old, hold, rfl⟩ := h
    split
    · exact linked.together key old hold
    · exact linked.together key old hold
  · intro key outpoint at_ retain
    simp only [SeenHonor, find?_markObserved]
    cases hfound : db.seen.find? key with
    | none => simp
    | some old =>
      simp only [Option.map_some, Option.some.injEq, exists_eq_left']
      split <;> rfl

theorem Linked.reserved {db : Db G} (linked : Linked db) (key : HonorKey) (outpoint : Outpoint)
    (claimTxId : Hex) :
    Linked { db with consumed := reserveClaim db.consumed key outpoint claimTxId } := by
  refine linked.of_same linked.together (fun _ _ _ _ => Iff.rfl) fun o at_ retain => ?_
  simp only [ConsumedHonor, find?_reserveClaim]
  split
  next =>
    cases hfound : db.consumed.find? o with
    | none => simp [reservedRow]
    | some old => simp
  next => rfl

theorem ConsumedHonor.unique {db : Db G} {outpoint : Outpoint} {at_ at' : Option Int}
    {retain retain' : Int} (h : ConsumedHonor db outpoint at_ retain)
    (h' : ConsumedHonor db outpoint at' retain') : at_ = at' ∧ retain = retain' := by
  obtain ⟨row, hrow, -, hat, hretain⟩ := h
  obtain ⟨row', hrow', -, hat', hretain'⟩ := h'
  obtain rfl : row = row' := Option.some.inj (hrow.symm.trans hrow')
  exact ⟨hat.symm.trans hat', hretain.symm.trans hretain'⟩

section
variable {driver : Driver} {db gated : Db G} {input : HonorTxnInput G}

theorem seenHonor_gated (passed : gateWrites driver db input = .ok gated) (key : HonorKey)
    (outpoint : Outpoint) (at_ retain : Int) :
    SeenHonor gated key outpoint at_ retain ↔
      (key = input.key ∧ outpoint = input.outpoint ∧ at_ = input.now ∧
        ∃ row, db.seen.find? key = some row ∧ row.retainUntil = retain) ∨
      SeenHonor db key outpoint at_ retain := by
  obtain ⟨⟨row, hrow, lockable, hseen⟩, -, -⟩ := gateWrites_ok passed
  simp only [SeenHonor, hseen]
  by_cases hkey : key = input.key
  · subst hkey
    simp only [if_true, Option.some.injEq, exists_eq_left', hrow, lockable.1, true_and,
      reduceCtorEq, false_and, or_false]
    constructor
    · rintro ⟨hat, houtpoint, hretain⟩
      exact ⟨(Option.some.inj houtpoint).symm, (Option.some.inj hat).symm, hretain⟩
    · rintro ⟨rfl, rfl, hretain⟩
      exact ⟨rfl, rfl, hretain⟩
  · simp [hkey]

theorem consumedHonor_gated (passed : gateWrites driver db input = .ok gated)
    (outpoint : Outpoint) (at_ : Option Int) (retain : Int) :
    ConsumedHonor gated outpoint at_ retain ↔
      (outpoint = input.outpoint ∧ at_ = some input.now ∧ retain = input.retainUntil) ∨
      ConsumedHonor db outpoint at_ retain := by
  obtain ⟨-, ⟨row, honored, hconsumed⟩, -⟩ := gateWrites_ok passed
  simp only [ConsumedHonor, hconsumed]
  by_cases houtpoint : outpoint = input.outpoint
  · subst houtpoint
    have hbefore : ¬ ∃ old, db.consumed.find? input.outpoint = some old ∧ old.state = .honored ∧
        old.honoredAt = at_ ∧ old.retainUntil = retain := by
      rintro ⟨old, hold, hstate, -⟩
      rw [honored.before_state old hold] at hstate
      contradiction
    simp only [if_true, Option.some.injEq, exists_eq_left', honored.state, honored.honoredAt,
      honored.retainUntil, true_and, hbefore, or_false]
    simp only [eq_comm]
  · simp [houtpoint]

end

theorem Linked.honored {model : TxnModel} {db gated : Db G} {input : HonorTxnInput G}
    (linked : Linked db) (passed : gateWrites (driver model) db input = .ok gated)
    (retains : RetainsAsSeen db (.runHonorTxn input)) (goods : G) :
    Linked { gated with goods := goods } := by
  have hfresh : ∀ at_ retain, ¬ ConsumedHonor db input.outpoint at_ retain := by
    obtain ⟨-, ⟨row, honored, -⟩, -⟩ := gateWrites_ok passed
    rintro at_ retain ⟨old, hold, hstate, -⟩
    rw [honored.before_state old hold] at hstate
    contradiction
  have hseen := seenHonor_gated passed
  have hconsumed := consumedHonor_gated passed
  constructor
  · obtain ⟨⟨row, hrow, -, hrows⟩, -, -⟩ := gateWrites_ok passed
    intro key after h
    rw [hrows] at h
    split at h
    next =>
      cases h
      simp [lockedRow, SeenRowSql.honoredOutpoint]
    next => exact linked.together key after h
  · intro key outpoint at_ retain h
    rcases (hseen _ _ _ _).1 h with ⟨rfl, rfl, rfl, row, hrow, rfl⟩ | hbefore
    · exact (hconsumed _ _ _).2 (.inl ⟨rfl, rfl, (retains row hrow).symm⟩)
    · exact (hconsumed _ _ _).2 (.inr (linked.consumed _ _ _ _ hbefore))
  · intro outpoint at_ retain h
    rcases (hconsumed _ _ _).1 h with ⟨rfl, rfl, rfl⟩ | hbefore
    · obtain ⟨⟨row, hrow, -, -⟩, -, -⟩ := gateWrites_ok passed
      exact ⟨input.key, input.now, row.retainUntil,
        (hseen _ _ _ _).2 (.inl ⟨rfl, rfl, rfl, row, hrow, rfl⟩)⟩
    · obtain ⟨key, at', retain', hlive⟩ := linked.live _ _ _ hbefore
      exact ⟨key, at', retain', (hseen _ _ _ _).2 (.inr hlive)⟩
  · intro key key' outpoint at_ at' retain retain' h h'
    rcases (hseen _ _ _ _).1 h with ⟨rfl, rfl, -⟩ | hbefore
    · rcases (hseen _ _ _ _).1 h' with ⟨rfl, -⟩ | hbefore'
      · rfl
      · exact absurd (linked.consumed _ _ _ _ hbefore') (hfresh _ _)
    · rcases (hseen _ _ _ _).1 h' with ⟨rfl, rfl, -⟩ | hbefore'
      · exact absurd (linked.consumed _ _ _ _ hbefore) (hfresh _ _)
      · exact linked.distinct _ _ _ _ _ _ _ hbefore hbefore'

theorem seenHonor_swept (db : Db G) (now : Int) (key : HonorKey) (outpoint : Outpoint)
    (at_ retain : Int) :
    SeenHonor (sweep db now).2 key outpoint at_ retain ↔
      SeenHonor db key outpoint at_ retain ∧ now ≤ retain := by
  simp only [SeenHonor, sweep, find?_sweepSeen, Option.filter_eq_some_iff]
  constructor
  · rintro ⟨row, ⟨hrow, hkept⟩, hat, houtpoint, rfl⟩
    exact ⟨⟨row, hrow, hat, houtpoint, rfl⟩, by simpa using hkept⟩
  · rintro ⟨⟨row, hrow, hat, houtpoint, rfl⟩, hkept⟩
    exact ⟨row, ⟨hrow, by simpa using hkept⟩, hat, houtpoint, rfl⟩

theorem consumedHonor_swept (db : Db G) (now : Int) (outpoint : Outpoint) (at_ : Option Int)
    (retain : Int) :
    ConsumedHonor (sweep db now).2 outpoint at_ retain ↔
      ConsumedHonor db outpoint at_ retain ∧ now ≤ retain := by
  simp only [ConsumedHonor, sweep, find?_sweepOutpoints, Option.filter_eq_some_iff]
  constructor
  · rintro ⟨row, ⟨hrow, hkept⟩, hstate, hat, rfl⟩
    exact ⟨⟨row, hrow, hstate, hat, rfl⟩, by simpa using hkept⟩
  · rintro ⟨⟨row, hrow, hstate, hat, rfl⟩, hkept⟩
    exact ⟨row, ⟨hrow, by simpa using hkept⟩, hstate, hat, rfl⟩

/-- Sweeping keeps the tables linked because linked rows expire together. -/
theorem Linked.swept {db : Db G} (linked : Linked db) (now : Int) :
    Linked (sweep db now).2 where
  together key row h := by
    simp only [sweep, find?_sweepSeen, Option.filter_eq_some_iff] at h
    exact linked.together key row h.1
  consumed key outpoint at_ retain h := by
    obtain ⟨hseen, hkept⟩ := (seenHonor_swept _ _ _ _ _ _).1 h
    exact (consumedHonor_swept _ _ _ _ _).2 ⟨linked.consumed _ _ _ _ hseen, hkept⟩
  live outpoint at_ retain h := by
    obtain ⟨hconsumed, hkept⟩ := (consumedHonor_swept _ _ _ _ _).1 h
    obtain ⟨key, at', retain', hseen⟩ := linked.live _ _ _ hconsumed
    obtain ⟨-, rfl⟩ := (linked.consumed _ _ _ _ hseen).unique hconsumed
    exact ⟨key, at', retain', (seenHonor_swept _ _ _ _ _ _).2 ⟨hseen, hkept⟩⟩
  distinct key key' outpoint at_ at' retain retain' h h' :=
    linked.distinct _ _ _ _ _ _ _ ((seenHonor_swept _ _ _ _ _ _).1 h).1
      ((seenHonor_swept _ _ _ _ _ _).1 h').1

theorem Linked.step {model : TxnModel} {db after : Db G} (linked : Linked db)
    (call : Calls model RetainsAsSeen db after) : Linked after := by
  obtain ⟨op, answer, permitted, rfl⟩ := call
  have change := perform_change model db op answer
  generalize (perform model db op answer).2 = after at change
  cases change with
  | same => exact linked
  | accepted => exact linked.accepted _ _ _
  | observed => exact linked.observed _ _
  | reserved => exact linked.reserved _ _ _
  | honored passed => exact linked.honored passed permitted _
  | swept => exact linked.swept _

theorem gate_tables_linked (model : TxnModel) (goods : G) (db : Db G)
    (run : Relation.ReflTransGen (Calls model RetainsAsSeen) (Db.empty goods) db) :
    Linked db := by
  induction run with
  | refl => exact linked_empty goods
  | tail _ call linked => exact linked.step call

/-! One quote registered and honored on either store. -/

def sampleTxn : HonorTxnInput Unit where
  key := sampleQuote.key
  candidate := ⟨.plain, sampleQuote.quoteId, "01", 0, 500, "ee", some 90, true⟩
  outpoint := ⟨"01", 0⟩
  now := 20
  retainUntil := 4600
  mode := .single
  deliver _ := .pure .value

def registeredDb (model : TxnModel) : Db Unit :=
  (perform model (Db.empty ()) (.upsertAccepted sampleQuote 10 4600) (.ok ())).2

def sampleRow : SeenRowSql := acceptedRow sampleQuote 10 4600

def honoredDb (model : TxnModel) : Db Unit :=
  (perform model (registeredDb model) (.runHonorTxn sampleTxn) ⟨none, .ok ()⟩).2

theorem gate_tables_linked_honoredDb :
    SeenHonor (honoredDb .sync) sampleQuote.key ⟨"01", 0⟩ 20 4600 ∧ Linked (honoredDb .sync) ∧
      Linked (honoredDb .async) := by
  have run (model : TxnModel) : Relation.ReflTransGen (Calls model RetainsAsSeen)
      (Db.empty ()) (honoredDb model) :=
    (Relation.ReflTransGen.single
      ⟨.upsertAccepted sampleQuote 10 4600, .ok (), trivial, rfl⟩).tail
      ⟨.runHonorTxn sampleTxn, ⟨none, .ok ()⟩, fun row hrow => by cases hrow; rfl, rfl⟩
  refine ⟨⟨_, rfl, rfl, rfl, rfl⟩, ?_, ?_⟩
  · exact gate_tables_linked .sync () _ (run .sync)
  · exact gate_tables_linked .async () _ (run .async)

end Store
end ExferHonor
