import ExferHonor.Adapters.Store
import Mathlib.Logic.Relation

/-! Who put a consumed outpoint in state `honored`, and which quote its row names. -/
namespace ExferHonor
namespace Store
open Effects Relational Statements

variable {G : Type}

/-- A database with a note beside each outpoint: the quote whose honor transaction last put the
outpoint's row in state `honored`. -/
structure Audited (G : Type) where
  db : Db G
  honoredBy : Outpoint → Option HonorKey

def isHonored (db : Db G) (outpoint : Outpoint) : Bool :=
  (db.consumed.find? outpoint).any fun row => decide (row.state = .honored)

def noteHonor (honoredBy : Outpoint → Option HonorKey) (op : Op G) (before after : Db G) :
    Outpoint → Option HonorKey :=
  match op with
  | .runHonorTxn input => fun outpoint =>
      if !isHonored before outpoint && isHonored after outpoint then some input.key
      else honoredBy outpoint
  | _ => honoredBy

def Audited.call (model : TxnModel) (state : Audited G) (op : Op G) (answer : op.Reply) :
    Audited G :=
  let after := (perform model state.db op answer).2
  ⟨after, noteHonor state.honoredBy op state.db after⟩

def Audited.empty (goods : G) : Audited G := ⟨Db.empty goods, fun _ => none⟩

def AuditedCalls (model : TxnModel) (permits : Db G → Op G → Prop)
    (before after : Audited G) : Prop :=
  ∃ op answer, permits before.db op ∧ after = before.call model op answer

def NamesHonorer (state : Audited G) : Prop :=
  ∀ outpoint row, state.db.consumed.find? outpoint = some row → row.state = .honored →
    state.honoredBy outpoint = some row.key

/-- A promotion for a SEEN row that can be locked finds no reservation of another quote at its
outpoint. -/
def PromotesOwn (db : Db G) : Op G → Prop
  | .runHonorTxn input => input.mode = .promote →
      (∃ row, db.seen.find? input.key = some row ∧ Lockable input.now row) →
      ∀ row, db.consumed.find? input.outpoint = some row → row.state = .claimPending →
        row.key = input.key
  | _ => True

theorem honored_row_of_change {model : TxnModel} {db after : Db G} {op : Op G}
    (change : Change model db op after) {outpoint : Outpoint} {row : ConsumedRow}
    (found : after.consumed.find? outpoint = some row) (honored : row.state = .honored) :
    db.consumed.find? outpoint = some row ∨
      ∃ input, op = .runHonorTxn input ∧ outpoint = input.outpoint ∧
        (∃ seen, db.seen.find? input.key = some seen ∧ Lockable input.now seen) ∧
        HonoredRow input (db.consumed.find? outpoint) row := by
  cases change with
  | same => exact .inl found
  | accepted => exact .inl found
  | observed => exact .inl found
  | @reserved key reserved claimTxId now =>
    rw [find?_reserveClaim] at found
    split at found
    next hsame =>
      subst hsame
      cases hbefore : db.consumed.find? reserved with
      | none =>
        rw [hbefore] at found
        cases found
        contradiction
      | some old =>
        rw [hbefore] at found
        exact .inl found
    next => exact .inl found
  | @honored input gated goods passed =>
    obtain ⟨⟨seen, hseen, lockable, -⟩, ⟨new, hnew, hrows⟩, -⟩ := gateWrites_ok passed
    rw [show _ = _ from hrows outpoint] at found
    split at found
    next hsame =>
      subst hsame
      cases found
      exact .inr ⟨input, rfl, rfl, ⟨seen, hseen, lockable⟩, hnew⟩
    next => exact .inl found
  | swept =>
    rw [sweep, find?_sweepOutpoints, Option.filter_eq_some_iff] at found
    exact .inl found.1

theorem NamesHonorer.step {model : TxnModel} {before after : Audited G}
    (names : NamesHonorer before) (call : AuditedCalls model PromotesOwn before after) :
    NamesHonorer after := by
  obtain ⟨op, answer, permitted, rfl⟩ := call
  intro outpoint row found honored
  have hafter : isHonored (perform model before.db op answer).2 outpoint = true := by
    simp only [Audited.call] at found
    simp [isHonored, found, honored]
  rcases honored_row_of_change (perform_change model before.db op answer) found honored with
    hkept | ⟨input, rfl, rfl, hlockable, hnew⟩
  · have hbefore : isHonored before.db outpoint = true := by simp [isHonored, hkept, honored]
    have hnote : (before.call model op answer).honoredBy outpoint = before.honoredBy outpoint := by
      unfold Audited.call noteHonor
      cases op <;> simp [hbefore]
    rw [hnote]
    exact names outpoint row hkept honored
  · have hbefore : isHonored before.db input.outpoint = false := by
      cases hold : before.db.consumed.find? input.outpoint with
      | none => simp [isHonored, hold]
      | some old => simp [isHonored, hold, hnew.before_state old hold]
    have hkey : row.key = input.key := by
      cases hold : before.db.consumed.find? input.outpoint with
      | none =>
        rw [hold] at hnew
        cases hnew
        rfl
      | some pending =>
        rw [hold] at hnew
        cases hnew with
        | promoted mode state _ => exact permitted mode hlockable pending hold state
    rw [hkey]
    simp [Audited.call, noteHonor, hbefore, hafter]

/-- In every run from empty tables in which each promotion finds its own reservation. -/
theorem promoted_by_owner (model : TxnModel) (goods : G) (state : Audited G)
    (run : Relation.ReflTransGen (AuditedCalls model PromotesOwn) (Audited.empty goods) state) :
    NamesHonorer state := by
  induction run with
  | refl =>
    intro outpoint row found
    simp [Audited.empty, Db.empty] at found
  | tail _ call names => exact names.step call

/-! A lock reserved for one quote and promoted for another. -/

def otherQuote : AcceptedQuote :=
  { sampleQuote with quoteId := "f0f1f2f3f4f5f6f7f8f9fafbfcfdfeff", form := .htlc }

def sampleLock : Outpoint := ⟨"01", 0⟩

def promoteTxn (key : HonorKey) : HonorTxnInput Unit where
  key := key
  candidate := ⟨.htlc, key.quoteId, "01", 0, 500, "ee", some 90, true⟩
  outpoint := sampleLock
  now := 20
  retainUntil := 4600
  mode := .promote
  deliver _ := .pure .resolves

def promoteCalls (quote : AcceptedQuote) : List ((op : Op Unit) × op.Reply) :=
  [⟨.upsertAccepted quote 10 4600, .ok ()⟩,
    ⟨.reserveClaimOutpoint sampleQuote.key sampleLock "c0" 10, .ok ()⟩,
    ⟨.runHonorTxn (promoteTxn quote.key), ⟨none, .ok ()⟩⟩]

def afterCalls (model : TxnModel) (calls : List ((op : Op Unit) × op.Reply)) : Audited Unit :=
  calls.foldl (fun state call => state.call model call.1 call.2) (Audited.empty ())

theorem promoted_by_stranger :
    Relation.ReflTransGen (AuditedCalls .async fun _ _ => True) (Audited.empty ())
      (afterCalls .async (promoteCalls otherQuote)) ∧
    (afterCalls .async (promoteCalls otherQuote)).honoredBy sampleLock = some otherQuote.key ∧
    ∃ row, (afterCalls .async (promoteCalls otherQuote)).db.consumed.find? sampleLock =
      some row ∧ row.state = .honored ∧ row.key = sampleQuote.key ∧
      sampleQuote.key ≠ otherQuote.key := by
  refine ⟨?_, rfl, _, rfl, rfl, rfl, by decide⟩
  refine .tail (.tail (.single ⟨_, _, trivial, rfl⟩) ⟨_, _, trivial, rfl⟩) ⟨_, _, trivial, rfl⟩

theorem promoted_by_owner_own :
    NamesHonorer (afterCalls .async (promoteCalls sampleQuote)) ∧
    (afterCalls .async (promoteCalls sampleQuote)).honoredBy sampleLock =
      some sampleQuote.key := by
  refine ⟨promoted_by_owner .async () _ ?_, rfl⟩
  refine .tail (.tail (.single
    ⟨.upsertAccepted sampleQuote 10 4600, .ok (), trivial, rfl⟩)
    ⟨.reserveClaimOutpoint sampleQuote.key sampleLock "c0" 10, .ok (), trivial, rfl⟩)
    ⟨.runHonorTxn (promoteTxn sampleQuote.key), ⟨none, .ok ()⟩, ?_, rfl⟩
  intro mode hlockable row hrow state
  cases hrow
  rfl

end Store
end ExferHonor
