import ExferHonor.Merchant.Shop
import Mathlib.Data.List.Induction
import Mathlib.Data.List.TakeWhile

/-! What the service has sold: its tables tell the orders placed and the deliveries committed, and a
buyer is told of a key exactly when the call that waits for the payment has sold one. -/
namespace ExferHonor
namespace Merchant
open Effects Relational Store

inductive Entry where
  | placed (quoteId : QuoteId) (sku : String) (credits : Int)
  | sold (quoteId : QuoteId) (honoredAt : Int)

def sale : ShopCall → Option (HonorTxnInput Tables)
  | ⟨.port op, reply⟩ => committed ⟨op, reply⟩
  | _ => none

def entry : ShopCall → Option Entry
  | ⟨.port op, reply⟩ => (committed ⟨op, reply⟩).map fun input =>
      .sold input.key.quoteId input.now
  | ⟨.insertOrder quoteId sku credits, .ok _⟩ => some (.placed quoteId sku credits)
  | _ => none

def entries (pool : ShopPool) : List Entry := pool.log.filterMap fun event => entry event.call

namespace Entry

def order (quoteId : QuoteId) : Entry → Option OrderRow
  | .placed other sku credits =>
      if other = quoteId then some ⟨quoteId, sku, credits, .pending, none⟩ else none
  | .sold _ _ => none

def soldAt (quoteId : QuoteId) : Entry → Option Int
  | .placed _ _ _ => none
  | .sold other honoredAt => if other = quoteId then some honoredAt else none

end Entry

def OrderRow.sold (order : OrderRow) : Option Int → OrderRow
  | none => order
  | some honoredAt => order.fulfil honoredAt

@[simp] theorem OrderRow.sold_none (order : OrderRow) : order.sold none = order := rfl

@[simp] theorem OrderRow.sold_some (order : OrderRow) (honoredAt : Int) :
    order.sold (some honoredAt) = order.fulfil honoredAt := rfl

@[simp] theorem OrderRow.fulfil_sold (order : OrderRow) (last : Option Int) (honoredAt : Int) :
    (order.sold last).fulfil honoredAt = order.fulfil honoredAt := by
  cases last <;> rfl

section
variable (quoteId : QuoteId) (entries : List Entry)

def salesSince : List Int :=
  (entries.dropWhile fun entry => (entry.order quoteId).isNone).filterMap (Entry.soldAt quoteId)

def orderOf : Option OrderRow :=
  (entries.findSome? (Entry.order quoteId)).map fun order =>
    order.sold (salesSince quoteId entries).getLast?

/-- The key issued at the first sale, with the credits ordered by then. -/
def keyOf : Option ApiKeyRow :=
  if entries.any fun entry => (entry.soldAt quoteId).isSome then
    some ⟨quoteId, mintApiKey quoteId,
      (((entries.takeWhile fun entry => (entry.soldAt quoteId).isNone).findSome?
        (Entry.order quoteId)).map (·.credits)).getD 0⟩
  else none

end

section
variable {quoteId : QuoteId} {entries : List Entry} {entry : Entry}

theorem credits_orderOf : (orderOf quoteId entries).map (·.credits) =
    (entries.findSome? (Entry.order quoteId)).map (·.credits) := by
  unfold orderOf
  rw [Option.map_map]
  congr 1
  funext order
  exact (salesSince quoteId entries).getLast?.recOn rfl fun _ => rfl

theorem salesSince_concat : salesSince quoteId (entries ++ [entry]) =
    if (entries.findSome? (Entry.order quoteId)).isSome then
      salesSince quoteId entries ++ (entry.soldAt quoteId).toList
    else [] := by
  unfold salesSince
  rw [List.dropWhile_append]
  cases found : entries.findSome? (Entry.order quoteId) with
  | none =>
    have skipped : (entries.dropWhile fun entry => (entry.order quoteId).isNone) = [] :=
      List.dropWhile_eq_nil_iff.2 fun earlier hearlier =>
        Option.isNone_iff_eq_none.2 (List.findSome?_eq_none_iff.1 found earlier hearlier)
    rw [skipped, List.isEmpty_nil, if_pos rfl, Option.isSome_none, if_neg Bool.false_ne_true]
    cases entry with
    | sold other honoredAt => rfl
    | placed other sku credits => by_cases own : other = quoteId <;> simp [Entry.order, own,
        Entry.soldAt]
  | some order =>
    have begins : (entries.dropWhile fun entry => (entry.order quoteId).isNone) ≠ [] := by
      obtain ⟨first, hfirst, placed⟩ := List.exists_of_findSome?_eq_some found
      intro skipped
      have none := List.dropWhile_eq_nil_iff.1 skipped first hfirst
      rw [placed] at none
      contradiction
    rw [if_neg (by simpa using begins), Option.isSome_some, if_pos rfl, List.filterMap_append]
    congr 1

theorem orderOf_concat : orderOf quoteId (entries ++ [entry]) =
    match entry with
    | .placed other sku credits => if other = quoteId then
        some ((orderOf quoteId entries).getD ⟨quoteId, sku, credits, .pending, none⟩)
        else orderOf quoteId entries
    | .sold other honoredAt => (orderOf quoteId entries).map fun row =>
        if other = quoteId then row.fulfil honoredAt else row := by
  unfold orderOf
  rw [List.findSome?_append, salesSince_concat]
  cases found : entries.findSome? (Entry.order quoteId) with
  | none =>
    cases entry with
    | sold other honoredAt => rfl
    | placed other sku credits =>
      by_cases own : other = quoteId <;> simp [Entry.order, own]
  | some order =>
    cases entry with
    | placed other sku credits => simp [Entry.soldAt]
    | sold other honoredAt =>
      by_cases own : other = quoteId <;> simp [Entry.soldAt, own]

theorem keyOf_concat : keyOf quoteId (entries ++ [entry]) =
    match entry with
    | .placed _ _ _ => keyOf quoteId entries
    | .sold other _ => if other = quoteId then
        some ((keyOf quoteId entries).getD ⟨quoteId, mintApiKey quoteId,
          ((orderOf quoteId entries).map (·.credits)).getD 0⟩)
        else keyOf quoteId entries := by
  unfold keyOf
  rw [credits_orderOf, List.any_append, List.takeWhile_append]
  have unsold_iff : (entries.takeWhile fun entry => (entry.soldAt quoteId).isNone) = entries ↔
      ¬ (entries.any fun entry => (entry.soldAt quoteId).isSome) = true := by
    rw [List.takeWhile_eq_self_iff]
    simp [Option.isSome_iff_ne_none]
  by_cases sold : (entries.any fun entry => (entry.soldAt quoteId).isSome) = true
  · have stops : (entries.takeWhile fun entry => (entry.soldAt quoteId).isNone).length ≠
        entries.length := fun same =>
      unsold_iff.1 ((List.takeWhile_prefix _).eq_of_length same) sold
    rw [sold, Bool.true_or, if_pos rfl, if_neg stops]
    cases entry with
    | placed other sku credits => simp
    | sold other honoredAt => simp
  · rw [unsold_iff.2 sold, if_pos rfl, Bool.eq_false_iff.2 sold, Bool.false_or]
    cases entry with
    | placed other sku credits => simp [Entry.soldAt]
    | sold other honoredAt => by_cases own : other = quoteId <;> simp [Entry.soldAt, own]

theorem keyOf_eq_some {row : ApiKeyRow} (issued : keyOf quoteId entries = some row) :
    row = ⟨quoteId, mintApiKey quoteId, row.credits⟩ := by
  unfold keyOf at issued
  split at issued
  · cases issued
    rfl
  · cases issued

theorem exists_keyOf {honoredAt : Int} (sold : .sold quoteId honoredAt ∈ entries) :
    ∃ row, keyOf quoteId entries = some row := by
  have issued : (entries.any fun entry => (entry.soldAt quoteId).isSome) = true :=
    List.any_eq_true.2 ⟨_, sold, by simp [Entry.soldAt]⟩
  exact ⟨_, if_pos issued⟩

theorem keyOf_append {row : ApiKeyRow} (issued : keyOf quoteId entries = some row)
    (more : List Entry) : keyOf quoteId (entries ++ more) = some row := by
  induction more using List.reverseRecOn with
  | nil => rwa [List.append_nil]
  | append_singleton more entry ih =>
    rw [← List.append_assoc, keyOf_concat, ih]
    cases entry with
    | placed other sku credits => rfl
    | sold other honoredAt => simp

end

def Tables.sell (tables : Tables) (quoteId : QuoteId) (honoredAt : Int) : Tables :=
  (tables.insertKey quoteId (mintApiKey quoteId)
    (((tables.orders.find? quoteId).map (·.credits)).getD 0)).fulfilOrder quoteId honoredAt

section
variable {tables : Tables}

theorem execute_run {α : Type} {result : α} {statement : Statement} {act : Tables → Tables}
    {next : Tables → Program (GoodsStmt Tables) GoodsReply Thrown α}
    (ended : (((execute statement act).bind next).run SqliteStore.exec tables).2.1 = .ok result) :
    ((next (act tables)).run SqliteStore.exec (act tables)).2.1 = .ok result ∧
      goodsAfter tables (((execute statement act).bind next).run SqliteStore.exec tables).1 =
        goodsAfter (act tables) ((next (act tables)).run SqliteStore.exec (act tables)).1 := by
  unfold execute at ended ⊢
  cases fails : tables.fails statement with
  | none =>
    simp only [Program.call_bind, Program.run, SqliteStore.exec, fails] at ended ⊢
    exact ⟨ended, rfl⟩
  | some e =>
    simp only [Program.call_bind, Program.run, SqliteStore.exec, fails] at ended
    cases ended

theorem deliver_sells {ctx : DeliverContext} {result : DeliverEnd}
    (ended : ((deliver ctx).run SqliteStore.exec tables).2.1 = .ok result) :
    goodsAfter tables ((deliver ctx).run SqliteStore.exec tables).1 =
      tables.sell ctx.key.quoteId ctx.honoredAt := by
  obtain ⟨afterSelect, select⟩ := execute_run ended
  obtain ⟨afterInsert, insert⟩ := execute_run afterSelect
  obtain ⟨afterUpdate, update⟩ := execute_run afterInsert
  exact select.trans (insert.trans update)

end

def Tells (entries : List Entry) (tables : Tables) : Prop :=
  ∀ quoteId, tables.orders.find? quoteId = orderOf quoteId entries ∧
    tables.apiKeys.find? quoteId = keyOf quoteId entries

theorem Tells.init : Tells [] .init := fun _ => ⟨rfl, rfl⟩

section
variable {entries : List Entry} {tables : Tables}

theorem Tells.placed (tells : Tells entries tables) (quoteId : QuoteId) (sku : String)
    (credits : Int) :
    Tells (entries ++ [.placed quoteId sku credits]) (tables.placeOrder quoteId sku credits) := by
  intro other
  obtain ⟨orders, keys⟩ := tells other
  rw [orderOf_concat, keyOf_concat, ← orders, ← keys]
  refine ⟨(Table.find?_insertIgnore _ _ _).trans ?_, rfl⟩
  dsimp only
  by_cases own : quoteId = other
  · subst own
    rfl
  · rw [if_neg own, if_neg own]

theorem Tells.sold (tells : Tells entries tables) (quoteId : QuoteId) (honoredAt : Int) :
    Tells (entries ++ [.sold quoteId honoredAt]) (tables.sell quoteId honoredAt) := by
  intro other
  obtain ⟨orders, keys⟩ := tells other
  rw [orderOf_concat, keyOf_concat, ← orders, ← keys]
  constructor
  · refine (Table.find?_updateWhere _ _ (fun row : OrderRow => row.fulfil honoredAt)
      (fun _ => rfl) other).trans ?_
    dsimp only [Tables.insertKey]
    cases found : tables.orders.find? other with
    | none => rfl
    | some row =>
      have own : row.quoteId = other := Table.find?_key found
      simp only [Option.map_some, own, decide_eq_true_eq, eq_comm (a := quoteId)]
  · refine (Table.find?_insertIgnore _ _ _).trans ?_
    dsimp only
    by_cases own : quoteId = other
    · subst own
      rfl
    · rw [if_neg own, if_neg own]

end

end Merchant
end ExferHonor
