import Mathlib.Data.List.Nodup

/-! Tables with a primary key and the statements that act on them. A statement that changes
rows also reports how many rows it changed. -/
namespace Relational

@[ext] structure Table (K V : Type) (key : V → K) where
  rows : List V
  nodup : (rows.map key).Nodup

variable {K V : Type} {key : V → K}

namespace Table

def empty : Table K V key := ⟨[], by simp⟩

/-- `DELETE FROM t WHERE p` -/
def deleteWhere (table : Table K V key) (p : V → Bool) : Table K V key × Nat :=
  (⟨table.rows.filter fun row => !p row,
    table.nodup.sublist (List.filter_sublist.map key)⟩, table.rows.countP p)

private theorem key_update (p : V → Bool) {f : V → V} (keeps : ∀ row, key (f row) = key row)
    (row : V) : key (if p row then f row else row) = key row := by
  split
  · exact keeps row
  · rfl

/-- `UPDATE t SET f WHERE p`, for an `f` that leaves the key alone -/
def updateWhere (table : Table K V key) (p : V → Bool) (f : V → V)
    (keeps : ∀ row, key (f row) = key row) : Table K V key × Nat :=
  (⟨table.rows.map fun row => if p row then f row else row, by
    have hkeys : (key ∘ fun row => if p row then f row else row) = key :=
      funext (key_update p keeps)
    rw [List.map_map, hkeys]
    exact table.nodup⟩, table.rows.countP p)

variable [DecidableEq K]

/-- `SELECT * FROM t WHERE key = k` -/
def find? (table : Table K V key) (k : K) : Option V :=
  table.rows.find? fun row => key row = k

private theorem nodup_append (table : Table K V key) (row : V)
    (absent : table.find? (key row) = none) : ((table.rows ++ [row]).map key).Nodup := by
  rw [List.map_append, List.nodup_append]
  refine ⟨table.nodup, by simp, ?_⟩
  intro k hk other hother
  obtain ⟨present, hpresent, rfl⟩ := List.mem_map.1 hk
  have hne := List.find?_eq_none.1 absent present hpresent
  simp only [List.map_cons, List.map_nil, List.mem_singleton] at hother
  simpa [hother] using hne

/-- `INSERT INTO t`; `none` is the primary-key violation. -/
def insert? (table : Table K V key) (row : V) : Option (Table K V key) :=
  if absent : table.find? (key row) = none then
    some ⟨table.rows ++ [row], nodup_append table row absent⟩
  else none

/-- `INSERT INTO t … ON CONFLICT (key) DO NOTHING` -/
def insertIgnore (table : Table K V key) (row : V) : Table K V key :=
  (table.insert? row).getD table

@[simp] theorem find?_empty (k : K) : (empty : Table K V key).find? k = none := rfl

theorem find?_key {table : Table K V key} {k : K} {row : V} (found : table.find? k = some row) :
    key row = k := by
  simpa using List.find?_some found

theorem mem_of_find? {table : Table K V key} {k : K} {row : V}
    (found : table.find? k = some row) : row ∈ table.rows :=
  List.mem_of_find?_eq_some found

theorem find?_eq_some_iff {table : Table K V key} {k : K} {row : V} :
    table.find? k = some row ↔ row ∈ table.rows ∧ key row = k := by
  constructor
  · exact fun found => ⟨mem_of_find? found, find?_key found⟩
  · rintro ⟨hmem, rfl⟩
    cases found : table.find? (key row) with
    | none => simpa using List.find?_eq_none.1 found row hmem
    | some other =>
      have hkeys := List.inj_on_of_nodup_map table.nodup (mem_of_find? found) hmem
      rw [hkeys (find?_key found)]

theorem insert?_eq_some_iff {table after : Table K V key} {row : V} :
    table.insert? row = some after ↔
      table.find? (key row) = none ∧ after.rows = table.rows ++ [row] := by
  unfold insert?
  split
  next absent =>
    simp only [Option.some.injEq, absent, true_and]
    exact ⟨fun h => h ▸ rfl, fun h => Table.ext h.symm⟩
  next present => simp [present]

theorem find?_of_insert? {table after : Table K V key} {row : V}
    (inserted : table.insert? row = some after) (k : K) :
    after.find? k = if key row = k then some row else table.find? k := by
  obtain ⟨absent, hrows⟩ := insert?_eq_some_iff.1 inserted
  rw [find?, hrows, List.find?_append]
  split
  next h =>
    subst h
    rw [show List.find? _ table.rows = none from absent]
    simp
  next h => simp [h, find?]

theorem insert?_eq_none_iff {table : Table K V key} {row : V} :
    table.insert? row = none ↔ table.find? (key row) ≠ none := by
  unfold insert?
  split <;> simp_all

theorem find?_insertIgnore (table : Table K V key) (row : V) (k : K) :
    (table.insertIgnore row).find? k =
      if key row = k then some ((table.find? k).getD row) else table.find? k := by
  unfold insertIgnore
  cases inserted : table.insert? row with
  | none =>
    rw [Option.getD_none]
    split
    next h =>
      subst h
      obtain ⟨present, hpresent⟩ :=
        Option.ne_none_iff_exists'.1 (insert?_eq_none_iff.1 inserted)
      simp [hpresent]
    next => rfl
  | some after =>
    rw [Option.getD_some, find?_of_insert? inserted]
    split
    next h =>
      subst h
      simp [(insert?_eq_some_iff.1 inserted).1]
    next => rfl

theorem find?_updateWhere (table : Table K V key) (p : V → Bool) (f : V → V)
    (keeps : ∀ row, key (f row) = key row) (k : K) :
    (table.updateWhere p f keeps).1.find? k =
      (table.find? k).map fun row => if p row then f row else row := by
  have same : (fun row => decide (key row = k)) ∘ (fun row => if p row then f row else row) =
      fun row => decide (key row = k) := by
    funext row
    rw [Function.comp_apply, key_update p keeps]
  rw [find?, updateWhere, List.find?_map, same]
  rfl

theorem find?_deleteWhere (table : Table K V key) (p : V → Bool) (k : K) :
    (table.deleteWhere p).1.find? k = (table.find? k).filter fun row => !p row := by
  ext row
  rw [find?_eq_some_iff, Option.filter_eq_some_iff, find?_eq_some_iff]
  simp only [deleteWhere, List.mem_filter]
  tauto

theorem any_key (table : Table K V key) (k : K) (p : V → Prop) [DecidablePred p] :
    (table.rows.any fun row => key row = k ∧ p row) = (table.find? k).any fun row => p row := by
  rw [Bool.eq_iff_iff, List.any_eq_true, Option.any_eq_true]
  constructor
  · rintro ⟨row, hrow, hp⟩
    obtain ⟨rfl, own⟩ := of_decide_eq_true hp
    exact ⟨row, find?_eq_some_iff.2 ⟨hrow, rfl⟩, decide_eq_true own⟩
  · rintro ⟨row, found, own⟩
    exact ⟨row, mem_of_find? found, decide_eq_true ⟨find?_key found, of_decide_eq_true own⟩⟩

/-- A condition that names the key changes at most the row with that key. -/
theorem countP_eq (table : Table K V key) (p : V → Bool) (k : K)
    (named : ∀ row, p row = true → key row = k) :
    table.rows.countP p = if (table.find? k).any p then 1 else 0 := by
  cases found : table.find? k with
  | none =>
    rw [List.countP_eq_zero.2 fun row hrow hp => ?_]
    · rfl
    · simpa [named row hp] using List.find?_eq_none.1 found row hrow
  | some row =>
    have honly : ∀ other ∈ table.rows, p other = true → other = row := fun other hmem hp =>
      List.inj_on_of_nodup_map table.nodup hmem (mem_of_find? found)
        ((named other hp).trans (find?_key found).symm)
    by_cases hp : p row = true
    · have hcount : table.rows.countP p = table.rows.countP (key · = key row) := by
        refine List.countP_congr fun other hother => ⟨fun h => ?_, fun h => ?_⟩
        · simp [honly other hother h]
        · rwa [List.inj_on_of_nodup_map table.nodup hother (mem_of_find? found)
            (by simpa using h)]
      have hone : (table.rows.map key).count (key row) = 1 :=
        List.count_eq_one_of_mem table.nodup
          (List.mem_map_of_mem (mem_of_find? found))
      rw [hcount, if_pos (by simpa using hp), ← hone, List.count, List.countP_map]
      exact List.countP_congr fun other _ => by simp
    · rw [if_neg (by simpa using hp)]
      exact List.countP_eq_zero.2 fun other hother hother' =>
        hp (honly other hother hother' ▸ hother')

theorem updateWhere_changes (table : Table K V key) (p : V → Bool) (f : V → V)
    (keeps : ∀ row, key (f row) = key row) (k : K)
    (named : ∀ row, p row = true → key row = k) :
    (table.updateWhere p f keeps).2 = if (table.find? k).any p then 1 else 0 :=
  countP_eq table p k named

end Table
end Relational
