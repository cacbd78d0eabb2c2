import ExferHonor.Relational.Table

/-! Maps that keep their entries in the order in which the keys were first set, such as those of
JavaScript, and what it takes for such a map to mirror a table under another key. -/
namespace Relational

abbrev OrderedMap (K V : Type) := Table K (K × V) Prod.fst

variable {K K' V V' : Type} {key : V → K}

namespace OrderedMap
variable [DecidableEq K]

/-- `map.get(k)` -/
def get? (map : OrderedMap K V) (k : K) : Option V := (map.find? k).map Prod.snd

/-- `map.set(k, value)`: an entry that is there keeps its place. -/
def set (map : OrderedMap K V) (k : K) (value : V) : OrderedMap K V :=
  (map.insert? (k, value)).getD
    (map.updateWhere (fun entry => entry.1 = k) (fun entry => (entry.1, value)) fun _ => rfl).1

/-- `if (!map.has(k)) map.set(k, value)` -/
def setNew (map : OrderedMap K V) (k : K) (value : V) : OrderedMap K V :=
  if (get? map k).isSome then map else set map k value

/-- `map.delete(k)` -/
def delete (map : OrderedMap K V) (k : K) : OrderedMap K V :=
  (map.deleteWhere fun entry => entry.1 = k).1

def values (map : OrderedMap K V) : List V := map.rows.map Prod.snd

/-- `for (const [k, value] of [...map]) if (p(value)) { map.delete(k); n += 1; }` -/
def deleteEach (map : OrderedMap K V) (p : V → Bool) : OrderedMap K V × Nat :=
  map.rows.foldl (fun swept entry =>
    if p entry.2 then (delete swept.1 entry.1, swept.2 + 1) else swept) (map, 0)

theorem delete_rows {map : OrderedMap K V} {done rest : List (K × V)} {entry : K × V}
    (split : map.rows = done ++ entry :: rest) : (delete map entry.1).rows = done ++ rest := by
  have nodup := map.nodup
  rw [split, List.map_append, List.map_cons, List.nodup_middle, List.nodup_cons] at nodup
  have other : ∀ e ∈ done ++ rest, e.1 ≠ entry.1 := fun e he same =>
    nodup.1 (same ▸ List.map_append ▸ List.mem_map_of_mem he)
  simp only [delete, Table.deleteWhere, split, List.filter_append, List.filter_cons]
  rw [List.filter_eq_self.2 fun e he => by simpa using other e (List.mem_append_left _ he),
    List.filter_eq_self.2 fun e he => by simpa using other e (List.mem_append_right _ he)]
  simp

/-- The loop over a copy deletes what one `DELETE` would. -/
theorem deleteEach_eq (map : OrderedMap K V) (p : V → Bool) :
    deleteEach map p = map.deleteWhere fun entry => p entry.2 := by
  have loop (rest done : List (K × V)) (swept : OrderedMap K V) (n : Nat)
      (split : swept.rows = done ++ rest) :
      let after := rest.foldl (fun swept entry =>
        if p entry.2 then (delete swept.1 entry.1, swept.2 + 1) else swept) (swept, n)
      after.1.rows = done ++ rest.filter (fun entry => !p entry.2) ∧
        after.2 = n + rest.countP fun entry => p entry.2 := by
    induction rest generalizing done swept n with
    | nil => simpa using split
    | cons entry rest ih =>
      by_cases hit : p entry.2 = true
      · have after := ih done (delete swept entry.1) (n + 1) (delete_rows split)
        simpa [hit, Nat.add_assoc, Nat.add_comm 1] using after
      · have after := ih (done ++ [entry]) swept n (by simpa using split)
        simpa [hit] using after
  obtain ⟨rows, count⟩ := loop map.rows [] map 0 rfl
  refine Prod.ext (Table.ext ?_) ?_
  · exact rows
  · exact count.trans (Nat.zero_add _)

end OrderedMap

/-- The map holds a `view` of every row of the table, in the same order, under the `code` of its
key; the keys are `valid`. -/
structure Mirrors (code : K → K') (view : V → V') (valid : K → Prop) (table : Table K V key)
    (map : OrderedMap K' V') : Prop where
  rows : map.rows = table.rows.map fun row => (code (key row), view row)
  keys : ∀ row ∈ table.rows, valid (key row)

namespace Mirrors
variable {code : K → K'} {view : V → V'} {valid : K → Prop} {table : Table K V key}
  {map : OrderedMap K' V'}

theorem empty : Mirrors code view valid (.empty : Table K V key) .empty :=
  ⟨rfl, by simp [Table.empty]⟩

section
variable [DecidableEq K] [DecidableEq K']
  (coded : ∀ k k', valid k → valid k' → code k = code k' → k = k')
  (mirrors : Mirrors code view valid table map)
include coded mirrors

theorem find? {k : K} (own : valid k) :
    map.find? (code k) = (table.find? k).map fun row => (code (key row), view row) := by
  ext entry
  rw [Table.find?_eq_some_iff, mirrors.rows, List.mem_map, Option.map_eq_some_iff]
  constructor
  · rintro ⟨⟨row, hrow, rfl⟩, same⟩
    have hkey := coded _ _ (mirrors.keys row hrow) own same
    exact ⟨row, Table.find?_eq_some_iff.2 ⟨hrow, hkey⟩, rfl⟩
  · rintro ⟨row, found, rfl⟩
    obtain ⟨hrow, rfl⟩ := Table.find?_eq_some_iff.1 found
    exact ⟨⟨row, hrow, rfl⟩, rfl⟩

theorem get? {k : K} (own : valid k) :
    OrderedMap.get? map (code k) = (table.find? k).map view := by
  rw [OrderedMap.get?, mirrors.find? coded own, Option.map_map]
  rfl

theorem set_new {row : V} (own : valid (key row)) {after : Table K V key}
    (inserted : table.insert? row = some after) :
    Mirrors code view valid after (OrderedMap.set map (code (key row)) (view row)) := by
  obtain ⟨absent, hrows⟩ := Table.insert?_eq_some_iff.1 inserted
  have missing : map.find? (code (key row)) = none := by
    rw [mirrors.find? coded own, absent]
    rfl
  have hset : (OrderedMap.set map (code (key row)) (view row)).rows =
      map.rows ++ [(code (key row), view row)] := by
    unfold OrderedMap.set Table.insert?
    rw [dif_pos missing]
    rfl
  constructor
  · rw [hset, hrows, mirrors.rows]
    simp
  · rw [hrows]
    intro other hother
    rcases List.mem_append.1 hother with h | h
    · exact mirrors.keys other h
    · exact List.mem_singleton.1 h ▸ own

theorem setNew (row : V) (own : valid (key row)) :
    Mirrors code view valid (table.insertIgnore row)
      (OrderedMap.setNew map (code (key row)) (view row)) := by
  unfold OrderedMap.setNew Table.insertIgnore
  rw [mirrors.get? coded own, Option.isSome_map]
  cases inserted : table.insert? row with
  | none =>
    have present := Option.isSome_iff_ne_none.2 (Table.insert?_eq_none_iff.1 inserted)
    rw [if_pos present]
    exact mirrors
  | some after =>
    rw [if_neg (by simp [(Table.insert?_eq_some_iff.1 inserted).1])]
    exact mirrors.set_new coded own inserted

theorem set_present {k : K} (own : valid k) {row : V} (found : table.find? k = some row)
    {p : V → Bool} {f : V → V} (keeps : ∀ row, key (f row) = key row)
    (named : ∀ row, p row = true → key row = k) (hit : p row = true) :
    Mirrors code view valid (table.updateWhere p f keeps).1
      (OrderedMap.set map (code k) (view (f row))) := by
  have present := mirrors.find? coded own
  rw [found, Option.map_some] at present
  have hset : (OrderedMap.set map (code k) (view (f row))).rows = map.rows.map fun entry =>
      if entry.1 = code k then (entry.1, view (f row)) else entry := by
    unfold OrderedMap.set Table.insert?
    rw [dif_neg (by simp [present])]
    simp [Table.updateWhere]
  have hkey := Table.find?_key found
  constructor
  · rw [hset, mirrors.rows, List.map_map, Table.updateWhere, List.map_map]
    refine List.map_congr_left fun other hother => ?_
    simp only [Function.comp_apply]
    by_cases same : key other = k
    · have honly : other = row := List.inj_on_of_nodup_map table.nodup hother
        (Table.mem_of_find? found) (same.trans hkey.symm)
      rw [honly, if_pos (congrArg code hkey), if_pos hit, keeps]
    · rw [if_neg fun h => same (coded _ _ (mirrors.keys other hother) own h),
        if_neg fun h => same (named other h)]
  · intro other hother
    obtain ⟨old, hold, rfl⟩ := List.mem_map.1 hother
    have hvalid := mirrors.keys old hold
    split
    · rwa [keeps]
    · exact hvalid

end

theorem updateWhere_none (mirrors : Mirrors code view valid table map) {p : V → Bool} {f : V → V}
    (keeps : ∀ row, key (f row) = key row) (missed : ∀ row ∈ table.rows, p row = false) :
    Mirrors code view valid (table.updateWhere p f keeps).1 map := by
  have same : (table.updateWhere p f keeps).1 = table := by
    refine Table.ext ((List.map_congr_left fun row hrow => ?_).trans (List.map_id _))
    simp [missed row hrow]
  rw [same]
  exact mirrors

theorem deleteWhere [DecidableEq K'] (mirrors : Mirrors code view valid table map) (p : V' → Bool) :
    Mirrors code view valid (table.deleteWhere fun row => p (view row)).1
        (OrderedMap.deleteEach map p).1 ∧
      (OrderedMap.deleteEach map p).2 = (table.deleteWhere fun row => p (view row)).2 := by
  rw [OrderedMap.deleteEach_eq]
  refine ⟨⟨?_, fun row hrow => mirrors.keys row (List.mem_filter.1 hrow).1⟩, ?_⟩
  · simp only [Table.deleteWhere, mirrors.rows, List.filter_map, Function.comp_def]
  · simp only [Table.deleteWhere, mirrors.rows, List.countP_map, Function.comp_def]

theorem values (mirrors : Mirrors code view valid table map) :
    OrderedMap.values map = table.rows.map view := by
  rw [OrderedMap.values, mirrors.rows, List.map_map]
  rfl

end Mirrors
end Relational
