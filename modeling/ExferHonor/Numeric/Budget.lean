import Mathlib.Algebra.BigOperators.Group.List.Basic
import Mathlib.Algebra.GroupWithZero.Nat
import Mathlib.Algebra.Order.BigOperators.Group.List
import Mathlib.Algebra.Order.Group.Nat
import Mathlib.Data.List.Perm.Subperm

/-! A budget over a rolling span that is checked when a use is granted and charged when the use is
settled. What is pending meanwhile is not seen, so the budget can be exceeded by that much and no
more. -/
namespace Budget

structure Use where
  moment : Int
  amount : Nat
  deriving DecidableEq, Repr

def total (uses : List Use) : Nat := (uses.map (·.amount)).sum

def spent (first last : Int) (uses : List Use) : Nat :=
  total (uses.filter fun use => first ≤ use.moment ∧ use.moment ≤ last)

def spentSince (first : Int) (uses : List Use) : Nat :=
  total (uses.filter fun use => first ≤ use.moment)

theorem total_append (uses more : List Use) : total (uses ++ more) = total uses + total more := by
  rw [total, List.map_append, List.sum_append]
  rfl

theorem total_le_of_subperm {fewer uses : List Use} (part : fewer.Subperm uses) :
    total fewer ≤ total uses := by
  obtain ⟨kept, same, sublist⟩ := part
  rw [total, ← (same.map _).sum_eq]
  exact (sublist.map _).sum_le_sum fun _ _ => Nat.zero_le _

theorem total_le {most : Nat} {uses : List Use} (small : ∀ use ∈ uses, use.amount ≤ most) :
    total uses ≤ uses.length * most := by
  simpa [total] using List.sum_le_card_nsmul (uses.map (·.amount)) most (by simpa using small)

theorem spent_append (first last : Int) (uses more : List Use) :
    spent first last (uses ++ more) = spent first last uses + spent first last more := by
  rw [spent, List.filter_append, total_append]
  rfl

theorem spent_le_total (first last : Int) (uses : List Use) : spent first last uses ≤ total uses :=
  total_le_of_subperm List.filter_sublist.subperm

theorem spent_le_since {first last moment : Int} (uses : List Use) (early : moment ≤ first) :
    spent first last uses ≤ spentSince moment uses := by
  refine total_le_of_subperm (List.Sublist.subperm ?_)
  exact List.monotone_filter_right _ fun use inside => by
    simp only [Bool.decide_and, Bool.and_eq_true, decide_eq_true_eq] at inside ⊢
    omega

/-- With at most `k` uses pending at any time, no span holds more than the budget and all the
pending uses but one. -/
structure Kept (span : Int) (budget most k : Nat) (settled pending : List Use) : Prop where
  within : ∀ first, spent first (first + span) (settled ++ pending) ≤ budget + (k - 1) * most
  small : ∀ use ∈ pending, use.amount ≤ most

namespace Kept
variable {span : Int} {budget most k : Nat} {settled pending : List Use}

theorem nil : Kept span budget most k [] [] := ⟨fun _ => Nat.zero_le _, by simp⟩

theorem grant (kept : Kept span budget most k settled pending) (use : Use)
    (fits : spentSince (use.moment - span) settled + use.amount ≤ budget)
    (small : use.amount ≤ most) (room : pending.length < k) :
    Kept span budget most k settled (use :: pending) := by
  refine ⟨fun first => ?_, List.forall_mem_cons.2 ⟨small, kept.small⟩⟩
  by_cases inside : first ≤ use.moment ∧ use.moment ≤ first + span
  · have unsettled : spent first (first + span) (use :: pending) ≤ use.amount + (k - 1) * most :=
      calc spent first (first + span) (use :: pending)
        _ ≤ use.amount + total pending := spent_le_total _ _ _
        _ ≤ use.amount + pending.length * most := Nat.add_le_add_left (total_le kept.small) _
        _ ≤ use.amount + (k - 1) * most :=
          Nat.add_le_add_left (Nat.mul_le_mul_right _ (Nat.le_sub_one_of_lt room)) _
    have seen : spent first (first + span) settled ≤ spentSince (use.moment - span) settled :=
      spent_le_since settled (by omega)
    rw [spent_append]
    omega
  · have outside : spent first (first + span) (use :: pending) =
        spent first (first + span) pending := by
      rw [spent, List.filter_cons_of_neg (by simpa using inside)]
      rfl
    rw [spent_append, outside, ← spent_append]
    exact kept.within first

theorem of_subperm (kept : Kept span budget most k settled pending) {settled' pending' : List Use}
    (fewer : (settled' ++ pending').Subperm (settled ++ pending)) (still : pending' ⊆ pending) :
    Kept span budget most k settled' pending' :=
  ⟨fun first => (total_le_of_subperm (fewer.filter _)).trans (kept.within first),
    fun use present => kept.small use (still present)⟩

section
variable (kept : Kept span budget most k settled pending) {use : Use} {pending' : List Use}
include kept

theorem perm (same : pending'.Perm pending) : Kept span budget most k settled pending' :=
  kept.of_subperm (same.append_left _).subperm same.subset

theorem drop (left : (use :: pending').Perm pending) : Kept span budget most k settled pending' :=
  have fewer := List.sublist_cons_self use pending'
  kept.of_subperm ((fewer.append_left _).subperm.trans (left.append_left _).subperm)
    (List.Subset.trans fewer.subset left.subset)

theorem settle (left : (use :: pending').Perm pending) :
    Kept span budget most k (settled ++ [use]) pending' := by
  refine kept.of_subperm (List.Perm.subperm ?_)
    (List.Subset.trans (List.subset_cons_self use pending') left.subset)
  rw [List.append_assoc]
  exact left.append_left settled

end

end Kept
end Budget
