import Mathlib.Data.List.Nodup

/-!
# Sorting by a key

Items with different keys are sorted in one way, in whatever order they come.
-/

namespace Sorting

variable {α κ : Type} [LE κ] [DecidableLE κ]

/-- The sort is stable: items with one key stay in their order. -/
def sortByKey (key : α → κ) (items : List α) : List α :=
  items.mergeSort fun one other => decide (key one ≤ key other)

variable {key : α → κ} {items others : List α}

theorem sortByKey_perm : (sortByKey key items).Perm items :=
  List.mergeSort_perm _ _

variable [Trans (α := κ) (· ≤ ·) (· ≤ ·) (· ≤ ·)] [Std.Total (α := κ) (· ≤ ·)]

theorem pairwise_sortByKey :
    (sortByKey key items).Pairwise fun one other => key one ≤ key other := by
  have sorted : (sortByKey key items).Pairwise
      fun one other => decide (key one ≤ key other) = true := by
    apply List.pairwise_mergeSort
    · intro first second third earlier later
      exact decide_eq_true (Std.le_trans (of_decide_eq_true earlier) (of_decide_eq_true later))
    · intro first second
      rw [Bool.or_eq_true, decide_eq_true_eq, decide_eq_true_eq]
      exact Std.le_total
  exact sorted.imp of_decide_eq_true

/-- The order in which the items come does not matter. -/
theorem sortByKey_eq_of_perm [Std.Antisymm (α := κ) (· ≤ ·)] (nodup : (items.map key).Nodup)
    (perm : items.Perm others) : sortByKey key items = sortByKey key others := by
  have same : (sortByKey key items).Perm (sortByKey key others) :=
    sortByKey_perm.trans (perm.trans sortByKey_perm.symm)
  refine List.Perm.eq_of_pairwise ?_ pairwise_sortByKey pairwise_sortByKey same
  intro one other isOne isOther earlier later
  apply List.inj_on_of_nodup_map nodup (sortByKey_perm.mem_iff.mp isOne)
    (perm.mem_iff.mpr (sortByKey_perm.mem_iff.mp isOther))
  exact Std.le_antisymm earlier later

end Sorting
