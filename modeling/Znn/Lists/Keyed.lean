import Mathlib.Data.List.Induction
import Mathlib.Data.List.Nodup

/-!
# Lists without a key twice

An item is appended unless one with its key is there. A list that is built so has every key once,
at its first occurrence and with the item that occurs there.
-/

namespace Keyed

variable {α κ : Type} [DecidableEq κ] (key : α → κ)

/-- Append the item, unless its key is there. -/
def insertNew (items : List α) (item : α) : List α :=
  if items.any fun known => decide (key known = key item) then items else items ++ [item]

/-- The first item for every key. -/
def keepFirst (items : List α) : List α :=
  items.foldl (insertNew key) []

variable {key} {items : List α} {item : α}

theorem insertNew_of_mem (known : key item ∈ items.map key) : insertNew key items item = items := by
  rcases List.mem_map.mp known with ⟨other, member, same⟩
  exact if_pos (List.any_eq_true.mpr ⟨other, member, decide_eq_true same⟩)

theorem insertNew_of_not_mem (new : key item ∉ items.map key) :
    insertNew key items item = items ++ [item] := by
  apply if_neg
  intro known
  rcases List.any_eq_true.mp known with ⟨other, member, same⟩
  exact new (List.mem_map.mpr ⟨other, member, of_decide_eq_true same⟩)

theorem nodup_insertNew (nodup : (items.map key).Nodup) :
    ((insertNew key items item).map key).Nodup := by
  by_cases known : key item ∈ items.map key
  · rwa [insertNew_of_mem known]
  · rw [insertNew_of_not_mem known, List.map_append, List.map_singleton]
    exact nodup.append (List.nodup_singleton _) (by simpa using known)

/-- Inserting one item after the other keeps keys distinct. -/
theorem nodup_foldl_insertNew (more : List α) (nodup : (items.map key).Nodup) :
    ((more.foldl (insertNew key) items).map key).Nodup := by
  induction more generalizing items with
  | nil => exact nodup
  | cons item more ih => exact ih (nodup_insertNew nodup)

theorem nodup_keepFirst (items : List α) : ((keepFirst key items).map key).Nodup :=
  nodup_foldl_insertNew items List.nodup_nil

theorem keepFirst_append (items : List α) (item : α) :
    keepFirst key (items ++ [item]) = insertNew key (keepFirst key items) item :=
  List.foldl_append

/-- The keys stand in the order of their first occurrences. -/
theorem map_keepFirst (items : List α) :
    (keepFirst key items).map key = (items.map key).eraseDups := by
  induction items using List.reverseRecOn with
  | nil => rfl
  | append_singleton items item ih =>
      rw [keepFirst_append, List.map_append, List.map_singleton, List.eraseDups_append, ← ih]
      by_cases known : key item ∈ (keepFirst key items).map key
      · have inItems : key item ∈ items.map key := by
          rw [ih] at known
          exact List.mem_eraseDups.mp known
        have removed : [key item].removeAll (items.map key) = [] := by
          rw [List.removeAll, List.filter_cons_of_neg (by simpa using List.mem_map.mp inItems),
            List.filter_nil]
        rw [insertNew_of_mem known, removed, List.eraseDups_nil, List.append_nil]
      · have notInItems : key item ∉ items.map key := by
          rw [ih] at known
          exact fun member => known (List.mem_eraseDups.mpr member)
        have kept : [key item].removeAll (items.map key) = [key item] := by
          rw [List.removeAll, List.filter_cons_of_pos (by simpa using notInItems), List.filter_nil]
        rw [insertNew_of_not_mem known, kept, List.map_append]
        rfl

/-- What is kept for a key is the first item with it. -/
theorem find?_of_mem_keepFirst (member : item ∈ keepFirst key items) :
    items.find? (fun other => decide (key other = key item)) = some item := by
  induction items using List.reverseRecOn with
  | nil => cases member
  | append_singleton items last ih =>
      rw [keepFirst_append] at member
      by_cases known : key last ∈ (keepFirst key items).map key
      · rw [insertNew_of_mem known] at member
        rw [List.find?_append, ih member]
        rfl
      · rw [insertNew_of_not_mem known] at member
        rcases List.mem_append.mp member with before | isLast
        · rw [List.find?_append, ih before]
          rfl
        · cases List.mem_singleton.mp isLast
          rw [map_keepFirst, List.mem_eraseDups] at known
          have none : items.find? (fun other => decide (key other = key item)) = none := by
            rw [List.find?_eq_none]
            intro other inItems same
            exact known (List.mem_map.mpr ⟨other, inItems, of_decide_eq_true same⟩)
          rw [List.find?_append, none]
          simp

end Keyed
