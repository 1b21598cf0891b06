import Mathlib.Data.List.Basic

/-!
# Patches over a memory

A patch gives some places of a memory new values; of several the last one that covers a place
decides. Whoever lays a patch may keep what was under it. A patch that no later one covers is taken
away by putting that back, and what the others keep stays right.
-/

namespace Patches

variable {α β : Type}

structure Patch (α β : Type) where
  covers : α → Bool
  value : α → β

def Patch.over (patch : Patch α β) (memory : α → β) : α → β := fun place =>
  if patch.covers place then patch.value place else memory place

/-- The memory under the patches, the first of them at the bottom. -/
def overlay (memory : α → β) (patches : List (Patch α β)) : α → β :=
  patches.foldl (fun memory patch => patch.over memory) memory

def Patch.Apart (one other : Patch α β) : Prop :=
  ∀ place, one.covers place = true → other.covers place = false

variable {memory memory' : α → β} {patches front back : List (Patch α β)} {patch : Patch α β}
  {place : α}

theorem overlay_append : overlay memory (front ++ back) = overlay (overlay memory front) back :=
  List.foldl_append

theorem overlay_congr (same : memory place = memory' place) :
    overlay memory patches place = overlay memory' patches place := by
  induction patches generalizing memory memory' with
  | nil => exact same
  | cons patch patches ih =>
      apply ih
      simp only [Patch.over, same]

theorem overlay_of_uncovered (free : ∀ patch ∈ patches, patch.covers place = false) :
    overlay memory patches place = memory place := by
  induction patches generalizing memory with
  | nil => rfl
  | cons patch patches ih =>
      have here := free patch List.mem_cons_self
      apply (ih fun other member => free other (List.mem_cons_of_mem _ member)).trans
      simp [Patch.over, here]

/-- A patch does not matter where it does not reach. -/
theorem overlay_skip (free : patch.covers place = false) :
    overlay memory (front ++ patch :: back) place = overlay memory (front ++ back) place := by
  have under : patch.over (overlay memory front) place = overlay memory front place := by
    simp [Patch.over, free]
  rw [overlay_append, overlay_append]
  change overlay (patch.over (overlay memory front)) back place = _
  exact overlay_congr under

/-- The lowest of the patches that nothing covers shows. -/
theorem overlay_restore {kept : α → β} (apart : ∀ other ∈ back, patch.Apart other)
    (saved : ∀ place, patch.covers place = true → kept place = overlay memory front place) :
    Patch.over ⟨patch.covers, kept⟩ (overlay memory (front ++ patch :: back)) =
      overlay memory (front ++ back) := by
  funext place
  unfold Patch.over
  dsimp only
  by_cases covered : patch.covers place = true
  · rw [if_pos covered, saved place covered, overlay_append]
    symm
    exact overlay_of_uncovered fun other member => apart other member place covered
  · rw [if_neg covered]
    exact overlay_skip (Bool.not_eq_true _ ▸ covered)

/-- A patch with what was under it when it was laid. -/
structure Layer (α β : Type) where
  patch : Patch α β
  kept : α → β

/-- What every layer keeps is what is under it. -/
def Saved (memory : α → β) (layers : List (Layer α β)) : Prop :=
  ∀ front layer back, layers = front ++ layer :: back →
    ∀ place, layer.patch.covers place = true →
      layer.kept place = overlay memory (front.map Layer.patch) place

variable {layers lower upper : List (Layer α β)} {layer : Layer α β}

theorem saved_nil : Saved memory ([] : List (Layer α β)) := by
  intro front layer back split
  simp at split

theorem Saved.snoc (saved : Saved memory layers)
    (kept : ∀ place, layer.patch.covers place = true →
      layer.kept place = overlay memory (layers.map Layer.patch) place) :
    Saved memory (layers ++ [layer]) := by
  intro front other back split
  rcases List.eq_nil_or_concat back with rfl | ⟨rest, last, rfl⟩
  · rcases List.append_inj' split rfl with ⟨rfl, same⟩
    cases same
    exact kept
  · rw [List.concat_eq_append, ← List.cons_append, ← List.append_assoc] at split
    exact saved front other rest (List.append_inj' split rfl).1

theorem Patch.Apart.reaches {one other : Patch α β} (apart : one.Apart other)
    (covered : other.covers place = true) : one.covers place = false := by
  cases reaches : one.covers place with
  | false => rfl
  | true => exact covered.symm.trans (apart place reaches)

/-- A layer that no later one covers may go. -/
theorem Saved.remove (saved : Saved memory (lower ++ layer :: upper))
    (apart : ∀ other ∈ upper, layer.patch.Apart other.patch) : Saved memory (lower ++ upper) := by
  intro front other back split place covered
  have later : ∀ middle, front = lower ++ middle → upper = middle ++ other :: back →
      other.kept place = overlay memory (front.map Layer.patch) place := by
    rintro middle rfl rfl
    have free := (apart other (by simp)).reaches covered
    rw [saved (lower ++ layer :: middle) other back (by simp) place covered, List.map_append,
      List.map_cons, List.map_append]
    exact overlay_skip free
  rcases List.append_eq_append_iff.mp split with
    ⟨middle, isFront, isUpper⟩ | ⟨middle, isLower, isBack⟩
  · exact later middle isFront isUpper
  · cases middle with
    | nil =>
        apply later [] _ isBack.symm
        rw [isLower, List.append_nil, List.append_nil]
    | cons head rest =>
        rw [List.cons_append, List.cons.injEq] at isBack
        rcases isBack with ⟨rfl, isBack⟩
        exact saved front other (rest ++ layer :: upper) (by rw [isLower]; simp) place covered

end Patches
