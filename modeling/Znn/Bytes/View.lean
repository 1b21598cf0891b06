import Mathlib.Data.List.Infix
import Znn.Bytes.Order

/-!
# Checked reads

A view gives the byte at a distance from where a structure begins, or nothing where there is none
to be read. A read of several bytes fails as soon as one of them does, so a computation over a view
that has a result has read nothing else. Loops over such computations fail exactly when a pass
fails.
-/

namespace Bytes

section Loops

variable {α β γ : Type*} {items : List α}

theorem isSome_mapM {read : α → Option β} :
    (items.mapM read).isSome ↔ ∀ item ∈ items, (read item).isSome := by
  induction items with
  | nil => simp
  | cons item items ih =>
      rw [List.forall_mem_cons, ← ih, List.mapM_cons]
      cases first : read item with
      | none => simp
      | some value =>
          cases rest : items.mapM read with
          | none => simp
          | some values => simp

/-- What is read one by one, where every value that can be read is known. -/
theorem eq_map_of_mapM {read : α → Option β} {known : α → β} {values : List β}
    (each : ∀ item value, read item = some value → value = known item)
    (all : items.mapM read = some values) : values = items.map known := by
  induction items generalizing values with
  | nil =>
      cases all
      rfl
  | cons item items ih =>
      rw [List.mapM_cons] at all
      obtain ⟨value, here, all⟩ := Option.bind_eq_some_iff.mp all
      obtain ⟨rest, there, all⟩ := Option.bind_eq_some_iff.mp all
      cases all
      rw [List.map_cons, each item value here, ih there]

variable {step : β → α → Option β} (inv : β → Prop)

theorem foldlM_keeps (kept : ∀ state item next, inv state → step state item = some next → inv next)
    {initial final : β} (holds : inv initial) (loop : items.foldlM step initial = some final) :
    inv final := by
  induction items generalizing initial with
  | nil =>
      cases loop
      exact holds
  | cons item items ih =>
      obtain ⟨next, first, rest⟩ := Option.bind_eq_some_iff.mp loop
      exact ih (kept initial item next holds first) rest

/-- A loop has a result exactly if every pass has one, where that does not depend on what the passes
before it have computed. -/
theorem isSome_foldlM {safe : α → Prop}
    (kept : ∀ state item next, inv state → step state item = some next → inv next)
    (each : ∀ state, inv state → ∀ item ∈ items, ((step state item).isSome ↔ safe item))
    {initial : β} (holds : inv initial) :
    (items.foldlM step initial).isSome ↔ ∀ item ∈ items, safe item := by
  induction items generalizing initial with
  | nil => simp
  | cons item items ih =>
      rw [List.forall_mem_cons, ← each initial holds item List.mem_cons_self, List.foldlM_cons]
      cases first : step initial item with
      | none => simp
      | some next =>
          have tail := ih (fun state held other member =>
            each state held other (List.mem_cons_of_mem _ member))
            (kept initial item next holds first)
          simpa using tail

/-- What a loop makes of a part of its state that every pass treats in the same way. -/
theorem foldlM_tracks (part : β → γ) (advance : γ → α → γ)
    (kept : ∀ state item next, inv state → step state item = some next → inv next)
    (each : ∀ state, inv state → ∀ item ∈ items, ∀ next, step state item = some next →
      part next = advance (part state) item) {initial final : β} (holds : inv initial)
    (loop : items.foldlM step initial = some final) :
    part final = items.foldl advance (part initial) := by
  induction items generalizing initial with
  | nil =>
      cases loop
      rfl
  | cons item items ih =>
      obtain ⟨next, first, rest⟩ := Option.bind_eq_some_iff.mp loop
      rw [List.foldl_cons, ← each initial holds item List.mem_cons_self next first]
      exact ih (fun state held other member =>
        each state held other (List.mem_cons_of_mem _ member))
        (kept initial item next holds first) rest

/-- The last thing that was found stays. -/
theorem foldl_or (find : α → Option β) (items : List α) :
    items.foldl (fun found item => (find item).or found) none = (items.filterMap find).getLast? := by
  induction items using List.reverseRecOn with
  | nil => rfl
  | append_singleton items item ih =>
      rw [List.foldl_append, ih, List.filterMap_append]
      cases here : find item <;> simp [here]

variable {find : α → Option (Option β)}

/-- A search has a result if looking at any item has one. -/
theorem isSome_findSomeM (each : ∀ item ∈ items, (find item).isSome) :
    (items.findSomeM? find).isSome := by
  induction items with
  | nil => rfl
  | cons item items ih =>
      obtain ⟨answer, here⟩ := Option.isSome_iff_exists.mp (each item List.mem_cons_self)
      rw [List.findSomeM?_cons, here]
      cases answer with
      | some value => rfl
      | none => exact ih fun other member => each other (List.mem_cons_of_mem _ member)

/-- What a search finds is at one of the items. -/
theorem exists_of_findSomeM {value : β} (found : items.findSomeM? find = some (some value)) :
    ∃ item ∈ items, find item = some (some value) := by
  induction items with
  | nil => cases found
  | cons item items ih =>
      rw [List.findSomeM?_cons] at found
      obtain ⟨answer, here, rest⟩ := Option.bind_eq_some_iff.mp found
      cases answer with
      | some other =>
          cases rest
          exact ⟨item, List.mem_cons_self, here⟩
      | none =>
          obtain ⟨other, member, there⟩ := ih rest
          exact ⟨other, List.mem_cons_of_mem _ member, there⟩

end Loops

/-- Bytes that can be read, by their distance from somewhere. -/
abbrev View : Type := Nat → Option UInt8

namespace View

variable {view : View} {offset width length : Nat}

/-- The view of what begins at a distance. -/
def at_ (view : View) (start : Nat) : View := fun offset => view (start + offset)

/-- The view of a file or a buffer. -/
def of (image : List UInt8) : View := fun offset => image[offset]?

/-- `length` bytes from `offset` on. -/
def bytes (view : View) (offset length : Nat) : Option (List UInt8) :=
  (List.range length).mapM fun index => view (offset + index)

/-- The little endian number of `width` bytes at `offset`. -/
def number (view : View) (offset width : Nat) : Option Nat :=
  (view.bytes offset width).map littleValue

/-- The bytes of a view can all be read up to a length. -/
def Spans (view : View) (length : Nat) : Prop :=
  ∀ index < length, (view index).isSome

theorem isSome_bytes :
    (view.bytes offset length).isSome ↔ ∀ index < length, (view (offset + index)).isSome := by
  simp [bytes, isSome_mapM]

theorem isSome_number :
    (view.number offset width).isSome ↔ ∀ index < width, (view (offset + index)).isSome := by
  rw [number, Option.isSome_map, isSome_bytes]

theorem Spans.isSome_number (spans : view.Spans length) (inside : offset + width ≤ length) :
    (view.number offset width).isSome :=
  View.isSome_number.mpr fun index near => spans _ (by omega)

theorem Spans.isSome_bind {β : Type} {next : Nat → Option β} (spans : view.Spans length)
    (inside : offset + width ≤ length) (rest : ∀ value, (next value).isSome) :
    (view.number offset width >>= next).isSome := by
  obtain ⟨value, found⟩ := Option.isSome_iff_exists.mp (spans.isSome_number inside)
  rw [found]
  exact rest value

variable {image : List UInt8}

@[simp]
theorem isSome_of : (of image offset).isSome ↔ offset < image.length := by
  simp [of]

theorem spans_of {start : Nat} (inside : start + length ≤ image.length) :
    ((of image).at_ start).Spans length := by
  intro index near
  rw [at_, isSome_of]
  omega

theorem isSome_number_of (pos : 0 < width) :
    ((of image).number offset width).isSome ↔ offset + width ≤ image.length := by
  simp only [isSome_number, isSome_of]
  constructor
  · intro all
    have last := all (width - 1) (by omega)
    omega
  · intro inside index near
    omega

end View

section Strings

variable {bytes : List UInt8}

/-- The C string that begins here. -/
def cString : List UInt8 → Option (List UInt8)
  | [] => none
  | byte :: rest => if byte = 0 then some [] else (cString rest).map (byte :: ·)

theorem isSome_cString : (cString bytes).isSome ↔ 0 ∈ bytes := by
  induction bytes with
  | nil => simp [cString]
  | cons byte rest ih =>
      by_cases zero : byte = 0
      · simp [cString, zero]
      · have other : (0 : UInt8) ≠ byte := fun same => zero same.symm
        simp [cString, zero, other, ih]

/-- `strcmp(s, text) == 0` for the C string `s` that begins here: it looks no further than the
first difference. -/
def comparesEqual : (text bytes : List UInt8) → Option Bool
  | _, [] => none
  | [], byte :: _ => some (byte == 0)
  | symbol :: text, byte :: rest =>
      if byte = symbol then comparesEqual text rest else some false

/-- The comparison is decided before the bytes end, unless they are the beginning of the text. -/
theorem isSome_comparesEqual {text : List UInt8} :
    (comparesEqual text bytes).isSome ↔ ¬bytes <+: text := by
  induction text generalizing bytes with
  | nil => cases bytes <;> simp [comparesEqual]
  | cons symbol text ih =>
      cases bytes with
      | nil => simp [comparesEqual]
      | cons byte rest =>
          by_cases same : byte = symbol
          · simp [comparesEqual, same, ih, List.cons_prefix_cons]
          · simp [comparesEqual, same, List.cons_prefix_cons]

theorem comparesEqual_eq_true {text : List UInt8} :
    comparesEqual text bytes = some true ↔ text ++ [0] <+: bytes := by
  induction text generalizing bytes with
  | nil =>
      cases bytes with
      | nil => simp [comparesEqual]
      | cons byte rest =>
          rw [comparesEqual, List.nil_append, List.cons_prefix_cons]
          simpa using eq_comm
  | cons symbol text ih =>
      cases bytes with
      | nil => simp [comparesEqual]
      | cons byte rest =>
          by_cases same : byte = symbol
          · simp [comparesEqual, same, ih, List.cons_prefix_cons]
          · have other : symbol ≠ byte := fun equal => same equal.symm
            simp [comparesEqual, same, other, List.cons_prefix_cons]

end Strings

end Bytes
