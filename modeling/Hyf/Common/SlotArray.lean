import Mathlib.Data.Vector.Basic
import Mathlib.Data.List.ReduceOption

/-!
# Fixed arrays of optional cells

A `SlotArray α n` is an array of `n` cells, each empty or holding one value: the shape of a
bounded table in code that never allocates. Rows are found by a linear scan, written into the first
empty cell and deleted by emptying their cell, so the occupied cells need not be contiguous.

The view of such a table that its users care about is `live`, the values of the occupied cells in
cell order. Every operation is characterised here by what it does to `live`; nothing above this
module looks at a cell index again.
-/

/-- An array of `n` cells, each empty or occupied. -/
abbrev SlotArray (α : Type*) (n : ℕ) := List.Vector (Option α) n

namespace SlotArray

variable {α : Type*} {n : ℕ}

/-- The array with every cell empty. -/
def empty (α : Type*) (n : ℕ) : SlotArray α n := List.Vector.replicate n none

/-- The values of the occupied cells, in cell order. -/
def live (slots : SlotArray α n) : List α := slots.toList.reduceOption

/-- Overwrite cell `index`. -/
def write (slots : SlotArray α n) (index : ℕ) (cell : Option α) : SlotArray α n :=
  ⟨slots.toList.set index cell, by simp⟩

/-- The index of the first empty cell. -/
def firstFree (slots : SlotArray α n) : Option ℕ := slots.toList.findIdx? Option.isNone

/-- The index of the first occupied cell whose value satisfies `p`. -/
def findLive (slots : SlotArray α n) (p : α → Bool) : Option ℕ :=
  slots.toList.findIdx? fun cell => cell.any p

/-- Empty every occupied cell whose value satisfies `p`. -/
def clearWhere (slots : SlotArray α n) (p : α → Bool) : SlotArray α n :=
  slots.map fun cell => if cell.any p then none else cell

/-! ## Cell positions -/

/-- A successful scan splits the list at the position it reports. -/
theorem findIdx?_split {β : Type*} {p : β → Bool} {l : List β} {index : ℕ}
    (h : l.findIdx? p = some index) :
    ∃ before x after, l = before ++ x :: after ∧ before.length = index ∧ p x = true ∧
      ∀ y ∈ before, p y = false := by
  rw [List.findIdx?_eq_some_iff_getElem] at h
  obtain ⟨hlt, hp, hbefore⟩ := h
  refine ⟨l.take index, l[index], l.drop (index + 1), ?_, ?_, hp, ?_⟩
  · rw [List.getElem_cons_drop, List.take_append_drop]
  · rw [List.length_take]
    omega
  · intro y hy
    obtain ⟨j, hj, rfl⟩ := List.mem_iff_getElem.mp hy
    rw [List.length_take] at hj
    rw [List.getElem_take]
    simpa using hbefore j (by omega)

/-- Writing at the split position replaces the element there. -/
theorem set_split {β : Type*} (before : List β) (x y : β) (after : List β) :
    (before ++ x :: after).set before.length y = before ++ y :: after := by
  simp

@[simp] theorem toList_write (slots : SlotArray α n) (index : ℕ) (cell : Option α) :
    (slots.write index cell).toList = slots.toList.set index cell := rfl

@[simp] theorem toList_empty : (empty α n).toList = List.replicate n none := rfl

@[simp] theorem live_empty : (empty α n).live = [] := by
  rw [live, toList_empty]
  induction n with
  | zero => rfl
  | succ n ih => rw [List.replicate_succ, List.reduceOption_cons_of_none, ih]

theorem mem_live {slots : SlotArray α n} {a : α} : a ∈ slots.live ↔ some a ∈ slots.toList := by
  simp [live, List.reduceOption_mem_iff]

/-- A table never holds more rows than it has cells. -/
theorem length_live_le (slots : SlotArray α n) : slots.live.length ≤ n := by
  have h := List.reduceOption_length_le slots.toList
  rwa [List.Vector.toList_length] at h

/-! ## Free cells -/

/-- Filling the first empty cell inserts one value into `live` and keeps the order of the rest. -/
theorem live_write_firstFree {slots : SlotArray α n} {index : ℕ} (h : slots.firstFree = some index)
    (a : α) : ∃ before after, slots.live = before ++ after ∧
      (slots.write index (some a)).live = before ++ a :: after := by
  obtain ⟨before, cell, after, hsplit, rfl, hnone, -⟩ := findIdx?_split h
  rw [Option.isNone_iff_eq_none] at hnone
  subst hnone
  refine ⟨before.reduceOption, after.reduceOption, ?_, ?_⟩
  · rw [live, hsplit, List.reduceOption_append, List.reduceOption_cons_of_none]
  · rw [live, toList_write, hsplit, set_split, List.reduceOption_append,
      List.reduceOption_cons_of_some]

/-- The table is full exactly when no cell is empty. -/
theorem firstFree_eq_none_iff {slots : SlotArray α n} :
    slots.firstFree = none ↔ slots.live.length = n := by
  have hfull : slots.live.length = slots.toList.length ↔ ∀ cell ∈ slots.toList, cell.isSome := by
    rw [live, List.reduceOption_length_eq_iff]
  rw [List.Vector.toList_length] at hfull
  rw [hfull, firstFree, List.findIdx?_eq_none_iff]
  simp [Option.isNone_eq_false_iff]

/-- An empty cell is room for one more row. -/
theorem length_live_lt_of_firstFree {slots : SlotArray α n} {index : ℕ}
    (h : slots.firstFree = some index) : slots.live.length < n := by
  apply lt_of_le_of_ne slots.length_live_le
  intro hfull
  rw [firstFree_eq_none_iff.mpr hfull] at h
  cases h

/-- A table with a spare row has an empty cell. -/
theorem exists_firstFree {slots : SlotArray α n} (h : slots.live.length < n) :
    ∃ index, slots.firstFree = some index := by
  rw [← Option.isSome_iff_exists, Option.isSome_iff_ne_none]
  intro hnone
  have := firstFree_eq_none_iff.mp hnone
  omega

/-! ## Lookup -/

/-- A failed lookup means no live row matches. -/
theorem findLive_eq_none_iff {slots : SlotArray α n} {p : α → Bool} :
    slots.findLive p = none ↔ ∀ a ∈ slots.live, p a = false := by
  rw [findLive, List.findIdx?_eq_none_iff]
  constructor
  · intro h a ha
    simpa using h (some a) (mem_live.mp ha)
  · intro h cell hcell
    cases cell with
    | none => rfl
    | some a => simpa using h a (mem_live.mpr hcell)

/-- A successful lookup points at the first matching row: overwriting its cell replaces that row in
place, or deletes it. -/
theorem live_write_findLive {slots : SlotArray α n} {p : α → Bool} {index : ℕ}
    (h : slots.findLive p = some index) :
    ∃ before a after, slots.live = before ++ a :: after ∧ p a = true ∧
      (∀ b ∈ before, p b = false) ∧ (slots.write index none).live = before ++ after ∧
      ∀ b, (slots.write index (some b)).live = before ++ b :: after := by
  obtain ⟨before, cell, after, hsplit, rfl, hp, hbefore⟩ := findIdx?_split h
  cases cell with
  | none => simp at hp
  | some a =>
    refine ⟨before.reduceOption, a, after.reduceOption, ?_, by simpa using hp, ?_, ?_, ?_⟩
    · rw [live, hsplit, List.reduceOption_append, List.reduceOption_cons_of_some]
    · intro b hb
      simpa using hbefore (some b) (List.reduceOption_mem_iff.mp hb)
    · rw [live, toList_write, hsplit, set_split, List.reduceOption_append,
        List.reduceOption_cons_of_none]
    · intro b
      rw [live, toList_write, hsplit, set_split, List.reduceOption_append,
        List.reduceOption_cons_of_some]

/-- A successful lookup points at a row that matches. -/
theorem exists_of_findLive {slots : SlotArray α n} {p : α → Bool} {index : ℕ}
    (h : slots.findLive p = some index) : ∃ a, slots.toList[index]? = some (some a) ∧ p a = true := by
  obtain ⟨before, cell, after, hsplit, rfl, hp, -⟩ := findIdx?_split h
  cases cell with
  | none => simp at hp
  | some a =>
    refine ⟨a, ?_, by simpa using hp⟩
    rw [hsplit, List.getElem?_append_right (Nat.le_refl _), Nat.sub_self]
    rfl

/-- Writing back what a cell holds changes nothing. -/
theorem write_self {slots : SlotArray α n} {index : ℕ} {cell : Option α}
    (h : slots.toList[index]? = some cell) : slots.write index cell = slots := by
  obtain ⟨hlt, hcell⟩ := List.getElem?_eq_some_iff.mp h
  apply List.Vector.toList_injective
  rw [toList_write, ← hcell, List.set_getElem_self]

/-- Live rows that a key tells apart lie in one cell each. -/
theorem index_eq_of_nodup {β : Type*} {slots : SlotArray α n} {key : α → β}
    (hnodup : (slots.live.map key).Nodup) {i j : ℕ} {a b : α}
    (ha : slots.toList[i]? = some (some a)) (hb : slots.toList[j]? = some (some b))
    (hkey : key a = key b) : i = j := by
  rw [live] at hnodup
  generalize slots.toList = cells at hnodup ha hb
  induction cells generalizing i j with
  | nil => cases ha
  | cons cell cells ih =>
    have hmem {k : ℕ} {c : α} (h : cells[k]? = some (some c)) : c ∈ cells.reduceOption :=
      List.reduceOption_mem_iff.mpr (List.mem_of_getElem? h)
    cases cell with
    | none =>
      rw [List.reduceOption_cons_of_none] at hnodup
      cases i with
      | zero => cases ha
      | succ i =>
        cases j with
        | zero => cases hb
        | succ j => exact congrArg Nat.succ (ih hnodup ha hb)
    | some c =>
      rw [List.reduceOption_cons_of_some, List.map_cons, List.nodup_cons] at hnodup
      cases i with
      | zero =>
        cases ha
        cases j with
        | zero => rfl
        | succ j => exact absurd (List.mem_map.mpr ⟨b, hmem hb, hkey.symm⟩) hnodup.1
      | succ i =>
        cases j with
        | zero =>
          cases hb
          exact absurd (List.mem_map.mpr ⟨a, hmem ha, hkey⟩) hnodup.1
        | succ j => exact congrArg Nat.succ (ih hnodup.2 ha hb)

/-- Distinct cells hold as many live rows. -/
theorem length_le_countP_live {slots : SlotArray α n} {p : α → Bool} {indices : List ℕ}
    (hnodup : indices.Nodup)
    (h : ∀ index ∈ indices, ∃ a, slots.toList[index]? = some (some a) ∧ p a = true) :
    indices.length ≤ slots.live.countP p := by
  have hcount (cells : List (Option α)) :
      ((List.range cells.length).filter fun index => cells[index]?.join.any p).length =
        cells.reduceOption.countP p := by
    induction cells with
    | nil => rfl
    | cons cell cells ih =>
      rw [List.length_cons, List.range_succ_eq_map, List.filter_cons, List.filter_map]
      cases cell with
      | none => simpa [Function.comp_def] using ih
      | some a =>
        by_cases hp : p a
        · simpa [hp, Function.comp_def] using ih
        · simpa [hp, Function.comp_def] using ih
  rw [live, ← hcount]
  apply (List.subperm_of_subset hnodup _).length_le
  intro index hindex
  obtain ⟨a, hcell, hp⟩ := h index hindex
  rw [List.mem_filter, List.mem_range]
  refine ⟨(List.getElem?_eq_some_iff.mp hcell).1, ?_⟩
  rw [hcell]
  exact hp

/-! ## Bulk deletion -/

/-- Clearing by a predicate filters the live rows. -/
theorem live_clearWhere (slots : SlotArray α n) (p : α → Bool) :
    (slots.clearWhere p).live = slots.live.filter fun a => !p a := by
  rw [live, live, clearWhere, List.Vector.toList_map]
  induction slots.toList with
  | nil => rfl
  | cons cell rest ih =>
    cases cell with
    | none => simpa using ih
    | some a =>
      rw [List.map_cons, List.reduceOption_cons_of_some]
      by_cases hp : p a
      · simpa [hp] using ih
      · simpa [hp] using ih

end SlotArray
