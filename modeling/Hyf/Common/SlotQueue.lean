import Hyf.Common.SlotArray
import Mathlib.Data.List.Rotate

/-!
# Queues in slot arrays

A slot array that is filled at its first empty cell and rotated when its first cell is emptied is a
bounded queue: its occupied cells are a contiguous prefix, in the order in which they were filled.
`Packed` says so, and each operation of the array is the corresponding one of the queue.
-/

namespace SlotArray

variable {α : Type*} {n : ℕ} {slots : SlotArray α n} {queue : List α}

/-- `rotate_left(1)`. -/
def rotateLeft (slots : SlotArray α n) : SlotArray α n :=
  ⟨slots.toList.rotate 1, by rw [List.length_rotate, slots.toList_length]⟩

@[simp] theorem toList_rotateLeft (slots : SlotArray α n) :
    slots.rotateLeft.toList = slots.toList.rotate 1 := rfl

/-- `for index in 1..n { slots[index - 1] = slots[index] }`. -/
def shiftDown (slots : SlotArray α n) : SlotArray α n :=
  (List.range' 1 (n - 1)).foldl
    (fun slots index => slots.write (index - 1) (slots.toList[index]?).join) slots

/-- The loop moves every cell behind `before` one place forward and leaves the last one as it is. -/
theorem toList_foldl_shift {before after : List (Option α)} {cell : Option α}
    (h : slots.toList = before ++ cell :: after) :
    ∃ last, ((List.range' (before.length + 1) after.length).foldl
      (fun slots index => slots.write (index - 1) (slots.toList[index]?).join) slots).toList =
        before ++ after ++ [last] := by
  induction after generalizing slots before cell with
  | nil => exact ⟨cell, by rw [List.append_nil]; exact h⟩
  | cons next after ih =>
    have hnext : slots.toList[before.length + 1]? = some next := by
      rw [h, List.getElem?_append_right (Nat.le_add_right _ 1), Nat.add_sub_cancel_left]
      rfl
    have hwrite : (slots.write before.length next).toList =
        (before ++ [next]) ++ next :: after := by
      rw [toList_write, h, set_split, List.append_assoc, List.singleton_append]
    obtain ⟨last, hlast⟩ := ih hwrite
    refine ⟨last, ?_⟩
    rw [List.length_append, List.length_singleton] at hlast
    rw [List.length_cons, List.range'_succ, List.foldl_cons, Nat.add_sub_cancel, hnext,
      Option.join_some, hlast, List.append_assoc before, List.singleton_append]

/-- Shifting down and emptying the last cell takes the first one away. -/
theorem toList_shiftDown_write {cell : Option α} {after : List (Option α)}
    (h : slots.toList = cell :: after) :
    (slots.shiftDown.write (n - 1) none).toList = after ++ [none] := by
  have hlen := congrArg List.length h
  rw [slots.toList_length, List.length_cons] at hlen
  have hlast : n - 1 = after.length := by omega
  obtain ⟨last, hshift⟩ := toList_foldl_shift (show slots.toList = [] ++ cell :: after from h)
  rw [List.length_nil, Nat.zero_add, List.nil_append, ← hlast] at hshift
  rw [toList_write, shiftDown, hshift, hlast, set_split]

/-- The cells hold the queue, first to last, and are empty behind it. -/
structure Packed (slots : SlotArray α n) (queue : List α) : Prop where
  toList_eq : slots.toList = queue.map some ++ List.replicate (n - queue.length) none

namespace Packed

theorem of_empty : (empty α n).Packed [] := ⟨by simp⟩

theorem live_eq (h : slots.Packed queue) : slots.live = queue := by
  rw [live, h.toList_eq, List.reduceOption_append]
  have hsome : (queue.map some).reduceOption = queue := by
    rw [List.reduceOption, List.filterMap_map]
    exact List.filterMap_some
  have hnone : (List.replicate (n - queue.length) (none : Option α)).reduceOption = [] := by
    induction n - queue.length with
    | zero => rfl
    | succ count ih => rw [List.replicate_succ, List.reduceOption_cons_of_none, ih]
  rw [hsome, hnone, List.append_nil]

theorem length_le (h : slots.Packed queue) : queue.length ≤ n := by
  rw [← h.live_eq]
  exact slots.length_live_le

/-- The first empty cell is the one behind the queue. -/
theorem firstFree_eq (h : slots.Packed queue) (hroom : queue.length < n) :
    slots.firstFree = some queue.length := by
  rw [firstFree, h.toList_eq, List.findIdx?_append, List.findIdx?_eq_none_iff.mpr (by simp)]
  obtain ⟨count, hcount⟩ : ∃ count, n - queue.length = count + 1 := ⟨n - queue.length - 1, by omega⟩
  rw [hcount, List.replicate_succ, List.findIdx?_cons]
  simp

theorem firstFree_eq_none (h : slots.Packed queue) (hfull : queue.length = n) :
    slots.firstFree = none := by
  rw [firstFree_eq_none_iff, h.live_eq, hfull]

/-- Filling that cell puts a value last. -/
theorem push (h : slots.Packed queue) (hroom : queue.length < n) (a : α) :
    (slots.write queue.length (some a)).Packed (queue ++ [a]) := by
  constructor
  obtain ⟨count, hcount⟩ : ∃ count, n - queue.length = count + 1 := ⟨n - queue.length - 1, by omega⟩
  have hrest : n - (queue ++ [a]).length = count := by
    rw [List.length_append, List.length_singleton]
    omega
  rw [toList_write, h.toList_eq, hrest, hcount, List.replicate_succ, List.map_append,
    List.map_singleton, List.append_assoc, List.singleton_append]
  conv_lhs => rw [← List.length_map (some : α → Option α)]
  exact set_split _ _ _ _

/-- The first cell holds the first value. -/
theorem head?_eq {a : α} (h : slots.Packed (a :: queue)) : slots.toList.head? = some (some a) := by
  rw [h.toList_eq]
  rfl

theorem head?_eq_of_nil (h : slots.Packed []) :
    slots.toList.head? = none ∨ slots.toList.head? = some none := by
  rw [h.toList_eq, List.map_nil, List.nil_append, List.length_nil, Nat.sub_zero]
  cases n with
  | zero => exact .inl rfl
  | succ n => exact .inr rfl

/-- Emptying the first cell of a longer array and rotating takes the first value away. -/
theorem pop {a : α} (h : slots.Packed (a :: queue)) :
    (((slots.write 0 none).rotateLeft).write (n - 1) none).Packed queue := by
  have hlen := h.length_le
  rw [List.length_cons] at hlen
  constructor
  have hcells : slots.toList = some a :: (queue.map some ++ List.replicate (n - (queue.length + 1)) none) :=
    h.toList_eq
  have hlast : n - 1 =
      (queue.map some ++ List.replicate (n - (queue.length + 1)) (none : Option α)).length := by
    rw [List.length_append, List.length_map, List.length_replicate]
    omega
  have hrest : n - queue.length = n - (queue.length + 1) + 1 := by omega
  rw [toList_write, toList_rotateLeft, toList_write, hcells, List.set_cons_zero,
    List.rotate_cons_succ, List.rotate_zero, hlast, set_split, List.append_assoc, hrest,
    List.replicate_succ']

/-- So does shifting down and emptying the last cell. -/
theorem pop_shiftDown {a : α} (h : slots.Packed (a :: queue)) :
    (slots.shiftDown.write (n - 1) none).Packed queue := by
  have hlen := h.length_le
  rw [List.length_cons] at hlen
  constructor
  have hcells : slots.toList =
      some a :: (queue.map some ++ List.replicate (n - (queue.length + 1)) none) := h.toList_eq
  have hrest : n - queue.length = n - (queue.length + 1) + 1 := by omega
  rw [toList_shiftDown_write hcells, List.append_assoc, hrest, List.replicate_succ']

/-- An array of one cell needs no rotation. -/
theorem pop_singleton {a : α} (h : slots.Packed (a :: queue)) (hn : n ≤ 1) :
    (slots.write 0 none).Packed queue := by
  have hlen := h.length_le
  rw [List.length_cons] at hlen
  obtain rfl : queue = [] := List.length_eq_zero_iff.mp (by omega)
  obtain rfl : n = 1 := by omega
  constructor
  rw [toList_write, h.toList_eq]
  rfl

end Packed

end SlotArray
