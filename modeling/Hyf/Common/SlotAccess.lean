import Hyf.Common.CursorM
import Hyf.Common.SlotQueue

/-!
# Slot arrays with checked indices

A program that keeps the length of a queue in a counter of its own reads and writes the cells of the
array by index, and an index out of range panics. As long as the counter is the length of the queue in
the array, no index is out of range, and the operations are those of the queue.
-/

namespace SlotArray

open ByteCodec

variable {ε α : Type} {n : ℕ} {slots : SlotArray α n} {queue : List α}

/-- `slots[index]`. -/
def readAt (slots : SlotArray α n) (index : ℕ) : Outcome ε (Option α) :=
  match slots.toList[index]? with
  | some cell => .ok cell
  | none => .error .panic

/-- `slots[index] = cell`. -/
def writeAt (slots : SlotArray α n) (index : ℕ) (cell : Option α) : Outcome ε (SlotArray α n) :=
  if index < n then .ok (slots.write index cell) else .error .panic

/-- `for index in 1..len { slots[index - 1] = slots[index] }`. -/
def shiftTo (slots : SlotArray α n) (len : ℕ) : Outcome ε (SlotArray α n) :=
  (List.range' 1 (len - 1)).foldlM (fun slots index => do
    let cell ← slots.readAt index
    slots.writeAt (index - 1) cell) slots

theorem writeAt_eq_ok {index : ℕ} (h : index < n) (cell : Option α) :
    (slots.writeAt index cell : Outcome ε (SlotArray α n)) = .ok (slots.write index cell) := if_pos h

/-- The loop moves the cells behind `before` one place forward, up to the `rest`. -/
theorem foldlM_shiftTo {before after rest : List (Option α)} {cell : Option α}
    (h : slots.toList = before ++ cell :: after ++ rest) :
    ∃ (slots' : SlotArray α n) (last : Option α),
      (List.range' (before.length + 1) after.length).foldlM (fun (slots : SlotArray α n) index => do
        let cell ← (slots.readAt index : Outcome ε (Option α))
        slots.writeAt (index - 1) cell) slots = .ok slots' ∧
      slots'.toList = before ++ after ++ last :: rest := by
  induction after generalizing slots before cell with
  | nil =>
    refine ⟨slots, cell, rfl, ?_⟩
    rw [h, List.append_nil, List.append_assoc, List.singleton_append]
  | cons next after ih =>
    have hlen := congrArg List.length h
    rw [slots.toList_length, List.length_append, List.length_append, List.length_cons,
      List.length_cons] at hlen
    have hread : (slots.readAt (before.length + 1) : Outcome ε (Option α)) = .ok next := by
      rw [readAt, h, List.append_assoc, List.getElem?_append_right (Nat.le_add_right _ 1),
        Nat.add_sub_cancel_left]
      rfl
    have hwrite : (slots.writeAt before.length next : Outcome ε (SlotArray α n)) =
        .ok (slots.write before.length next) := writeAt_eq_ok (by omega) _
    have hcells : (slots.write before.length next).toList = (before ++ [next]) ++ next :: after ++ rest := by
      rw [toList_write, h, List.append_assoc, List.cons_append, set_split]
      simp only [List.append_assoc, List.cons_append, List.nil_append]
    obtain ⟨slots', last, hloop, hlast⟩ := ih hcells
    refine ⟨slots', last, ?_, ?_⟩
    · rw [List.length_append, List.length_singleton] at hloop
      rw [List.length_cons, List.range'_succ, List.foldlM_cons, Outcome.bind_eq hread,
        Nat.add_sub_cancel, Outcome.bind_eq hwrite]
      exact hloop
    · rw [hlast, List.append_assoc before, List.singleton_append]

namespace Packed

theorem readAt_zero {a : α} (h : slots.Packed (a :: queue)) :
    (slots.readAt 0 : Outcome ε (Option α)) = .ok (some a) := by
  rw [readAt, h.toList_eq]
  rfl

/-- Shifting the cells up to the counter and emptying the last of them takes the first value away. -/
theorem exists_shiftTo {a : α} (h : slots.Packed (a :: queue)) :
    ∃ slots' : SlotArray α n, (slots.shiftTo (queue.length + 1) : Outcome ε (SlotArray α n)) = .ok slots' ∧
      (slots'.writeAt queue.length none : Outcome ε (SlotArray α n)) =
        .ok (slots'.write queue.length none) ∧
      (slots'.write queue.length none).Packed queue := by
  have hle := h.length_le
  rw [List.length_cons] at hle
  have hcells : slots.toList = [] ++ some a :: queue.map some ++
      List.replicate (n - (queue.length + 1)) none := h.toList_eq
  obtain ⟨slots', last, hloop, hlast⟩ := @foldlM_shiftTo ε _ _ _ _ _ _ _ hcells
  rw [List.length_map, List.length_nil, Nat.zero_add] at hloop
  refine ⟨slots', ?_, writeAt_eq_ok (by omega) _, ⟨?_⟩⟩
  · rw [shiftTo, Nat.add_sub_cancel]
    exact hloop
  · have hrest : n - queue.length = n - (queue.length + 1) + 1 := by omega
    have hset := set_split (queue.map some) last none (List.replicate (n - (queue.length + 1)) none)
    rw [List.length_map] at hset
    rw [toList_write, hlast, List.nil_append, hset, hrest, List.replicate_succ]

end Packed

end SlotArray
