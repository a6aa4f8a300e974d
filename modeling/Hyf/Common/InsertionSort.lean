import Mathlib.Data.List.Induction
import Mathlib.Order.Lattice

/-!
# Insertion into the sorted front of a buffer

A comparison function that compares keys of a linear order, the loop that makes room for an element in
the sorted front of a buffer, and the scan that keeps the first of all elements.
-/

namespace Hyf

namespace InsertionSort

variable {α κ : Type*} [LinearOrder κ]

/-- Put an element into a buffer whose first `written` cells are sorted: the cells that it precedes move
up by one. -/
def insertShifting (precedes : α → α → Bool) (a : α) : ℕ → List α → List α
  | 0, out => out.set 0 a
  | index + 1, out =>
    match out[index]? with
    | some earlier =>
      if precedes a earlier then insertShifting precedes a index (out.set (index + 1) earlier)
      else out.set (index + 1) a
    | none => out

/-- Keep the earlier of two elements, the one already selected on a tie. -/
def keepFirst (precedes : α → α → Bool) (selected : Option α) (a : α) : Option α :=
  match selected with
  | some existing => if precedes a existing then some a else some existing
  | none => some a

section

variable {precedes : α → α → Bool} {key : α → κ}

/-- The front stays sorted and gains the element, and what is behind it is not touched. -/
theorem insertShifting_spec (hprecedes : ∀ a b, precedes a b = true ↔ key a < key b) {a : α}
    {front : List α} {hole : α} {rest : List α} (hsorted : front.Pairwise fun x y => key x < key y)
    (hfresh : ∀ x ∈ front, key x ≠ key a) :
    ∃ front', front'.Perm (a :: front) ∧ (front'.Pairwise fun x y => key x < key y) ∧
      insertShifting precedes a front.length (front ++ hole :: rest) = front' ++ rest := by
  induction front using List.reverseRecOn generalizing hole rest with
  | nil => exact ⟨[a], .refl _, List.pairwise_singleton _ _, rfl⟩
  | append_singleton front last ih =>
    obtain ⟨hfront, -, hlast⟩ := List.pairwise_append.mp hsorted
    have hbelow : ∀ x ∈ front, key x < key last := fun x hx => hlast x hx last List.mem_cons_self
    have hget : ((front ++ [last]) ++ hole :: rest)[front.length]? = some last := by simp
    have hset : ∀ x : α, ((front ++ [last]) ++ hole :: rest).set (front.length + 1) x =
        (front ++ [last]) ++ x :: rest := by
      intro x
      rw [List.set_append_right _ _ (by simp), List.length_append, List.length_singleton,
        Nat.sub_self, List.set_cons_zero]
    rw [List.length_append, List.length_singleton]
    simp only [insertShifting, hget, hset]
    by_cases hbefore : precedes a last = true
    · -- the last element moves up, and the place it had is the hole of the shorter front
      obtain ⟨front', hperm, hsorted', hinsert⟩ := @ih last (last :: rest) hfront
        fun x hx => hfresh x (List.mem_append_left _ hx)
      rw [if_pos hbefore, List.append_assoc, List.singleton_append, hinsert]
      refine ⟨front' ++ [last], ?_, ?_, by simp⟩
      · exact (hperm.append_right [last]).trans (by simp)
      · refine List.pairwise_append.mpr ⟨hsorted', List.pairwise_singleton _ _, ?_⟩
        intro x hx y hy
        rw [List.mem_singleton.mp hy]
        obtain rfl | hx := List.mem_cons.mp (hperm.mem_iff.mp hx)
        · exact (hprecedes _ _).mp hbefore
        · exact hbelow x hx
    · rw [if_neg hbefore]
      have hafter : key last < key a := by
        refine lt_of_le_of_ne (not_lt.mp fun hlt => hbefore ((hprecedes _ _).mpr hlt)) ?_
        exact hfresh last (List.mem_append_right _ List.mem_cons_self)
      refine ⟨front ++ [last] ++ [a], List.perm_append_singleton _ _, ?_, by simp⟩
      refine List.pairwise_append.mpr ⟨hsorted, List.pairwise_singleton _ _, ?_⟩
      intro x hx y hy
      rw [List.mem_singleton.mp hy]
      obtain hx | hx := List.mem_append.mp hx
      · exact (hbelow x hx).trans hafter
      · rwa [List.mem_singleton.mp hx]

/-- The scan ends with one of the elements, and none precedes it. -/
theorem foldl_keepFirst (hprecedes : ∀ a b, precedes a b = true ↔ key a < key b) (a : α)
    (l : List α) : ∃ first ∈ a :: l, l.foldl (keepFirst precedes) (some a) = some first ∧
      ∀ x ∈ a :: l, key first ≤ key x := by
  induction l generalizing a with
  | nil => exact ⟨a, List.mem_cons_self, rfl, by simp⟩
  | cons b l ih =>
    rw [List.foldl_cons, keepFirst]
    by_cases hbefore : precedes b a = true
    · rw [if_pos hbefore]
      obtain ⟨first, hmem, hfold, hle⟩ := ih b
      refine ⟨first, List.mem_cons_of_mem _ hmem, hfold, fun x hx => ?_⟩
      obtain rfl | hx := List.mem_cons.mp hx
      · exact (hle b List.mem_cons_self).trans ((hprecedes _ _).mp hbefore).le
      · exact hle x hx
    · rw [if_neg hbefore]
      have hkeep : key a ≤ key b := not_lt.mp fun hlt => hbefore ((hprecedes _ _).mpr hlt)
      obtain ⟨first, hmem, hfold, hle⟩ := ih a
      have hfirst := hle a List.mem_cons_self
      refine ⟨first, ?_, hfold, fun x hx => ?_⟩
      · obtain rfl | hmem := List.mem_cons.mp hmem
        · exact List.mem_cons_self
        · exact List.mem_cons_of_mem _ (List.mem_cons_of_mem _ hmem)
      · obtain rfl | hx := List.mem_cons.mp hx
        · exact hfirst
        · obtain rfl | hx := List.mem_cons.mp hx
          · exact hfirst.trans hkeep
          · exact hle x (List.mem_cons_of_mem _ hx)

/-- The scan finds the head of the sorted list. -/
theorem foldl_keepFirst_eq_head? (hprecedes : ∀ a b, precedes a b = true ↔ key a < key b)
    {sorted l : List α} (hperm : sorted.Perm l) (hsorted : sorted.Pairwise fun x y => key x < key y) :
    l.foldl (keepFirst precedes) none = sorted.head? := by
  cases l with
  | nil =>
    rw [hperm.eq_nil]
    rfl
  | cons a l =>
    obtain ⟨first, hmem, hfold, hle⟩ := foldl_keepFirst hprecedes a l
    change l.foldl (keepFirst precedes) (some a) = _
    rw [hfold]
    cases sorted with
    | nil => exact absurd hperm.symm.eq_nil (List.cons_ne_nil _ _)
    | cons head rest =>
      have hbelow := (List.pairwise_cons.mp hsorted).1
      obtain rfl | hrest := List.mem_cons.mp (hperm.mem_iff.mpr hmem)
      · rfl
      · have := hle head (hperm.mem_iff.mp List.mem_cons_self)
        exact absurd (hbelow first hrest) (not_lt.mpr this)

end

end InsertionSort

end Hyf
