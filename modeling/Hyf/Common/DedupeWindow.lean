import Hyf.Common.SlotArray
import Mathlib.Data.List.DropRight
import Mathlib.Data.List.Nodup

/-!
# Duplicate suppression over a bounded window

A duplicate filter of capacity `n` remembers the last `n` keys committed to it. The concrete filter
is a ring: a `SlotArray` written round robin at a cursor `next`. The abstract filter is a history,
the list of every key committed so far, of which only the final window `history.rtake n` counts.

`Represents` ties the two together. A history is `Fresh` when no key was committed while still in
the window, which is what a filter that checks before it commits guarantees; the payoff is
`Fresh.separation`: between two commits of one key lie at least `n` pairwise distinct other keys.
-/

namespace DedupeWindow

variable {α : Type*} {n : ℕ}

/-- Every element of a short enough suffix is inside the window. -/
theorem mem_rtake_append {l suffix : List α} {a : α} (hlen : suffix.length ≤ n)
    (ha : a ∈ suffix) : a ∈ (l ++ suffix).rtake n := by
  rw [List.rtake, List.length_append, List.drop_append_of_le_length (by omega)]
  exact List.mem_append_right _ ha

/-- Committing one more key shifts the window by one. -/
theorem rtake_append_singleton (hn : 0 < n) (history : List α) (a : α) :
    (history ++ [a]).rtake n = history.rtake (n - 1) ++ [a] := by
  rw [List.rtake, List.rtake, List.length_append, List.length_singleton,
    List.drop_append_of_le_length (by omega)]
  congr 2
  omega

theorem length_rtake (history : List α) : (history.rtake n).length = min n history.length := by
  rw [List.rtake, List.length_drop]
  omega

/-! ## Histories -/

/-- No key of the history was committed while still inside the window. -/
def Fresh (n : ℕ) (history : List α) : Prop :=
  ∀ before a after, history = before ++ a :: after → a ∉ before.rtake n

theorem Fresh.nil : Fresh n ([] : List α) := by
  intro before a after h
  simp at h

/-- A key outside the window extends a fresh history. -/
theorem Fresh.snoc {history : List α} (h : Fresh n history) {a : α} (ha : a ∉ history.rtake n) :
    Fresh n (history ++ [a]) := by
  intro before b after hsplit
  rcases List.eq_nil_or_concat' after with rfl | ⟨after, c, rfl⟩
  · obtain ⟨rfl, hb⟩ := List.append_inj' hsplit rfl
    rw [List.singleton_inj] at hb
    exact hb ▸ ha
  · rw [show before ++ b :: (after ++ [c]) = (before ++ b :: after) ++ [c] by simp] at hsplit
    exact h before b after (List.append_inj' hsplit rfl).1

/-- The keys that follow a commit are pairwise distinct, and differ from it, for a whole window. -/
theorem Fresh.nodup_take {before mid : List α} {a : α} (h : Fresh n (before ++ a :: mid)) :
    (a :: mid.take n).Nodup := by
  -- grow the prefix one key at a time: each key is checked against a window that holds the others
  have hgrow : ∀ k ≤ n, (a :: mid.take k).Nodup := by
    intro k
    induction k with
    | zero => simp
    | succ k ih =>
      intro hk
      by_cases hlt : k < mid.length
      · rw [List.take_succ_eq_append_getElem hlt, ← List.cons_append, List.nodup_append]
        refine ⟨ih (by omega), List.nodup_singleton _, ?_⟩
        rintro x hx y hy rfl
        rw [List.mem_singleton] at hy
        subst hy
        refine h (before ++ a :: mid.take k) mid[k] (mid.drop (k + 1)) ?_ ?_
        · rw [List.append_assoc, List.cons_append, List.getElem_cons_drop, List.take_append_drop]
        · refine mem_rtake_append ?_ hx
          rw [List.length_cons, List.length_take]
          omega
      · rw [List.take_of_length_le (by omega)]
        have := ih (by omega)
        rwa [List.take_of_length_le (by omega)] at this
  exact hgrow n le_rfl

/-- **Separation.** Between two commits of the same key lie at least `n` other keys, pairwise
distinct. -/
theorem Fresh.separation {before mid after : List α} {a : α}
    (h : Fresh n (before ++ a :: (mid ++ a :: after))) :
    n ≤ mid.length ∧ (mid.take n).Nodup ∧ a ∉ mid.take n := by
  have hlen : n ≤ mid.length := by
    by_contra hlt
    refine h (before ++ a :: mid) a after (by simp) (mem_rtake_append ?_ List.mem_cons_self)
    rw [List.length_cons]
    omega
  have hnodup := h.nodup_take
  rw [List.take_append_of_le_length hlen, List.nodup_cons] at hnodup
  exact ⟨hlen, hnodup.2, hnodup.1⟩

/-- The window of a fresh history has no repetition. -/
theorem Fresh.nodup_rtake {history : List α} (h : Fresh n history) : (history.rtake n).Nodup := by
  rcases hwindow : history.rtake n with _ | ⟨a, mid⟩
  · exact List.nodup_nil
  · have hsplit : history = history.take (history.length - n) ++ a :: mid := by
      rw [← hwindow, List.rtake, List.take_append_drop]
    have hlen : (a :: mid).length ≤ n := by
      rw [← hwindow, length_rtake]
      omega
    rw [hsplit] at h
    have hnodup := h.nodup_take
    rwa [List.take_of_length_le (by rw [List.length_cons] at hlen; omega)] at hnodup

/-! ## The ring -/

/-- The ring `slots` with cursor `next` holds the window of `history`: read from the cursor on, it
is the cells never written followed by the window, oldest key first. -/
structure Represents (slots : SlotArray α n) (next : ℕ) (history : List α) : Prop where
  capacity_pos : 0 < n
  next_eq : next = history.length % n
  rotation : slots.toList.drop next ++ slots.toList.take next =
    List.replicate (n - history.length) none ++ (history.rtake n).map some

theorem represents_empty (hn : 0 < n) : Represents (SlotArray.empty α n) 0 [] where
  capacity_pos := hn
  next_eq := by simp
  rotation := by simp [List.rtake]

theorem Represents.next_lt {slots : SlotArray α n} {next : ℕ} {history : List α}
    (h : Represents slots next history) : next < n :=
  h.next_eq ▸ Nat.mod_lt _ h.capacity_pos

/-- Dropping the oldest cell and adding the new key moves the window on. -/
private theorem window_step (hn : 0 < n) (history : List α) (a : α) :
    (List.replicate (n - history.length) none ++ (history.rtake n).map some).tail ++ [some a] =
      List.replicate (n - (history ++ [a]).length) none ++
        ((history ++ [a]).rtake n).map some := by
  rw [rtake_append_singleton hn, List.length_append, List.length_singleton, List.map_append,
    List.map_singleton, ← List.append_assoc]
  congr 1
  by_cases hfull : history.length < n
  · rw [show n - history.length = (n - (history.length + 1)) + 1 by omega, List.replicate_succ,
      List.cons_append, List.tail_cons, List.rtake, List.rtake]
    congr 3
    omega
  · rw [show n - history.length = 0 by omega, show n - (history.length + 1) = 0 by omega,
      List.replicate_zero, List.nil_append, List.nil_append, List.rtake, List.rtake,
      ← List.map_tail, List.tail_drop]
    congr 2
    omega

/-- Writing at the cursor and advancing it commits one key. -/
theorem Represents.write {slots : SlotArray α n} {next : ℕ} {history : List α}
    (h : Represents slots next history) (a : α) :
    Represents (slots.write next (some a)) ((next + 1) % n) (history ++ [a]) where
  capacity_pos := h.capacity_pos
  next_eq := by
    rw [h.next_eq, List.length_append, List.length_singleton, Nat.mod_add_mod]
  rotation := by
    have hlt := h.next_lt
    have hlen : slots.toList.length = n := slots.toList_length
    rw [← window_step h.capacity_pos, ← h.rotation, SlotArray.toList_write]
    have hdrop : (slots.toList.drop next).tail = slots.toList.drop (next + 1) := by
      rw [List.tail_drop]
    have hne : slots.toList.drop next ≠ [] := by
      rw [Ne, List.drop_eq_nil_iff]
      omega
    rw [List.tail_append_of_ne_nil hne, hdrop]
    by_cases hlast : next + 1 = n
    · -- the cursor wraps: the new key is the last cell
      rw [hlast, Nat.mod_self, List.drop_zero, List.take_zero, List.append_nil,
        List.drop_of_length_le (by omega), List.nil_append, List.set_eq_take_append_cons_drop,
        if_pos (by omega), List.drop_of_length_le (by omega)]
    · rw [Nat.mod_eq_of_lt (by omega), List.drop_set_of_lt (by omega), List.append_assoc]
      congr 1
      rw [List.take_set, List.take_succ_eq_append_getElem (by omega), List.set_append_right,
        List.length_take]
      · rw [show next - min next slots.toList.length = 0 by omega, List.set_cons_zero]
      · rw [List.length_take]
        omega

/-- The live keys of the ring are the window, in some order. -/
theorem Represents.live_perm {slots : SlotArray α n} {next : ℕ} {history : List α}
    (h : Represents slots next history) : slots.live.Perm (history.rtake n) := by
  have hrot := congrArg List.reduceOption h.rotation
  rw [List.reduceOption_append, List.reduceOption_append, List.reduceOption_replicate_none,
    List.nil_append] at hrot
  have hsome : ((history.rtake n).map some).reduceOption = history.rtake n := by
    simp [List.reduceOption]
  rw [hsome] at hrot
  rw [SlotArray.live, ← hrot]
  conv_lhs => rw [← List.take_append_drop next slots.toList, List.reduceOption_append]
  exact List.perm_append_comm

theorem Represents.mem_live {slots : SlotArray α n} {next : ℕ} {history : List α}
    (h : Represents slots next history) {a : α} : a ∈ slots.live ↔ a ∈ history.rtake n :=
  h.live_perm.mem_iff

/-- While the ring is not full its cursor is at the first empty cell, so filling the first empty
cell and writing at the cursor are the same thing. -/
theorem Represents.firstFree_eq {slots : SlotArray α n} {next index : ℕ} {history : List α}
    (h : Represents slots next history) (hfree : slots.firstFree = some index) : index = next := by
  have hlen : slots.toList.length = n := slots.toList_length
  have hshort : history.length < n := by
    have hne : slots.firstFree ≠ none := by simp [hfree]
    rw [Ne, SlotArray.firstFree_eq_none_iff, h.live_perm.length_eq, length_rtake] at hne
    omega
  have hnext : next = history.length := by rw [h.next_eq, Nat.mod_eq_of_lt hshort]
  have hsplit := List.append_inj h.rotation (by
    rw [List.length_drop, List.length_replicate, hlen, hnext])
  have hcells : slots.toList = (history.rtake n).map some ++
      List.replicate (n - history.length) none := by
    rw [← hsplit.1, ← hsplit.2, List.take_append_drop]
  rw [SlotArray.firstFree, hcells, List.findIdx?_append] at hfree
  have hnone : ((history.rtake n).map some).findIdx? Option.isNone = none := by
    rw [List.findIdx?_eq_none_iff]
    simp
  rw [hnone, show n - history.length = (n - history.length - 1) + 1 by omega,
    List.replicate_succ, List.findIdx?_cons] at hfree
  simp only [Option.isNone_none, if_true, List.length_map, length_rtake] at hfree
  have : index = min n history.length := by simpa using hfree.symm
  omega

end DedupeWindow
