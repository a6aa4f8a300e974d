import Mathlib.Data.List.Nodup
import Mathlib.Data.List.Perm.Subperm

/-!
# The first elements of an order

Of a list without duplicates, some elements were chosen such that no other one comes before a chosen
one. Under a total order on the list these are the elements of low rank: an element was chosen exactly
when fewer elements come before it than were chosen.
-/

namespace Hyf

section

variable {α : Type} (r : α → α → Prop)

/-- The chosen elements, none of which has an element before it that was not chosen. -/
structure Leading (all chosen : List α) : Prop where
  nodup_all : all.Nodup
  nodup : chosen.Nodup
  subset : ∀ a ∈ chosen, a ∈ all
  not_before : ∀ a ∈ chosen, ∀ b ∈ all, b ∉ chosen → ¬r b a

variable {r}

variable [DecidableRel r]

/-- How many elements come before this one. -/
def rank (r : α → α → Prop) [DecidableRel r] (all : List α) (a : α) : ℕ := all.countP fun b => r b a

/-- What comes before a chosen element was chosen too, apart from the element itself. -/
theorem Leading.rank_lt {all chosen : List α} (h : Leading r all chosen) (hirrefl : ∀ a, ¬r a a) {a : α}
    (ha : a ∈ chosen) : rank r all a < chosen.length := by
  classical
  have hbefore : ∀ b ∈ all.filter (fun b => r b a), b ∈ chosen.erase a := by
    intro b hb
    obtain ⟨hmem, hrel⟩ := List.mem_filter.mp hb
    have hrel : r b a := of_decide_eq_true hrel
    have hne : b ≠ a := by
      rintro rfl
      exact hirrefl b hrel
    have hchosen : b ∈ chosen := by
      by_contra hnot
      exact h.not_before a ha b hmem hnot hrel
    exact (List.mem_erase_of_ne hne).mpr hchosen
  have hle := (List.subperm_of_subset (h.nodup_all.filter _) hbefore).length_le
  have hpos := List.length_pos_of_mem ha
  rw [List.length_erase_of_mem ha] at hle
  rw [rank, List.countP_eq_length_filter]
  omega

/-- **The chosen elements** are those of low rank. -/
theorem Leading.mem_iff {all chosen : List α} (h : Leading r all chosen) (hirrefl : ∀ a, ¬r a a)
    (htotal : ∀ a ∈ all, ∀ b ∈ all, a ≠ b → r a b ∨ r b a) {a : α} :
    a ∈ chosen ↔ a ∈ all ∧ rank r all a < chosen.length := by
  constructor
  · exact fun ha => ⟨h.subset a ha, h.rank_lt hirrefl ha⟩
  · rintro ⟨ha, hrank⟩
    by_contra hnot
    -- otherwise every chosen element comes before it
    have hbefore : ∀ b ∈ chosen, b ∈ all.filter (fun b => r b a) := by
      intro b hb
      have hne : b ≠ a := by
        rintro rfl
        exact hnot hb
      have hrel : r b a := (htotal b (h.subset b hb) a ha hne).resolve_right (h.not_before b hb a ha hnot)
      exact List.mem_filter.mpr ⟨h.subset b hb, decide_eq_true hrel⟩
    have hle := (List.subperm_of_subset h.nodup hbefore).length_le
    rw [rank, List.countP_eq_length_filter] at hrank
    omega

end

end Hyf
