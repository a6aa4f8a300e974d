import Mathlib.Data.Multiset.Filter
import Mathlib.Data.Multiset.MapFold
import Hyf.Common.SlotArray

/-!
# Bounded maps

What a slot array is for when its rows carry a key: a finite map of bounded size. A `BoundedMap` is a
multiset of entries with pairwise distinct keys and at most `n` of them; its operations insert an
entry whose key is absent while there is room, delete the entry under a key, and keep the entries
that satisfy a predicate. `SlotArray.Represents` relates a slot array to the map it stores, and each
scan-and-write of an array is the corresponding operation of the map.
-/

/-- A map of at most `n` entries with pairwise distinct keys. -/
@[ext]
structure BoundedMap {α κ : Type*} (key : α → κ) (n : ℕ) where
  entries : Multiset α
  nodup : (entries.map key).Nodup
  card_le : entries.card ≤ n

namespace BoundedMap

variable {α κ : Type*} {key : α → κ} {n : ℕ}

def empty (key : α → κ) (n : ℕ) : BoundedMap key n where
  entries := 0
  nodup := by simp
  card_le := by simp

/-- Keep the entries that satisfy `p`. -/
def filter (p : α → Prop) [DecidablePred p] (m : BoundedMap key n) : BoundedMap key n where
  entries := m.entries.filter p
  nodup := Multiset.nodup_of_le (Multiset.map_le_map (Multiset.filter_le p m.entries)) m.nodup
  card_le := (Multiset.card_le_card (Multiset.filter_le p m.entries)).trans m.card_le

/-- An entry is accepted when its key is absent and the map is not full. -/
def Accepts (m : BoundedMap key n) (a : α) : Prop :=
  key a ∉ m.entries.map key ∧ m.entries.card < n

variable [DecidableEq κ]

instance (m : BoundedMap key n) (a : α) : Decidable (m.Accepts a) :=
  inferInstanceAs (Decidable (_ ∧ _))

/-- Insert an entry if its key is absent and the map is not full. -/
def insert (m : BoundedMap key n) (a : α) : BoundedMap key n :=
  if h : m.Accepts a then
    { entries := a ::ₘ m.entries
      nodup := by
        rw [Multiset.map_cons, Multiset.nodup_cons]
        exact ⟨h.1, m.nodup⟩
      card_le := by
        rw [Multiset.card_cons]
        exact h.2 }
  else m

/-- Delete the entry under a key. -/
def delete (m : BoundedMap key n) (k : κ) : BoundedMap key n := m.filter fun a => key a ≠ k

theorem entries_insert {m : BoundedMap key n} {a : α} (h : m.Accepts a) :
    (m.insert a).entries = a ::ₘ m.entries := by
  rw [insert, dif_pos h]

theorem insert_eq_self {m : BoundedMap key n} {a : α} (h : ¬m.Accepts a) : m.insert a = m := by
  rw [insert, dif_neg h]

/-- Deleting a key that is absent changes nothing. -/
theorem delete_eq_self {m : BoundedMap key n} {k : κ} (h : ∀ a ∈ m.entries, key a ≠ k) :
    m.delete k = m := by
  apply BoundedMap.ext
  exact Multiset.filter_eq_self.mpr h

end BoundedMap

namespace SlotArray

variable {α κ : Type*} {key : α → κ} {n : ℕ}

/-- The rows of the array are the entries of the map. -/
def Represents (slots : SlotArray α n) (m : BoundedMap key n) : Prop :=
  (slots.live : Multiset α) = m.entries

theorem represents_empty : (empty α n).Represents (BoundedMap.empty key n) := by
  show ((empty α n).live : Multiset α) = 0
  rw [live_empty]
  rfl

theorem Represents.mem_iff {slots : SlotArray α n} {m : BoundedMap key n}
    (h : slots.Represents m) {a : α} : a ∈ m.entries ↔ a ∈ slots.live := by
  rw [← h, Multiset.mem_coe]

/-- Clearing by a predicate keeps the entries that do not satisfy it. -/
theorem Represents.clearWhere {slots : SlotArray α n} {m : BoundedMap key n}
    (h : slots.Represents m) (p : α → Bool) (q : α → Prop) [DecidablePred q]
    (hpq : ∀ a, q a ↔ p a = false) : (slots.clearWhere p).Represents (m.filter q) := by
  show ((slots.clearWhere p).live : Multiset α) = m.entries.filter q
  rw [live_clearWhere, ← h, Multiset.filter_coe, Multiset.coe_eq_coe]
  apply List.Perm.of_eq
  apply List.filter_congr
  intro a _
  rw [Bool.eq_iff_iff, decide_eq_true_eq, hpq, Bool.not_eq_true']

/-- The map accepts an entry exactly when the array finds neither its key nor itself full. -/
theorem Represents.accepts_iff {slots : SlotArray α n} {m : BoundedMap key n}
    (h : slots.Represents m) {a : α} :
    m.Accepts a ↔ (∀ b ∈ slots.live, key b ≠ key a) ∧ slots.firstFree ≠ none := by
  have hcard : m.entries.card = slots.live.length := by
    rw [← h, Multiset.coe_card]
  have hle := slots.length_live_le
  rw [BoundedMap.Accepts, Multiset.mem_map, Ne, firstFree_eq_none_iff, hcard]
  simp only [h.mem_iff, not_exists, not_and]
  exact and_congr_right fun _ => by omega

variable [DecidableEq κ]

/-- Filling the first empty cell inserts an accepted entry. -/
theorem Represents.insert {slots : SlotArray α n} {m : BoundedMap key n} (h : slots.Represents m)
    {a : α} (haccepts : m.Accepts a) {index : ℕ} (hfree : slots.firstFree = some index) :
    (slots.write index (some a)).Represents (m.insert a) := by
  obtain ⟨before, after, hold, hnew⟩ := live_write_firstFree hfree a
  show ((slots.write index (some a)).live : Multiset α) = (m.insert a).entries
  rw [BoundedMap.entries_insert haccepts, ← h, hold, hnew, Multiset.cons_coe, Multiset.coe_eq_coe]
  exact List.perm_middle

/-- Emptying the cell that a scan for the key reports deletes the key. -/
theorem Represents.delete {slots : SlotArray α n} {m : BoundedMap key n} (h : slots.Represents m)
    {k : κ} {index : ℕ} (hfind : slots.findLive (fun a => key a = k) = some index) :
    (slots.write index none).Represents (m.delete k) := by
  obtain ⟨before, a, after, hlive, hkey, -, hremoved, -⟩ := live_write_findLive hfind
  have hnodup := m.nodup
  rw [← h, hlive, Multiset.map_coe, Multiset.coe_nodup, List.map_append, List.map_cons,
    List.nodup_middle, List.nodup_cons, ← List.map_append, of_decide_eq_true hkey] at hnodup
  have hother : ∀ b ∈ before ++ after, decide (key b ≠ k) = true := by
    intro b hb
    have hne : key b ≠ k := fun heq => hnodup.1 (heq ▸ List.mem_map_of_mem hb)
    exact decide_eq_true hne
  show ((slots.write index none).live : Multiset α) = m.entries.filter (fun b => key b ≠ k)
  rw [hremoved, ← h, hlive, Multiset.filter_coe, Multiset.coe_eq_coe]
  rw [List.filter_append, List.filter_cons_of_neg (by simpa using hkey), ← List.filter_append,
    List.filter_eq_self.mpr hother]

end SlotArray
