import Hyf.Nostr.FakeRelay

/-!
# What a filter accepts

A filter is a condition on the fields of an event and on the keys in its `p` tags. The relay collects
these keys into a buffer first. The buffer is as long as the tags of a stored event may be many, so
that no key is missed.
-/

namespace Hyf.Nostr

open ByteCodec

/-- The event names the key in a `p` tag. -/
def NostrEvent.Mentions (event : NostrEvent) (key : NostrPublicKey) : Prop :=
  ∃ tag ∈ event.tags, tag.name = "p" ∧
    ∃ value ∈ tag.value, asBytes value = lowerHex key.bytes.toList

instance (event : NostrEvent) (key : NostrPublicKey) : Decidable (event.Mentions key) :=
  inferInstanceAs (Decidable (∃ tag ∈ event.tags, tag.name = "p" ∧
    ∃ value ∈ tag.value, asBytes value = lowerHex key.bytes.toList))

/-- What the filter asks of an event; a list that is empty asks nothing. -/
def NostrFilter.Accepts (filter : NostrFilter) (event : NostrEvent) : Prop :=
  (filter.kinds = [] ∨ event.kind ∈ filter.kinds) ∧
    (filter.authors = [] ∨ event.pubkey ∈ filter.authors) ∧
    (filter.pTags = [] ∨ ∃ key ∈ filter.pTags, event.Mentions key) ∧
    (∀ first ∈ filter.since, first ≤ event.createdAt) ∧
    ∀ last ∈ filter.«until», event.createdAt ≤ last

-- the quantifiers over an `Option` are named: a search over all 64-bit times decides them too
instance (filter : NostrFilter) (event : NostrEvent) : Decidable (filter.Accepts event) :=
  haveI : Decidable (∀ first ∈ filter.since, first ≤ event.createdAt) := Option.decidableForallMem _
  haveI : Decidable (∀ last ∈ filter.«until», event.createdAt ≤ last) := Option.decidableForallMem _
  inferInstanceAs (Decidable (_ ∧ _ ∧ _ ∧ _ ∧ _))

namespace FakeNostrEventRecord

variable {capacity : ℕ} {keys : List NostrPublicKey} {key : NostrPublicKey}

theorem mem_collectPTag {tag : NostrTagRef} (hroom : keys.length < capacity) :
    key ∈ collectPTag capacity keys tag ↔ key ∈ keys ∨
      tag.name = "p" ∧ ∃ value ∈ tag.value, asBytes value = lowerHex key.bytes.toList := by
  unfold collectPTag
  by_cases hname : tag.name = "p"
  · rw [if_neg (not_or.mpr ⟨not_not.mpr hname, hroom.ne⟩)]
    cases tag.value with
    | none => simp
    | some value =>
      have hspells := @decodeFixedLowerHex_eq_ok_iff 32 (by decide) value key.bytes
      simp only [hname, true_and, Option.mem_some_iff, exists_eq_left', ← hspells]
      cases decodeFixedLowerHex 32 value with
      | ok bytes =>
        rw [List.mem_append, List.mem_singleton, Except.ok.injEq]
        apply or_congr_right
        exact ⟨fun hkey => hkey ▸ rfl, fun hbytes => congrArg NostrPublicKey.mk hbytes.symm⟩
      | error fault => simp
  · rw [if_pos (.inl hname)]
    simp [hname]

theorem length_collectPTag_le {tag : NostrTagRef} :
    (collectPTag capacity keys tag).length ≤ keys.length + 1 := by
  unfold collectPTag
  split_ifs
  · exact Nat.le_succ _
  · cases tag.value with
    | none => exact Nat.le_succ _
    | some value =>
      dsimp only
      cases decodeFixedLowerHex 32 value with
      | ok bytes => exact List.length_append.le
      | error fault => exact Nat.le_succ _

/-- The keys of the tags are added one by one, as long as there is room for one from each. -/
theorem mem_foldl_collectPTag {tags : List NostrTagRef} (hroom : keys.length + tags.length ≤ capacity) :
    key ∈ tags.foldl (collectPTag capacity) keys ↔ key ∈ keys ∨ ∃ tag ∈ tags, tag.name = "p" ∧
      ∃ value ∈ tag.value, asBytes value = lowerHex key.bytes.toList := by
  induction tags generalizing keys with
  | nil => simp
  | cons tag tags ih =>
    rw [List.length_cons] at hroom
    have hlen := @length_collectPTag_le capacity keys tag
    rw [List.foldl_cons, ih (by omega), mem_collectPTag (by omega), or_assoc]
    simp only [List.mem_cons, exists_eq_or_imp]

/-- **No key is missed.** -/
theorem mem_collectPTags (record : FakeNostrEventRecord) :
    key ∈ record.collectPTags eventPTagScanCapacity ↔ record.event.Mentions key := by
  have hroom : ([] : List NostrPublicKey).length + record.tags.tags.length ≤ eventPTagScanCapacity := by
    rw [List.length_nil, Nat.zero_add]
    exact record.tags.length_le
  rw [collectPTags, mem_foldl_collectPTag hroom]
  simp only [List.not_mem_nil, false_or]
  exact Iff.rfl

end FakeNostrEventRecord

/-- The relay tells whether a filter accepts the event. -/
theorem eventMatchesFilters_iff {record : FakeNostrEventRecord} {filters : List NostrFilter} :
    eventMatchesFilters record filters = true ↔ ∃ filter ∈ filters, filter.Accepts record.event := by
  rw [eventMatchesFilters, matchesAnyFilter, List.any_eq_true]
  apply exists_congr
  intro filter
  apply and_congr_right
  intro _
  simp only [NostrFilter.matchesTarget, NostrFilter.Accepts, hasAnyPTag, Bool.and_eq_true,
    Bool.or_eq_true, List.isEmpty_iff, List.contains_iff_mem, List.any_eq_true,
    FakeNostrEventRecord.mem_collectPTags, Option.all_eq_true, decide_eq_true_iff, and_assoc]
  exact Iff.rfl

end Hyf.Nostr
