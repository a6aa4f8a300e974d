import Hyf.Nostr.Filter

/-!
# Stored Nostr records (`hyf_link_nostr`)

The relay copies texts, tags and events into records of bounded size. A text is kept in an array next
to its length, and tags in arrays of such texts; what is behind the lengths is never read. The model
keeps what was copied, and the bounds as fields.
-/

namespace Hyf.Nostr

open ByteCodec

def hyfNostrMaxTags : ℕ := 8
def hyfNostrMaxTagValues : ℕ := 4
def hyfNostrMaxTagValueChars : ℕ := 128
def hyfNostrMaxRelayStatusChars : ℕ := 256

/-! ## Texts -/

/-- A text that fits the fixed array of the source. -/
structure StoredString (n : ℕ) where
  text : String
  length_le : (asBytes text).length ≤ n
  deriving DecidableEq

/-- `from_str`: a text that does not fit is an error. -/
def StoredString.fromStr (n : ℕ) (value : String) : Outcome NostrError (StoredString n) :=
  if h : (asBytes value).length > n then fail (.storedStringTooLarge (asBytes value).length n)
  else .ok ⟨value, Nat.le_of_not_lt h⟩

abbrev StoredControlString := StoredString hyfNostrMaxRelayStatusChars
abbrev StoredSubscriptionId := StoredString nostrSubscriptionIdMaxLen

/-- A status as it is stored. -/
structure StoredRelayStatus where
  statusPrefix : NostrRelayStatusPrefix
  rawPrefix : StoredControlString
  detail : StoredControlString
  deriving DecidableEq

/-- `from_status`. -/
def StoredRelayStatus.fromStatus (status : NostrRelayStatus) : Outcome NostrError StoredRelayStatus := do
  let rawPrefix ← StoredString.fromStr hyfNostrMaxRelayStatusChars status.rawPrefix
  let detail ← StoredString.fromStr hyfNostrMaxRelayStatusChars status.detail
  return ⟨status.statusPrefix, rawPrefix, detail⟩

/-- `as_status`. -/
def StoredRelayStatus.asStatus (status : StoredRelayStatus) : NostrRelayStatus :=
  ⟨status.statusPrefix, status.rawPrefix.text, status.detail.text⟩

/-! ## Tags -/

/-- The checks of `StoredNostrTag::from_ref`, which copies the values of one tag. -/
def checkTag (valuesMax valueMax : ℕ) (tag : NostrTagRef) : Outcome NostrError Unit := do
  rejectIf (tag.values.length > valuesMax) (.tagValueCountTooLarge tag.values.length valuesMax)
  tag.values.forM fun value => rejectIf ((asBytes value).length > valueMax)
    (.tagValueTooLarge (asBytes value).length valueMax)

/-- A tag that passes fits. -/
theorem checkTag_eq_ok {valuesMax valueMax : ℕ} {tag : NostrTagRef}
    (h : checkTag valuesMax valueMax tag = .ok ()) :
    tag.values.length ≤ valuesMax ∧ ∀ value ∈ tag.values, (asBytes value).length ≤ valueMax := by
  unfold checkTag at h
  by_cases hcount : tag.values.length > valuesMax
  · rw [rejectIf_eq_fail hcount] at h
    cases h
  · rw [Outcome.bind_eq (rejectIf_eq_ok hcount)] at h
    refine ⟨Nat.le_of_not_lt hcount, fun value hvalue => ?_⟩
    exact Nat.le_of_not_lt (rejectIf_eq_ok_iff.mp (eq_ok_of_forM h value hvalue))

/-- A tag that fits passes. -/
theorem checkTag_of_le {valuesMax valueMax : ℕ} {tag : NostrTagRef}
    (hcount : tag.values.length ≤ valuesMax)
    (hvalues : ∀ value ∈ tag.values, (asBytes value).length ≤ valueMax) :
    checkTag valuesMax valueMax tag = .ok () := by
  rw [checkTag, Outcome.bind_eq (rejectIf_eq_ok (not_lt.mpr hcount))]
  exact forM_eq_ok fun value hvalue => rejectIf_eq_ok (not_lt.mpr (hvalues value hvalue))

/-- Tags that were copied. -/
structure StoredNostrTags (tagsMax valuesMax valueMax : ℕ) where
  tags : List NostrTagRef
  length_le : tags.length ≤ tagsMax
  values_le : ∀ tag ∈ tags, tag.values.length ≤ valuesMax ∧
    ∀ value ∈ tag.values, (asBytes value).length ≤ valueMax
  deriving DecidableEq

/-- `from_ref`: tags that do not fit are errors. -/
def StoredNostrTags.fromRef (tagsMax valuesMax valueMax : ℕ) (tags : List NostrTagRef) :
    Outcome NostrError (StoredNostrTags tagsMax valuesMax valueMax) :=
  if hcount : tags.length > tagsMax then fail (.tagCountTooLarge tags.length tagsMax)
  else
    match hcheck : tags.forM (checkTag valuesMax valueMax) with
    | .error fault => .error fault
    | .ok () => .ok ⟨tags, Nat.le_of_not_lt hcount,
        fun tag htag => checkTag_eq_ok (eq_ok_of_forM hcheck tag htag)⟩

/-- Tags that fit are stored. -/
theorem exists_fromRef {tagsMax valuesMax valueMax : ℕ} {tags : List NostrTagRef}
    (hcount : tags.length ≤ tagsMax) (htags : ∀ tag ∈ tags, checkTag valuesMax valueMax tag = .ok ()) :
    ∃ stored, StoredNostrTags.fromRef tagsMax valuesMax valueMax tags = .ok stored := by
  have hcheck := forM_eq_ok htags
  rw [StoredNostrTags.fromRef, dif_neg (not_lt.mpr hcount)]
  split
  · rename_i fault hfails
    rw [hcheck] at hfails
    cases hfails
  · exact ⟨_, rfl⟩

/-! ## Events -/

/-- A stored event. -/
structure FakeNostrEventRecord where
  id : NostrEventId
  pubkey : NostrPublicKey
  createdAt : UInt64
  kind : UInt16
  sig : NostrSignature
  content : StoredString hyfNostrMaxContentChars
  tags : StoredNostrTags hyfNostrMaxTags hyfNostrMaxTagValues hyfNostrMaxTagValueChars
  deriving DecidableEq

namespace FakeNostrEventRecord

/-- `from_event`: the checks of the lengths, in the order of the source. -/
def fromEvent (event : NostrEvent) : Outcome NostrError FakeNostrEventRecord := do
  let content ← StoredString.fromStr hyfNostrMaxContentChars event.content
  let tags ← StoredNostrTags.fromRef hyfNostrMaxTags hyfNostrMaxTagValues hyfNostrMaxTagValueChars
    event.tags
  return ⟨event.id, event.pubkey, event.createdAt, event.kind, event.sig, content, tags⟩

/-- An event within the bounds is copied. -/
theorem exists_fromEvent {event : NostrEvent}
    (hcontent : (asBytes event.content).length ≤ hyfNostrMaxContentChars)
    (hcount : event.tags.length ≤ hyfNostrMaxTags)
    (htags : ∀ tag ∈ event.tags, checkTag hyfNostrMaxTagValues hyfNostrMaxTagValueChars tag = .ok ()) :
    ∃ record, fromEvent event = .ok record := by
  obtain ⟨stored, hstored⟩ := exists_fromRef hcount htags
  rw [fromEvent, StoredString.fromStr, dif_neg (not_lt.mpr hcontent), Outcome.bind_eq rfl,
    Outcome.bind_eq hstored]
  exact ⟨_, rfl⟩

/-- The round of `collect_p_tags` for one tag: a tag `p` that spells a key adds it. -/
def collectPTag (capacity : ℕ) (keys : List NostrPublicKey) (tag : NostrTagRef) : List NostrPublicKey :=
  if tag.name ≠ "p" ∨ keys.length = capacity then keys
  else
    match tag.value with
    | none => keys
    | some value =>
      -- a value that is no key is passed over
      match decodeFixedLowerHex 32 value with
      | .ok bytes => keys ++ [⟨bytes⟩]
      | .error _ => keys

/-- The keys, at most `capacity` of them. -/
def collectPTags (record : FakeNostrEventRecord) (capacity : ℕ) : List NostrPublicKey :=
  record.tags.tags.foldl (collectPTag capacity) []

/-- The event that a record shows; its tags and its content are checked again. -/
def withEvent {T : Type} (record : FakeNostrEventRecord) (f : NostrEvent → T) :
    Outcome NostrError T := do
  let tags ← record.tags.tags.mapM fun tag => NostrTagRef.new tag.values
  let event ← NostrEvent.new record.id record.pubkey record.createdAt record.kind tags
    record.content.text record.sig
  return f event

/-- The event that was stored. -/
def event (record : FakeNostrEventRecord) : NostrEvent :=
  ⟨record.id, record.pubkey, record.createdAt, record.kind, record.tags.tags, record.content.text,
    record.sig⟩

/-- A tag is made again of its values. -/
theorem newTag_values (tag : NostrTagRef) : NostrTagRef.new tag.values = .ok tag := by
  rw [NostrTagRef.new, dif_neg tag.ne_nil]

/-- The event is handed on as it was stored. -/
theorem withEvent_eq {T : Type} (record : FakeNostrEventRecord) (f : NostrEvent → T) :
    record.withEvent f = .ok (f record.event) := by
  have htags (tags : List NostrTagRef) :
      (tags.mapM fun tag => NostrTagRef.new tag.values) = .ok tags := by
    induction tags with
    | nil => rfl
    | cons tag tags ih =>
      rw [List.mapM_cons, Outcome.bind_eq (newTag_values tag), Outcome.bind_eq ih]
      rfl
  rw [withEvent, Outcome.bind_eq (htags _), NostrEvent.new, validateContentLen,
    rejectIf_eq_ok (not_lt.mpr record.content.length_le)]
  rfl

end FakeNostrEventRecord

end Hyf.Nostr
