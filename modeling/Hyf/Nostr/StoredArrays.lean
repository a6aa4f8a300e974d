import Hyf.Common.ArrayFill
import Hyf.Nostr.Stored

/-!
# Stored records in arrays (`hyf_link_nostr`)

The source keeps a stored text as an array of bytes and a length, a tag as an array of such texts and a
length, and the tags of an event as an array of tags and a length. An event is rebuilt from these arrays
through arrays of the same sizes. Here are these records and loops, next to the ones with lists: what is
copied into the arrays is what the lists keep, so that an event comes out as it went in.
-/

namespace Hyf.Nostr.Arrays

open ByteCodec

/-! ## Texts -/

/-- The fixed array of a stored string, and how many of its bytes count. -/
structure StoredString (n : ℕ) where
  bytes : List.Vector UInt8 n
  len : ℕ

namespace StoredString

variable {n : ℕ}

def empty : StoredString n := ⟨List.Vector.replicate n 0, 0⟩

def fromStr (n : ℕ) (value : String) : Outcome NostrError (StoredString n) := do
  let bytes := asBytes value
  rejectIf (bytes.length > n) (.storedStringTooLarge bytes.length n)
  let cells ← copyInto .ok 0 bytes (List.Vector.replicate n 0)
  return ⟨cells, bytes.length⟩

def asStr (stored : StoredString n) : Outcome NostrError String := do
  match fromUtf8 (← frontOf stored.bytes stored.len) with
  | some text => return text
  | none => fail .utf8

end StoredString

/-- The array that keeps a text. -/
def layoutText (n : ℕ) (text : String) : StoredString n :=
  ⟨padded n 0 (asBytes text), (asBytes text).length⟩

/-- The array is the layout of the text that the abstract string keeps, and both refuse the same
texts. -/
theorem fromStr_eq (n : ℕ) (value : String) : StoredString.fromStr n value =
    Nostr.StoredString.fromStr n value >>= fun stored => .ok (layoutText n stored.text) := by
  by_cases hlong : (asBytes value).length > n
  · rw [StoredString.fromStr, Nostr.StoredString.fromStr, dif_pos hlong]
    simp only [rejectIf_eq_fail hlong]
    rfl
  · have hbytes : ((asBytes value).mapM .ok : Outcome NostrError _) = .ok ((asBytes value).map id) :=
      List.mapM_pure
    have hcopy : (copyInto .ok 0 (asBytes value) (List.Vector.replicate n 0) : Outcome NostrError _) = _ :=
      copyInto_replicate (not_lt.mp hlong)
    rw [hbytes, List.map_id] at hcopy
    rw [StoredString.fromStr, Nostr.StoredString.fromStr, dif_neg hlong]
    simp only [rejectIf_eq_ok hlong]
    show (copyInto .ok 0 (asBytes value) (List.Vector.replicate n 0) >>= fun cells => _) = _
    rw [hcopy]
    rfl

/-- A text that fits is read back from its layout. -/
theorem asStr_layoutText {n : ℕ} {text : String} (h : (asBytes text).length ≤ n) :
    (layoutText n text).asStr = .ok text := by
  rw [StoredString.asStr, layoutText, Outcome.bind_eq (frontOf_padded h), fromUtf8_asBytes]
  rfl

/-! ## Tags -/

/-- The fixed array of a tag's values, and how many of them count. -/
structure StoredNostrTag (valuesMax valueMax : ℕ) where
  values : List.Vector (StoredString valueMax) valuesMax
  len : ℕ

namespace StoredNostrTag

variable {valuesMax valueMax : ℕ}

def empty : StoredNostrTag valuesMax valueMax := ⟨List.Vector.replicate valuesMax .empty, 0⟩

/-- The body of the loop in `from_ref`. -/
def copyValue (valueMax : ℕ) (value : String) : Outcome NostrError (StoredString valueMax) := do
  rejectIf ((asBytes value).length > valueMax) (.tagValueTooLarge (asBytes value).length valueMax)
  StoredString.fromStr valueMax value

/-- `from_ref`: the values one by one, the first failure ends the copy. -/
def fromRef (valuesMax valueMax : ℕ) (tag : NostrTagRef) :
    Outcome NostrError (StoredNostrTag valuesMax valueMax) := do
  rejectIf (tag.values.length > valuesMax) (.tagValueCountTooLarge tag.values.length valuesMax)
  let values ← copyInto (copyValue valueMax) 0 tag.values (List.Vector.replicate valuesMax .empty)
  return ⟨values, tag.values.length⟩

/-- `value`: nothing past the count. -/
def value (tag : StoredNostrTag valuesMax valueMax) (index : ℕ) : Outcome NostrError (Option String) :=
  if index ≥ tag.len then .ok none
  else do
    let stored ← cellAt tag.values index
    return some (← stored.asStr)

end StoredNostrTag

/-- The fixed array of an event's tags, and how many of them count. -/
structure StoredNostrTags (tagsMax valuesMax valueMax : ℕ) where
  tags : List.Vector (StoredNostrTag valuesMax valueMax) tagsMax
  len : ℕ

namespace StoredNostrTags

variable {tagsMax valuesMax valueMax : ℕ}

def fromRef (tagsMax valuesMax valueMax : ℕ) (tags : List NostrTagRef) :
    Outcome NostrError (StoredNostrTags tagsMax valuesMax valueMax) := do
  rejectIf (tags.length > tagsMax) (.tagCountTooLarge tags.length tagsMax)
  let cells ← copyInto (StoredNostrTag.fromRef valuesMax valueMax) 0 tags
    (List.Vector.replicate tagsMax .empty)
  return ⟨cells, tags.length⟩

/-- `tag`: nothing past the count. -/
def tag (tags : StoredNostrTags tagsMax valuesMax valueMax) (index : ℕ) :
    Outcome NostrError (Option (StoredNostrTag valuesMax valueMax)) :=
  if index ≥ tags.len then .ok none
  else do return some (← cellAt tags.tags index)

end StoredNostrTags

section Tags

variable {tagsMax valuesMax valueMax : ℕ}

/-- The arrays that keep a tag. -/
def layoutTag (valuesMax valueMax : ℕ) (tag : NostrTagRef) : StoredNostrTag valuesMax valueMax :=
  ⟨padded valuesMax .empty (tag.values.map (layoutText valueMax)), tag.values.length⟩

/-- The arrays that keep the tags. -/
def layoutTags (tagsMax valuesMax valueMax : ℕ) (tags : List NostrTagRef) :
    StoredNostrTags tagsMax valuesMax valueMax :=
  ⟨padded tagsMax .empty (tags.map (layoutTag valuesMax valueMax)), tags.length⟩

/-- A value that fits is laid out, and a longer one is refused. -/
theorem copyValue_eq (value : String) : StoredNostrTag.copyValue valueMax value =
    rejectIf ((asBytes value).length > valueMax)
      (.tagValueTooLarge (asBytes value).length valueMax) >>= fun _ =>
        .ok (layoutText valueMax value) := by
  by_cases hlong : (asBytes value).length > valueMax
  · rw [StoredNostrTag.copyValue, rejectIf_eq_fail hlong]
    rfl
  · rw [StoredNostrTag.copyValue, rejectIf_eq_ok hlong, fromStr_eq, Nostr.StoredString.fromStr,
      dif_neg hlong]
    rfl

/-- A tag is laid out exactly when it passes the checks of its values. -/
theorem fromRef_tag_eq (tag : NostrTagRef) : StoredNostrTag.fromRef valuesMax valueMax tag =
    checkTag valuesMax valueMax tag >>= fun _ => .ok (layoutTag valuesMax valueMax tag) := by
  by_cases hcount : tag.values.length > valuesMax
  · rw [StoredNostrTag.fromRef, checkTag, rejectIf_eq_fail hcount]
    rfl
  · have hcopy := @copyInto_replicate _ _ _ _ StoredString.empty (StoredNostrTag.copyValue valueMax)
      tag.values (not_lt.mp hcount)
    rw [mapM_checked copyValue_eq] at hcopy
    rw [StoredNostrTag.fromRef, checkTag, Outcome.bind_eq (rejectIf_eq_ok hcount),
      Outcome.bind_eq (rejectIf_eq_ok hcount), hcopy]
    generalize (tag.values.forM fun value => rejectIf ((asBytes value).length > valueMax)
      (.tagValueTooLarge (asBytes value).length valueMax) : Outcome NostrError Unit) = checked
    cases checked <;> rfl

/-- Tags are laid out exactly when the abstract record keeps them. -/
theorem fromRef_tags_eq (tags : List NostrTagRef) :
    StoredNostrTags.fromRef tagsMax valuesMax valueMax tags =
      Nostr.StoredNostrTags.fromRef tagsMax valuesMax valueMax tags >>= fun stored =>
        .ok (layoutTags tagsMax valuesMax valueMax stored.tags) := by
  by_cases hcount : tags.length > tagsMax
  · rw [StoredNostrTags.fromRef, Nostr.StoredNostrTags.fromRef, rejectIf_eq_fail hcount, dif_pos hcount]
    rfl
  · have hcopy := @copyInto_replicate _ _ _ _ StoredNostrTag.empty
      (StoredNostrTag.fromRef valuesMax valueMax) tags (not_lt.mp hcount)
    rw [mapM_checked fromRef_tag_eq] at hcopy
    rw [StoredNostrTags.fromRef, Nostr.StoredNostrTags.fromRef,
      Outcome.bind_eq (rejectIf_eq_ok hcount), dif_neg hcount]
    split
    · rename_i fault hcheck
      rw [hcopy, hcheck]
      rfl
    · rename_i hcheck
      rw [hcheck] at hcopy
      rw [hcopy]
      rfl

/-- The values of a layout are the ones of the tag. -/
theorem value_layoutTag {tag : NostrTagRef} (hcount : tag.values.length ≤ valuesMax)
    (hvalues : ∀ value ∈ tag.values, (asBytes value).length ≤ valueMax) (index : ℕ) :
    (layoutTag valuesMax valueMax tag).value index = .ok tag.values[index]? := by
  by_cases hindex : index ≥ tag.values.length
  · have hbehind : index ≥ (layoutTag valuesMax valueMax tag).len := hindex
    rw [StoredNostrTag.value, if_pos hbehind, List.getElem?_eq_none hindex]
  · have hbefore : ¬index ≥ (layoutTag valuesMax valueMax tag).len := hindex
    have hvalue := List.getElem?_eq_getElem (not_le.mp hindex)
    have hcell : (tag.values.map (layoutText valueMax))[index]? =
        some (layoutText valueMax tag.values[index]) := by
      rw [List.getElem?_map, hvalue]
      rfl
    have hread : (cellAt (layoutTag valuesMax valueMax tag).values index : Outcome NostrError _) =
        .ok (layoutText valueMax tag.values[index]) :=
      cellAt_padded (by rwa [List.length_map]) hcell
    rw [StoredNostrTag.value, if_neg hbefore, hvalue, Outcome.bind_eq hread,
      asStr_layoutText (hvalues _ (List.getElem_mem _))]
    rfl

/-- The tags of a layout are the layouts of the tags. -/
theorem tag_layoutTags {tags : List NostrTagRef} (hcount : tags.length ≤ tagsMax) (index : ℕ) :
    (layoutTags tagsMax valuesMax valueMax tags).tag index =
      .ok (tags[index]?.map (layoutTag valuesMax valueMax)) := by
  by_cases hindex : index ≥ tags.length
  · have hbehind : index ≥ (layoutTags tagsMax valuesMax valueMax tags).len := hindex
    rw [StoredNostrTags.tag, if_pos hbehind, List.getElem?_eq_none hindex]
    rfl
  · have hbefore : ¬index ≥ (layoutTags tagsMax valuesMax valueMax tags).len := hindex
    have htag := List.getElem?_eq_getElem (not_le.mp hindex)
    have hcell : (tags.map (layoutTag valuesMax valueMax))[index]? =
        some (layoutTag valuesMax valueMax tags[index]) := by
      rw [List.getElem?_map, htag]
      rfl
    have hread : (cellAt (layoutTags tagsMax valuesMax valueMax tags).tags index :
        Outcome NostrError _) = .ok (layoutTag valuesMax valueMax tags[index]) :=
      cellAt_padded (by rwa [List.length_map]) hcell
    rw [StoredNostrTags.tag, if_neg hbefore, htag, Outcome.bind_eq hread]
    rfl

end Tags

/-! ## Events -/

/-- The record of an event as the source keeps it, in arrays of fixed size. -/
structure FakeNostrEventRecord where
  id : NostrEventId
  pubkey : NostrPublicKey
  createdAt : UInt64
  kind : UInt16
  sig : NostrSignature
  content : StoredString hyfNostrMaxContentChars
  tags : StoredNostrTags hyfNostrMaxTags hyfNostrMaxTagValues hyfNostrMaxTagValueChars

namespace FakeNostrEventRecord

/-- `from_event`: every field is checked and copied in turn. -/
def fromEvent (event : NostrEvent) : Outcome NostrError FakeNostrEventRecord := do
  let content ← StoredString.fromStr hyfNostrMaxContentChars event.content
  let tags ← StoredNostrTags.fromRef hyfNostrMaxTags hyfNostrMaxTagValues hyfNostrMaxTagValueChars
    event.tags
  return ⟨event.id, event.pubkey, event.createdAt, event.kind, event.sig, content, tags⟩

/-- The loop of `collect_p_tags` over `count` tags, from `index` on, with the keys found so far. -/
def collectFrom (record : FakeNostrEventRecord) (capacity : ℕ) :
    ℕ → ℕ → List NostrPublicKey → Outcome NostrError (List NostrPublicKey)
  | 0, _, keys => .ok keys
  | count + 1, index, keys => do
    match ← record.tags.tag index with
    | none => return keys
    | some tag =>
      if (← tag.value 0) ≠ some "p" ∨ keys.length = capacity then
        collectFrom record capacity count (index + 1) keys
      else
        match ← tag.value 1 with
        | none => collectFrom record capacity count (index + 1) keys
        | some value =>
          match decodeFixedLowerHex 32 value with
          | .ok bytes => collectFrom record capacity count (index + 1) (keys ++ [⟨bytes⟩])
          | .error (.error _) => collectFrom record capacity count (index + 1) keys
          | .error .panic => .error .panic

/-- `collect_p_tags`: the public keys of the first tags named `p`. -/
def collectPTags (record : FakeNostrEventRecord) (capacity : ℕ) :
    Outcome NostrError (List NostrPublicKey) :=
  collectFrom record capacity record.tags.len 0 []

/-- The values of a tag in `tag_values`, and how many they are. -/
abbrev TagRow := List.Vector String hyfNostrMaxTagValues × ℕ

/-- The body of the first loop of `with_event`. -/
def readRow (record : FakeNostrEventRecord) (index : ℕ) : Outcome NostrError (Option TagRow) := do
  match ← record.tags.tag index with
  | none => return none
  | some tag =>
    let row ← readInto tag.value (min hyfNostrMaxTagValues tag.len) 0
      (List.Vector.replicate hyfNostrMaxTagValues "")
    return some (row, tag.len)

/-- The body of its second loop. -/
def readRef (rows : List.Vector TagRow hyfNostrMaxTags) (index : ℕ) :
    Outcome NostrError (Option NostrTagRef) := do
  let (row, count) ← cellAt rows index
  return some (← NostrTagRef.new (← frontOf row count))

/-- `with_event`: the event is read back from the arrays, and handed on. -/
def withEvent {T : Type} (record : FakeNostrEventRecord) (f : NostrEvent → T) :
    Outcome NostrError T := do
  let dummy ← NostrTagRef.new ["_"]
  let rows ← readInto record.readRow record.tags.len 0
    (List.Vector.replicate hyfNostrMaxTags (List.Vector.replicate hyfNostrMaxTagValues "", 0))
  let tagRefs ← readInto (readRef rows) record.tags.len 0 (List.Vector.replicate hyfNostrMaxTags dummy)
  let content ← record.content.asStr
  let event ← NostrEvent.new record.id record.pubkey record.createdAt record.kind
    (← frontOf tagRefs record.tags.len) content record.sig
  return f event

end FakeNostrEventRecord

/-- The arrays that keep a record. -/
def layout (record : Nostr.FakeNostrEventRecord) : FakeNostrEventRecord :=
  ⟨record.id, record.pubkey, record.createdAt, record.kind, record.sig,
    layoutText hyfNostrMaxContentChars record.content.text,
    layoutTags hyfNostrMaxTags hyfNostrMaxTagValues hyfNostrMaxTagValueChars record.tags.tags⟩

/-- **Copying** an event into the arrays succeeds and fails as copying it into the lists does. -/
theorem fromEvent_eq (event : NostrEvent) : FakeNostrEventRecord.fromEvent event =
    Nostr.FakeNostrEventRecord.fromEvent event >>= fun record => .ok (layout record) := by
  rw [FakeNostrEventRecord.fromEvent, Nostr.FakeNostrEventRecord.fromEvent, fromStr_eq, fromRef_tags_eq]
  cases Nostr.StoredString.fromStr hyfNostrMaxContentChars event.content with
  | error fault => rfl
  | ok content =>
    cases Nostr.StoredNostrTags.fromRef hyfNostrMaxTags hyfNostrMaxTagValues hyfNostrMaxTagValueChars
        event.tags with
    | error fault => rfl
    | ok tags => rfl

section Layout

variable (record : Nostr.FakeNostrEventRecord)

/-- The row of a tag. -/
def tagRow (tag : NostrTagRef) : FakeNostrEventRecord.TagRow :=
  (padded hyfNostrMaxTagValues "" tag.values, tag.values.length)

/-- A row is read as the strings of the tag it was laid out from. -/
theorem readRow_layout {index : ℕ} {tag : NostrTagRef} (htag : record.tags.tags[index]? = some tag) :
    (layout record).readRow index = .ok (some (tagRow tag)) := by
  obtain ⟨hcount, hvalues⟩ := record.tags.values_le tag (List.mem_of_getElem? htag)
  have hread := @tag_layoutTags _ hyfNostrMaxTagValues hyfNostrMaxTagValueChars _ record.tags.length_le index
  rw [htag] at hread
  have hvalue (j : ℕ) (value : String) (hvalue : tag.values[j]? = some value) :
      (layoutTag hyfNostrMaxTagValues hyfNostrMaxTagValueChars tag).value j = .ok (some value) := by
    rw [value_layoutTag hcount hvalues, hvalue]
  have hrow := @readInto_replicate _ _ hyfNostrMaxTagValues "" _ tag.values hvalue hcount
  have hmin : min hyfNostrMaxTagValues tag.values.length = tag.values.length := Nat.min_eq_right hcount
  rw [FakeNostrEventRecord.readRow]
  show ((layoutTags _ _ _ record.tags.tags).tag index >>= fun _ => _) = _
  rw [Outcome.bind_eq hread]
  show (readInto _ (min hyfNostrMaxTagValues tag.values.length) 0 _ >>= fun _ => _) = _
  rw [hmin, Outcome.bind_eq hrow]
  rfl

/-- Rows that were read make the tag again. -/
theorem readRef_tagRows {index : ℕ} {tag : NostrTagRef} (htag : record.tags.tags[index]? = some tag) :
    FakeNostrEventRecord.readRef (padded hyfNostrMaxTags (List.Vector.replicate hyfNostrMaxTagValues "", 0)
      (record.tags.tags.map tagRow)) index = .ok (some tag) := by
  obtain ⟨hcount, -⟩ := record.tags.values_le tag (List.mem_of_getElem? htag)
  have hcell : (record.tags.tags.map tagRow)[index]? = some (tagRow tag) := by
    rw [List.getElem?_map, htag]
    rfl
  have hread : (cellAt (padded hyfNostrMaxTags (List.Vector.replicate hyfNostrMaxTagValues "", 0)
      (record.tags.tags.map tagRow)) index : Outcome NostrError _) = .ok (tagRow tag) :=
    cellAt_padded (by rw [List.length_map]; exact record.tags.length_le) hcell
  rw [FakeNostrEventRecord.readRef, Outcome.bind_eq hread]
  show (frontOf (padded hyfNostrMaxTagValues "" tag.values) tag.values.length >>= fun _ => _) = _
  rw [Outcome.bind_eq (frontOf_padded hcount),
    Outcome.bind_eq (Nostr.FakeNostrEventRecord.newTag_values tag)]
  rfl

/-- **An event is rebuilt** from the arrays as it was stored. -/
theorem withEvent_layout {T : Type} (f : NostrEvent → T) :
    (layout record).withEvent f = .ok (f record.event) := by
  have hcount := record.tags.length_le
  have hdummy : NostrTagRef.new ["_"] = .ok ⟨["_"], List.cons_ne_nil _ _⟩ := rfl
  have hrow (j : ℕ) (row : FakeNostrEventRecord.TagRow)
      (hrow : (record.tags.tags.map tagRow)[j]? = some row) :
      (layout record).readRow j = .ok (some row) := by
    rw [List.getElem?_map, Option.map_eq_some_iff] at hrow
    obtain ⟨tag, htag, rfl⟩ := hrow
    exact readRow_layout record htag
  have hrows := @readInto_replicate _ _ hyfNostrMaxTags
    (List.Vector.replicate hyfNostrMaxTagValues "", 0) _ _ hrow (by rwa [List.length_map])
  have hrefs := @readInto_replicate _ _ hyfNostrMaxTags ⟨["_"], List.cons_ne_nil _ _⟩ _ _
    (fun j tag htag => readRef_tagRows record htag) hcount
  rw [List.length_map] at hrows
  rw [FakeNostrEventRecord.withEvent, Outcome.bind_eq hdummy]
  show (readInto (layout record).readRow record.tags.tags.length 0 _ >>= fun rows => _) = _
  rw [Outcome.bind_eq hrows]
  show (readInto _ record.tags.tags.length 0 _ >>= fun tagRefs => _) = _
  rw [Outcome.bind_eq hrefs]
  show ((layoutText _ record.content.text).asStr >>= fun content => _) = _
  rw [Outcome.bind_eq (asStr_layoutText record.content.length_le)]
  show (frontOf _ record.tags.tags.length >>= fun tags => _) = _
  rw [Outcome.bind_eq (frontOf_padded hcount), NostrEvent.new, validateContentLen,
    rejectIf_eq_ok (not_lt.mpr record.content.length_le)]
  rfl

/-- A round of the scan does to the keys what the round over the lists does. -/
theorem collectFrom_layout {capacity count index : ℕ} {keys : List NostrPublicKey}
    (h : (record.tags.tags.drop index).length = count) :
    (layout record).collectFrom capacity count index keys = .ok ((record.tags.tags.drop index).foldl
      (Nostr.FakeNostrEventRecord.collectPTag capacity) keys) := by
  induction count generalizing index keys with
  | zero => rw [List.eq_nil_of_length_eq_zero h]; rfl
  | succ count ih =>
    obtain ⟨tag, rest, hdrop⟩ := List.exists_cons_of_length_eq_add_one h
    have htag : record.tags.tags[index]? = some tag := by
      rw [← List.head?_drop, hdrop]
      rfl
    have hrest : record.tags.tags.drop (index + 1) = rest := by
      rw [← List.tail_drop, hdrop]
      rfl
    obtain ⟨hcount, hvalues⟩ := record.tags.values_le tag (List.mem_of_getElem? htag)
    have hread := @tag_layoutTags _ hyfNostrMaxTagValues hyfNostrMaxTagValueChars _
      record.tags.length_le index
    rw [htag] at hread
    have hname : tag.values[0]? = some tag.name := by
      rw [NostrTagRef.name, ← List.head?_eq_getElem?, List.head?_eq_some_head]
    have hnext (keys : List NostrPublicKey) : (layout record).collectFrom capacity count (index + 1) keys =
        .ok (rest.foldl (Nostr.FakeNostrEventRecord.collectPTag capacity) keys) := by
      have hlen : (record.tags.tags.drop (index + 1)).length = count := by
        rw [hdrop, List.length_cons] at h
        rw [hrest]
        exact Nat.succ.inj h
      rw [ih hlen, hrest]
    have hends := ends_decodeFixedLowerHex (show 32 < addressLimit by decide)
    rw [hdrop, List.foldl_cons, FakeNostrEventRecord.collectFrom,
      Nostr.FakeNostrEventRecord.collectPTag]
    show ((layoutTags _ _ _ record.tags.tags).tag index >>= fun tag => _) = _
    rw [Outcome.bind_eq hread]
    show ((layoutTag _ _ tag).value 0 >>= fun name => _) = _
    rw [Outcome.bind_eq (value_layoutTag hcount hvalues 0), hname]
    simp only [ne_eq, Option.some.injEq, hnext]
    by_cases hskip : ¬tag.name = "p" ∨ keys.length = capacity
    · rw [if_pos hskip, if_pos hskip]
    · have hsecond : tag.value = tag.values[1]? := rfl
      rw [if_neg hskip, if_neg hskip, value_layoutTag hcount hvalues 1, hsecond]
      cases tag.values[1]? with
      | none => rfl
      | some value =>
        simp only [Outcome.bind_eq rfl]
        cases hdecode : decodeFixedLowerHex 32 value with
        | ok bytes => rfl
        | error fault =>
          cases fault with
          | error error => rfl
          | panic => exact absurd hdecode (hends value).ne_panic

/-- The arrays have the same public keys as the abstract record. -/
theorem collectPTags_layout (capacity : ℕ) :
    (layout record).collectPTags capacity = .ok (record.collectPTags capacity) :=
  collectFrom_layout record rfl

end Layout

end Hyf.Nostr.Arrays
