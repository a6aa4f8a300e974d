import Hyf.Store.Store

/-!
# What the store operations do to the stored records

Each operation is described by its effect on the list of live records. `Store.WellFormed` is the
representation invariant: message ids are pairwise distinct, and every record is the encoding of a
valid envelope that fits the frame size. All operations keep it.
-/

namespace Hyf

/-- The record of an envelope: its wire bytes and its header fields. -/
def recordOf (envelope : HyfEnvelopeRef) : StoreRecord :=
  .new (wireBytes envelope) (metadataFor envelope)

/-- The bytes of an envelope's record. -/
@[simp] theorem recordOf_bytes (envelope : HyfEnvelopeRef) :
    (recordOf envelope).bytes = wireBytes envelope := rfl

/-- The identifier of an envelope's record. -/
@[simp] theorem recordOf_messageId (envelope : HyfEnvelopeRef) :
    (recordOf envelope).messageId = envelope.messageId := rfl

/-- The expiry of an envelope's record. -/
@[simp] theorem recordOf_expiresAtMs (envelope : HyfEnvelopeRef) :
    (recordOf envelope).expiresAtMs = envelope.expiresAtMs := rfl

/-- A stored message is determined by its record. -/
theorem eq_of_recordOf_eq {envelope stored : HyfEnvelopeRef} (hvalid : ValidEnvelope envelope)
    (hstored : ValidEnvelope stored) (h : recordOf envelope = recordOf stored) :
    envelope = stored := by
  have hbytes := congrArg StoreRecord.bytes h
  rw [recordOf_bytes, recordOf_bytes] at hbytes
  have hdecode := decodeEnvelope_wireBytes hvalid
  rw [hbytes, decodeEnvelope_wireBytes hstored, Except.ok.injEq] at hdecode
  exact hdecode.symm

namespace Store

variable {n frameMax : ℕ}

/-- The records in the store, in slot order. -/
def live (store : Store n frameMax) : List StoreRecord := store.records.live

/-- A new store is empty. -/
@[simp] theorem live_new (policy : StorePolicy) : (new policy : Store n frameMax).live = [] :=
  SlotArray.live_empty

/-- An identifier is contained if a record has it. -/
theorem contains_iff {store : Store n frameMax} {messageId : MessageId} :
    store.contains messageId = true ↔ ∃ record ∈ store.live, record.messageId = messageId := by
  rw [contains, Option.isSome_iff_ne_none, findIndex, Ne, SlotArray.findLive_eq_none_iff]
  simp [live]

/-- It is not contained if no record has it. -/
theorem contains_eq_false_iff {store : Store n frameMax} {messageId : MessageId} :
    store.contains messageId = false ↔ ∀ record ∈ store.live, record.messageId ≠ messageId := by
  rw [← Bool.not_eq_true, contains_iff]
  simp

/-! ## Insertion -/

/-- The effect of an accepted put on the live records: one record is inserted somewhere. -/
structure PutEffect (store store' : Store n frameMax) (envelope : HyfEnvelopeRef) : Prop where
  valid : ValidEnvelope envelope
  fits : (wireBytes envelope).length ≤ frameMax
  absent : store.contains envelope.messageId = false
  policy_eq : store'.policy = store.policy
  inserted : ∃ before after, store.live = before ++ after ∧
    store'.live = before ++ recordOf envelope :: after

/-- What follows from a put that succeeds: the checks passed, and one record was added somewhere. -/
theorem putValidFrame_eq_ok {store store' : Store n frameMax} {frame : List UInt8}
    {metadata : StoreMetadata} (h : store.putValidFrame frame metadata = .ok store') :
    store.contains metadata.messageId = false ∧ store'.policy = store.policy ∧
      ∃ before after, store.live = before ++ after ∧
        store'.live = before ++ StoreRecord.new frame metadata :: after := by
  unfold putValidFrame at h
  split_ifs at h with hcontains
  split at h
  · cases h
  · rename_i index hfree
    cases h
    exact ⟨by simpa using hcontains, rfl, SlotArray.live_write_firstFree hfree _⟩

/-- The put of a valid envelope that fits is the insertion of its record. -/
theorem putEnvelope_of_valid {store : Store n frameMax} {envelope : HyfEnvelopeRef}
    (hvalid : ValidEnvelope envelope) (hfits : (wireBytes envelope).length ≤ frameMax) :
    store.putEnvelope envelope =
      store.putValidFrame (wireBytes envelope) (metadataFor envelope) := by
  have hexpiry : isExpiredAtCreation envelope = false := by
    have := UInt64.not_le.mpr (validEnvelope_iff.mp hvalid).2.1
    simp [isExpiredAtCreation, this]
  have hroom : (wireBytes envelope).length ≤ (List.replicate frameMax (0 : UInt8)).length := by
    rwa [List.length_replicate]
  have hencode := encodeEnvelope_eq hvalid hroom
  simp only [putEnvelope, hexpiry, Bool.and_false, Bool.false_eq_true, if_false,
    envelopeEncodedLen_eq hvalid, hencode, Except.mapError, Except.bind, Bind.bind]
  rw [if_neg (by omega), List.take_left']
  rfl

/-- Only valid envelopes that fit are ever stored. -/
theorem putEnvelope_eq_ok {store store' : Store n frameMax} {envelope : HyfEnvelopeRef}
    (h : store.putEnvelope envelope = .ok store') : PutEffect store store' envelope := by
  have hvalid : ValidEnvelope envelope := by
    by_contra hinvalid
    cases hcheck : validateEnvelope envelope with
    | ok => exact hinvalid hcheck
    | error error =>
      simp only [putEnvelope, envelopeEncodedLen_of_invalid hcheck, Except.mapError, Except.bind,
        Bind.bind] at h
      split_ifs at h
  have hfits : (wireBytes envelope).length ≤ frameMax := by
    by_contra hlong
    simp only [putEnvelope, envelopeEncodedLen_eq hvalid, Except.mapError, Except.bind,
      Bind.bind] at h
    split_ifs at h
    omega
  rw [putEnvelope_of_valid hvalid hfits] at h
  obtain ⟨habsent, hpolicy, hinserted⟩ := putValidFrame_eq_ok h
  exact ⟨hvalid, hfits, habsent, hpolicy, hinserted⟩

/-- A put of an absent, valid, fitting envelope into a store with a free slot succeeds. -/
theorem exists_putEnvelope_eq_ok {store : Store n frameMax} {envelope : HyfEnvelopeRef}
    (hvalid : ValidEnvelope envelope) (hfits : (wireBytes envelope).length ≤ frameMax)
    (habsent : store.contains envelope.messageId = false) (hfree : store.len < n) :
    ∃ store', store.putEnvelope envelope = .ok store' := by
  obtain ⟨index, hindex⟩ := SlotArray.exists_firstFree hfree
  have hput : store.putEnvelope envelope = .ok { store with
      records := store.records.write index (some (recordOf envelope)) } := by
    rw [putEnvelope_of_valid hvalid hfits, putValidFrame,
      if_neg (by simpa [metadataFor] using habsent), firstFreeIndex, hindex]
    rfl
  exact ⟨_, hput⟩

/-- After a put there is the new record besides the old ones. -/
theorem PutEffect.mem_live {store store' : Store n frameMax} {envelope : HyfEnvelopeRef}
    (h : PutEffect store store' envelope) {record : StoreRecord} :
    record ∈ store'.live ↔ record = recordOf envelope ∨ record ∈ store.live := by
  obtain ⟨before, after, hold, hnew⟩ := h.inserted
  rw [hold, hnew]
  simp only [List.mem_append, List.mem_cons]
  tauto

/-- A put adds one to the length. -/
theorem PutEffect.len_eq {store store' : Store n frameMax} {envelope : HyfEnvelopeRef}
    (h : PutEffect store store' envelope) : store'.len = store.len + 1 := by
  obtain ⟨before, after, hold, hnew⟩ := h.inserted
  change store.records.live = _ at hold
  change store'.records.live = _ at hnew
  rw [len, len, hold, hnew]
  simp only [List.length_append, List.length_cons]
  omega

/-! ## Removal and expiry -/

/-- A removal deletes the first record under the id and nothing else. -/
theorem remove_eq_ok {store store' : Store n frameMax} {messageId : MessageId}
    (h : store.remove messageId = .ok store') :
    store'.policy = store.policy ∧ ∃ before record after, store.live = before ++ record :: after ∧
      record.messageId = messageId ∧ store'.live = before ++ after := by
  unfold remove at h
  split at h
  · cases h
  · rename_i index hindex
    cases h
    obtain ⟨before, record, after, hlive, hid, -, hremoved, -⟩ :=
      SlotArray.live_write_findLive hindex
    exact ⟨rfl, before, record, after, hlive, by simpa using hid, hremoved⟩

/-- A record that is stored can be removed. -/
theorem exists_remove_eq_ok {store : Store n frameMax} {record : StoreRecord}
    (h : record ∈ store.live) : ∃ store', store.remove record.messageId = .ok store' := by
  have hcontains := contains_iff.mpr ⟨record, h, rfl⟩
  rw [contains, Option.isSome_iff_exists] at hcontains
  obtain ⟨index, hindex⟩ := hcontains
  exact ⟨_, by rw [remove, hindex]⟩

/-- The records that are left are the ones that expire later. -/
@[simp] theorem live_expireBefore (store : Store n frameMax) (now : TimestampMs) :
    (store.expireBefore now).2.live =
      store.live.filter fun record => !decide (record.expiresAtMs ≤ now) :=
  SlotArray.live_clearWhere _ _

/-- A record is left if it was stored and expires later. -/
theorem mem_live_expireBefore {store : Store n frameMax} {now : TimestampMs}
    {record : StoreRecord} : record ∈ (store.expireBefore now).2.live ↔
      record ∈ store.live ∧ now < record.expiresAtMs := by
  rw [live_expireBefore, List.mem_filter]
  simp [UInt64.not_le]

/-! ## The first pending record -/

/-- The record that the fold selects is one of the candidates, unless there are none. -/
theorem foldl_selectPending (records : List StoreRecord) (selected : Option StoreRecord) :
    (∃ record, records.foldl selectPending selected = some record ∧
      (record ∈ records ∨ selected = some record)) ∨
    (records.foldl selectPending selected = none ∧ records = [] ∧ selected = none) := by
  induction records generalizing selected with
  | nil =>
    cases selected with
    | none => exact .inr ⟨rfl, rfl, rfl⟩
    | some record => exact .inl ⟨record, rfl, .inr rfl⟩
  | cons head rest ih =>
    -- after one step something is selected: the head, or what was selected before
    have hstep : selectPending selected head = some head ∨
        (selectPending selected head = selected ∧ selected ≠ none) := by
      cases selected with
      | none => exact .inl rfl
      | some existing =>
        simp only [selectPending]
        split_ifs
        · exact .inl rfl
        · exact .inr ⟨rfl, by simp⟩
    rw [List.foldl_cons]
    rcases ih (selectPending selected head) with ⟨record, hfold, hrecord⟩ | ⟨hfold, -, hnone⟩
    · refine .inl ⟨record, hfold, ?_⟩
      rcases hrecord with hmem | hsel
      · exact .inl (List.mem_cons_of_mem _ hmem)
      · rcases hstep with hhead | ⟨hkeep, -⟩
        · rw [hhead, Option.some_inj] at hsel
          exact .inl (hsel ▸ List.mem_cons_self)
        · exact .inr (hkeep ▸ hsel)
    · rcases hstep with hhead | ⟨hkeep, hne⟩
      · rw [hhead] at hnone
        cases hnone
      · exact absurd (hkeep ▸ hnone) hne

/-- The first pending record is stored. -/
theorem firstPending_mem {store : Store n frameMax} {record : StoreRecord}
    (h : store.firstPending = some record) : record ∈ store.live := by
  rcases foldl_selectPending store.records.live none with ⟨r, hfold, hr⟩ | ⟨hfold, -, -⟩
  · rw [firstPending, hfold, Option.some_inj] at h
    rcases hr with hmem | hnone
    · exact h ▸ hmem
    · cases hnone
  · rw [firstPending, hfold] at h
    cases h

/-- There is a pending record unless the store is empty. -/
theorem firstPending_eq_none_iff {store : Store n frameMax} :
    store.firstPending = none ↔ store.live = [] := by
  constructor
  · intro h
    rcases foldl_selectPending store.records.live none with ⟨r, hfold, -⟩ | ⟨-, hnil, -⟩
    · rw [firstPending, hfold] at h
      cases h
    · exact hnil
  · intro h
    change store.records.live = [] at h
    rw [firstPending, h]
    rfl

/-! ## The representation invariant -/

/-- Message ids are distinct and every record encodes a valid envelope that fits. -/
structure WellFormed (store : Store n frameMax) : Prop where
  nodup : (store.live.map StoreRecord.messageId).Nodup
  encodes : ∀ record ∈ store.live, ∃ envelope, ValidEnvelope envelope ∧
    (wireBytes envelope).length ≤ frameMax ∧ record = recordOf envelope

/-- A new store is well formed. -/
theorem WellFormed.new (policy : StorePolicy) : (new policy : Store n frameMax).WellFormed where
  nodup := by simp
  encodes := by simp

/-- A put keeps the store well formed. -/
theorem WellFormed.putEnvelope {store store' : Store n frameMax} {envelope : HyfEnvelopeRef}
    (hstore : store.WellFormed) (h : PutEffect store store' envelope) : store'.WellFormed where
  nodup := by
    obtain ⟨before, after, hold, hnew⟩ := h.inserted
    have hnodup := hstore.nodup
    have habsent : envelope.messageId ∉ store.live.map StoreRecord.messageId := by
      rw [List.mem_map]
      rintro ⟨record, hmem, hid⟩
      exact contains_eq_false_iff.mp h.absent record hmem hid
    rw [hold, List.map_append] at hnodup habsent
    rw [hnew, List.map_append, List.map_cons, List.nodup_middle, List.nodup_cons]
    exact ⟨habsent, hnodup⟩
  encodes := by
    intro record hmem
    rcases h.mem_live.mp hmem with rfl | hold
    · exact ⟨envelope, h.valid, h.fits, rfl⟩
    · exact hstore.encodes record hold

/-- The invariant is inherited by every store whose records are a sublist. -/
theorem WellFormed.of_sublist {store store' : Store n frameMax} (hstore : store.WellFormed)
    (h : store'.live.Sublist store.live) : store'.WellFormed where
  nodup := hstore.nodup.sublist (h.map _)
  encodes record hmem := hstore.encodes record (h.subset hmem)

/-- A removal adds and reorders nothing. -/
theorem remove_sublist {store store' : Store n frameMax} {messageId : MessageId}
    (h : store.remove messageId = .ok store') : store'.live.Sublist store.live := by
  obtain ⟨-, before, record, after, hlive, -, hremoved⟩ := remove_eq_ok h
  rw [hlive, hremoved]
  exact (List.Sublist.refl before).append (List.sublist_cons_self record after)

/-- An expiry adds and reorders nothing. -/
theorem expireBefore_sublist (store : Store n frameMax) (now : TimestampMs) :
    (store.expireBefore now).2.live.Sublist store.live := by
  rw [live_expireBefore]
  exact List.filter_sublist

/-- In a well-formed store a removal takes away exactly the record under the id. -/
theorem WellFormed.mem_live_remove {store store' : Store n frameMax} (hstore : store.WellFormed)
    {messageId : MessageId} (h : store.remove messageId = .ok store') {record : StoreRecord} :
    record ∈ store'.live ↔ record ∈ store.live ∧ record.messageId ≠ messageId := by
  obtain ⟨-, before, removed, after, hlive, hid, hremoved⟩ := remove_eq_ok h
  have hnodup := hstore.nodup
  rw [hlive, List.map_append, List.map_cons, List.nodup_middle, List.nodup_cons, ← List.map_append,
    hid] at hnodup
  rw [hlive, hremoved]
  constructor
  · intro hmem
    refine ⟨?_, fun heq => hnodup.1 (heq ▸ List.mem_map_of_mem hmem)⟩
    simp only [List.mem_append, List.mem_cons] at hmem ⊢
    tauto
  · rintro ⟨hmem, hne⟩
    simp only [List.mem_append, List.mem_cons] at hmem ⊢
    rcases hmem with hbefore | rfl | hafter
    · exact .inl hbefore
    · exact absurd hid hne
    · exact .inr hafter

/-- In a well-formed store a record is the only one under its id. -/
theorem WellFormed.filter_messageId {store : Store n frameMax} (hstore : store.WellFormed)
    {record : StoreRecord} (hmem : record ∈ store.live) :
    store.live.filter (fun r => decide (r.messageId = record.messageId)) = [record] := by
  obtain ⟨before, after, hlive⟩ := List.append_of_mem hmem
  have hnodup := hstore.nodup
  rw [hlive, List.map_append, List.map_cons, List.nodup_middle, List.nodup_cons,
    ← List.map_append] at hnodup
  have hother : ∀ r ∈ before ++ after, ¬decide (r.messageId = record.messageId) = true := by
    intro r hr heq
    rw [decide_eq_true_eq] at heq
    exact hnodup.1 (heq ▸ List.mem_map_of_mem hr)
  have hnil := List.filter_eq_nil_iff.mpr hother
  rw [List.filter_append, List.append_eq_nil_iff] at hnil
  rw [hlive, List.filter_append, List.filter_cons_of_pos (by simp), hnil.1, hnil.2]
  rfl

/-- A removal takes one from the length. -/
theorem len_remove {store store' : Store n frameMax} {messageId : MessageId}
    (h : store.remove messageId = .ok store') : store'.len + 1 = store.len := by
  obtain ⟨-, before, record, after, hlive, -, hremoved⟩ := remove_eq_ok h
  change store.records.live = _ at hlive
  change store'.records.live = _ at hremoved
  rw [len, len, hlive, hremoved]
  simp only [List.length_append, List.length_cons]
  omega

end Store

end Hyf
