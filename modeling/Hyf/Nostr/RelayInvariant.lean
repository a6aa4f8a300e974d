import Hyf.Common.EndsWith
import Hyf.Nostr.FakeRelay

/-!
# The representation invariant of the relay

In every state that the relay can reach, the outputs are a queue packed at the front of their array,
the counters count what is there, and every index in the queue refers to a record that is there. The
slots for handed-over events are exactly those that the queue refers to, each once.

The invariant is kept by every operation, also by one that fails half-way: only two operations break it
in between, and those are followed step by step.
-/

namespace Hyf.Nostr

open ByteCodec

/-- The slot of a handed-over event that an output refers to. -/
def FakeNostrRelayOutputRecord.ownedIndex : FakeNostrRelayOutputRecord → Option ℕ
  | .ownedEvent _ outputEventIndex => some outputEventIndex
  | _ => none

/-- The cell holds a record. -/
def Occupied {n : ℕ} (events : SlotArray FakeNostrEventRecord n) (index : ℕ) : Prop :=
  ∃ record, events.toList[index]? = some (some record)

section Occupied

variable {n : ℕ} {events : SlotArray FakeNostrEventRecord n} {index : ℕ}

/-- A write elsewhere occupies and frees nothing here. -/
theorem occupied_write_of_ne {other : ℕ} (hne : other ≠ index) (cell : Option FakeNostrEventRecord) :
    Occupied (events.write index cell) other ↔ Occupied events other := by
  unfold Occupied
  rw [SlotArray.toList_write, List.getElem?_set_ne (Ne.symm hne)]

/-- A slot that is written is occupied. -/
theorem occupied_write_some (hindex : index < n) (record : FakeNostrEventRecord) :
    Occupied (events.write index (some record)) index := by
  refine ⟨record, ?_⟩
  rw [SlotArray.toList_write, List.getElem?_set_self (by simpa using hindex)]

/-- A slot that is emptied is free. -/
theorem not_occupied_write_none : ¬Occupied (events.write index none) index := by
  rintro ⟨record, hrecord⟩
  rw [SlotArray.toList_write, List.getElem?_set_self'] at hrecord
  cases hcell : events.toList[index]? <;> rw [hcell] at hrecord <;> cases hrecord

/-- The first empty cell exists, and is empty. -/
theorem firstFree_empty (h : events.firstFree = some index) : index < n ∧ ¬Occupied events index := by
  obtain ⟨before, cell, after, hsplit, rfl, hnone, -⟩ := SlotArray.findIdx?_split h
  have hlen := congrArg List.length hsplit
  rw [List.Vector.toList_length, List.length_append, List.length_cons] at hlen
  refine ⟨by omega, ?_⟩
  rintro ⟨record, hrecord⟩
  rw [hsplit, List.getElem?_append_right (Nat.le_refl _), Nat.sub_self] at hrecord
  cases hrecord
  cases hnone

/-- An occupied slot is in the table. -/
theorem occupied_lt (h : Occupied events index) : index < n := by
  obtain ⟨record, hrecord⟩ := h
  obtain ⟨hlt, -⟩ := List.getElem?_eq_some_iff.mp hrecord
  simpa using hlt

end Occupied

namespace FakeNostrRelay

variable {eventCapacity subscriptionCapacity outputCapacity : ℕ}

/-- The queued outputs, the oldest first. -/
def queue (relay : FakeNostrRelay eventCapacity subscriptionCapacity outputCapacity) :
    List FakeNostrRelayOutputRecord := relay.outputs.live

/-- The slots that the queued outputs refer to. -/
def owned (relay : FakeNostrRelay eventCapacity subscriptionCapacity outputCapacity) : List ℕ :=
  relay.queue.filterMap FakeNostrRelayOutputRecord.ownedIndex

/-- What holds of the relay between calls: the queue is packed, every event in it has a slot of its
own and there are no others, and the subscriptions are distinct and counted. -/
structure Valid (relay : FakeNostrRelay eventCapacity subscriptionCapacity outputCapacity) : Prop where
  packed : relay.outputs.Packed relay.queue
  queued_eq : relay.metrics.queuedOutputs = relay.queue.length
  active_eq : relay.metrics.activeSubscriptions = relay.subscriptions.live.length
  stored_eq : relay.metrics.storedEvents = relay.events.live.length
  ids_nodup : (relay.events.live.map FakeNostrEventRecord.id).Nodup
  subscriptions_nodup : (relay.subscriptions.live.map FakeNostrSubscription.subscriptionId).Nodup
  stored_live : ∀ subscriptionId index, .storedEvent subscriptionId index ∈ relay.queue →
    Occupied relay.events index
  owned_nodup : relay.owned.Nodup
  owned_iff : ∀ index, index ∈ relay.owned ↔ Occupied relay.outputEvents index

/-- An empty relay is valid. -/
theorem valid_new :
    (new : FakeNostrRelay eventCapacity subscriptionCapacity outputCapacity).Valid := by
  have hqueue : (new : FakeNostrRelay eventCapacity subscriptionCapacity outputCapacity).queue = [] :=
    SlotArray.live_empty
  have howned : (new : FakeNostrRelay eventCapacity subscriptionCapacity outputCapacity).owned = [] := by
    rw [owned, hqueue]
    rfl
  constructor
  case packed =>
    rw [hqueue]
    exact SlotArray.Packed.of_empty
  case queued_eq => rw [hqueue]; rfl
  case active_eq => exact (congrArg List.length SlotArray.live_empty).symm
  case stored_eq => exact (congrArg List.length SlotArray.live_empty).symm
  case ids_nodup =>
    rw [show new.events.live = [] from SlotArray.live_empty]
    exact List.nodup_nil
  case subscriptions_nodup =>
    rw [show new.subscriptions.live = [] from SlotArray.live_empty]
    exact List.nodup_nil
  case stored_live =>
    rw [hqueue]
    simp
  case owned_nodup =>
    rw [howned]
    exact List.nodup_nil
  case owned_iff =>
    intro index
    rw [howned]
    refine iff_of_false (by simp) ?_
    rintro ⟨record, hrecord⟩
    rw [show new.outputEvents.toList = _ from SlotArray.toList_empty, List.getElem?_replicate] at hrecord
    split_ifs at hrecord
    cases hrecord

/-! ## The queue grows -/

/-- The relay with one more output. -/
def enqueued (relay : FakeNostrRelay eventCapacity subscriptionCapacity outputCapacity)
    (output : FakeNostrRelayOutputRecord) :
    FakeNostrRelay eventCapacity subscriptionCapacity outputCapacity :=
  { relay with
    outputs := relay.outputs.write relay.queue.length (some output)
    metrics := { relay.metrics with queuedOutputs := relay.metrics.queuedOutputs + 1 } }

/-- The relay after an output found no room. -/
def overflowed (relay : FakeNostrRelay eventCapacity subscriptionCapacity outputCapacity) :
    FakeNostrRelay eventCapacity subscriptionCapacity outputCapacity :=
  { relay with metrics := { relay.metrics with outputOverflows := relay.metrics.outputOverflows + 1 } }

variable {relay : FakeNostrRelay eventCapacity subscriptionCapacity outputCapacity}

/-- Counting an overflow keeps a relay valid. -/
theorem Valid.overflowed (h : relay.Valid) : relay.overflowed.Valid := by
  obtain ⟨hpacked, hqueued, hactive, hstored, hids, hsubscriptions, hlive, hnodup, howned⟩ := h
  exact ⟨hpacked, hqueued, hactive, hstored, hids, hsubscriptions, hlive, hnodup, howned⟩

/-- An output goes to the end of the queue, if it has room. -/
theorem Valid.enqueueOutputRecordIndex_eq (h : relay.Valid) (output : FakeNostrRelayOutputRecord) :
    enqueueOutputRecordIndex output relay =
      if relay.queue.length < outputCapacity then .ok relay.queue.length (relay.enqueued output)
      else .error (.error (.relayOutputFull outputCapacity)) relay.overflowed := by
  rw [enqueueOutputRecordIndex, run_get_bind]
  by_cases hroom : relay.queue.length < outputCapacity
  · rw [if_pos hroom, h.packed.firstFree_eq hroom]
    rfl
  · have hfull := h.packed.length_le
    rw [if_neg hroom, h.packed.firstFree_eq_none (by omega)]
    rfl

/-- An output goes to the end of the queue, if it has room. -/
theorem Valid.enqueueOutputRecord_eq (h : relay.Valid) (output : FakeNostrRelayOutputRecord) :
    enqueueOutputRecord output relay =
      if relay.queue.length < outputCapacity then .ok () (relay.enqueued output)
      else .error (.error (.relayOutputFull outputCapacity)) relay.overflowed := by
  show EStateM.bind (enqueueOutputRecordIndex output) _ relay = _
  rw [EStateM.bind, h.enqueueOutputRecordIndex_eq]
  by_cases hroom : relay.queue.length < outputCapacity
  · rw [if_pos hroom, if_pos hroom]
    rfl
  · rw [if_neg hroom, if_neg hroom]

/-- The queue stays packed. -/
theorem Valid.packed_enqueued (h : relay.Valid) (hroom : relay.queue.length < outputCapacity)
    (output : FakeNostrRelayOutputRecord) :
    (relay.enqueued output).outputs.Packed (relay.queue ++ [output]) := h.packed.push hroom output

/-- The output is last in the queue. -/
theorem Valid.queue_enqueued (h : relay.Valid) (hroom : relay.queue.length < outputCapacity)
    (output : FakeNostrRelayOutputRecord) :
    (relay.enqueued output).queue = relay.queue ++ [output] := (h.packed_enqueued hroom output).live_eq

/-- The slot of the output is owned as well. -/
theorem Valid.owned_enqueued (h : relay.Valid) (hroom : relay.queue.length < outputCapacity)
    (output : FakeNostrRelayOutputRecord) :
    (relay.enqueued output).owned = relay.owned ++ output.ownedIndex.toList := by
  rw [owned, h.queue_enqueued hroom, List.filterMap_append]
  cases output <;> rfl

/-- An output that refers to no slot of its own. -/
theorem Valid.enqueued (h : relay.Valid) (hroom : relay.queue.length < outputCapacity)
    {output : FakeNostrRelayOutputRecord} (howned : output.ownedIndex = none)
    (hstored : ∀ subscriptionId index, output = .storedEvent subscriptionId index →
      Occupied relay.events index) : (relay.enqueued output).Valid := by
  have hqueue := h.queue_enqueued hroom output
  have howned' : (relay.enqueued output).owned = relay.owned := by
    rw [h.owned_enqueued hroom, howned, Option.toList_none, List.append_nil]
  refine ⟨?_, ?_, h.active_eq, h.stored_eq, h.ids_nodup, h.subscriptions_nodup, ?_, ?_, ?_⟩
  · rw [hqueue]
    exact h.packed_enqueued hroom output
  · rw [hqueue, List.length_append, List.length_singleton, ← h.queued_eq]
    rfl
  · intro subscriptionId index hmem
    rw [hqueue, List.mem_append, List.mem_singleton] at hmem
    rcases hmem with hold | hnew
    · exact h.stored_live subscriptionId index hold
    · exact hstored subscriptionId index hnew.symm
  · rw [howned']
    exact h.owned_nodup
  · rw [howned']
    exact h.owned_iff

/-- An output that refers to the slot into which its event is put. -/
theorem Valid.enqueued_owned (h : relay.Valid) (hroom : relay.queue.length < outputCapacity)
    {index : ℕ} (hfree : relay.outputEvents.firstFree = some index) (subscriptionId : String)
    (record : FakeNostrEventRecord) :
    ({ relay.enqueued (.ownedEvent subscriptionId index) with
      outputEvents := relay.outputEvents.write index (some record) } :
        FakeNostrRelay eventCapacity subscriptionCapacity outputCapacity).Valid := by
  obtain ⟨hindex, hempty⟩ := firstFree_empty hfree
  have hqueue := h.queue_enqueued hroom (.ownedEvent subscriptionId index)
  have howned := h.owned_enqueued hroom (.ownedEvent subscriptionId index)
  have hnew : index ∉ relay.owned := fun hmem => hempty ((h.owned_iff index).mp hmem)
  refine ⟨?_, ?_, h.active_eq, h.stored_eq, h.ids_nodup, h.subscriptions_nodup, ?_, ?_, ?_⟩
  · show SlotArray.Packed _ (relay.enqueued _).queue
    rw [hqueue]
    exact h.packed_enqueued hroom _
  · show _ = (relay.enqueued _).queue.length
    rw [hqueue, List.length_append, List.length_singleton, ← h.queued_eq]
    rfl
  · intro other index' hmem
    have hmem : .storedEvent other index' ∈ (relay.enqueued (.ownedEvent subscriptionId index)).queue :=
      hmem
    rw [hqueue, List.mem_append, List.mem_singleton] at hmem
    rcases hmem with hold | hnew
    · exact h.stored_live other index' hold
    · cases hnew
  · show (relay.enqueued _).owned.Nodup
    have hnodup := h.owned_nodup.concat hnew
    rw [List.concat_eq_append] at hnodup
    rw [howned]
    exact hnodup
  · intro other
    show other ∈ (relay.enqueued _).owned ↔ _
    rw [howned, List.mem_append]
    by_cases hother : other = index
    · subst hother
      exact iff_of_true (.inr List.mem_cons_self) (occupied_write_some hindex record)
    · rw [occupied_write_of_ne hother, ← h.owned_iff]
      refine or_iff_left fun hmem => hother ?_
      exact List.mem_singleton.mp hmem

/-! ## Calls that let the queue grow -/

section Remembers

variable (Admitted : FakeNostrEventRecord → Prop)
  (before relay : FakeNostrRelay eventCapacity subscriptionCapacity outputCapacity)

/-- The events of `before` are where they were, and new ones are admitted. -/
structure Remembers : Prop where
  stored : ∀ {index : ℕ} {record : FakeNostrEventRecord},
    before.events.toList[index]? = some (some record) →
      relay.events.toList[index]? = some (some record)
  admitted : ∀ record ∈ relay.events.live, record ∈ before.events.live ∨ Admitted record

/-- The relay is valid, and has kept the outputs and the events of `before`. -/
structure Grown : Prop extends Remembers Admitted before relay where
  valid : relay.Valid
  queue_prefix : before.queue <+: relay.queue

end Remembers

variable {Admitted : FakeNostrEventRecord → Prop}
  {before relay' : FakeNostrRelay eventCapacity subscriptionCapacity outputCapacity}

/-- What has the same events remembers them. -/
theorem Remembers.of_events (h : relay.events = before.events) : Remembers Admitted before relay where
  stored hbefore := h ▸ hbefore
  admitted _ hrecord := .inl (h ▸ hrecord)

/-- What is remembered is remembered on. -/
theorem Remembers.trans (h : Remembers Admitted before relay) (h' : Remembers Admitted relay relay') :
    Remembers Admitted before relay' where
  stored hbefore := h'.stored (h.stored hbefore)
  admitted record hrecord := by
    rcases h'.admitted record hrecord with hold | hnew
    · exact h.admitted record hold
    · exact .inr hnew

/-- More events may be admitted. -/
theorem Remembers.mono {Admitted' : FakeNostrEventRecord → Prop} (h : Remembers Admitted before relay)
    (himp : ∀ record, Admitted record → Admitted' record) : Remembers Admitted' before relay where
  stored := h.stored
  admitted record hrecord := (h.admitted record hrecord).imp_right (himp record)

/-- A change of the relay that leaves its events alone. -/
theorem Grown.of_valid (h : Grown Admitted before relay) (hvalid : relay'.Valid)
    (hqueue : relay.queue <+: relay'.queue) (hevents : relay'.events = relay.events) :
    Grown Admitted before relay' where
  toRemembers := h.toRemembers.trans (.of_events hevents)
  valid := hvalid
  queue_prefix := h.queue_prefix.trans hqueue

/-- Counting an overflow is growth. -/
theorem Grown.overflowed (h : Grown Admitted before relay) :
    Grown Admitted before relay.overflowed :=
  h.of_valid h.valid.overflowed (List.prefix_refl _) rfl

/-- Staying as it is is growth. -/
theorem Grown.refl (h : relay.Valid) : Grown Admitted relay relay :=
  ⟨.of_events rfl, h, List.prefix_refl _⟩

/-- One more output. -/
theorem Grown.enqueued (h : Grown Admitted before relay) (hroom : relay.queue.length < outputCapacity)
    {output : FakeNostrRelayOutputRecord} (hvalid : (relay.enqueued output).Valid) :
    Grown Admitted before (relay.enqueued output) := by
  apply h.of_valid hvalid _ rfl
  rw [h.valid.queue_enqueued hroom]
  exact List.prefix_append _ _

/-- The call does not panic, and however it ends, the relay has grown. -/
def Keeps {α : Type} (Admitted : FakeNostrEventRecord → Prop)
    (call : RelayM eventCapacity subscriptionCapacity outputCapacity α) : Prop :=
  ∀ before relay, Grown Admitted before relay →
    EndsWith call relay (fun _ => Grown Admitted before) fun _ => Grown Admitted before

namespace Keeps

variable {α β : Type}

/-- Returning keeps the relay. -/
theorem pure (a : α) :
    Keeps Admitted (Pure.pure a : RelayM eventCapacity subscriptionCapacity outputCapacity α) :=
  fun _ _ h => h

/-- Calls that keep the relay keep it one after the other. -/
theorem bind {call : RelayM eventCapacity subscriptionCapacity outputCapacity α}
    {next : α → RelayM eventCapacity subscriptionCapacity outputCapacity β} (h : Keeps Admitted call)
    (hnext : ∀ a, Keeps Admitted (next a)) : Keeps Admitted (call >>= next) :=
  fun before relay hgrown => (h before relay hgrown).bind fun a relay' => hnext a before relay'

/-- A computation on the side that does not panic. -/
theorem lift_bind {outcome : Outcome NostrError α}
    {next : α → RelayM eventCapacity subscriptionCapacity outputCapacity β} {P : α → Prop}
    (h : Ends outcome P) (hnext : ∀ a, P a → Keeps Admitted (next a)) :
    Keeps Admitted (outcome.lift >>= next) :=
  fun before relay hgrown => EndsWith.lift_bind h (fun _ => hgrown) fun a ha =>
    hnext a ha before relay hgrown

end Keeps

/-- A text that was stored is the one given. -/
theorem ends_fromStr (n : ℕ) (value : String) :
    Ends (StoredString.fromStr n value) fun stored => stored.text = value := by
  unfold StoredString.fromStr
  by_cases hlong : (asBytes value).length > n
  · rw [dif_pos hlong]
    exact trivial
  · rw [dif_neg hlong]
    exact rfl

/-- A status that was stored is the one given. -/
theorem ends_fromStatus (status : NostrRelayStatus) :
    Ends (StoredRelayStatus.fromStatus status) fun stored => stored.asStatus = status := by
  apply (ends_fromStr _ _).bind
  rintro rawPrefix hraw
  apply (ends_fromStr _ _).bind
  rintro detail hdetail
  show NostrRelayStatus.mk _ rawPrefix.text detail.text = status
  rw [hraw, hdetail]

/-- An identifier that passes is short enough. -/
theorem ends_validateSubscriptionId (subscriptionId : String) :
    Ends (validateSubscriptionId subscriptionId) fun _ =>
      (asBytes subscriptionId).length ≤ nostrSubscriptionIdMaxLen := by
  apply (ends_rejectIf _ _).bind
  intro _ _
  exact (ends_rejectIf _ _).mono fun _ hlen => Nat.le_of_not_lt hlen

/-- An output without a slot of its own; an index in it refers to a stored event. -/
theorem keeps_enqueueOutputRecordIndex {output : FakeNostrRelayOutputRecord}
    (h : Grown Admitted before relay)
    (howned : output.ownedIndex = none)
    (hstored : ∀ subscriptionId index, output = .storedEvent subscriptionId index →
      Occupied relay.events index) :
    EndsWith (enqueueOutputRecordIndex output) relay (fun _ => Grown Admitted before)
      fun _ => Grown Admitted before := by
  have hrun := h.valid.enqueueOutputRecordIndex_eq output
  by_cases hroom : relay.queue.length < outputCapacity
  · rw [if_pos hroom] at hrun
    exact EndsWith.of_ok hrun (h.enqueued hroom (h.valid.enqueued hroom howned hstored))
  · rw [if_neg hroom] at hrun
    exact EndsWith.of_error hrun h.overflowed

/-- An output record is queued with the slot it owns, or the relay is left as it was. -/
theorem keeps_enqueueOutputRecord {output : FakeNostrRelayOutputRecord}
    (h : Grown Admitted before relay)
    (howned : output.ownedIndex = none)
    (hstored : ∀ subscriptionId index, output = .storedEvent subscriptionId index →
      Occupied relay.events index) :
    EndsWith (enqueueOutputRecord output) relay (fun _ => Grown Admitted before)
      fun _ => Grown Admitted before :=
  (keeps_enqueueOutputRecordIndex h howned hstored).bind fun _ _ h => h

/-- A control output, which refers to nothing. -/
theorem keeps_enqueueControl {output : FakeNostrRelayOutputRecord} (howned : output.ownedIndex = none)
    (hcontrol : ∀ subscriptionId index, output ≠ .storedEvent subscriptionId index) :
    Keeps Admitted (enqueueOutputRecord output :
      RelayM eventCapacity subscriptionCapacity outputCapacity Unit) :=
  fun _ _ h => keeps_enqueueOutputRecord h howned fun subscriptionId index heq =>
    absurd heq (hcontrol subscriptionId index)

/-- Tags that were stored are the ones given. -/
theorem ends_storedFromRef (tagsMax valuesMax valueMax : ℕ) (tags : List NostrTagRef) :
    Ends (StoredNostrTags.fromRef tagsMax valuesMax valueMax tags) fun stored => stored.tags = tags := by
  have hvalues (values : List String) : Ends (values.forM fun value =>
      rejectIf ((asBytes value).length > valueMax)
        (NostrError.tagValueTooLarge (asBytes value).length valueMax)) fun _ => True := by
    induction values with
    | nil => exact trivial
    | cons value values ih => exact (ends_rejectIf _ _).bind fun _ _ => ih
  have htags (tags : List NostrTagRef) :
      Ends (tags.forM (checkTag valuesMax valueMax)) fun _ => True := by
    induction tags with
    | nil => exact trivial
    | cons tag tags ih =>
      have htag : Ends (checkTag valuesMax valueMax tag) fun _ => True :=
        (ends_rejectIf _ _).bind fun _ _ => hvalues tag.values
      exact htag.bind fun _ _ => ih
  unfold StoredNostrTags.fromRef
  split_ifs
  · exact trivial
  · split
    · rename_i fault hcheck
      have hends := htags tags
      rw [hcheck] at hends
      cases fault with
      | error error => exact trivial
      | panic => exact hends.elim
    · exact rfl

/-- An event that was stored is the one given. -/
theorem ends_fromEvent (event : NostrEvent) :
    Ends (FakeNostrEventRecord.fromEvent event) fun record => record.event = event := by
  apply (ends_fromStr _ _).bind
  intro content hcontent
  apply (ends_storedFromRef _ _ _ _).bind
  intro tags htags
  show NostrEvent.mk _ _ _ _ tags.tags content.text _ = event
  rw [hcontent, htags]

/-- With room for it, an event is queued with its copy. -/
theorem Valid.enqueueEventOutput_eq (h : relay.Valid) {event : NostrEvent}
    {record : FakeNostrEventRecord} (hrecord : FakeNostrEventRecord.fromEvent event = .ok record)
    {index : ℕ} (hfree : relay.outputEvents.firstFree = some index)
    (hroom : relay.queue.length < outputCapacity) (subscriptionId : String) :
    enqueueEventOutput subscriptionId event relay =
      .ok () { relay.enqueued (.ownedEvent subscriptionId index) with
        outputEvents := relay.outputEvents.write index (some record) } := by
  have hrun := h.enqueueOutputRecord_eq (.ownedEvent subscriptionId index)
  rw [if_pos hroom] at hrun
  rw [enqueueEventOutput, Outcome.lift_bind hrecord, run_get_bind, hfree]
  exact run_bind_of_ok hrun _

/-- An event output keeps the relay valid, also when the queue is full. -/
theorem keeps_enqueueEventOutput (subscriptionId : String) (event : NostrEvent) :
    Keeps Admitted (enqueueEventOutput subscriptionId event :
      RelayM eventCapacity subscriptionCapacity outputCapacity Unit) := by
  apply Keeps.lift_bind (ends_fromEvent event)
  intro record _ before relay h
  apply EndsWith.get_bind
  split
  · exact EndsWith.of_error rfl h.overflowed
  · rename_i index hfree
    have hrun := h.valid.enqueueOutputRecord_eq (.ownedEvent subscriptionId index)
    by_cases hroom : relay.queue.length < outputCapacity
    · -- between the two changes the output refers to an empty slot
      rw [if_pos hroom] at hrun
      apply EndsWith.of_ok (a := ())
      · rw [run_bind_of_ok hrun]
        rfl
      · apply h.of_valid (h.valid.enqueued_owned hroom hfree subscriptionId record) _ rfl
        show relay.queue <+: (relay.enqueued _).queue
        rw [h.valid.queue_enqueued hroom]
        exact List.prefix_append _ _
    · rw [if_neg hroom] at hrun
      apply EndsWith.of_error
      · rw [run_bind_of_error hrun]
      · exact h.overflowed

/-- A notice keeps the relay valid. -/
theorem keeps_enqueueNotice (message : String) :
    Keeps Admitted (enqueueNotice message : RelayM eventCapacity subscriptionCapacity outputCapacity Unit) :=
  Keeps.lift_bind (ends_fromStr _ _) fun _ _ => keeps_enqueueControl rfl fun _ _ h => by cases h

/-- A challenge keeps the relay valid. -/
theorem keeps_injectAuthChallenge (challenge : String) :
    Keeps Admitted (injectAuthChallenge challenge :
      RelayM eventCapacity subscriptionCapacity outputCapacity Unit) :=
  Keeps.lift_bind (ends_fromStr _ _) fun _ _ => keeps_enqueueControl rfl fun _ _ h => by cases h

/-- An end marker keeps the relay valid. -/
theorem keeps_injectEose (subscriptionId : String) :
    Keeps Admitted (injectEose subscriptionId :
      RelayM eventCapacity subscriptionCapacity outputCapacity Unit) := by
  apply Keeps.lift_bind (ends_validateSubscriptionId subscriptionId)
  intro _ _
  exact Keeps.lift_bind (ends_fromStr _ _) fun _ _ => keeps_enqueueControl rfl fun _ _ h => by cases h

/-- A closing keeps the relay valid. -/
theorem keeps_injectClosed (subscriptionId : String) (status : NostrRelayStatus) :
    Keeps Admitted (injectClosed subscriptionId status :
      RelayM eventCapacity subscriptionCapacity outputCapacity Unit) := by
  apply Keeps.lift_bind (ends_validateSubscriptionId subscriptionId)
  intro _ _
  apply Keeps.lift_bind (ends_fromStr _ _)
  intro _ _
  exact Keeps.lift_bind (ends_fromStatus status) fun _ _ => keeps_enqueueControl rfl fun _ _ h => by cases h

/-- An answer to a publication keeps the relay valid. -/
theorem keeps_enqueueOk (eventId : NostrEventId) (accepted : Bool) (status : NostrRelayStatus) :
    Keeps Admitted (enqueueOk eventId accepted status :
      RelayM eventCapacity subscriptionCapacity outputCapacity Unit) :=
  Keeps.lift_bind (ends_fromStatus status) fun _ _ => keeps_enqueueControl rfl fun _ _ h => by cases h

/-- Any output keeps the relay valid. -/
theorem keeps_enqueueOutput (output : FakeNostrRelayOutput) :
    Keeps Admitted
      (enqueueOutput output : RelayM eventCapacity subscriptionCapacity outputCapacity Unit) := by
  cases output with
  | ok eventId accepted status => exact keeps_enqueueOk eventId accepted status
  | event subscriptionId event => exact keeps_enqueueEventOutput subscriptionId event
  | eose subscriptionId => exact keeps_injectEose subscriptionId
  | closed subscriptionId status => exact keeps_injectClosed subscriptionId status
  | notice message => exact keeps_enqueueNotice message
  | auth challenge => exact keeps_injectAuthChallenge challenge

/-! ## Subscriptions -/

/-- The relay with another table of subscriptions. -/
def withSubscriptions (relay : FakeNostrRelay eventCapacity subscriptionCapacity outputCapacity)
    (subscriptions : SlotArray FakeNostrSubscription subscriptionCapacity) (activeSubscriptions : ℕ) :
    FakeNostrRelay eventCapacity subscriptionCapacity outputCapacity :=
  { relay with subscriptions, metrics := { relay.metrics with activeSubscriptions } }

/-- Subscriptions that are distinct and counted may be put in. -/
theorem Valid.withSubscriptions (h : relay.Valid)
    {subscriptions : SlotArray FakeNostrSubscription subscriptionCapacity} {activeSubscriptions : ℕ}
    (hactive : activeSubscriptions = subscriptions.live.length)
    (hnodup : (subscriptions.live.map FakeNostrSubscription.subscriptionId).Nodup) :
    (relay.withSubscriptions subscriptions activeSubscriptions).Valid :=
  ⟨h.packed, h.queued_eq, hactive, h.stored_eq, h.ids_nodup, hnodup, h.stored_live, h.owned_nodup,
    h.owned_iff⟩

/-- There is a subscription under the id, or room for one more. -/
def AdmitsSubscription (relay : FakeNostrRelay eventCapacity subscriptionCapacity outputCapacity)
    (subscriptionId : String) : Prop :=
  (∃ subscription ∈ relay.subscriptions.live, subscription.subscriptionId = subscriptionId) ∨
    relay.subscriptions.live.length < subscriptionCapacity

/-- **A subscription** replaces the one under its id, or takes a free row. The table stays as it was
exactly when the subscription was there before. -/
theorem Valid.rememberSubscription (h : relay.Valid) {subscriptionId : String}
    (hid : validateSubscriptionId subscriptionId = .ok ()) (filters : List NostrFilter) :
    (¬relay.AdmitsSubscription subscriptionId ∧ rememberSubscription subscriptionId filters relay =
        .error (.error (.relaySubscriptionFull subscriptionCapacity)) relay) ∨
      ∃ subscriptions activeSubscriptions,
        relay.AdmitsSubscription subscriptionId ∧
        rememberSubscription subscriptionId filters relay =
          .ok () (relay.withSubscriptions subscriptions activeSubscriptions) ∧
        (relay.withSubscriptions subscriptions activeSubscriptions).Valid ∧
        (subscriptions = relay.subscriptions ↔
          ⟨subscriptionId, filters⟩ ∈ relay.subscriptions.live) := by
  rw [FakeNostrRelay.rememberSubscription, Outcome.lift_bind hid, run_get_bind]
  cases hfind : relay.subscriptions.findLive fun subscription =>
      subscription.subscriptionId = subscriptionId with
  | some index =>
    obtain ⟨first, old, last, hlive, hold, -, -, hreplaced⟩ := SlotArray.live_write_findLive hfind
    have hnew := hreplaced ⟨subscriptionId, filters⟩
    have hid : old.subscriptionId = subscriptionId := of_decide_eq_true hold
    have hnodup := h.subscriptions_nodup
    rw [hlive, List.map_append, List.map_cons, hid] at hnodup
    refine .inr ⟨_, _, .inl ⟨old, hlive ▸ by simp, hid⟩, rfl, ?_, ?_⟩
    · apply h.withSubscriptions
      · rw [h.active_eq, hnew, hlive, List.length_append, List.length_append, List.length_cons,
          List.length_cons]
      · rw [hnew, List.map_append, List.map_cons]
        exact hnodup
    · constructor
      · intro hsame
        rw [← hsame, hnew]
        simp
      · intro hmem
        -- ids are distinct, so the subscription is the one that was found
        obtain ⟨found, hcell, hfound⟩ := SlotArray.exists_of_findLive hfind
        have hlive' : found ∈ relay.subscriptions.live := SlotArray.mem_live.mpr (List.mem_of_getElem? hcell)
        obtain rfl : found = ⟨subscriptionId, filters⟩ := List.inj_on_of_nodup_map
          h.subscriptions_nodup hlive' hmem (of_decide_eq_true hfound)
        exact SlotArray.write_self hcell
  | none =>
    have hother := SlotArray.findLive_eq_none_iff.mp hfind
    have hfresh (subscription : FakeNostrSubscription) (hmem : subscription ∈ relay.subscriptions.live) :
        subscription.subscriptionId ≠ subscriptionId :=
      of_decide_eq_false (hother subscription hmem)
    cases hfree : relay.subscriptions.firstFree with
    | none =>
      refine .inl ⟨?_, rfl⟩
      rintro (⟨subscription, hmem, hsame⟩ | hroom)
      · exact hfresh subscription hmem hsame
      · exact absurd (SlotArray.firstFree_eq_none_iff.mp hfree) hroom.ne
    | some index =>
      obtain ⟨first, last, hlive, hnew⟩ := SlotArray.live_write_firstFree hfree ⟨subscriptionId, filters⟩
      have hroom := SlotArray.length_live_lt_of_firstFree hfree
      refine .inr ⟨_, _, .inr hroom, rfl, ?_, ?_⟩
      · apply h.withSubscriptions
        · rw [h.active_eq, hnew, hlive, List.length_append, List.length_append, List.length_cons]
          rfl
        · have hnodup := h.subscriptions_nodup
          have hmem : subscriptionId ∉ (first ++ last).map FakeNostrSubscription.subscriptionId := by
            intro hmem
            obtain ⟨subscription, hsubscription, hid⟩ := List.mem_map.mp hmem
            exact hfresh subscription (hlive ▸ hsubscription) hid
          rw [hlive, List.map_append] at hnodup
          rw [hnew, List.map_append, List.map_cons, List.nodup_middle, List.nodup_cons,
            ← List.map_append]
          exact ⟨hmem, List.map_append ▸ hnodup⟩
      · refine iff_of_false (fun hsame => ?_) fun hmem => hfresh _ hmem rfl
        have hlen := congrArg List.length hnew
        rw [hsame, hlive, List.length_append, List.length_append, List.length_cons] at hlen
        omega

/-- Remembering a subscription keeps the relay valid. -/
theorem keeps_rememberSubscription (subscriptionId : String) (filters : List NostrFilter) :
    Keeps Admitted (rememberSubscription subscriptionId filters :
      RelayM eventCapacity subscriptionCapacity outputCapacity Unit) := by
  intro before relay h
  cases hid : validateSubscriptionId subscriptionId with
  | error fault =>
    have hends := ends_validateSubscriptionId subscriptionId
    rw [hid] at hends
    cases fault with
    | panic => exact hends.elim
    | error error =>
      rw [rememberSubscription, hid]
      exact h
  | ok _ =>
    rcases h.valid.rememberSubscription hid filters with ⟨-, hrun⟩ | ⟨_, _, -, hrun, hvalid, -⟩
    · exact EndsWith.of_error hrun h
    · exact EndsWith.of_ok hrun (h.of_valid hvalid (List.prefix_refl _) rfl)

/-- A subscription was found, so the counter is positive. -/
theorem Valid.exists_decrement (h : relay.Valid) {p : FakeNostrSubscription → Bool} {index : ℕ}
    (hfind : relay.subscriptions.findLive p = some index) :
    ∃ count, decrement relay.metrics.activeSubscriptions = .ok count := by
  obtain ⟨first, old, last, hlive, -⟩ := SlotArray.live_write_findLive hfind
  refine ⟨(first ++ last).length, ?_⟩
  rw [h.active_eq, hlive, List.length_append, List.length_append, List.length_cons]
  rfl

/-- A counter that goes down was positive. -/
theorem decrement_eq {counter count : ℕ} (h : decrement counter = .ok count) : counter = count + 1 := by
  cases counter with
  | zero => cases h
  | succ counter =>
    cases h
    rfl

/-- Closing a subscription keeps the relay valid. -/
theorem keeps_closeSubscription (subscriptionId : String) :
    Keeps Admitted (closeSubscription subscriptionId :
      RelayM eventCapacity subscriptionCapacity outputCapacity Bool) := by
  apply Keeps.lift_bind (ends_validateSubscriptionId subscriptionId)
  intro _ _ before relay h
  apply EndsWith.get_bind
  split
  · exact h
  · rename_i index hfind
    obtain ⟨first, old, last, hlive, -, -, hremoved, -⟩ := SlotArray.live_write_findLive hfind
    obtain ⟨count, hdecrement⟩ := h.valid.exists_decrement hfind
    have hcount := decrement_eq hdecrement
    rw [Outcome.lift_bind hdecrement]
    refine h.of_valid ?_ (List.prefix_refl _) rfl
    apply h.valid.withSubscriptions
    · have hactive := h.valid.active_eq
      rw [hcount, hlive, List.length_append, List.length_cons] at hactive
      rw [hremoved, List.length_append]
      omega
    · have hnodup := h.valid.subscriptions_nodup
      rw [hlive, List.map_append, List.map_cons, List.nodup_middle, List.nodup_cons,
        ← List.map_append] at hnodup
      rw [hremoved]
      exact hnodup.2

end FakeNostrRelay

end Hyf.Nostr
