import Hyf.Nostr.Replay

/-!
# The operations of the relay

Every operation of the relay keeps its invariant, from any valid state and whether it succeeds or fails.
Only two operations take outputs away, and they take the oldest.
-/

namespace Hyf.Nostr

open ByteCodec

namespace FakeNostrRelay

variable {eventCapacity subscriptionCapacity outputCapacity : ℕ}
  {relay before : FakeNostrRelay eventCapacity subscriptionCapacity outputCapacity}
  {Admitted : FakeNostrEventRecord → Prop}

/-! ## Subscribing -/

/-- How many stored events match. -/
def matching (relay : FakeNostrRelay eventCapacity subscriptionCapacity outputCapacity)
    (filters : List NostrFilter) : ℕ :=
  relay.events.live.countP fun event => eventMatchesFilters event filters

/-- How many events a replay queues, if they fit. -/
def replayCount (relay : FakeNostrRelay eventCapacity subscriptionCapacity outputCapacity)
    (filters : List NostrFilter) : ℕ :=
  budget (replayLimit filters) 0 (relay.matching filters)

/-- No more events are replayed than match. -/
theorem replayCount_le (relay : FakeNostrRelay eventCapacity subscriptionCapacity outputCapacity)
    (filters : List NostrFilter) : relay.replayCount filters ≤ relay.matching filters := by
  rw [replayCount]
  cases replayLimit filters with
  | none => exact le_rfl
  | some limit => exact Nat.min_le_right _ _

/-- The events that a replay of the filters may queue. -/
abbrev Replayable (relay : FakeNostrRelay eventCapacity subscriptionCapacity outputCapacity)
    (filters : List NostrFilter) (index : ℕ) (event : FakeNostrEventRecord) : Prop :=
  Candidate relay.events filters (List.Vector.replicate eventCapacity false) index event

/-- A text that fits is stored. -/
theorem fromStr_eq {n : ℕ} {value : String} (h : (asBytes value).length ≤ n) :
    StoredString.fromStr n value = .ok ⟨value, h⟩ := by
  rw [StoredString.fromStr, dif_neg (not_lt.mpr h)]

/-- **A replay** queues the events it chose and the end marker behind them; if that does not fit, the
queue is full when it fails. -/
theorem Valid.replaySubscription_spec (h : relay.Valid) {subscriptionId : String}
    (hid : (asBytes subscriptionId).length ≤ nostrSubscriptionIdMaxLen) (filters : List NostrFilter) :
    ∃ indices : List ℕ, indices.Nodup ∧
      (∀ index ∈ indices, ∃ event, relay.Replayable filters index event) ∧
      NewestFirst relay.events filters (List.Vector.replicate eventCapacity false) indices ∧
      ((relay.queue.length + relay.replayCount filters < outputCapacity ∧
          indices.length = relay.replayCount filters ∧
          (relay.matching filters ≤ relay.replayCount filters →
            ∀ index event, relay.Replayable filters index event → index ∈ indices) ∧
          replaySubscription subscriptionId filters relay =
            .ok () ((relay.replayed subscriptionId indices).enqueued (.eose ⟨subscriptionId, hid⟩))) ∨
        (outputCapacity ≤ relay.queue.length + relay.replayCount filters ∧
          relay.queue.length + indices.length = outputCapacity ∧
          replaySubscription subscriptionId filters relay =
            .error (.error (.relayOutputFull outputCapacity))
              (relay.replayed subscriptionId indices).overflowed)) := by
  obtain ⟨indices, hnodup, hcandidates, hnewest, hend⟩ := @replayLoop_spec _ _ _ relay subscriptionId h
    filters (replayLimit filters) 0 (List.Vector.replicate eventCapacity false)
  rw [remaining_replicate] at hend
  refine ⟨indices, hnodup, hcandidates, hnewest, ?_⟩
  rcases hend with ⟨hlen, hroom, hall, hok⟩ | ⟨hlen, hfull, herror⟩
  · obtain ⟨hvalid, hqueue⟩ := @Valid.replayed _ _ _ relay subscriptionId indices h hroom (by
      intro index hindex
      obtain ⟨event, hcandidate⟩ := hcandidates index hindex
      exact ⟨event, hcandidate.cell_eq⟩)
    have hlast := hvalid.enqueueOutputRecord_eq (.eose ⟨subscriptionId, hid⟩)
    have hrun : replaySubscription subscriptionId filters relay =
        enqueueOutputRecord (.eose ⟨subscriptionId, hid⟩) (relay.replayed subscriptionId indices) := by
      show EStateM.bind (replayLoop _ _ _ _ _) _ relay = _
      simp only [EStateM.bind, hok, Outcome.lift_bind (fromStr_eq hid)]
    rw [hqueue, List.length_append, List.length_map] at hlast
    rw [hrun, hlast]
    have hcount : relay.replayCount filters = indices.length := hlen.symm
    rw [hcount]
    by_cases hspare : relay.queue.length + indices.length < outputCapacity
    · rw [if_pos hspare]
      exact .inl ⟨hspare, rfl, hall, rfl⟩
    · rw [if_neg hspare]
      exact .inr ⟨not_lt.mp hspare, by omega, rfl⟩
  · have hcount : indices.length < relay.replayCount filters := hlen
    refine .inr ⟨by omega, hfull, ?_⟩
    exact run_bind_of_error herror _

/-- A replay keeps the relay valid. -/
theorem keeps_replaySubscription (subscriptionId : String) (filters : List NostrFilter) :
    Keeps Admitted (replaySubscription subscriptionId filters :
      RelayM eventCapacity subscriptionCapacity outputCapacity Unit) := by
  apply Keeps.bind
  · intro before relay h
    obtain ⟨indices, -, hcandidates, -, hend⟩ := @replayLoop_spec _ _ _ relay subscriptionId h.valid
      filters (replayLimit filters) 0 (List.Vector.replicate eventCapacity false)
    have hoccupied : ∀ index ∈ indices, Occupied relay.events index := by
      intro index hindex
      obtain ⟨event, hcandidate⟩ := hcandidates index hindex
      exact ⟨event, hcandidate.cell_eq⟩
    have hgrown (hroom : relay.queue.length + indices.length ≤ outputCapacity) :
        Grown Admitted before (relay.replayed subscriptionId indices) := by
      obtain ⟨hvalid, hqueue⟩ := h.valid.replayed hroom hoccupied
      apply h.of_valid hvalid _ (events_replayed indices)
      rw [hqueue]
      exact List.prefix_append _ _
    rcases hend with ⟨-, hroom, -, hok⟩ | ⟨-, hfull, herror⟩
    · exact EndsWith.of_ok hok (hgrown hroom)
    · exact EndsWith.of_error herror (hgrown hfull.le).overflowed
  · intro _
    exact Keeps.lift_bind (ends_fromStr _ _) fun _ _ =>
      keeps_enqueueControl rfl fun _ _ h => by cases h

/-- So does a subscription. -/
theorem keeps_subscribe (subscriptionId : String) (filters : List NostrFilter) :
    Keeps Admitted (subscribe subscriptionId filters :
      RelayM eventCapacity subscriptionCapacity outputCapacity Unit) :=
  Keeps.bind (keeps_rememberSubscription subscriptionId filters) fun _ =>
    keeps_replaySubscription subscriptionId filters

/-! ## Publishing -/

/-- The next rejection is no part of what is valid. -/
theorem Valid.with_rejection (h : relay.Valid) (rejection : Option StoredRelayStatus) :
    ({ relay with nextPublishRejection := rejection } :
      FakeNostrRelay eventCapacity subscriptionCapacity outputCapacity).Valid :=
  ⟨h.packed, h.queued_eq, h.active_eq, h.stored_eq, h.ids_nodup, h.subscriptions_nodup, h.stored_live,
    h.owned_nodup, h.owned_iff⟩

/-- Setting it keeps the relay valid. -/
theorem keeps_rejectNextPublish (status : NostrRelayStatus) :
    Keeps Admitted (rejectNextPublish status :
      RelayM eventCapacity subscriptionCapacity outputCapacity Unit) := by
  apply Keeps.lift_bind (ends_fromStatus status)
  intro stored _ before relay h
  exact h.of_valid (h.valid.with_rejection (some stored)) (List.prefix_refl _) rfl

/-- An output that was just queued is found again. -/
theorem Valid.getElem?_enqueued (h : relay.Valid) (hroom : relay.queue.length < outputCapacity)
    (output : FakeNostrRelayOutputRecord) :
    (relay.enqueued output).outputs.toList[relay.queue.length]? = some (some output) := by
  rw [(h.packed_enqueued hroom output).toList_eq, List.getElem?_append_left (by simp), List.map_append,
    List.getElem?_append_right (by simp), List.length_map, Nat.sub_self]
  rfl

/-- The relay after the pending rejection was used up. -/
def rejectionTaken (relay : FakeNostrRelay eventCapacity subscriptionCapacity outputCapacity) :
    FakeNostrRelay eventCapacity subscriptionCapacity outputCapacity :=
  { relay with nextPublishRejection := none }

/-- Taking the rejection leaves the queue. -/
theorem queue_rejectionTaken : relay.rejectionTaken.queue = relay.queue := rfl

/-- A publication that is to be rejected. -/
theorem Valid.publishAdmitted_rejected (h : relay.Valid) {event : NostrEvent}
    (hnew : relay.containsEvent event.id = false) {status : StoredRelayStatus}
    (hrejection : relay.nextPublishRejection = some status) :
    publishAdmitted event relay =
      if relay.queue.length < outputCapacity then
        .ok (.rejected status.asStatus)
          (relay.rejectionTaken.enqueued (.ok event.id false status))
      else
        .error (.error (.relayOutputFull outputCapacity)) relay.rejectionTaken.overflowed := by
  have hvalid : relay.rejectionTaken.Valid := h.with_rejection none
  have henqueue := hvalid.enqueueOutputRecordIndex_eq (.ok event.id false status)
  have hrun : publishAdmitted event relay =
      EStateM.bind (enqueueOutputRecordIndex (.ok event.id false status))
        (fun index => outputOkStatus index >>= fun status => pure (.rejected status))
        relay.rejectionTaken := by
    rw [publishAdmitted, run_get_bind, if_neg (by simp [hnew]), hrejection]
    rfl
  rw [queue_rejectionTaken] at henqueue
  rw [hrun]
  simp only [EStateM.bind, henqueue]
  by_cases hroom : relay.queue.length < outputCapacity
  · have hfound := hvalid.getElem?_enqueued hroom (.ok event.id false status)
    rw [queue_rejectionTaken] at hfound
    rw [if_pos hroom, if_pos hroom]
    show EStateM.bind (outputOkStatus _) _ _ = _
    simp only [EStateM.bind, outputOkStatus, run_get_bind, hfound]
    rfl
  · rw [if_neg hroom, if_neg hroom]

/-- The relay with an event in a free cell of its table. -/
def withStored (relay : FakeNostrRelay eventCapacity subscriptionCapacity outputCapacity) (index : ℕ)
    (record : FakeNostrEventRecord) :
    FakeNostrRelay eventCapacity subscriptionCapacity outputCapacity :=
  { relay with
    events := relay.events.write index (some record)
    metrics := { relay.metrics with storedEvents := relay.metrics.storedEvents + 1 } }

/-- An event whose id is new. -/
theorem Valid.withStored (h : relay.Valid) {index : ℕ} (hfree : relay.events.firstFree = some index)
    {record : FakeNostrEventRecord} (hnew : relay.containsEvent record.id = false) :
    (relay.withStored index record).Valid := by
  obtain ⟨first, last, hlive, hinserted⟩ := SlotArray.live_write_firstFree hfree record
  obtain ⟨hindex, hempty⟩ := firstFree_empty hfree
  refine ⟨h.packed, h.queued_eq, h.active_eq, ?_, ?_, h.subscriptions_nodup, ?_, h.owned_nodup,
    h.owned_iff⟩
  · show relay.metrics.storedEvents + 1 = (relay.events.write index (some record)).live.length
    rw [h.stored_eq, hinserted, hlive, List.length_append, List.length_append, List.length_cons]
    rfl
  · show ((relay.events.write index (some record)).live.map _).Nodup
    have hnodup := h.ids_nodup
    have hfresh : record.id ∉ (first ++ last).map FakeNostrEventRecord.id := by
      intro hmem
      obtain ⟨other, hother, hid⟩ := List.mem_map.mp hmem
      rw [containsEvent, List.any_eq_false] at hnew
      exact hnew other (hlive ▸ hother) (decide_eq_true hid)
    rw [hlive, List.map_append] at hnodup
    rw [hinserted, List.map_append, List.map_cons, List.nodup_middle, List.nodup_cons,
      ← List.map_append]
    exact ⟨hfresh, List.map_append ▸ hnodup⟩
  · intro subscriptionId other hmem
    have hold := h.stored_live subscriptionId other hmem
    have hother : other ≠ index := by
      rintro rfl
      exact hempty hold
    exact (occupied_write_of_ne hother _).mpr hold

/-- An event that fits is stored in the first free cell. -/
theorem storeEvent_eq {event : NostrEvent} {record : FakeNostrEventRecord}
    (hrecord : FakeNostrEventRecord.fromEvent event = .ok record) {index : ℕ}
    (hfree : relay.events.firstFree = some index) :
    storeEvent event relay = .ok () (relay.withStored index record) := by
  rw [storeEvent, Outcome.lift_bind hrecord, run_get_bind, hfree]
  rfl

/-- The answer to a publication. -/
theorem Valid.enqueueOk_eq (h : relay.Valid) (eventId : NostrEventId) (accepted : Bool)
    {status : NostrRelayStatus} {stored : StoredRelayStatus}
    (hstored : StoredRelayStatus.fromStatus status = .ok stored) :
    enqueueOk eventId accepted status relay =
      if relay.queue.length < outputCapacity then
        .ok () (relay.enqueued (.ok eventId accepted stored))
      else .error (.error (.relayOutputFull outputCapacity)) relay.overflowed := by
  rw [enqueueOk, Outcome.lift_bind hstored]
  exact h.enqueueOutputRecord_eq _

/-- A publication of an event that is stored already. -/
theorem Valid.publishAdmitted_duplicate (h : relay.Valid) {event : NostrEvent}
    (hcontains : relay.containsEvent event.id = true) :
    ∃ status, publishAdmitted event relay =
      if relay.queue.length < outputCapacity then
        .ok (.acceptedDuplicate duplicateStatus) (relay.enqueued (.ok event.id true status))
      else .error (.error (.relayOutputFull outputCapacity)) relay.overflowed := by
  obtain ⟨status, hstatus⟩ : ∃ status, StoredRelayStatus.fromStatus duplicateStatus = .ok status := by
    have hprefix : (asBytes "duplicate").length ≤ hyfNostrMaxRelayStatusChars := by decide
    have hdetail : (asBytes "already stored").length ≤ hyfNostrMaxRelayStatusChars := by decide
    refine ⟨⟨.duplicate, ⟨_, hprefix⟩, ⟨_, hdetail⟩⟩, ?_⟩
    rw [StoredRelayStatus.fromStatus, duplicateStatus, Outcome.bind_eq (fromStr_eq hprefix),
      Outcome.bind_eq (fromStr_eq hdetail)]
    rfl
  have henqueue := h.enqueueOk_eq event.id true hstatus
  refine ⟨status, ?_⟩
  rw [publishAdmitted, run_get_bind, if_pos hcontains]
  by_cases hroom : relay.queue.length < outputCapacity
  · rw [if_pos hroom] at henqueue ⊢
    rw [run_bind_of_ok henqueue]
    rfl
  · rw [if_neg hroom] at henqueue ⊢
    rw [run_bind_of_error henqueue]

/-- A publication that is stored. -/
theorem Valid.publishAdmitted_stored (h : relay.Valid) {event : NostrEvent}
    (hnew : relay.containsEvent event.id = false) (hrejection : relay.nextPublishRejection = none)
    {record : FakeNostrEventRecord} (hrecord : FakeNostrEventRecord.fromEvent event = .ok record)
    {index : ℕ} (hfree : relay.events.firstFree = some index) :
    ∃ status, publishAdmitted event relay =
      if relay.queue.length < outputCapacity then
        .ok (.accepted "") ((relay.withStored index record).enqueued (.ok event.id true status))
      else
        .error (.error (.relayOutputFull outputCapacity)) (relay.withStored index record).overflowed := by
  have hid : record.id = event.id := congrArg NostrEvent.id ((ends_fromEvent event).of_ok hrecord)
  have hvalid : (relay.withStored index record).Valid := h.withStored hfree (hid ▸ hnew)
  obtain ⟨status, hstatus⟩ : ∃ status, StoredRelayStatus.fromStatus emptyStatus = .ok status :=
    ⟨_, by rw [StoredRelayStatus.fromStatus, emptyStatus, @fromStr_eq _ "" (by decide)]; rfl⟩
  have henqueue := hvalid.enqueueOk_eq event.id true hstatus
  refine ⟨status, ?_⟩
  rw [publishAdmitted, run_get_bind, if_neg (by simp [hnew]), hrejection]
  refine (run_bind_of_ok (storeEvent_eq hrecord hfree) _).trans ?_
  show EStateM.bind (enqueueOk _ _ _) _ _ = _
  simp only [EStateM.bind, henqueue]
  have hqueue : (relay.withStored index record).queue = relay.queue := rfl
  rw [hqueue]
  by_cases hroom : relay.queue.length < outputCapacity
  · rw [if_pos hroom, if_pos hroom]
    rfl
  · rw [if_neg hroom, if_neg hroom]

/-- A new event takes a free cell. -/
theorem Grown.withStored (h : Grown Admitted before relay) {index : ℕ}
    (hfree : relay.events.firstFree = some index) {record : FakeNostrEventRecord}
    (hnew : relay.containsEvent record.id = false) (hadmitted : Admitted record) :
    Grown Admitted before (relay.withStored index record) where
  valid := h.valid.withStored hfree hnew
  queue_prefix := h.queue_prefix
  stored := by
    intro other stored hbefore
    have hold := h.stored hbefore
    have hother : index ≠ other := by
      rintro rfl
      exact (firstFree_empty hfree).2 ⟨stored, hold⟩
    show (relay.events.write index (some record)).toList[other]? = _
    rw [SlotArray.toList_write, List.getElem?_set_ne hother, hold]
  admitted := by
    intro stored hstored
    obtain ⟨first, last, hlive, hinserted⟩ := SlotArray.live_write_firstFree hfree record
    have hmem : stored ∈ first ++ record :: last := hinserted ▸ hstored
    rw [List.mem_append, List.mem_cons, or_left_comm, ← List.mem_append, ← hlive] at hmem
    rcases hmem with rfl | hold
    · exact .inr hadmitted
    · exact h.admitted stored hold

/-- Storing an event keeps the relay valid, and stores no identifier twice. -/
theorem keeps_storeEvent {event : NostrEvent} (h : Grown Admitted before relay)
    (hnew : relay.containsEvent event.id = false)
    (hadmitted : ∀ record : FakeNostrEventRecord, record.event = event → Admitted record) :
    EndsWith (storeEvent event) relay (fun _ => Grown Admitted before)
      fun _ => Grown Admitted before := by
  apply EndsWith.lift_bind (ends_fromEvent event)
  · exact fun _ => h
  · intro record hrecord
    apply EndsWith.get_bind
    split
    · exact h
    · rename_i index hfree
      have hid : record.id = event.id := congrArg NostrEvent.id hrecord
      exact h.withStored hfree (hid ▸ hnew) (hadmitted record hrecord)

/-- Publishing an admitted event keeps the relay valid. -/
theorem keeps_publishAdmitted {event : NostrEvent}
    (hadmitted : ∀ record : FakeNostrEventRecord, record.event = event → Admitted record) :
    Keeps Admitted (publishAdmitted event :
      RelayM eventCapacity subscriptionCapacity outputCapacity NostrPublishOutcome) := by
  intro before relay h
  by_cases hcontains : relay.containsEvent event.id = true
  · apply EndsWith.get_bind
    rw [if_pos hcontains]
    exact (keeps_enqueueOk _ _ _ before relay h).bind fun _ _ h => h
  · have hnew := Bool.eq_false_of_not_eq_true hcontains
    cases hrejection : relay.nextPublishRejection with
    | some status =>
      have hrun := h.valid.publishAdmitted_rejected hnew hrejection
      have h' : Grown Admitted before relay.rejectionTaken :=
        h.of_valid (h.valid.with_rejection none) (List.prefix_refl _) rfl
      by_cases hroom : relay.queue.length < outputCapacity
      · rw [if_pos hroom] at hrun
        exact EndsWith.of_ok hrun (h'.enqueued hroom (h'.valid.enqueued hroom rfl (by simp)))
      · rw [if_neg hroom] at hrun
        exact EndsWith.of_error hrun h'.overflowed
    | none =>
      apply EndsWith.get_bind
      rw [if_neg hcontains, hrejection]
      refine (keeps_storeEvent h hnew hadmitted).bind fun _ relay' h' => ?_
      exact (keeps_enqueueOk _ _ _ before relay' h').bind fun _ _ h => h

section Publish

variable (sha256 : List UInt8 → ByteArrayN 32) (schnorr : Schnorr)

/-- Whatever its profile is, an event that is published was verified. -/
theorem ends_validatePublishProfile (event : NostrEvent) {decodeBuffer : List UInt8}
    (hlimit : decodeBuffer.length < addressLimit) (profile : FakeNostrPublishProfile) :
    Ends (validatePublishProfile sha256 schnorr event decodeBuffer profile) fun _ =>
      verifyEvent sha256 schnorr event = .ok () := by
  cases profile with
  | hyfEnvelope =>
    apply (ends_verifyAndDecodeHyfNostrEvent sha256 schnorr event hlimit).bind
    rintro decoded ⟨bytes, hcarries, -⟩
    exact hcarries.verified
  | signedKind kind =>
    apply (ends_verifyEvent sha256 schnorr event).with_eq.bind
    rintro ⟨⟩ ⟨-, hverified⟩
    exact (ends_rejectIf _ _).mono fun _ _ => hverified

/-- The event was verified. -/
def Authentic (record : FakeNostrEventRecord) : Prop :=
  verifyEvent sha256 schnorr record.event = .ok ()

/-- A publication stores its event, and only after it was verified. -/
theorem keeps_publishWithProfile (event : NostrEvent) {decodeBuffer : List UInt8}
    (hlimit : decodeBuffer.length < addressLimit) (profile : FakeNostrPublishProfile)
    (hadmitted : ∀ record : FakeNostrEventRecord, record.event = event →
      Authentic sha256 schnorr record → Admitted record) :
    Keeps Admitted
      (publishWithProfile sha256 schnorr event decodeBuffer profile :
        RelayM eventCapacity subscriptionCapacity outputCapacity NostrPublishOutcome) := by
  have hends := ends_validatePublishProfile sha256 schnorr event hlimit profile
  unfold publishWithProfile
  split
  · rename_i hpanic
    exact absurd hpanic hends.ne_panic
  · exact Keeps.bind (keeps_enqueueOk _ _ _) fun _ => Keeps.pure _
  · rename_i hvalid
    apply keeps_publishAdmitted
    rintro record rfl
    exact hadmitted record rfl (hends.of_ok hvalid)

end Publish

/-! ## Consuming -/

/-- The relay without the event that an output owns. -/
def freed (relay : FakeNostrRelay eventCapacity subscriptionCapacity outputCapacity)
    (output : FakeNostrRelayOutputRecord) :
    FakeNostrRelay eventCapacity subscriptionCapacity outputCapacity :=
  { relay with
    outputEvents :=
      match output.ownedIndex with
      | some index => relay.outputEvents.write index none
      | none => relay.outputEvents }

/-- The relay with the cells of its queue moved forward. -/
def shifted (relay : FakeNostrRelay eventCapacity subscriptionCapacity outputCapacity) :
    FakeNostrRelay eventCapacity subscriptionCapacity outputCapacity :=
  { relay with
    outputs :=
      if outputCapacity > 1 then
        (relay.outputs.write 0 none).rotateLeft.write (outputCapacity - 1) none
      else relay.outputs.write 0 none }

/-- The relay without its oldest output. -/
def consumed (relay : FakeNostrRelay eventCapacity subscriptionCapacity outputCapacity)
    (output : FakeNostrRelayOutputRecord) (queuedOutputs : ℕ) :
    FakeNostrRelay eventCapacity subscriptionCapacity outputCapacity :=
  { (relay.freed output).shifted with metrics := { relay.metrics with queuedOutputs } }

section Consuming

variable {output : FakeNostrRelayOutputRecord} {rest : List FakeNostrRelayOutputRecord}

/-- An output without an event of its own frees no cell. -/
theorem outputEvents_consumed_of_none (h : output.ownedIndex = none) (queuedOutputs : ℕ) :
    (relay.consumed output queuedOutputs).outputEvents = relay.outputEvents := by
  show (relay.freed output).outputEvents = _
  rw [freed, h]

/-- An output with an event of its own frees its cell. -/
theorem outputEvents_consumed_of_some {slot : ℕ} (h : output.ownedIndex = some slot)
    (queuedOutputs : ℕ) :
    (relay.consumed output queuedOutputs).outputEvents = relay.outputEvents.write slot none := by
  show (relay.freed output).outputEvents = _
  rw [freed, h]

/-- Without its head the queue is still packed. -/
theorem Valid.packed_consumed (h : relay.Valid) (hqueue : relay.queue = output :: rest) :
    (relay.consumed output rest.length).outputs.Packed rest := by
  have hpacked := h.packed
  rw [hqueue] at hpacked
  show (relay.freed output).shifted.outputs.Packed rest
  unfold shifted
  by_cases hn : outputCapacity > 1
  · rw [if_pos hn]
    exact hpacked.pop
  · rw [if_neg hn]
    exact hpacked.pop_singleton (Nat.le_of_not_lt hn)

/-- A relay is valid after its head was consumed. -/
theorem Valid.consumed (h : relay.Valid) (hqueue : relay.queue = output :: rest) :
    (relay.consumed output rest.length).Valid := by
  have hpacked := h.packed_consumed hqueue
  have hqueue' : (relay.consumed output rest.length).queue = rest := hpacked.live_eq
  have howned : relay.owned = output.ownedIndex.toList ++ (relay.consumed output rest.length).owned := by
    rw [owned, owned, hqueue, hqueue', List.filterMap_cons]
    cases output <;> rfl
  have hnodup := h.owned_nodup
  rw [howned] at hnodup
  refine ⟨hqueue'.symm ▸ hpacked, ?_, h.active_eq, h.stored_eq, h.ids_nodup, h.subscriptions_nodup,
    ?_, hnodup.of_append_right, ?_⟩
  · rw [hqueue']
    rfl
  · intro subscriptionId index hmem
    rw [hqueue'] at hmem
    exact h.stored_live subscriptionId index (hqueue ▸ List.mem_cons_of_mem _ hmem)
  · intro index
    have hiff := h.owned_iff index
    rw [howned] at hiff
    cases hslot : output.ownedIndex with
    | none =>
      rw [hslot, Option.toList_none, List.nil_append] at hiff
      rw [hiff, outputEvents_consumed_of_none hslot]
    | some slot =>
      rw [hslot, Option.toList_some, List.singleton_append] at hiff hnodup
      rw [outputEvents_consumed_of_some hslot]
      by_cases hindex : index = slot
      · subst hindex
        exact iff_of_false (List.nodup_cons.mp hnodup).1 not_occupied_write_none
      · rw [occupied_write_of_ne hindex, ← hiff, List.mem_cons, or_iff_right hindex]

/-- The head of the queue is in the first cell. -/
theorem Valid.head?_outputs (h : relay.Valid) {output : FakeNostrRelayOutputRecord}
    {rest : List FakeNostrRelayOutputRecord} (hqueue : relay.queue = output :: rest) :
    relay.outputs.toList.head? = some (some output) := by
  have hpacked := h.packed
  rw [hqueue] at hpacked
  exact hpacked.head?_eq

/-- The outputs behind the head move up by one cell. -/
theorem shiftOutputs_eq : shiftOutputs relay = .ok () relay.shifted := by
  rw [shifted]
  by_cases hn : outputCapacity > 1
  · rw [if_pos hn]
    simp only [shiftOutputs, if_pos hn]
    rfl
  · rw [if_neg hn]
    simp only [shiftOutputs, if_neg hn]
    rfl

/-- The cell of the event is freed, if it has one. -/
theorem freeOutputEvent_eq (hlt : ∀ slot, output.ownedIndex = some slot → slot < outputCapacity) :
    freeOutputEvent output relay = .ok () (relay.freed output) := by
  cases output with
  | ownedEvent subscriptionId slot =>
    rw [freeOutputEvent, if_pos (hlt slot rfl)]
    rfl
  | _ => rfl

/-- Consuming succeeds where something is queued, and removes the head. -/
theorem Valid.consumeOutput_eq (h : relay.Valid) (hqueue : relay.queue = output :: rest) :
    consumeOutput relay = .ok true (relay.consumed output rest.length) := by
  have hhead := h.head?_outputs hqueue
  have hslot (slot : ℕ) (howned : output.ownedIndex = some slot) : slot < outputCapacity := by
    apply occupied_lt
    apply (h.owned_iff slot).mp
    exact List.mem_filterMap.mpr ⟨output, hqueue ▸ List.mem_cons_self, howned⟩
  have hcount : (relay.freed output).shifted.metrics.queuedOutputs = rest.length + 1 := by
    show relay.metrics.queuedOutputs = _
    rw [h.queued_eq, hqueue, List.length_cons]
  rw [consumeOutput, run_get_bind, hhead]
  refine (run_bind_of_ok (freeOutputEvent_eq hslot) _).trans ?_
  show EStateM.bind shiftOutputs _ _ = _
  simp only [EStateM.bind, shiftOutputs_eq, run_get_bind, hcount]
  rfl

end Consuming

/-- **The oldest output** is taken, if there is one. -/
theorem Valid.consumeOutput (h : relay.Valid) :
    ∃ relay', consumeOutput relay = .ok (!relay.queue.isEmpty) relay' ∧ relay'.Valid ∧
      relay'.queue = relay.queue.tail ∧ relay'.events = relay.events := by
  have hpacked := h.packed
  cases hqueue : relay.queue with
  | nil =>
    rw [hqueue] at hpacked
    refine ⟨relay, ?_, h, hqueue, rfl⟩
    rw [FakeNostrRelay.consumeOutput, run_get_bind]
    rcases hpacked.head?_eq_of_nil with hhead | hhead <;> rw [hhead] <;> rfl
  | cons output rest =>
    exact ⟨_, h.consumeOutput_eq hqueue, h.consumed hqueue, (h.packed_consumed hqueue).live_eq, rfl⟩

/-- A filled cell has a record. -/
theorem recordAt_eq {n index : ℕ} {events : SlotArray FakeNostrEventRecord n}
    {record : FakeNostrEventRecord} (h : events.toList[index]? = some (some record)) :
    recordAt events index = .ok record := by
  rw [recordAt, h]

section Views

variable {T : Type} {events : SlotArray FakeNostrEventRecord eventCapacity}
  {outputEvents : SlotArray FakeNostrEventRecord outputCapacity} {index : ℕ}
  {record : FakeNostrEventRecord}

/-- An output that points into the store shows the record stored there. -/
theorem withView_storedEvent (h : events.toList[index]? = some (some record)) (subscriptionId : String)
    (f : FakeNostrRelayOutput → T) :
    (FakeNostrRelayOutputRecord.storedEvent subscriptionId index).withView events outputEvents f =
      .ok (f (.event subscriptionId record.event)) := by
  rw [FakeNostrRelayOutputRecord.withView, Outcome.bind_eq (recordAt_eq h), record.withEvent_eq]

/-- An output with an event of its own shows it. -/
theorem withView_ownedEvent (h : outputEvents.toList[index]? = some (some record))
    (subscriptionId : String) (f : FakeNostrRelayOutput → T) :
    (FakeNostrRelayOutputRecord.ownedEvent subscriptionId index).withView events outputEvents f =
      .ok (f (.event subscriptionId record.event)) := by
  rw [FakeNostrRelayOutputRecord.withView, Outcome.bind_eq (recordAt_eq h), record.withEvent_eq]

end Views

/-- Every queued output can be shown. -/
theorem Valid.exists_view (h : relay.Valid) {output : FakeNostrRelayOutputRecord}
    (hmem : output ∈ relay.queue) : ∃ view, ∀ {T : Type} (f : FakeNostrRelayOutput → T),
      output.withView relay.events relay.outputEvents f = .ok (f view) := by
  cases output with
  | storedEvent subscriptionId index =>
    obtain ⟨record, hrecord⟩ := h.stored_live subscriptionId index hmem
    exact ⟨_, withView_storedEvent hrecord subscriptionId⟩
  | ownedEvent subscriptionId index =>
    obtain ⟨record, hrecord⟩ := (h.owned_iff index).mp (List.mem_filterMap.mpr ⟨_, hmem, rfl⟩)
    exact ⟨_, withView_ownedEvent hrecord subscriptionId⟩
  | ok => exact ⟨_, fun _ => rfl⟩
  | eose => exact ⟨_, fun _ => rfl⟩
  | closed => exact ⟨_, fun _ => rfl⟩
  | notice => exact ⟨_, fun _ => rfl⟩
  | auth => exact ⟨_, fun _ => rfl⟩

/-- An output that is shown is also taken. -/
theorem Valid.popNextOutput (h : relay.Valid) {T : Type} (f : FakeNostrRelayOutput → T) :
    ∃ output relay', popNextOutput f relay = .ok output relay' ∧ relay'.Valid ∧
      relay'.queue = relay.queue.tail ∧ relay'.events = relay.events := by
  have hpacked := h.packed
  obtain ⟨relay', hconsume, hvalid, htail, hevents⟩ := h.consumeOutput
  rw [FakeNostrRelay.popNextOutput, run_get_bind]
  cases hqueue : relay.queue with
  | nil =>
    rw [hqueue] at hpacked
    have hnext : relay.withNextOutput f = .ok none := by
      rw [withNextOutput]
      rcases hpacked.head?_eq_of_nil with hhead | hhead <;> rw [hhead]
    rw [Outcome.lift_bind hnext]
    exact ⟨none, relay, rfl, h, hqueue, rfl⟩
  | cons output rest =>
    rw [hqueue] at hpacked
    have hmem : output ∈ relay.queue := hqueue ▸ List.mem_cons_self
    obtain ⟨view, hview⟩ := h.exists_view hmem
    have hnext : relay.withNextOutput f = .ok (some (f view)) := by
      rw [withNextOutput, hpacked.head?_eq]
      exact Outcome.bind_eq (hview f) _
    rw [Outcome.lift_bind hnext]
    refine ⟨some (f view), relay', ?_, hvalid, hqueue ▸ htail, hevents⟩
    exact run_bind_of_ok hconsume _

end FakeNostrRelay

end Hyf.Nostr
