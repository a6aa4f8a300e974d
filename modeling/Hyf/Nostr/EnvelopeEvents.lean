import Hyf.Nostr.Canonical
import Hyf.Nostr.RelayOperations

/-!
# Envelopes in the relay

An envelope is signed into one event, which fits the bounds of the relay. Once the relay holds the
event, a subscription whose filters match it queues it, and another publication of it is a duplicate.
-/

namespace Hyf.Nostr

open ByteCodec FakeNostrRelay

variable (sha256 : List UInt8 → ByteArrayN 32) (schnorr : Schnorr)

/-- The event that carries an envelope, before it is signed. -/
def envelopeEvent (author recipient : NostrPublicKey) (createdAt : UInt64) (bytes : List UInt8) :
    NostrUnsignedEvent where
  pubkey := author
  createdAt := createdAt
  kind := hyfNostrEnvelopeKind
  tags := [⟨["p", hexText recipient.bytes.toList], List.cons_ne_nil _ _⟩,
    ⟨["t", hyfNostrTopicTag], List.cons_ne_nil _ _⟩, ⟨["alt", hyfNostrAltTag], List.cons_ne_nil _ _⟩]
  content := hexText bytes

variable {sha256 schnorr} {author recipient : NostrPublicKey} {createdAt : UInt64} {bytes : List UInt8}

theorem hasPTag_envelopeEvent :
    Nostr.hasPTag (envelopeEvent author recipient createdAt bytes).tags = true := by
  have hlen : (asBytes (hexText recipient.bytes.toList)).length = 64 := by
    rw [asBytes_hexText, length_lowerHex, recipient.bytes.toList_length]
  simp [envelopeEvent, Nostr.hasPTag, NostrTagRef.name, NostrTagRef.value, hlen]

/-- A verified event with these fields carries the envelope. -/
theorem carries_of_unsigned {event : NostrEvent} (hverified : verifyEvent sha256 schnorr event = .ok ())
    (hunsigned : event.unsigned = envelopeEvent author recipient createdAt bytes) :
    Carries sha256 schnorr event bytes where
  verified := hverified
  kind_eq := congrArg NostrUnsignedEvent.kind hunsigned
  hasPTag := by
    have htags : event.tags = (envelopeEvent author recipient createdAt bytes).tags :=
      congrArg NostrUnsignedEvent.tags hunsigned
    rw [htags, hasPTag_envelopeEvent]
  content_eq := by
    have hcontent : event.content = hexText bytes := congrArg NostrUnsignedEvent.content hunsigned
    rw [hcontent, asBytes_hexText]

/-- Its tags fit the bounds of stored tags. -/
theorem checkTag_envelopeEvent : ∀ tag ∈ (envelopeEvent author recipient createdAt bytes).tags,
    checkTag hyfNostrMaxTagValues hyfNostrMaxTagValueChars tag = .ok () := by
  have hhex : (asBytes (hexText recipient.bytes.toList)).length ≤ hyfNostrMaxTagValueChars := by
    rw [asBytes_hexText, length_lowerHex, recipient.bytes.toList_length]
    decide
  have hcount : 2 ≤ hyfNostrMaxTagValues := by decide
  simp only [envelopeEvent, List.forall_mem_cons]
  refine ⟨checkTag_of_le hcount ?_, checkTag_of_le hcount ?_, checkTag_of_le hcount ?_, by simp⟩
  · simp only [List.forall_mem_cons]
    exact ⟨by decide, hhex, by simp⟩
  · decide
  · decide

/-- The event fits the bounds of a stored event, up to the largest envelope. -/
theorem exists_fromEvent_of_unsigned {event : NostrEvent}
    (hunsigned : event.unsigned = envelopeEvent author recipient createdAt bytes)
    (hmax : bytes.length ≤ hyfNostrMaxEnvelopeBytes) :
    ∃ record, FakeNostrEventRecord.fromEvent event = .ok record := by
  have hcontent : event.content = hexText bytes := congrArg NostrUnsignedEvent.content hunsigned
  have htags : event.tags = (envelopeEvent author recipient createdAt bytes).tags :=
    congrArg NostrUnsignedEvent.tags hunsigned
  have hchars : hyfNostrMaxContentChars = hyfNostrMaxEnvelopeBytes * 2 := rfl
  apply FakeNostrEventRecord.exists_fromEvent
  · rw [hcontent, asBytes_hexText, length_lowerHex]
    omega
  · rw [htags]
    show 3 ≤ hyfNostrMaxTags
    decide
  · rw [htags]
    exact checkTag_envelopeEvent

/-- **An envelope is signed** into an event that carries it. -/
theorem exists_withSignedHyfNostrEvent (hschnorr : schnorr.Accepts) {secret : NostrSecretKey}
    {key : schnorr.SigningKey} (hkey : schnorr.signingKeyFromSlice secret.bytes = some key)
    (recipient : NostrPublicKey) (createdAt : UInt64) (scratch : HyfNostrEventScratch)
    (hmax : bytes.length ≤ hyfNostrMaxEnvelopeBytes) :
    ∃ event, (∀ {T : Type} (f : NostrEvent → T), withSignedHyfNostrEvent sha256 schnorr bytes secret
        recipient createdAt scratch f = .ok (f event)) ∧
      verifyEvent sha256 schnorr event = .ok () ∧ event.unsigned =
        envelopeEvent (publicKeyFromSigningKey schnorr key) recipient createdAt bytes := by
  have hchars : hyfNostrMaxContentChars = hyfNostrMaxEnvelopeBytes * 2 := rfl
  have hlimit : 64 ≤ hyfNostrMaxContentChars ∧ hyfNostrMaxContentChars < addressLimit := by decide
  have hcontent : (asBytes (hexText bytes)).length ≤ hyfNostrMaxContentChars := by
    rw [asBytes_hexText, length_lowerHex]
    omega
  have hscratch : scratch.content.toList.length = hyfNostrMaxContentChars :=
    scratch.content.toList_length
  have hhex : scratch.recipientHex.toList.length = 64 := scratch.recipientHex.toList_length
  have hkeylen : recipient.bytes.toList.length = 32 := recipient.bytes.toList_length
  have hencode : encodeHyfEnvelopeContent bytes scratch.content.toList = .ok (hexText bytes,
      lowerHex bytes ++ scratch.content.toList.drop (bytes.length * 2)) := by
    rw [encodeHyfEnvelopeContent, Outcome.bind_eq (rejectIf_eq_ok (not_lt.mpr hmax))]
    exact encodeLowerHex_eq (by omega) (by omega)
  have hrecipient : recipient.writeHex scratch.recipientHex.toList = .ok
      (hexText recipient.bytes.toList, lowerHex recipient.bytes.toList ++
        scratch.recipientHex.toList.drop (recipient.bytes.toList.length * 2)) :=
    encodeLowerHex_eq (by omega) (by omega)
  have hpubkey : deriveNostrPublicKey schnorr secret = .ok (publicKeyFromSigningKey schnorr key) := by
    rw [deriveNostrPublicKey, Outcome.bind_eq (signingKey_eq hkey)]
    rfl
  obtain ⟨event, hsign, hunsigned, hverified⟩ : ∃ signed, signEvent sha256 schnorr
      (envelopeEvent (publicKeyFromSigningKey schnorr key) recipient createdAt bytes) secret =
        .ok signed ∧ signed.unsigned = _ ∧ verifyEvent sha256 schnorr signed = .ok () :=
    exists_signEvent hschnorr hkey rfl hcontent
  refine ⟨event, ?_, hverified, hunsigned⟩
  intro T f
  have hnew : NostrUnsignedEvent.new (publicKeyFromSigningKey schnorr key) createdAt
      hyfNostrEnvelopeKind (envelopeEvent (publicKeyFromSigningKey schnorr key) recipient createdAt
        bytes).tags (hexText bytes) =
      .ok (envelopeEvent (publicKeyFromSigningKey schnorr key) recipient createdAt bytes) := by
    rw [NostrUnsignedEvent.new, validateContentLen,
      Outcome.bind_eq (rejectIf_eq_ok (not_lt.mpr hcontent))]
    rfl
  rw [withSignedHyfNostrEvent, Outcome.bind_eq hencode]
  dsimp only
  rw [Outcome.bind_eq hrecipient]
  show (do
    let authorPubkey ← deriveNostrPublicKey schnorr secret
    let unsigned ← NostrUnsignedEvent.new authorPubkey createdAt hyfNostrEnvelopeKind
      (envelopeEvent (publicKeyFromSigningKey schnorr key) recipient createdAt bytes).tags
      (hexText bytes)
    let event ← signEvent sha256 schnorr unsigned secret
    return f event : Outcome NostrError T) = _
  rw [Outcome.bind_eq hpubkey, Outcome.bind_eq hnew, Outcome.bind_eq hsign]
  rfl

/-- An output that carries an event. -/
def FakeNostrRelayOutputRecord.hasEvent : FakeNostrRelayOutputRecord → Bool
  | .storedEvent _ _ => true
  | .ownedEvent _ _ => true
  | _ => false

/-! ## The event in the relay -/

namespace FakeNostrRelay

variable {eventCapacity subscriptionCapacity outputCapacity : ℕ}
  {relay relay' : FakeNostrRelay eventCapacity subscriptionCapacity outputCapacity}
  (sha256 : List UInt8 → ByteArrayN 32) (schnorr : Schnorr)

/-- The cell holds the event, verified. -/
structure Holds (relay : FakeNostrRelay eventCapacity subscriptionCapacity outputCapacity)
    (event : NostrUnsignedEvent) (index : ℕ) (record : FakeNostrEventRecord) : Prop where
  cell_eq : relay.events.toList[index]? = some (some record)
  verified : verifyEvent sha256 schnorr record.event = .ok ()
  unsigned_eq : record.event.unsigned = event

/-- No other stored event has the hash of the event. -/
def CollisionFree (relay : FakeNostrRelay eventCapacity subscriptionCapacity outputCapacity)
    (event : NostrUnsignedEvent) : Prop :=
  ∀ record ∈ relay.events.live,
    sha256 (canonicalBytes record.event.unsigned) = sha256 (canonicalBytes event) →
      canonicalBytes record.event.unsigned = canonicalBytes event

/-- The relay is valid, and holds verified events only. -/
structure Sound (relay : FakeNostrRelay eventCapacity subscriptionCapacity outputCapacity) : Prop where
  valid : relay.Valid
  authentic : ∀ record ∈ relay.events.live, Authentic sha256 schnorr record

variable {sha256 schnorr} {event : NostrEvent} {unsigned : NostrUnsignedEvent} {index : ℕ}
  {record : FakeNostrEventRecord}

theorem Holds.remembered (h : Holds sha256 schnorr relay unsigned index record)
    (hremembers : Remembers (Authentic sha256 schnorr) relay relay') :
    Holds sha256 schnorr relay' unsigned index record :=
  ⟨hremembers.stored h.cell_eq, h.verified, h.unsigned_eq⟩

/-- An event that is held is known under its id. -/
theorem Holds.containsEvent (h : Holds sha256 schnorr relay unsigned index record)
    (hverified : verifyEvent sha256 schnorr event = .ok ()) (hunsigned : event.unsigned = unsigned) :
    relay.containsEvent event.id = true := by
  rw [FakeNostrRelay.containsEvent, List.any_eq_true]
  refine ⟨record, SlotArray.mem_live.mpr (List.mem_of_getElem? h.cell_eq), decide_eq_true ?_⟩
  have hid := id_eq_of_verifyEvent h.verified
  rw [h.unsigned_eq, ← hunsigned, ← id_eq_of_verifyEvent hverified] at hid
  exact hid

/-- **A publication that is not rejected** leaves the event in the table. -/
theorem Sound.holds_of_publishAdmitted (h : Sound sha256 schnorr relay)
    (hverified : verifyEvent sha256 schnorr event = .ok ())
    (hfree : CollisionFree sha256 relay event.unsigned) {outcome : NostrPublishOutcome}
    (hrun : publishAdmitted event relay = .ok outcome relay')
    (haccepted : ∀ status, outcome ≠ .rejected status) :
    ∃ index record, Holds sha256 schnorr relay' event.unsigned index record := by
  by_cases hcontains : relay.containsEvent event.id = true
  · obtain ⟨status, hduplicate⟩ := h.valid.publishAdmitted_duplicate hcontains
    rw [hduplicate] at hrun
    split_ifs at hrun
    cases hrun
    obtain ⟨record, hmem, hid⟩ := List.any_eq_true.mp hcontains
    have hauthentic := h.authentic record hmem
    -- the same id is the same hash
    have hhash := id_eq_of_verifyEvent hauthentic
    rw [show record.event.id = event.id from of_decide_eq_true hid, id_eq_of_verifyEvent hverified]
      at hhash
    have hbytes := hfree record hmem (NostrEventId.mk.inj hhash).symm
    obtain ⟨index, hindex⟩ := List.mem_iff_getElem?.mp (SlotArray.mem_live.mp hmem)
    exact ⟨index, record, hindex, hauthentic, canonicalBytes_injective hbytes⟩
  · have hnew := Bool.eq_false_of_not_eq_true hcontains
    cases hrejection : relay.nextPublishRejection with
    | some status =>
      rw [h.valid.publishAdmitted_rejected hnew hrejection] at hrun
      split_ifs at hrun
      cases hrun
      exact absurd rfl (haccepted _)
    | none =>
      have hstore : ∃ middle, storeEvent event relay = .ok () middle := by
        rw [publishAdmitted, run_get_bind, if_neg hcontains, hrejection] at hrun
        obtain ⟨_, middle, hstore, -⟩ := exists_of_run_bind_eq_ok hrun
        exact ⟨middle, hstore⟩
      obtain ⟨middle, hstore⟩ := hstore
      obtain ⟨record, same, hlift, hstore⟩ := exists_of_run_bind_eq_ok hstore
      obtain ⟨hrecord, hsame⟩ := Outcome.eq_of_lift_eq_ok hlift
      rw [hsame] at hstore
      cases hfirst : relay.events.firstFree with
      | none =>
        rw [run_get_bind, hfirst] at hstore
        cases hstore
      | some index =>
        have hevent : record.event = event := (ends_fromEvent event).of_ok hrecord
        obtain ⟨status, hstored⟩ := h.valid.publishAdmitted_stored hnew hrejection hrecord hfirst
        rw [hstored] at hrun
        split_ifs at hrun
        cases hrun
        refine ⟨index, record, ?_, hevent ▸ hverified, congrArg NostrEvent.unsigned hevent⟩
        show (relay.events.write index (some record)).toList[index]? = _
        have hlt : index < relay.events.toList.length := by
          rw [List.Vector.toList_length]
          exact (firstFree_empty hfirst).1
        rw [SlotArray.toList_write, List.getElem?_set_self hlt]

/-- What the filters see of an envelope. -/
def envelopeTarget (author recipient : NostrPublicKey) (createdAt : UInt64) : NostrFilterTarget :=
  ⟨hyfNostrEnvelopeKind, author, [recipient], createdAt⟩

theorem Holds.eventMatchesFilters_eq {author recipient : NostrPublicKey} {createdAt : UInt64}
    {bytes : List UInt8}
    (h : Holds sha256 schnorr relay (envelopeEvent author recipient createdAt bytes) index record)
    (filters : List NostrFilter) : eventMatchesFilters record filters =
      matchesAnyFilter filters (envelopeTarget author recipient createdAt) := by
  have hkind : record.kind = hyfNostrEnvelopeKind := congrArg NostrUnsignedEvent.kind h.unsigned_eq
  have hauthor : record.pubkey = author := congrArg NostrUnsignedEvent.pubkey h.unsigned_eq
  have htime : record.createdAt = createdAt := congrArg NostrUnsignedEvent.createdAt h.unsigned_eq
  have htags : record.tags.tags = (envelopeEvent author recipient createdAt bytes).tags :=
    congrArg NostrUnsignedEvent.tags h.unsigned_eq
  have hdecode : decodeFixedLowerHex 32 (hexText recipient.bytes.toList) = .ok recipient.bytes :=
    decodeFixedLowerHex_eq recipient.bytes (asBytes_hexText _) (by decide)
  have hpTags : record.collectPTags eventPTagScanCapacity = [recipient] := by
    rw [FakeNostrEventRecord.collectPTags, htags]
    simp [envelopeEvent, FakeNostrEventRecord.collectPTag, NostrTagRef.name, NostrTagRef.value, hdecode,
      eventPTagScanCapacity]
  rw [eventMatchesFilters, hkind, hauthor, hpTags, htime, envelopeTarget]

/-- The limits of the filters let the event through. -/
def WithinLimit (relay : FakeNostrRelay eventCapacity subscriptionCapacity outputCapacity)
    (filters : List NostrFilter) (record : FakeNostrEventRecord) : Prop :=
  ∀ limit ∈ replayLimit filters, newer relay.events filters record < limit

/-- The relay after a replay. -/
theorem Valid.replay_done (h : relay.Valid) (subscriptionId : String) (stored : StoredSubscriptionId)
    {indices : List ℕ} (hroom : relay.queue.length + indices.length < outputCapacity)
    (hoccupied : ∀ index ∈ indices, Occupied relay.events index) :
    ((relay.replayed subscriptionId indices).enqueued (.eose stored)).Valid ∧
      ((relay.replayed subscriptionId indices).enqueued (.eose stored)).events = relay.events ∧
      ((relay.replayed subscriptionId indices).enqueued (.eose stored)).queue =
        relay.queue ++ indices.map (.storedEvent subscriptionId) ++ [.eose stored] := by
  obtain ⟨hreplayed, hqueue⟩ : (relay.replayed subscriptionId indices).Valid ∧ _ :=
    h.replayed hroom.le hoccupied
  have hspare : (relay.replayed subscriptionId indices).queue.length < outputCapacity := by
    rwa [hqueue, List.length_append, List.length_map]
  refine ⟨hreplayed.enqueued hspare rfl (by simp), events_replayed indices, ?_⟩
  rw [hreplayed.queue_enqueued hspare, hqueue]

/-- **A subscription** that matches the event queues it. -/
theorem Valid.mem_queue_of_subscribe (h : relay.Valid) {subscriptionId : String}
    {filters : List NostrFilter} (hrun : subscribe subscriptionId filters relay = .ok () relay')
    (hcell : relay.events.toList[index]? = some (some record))
    (hmatch : eventMatchesFilters record filters = true) (hlimit : relay.WithinLimit filters record) :
    relay'.Valid ∧ relay'.events = relay.events ∧
      .storedEvent subscriptionId index ∈ relay'.queue := by
  have hid : validateSubscriptionId subscriptionId = .ok () := by
    cases hvalidate : validateSubscriptionId subscriptionId with
    | ok _ => rfl
    | error fault =>
      rw [subscribe, FakeNostrRelay.rememberSubscription, hvalidate] at hrun
      cases hrun
  obtain ⟨_, middle, hremember, hreplay⟩ := exists_of_run_bind_eq_ok hrun
  rcases h.rememberSubscription hid filters with ⟨-, hfails⟩ | ⟨_, _, -, hremembered, hvalid, -⟩
  · rw [hfails] at hremember
    cases hremember
  rw [hremembered] at hremember
  cases hremember
  have hlen := (ends_validateSubscriptionId subscriptionId).of_ok hid
  obtain ⟨indices, hnodup, hcandidates, hnewest, hend⟩ := hvalid.replaySubscription_spec hlen filters
  rcases hend with ⟨hroom, hcount, -, hok⟩ | ⟨-, -, hfails⟩
  · rw [hok] at hreplay
    cases hreplay
    have hindex : index ∈ indices := by
      have hmem : record ∈ relay.events.live := SlotArray.mem_live.mpr (List.mem_of_getElem? hcell)
      have hmatching := newer_lt_countP hmem hmatch
      apply hnewest.mem_of_newer_lt h.ids_nodup hnodup hcandidates (candidate_replicate hcell hmatch)
      rw [hcount, replayCount]
      cases hlimits : replayLimit filters with
      | none => exact hmatching
      | some limit => exact lt_min (hlimit limit hlimits) hmatching
    have hoccupied : ∀ other ∈ indices, Occupied relay.events other := by
      intro other hother
      obtain ⟨event, hcandidate⟩ := hcandidates other hother
      exact ⟨event, hcandidate.cell_eq⟩
    obtain ⟨hdone, hevents, hqueue⟩ := hvalid.replay_done subscriptionId ⟨subscriptionId, hlen⟩
      (by omega) hoccupied
    refine ⟨hdone, hevents, ?_⟩
    rw [hqueue, List.mem_append, List.mem_append]
    exact .inl (.inr (List.mem_map_of_mem hindex))
  · rw [hfails] at hreplay
    cases hreplay

/-- A subscription whose limits let nothing through is answered with the end marker. -/
theorem Valid.subscribe_nothing (h : relay.Valid) {subscriptionId : String}
    (hid : validateSubscriptionId subscriptionId = .ok ()) {filters : List NostrFilter}
    (hadmits : relay.AdmitsSubscription subscriptionId) (hlimit : replayLimit filters = some 0)
    (hroom : relay.queue.length < outputCapacity) :
    ∃ relay' stored, subscribe subscriptionId filters relay = .ok () relay' ∧ relay'.Valid ∧
      relay'.queue = relay.queue ++ [.eose stored] := by
  rcases h.rememberSubscription hid filters with ⟨hfull, -⟩ | ⟨_, _, -, hremember, hvalid, -⟩
  · exact absurd hadmits hfull
  have hlen := (ends_validateSubscriptionId subscriptionId).of_ok hid
  obtain ⟨indices, -, -, -, hend⟩ := hvalid.replaySubscription_spec hlen filters
  rw [replayCount, hlimit, budget, Nat.zero_sub, Nat.zero_min, Nat.add_zero] at hend
  rcases hend with ⟨-, hcount, -, hok⟩ | ⟨hfull, -⟩
  · obtain rfl := List.length_eq_zero_iff.mp hcount
    have hspare : relay.queue.length + ([] : List ℕ).length < outputCapacity := hroom
    obtain ⟨hdone, -, hqueue⟩ := hvalid.replay_done subscriptionId ⟨subscriptionId, hlen⟩ hspare
      fun index hindex => absurd hindex List.not_mem_nil
    refine ⟨_, ⟨subscriptionId, hlen⟩, ?_, hdone, ?_⟩
    · rw [subscribe, run_bind_of_ok hremember, hok]
    · rw [hqueue, List.map_nil, List.append_nil]
      rfl
  · exact absurd hroom (not_lt.mpr hfull)

/-- An event that carries an envelope passes the checks. -/
theorem publish_eq {bytes : List UInt8} (hcarries : Carries sha256 schnorr event bytes)
    (hmax : bytes.length ≤ hyfNostrMaxEnvelopeBytes) {envelope : HyfEnvelopeRef}
    (hdecode : decodeEnvelope bytes = .ok envelope) {decodeBuffer : List UInt8}
    (hroom : bytes.length ≤ decodeBuffer.length) :
    publish sha256 schnorr event decodeBuffer relay = publishAdmitted event relay := by
  have hvalid : validatePublishProfile sha256 schnorr event decodeBuffer .hyfEnvelope = .ok () := by
    rw [validatePublishProfile, Outcome.bind_eq
      (verifyAndDecodeHyfNostrEvent_eq sha256 schnorr hcarries hmax hdecode hroom)]
    rfl
  rw [publish, publishWithProfile, hvalid]

end FakeNostrRelay

end Hyf.Nostr
