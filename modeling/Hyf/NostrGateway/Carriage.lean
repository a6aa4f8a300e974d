import Hyf.Bridge.NostrBridge
import Hyf.NostrGateway.Runs
import Hyf.Nostr.EnvelopeEvents

/-!
# Carrying envelopes through the relay

An envelope that was sent lies in the relay as an event, and stays there. A subscription that matches
replays it, and the poll that comes to it returns the frame with the bytes of the envelope. Sending it
again makes the same event, which the relay does not store twice.
-/

namespace Hyf

open ByteCodec Nostr FakeNostrRelay

/-! ## Sending -/

namespace NostrGatewayExecutor

variable {eventCapacity subscriptionCapacity outputCapacity : ℕ}
  {sha256 : List UInt8 → ByteArrayN 32} {schnorr : Schnorr}
  {executor executor' : NostrGatewayExecutor
    (FakeNostrRelay eventCapacity subscriptionCapacity outputCapacity)}
  {linkId : LinkId} {bytes : List UInt8} {nowMs : TimestampMs}

/-- What a send has found when it goes through. -/
theorem admits_of_sendLinkBytes
    (h : sendLinkBytes sha256 schnorr linkId bytes nowMs executor = .ok () executor') :
    linkId = executor.linkId ∧ executor.up = true ∧ bytes.length ≤ executor.mtu := by
  rw [sendLinkBytes, run_get_bind] at h
  by_cases hlink : linkId ≠ executor.linkId
  · rw [rejectIf_eq_fail hlink] at h
    cases h
  rw [Outcome.lift_bind (rejectIf_eq_ok hlink)] at h
  by_cases hdown : executor.up = false
  · rw [rejectIf_eq_fail hdown] at h
    cases h
  rw [Outcome.lift_bind (rejectIf_eq_ok hdown)] at h
  by_cases hlong : bytes.length > executor.mtu
  · rw [rejectIf_eq_fail hlong] at h
    cases h
  exact ⟨not_not.mp hlink, Bool.eq_true_of_not_eq_false hdown, Nat.le_of_not_lt hlong⟩

theorem sendLinkBytes_eq (hup : executor.up = true) (hmtu : bytes.length ≤ executor.mtu)
    {event : NostrEvent} (hevent : withSignedHyfNostrEvent sha256 schnorr bytes executor.authorSecret
      executor.recipientPubkey (nowMs / 1000) .new id = .ok event) :
    sendLinkBytes sha256 schnorr executor.linkId bytes nowMs executor =
      publishEvent sha256 schnorr executor.linkId event executor := by
  have hdown : ¬executor.up = false := by simp [hup]
  rw [sendLinkBytes, run_get_bind, Outcome.lift_bind (rejectIf_eq_ok (not_not.mpr rfl)),
    Outcome.lift_bind (rejectIf_eq_ok hdown), Outcome.lift_bind (rejectIf_eq_ok (not_lt.mpr hmtu)),
    Outcome.lift_bind (Outcome.convert_eq hevent _)]

/-- The event that the executor makes of an envelope. -/
def sentEvent (schnorr : Schnorr) (key : schnorr.SigningKey) (executor : NostrGatewayExecutor
    (FakeNostrRelay eventCapacity subscriptionCapacity outputCapacity)) (bytes : List UInt8)
    (nowMs : TimestampMs) : NostrUnsignedEvent :=
  envelopeEvent (publicKeyFromSigningKey schnorr key) executor.recipientPubkey (nowMs / 1000) bytes

section Send

variable (hschnorr : schnorr.Accepts) {key : schnorr.SigningKey}
  (hkey : schnorr.signingKeyFromSlice executor.authorSecret.bytes = some key)
  (hmax : bytes.length ≤ hyfNostrMaxEnvelopeBytes) {envelope : HyfEnvelopeRef}
  (hdecode : decodeEnvelope bytes = .ok envelope)

include hschnorr hkey hmax hdecode

/-- A send that is let through publishes the event. -/
theorem exists_publication (hup : executor.up = true) (hmtu : bytes.length ≤ executor.mtu) :
    ∃ event, verifyEvent sha256 schnorr event = .ok () ∧
      event.unsigned = sentEvent schnorr key executor bytes nowMs ∧
      sendLinkBytes sha256 schnorr executor.linkId bytes nowMs executor =
        publishEvent sha256 schnorr executor.linkId event executor ∧
      publish sha256 schnorr event (List.replicate gatewayFrameBufferLen 0) executor.relay =
        publishAdmitted event executor.relay := by
  obtain ⟨event, hevent, hverified, hunsigned⟩ : ∃ event, (∀ {T : Type} (f : NostrEvent → T),
      withSignedHyfNostrEvent sha256 schnorr bytes executor.authorSecret executor.recipientPubkey
        (nowMs / 1000) .new f = .ok (f event)) ∧ verifyEvent sha256 schnorr event = .ok () ∧
      event.unsigned = sentEvent schnorr key executor bytes nowMs :=
    exists_withSignedHyfNostrEvent hschnorr hkey _ _ _ hmax
  have hroom : bytes.length ≤ (List.replicate gatewayFrameBufferLen (0 : UInt8)).length := by
    rw [List.length_replicate]
    exact hmax
  exact ⟨event, hverified, hunsigned, sendLinkBytes_eq hup hmtu (hevent id),
    publish_eq (carries_of_unsigned hverified hunsigned) hmax hdecode hroom⟩

/-- **A successful send** leaves the event in the relay. -/
theorem holds_of_sendLinkBytes (hsound : Sound sha256 schnorr executor.relay)
    (hfree : CollisionFree sha256 executor.relay (sentEvent schnorr key executor bytes nowMs))
    (hrun : sendLinkBytes sha256 schnorr linkId bytes nowMs executor = .ok () executor') :
    ∃ index record, Holds sha256 schnorr executor'.relay
      (sentEvent schnorr key executor bytes nowMs) index record := by
  obtain ⟨rfl, hup, hmtu⟩ := admits_of_sendLinkBytes hrun
  obtain ⟨event, hverified, hunsigned, hsend, hpublish⟩ :=
    exists_publication hschnorr hkey hmax hdecode hup hmtu
  rw [hsend] at hrun
  obtain ⟨outcome, middle, hcall, hrest⟩ := exists_of_run_bind_eq_ok hrun
  rw [onRelay, hpublish] at hcall
  cases hadmitted : publishAdmitted event executor.relay with
  | error fault relay =>
    rw [hadmitted] at hcall
    cases hcall
  | ok outcome' relay =>
    rw [hadmitted] at hcall
    cases hcall
    rw [← hunsigned] at hfree ⊢
    cases outcome with
    | accepted message =>
      cases hrest
      exact hsound.holds_of_publishAdmitted hverified hfree hadmitted (by simp)
    | acceptedDuplicate status =>
      cases hrest
      exact hsound.holds_of_publishAdmitted hverified hfree hadmitted (by simp)
    | rejected status => cases hrest

/-- **Sending it again** stores nothing, and is accepted if there is room for the answer. -/
theorem resend_eq (hvalid : executor.relay.Valid) (hup : executor.up = true)
    (hmtu : bytes.length ≤ executor.mtu) {index : ℕ} {record : FakeNostrEventRecord}
    (hholds : Holds sha256 schnorr executor.relay (sentEvent schnorr key executor bytes nowMs)
      index record) :
    ∃ relay', relay'.events = executor.relay.events ∧
      sendLinkBytes sha256 schnorr executor.linkId bytes nowMs executor =
        if executor.relay.queue.length < outputCapacity then .ok () (executor.withRelay relay')
        else .error (.error (.driver executor.linkId .backpressure)) (executor.withRelay relay') := by
  obtain ⟨event, hverified, hunsigned, hsend, hpublish⟩ :=
    exists_publication hschnorr hkey hmax hdecode hup hmtu
  obtain ⟨status, hduplicate⟩ := hvalid.publishAdmitted_duplicate
    (hholds.containsEvent hverified hunsigned)
  rw [hsend, publishEvent]
  by_cases hroom : executor.relay.queue.length < outputCapacity
  · rw [if_pos hroom] at hduplicate
    have hcall : onRelay (mapNostrSendError executor.linkId) (FakeNostrRelay.publish sha256 schnorr
        event (List.replicate gatewayFrameBufferLen 0)) executor =
        .ok (.acceptedDuplicate duplicateStatus)
          (executor.withRelay (executor.relay.enqueued (.ok event.id true status))) := by
      rw [onRelay, hpublish, hduplicate]
      rfl
    refine ⟨executor.relay.enqueued (.ok event.id true status), rfl, ?_⟩
    rw [if_pos hroom]
    exact run_bind_of_ok hcall _
  · rw [if_neg hroom] at hduplicate
    have hcall : onRelay (mapNostrSendError executor.linkId) (FakeNostrRelay.publish sha256 schnorr
        event (List.replicate gatewayFrameBufferLen 0)) executor =
        .error (.error (.driver executor.linkId .backpressure))
          (executor.withRelay executor.relay.overflowed) := by
      rw [onRelay, hpublish, hduplicate]
      rfl
    refine ⟨executor.relay.overflowed, rfl, ?_⟩
    rw [if_neg hroom]
    exact run_bind_of_error hcall _

/-- A new event is sent if nothing stands in its way. -/
theorem sendLinkBytes_new (hvalid : executor.relay.Valid) (hup : executor.up = true)
    (hmtu : bytes.length ≤ executor.mtu)
    (hnew : executor.relay.containsEvent
      ⟨sha256 (canonicalBytes (sentEvent schnorr key executor bytes nowMs))⟩ = false)
    (hrejection : executor.relay.nextPublishRejection = none)
    (hcell : executor.relay.events.live.length < eventCapacity)
    (hroom : executor.relay.queue.length < outputCapacity) :
    ∃ index record eventId status, executor.relay.events.firstFree = some index ∧
      record.event.unsigned = sentEvent schnorr key executor bytes nowMs ∧
      executor.relay.containsEvent record.id = false ∧
      sendLinkBytes sha256 schnorr executor.linkId bytes nowMs executor = .ok () (executor.withRelay
        ((executor.relay.withStored index record).enqueued (.ok eventId true status))) := by
  obtain ⟨event, hverified, hunsigned, hsend, hpublish⟩ :=
    exists_publication hschnorr hkey hmax hdecode hup hmtu
  obtain ⟨record, hrecord⟩ := exists_fromEvent_of_unsigned hunsigned hmax
  obtain ⟨index, hfree⟩ := SlotArray.exists_firstFree hcell
  have hevent : record.event = event := (ends_fromEvent event).of_ok hrecord
  have hid : record.id = event.id := congrArg NostrEvent.id hevent
  rw [← hunsigned, ← id_eq_of_verifyEvent hverified] at hnew
  obtain ⟨status, hstored⟩ := hvalid.publishAdmitted_stored hnew hrejection hrecord hfree
  rw [if_pos hroom] at hstored
  have hcall : onRelay (mapNostrSendError executor.linkId) (FakeNostrRelay.publish sha256 schnorr
      event (List.replicate gatewayFrameBufferLen 0)) executor = .ok (.accepted "")
        (executor.withRelay ((executor.relay.withStored index record).enqueued
          (.ok event.id true status))) := by
    rw [onRelay, hpublish, hstored]
    rfl
  refine ⟨index, record, event.id, status, hfree, by rw [hevent, hunsigned], hid ▸ hnew, ?_⟩
  rw [hsend]
  exact run_bind_of_ok hcall _

end Send

/-! ## Receiving -/

variable (sha256 schnorr) in
/-- The executor after some polls. -/
def polled (output : List UInt8) (n : ℕ) (executor : NostrGatewayExecutor
    (FakeNostrRelay eventCapacity subscriptionCapacity outputCapacity)) :
    NostrGatewayExecutor (FakeNostrRelay eventCapacity subscriptionCapacity outputCapacity) :=
  (fun executor => (pollRelayOutput sha256 schnorr output executor).state)^[n] executor

/-- Each poll takes one output, so the polls come to every output that is queued. -/
theorem polled_eq {output : List UInt8} (hlimit : output.length < addressLimit)
    (hroom : hyfNostrMaxEnvelopeBytes ≤ output.length) (hup : executor.up = true)
    (hvalid : executor.relay.Valid) {before after : List FakeNostrRelayOutputRecord}
    (hqueue : executor.relay.queue = before ++ after) :
    ∃ relay', polled sha256 schnorr output before.length executor = executor.withRelay relay' ∧
      relay'.Valid ∧ relay'.events = executor.relay.events ∧ relay'.queue = after := by
  induction before generalizing executor with
  | nil => exact ⟨executor.relay, rfl, hvalid, rfl, hqueue⟩
  | cons record before ih =>
    have hpoll : (pollRelayOutput sha256 schnorr output executor).state = _ :=
      poll_takes hup hvalid hqueue hlimit hroom
    have hvalid' := hvalid.consumed hqueue
    have hqueue' : (executor.relay.consumed record (before ++ after).length).queue = before ++ after :=
      (hvalid.packed_consumed hqueue).live_eq
    obtain ⟨relay', hpolled, hvalid'', hevents, hafter⟩ :=
      @ih (executor.withRelay (executor.relay.consumed record (before ++ after).length)) hup hvalid' hqueue'
    refine ⟨relay', ?_, hvalid'', hevents, hafter⟩
    rw [polled, List.length_cons, Function.iterate_succ_apply, hpoll]
    exact hpolled

/-- **The poll that comes to an envelope** returns its frame. -/
theorem poll_event (hup : executor.up = true) (hvalid : executor.relay.Valid)
    {output : FakeNostrRelayOutputRecord} {rest : List FakeNostrRelayOutputRecord}
    (hqueue : executor.relay.queue = output :: rest) {event : NostrEvent} (hshows : executor.Shows event)
    (hverified : verifyEvent sha256 schnorr event = .ok ()) {author recipient : NostrPublicKey}
    (hunsigned : event.unsigned = envelopeEvent author recipient (nowMs / 1000) bytes)
    (hmax : bytes.length ≤ hyfNostrMaxEnvelopeBytes) {envelope : HyfEnvelopeRef}
    (hdecode : decodeEnvelope bytes = .ok envelope) {buffer : List UInt8}
    (hroom : bytes.length ≤ buffer.length) :
    ∃ relay', pollRelayOutput sha256 schnorr buffer executor =
      .ok (some (.frame ⟨executor.linkId, nowMs / 1000 * 1000, bytes⟩)) (executor.withRelay relay') := by
  have hcreated : event.createdAt = nowMs / 1000 := congrArg NostrUnsignedEvent.createdAt hunsigned
  have htime : event.createdAt.toNat * 1000 < 2 ^ 64 := by
    have hnow := UInt64.toNat_lt nowMs
    rw [hcreated, UInt64.toNat_div]
    exact lt_of_le_of_lt (Nat.div_mul_le_self _ _) hnow
  have hframe : decodeRelayEvent sha256 schnorr executor.linkId event buffer = _ :=
    decodeRelayEvent_eq executor.linkId (carries_of_unsigned hverified hunsigned) hmax hdecode htime hroom
  rw [poll_of_shows hup hshows, hframe, hcreated]
  exact ⟨_, run_bind_of_ok (consumeRelayOutput_eq hvalid hqueue) _⟩

theorem shows_storedEvent (hvalid : executor.relay.Valid) {subscriptionId : String} {index : ℕ}
    {rest : List FakeNostrRelayOutputRecord}
    (hqueue : executor.relay.queue = .storedEvent subscriptionId index :: rest)
    {record : FakeNostrEventRecord}
    (hcell : executor.relay.events.toList[index]? = some (some record)) : executor.Shows record.event := by
  refine ⟨subscriptionId, ?_⟩
  rw [withNextOutput, hvalid.head?_outputs hqueue]
  exact Outcome.bind_eq (withView_storedEvent hcell subscriptionId id) _

/-- What is shown as an event is queued as one. -/
theorem exists_hasEvent_of_shows (hvalid : executor.relay.Valid) {event : NostrEvent}
    (h : executor.Shows event) : ∃ record ∈ executor.relay.queue, record.hasEvent = true := by
  obtain ⟨subscriptionId, hnext⟩ := h
  rw [withNextOutput] at hnext
  cases hqueue : executor.relay.queue with
  | nil =>
    have hpacked := hvalid.packed
    rw [hqueue] at hpacked
    rcases hpacked.head?_eq_of_nil with hhead | hhead <;> rw [hhead] at hnext <;> cases hnext
  | cons record rest =>
    rw [hvalid.head?_outputs hqueue] at hnext
    cases record with
    | storedEvent | ownedEvent => exact ⟨_, List.mem_cons_self, rfl⟩
    | _ => cases hnext

/-- As long as no event is queued, no poll returns a frame. -/
theorem polled_ne_frame (hvalid : executor.relay.Valid)
    (hnone : ∀ record ∈ executor.relay.queue, record.hasEvent = false) (output : List UInt8) (n : ℕ)
    (frame : LinkFrameRef) : pollRelayOutput sha256 schnorr output
      (polled sha256 schnorr output n executor) ≠ .ok (some (.frame frame)) executor' := by
  induction n generalizing executor with
  | zero =>
    intro hpoll
    obtain ⟨event, hshows, -⟩ := poll_frame hpoll
    obtain ⟨record, hmem, hevent⟩ := exists_hasEvent_of_shows hvalid hshows
    rw [hnone record hmem] at hevent
    cases hevent
  | succ n ih =>
    rw [polled, Function.iterate_succ_apply]
    rcases state_pollRelayOutput hvalid output with hstate | ⟨record, rest, hqueue, hstate⟩
    · rw [hstate]
      exact ih hvalid hnone
    · rw [hstate]
      apply @ih (executor.withRelay (executor.relay.consumed record rest.length))
      · exact hvalid.consumed hqueue
      · intro other hother
        rw [show (executor.withRelay (executor.relay.consumed record rest.length)).relay.queue = rest from
          (hvalid.packed_consumed hqueue).live_eq] at hother
        exact hnone other (hqueue ▸ List.mem_cons_of_mem _ hother)

/-! ## Carriage -/

theorem sound_new : Sound sha256 schnorr
    (FakeNostrRelay.new : FakeNostrRelay eventCapacity subscriptionCapacity outputCapacity) where
  valid := valid_new
  authentic record hrecord := by
    rw [show FakeNostrRelay.new.events.live = [] from SlotArray.live_empty] at hrecord
    cases hrecord

theorem Follows.sound (h : Follows sha256 schnorr executor executor')
    (hsound : Sound sha256 schnorr executor.relay) : Sound sha256 schnorr executor'.relay where
  valid := h.valid hsound.valid
  authentic record hrecord := by
    rcases (h.remembers hsound.valid).admitted record hrecord with hold | hnew
    · exact hsound.authentic record hold
    · exact hnew

variable (sha256 schnorr) in
/-- An envelope that was sent at `nowMs` is delivered by the executor, and not stored again. -/
structure Carried (key : schnorr.SigningKey) (bytes : List UInt8) (nowMs : TimestampMs)
    (executor : NostrGatewayExecutor
      (FakeNostrRelay eventCapacity subscriptionCapacity outputCapacity)) : Prop where
  replayed : ∀ subscriptionId filters relay',
    subscribe subscriptionId filters executor.relay = .ok () relay' →
    matchesAnyFilter filters (envelopeTarget (publicKeyFromSigningKey schnorr key)
      executor.recipientPubkey (nowMs / 1000)) = true →
    (∀ index record, Holds sha256 schnorr executor.relay
      (sentEvent schnorr key executor bytes nowMs) index record →
        executor.relay.WithinLimit filters record) →
    ∀ output : List UInt8, output.length < addressLimit → hyfNostrMaxEnvelopeBytes ≤ output.length →
      ∃ n executor', pollRelayOutput sha256 schnorr output
          (polled sha256 schnorr output n (executor.withRelay relay')) =
        .ok (some (.frame ⟨executor.linkId, nowMs / 1000 * 1000, bytes⟩)) executor'
  resent : ∃ relay', relay'.events = executor.relay.events ∧
    sendLinkBytes sha256 schnorr executor.linkId bytes nowMs executor =
      if executor.relay.queue.length < outputCapacity then .ok () (executor.withRelay relay')
      else .error (.error (.driver executor.linkId .backpressure)) (executor.withRelay relay')

theorem carried_of_holds (hschnorr : schnorr.Accepts) {key : schnorr.SigningKey}
    (hkey : schnorr.signingKeyFromSlice executor.authorSecret.bytes = some key)
    (hmax : bytes.length ≤ hyfNostrMaxEnvelopeBytes) {envelope : HyfEnvelopeRef}
    (hdecode : decodeEnvelope bytes = .ok envelope) (hvalid : executor.relay.Valid)
    (hup : executor.up = true) (hmtu : bytes.length ≤ executor.mtu) {index : ℕ}
    {record : FakeNostrEventRecord} (hholds : Holds sha256 schnorr executor.relay
      (sentEvent schnorr key executor bytes nowMs) index record) :
    Carried sha256 schnorr key bytes nowMs executor where
  replayed := by
    intro subscriptionId filters relay' hrun hmatch hlimit output haddress hroom
    have hmatches : eventMatchesFilters record filters = true := by
      rw [hholds.eventMatchesFilters_eq]
      exact hmatch
    obtain ⟨hvalid', hevents, hmem⟩ :=
      hvalid.mem_queue_of_subscribe hrun hholds.cell_eq hmatches (hlimit index record hholds)
    obtain ⟨before, after, hqueue⟩ := List.append_of_mem hmem
    obtain ⟨relay'', hpolled, hvalid'', hevents', hqueue'⟩ := @polled_eq _ _ _ sha256 schnorr
      (executor.withRelay relay') output haddress hroom hup hvalid' before _ hqueue
    have hholds' : Holds sha256 schnorr relay'' (sentEvent schnorr key executor bytes nowMs) index record :=
      ⟨by rw [hevents', ← hholds.cell_eq, ← hevents]; rfl, hholds.verified, hholds.unsigned_eq⟩
    have hshows : (executor.withRelay relay'').Shows record.event :=
      shows_storedEvent hvalid'' hqueue' hholds'.cell_eq
    obtain ⟨last, hpoll⟩ := @poll_event _ _ _ sha256 schnorr (executor.withRelay relay'') bytes nowMs hup
      hvalid'' _ _ hqueue' _ hshows hholds'.verified _ _ hholds'.unsigned_eq hmax _ hdecode _
      (hmax.trans hroom)
    refine ⟨before.length, (executor.withRelay relay'').withRelay last, ?_⟩
    rw [hpolled]
    exact hpoll
  resent := resend_eq hschnorr hkey hmax hdecode hvalid hup hmtu hholds

/-- **Envelopes are carried.** A signed event is decoded to its envelope; an envelope that was sent
comes back from the relay in a frame and is not stored twice; and every frame stems from an event that
was verified. -/
theorem envelopes_are_carried (sha256 : List UInt8 → ByteArrayN 32) (schnorr : Schnorr)
    (hschnorr : schnorr.Accepts) :
    (∀ (bytes : List UInt8) (envelope : HyfEnvelopeRef) (secret : NostrSecretKey)
      (key : schnorr.SigningKey) (recipient : NostrPublicKey) (createdAt : UInt64)
      (scratch : HyfNostrEventScratch), decodeEnvelope bytes = .ok envelope →
      bytes.length ≤ hyfNostrMaxEnvelopeBytes → schnorr.signingKeyFromSlice secret.bytes = some key →
      ∃ event, (∀ {T : Type} (f : NostrEvent → T), withSignedHyfNostrEvent sha256 schnorr bytes secret
          recipient createdAt scratch f = .ok (f event)) ∧
        ∀ out : List UInt8, bytes.length ≤ out.length → verifyAndDecodeHyfNostrEvent sha256 schnorr event
          out = .ok (envelope, bytes ++ out.drop bytes.length)) ∧
    (∀ (executor sent : NostrGatewayExecutor
        (FakeNostrRelay eventCapacity subscriptionCapacity outputCapacity))
      (ops later : List ExecutorOp) (bytes : List UInt8) (envelope : HyfEnvelopeRef)
      (key : schnorr.SigningKey) (linkId : LinkId) (nowMs : TimestampMs),
      executor.relay = FakeNostrRelay.new → decodeEnvelope bytes = .ok envelope →
      bytes.length ≤ hyfNostrMaxEnvelopeBytes →
      schnorr.signingKeyFromSlice executor.authorSecret.bytes = some key →
      CollisionFree sha256 (ExecutorOp.run sha256 schnorr ops executor).relay
        (sentEvent schnorr key executor bytes nowMs) →
      sendLinkBytes sha256 schnorr linkId bytes nowMs (ExecutorOp.run sha256 schnorr ops executor) =
        .ok () sent → (ExecutorOp.run sha256 schnorr later sent).up = true →
      Carried sha256 schnorr key bytes nowMs (ExecutorOp.run sha256 schnorr later sent)) ∧
    ∀ (executor executor' : NostrGatewayExecutor
        (FakeNostrRelay eventCapacity subscriptionCapacity outputCapacity))
      (output : List UInt8) (frame : LinkFrameRef), output.length < addressLimit →
      pollRelayOutput sha256 schnorr output executor = .ok (some (.frame frame)) executor' →
      ∃ event, executor.Shows event ∧ Carries sha256 schnorr event frame.bytes ∧
        ∃ envelope, decodeEnvelope frame.bytes = .ok envelope := by
  refine ⟨?_, ?_, ?_⟩
  · intro bytes envelope secret key recipient createdAt scratch hdecode hmax hkey
    obtain ⟨event, hevent, hverified, hunsigned⟩ := exists_withSignedHyfNostrEvent hschnorr hkey
      recipient createdAt scratch hmax
    exact ⟨event, hevent, fun out hroom => verifyAndDecodeHyfNostrEvent_eq sha256 schnorr
      (carries_of_unsigned hverified hunsigned) hmax hdecode hroom⟩
  · intro executor sent ops later bytes envelope key linkId nowMs hstart hdecode hmax hkey hfree hrun hup
    have hsound : Sound sha256 schnorr executor.relay := hstart ▸ sound_new
    have hfirst : Follows sha256 schnorr executor (ExecutorOp.run sha256 schnorr ops executor) :=
      follows_run hsound.valid ops
    have hsound' := hfirst.sound hsound
    have hsent : Follows sha256 schnorr (ExecutorOp.run sha256 schnorr ops executor) sent := by
      have hsend : Follows sha256 schnorr (ExecutorOp.run sha256 schnorr ops executor) _ :=
        follows_sendLinkBytes linkId bytes nowMs
      rwa [hrun] at hsend
    have hlater : Follows sha256 schnorr sent (ExecutorOp.run sha256 schnorr later sent) :=
      follows_run (hsent.valid hsound'.valid) later
    obtain ⟨rfl, -, hmtu⟩ := admits_of_sendLinkBytes hrun
    have hkey' : schnorr.signingKeyFromSlice
        (ExecutorOp.run sha256 schnorr ops executor).authorSecret.bytes = some key := by
      rw [hfirst.secret_eq, hkey]
    have hevent : sentEvent schnorr key executor bytes nowMs =
        sentEvent schnorr key (ExecutorOp.run sha256 schnorr ops executor) bytes nowMs := by
      rw [sentEvent, sentEvent, hfirst.recipient_eq]
    obtain ⟨index, record, hholds⟩ := holds_of_sendLinkBytes hschnorr hkey' hmax hdecode hsound'
      (hevent ▸ hfree) hrun
    have hall := hsent.trans hlater
    have hholds' := hholds.remembered (hlater.remembers (hsent.valid hsound'.valid))
    have hevent' : sentEvent schnorr key (ExecutorOp.run sha256 schnorr ops executor) bytes nowMs =
        sentEvent schnorr key (ExecutorOp.run sha256 schnorr later sent) bytes nowMs := by
      rw [sentEvent, sentEvent, hall.recipient_eq]
    apply carried_of_holds hschnorr _ hmax hdecode (hall.valid hsound'.valid) hup _ (hevent' ▸ hholds')
    · rw [hall.secret_eq, hkey']
    · rw [hall.mtu_eq]
      exact hmtu
  · intro executor executor' output frame hlimit hpoll
    obtain ⟨event, hshows, hdecode⟩ := poll_frame hpoll
    obtain ⟨-, -, hcarries, henvelope⟩ :=
      (ends_decodeRelayEvent executor.linkId event hlimit).of_ok hdecode
    exact ⟨event, hshows, hcarries, henvelope⟩

/-! ## A sample -/

/-- Schnorr signatures with the secret key 3, which knows one message. -/
def schnorrFor (signed : ByteArrayN 64) : Schnorr where
  SigningKey := Unit
  VerifyingKey := ByteArrayN 32
  Signature := ByteArrayN 64
  signingKeyFromSlice bytes := if bytes = NostrBridge.sampleSecret.bytes then some () else none
  verifyingKeyBytes _ := NostrBridge.samplePubkey
  signRaw _ _ _ := some signed
  verifyingKeyFromSlice bytes := some bytes
  signatureFromSlice bytes := some bytes
  verifyRaw verifyingKey _ signature :=
    decide (verifyingKey = NostrBridge.samplePubkey ∧ signature = signed)

theorem accepts_schnorrFor (signed : ByteArrayN 64) : (schnorrFor signed).Accepts where
  signs _ _ := ⟨signed, rfl⟩
  verifies _ _ _ signature hsign := by
    cases hsign
    refine ⟨NostrBridge.samplePubkey, signed, rfl, rfl, ?_⟩
    show decide (NostrBridge.samplePubkey = NostrBridge.samplePubkey ∧ signed = signed) = true
    exact decide_eq_true ⟨rfl, rfl⟩

def sentBytes : List UInt8 := wireBytes (sampleEnvelope 2 (.node ⟨fillBytes 32 7⟩) 3)

/-- The id of the event of the sample bytes at the time 1720000000, for the recipient 7777... -/
def sentEventId : ByteArrayN 32 :=
  ⟨[0x3b, 0x30, 0x9a, 0x21, 0xfb, 0xdf, 0x7d, 0xc6, 0xff, 0xe7, 0x7b, 0x1d, 0x99, 0xa8, 0xa4, 0x9f,
    0x44, 0xe3, 0x0e, 0x2b, 0x26, 0x63, 0x33, 0x1a, 0x01, 0x2a, 0x73, 0x02, 0x62, 0x22, 0xf5, 0x09],
    rfl⟩

/-- Its signature with the secret key 3. -/
def sentSignature : ByteArrayN 64 :=
  ⟨[0x92, 0x97, 0x41, 0xb7, 0xe4, 0xad, 0xe6, 0xc9, 0xc4, 0xcc, 0x7a, 0x96, 0x34, 0x96, 0xc9, 0xe7,
    0xfc, 0x37, 0xbe, 0x21, 0xdf, 0x77, 0x13, 0x8b, 0xaa, 0x19, 0x20, 0xee, 0xba, 0xd7, 0xa3, 0x4c,
    0x13, 0x79, 0xfb, 0x39, 0xe9, 0xd8, 0xb3, 0x60, 0xf4, 0xab, 0x6e, 0x0d, 0xc6, 0x12, 0x79, 0x85,
    0xaa, 0x61, 0x2c, 0xa8, 0xf7, 0xb6, 0xc8, 0x6a, 0x68, 0xd0, 0x43, 0x04, 0x1c, 0xca, 0xd5, 0x67],
    rfl⟩

/-- An executor that is up, over a relay with one cell for an event and one for a subscription. -/
def freshExecutor (outputCapacity : ℕ) : NostrGatewayExecutor (FakeNostrRelay 1 1 outputCapacity) :=
  ⟨⟨fillBytes 16 1⟩, 2048, true, NostrBridge.sampleSecret, ⟨fillBytes 32 0x77⟩, .new⟩

theorem decodeEnvelope_sentBytes :
    decodeEnvelope sentBytes = .ok (sampleEnvelope 2 (.node ⟨fillBytes 32 7⟩) 3) :=
  decodeEnvelope_wireBytes (validEnvelope_sampleEnvelope _ _ _)

theorem live_new : (FakeNostrRelay.new :
    FakeNostrRelay eventCapacity subscriptionCapacity outputCapacity).events.live = [] :=
  SlotArray.live_empty

/-- The first send stores the event and answers. -/
theorem send_freshExecutor {n : ℕ} (hn : 0 < n) : ∃ relay : FakeNostrRelay 1 1 n,
    sendLinkBytes (fun _ => sentEventId) (schnorrFor sentSignature) ⟨fillBytes 16 1⟩ sentBytes
      1720000000123 (freshExecutor n) = .ok () ((freshExecutor n).withRelay relay) ∧ relay.Valid ∧
    relay.subscriptions.live = [] ∧ ∃ eventId status, relay.queue = [.ok eventId true status] := by
  have hqueue : (freshExecutor n).relay.queue = [] := SlotArray.live_empty
  obtain ⟨index, record, eventId, status, hfree, -, hnew, hsend⟩ := @sendLinkBytes_new 1 1 n
    (fun _ => sentEventId) (schnorrFor sentSignature) (freshExecutor n) sentBytes 1720000000123
    (accepts_schnorrFor _) () rfl (by decide) _ decodeEnvelope_sentBytes valid_new rfl
    (show sentBytes.length ≤ 2048 by decide)
    (by rw [containsEvent, show (freshExecutor n).relay.events.live = [] from live_new]; rfl) rfl
    (by rw [show (freshExecutor n).relay.events.live = [] from live_new]; decide)
    (by rw [hqueue]; exact hn)
  have hstored : ((freshExecutor n).relay.withStored index record).Valid := valid_new.withStored hfree hnew
  have hroom : ((freshExecutor n).relay.withStored index record).queue.length < n := by
    rw [show ((freshExecutor n).relay.withStored index record).queue = [] from hqueue]
    exact hn
  refine ⟨_, hsend, hstored.enqueued hroom rfl (by simp), SlotArray.live_empty, eventId, status, ?_⟩
  rw [hstored.queue_enqueued hroom,
    show ((freshExecutor n).relay.withStored index record).queue = [] from hqueue]
  rfl

/-- An envelope that was sent through a fresh relay is carried. -/
theorem envelopes_are_carried_sample : ∃ sent : NostrGatewayExecutor (FakeNostrRelay 1 1 2),
    sendLinkBytes (fun _ => sentEventId) (schnorrFor sentSignature) ⟨fillBytes 16 1⟩ sentBytes
      1720000000123 (freshExecutor 2) = .ok () sent ∧
    Carried (fun _ => sentEventId) (schnorrFor sentSignature) () sentBytes 1720000000123 sent := by
  obtain ⟨relay, hsend, -⟩ := send_freshExecutor Nat.two_pos
  refine ⟨_, hsend, ?_⟩
  apply (envelopes_are_carried (fun _ => sentEventId) (schnorrFor sentSignature)
    (accepts_schnorrFor _)).2.1 (freshExecutor 2) _ [] [] sentBytes _ () _ 1720000000123 rfl
    decodeEnvelope_sentBytes (by decide) rfl _ hsend rfl
  intro record hrecord
  rw [show (ExecutorOp.run _ _ [] (freshExecutor 2)).relay.events.live = [] from live_new] at hrecord
  cases hrecord

/-- A filter that matches every event and asks for none. -/
def noEvents : NostrFilter := { NostrFilter.empty with limit := some 0 }

/-- With the answer to the first send still queued, the second one is refused if that was the last room;
and a subscription that asks for no events gets none. -/
theorem carriage_needs_room_and_limit :
    (∃ sent sent', sendLinkBytes (fun _ => sentEventId) (schnorrFor sentSignature) ⟨fillBytes 16 1⟩
        sentBytes 1720000000123 (freshExecutor 1) = .ok () sent ∧
      sendLinkBytes (fun _ => sentEventId) (schnorrFor sentSignature) ⟨fillBytes 16 1⟩ sentBytes
        1720000000123 sent = .error (.error (.driver ⟨fillBytes 16 1⟩ .backpressure)) sent') ∧
    ∃ sent relay', sendLinkBytes (fun _ => sentEventId) (schnorrFor sentSignature) ⟨fillBytes 16 1⟩
        sentBytes 1720000000123 (freshExecutor 2) = .ok () sent ∧
      subscribe "s" [noEvents] sent.relay = .ok () relay' ∧
      matchesAnyFilter [noEvents] (envelopeTarget ⟨NostrBridge.samplePubkey⟩ ⟨fillBytes 32 0x77⟩
        (1720000000123 / 1000)) = true ∧
      ∀ output n frame executor', pollRelayOutput (fun _ => sentEventId) (schnorrFor sentSignature)
        output (polled (fun _ => sentEventId) (schnorrFor sentSignature) output n
          (sent.withRelay relay')) ≠ .ok (some (.frame frame)) executor' := by
  constructor
  · obtain ⟨relay, hsend, hvalid, -, eventId, status, hqueue⟩ := send_freshExecutor Nat.one_pos
    have hfree : CollisionFree (fun _ => sentEventId) (freshExecutor 1).relay
        (sentEvent (schnorrFor sentSignature) () (freshExecutor 1) sentBytes 1720000000123) := by
      intro record hrecord
      rw [show (freshExecutor 1).relay.events.live = [] from live_new] at hrecord
      cases hrecord
    obtain ⟨index, record, hholds⟩ := holds_of_sendLinkBytes (accepts_schnorrFor _) rfl (by decide)
      decodeEnvelope_sentBytes sound_new hfree hsend
    obtain ⟨relay', -, hresend⟩ := @resend_eq 1 1 1 (fun _ => sentEventId) (schnorrFor sentSignature)
      ((freshExecutor 1).withRelay relay) sentBytes 1720000000123 (accepts_schnorrFor _) () rfl
      (by decide) _ decodeEnvelope_sentBytes hvalid rfl (show sentBytes.length ≤ 2048 by decide) _ _
      hholds
    have hfull : ¬((freshExecutor 1).withRelay relay).relay.queue.length < 1 := by
      rw [show ((freshExecutor 1).withRelay relay).relay.queue = _ from hqueue]
      exact Nat.lt_irrefl 1
    rw [if_neg hfull] at hresend
    exact ⟨_, _, hsend, hresend⟩
  · obtain ⟨relay, hsend, hvalid, hsubscriptions, eventId, status, hqueue⟩ := send_freshExecutor Nat.two_pos
    have hid : validateSubscriptionId "s" = .ok () := by decide
    have hadmits : relay.AdmitsSubscription "s" := by
      refine .inr ?_
      rw [hsubscriptions]
      exact Nat.one_pos
    have hroom : relay.queue.length < 2 := by
      rw [hqueue]
      exact Nat.one_lt_two
    obtain ⟨relay', stored, hsubscribe, hvalid', hqueue'⟩ := hvalid.subscribe_nothing hid hadmits
      (show replayLimit [noEvents] = some 0 from rfl) hroom
    refine ⟨_, relay', hsend, hsubscribe, rfl, fun output n frame executor' => ?_⟩
    have hnone : ∀ record ∈ relay'.queue, record.hasEvent = false := by
      rw [hqueue', hqueue]
      simp [FakeNostrRelayOutputRecord.hasEvent]
    exact @polled_ne_frame 1 1 2 _ _ ((freshExecutor 2).withRelay relay') _ hvalid' hnone output n frame

end NostrGatewayExecutor

end Hyf
