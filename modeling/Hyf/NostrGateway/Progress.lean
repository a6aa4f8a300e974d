import Hyf.NostrGateway.Carriage

/-!
# Polls make progress

A poll refuses while the link is down, finds nothing in an empty queue, takes the oldest output, or asks
for a longer slice. A slice is too short for an event that carries an envelope of more bytes; but the
length of the content is looked at before its digits are, so that a signed event whose content is no
envelope also asks for a slice of half its length, and stays. `progresses_iff` says that this is the only
way in which a poll leaves an output that it could have refused.
-/

namespace Hyf

open ByteCodec Nostr FakeNostrRelay

namespace NostrGatewayExecutor

section Decoding

variable (sha256 : List UInt8 → ByteArrayN 32) (schnorr : Schnorr)

/-- The event is a valid one for the gateway, and the bytes are those of its envelope. -/
structure Conveys (event : NostrEvent) (bytes : List UInt8) : Prop
    extends Carries sha256 schnorr event bytes where
  length_le : bytes.length ≤ hyfNostrMaxEnvelopeBytes
  decodes : ∃ envelope, decodeEnvelope bytes = .ok envelope
  time_fits : event.createdAt.toNat * 1000 < 2 ^ 64

variable {sha256 schnorr} {event : NostrEvent} {bytes output : List UInt8}

theorem Conveys.content_length (h : Conveys sha256 schnorr event bytes) :
    (asBytes event.content).length = 2 * bytes.length := by
  rw [h.content_eq, length_lowerHex, Nat.mul_comm]

theorem Conveys.checked (h : Conveys sha256 schnorr event bytes) : Checked sha256 schnorr event where
  verified := h.verified
  kind_eq := h.kind_eq
  hasPTag := h.hasPTag
  content_le := by
    have hchars : hyfNostrMaxContentChars = 2 * hyfNostrMaxEnvelopeBytes := rfl
    have hlen := h.length_le
    rw [h.content_length]
    omega
  content_even := by
    rw [h.content_length]
    omega

/-- The slice is too short for the length of the content, whatever its digits are. -/
theorem decodeRelayEvent_short (linkId : LinkId) (hchecked : Checked sha256 schnorr event)
    (htime : event.createdAt.toNat * 1000 < 2 ^ 64)
    (hshort : output.length < (asBytes event.content).length / 2) :
    decodeRelayEvent sha256 schnorr linkId event output = fail (.driver linkId .outputTooSmall) := by
  have hmul : checkedMulU64 event.createdAt 1000 = some (event.createdAt * 1000) := if_pos htime
  rw [decodeRelayEvent, hmul]
  simp only
  rw [verifyAndDecodeHyfNostrEvent_short sha256 schnorr hchecked hshort]
  rfl

theorem mapNostrReceiveError_eq (linkId : LinkId) (error : NostrError) :
    mapNostrReceiveError linkId error =
      .driver linkId (if error.isOutputTooSmall then .outputTooSmall else .protocol) := by
  cases error <;> rfl

theorem time_fits_of_mul {receivedAtMs : UInt64}
    (hmul : checkedMulU64 event.createdAt 1000 = some receivedAtMs) :
    event.createdAt.toNat * 1000 < 2 ^ 64 := by
  have hproduct : receivedAtMs.toNat = event.createdAt.toNat * 1000 := checkedMulU64_eq_some hmul
  exact hproduct ▸ receivedAtMs.toNat_lt

/-- What is decoded is a valid event. -/
theorem conveys_of_decoded (hlimit : output.length < addressLimit) {receivedAtMs : UInt64}
    (hmul : checkedMulU64 event.createdAt 1000 = some receivedAtMs)
    {decoded : HyfEnvelopeRef × List UInt8}
    (h : verifyAndDecodeHyfNostrEvent sha256 schnorr event output = .ok decoded) :
    ∃ bytes, Conveys sha256 schnorr event bytes := by
  obtain ⟨bytes, hcarries, hmax, -, hdecode, -⟩ :=
    (ends_verifyAndDecodeHyfNostrEvent sha256 schnorr event hlimit).of_ok h
  exact ⟨bytes, hcarries, hmax, ⟨_, hdecode⟩, time_fits_of_mul hmul⟩

/-- A decoding yields the frame of a valid event, or asks for more room for the content of a checked
one, or refuses an event that is not valid. -/
theorem decodeRelayEvent_cases (linkId : LinkId) (event : NostrEvent)
    (hlimit : output.length < addressLimit) :
    (∃ bytes, Conveys sha256 schnorr event bytes ∧
      decodeRelayEvent sha256 schnorr linkId event output =
        .ok ⟨linkId, event.createdAt * 1000, bytes⟩) ∨
    (Checked sha256 schnorr event ∧ event.createdAt.toNat * 1000 < 2 ^ 64 ∧
      output.length < (asBytes event.content).length / 2 ∧
      decodeRelayEvent sha256 schnorr linkId event output = fail (.driver linkId .outputTooSmall)) ∨
    ((¬∃ bytes, Conveys sha256 schnorr event bytes) ∧
      decodeRelayEvent sha256 schnorr linkId event output = fail (.driver linkId .protocol)) := by
  by_cases hconveys : ∃ bytes, Conveys sha256 schnorr event bytes
  · obtain ⟨bytes, h⟩ := hconveys
    obtain ⟨envelope, hdecode⟩ := h.decodes
    by_cases hroom : bytes.length ≤ output.length
    · exact .inl ⟨bytes, h, decodeRelayEvent_eq linkId h.toCarries h.length_le hdecode h.time_fits hroom⟩
    · have hshort : output.length < (asBytes event.content).length / 2 := by
        rw [h.content_length]
        omega
      exact .inr (.inl ⟨h.checked, h.time_fits, hshort,
        decodeRelayEvent_short linkId h.checked h.time_fits hshort⟩)
  · cases hmul : checkedMulU64 event.createdAt 1000 with
    | none =>
      refine .inr (.inr ⟨hconveys, ?_⟩)
      rw [decodeRelayEvent, hmul]
    | some receivedAtMs =>
      have hends := ends_verifyAndDecodeHyfNostrEvent sha256 schnorr event hlimit
      cases hdecode : verifyAndDecodeHyfNostrEvent sha256 schnorr event output with
      | ok decoded => exact absurd (conveys_of_decoded hlimit hmul hdecode) hconveys
      | error fault =>
        cases fault with
        | panic => exact absurd hdecode hends.ne_panic
        | error error =>
          have hresult : decodeRelayEvent sha256 schnorr linkId event output =
              fail (mapNostrReceiveError linkId error) := by
            rw [decodeRelayEvent, hmul]
            simp only [hdecode]
            rfl
          rw [hresult, mapNostrReceiveError_eq]
          by_cases hsmall : error.isOutputTooSmall = true
          · obtain ⟨hchecked, hshort⟩ :=
              short_of_verifyAndDecodeHyfNostrEvent sha256 schnorr event hlimit error hdecode hsmall
            rw [if_pos hsmall]
            exact .inr (.inl ⟨hchecked, time_fits_of_mul hmul, hshort, rfl⟩)
          · rw [if_neg hsmall]
            exact .inr (.inr ⟨hconveys, rfl⟩)

end Decoding

section Polling

variable {eventCapacity subscriptionCapacity outputCapacity : ℕ}
  (sha256 : List UInt8 → ByteArrayN 32) (schnorr : Schnorr)

/-- The relay after the record, its oldest output, was consumed. -/
structure Consumes (executor : NostrGatewayExecutor
    (FakeNostrRelay eventCapacity subscriptionCapacity outputCapacity))
    (record : FakeNostrRelayOutputRecord)
    (relay' : FakeNostrRelay eventCapacity subscriptionCapacity outputCapacity) : Prop where
  queue_eq : executor.relay.queue = record :: relay'.queue
  consumed : FakeNostrRelay.consumeOutput executor.relay = .ok true relay'

/-- The ways in which a poll may end. -/
inductive PollsTo (executor : NostrGatewayExecutor
    (FakeNostrRelay eventCapacity subscriptionCapacity outputCapacity)) (output : List UInt8) :
    EStateM.Result (Fault GatewayError) (NostrGatewayExecutor
      (FakeNostrRelay eventCapacity subscriptionCapacity outputCapacity))
      (Option NostrGatewayRelayOutput) → Prop
  | down (hdown : executor.up = false) :
    PollsTo executor output (.error (.error (.driver executor.linkId .linkDown)) executor)
  | empty (hup : executor.up = true) (hqueue : executor.relay.queue = []) :
    PollsTo executor output (.ok none executor)
  | tooSmall {event : NostrEvent} {bytes : List UInt8} (hup : executor.up = true)
      (hshows : executor.Shows event) (hconveys : Conveys sha256 schnorr event bytes)
      (hshort : output.length < bytes.length) :
    PollsTo executor output (.error (.error (.driver executor.linkId .outputTooSmall)) executor)
  | frame {event : NostrEvent} {bytes : List UInt8} {record : FakeNostrRelayOutputRecord}
      {relay' : FakeNostrRelay eventCapacity subscriptionCapacity outputCapacity}
      (hup : executor.up = true) (hshows : executor.Shows event)
      (hconveys : Conveys sha256 schnorr event bytes) (hconsumes : executor.Consumes record relay') :
    PollsTo executor output (.ok (some (.frame ⟨executor.linkId, event.createdAt * 1000, bytes⟩))
      (executor.withRelay relay'))
  | refused {event : NostrEvent} {record : FakeNostrRelayOutputRecord}
      {relay' : FakeNostrRelay eventCapacity subscriptionCapacity outputCapacity}
      (hup : executor.up = true) (hshows : executor.Shows event)
      (hinvalid : ¬∃ bytes, Conveys sha256 schnorr event bytes)
      (hconsumes : executor.Consumes record relay') :
    PollsTo executor output (.error (.error (.driver executor.linkId .protocol))
      (executor.withRelay relay'))
  | control {record : FakeNostrRelayOutputRecord} {control : NostrGatewayRelayOutput}
      {relay' : FakeNostrRelay eventCapacity subscriptionCapacity outputCapacity}
      (hup : executor.up = true) (htranslation : translation record = some control)
      (hconsumes : executor.Consumes record relay') :
    PollsTo executor output (.ok (some control) (executor.withRelay relay'))

/-- A poll ends in one of these ways, and it refuses or finds nothing only when it has to. -/
structure Progresses (executor : NostrGatewayExecutor
    (FakeNostrRelay eventCapacity subscriptionCapacity outputCapacity)) (output : List UInt8) : Prop where
  pollsTo : PollsTo sha256 schnorr executor output
    (pollRelayOutput sha256 schnorr output executor)
  down_iff : pollRelayOutput sha256 schnorr output executor =
    .error (.error (.driver executor.linkId .linkDown)) executor ↔ executor.up = false
  empty_iff : pollRelayOutput sha256 schnorr output executor = .ok none executor ↔
    executor.up = true ∧ executor.relay.queue = []

/-- The oldest output is an event that passes the checks made before its digits are read, whose content
is no envelope, and the slice is shorter than half the content. -/
structure Overlooked (executor : NostrGatewayExecutor
    (FakeNostrRelay eventCapacity subscriptionCapacity outputCapacity)) (output : List UInt8)
    (event : NostrEvent) : Prop where
  up : executor.up = true
  shows : executor.Shows event
  checked : Checked sha256 schnorr event
  time_fits : event.createdAt.toNat * 1000 < 2 ^ 64
  short : output.length < (asBytes event.content).length / 2
  no_envelope : ¬∃ bytes envelope, asBytes event.content = lowerHex bytes ∧
    decodeEnvelope bytes = .ok envelope

variable {sha256 schnorr} {executor : NostrGatewayExecutor
    (FakeNostrRelay eventCapacity subscriptionCapacity outputCapacity)} {output : List UInt8}
  {event : NostrEvent}

theorem Shows.unique {event' : NostrEvent} (h : executor.Shows event) (h' : executor.Shows event') :
    event = event' := by
  obtain ⟨subscriptionId, hnext⟩ := h
  obtain ⟨subscriptionId', hnext'⟩ := h'
  rw [hnext] at hnext'
  cases hnext'
  rfl

/-- A checked event that carries an envelope is a valid one. -/
theorem conveys_of_checked {bytes : List UInt8} {envelope : HyfEnvelopeRef}
    (hchecked : Checked sha256 schnorr event) (htime : event.createdAt.toNat * 1000 < 2 ^ 64)
    (hcontent : asBytes event.content = lowerHex bytes) (hdecode : decodeEnvelope bytes = .ok envelope) :
    Conveys sha256 schnorr event bytes where
  verified := hchecked.verified
  kind_eq := hchecked.kind_eq
  hasPTag := hchecked.hasPTag
  content_eq := hcontent
  length_le := by
    have hmax := hchecked.content_le
    have hchars : hyfNostrMaxContentChars = 2 * hyfNostrMaxEnvelopeBytes := rfl
    rw [hcontent, length_lowerHex] at hmax
    omega
  decodes := ⟨envelope, hdecode⟩
  time_fits := htime

theorem Overlooked.not_conveys (h : Overlooked sha256 schnorr executor output event) :
    ¬∃ bytes, Conveys sha256 schnorr event bytes := by
  rintro ⟨bytes, hconveys⟩
  obtain ⟨envelope, hdecode⟩ := hconveys.decodes
  exact h.no_envelope ⟨bytes, envelope, hconveys.content_eq, hdecode⟩

/-- The poll asks for more room than the event could need. -/
theorem Overlooked.poll_eq (h : Overlooked sha256 schnorr executor output event) :
    pollRelayOutput sha256 schnorr output executor =
      .error (.error (.driver executor.linkId .outputTooSmall)) executor := by
  rw [poll_of_shows h.up h.shows,
    decodeRelayEvent_short executor.linkId h.checked h.time_fits h.short]
  rfl

/-- That is none of the ways in which a poll may end. -/
theorem Overlooked.not_pollsTo (h : Overlooked sha256 schnorr executor output event) :
    ¬PollsTo sha256 schnorr executor output (pollRelayOutput sha256 schnorr output executor) := by
  intro hpolls
  rw [h.poll_eq] at hpolls
  generalize hresult : EStateM.Result.error (Fault.error (GatewayError.driver executor.linkId
    LinkDriverErrorKind.outputTooSmall)) executor = result at hpolls
  cases hpolls with
  | tooSmall hup hshows hconveys hshort =>
    rw [hshows.unique h.shows] at hconveys
    exact h.not_conveys ⟨_, hconveys⟩
  | _ => cases hresult

/-! ## Every poll -/

theorem consumes_oldest (hvalid : executor.relay.Valid) {record : FakeNostrRelayOutputRecord}
    {rest : List FakeNostrRelayOutputRecord} (hqueue : executor.relay.queue = record :: rest) :
    executor.Consumes record (executor.relay.consumed record rest.length) where
  queue_eq := by
    have hrest : (executor.relay.consumed record rest.length).queue = rest :=
      (hvalid.packed_consumed hqueue).live_eq
    rw [hqueue, hrest]
  consumed := hvalid.consumeOutput_eq hqueue

/-- A poll that comes to an event. -/
theorem pollsTo_of_shows (hup : executor.up = true) (hvalid : executor.relay.Valid)
    {record : FakeNostrRelayOutputRecord} {rest : List FakeNostrRelayOutputRecord}
    (hqueue : executor.relay.queue = record :: rest) (hshows : executor.Shows event)
    (hlimit : output.length < addressLimit)
    (hnot : ¬Overlooked sha256 schnorr executor output event) :
    PollsTo sha256 schnorr executor output (pollRelayOutput sha256 schnorr output executor) := by
  have hconsume := consumeRelayOutput_eq hvalid hqueue
  have hconsumes := consumes_oldest hvalid hqueue
  rw [poll_of_shows hup hshows]
  obtain ⟨bytes, hconveys, hdecode⟩ | ⟨hchecked, htime, hshort, hdecode⟩ | ⟨hinvalid, hdecode⟩ :=
    @decodeRelayEvent_cases sha256 schnorr output executor.linkId event hlimit
  · rw [hdecode]
    dsimp only
    rw [run_bind_of_ok hconsume]
    exact .frame hup hshows hconveys hconsumes
  · rw [hdecode]
    by_cases hconveys : ∃ bytes, Conveys sha256 schnorr event bytes
    · obtain ⟨bytes, hconveys⟩ := hconveys
      have hlonger : output.length < bytes.length := by
        rw [hconveys.content_length] at hshort
        omega
      exact .tooSmall hup hshows hconveys hlonger
    · refine absurd ⟨hup, hshows, hchecked, htime, hshort, ?_⟩ hnot
      rintro ⟨bytes, envelope, hcontent, henvelope⟩
      exact hconveys ⟨bytes, conveys_of_checked hchecked htime hcontent henvelope⟩
  · rw [hdecode]
    show PollsTo sha256 schnorr executor output ((consumeRelayOutput >>= fun _ => throw _ :
      NostrGatewayM eventCapacity subscriptionCapacity outputCapacity _) executor)
    rw [run_bind_of_ok hconsume]
    exact .refused hup hshows hinvalid hconsumes

/-- A poll that comes to another output. -/
theorem pollsTo_of_control (hup : executor.up = true) (hvalid : executor.relay.Valid)
    {record : FakeNostrRelayOutputRecord} {rest : List FakeNostrRelayOutputRecord}
    (hqueue : executor.relay.queue = record :: rest) {view : FakeNostrRelayOutput}
    (hnext : executor.relay.withNextOutput id = .ok (some view)) (hcontrol : isEventOutput view = false)
    {control : NostrGatewayRelayOutput} (hok : executor.nextControlOutput = .ok control)
    (htranslation : translation record = some control) :
    PollsTo sha256 schnorr executor output (pollRelayOutput sha256 schnorr output executor) := by
  rw [poll_of_control hup hnext hcontrol, Outcome.lift_bind hok,
    run_bind_of_ok (consumeRelayOutput_eq hvalid hqueue)]
  exact .control hup htranslation (consumes_oldest hvalid hqueue)

/-- **A poll makes progress** unless the oldest output is overlooked. -/
theorem pollsTo_of_not_overlooked (hvalid : executor.relay.Valid)
    (hlimit : output.length < addressLimit)
    (hnot : ¬∃ event, Overlooked sha256 schnorr executor output event) :
    PollsTo sha256 schnorr executor output (pollRelayOutput sha256 schnorr output executor) := by
  by_cases hup : executor.up = true
  · cases hqueue : executor.relay.queue with
    | nil =>
      rw [poll_of_empty hup hvalid hqueue]
      exact .empty hup hqueue
    | cons record rest =>
      obtain ⟨event, hshows⟩ | ⟨view, control, hnext, hcontrol, hok, htranslation⟩ :=
        shows_or_control hvalid hqueue
      · exact pollsTo_of_shows hup hvalid hqueue hshows hlimit fun h => hnot ⟨event, h⟩
      · exact pollsTo_of_control hup hvalid hqueue hnext hcontrol hok htranslation
  · have hdown : executor.up = false := Bool.eq_false_of_not_eq_true hup
    rw [poll_of_down hdown]
    exact .down hdown

/-- Only a link that is down is reported as such, and only an empty queue as empty. -/
theorem PollsTo.progresses (hvalid : executor.relay.Valid)
    (h : PollsTo sha256 schnorr executor output (pollRelayOutput sha256 schnorr output executor)) :
    Progresses sha256 schnorr executor output where
  pollsTo := h
  down_iff := by
    constructor
    · intro hresult
      rw [hresult] at h
      generalize hrefused : EStateM.Result.error (Fault.error (GatewayError.driver executor.linkId
        LinkDriverErrorKind.linkDown)) executor = result at h
      cases h with
      | down hdown => exact hdown
      | _ => cases hrefused
    · exact fun hdown => poll_of_down hdown output
  empty_iff := by
    constructor
    · intro hresult
      rw [hresult] at h
      generalize hempty : EStateM.Result.ok none executor = result at h
      cases h with
      | empty hup hqueue => exact ⟨hup, hqueue⟩
      | _ => cases hempty
    · exact fun hempty => poll_of_empty hempty.1 hvalid hempty.2 output

/-- **Progress.** In every run, a poll returns `LinkDown` only when the link is down, nothing only when
the queue is empty, asks for more room only for an envelope that is longer than the slice, and otherwise
consumes the oldest output and returns its translation or a protocol error; with one exception, exactly
when the oldest output is overlooked. -/
theorem progresses_iff (sha256 : List UInt8 → ByteArrayN 32) (schnorr : Schnorr)
    (start : NostrGatewayExecutor
      (FakeNostrRelay eventCapacity subscriptionCapacity outputCapacity))
    (hstart : start.relay = FakeNostrRelay.new) (ops : List ExecutorOp) (output : List UInt8)
    (hlimit : output.length < addressLimit) :
    Progresses sha256 schnorr (ExecutorOp.run sha256 schnorr ops start) output ↔
      ¬∃ event, Overlooked sha256 schnorr (ExecutorOp.run sha256 schnorr ops start) output event := by
  have hfollows : Follows sha256 schnorr start (ExecutorOp.run sha256 schnorr ops start) :=
    follows_run (hstart ▸ valid_new) ops
  have hvalid : (ExecutorOp.run sha256 schnorr ops start).relay.Valid :=
    hfollows.valid (hstart ▸ valid_new)
  constructor
  · rintro hprogresses ⟨event, hoverlooked⟩
    exact hoverlooked.not_pollsTo hprogresses.pollsTo
  · intro hnot
    exact (pollsTo_of_not_overlooked hvalid hlimit hnot).progresses hvalid

end Polling

/-! ## A run with a notice and an event -/

theorem shows_ownedEvent {eventCapacity subscriptionCapacity outputCapacity : ℕ}
    {executor : NostrGatewayExecutor
      (FakeNostrRelay eventCapacity subscriptionCapacity outputCapacity)}
    (hvalid : executor.relay.Valid) {subscriptionId : String} {index : ℕ}
    {rest : List FakeNostrRelayOutputRecord}
    (hqueue : executor.relay.queue = .ownedEvent subscriptionId index :: rest)
    {record : FakeNostrEventRecord}
    (hcell : executor.relay.outputEvents.toList[index]? = some (some record)) :
    executor.Shows record.event := by
  refine ⟨subscriptionId, ?_⟩
  rw [withNextOutput, hvalid.head?_outputs hqueue]
  exact Outcome.bind_eq (withView_ownedEvent hcell subscriptionId id) _

/-- A slice for any envelope. -/
def longSlice : List UInt8 := List.replicate hyfNostrMaxEnvelopeBytes 0

/-- A notice is queued, and an event behind it. -/
def noticeAndEvent (event : NostrEvent) : List ExecutorOp :=
  [.onRelay (.enqueueNotice "busy"), .onRelay (.enqueueEventOutput "s" event)]

/-- The relay that these operations leave. -/
theorem exists_waiting {event : NostrEvent} {record : FakeNostrEventRecord}
    (hrecord : FakeNostrEventRecord.fromEvent event = .ok record) :
    ∃ (notice : StoredString hyfNostrMaxRelayStatusChars) (relay : FakeNostrRelay 1 1 2),
      notice.text = "busy" ∧ relay.queue = [.notice notice, .ownedEvent "s" 0] ∧ relay.Valid ∧
      relay.outputEvents.toList[0]? = some (some record) ∧
      ExecutorOp.run (fun _ => sentEventId) (schnorrFor sentSignature) (noticeAndEvent event)
        (freshExecutor 2) = (freshExecutor 2).withRelay relay := by
  obtain ⟨notice, hnotice, htext⟩ : ∃ notice : StoredString hyfNostrMaxRelayStatusChars,
      StoredString.fromStr hyfNostrMaxRelayStatusChars "busy" = .ok notice ∧ notice.text = "busy" :=
    ⟨⟨"busy", by decide⟩, rfl, rfl⟩
  have hempty : (FakeNostrRelay.new : FakeNostrRelay 1 1 2).queue = [] := SlotArray.live_empty
  have hroom : (FakeNostrRelay.new : FakeNostrRelay 1 1 2).queue.length < 2 := by
    rw [hempty]
    decide
  have hfirst : FakeNostrRelay.enqueueNotice "busy" (.new : FakeNostrRelay 1 1 2) =
      .ok () (FakeNostrRelay.new.enqueued (.notice notice)) := by
    rw [enqueueNotice, Outcome.lift_bind hnotice, valid_new.enqueueOutputRecord_eq, if_pos hroom]
  have hvalid : (FakeNostrRelay.new.enqueued (.notice notice) : FakeNostrRelay 1 1 2).Valid :=
    valid_new.enqueued hroom rfl (by simp)
  have hqueue := valid_new.queue_enqueued hroom (.notice notice)
  rw [hempty, List.nil_append] at hqueue
  have hroom' : (FakeNostrRelay.new.enqueued (.notice notice) : FakeNostrRelay 1 1 2).queue.length <
      2 := by
    rw [hqueue]
    exact Nat.one_lt_two
  have hfree : (FakeNostrRelay.new.enqueued (.notice notice) :
      FakeNostrRelay 1 1 2).outputEvents.firstFree = some 0 := rfl
  have hqueue' := hvalid.queue_enqueued hroom' (.ownedEvent "s" 0)
  rw [hqueue] at hqueue'
  obtain ⟨relay, hsecond, hqueue', hvalid', hcell⟩ : ∃ relay : FakeNostrRelay 1 1 2,
      FakeNostrRelay.enqueueEventOutput "s" event
        (FakeNostrRelay.new.enqueued (.notice notice)) = .ok () relay ∧
      relay.queue = [.notice notice, .ownedEvent "s" 0] ∧ relay.Valid ∧
      relay.outputEvents.toList[0]? = some (some record) :=
    ⟨_, hvalid.enqueueEventOutput_eq hrecord hfree hroom' "s", hqueue',
      hvalid.enqueued_owned hroom' hfree "s" record, rfl⟩
  refine ⟨notice, relay, htext, hqueue', hvalid', hcell, ?_⟩
  show (freshExecutor 2).withRelay (FakeNostrRelay.enqueueEventOutput "s" event
    (FakeNostrRelay.enqueueNotice "busy" .new).state).state = _
  rw [hfirst, EStateM.Result.state_ok, hsecond, EStateM.Result.state_ok]

/-- With an empty slice a poll passes the notice on; with a long one the next poll passes on the frame of
the event. Both make progress, and nothing is left in the queue. -/
theorem progresses_noticeAndEvent : ∃ (event : NostrEvent)
    (notice : StoredString hyfNostrMaxRelayStatusChars)
    (waiting between drained : NostrGatewayExecutor (FakeNostrRelay 1 1 2)),
    waiting = ExecutorOp.run (fun _ => sentEventId) (schnorrFor sentSignature) (noticeAndEvent event)
        (freshExecutor 2) ∧
      waiting.relay.queue = [.notice notice, .ownedEvent "s" 0] ∧ notice.text = "busy" ∧
      Conveys (fun _ => sentEventId) (schnorrFor sentSignature) event sentBytes ∧
      Progresses (fun _ => sentEventId) (schnorrFor sentSignature) waiting [] ∧
      pollRelayOutput (fun _ => sentEventId) (schnorrFor sentSignature) [] waiting =
        .ok (some (.notice notice)) between ∧
      Progresses (fun _ => sentEventId) (schnorrFor sentSignature) between longSlice ∧
      pollRelayOutput (fun _ => sentEventId) (schnorrFor sentSignature) longSlice between =
        .ok (some (.frame ⟨⟨fillBytes 16 1⟩, 1720000000000, sentBytes⟩)) drained ∧
      drained.relay.queue = [] := by
  have hmax : sentBytes.length ≤ hyfNostrMaxEnvelopeBytes := by decide
  obtain ⟨event, -, hverified, hunsigned⟩ := @exists_withSignedHyfNostrEvent (fun _ => sentEventId)
    (schnorrFor sentSignature) sentBytes (accepts_schnorrFor _) NostrBridge.sampleSecret () rfl
    ⟨fillBytes 32 0x77⟩ (1720000000000 / 1000) .new hmax
  obtain ⟨record, hrecord⟩ := exists_fromEvent_of_unsigned hunsigned hmax
  obtain ⟨notice, relay, htext, hqueue, hvalid, hcell, hrun⟩ := exists_waiting hrecord
  obtain rfl : record.event = event := (ends_fromEvent event).of_ok hrecord
  have hlonglimit : longSlice.length < addressLimit := by
    rw [longSlice, List.length_replicate]
    decide
  have htime : record.event.createdAt.toNat * 1000 < 2 ^ 64 := by
    rw [show record.event.createdAt = _ from congrArg NostrUnsignedEvent.createdAt hunsigned]
    decide
  have hconveys : Conveys (fun _ => sentEventId) (schnorrFor sentSignature) record.event sentBytes :=
    { toCarries := carries_of_unsigned hverified hunsigned
      length_le := hmax
      decodes := ⟨_, decodeEnvelope_sentBytes⟩
      time_fits := htime }
  -- the notice is in front
  have hnotice : relay.withNextOutput id = .ok (some (.notice notice.text)) := by
    rw [withNextOutput, hvalid.head?_outputs hqueue]
    rfl
  have hfirst : Progresses (fun _ => sentEventId) (schnorrFor sentSignature)
      ((freshExecutor 2).withRelay relay) [] := by
    rw [← hrun]
    apply (progresses_iff _ _ (freshExecutor 2) rfl (noticeAndEvent record.event) [] (by decide)).mpr
    rintro ⟨other, hoverlooked⟩
    obtain ⟨subscriptionId, hnext⟩ := hoverlooked.shows
    rw [hrun, show ((freshExecutor 2).withRelay relay).relay = relay from rfl, hnotice] at hnext
    cases hnext
  obtain ⟨other, hother⟩ | ⟨view, control, hnext, hcontrol, hok, htranslation⟩ :=
    @shows_or_control 1 1 2 ((freshExecutor 2).withRelay relay) hvalid _ _ hqueue
  · obtain ⟨subscriptionId, hnext⟩ := hother
    rw [show ((freshExecutor 2).withRelay relay).relay = relay from rfl, hnotice] at hnext
    cases hnext
  cases htranslation
  have hpoll : pollRelayOutput (fun _ => sentEventId) (schnorrFor sentSignature) []
      ((freshExecutor 2).withRelay relay) = .ok (some (.notice notice))
        ((freshExecutor 2).withRelay (relay.consumed (.notice notice) 1)) := by
    rw [poll_of_control rfl hnext hcontrol, Outcome.lift_bind hok]
    exact run_bind_of_ok (@consumeRelayOutput_eq 1 1 2 ((freshExecutor 2).withRelay relay) hvalid _ _
      hqueue) _
  -- then the event is
  have hvalid' : (relay.consumed (.notice notice) 1).Valid := hvalid.consumed hqueue
  have hqueue' : (relay.consumed (.notice notice) 1).queue = [.ownedEvent "s" 0] :=
    (hvalid.packed_consumed hqueue).live_eq
  have hshows : ((freshExecutor 2).withRelay (relay.consumed (.notice notice) 1)).Shows record.event := by
    apply @shows_ownedEvent 1 1 2 ((freshExecutor 2).withRelay _) hvalid' _ _ _ hqueue'
    rw [show ((freshExecutor 2).withRelay _).relay.outputEvents = relay.outputEvents from
      outputEvents_consumed_of_none rfl 1]
    exact hcell
  have hsecond : Progresses (fun _ => sentEventId) (schnorrFor sentSignature)
      ((freshExecutor 2).withRelay (relay.consumed (.notice notice) 1)) longSlice := by
    have hstep : ExecutorOp.run (fun _ => sentEventId) (schnorrFor sentSignature)
        (noticeAndEvent record.event ++ [.pollRelayOutput [] (by decide)]) (freshExecutor 2) =
        (freshExecutor 2).withRelay (relay.consumed (.notice notice) 1) := by
      rw [ExecutorOp.run, List.foldl_append]
      rw [show (noticeAndEvent record.event).foldl _ (freshExecutor 2) = _ from hrun]
      show (pollRelayOutput _ _ [] ((freshExecutor 2).withRelay relay)).state = _
      rw [hpoll]
      rfl
    rw [← hstep]
    apply (progresses_iff _ _ (freshExecutor 2) rfl _ longSlice hlonglimit).mpr
    rintro ⟨other, hoverlooked⟩
    have hevent := hoverlooked.shows
    rw [hstep] at hevent
    obtain rfl := hshows.unique hevent
    exact hoverlooked.not_conveys ⟨_, hconveys⟩
  have hframe : decodeRelayEvent (fun _ => sentEventId) (schnorrFor sentSignature) ⟨fillBytes 16 1⟩
      record.event longSlice = .ok ⟨⟨fillBytes 16 1⟩, record.event.createdAt * 1000, sentBytes⟩ :=
    decodeRelayEvent_eq _ hconveys.toCarries hmax decodeEnvelope_sentBytes htime
      (by rw [longSlice, List.length_replicate]; exact hmax)
  have hpoll' : pollRelayOutput (fun _ => sentEventId) (schnorrFor sentSignature) longSlice
      ((freshExecutor 2).withRelay (relay.consumed (.notice notice) 1)) =
        .ok (some (.frame ⟨⟨fillBytes 16 1⟩, 1720000000000, sentBytes⟩))
          ((freshExecutor 2).withRelay ((relay.consumed (.notice notice) 1).consumed
            (.ownedEvent "s" 0) 0)) := by
    rw [poll_of_shows rfl hshows]
    rw [show decodeRelayEvent _ _ ((freshExecutor 2).withRelay _).linkId _ _ = _ from hframe]
    rw [show record.event.createdAt = _ from congrArg NostrUnsignedEvent.createdAt hunsigned]
    exact run_bind_of_ok (@consumeRelayOutput_eq 1 1 2 ((freshExecutor 2).withRelay _) hvalid' _ _
      hqueue') _
  exact ⟨record.event, notice, _, _, _, hrun.symm, hqueue, htext, hconveys, hfirst, hpoll, hsecond,
    hpoll', (hvalid'.packed_consumed hqueue').live_eq⟩

/-! ## An event that is overlooked -/

/-- A signed event with the kind and the tags of an envelope, whose content is not hexadecimal. -/
def garbledEvent : NostrUnsignedEvent :=
  { envelopeEvent ⟨NostrBridge.samplePubkey⟩ ⟨fillBytes 32 0x77⟩ 1720000000 [] with content := "zz" }

def garbledEventId : ByteArrayN 32 :=
  ⟨[0x5c, 0x8f, 0x4f, 0x63, 0x50, 0xa9, 0x5a, 0xc6, 0x3c, 0x39, 0x88, 0xf5, 0x8f, 0xa6, 0xc8, 0xbc,
    0xfe, 0xc6, 0x40, 0x51, 0x72, 0x60, 0x18, 0x6c, 0xc5, 0x63, 0x55, 0x6b, 0x55, 0x03, 0xef, 0xa9],
    rfl⟩

/-- Its signature with the secret key 3. -/
def garbledSignature : ByteArrayN 64 :=
  ⟨[0x81, 0xb8, 0xb9, 0xf8, 0xa0, 0x17, 0x40, 0x42, 0x95, 0xd7, 0x13, 0x75, 0x86, 0x04, 0x01, 0xe0,
    0x80, 0x67, 0x87, 0xfa, 0xe2, 0x19, 0xaa, 0x94, 0x41, 0x84, 0x13, 0x28, 0xec, 0x61, 0x24, 0x5c,
    0x7a, 0x5a, 0x77, 0x81, 0x42, 0xb7, 0xc5, 0x90, 0x74, 0x72, 0x64, 0xb5, 0xf8, 0xab, 0xb2, 0xd5,
    0xd0, 0xf6, 0xa8, 0x1a, 0x9e, 0x2c, 0x9d, 0xbc, 0x06, 0xef, 0x74, 0xe7, 0xce, 0x85, 0xf9, 0x55],
    rfl⟩

theorem garbled_is_no_envelope {bytes : List UInt8} : asBytes "zz" ≠ lowerHex bytes := by
  intro hcontent
  have hlen : bytes.length * 2 = 2 := by
    rw [← length_lowerHex, ← hcontent]
    rfl
  have hone : bytes.length = 1 := by omega
  have hlimit : bytes.length < addressLimit := by
    rw [hone]
    decide
  have hdecode := @decodeLowerHex_eq "zz" bytes [0] hcontent hlimit hone.le
  have hfails : decodeLowerHex "zz" [0] = fail (.invalidHexChar 0 122) := by decide
  rw [hfails] at hdecode
  cases hdecode

theorem checked_garbledEvent {sha256 : List UInt8 → ByteArrayN 32} {schnorr : Schnorr}
    {event : NostrEvent} (hverified : verifyEvent sha256 schnorr event = .ok ())
    (hunsigned : event.unsigned = garbledEvent) : Checked sha256 schnorr event where
  verified := hverified
  kind_eq := congrArg NostrUnsignedEvent.kind hunsigned
  hasPTag := by
    have htags : event.tags = garbledEvent.tags := congrArg NostrUnsignedEvent.tags hunsigned
    rw [htags]
    exact @hasPTag_envelopeEvent ⟨NostrBridge.samplePubkey⟩ ⟨fillBytes 32 0x77⟩ 1720000000 []
  content_le := by
    have hcontent : event.content = "zz" := congrArg NostrUnsignedEvent.content hunsigned
    rw [hcontent]
    decide
  content_even := by
    have hcontent : event.content = "zz" := congrArg NostrUnsignedEvent.content hunsigned
    rw [hcontent]
    rfl

/-- The relay shows an event that was put into its empty queue. -/
theorem shows_enqueued {event : NostrEvent} {record : FakeNostrEventRecord}
    (hrecord : FakeNostrEventRecord.fromEvent event = .ok record) :
    ∃ relay : FakeNostrRelay 1 1 1,
      FakeNostrRelay.enqueueEventOutput "s" event .new = .ok () relay ∧
      ((freshExecutor 1).withRelay relay).Shows event := by
  have hqueue : (FakeNostrRelay.new : FakeNostrRelay 1 1 1).queue = [] := SlotArray.live_empty
  have hroom : (FakeNostrRelay.new : FakeNostrRelay 1 1 1).queue.length < 1 := by
    rw [hqueue]
    exact Nat.one_pos
  have hfree : (FakeNostrRelay.new : FakeNostrRelay 1 1 1).outputEvents.firstFree = some 0 := rfl
  have hafter := valid_new.queue_enqueued hroom (.ownedEvent "s" 0)
  rw [hqueue, List.nil_append] at hafter
  obtain rfl : record.event = event := (ends_fromEvent event).of_ok hrecord
  exact ⟨_, valid_new.enqueueEventOutput_eq hrecord hfree hroom "s",
    shows_ownedEvent (valid_new.enqueued_owned hroom hfree "s" record) hafter rfl⟩

/-- An event that is not valid stays in the queue, however often it is polled with an empty slice. -/
theorem garbled_event_stays : ∃ event : NostrEvent, event.unsigned = garbledEvent ∧
    ∃ executor, executor = ExecutorOp.run (fun _ => garbledEventId) (schnorrFor garbledSignature)
        [.onRelay (.enqueueEventOutput "s" event)] (freshExecutor 1) ∧
      executor.Shows event ∧
      (¬∃ bytes, Conveys (fun _ => garbledEventId) (schnorrFor garbledSignature) event bytes) ∧
      (∀ n, polled (fun _ => garbledEventId) (schnorrFor garbledSignature) [] n executor = executor) ∧
      ¬Progresses (fun _ => garbledEventId) (schnorrFor garbledSignature) executor [] := by
  obtain ⟨event, -, hunsigned, hverified⟩ : ∃ signed, signEvent (fun _ => garbledEventId)
      (schnorrFor garbledSignature) garbledEvent NostrBridge.sampleSecret = .ok signed ∧
      signed.unsigned = garbledEvent ∧ verifyEvent (fun _ => garbledEventId)
        (schnorrFor garbledSignature) signed = .ok () :=
    exists_signEvent (accepts_schnorrFor _) rfl rfl (by decide)
  have hcontent : event.content = "zz" := congrArg NostrUnsignedEvent.content hunsigned
  have htags : event.tags = garbledEvent.tags := congrArg NostrUnsignedEvent.tags hunsigned
  obtain ⟨record, hrecord⟩ : ∃ record, FakeNostrEventRecord.fromEvent event = .ok record := by
    apply FakeNostrEventRecord.exists_fromEvent
    · rw [hcontent]
      decide
    · rw [htags]
      show 3 ≤ hyfNostrMaxTags
      decide
    · rw [htags]
      exact @checkTag_envelopeEvent ⟨NostrBridge.samplePubkey⟩ ⟨fillBytes 32 0x77⟩ 1720000000 []
  obtain ⟨relay, henqueue, hshows⟩ := shows_enqueued hrecord
  have hoverlooked : Overlooked (fun _ => garbledEventId) (schnorrFor garbledSignature)
      ((freshExecutor 1).withRelay relay) [] event :=
    { up := rfl
      shows := hshows
      checked := checked_garbledEvent hverified hunsigned
      time_fits := by
        have htime : event.createdAt = 1720000000 := congrArg NostrUnsignedEvent.createdAt hunsigned
        rw [htime]
        decide
      short := by
        rw [hcontent]
        decide
      no_envelope := by
        rintro ⟨bytes, envelope, hbytes, -⟩
        rw [hcontent] at hbytes
        exact garbled_is_no_envelope hbytes }
  refine ⟨event, hunsigned, (freshExecutor 1).withRelay relay, ?_, hshows, hoverlooked.not_conveys, ?_,
    fun hprogresses => hoverlooked.not_pollsTo hprogresses.pollsTo⟩
  · show _ = (freshExecutor 1).withRelay (FakeNostrRelay.enqueueEventOutput "s" event .new).state
    rw [henqueue]
    rfl
  · intro n
    apply Function.iterate_fixed
    rw [hoverlooked.poll_eq]
    rfl

end NostrGatewayExecutor

end Hyf
