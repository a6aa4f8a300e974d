import Hyf.NostrGateway.Executor
import Hyf.Nostr.RelayOperations

/-!
# Polling the relay

A poll looks at the oldest output only. `poll_frame` says where a frame comes from: the oldest output
carried an event, and the event was verified and decoded. `poll_takes` says that a poll with a buffer
for any envelope takes the output, whatever it makes of it.
-/

namespace Hyf

open ByteCodec Nostr FakeNostrRelay

section Views

variable {eventCapacity subscriptionCapacity outputCapacity : ℕ}

theorem withView_eq {T : Type} (output : FakeNostrRelayOutputRecord)
    (events : SlotArray FakeNostrEventRecord eventCapacity)
    (outputEvents : SlotArray FakeNostrEventRecord outputCapacity) (f : FakeNostrRelayOutput → T) :
    output.withView events outputEvents f = (output.withView events outputEvents id).map f := by
  cases output with
  | storedEvent subscriptionId index =>
    rw [FakeNostrRelayOutputRecord.withView, FakeNostrRelayOutputRecord.withView]
    cases recordAt events index with
    | error fault => rfl
    | ok record =>
      show record.withEvent _ = (record.withEvent _).map f
      rw [record.withEvent_eq, record.withEvent_eq]
      rfl
  | ownedEvent subscriptionId index =>
    rw [FakeNostrRelayOutputRecord.withView, FakeNostrRelayOutputRecord.withView]
    cases recordAt outputEvents index with
    | error fault => rfl
    | ok record =>
      show record.withEvent _ = (record.withEvent _).map f
      rw [record.withEvent_eq, record.withEvent_eq]
      rfl
  | _ => rfl

/-- The callback sees what the relay shows. -/
theorem withNextOutput_eq {T : Type}
    (relay : FakeNostrRelay eventCapacity subscriptionCapacity outputCapacity)
    (f : FakeNostrRelayOutput → T) :
    relay.withNextOutput f = (relay.withNextOutput id).map (Option.map f) := by
  unfold withNextOutput
  split
  · rename_i output _
    rw [withView_eq output _ _ f]
    cases output.withView relay.events relay.outputEvents id <;> rfl
  · rfl

end Views

namespace NostrGatewayExecutor

variable {eventCapacity subscriptionCapacity outputCapacity : ℕ}
  {sha256 : List UInt8 → ByteArrayN 32} {schnorr : Schnorr}
  {executor executor' : NostrGatewayExecutor
    (FakeNostrRelay eventCapacity subscriptionCapacity outputCapacity)}

/-- The oldest output carries the event. -/
def Shows (executor : NostrGatewayExecutor
    (FakeNostrRelay eventCapacity subscriptionCapacity outputCapacity)) (event : NostrEvent) : Prop :=
  ∃ subscriptionId, executor.relay.withNextOutput id = .ok (some (.event subscriptionId event))

/-- A poll for an event does what its decoding says. -/
theorem poll_of_shows (hup : executor.up = true) {event : NostrEvent} (hshows : executor.Shows event)
    (output : List UInt8) :
    pollRelayOutput sha256 schnorr output executor =
      match decodeRelayEvent sha256 schnorr executor.linkId event output with
      | .ok frame =>
        (consumeRelayOutput >>= fun _ => pure (some (.frame frame)) :
          NostrGatewayM eventCapacity subscriptionCapacity outputCapacity _) executor
      | .error (.error error) =>
        if isOutputTooSmall error then .error (.error error) executor
        else (consumeRelayOutput >>= fun _ => throw (.error error) :
          NostrGatewayM eventCapacity subscriptionCapacity outputCapacity _) executor
      | .error .panic => .error .panic executor := by
  obtain ⟨subscriptionId, hnext⟩ := hshows
  have hfirst : executor.relay.withNextOutput isEventOutput = .ok (some true) := by
    rw [withNextOutput_eq, hnext]
    rfl
  have hsecond : executor.relay.withNextOutput (decodeOutput sha256 schnorr executor.linkId output) =
      .ok (some (decodeRelayEvent sha256 schnorr executor.linkId event output)) := by
    rw [withNextOutput_eq, hnext]
    rfl
  rw [pollRelayOutput, run_get_bind, Outcome.lift_bind (rejectIf_eq_ok (by simp [hup])),
    Outcome.lift_bind (Outcome.convert_eq hfirst _)]
  show pollEvent sha256 schnorr output executor = _
  rw [pollEvent, run_get_bind, Outcome.lift_bind (Outcome.convert_eq hsecond _)]
  cases decodeRelayEvent sha256 schnorr executor.linkId event output with
  | ok frame => rfl
  | error fault =>
    cases fault with
    | panic => rfl
    | error error =>
      dsimp only
      split_ifs <;> rfl

/-- A poll for another output reports it. -/
theorem poll_of_control (hup : executor.up = true) {view : FakeNostrRelayOutput}
    (hnext : executor.relay.withNextOutput id = .ok (some view)) (hcontrol : isEventOutput view = false)
    (output : List UInt8) :
    pollRelayOutput sha256 schnorr output executor =
      (executor.nextControlOutput.lift >>= fun control => do
        consumeRelayOutput
        pure (some control) :
        NostrGatewayM eventCapacity subscriptionCapacity outputCapacity _) executor := by
  have hfirst : executor.relay.withNextOutput isEventOutput = .ok (some false) := by
    rw [withNextOutput_eq, hnext, ← hcontrol]
    rfl
  rw [pollRelayOutput, run_get_bind, Outcome.lift_bind (rejectIf_eq_ok (by simp [hup])),
    Outcome.lift_bind (Outcome.convert_eq hfirst _)]

/-- A report on the link is no frame. -/
theorem ends_nextControlOutput :
    Ends executor.nextControlOutput fun control => ∀ frame, control ≠ .frame frame := by
  have hstatus (status : NostrRelayStatus) :
      Ends (NostrGatewayRelayStatus.fromStatus status) fun _ => True :=
    (ends_fromStr _ _).bind fun _ _ => (ends_fromStr _ _).bind fun _ _ => trivial
  unfold nextControlOutput
  split
  · exact trivial
  · rename_i output _
    apply Ends.convert
    cases output with
    | ok eventId accepted status => exact (hstatus status).bind fun _ _ _ h => by cases h
    | eose subscriptionId => exact (ends_fromStr _ _).bind fun _ _ _ h => by cases h
    | closed subscriptionId status =>
      exact (ends_fromStr _ _).bind fun _ _ => (hstatus status).bind fun _ _ _ h => by cases h
    | notice message => exact (ends_fromStr _ _).bind fun _ _ _ h => by cases h
    | auth challenge => exact (ends_fromStr _ _).bind fun _ _ _ h => by cases h

/-- **A frame** stems from the event that the oldest output shows. -/
theorem poll_frame {output : List UInt8} {frame : LinkFrameRef}
    (h : pollRelayOutput sha256 schnorr output executor = .ok (some (.frame frame)) executor') :
    ∃ event, executor.Shows event ∧
      decodeRelayEvent sha256 schnorr executor.linkId event output = .ok frame := by
  have hup : executor.up = true := by
    by_contra hdown
    rw [pollRelayOutput, run_get_bind, rejectIf_eq_fail (by simpa using hdown)] at h
    cases h
  cases hnext : executor.relay.withNextOutput id with
  | error fault =>
    have hfirst : executor.relay.withNextOutput isEventOutput = .error fault := by
      rw [withNextOutput_eq, hnext]
      rfl
    rw [pollRelayOutput, run_get_bind, Outcome.lift_bind (rejectIf_eq_ok (by simp [hup])),
      hfirst] at h
    cases h
  | ok next =>
    cases next with
    | none =>
      have hfirst : executor.relay.withNextOutput isEventOutput = .ok none := by
        rw [withNextOutput_eq, hnext]
        rfl
      rw [pollRelayOutput, run_get_bind, Outcome.lift_bind (rejectIf_eq_ok (by simp [hup])),
        Outcome.lift_bind (Outcome.convert_eq hfirst _)] at h
      cases h
    | some view =>
      by_cases hcontrol : isEventOutput view = false
      · rw [poll_of_control hup hnext hcontrol] at h
        obtain ⟨control, middle, hlift, hrest⟩ := exists_of_run_bind_eq_ok h
        obtain ⟨hnextcontrol, rfl⟩ := Outcome.eq_of_lift_eq_ok hlift
        obtain ⟨_, _, -, hrest⟩ := exists_of_run_bind_eq_ok hrest
        cases hrest
        exact absurd rfl (ends_nextControlOutput.of_ok hnextcontrol frame)
      · obtain ⟨subscriptionId, event, rfl⟩ : ∃ subscriptionId event, view = .event subscriptionId event := by
          cases view with
          | event subscriptionId event => exact ⟨subscriptionId, event, rfl⟩
          | _ => exact absurd rfl hcontrol
        have hshows : executor.Shows event := ⟨subscriptionId, hnext⟩
        refine ⟨event, hshows, ?_⟩
        rw [poll_of_shows hup hshows] at h
        cases hdecode : decodeRelayEvent sha256 schnorr executor.linkId event output with
        | ok frame' =>
          rw [hdecode] at h
          obtain ⟨_, middle, -, h⟩ := exists_of_run_bind_eq_ok h
          cases h
          rfl
        | error fault =>
          rw [hdecode] at h
          cases fault with
          | panic => cases h
          | error error =>
            dsimp only at h
            split_ifs at h
            obtain ⟨_, middle, -, h⟩ := exists_of_run_bind_eq_ok h
            cases h

/-! ## Taking the oldest output -/

/-- The executor with another relay. -/
def withRelay (executor : NostrGatewayExecutor
    (FakeNostrRelay eventCapacity subscriptionCapacity outputCapacity))
    (relay : FakeNostrRelay eventCapacity subscriptionCapacity outputCapacity) :
    NostrGatewayExecutor (FakeNostrRelay eventCapacity subscriptionCapacity outputCapacity) :=
  { executor with relay }

theorem consumeRelayOutput_eq (hvalid : executor.relay.Valid) {record : FakeNostrRelayOutputRecord}
    {rest : List FakeNostrRelayOutputRecord} (hqueue : executor.relay.queue = record :: rest) :
    consumeRelayOutput executor =
      .ok () (executor.withRelay (executor.relay.consumed record rest.length)) := by
  have hconsume := hvalid.consumeOutput_eq hqueue
  have hrelay : onRelay (mapNostrReceiveError executor.linkId) FakeNostrRelay.consumeOutput executor =
      .ok true (executor.withRelay (executor.relay.consumed record rest.length)) := by
    rw [onRelay, hconsume]
    rfl
  rw [consumeRelayOutput, run_get_bind, run_bind_of_ok hrelay]
  rfl

/-! ## Frames -/

theorem checkedMulU64_eq_some {a b c : UInt64} (h : checkedMulU64 a b = some c) :
    c.toNat = a.toNat * b.toNat := by
  unfold checkedMulU64 at h
  split_ifs at h with hfits
  cases h
  rw [UInt64.toNat_mul, Nat.mod_eq_of_lt hfits]

/-- What a frame says about the event that it was decoded from. -/
theorem ends_decodeRelayEvent (linkId : LinkId) (event : NostrEvent) {output : List UInt8}
    (hlimit : output.length < addressLimit) :
    Ends (decodeRelayEvent sha256 schnorr linkId event output) fun frame =>
      frame.linkId = linkId ∧ frame.receivedAtMs.toNat = event.createdAt.toNat * 1000 ∧
        Carries sha256 schnorr event frame.bytes ∧
        ∃ envelope, decodeEnvelope frame.bytes = .ok envelope := by
  unfold decodeRelayEvent
  split
  · exact trivial
  · rename_i receivedAtMs hmul
    have htime : receivedAtMs.toNat = event.createdAt.toNat * 1000 := checkedMulU64_eq_some hmul
    apply ((ends_verifyAndDecodeHyfNostrEvent sha256 schnorr event hlimit).convert _).bind
    rintro ⟨envelope, out⟩ ⟨bytes, hcarries, -, hfits, hdecode, rfl⟩
    have hhalf : (asBytes event.content).length / 2 = bytes.length := by
      rw [hcarries.content_eq, length_lowerHex]
      omega
    dsimp only
    rw [hhalf]
    apply (ends_slice (Nat.zero_le _) (by simp)).bind
    rintro _ rfl
    rw [List.drop_zero, Nat.sub_zero, List.take_left]
    exact ⟨rfl, htime, hcarries, envelope, hdecode⟩

/-- The frame of an event that carries an envelope. -/
theorem decodeRelayEvent_eq (linkId : LinkId) {event : NostrEvent} {bytes : List UInt8}
    (h : Carries sha256 schnorr event bytes) (hmax : bytes.length ≤ hyfNostrMaxEnvelopeBytes)
    {envelope : HyfEnvelopeRef} (hdecode : decodeEnvelope bytes = .ok envelope)
    (htime : event.createdAt.toNat * 1000 < 2 ^ 64) {output : List UInt8}
    (hroom : bytes.length ≤ output.length) :
    decodeRelayEvent sha256 schnorr linkId event output =
      .ok ⟨linkId, event.createdAt * 1000, bytes⟩ := by
  have hmul : checkedMulU64 event.createdAt 1000 = some (event.createdAt * 1000) := if_pos htime
  have hhalf : (asBytes event.content).length / 2 = bytes.length := by
    rw [h.content_eq, length_lowerHex]
    omega
  have hslice : (slice (bytes ++ output.drop bytes.length) 0 bytes.length : Outcome GatewayError _) =
      .ok bytes := by
    rw [slice, if_pos ⟨Nat.zero_le _, by simp⟩, List.drop_zero, Nat.sub_zero, List.take_left]
  rw [decodeRelayEvent, hmul]
  simp only
  rw [Outcome.bind_eq (Outcome.convert_eq
    (verifyAndDecodeHyfNostrEvent_eq sha256 schnorr h hmax hdecode hroom) _)]
  simp only [hhalf]
  rw [Outcome.bind_eq hslice]
  rfl

theorem isOutputTooSmall_mapNostrReceiveError (linkId : LinkId) (error : NostrError) :
    isOutputTooSmall (mapNostrReceiveError linkId error) = error.isOutputTooSmall := by
  cases error <;> rfl

/-- With room for any envelope, a poll does not ask for more. -/
theorem reports_decodeRelayEvent (linkId : LinkId) (event : NostrEvent) {output : List UInt8}
    (hlimit : output.length < addressLimit) (hroom : hyfNostrMaxEnvelopeBytes ≤ output.length) :
    Reports (decodeRelayEvent sha256 schnorr linkId event output)
      fun error => isOutputTooSmall error = false := by
  unfold decodeRelayEvent
  split
  · exact reports_fail rfl
  · apply Reports.bind
    · apply Reports.convert
      · exact reports_verifyAndDecodeHyfNostrEvent sha256 schnorr event hlimit hroom
      · intro error hkind
        rw [isOutputTooSmall_mapNostrReceiveError, hkind]
    · rintro ⟨envelope, out⟩ _
      apply Reports.bind
      · intro error herror
        unfold slice at herror
        split_ifs at herror
        cases herror
      · exact fun _ _ => reports_ok _ _

theorem poll_takes_event (hup : executor.up = true) (hvalid : executor.relay.Valid)
    {record : FakeNostrRelayOutputRecord} {rest : List FakeNostrRelayOutputRecord}
    (hqueue : executor.relay.queue = record :: rest) {event : NostrEvent}
    (hshows : executor.Shows event) {output : List UInt8}
    (hlimit : output.length < addressLimit) (hroom : hyfNostrMaxEnvelopeBytes ≤ output.length) :
    (pollRelayOutput sha256 schnorr output executor).state =
      executor.withRelay (executor.relay.consumed record rest.length) := by
  have hconsume := consumeRelayOutput_eq hvalid hqueue
  have hends := @ends_decodeRelayEvent sha256 schnorr executor.linkId event output hlimit
  have hreports := @reports_decodeRelayEvent sha256 schnorr executor.linkId event output hlimit hroom
  rw [poll_of_shows hup hshows]
  cases hdecode : decodeRelayEvent sha256 schnorr executor.linkId event output with
  | ok frame =>
    simp only
    rw [run_bind_of_ok hconsume]
    rfl
  | error fault =>
    cases fault with
    | panic => exact absurd hdecode hends.ne_panic
    | error error =>
      simp only [hreports error hdecode, Bool.false_eq_true, if_false]
      rw [run_bind_of_ok hconsume]
      rfl

theorem poll_takes_control (hup : executor.up = true) (hvalid : executor.relay.Valid)
    {record : FakeNostrRelayOutputRecord} {rest : List FakeNostrRelayOutputRecord}
    (hqueue : executor.relay.queue = record :: rest) {view : FakeNostrRelayOutput}
    (hnext : executor.relay.withNextOutput id = .ok (some view)) (hcontrol : isEventOutput view = false)
    {control : NostrGatewayRelayOutput} (hok : executor.nextControlOutput = .ok control)
    (output : List UInt8) :
    (pollRelayOutput sha256 schnorr output executor).state =
      executor.withRelay (executor.relay.consumed record rest.length) := by
  rw [poll_of_control hup hnext hcontrol, Outcome.lift_bind hok,
    run_bind_of_ok (consumeRelayOutput_eq hvalid hqueue)]
  rfl

theorem fromStatus_eq (status : StoredRelayStatus) :
    NostrGatewayRelayStatus.fromStatus status.asStatus =
      .ok ⟨status.statusPrefix, status.rawPrefix, status.detail⟩ := by
  rw [NostrGatewayRelayStatus.fromStatus]
  show (StoredString.fromStr _ status.rawPrefix.text >>= fun _ =>
    StoredString.fromStr _ status.detail.text >>= fun _ => _) = _
  rw [Outcome.bind_eq (fromStr_eq status.rawPrefix.length_le),
    Outcome.bind_eq (fromStr_eq status.detail.length_le)]
  rfl

/-- What the executor reports for an output without an event. -/
def translation : FakeNostrRelayOutputRecord → Option NostrGatewayRelayOutput
  | .ok eventId accepted status =>
    some (.ok eventId accepted ⟨status.statusPrefix, status.rawPrefix, status.detail⟩)
  | .eose subscriptionId => some (.eose subscriptionId)
  | .closed subscriptionId status =>
    some (.closed subscriptionId ⟨status.statusPrefix, status.rawPrefix, status.detail⟩)
  | .notice message => some (.notice message)
  | .auth challenge => some (.auth challenge)
  | .storedEvent _ _ | .ownedEvent _ _ => none

/-- The oldest output is an event or a report, and a report is passed on. -/
theorem shows_or_control (hvalid : executor.relay.Valid) {record : FakeNostrRelayOutputRecord}
    {rest : List FakeNostrRelayOutputRecord} (hqueue : executor.relay.queue = record :: rest) :
    (∃ event, executor.Shows event) ∨
      ∃ view control, executor.relay.withNextOutput id = .ok (some view) ∧
        isEventOutput view = false ∧ executor.nextControlOutput = .ok control ∧
        translation record = some control := by
  have hhead := hvalid.head?_outputs hqueue
  have hmem : record ∈ executor.relay.queue := hqueue ▸ List.mem_cons_self
  have hnext {view : FakeNostrRelayOutput}
      (hview : record.withView executor.relay.events executor.relay.outputEvents id = .ok view) :
      executor.relay.withNextOutput id = .ok (some view) := by
    rw [withNextOutput, hhead]
    exact Outcome.bind_eq hview _
  cases record with
  | storedEvent subscriptionId index =>
    obtain ⟨record, hrecord⟩ := hvalid.stored_live subscriptionId index hmem
    exact .inl ⟨record.event, subscriptionId, hnext (withView_storedEvent hrecord subscriptionId id)⟩
  | ownedEvent subscriptionId index =>
    obtain ⟨record, hrecord⟩ := (hvalid.owned_iff index).mp (List.mem_filterMap.mpr ⟨_, hmem, rfl⟩)
    exact .inl ⟨record.event, subscriptionId, hnext (withView_ownedEvent hrecord subscriptionId id)⟩
  | ok eventId accepted status =>
    refine .inr ⟨_, _, hnext rfl, rfl, ?_, rfl⟩
    rw [nextControlOutput, FakeNostrRelay.nextControlOutput, hhead]
    simp only [fromStatus_eq status]
    rfl
  | eose subscriptionId =>
    refine .inr ⟨_, _, hnext rfl, rfl, ?_, rfl⟩
    rw [nextControlOutput, FakeNostrRelay.nextControlOutput, hhead]
    simp only [fromStr_eq subscriptionId.length_le]
    rfl
  | closed subscriptionId status =>
    refine .inr ⟨_, _, hnext rfl, rfl, ?_, rfl⟩
    rw [nextControlOutput, FakeNostrRelay.nextControlOutput, hhead]
    simp only [fromStatus_eq status, fromStr_eq subscriptionId.length_le]
    rfl
  | notice message =>
    refine .inr ⟨_, _, hnext rfl, rfl, ?_, rfl⟩
    rw [nextControlOutput, FakeNostrRelay.nextControlOutput, hhead]
    simp only [fromStr_eq message.length_le]
    rfl
  | auth challenge =>
    refine .inr ⟨_, _, hnext rfl, rfl, ?_, rfl⟩
    rw [nextControlOutput, FakeNostrRelay.nextControlOutput, hhead]
    simp only [fromStr_eq challenge.length_le]
    rfl

/-- **A poll** takes the oldest output, whatever it makes of it. -/
theorem poll_takes (hup : executor.up = true) (hvalid : executor.relay.Valid)
    {record : FakeNostrRelayOutputRecord} {rest : List FakeNostrRelayOutputRecord}
    (hqueue : executor.relay.queue = record :: rest) {output : List UInt8}
    (hlimit : output.length < addressLimit) (hroom : hyfNostrMaxEnvelopeBytes ≤ output.length) :
    (pollRelayOutput sha256 schnorr output executor).state =
      executor.withRelay (executor.relay.consumed record rest.length) := by
  obtain ⟨event, hshows⟩ | ⟨view, control, hnext, hcontrol, hok, -⟩ := shows_or_control hvalid hqueue
  · exact poll_takes_event hup hvalid hqueue hshows hlimit hroom
  · exact poll_takes_control hup hvalid hqueue hnext hcontrol hok output

end NostrGatewayExecutor

end Hyf
