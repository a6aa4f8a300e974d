import Hyf.Gateway.Clock
import Hyf.NostrGateway.Carriage

/-!
# Feeding the gateway from relays

The gateway takes local calls and the frames that an executor polls from its relay. A polled frame is
received at the time that the author wrote into the event, and the gateway observes that time: the clock
stays with the ticks of the local caller exactly as long as no event is dated ahead of them.
-/

namespace Hyf

open ByteCodec Nostr NostrGatewayExecutor LoggedSteps

namespace GatewayCore

variable {maxLinks maxSeen storeCapacity : ℕ} {sha256 : List UInt8 → ByteArrayN 32} {schnorr : Schnorr}

section

variable (sha256 schnorr)

/-- What is asked of the gateway: a local call, or to take the frame that an executor polled, with the
event that the executor showed. -/
inductive Feeds : GatewayOp → Option NostrEvent → Prop
  | submit (envelope : HyfEnvelopeRef) : Feeds (.submit envelope) none
  | tick (now : TimestampMs) : Feeds (.tick now) none
  | handleLinkEvent (event : LinkEvent) : Feeds (.handleLinkEvent event) none
  | ingestLinkFrame {eventCapacity subscriptionCapacity outputCapacity : ℕ}
      {executor executor' : NostrGatewayExecutor
        (FakeNostrRelay eventCapacity subscriptionCapacity outputCapacity)}
      {event : NostrEvent} {output : List UInt8} {frame : LinkFrameRef}
      (addressable : output.length < addressLimit) (shows : executor.Shows event)
      (polled : pollRelayOutput sha256 schnorr output executor = .ok (some (.frame frame)) executor') :
      Feeds (.ingestLinkFrame frame) (some event)

/-- A call of the gateway, with the largest time that was passed to `tick` so far. -/
structure FedCall (maxLinks maxSeen storeCapacity : ℕ) where
  op : GatewayOp
  source : Option NostrEvent
  before : GatewayCore maxLinks maxSeen storeCapacity
  moments : List (Moment maxLinks maxSeen storeCapacity)
  after : GatewayCore maxLinks maxSeen storeCapacity
  localMs : TimestampMs

/-- The largest time that was passed to `tick`. -/
def localAfter (localMs : TimestampMs) : GatewayOp → TimestampMs
  | .tick now => if now ≤ localMs then localMs else now
  | _ => localMs

/-- The calls of a run, with the log and the core after them. -/
inductive Fed (config : GatewayConfig maxLinks) : List (FedCall maxLinks maxSeen storeCapacity) →
    TimestampMs → List (Moment maxLinks maxSeen storeCapacity) →
      GatewayCore maxLinks maxSeen storeCapacity → Prop
  | start {core : GatewayCore maxLinks maxSeen storeCapacity} (new_eq : new config = .ok core) :
      Fed config [] 0 [] core
  | call {calls : List (FedCall maxLinks maxSeen storeCapacity)} {localMs : TimestampMs}
      {log moments : List (Moment maxLinks maxSeen storeCapacity)}
      {core core' : GatewayCore maxLinks maxSeen storeCapacity} (before : Fed config calls localMs log core)
      {op : GatewayOp} {source : Option NostrEvent} (feeds : Feeds sha256 schnorr op source) {E : Type}
      [GatewayLinkExecutor E] {executor executor' : E}
      (performed : ((perform op).run ⟨core, executor, log⟩).state = ⟨core', executor', log ++ moments⟩) :
      Fed config (calls ++ [⟨op, source, core, moments, core', localAfter localMs op⟩])
        (localAfter localMs op) (log ++ moments) core'

end

/-- The clock of the call is the local one: it is not ahead of the ticks, and neither was a record
expired nor a message dropped as expired before the ticks had reached its expiry. -/
structure FedCall.OnLocalTime (call : FedCall maxLinks maxSeen storeCapacity) : Prop where
  clock : call.after.lastNowMs ≤ call.localMs
  records : ∀ record ∈ call.before.store.live,
    call.after.AccountsFor call.moments call.localMs record
  drops : ∀ moment ∈ call.moments, ∀ messageId, DropsAt moment messageId →
    ∃ envelope ingress, call.op.event.message? = some (envelope, ingress) ∧
      envelope.messageId = messageId ∧ (envelope.expiresAtMs ≤ call.localMs ∨
        validateEnvelope envelope = .error .invalidExpiry)

/-- The event of the call is not dated ahead of the ticks. -/
def FedCall.NotAhead (call : FedCall maxLinks maxSeen storeCapacity) : Prop :=
  ∀ event, call.source = some event → event.createdAt.toNat * 1000 ≤ call.localMs.toNat

/-! ## Runs -/

theorem Fed.run {config : GatewayConfig maxLinks} {calls : List (FedCall maxLinks maxSeen storeCapacity)}
    {localMs : TimestampMs} {log : List (Moment maxLinks maxSeen storeCapacity)}
    {core : GatewayCore maxLinks maxSeen storeCapacity}
    (h : Fed sha256 schnorr config calls localMs log core) : Run config log core := by
  induction h with
  | start new_eq => exact .start new_eq
  | @call _ _ log moments core core' _ op _ _ E _ executor executor' performed ih =>
    have hcall := Run.call ih op E executor
    rwa [performed] at hcall

/-- A fed frame was received at the time of its event. -/
theorem Feeds.receivedAtMs_eq {op : GatewayOp} {event : NostrEvent}
    (h : Feeds sha256 schnorr op (some event)) : ∃ frame, op = .ingestLinkFrame frame ∧
      frame.receivedAtMs.toNat = event.createdAt.toNat * 1000 := by
  cases h with
  | @ingestLinkFrame _ _ _ executor _ _ output frame addressable shows polled =>
    obtain ⟨event', ⟨subscription', hnext'⟩, hdecode⟩ := poll_frame polled
    obtain ⟨subscription, hnext⟩ := shows
    rw [hnext] at hnext'
    cases hnext'
    exact ⟨frame, rfl, ((ends_decodeRelayEvent executor.linkId event addressable).of_ok hdecode).2.1⟩

/-- The clock after a call that is not ahead does not overtake the ticks. -/
theorem Feeds.clockAfter_le {op : GatewayOp} {source : Option NostrEvent}
    (h : Feeds sha256 schnorr op source) {lastNowMs localMs : TimestampMs} (hle : lastNowMs ≤ localMs)
    (hsource : ∀ event, source = some event →
      event.createdAt.toNat * 1000 ≤ (localAfter localMs op).toNat) :
    op.clockAfter lastNowMs ≤ localAfter localMs op := by
  cases source with
  | some event =>
    obtain ⟨frame, rfl, htime⟩ := h.receivedAtMs_eq
    have hframe : frame.receivedAtMs ≤ localMs :=
      UInt64.le_iff_toNat_le.mpr (htime.le.trans (hsource event rfl))
    rw [GatewayOp.clockAfter]
    split_ifs
    · exact hle
    · exact hframe
  | none =>
    cases h with
    | submit envelope => exact hle
    | handleLinkEvent event => exact hle
    | tick now =>
      rw [GatewayOp.clockAfter, localAfter]
      split_ifs with hpast hseen hseen
      · exact hle
      · exact UInt64.le_trans hle (UInt64.le_of_lt (UInt64.not_le.mp hseen))
      · exact hseen
      · exact UInt64.le_rfl

/-- A call from a clock that is not ahead keeps to the local time exactly when its event does. -/
theorem onLocalTime_iff {answers : LinkId → List UInt8 → TimestampMs → Except GatewayError Unit → Prop}
    {core core' : GatewayCore maxLinks maxSeen storeCapacity} {op : GatewayOp} {source : Option NostrEvent}
    {moments : List (Moment maxLinks maxSeen storeCapacity)} {localMs : TimestampMs}
    (htimely : core.Timely) (hstore : core.store.WellFormed) (hle : core.lastNowMs ≤ localMs)
    (hfeeds : Feeds sha256 schnorr op source) (hcall : Call answers core op moments core') :
    (FedCall.mk op source core moments core' (localAfter localMs op)).OnLocalTime ↔
      (FedCall.mk op source core moments core' (localAfter localMs op)).NotAhead := by
  have hclock := hcall.lastNowMs_eq
  constructor
  · intro hlocal event hsource
    dsimp only at hsource
    subst hsource
    obtain ⟨frame, rfl, htime⟩ := hfeeds.receivedAtMs_eq
    have hafter : frame.receivedAtMs ≤ core'.lastNowMs := by
      rw [hclock, GatewayOp.clockAfter]
      split_ifs with hpast
      · exact hpast
      · exact UInt64.le_rfl
    rw [← htime]
    exact UInt64.le_iff_toNat_le.mp (UInt64.le_trans hafter hlocal.clock)
  · intro hahead
    have hafter : core'.lastNowMs ≤ localAfter localMs op := by
      rw [hclock]
      exact hfeeds.clockAfter_le hle hahead
    refine ⟨hafter, ?_, ?_⟩
    · intro record hmem
      obtain hlive | hexpired | hreleased := accountsFor_of_steps hmem hstore hcall.steps
      · exact .inl hlive
      · exact .inr (.inl (UInt64.le_trans hexpired hafter))
      · exact .inr (.inr hreleased)
    · intro moment hmem messageId hdrops
      obtain ⟨envelope, ingress, hmessage, hid, hexpires⟩ := hcall.dropsAt htimely hmem hdrops
      exact ⟨envelope, ingress, hmessage, hid,
        hexpires.imp_left fun hexpired => UInt64.le_trans hexpired hafter⟩

/-- **The clock is the local one exactly while no event is dated ahead of the ticks.** In every run all
calls keep to the local time if and only if no relay event that was fed says that it was created after
the largest time passed to `tick` so far. -/
theorem clock_is_local_iff {config : GatewayConfig maxLinks}
    {calls : List (FedCall maxLinks maxSeen storeCapacity)} {localMs : TimestampMs}
    {log : List (Moment maxLinks maxSeen storeCapacity)}
    {core : GatewayCore maxLinks maxSeen storeCapacity}
    (h : Fed sha256 schnorr config calls localMs log core) :
    (∀ call ∈ calls, call.OnLocalTime) ↔ ∀ call ∈ calls, call.NotAhead := by
  -- while no event was ahead, the clock is not ahead either
  suffices hall : ((∀ call ∈ calls, call.OnLocalTime) ↔ ∀ call ∈ calls, call.NotAhead) ∧
      ((∀ call ∈ calls, call.NotAhead) → core.lastNowMs ≤ localMs) from hall.1
  induction h with
  | start new_eq =>
    obtain ⟨-, -, -, -, rfl⟩ := new_eq_ok new_eq
    exact ⟨by simp, fun _ => UInt64.le_rfl⟩
  | @call calls localMs log moments core core' before op source feeds E _ executor executor' performed ih =>
    have hrun := before.run
    have htimely := (timelyLog_of_run hrun).now
    obtain ⟨moments', core'', executor'', hcall, hstate⟩ :=
      run_perform op ⟨core, executor, log⟩ hrun.wellFormed
    rw [performed] at hstate
    obtain ⟨rfl, rfl, hlog⟩ := World.mk.inj hstate
    obtain rfl := List.append_cancel_left hlog
    simp only [List.forall_mem_append, List.forall_mem_singleton, ih.1]
    have hone : (∀ call ∈ calls, call.NotAhead) → (_ ↔ _) := fun hall =>
      onLocalTime_iff htimely hrun.wellFormed (ih.2 hall) feeds hcall
    refine ⟨and_congr_right hone, ?_⟩
    rintro ⟨hall, hlast⟩
    exact ((hone hall).mpr hlast).clock

theorem Fed.lastNowMs_le {config : GatewayConfig maxLinks}
    {calls : List (FedCall maxLinks maxSeen storeCapacity)} {localMs : TimestampMs}
    {log : List (Moment maxLinks maxSeen storeCapacity)}
    {core : GatewayCore maxLinks maxSeen storeCapacity}
    (h : Fed sha256 schnorr config calls localMs log core)
    (hall : ∀ call ∈ calls, call.OnLocalTime) : core.lastNowMs ≤ localMs := by
  cases h with
  | start new_eq =>
    obtain ⟨-, -, -, -, rfl⟩ := new_eq_ok new_eq
    exact UInt64.le_rfl
  | call before feeds performed =>
    exact (hall _ (List.mem_append_right _ (List.mem_singleton_self _))).clock

/-! ## An event from the future -/

/-- The frame of the sample event, which is dated 1720000000. -/
def datedFrame : LinkFrameRef := ⟨⟨fillBytes 16 1⟩, 1720000000000, sentBytes⟩

/-- An executor whose relay has one event in its queue. -/
def queuedExecutor (record : FakeNostrEventRecord) : NostrGatewayExecutor (FakeNostrRelay 1 1 1) where
  linkId := ⟨fillBytes 16 1⟩
  mtu := 2048
  up := true
  authorSecret := ⟨fillBytes 32 9⟩
  recipientPubkey := ⟨fillBytes 32 0x77⟩
  relay := {
    FakeNostrRelay.new.enqueued (.ownedEvent "s" 0) with
    outputEvents := (SlotArray.empty _ 1).write 0 (some record) }

theorem queue_queuedExecutor (record : FakeNostrEventRecord) :
    (queuedExecutor record).relay.Valid ∧
      (queuedExecutor record).relay.queue = [.ownedEvent "s" 0] := by
  have hnew : (FakeNostrRelay.new : FakeNostrRelay 1 1 1).Valid := FakeNostrRelay.valid_new
  have hempty : (FakeNostrRelay.new : FakeNostrRelay 1 1 1).queue = [] := SlotArray.live_empty
  have hroom : (FakeNostrRelay.new : FakeNostrRelay 1 1 1).queue.length < 1 := by
    rw [hempty]
    exact Nat.one_pos
  have hfree : (FakeNostrRelay.new : FakeNostrRelay 1 1 1).outputEvents.firstFree = some 0 := rfl
  refine ⟨hnew.enqueued_owned hroom hfree "s" record, ?_⟩
  show ((FakeNostrRelay.new : FakeNostrRelay 1 1 1).enqueued _).queue = _
  rw [hnew.queue_enqueued hroom, hempty, List.nil_append]

theorem shows_queuedExecutor (record : FakeNostrEventRecord) :
    (queuedExecutor record).Shows record.event := by
  obtain ⟨hvalid, hqueue⟩ := queue_queuedExecutor record
  refine ⟨"s", ?_⟩
  rw [FakeNostrRelay.withNextOutput, hvalid.head?_outputs hqueue]
  exact Outcome.bind_eq (FakeNostrRelay.withView_ownedEvent rfl "s" id) _

/-- The sample event is signed, and the executor that has it in its queue polls its frame. -/
theorem exists_feeds_datedFrame : ∃ event : NostrEvent, event.createdAt = 1720000000 ∧
    Feeds (fun _ => sentEventId) (schnorrFor sentSignature) (.ingestLinkFrame datedFrame)
      (some event) := by
  have hmax : sentBytes.length ≤ hyfNostrMaxEnvelopeBytes := by decide
  obtain ⟨event, -, hverified, hunsigned⟩ := @exists_withSignedHyfNostrEvent (fun _ => sentEventId)
    (schnorrFor sentSignature) sentBytes (accepts_schnorrFor _) NostrBridge.sampleSecret () rfl
    ⟨fillBytes 32 0x77⟩ (1720000000000 / 1000) .new hmax
  obtain ⟨record, hrecord⟩ := exists_fromEvent_of_unsigned hunsigned hmax
  obtain rfl : record.event = event := (FakeNostrRelay.ends_fromEvent event).of_ok hrecord
  obtain ⟨hvalid, hqueue⟩ := queue_queuedExecutor record
  have hshows := shows_queuedExecutor record
  have hbuffer : (List.replicate hyfNostrMaxEnvelopeBytes (0 : UInt8)).length =
      hyfNostrMaxEnvelopeBytes := List.length_replicate
  obtain ⟨relay', hpoll⟩ := @poll_event 1 1 1 _ _ (queuedExecutor record) sentBytes 1720000000000 rfl
    hvalid _ _ hqueue _ hshows hverified _ _ hunsigned hmax _ decodeEnvelope_sentBytes _
    (hbuffer ▸ hmax)
  refine ⟨record.event, congrArg NostrUnsignedEvent.createdAt hunsigned, ?_⟩
  refine .ingestLinkFrame ?_ hshows hpoll
  rw [hbuffer]
  decide

/-- A call extends a run. -/
theorem Fed.perform {config : GatewayConfig maxLinks}
    {calls : List (FedCall maxLinks maxSeen storeCapacity)} {localMs : TimestampMs}
    {E : Type} [GatewayLinkExecutor E] {world : World maxLinks maxSeen storeCapacity E}
    (h : Fed sha256 schnorr config calls localMs world.log world.core) {op : GatewayOp}
    {source : Option NostrEvent} (feeds : Feeds sha256 schnorr op source) :
    ∃ moments, Fed sha256 schnorr config (calls ++ [⟨op, source, world.core, moments,
        ((perform op).run world).state.core, localAfter localMs op⟩]) (localAfter localMs op)
      ((perform op).run world).state.log ((perform op).run world).state.core := by
  obtain ⟨moments, core, executor, hcall, hstate⟩ := run_perform op world h.run.wellFormed
  rw [hstate]
  exact ⟨moments, .call h feeds hstate⟩

/-- A message that waits for a link for an hour. -/
def waitingEnvelope (id : UInt8) : HyfEnvelopeRef :=
  { sampleEnvelope id (.node ⟨fillBytes 32 7⟩) 3 with
    createdAtMs := 1600000000000
    expiresAtMs := 1600003600000 }

/-- A message was stored at the local time 1600000000000. -/
def waitingWorld : World 2 8 4 AcceptAll :=
  sampleCall (.submit (waitingEnvelope 4)) (sampleCall (.tick 1600000000000) ⟨sampleCore, .mk, []⟩)

/-- The frame was taken, and another message was submitted. -/
def movedWorld : World 2 8 4 AcceptAll := sampleCall (.ingestLinkFrame datedFrame) waitingWorld

theorem lastNowMs_movedWorld : movedWorld.core.lastNowMs = 1720000000000 := by decide +kernel

/-- The clock follows the event: the stored message is lost, and the next one is dropped as expired. -/
theorem datedFrame_moves_clock :
    (∃ calls, Fed (fun _ => sentEventId) (schnorrFor sentSignature) sampleConfig calls 1600000000000
        movedWorld.log movedWorld.core ∧ ¬∀ call ∈ calls, call.OnLocalTime) ∧
    movedWorld.core.lastNowMs = 1720000000000 ∧ waitingWorld.core.storedLen = 1 ∧
    movedWorld.core.storedLen = 0 ∧
    (.executed (.drop (waitingEnvelope 5).messageId .expired) (.ok ())) ∈
      (sampleCall (.submit (waitingEnvelope 5)) movedWorld).log.map Moment.event := by
  obtain ⟨event, -, hfeeds⟩ := exists_feeds_datedFrame
  have hstart : Fed (fun _ => sentEventId) (schnorrFor sentSignature) sampleConfig [] 0
      (World.mk sampleCore AcceptAll.mk []).log (World.mk sampleCore AcceptAll.mk []).core :=
    .start new_sampleConfig
  obtain ⟨moments₁, hticked⟩ := hstart.perform (.tick 1600000000000)
  obtain ⟨moments₂, hwaiting⟩ := hticked.perform (.submit (waitingEnvelope 4))
  obtain ⟨moments₃, hmoved⟩ := hwaiting.perform hfeeds
  refine ⟨?_, lastNowMs_movedWorld, by decide +kernel, by decide +kernel, by decide +kernel⟩
  obtain ⟨calls, hfed⟩ : ∃ calls, Fed (fun _ => sentEventId) (schnorrFor sentSignature) sampleConfig calls
      1600000000000 movedWorld.log movedWorld.core := ⟨_, hmoved⟩
  refine ⟨calls, hfed, fun hall => ?_⟩
  have hclock := hfed.lastNowMs_le hall
  rw [lastNowMs_movedWorld] at hclock
  exact absurd hclock (by decide)

/-- The same event at its own time. -/
theorem clock_is_local_datedFrame : ∃ (calls : List (FedCall 2 8 4)) (log : List (Moment 2 8 4))
    (core : GatewayCore 2 8 4), Fed (fun _ => sentEventId) (schnorrFor sentSignature) sampleConfig calls
      1720000000000 log core ∧ calls.length = 2 ∧ ∀ call ∈ calls, call.OnLocalTime := by
  obtain ⟨event, hcreated, hfeeds⟩ := exists_feeds_datedFrame
  have hstart : Fed (fun _ => sentEventId) (schnorrFor sentSignature) sampleConfig [] 0
      (World.mk sampleCore AcceptAll.mk []).log (World.mk sampleCore AcceptAll.mk []).core :=
    .start new_sampleConfig
  obtain ⟨moments₁, hticked⟩ := hstart.perform (.tick 1720000000000)
  obtain ⟨moments₂, htaken⟩ := hticked.perform hfeeds
  refine ⟨_, _, _, htaken, rfl, (clock_is_local_iff htaken).mpr ?_⟩
  simp only [List.nil_append, List.forall_mem_append, List.forall_mem_singleton]
  constructor
  · intro other hother
    cases hother
  · intro other hother
    cases hother
    rw [hcreated]
    show (1720000000 : UInt64).toNat * 1000 ≤
      (localAfter (localAfter 0 (.tick 1720000000000)) (.ingestLinkFrame datedFrame)).toNat
    decide

end GatewayCore

end Hyf
