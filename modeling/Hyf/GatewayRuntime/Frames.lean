import Hyf.Gateway.Dedupe
import Hyf.GatewayRuntime.Construction

/-!
# What becomes of the frames of a runtime

Between the core, the pair and the caller no frame is lost, duplicated or reordered (`frames_conserved`),
and every send is answered as the link answers that the router took it for (`sends_answered`). A frame that
is polled back was sent by this node, so its key was committed, and the router drops it while the duplicate
filter remembers the key (`polled_frame_is_dropped`).
-/

namespace Hyf

open ByteCodec Loopback LoggedSteps GatewayCore

namespace GatewayRuntime

variable {maxLinks maxSeen storeCapacity loopbackQueue : ℕ} {config : GatewayConfig maxLinks}
  {world : RuntimeWorld maxLinks maxSeen storeCapacity loopbackQueue} {side : LoopbackSide}

/-! ## Accepted frames -/

/-- What was accepted on a link was sent there. -/
theorem exists_moment_of_accepted {linkId : LinkId} {frame : SentFrame}
    {log : List (Moment maxLinks maxSeen storeCapacity)} (h : frame ∈ acceptedOn linkId log) :
    ∃ moment ∈ log, moment.event = .sendLinkBytes linkId frame.1 frame.2 (.ok ()) := by
  rw [acceptedOn, List.mem_map] at h
  obtain ⟨⟨linkId', frame'⟩, hmem, rfl⟩ := h
  rw [List.mem_filter, List.mem_filterMap, decide_eq_true_eq] at hmem
  obtain ⟨⟨moment, hlog, haccepted⟩, rfl⟩ := hmem
  refine ⟨moment, hlog, ?_⟩
  cases hevent : moment.event with
  | sendLinkBytes linkId bytes nowMs answer =>
    rw [hevent] at haccepted
    cases answer with
    | ok value =>
      cases haccepted
      rfl
    | error error => cases haccepted
  | _ =>
    rw [hevent] at haccepted
    cases haccepted

/-- An accepted frame is a valid envelope that fits the link and the frame buffer. -/
theorem Consistent.accepted (h : Consistent config world) {linkId : LinkId} {frame : SentFrame}
    (hframe : frame ∈ acceptedOn linkId world.gateway.log) :
    ∃ envelope, ValidEnvelope envelope ∧ frame = (wireBytes envelope, envelope.createdAtMs) ∧
      frame.1.length ≤ firstLinkMtu config ∧ frame.1.length ≤ gatewayFrameBufferLen := by
  obtain ⟨moment, hlog, hevent⟩ := exists_moment_of_accepted hframe
  have hsend : moment.event.send? = some (linkId, frame.1, frame.2, .ok ()) := by
    rw [hevent]
    rfl
  obtain ⟨-, hlen, envelope, hvalid, hbytes, htime, -⟩ :=
    h.run.sendsAdmitted moment hlog _ _ _ _ hsend
  exact ⟨envelope, hvalid, Prod.ext hbytes htime, h.fits moment hlog _ _ _ hevent, hlen⟩

/-- The runtime after the frame was received on the right side, and another message was sent there. -/
def receivedWorld : RuntimeWorld 2 8 4 4 :=
  (perform (.submit (sampleEnvelope 3 (.node ⟨fillBytes 32 7⟩) 3))
    (perform (.receiveLoopbackFrame loopbackRightId (List.replicate 256 0)) pairWorld).state).state

theorem run_receivedWorld : Run pairConfig receivedWorld :=
  (run_pairWorld.call _).call _

/-- **Every send is answered as the pair is at that moment.** After every run the links that the router
takes for up are links of the pair, and their sides are up. Everything that was sent was sent on a link that
was up for the router, and was the wire bytes of a valid envelope that had not expired. A new runtime has
sent nothing; and the sends of every call that follows, one after the other, are answered by the pair that
the driver's part of the call left: refused when the bytes are longer than the link allows, the other side
is down or its queue is full, and else accepted and put into that queue. -/
theorem sends_answered (h : Run config world) :
    (∀ linkId ∈ world.gateway.core.router.egressLinks none, ∃ side : LoopbackSide,
      linkId = side.linkId ∧ (world.gateway.executor.endpoint side).up = true) ∧
    (∀ moment ∈ world.gateway.log, ∀ linkId bytes nowMs answer,
      moment.event = .sendLinkBytes linkId bytes nowMs answer →
      linkId ∈ moment.core.router.egressLinks none ∧
      ∃ envelope, ValidEnvelope envelope ∧ bytes = wireBytes envelope ∧
        nowMs = envelope.createdAtMs ∧ moment.core.router.nowMs < envelope.expiresAtMs) ∧
    (new config = .ok world → world.gateway.log = []) ∧
    ∀ op, ∃ moments, (perform op world).state.gateway.log = world.gateway.log ++ moments ∧
      Steps (AnsweredBy (firstLinkMtu config)) (driven op world.gateway.executor) moments
        (perform op world).state.gateway.executor := by
  have hconsistent := consistent_of_run h
  refine ⟨hconsistent.agrees, ?_, fun hnew => (activated_of_new hnew).log_eq,
    fun op => (hconsistent.perform op).answered⟩
  intro moment hlog linkId bytes nowMs answer hevent
  have hsend : moment.event.send? = some (linkId, bytes, nowMs, answer) := by
    rw [hevent]
    rfl
  obtain ⟨hup, -, hadmitted⟩ := hconsistent.run.sendsAdmitted moment hlog _ _ _ _ hsend
  exact ⟨hup, hadmitted⟩

/-- The runtime after the right side went down. -/
def downWorld : RuntimeWorld 2 8 4 4 := (perform (.setLinkUp loopbackRightId false) pairWorld).state

theorem run_downWorld : Run pairConfig downWorld := run_pairWorld.call _

/-- The next message for the other node. -/
def nextSubmit : RuntimeOp := .submit (sampleEnvelope 3 (.node ⟨fillBytes 32 7⟩) 3)

/-- A message is accepted; and once the right side is down the next one is refused for that. -/
theorem pairWorld_sends_answered :
    (∃ moments, pairWorld.gateway.log = moments ∧
      Steps (AnsweredBy 256) pairStart.gateway.executor moments pairWorld.gateway.executor ∧
      (moments.filterMap fun moment => moment.event.send?) =
        [(loopbackLeftId, wireBytes (sampleEnvelope 2 (.node ⟨fillBytes 32 7⟩) 3), 1, .ok ())]) ∧
    ∃ moments, (perform nextSubmit downWorld).state.gateway.log = downWorld.gateway.log ++ moments ∧
      Steps (AnsweredBy 256) downWorld.gateway.executor moments
        (perform nextSubmit downWorld).state.gateway.executor ∧
      (moments.filterMap fun moment => moment.event.send?) =
        [(loopbackLeftId, wireBytes (sampleEnvelope 3 (.node ⟨fillBytes 32 7⟩) 3), 1,
          .error (.loopback (.down loopbackRightId)))] := by
  constructor
  · obtain ⟨moments, hlog, hsteps⟩ := (sends_answered (.start new_pairConfig)).2.2.2
      (.submit (sampleEnvelope 2 (.node ⟨fillBytes 32 7⟩) 3))
    rw [show pairStart.gateway.log = [] from rfl, List.nil_append] at hlog
    rw [pairWorld]
    refine ⟨moments, hlog, hsteps, ?_⟩
    rw [← hlog]
    decide +kernel
  · obtain ⟨moments, hlog, hsteps⟩ := (sends_answered run_downWorld).2.2.2 nextSubmit
    have hmoments : moments = (perform nextSubmit downWorld).state.gateway.log.drop
        downWorld.gateway.log.length := by rw [hlog, List.drop_left]
    refine ⟨moments, hlog, hsteps, ?_⟩
    rw [hmoments]
    decide +kernel

end GatewayRuntime

/-! ## Frames that come back -/

namespace GatewayCore

variable {maxLinks maxSeen storeCapacity : ℕ} {config : GatewayConfig maxLinks}
  {log : List (Moment maxLinks maxSeen storeCapacity)}
  {core : GatewayCore maxLinks maxSeen storeCapacity}

/-- The keys of what links have accepted are committed. -/
def SentCommitted (log : List (Moment maxLinks maxSeen storeCapacity)) : Prop :=
  ∀ moment ∈ log, ∀ linkId envelope nowMs, ValidEnvelope envelope →
    moment.event = .sendLinkBytes linkId (wireBytes envelope) nowMs (.ok ()) →
      seenKeyFor envelope ∈ commitsOf log

theorem wireBytes_injective {envelope envelope' : HyfEnvelopeRef} (hvalid : ValidEnvelope envelope)
    (hvalid' : ValidEnvelope envelope') (h : wireBytes envelope = wireBytes envelope') :
    envelope = envelope' := by
  have hdecode := decodeEnvelope_wireBytes hvalid
  rw [h, decodeEnvelope_wireBytes hvalid'] at hdecode
  exact (Except.ok.inj hdecode).symm

/-- Committing commits, unless the key is remembered anyway. -/
theorem mem_commitsOf_commitMoments (h : DedupeLog log core) (envelope : HyfEnvelopeRef)
    {core' : GatewayCore maxLinks maxSeen storeCapacity} (hrouter : core'.router = core.router) :
    seenKeyFor envelope ∈ commitsOf (log ++ core'.commitMoments envelope) := by
  rw [commitsOf_append, List.mem_append, commitMoments]
  by_cases hseen : core'.router.hasSeen (seenKeyFor envelope) = true
  · rw [hrouter, h.now.hasSeen_iff] at hseen
    exact .inl (List.mem_of_mem_drop hseen)
  · rw [if_neg hseen]
    exact .inr (List.mem_singleton_self _)

theorem CommandStep.sentCommitted
    {answers : LinkId → List UInt8 → TimestampMs → Except GatewayError Unit → Prop}
    {core' : GatewayCore maxLinks maxSeen storeCapacity} {command : RouterCommand}
    {moments : List (Moment maxLinks maxSeen storeCapacity)} {outcome : Except GatewayError Unit}
    (h : CommandStep answers core command moments outcome core') (hlog : DedupeLog log core)
    {moment : Moment maxLinks maxSeen storeCapacity} (hmem : moment ∈ moments) {linkId : LinkId}
    {envelope : HyfEnvelopeRef} {nowMs : TimestampMs} (hvalid : ValidEnvelope envelope)
    (hevent : moment.event = .sendLinkBytes linkId (wireBytes envelope) nowMs (.ok ())) :
    seenKeyFor envelope ∈ commitsOf (log ++ moments) := by
  have hcommit : ∀ {core envelope}, moment ∈ commitMoments core envelope → False := by
    intro core envelope hmem
    rw [eq_of_mem_commitMoments hmem] at hevent
    cases hevent
  cases h with
  | sendRefused valid fits answer metrics =>
    rw [List.mem_singleton] at hmem
    rw [hmem, GatewayEvent.sendLinkBytes.injEq] at hevent
    cases hevent.2.2.2
  | @sent _ sent valid fits answer metrics =>
    obtain rfl | hmem := List.mem_cons.mp hmem
    · rw [GatewayEvent.sendLinkBytes.injEq] at hevent
      obtain rfl := wireBytes_injective valid hvalid hevent.2.1
      have hkey := @mem_commitsOf_commitMoments _ _ _ _ _ hlog sent { core with metrics } rfl
      rw [commitsOf_append] at hkey ⊢
      exact hkey
    · exact (hcommit hmem).elim
  | put allowed accepted metrics => exact (hcommit hmem).elim
  | deliverLocal delivered metrics => exact (hcommit hmem).elim
  | _ => cases hmem

theorem Run.sentCommitted (h : Run config log core) : SentCommitted log := by
  refine (h.invariant (I := fun log core => DedupeLog log core ∧ SentCommitted log) ?_ ?_).2.2
  · intro core hnew
    exact ⟨dedupeLog_of_run (.start hnew), by simp [SentCommitted]⟩
  intro log core moments core' _ hI hstep
  obtain ⟨hlog, hcommitted⟩ := hI
  refine ⟨hlog.step hstep, fun moment hmem linkId envelope nowMs hvalid hevent => ?_⟩
  have hquiet : ∀ event core, event.send? = none →
      moment ∉ [(⟨event, core⟩ : Moment maxLinks maxSeen storeCapacity)] := by
    intro event core hnone hmem
    rw [List.mem_singleton] at hmem
    rw [hmem] at hevent
    change event = _ at hevent
    rw [hevent] at hnone
    cases hnone
  obtain hmem | hmem := List.mem_append.mp hmem
  · rw [commitsOf_append]
    exact List.mem_append_left _ (hcommitted moment hmem linkId envelope nowMs hvalid hevent)
  cases hstep with
  | metrics metrics => cases hmem
  | link set => cases hmem
  | expire => cases hmem
  | observe later => exact absurd hmem (hquiet _ _ rfl)
  | kept messageId executions => exact absurd hmem (hquiet _ _ rfl)
  | released releases removed => exact absurd hmem (hquiet _ _ rfl)
  | command admits step =>
    obtain hmem | hmem := List.mem_append.mp hmem
    · rw [← List.append_assoc, commitsOf_append]
      exact List.mem_append_left _ (step.sentCommitted hlog hmem hvalid hevent)
    · exact absurd hmem (hquiet _ _ rfl)

/-- The only way to route a frame whose message is to be dropped. -/
theorem Routes.of_drop
    {answers : LinkId → List UInt8 → TimestampMs → Except GatewayError Unit → Prop}
    {core' : GatewayCore maxLinks maxSeen storeCapacity} {frame : LinkFrameRef}
    {moments : List (Moment maxLinks maxSeen storeCapacity)} {outcome : Except GatewayError Unit}
    (h : Routes answers core (.link (.frame frame)) moments outcome core') {messageId : MessageId}
    {reason : DropReason}
    (hplan : core.router.planEvent (.link (.frame frame)) = .ok [.drop messageId reason]) :
    outcome = .ok () ∧ ∃ metrics, core' = { core with metrics } ∧
      moments = [⟨.executed (.drop messageId reason) (.ok ()), core'⟩] := by
  cases h with
  | refused plan =>
    rw [hplan] at plan
    cases plan
  | crowded plan_eq crowded =>
    rw [hplan] at plan_eq
    cases plan_eq
    exact absurd crowded (by simp [routerCommandCapacity])
  | executed plan_eq executes =>
    rw [hplan] at plan_eq
    cases plan_eq
    cases executes with
    | cons head tail =>
      cases tail
      cases head with
      | drop messageId reason metrics => exact ⟨rfl, metrics, rfl, rfl⟩

end GatewayCore

namespace GatewayRuntime

variable {maxLinks maxSeen storeCapacity loopbackQueue : ℕ} {config : GatewayConfig maxLinks}
  {world : RuntimeWorld maxLinks maxSeen storeCapacity loopbackQueue} {side : LoopbackSide}

/-- Why a message is dropped whose key is remembered. -/
def dropReason (router : Router maxLinks maxSeen) (envelope : HyfEnvelopeRef) : DropReason :=
  if envelope.expiresAtMs ≤ router.nowMs then .expired else .duplicate

/-- A call that took a frame in, dropped its message and flushed the store. -/
def DropsOnly (world world' : RuntimeWorld maxLinks maxSeen storeCapacity loopbackQueue)
    (frame : LinkFrameRef) (envelope : HyfEnvelopeRef) (outcome : Except GatewayError Unit) : Prop :=
  ∃ dropped flushed,
    (∃ metrics, dropped = { world.gateway.core.arrived frame with metrics }) ∧
    Flushes (Answers (LoopbackPair loopbackQueue)) dropped.expired flushed outcome
      world'.gateway.core ∧
    world'.gateway.log = world.gateway.log ++ world.gateway.core.arrivedMoments frame ++
      ⟨.executed (.drop envelope.messageId
        (dropReason (world.gateway.core.arrived frame).router envelope)) (.ok ()), dropped⟩ :: flushed

theorem planEvent_of_seen {router : Router maxLinks maxSeen} {envelope : HyfEnvelopeRef}
    (hvalid : ValidEnvelope envelope) (hseen : router.hasSeen (seenKeyFor envelope) = true)
    (linkId : LinkId) (nowMs : TimestampMs) :
    router.planEvent (.link (.frame ⟨linkId, nowMs, wireBytes envelope⟩)) =
      .ok [.drop envelope.messageId (dropReason router envelope)] := by
  simp only [Router.planEvent, decodeEnvelope_wireBytes hvalid]
  rw [Router.planFor_of_valid hvalid, Router.planEnvelope, dropReason]
  split_ifs
  · rfl
  · rfl

/-- **A frame of this node is dropped when it is polled back.** The frame that a poll takes first is the
wire bytes of a valid envelope whose key was committed in this run. While the filter remembers the key, the
poll drops the message: it is neither delivered nor stored nor sent on, and what else the poll does is the
flush of the store. -/
theorem polled_frame_is_dropped (h : Run config world) {bytes : List UInt8} {nowMs : TimestampMs}
    {rest : List SentFrame}
    (hframes : (world.gateway.executor.endpoint side).Holds ((bytes, nowMs) :: rest))
    {output : List UInt8} (hroom : bytes.length ≤ output.length) :
    ∃ envelope, ValidEnvelope envelope ∧ bytes = wireBytes envelope ∧
      seenKeyFor envelope ∈ commitsOf world.gateway.log ∧
      (seenKeyFor envelope ∈ (commitsOf world.gateway.log).rtake maxSeen →
        ∃ outcome, DropsOnly world (pollLoopback side.linkId output world).state
          ⟨side.linkId, nowMs, bytes⟩ envelope outcome) := by
  have hconsistent := consistent_of_run h
  -- the frame was accepted on the link of the other side
  obtain ⟨events, hcarries, hevents⟩ := hconsistent.accounts
  obtain ⟨frames, hframes', hqueue⟩ := hcarries.queue side
  obtain rfl := hframes.unique hframes'
  rw [(hevents side.peer).1, (hevents side).2] at hqueue
  have hmem : (bytes, nowMs) ∈ acceptedOn side.peer.linkId world.gateway.log := by
    rw [hqueue]
    exact List.mem_append_right _ List.mem_cons_self
  obtain ⟨envelope, hvalid, hframe, -⟩ := hconsistent.accepted hmem
  obtain ⟨moment, hlog, hevent⟩ := exists_moment_of_accepted hmem
  obtain ⟨rfl, rfl⟩ := Prod.mk.inj hframe
  have hcommitted := hconsistent.run.sentCommitted moment hlog _ envelope _ hvalid hevent
  refine ⟨envelope, hvalid, rfl, hcommitted, fun hrecent => ?_⟩
  obtain ⟨hshort, -⟩ | ⟨-, world₁, hreceive, hcore, hlog₁, -⟩ :=
    receiveLoopbackFrame_of_cons hconsistent hframes output
  · omega
  have hseen : (world.gateway.core.arrived ⟨side.linkId, envelope.createdAtMs,
      wireBytes envelope⟩).router.hasSeen (seenKeyFor envelope) = true := by
    rw [Router.hasSeen_iff, arrived_seen, ← Router.hasSeen_iff]
    exact (dedupeLog_of_run hconsistent.run).now.hasSeen_iff.mpr hrecent
  obtain ⟨moments, core', executor', hcall, hstate⟩ := run_ingestLinkFrame
    ⟨side.linkId, envelope.createdAtMs, wireBytes envelope⟩ hconsistent.run.wellFormed
    world₁.gateway.executor world₁.gateway.log
  have hpoll : (pollLoopback side.linkId output world).state.gateway =
      ⟨core', executor', world.gateway.log ++ world.gateway.core.arrivedMoments
        ⟨side.linkId, envelope.createdAtMs, wireBytes envelope⟩ ++ moments⟩ := by
    rw [pollLoopback, run_bind_of_ok hreceive, ← hlog₁, ← hstate, ← hcore]
    show (((ingestLinkFrame _ >>= fun _ => pure true) world₁).state).gateway = _
    rw [state_bind_pure, ingestLinkFrame, state_onCore]
  have hplan := planEvent_of_seen hvalid hseen side.linkId envelope.createdAtMs
  generalize EStateM.Result.outcome _ = outcome at hcall
  refine ⟨outcome, ?_⟩
  cases hcall with
  | refused routes =>
    obtain ⟨hok, -⟩ := routes.of_drop hplan
    cases hok
  | @flushed _ flushed _ dropped _ routes flushes =>
    obtain ⟨-, metrics, hdropped, rfl⟩ := routes.of_drop hplan
    refine ⟨dropped, flushed, ⟨metrics, hdropped⟩, ?_, ?_⟩
    · rw [hpoll]
      exact flushes
    · rw [hpoll]
      rfl

/-- The small runtime polls its own message. -/
theorem pairWorld_drops_polled_frame : ∃ bytes nowMs rest,
    (pairWorld.gateway.executor.endpoint .right).Holds ((bytes, nowMs) :: rest) ∧
    ∃ envelope, ValidEnvelope envelope ∧ bytes = wireBytes envelope ∧
      seenKeyFor envelope ∈ commitsOf pairWorld.gateway.log := by
  obtain ⟨events, hcarries, -⟩ := (consistent_of_run run_pairWorld).accounts
  obtain ⟨frames, hframes, -⟩ := hcarries.queue .right
  have hlen : (pairWorld.gateway.executor.endpoint .right).queuedLen = 1 := by decide +kernel
  rw [hframes.queuedLen_eq, List.length_eq_one_iff] at hlen
  obtain ⟨⟨bytes, nowMs⟩, rfl⟩ := hlen
  have hroom : bytes.length ≤ (List.replicate bytes.length (0 : UInt8)).length :=
    List.length_replicate.ge
  obtain ⟨envelope, hvalid, hbytes, hcommitted, -⟩ :=
    polled_frame_is_dropped run_pairWorld hframes hroom
  exact ⟨bytes, nowMs, [], hframes, envelope, hvalid, hbytes, hcommitted⟩

end GatewayRuntime

end Hyf
