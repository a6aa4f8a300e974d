import Hyf.Gateway.FlushTurns
import Hyf.Gateway.Submit

/-!
# Frames that go back where they came from

The router never forwards a message on the link it came in on. The store does not know that link:
when a message has no other way to leave, it is stored and flushed in the same call, and the flush
sends it on any link that is up. `no_echo_iff` says exactly when that happens.
-/

namespace Hyf

namespace GatewayCore

variable {maxLinks maxSeen storeCapacity : ℕ} {E : Type}
  {answers : LinkId → List UInt8 → TimestampMs → Except GatewayError Unit → Prop}

/-! ## Link ids -/

/-- The link table of a reachable core has no id twice. -/
theorem Reachable.nodup_linkIds {core : GatewayCore maxLinks maxSeen storeCapacity}
    (h : Reachable core) : core.router.linkIds.Nodup := by
  obtain ⟨config, log, hrun⟩ := h
  refine (hrun.invariant (I := fun _ core => core.router.linkIds.Nodup) ?_ ?_).2
  · intro core hnew
    obtain ⟨-, -, -, -, rfl⟩ := new_eq_ok hnew
    simp [Router.linkIds, Router.new]
  · intro log core moments core' _ hnodup hstep
    cases hstep with
    | link set => exact Router.nodup_linkIds_setLinkState set hnodup
    | command admits step =>
      rw [Router.linkIds, step.frame.links]
      exact hnodup
    | _ => exact hnodup

/-! ## Ingesting a frame -/

/-- The core when a frame is routed: the frame was counted and its time observed. -/
def arrived (core : GatewayCore maxLinks maxSeen storeCapacity) (frame : LinkFrameRef) :
    GatewayCore maxLinks maxSeen storeCapacity :=
  if frame.receivedAtMs ≤ core.lastNowMs then
    { core with metrics := core.metrics.addReceived }
  else { core with metrics := core.metrics.addReceived }.observed frame.receivedAtMs

/-- What observing the time of a frame logs. -/
def arrivedMoments (core : GatewayCore maxLinks maxSeen storeCapacity) (frame : LinkFrameRef) :
    List (Moment maxLinks maxSeen storeCapacity) :=
  if frame.receivedAtMs ≤ core.lastNowMs then []
  else [⟨.executed (.store (.expireBefore frame.receivedAtMs)) (.ok ()), core.arrived frame⟩]

/-- The moments of an arrival lead from the core to the arrived one. -/
theorem arrived_steps (core : GatewayCore maxLinks maxSeen storeCapacity) (frame : LinkFrameRef) :
    LoggedSteps.Steps CoreStep core (core.arrivedMoments frame) (core.arrived frame) := by
  have hcount := LoggedSteps.Steps.single (CoreStep.metrics core core.metrics.addReceived)
  unfold arrivedMoments arrived
  split_ifs with hle
  · exact hcount
  · exact hcount.tail (.observe (UInt64.not_le.mp hle))

/-- `ingest_link_frame` lets the frame arrive, and then routes and flushes. -/
theorem run_ingestLinkFrame [GatewayLinkExecutor E] (frame : LinkFrameRef)
    {core : GatewayCore maxLinks maxSeen storeCapacity} (hstore : core.store.WellFormed)
    (executor : E) (log : List (Moment maxLinks maxSeen storeCapacity)) :
    ∃ moments core' executor',
      RoutesThenFlushes (Answers E) (core.arrived frame) (.link (.frame frame)) moments
        ((ingestLinkFrame frame).run ⟨core, executor, log⟩).outcome core' ∧
      ((ingestLinkFrame frame).run ⟨core, executor, log⟩).state =
        ⟨core', executor', log ++ core.arrivedMoments frame ++ moments⟩ := by
  have hevent : ∀ now, RouterEvent.link (.frame frame) ≠ .tick now := by simp
  have hrun : (ingestLinkFrame frame).run ⟨core, executor, log⟩ =
      (do routeEvent (.link (.frame frame)); flushStore :
        GatewayM maxLinks maxSeen storeCapacity E Unit).run
          ⟨core.arrived frame, executor, log ++ core.arrivedMoments frame⟩ := by
    simp only [ingestLinkFrame, EStateM.run_bind, run_modifyMetrics, run_observeTime, arrived,
      arrivedMoments]
    split_ifs
    · rw [List.append_nil]
    · rfl
  obtain ⟨moments, outcome, core', executor', hcall, houtcome, hstate⟩ :=
    run_routeThenFlush hevent ⟨core.arrived frame, executor, log ++ core.arrivedMoments frame⟩
      (wellFormed_steps (core.arrived_steps frame) hstore)
  rw [hrun]
  exact ⟨moments, core', executor', houtcome ▸ hcall, hstate⟩

/-- An arrival changes no link. -/
@[simp] theorem arrived_links (core : GatewayCore maxLinks maxSeen storeCapacity)
    (frame : LinkFrameRef) : (core.arrived frame).router.links = core.router.links := by
  unfold arrived
  split_ifs <;> rfl

/-- An arrival changes no policy. -/
@[simp] theorem arrived_policy (core : GatewayCore maxLinks maxSeen storeCapacity)
    (frame : LinkFrameRef) : (core.arrived frame).router.policy = core.router.policy := by
  unfold arrived
  split_ifs <;> rfl

/-- An arrival marks nothing as seen. -/
@[simp] theorem arrived_seen (core : GatewayCore maxLinks maxSeen storeCapacity)
    (frame : LinkFrameRef) : (core.arrived frame).router.seen = core.router.seen := by
  unfold arrived
  split_ifs <;> rfl

/-- An arrival does not change the configuration. -/
@[simp] theorem arrived_config (core : GatewayCore maxLinks maxSeen storeCapacity)
    (frame : LinkFrameRef) : (core.arrived frame).config = core.config := by
  unfold arrived
  split_ifs <;> rfl

/-- An arrival may expire records, and adds none. -/
theorem arrived_live_sublist (core : GatewayCore maxLinks maxSeen storeCapacity)
    (frame : LinkFrameRef) : (core.arrived frame).store.live.Sublist core.store.live := by
  unfold arrived
  split_ifs
  · exact List.Sublist.refl _
  · exact Store.expireBefore_sublist _ _

/-- The time of a frame is the later of the clock and the time it was received at. -/
theorem arrived_nowMs_lt {core : GatewayCore maxLinks maxSeen storeCapacity} (h : core.Timely)
    (frame : LinkFrameRef) (expiresAtMs : TimestampMs) :
    (core.arrived frame).router.nowMs < expiresAtMs ↔
      core.lastNowMs < expiresAtMs ∧ frame.receivedAtMs < expiresAtMs := by
  unfold arrived
  split_ifs with hle
  · change core.router.nowMs < expiresAtMs ↔ _
    rw [h.clocks]
    exact ⟨fun hlt => ⟨hlt, UInt64.lt_of_le_of_lt hle hlt⟩, fun hlt => hlt.1⟩
  · change frame.receivedAtMs < expiresAtMs ↔ _
    exact ⟨fun hlt => ⟨UInt64.lt_trans (UInt64.not_le.mp hle) hlt, hlt⟩, fun hlt => hlt.2⟩

/-- The clocks agree after an arrival if they agreed before. -/
theorem arrived_clocks {core : GatewayCore maxLinks maxSeen storeCapacity}
    (h : core.router.nowMs = core.lastNowMs) (frame : LinkFrameRef) :
    (core.arrived frame).router.nowMs = (core.arrived frame).lastNowMs := by
  unfold arrived
  split_ifs
  · exact h
  · rfl

/-- There is room after the expiry exactly when there was, or something has expired. -/
theorem arrived_len_lt {core : GatewayCore maxLinks maxSeen storeCapacity} (h : core.Timely)
    (frame : LinkFrameRef) : (core.arrived frame).store.len < storeCapacity ↔
      core.storedLen < storeCapacity ∨
        ∃ record ∈ core.store.live, record.expiresAtMs ≤ frame.receivedAtMs := by
  -- a frame from the past does not move the clock, and nothing expires
  by_cases hle : frame.receivedAtMs ≤ core.lastNowMs
  · have hnone : ¬∃ record ∈ core.store.live, record.expiresAtMs ≤ frame.receivedAtMs := by
      rintro ⟨record, hmem, hexpired⟩
      exact UInt64.not_le.mpr (h.unexpired record hmem) (UInt64.le_trans hexpired hle)
    rw [arrived, if_pos hle, or_iff_left hnone]
    rfl
  · have hlen : (core.arrived frame).store.len =
        (core.store.live.filter fun record =>
          !decide (record.expiresAtMs ≤ frame.receivedAtMs)).length := by
      rw [arrived, if_neg hle]
      exact congrArg List.length (Store.live_expireBefore _ _)
    have hle' : core.storedLen ≤ storeCapacity := SlotArray.length_live_le _
    have hlt := List.length_filter_lt_length_iff_exists (l := core.store.live)
      (p := fun record => !decide (record.expiresAtMs ≤ frame.receivedAtMs))
    have hfilter := List.length_filter_le
      (fun record : StoreRecord => !decide (record.expiresAtMs ≤ frame.receivedAtMs))
      core.store.live
    change core.store.live.length ≤ storeCapacity at hle'
    change _ ↔ core.store.live.length < storeCapacity ∨ _
    rw [hlen]
    constructor
    · intro hroom
      by_cases hfull : core.store.live.length < storeCapacity
      · exact .inl hfull
      · obtain ⟨record, hmem, hexpired⟩ := hlt.mp (by omega)
        exact .inr ⟨record, hmem, by simpa using hexpired⟩
    · rintro (hroom | ⟨record, hmem, hexpired⟩)
      · omega
      · have := hlt.mpr ⟨record, hmem, by simpa using hexpired⟩
        omega

/-! ## Where frames come from -/

/-- Every frame handed to a link is the encoding of an envelope in a send that was executed. -/
theorem Executes.sends {core core' : GatewayCore maxLinks maxSeen storeCapacity}
    {commands : List RouterCommand} {moments : List (Moment maxLinks maxSeen storeCapacity)}
    {executions : List (RouterCommand × Except GatewayError Unit)}
    (h : Executes answers core commands moments executions core')
    {moment : Moment maxLinks maxSeen storeCapacity} (hmem : moment ∈ moments) {linkId : LinkId}
    {bytes : List UInt8} {nowMs : TimestampMs} {answer : Except GatewayError Unit}
    (hevent : moment.event = .sendLinkBytes linkId bytes nowMs answer) :
    ∃ envelope, .send linkId envelope ∈ commands ∧ bytes = wireBytes envelope := by
  induction h with
  | nil => cases hmem
  | cons head tail ih =>
    rcases List.mem_append.mp hmem with hmem | hmem
    · obtain ⟨-, envelope, rfl, hbytes⟩ := head.sends hmem hevent
      exact ⟨envelope, List.mem_cons_self, hbytes⟩
    rcases List.mem_cons.mp hmem with rfl | hmem
    · cases hevent
    · obtain ⟨envelope, hcommand, hbytes⟩ := ih hmem
      exact ⟨envelope, List.mem_cons_of_mem _ hcommand, hbytes⟩

/-- A frame handed to a link by a flush is the encoding of a stored message. -/
theorem Flushes.sends {core core' : GatewayCore maxLinks maxSeen storeCapacity}
    {moments : List (Moment maxLinks maxSeen storeCapacity)} {outcome : Except GatewayError Unit}
    (h : Flushes answers core moments outcome core')
    {moment : Moment maxLinks maxSeen storeCapacity} (hmem : moment ∈ moments) {linkId : LinkId}
    {bytes : List UInt8} {nowMs : TimestampMs} {answer : Except GatewayError Unit}
    (hevent : moment.event = .sendLinkBytes linkId bytes nowMs answer) :
    linkId ∈ core.router.egressLinks none ∧ ∃ stored, ValidEnvelope stored ∧
      recordOf stored ∈ core.store.live ∧ bytes = wireBytes stored := by
  -- one turn sends what its plan says, and the plan is about the record
  have hturn : ∀ {core core' : GatewayCore maxLinks maxSeen storeCapacity}
      {moments : List (Moment maxLinks maxSeen storeCapacity)} {outcome : Except GatewayError Bool},
      Iteration answers core moments outcome core' → moment ∈ moments →
      linkId ∈ core.router.egressLinks none ∧ ∃ stored, ValidEnvelope stored ∧
        recordOf stored ∈ core.store.live ∧ bytes = wireBytes stored := by
    intro core core' moments outcome hturn hmem
    have hplan : ∀ {envelope moments' executions core''}, ValidEnvelope envelope →
        core.store.firstPending = some (recordOf envelope) →
        Executes answers core (core.router.planStored envelope) moments' executions core'' →
        moment ∈ moments' ++ [⟨.flushed envelope.messageId executions, core''⟩] →
        linkId ∈ core.router.egressLinks none ∧ ∃ stored, ValidEnvelope stored ∧
          recordOf stored ∈ core.store.live ∧ bytes = wireBytes stored := by
      intro envelope moments' executions core'' hvalid hpending hexecutes hmem
      rcases List.mem_append.mp hmem with hmem | hlast
      · obtain ⟨sent, hcommand, rfl⟩ := hexecutes.sends hmem hevent
        cases Router.planned_of_mem_planStored hcommand with
        | send linkId egress unexpired hops =>
          exact ⟨egress, envelope, hvalid, Store.firstPending_mem hpending, rfl⟩
      · rw [List.mem_singleton] at hlast
        rw [hlast] at hevent
        cases hevent
    cases hturn with
    | empty none_pending => cases hmem
    | crowded valid pending crowded => cases hmem
    | idle valid pending idle => cases hmem
    | kept valid pending executes verdict => exact hplan valid pending executes hmem
    | released valid pending nonempty executes verdict removed =>
      exact hplan valid pending executes hmem
  induction h with
  | stop last => exact hturn last hmem
  | fail last => exact hturn last hmem
  | next turn rest ih =>
    rcases List.mem_append.mp hmem with hmem | hmem
    · exact hturn turn hmem
    · obtain ⟨hlink, stored, hvalid, hlive, hbytes⟩ := ih hmem
      rw [turn.frame.egressLinks] at hlink
      exact ⟨hlink, stored, hvalid, turn.live_sublist.subset hlive, hbytes⟩

/-! ## Echoes -/

/-- A frame with a message of this id was handed to the link. -/
def Echoes (log : List (Moment maxLinks maxSeen storeCapacity)) (linkId : LinkId)
    (messageId : MessageId) : Prop :=
  ∃ moment ∈ log, ∃ bytes nowMs answer envelope,
    moment.event = .sendLinkBytes linkId bytes nowMs answer ∧
      decodeEnvelope bytes = .ok envelope ∧ envelope.messageId = messageId

/-- The way back: a message that has to leave and has hops and time left, whose ingress is the only
link that is up, and which the store accepts. -/
structure StoresForIngress (core : GatewayCore maxLinks maxSeen storeCapacity)
    (frame : LinkFrameRef) (envelope : HyfEnvelopeRef) : Prop where
  unicast : ∀ communityId, envelope.destination ≠ .community communityId
  remote : core.router.isLocalDestination envelope.destination = false
  unexpired : core.lastNowMs < envelope.expiresAtMs ∧ frame.receivedAtMs < envelope.expiresAtMs
  hops : 2 ≤ envelope.hopLimit
  up : ⟨frame.linkId, true⟩ ∈ core.router.links.live
  only : ∀ link ∈ core.router.links.live, link.linkId ≠ frame.linkId → link.up = false
  allowed : core.config.policy.allowStoreAndForward = true
  fits : (wireBytes envelope).length ≤ gatewayFrameBufferLen
  room : core.storedLen < storeCapacity ∨
    ∃ record ∈ core.store.live, record.expiresAtMs ≤ frame.receivedAtMs

/-- A message from a link is stored only when it is for a single other node. -/
theorem planEnvelope_of_put {router : Router maxLinks maxSeen} {envelope stored : HyfEnvelopeRef}
    {linkId : LinkId} (h : .store (.put stored) ∈ router.planEnvelope envelope (some linkId)) :
    router.planEnvelope envelope (some linkId) =
        [.store (.put (Router.outboundFor envelope (some linkId)))] ∧
      (∀ communityId, envelope.destination ≠ .community communityId) ∧
      router.isLocalDestination envelope.destination = false := by
  have hplanned := Router.planned_of_mem_planEnvelope h
  generalize hput : RouterCommand.store (.put stored) = command at h hplanned
  cases hplanned with
  | drop reason => cases hput
  | deliverLocal fresh => cases hput
  | send linkId egress unexpired fresh hops => cases hput
  | put offline unexpired fresh hops =>
    have hunicast : ∀ communityId, envelope.destination ≠ .community communityId := by
      intro communityId hdestination
      rw [Router.planEnvelope_of_community hdestination unexpired fresh, Router.planCommunity] at h
      split_ifs at h with hhop hnone hingress
      · simp at h
      · cases hingress
      · simp at h
      · rcases Router.mem_fanOut h with ⟨hlocal, -⟩ | ⟨_, -, hsend⟩
        · cases hlocal
        · cases hsend
    rw [Router.planEnvelope_of_unicast hunicast unexpired fresh, Router.planUnicast] at h ⊢
    split_ifs at h ⊢ with hlocal
    · simp at h
    · rw [Router.envelopeForNextHop_eq, Router.exhausts_some_eq_false_iff.mpr hops.two_le, offline]
      exact ⟨rfl, hunicast, by simpa using hlocal⟩

/-- Routing a frame hands it to other links only. -/
theorem Routes.sends_frame {core core' : GatewayCore maxLinks maxSeen storeCapacity}
    {frame : LinkFrameRef} {envelope : HyfEnvelopeRef}
    {moments : List (Moment maxLinks maxSeen storeCapacity)} {outcome : Except GatewayError Unit}
    (h : Routes answers core (.link (.frame frame)) moments outcome core')
    (hdecode : decodeEnvelope frame.bytes = .ok envelope)
    {moment : Moment maxLinks maxSeen storeCapacity} (hmem : moment ∈ moments) {linkId : LinkId}
    {bytes : List UInt8} {nowMs : TimestampMs} {answer : Except GatewayError Unit}
    (hevent : moment.event = .sendLinkBytes linkId bytes nowMs answer) :
    linkId ≠ frame.linkId := by
  cases h with
  | refused plan => cases hmem
  | crowded plan_eq crowded => cases hmem
  | executed plan_eq executes =>
    obtain ⟨sent, hcommand, -⟩ := executes.sends hmem hevent
    simp only [Router.planEvent, hdecode] at plan_eq
    rw [Router.planFor_of_valid (validEnvelope_of_decodeEnvelope hdecode),
      Except.ok.injEq] at plan_eq
    rw [← plan_eq] at hcommand
    cases Router.planned_of_mem_planEnvelope hcommand with
    | send linkId egress unexpired fresh hops =>
      rintro rfl
      exact (Router.mem_egressLinks.mp egress).2 rfl

/-- Routing a frame adds a record only by storing its message. -/
theorem Routes.put_frame {core core' : GatewayCore maxLinks maxSeen storeCapacity}
    {frame : LinkFrameRef} {envelope : HyfEnvelopeRef}
    {moments : List (Moment maxLinks maxSeen storeCapacity)} {outcome : Except GatewayError Unit}
    (h : Routes answers core (.link (.frame frame)) moments outcome core')
    (hdecode : decodeEnvelope frame.bytes = .ok envelope) {record : StoreRecord}
    (hnew : record ∈ core'.store.live) (hold : record ∉ core.store.live) :
    core.router.planEnvelope envelope (some frame.linkId) =
        [.store (.put (Router.outboundFor envelope (some frame.linkId)))] ∧
      core.config.policy.allowStoreAndForward = true ∧ ∃ store,
        core.store.putEnvelope (Router.outboundFor envelope (some frame.linkId)) = .ok store := by
  have hplan : core.router.planEvent (.link (.frame frame)) =
      .ok (core.router.planEnvelope envelope (some frame.linkId)) := by
    simp only [Router.planEvent, hdecode]
    exact Router.planFor_of_valid (validEnvelope_of_decodeEnvelope hdecode) _
  by_cases hput : ∃ stored, .store (.put stored) ∈
      core.router.planEnvelope envelope (some frame.linkId)
  · obtain ⟨stored, hmem⟩ := hput
    have hsingle := (planEnvelope_of_put hmem).1
    rw [hsingle] at hplan
    obtain ⟨moments', hstep⟩ := h.of_singleton hplan
    cases hstep with
    | putRefused allowed refused => exact absurd hnew hold
    | putDisabled disabled metrics => exact absurd hnew hold
    | put allowed accepted metrics => exact ⟨hsingle, allowed, _, accepted⟩
  · -- without a put the store stays as it is
    refine absurd ?_ hold
    cases h with
    | refused plan => exact hnew
    | crowded plan_eq crowded => exact hnew
    | executed plan_eq executes =>
      rw [hplan, Except.ok.injEq] at plan_eq
      have hsame := executes.store_eq (by
        rintro command hmem inner rfl
        rw [← plan_eq] at hmem
        cases Router.planned_of_mem_planEnvelope hmem with
        | put offline unexpired fresh hops => exact hput ⟨_, hmem⟩)
      rw [hsame] at hnew
      exact hnew

/-- One hop less changes no length. -/
theorem length_wireBytes_outboundFor (envelope : HyfEnvelopeRef) (ingress : Option LinkId) :
    (wireBytes (Router.outboundFor envelope ingress)).length = (wireBytes envelope).length := by
  rw [length_wireBytes, length_wireBytes]
  cases ingress <;> rfl

/-- An echo means that the message took the way back. -/
theorem storesForIngress_of_echoes [GatewayLinkExecutor E]
    {core : GatewayCore maxLinks maxSeen storeCapacity} {executor : E} {frame : LinkFrameRef}
    {envelope : HyfEnvelopeRef} (hreachable : Reachable core)
    (hdecode : decodeEnvelope frame.bytes = .ok envelope)
    (habsent : core.store.contains envelope.messageId = false)
    (h : Echoes ((ingestLinkFrame frame).run ⟨core, executor, []⟩).state.log frame.linkId
      envelope.messageId) : core.StoresForIngress frame envelope := by
  obtain ⟨moments, core', executor', hcall, hstate⟩ :=
    run_ingestLinkFrame frame hreachable.wellFormed executor []
  rw [hstate, List.nil_append] at h
  obtain ⟨moment, hmem, bytes, nowMs, answer, sent, hevent, hsent, hid⟩ := h
  have hmem : moment ∈ moments := by
    rcases List.mem_append.mp hmem with harrived | hmem
    · unfold arrivedMoments at harrived
      split_ifs at harrived
      · cases harrived
      · rw [List.mem_singleton] at harrived
        rw [harrived] at hevent
        cases hevent
    · exact hmem
  generalize ((ingestLinkFrame frame).run ⟨core, executor, []⟩).outcome = outcome at hcall
  cases hcall with
  | refused routes => exact absurd rfl (routes.sends_frame hdecode hmem hevent)
  | @flushed _ _ _ core₁ _ routes flushes =>
    rcases List.mem_append.mp hmem with hmem | hmem
    · exact absurd rfl (routes.sends_frame hdecode hmem hevent)
    obtain ⟨hup, stored, hvalid, hlive, rfl⟩ := flushes.sends hmem hevent
    rw [decodeEnvelope_wireBytes hvalid, Except.ok.injEq] at hsent
    subst hsent
    -- the record was not there before, so it is the message itself
    have hnew : recordOf stored ∈ core₁.store.live :=
      (Store.expireBefore_sublist _ _).subset hlive
    have hold : recordOf stored ∉ (core.arrived frame).store.live := by
      intro hmem
      exact Store.contains_eq_false_iff.mp habsent _
        ((core.arrived_live_sublist frame).subset hmem) hid
    obtain ⟨hplan, hallowed, store, hput⟩ := routes.put_frame hdecode hnew hold
    have hmemput : .store (.put (Router.outboundFor envelope (some frame.linkId))) ∈
        (core.arrived frame).router.planEnvelope envelope (some frame.linkId) := by
      rw [hplan]
      exact List.mem_singleton_self _
    obtain ⟨-, hunicast, hremote⟩ := planEnvelope_of_put hmemput
    have heffect := Store.putEnvelope_eq_ok hput
    generalize hcommand : RouterCommand.store
      (.put (Router.outboundFor envelope (some frame.linkId))) = command at hmemput
    cases Router.planned_of_mem_planEnvelope hmemput with
    | drop reason => cases hcommand
    | deliverLocal fresh => cases hcommand
    | send linkId egress unexpired fresh hops => cases hcommand
    | put offline unexpired fresh hops =>
      exact {
        unicast := hunicast
        remote := by simpa [Router.isLocalDestination] using hremote
        unexpired := (arrived_nowMs_lt hreachable.timely frame _).mp unexpired
        hops := hops.two_le
        up := by
          have hlinks : core₁.router.links = (core.arrived frame).router.links :=
            (routes.frame rfl).links
          rw [arrived_links] at hlinks
          rw [← hlinks]
          exact Router.mem_egressLinks_none.mp hup
        only := by
          intro link hlink hne
          rw [← arrived_links core frame] at hlink
          exact Router.up_eq_false_of_egressLinks_eq_nil offline hlink (by simpa using hne)
        allowed := by rwa [arrived_config] at hallowed
        fits := by
          rw [← length_wireBytes_outboundFor envelope (some frame.linkId)]
          exact heffect.fits
        room := by
          rw [← arrived_len_lt hreachable.timely]
          have hlen := heffect.len_eq
          have hle : store.len ≤ storeCapacity := SlotArray.length_live_le _
          omega }

/-! ## An executor that accepts everything -/

/-- Nothing is refused. -/
def Accepting (answers : LinkId → List UInt8 → TimestampMs → Except GatewayError Unit → Prop) :
    Prop :=
  ∀ linkId bytes nowMs answer, answers linkId bytes nowMs answer → answer = .ok ()

/-- The executor that accepts everything accepts. -/
theorem accepting_acceptAll : Accepting (Answers AcceptAll) := by
  rintro linkId bytes nowMs answer ⟨executor, rfl⟩
  rfl

/-- A frame that can be encoded is handed to the link. -/
theorem CommandStep.send_of_fits {core core' : GatewayCore maxLinks maxSeen storeCapacity}
    {linkId : LinkId} {envelope : HyfEnvelopeRef}
    {moments : List (Moment maxLinks maxSeen storeCapacity)} {outcome : Except GatewayError Unit}
    (h : CommandStep answers core (.send linkId envelope) moments outcome core')
    (hvalid : ValidEnvelope envelope)
    (hfits : (wireBytes envelope).length ≤ gatewayFrameBufferLen) :
    answers linkId (wireBytes envelope) envelope.createdAtMs outcome ∧ ∃ moment ∈ moments,
      moment.event = .sendLinkBytes linkId (wireBytes envelope) envelope.createdAtMs outcome := by
  cases h with
  | sendUnencodable refused =>
    rw [encodeEnvelope_eq hvalid (by rwa [List.length_replicate])] at refused
    cases refused
  | sendRefused valid fits answer metrics => exact ⟨answer, _, List.mem_singleton_self _, rfl⟩
  | sent valid fits answer metrics => exact ⟨answer, _, List.mem_cons_self, rfl⟩

/-- A message that waits leaves on the only link. -/
theorem Waits.send_mem_planStored {core : GatewayCore maxLinks maxSeen storeCapacity}
    {envelope : HyfEnvelopeRef} (h : core.Waits envelope) {linkId : LinkId}
    (hlink : core.router.egressLinks none = [linkId]) :
    .send linkId envelope ∈ core.router.planStored envelope := by
  have hremote : core.router.isLocalDestination envelope.destination = false := by
    have hfor := h.remote
    cases hdestination : envelope.destination with
    | community communityId => rfl
    | node node =>
      rw [hdestination] at hfor
      exact hfor
    | foreign endpoint => rfl
  have hegress : linkId ∈ core.router.storedEgress envelope.destination := by
    unfold Router.storedEgress
    split <;> simp [hlink]
  exact Router.send_mem_planStored_iff.mpr ⟨h.unexpired, h.hops, hremote, hegress⟩

/-- The sends for a stored envelope are part of the frame. -/
theorem SameFrame.send_mem_planStored {core core' : GatewayCore maxLinks maxSeen storeCapacity}
    (h : SameFrame core core') {linkId : LinkId} {envelope : HyfEnvelopeRef}
    (hmem : .send linkId envelope ∈ core.router.planStored envelope) :
    .send linkId envelope ∈ core'.router.planStored envelope := by
  rw [Router.send_mem_planStored_iff] at hmem ⊢
  simpa only [Router.storedEgress, Router.isLocalDestination, h.nowMs, h.egressLinks, h.policy]
    using hmem

/-- When nothing is refused and a link is up, every turn on a store that is not empty carries out the
plan of a record and removes it. -/
theorem Iteration.of_accepting {core core' : GatewayCore maxLinks maxSeen storeCapacity}
    {moments : List (Moment maxLinks maxSeen storeCapacity)} {outcome : Except GatewayError Bool}
    (h : Iteration answers core moments outcome core') (haccepts : Accepting answers)
    (hlinks : core.router.egressLinks none ≠ [])
    (hroom : core.router.upLinkCountExcept none ≤ 15)
    (hstore : core.store.WellFormed) (hnonempty : core.store.live ≠ []) :
    outcome = .ok true ∧ ∃ stored moments' executions core'', ValidEnvelope stored ∧
      recordOf stored ∈ core.store.live ∧ moments' ⊆ moments ∧
      Executes answers core (core.router.planStored stored) moments' executions core'' ∧
      core.store.remove stored.messageId = .ok core'.store := by
  cases h with
  | empty none_pending => exact absurd (Store.firstPending_eq_none_iff.mp none_pending) hnonempty
  | idle valid pending idle => exact absurd idle (Router.planStored_ne_nil hlinks _)
  | @crowded envelope valid pending crowded =>
    have hshort := core.router.length_planStored_le envelope
    rw [routerCommandCapacity] at crowded
    omega
  | released valid pending nonempty executes verdict removed =>
    exact ⟨rfl, _, _, _, _, valid, Store.firstPending_mem pending, List.subset_append_left _ _,
      executes, removed⟩
  | @kept envelope _ _ _ valid pending executes verdict =>
    -- every command of the plan succeeds
    refine absurd (flushVerdict_of_forall_ok ?_) verdict
    refine executes.forall_outcome (P := fun _ outcome => outcome = .ok ()) ?_
    intro command hmem _ _ _ outcome hstep
    have hlive := Store.firstPending_mem pending
    obtain ⟨stored, hstored, hfits, hrecord⟩ := hstore.encodes _ hlive
    cases Router.planned_of_mem_planStored hmem with
    | drop reason => exact hstep.outcome_ok rfl (by simp)
    | deliverLocal fresh => exact hstep.outcome_ok rfl (by simp)
    | send linkId egress unexpired hops =>
      obtain rfl := eq_of_recordOf_eq valid hstored hrecord
      exact haccepts _ _ _ _ (hstep.send_of_fits valid hfits).1

/-- The message has been handed to the link, which took it. -/
def SentOn (moments : List (Moment maxLinks maxSeen storeCapacity)) (linkId : LinkId)
    (envelope : HyfEnvelopeRef) : Prop :=
  ∃ moment ∈ moments, moment.event =
    .sendLinkBytes linkId (wireBytes envelope) envelope.createdAtMs (.ok ())

/-- When nothing is refused and a link is up, a flush ends with an empty store, and every send that
is planned for a stored message has been made. -/
theorem Flushes.drains {core core' : GatewayCore maxLinks maxSeen storeCapacity}
    {moments : List (Moment maxLinks maxSeen storeCapacity)} {outcome : Except GatewayError Unit}
    (h : Flushes answers core moments outcome core') (haccepts : Accepting answers)
    (hlinks : core.router.egressLinks none ≠ [])
    (hroom : core.router.upLinkCountExcept none ≤ 15) (hstore : core.store.WellFormed) :
    outcome = .ok () ∧ core'.store.live = [] ∧ ∀ envelope linkId, ValidEnvelope envelope →
      recordOf envelope ∈ core.store.live → .send linkId envelope ∈ core.router.planStored envelope →
        SentOn moments linkId envelope := by
  induction h with
  | @stop core core' moments last =>
    by_cases hempty : core.store.live = []
    · obtain ⟨-, rfl⟩ := last.of_empty hempty
      exact ⟨rfl, hempty, fun envelope linkId _ hlive => by simp [hempty] at hlive⟩
    · cases (last.of_accepting haccepts hlinks hroom hstore hempty).1
  | @fail core core' moments error last =>
    by_cases hempty : core.store.live = []
    · cases (last.of_empty hempty).1
    · cases (last.of_accepting haccepts hlinks hroom hstore hempty).1
  | @next core core₁ core' moments later outcome turn rest ih =>
    have hnonempty : core.store.live ≠ [] := by
      intro hempty
      cases (turn.of_empty hempty).1
    obtain ⟨-, stored, moments', executions, core'', hstored, hmem, hsub, hexecutes, hremove⟩ :=
      turn.of_accepting haccepts hlinks hroom hstore hnonempty
    have hstore' := hstore.of_sublist turn.live_sublist
    obtain ⟨hok, hempty, hsent⟩ := ih (by rwa [turn.frame.egressLinks])
      (by rwa [Router.upLinkCountExcept_eq, turn.frame.egressLinks, ← Router.upLinkCountExcept_eq])
      hstore'
    refine ⟨hok, hempty, fun envelope linkId hvalid hlive hplan => ?_⟩
    by_cases hid : envelope.messageId = stored.messageId
    · -- this turn is about the message
      obtain rfl : envelope = stored := eq_of_recordOf_eq hvalid hstored
        (List.inj_on_of_nodup_map hstore.nodup hlive hmem hid)
      obtain ⟨stored, hstored, hfits, hrecord⟩ := hstore.encodes _ hlive
      obtain rfl := eq_of_recordOf_eq hvalid hstored hrecord
      obtain ⟨before, inner, executed, after, hstep, hlogged⟩ := hexecutes.exists_step hplan
      obtain ⟨hanswer, moment, hmoment, hevent⟩ := hstep.send_of_fits hvalid hfits
      rw [haccepts _ _ _ _ hanswer] at hevent
      exact ⟨moment, List.mem_append_left _ (hsub (hlogged (List.mem_append_left _ hmoment))), hevent⟩
    · obtain ⟨moment, hmoment, hevent⟩ := hsent envelope linkId hvalid
        ((hstore.mem_live_remove hremove).mpr ⟨hlive, hid⟩) (turn.frame.send_mem_planStored hplan)
      exact ⟨moment, List.mem_append_right _ hmoment, hevent⟩

/-- When nothing is refused and one link is up, whatever waits in the store leaves. -/
theorem Flushes.sends_stored {core core' : GatewayCore maxLinks maxSeen storeCapacity}
    {moments : List (Moment maxLinks maxSeen storeCapacity)} {outcome : Except GatewayError Unit}
    (h : Flushes answers core moments outcome core') (haccepts : Accepting answers)
    {linkId : LinkId} (hlink : core.router.egressLinks none = [linkId])
    (hstore : core.store.WellFormed) {envelope : HyfEnvelopeRef} (hvalid : ValidEnvelope envelope)
    (hlive : recordOf envelope ∈ core.store.live) (hwaits : core.Waits envelope) :
    ∃ moment ∈ moments, ∃ answer, moment.event =
      .sendLinkBytes linkId (wireBytes envelope) envelope.createdAtMs answer := by
  obtain ⟨-, -, hsent⟩ := h.drains haccepts (by simp [hlink])
    (by simp [Router.upLinkCountExcept_eq, hlink]) hstore
  obtain ⟨moment, hmoment, hevent⟩ :=
    hsent envelope linkId hvalid hlive (hwaits.send_mem_planStored hlink)
  exact ⟨moment, hmoment, _, hevent⟩

/-- The ingress is the only link a message can leave on. -/
theorem StoresForIngress.egressLinks {core : GatewayCore maxLinks maxSeen storeCapacity}
    {frame : LinkFrameRef} {envelope : HyfEnvelopeRef} (h : core.StoresForIngress frame envelope)
    (hnodup : core.router.linkIds.Nodup) : core.router.egressLinks (some frame.linkId) = [] ∧
      core.router.egressLinks none = [frame.linkId] := by
  have hnone : core.router.egressLinks (some frame.linkId) = [] := by
    rw [List.eq_nil_iff_forall_not_mem]
    intro linkId hmem
    rw [Router.mem_egressLinks] at hmem
    cases h.only _ hmem.1 (by simpa using hmem.2)
  exact ⟨hnone,
    Router.egressLinks_eq_singleton hnodup (Router.mem_egressLinks_none.mpr h.up) hnone⟩

/-- The message that is stored on the way back waits for a link. -/
theorem StoresForIngress.waits {core : GatewayCore maxLinks maxSeen storeCapacity}
    {frame : LinkFrameRef} {envelope : HyfEnvelopeRef} (h : core.StoresForIngress frame envelope)
    (htimely : core.Timely) :
    (core.arrived frame).Waits (Router.outboundFor envelope (some frame.linkId)) where
  unexpired := by
    rw [Router.outboundFor_expiresAtMs]
    exact (arrived_nowMs_lt htimely frame _).mpr h.unexpired
  hops := Router.outboundFor_hopLimit_ne_zero (Router.exhausts_some_eq_false_iff.mpr h.hops)
  remote := by
    have hremote := h.remote
    change (core.arrived frame).router.isForThisNode envelope.destination = false
    cases hdestination : envelope.destination with
    | community communityId => exact absurd hdestination (h.unicast communityId)
    | node node =>
      rw [hdestination] at hremote
      simpa [Router.isForThisNode, Router.isLocalDestination] using hremote
    | foreign endpoint => rfl

/-- The plan on the way back: the message is stored with one hop less. -/
theorem StoresForIngress.plan {core : GatewayCore maxLinks maxSeen storeCapacity}
    {frame : LinkFrameRef} {envelope : HyfEnvelopeRef} (h : core.StoresForIngress frame envelope)
    (hreachable : Reachable core) (hdecode : decodeEnvelope frame.bytes = .ok envelope)
    (hunseen : core.router.hasSeen (seenKeyFor envelope) = false) :
    (core.arrived frame).router.planEvent (.link (.frame frame)) =
      .ok [.store (.put (Router.outboundFor envelope (some frame.linkId)))] := by
  have hunexpired := (arrived_nowMs_lt hreachable.timely frame _).mpr h.unexpired
  have hunseen' : (core.arrived frame).router.hasSeen (seenKeyFor envelope) = false := by
    rwa [Router.hasSeen, arrived_seen]
  have hremote : (core.arrived frame).router.isLocalDestination envelope.destination = false := by
    rw [← h.remote]
    simp only [Router.isLocalDestination, arrived_policy]
  have hnone : (core.arrived frame).router.egressLinks (some frame.linkId) = [] := by
    rw [Router.egressLinks, arrived_links]
    exact (h.egressLinks hreachable.nodup_linkIds).1
  simp only [Router.planEvent, hdecode]
  rw [Router.planFor_of_valid (validEnvelope_of_decodeEnvelope hdecode),
    Router.planEnvelope_of_unicast h.unicast hunexpired hunseen', Router.planUnicast, hremote,
    Router.envelopeForNextHop_eq, Router.exhausts_some_eq_false_iff.mpr h.hops, hnone]
  rfl

/-- A message that takes the way back is sent on the link it came in on, if nothing is refused. -/
theorem StoresForIngress.echoes {core : GatewayCore maxLinks maxSeen storeCapacity}
    {frame : LinkFrameRef} {envelope : HyfEnvelopeRef} (h : core.StoresForIngress frame envelope)
    (hreachable : Reachable core) (hdecode : decodeEnvelope frame.bytes = .ok envelope)
    (hunseen : core.router.hasSeen (seenKeyFor envelope) = false)
    (habsent : core.store.contains envelope.messageId = false) :
    Echoes ((ingestLinkFrame frame).run ⟨core, AcceptAll.mk, []⟩).state.log frame.linkId
      envelope.messageId := by
  have hplan := h.plan hreachable hdecode hunseen
  have hvalid := validEnvelope_of_decodeEnvelope hdecode
  have hstored := Router.validEnvelope_outboundFor hvalid (some frame.linkId)
  have hstore : (core.arrived frame).store.WellFormed :=
    wellFormed_steps (core.arrived_steps frame) hreachable.wellFormed
  obtain ⟨moments, core', executor', hcall, hstate⟩ :=
    run_ingestLinkFrame frame hreachable.wellFormed AcceptAll.mk []
  rw [hstate, List.nil_append]
  -- the put is accepted
  have habsent' : (core.arrived frame).store.contains
      (Router.outboundFor envelope (some frame.linkId)).messageId = false := by
    rw [Router.outboundFor_messageId, Store.contains_eq_false_iff] at *
    exact fun record hmem => habsent record ((core.arrived_live_sublist frame).subset hmem)
  obtain ⟨store, hput⟩ := Store.exists_putEnvelope_eq_ok hstored
    (by rw [length_wireBytes_outboundFor]; exact h.fits) habsent'
    ((arrived_len_lt hreachable.timely frame).mpr h.room)
  generalize ((ingestLinkFrame frame).run ⟨core, AcceptAll.mk, []⟩).outcome = outcome at hcall
  cases hcall with
  | refused routes =>
    obtain ⟨moments', hstep⟩ := routes.of_singleton hplan
    cases hstep with
    | putRefused allowed refused =>
      rw [show (core.arrived frame).store.putEnvelope _ = _ from refused] at hput
      cases hput
  | @flushed _ moments' _ core₁ _ routes flushes =>
    have hframe := routes.frame rfl
    have hstore₁ : core₁.store.WellFormed := wellFormed_steps (routes.steps (by simp)) hstore
    have hlive : recordOf (Router.outboundFor envelope (some frame.linkId)) ∈ core₁.store.live := by
      obtain ⟨moments', hstep⟩ := routes.of_singleton hplan
      cases hstep with
      | put allowed accepted metrics =>
        exact (Store.putEnvelope_eq_ok accepted).mem_live.mpr (.inl rfl)
      | putDisabled disabled metrics =>
        have hallowed := h.allowed
        rw [show core.config.policy.allowStoreAndForward = false from
          arrived_config core frame ▸ disabled] at hallowed
        cases hallowed
    have hlink : core₁.expired.router.egressLinks none = [frame.linkId] := by
      rw [← (h.egressLinks hreachable.nodup_linkIds).2, Router.egressLinks, Router.egressLinks,
        show core₁.expired.router.links = core.router.links from
          hframe.links.trans (arrived_links core frame)]
    have hexpired : SameFrame (core.arrived frame) core₁.expired :=
      hframe.trans ⟨rfl, rfl, rfl, rfl, rfl⟩
    have hwaits := h.waits hreachable.timely
    have hlive' : recordOf (Router.outboundFor envelope (some frame.linkId)) ∈
        core₁.expired.store.live := by
      refine Store.mem_live_expireBefore.mpr ⟨hlive, ?_⟩
      rw [hframe.lastNowMs, ← arrived_clocks hreachable.timely.clocks]
      exact hwaits.unexpired
    obtain ⟨moment, hmem, answer, hevent⟩ := flushes.sends_stored accepting_acceptAll hlink
      (wellFormed_step hstore₁ (.expire core₁)) hstored hlive' (hwaits.of_frame hexpired)
    refine ⟨moment, ?_, _, _, answer, _, hevent, decodeEnvelope_wireBytes hstored,
      Router.outboundFor_messageId _ _⟩
    exact List.mem_append_right _ (List.mem_append_right _ hmem)

/-- **Frames that go back.** A message that came in on a link, unseen and not stored yet, is not
handed to that link again in the same call, whatever the executor does, except exactly when it is
stored because its ingress is the only link that is up. -/
theorem no_echo_iff {core : GatewayCore maxLinks maxSeen storeCapacity} {frame : LinkFrameRef}
    {envelope : HyfEnvelopeRef} (hreachable : Reachable core)
    (hdecode : decodeEnvelope frame.bytes = .ok envelope)
    (hunseen : core.router.hasSeen (seenKeyFor envelope) = false)
    (habsent : core.store.contains envelope.messageId = false) :
    (∀ (E : Type) [GatewayLinkExecutor E] (executor : E),
        ¬Echoes ((ingestLinkFrame frame).run ⟨core, executor, []⟩).state.log frame.linkId
          envelope.messageId) ↔
      ¬core.StoresForIngress frame envelope := by
  constructor
  · intro hsilent hstores
    exact hsilent AcceptAll .mk (hstores.echoes hreachable hdecode hunseen habsent)
  · intro hnot E _ executor hechoes
    exact hnot (storesForIngress_of_echoes hreachable hdecode habsent hechoes)

/-- A frame on a link with a message to another node. -/
def transitFrame : LinkFrameRef :=
  ⟨⟨fillBytes 16 3⟩, 0, wireBytes (sampleEnvelope 2 (.node ⟨fillBytes 32 7⟩) 3)⟩

/-- The sample frame has an envelope. -/
theorem decodeEnvelope_transitFrame : decodeEnvelope transitFrame.bytes =
    .ok (sampleEnvelope 2 (.node ⟨fillBytes 32 7⟩) 3) :=
  decodeEnvelope_wireBytes (validEnvelope_sampleEnvelope _ _ _)

/-- The small gateway with a single link. -/
def linkedWorld : World 2 8 4 AcceptAll :=
  sampleCall (.handleLinkEvent (.up ⟨fillBytes 16 3⟩)) ⟨sampleCore, .mk, []⟩

/-- The sample world is reached by a run. -/
theorem run_linkedWorld : Run sampleConfig linkedWorld.log linkedWorld.core :=
  Run.call (.start new_sampleConfig) (.handleLinkEvent (.up ⟨fillBytes 16 3⟩)) AcceptAll .mk

/-- The small gateway with two links up. -/
def forkedWorld : World 2 8 4 AcceptAll :=
  sampleCall (.handleLinkEvent (.up ⟨fillBytes 16 4⟩)) linkedWorld

/-- The sample world with two links is reached by a run. -/
theorem run_forkedWorld : Run sampleConfig forkedWorld.log forkedWorld.core :=
  Run.call run_linkedWorld (.handleLinkEvent (.up ⟨fillBytes 16 4⟩)) AcceptAll .mk

/-- With a second link up the frame goes out there, one hop shorter, and nothing goes back on the
link it came from. -/
theorem forkedWorld_no_echo :
    .sendLinkBytes ⟨fillBytes 16 4⟩ (wireBytes (sampleEnvelope 2 (.node ⟨fillBytes 32 7⟩) 2)) 1
        (.ok ()) ∈ ((ingestLinkFrame transitFrame).run
          ⟨forkedWorld.core, AcceptAll.mk, []⟩).state.log.map Moment.event ∧
      ¬Echoes ((ingestLinkFrame transitFrame).run
        ⟨forkedWorld.core, AcceptAll.mk, []⟩).state.log transitFrame.linkId
          (sampleEnvelope 2 (.node ⟨fillBytes 32 7⟩) 3).messageId := by
  refine ⟨by decide +kernel, ?_⟩
  refine (no_echo_iff ⟨_, _, run_forkedWorld⟩ decodeEnvelope_transitFrame (by decide)
    (by decide)).mpr ?_ AcceptAll .mk
  intro hstores
  -- the second link is up, so the message is not kept for its ingress
  have hup := hstores.only ⟨⟨fillBytes 16 4⟩, true⟩ (by decide) (by decide)
  cases hup

/-- The frame is stored, flushed and sent back on its only link. -/
theorem linkedWorld_echoes : Reachable linkedWorld.core ∧
    decodeEnvelope transitFrame.bytes = .ok (sampleEnvelope 2 (.node ⟨fillBytes 32 7⟩) 3) ∧
    linkedWorld.core.router.hasSeen
      (seenKeyFor (sampleEnvelope 2 (.node ⟨fillBytes 32 7⟩) 3)) = false ∧
    linkedWorld.core.store.contains
      (sampleEnvelope 2 (.node ⟨fillBytes 32 7⟩) 3).messageId = false ∧
    Echoes ((ingestLinkFrame transitFrame).run ⟨linkedWorld.core, AcceptAll.mk, []⟩).state.log
      transitFrame.linkId (sampleEnvelope 2 (.node ⟨fillBytes 32 7⟩) 3).messageId := by
  have hsent : .sendLinkBytes transitFrame.linkId
      (wireBytes (sampleEnvelope 2 (.node ⟨fillBytes 32 7⟩) 2)) 1 (.ok ()) ∈
        ((ingestLinkFrame transitFrame).run
          ⟨linkedWorld.core, AcceptAll.mk, []⟩).state.log.map Moment.event := by
    decide +kernel
  obtain ⟨moment, hmem, hevent⟩ := List.mem_map.mp hsent
  refine ⟨⟨_, _, run_linkedWorld⟩, decodeEnvelope_transitFrame, by decide,
    by decide, moment, hmem, _, _, _, sampleEnvelope 2 (.node ⟨fillBytes 32 7⟩) 2, hevent,
    ?_, rfl⟩
  exact decodeEnvelope_wireBytes (validEnvelope_sampleEnvelope _ _ _)

end GatewayCore

end Hyf
