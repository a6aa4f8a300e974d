import Hyf.Gateway.Echo

/-!
# The clock of a call

`Call` says what each call of the gateway does, in its parts: it counts the message or observes a time,
routes an event, and flushes the store. Only an observed time moves the clock, and only forward
(`Call.lastNowMs_eq`). What a call expires has expired by the clock after it
(`accountsFor_of_steps`), and so has the message that it drops as expired (`Call.dropsAt`).
-/

namespace Hyf

open LoggedSteps

/-- The clock after a call, from the clock before it. -/
def GatewayOp.clockAfter (lastNowMs : TimestampMs) : GatewayOp → TimestampMs
  | .tick now => if now ≤ lastNowMs then lastNowMs else now
  | .ingestLinkFrame frame => if frame.receivedAtMs ≤ lastNowMs then lastNowMs else frame.receivedAtMs
  | .submit _ | .handleLinkEvent _ => lastNowMs

/-- The event that a call is about. -/
def GatewayOp.event : GatewayOp → RouterEvent
  | .submit envelope => .localSubmit envelope
  | .ingestLinkFrame frame => .link (.frame frame)
  | .tick now => .tick now
  | .handleLinkEvent event => .link event

/-! ## Expired drops -/

namespace Router

variable {maxLinks maxSeen : ℕ} {router : Router maxLinks maxSeen} {envelope : HyfEnvelopeRef}
  {messageId : MessageId}

/-- A fan-out drops nothing. -/
theorem not_mem_fanOut_drop {outbound : HyfEnvelopeRef} {communityId : CommunityId}
    {ingress : Option LinkId} {reason : DropReason} :
    .drop messageId reason ∉ router.fanOut envelope outbound communityId ingress := by
  intro h
  obtain ⟨hlocal, -⟩ | ⟨linkId, -, hsend⟩ := mem_fanOut h
  · cases hlocal
  · cases hsend

/-- Only the clock of the router makes a valid message expire. -/
theorem expired_of_mem_planEnvelope {ingress : Option LinkId}
    (h : .drop messageId .expired ∈ router.planEnvelope envelope ingress) :
    messageId = envelope.messageId ∧ envelope.expiresAtMs ≤ router.nowMs := by
  have hunicast : RouterCommand.drop messageId .expired ∉ router.planUnicast envelope ingress := by
    intro h
    rw [planUnicast, envelopeForNextHop_eq] at h
    by_cases hlocal : router.isLocalDestination envelope.destination = true
    · simp [hlocal] at h
    by_cases hexhausted : exhausts envelope ingress = true
    · simp [hlocal, hexhausted] at h
    · cases hhead : (router.egressLinks ingress).head? <;> simp [hlocal, hexhausted, hhead] at h
  unfold planEnvelope at h
  split_ifs at h with hexpired hseen
  · rw [List.mem_singleton] at h
    cases h
    exact ⟨rfl, hexpired⟩
  · simp at h
  cases hdestination : envelope.destination with
  | node node => exact absurd (by simpa only [hdestination] using h) hunicast
  | foreign endpoint => exact absurd (by simpa only [hdestination] using h) hunicast
  | community communityId =>
    simp only [hdestination, planCommunity] at h
    split_ifs at h
    · simp at h
    · simp at h
    · simp at h
    · exact absurd h not_mem_fanOut_drop

/-- A stored envelope is dropped as expired only when it is. -/
theorem expired_of_mem_planStored (h : .drop messageId .expired ∈ router.planStored envelope) :
    envelope.expiresAtMs ≤ router.nowMs := by
  have hunicast : RouterCommand.drop messageId .expired ∉ router.planStoredUnicast envelope := by
    intro h
    unfold planStoredUnicast at h
    split_ifs at h
    · simp at h
    · simp at h
    · cases hhead : (router.egressLinks none).head? <;> simp [hhead] at h
  unfold planStored at h
  split_ifs at h with hexpired hhop
  · exact hexpired
  · simp at h
  cases hdestination : envelope.destination with
  | node node => exact absurd (by simpa only [hdestination] using h) hunicast
  | foreign endpoint => exact absurd (by simpa only [hdestination] using h) hunicast
  | community communityId =>
    simp only [hdestination] at h
    exact absurd h not_mem_fanOut_drop

/-- A message that is dropped as expired has expired by the clock, or was never valid. -/
def Expires (router : Router maxLinks maxSeen) (envelope : HyfEnvelopeRef) : Prop :=
  envelope.expiresAtMs ≤ router.nowMs ∨ validateEnvelope envelope = .error .invalidExpiry

/-- An envelope is dropped as expired only when it is. -/
theorem expires_of_planFor {ingress : Option LinkId} {plan : List RouterCommand}
    (hplan : router.planFor envelope ingress = .ok plan) (h : .drop messageId .expired ∈ plan) :
    envelope.messageId = messageId ∧ router.Expires envelope := by
  cases hvalid : validateEnvelope envelope with
  | ok value =>
    rw [planFor_of_valid hvalid] at hplan
    cases hplan
    obtain ⟨rfl, hexpired⟩ := expired_of_mem_planEnvelope h
    exact ⟨rfl, .inl hexpired⟩
  | error error =>
    simp only [planFor, hvalid] at hplan
    cases error <;> cases hplan
    rw [List.mem_singleton] at h
    cases h
    exact ⟨rfl, .inr hvalid⟩

/-- What is dropped as expired for an event is the message of the event. -/
theorem expires_of_planEvent {event : RouterEvent} {plan : List RouterCommand}
    (hplan : router.planEvent event = .ok plan) (h : .drop messageId .expired ∈ plan) :
    ∃ envelope ingress, event.message? = some (envelope, ingress) ∧ envelope.messageId = messageId ∧
      router.Expires envelope := by
  cases event with
  | localSubmit envelope => exact ⟨envelope, none, rfl, expires_of_planFor hplan h⟩
  | tick now =>
    cases hplan
    simp at h
  | link event =>
    cases event with
    | up linkId =>
      rw [planEvent] at hplan
      cases hset : router.setLinkState linkId true <;> rw [hset] at hplan <;> cases hplan
      cases h
    | down linkId =>
      rw [planEvent] at hplan
      cases hset : router.setLinkState linkId false <;> rw [hset] at hplan <;> cases hplan
      cases h
    | frame frame =>
      simp only [planEvent] at hplan
      cases hdecode : decodeEnvelope frame.bytes with
      | error error =>
        rw [hdecode] at hplan
        cases hplan
        simp at h
      | ok envelope =>
        rw [hdecode] at hplan
        refine ⟨envelope, some frame.linkId, ?_, expires_of_planFor hplan h⟩
        simp only [RouterEvent.message?, hdecode]

end Router

namespace GatewayCore

variable {maxLinks maxSeen storeCapacity : ℕ} {E : Type}
  {answers : LinkId → List UInt8 → TimestampMs → Except GatewayError Unit → Prop}
  {core core' : GatewayCore maxLinks maxSeen storeCapacity}
  {moments : List (Moment maxLinks maxSeen storeCapacity)}

/-! ## Drops in the log -/

/-- A message with this id was dropped as expired in the moment. -/
def DropsAt (moment : Moment maxLinks maxSeen storeCapacity) (messageId : MessageId) : Prop :=
  ∃ outcome, moment.event = .executed (.drop messageId .expired) outcome

/-- What was executed is one of the commands. -/
theorem Executes.mem_of_dropsAt {commands : List RouterCommand}
    {executions : List (RouterCommand × Except GatewayError Unit)}
    (h : Executes answers core commands moments executions core')
    {moment : Moment maxLinks maxSeen storeCapacity} (hmem : moment ∈ moments) {messageId : MessageId}
    (hdrops : DropsAt moment messageId) : .drop messageId .expired ∈ commands := by
  obtain ⟨outcome, hevent⟩ := hdrops
  have hexecuted : (.drop messageId .expired, outcome) ∈ executionsOf moments :=
    List.mem_filterMap.mpr ⟨moment, hmem, by rw [hevent]; rfl⟩
  rw [h.executionsOf_moments] at hexecuted
  rw [← h.map_fst]
  exact List.mem_map_of_mem hexecuted

/-- The clocks agree at every step. -/
theorem Timely.steps (h : core.Timely) (hsteps : Steps CoreStep core moments core') :
    core'.Timely := by
  have hstart : TimelyLog [] core := ⟨h, by simp, by simp, by simp, by simp⟩
  have hlog : TimelyLog ([] ++ moments) core' :=
    hsteps.invariant (fun _ _ _ _ hlog hstep => hlog.step hstep) hstart
  exact hlog.now

/-- A flush drops nothing as expired: it has expired the store before. -/
theorem Iteration.not_dropsAt {outcome : Except GatewayError Bool} (htimely : core.Timely)
    (h : Iteration answers core moments outcome core')
    {moment : Moment maxLinks maxSeen storeCapacity} (hmem : moment ∈ moments) (messageId : MessageId) :
    ¬DropsAt moment messageId := by
  have hturn : ∀ {envelope : HyfEnvelopeRef}
      {executed : List (Moment maxLinks maxSeen storeCapacity)}
      {executions : List (RouterCommand × Except GatewayError Unit)}
      {core'' : GatewayCore maxLinks maxSeen storeCapacity},
      core.store.firstPending = some (recordOf envelope) →
      Executes answers core (core.router.planStored envelope) executed executions core'' →
      moment ∈ executed ++ [⟨.flushed envelope.messageId executions, core''⟩] →
      ¬DropsAt moment messageId := by
    intro envelope executed executions core'' hpending hexecutes hmem hdrops
    obtain hexecuted | hlast := List.mem_append.mp hmem
    · have hexpired := Router.expired_of_mem_planStored (hexecutes.mem_of_dropsAt hexecuted hdrops)
      have hunexpired := htimely.unexpired _ (Store.firstPending_mem hpending)
      rw [recordOf_expiresAtMs, ← htimely.clocks] at hunexpired
      exact UInt64.not_le.mpr hunexpired hexpired
    · rw [List.mem_singleton] at hlast
      subst hlast
      obtain ⟨outcome, hevent⟩ := hdrops
      cases hevent
  cases h with
  | kept valid pending executes verdict => exact hturn pending executes hmem
  | released valid pending nonempty executes verdict removed => exact hturn pending executes hmem
  | _ => cases hmem

/-- A flush drops nothing as expired. -/
theorem Flushes.not_dropsAt {outcome : Except GatewayError Unit} (htimely : core.Timely)
    (h : Flushes answers core moments outcome core')
    {moment : Moment maxLinks maxSeen storeCapacity} (hmem : moment ∈ moments) (messageId : MessageId) :
    ¬DropsAt moment messageId := by
  induction h with
  | stop last => exact last.not_dropsAt htimely hmem messageId
  | fail last => exact last.not_dropsAt htimely hmem messageId
  | next turn rest ih =>
    obtain hfirst | hrest := List.mem_append.mp hmem
    · exact turn.not_dropsAt htimely hfirst messageId
    · exact ih (htimely.of_frame turn.frame turn.live_sublist.subset) hrest

/-- Routing drops as expired the message of the event, if it expires. -/
theorem Routes.dropsAt {event : RouterEvent} {outcome : Except GatewayError Unit}
    (h : Routes answers core event moments outcome core')
    {moment : Moment maxLinks maxSeen storeCapacity} (hmem : moment ∈ moments) {messageId : MessageId}
    (hdrops : DropsAt moment messageId) :
    ∃ envelope ingress, event.message? = some (envelope, ingress) ∧ envelope.messageId = messageId ∧
      core.router.Expires envelope := by
  cases h with
  | executed plan_eq executes =>
    exact Router.expires_of_planEvent plan_eq (executes.mem_of_dropsAt hmem hdrops)
  | _ => cases hmem

/-- What a call drops as expired is the message it was about. -/
theorem RoutesThenFlushes.dropsAt {event : RouterEvent} {outcome : Except GatewayError Unit}
    (htimely : core.Timely) (hevent : ∀ now, event ≠ .tick now)
    (h : RoutesThenFlushes answers core event moments outcome core')
    {moment : Moment maxLinks maxSeen storeCapacity} (hmem : moment ∈ moments) {messageId : MessageId}
    (hdrops : DropsAt moment messageId) :
    ∃ envelope ingress, event.message? = some (envelope, ingress) ∧ envelope.messageId = messageId ∧
      core.router.Expires envelope := by
  cases h with
  | refused routes => exact routes.dropsAt hmem hdrops
  | flushed routes flushes =>
    obtain hroute | hflush := List.mem_append.mp hmem
    · exact routes.dropsAt hroute hdrops
    · have hexpired := htimely.steps ((routes.steps hevent).tail (.expire _))
      exact absurd hdrops (flushes.not_dropsAt hexpired hflush messageId)

/-! ## The parts of a call -/

/-- Observing a time moves the clock forward, or does nothing. -/
inductive Observes (core : GatewayCore maxLinks maxSeen storeCapacity) (now : TimestampMs) :
    List (Moment maxLinks maxSeen storeCapacity) → GatewayCore maxLinks maxSeen storeCapacity → Prop
  | past (past : now ≤ core.lastNowMs) : Observes core now [] core
  | later (later : core.lastNowMs < now) :
      Observes core now [⟨.executed (.store (.expireBefore now)) (.ok ()), core.observed now⟩]
        (core.observed now)

/-- What a call does, whatever it returns. -/
inductive Call (answers : LinkId → List UInt8 → TimestampMs → Except GatewayError Unit → Prop)
    (core : GatewayCore maxLinks maxSeen storeCapacity) : GatewayOp →
      List (Moment maxLinks maxSeen storeCapacity) → GatewayCore maxLinks maxSeen storeCapacity → Prop
  | submit {envelope : HyfEnvelopeRef} {moments : List (Moment maxLinks maxSeen storeCapacity)}
      {outcome : Except GatewayError Unit} {core' : GatewayCore maxLinks maxSeen storeCapacity}
      (metrics : GatewayMetrics)
      (routes : RoutesThenFlushes answers { core with metrics } (.localSubmit envelope) moments
        outcome core') : Call answers core (.submit envelope) moments core'
  | ingestLinkFrame {frame : LinkFrameRef}
      {observed moments : List (Moment maxLinks maxSeen storeCapacity)}
      {outcome : Except GatewayError Unit} {core₁ core' : GatewayCore maxLinks maxSeen storeCapacity}
      (metrics : GatewayMetrics)
      (observes : Observes { core with metrics } frame.receivedAtMs observed core₁)
      (routes : RoutesThenFlushes answers core₁ (.link (.frame frame)) moments outcome core') :
      Call answers core (.ingestLinkFrame frame) (observed ++ moments) core'
  | tick {now : TimestampMs} {observed moments : List (Moment maxLinks maxSeen storeCapacity)}
      {outcome : Except GatewayError Unit} {core₁ core' : GatewayCore maxLinks maxSeen storeCapacity}
      (observes : Observes core now observed core₁)
      (flushes : Flushes answers core₁.expired moments outcome core') :
      Call answers core (.tick now) (observed ++ moments) core'
  | recover {linkId : LinkId} {moments : List (Moment maxLinks maxSeen storeCapacity)}
      {outcome : Except GatewayError Unit} {core' : GatewayCore maxLinks maxSeen storeCapacity}
      (routes : RoutesThenFlushes answers core (.link (.up linkId)) moments outcome core') :
      Call answers core (.handleLinkEvent (.up linkId)) moments core'
  | handleLinkEvent {event : LinkEvent} {moments : List (Moment maxLinks maxSeen storeCapacity)}
      {outcome : Except GatewayError Unit} {core' : GatewayCore maxLinks maxSeen storeCapacity}
      (routes : Routes answers core (.link event) moments outcome core') :
      Call answers core (.handleLinkEvent event) moments core'

/-- Observing a time is made of steps. -/
theorem Observes.steps {now : TimestampMs} (h : Observes core now moments core') :
    Steps CoreStep core moments core' := by
  cases h with
  | past past => exact .refl core
  | later later => exact .single (.observe later)

/-- The clock goes forward only. -/
theorem Observes.lastNowMs_eq {now : TimestampMs} (h : Observes core now moments core') :
    core'.lastNowMs = if now ≤ core.lastNowMs then core.lastNowMs else now := by
  cases h with
  | past past => rw [if_pos past]
  | later later =>
    rw [if_neg (UInt64.not_le.mpr later)]
    rfl

/-- Observing a time drops nothing as expired. -/
theorem Observes.not_dropsAt {now : TimestampMs} (h : Observes core now moments core')
    {moment : Moment maxLinks maxSeen storeCapacity} (hmem : moment ∈ moments) (messageId : MessageId) :
    ¬DropsAt moment messageId := by
  cases h with
  | past past => cases hmem
  | later later =>
    rw [List.mem_singleton] at hmem
    subst hmem
    rintro ⟨outcome, hevent⟩
    cases hevent

section

variable [GatewayLinkExecutor E]

/-- `observe_time`, as its steps. -/
theorem exists_observes (now : TimestampMs) (world : World maxLinks maxSeen storeCapacity E) :
    ∃ moments core, Observes world.core now moments core ∧
      (observeTime now).run world = .ok () ⟨core, world.executor, world.log ++ moments⟩ := by
  rw [run_observeTime]
  by_cases hle : now ≤ world.core.lastNowMs
  · rw [if_pos hle]
    exact ⟨_, _, .past hle, by rw [List.append_nil]⟩
  · rw [if_neg hle]
    exact ⟨_, _, .later (UInt64.not_le.mp hle), rfl⟩

/-- **A call is made of these parts.** -/
theorem run_perform (op : GatewayOp) (world : World maxLinks maxSeen storeCapacity E)
    (hstore : world.core.store.WellFormed) :
    ∃ moments core executor, Call (Answers E) world.core op moments core ∧
      ((perform op).run world).state = ⟨core, executor, world.log ++ moments⟩ := by
  cases op with
  | submit envelope =>
    obtain ⟨moments, core, executor, hcall, hstate⟩ := run_submit envelope hstore
    exact ⟨moments, core, executor, .submit _ hcall, hstate⟩
  | ingestLinkFrame frame =>
    obtain ⟨observed, core₁, hobserves, hrun⟩ := exists_observes frame.receivedAtMs
      { world with core := { world.core with metrics := world.core.metrics.addReceived } }
    have hstore₁ := wellFormed_steps hobserves.steps hstore
    obtain ⟨moments, outcome, core, executor, hcall, -, hstate⟩ := run_routeThenFlush
      (by simp : ∀ now, RouterEvent.link (.frame frame) ≠ .tick now)
      ⟨core₁, world.executor, world.log ++ observed⟩ hstore₁
    refine ⟨observed ++ moments, core, executor, .ingestLinkFrame _ hobserves hcall, ?_⟩
    rw [perform, ingestLinkFrame, EStateM.run_bind, run_modifyMetrics]
    simp only
    rw [EStateM.run_bind, hrun, ← List.append_assoc]
    exact hstate
  | tick now =>
    obtain ⟨observed, core₁, hobserves, hrun⟩ := exists_observes now world
    have hstore₁ := wellFormed_steps hobserves.steps hstore
    obtain ⟨moments, outcome, core, executor, hflushes, -, hstate⟩ :=
      run_flushStore ⟨core₁, world.executor, world.log ++ observed⟩ hstore₁
    refine ⟨observed ++ moments, core, executor, .tick hobserves hflushes, ?_⟩
    rw [perform, tick, EStateM.run_bind, hrun, ← List.append_assoc]
    exact hstate
  | handleLinkEvent event =>
    by_cases hup : ∃ linkId, event = .up linkId
    · obtain ⟨linkId, rfl⟩ := hup
      obtain ⟨moments, outcome, core, executor, hcall, -, hstate⟩ := run_routeThenFlush
        (by simp : ∀ now, RouterEvent.link (.up linkId) ≠ .tick now) world hstore
      exact ⟨moments, core, executor, .recover hcall, hstate⟩
    · obtain ⟨moments, outcome, core, executor, hroutes, -, hstate⟩ :=
        run_routeEvent (.link event) world
      refine ⟨moments, core, executor, .handleLinkEvent hroutes, ?_⟩
      rw [← hstate]
      cases event with
      | up linkId => exact absurd ⟨linkId, rfl⟩ hup
      | down linkId => simp [perform, handleLinkEvent]
      | frame frame => simp [perform, handleLinkEvent]

end

/-! ## The clock -/

/-- Routing does not move the clock. -/
theorem Routes.lastNowMs_eq {event : RouterEvent} {outcome : Except GatewayError Unit}
    (h : Routes answers core event moments outcome core') : core'.lastNowMs = core.lastNowMs := by
  cases h with
  | executed plan_eq executes => exact executes.frame.lastNowMs
  | _ => rfl

/-- Neither does a flush behind it. -/
theorem RoutesThenFlushes.lastNowMs_eq {event : RouterEvent} {outcome : Except GatewayError Unit}
    (h : RoutesThenFlushes answers core event moments outcome core') :
    core'.lastNowMs = core.lastNowMs := by
  cases h with
  | refused routes => exact routes.lastNowMs_eq
  | flushed routes flushes => exact flushes.frame.lastNowMs.trans routes.lastNowMs_eq

/-- **Only the observed time moves the clock.** -/
theorem Call.lastNowMs_eq {op : GatewayOp} (h : Call answers core op moments core') :
    core'.lastNowMs = op.clockAfter core.lastNowMs := by
  cases h with
  | submit metrics routes => exact routes.lastNowMs_eq
  | ingestLinkFrame metrics observes routes => exact routes.lastNowMs_eq.trans observes.lastNowMs_eq
  | tick observes flushes => exact flushes.frame.lastNowMs.trans observes.lastNowMs_eq
  | recover routes => exact routes.lastNowMs_eq
  | handleLinkEvent routes => exact routes.lastNowMs_eq

/-- A call is made of steps. -/
theorem Call.steps {op : GatewayOp} (h : Call answers core op moments core') :
    Steps CoreStep core moments core' := by
  cases h with
  | submit metrics routes => exact (Steps.single (.metrics core metrics)).trans (routes.steps (by simp))
  | ingestLinkFrame metrics observes routes =>
    exact ((Steps.single (.metrics core metrics)).trans observes.steps).trans (routes.steps (by simp))
  | tick observes flushes =>
    have hexpired := observes.steps.tail (.expire _)
    rw [List.append_nil] at hexpired
    exact hexpired.trans flushes.steps
  | recover routes => exact routes.steps (by simp)
  | handleLinkEvent routes => exact routes.steps (by simp)

/-- **What a call drops as expired** is its own message. -/
theorem Call.dropsAt {op : GatewayOp} (htimely : core.Timely)
    (h : Call answers core op moments core') {moment : Moment maxLinks maxSeen storeCapacity}
    (hmem : moment ∈ moments) {messageId : MessageId} (hdrops : DropsAt moment messageId) :
    ∃ envelope ingress, op.event.message? = some (envelope, ingress) ∧
      envelope.messageId = messageId ∧ (envelope.expiresAtMs ≤ core'.lastNowMs ∨
        validateEnvelope envelope = .error .invalidExpiry) := by
  have hexpires : ∀ {event : RouterEvent} {core₁ : GatewayCore maxLinks maxSeen storeCapacity},
      core₁.Timely → core'.lastNowMs = core₁.lastNowMs →
      (∃ envelope ingress, event.message? = some (envelope, ingress) ∧ envelope.messageId = messageId ∧
        core₁.router.Expires envelope) →
      ∃ envelope ingress, event.message? = some (envelope, ingress) ∧
        envelope.messageId = messageId ∧ (envelope.expiresAtMs ≤ core'.lastNowMs ∨
          validateEnvelope envelope = .error .invalidExpiry) := by
    intro event core₁ htimely hclock hdropped
    rwa [hclock, ← htimely.clocks]
  cases h with
  | submit metrics routes =>
    have htimely₁ := htimely.steps (.single (.metrics core metrics))
    exact hexpires htimely₁ routes.lastNowMs_eq (routes.dropsAt htimely₁ (by simp) hmem hdrops)
  | ingestLinkFrame metrics observes routes =>
    have htimely₁ := htimely.steps ((Steps.single (.metrics core metrics)).trans observes.steps)
    obtain hobserved | hrouted := List.mem_append.mp hmem
    · exact absurd hdrops (observes.not_dropsAt hobserved messageId)
    · exact hexpires htimely₁ routes.lastNowMs_eq (routes.dropsAt htimely₁ (by simp) hrouted hdrops)
  | tick observes flushes =>
    have hexpired := htimely.steps (observes.steps.tail (.expire _))
    obtain hobserved | hflushed := List.mem_append.mp hmem
    · exact absurd hdrops (observes.not_dropsAt hobserved messageId)
    · exact absurd hdrops (flushes.not_dropsAt hexpired hflushed messageId)
  | recover routes =>
    exact hexpires htimely routes.lastNowMs_eq (routes.dropsAt htimely (by simp) hmem hdrops)
  | handleLinkEvent routes =>
    exact hexpires htimely routes.lastNowMs_eq (routes.dropsAt hmem hdrops)

/-! ## Records -/

/-- The record was handed on in one of the moments. -/
def ReleasedIn (moments : List (Moment maxLinks maxSeen storeCapacity)) (messageId : MessageId) : Prop :=
  ∃ moment ∈ moments, ∃ executions, moment.event = .flushed messageId executions ∧ Releases executions

/-- The record is stored, or has expired by `nowMs`, or was released. -/
def AccountsFor (core : GatewayCore maxLinks maxSeen storeCapacity)
    (moments : List (Moment maxLinks maxSeen storeCapacity)) (nowMs : TimestampMs)
    (record : StoreRecord) : Prop :=
  record ∈ core.store.live ∨ record.expiresAtMs ≤ nowMs ∨ ReleasedIn moments record.messageId

/-- **A stored record is kept** until it expires by the clock or is released. -/
theorem accountsFor_of_steps {record : StoreRecord} (hmem : record ∈ core.store.live)
    (hstore : core.store.WellFormed) (hsteps : Steps CoreStep core moments core') :
    core'.AccountsFor moments core'.lastNowMs record := by
  have hinit : core.store.WellFormed ∧ core.AccountsFor [] core.lastNowMs record :=
    ⟨hstore, .inl hmem⟩
  suffices hall : core'.store.WellFormed ∧ core'.AccountsFor ([] ++ moments) core'.lastNowMs record from
    hall.2
  apply hsteps.invariant (I := fun moments core =>
    core.store.WellFormed ∧ core.AccountsFor moments core.lastNowMs record) _ hinit
  rintro history core₁ moments core₂ ⟨hstore, hkept⟩ hstep
  refine ⟨wellFormed_step hstore hstep, ?_⟩
  obtain hlive | hexpired | ⟨moment, hmem, hreleased⟩ := hkept
  · have hexpire : ∀ now, now = core₂.lastNowMs → core₂.store = (core₁.store.expireBefore now).2 →
        record ∈ core₂.store.live ∨ record.expiresAtMs ≤ core₂.lastNowMs := by
      intro now hnow hexpired
      by_cases hle : record.expiresAtMs ≤ now
      · exact .inr (hnow ▸ hle)
      · rw [hexpired]
        exact .inl (Store.mem_live_expireBefore.mpr ⟨hlive, UInt64.not_le.mp hle⟩)
    cases hstep with
    | metrics metrics => exact .inl hlive
    | link set => exact .inl hlive
    | kept messageId executions => exact .inl hlive
    | observe later => exact (hexpire _ rfl rfl).imp_right .inl
    | expire => exact (hexpire _ rfl rfl).imp_right .inl
    | command admits step =>
      cases step with
      | put allowed accepted metrics =>
        exact .inl ((Store.putEnvelope_eq_ok accepted).mem_live.mpr (.inr hlive))
      | remove accepted => exact admits.elim
      | expireBefore now metrics => exact admits.elim
      | _ => exact .inl hlive
    | @released _ messageId executions _ releases removed =>
      by_cases hid : record.messageId = messageId
      · subst hid
        exact .inr (.inr ⟨_, List.mem_append_right _ (List.mem_singleton_self _), executions, rfl,
          releases⟩)
      · exact .inl ((hstore.mem_live_remove removed).mpr ⟨hlive, hid⟩)
  · exact .inr (.inl (UInt64.le_trans hexpired hstep.lastNowMs_le))
  · exact .inr (.inr ⟨moment, List.mem_append_left _ hmem, hreleased⟩)

end GatewayCore

end Hyf
