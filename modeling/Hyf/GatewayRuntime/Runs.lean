import Hyf.Gateway.Echo
import Hyf.GatewayRuntime.Answers
import Hyf.Router.FanOut

/-!
# Runs of the runtime

A run is any sequence of calls on a new runtime, whatever they return. `Consistent` ties the two halves
of a runtime together in every state of a run: the core is in a run of its own, with the log as it is; a
link that the router takes for up is a link of the pair whose endpoint is up; and what was accepted on a
link is, in order, what was received on the other side and then what waits in its queue. `Served` adds
what the pair went through in one call: its own part of the call, and then the sends of the core, each
answered as the pair was at that moment.
-/

namespace Hyf

open ByteCodec Loopback LoggedSteps GatewayCore

/-- The calls a runtime accepts. -/
inductive RuntimeOp where
  | submit (envelope : HyfEnvelopeRef)
  | ingestLinkFrame (frame : LinkFrameRef)
  | tick (now : TimestampMs)
  | setLinkUp (linkId : LinkId) (up : Bool)
  | loopbackQueuedLen (linkId : LinkId)
  | receiveLoopbackFrame (linkId : LinkId) (output : List UInt8)
  | pollLoopback (linkId : LinkId) (output : List UInt8)

/-- The frame that a link accepted, with the link. -/
def GatewayEvent.accepted? : GatewayEvent → Option (LinkId × SentFrame)
  | sendLinkBytes linkId bytes nowMs (.ok ()) => some (linkId, bytes, nowMs)
  | _ => none

section

variable {maxLinks maxSeen storeCapacity : ℕ}

/-- The frames that a link accepted, in order. -/
def acceptedOn (linkId : LinkId) (log : List (Moment maxLinks maxSeen storeCapacity)) :
    List SentFrame :=
  ((log.filterMap fun moment => moment.event.accepted?).filter
    fun accepted => accepted.1 = linkId).map Prod.snd

/-- What was accepted in two logs, one after the other. -/
@[simp] theorem acceptedOn_append (linkId : LinkId)
    (log log' : List (Moment maxLinks maxSeen storeCapacity)) :
    acceptedOn linkId (log ++ log') = acceptedOn linkId log ++ acceptedOn linkId log' := by
  rw [acceptedOn, List.filterMap_append, List.filter_append, List.map_append]
  rfl

/-- The frames that were received on a link, in order. -/
def receivedFrom (linkId : LinkId) (frames : List LinkFrameRef) : List SentFrame :=
  (frames.filter fun frame => frame.linkId = linkId).map fun frame =>
    (frame.bytes, frame.receivedAtMs)

/-- What was received in two lists, one after the other. -/
@[simp] theorem receivedFrom_append (linkId : LinkId) (frames frames' : List LinkFrameRef) :
    receivedFrom linkId (frames ++ frames') =
      receivedFrom linkId frames ++ receivedFrom linkId frames' := by
  rw [receivedFrom, List.filter_append, List.map_append]
  rfl

end

namespace GatewayRuntime

variable {maxLinks maxSeen storeCapacity loopbackQueue : ℕ} {config : GatewayConfig maxLinks}

/-- Performs an operation of the runtime, whatever it returns. -/
def perform : RuntimeOp → RuntimeM maxLinks maxSeen storeCapacity loopbackQueue Unit
  | .submit envelope => submit envelope
  | .ingestLinkFrame frame => ingestLinkFrame frame
  | .tick now => tick now
  | .setLinkUp linkId up => setLinkUp linkId up
  | .loopbackQueuedLen linkId => do let _ ← loopbackQueuedLen linkId
  | .receiveLoopbackFrame linkId output => do let _ ← receiveLoopbackFrame linkId output
  | .pollLoopback linkId output => do let _ ← pollLoopback linkId output

/-- The runtime after a sequence of calls on a new one. -/
inductive Run (config : GatewayConfig maxLinks) :
    RuntimeWorld maxLinks maxSeen storeCapacity loopbackQueue → Prop
  | start {world : RuntimeWorld maxLinks maxSeen storeCapacity loopbackQueue}
      (new_eq : new config = .ok world) : Run config world
  | call {world : RuntimeWorld maxLinks maxSeen storeCapacity loopbackQueue}
      (before : Run config world) (op : RuntimeOp) : Run config (perform op world).state

/-- One moment as the pair saw it: a send on the link of a side that is up, answered as the pair decides,
or anything else. -/
inductive AnsweredBy (mtu : ℕ) : LoopbackPair loopbackQueue →
    List (Moment maxLinks maxSeen storeCapacity) → LoopbackPair loopbackQueue → Prop
  | send {pair pair' : LoopbackPair loopbackQueue} {side : LoopbackSide} {bytes : List UInt8}
      {nowMs : TimestampMs} {answer : Except GatewayError Unit}
      (core : GatewayCore maxLinks maxSeen storeCapacity) (up : (pair.endpoint side).up = true)
      (answered : LinkAnswer mtu pair side (bytes, nowMs) answer pair') :
      AnsweredBy mtu pair [⟨.sendLinkBytes side.linkId bytes nowMs answer, core⟩] pair'
  | quiet {moment : Moment maxLinks maxSeen storeCapacity} (pair : LoopbackPair loopbackQueue)
      (quiet : moment.event.send? = none) : AnsweredBy mtu pair [moment] pair

/-- What was accepted at the moment fits the link. -/
def AcceptedFits (mtu : ℕ) (moment : Moment maxLinks maxSeen storeCapacity) : Prop :=
  ∀ linkId bytes nowMs, moment.event = .sendLinkBytes linkId bytes nowMs (.ok ()) → bytes.length ≤ mtu

/-- What the pair accepts fits its frames. -/
theorem AnsweredBy.acceptedFits {mtu : ℕ} {pair pair' : LoopbackPair loopbackQueue}
    {moments : List (Moment maxLinks maxSeen storeCapacity)} (h : AnsweredBy mtu pair moments pair') :
    ∀ moment ∈ moments, AcceptedFits mtu moment := by
  intro moment hmem linkId bytes nowMs hevent
  cases h with
  | send core up answered =>
    rw [List.mem_singleton] at hmem
    rw [hmem] at hevent
    cases hevent
    cases answered with
    | accepted fits => exact fits
  | quiet _ quiet =>
    rw [List.mem_singleton] at hmem
    rw [← hmem, hevent] at quiet
    cases quiet

/-- What the pair accepts over many steps fits its frames. -/
theorem acceptedFits_of_steps {mtu : ℕ} {pair pair' : LoopbackPair loopbackQueue}
    {moments : List (Moment maxLinks maxSeen storeCapacity)}
    (h : Steps (AnsweredBy mtu) pair moments pair') : ∀ moment ∈ moments, AcceptedFits mtu moment := by
  induction h with
  | refl => simp
  | tail _ last ih =>
    intro moment hmem
    obtain hmem | hmem := List.mem_append.mp hmem
    · exact ih moment hmem
    · exact last.acceptedFits moment hmem

/-- The links that the router takes for up are links of the pair whose endpoints are up. -/
def Agrees (router : Router maxLinks maxSeen) (pair : LoopbackPair loopbackQueue) : Prop :=
  ∀ linkId ∈ router.egressLinks none,
    ∃ side : LoopbackSide, linkId = side.linkId ∧ (pair.endpoint side).up = true

/-- The pair has carried what the log says was accepted, and what was received. -/
def Accounts (mtu : ℕ) (log : List (Moment maxLinks maxSeen storeCapacity))
    (received : List LinkFrameRef) (pair : LoopbackPair loopbackQueue) : Prop :=
  ∃ events, Carries mtu events pair ∧ ∀ side, sentFrom side events = acceptedOn side.linkId log ∧
    receivedOn side events = receivedFrom side.linkId received

/-- The two halves of a runtime fit together. -/
structure Consistent (config : GatewayConfig maxLinks)
    (world : RuntimeWorld maxLinks maxSeen storeCapacity loopbackQueue) : Prop where
  run : GatewayCore.Run config world.gateway.log world.gateway.core
  accounts : Accounts (firstLinkMtu config) world.gateway.log world.received world.gateway.executor
  agrees : Agrees world.gateway.core.router world.gateway.executor
  fits : ∀ moment ∈ world.gateway.log, AcceptedFits (firstLinkMtu config) moment

/-- A call whose own part left this pair led it through what the call logged, and the halves fit together
again. -/
structure Served (config : GatewayConfig maxLinks) (pair : LoopbackPair loopbackQueue)
    (world world' : RuntimeWorld maxLinks maxSeen storeCapacity loopbackQueue) : Prop where
  consistent : Consistent config world'
  answered : ∃ moments, world'.gateway.log = world.gateway.log ++ moments ∧
    Steps (AnsweredBy (firstLinkMtu config)) pair moments world'.gateway.executor

/-- A call that logs nothing. -/
theorem Consistent.served {world : RuntimeWorld maxLinks maxSeen storeCapacity loopbackQueue}
    (h : Consistent config world) : Served config world.gateway.executor world world :=
  ⟨h, [], (List.append_nil _).symm, .refl _⟩

/-- The pair after its own part of a call, before the core sends. -/
def driven (op : RuntimeOp) (pair : LoopbackPair loopbackQueue) : LoopbackPair loopbackQueue :=
  match op with
  | .setLinkUp linkId up => (LoopbackDriver.setLinkUp linkId up pair).state
  | .receiveLoopbackFrame linkId output | .pollLoopback linkId output =>
    (LoopbackDriver.receiveLinkFrame linkId (pair, output)).state.1
  | .submit _ | .ingestLinkFrame _ | .tick _ | .loopbackQueuedLen _ => pair

/-! ## Calls of the core -/

/-- The links to send on depend on the link table only. -/
theorem egressLinks_congr {router router' : Router maxLinks maxSeen}
    (h : router'.links = router.links) (ingress : Option LinkId) :
    router'.egressLinks ingress = router.egressLinks ingress := by
  rw [Router.egressLinks, h, Router.egressLinks]

/-- Agreement depends on the links and on which ends are up. -/
theorem Agrees.congr {router router' : Router maxLinks maxSeen}
    {pair pair' : LoopbackPair loopbackQueue} (h : Agrees router pair)
    (hlinks : router'.links = router.links) (hup : SameUp pair pair') : Agrees router' pair' := by
  intro linkId hlink
  rw [egressLinks_congr hlinks] at hlink
  obtain ⟨side, rfl, hside⟩ := h linkId hlink
  exact ⟨side, rfl, (hup side).trans hside⟩

/-- The two sides have different links. -/
theorem linkId_injective {side other : LoopbackSide} (h : side.linkId = other.linkId) :
    side = other := by
  cases side <;> cases other
  · rfl
  · exact absurd h.symm right_ne_left
  · exact absurd h right_ne_left
  · rfl

/-- A moment without a send changes no account. -/
theorem Accounts.append_quiet {mtu : ℕ} {log : List (Moment maxLinks maxSeen storeCapacity)}
    {received : List LinkFrameRef} {pair : LoopbackPair loopbackQueue}
    (h : Accounts mtu log received pair) {moment : Moment maxLinks maxSeen storeCapacity}
    (hquiet : moment.event.send? = none) : Accounts mtu (log ++ [moment]) received pair := by
  have hnone : moment.event.accepted? = none := by
    cases hevent : moment.event with
    | sendLinkBytes linkId bytes nowMs answer =>
      rw [hevent] at hquiet
      cases hquiet
    | _ => rfl
  obtain ⟨events, hcarries, hevents⟩ := h
  refine ⟨events, hcarries, fun side => ?_⟩
  rw [acceptedOn_append]
  simp only [acceptedOn, List.filterMap_cons, hnone, List.filterMap_nil, List.filter_nil,
    List.map_nil, List.append_nil]
  exact hevents side

/-- One answer more: what is accepted is sent. -/
theorem Accounts.append_send {mtu : ℕ} {log : List (Moment maxLinks maxSeen storeCapacity)}
    {received : List LinkFrameRef} {events : List LoopbackEvent}
    {pair : LoopbackPair loopbackQueue} {side : LoopbackSide} {bytes : List UInt8}
    {nowMs : TimestampMs} {answer : Except GatewayError Unit}
    (hcarries : Carries mtu (events ++ answeredEvents side (bytes, nowMs) answer) pair)
    (hevents : ∀ side, sentFrom side events = acceptedOn side.linkId log ∧
      receivedOn side events = receivedFrom side.linkId received)
    (core : GatewayCore maxLinks maxSeen storeCapacity) :
    Accounts mtu (log ++ [⟨.sendLinkBytes side.linkId bytes nowMs answer, core⟩]) received pair := by
  refine ⟨_, hcarries, fun other => ?_⟩
  obtain ⟨hsent, hreceived⟩ := hevents other
  rw [sentFrom_append, receivedOn_append, acceptedOn_append, hsent, hreceived]
  cases answer with
  | error error =>
    simp [answeredEvents, sentFrom, receivedOn, acceptedOn, GatewayEvent.accepted?]
  | ok value =>
    by_cases hsame : side = other
    · simp [answeredEvents, sentFrom, receivedOn, acceptedOn, GatewayEvent.accepted?, hsame]
    · have hlinkId : side.linkId ≠ other.linkId := fun h => hsame (linkId_injective h)
      simp [answeredEvents, sentFrom, receivedOn, acceptedOn, GatewayEvent.accepted?, hsame, hlinkId]

/-- **A call of the core keeps the halves together**, if they agree once the router has taken note of a
report. -/
theorem Consistent.perform_core
    (world : RuntimeWorld maxLinks maxSeen storeCapacity loopbackQueue)
    (hrun : GatewayCore.Run config world.gateway.log world.gateway.core)
    (haccounts : Accounts (firstLinkMtu config) world.gateway.log world.received
      world.gateway.executor)
    (hfits : ∀ moment ∈ world.gateway.log, AcceptedFits (firstLinkMtu config) moment) (op : GatewayOp)
    (hagrees : Agrees (noted world.gateway op).core.router world.gateway.executor) :
    Served config world.gateway.executor world
      { world with gateway := ((GatewayCore.perform op).run world.gateway).state } := by
  have hnoted : (noted world.gateway op).executor = world.gateway.executor ∧
      (noted world.gateway op).log = world.gateway.log := by
    cases op <;> exact ⟨rfl, rfl⟩
  obtain ⟨hlinks, moments, hlog, hsteps, hmoments⟩ := traffic_perform op world.gateway
  rw [hnoted.1] at hsteps
  rw [hnoted.2] at hlog
  have hrun' := hrun.call op (LoopbackPair loopbackQueue) world.gateway.executor
  have hadmitted : ∀ moment ∈ moments, SendsAdmitted moment ∧
      moment.core.router.links = (noted world.gateway op).core.router.links := by
    intro moment hmem
    refine ⟨hrun'.sendsAdmitted moment ?_, hmoments moment hmem⟩
    rw [hlog]
    exact List.mem_append_right _ hmem
  -- the invariant over the moments of the call: the account, the endpoints and what the pair answered
  have hinvariant := (hsteps.restrict hadmitted).invariant
    (I := fun moments pair => Accounts (firstLinkMtu config) (world.gateway.log ++ moments)
        world.received pair ∧ SameUp world.gateway.executor pair ∧
      Steps (AnsweredBy (firstLinkMtu config)) world.gateway.executor moments pair) ?_
    ⟨by rwa [List.append_nil], fun _ => rfl, .refl _⟩
  · rw [List.nil_append, ← hlog] at hinvariant
    obtain ⟨haccounts', hup, hanswered⟩ := hinvariant
    refine ⟨⟨hrun', haccounts', hagrees.congr hlinks hup, ?_⟩, moments, hlog, hanswered⟩
    intro moment hmem
    rw [hlog] at hmem
    obtain hmem | hmem := List.mem_append.mp hmem
    · exact hfits moment hmem
    · exact acceptedFits_of_steps hanswered moment hmem
  · rintro sent pair _ pair' ⟨⟨events, hcarries, hevents⟩, hup, hanswered⟩ ⟨hstep, hmoment⟩
    rw [← List.append_assoc]
    cases hstep with
    | quiet _ hquiet =>
      exact ⟨Accounts.append_quiet ⟨events, hcarries, hevents⟩ hquiet, hup,
        hanswered.tail (.quiet pair hquiet)⟩
    | @send _ _ linkId bytes nowMs answer core hanswer =>
      obtain ⟨hallowed, hcoreLinks⟩ := hmoment _ (List.mem_singleton_self _)
      obtain ⟨hegress, hlen, -⟩ := hallowed linkId bytes nowMs answer rfl
      rw [egressLinks_congr hcoreLinks] at hegress
      obtain ⟨side, rfl, hside⟩ := hagrees linkId hegress
      have hsideUp := (hup side).trans hside
      obtain ⟨answer', pair'', hcall, hlink, hup', hcarries'⟩ :=
        sendLinkBytes_cases bytes nowMs hcarries hsideUp hlen
      rw [hanswer] at hcall
      cases hcall
      exact ⟨.append_send hcarries' hevents core, fun other => (hup' other).trans (hup other),
        hanswered.tail (.send core hsideUp hlink)⟩

/-! ## Links going up and down -/

/-- The router's links after a report on a link of the pair. -/
theorem Agrees.setLinkState {router router' : Router maxLinks maxSeen}
    {pair : LoopbackPair loopbackQueue} {side : LoopbackSide} {up : Bool}
    (h : Agrees router pair) (hset : router.setLinkState side.linkId up = .ok router')
    (hnodup : router.linkIds.Nodup) :
    Agrees router' (pair.setEndpoint { pair.endpoint side with up } side) := by
  intro linkId hlink
  rw [Router.mem_egressLinks_none, Router.mem_live_setLinkState hset hnodup] at hlink
  by_cases hsame : side.linkId = linkId
  · rw [if_pos hsame] at hlink
    refine ⟨side, hsame.symm, ?_⟩
    rw [LoopbackPair.endpoint_setEndpoint, hlink]
  · rw [if_neg hsame, ← Router.mem_egressLinks_none] at hlink
    obtain ⟨other, rfl, hother⟩ := h linkId hlink
    refine ⟨other, rfl, ?_⟩
    rw [LoopbackPair.endpoint_setEndpoint_of_ne]
    · exact hother
    · rintro rfl
      exact hsame rfl

/-- An endpoint that goes up takes nothing away. -/
theorem Agrees.endpoint_up {router : Router maxLinks maxSeen} {pair : LoopbackPair loopbackQueue}
    (h : Agrees router pair) (side : LoopbackSide) :
    Agrees router (pair.setEndpoint { pair.endpoint side with up := true } side) := by
  intro linkId hlink
  obtain ⟨other, rfl, hother⟩ := h linkId hlink
  refine ⟨other, rfl, ?_⟩
  by_cases hsame : other = side
  · rw [hsame, LoopbackPair.endpoint_setEndpoint]
  · rw [LoopbackPair.endpoint_setEndpoint_of_ne _ _ hsame]
    exact hother

/-- The report that an endpoint makes of itself. -/
def linkEvent (linkId : LinkId) (up : Bool) : LinkEvent := if up then .up linkId else .down linkId

/-- The router and the pair agree about a link whose end was set up or down. -/
theorem agrees_routed {core : GatewayCore maxLinks maxSeen storeCapacity}
    {pair : LoopbackPair loopbackQueue} (h : Agrees core.router pair)
    (hnodup : core.router.linkIds.Nodup) (side : LoopbackSide) (up : Bool) :
    Agrees (core.routed (.link (linkEvent side.linkId up))).router
      (pair.setEndpoint { pair.endpoint side with up } side) := by
  cases up with
  | true =>
    rw [linkEvent, if_pos rfl, routed, Router.handleEvent]
    cases hset : core.router.setLinkState side.linkId true with
    | ok router => exact h.setLinkState hset hnodup
    | error error => exact h.endpoint_up side
  | false =>
    rw [linkEvent, if_neg Bool.false_ne_true, routed, Router.handleEvent]
    cases hset : core.router.setLinkState side.linkId false with
    | ok router => exact h.setLinkState hset hnodup
    | error error =>
      -- only a link that goes up may find the table full
      unfold Router.setLinkState at hset
      split at hset
      · cases hset
      · cases hset

/-- Setting an end up or down reports the event of its link. -/
theorem setUp_eq (side : LoopbackSide) (up : Bool) (pair : LoopbackPair loopbackQueue)
    (hlinkId : (pair.endpoint side).linkId = side.linkId) :
    LoopbackPair.setUp side up pair = .ok (linkEvent side.linkId up)
      (pair.setEndpoint { pair.endpoint side with up } side) := by
  rw [← hlinkId]
  cases up <;> rfl

/-- The driver's part of setting a link of the pair. -/
theorem driver_setLinkUp_of_side (side : LoopbackSide) (up : Bool) (pair : LoopbackPair loopbackQueue)
    (hlinkId : (pair.endpoint side).linkId = side.linkId) :
    LoopbackDriver.setLinkUp side.linkId up pair = .ok (linkEvent side.linkId up)
      (pair.setEndpoint { pair.endpoint side with up } side) := by
  rw [LoopbackDriver.setLinkUp, Outcome.lift_bind (sideForLink_linkId side)]
  exact setUp_eq side up pair hlinkId

/-- The driver refuses a link that is not its own. -/
theorem driver_setLinkUp_of_unknown {linkId : LinkId} (h : ∀ side : LoopbackSide, linkId ≠ side.linkId)
    (up : Bool) (pair : LoopbackPair loopbackQueue) :
    LoopbackDriver.setLinkUp linkId up pair =
      .error (.error (.linkMismatch loopbackLeftId linkId)) pair := by
  rw [LoopbackDriver.setLinkUp, Outcome.run_lift_bind_fail (sideForLink_of_unknown h)]

/-- Setting a link of the pair is a change of its endpoint, and then a call of the core. -/
theorem setLinkUp_of_side (side : LoopbackSide) (up : Bool)
    (world : RuntimeWorld maxLinks maxSeen storeCapacity loopbackQueue)
    (hlinkId : (world.gateway.executor.endpoint side).linkId = side.linkId) :
    setLinkUp side.linkId up world =
      onCore (GatewayCore.handleLinkEvent (linkEvent side.linkId up))
        (world.withPair (world.gateway.executor.setEndpoint
          { world.gateway.executor.endpoint side with up } side)) := by
  unfold setLinkUp
  rw [run_bind_of_ok]
  rw [onLoopback, driver_setLinkUp_of_side side up _ hlinkId]

/-- The runtime refuses a link that the driver refuses, and changes nothing. -/
theorem setLinkUp_of_unknown {linkId : LinkId} (h : ∀ side : LoopbackSide, linkId ≠ side.linkId)
    (up : Bool) (world : RuntimeWorld maxLinks maxSeen storeCapacity loopbackQueue) :
    setLinkUp linkId up world = .error (.error (.unsupportedLink linkId)) world := by
  unfold setLinkUp
  rw [run_bind_of_error]
  rw [onLoopback, driver_setLinkUp_of_unknown h]
  rfl

/-- A call of the core acts on the gateway and its executor only. -/
@[simp] theorem state_onCore {α : Type}
    (call : GatewayM maxLinks maxSeen storeCapacity (LoopbackPair loopbackQueue) α)
    (world : RuntimeWorld maxLinks maxSeen storeCapacity loopbackQueue) :
    (onCore call world).state = { world with gateway := (call.run world.gateway).state } := by
  rw [onCore, EStateM.run]
  cases call world.gateway <;> rfl

variable {world : RuntimeWorld maxLinks maxSeen storeCapacity loopbackQueue}

/-- No link of a consistent runtime is in the table twice. -/
theorem Consistent.nodup_linkIds (h : Consistent config world) :
    world.gateway.core.router.linkIds.Nodup :=
  Reachable.nodup_linkIds ⟨config, _, h.run⟩

/-- A link of the pair, or any other link. -/
theorem linkId_cases (linkId : LinkId) :
    (∃ side : LoopbackSide, linkId = side.linkId) ∨ ∀ side : LoopbackSide, linkId ≠ side.linkId := by
  by_cases h : ∃ side : LoopbackSide, linkId = side.linkId
  · exact .inl h
  · exact .inr fun side hside => h ⟨side, hside⟩

/-- Setting a link is served with its side set. -/
theorem Consistent.setLinkUp (h : Consistent config world) (linkId : LinkId) (up : Bool) :
    Served config (driven (.setLinkUp linkId up) world.gateway.executor) world
      (setLinkUp linkId up world).state := by
  obtain ⟨side, rfl⟩ | hunknown := linkId_cases linkId
  · obtain ⟨events, hcarries, hevents⟩ := h.accounts
    have hlinkId := hcarries.linkId_eq side
    have hset := hcarries.setUp side up
    have hagrees := agrees_routed h.agrees h.nodup_linkIds side up
    rw [setUp_eq side up _ hlinkId, EStateM.Result.state_ok] at hset
    have hdriven : driven (.setLinkUp side.linkId up) world.gateway.executor =
        world.gateway.executor.setEndpoint { world.gateway.executor.endpoint side with up } side := by
      rw [driven, driver_setLinkUp_of_side side up _ hlinkId, EStateM.Result.state_ok]
    rw [setLinkUp_of_side side up world hlinkId, state_onCore, hdriven]
    generalize world.gateway.executor.setEndpoint _ side = pair at hset hagrees
    have hserved := Consistent.perform_core (world.withPair pair) h.run ⟨events, hset, hevents⟩ h.fits
      (.handleLinkEvent (linkEvent side.linkId up)) hagrees
    exact ⟨hserved.consistent, hserved.answered⟩
  · rw [setLinkUp_of_unknown hunknown, driven, driver_setLinkUp_of_unknown hunknown]
    exact h.served

/-! ## Receiving -/

/-- Nothing is received from a link that does not exist. -/
theorem receiveLoopbackFrame_of_unknown {linkId : LinkId}
    (h : ∀ side : LoopbackSide, linkId ≠ side.linkId) (output : List UInt8)
    (world : RuntimeWorld maxLinks maxSeen storeCapacity loopbackQueue) :
    receiveLoopbackFrame linkId output world = .error (.error (.unsupportedLink linkId)) world := by
  rw [receiveLoopbackFrame, receiveLinkFrame_of_unknown h]
  rfl

/-- An empty queue gives nothing; without a cell the index calculation panics. -/
theorem receiveLoopbackFrame_of_nil (h : Consistent config world) {side : LoopbackSide}
    (hframes : (world.gateway.executor.endpoint side).Holds []) (output : List UInt8) :
    receiveLoopbackFrame side.linkId output world =
      if loopbackQueue = 0 then .error .panic world else .ok none world := by
  obtain ⟨events, hcarries, -⟩ := h.accounts
  rw [receiveLoopbackFrame, receiveLinkFrame_of_nil hcarries hframes]
  by_cases hzero : loopbackQueue = 0
  · rw [if_pos hzero, if_pos hzero]
    rfl
  · rw [if_neg hzero, if_neg hzero]
    simp only [Option.toList_none, List.append_nil, RuntimeWorld.withPair_self]

/-- The first frame that waits comes out, unless the output slice is too short for it. -/
theorem receiveLoopbackFrame_of_cons (h : Consistent config world) {side : LoopbackSide}
    {bytes : List UInt8} {nowMs : TimestampMs} {rest : List SentFrame}
    (hframes : (world.gateway.executor.endpoint side).Holds ((bytes, nowMs) :: rest))
    (output : List UInt8) :
    (output.length < bytes.length ∧ receiveLoopbackFrame side.linkId output world =
        .error (.error (.loopback (.outputTooSmall output.length bytes.length))) world) ∨
      bytes.length ≤ output.length ∧ ∃ world',
        receiveLoopbackFrame side.linkId output world =
          .ok (some ⟨side.linkId, nowMs, bytes⟩) world' ∧
        world'.gateway.core = world.gateway.core ∧ world'.gateway.log = world.gateway.log ∧
        world'.received = world.received ++ [⟨side.linkId, nowMs, bytes⟩] ∧
        Consistent config world' := by
  obtain ⟨events, hcarries, hevents⟩ := h.accounts
  obtain ⟨hshort, hfail⟩ | ⟨hroom, pair', output', hok, hup, hcarries'⟩ :=
    receiveLinkFrame_of_cons hcarries hframes output
  · refine .inl ⟨hshort, ?_⟩
    rw [receiveLoopbackFrame, hfail]
    rfl
  · have hreceive : receiveLoopbackFrame side.linkId output world =
        .ok (some ⟨side.linkId, nowMs, bytes⟩) { world.withPair pair' with
          received := world.received ++ [⟨side.linkId, nowMs, bytes⟩] } := by
      rw [receiveLoopbackFrame, hok]
      rfl
    refine .inr ⟨hroom, _, hreceive, rfl, rfl, rfl, ?_⟩
    refine ⟨h.run, ⟨_, hcarries', fun other => ?_⟩, h.agrees.congr rfl hup, h.fits⟩
    obtain ⟨hsent, hreceived⟩ := hevents other
    rw [sentFrom_append, receivedOn_append, receivedFrom_append, hsent, hreceived]
    by_cases hsame : side = other
    · simp [sentFrom, receivedOn, receivedFrom, RuntimeWorld.withPair, hsame]
    · have hlinkId : side.linkId ≠ other.linkId := fun h => hsame (linkId_injective h)
      simp [sentFrom, receivedOn, receivedFrom, RuntimeWorld.withPair, hsame, hlinkId]

/-- Receiving is the driver's part, and logs nothing. -/
theorem state_receiveLoopbackFrame (linkId : LinkId) (output : List UInt8)
    (world : RuntimeWorld maxLinks maxSeen storeCapacity loopbackQueue) :
    (receiveLoopbackFrame linkId output world).state.gateway =
      { world.gateway with
        executor := driven (.receiveLoopbackFrame linkId output) world.gateway.executor } := by
  show _ = { world.gateway with
    executor := (LoopbackDriver.receiveLinkFrame linkId (world.gateway.executor, output)).state.1 }
  unfold receiveLoopbackFrame
  cases LoopbackDriver.receiveLinkFrame linkId (world.gateway.executor, output) <;> rfl

/-- Receiving a frame keeps the runtime consistent. -/
theorem Consistent.receiveLoopbackFrame (h : Consistent config world) (linkId : LinkId)
    (output : List UInt8) : Consistent config (receiveLoopbackFrame linkId output world).state := by
  obtain ⟨side, rfl⟩ | hunknown := linkId_cases linkId
  · obtain ⟨events, hcarries, -⟩ := h.accounts
    obtain ⟨frames, hframes, -⟩ := hcarries.queue side
    cases frames with
    | nil =>
      rw [receiveLoopbackFrame_of_nil h hframes]
      split_ifs <;> exact h
    | cons first rest =>
      obtain ⟨bytes, nowMs⟩ := first
      obtain ⟨-, hfail⟩ | ⟨-, world', hok, -, -, -, hconsistent⟩ :=
        receiveLoopbackFrame_of_cons h hframes output
      · rw [hfail]
        exact h
      · rw [hok]
        exact hconsistent
  · rw [receiveLoopbackFrame_of_unknown hunknown]
    exact h

/-! ## Every call -/

/-- A value that is computed at the end changes no state. -/
theorem state_bind_pure {α β : Type}
    {call : RuntimeM maxLinks maxSeen storeCapacity loopbackQueue α} {f : α → β} :
    ((call >>= fun a => pure (f a)) world).state = (call world).state := by
  cases hrun : call world with
  | ok a world' =>
    rw [run_bind_of_ok hrun]
    rfl
  | error fault world' =>
    rw [run_bind_of_error hrun]
    rfl

/-- A call of the core that is no report on a link. -/
theorem Consistent.onCore (h : Consistent config world) (op : GatewayOp)
    (hop : ∀ event, op ≠ .handleLinkEvent event) :
    Served config world.gateway.executor world (onCore (GatewayCore.perform op) world).state := by
  rw [state_onCore]
  refine Consistent.perform_core world h.run h.accounts h.fits op ?_
  cases op with
  | handleLinkEvent event => exact absurd rfl (hop event)
  | _ => exact h.agrees

/-- A poll is served by the driver, and then as the call of the core with the frame. -/
theorem Consistent.pollLoopback (h : Consistent config world) (linkId : LinkId)
    (output : List UInt8) : Served config (driven (.pollLoopback linkId output) world.gateway.executor)
      world (pollLoopback linkId output world).state := by
  have hreceive := h.receiveLoopbackFrame linkId output
  have hgateway := state_receiveLoopbackFrame linkId output world
  unfold GatewayRuntime.pollLoopback
  cases hrun : GatewayRuntime.receiveLoopbackFrame linkId output world with
  | error fault world' =>
    rw [hrun, EStateM.Result.state_error] at hreceive hgateway
    rw [run_bind_of_error hrun, EStateM.Result.state_error]
    refine ⟨hreceive, [], ?_, ?_⟩
    · rw [hgateway, List.append_nil]
    · rw [hgateway]
      exact .refl _
  | ok frame world' =>
    rw [hrun, EStateM.Result.state_ok] at hreceive hgateway
    rw [run_bind_of_ok hrun]
    have hlog : world'.gateway.log = world.gateway.log := by rw [hgateway]
    have hpair : world'.gateway.executor =
        driven (.pollLoopback linkId output) world.gateway.executor := by
      rw [hgateway]
      rfl
    cases frame with
    | none => exact ⟨hreceive, [], by rw [List.append_nil]; exact hlog, hpair ▸ .refl _⟩
    | some frame =>
      obtain ⟨hconsistent, moments, hmoments, hsteps⟩ :=
        hreceive.onCore (.ingestLinkFrame frame) (by simp)
      rw [hlog] at hmoments
      rw [hpair] at hsteps
      show Served config _ world
        ((GatewayRuntime.ingestLinkFrame frame >>= fun _ => pure true) world').state
      rw [state_bind_pure]
      exact ⟨hconsistent, moments, hmoments, hsteps⟩

/-- **Every call keeps the halves of a runtime together**, whatever it returns, and what it sends is
answered by the pair as the driver's part of the call left it. -/
theorem Consistent.perform (h : Consistent config world) (op : RuntimeOp) :
    Served config (driven op world.gateway.executor) world (perform op world).state := by
  cases op with
  | submit envelope => exact h.onCore (.submit envelope) (by simp)
  | ingestLinkFrame frame => exact h.onCore (.ingestLinkFrame frame) (by simp)
  | tick now => exact h.onCore (.tick now) (by simp)
  | setLinkUp linkId up => exact h.setLinkUp linkId up
  | loopbackQueuedLen linkId =>
    unfold GatewayRuntime.perform
    rw [state_bind_pure, loopbackQueuedLen, onLoopback, LoopbackDriver.queuedLen]
    obtain hside | ⟨error, hside⟩ := sideForLink_cases linkId
    · rw [Outcome.lift_bind hside]
      exact h.served
    · rw [Outcome.run_lift_bind_fail hside]
      exact h.served
  | receiveLoopbackFrame linkId output =>
    have hgateway := state_receiveLoopbackFrame linkId output world
    unfold GatewayRuntime.perform
    rw [state_bind_pure]
    refine ⟨h.receiveLoopbackFrame linkId output, [], ?_, ?_⟩
    · rw [hgateway, List.append_nil]
    · rw [hgateway]
      exact .refl _
  | pollLoopback linkId output =>
    unfold GatewayRuntime.perform
    rw [state_bind_pure]
    exact h.pollLoopback linkId output

/-! ## New runtimes -/

/-- The runtime before its links are activated. -/
def inactive (config : GatewayConfig maxLinks)
    (core : GatewayCore maxLinks maxSeen storeCapacity) :
    RuntimeWorld maxLinks maxSeen storeCapacity loopbackQueue :=
  ⟨⟨core, LoopbackPair.new (firstLinkMtu config), []⟩, []⟩

/-- A runtime is consistent before its links are activated. -/
theorem consistent_inactive {core : GatewayCore maxLinks maxSeen storeCapacity}
    (h : GatewayCore.new config = .ok core) :
    Consistent config (inactive config core :
      RuntimeWorld maxLinks maxSeen storeCapacity loopbackQueue) where
  run := .start h
  accounts := ⟨[], Carries.new, fun side => ⟨rfl, rfl⟩⟩
  agrees := by
    obtain ⟨-, -, -, -, rfl⟩ := new_eq_ok h
    intro linkId hlink
    simp [inactive, Router.mem_egressLinks_none, Router.new] at hlink
  fits moment hmem := by cases hmem

/-- A runtime that was made has a new core whose links were all activated. -/
theorem new_eq {config : GatewayConfig maxLinks}
    {world : RuntimeWorld maxLinks maxSeen storeCapacity loopbackQueue}
    (h : new config = .ok world) : validateSupportedLinks config = .ok () ∧
      ∃ core : GatewayCore maxLinks maxSeen storeCapacity, GatewayCore.new config = .ok core ∧
        activateLinks config.links.live (inactive config core) = .ok () world := by
  unfold new at h
  obtain ⟨_, hlinks, h⟩ := Except.exists_of_bind_eq_ok h
  obtain ⟨core, hcore, h⟩ := Except.exists_of_bind_eq_ok h
  have hcore' : GatewayCore.new config = .ok core := by
    cases hnew : (GatewayCore.new config : Except GatewayError
        (GatewayCore maxLinks maxSeen storeCapacity)) with
    | ok core' =>
      rw [hnew] at hcore
      cases hcore
      rfl
    | error error =>
      rw [hnew] at hcore
      cases hcore
  have hlinks' : validateSupportedLinks config = .ok () := by
    cases hvalidate : validateSupportedLinks config with
    | ok value => rfl
    | error error =>
      rw [hvalidate] at hlinks
      cases hlinks
  refine ⟨hlinks', core, hcore', ?_⟩
  have hconfig : core.config = config := by
    obtain ⟨-, -, -, -, rfl⟩ := new_eq_ok hcore'
    rfl
  have hactivate : activateConfiguredLinks (inactive config core) =
      activateLinks config.links.live (inactive config core :
        RuntimeWorld maxLinks maxSeen storeCapacity loopbackQueue) := by
    unfold activateConfiguredLinks
    rw [run_get_bind, inactive]
    simp only [hconfig]
  rw [← hactivate]
  unfold inactive
  cases hrun : activateConfiguredLinks (⟨⟨core, LoopbackPair.new (firstLinkMtu config), []⟩, []⟩ :
      RuntimeWorld maxLinks maxSeen storeCapacity loopbackQueue) with
  | ok value world' =>
    rw [hrun] at h
    cases h
    rfl
  | error fault world' =>
    rw [hrun] at h
    cases h

/-- Activating links keeps the runtime consistent. -/
theorem Consistent.activateLinks (h : Consistent config world) (links : List LinkConfig) :
    Consistent config (activateLinks links world).state := by
  induction links generalizing world with
  | nil => exact h
  | cons link rest ih =>
    rw [GatewayRuntime.activateLinks]
    by_cases henabled : link.enabled = true
    · rw [if_pos henabled]
      have hset := h.setLinkUp link.linkId true
      cases hrun : GatewayRuntime.setLinkUp link.linkId true world with
      | ok value world' =>
        rw [hrun] at hset
        rw [run_bind_of_ok hrun]
        exact ih hset.consistent
      | error fault world' =>
        rw [hrun] at hset
        rw [run_bind_of_error hrun]
        exact hset.consistent
    · rw [if_neg henabled]
      exact ih h

/-- **The halves of a runtime fit together after every run.** -/
theorem consistent_of_run (h : Run config world) : Consistent config world := by
  induction h with
  | start new_eq =>
    obtain ⟨-, core, hcore, hactivate⟩ := GatewayRuntime.new_eq new_eq
    have hinactive : Consistent config (inactive config core :
        RuntimeWorld maxLinks maxSeen storeCapacity loopbackQueue) := consistent_inactive hcore
    have hlinks := hinactive.activateLinks config.links.live
    rw [hactivate] at hlinks
    exact hlinks
  | call before op ih => exact (ih.perform op).consistent

end GatewayRuntime

end Hyf
