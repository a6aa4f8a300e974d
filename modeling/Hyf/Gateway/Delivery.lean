import Hyf.Gateway.Mesh

/-!
# What a mesh can deliver

From any mesh that is running, a message to a node can be brought there over any path of gateways that are
ready for it, of at most as many links as it has hops (`Mesh.reaches_destination`). The gateways on the path
have not seen the message, by their clocks it has not expired, and each but the last has a link to send it
on; whatever else they have stored or seen, and whatever the other gateways do, is left open.
-/

namespace Hyf

namespace Router

variable {maxLinks maxSeen : ℕ} {router : Router maxLinks maxSeen} {envelope : HyfEnvelopeRef}

/-- A local destination is no community. -/
theorem not_community_of_isLocalDestination (h : router.isLocalDestination envelope.destination = true)
    (communityId : CommunityId) : envelope.destination ≠ .community communityId := by
  intro hdestination
  rw [hdestination] at h
  cases h

/-- The plan for an event with a message. -/
theorem planEvent_of_message {event : RouterEvent} {ingress : Option LinkId}
    (hmessage : event.message? = some (envelope, ingress)) (hvalid : ValidEnvelope envelope) :
    router.planEvent event = .ok (router.planEnvelope envelope ingress) := by
  have hplan := @planFor_of_valid _ _ router _ hvalid ingress
  cases event with
  | localSubmit submitted =>
    cases hmessage
    exact hplan
  | tick now => cases hmessage
  | link event =>
    cases event with
    | up linkId => cases hmessage
    | down linkId => cases hmessage
    | frame frame =>
      cases hdecode : decodeEnvelope frame.bytes with
      | error error =>
        simp only [RouterEvent.message?, hdecode] at hmessage
        cases hmessage
      | ok decoded =>
        simp only [RouterEvent.message?, hdecode] at hmessage
        cases hmessage
        simp only [planEvent, hdecode]
        exact hplan

/-- An envelope to the node itself is delivered. -/
theorem planUnicast_of_local (h : router.isLocalDestination envelope.destination = true)
    (ingress : Option LinkId) : router.planUnicast envelope ingress = [.deliverLocal envelope] := by
  rw [planUnicast, if_pos h]

/-- An envelope to another node is sent on, if there is a link for it. -/
theorem planUnicast_of_remote {outbound : HyfEnvelopeRef} {ingress : Option LinkId}
    (hremote : router.isLocalDestination envelope.destination = false)
    (hhops : envelopeForNextHop envelope ingress = .ok outbound) (hlinked : router.egressLinks ingress ≠ []) :
    ∃ linkId, router.planUnicast envelope ingress = [.send linkId outbound] := by
  obtain ⟨linkId, rest, hlinks⟩ := List.exists_cons_of_ne_nil hlinked
  refine ⟨linkId, ?_⟩
  rw [planUnicast, hremote, hhops, hlinks]
  rfl

end Router

namespace GatewayCore

variable {maxLinks maxSeen storeCapacity : ℕ}
  {answers : LinkId → List UInt8 → TimestampMs → Except GatewayError Unit → Prop}
  {core core' : GatewayCore maxLinks maxSeen storeCapacity}
  {moments : List (Moment maxLinks maxSeen storeCapacity)}

/-- Every command of a plan that fits the buffer is executed. -/
theorem Routes.exists_step {event : RouterEvent} {plan : List RouterCommand} {command : RouterCommand}
    {outcome : Except GatewayError Unit} (h : Routes answers core event moments outcome core')
    (hplan : core.router.planEvent event = .ok plan) (hroom : plan.length ≤ routerCommandCapacity)
    (hmem : command ∈ plan) :
    ∃ before inner executed after, CommandStep answers before command inner executed after ∧
      inner ++ [⟨.executed command executed, after⟩] ⊆ moments := by
  cases h with
  | refused plan_eq =>
    rw [hplan] at plan_eq
    cases plan_eq
  | crowded plan_eq crowded =>
    rw [hplan] at plan_eq
    cases plan_eq
    exact absurd hroom (Nat.not_le.mpr crowded)
  | executed plan_eq executes =>
    rw [hplan] at plan_eq
    cases plan_eq
    exact executes.exists_step hmem

/-- What was routed first is part of the log. -/
theorem RoutesThenFlushes.exists_routes {event : RouterEvent} {outcome : Except GatewayError Unit}
    (h : RoutesThenFlushes answers core event moments outcome core') :
    ∃ first routed core₁, Routes answers core event first routed core₁ ∧ first ⊆ moments := by
  cases h with
  | refused routes => exact ⟨_, _, _, routes, List.Subset.refl _⟩
  | flushed routes flushes => exact ⟨_, _, _, routes, List.subset_append_left _ _⟩

/-- A call that does not move the clock routes its event. -/
theorem Call.exists_routes {op : GatewayOp} (h : Call answers core op moments core')
    (hevent : ∀ now, op.event ≠ .tick now) (hclock : op.clockAfter core.lastNowMs = core.lastNowMs) :
    ∃ before first routed after, before.router = core.router ∧
      Routes answers before op.event first routed after ∧ first ⊆ moments := by
  cases h with
  | submit metrics routes =>
    obtain ⟨first, routed, core₁, hroutes, hsub⟩ := routes.exists_routes
    exact ⟨{ core with metrics }, first, routed, core₁, rfl, hroutes, hsub⟩
  | @ingestLinkFrame frame observed _ _ _ _ metrics observes routes =>
    obtain ⟨first, routed, core₁, hroutes, hsub⟩ := routes.exists_routes
    cases observes with
    | past past => exact ⟨{ core with metrics }, first, routed, core₁, rfl, hroutes, hsub⟩
    | later later =>
      rw [GatewayOp.clockAfter, if_neg (UInt64.not_le.mpr later)] at hclock
      exact absurd (hclock ▸ later : frame.receivedAtMs < frame.receivedAtMs) (UInt64.lt_irrefl _)
  | tick observes flushes => exact absurd rfl (hevent _)
  | recover routes =>
    obtain ⟨first, routed, core₁, hroutes, hsub⟩ := routes.exists_routes
    exact ⟨_, first, routed, core₁, rfl, hroutes, hsub⟩
  | handleLinkEvent routes => exact ⟨_, _, _, _, rfl, routes, List.Subset.refl _⟩

/-- Every command that a call plans is executed in it. -/
theorem Call.exists_step {op : GatewayOp} {plan : List RouterCommand} {command : RouterCommand}
    (h : Call answers core op moments core') (hevent : ∀ now, op.event ≠ .tick now)
    (hclock : op.clockAfter core.lastNowMs = core.lastNowMs)
    (hplan : core.router.planEvent op.event = .ok plan) (hroom : plan.length ≤ routerCommandCapacity)
    (hmem : command ∈ plan) :
    ∃ before inner executed after, CommandStep answers before command inner executed after ∧
      inner ++ [⟨.executed command executed, after⟩] ⊆ moments := by
  obtain ⟨routing, first, routed, after, hrouter, hroutes, hsub⟩ := h.exists_routes hevent hclock
  rw [← hrouter] at hplan
  obtain ⟨before, inner, executed, after, hstep, hlogged⟩ := hroutes.exists_step hplan hroom hmem
  exact ⟨before, inner, executed, after, hstep, List.Subset.trans hlogged hsub⟩

end GatewayCore

namespace Mesh

variable {ι : Type} {maxLinks maxSeen storeCapacity : ι → ℕ}
  {mesh : Mesh ι maxLinks maxSeen storeCapacity} {envelope : HyfEnvelopeRef}

/-! ## Paths -/

/-- The link on which a message comes to a node of a path; at the first it is submitted. -/
def ingressAt (entry : ℕ → LinkId) : ℕ → Option LinkId
  | 0 => none
  | place + 1 => some (entry place)

/-- The gateways of a path are ready for a message to the last of them. -/
structure Leads (mesh : Mesh ι maxLinks maxSeen storeCapacity) (envelope : HyfEnvelopeRef) (path : ℕ → ι)
    (entry : ℕ → LinkId) (links : ℕ) : Prop where
  distinct : ∀ i ≤ links, ∀ j ≤ links, path i = path j → i = j
  unexpired : ∀ i ≤ links, (mesh.cores (path i)).router.nowMs < envelope.expiresAtMs
  fresh : ∀ i ≤ links, (mesh.cores (path i)).router.hasSeen (seenKeyFor envelope) = false
  remote : ∀ i < links, (mesh.cores (path i)).router.isLocalDestination envelope.destination = false
  linked : ∀ i < links, (mesh.cores (path i)).router.egressLinks (ingressAt entry i) ≠ []
  arrives : (mesh.cores (path links)).router.isLocalDestination envelope.destination = true

/-- A message that a gateway can send. -/
structure Sendable (envelope : HyfEnvelopeRef) : Prop where
  valid : ValidEnvelope envelope
  fits : (wireBytes envelope).length ≤ gatewayFrameBufferLen

/-- An envelope that can be sent can be sent with fewer hops. -/
theorem Sendable.losesHops {hops : ℕ} {version : HyfEnvelopeRef} (h : Sendable envelope)
    (hloses : Router.LosesHops envelope hops version) : Sendable version := by
  have hversion := hloses.same
  refine ⟨?_, ?_⟩
  · rw [hversion]
    exact h.valid.withHopLimit _
  · have hlength : (wireBytes version).length = (wireBytes envelope).length := by
      rw [length_wireBytes, length_wireBytes, hversion]
    rw [hlength]
    exact h.fits

section

variable {path : ℕ → ι} {entry : ℕ → LinkId} {links place hops : ℕ} {version : HyfEnvelopeRef}
  {event : RouterEvent} {ingress : Option LinkId} (hleads : mesh.Leads envelope path entry links)
  (hsendable : Sendable envelope) (hloses : Router.LosesHops envelope hops version)
  (hmessage : event.message? = some (version, ingress))

include hleads hsendable hloses hmessage

/-- What a node on the path plans for a version of the message. -/
theorem Leads.planEvent_eq (hplace : place ≤ links) :
    (mesh.cores (path place)).router.planEvent event =
      .ok ((mesh.cores (path place)).router.planUnicast version ingress) := by
  have hunicast := Router.not_community_of_isLocalDestination hleads.arrives
  have hversion := hloses.same
  rw [Router.planEvent_of_message hmessage (hsendable.losesHops hloses).valid,
    Router.planEnvelope_of_unicast]
  · rw [hversion]
    exact hunicast
  · rw [hversion]
    exact hleads.unexpired place hplace
  · rw [hversion]
    exact hleads.fresh place hplace

/-- A node before the last one plans to send the message on. -/
theorem Leads.exists_send (hplace : place < links) (hingress : ingress = ingressAt entry place)
    (hhops : Router.exhausts version ingress = false) :
    ∃ linkId, (mesh.cores (path place)).router.planEvent event =
      .ok [.send linkId (Router.outboundFor version ingress)] := by
  have hversion := hloses.same
  have hremote : (mesh.cores (path place)).router.isLocalDestination version.destination = false := by
    rw [hversion]
    exact hleads.remote place hplace
  have hnext : envelopeForNextHop version ingress = .ok (Router.outboundFor version ingress) := by
    rw [Router.envelopeForNextHop_eq, hhops]
    rfl
  obtain ⟨linkId, hplan⟩ := Router.planUnicast_of_remote hremote hnext
    (hingress ▸ hleads.linked place hplace)
  exact ⟨linkId, by rw [hleads.planEvent_eq hsendable hloses hmessage hplace.le, hplan]⟩

/-- The last node plans to deliver it. -/
theorem Leads.plans_delivery :
    (mesh.cores (path links)).router.planEvent event = .ok [.deliverLocal version] := by
  have hversion := hloses.same
  rw [hleads.planEvent_eq hsendable hloses hmessage le_rfl, Router.planUnicast_of_local]
  rw [hversion]
  exact hleads.arrives

end

/-! ## Calls along a path -/

/-- A call that moves no clock, about a version of a message that came in on `ingress`. -/
structure Brings (mesh : Mesh ι maxLinks maxSeen storeCapacity) (node : ι) (version : HyfEnvelopeRef)
    (ingress : Option LinkId) (op : GatewayOp) : Prop where
  message : op.event.message? = some (version, ingress)
  clock : op.clockAfter (mesh.cores node).lastNowMs = (mesh.cores node).lastNowMs
  carried : ∀ bytes, .arrived bytes ∈ op.event.meshEvents → ∃ sender, (sender, .sent bytes) ∈ mesh.history

/-- Submitting an envelope brings it to the node. -/
theorem brings_submit (node : ι) : mesh.Brings node envelope none (.submit envelope) where
  message := rfl
  clock := rfl
  carried bytes hmem := by
    cases List.mem_singleton.mp hmem

/-- A frame that was sent can be taken in at any node and on any link. -/
theorem brings_frame {sender : ι} (node : ι) (linkId : LinkId) (hvalid : ValidEnvelope envelope)
    (hsent : (sender, .sent (wireBytes envelope)) ∈ mesh.history) :
    mesh.Brings node envelope (some linkId) (.ingestLinkFrame ⟨linkId, 0, wireBytes envelope⟩) where
  message := by
    simp only [GatewayOp.event, RouterEvent.message?, decodeEnvelope_wireBytes hvalid]
  clock := by
    rw [GatewayOp.clockAfter, if_pos UInt64.zero_le]
  carried bytes hmem := by
    cases List.mem_singleton.mp hmem
    exact ⟨sender, hsent⟩

variable [DecidableEq ι]

section

variable {node : ι} {version : HyfEnvelopeRef} {ingress : Option LinkId} {op : GatewayOp} {E : Type}
  [GatewayLinkExecutor E] (executor : E) (hstore : (mesh.cores node).store.WellFormed)
  (hbrings : mesh.Brings node version ingress op)

include hstore hbrings

/-- A command that a call plans leaves its event in the history. -/
theorem Brings.mem_history {plan : List RouterCommand} {command : RouterCommand} {event : MeshEvent}
    (hplan : (mesh.cores node).router.planEvent op.event = .ok plan)
    (hroom : plan.length ≤ routerCommandCapacity) (hcommand : command ∈ plan)
    (hlogs : ∀ {before after : GatewayCore (maxLinks node) (maxSeen node) (storeCapacity node)} {inner}
      {executed}, GatewayCore.CommandStep (GatewayCore.Answers E) before command inner executed after →
      ∃ moment ∈ inner ++ [⟨.executed command executed, after⟩],
        moment.event.meshEvent? = some event) :
    (node, event) ∈ (mesh.call node op executor).history := by
  have hevent : ∀ now, op.event ≠ .tick now := by
    intro now htick
    have hmessage := hbrings.message
    rw [htick] at hmessage
    cases hmessage
  obtain ⟨moments, core, hcall, -, hhistory⟩ := mesh.exists_call hstore op executor
  obtain ⟨before, inner, executed, after, hstep, hsub⟩ :=
    hcall.exists_step hevent hbrings.clock hplan hroom hcommand
  obtain ⟨moment, hmem, hseen⟩ := hlogs hstep
  rw [hhistory]
  exact List.mem_append_right _ (List.mem_map_of_mem (List.mem_filterMap.mpr ⟨moment, hsub hmem, hseen⟩))

/-- What the node plans to send is sent. -/
theorem Brings.sent_mem_history {plan : List RouterCommand} {outbound : HyfEnvelopeRef} {linkId : LinkId}
    (hplan : (mesh.cores node).router.planEvent op.event = .ok plan)
    (hroom : plan.length ≤ routerCommandCapacity) (hcommand : .send linkId outbound ∈ plan)
    (hsendable : Sendable outbound) :
    (node, .sent (wireBytes outbound)) ∈ (mesh.call node op executor).history := by
  apply hbrings.mem_history executor hstore hplan hroom hcommand
  intro before after inner executed hstep
  obtain ⟨-, moment, hmem, hsent⟩ := hstep.send_of_fits hsendable.valid hsendable.fits
  exact ⟨moment, List.mem_append_left _ hmem, by rw [hsent]; rfl⟩

/-- What the node plans to deliver is delivered. -/
theorem Brings.delivered_mem_history {plan : List RouterCommand}
    (hplan : (mesh.cores node).router.planEvent op.event = .ok plan)
    (hroom : plan.length ≤ routerCommandCapacity) (hcommand : .deliverLocal version ∈ plan) :
    (node, .delivered version) ∈ (mesh.call node op executor).history := by
  apply hbrings.mem_history executor hstore hplan hroom hcommand
  intro before after inner executed _
  exact ⟨_, List.mem_append_right _ (List.mem_singleton_self _), rfl⟩

end

/-- A call changes no other node's core. -/
theorem call_cores_of_ne {E : Type} [GatewayLinkExecutor E] (executor : E) (op : GatewayOp) {node other : ι}
    (hne : other ≠ node) : (mesh.call node op executor).cores other = mesh.cores other :=
  Function.update_of_ne hne _ _

/-- The nodes before `place` were called in turn, those from there on are as they were, and a version of the
message can be brought to the node at `place`. -/
structure Underway (mesh mesh' : Mesh ι maxLinks maxSeen storeCapacity) (envelope : HyfEnvelopeRef)
    (path : ℕ → ι) (entry : ℕ → LinkId) (links place : ℕ) : Prop where
  steps : Relation.ReflTransGen Step mesh mesh'
  accountable : Accountable mesh'
  ahead : ∀ i ≤ links, place ≤ i → mesh'.cores (path i) = mesh.cores (path i)
  brings : ∃ version op, Router.LosesHops envelope (place - 1) version ∧
    mesh'.Brings (path place) version (ingressAt entry place) op

section

variable {mesh' : Mesh ι maxLinks maxSeen storeCapacity} {path : ℕ → ι} {entry : ℕ → LinkId}
  {links place : ℕ} (hleads : mesh.Leads envelope path entry links) (hsendable : Sendable envelope)

/-- Before the first call the envelope is at the start of its path. -/
theorem Accountable.underway (h : Accountable mesh) : mesh.Underway mesh envelope path entry links 0 where
  steps := .refl
  accountable := h
  ahead _ _ _ := rfl
  brings := ⟨envelope, .submit envelope, .refl envelope, brings_submit _⟩

open GatewayCore (AcceptAll)

/-- A version that has lost a hop for every link but the last can lose another. -/
theorem exhausts_eq_false {version : HyfEnvelopeRef} (hloses : Router.LosesHops envelope (place - 1) version)
    (hhops : place < envelope.hopLimit.toNat) :
    Router.exhausts version (ingressAt entry place) = false := by
  have heq := hloses.hopLimit_eq
  cases place with
  | zero =>
    simp only [ingressAt, Router.exhausts, decide_eq_false_iff_not]
    intro hzero
    rw [hzero, UInt8.toNat_zero] at heq
    omega
  | succ place =>
    refine Router.exhausts_some_eq_false_iff.mpr (UInt8.le_iff_toNat_le.mpr ?_)
    show 2 ≤ version.hopLimit.toNat
    omega

/-- One hop more is lost on the next link. -/
theorem losesHops_next {version : HyfEnvelopeRef} (hloses : Router.LosesHops envelope (place - 1) version)
    (hchecked : Router.exhausts version (ingressAt entry place) = false) :
    Router.LosesHops envelope place (Router.outboundFor version (ingressAt entry place)) := by
  have hnext := hloses.trans (Router.losesHops_outboundFor (.inl hchecked))
  cases place with
  | zero => exact hnext
  | succ place => exact hnext

/-- When the node at `place` has sent the message on, the next one can take it in. -/
theorem Underway.advance {version outbound : HyfEnvelopeRef} {op : GatewayOp}
    (h : mesh.Underway mesh' envelope path entry links place)
    (hdistinct : ∀ i ≤ links, ∀ j ≤ links, path i = path j → i = j) (hplace : place < links)
    (hbrings : mesh'.Brings (path place) version (ingressAt entry place) op)
    (hlost : Router.LosesHops envelope place outbound) (hvalid : ValidEnvelope outbound)
    (hsent : (path place, .sent (wireBytes outbound)) ∈ (mesh'.call (path place) op AcceptAll.mk).history) :
    mesh.Underway (mesh'.call (path place) op AcceptAll.mk) envelope path entry links (place + 1) where
  steps := h.steps.tail (.call _ op hbrings.carried _)
  accountable := h.accountable.call _ hbrings.carried _
  ahead i hi hlater := by
    have hne : path i ≠ path place := fun heq =>
      absurd (hdistinct i hi place hplace.le heq) (Nat.ne_of_gt hlater)
    rw [call_cores_of_ne _ _ hne]
    exact h.ahead i hi (Nat.le_of_succ_le hlater)
  brings := ⟨_, _, hlost, brings_frame _ (entry place) hvalid hsent⟩

include hleads hsendable

/-- **One link of the path.** The node sends the message on and the next one can take it in. -/
theorem Underway.next (h : mesh.Underway mesh' envelope path entry links place) (hplace : place < links)
    (hhops : links ≤ envelope.hopLimit.toNat) :
    ∃ mesh'', mesh.Underway mesh'' envelope path entry links (place + 1) := by
  obtain ⟨version, op, hloses, hbrings⟩ := h.brings
  have hchecked := @exhausts_eq_false _ entry place _ hloses (hplace.trans_le hhops)
  have hlost := losesHops_next hloses hchecked
  obtain ⟨linkId, hplan⟩ := hleads.exists_send hsendable hloses hbrings.message hplace rfl hchecked
  rw [← h.ahead place hplace.le le_rfl] at hplan
  have hsent := hbrings.sent_mem_history AcceptAll.mk (h.accountable.wellFormed _) hplan
    (by simp [routerCommandCapacity]) (List.mem_singleton_self _) (hsendable.losesHops hlost)
  exact ⟨_, h.advance hleads.distinct hplace hbrings hlost (hsendable.losesHops hlost).valid hsent⟩

/-- Step by step the envelope gets to every place of the path. -/
theorem Leads.exists_underway (haccountable : Accountable mesh) (hhops : links ≤ envelope.hopLimit.toNat)
    (hplace : place ≤ links) : ∃ mesh', mesh.Underway mesh' envelope path entry links place := by
  induction place with
  | zero => exact ⟨mesh, haccountable.underway⟩
  | succ place ih =>
    obtain ⟨mesh', h⟩ := ih (Nat.le_of_succ_le hplace)
    exact h.next hleads hsendable hplace hhops

/-- The last node delivers it. -/
theorem Underway.arrives (h : mesh.Underway mesh' envelope path entry links links) :
    ∃ mesh'' version, Relation.ReflTransGen Step mesh mesh'' ∧
      (path links, .delivered version) ∈ mesh''.history ∧
      Router.LosesHops envelope (links - 1) version := by
  obtain ⟨version, op, hloses, hbrings⟩ := h.brings
  have hplan := hleads.plans_delivery hsendable hloses hbrings.message
  rw [← h.ahead links le_rfl le_rfl] at hplan
  refine ⟨mesh'.call (path links) op AcceptAll.mk, version, ?_, ?_, hloses⟩
  · exact h.steps.tail (.call _ op hbrings.carried _)
  · exact hbrings.delivered_mem_history AcceptAll.mk (h.accountable.wellFormed _) hplan
      (by simp [routerCommandCapacity]) (List.mem_singleton_self _)

end

/-- The line of three gateways, each of which gets its frames on the link of the one before. -/
theorem lineLinked_leads : lineLinked.Leads lineEnvelope (Fin.ofNat 3)
    (fun place => ⟨fillBytes 16 (UInt8.ofNat (place + 3))⟩) 2 where
  distinct := by decide
  unexpired := by decide +kernel
  fresh := by decide +kernel
  remote := by decide +kernel
  linked := by decide +kernel
  arrives := by decide +kernel

end Mesh

end Hyf
