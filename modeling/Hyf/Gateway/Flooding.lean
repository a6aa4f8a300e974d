import Hyf.Gateway.Delivery

/-!
# What a mesh can flood

A message to a community is sent on by every gateway, also by those that deliver it themselves. So over any
path of gateways that are ready for it, from any mesh that is running, there are calls after which every
subscriber on the path has delivered it (`Mesh.floods_path`). It needs one hop more than a message to a
node: the last gateway drops it when no hop is left.
-/

namespace Hyf

namespace Router

variable {maxLinks maxSeen : ℕ} {router : Router maxLinks maxSeen} {envelope outbound : HyfEnvelopeRef}
  {communityId : CommunityId} {ingress : Option LinkId}

theorem planCommunity_of_hops (hhops : exhausts envelope ingress = false)
    (hplans : router.fanOut envelope (outboundFor envelope ingress) communityId ingress ≠ []) :
    router.planCommunity envelope communityId ingress =
      router.fanOut envelope (outboundFor envelope ingress) communityId ingress := by
  have hlinked : (ingress.isSome && decide (envelope.hopLimit ≤ 1)) = false := by
    cases ingress with
    | none => rfl
    | some linkId => exact hhops
  rw [planCommunity, hlinked, if_neg Bool.false_ne_true, if_neg hplans]

theorem deliverLocal_mem_fanOut (hlocal : router.policy.isLocalCommunity communityId = true)
    (hfresh : router.hasSeen (seenKeyFor envelope) = false) :
    .deliverLocal envelope ∈ router.fanOut envelope outbound communityId ingress := by
  have hdelivers : router.deliversCommunity envelope communityId = true := by
    rw [deliversCommunity, hlocal, hfresh]
    rfl
  rw [fanOut, if_pos hdelivers]
  exact List.mem_append_left _ (List.mem_singleton_self _)

theorem send_mem_fanOut {linkId : LinkId} (hlink : linkId ∈ router.egressLinks ingress) :
    .send linkId outbound ∈ router.fanOut envelope outbound communityId ingress :=
  List.mem_append_right _ (List.mem_map_of_mem hlink)

theorem length_fanOut_le (hroom : (router.egressLinks ingress).length < routerCommandCapacity) :
    (router.fanOut envelope outbound communityId ingress).length ≤ routerCommandCapacity := by
  have hbool := Bool.toNat_le (router.deliversCommunity envelope communityId)
  rw [length_fanOut, upLinkCountExcept_eq]
  omega

end Router

namespace Mesh

variable {ι : Type} {maxLinks maxSeen storeCapacity : ι → ℕ}
  {mesh : Mesh ι maxLinks maxSeen storeCapacity} {envelope : HyfEnvelopeRef} {communityId : CommunityId}
  {path : ℕ → ι} {entry : ℕ → LinkId} {links place : ℕ}

/-! ## Paths -/

/-- The gateways of a path are ready for a message to a community: its fan-out fits the command buffer of
each, and each but the last has a link to send it on. -/
structure Floods (mesh : Mesh ι maxLinks maxSeen storeCapacity) (envelope : HyfEnvelopeRef)
    (communityId : CommunityId) (path : ℕ → ι) (entry : ℕ → LinkId) (links : ℕ) : Prop where
  destination : envelope.destination = .community communityId
  distinct : ∀ i ≤ links, ∀ j ≤ links, path i = path j → i = j
  unexpired : ∀ i ≤ links, (mesh.cores (path i)).router.nowMs < envelope.expiresAtMs
  fresh : ∀ i ≤ links, (mesh.cores (path i)).router.hasSeen (seenKeyFor envelope) = false
  linked : ∀ i < links, (mesh.cores (path i)).router.egressLinks (ingressAt entry i) ≠ []
  roomy : ∀ i ≤ links,
    ((mesh.cores (path i)).router.egressLinks (ingressAt entry i)).length < routerCommandCapacity

/-- Whether a gateway has subscribed to a community. -/
def Subscribes (mesh : Mesh ι maxLinks maxSeen storeCapacity) (node : ι) (communityId : CommunityId) : Prop :=
  (mesh.cores node).router.policy.isLocalCommunity communityId = true

section

variable {hops : ℕ} {version : HyfEnvelopeRef} {event : RouterEvent}
  (hfloods : mesh.Floods envelope communityId path entry links) (hsendable : Sendable envelope)
  (hloses : Router.LosesHops envelope hops version)

include hfloods hloses

theorem Floods.fresh_version (hplace : place ≤ links) :
    (mesh.cores (path place)).router.hasSeen (seenKeyFor version) = false := by
  have hversion := hloses.same
  rw [hversion]
  exact hfloods.fresh place hplace

include hsendable

/-- What a node on the path plans for a version of the message. -/
theorem Floods.planEvent_eq (hplace : place ≤ links)
    (hmessage : event.message? = some (version, ingressAt entry place))
    (hhops : Router.exhausts version (ingressAt entry place) = false) {command : RouterCommand}
    (hcommand : command ∈ (mesh.cores (path place)).router.fanOut version
      (Router.outboundFor version (ingressAt entry place)) communityId (ingressAt entry place)) :
    (mesh.cores (path place)).router.planEvent event =
      .ok ((mesh.cores (path place)).router.fanOut version
        (Router.outboundFor version (ingressAt entry place)) communityId (ingressAt entry place)) := by
  have hversion := hloses.same
  have hdestination : version.destination = .community communityId := by
    rw [hversion]
    exact hfloods.destination
  have hunexpired : (mesh.cores (path place)).router.nowMs < version.expiresAtMs := by
    rw [hversion]
    exact hfloods.unexpired place hplace
  rw [Router.planEvent_of_message hmessage (hsendable.losesHops hloses).valid,
    Router.planEnvelope_of_community hdestination hunexpired (hfloods.fresh_version hloses hplace),
    Router.planCommunity_of_hops hhops (List.ne_nil_of_mem hcommand)]

end

/-! ## Calls along a path -/

variable [DecidableEq ι]

/-- The nodes before `place` were called in turn, and the subscribers among them have delivered. -/
structure Flooded (mesh mesh' : Mesh ι maxLinks maxSeen storeCapacity) (envelope : HyfEnvelopeRef)
    (communityId : CommunityId) (path : ℕ → ι) (entry : ℕ → LinkId) (links place : ℕ) : Prop where
  underway : mesh.Underway mesh' envelope path entry links place
  delivered : ∀ i < place, mesh.Subscribes (path i) communityId →
    ∃ version, (path i, .delivered version) ∈ mesh'.history ∧ Router.LosesHops envelope (i - 1) version

section

variable {mesh' : Mesh ι maxLinks maxSeen storeCapacity}

theorem Accountable.flooded (h : Accountable mesh) :
    mesh.Flooded mesh envelope communityId path entry links 0 where
  underway := h.underway
  delivered _ hi := (Nat.not_lt_zero _ hi).elim

theorem mem_history_call {E : Type} [GatewayLinkExecutor E] {executor : E} {node : ι} {op : GatewayOp}
    {event : ι × MeshEvent} (h : event ∈ mesh.history) : event ∈ (mesh.call node op executor).history :=
  List.mem_append_left _ h

open GatewayCore (AcceptAll)

variable {version : HyfEnvelopeRef} {op : GatewayOp}
  (hfloods : mesh.Floods envelope communityId path entry links) (hsendable : Sendable envelope)

include hfloods hsendable

/-- **One node of the path.** If it subscribes, it delivers the message. -/
theorem Flooded.delivered_call (h : mesh.Flooded mesh' envelope communityId path entry links place)
    (hplace : place ≤ links) (hloses : Router.LosesHops envelope (place - 1) version)
    (hbrings : mesh'.Brings (path place) version (ingressAt entry place) op)
    (hchecked : Router.exhausts version (ingressAt entry place) = false) :
    ∀ i < place + 1, mesh.Subscribes (path i) communityId →
      ∃ version, (path i, .delivered version) ∈ (mesh'.call (path place) op AcceptAll.mk).history ∧
        Router.LosesHops envelope (i - 1) version := by
  intro i hi hsubscribes
  obtain hearlier | rfl := Nat.lt_succ_iff_lt_or_eq.mp hi
  · obtain ⟨earlier, hdelivered, hlost⟩ := h.delivered i hearlier hsubscribes
    exact ⟨earlier, mem_history_call hdelivered, hlost⟩
  · have hcommand := @Router.deliverLocal_mem_fanOut _ _ _ _
      (Router.outboundFor version (ingressAt entry i)) _ (ingressAt entry i) hsubscribes
      (hfloods.fresh_version hloses hplace)
    have hplan := hfloods.planEvent_eq hsendable hloses hplace hbrings.message hchecked hcommand
    rw [← h.underway.ahead i hplace le_rfl] at hplan
    refine ⟨version, hbrings.delivered_mem_history AcceptAll.mk (h.underway.accountable.wellFormed _)
      hplan (Router.length_fanOut_le ?_) ?_, hloses⟩
    · rw [h.underway.ahead i hplace le_rfl]
      exact hfloods.roomy i hplace
    · rw [h.underway.ahead i hplace le_rfl]
      exact hcommand

/-- **One link of the path.** The node sends the message on and the next one can take it in. -/
theorem Flooded.next (h : mesh.Flooded mesh' envelope communityId path entry links place)
    (hplace : place < links) (hhops : links < envelope.hopLimit.toNat) :
    ∃ mesh'', mesh.Flooded mesh'' envelope communityId path entry links (place + 1) := by
  obtain ⟨version, op, hloses, hbrings⟩ := h.underway.brings
  have hchecked := @exhausts_eq_false _ entry place _ hloses (hplace.trans hhops)
  have hlost := losesHops_next hloses hchecked
  have hsame := h.underway.ahead place hplace.le le_rfl
  obtain ⟨linkId, hlink⟩ := List.exists_mem_of_ne_nil _ (hfloods.linked place hplace)
  have hcommand := @Router.send_mem_fanOut _ _ _ version
    (Router.outboundFor version (ingressAt entry place)) communityId _ _ hlink
  have hplan := hfloods.planEvent_eq hsendable hloses hplace.le hbrings.message hchecked hcommand
  rw [← hsame] at hplan hcommand
  have hroom := hfloods.roomy place hplace.le
  rw [← hsame] at hroom
  have hsent := hbrings.sent_mem_history AcceptAll.mk (h.underway.accountable.wellFormed _) hplan
    (Router.length_fanOut_le hroom) hcommand (hsendable.losesHops hlost)
  exact ⟨_, h.underway.advance hfloods.distinct hplace hbrings hlost (hsendable.losesHops hlost).valid hsent,
    h.delivered_call hfloods hsendable hplace.le hloses hbrings hchecked⟩

theorem Floods.exists_flooded (haccountable : Accountable mesh) (hhops : links < envelope.hopLimit.toNat)
    (hplace : place ≤ links) :
    ∃ mesh', mesh.Flooded mesh' envelope communityId path entry links place := by
  induction place with
  | zero => exact ⟨mesh, haccountable.flooded⟩
  | succ place ih =>
    obtain ⟨mesh', h⟩ := ih (Nat.le_of_succ_le hplace)
    exact h.next hfloods hsendable hplace hhops

end

/-- A message to the community of all three gateways of the line. -/
def roomEnvelope : HyfEnvelopeRef := { lineEnvelope with destination := .community ⟨fillBytes 16 5⟩ }

theorem lineLinked_floods : lineLinked.Floods roomEnvelope ⟨fillBytes 16 5⟩ (Fin.ofNat 3)
    (fun place => ⟨fillBytes 16 (UInt8.ofNat (place + 3))⟩) 2 where
  destination := rfl
  distinct := by decide
  unexpired := by decide +kernel
  fresh := by decide +kernel
  linked := by decide +kernel
  roomy := by decide +kernel

end Mesh

end Hyf
