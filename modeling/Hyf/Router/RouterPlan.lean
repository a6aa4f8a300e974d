import Hyf.Router.Router
import Hyf.Wire.EnvelopeTheorems

/-!
# Routing decisions

What the router does with a message is a list of commands, its plan. The routing functions write
their plan into the caller's slice, all of it or nothing: `writePlan` is that final step, and
`handleEnvelope_eq` and `forwardStored_eq` say that the routing functions are it. Everything proved
about routing is proved about the plans.
-/

namespace Hyf

/-- Write a whole plan at the front of the slice, or report how much room it needs. -/
def writePlan (plan : List RouterCommand) (out : List RouterCommand) : Emission :=
  if out.length < plan.length then ⟨.error (.outputTooSmall out.length plan.length), out⟩
  else ⟨.ok plan.length, plan ++ out.drop plan.length⟩

/-- Emitting one command is writing a plan of one. -/
theorem emit_eq (out : List RouterCommand) (command : RouterCommand) :
    emit out command = writePlan [command] out := by
  cases out with
  | nil => rfl
  | cons head rest => simp [emit, writePlan]

/-- The commands an emission produced: what stands before the returned count. -/
def Emission.commands (emission : Emission) : List RouterCommand :=
  match emission.result with
  | .ok count => emission.out.take count
  | .error _ => []

/-- A plan that fits stands in front of the slice. -/
theorem take_out_writePlan {plan out : List RouterCommand} (h : plan.length ≤ out.length) :
    (writePlan plan out).out.take plan.length = plan := by
  rw [writePlan, if_neg (by omega)]
  exact List.take_left' rfl

/-- A plan that fits is returned. -/
theorem commands_writePlan {plan out : List RouterCommand} (h : plan.length ≤ out.length) :
    (writePlan plan out).result = .ok plan.length ∧ (writePlan plan out).commands = plan := by
  rw [writePlan, if_neg (by omega)]
  exact ⟨rfl, List.take_left' rfl⟩

/-- A plan that does not fit gives no commands. -/
theorem commands_writePlan_of_short {plan out : List RouterCommand}
    (h : out.length < plan.length) : (writePlan plan out).commands = [] := by
  rw [writePlan, if_pos h]
  rfl

/-- A command of the plan is all that an emission can contain. -/
theorem mem_commands_writePlan {plan out : List RouterCommand} {command : RouterCommand}
    (h : command ∈ (writePlan plan out).commands) : command ∈ plan := by
  by_cases hlen : out.length < plan.length
  · rw [commands_writePlan_of_short hlen] at h
    cases h
  · rwa [(commands_writePlan (Nat.le_of_not_lt hlen)).2] at h

namespace Router

variable {maxLinks maxSeen : ℕ}

/-- The links that are up and differ from the ingress, in table order. -/
def egressLinks (router : Router maxLinks maxSeen) (ingress : Option LinkId) : List LinkId :=
  (router.links.live.filter (isUpLinkExcept ingress)).map LinkState.linkId

/-- The links that are up, without the one the envelope came from. -/
theorem mem_egressLinks {router : Router maxLinks maxSeen} {ingress : Option LinkId}
    {linkId : LinkId} : linkId ∈ router.egressLinks ingress ↔
      ⟨linkId, true⟩ ∈ router.links.live ∧ some linkId ≠ ingress := by
  simp only [egressLinks, List.mem_map, List.mem_filter, isUpLinkExcept, Bool.and_eq_true,
    decide_eq_true_eq]
  constructor
  · rintro ⟨⟨id, up⟩, ⟨hmem, hup, hne⟩, rfl⟩
    exact ⟨hup ▸ hmem, hne⟩
  · rintro ⟨hmem, hne⟩
    exact ⟨_, ⟨hmem, rfl, hne⟩, rfl⟩

/-- No ingress is excluded: the links that are up. -/
theorem mem_egressLinks_none {router : Router maxLinks maxSeen} {linkId : LinkId} :
    linkId ∈ router.egressLinks none ↔ ⟨linkId, true⟩ ∈ router.links.live := by
  simp [mem_egressLinks]

/-- When there is no link to leave on, all links are down, apart from the ingress. -/
theorem up_eq_false_of_egressLinks_eq_nil {router : Router maxLinks maxSeen}
    {ingress : Option LinkId} (h : router.egressLinks ingress = []) {link : LinkState}
    (hlink : link ∈ router.links.live) (hne : some link.linkId ≠ ingress) : link.up = false := by
  rw [← Bool.not_eq_true]
  intro hup
  have hegress : link.linkId ∈ router.egressLinks ingress := by
    rw [mem_egressLinks, ← hup]
    exact ⟨hlink, hne⟩
  rw [h] at hegress
  cases hegress

/-- Without an ingress there are most. -/
theorem egressLinks_subset (router : Router maxLinks maxSeen) (ingress : Option LinkId) :
    router.egressLinks ingress ⊆ router.egressLinks none := by
  intro linkId h
  exact mem_egressLinks_none.mpr (mem_egressLinks.mp h).1

/-- `up_link_count_except` counts these links. -/
theorem upLinkCountExcept_eq (router : Router maxLinks maxSeen) (ingress : Option LinkId) :
    router.upLinkCountExcept ingress = (router.egressLinks ingress).length := by
  rw [upLinkCountExcept, egressLinks, List.length_map, List.countP_eq_length_filter]

/-- `first_up_link_except` is the first of them. -/
theorem firstUpLinkExcept_eq (router : Router maxLinks maxSeen) (ingress : Option LinkId) :
    router.firstUpLinkExcept ingress = (router.egressLinks ingress).head? := by
  rw [firstUpLinkExcept, egressLinks, List.head?_map, List.head?_filter]

/-! ## The plans -/

/-- Whether a community message is to be delivered to this node. -/
def deliversCommunity (router : Router maxLinks maxSeen) (envelope : HyfEnvelopeRef)
    (communityId : CommunityId) : Bool :=
  router.policy.isLocalCommunity communityId && !router.hasSeen (seenKeyFor envelope)

/-- Local delivery, then one send per egress link. -/
def fanOut (router : Router maxLinks maxSeen) (envelope outbound : HyfEnvelopeRef)
    (communityId : CommunityId) (ingress : Option LinkId) : List RouterCommand :=
  (if router.deliversCommunity envelope communityId then [.deliverLocal envelope] else []) ++
    (router.egressLinks ingress).map fun linkId => .send linkId outbound

/-- The envelope as it leaves: one hop is taken from a message that came in on a link. -/
def outboundFor (envelope : HyfEnvelopeRef) (ingress : Option LinkId) : HyfEnvelopeRef :=
  match ingress with
  | some _ => { envelope with hopLimit := envelope.hopLimit - 1 }
  | none => envelope

/-- The commands for an envelope to a community. -/
def planCommunity (router : Router maxLinks maxSeen) (envelope : HyfEnvelopeRef)
    (communityId : CommunityId) (ingress : Option LinkId) : List RouterCommand :=
  if ingress.isSome && decide (envelope.hopLimit ≤ 1) then
    [.drop envelope.messageId .hopLimitExhausted]
  else if router.fanOut envelope (outboundFor envelope ingress) communityId ingress = [] then
    if ingress.isNone then [.store (.put envelope)] else [.drop envelope.messageId .noRoute]
  else router.fanOut envelope (outboundFor envelope ingress) communityId ingress

/-- The commands for an envelope to anybody else. -/
def planUnicast (router : Router maxLinks maxSeen) (envelope : HyfEnvelopeRef)
    (ingress : Option LinkId) : List RouterCommand :=
  if router.isLocalDestination envelope.destination then [.deliverLocal envelope]
  else match envelopeForNextHop envelope ingress with
    | .error reason => [.drop envelope.messageId reason]
    | .ok outbound =>
      match (router.egressLinks ingress).head? with
      | some linkId => [.send linkId outbound]
      | none => [.store (.put outbound)]

/-- The plan for a valid envelope. -/
def planEnvelope (router : Router maxLinks maxSeen) (envelope : HyfEnvelopeRef)
    (ingress : Option LinkId) : List RouterCommand :=
  if envelope.expiresAtMs ≤ router.nowMs then [.drop envelope.messageId .expired]
  else if router.hasSeen (seenKeyFor envelope) then [.drop envelope.messageId .duplicate]
  else match envelope.destination with
    | .community communityId => router.planCommunity envelope communityId ingress
    | .node _ | .foreign _ => router.planUnicast envelope ingress

/-- The commands for a stored envelope to anybody else. -/
def planStoredUnicast (router : Router maxLinks maxSeen) (envelope : HyfEnvelopeRef) :
    List RouterCommand :=
  if router.isLocalDestination envelope.destination then
    if router.hasSeen (seenKeyFor envelope) then [.drop envelope.messageId .duplicate]
    else [.deliverLocal envelope]
  else ((router.egressLinks none).head?.map fun linkId => .send linkId envelope).toList

/-- The plan for a valid envelope taken from the store. -/
def planStored (router : Router maxLinks maxSeen) (envelope : HyfEnvelopeRef) :
    List RouterCommand :=
  if envelope.expiresAtMs ≤ router.nowMs then [.drop envelope.messageId .expired]
  else if envelope.hopLimit = 0 then [.drop envelope.messageId .hopLimitExhausted]
  else match envelope.destination with
    | .community communityId => router.fanOut envelope envelope communityId none
    | .node _ | .foreign _ => router.planStoredUnicast envelope

/-! ## The routing functions write their plans -/

/-- The fan-out loop writes one send per selected link after what is already written. -/
theorem writeSends_eq (selected : LinkState → Bool) (outbound : HyfEnvelopeRef)
    (links : List LinkState) (written out : List RouterCommand)
    (h : (links.filter selected).length ≤ out.length) :
    writeSends selected outbound links written.length (written ++ out) =
      (written.length + (links.filter selected).length,
        written ++ (links.filter selected).map (fun link => .send link.linkId outbound) ++
          out.drop (links.filter selected).length) := by
  induction links generalizing written out with
  | nil => simp [writeSends]
  | cons link rest ih =>
    by_cases hlink : selected link
    · -- the written prefix grows by the send just written
      rw [List.filter_cons_of_pos hlink, List.length_cons] at h ⊢
      obtain ⟨head, tail, rfl⟩ := List.exists_cons_of_length_pos (by omega : 0 < out.length)
      have hih := ih (written ++ [.send link.linkId outbound]) tail (by
        rw [List.length_cons] at h
        omega)
      rw [List.length_append, List.length_singleton, List.append_assoc] at hih
      rw [writeSends, if_pos hlink, List.set_append_right _ _ (Nat.le_refl _), Nat.sub_self,
        List.set_cons_zero, ← List.singleton_append, hih]
      simp only [List.map_cons, List.drop_succ_cons, List.append_assoc, List.cons_append,
        List.nil_append, Prod.mk.injEq, and_true]
      omega
    · rw [List.filter_cons_of_neg hlink] at h ⊢
      rw [writeSends, if_neg hlink]
      exact ih written out h

/-- Local delivery followed by the fan-out loop writes the fan-out. -/
theorem writeFanOut_eq {router : Router maxLinks maxSeen} {envelope outbound : HyfEnvelopeRef}
    {communityId : CommunityId} {ingress : Option LinkId} {selected : LinkState → Bool}
    (hselected : ∀ link, selected link = isUpLinkExcept ingress link) {out : List RouterCommand}
    (h : (router.fanOut envelope outbound communityId ingress).length ≤ out.length) :
    writeSends selected outbound router.links.live
        (if router.deliversCommunity envelope communityId then 1 else 0)
        (if router.deliversCommunity envelope communityId then
          out.set 0 (.deliverLocal envelope) else out) =
      ((router.fanOut envelope outbound communityId ingress).length,
        router.fanOut envelope outbound communityId ingress ++
          out.drop (router.fanOut envelope outbound communityId ingress).length) := by
  obtain rfl : selected = isUpLinkExcept ingress := funext hselected
  have hsends : (router.egressLinks ingress).map (fun linkId => RouterCommand.send linkId outbound)
      = (router.links.live.filter (isUpLinkExcept ingress)).map
          fun link => .send link.linkId outbound := by
    rw [egressLinks, List.map_map]
    rfl
  -- the loop starts behind the local delivery, or at the front if there is none
  by_cases hlocal : router.deliversCommunity envelope communityId
  · simp only [fanOut, hlocal, if_true, List.length_append, List.length_singleton, hsends,
      List.length_map] at h ⊢
    obtain ⟨head, tail, rfl⟩ := List.exists_cons_of_length_pos (by omega : 0 < out.length)
    have hwrite := writeSends_eq (isUpLinkExcept ingress) outbound router.links.live
      [.deliverLocal envelope] tail (by rw [List.length_cons] at h; omega)
    rw [List.length_singleton, List.singleton_append] at hwrite
    rw [List.set_cons_zero, hwrite, Nat.add_comm 1, List.drop_succ_cons]
  · simp only [fanOut, hlocal, Bool.false_eq_true, if_false, List.nil_append, hsends,
      List.length_map] at h ⊢
    have hwrite := writeSends_eq (isUpLinkExcept ingress) outbound router.links.live [] out h
    rw [List.length_nil, List.nil_append, List.nil_append, Nat.zero_add] at hwrite
    exact hwrite

/-- A fan-out has a command for every link, and one for the delivery. -/
theorem length_fanOut (router : Router maxLinks maxSeen) (envelope outbound : HyfEnvelopeRef)
    (communityId : CommunityId) (ingress : Option LinkId) :
    (router.fanOut envelope outbound communityId ingress).length =
      (router.deliversCommunity envelope communityId).toNat +
        router.upLinkCountExcept ingress := by
  rw [upLinkCountExcept_eq, fanOut, List.length_append, List.length_map]
  cases router.deliversCommunity envelope communityId <;> rfl

/-- `handle_community_envelope` writes its plan. -/
theorem handleCommunityEnvelope_eq (router : Router maxLinks maxSeen) (envelope : HyfEnvelopeRef)
    (communityId : CommunityId) (ingress : Option LinkId) (out : List RouterCommand) :
    router.handleCommunityEnvelope envelope communityId ingress out =
      writePlan (router.planCommunity envelope communityId ingress) out := by
  have hlen := router.length_fanOut envelope (outboundFor envelope ingress) communityId ingress
  have hdelivers : (router.policy.isLocalCommunity communityId &&
      !router.hasSeen (seenKeyFor envelope)) = router.deliversCommunity envelope communityId := rfl
  simp only [handleCommunityEnvelope, planCommunity, hdelivers, ← hlen]
  by_cases hhop : (ingress.isSome && decide (envelope.hopLimit ≤ 1)) = true
  · rw [if_pos hhop, if_pos hhop, emit_eq]
  rw [if_neg hhop, if_neg hhop]
  by_cases hnone : router.fanOut envelope (outboundFor envelope ingress) communityId ingress = []
  · rw [if_pos (by rw [hnone]; rfl), if_pos hnone, emitCommunityFallback]
    cases ingress <;> simp [emit_eq]
  rw [if_neg (by rwa [List.length_eq_zero_iff]), if_neg hnone, writePlan]
  by_cases hshort : out.length <
      (router.fanOut envelope (outboundFor envelope ingress) communityId ingress).length
  · rw [if_pos hshort, if_pos hshort]
  rw [if_neg hshort, if_neg hshort]
  have hwrite := writeFanOut_eq (fun _ => rfl) (Nat.le_of_not_lt hshort)
  cases hlocal : router.deliversCommunity envelope communityId <;>
    simp only [hlocal, Bool.false_eq_true, if_false, if_true] at hwrite ⊢ <;>
    cases ingress <;> simp only [outboundFor] at hwrite ⊢ <;> rw [hwrite]

/-- `forward_stored_community` writes the fan-out. -/
theorem forwardStoredCommunity_eq (router : Router maxLinks maxSeen) (envelope : HyfEnvelopeRef)
    (communityId : CommunityId) (out : List RouterCommand) :
    router.forwardStoredCommunity envelope communityId out =
      writePlan (router.fanOut envelope envelope communityId none) out := by
  have hlen := router.length_fanOut envelope envelope communityId none
  have hdelivers : (router.policy.isLocalCommunity communityId &&
      !router.hasSeen (seenKeyFor envelope)) = router.deliversCommunity envelope communityId := rfl
  simp only [forwardStoredCommunity, hdelivers, ← hlen]
  rw [writePlan]
  by_cases hnone : router.fanOut envelope envelope communityId none = []
  · rw [if_pos (by rw [hnone]; rfl), if_neg (by rw [hnone]; simp), hnone]
    rfl
  rw [if_neg (by rwa [List.length_eq_zero_iff])]
  by_cases hshort : out.length < (router.fanOut envelope envelope communityId none).length
  · rw [if_pos hshort, if_pos hshort]
  rw [if_neg hshort, if_neg hshort]
  have hselected : ∀ link, LinkState.up link = isUpLinkExcept none link := by
    simp [isUpLinkExcept]
  have hwrite := writeFanOut_eq hselected (Nat.le_of_not_lt hshort)
  cases hlocal : router.deliversCommunity envelope communityId <;>
    simp only [hlocal, Bool.false_eq_true, if_false, if_true] at hwrite ⊢ <;>
    rw [hwrite]

/-- **Routing a valid envelope writes its plan.** -/
theorem handleEnvelope_eq {router : Router maxLinks maxSeen} {envelope : HyfEnvelopeRef}
    (hvalid : ValidEnvelope envelope) (ingress : Option LinkId) (out : List RouterCommand) :
    router.handleEnvelope envelope ingress out =
      writePlan (router.planEnvelope envelope ingress) out := by
  rw [ValidEnvelope] at hvalid
  simp only [handleEnvelope, rejectInvalidOrExpired, hvalid, planEnvelope]
  by_cases hexpired : envelope.expiresAtMs ≤ router.nowMs
  · simp only [if_pos hexpired, emit_eq]
  simp only [if_neg hexpired]
  by_cases hseen : router.hasSeen (seenKeyFor envelope) = true
  · simp only [if_pos hseen, emit_eq]
  simp only [if_neg hseen]
  -- the branch that the source has for nodes and for foreign endpoints
  have hunicast : (if router.isLocalDestination envelope.destination then
        emit out (.deliverLocal envelope)
      else match envelopeForNextHop envelope ingress with
        | .error reason => emit out (.drop envelope.messageId reason)
        | .ok outbound =>
          match router.firstUpLinkExcept ingress with
          | some linkId => emit out (.send linkId outbound)
          | none => emit out (.store (.put outbound))) =
      writePlan (router.planUnicast envelope ingress) out := by
    rw [planUnicast, firstUpLinkExcept_eq]
    split_ifs
    · rw [emit_eq]
    · cases envelopeForNextHop envelope ingress with
      | error reason => simp only [emit_eq]
      | ok outbound => cases (router.egressLinks ingress).head? <;> simp only [emit_eq]
  cases hdestination : envelope.destination with
  | community communityId =>
    exact router.handleCommunityEnvelope_eq envelope communityId ingress out
  | node node =>
    rw [hdestination] at hunicast
    exact hunicast
  | foreign endpoint =>
    rw [hdestination] at hunicast
    exact hunicast

/-- **Routing a valid stored envelope writes its plan.** -/
theorem forwardStored_eq {router : Router maxLinks maxSeen} {envelope : HyfEnvelopeRef}
    (hvalid : ValidEnvelope envelope) (out : List RouterCommand) :
    router.forwardStored envelope out = writePlan (router.planStored envelope) out := by
  rw [ValidEnvelope] at hvalid
  simp only [forwardStored, rejectTerminalEnvelope, hvalid, planStored]
  by_cases hexpired : envelope.expiresAtMs ≤ router.nowMs
  · simp only [if_pos hexpired, emit_eq]
  simp only [if_neg hexpired]
  by_cases hhop : envelope.hopLimit = 0
  · simp only [if_pos hhop, emit_eq]
  simp only [if_neg hhop]
  have hunicast : (if router.isLocalDestination envelope.destination then
        if router.hasSeen (seenKeyFor envelope) then emit out (.drop envelope.messageId .duplicate)
        else emit out (.deliverLocal envelope)
      else match router.firstUpLinkExcept none with
        | some linkId => emit out (.send linkId envelope)
        | none => ⟨.ok 0, out⟩) =
      writePlan (router.planStoredUnicast envelope) out := by
    rw [planStoredUnicast, firstUpLinkExcept_eq]
    split_ifs
    · rw [emit_eq]
    · rw [emit_eq]
    · cases (router.egressLinks none).head? with
      | none => simp [writePlan]
      | some linkId => simp only [emit_eq, Option.map_some, Option.toList_some]
  cases hdestination : envelope.destination with
  | community communityId => exact router.forwardStoredCommunity_eq envelope communityId out
  | node node =>
    rw [hdestination] at hunicast
    exact hunicast
  | foreign endpoint =>
    rw [hdestination] at hunicast
    exact hunicast

end Router

end Hyf
