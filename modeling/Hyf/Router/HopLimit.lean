import Hyf.Router.RouterTheorems

/-!
# The hop limit

A message that is forwarded needs a hop left for the next node, and a message for this node needs
none. The router decides this in several places. This module says where they agree: `hopSafe_iff`
for forwarding and `deliversLocally_iff` for local delivery.
-/

namespace Hyf

/-- The envelope a command hands on, to a link or to the store. -/
def RouterCommand.outbound? : RouterCommand → Option HyfEnvelopeRef
  | send _ envelope => some envelope
  | store (.put envelope) => some envelope
  | _ => none

/-- The message an event carries, with the link it came in on. -/
def RouterEvent.message? : RouterEvent → Option (HyfEnvelopeRef × Option LinkId)
  | localSubmit envelope => some (envelope, none)
  | link (.frame frame) =>
    match decodeEnvelope frame.bytes with
    | .ok envelope => some (envelope, some frame.linkId)
    | .error _ => none
  | _ => none

namespace Router

variable {maxLinks maxSeen : ℕ}

theorem handleEvent_of_message {router : Router maxLinks maxSeen} {event : RouterEvent}
    {envelope : HyfEnvelopeRef} {ingress : Option LinkId}
    (h : event.message? = some (envelope, ingress)) (out : List RouterCommand) :
    (router.handleEvent event out).1 = router.handleEnvelope envelope ingress out := by
  unfold RouterEvent.message? at h
  split at h
  · cases h
    rfl
  · rename_i frame
    split at h
    · rename_i hdecode
      cases h
      simp only [handleEvent, handleFrame, hdecode]
    · cases h
  · cases h

/-- An event that carries no message only moves the clock of the store or drops a frame. -/
theorem command_of_no_message {router : Router maxLinks maxSeen} {event : RouterEvent}
    (h : event.message? = none) {out : List RouterCommand} {command : RouterCommand}
    (hmem : command ∈ (router.handleEvent event out).1.commands) :
    (∃ nowMs, command = .store (.expireBefore nowMs)) ∨
      ∃ linkId, command = .dropFrame linkId .malformedFrame := by
  rw [handleEvent_eq] at hmem
  cases hplan : router.planEvent event with
  | error error =>
    rw [hplan] at hmem
    cases hmem
  | ok plan =>
    rw [hplan] at hmem
    have hmem := mem_commands_writePlan hmem
    cases event with
    | localSubmit envelope => cases h
    | tick nowMs =>
      cases hplan
      exact .inl ⟨nowMs, List.mem_singleton.mp hmem⟩
    | link event =>
      cases event with
      | up linkId =>
        simp only [planEvent] at hplan
        cases hset : router.setLinkState linkId true <;> rw [hset] at hplan <;> cases hplan
        cases hmem
      | down linkId =>
        simp only [planEvent] at hplan
        cases hset : router.setLinkState linkId false <;> rw [hset] at hplan <;> cases hplan
        cases hmem
      | frame frame =>
        simp only [RouterEvent.message?, planEvent] at h hplan
        cases hdecode : decodeEnvelope frame.bytes <;> rw [hdecode] at h hplan
        · cases hplan
          exact .inr ⟨frame.linkId, List.mem_singleton.mp hmem⟩
        · cases h

theorem outbound_of_no_message {router : Router maxLinks maxSeen} {event : RouterEvent}
    (h : event.message? = none) {out : List RouterCommand} {command : RouterCommand}
    (hmem : command ∈ (router.handleEvent event out).1.commands) : command.outbound? = none := by
  obtain ⟨nowMs, rfl⟩ | ⟨linkId, rfl⟩ := command_of_no_message h hmem
  · rfl
  · rfl

/-! ## Forwarding -/

/-- Whether an unseen message has to leave this node, on a link or into the store. -/
def wouldForward (router : Router maxLinks maxSeen) (envelope : HyfEnvelopeRef)
    (ingress : Option LinkId) : Bool :=
  match envelope.destination with
  | .community communityId => router.upLinkCountExcept ingress != 0 ||
      (ingress.isNone && !router.policy.isLocalCommunity communityId)
  | .node _ | .foreign _ => !router.isLocalDestination envelope.destination

/-- Nothing is handed on with hop limit 0, and a message that would have to be is dropped as
exhausted. -/
structure HopSafe (router : Router maxLinks maxSeen) (event : RouterEvent)
    (out : List RouterCommand) : Prop where
  outbound : ∀ command ∈ (router.handleEvent event out).1.commands, ∀ envelope,
    command.outbound? = some envelope → envelope.hopLimit ≠ 0
  dropped : ∀ envelope ingress, event.message? = some (envelope, ingress) →
    ValidEnvelope envelope → router.nowMs < envelope.expiresAtMs →
    router.hasSeen (seenKeyFor envelope) = false → router.wouldForward envelope ingress = true →
    exhausts envelope ingress = true →
    ∀ count, (router.handleEvent event out).1.result = .ok count →
      (router.handleEvent event out).1.commands = [.drop envelope.messageId .hopLimitExhausted]

/-- The branch without a hop check: a community message submitted locally with hop limit 0, while
there is a link to send it on or no local member, and the slice has room for the commands. -/
def SkipsHopCheck (router : Router maxLinks maxSeen) (event : RouterEvent)
    (out : List RouterCommand) : Prop :=
  ∃ envelope communityId, event = .localSubmit envelope ∧
    envelope.destination = .community communityId ∧ envelope.hopLimit = 0 ∧
    ValidEnvelope envelope ∧ router.nowMs < envelope.expiresAtMs ∧
    router.hasSeen (seenKeyFor envelope) = false ∧
    (router.upLinkCountExcept none ≠ 0 ∨ router.policy.isLocalCommunity communityId = false) ∧
    max 1 ((router.policy.isLocalCommunity communityId).toNat + router.upLinkCountExcept none) ≤
      out.length

theorem deliversCommunity_of_unseen {router : Router maxLinks maxSeen} {envelope : HyfEnvelopeRef}
    (h : router.hasSeen (seenKeyFor envelope) = false) (communityId : CommunityId) :
    router.deliversCommunity envelope communityId =
      router.policy.isLocalCommunity communityId := by
  rw [deliversCommunity, h, Bool.not_false, Bool.and_true]

/-- The plan of an unseen, unexpired community message. -/
theorem planEnvelope_of_community {router : Router maxLinks maxSeen} {envelope : HyfEnvelopeRef}
    {communityId : CommunityId} (hdestination : envelope.destination = .community communityId)
    (hunexpired : router.nowMs < envelope.expiresAtMs)
    (hunseen : router.hasSeen (seenKeyFor envelope) = false) (ingress : Option LinkId) :
    router.planEnvelope envelope ingress = router.planCommunity envelope communityId ingress := by
  rw [planEnvelope, if_neg (UInt64.not_le.mpr hunexpired), if_neg (by simp [hunseen])]
  simp only [hdestination]

/-- The plan of an unseen, unexpired message to a node or a foreign endpoint. -/
theorem planEnvelope_of_unicast {router : Router maxLinks maxSeen} {envelope : HyfEnvelopeRef}
    (hdestination : ∀ communityId, envelope.destination ≠ .community communityId)
    (hunexpired : router.nowMs < envelope.expiresAtMs)
    (hunseen : router.hasSeen (seenKeyFor envelope) = false) (ingress : Option LinkId) :
    router.planEnvelope envelope ingress = router.planUnicast envelope ingress := by
  rw [planEnvelope, if_neg (UInt64.not_le.mpr hunexpired), if_neg (by simp [hunseen])]
  cases h : envelope.destination with
  | community communityId => exact absurd h (hdestination communityId)
  | node node => rfl
  | foreign endpoint => rfl

/-- A community message submitted locally is fanned out, or stored when there is nobody to hand it
to. -/
theorem planCommunity_none (router : Router maxLinks maxSeen) (envelope : HyfEnvelopeRef)
    (communityId : CommunityId) : router.planCommunity envelope communityId none =
      if router.fanOut envelope envelope communityId none = [] then [.store (.put envelope)]
      else router.fanOut envelope envelope communityId none := by
  simp [planCommunity, outboundFor]

theorem length_planCommunity_none {router : Router maxLinks maxSeen} {envelope : HyfEnvelopeRef}
    (hunseen : router.hasSeen (seenKeyFor envelope) = false) (communityId : CommunityId) :
    (router.planCommunity envelope communityId none).length =
      max 1 ((router.policy.isLocalCommunity communityId).toNat +
        router.upLinkCountExcept none) := by
  have hlen := router.length_fanOut envelope envelope communityId none
  rw [deliversCommunity_of_unseen hunseen] at hlen
  rw [planCommunity_none, ← hlen]
  split_ifs with hnone
  · rw [hnone]
    rfl
  · have := List.length_pos_of_ne_nil hnone
    omega

/-- A community message submitted locally has to leave exactly when its plan hands it on. -/
theorem wouldForward_iff_outbound {router : Router maxLinks maxSeen} {envelope : HyfEnvelopeRef}
    {communityId : CommunityId} (hdestination : envelope.destination = .community communityId)
    (hunseen : router.hasSeen (seenKeyFor envelope) = false) :
    router.wouldForward envelope none = true ↔
      ∃ command ∈ router.planCommunity envelope communityId none,
        command.outbound? = some envelope := by
  have hforward : router.wouldForward envelope none = true ↔
      router.egressLinks none ≠ [] ∨ router.policy.isLocalCommunity communityId = false := by
    simp [wouldForward, hdestination, upLinkCountExcept_eq]
  have hnone : router.fanOut envelope envelope communityId none = [] ↔
      router.policy.isLocalCommunity communityId = false ∧ router.egressLinks none = [] := by
    rw [fanOut, deliversCommunity_of_unseen hunseen, List.append_eq_nil_iff, List.map_eq_nil_iff]
    simp
  rw [hforward, planCommunity_none]
  split_ifs with hfan
  · have := hnone.mp hfan
    simp [this.1, RouterCommand.outbound?]
  · constructor
    · intro hleaves
      have hlinks : router.egressLinks none ≠ [] := by
        rcases hleaves with hlinks | hlocal
        · exact hlinks
        · exact fun hlinks => hfan (hnone.mpr ⟨hlocal, hlinks⟩)
      obtain ⟨linkId, hlink⟩ := List.exists_mem_of_ne_nil _ hlinks
      exact ⟨.send linkId envelope, List.mem_append_right _ (List.mem_map_of_mem hlink), rfl⟩
    · rintro ⟨command, hmem, hout⟩
      rcases mem_fanOut hmem with ⟨rfl, -⟩ | ⟨linkId, hlink, rfl⟩
      · cases hout
      · exact .inl (List.ne_nil_of_mem hlink)

/-- The branch without a hop check, in terms of the plan. -/
theorem skipsHopCheck_localSubmit {router : Router maxLinks maxSeen} {envelope : HyfEnvelopeRef}
    {communityId : CommunityId} (hdestination : envelope.destination = .community communityId)
    (hvalid : ValidEnvelope envelope) (hunexpired : router.nowMs < envelope.expiresAtMs)
    (hunseen : router.hasSeen (seenKeyFor envelope) = false) (hhop : envelope.hopLimit = 0)
    (hforward : router.wouldForward envelope none = true) {out : List RouterCommand}
    (hroom : (router.planCommunity envelope communityId none).length ≤ out.length) :
    router.SkipsHopCheck (.localSubmit envelope) out := by
  refine ⟨envelope, communityId, rfl, hdestination, hhop, hvalid, hunexpired, hunseen, ?_, ?_⟩
  · simpa [wouldForward, hdestination] using hforward
  · rwa [length_planCommunity_none hunseen] at hroom

/-- On the branch without a hop check something leaves with hop limit 0. -/
theorem exists_zero_hop_of_skips {router : Router maxLinks maxSeen} {event : RouterEvent}
    {out : List RouterCommand} (h : router.SkipsHopCheck event out) :
    ∃ command ∈ (router.handleEvent event out).1.commands, ∃ envelope,
      command.outbound? = some envelope ∧ envelope.hopLimit = 0 := by
  obtain ⟨envelope, communityId, rfl, hdestination, hhop, hvalid, hunexpired, hunseen, hleaves,
    hroom⟩ := h
  have hforward : router.wouldForward envelope none = true := by
    simpa [wouldForward, hdestination] using hleaves
  obtain ⟨command, hmem, hout⟩ := (wouldForward_iff_outbound hdestination hunseen).mp hforward
  have hevent : (router.handleEvent (.localSubmit envelope) out).1 =
      writePlan (router.planCommunity envelope communityId none) out := by
    rw [← planEnvelope_of_community hdestination hunexpired hunseen]
    exact handleEnvelope_eq hvalid none out
  rw [← length_planCommunity_none hunseen] at hroom
  rw [hevent, (commands_writePlan hroom).2]
  exact ⟨command, hmem, envelope, hout, hhop⟩

/-- A result other than an error means the plan had room. -/
theorem length_le_of_writePlan_ok {plan out : List RouterCommand} {count : ℕ}
    (h : (writePlan plan out).result = .ok count) : plan.length ≤ out.length := by
  by_contra hshort
  rw [writePlan, if_pos (by omega)] at h
  cases h

theorem eq_localSubmit_of_message {event : RouterEvent} {envelope : HyfEnvelopeRef}
    (h : event.message? = some (envelope, none)) : event = .localSubmit envelope := by
  unfold RouterEvent.message? at h
  split at h
  · cases h
    rfl
  · split at h <;> cases h
  · cases h

/-- A message that would be forwarded without a hop left is dropped, except on the branch without
a hop check. -/
theorem commands_of_exhausted {router : Router maxLinks maxSeen} {event : RouterEvent}
    {out : List RouterCommand} (hchecks : ¬router.SkipsHopCheck event out)
    {envelope : HyfEnvelopeRef} {ingress : Option LinkId}
    (hmessage : event.message? = some (envelope, ingress)) (hvalid : ValidEnvelope envelope)
    (hunexpired : router.nowMs < envelope.expiresAtMs)
    (hunseen : router.hasSeen (seenKeyFor envelope) = false)
    (hforward : router.wouldForward envelope ingress = true)
    (hexhausts : exhausts envelope ingress = true) {count : ℕ}
    (hok : (router.handleEvent event out).1.result = .ok count) :
    (router.handleEvent event out).1.commands = [.drop envelope.messageId .hopLimitExhausted] := by
  rw [handleEvent_of_message hmessage, handleEnvelope_eq hvalid] at hok ⊢
  have hroom := length_le_of_writePlan_ok hok
  rw [(commands_writePlan hroom).2]
  have hunicast : (∀ communityId, envelope.destination ≠ .community communityId) →
      router.isLocalDestination envelope.destination = false →
      router.planEnvelope envelope ingress = [.drop envelope.messageId .hopLimitExhausted] := by
    intro hdestination hlocal
    rw [planEnvelope_of_unicast hdestination hunexpired hunseen, planUnicast, hlocal,
      envelopeForNextHop_eq, hexhausts]
    rfl
  cases hdestination : envelope.destination with
  | node node =>
    simp only [wouldForward, hdestination, Bool.not_eq_true'] at hforward
    exact hunicast (by simp [hdestination]) (by rw [hdestination]; exact hforward)
  | foreign endpoint =>
    simp only [wouldForward, hdestination, Bool.not_eq_true'] at hforward
    exact hunicast (by simp [hdestination]) (by rw [hdestination]; exact hforward)
  | community communityId =>
    rw [planEnvelope_of_community hdestination hunexpired hunseen] at hroom ⊢
    cases ingress with
    | some linkId =>
      have hle : envelope.hopLimit ≤ 1 := by simpa [exhausts] using hexhausts
      simp [planCommunity, hle]
    | none =>
      -- the branch without a hop check would have been taken
      refine absurd ?_ hchecks
      rw [eq_localSubmit_of_message hmessage]
      exact skipsHopCheck_localSubmit hdestination hvalid hunexpired hunseen
        (by simpa [exhausts] using hexhausts) hforward hroom

/-- What leaves has a hop left, except on the branch without a hop check. -/
theorem outbound_hopLimit_ne_zero {router : Router maxLinks maxSeen} {event : RouterEvent}
    {out : List RouterCommand} (hchecks : ¬router.SkipsHopCheck event out)
    {command : RouterCommand} (hmem : command ∈ (router.handleEvent event out).1.commands)
    {outbound : HyfEnvelopeRef} (hout : command.outbound? = some outbound) :
    outbound.hopLimit ≠ 0 := by
  cases hmessage : event.message? with
  | none =>
    rw [outbound_of_no_message hmessage hmem] at hout
    cases hout
  | some message =>
    obtain ⟨envelope, ingress⟩ := message
    rw [handleEvent_of_message hmessage] at hmem
    by_cases hvalid : ValidEnvelope envelope
    · rw [handleEnvelope_eq hvalid] at hmem
      have hroom : (router.planEnvelope envelope ingress).length ≤ out.length := by
        by_contra hshort
        rw [commands_writePlan_of_short (by omega)] at hmem
        cases hmem
      rw [(commands_writePlan hroom).2] at hmem
      -- an unchecked hop limit of 0 is the branch without a hop check
      have hhops : outbound = outboundFor envelope ingress → HopsChecked envelope ingress →
          router.nowMs < envelope.expiresAtMs → router.hasSeen (seenKeyFor envelope) = false →
          outbound.hopLimit ≠ 0 := by
        rintro rfl (hleft | ⟨rfl, communityId, hdestination⟩) hunexpired hunseen
        · exact outboundFor_hopLimit_ne_zero hleft
        · intro hzero
          rw [planEnvelope_of_community hdestination hunexpired hunseen] at hmem hroom
          have hforward :=
            (wouldForward_iff_outbound hdestination hunseen).mpr ⟨command, hmem, hout⟩
          rw [eq_localSubmit_of_message hmessage] at hchecks
          exact hchecks (skipsHopCheck_localSubmit hdestination hvalid hunexpired hunseen hzero
            hforward hroom)
      cases planned_of_mem_planEnvelope hmem with
      | drop reason => cases hout
      | deliverLocal fresh => cases hout
      | send linkId egress unexpired fresh hops =>
        exact hhops (Option.some_inj.mp hout).symm hops unexpired fresh
      | put offline unexpired fresh hops =>
        exact hhops (Option.some_inj.mp hout).symm hops unexpired fresh
    · rw [handleEnvelope_eq_writeResult] at hmem
      cases hplan : router.planFor envelope ingress with
      | error error =>
        rw [hplan] at hmem
        cases hmem
      | ok plan =>
        obtain ⟨reason, rfl⟩ := planFor_of_invalid hvalid hplan
        rw [hplan] at hmem
        have hdrop := mem_commands_writePlan hmem
        rw [List.mem_singleton] at hdrop
        rw [hdrop] at hout
        cases hout

/-- What leaves the store always has a hop left. -/
theorem forwardStored_hopLimit_ne_zero {router : Router maxLinks maxSeen}
    {stored : HyfEnvelopeRef} {out : List RouterCommand} {command : RouterCommand}
    (hmem : command ∈ (router.forwardStored stored out).commands) {outbound : HyfEnvelopeRef}
    (hout : command.outbound? = some outbound) : outbound.hopLimit ≠ 0 := by
  by_cases hvalid : ValidEnvelope stored
  · rw [forwardStored_eq hvalid] at hmem
    cases planned_of_mem_planStored (mem_commands_writePlan hmem) with
    | drop reason => cases hout
    | deliverLocal fresh => cases hout
    | send linkId egress unexpired hops =>
      cases hout
      exact hops
  · rcases router.forwardStored_of_invalid hvalid out with h | ⟨error, h⟩
    · rw [h] at hmem
      have := mem_commands_writePlan hmem
      rw [List.mem_singleton] at this
      rw [this] at hout
      cases hout
    · rw [h] at hmem
      cases hmem

/-- A stored message without a hop left is dropped, wherever it was to go. -/
theorem forwardStored_of_exhausted {router : Router maxLinks maxSeen} {stored : HyfEnvelopeRef}
    {out : List RouterCommand} (hvalid : ValidEnvelope stored)
    (hunexpired : router.nowMs < stored.expiresAtMs) (hhop : stored.hopLimit = 0) {count : ℕ}
    (hok : (router.forwardStored stored out).result = .ok count) :
    (router.forwardStored stored out).commands = [.drop stored.messageId .hopLimitExhausted] := by
  rw [forwardStored_eq hvalid] at hok ⊢
  rw [(commands_writePlan (length_le_of_writePlan_ok hok)).2, planStored,
    if_neg (UInt64.not_le.mpr hunexpired), if_pos hhop]

/-- The same of a message that leaves the store: nothing is handed on with hop limit 0, and a message
that would have to be is dropped as exhausted. -/
structure StoredHopSafe (router : Router maxLinks maxSeen) (stored : HyfEnvelopeRef)
    (out : List RouterCommand) : Prop where
  outbound : ∀ command ∈ (router.forwardStored stored out).commands, ∀ envelope,
    command.outbound? = some envelope → envelope.hopLimit ≠ 0
  dropped : ValidEnvelope stored → router.nowMs < stored.expiresAtMs → stored.hopLimit = 0 →
    ∀ count, (router.forwardStored stored out).result = .ok count →
      (router.forwardStored stored out).commands = [.drop stored.messageId .hopLimitExhausted]

theorem storedHopSafe (router : Router maxLinks maxSeen) (stored : HyfEnvelopeRef)
    (out : List RouterCommand) : router.StoredHopSafe stored out where
  outbound _ hmem _ hout := forwardStored_hopLimit_ne_zero hmem hout
  dropped hvalid hunexpired hhop _ hok := forwardStored_of_exhausted hvalid hunexpired hhop hok

/-- **Hop-limit safety.** Nothing leaves with hop limit 0 and exhausted messages are dropped, except
exactly on the branch without a hop check. The forwarding of stored messages has no such branch. -/
theorem hopSafe_iff (router : Router maxLinks maxSeen) (event : RouterEvent)
    (out : List RouterCommand) :
    (router.HopSafe event out ↔ ¬router.SkipsHopCheck event out) ∧
      ∀ stored storedOut, router.StoredHopSafe stored storedOut := by
  refine ⟨⟨?_, ?_⟩, fun stored storedOut => router.storedHopSafe stored storedOut⟩
  · intro hsafe hskips
    obtain ⟨command, hmem, envelope, hout, hzero⟩ := exists_zero_hop_of_skips hskips
    exact hsafe.outbound command hmem envelope hout hzero
  · intro hchecks
    exact {
      outbound := fun command hmem envelope hout => outbound_hopLimit_ne_zero hchecks hmem hout
      dropped := fun envelope ingress hmessage hvalid hunexpired hunseen hforward hexhausts count
          hok => commands_of_exhausted hchecks hmessage hvalid hunexpired hunseen hforward hexhausts
            hok }

/-- A router without links whose node is a member of one community. -/
def sampleRouter : Router 1 1 :=
  Router.new {
    localNodeId := ⟨fillBytes 32 1⟩
    localCommunities := (SlotArray.empty _ _).write 0 (some ⟨fillBytes 16 5⟩) }

/-- A community message without hops, submitted while there is no link, is stored as it is. -/
theorem stores_zero_hop_submit : ¬sampleRouter.HopSafe
    (.localSubmit (sampleEnvelope 2 (.community ⟨fillBytes 16 6⟩) 0))
    [.drop ⟨fillBytes 32 0⟩ .duplicate] := by
  intro hsafe
  have hcommands : (sampleRouter.handleEvent
      (.localSubmit (sampleEnvelope 2 (.community ⟨fillBytes 16 6⟩) 0))
      [.drop ⟨fillBytes 32 0⟩ .duplicate]).1.commands =
      [.store (.put (sampleEnvelope 2 (.community ⟨fillBytes 16 6⟩) 0))] := by
    decide
  exact hsafe.outbound _ (hcommands ▸ List.mem_singleton_self _) _ rfl rfl

/-! ## Local delivery -/

/-- What should be written for a message to this node that came in on `ingress`: its delivery, and
for a community message the sends, unless the hop limit is exhausted. -/
def localPlan (router : Router maxLinks maxSeen) (envelope : HyfEnvelopeRef) (ingress : LinkId) :
    List RouterCommand :=
  .deliverLocal envelope :: match envelope.destination with
    | .community _ => if envelope.hopLimit ≤ 1 then [] else
        (router.egressLinks (some ingress)).map fun linkId =>
          .send linkId { envelope with hopLimit := envelope.hopLimit - 1 }
    | .node _ | .foreign _ => []

/-- The frame is delivered: one local delivery of the message as it is, followed by sends only. -/
def DeliversLocally (router : Router maxLinks maxSeen) (frame : LinkFrameRef)
    (envelope : HyfEnvelopeRef) (out : List RouterCommand) : Prop :=
  (router.handleEvent (.link (.frame frame)) out).1.result =
      .ok (router.localPlan envelope frame.linkId).length ∧
    (router.handleEvent (.link (.frame frame)) out).1.commands =
      router.localPlan envelope frame.linkId

/-- Whether a message is for this node: for its id, or for a community it is a member of. -/
def isForThisNode (router : Router maxLinks maxSeen) (destination : HyfDestination) : Bool :=
  match destination with
  | .community communityId => router.policy.isLocalCommunity communityId
  | .node _ | .foreign _ => router.isLocalDestination destination

theorem upLinkCountExcept_le (router : Router maxLinks maxSeen) (ingress : Option LinkId) :
    router.upLinkCountExcept ingress ≤ router.upLinkCountExcept none := by
  refine List.countP_mono_left ?_
  intro link _ hup
  simp only [isUpLinkExcept, Bool.and_eq_true] at hup ⊢
  exact ⟨hup.1, by simp⟩

/-- Local delivery to the node itself does not look at the hop limit. -/
theorem planEnvelope_of_local_node {router : Router maxLinks maxSeen} {envelope : HyfEnvelopeRef}
    (hdestination : ∀ communityId, envelope.destination ≠ .community communityId)
    (hlocal : router.isForThisNode envelope.destination = true)
    (hunexpired : router.nowMs < envelope.expiresAtMs)
    (hunseen : router.hasSeen (seenKeyFor envelope) = false) (ingress : LinkId) :
    router.planEnvelope envelope (some ingress) = router.localPlan envelope ingress := by
  rw [planEnvelope_of_unicast hdestination hunexpired hunseen, planUnicast, localPlan]
  cases h : envelope.destination with
  | community communityId => exact absurd h (hdestination communityId)
  | node node =>
    rw [h] at hlocal
    exact if_pos hlocal
  | foreign endpoint =>
    rw [h] at hlocal
    exact if_pos hlocal

/-- Local delivery to a community happens together with the fan-out. -/
theorem planEnvelope_of_local_community {router : Router maxLinks maxSeen}
    {envelope : HyfEnvelopeRef} {communityId : CommunityId}
    (hdestination : envelope.destination = .community communityId)
    (hlocal : router.policy.isLocalCommunity communityId = true)
    (hunexpired : router.nowMs < envelope.expiresAtMs)
    (hunseen : router.hasSeen (seenKeyFor envelope) = false)
    (hhop : ¬envelope.hopLimit ≤ 1) (ingress : LinkId) :
    router.planEnvelope envelope (some ingress) = router.localPlan envelope ingress := by
  have hfan : router.fanOut envelope (outboundFor envelope (some ingress)) communityId
      (some ingress) = router.localPlan envelope ingress := by
    simp [fanOut, localPlan, deliversCommunity_of_unseen hunseen, hlocal, hdestination, hhop,
      outboundFor]
  rw [planEnvelope_of_community hdestination hunexpired hunseen, planCommunity, hfan,
    if_neg (by simp [hhop]), if_neg (by simp [localPlan])]

/-- **Local delivery and the hop limit.** A message to this node is delivered whatever its hop limit
is, except that a community message needs a hop limit of at least 2. -/
theorem deliversLocally_iff {router : Router maxLinks maxSeen} {frame : LinkFrameRef}
    {envelope : HyfEnvelopeRef} {out : List RouterCommand}
    (hdecode : decodeEnvelope frame.bytes = .ok envelope)
    (hunexpired : router.nowMs < envelope.expiresAtMs)
    (hunseen : router.hasSeen (seenKeyFor envelope) = false)
    (hlocal : router.isForThisNode envelope.destination = true)
    (hroom : 1 + router.upLinkCountExcept none ≤ out.length) :
    router.DeliversLocally frame envelope out ↔
      ∀ communityId, envelope.destination = .community communityId → 2 ≤ envelope.hopLimit := by
  have hvalid := validEnvelope_of_decodeEnvelope hdecode
  have hevent : (router.handleEvent (.link (.frame frame)) out).1 =
      writePlan (router.planEnvelope envelope (some frame.linkId)) out := by
    rw [← handleEnvelope_eq hvalid]
    exact handleEvent_of_message (by simp only [RouterEvent.message?, hdecode]) out
  -- one delivery and at most one send for each link
  have hlen : (router.localPlan envelope frame.linkId).length ≤ out.length := by
    refine le_trans ?_ hroom
    have := router.upLinkCountExcept_le (some frame.linkId)
    rw [upLinkCountExcept_eq] at this
    rw [localPlan, List.length_cons]
    split
    · split_ifs
      · simp
      · rw [List.length_map]
        omega
    · simp
    · simp
  unfold DeliversLocally
  rw [hevent]
  constructor
  · intro h communityId hdestination
    by_contra hhop
    have hle : envelope.hopLimit ≤ 1 := by
      rwa [← not_le_one_iff, not_not] at hhop
    have hplan : router.planEnvelope envelope (some frame.linkId) =
        [.drop envelope.messageId .hopLimitExhausted] := by
      rw [planEnvelope_of_community hdestination hunexpired hunseen]
      simp [planCommunity, hle]
    rw [hplan, (commands_writePlan (by simp; omega)).2, localPlan] at h
    cases h.2
  · intro hhops
    have hplan : router.planEnvelope envelope (some frame.linkId) =
        router.localPlan envelope frame.linkId := by
      by_cases hcommunity : ∃ communityId, envelope.destination = .community communityId
      · obtain ⟨communityId, hdestination⟩ := hcommunity
        have hhop := not_le_one_iff.mpr (hhops communityId hdestination)
        refine planEnvelope_of_local_community hdestination ?_ hunexpired hunseen hhop frame.linkId
        simpa only [hdestination, isForThisNode] using hlocal
      · exact planEnvelope_of_local_node (not_exists.mp hcommunity) hlocal hunexpired hunseen
          frame.linkId
    rw [hplan]
    exact commands_writePlan hlen

/-- A message to the node of `sampleRouter` without hops. -/
def nodeEnvelope : HyfEnvelopeRef := sampleEnvelope 2 (.node ⟨fillBytes 32 1⟩) 0

def nodeFrame : LinkFrameRef := ⟨⟨fillBytes 16 3⟩, 0, wireBytes nodeEnvelope⟩

theorem deliversLocally_zero_hop_to_node :
    sampleRouter.DeliversLocally nodeFrame nodeEnvelope [.drop ⟨fillBytes 32 0⟩ .duplicate] := by
  have hdecode : decodeEnvelope nodeFrame.bytes = .ok nodeEnvelope :=
    decodeEnvelope_wireBytes (validEnvelope_sampleEnvelope _ _ _)
  refine (deliversLocally_iff hdecode (by decide) (by decide) (by decide) (by decide)).mpr ?_
  intro communityId h
  cases h

/-- A message to the community of `sampleRouter`, with the hop limit it is left with after its last
hop. -/
def memberEnvelope : HyfEnvelopeRef := sampleEnvelope 2 (.community ⟨fillBytes 16 5⟩) 1

def memberFrame : LinkFrameRef := ⟨⟨fillBytes 16 3⟩, 0, wireBytes memberEnvelope⟩

theorem drops_one_hop_to_member :
    decodeEnvelope memberFrame.bytes = .ok memberEnvelope ∧
      sampleRouter.nowMs < memberEnvelope.expiresAtMs ∧
      sampleRouter.hasSeen (seenKeyFor memberEnvelope) = false ∧
      sampleRouter.isForThisNode memberEnvelope.destination = true ∧
      1 + sampleRouter.upLinkCountExcept none ≤
        [RouterCommand.drop ⟨fillBytes 32 0⟩ .duplicate].length ∧
      ¬sampleRouter.DeliversLocally memberFrame memberEnvelope
        [.drop ⟨fillBytes 32 0⟩ .duplicate] := by
  refine ⟨decodeEnvelope_wireBytes (validEnvelope_sampleEnvelope _ _ _), by decide, by decide,
    by decide, by decide, ?_⟩
  rintro ⟨-, hcommands⟩
  have hdropped : (sampleRouter.handleEvent (.link (.frame memberFrame))
      [.drop ⟨fillBytes 32 0⟩ .duplicate]).1.commands =
      [.drop memberEnvelope.messageId .hopLimitExhausted] := by
    decide
  rw [hdropped, localPlan] at hcommands
  cases hcommands

end Router

end Hyf
