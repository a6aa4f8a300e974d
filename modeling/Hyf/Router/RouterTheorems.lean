import Hyf.Router.RouterPlan

/-!
# What a plan can contain

`Planned` and `PlannedStored` list the commands a plan can contain and what is known about each:
every envelope in a plan is the routed one, possibly with one hop less, it has not expired, and a
local delivery is planned only for an unseen key. `AdmitsPlan` is what the gateway needs of a plan
to execute it, and `handleEvent_eq` extends the plans from envelopes to events.
-/

namespace Hyf

/-- Whether an envelope is valid does not depend on its hop limit. -/
theorem ValidEnvelope.withHopLimit {envelope : HyfEnvelopeRef} (h : ValidEnvelope envelope)
    (hopLimit : UInt8) : ValidEnvelope { envelope with hopLimit := hopLimit } :=
  validEnvelope_iff.mpr (validEnvelope_iff.mp h)

namespace Router

variable {maxLinks maxSeen : ℕ}

/-- The message keeps its identifier on the way out. -/
@[simp] theorem outboundFor_messageId (envelope : HyfEnvelopeRef) (ingress : Option LinkId) :
    (outboundFor envelope ingress).messageId = envelope.messageId := by
  cases ingress <;> rfl

/-- The message keeps its expiry on the way out. -/
@[simp] theorem outboundFor_expiresAtMs (envelope : HyfEnvelopeRef) (ingress : Option LinkId) :
    (outboundFor envelope ingress).expiresAtMs = envelope.expiresAtMs := by
  cases ingress <;> rfl

/-- What goes out is as valid as what came in. -/
theorem validEnvelope_outboundFor {envelope : HyfEnvelopeRef} (h : ValidEnvelope envelope)
    (ingress : Option LinkId) : ValidEnvelope (outboundFor envelope ingress) := by
  cases ingress with
  | none => exact h
  | some linkId => exact h.withHopLimit _

/-- Whether forwarding a message from `ingress` would leave it without hops. -/
def exhausts (envelope : HyfEnvelopeRef) (ingress : Option LinkId) : Bool :=
  match ingress with
  | none => envelope.hopLimit = 0
  | some _ => envelope.hopLimit ≤ 1

/-- At least two hops are left. -/
theorem not_le_one_iff {hopLimit : UInt8} : ¬hopLimit ≤ 1 ↔ 2 ≤ hopLimit := by
  rw [UInt8.le_iff_toNat_le, UInt8.le_iff_toNat_le]
  simp only [UInt8.reduceToNat]
  omega

/-- A message from a link needs one hop to get here and one to leave. -/
theorem exhausts_some_eq_false_iff {envelope : HyfEnvelopeRef} {linkId : LinkId} :
    exhausts envelope (some linkId) = false ↔ 2 ≤ envelope.hopLimit := by
  rw [exhausts, decide_eq_false_iff_not, not_le_one_iff]

/-- What goes out may hop on. -/
theorem outboundFor_hopLimit_ne_zero {envelope : HyfEnvelopeRef} {ingress : Option LinkId}
    (h : exhausts envelope ingress = false) : (outboundFor envelope ingress).hopLimit ≠ 0 := by
  cases ingress with
  | none => simpa [exhausts, outboundFor] using h
  | some linkId =>
    have hlt : 1 < envelope.hopLimit := by simpa [exhausts, UInt8.not_le] using h
    have hnat : 1 < envelope.hopLimit.toNat := UInt8.lt_iff_toNat_lt.mp hlt
    intro hzero
    have hsub : (envelope.hopLimit - 1).toNat = envelope.hopLimit.toNat - 1 :=
      UInt8.toNat_sub_of_le _ _ (UInt8.le_iff_toNat_le.mpr (by simpa using hnat.le))
    have : (envelope.hopLimit - 1).toNat = 0 := congrArg UInt8.toNat hzero
    omega

/-- `envelope_for_next_hop` fails exactly where the hops are exhausted. -/
theorem envelopeForNextHop_eq (envelope : HyfEnvelopeRef) (ingress : Option LinkId) :
    envelopeForNextHop envelope ingress = if exhausts envelope ingress then
      .error .hopLimitExhausted else .ok (outboundFor envelope ingress) := by
  cases ingress <;> simp [envelopeForNextHop, exhausts, outboundFor]

/-! ## The commands of a plan -/

/-- The commands of a fan-out: a delivery, if the envelope is new, and sends on the other links. -/
theorem mem_fanOut {router : Router maxLinks maxSeen} {envelope outbound : HyfEnvelopeRef}
    {communityId : CommunityId} {ingress : Option LinkId} {command : RouterCommand}
    (h : command ∈ router.fanOut envelope outbound communityId ingress) :
    (command = .deliverLocal envelope ∧ router.hasSeen (seenKeyFor envelope) = false) ∨
      ∃ linkId ∈ router.egressLinks ingress, command = .send linkId outbound := by
  rw [fanOut, List.mem_append] at h
  rcases h with hlocal | hsend
  · split_ifs at hlocal with hdelivers
    · rw [List.mem_singleton] at hlocal
      rw [deliversCommunity, Bool.and_eq_true, Bool.not_eq_true'] at hdelivers
      exact .inl ⟨hlocal, hdelivers.2⟩
    · cases hlocal
  · obtain ⟨linkId, hlink, rfl⟩ := List.mem_map.mp hsend
    exact .inr ⟨linkId, hlink, rfl⟩

/-- What the routing functions know about the hop limit when they forward: it is not exhausted,
unless the message is a community message submitted locally, whose hop limit is not looked at. -/
def HopsChecked (envelope : HyfEnvelopeRef) (ingress : Option LinkId) : Prop :=
  exhausts envelope ingress = false ∨
    ingress = none ∧ ∃ communityId, envelope.destination = .community communityId

/-- The hop limit of a message from a link is always looked at. -/
theorem HopsChecked.two_le {envelope : HyfEnvelopeRef} {linkId : LinkId}
    (h : HopsChecked envelope (some linkId)) : 2 ≤ envelope.hopLimit := by
  rcases h with hchecked | ⟨hnone, -⟩
  · exact exhausts_some_eq_false_iff.mp hchecked
  · cases hnone

/-- What is planned for a routed envelope, apart from drops, concerns that envelope, unexpired and
unseen; a put is planned only when there is no link to leave on. -/
inductive Planned (router : Router maxLinks maxSeen) (envelope : HyfEnvelopeRef)
    (ingress : Option LinkId) : RouterCommand → Prop
  | drop (reason : DropReason) : Planned router envelope ingress (.drop envelope.messageId reason)
  | deliverLocal (fresh : router.hasSeen (seenKeyFor envelope) = false) :
      Planned router envelope ingress (.deliverLocal envelope)
  | send (linkId : LinkId) (egress : linkId ∈ router.egressLinks ingress)
      (unexpired : router.nowMs < envelope.expiresAtMs)
      (fresh : router.hasSeen (seenKeyFor envelope) = false)
      (hops : HopsChecked envelope ingress) :
      Planned router envelope ingress (.send linkId (outboundFor envelope ingress))
  | put (offline : router.egressLinks ingress = [])
      (unexpired : router.nowMs < envelope.expiresAtMs)
      (fresh : router.hasSeen (seenKeyFor envelope) = false)
      (hops : HopsChecked envelope ingress) :
      Planned router envelope ingress (.store (.put (outboundFor envelope ingress)))

/-- Every command of a plan is there for a reason. -/
theorem planned_of_mem_planEnvelope {router : Router maxLinks maxSeen} {envelope : HyfEnvelopeRef}
    {ingress : Option LinkId} {command : RouterCommand}
    (h : command ∈ router.planEnvelope envelope ingress) :
    router.Planned envelope ingress command := by
  unfold planEnvelope at h
  split_ifs at h with hexpired hseen
  · rw [List.mem_singleton] at h
    exact h ▸ .drop _
  · rw [List.mem_singleton] at h
    exact h ▸ .drop _
  have hunexpired := UInt64.not_le.mp hexpired
  rw [Bool.not_eq_true] at hseen
  -- nodes and foreign endpoints are routed alike
  have hunicast : command ∈ router.planUnicast envelope ingress →
      router.Planned envelope ingress command := by
    intro h
    rw [planUnicast, envelopeForNextHop_eq] at h
    split_ifs at h with hlocal hhop
    · rw [List.mem_singleton] at h
      exact h ▸ .deliverLocal hseen
    · rw [List.mem_singleton] at h
      exact h ▸ .drop _
    · rw [Bool.not_eq_true] at hhop
      cases hlinks : router.egressLinks ingress with
      | nil =>
        simp only [hlinks, List.head?_nil, List.mem_singleton] at h
        exact h ▸ .put hlinks hunexpired hseen (.inl hhop)
      | cons linkId rest =>
        simp only [hlinks, List.head?_cons, List.mem_singleton] at h
        exact h ▸ .send linkId (hlinks ▸ List.mem_cons_self) hunexpired hseen (.inl hhop)
  cases hdestination : envelope.destination with
  | node node => exact hunicast (by simpa only [hdestination] using h)
  | foreign endpoint => exact hunicast (by simpa only [hdestination] using h)
  | community communityId =>
    simp only [hdestination, planCommunity] at h
    split_ifs at h with hhop hnone hingress
    · rw [List.mem_singleton] at h
      exact h ▸ .drop _
    all_goals
      have hhops : HopsChecked envelope ingress := by
        cases ingress with
        | none => exact .inr ⟨rfl, communityId, hdestination⟩
        | some linkId => exact .inl (by simpa [exhausts] using hhop)
    · rw [List.mem_singleton] at h
      obtain rfl : ingress = none := by simpa using hingress
      have hoffline : router.egressLinks none = [] := by
        rw [fanOut, List.append_eq_nil_iff, List.map_eq_nil_iff] at hnone
        exact hnone.2
      exact h ▸ .put hoffline hunexpired hseen hhops
    · rw [List.mem_singleton] at h
      exact h ▸ .drop _
    · rcases mem_fanOut h with ⟨rfl, hfresh⟩ | ⟨linkId, hlink, rfl⟩
      · exact .deliverLocal hfresh
      · exact .send linkId hlink hunexpired hseen hhops

/-- What is planned for a stored envelope. -/
inductive PlannedStored (router : Router maxLinks maxSeen) (envelope : HyfEnvelopeRef) :
    RouterCommand → Prop
  | drop (reason : DropReason) : PlannedStored router envelope (.drop envelope.messageId reason)
  | deliverLocal (fresh : router.hasSeen (seenKeyFor envelope) = false) :
      PlannedStored router envelope (.deliverLocal envelope)
  | send (linkId : LinkId) (egress : linkId ∈ router.egressLinks none)
      (unexpired : router.nowMs < envelope.expiresAtMs) (hops : envelope.hopLimit ≠ 0) :
      PlannedStored router envelope (.send linkId envelope)

/-- Every command for a stored envelope is there for a reason. -/
theorem planned_of_mem_planStored {router : Router maxLinks maxSeen} {envelope : HyfEnvelopeRef}
    {command : RouterCommand} (h : command ∈ router.planStored envelope) :
    router.PlannedStored envelope command := by
  unfold planStored at h
  split_ifs at h with hexpired hhop
  · rw [List.mem_singleton] at h
    exact h ▸ .drop _
  · rw [List.mem_singleton] at h
    exact h ▸ .drop _
  have hunexpired := UInt64.not_le.mp hexpired
  have hunicast : command ∈ router.planStoredUnicast envelope →
      router.PlannedStored envelope command := by
    intro h
    unfold planStoredUnicast at h
    split_ifs at h with hlocal hseen
    · rw [List.mem_singleton] at h
      exact h ▸ .drop _
    · rw [List.mem_singleton] at h
      exact h ▸ .deliverLocal (Bool.not_eq_true _ ▸ hseen)
    · rw [Option.mem_toList, Option.map_eq_some_iff] at h
      obtain ⟨linkId, hhead, rfl⟩ := h
      exact .send linkId (List.mem_of_head? hhead) hunexpired hhop
  cases hdestination : envelope.destination with
  | node node => exact hunicast (by simpa only [hdestination] using h)
  | foreign endpoint => exact hunicast (by simpa only [hdestination] using h)
  | community communityId =>
    simp only [hdestination] at h
    rcases mem_fanOut h with ⟨rfl, hfresh⟩ | ⟨linkId, hlink, rfl⟩
    · exact .deliverLocal hfresh
    · exact .send linkId hlink hunexpired hhop

/-! ## Executable plans -/

/-- What holds of a command the router plans: a message that leaves or is stored is valid and has
not expired, it leaves on a link that is up, and a local delivery is not a duplicate. -/
def Admits (router : Router maxLinks maxSeen) : RouterCommand → Prop
  | .send linkId envelope => ValidEnvelope envelope ∧ router.nowMs < envelope.expiresAtMs ∧
      linkId ∈ router.egressLinks none
  | .store (.put envelope) => ValidEnvelope envelope ∧ router.nowMs < envelope.expiresAtMs
  | .store _ => False
  | .drop _ _ | .dropFrame _ _ => True
  | .deliverLocal envelope => router.hasSeen (seenKeyFor envelope) = false

/-- All commands of a plan are admitted, and only its first one is not a send. -/
structure AdmitsPlan (router : Router maxLinks maxSeen) (plan : List RouterCommand) : Prop where
  admits : ∀ command ∈ plan, router.Admits command
  sends : ∀ command ∈ plan.tail, command.isSend = true

/-- A plan of one command that is admitted. -/
theorem admitsPlan_singleton {router : Router maxLinks maxSeen} {command : RouterCommand}
    (h : router.Admits command) : router.AdmitsPlan [command] :=
  ⟨by simpa using h, by simp⟩

/-- Only the first command of a fan-out may be something else than a send. -/
theorem isSend_of_mem_tail_fanOut {router : Router maxLinks maxSeen}
    {envelope outbound : HyfEnvelopeRef} {communityId : CommunityId} {ingress : Option LinkId}
    {command : RouterCommand}
    (h : command ∈ (router.fanOut envelope outbound communityId ingress).tail) :
    command.isSend = true := by
  have hsends : ∀ c ∈ (router.egressLinks ingress).map
      (fun linkId => RouterCommand.send linkId outbound), c.isSend = true := by
    intro c hc
    obtain ⟨linkId, -, rfl⟩ := List.mem_map.mp hc
    rfl
  rw [fanOut] at h
  split_ifs at h
  · exact hsends command h
  · exact hsends command (List.mem_of_mem_tail h)

/-- The commands for a valid envelope are admitted together. -/
theorem admitsPlan_planEnvelope {router : Router maxLinks maxSeen} {envelope : HyfEnvelopeRef}
    (hvalid : ValidEnvelope envelope) (ingress : Option LinkId) :
    router.AdmitsPlan (router.planEnvelope envelope ingress) where
  admits := by
    intro command h
    cases planned_of_mem_planEnvelope h with
    | drop reason => trivial
    | deliverLocal fresh => exact fresh
    | send linkId egress unexpired fresh hops =>
      refine ⟨validEnvelope_outboundFor hvalid ingress, ?_,
        router.egressLinks_subset ingress egress⟩
      rwa [outboundFor_expiresAtMs]
    | put offline unexpired fresh hops =>
      refine ⟨validEnvelope_outboundFor hvalid ingress, ?_⟩
      rwa [outboundFor_expiresAtMs]
  sends := by
    intro command h
    -- only the plan for a community has more than one command
    have hunicast : (router.planUnicast envelope ingress).tail = [] := by
      rw [planUnicast]
      split_ifs
      · rfl
      · cases envelopeForNextHop envelope ingress with
        | error reason => rfl
        | ok outbound => cases (router.egressLinks ingress).head? <;> rfl
    unfold planEnvelope at h
    split_ifs at h
    · cases h
    · cases h
    cases hdestination : envelope.destination with
    | node node => simp only [hdestination, hunicast, List.not_mem_nil] at h
    | foreign endpoint => simp only [hdestination, hunicast, List.not_mem_nil] at h
    | community communityId =>
      simp only [hdestination, planCommunity] at h
      split_ifs at h
      · cases h
      · cases h
      · cases h
      · exact isSend_of_mem_tail_fanOut h

/-- The commands for a valid stored envelope are admitted together. -/
theorem admitsPlan_planStored {router : Router maxLinks maxSeen} {envelope : HyfEnvelopeRef}
    (hvalid : ValidEnvelope envelope) : router.AdmitsPlan (router.planStored envelope) where
  admits := by
    intro command h
    cases planned_of_mem_planStored h with
    | drop reason => trivial
    | deliverLocal fresh => exact fresh
    | send linkId egress unexpired hops => exact ⟨hvalid, unexpired, egress⟩
  sends := by
    intro command h
    have hunicast : (router.planStoredUnicast envelope).tail = [] := by
      rw [planStoredUnicast]
      split_ifs
      · rfl
      · rfl
      · cases (router.egressLinks none).head? <;> rfl
    unfold planStored at h
    split_ifs at h
    · cases h
    · cases h
    cases hdestination : envelope.destination with
    | node node => simp only [hdestination, hunicast, List.not_mem_nil] at h
    | foreign endpoint => simp only [hdestination, hunicast, List.not_mem_nil] at h
    | community communityId =>
      simp only [hdestination] at h
      exact isSend_of_mem_tail_fanOut h

/-! ## The plan of an event -/

/-- The plan for any envelope: an invalid one is refused, or dropped as expired. -/
def planFor (router : Router maxLinks maxSeen) (envelope : HyfEnvelopeRef)
    (ingress : Option LinkId) : Except RouterError (List RouterCommand) :=
  match validateEnvelope envelope with
  | .ok () => .ok (router.planEnvelope envelope ingress)
  | .error error =>
    match invalidEnvelopeDropReason error with
    | some reason => .ok [.drop envelope.messageId reason]
    | none => .error (.invalidEnvelope error)

/-- The commands of an event, before they are copied to the slice. -/
def planEvent (router : Router maxLinks maxSeen) :
    RouterEvent → Except RouterError (List RouterCommand)
  | .link (.up linkId) => (router.setLinkState linkId true).map fun _ => []
  | .link (.down linkId) => (router.setLinkState linkId false).map fun _ => []
  | .link (.frame frame) =>
    match decodeEnvelope frame.bytes with
    | .ok envelope => router.planFor envelope (some frame.linkId)
    | .error _ => .ok [.dropFrame frame.linkId .malformedFrame]
  | .localSubmit envelope => router.planFor envelope none
  | .tick nowMs => .ok [.store (.expireBefore nowMs)]

/-- The emission that writes a plan, if there is one. -/
def writeResult (plan : Except RouterError (List RouterCommand)) (out : List RouterCommand) :
    Emission :=
  match plan with
  | .ok plan => writePlan plan out
  | .error error => ⟨.error error, out⟩

/-- `handle_envelope` copies the plan to the slice, or returns its error. -/
theorem handleEnvelope_eq_writeResult (router : Router maxLinks maxSeen)
    (envelope : HyfEnvelopeRef) (ingress : Option LinkId) (out : List RouterCommand) :
    router.handleEnvelope envelope ingress out =
      writeResult (router.planFor envelope ingress) out := by
  cases hcheck : validateEnvelope envelope with
  | ok value =>
    rw [handleEnvelope_eq hcheck]
    simp only [planFor, hcheck, writeResult]
  | error error =>
    simp only [handleEnvelope, rejectInvalidOrExpired, planFor, hcheck]
    cases invalidEnvelopeDropReason error <;> simp only [writeResult, emit_eq]

/-- **Routing an event writes its plan.** -/
theorem handleEvent_eq (router : Router maxLinks maxSeen) (event : RouterEvent)
    (out : List RouterCommand) :
    (router.handleEvent event out).1 = writeResult (router.planEvent event) out := by
  have hempty : (⟨.ok 0, out⟩ : Emission) = writePlan [] out := by simp [writePlan]
  cases event with
  | localSubmit envelope => exact router.handleEnvelope_eq_writeResult envelope none out
  | tick nowMs => exact emit_eq out _
  | link event =>
    cases event with
    | up linkId =>
      simp only [handleEvent, planEvent]
      cases router.setLinkState linkId true with
      | ok router' => exact hempty
      | error error => rfl
    | down linkId =>
      simp only [handleEvent, planEvent]
      cases router.setLinkState linkId false with
      | ok router' => exact hempty
      | error error => rfl
    | frame frame =>
      simp only [handleEvent, handleFrame, planEvent]
      cases decodeEnvelope frame.bytes with
      | ok envelope => exact router.handleEnvelope_eq_writeResult envelope (some frame.linkId) out
      | error error => exact emit_eq out _

/-- A valid envelope has a plan. -/
theorem planFor_of_valid {router : Router maxLinks maxSeen} {envelope : HyfEnvelopeRef}
    (h : ValidEnvelope envelope) (ingress : Option LinkId) :
    router.planFor envelope ingress = .ok (router.planEnvelope envelope ingress) := by
  rw [ValidEnvelope] at h
  simp only [planFor, h]

/-- Whatever is planned for an envelope that is not valid is a drop. -/
theorem planFor_of_invalid {router : Router maxLinks maxSeen} {envelope : HyfEnvelopeRef}
    (h : ¬ValidEnvelope envelope) {ingress : Option LinkId} {plan : List RouterCommand}
    (hplan : router.planFor envelope ingress = .ok plan) :
    ∃ reason, plan = [.drop envelope.messageId reason] := by
  unfold planFor at hplan
  split at hplan
  · rename_i hvalid
    exact absurd hvalid h
  · split at hplan
    · cases hplan
      exact ⟨_, rfl⟩
    · cases hplan

/-- Whatever is planned is admitted. -/
theorem admitsPlan_planFor {router : Router maxLinks maxSeen} {envelope : HyfEnvelopeRef}
    {ingress : Option LinkId} {plan : List RouterCommand}
    (h : router.planFor envelope ingress = .ok plan) : router.AdmitsPlan plan := by
  by_cases hvalid : ValidEnvelope envelope
  · rw [planFor_of_valid hvalid, Except.ok.injEq] at h
    exact h ▸ admitsPlan_planEnvelope hvalid ingress
  · obtain ⟨reason, rfl⟩ := planFor_of_invalid hvalid h
    exact admitsPlan_singleton trivial

/-- An invalid stored envelope is dropped as expired, or is an error. -/
theorem forwardStored_of_invalid {router : Router maxLinks maxSeen} {envelope : HyfEnvelopeRef}
    (h : ¬ValidEnvelope envelope) (out : List RouterCommand) :
    router.forwardStored envelope out = writePlan [.drop envelope.messageId .expired] out ∨
      ∃ error, router.forwardStored envelope out = ⟨.error (.invalidEnvelope error), out⟩ := by
  cases hcheck : validateEnvelope envelope with
  | ok => exact absurd hcheck h
  | error error =>
    simp only [forwardStored, rejectTerminalEnvelope, hcheck]
    cases error with
    | invalidExpiry =>
      left
      simp only [invalidEnvelopeDropReason, emit_eq]
    | _ =>
      right
      exact ⟨_, rfl⟩

end Router

end Hyf
