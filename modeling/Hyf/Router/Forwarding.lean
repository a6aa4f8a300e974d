import Hyf.Router.FanOut

/-!
# What forwarding does to a message

A message is handed on as it came, apart from its hop limit: a message from a link loses one hop, and a
local submission and a stored message lose none. `Journey` follows one message through any chain of
routers, over links and through stores, as the bytes that its envelope is encoded to; on the way it loses
one hop for each link that it crosses.
-/

namespace Hyf

namespace Router

variable {maxLinks maxSeen : ℕ}

/-! ## One router -/

/-- Whatever an event with a message emits was planned for the message. -/
theorem planned_of_mem_commands {router : Router maxLinks maxSeen} {event : RouterEvent}
    {envelope : HyfEnvelopeRef} {ingress : Option LinkId} {out : List RouterCommand}
    {command : RouterCommand} (hmessage : event.message? = some (envelope, ingress))
    (h : command ∈ (router.handleEvent event out).1.commands) :
    router.Planned envelope ingress command := by
  rw [handleEvent_of_message hmessage, handleEnvelope_eq_writeResult] at h
  cases hplan : router.planFor envelope ingress with
  | error error =>
    rw [hplan] at h
    cases h
  | ok plan =>
    rw [hplan] at h
    have hmem := mem_commands_writePlan h
    by_cases hvalid : ValidEnvelope envelope
    · rw [planFor_of_valid hvalid, Except.ok.injEq] at hplan
      exact planned_of_mem_planEnvelope (hplan ▸ hmem)
    · obtain ⟨reason, rfl⟩ := planFor_of_invalid hvalid hplan
      exact List.mem_singleton.mp hmem ▸ .drop reason

theorem plannedStored_of_mem_commands {router : Router maxLinks maxSeen} {stored : HyfEnvelopeRef}
    {out : List RouterCommand} {command : RouterCommand}
    (h : command ∈ (router.forwardStored stored out).commands) :
    router.PlannedStored stored command := by
  by_cases hvalid : ValidEnvelope stored
  · rw [forwardStored_eq hvalid] at h
    exact planned_of_mem_planStored (mem_commands_writePlan h)
  · obtain hdrop | ⟨error, herror⟩ := router.forwardStored_of_invalid hvalid out
    · rw [hdrop] at h
      exact List.mem_singleton.mp (mem_commands_writePlan h) ▸ .drop .expired
    · rw [herror] at h
      cases h

/-- The hops that a message has lost when it is handed on. -/
def hopsFrom (ingress : Option LinkId) : ℕ := if ingress.isSome then 1 else 0

/-- The message with `hops` hops less, which it had. -/
structure LosesHops (before : HyfEnvelopeRef) (hops : ℕ) (after : HyfEnvelopeRef) : Prop where
  same : after = { before with hopLimit := after.hopLimit }
  hopLimit_eq : after.hopLimit.toNat + hops = before.hopLimit.toNat

theorem LosesHops.refl (envelope : HyfEnvelopeRef) : LosesHops envelope 0 envelope := ⟨rfl, rfl⟩

theorem LosesHops.trans {first second third : HyfEnvelopeRef} {hops hops' : ℕ}
    (h : LosesHops first hops second) (h' : LosesHops second hops' third) :
    LosesHops first (hops + hops') third where
  same := by
    rw [h'.same, h.same]
  hopLimit_eq := by
    rw [← h.hopLimit_eq, ← h'.hopLimit_eq]
    omega

theorem losesHops_outboundFor {envelope : HyfEnvelopeRef} {ingress : Option LinkId}
    (hchecked : HopsChecked envelope ingress) :
    LosesHops envelope (hopsFrom ingress) (outboundFor envelope ingress) := by
  cases ingress with
  | none => exact .refl envelope
  | some linkId =>
    refine ⟨rfl, ?_⟩
    have htwo := UInt8.le_iff_toNat_le.mp hchecked.two_le
    have hsub : (envelope.hopLimit - 1).toNat = envelope.hopLimit.toNat - 1 :=
      UInt8.toNat_sub_of_le _ _ (UInt8.le_iff_toNat_le.mpr (Nat.one_le_of_lt htwo))
    show (envelope.hopLimit - 1).toNat + 1 = envelope.hopLimit.toNat
    rw [hsub]
    exact Nat.sub_add_cancel (Nat.one_le_of_lt htwo)

/-- What is handed on for an event is its message, with one hop less if it came in on a link. -/
theorem losesHops_of_mem_commands {router : Router maxLinks maxSeen} {event : RouterEvent}
    {envelope outbound : HyfEnvelopeRef} {ingress : Option LinkId} {out : List RouterCommand}
    {command : RouterCommand} (hmessage : event.message? = some (envelope, ingress))
    (h : command ∈ (router.handleEvent event out).1.commands)
    (hout : command.outbound? = some outbound) :
    LosesHops envelope (hopsFrom ingress) outbound := by
  cases planned_of_mem_commands hmessage h with
  | drop reason => cases hout
  | deliverLocal fresh => cases hout
  | send linkId egress unexpired fresh hops =>
    cases hout
    exact losesHops_outboundFor hops
  | put offline unexpired fresh hops =>
    cases hout
    exact losesHops_outboundFor hops

/-- What is handed on from the store is the stored message. -/
theorem outbound_eq_of_mem_forwardStored {router : Router maxLinks maxSeen}
    {stored outbound : HyfEnvelopeRef} {out : List RouterCommand} {command : RouterCommand}
    (h : command ∈ (router.forwardStored stored out).commands)
    (hout : command.outbound? = some outbound) : outbound = stored := by
  cases plannedStored_of_mem_commands h with
  | drop reason => cases hout
  | deliverLocal fresh => cases hout
  | send linkId egress unexpired hops =>
    cases hout
    rfl

end Router

/-! ## Chains of routers -/

/-- The bytes are what the envelope is encoded to, into some buffer. -/
def Encodes (envelope : HyfEnvelopeRef) (bytes : List UInt8) : Prop :=
  ∃ buffer len written, encodeEnvelope envelope buffer = .ok (len, written) ∧
    bytes = written.take len

theorem Encodes.decodeEnvelope_eq {envelope : HyfEnvelopeRef} {bytes : List UInt8}
    (h : Encodes envelope bytes) : decodeEnvelope bytes = .ok envelope := by
  obtain ⟨buffer, len, written, hencode, rfl⟩ := h
  cases hcheck : validateEnvelope envelope with
  | error error =>
    rw [encodeEnvelope, envelopeEncodedLen_of_invalid hcheck] at hencode
    cases hencode
  | ok =>
    have hvalid : ValidEnvelope envelope := hcheck
    by_cases hroom : (wireBytes envelope).length ≤ buffer.length
    · rw [encodeEnvelope_eq hvalid hroom] at hencode
      cases hencode
      rw [List.take_left]
      exact decodeEnvelope_wireBytes hvalid
    · rw [encodeEnvelope_of_short hvalid (Nat.not_le.mp hroom)] at hencode
      cases hencode

/-- The commands that a message gives rise to, with the number of links that it has crossed: on the
router where it is submitted, on a router at the other end of a link that it was sent on, and on a router
that takes it out of its store. -/
inductive Journey (origin : HyfEnvelopeRef) : ℕ → RouterCommand → Prop
  | submit {maxLinks maxSeen : ℕ} {router : Router maxLinks maxSeen} {out : List RouterCommand}
      {command : RouterCommand}
      (emitted : command ∈ (router.handleEvent (.localSubmit origin) out).1.commands) :
      Journey origin 0 command
  | cross {hops : ℕ} {linkId : LinkId} {sent : HyfEnvelopeRef}
      (before : Journey origin hops (.send linkId sent)) {frame : LinkFrameRef}
      (carried : Encodes sent frame.bytes) {maxLinks maxSeen : ℕ} {router : Router maxLinks maxSeen}
      {out : List RouterCommand} {command : RouterCommand}
      (emitted : command ∈ (router.handleEvent (.link (.frame frame)) out).1.commands) :
      Journey origin (hops + 1) command
  | release {hops : ℕ} {stored : HyfEnvelopeRef} (before : Journey origin hops (.store (.put stored)))
      {bytes : List UInt8} (kept : Encodes stored bytes) {envelope : HyfEnvelopeRef}
      (decoded : decodeEnvelope bytes = .ok envelope) {maxLinks maxSeen : ℕ}
      {router : Router maxLinks maxSeen} {out : List RouterCommand} {command : RouterCommand}
      (emitted : command ∈ (router.forwardStored envelope out).commands) :
      Journey origin hops command

/-- A message that crossed `hops` links has lost as many hops, and nothing else has changed. -/
theorem Journey.losesHops {origin outbound : HyfEnvelopeRef} {hops : ℕ} {command : RouterCommand}
    (h : Journey origin hops command) (hout : command.outbound? = some outbound) :
    Router.LosesHops origin hops outbound := by
  induction h generalizing outbound with
  | submit emitted => exact Router.losesHops_of_mem_commands rfl emitted hout
  | cross before carried emitted ih =>
    rename_i sent frame _ _ _ _ _
    have hmessage : (RouterEvent.link (.frame frame)).message? = some (sent, some frame.linkId) := by
      simp only [RouterEvent.message?, carried.decodeEnvelope_eq]
    exact (ih rfl).trans (Router.losesHops_of_mem_commands hmessage emitted hout)
  | release before kept decoded emitted ih =>
    rw [kept.decodeEnvelope_eq, Except.ok.injEq] at decoded
    subst decoded
    rw [Router.outbound_eq_of_mem_forwardStored emitted hout]
    exact ih rfl

/-- **Forwarding changes only the hop limit.** What a router sends or stores for an event is the message
of the event, with the same hop limit for a local submission and one hop less for a message from a link;
a local delivery is the message itself. Whatever it does with a stored message carries that message.
Therefore a message that crossed some links, with any stays in stores on the way, has lost one hop for
each of these links and is otherwise as it was submitted. -/
theorem forwarding_changes_hopLimit_only :
    (∀ (maxLinks maxSeen : ℕ) (router : Router maxLinks maxSeen) (event : RouterEvent)
      (out : List RouterCommand), ∀ command ∈ (router.handleEvent event out).1.commands,
      (∀ outbound, command.outbound? = some outbound → ∃ envelope ingress,
        event.message? = some (envelope, ingress) ∧
        outbound = { envelope with hopLimit := outbound.hopLimit } ∧
        outbound.hopLimit.toNat + (if ingress.isSome then 1 else 0) = envelope.hopLimit.toNat) ∧
      ∀ delivered, command = .deliverLocal delivered →
        ∃ ingress, event.message? = some (delivered, ingress)) ∧
    (∀ (maxLinks maxSeen : ℕ) (router : Router maxLinks maxSeen) (stored : HyfEnvelopeRef)
      (out : List RouterCommand), ∀ command ∈ (router.forwardStored stored out).commands,
      (∃ linkId, command = .send linkId stored) ∨ command = .deliverLocal stored ∨
        ∃ reason, command = .drop stored.messageId reason) ∧
    ∀ origin hops command, Journey origin hops command →
      ∀ outbound, command.outbound? = some outbound →
        outbound = { origin with hopLimit := outbound.hopLimit } ∧
        outbound.hopLimit.toNat + hops = origin.hopLimit.toNat := by
  refine ⟨?_, ?_, ?_⟩
  · intro maxLinks maxSeen router event out command hcommand
    cases hmessage : event.message? with
    | none =>
      refine ⟨?_, ?_⟩
      · intro outbound hout
        rw [Router.outbound_of_no_message hmessage hcommand] at hout
        cases hout
      · rintro delivered rfl
        obtain ⟨nowMs, hstore⟩ | ⟨linkId, hdrop⟩ := Router.command_of_no_message hmessage hcommand
        · cases hstore
        · cases hdrop
    | some message =>
      obtain ⟨envelope, ingress⟩ := message
      refine ⟨?_, ?_⟩
      · intro outbound hout
        have hloses := Router.losesHops_of_mem_commands hmessage hcommand hout
        exact ⟨envelope, ingress, rfl, hloses.same, hloses.hopLimit_eq⟩
      · rintro delivered rfl
        cases Router.planned_of_mem_commands hmessage hcommand with
        | deliverLocal fresh => exact ⟨ingress, rfl⟩
  · intro maxLinks maxSeen router stored out command hcommand
    cases Router.plannedStored_of_mem_commands hcommand with
    | send linkId egress unexpired hops => exact .inl ⟨linkId, rfl⟩
    | deliverLocal fresh => exact .inr (.inl rfl)
    | drop reason => exact .inr (.inr ⟨reason, rfl⟩)
  · intro origin hops command hjourney outbound hout
    have hloses := hjourney.losesHops hout
    exact ⟨hloses.same, hloses.hopLimit_eq⟩

theorem encodes_wireBytes {envelope : HyfEnvelopeRef} (h : ValidEnvelope envelope) :
    Encodes envelope (wireBytes envelope) :=
  ⟨wireBytes envelope, _, _, encodeEnvelope_eq h le_rfl, List.take_left.symm⟩

/-- A message to another node. -/
def travellingEnvelope : HyfEnvelopeRef := sampleEnvelope 2 (.node ⟨fillBytes 32 7⟩) 4

/-- It is submitted without a link and stored, released when there is one, and stored again by the
router at the other end. -/
theorem journey_travellingEnvelope :
    Journey travellingEnvelope 1 (.store (.put { travellingEnvelope with hopLimit := 3 })) := by
  have hencodes : Encodes travellingEnvelope (wireBytes travellingEnvelope) :=
    encodes_wireBytes (validEnvelope_sampleEnvelope _ _ _)
  have hstored : Journey travellingEnvelope 0 (.store (.put travellingEnvelope)) :=
    @Journey.submit _ _ _ Router.sampleRouter [.drop ⟨fillBytes 32 0⟩ .duplicate] _
      (by decide)
  have hsent : Journey travellingEnvelope 0 (.send ⟨fillBytes 16 3⟩ travellingEnvelope) :=
    @Journey.release _ _ _ hstored _ hencodes _ hencodes.decodeEnvelope_eq _ _ Router.linkedRouter
      [.drop ⟨fillBytes 32 0⟩ .duplicate] _ (by decide)
  exact @Journey.cross _ _ _ _ hsent ⟨⟨fillBytes 16 3⟩, 0, wireBytes travellingEnvelope⟩ hencodes
    _ _ Router.sampleRouter [.drop ⟨fillBytes 32 0⟩ .duplicate] _ (by decide +kernel)

theorem forwarding_changes_hopLimit_only_travelling :
    ({ travellingEnvelope with hopLimit := 3 } : HyfEnvelopeRef).hopLimit.toNat + 1 =
      travellingEnvelope.hopLimit.toNat :=
  (forwarding_changes_hopLimit_only.2.2 _ _ _ journey_travellingEnvelope _ rfl).2

end Hyf
