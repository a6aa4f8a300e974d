import Hyf.Gateway.Calls

/-!
# What a call does to its executor

The log of a call tells what its executor was asked, and in what order. `Answering` is one moment as the
executor saw it: it answers a send and goes to its next state, and nothing else concerns it. Every call
leads the executor through the moments that it logs (`traffic_perform`), while the table of links stays
as it is, except that a report on a link may change it before anything is sent.
-/

namespace Hyf

open LoggedSteps

/-- The send an event reports, with its answer. -/
def GatewayEvent.send? :
    GatewayEvent → Option (LinkId × List UInt8 × TimestampMs × Except GatewayError Unit)
  | sendLinkBytes linkId bytes nowMs answer => some (linkId, bytes, nowMs, answer)
  | _ => none

namespace GatewayCore

variable {maxLinks maxSeen storeCapacity : ℕ} {E α : Type} [GatewayLinkExecutor E]

/-- One moment as the executor saw it. -/
inductive Answering : E → List (Moment maxLinks maxSeen storeCapacity) → E → Prop
  | send {executor executor' : E} {linkId : LinkId} {bytes : List UInt8} {nowMs : TimestampMs}
      {answer : Except GatewayError Unit} (core : GatewayCore maxLinks maxSeen storeCapacity)
      (answered : GatewayLinkExecutor.sendLinkBytes executor linkId bytes nowMs =
        (answer, executor')) :
      Answering executor [⟨.sendLinkBytes linkId bytes nowMs answer, core⟩] executor'
  | quiet {moment : Moment maxLinks maxSeen storeCapacity} (executor : E)
      (quiet : moment.event.send? = none) : Answering executor [moment] executor

/-- A call led the executor through the moments that it logged, and left the links alone. -/
structure Traffic (world world' : World maxLinks maxSeen storeCapacity E) : Prop where
  links_eq : world'.core.router.links = world.core.router.links
  exists_moments : ∃ moments, world'.log = world.log ++ moments ∧
    Steps Answering world.executor moments world'.executor ∧
    ∀ moment ∈ moments, moment.core.router.links = world.core.router.links

/-- The core changes in other ways than its links, and nothing is logged. -/
theorem Traffic.of_core (world : World maxLinks maxSeen storeCapacity E)
    {core : GatewayCore maxLinks maxSeen storeCapacity}
    (hlinks : core.router.links = world.core.router.links) :
    Traffic world { world with core } :=
  ⟨hlinks, [], (List.append_nil _).symm, .refl _, by simp⟩

/-- One more moment in the log. -/
theorem Traffic.of_moment (world : World maxLinks maxSeen storeCapacity E) {executor : E}
    {event : GatewayEvent} (h : Answering world.executor [⟨event, world.core⟩] executor) :
    Traffic world { world with executor, log := world.log ++ [⟨event, world.core⟩] } := by
  refine ⟨rfl, [⟨event, world.core⟩], rfl, .single h, ?_⟩
  intro moment hmem
  rw [List.mem_singleton] at hmem
  rw [hmem]

instance : IsPreorder (World maxLinks maxSeen storeCapacity E) Traffic where
  refl world := .of_core world rfl
  trans world world' world'' := by
    rintro ⟨hlinks, moments, hlog, hsteps, hmoments⟩ ⟨hlinks', moments', hlog', hsteps', hmoments'⟩
    refine ⟨hlinks'.trans hlinks, moments ++ moments', ?_, hsteps.trans hsteps', ?_⟩
    · rw [hlog', hlog, List.append_assoc]
    · intro moment hmem
      obtain hmem | hmem := List.mem_append.mp hmem
      · exact hmoments moment hmem
      · rw [hmoments' moment hmem, hlinks]

/-! ## The parts of a call -/

/-- A change of the core that keeps the links makes no traffic. -/
theorem traffic_modifyCore {f : GatewayCore maxLinks maxSeen storeCapacity →
    GatewayCore maxLinks maxSeen storeCapacity} (hlinks : ∀ core, (f core).router.links =
      core.router.links) :
    Moves Traffic (modifyCore f : GatewayM maxLinks maxSeen storeCapacity E Unit) :=
  ⟨fun world => .of_core world (hlinks world.core)⟩

/-- Counting makes no traffic. -/
theorem traffic_modifyMetrics (f : GatewayMetrics → GatewayMetrics) :
    Moves Traffic (modifyMetrics f : GatewayM maxLinks maxSeen storeCapacity E Unit) :=
  traffic_modifyCore fun _ => rfl

/-- Recording an event that is no send makes no traffic. -/
theorem traffic_record {event : GatewayEvent} (h : event.send? = none) :
    Moves Traffic (record event : GatewayM maxLinks maxSeen storeCapacity E Unit) :=
  ⟨fun world => .of_moment world (.quiet world.executor h)⟩

/-- Committing a key makes no traffic. -/
theorem traffic_commitSeen (envelope : HyfEnvelopeRef) :
    Moves Traffic (commitSeen envelope : GatewayM maxLinks maxSeen storeCapacity E Unit) := by
  apply Moves.bind Moves.get
  intro world
  apply Moves.bind (traffic_modifyCore fun core => core.router.commitSeen_links envelope)
  intro _
  exact Moves.ite (Moves.pure ()) (traffic_record rfl)

/-- The executor is called for a send only. -/
theorem traffic_callExecutor (linkId : LinkId) (bytes : List UInt8) (nowMs : TimestampMs) :
    Moves Traffic (callExecutor linkId bytes nowMs :
      GatewayM maxLinks maxSeen storeCapacity E (Except GatewayError Unit)) :=
  ⟨fun world => .of_moment world (.send world.core rfl)⟩

/-- A send is recorded with its answer. -/
theorem traffic_sendEnvelope (linkId : LinkId) (envelope : HyfEnvelopeRef) :
    Moves Traffic (sendEnvelope linkId envelope :
      GatewayM maxLinks maxSeen storeCapacity E Unit) := by
  apply Moves.bind (moves_propagate _ _)
  intro encoded
  apply Moves.bind (traffic_callExecutor _ _ _)
  intro answer
  cases answer with
  | error error => exact Moves.bind (traffic_modifyMetrics _) fun _ => Moves.throw error
  | ok value => exact traffic_modifyMetrics _

/-- A command makes the traffic of its send. -/
theorem traffic_executeCommand (command : RouterCommand) :
    Moves Traffic (executeCommand command : GatewayM maxLinks maxSeen storeCapacity E Unit) := by
  cases command with
  | send linkId envelope =>
    exact Moves.bind (traffic_sendEnvelope linkId envelope) fun _ => traffic_commitSeen envelope
  | drop messageId reason => exact traffic_modifyMetrics _
  | dropFrame linkId reason => exact traffic_modifyMetrics _
  | deliverLocal envelope =>
    refine Moves.bind (traffic_modifyCore fun _ => by rfl) fun _ => ?_
    exact Moves.bind (traffic_modifyMetrics _) fun _ => traffic_commitSeen envelope
  | store command =>
    cases command with
    | put envelope =>
      apply Moves.bind Moves.get
      intro world
      apply Moves.ite
      · apply Moves.bind Moves.get
        intro world
        apply Moves.bind (moves_propagate _ _)
        intro store
        refine Moves.bind (traffic_modifyCore fun _ => by rfl) fun _ => ?_
        exact Moves.bind (traffic_modifyMetrics _) fun _ => traffic_commitSeen envelope
      · exact traffic_modifyMetrics _
    | remove messageId =>
      apply Moves.bind Moves.get
      intro world
      exact Moves.bind (moves_propagate _ _) fun store => traffic_modifyCore fun _ => by rfl
    | expireBefore now =>
      apply Moves.bind Moves.get
      intro world
      refine Moves.bind (traffic_modifyCore fun _ => by rfl) fun _ => ?_
      exact traffic_modifyMetrics _

/-- A turn of the loop makes the traffic of its commands. -/
theorem traffic_flushIteration
    (hflush : ∀ commands, Moves Traffic (executeCommandsForFlush commands :
      GatewayM maxLinks maxSeen storeCapacity E Bool)) :
    Moves Traffic (flushIteration : GatewayM maxLinks maxSeen storeCapacity E Bool) := by
  apply Moves.bind Moves.get
  intro world
  split
  · exact Moves.pure false
  apply Moves.bind (moves_propagate _ _)
  intro envelope
  apply Moves.bind (moves_propagate _ _)
  intro count
  apply Moves.ite (Moves.pure false)
  apply Moves.bind (hflush _).observed
  intro flushed
  apply Moves.bind Moves.get
  intro world'
  apply Moves.bind (traffic_record rfl)
  intro _
  apply Moves.bind (moves_propagate _ _)
  intro released
  apply Moves.ite (Moves.pure false)
  apply Moves.bind Moves.get
  intro world'
  apply Moves.bind (moves_propagate _ _)
  intro store
  exact Moves.bind (traffic_modifyCore fun _ => by rfl) fun _ => Moves.pure true

/-- So do all parts of the calls. -/
theorem traffic_parts : Parts maxLinks maxSeen storeCapacity E Traffic where
  execute command := by
    apply Moves.bind (traffic_executeCommand command).observed
    intro outcome
    exact Moves.bind (traffic_record rfl) fun _ => Moves.pure outcome
  clock now world := .of_core world rfl
  submitted world := .of_core world rfl
  received world := .of_core world rfl
  expire world := .of_core world rfl
  turn := traffic_flushIteration

/-- **Every call leads its executor through what it logs**, with the links as the router has them
after taking note of a report. -/
theorem traffic_perform (op : GatewayOp) (world : World maxLinks maxSeen storeCapacity E) :
    Traffic (noted world op) ((perform op).run world).state :=
  traffic_parts.perform_from op world

/-! ## What is sent -/

/-- What a moment hands to a link: the wire bytes of a valid envelope that has not expired, on a link
that is up. -/
def SendsAdmitted (moment : Moment maxLinks maxSeen storeCapacity) : Prop :=
  ∀ linkId bytes nowMs answer, moment.event.send? = some (linkId, bytes, nowMs, answer) →
    linkId ∈ moment.core.router.egressLinks none ∧ bytes.length ≤ gatewayFrameBufferLen ∧
      ∃ envelope, ValidEnvelope envelope ∧ bytes = wireBytes envelope ∧
        nowMs = envelope.createdAtMs ∧ moment.core.router.nowMs < envelope.expiresAtMs

/-- A moment without a send has nothing to admit. -/
theorem sendsAdmitted_of_quiet {moment : Moment maxLinks maxSeen storeCapacity}
    (h : moment.event.send? = none) : SendsAdmitted moment := by
  intro linkId bytes nowMs answer hsend
  rw [h] at hsend
  cases hsend

/-- Committing a key sends nothing. -/
theorem sendsAdmitted_of_commit {core : GatewayCore maxLinks maxSeen storeCapacity}
    {envelope : HyfEnvelopeRef} {moment : Moment maxLinks maxSeen storeCapacity}
    (h : moment ∈ core.commitMoments envelope) : SendsAdmitted moment := by
  apply sendsAdmitted_of_quiet
  rw [eq_of_mem_commitMoments h]
  rfl

/-- An admitted command sends what is admitted. -/
theorem CommandStep.sendsAdmitted
    {answers : LinkId → List UInt8 → TimestampMs → Except GatewayError Unit → Prop}
    {core core' : GatewayCore maxLinks maxSeen storeCapacity} {command : RouterCommand}
    {moments : List (Moment maxLinks maxSeen storeCapacity)} {outcome : Except GatewayError Unit}
    (h : CommandStep answers core command moments outcome core')
    (hadmits : core.router.Admits command) : ∀ moment ∈ moments, SendsAdmitted moment := by
  have hsent : ∀ {linkId envelope} (answer : Except GatewayError Unit),
      core.router.Admits (.send linkId envelope) →
      (wireBytes envelope).length ≤ gatewayFrameBufferLen →
      SendsAdmitted ⟨.sendLinkBytes linkId (wireBytes envelope) envelope.createdAtMs answer, core⟩ := by
    intro linkId envelope answer hadmits hfits linkId' bytes nowMs answer' hsend
    cases hsend
    exact ⟨hadmits.2.2, hfits, envelope, hadmits.1, rfl, rfl, hadmits.2.1⟩
  intro moment hmem
  cases h with
  | sendRefused valid fits answer metrics =>
    rw [List.mem_singleton] at hmem
    rw [hmem]
    exact hsent _ hadmits fits
  | sent valid fits answer metrics =>
    obtain rfl | hmem := List.mem_cons.mp hmem
    · exact hsent _ hadmits fits
    · exact sendsAdmitted_of_commit hmem
  | put allowed accepted metrics => exact sendsAdmitted_of_commit hmem
  | deliverLocal envelope metrics => exact sendsAdmitted_of_commit hmem
  | _ => cases hmem

/-- So it is in every run. -/
theorem Run.sendsAdmitted {config : GatewayConfig maxLinks}
    {log : List (Moment maxLinks maxSeen storeCapacity)}
    {core : GatewayCore maxLinks maxSeen storeCapacity} (h : Run config log core) :
    ∀ moment ∈ log, SendsAdmitted moment := by
  refine (h.invariant (I := fun log _ => ∀ moment ∈ log, SendsAdmitted moment) (by simp) ?_).2
  intro log core moments core' _ hlog hstep moment hmem
  obtain hmem | hmem := List.mem_append.mp hmem
  · exact hlog moment hmem
  have hquiet : ∀ event core, event.send? = none → moment ∈ [Moment.mk event core] →
      SendsAdmitted moment := by
    intro event core hsend hmem
    rw [List.mem_singleton] at hmem
    rw [hmem]
    exact sendsAdmitted_of_quiet hsend
  cases hstep with
  | metrics metrics => cases hmem
  | link set => cases hmem
  | expire => cases hmem
  | observe later => exact hquiet _ _ rfl hmem
  | kept messageId executions => exact hquiet _ _ rfl hmem
  | released releases removed => exact hquiet _ _ rfl hmem
  | command admits step =>
    obtain hmem | hmem := List.mem_append.mp hmem
    · exact step.sendsAdmitted admits moment hmem
    · exact hquiet _ _ rfl hmem

end GatewayCore

end Hyf
