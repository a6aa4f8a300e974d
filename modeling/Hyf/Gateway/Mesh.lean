import Hyf.Common.Relaying
import Hyf.Gateway.Clock
import Hyf.Gateway.Dedupe
import Hyf.Router.Forwarding

/-!
# A mesh of gateways

Any number of gateways, each with its own configuration and sizes, are called in any order and with any
executors. What a gateway hands to its executor may arrive, at any time, any number of times or never, at any
gateway and on any link. The history of a mesh says what was submitted, what arrived, what was sent and what
was delivered. Every gateway only sends, stores and delivers what it was given (`Call.accounted`), and so
whatever is delivered anywhere was submitted somewhere before (`Mesh.delivers_submitted`).
-/

namespace Hyf

open LoggedSteps

/-- What a mesh has in common: how a frame is read, and what a message from a link becomes. -/
def meshRules : Relaying.Rules HyfEnvelopeRef (List UInt8) where
  decode frame := (decodeEnvelope frame).toOption
  relay envelope :=
    if envelope.hopLimit ≤ 1 then none else some { envelope with hopLimit := envelope.hopLimit - 1 }

/-- What happens at a node: messages are submitted, frames arrive and are sent, messages are
delivered. -/
abbrev MeshEvent := Relaying.Event HyfEnvelopeRef (List UInt8)

/-- What a mesh sees of an event of the log. -/
def GatewayEvent.meshEvent? : GatewayEvent → Option MeshEvent
  | .sendLinkBytes _ bytes _ _ => some (.sent bytes)
  | .executed (.deliverLocal envelope) _ => some (.delivered envelope)
  | _ => none

/-- What a mesh sees of an event that a call is about. -/
def RouterEvent.meshEvents : RouterEvent → List MeshEvent
  | .localSubmit envelope => [.submitted envelope]
  | .link (.frame frame) => [.arrived frame.bytes]
  | _ => []

/-! ## What a router plans -/

section

variable {ι : Type} {history : List (ι × MeshEvent)} {node : ι}

/-- The command hands on, stores or delivers nothing but what the node was given. -/
def RouterCommand.Given (history : List (ι × MeshEvent)) (node : ι) : RouterCommand → Prop
  | .send _ envelope | .store (.put envelope) => Relaying.Held meshRules history node envelope
  | .deliverLocal envelope => Relaying.Known meshRules history node envelope
  | .store _ | .drop _ _ | .dropFrame _ _ => True

namespace Router

variable {maxLinks maxSeen : ℕ} {router : Router maxLinks maxSeen}

/-- What is planned for a submitted message is given by it. -/
theorem given_of_submitted {envelope : HyfEnvelopeRef} {command : RouterCommand}
    (hmem : (node, .submitted envelope) ∈ history) (h : router.Planned envelope none command) :
    command.Given history node := by
  cases h with
  | drop reason => trivial
  | deliverLocal fresh => exact .held (.submitted hmem)
  | send linkId egress unexpired fresh hops => exact Relaying.Held.submitted hmem
  | put offline unexpired fresh hops => exact Relaying.Held.submitted hmem

/-- What is planned for a frame is given by it. -/
theorem given_of_arrived {frame : LinkFrameRef} {envelope : HyfEnvelopeRef} {command : RouterCommand}
    (hmem : (node, .arrived frame.bytes) ∈ history) (hdecode : decodeEnvelope frame.bytes = .ok envelope)
    (h : router.Planned envelope (some frame.linkId) command) : command.Given history node := by
  have hread : meshRules.decode frame.bytes = some envelope := by
    show (decodeEnvelope frame.bytes).toOption = some envelope
    rw [hdecode]
    rfl
  have hrelayed : HopsChecked envelope (some frame.linkId) →
      Relaying.Held meshRules history node (outboundFor envelope (some frame.linkId)) := by
    intro hops
    refine .relayed hmem hread ?_
    exact if_neg (not_le_one_iff.mpr hops.two_le)
  cases h with
  | drop reason => trivial
  | deliverLocal fresh => exact .arrived hmem hread
  | send linkId egress unexpired fresh hops => exact hrelayed hops
  | put offline unexpired fresh hops => exact hrelayed hops

/-- What is planned for a stored message is given by what the node holds. -/
theorem given_of_stored {envelope : HyfEnvelopeRef} {command : RouterCommand}
    (hheld : Relaying.Held meshRules history node envelope) (h : router.PlannedStored envelope command) :
    command.Given history node := by
  cases h with
  | drop reason => trivial
  | deliverLocal fresh => exact .held hheld
  | send linkId egress unexpired hops => exact hheld

/-- A plan for an envelope consists of planned commands, whether the envelope is valid or not. -/
theorem planned_of_mem_planFor {envelope : HyfEnvelopeRef} {ingress : Option LinkId}
    {plan : List RouterCommand} (hplan : router.planFor envelope ingress = .ok plan)
    {command : RouterCommand} (hmem : command ∈ plan) : router.Planned envelope ingress command := by
  by_cases hvalid : ValidEnvelope envelope
  · rw [planFor_of_valid hvalid, Except.ok.injEq] at hplan
    exact planned_of_mem_planEnvelope (hplan ▸ hmem)
  · obtain ⟨reason, rfl⟩ := planFor_of_invalid hvalid hplan
    exact List.mem_singleton.mp hmem ▸ .drop reason

/-- **What is planned for an event** was given with it. -/
theorem given_of_mem_planEvent {event : RouterEvent} {plan : List RouterCommand}
    (hevent : ∀ given ∈ event.meshEvents, (node, given) ∈ history)
    (hplan : router.planEvent event = .ok plan) {command : RouterCommand} (hmem : command ∈ plan) :
    command.Given history node := by
  cases event with
  | localSubmit envelope =>
    exact given_of_submitted (hevent _ (List.mem_singleton_self _)) (planned_of_mem_planFor hplan hmem)
  | tick now =>
    cases hplan
    rw [List.mem_singleton] at hmem
    subst hmem
    trivial
  | link event =>
    cases event with
    | up linkId =>
      rw [planEvent] at hplan
      cases hset : router.setLinkState linkId true <;> rw [hset] at hplan <;> cases hplan
      cases hmem
    | down linkId =>
      rw [planEvent] at hplan
      cases hset : router.setLinkState linkId false <;> rw [hset] at hplan <;> cases hplan
      cases hmem
    | frame frame =>
      simp only [planEvent] at hplan
      cases hdecode : decodeEnvelope frame.bytes with
      | error error =>
        rw [hdecode] at hplan
        cases hplan
        rw [List.mem_singleton] at hmem
        subst hmem
        trivial
      | ok envelope =>
        rw [hdecode] at hplan
        exact given_of_arrived (hevent _ (List.mem_singleton_self _)) hdecode
          (planned_of_mem_planFor hplan hmem)

end Router

/-- What comes in was sent before or is new. -/
theorem explained_of_mem_meshEvents {event : RouterEvent}
    (hcarried : ∀ bytes, .arrived bytes ∈ event.meshEvents → ∃ sender, (sender, .sent bytes) ∈ history)
    {given : MeshEvent} (hmem : given ∈ event.meshEvents) :
    Relaying.Explained meshRules history node given := by
  cases event with
  | localSubmit envelope =>
    rw [RouterEvent.meshEvents, List.mem_singleton] at hmem
    exact hmem ▸ .submitted envelope
  | tick now => cases hmem
  | link event =>
    cases event with
    | up linkId => cases hmem
    | down linkId => cases hmem
    | frame frame =>
      obtain ⟨sender, hsent⟩ := hcarried _ (List.mem_singleton_self _)
      rw [RouterEvent.meshEvents, List.mem_singleton] at hmem
      exact hmem ▸ .arrived hsent

/-! ## What a call does -/

namespace GatewayCore

variable {maxLinks maxSeen storeCapacity : ℕ} {E : Type}
  {answers : LinkId → List UInt8 → TimestampMs → Except GatewayError Unit → Prop}
  {core core' core'' : GatewayCore maxLinks maxSeen storeCapacity}
  {moments moments' : List (Moment maxLinks maxSeen storeCapacity)}

/-- The store has only messages that the node holds. -/
def StoresHeld (history : List (ι × MeshEvent)) (node : ι)
    (core : GatewayCore maxLinks maxSeen storeCapacity) : Prop :=
  ∀ record ∈ core.store.live, ∃ envelope, ValidEnvelope envelope ∧ record = recordOf envelope ∧
    Relaying.Held meshRules history node envelope

/-- What was logged is explained by what the node was given, and the store has only such messages. The keys
that were committed are theirs. -/
structure Accounted (history : List (ι × MeshEvent)) (node : ι)
    (moments : List (Moment maxLinks maxSeen storeCapacity))
    (core : GatewayCore maxLinks maxSeen storeCapacity) : Prop where
  stores : StoresHeld history node core
  explained : ∀ moment ∈ moments, ∀ event, moment.event.meshEvent? = some event →
    Relaying.Explained meshRules history node event
  committed : ∀ moment ∈ moments, ∀ key, moment.event.commit? = some key →
    ∃ envelope, Relaying.Known meshRules history node envelope ∧ key = seenKeyFor envelope

/-- A smaller store is held. -/
theorem StoresHeld.of_subset (h : StoresHeld history node core)
    (hsubset : core'.store.live ⊆ core.store.live) : StoresHeld history node core' :=
  fun record hmem => h record (hsubset hmem)

/-- What is held is held in a longer history. -/
theorem StoresHeld.mono {history' : List (ι × MeshEvent)} (h : StoresHeld history node core)
    (hsub : history ⊆ history') : StoresHeld history' node core := by
  intro record hmem
  obtain ⟨envelope, hvalid, hrecord, hheld⟩ := h record hmem
  exact ⟨envelope, hvalid, hrecord, hheld.mono hsub⟩

/-- Nothing that happens is accounted for. -/
theorem StoresHeld.nil (h : StoresHeld history node core) :
    Accounted history node ([] : List (Moment maxLinks maxSeen storeCapacity)) core := by
  refine ⟨h, ?_, ?_⟩
  · simp
  · simp

/-- Two stretches that are accounted for are so together. -/
theorem Accounted.append (h : Accounted history node moments core)
    (h' : Accounted history node moments' core') : Accounted history node (moments ++ moments') core' where
  stores := h'.stores
  explained moment hmem := by
    obtain hfirst | hsecond := List.mem_append.mp hmem
    · exact h.explained moment hfirst
    · exact h'.explained moment hsecond
  committed moment hmem := by
    obtain hfirst | hsecond := List.mem_append.mp hmem
    · exact h.committed moment hfirst
    · exact h'.committed moment hsecond

/-- A moment of which a mesh sees nothing. -/
theorem Accounted.quiet (h : StoresHeld history node core')
    {moment : Moment maxLinks maxSeen storeCapacity} (hquiet : moment.event.meshEvent? = none)
    (hcommit : moment.event.commit? = none) : Accounted history node [moment] core' := by
  refine ⟨h, fun other hmem event hevent => ?_, fun other hmem key hkey => ?_⟩
  · rw [List.mem_singleton] at hmem
    rw [hmem, hquiet] at hevent
    cases hevent
  · rw [List.mem_singleton] at hmem
    rw [hmem, hcommit] at hkey
    cases hkey

/-- A message that the node holds may be sent. -/
theorem explained_of_sent {envelope : HyfEnvelopeRef} (hvalid : ValidEnvelope envelope)
    (hheld : Relaying.Held meshRules history node envelope) :
    Relaying.Explained meshRules history node (.sent (wireBytes envelope)) := by
  refine .sent hheld ?_
  show (decodeEnvelope (wireBytes envelope)).toOption = some envelope
  rw [decodeEnvelope_wireBytes hvalid]
  rfl

/-- A commitment for a message is to its key. -/
theorem key_of_commit {envelope : HyfEnvelopeRef} {moment : Moment maxLinks maxSeen storeCapacity}
    (hmem : moment ∈ core.commitMoments envelope) {key : RouterSeenKey}
    (hkey : moment.event.commit? = some key) : key = seenKeyFor envelope := by
  rw [eq_of_mem_commitMoments hmem] at hkey
  exact (Option.some.inj hkey).symm

/-- A commitment is not seen from outside. -/
theorem meshEvent_of_commit {envelope : HyfEnvelopeRef}
    {moment : Moment maxLinks maxSeen storeCapacity} (hmem : moment ∈ core.commitMoments envelope) :
    moment.event.meshEvent? = none := by
  rw [eq_of_mem_commitMoments hmem]
  rfl

/-- What is logged inside a command that was given. -/
theorem CommandStep.explained {command : RouterCommand} {outcome : Except GatewayError Unit}
    (h : CommandStep answers core command moments outcome core') (hgiven : command.Given history node)
    {moment : Moment maxLinks maxSeen storeCapacity} (hmem : moment ∈ moments) {event : MeshEvent}
    (hevent : moment.event.meshEvent? = some event) : Relaying.Explained meshRules history node event := by
  cases h with
  | sendRefused valid fits answer metrics =>
    rw [List.mem_singleton] at hmem
    subst hmem
    cases hevent
    exact explained_of_sent valid hgiven
  | sent valid fits answer metrics =>
    obtain rfl | hcommit := List.mem_cons.mp hmem
    · cases hevent
      exact explained_of_sent valid hgiven
    · rw [meshEvent_of_commit hcommit] at hevent
      cases hevent
  | put allowed accepted metrics =>
    rw [meshEvent_of_commit hmem] at hevent
    cases hevent
  | deliverLocal envelope metrics =>
    rw [meshEvent_of_commit hmem] at hevent
    cases hevent
  | _ => cases hmem

/-- What is committed inside a command that was given. -/
theorem CommandStep.exists_known {command : RouterCommand} {outcome : Except GatewayError Unit}
    (h : CommandStep answers core command moments outcome core') (hgiven : command.Given history node)
    {moment : Moment maxLinks maxSeen storeCapacity} (hmem : moment ∈ moments) {key : RouterSeenKey}
    (hkey : moment.event.commit? = some key) :
    ∃ envelope, Relaying.Known meshRules history node envelope ∧ key = seenKeyFor envelope := by
  cases h with
  | sendRefused valid fits answer metrics =>
    rw [List.mem_singleton] at hmem
    subst hmem
    cases hkey
  | sent valid fits answer metrics =>
    obtain rfl | hcommit := List.mem_cons.mp hmem
    · cases hkey
    · exact ⟨_, .held hgiven, key_of_commit hcommit hkey⟩
  | put allowed accepted metrics => exact ⟨_, .held hgiven, key_of_commit hmem hkey⟩
  | deliverLocal envelope metrics => exact ⟨_, hgiven, key_of_commit hmem hkey⟩
  | _ => cases hmem

/-- **Executing a command** that was given. -/
theorem CommandStep.accounted {command : RouterCommand} {outcome : Except GatewayError Unit}
    (h : CommandStep answers core command moments outcome core') (hgiven : command.Given history node)
    (hstores : StoresHeld history node core) :
    Accounted history node (moments ++ [⟨.executed command outcome, core'⟩]) core' := by
  have hstores' : StoresHeld history node core' := by
    cases h with
    | put allowed accepted metrics =>
      have heffect := Store.putEnvelope_eq_ok accepted
      intro record hmem
      obtain rfl | hold := heffect.mem_live.mp hmem
      · exact ⟨_, heffect.valid, rfl, hgiven⟩
      · exact hstores record hold
    | remove accepted => exact hstores.of_subset (Store.remove_sublist accepted).subset
    | expireBefore now metrics => exact hstores.of_subset (Store.expireBefore_sublist _ _).subset
    | _ => exact hstores
  refine ⟨hstores', fun moment hmem event hevent => ?_, fun moment hmem key hkey => ?_⟩
  · obtain hinner | hlast := List.mem_append.mp hmem
    · exact h.explained hgiven hinner hevent
    · rw [List.mem_singleton] at hlast
      subst hlast
      cases command with
      | deliverLocal envelope =>
        cases hevent
        exact .delivered hgiven
      | _ => cases hevent
  · obtain hinner | hlast := List.mem_append.mp hmem
    · exact h.exists_known hgiven hinner hkey
    · rw [List.mem_singleton] at hlast
      subst hlast
      cases hkey

/-- Commands that are given are accounted for when they are executed. -/
theorem Executes.accounted {commands : List RouterCommand}
    {executions : List (RouterCommand × Except GatewayError Unit)}
    (h : Executes answers core commands moments executions core')
    (hgiven : ∀ command ∈ commands, command.Given history node)
    (hstores : StoresHeld history node core) : Accounted history node moments core' := by
  induction h with
  | nil => exact hstores.nil
  | cons head tail ih =>
    have hhead := head.accounted (hgiven _ List.mem_cons_self) hstores
    have hall := hhead.append (ih (fun command hmem => hgiven command (List.mem_cons_of_mem _ hmem))
      hhead.stores)
    rwa [List.append_assoc, List.singleton_append] at hall

/-- A turn of the flush loop hands on a record of the store. -/
theorem Iteration.accounted {outcome : Except GatewayError Bool}
    (h : Iteration answers core moments outcome core') (hstores : StoresHeld history node core) :
    Accounted history node moments core' := by
  have hgiven : ∀ {envelope : HyfEnvelopeRef}, ValidEnvelope envelope →
      core.store.firstPending = some (recordOf envelope) →
      ∀ command ∈ core.router.planStored envelope, command.Given history node := by
    intro envelope hvalid hpending command hmem
    obtain ⟨stored, hstored, hrecord, hheld⟩ := hstores _ (Store.firstPending_mem hpending)
    rw [← eq_of_recordOf_eq hvalid hstored hrecord] at hheld
    exact Router.given_of_stored hheld (Router.planned_of_mem_planStored hmem)
  cases h with
  | empty none_pending => exact hstores.nil
  | crowded valid pending crowded => exact hstores.nil
  | idle valid pending idle => exact hstores.nil
  | kept valid pending executes verdict =>
    have hexecutes := executes.accounted (hgiven valid pending) hstores
    exact hexecutes.append (.quiet hexecutes.stores rfl rfl)
  | released valid pending nonempty executes verdict removed =>
    have hexecutes := executes.accounted (hgiven valid pending) hstores
    exact hexecutes.append (.quiet (hstores.of_subset (Store.remove_sublist removed).subset) rfl rfl)

/-- A flush sends what the node holds. -/
theorem Flushes.accounted {outcome : Except GatewayError Unit}
    (h : Flushes answers core moments outcome core') (hstores : StoresHeld history node core) :
    Accounted history node moments core' := by
  induction h with
  | stop last => exact last.accounted hstores
  | fail last => exact last.accounted hstores
  | next turn rest ih =>
    have hturn := turn.accounted hstores
    exact hturn.append (ih hturn.stores)

/-- Routing an event is accounted for by the event. -/
theorem Routes.accounted {event : RouterEvent} {outcome : Except GatewayError Unit}
    (h : Routes answers core event moments outcome core')
    (hevent : ∀ given ∈ event.meshEvents, (node, given) ∈ history)
    (hstores : StoresHeld history node core) : Accounted history node moments core' := by
  cases h with
  | refused plan => exact StoresHeld.nil hstores
  | crowded plan_eq crowded => exact StoresHeld.nil hstores
  | executed plan_eq executes =>
    exact executes.accounted (fun command => Router.given_of_mem_planEvent hevent plan_eq) hstores

/-- So is routing it and flushing. -/
theorem RoutesThenFlushes.accounted {event : RouterEvent} {outcome : Except GatewayError Unit}
    (h : RoutesThenFlushes answers core event moments outcome core')
    (hevent : ∀ given ∈ event.meshEvents, (node, given) ∈ history)
    (hstores : StoresHeld history node core) : Accounted history node moments core' := by
  cases h with
  | refused routes => exact routes.accounted hevent hstores
  | flushed routes flushes =>
    have hroutes := routes.accounted hevent hstores
    refine hroutes.append (flushes.accounted ?_)
    exact hroutes.stores.of_subset (Store.expireBefore_sublist _ _).subset

/-- Time changes nothing that is held. -/
theorem Observes.accounted {now : TimestampMs} (h : Observes core now moments core')
    (hstores : StoresHeld history node core) : Accounted history node moments core' := by
  cases h with
  | past past => exact hstores.nil
  | later later =>
    exact .quiet (hstores.of_subset (Store.expireBefore_sublist _ _).subset) rfl rfl

/-- **What a call sends, stores and delivers** the node was given, in the call or before. -/
theorem Call.accounted {op : GatewayOp} (h : Call answers core op moments core')
    (hop : ∀ given ∈ op.event.meshEvents, (node, given) ∈ history)
    (hstores : StoresHeld history node core) : Accounted history node moments core' := by
  cases h with
  | submit metrics routes => exact routes.accounted hop hstores
  | ingestLinkFrame metrics observes routes =>
    have hobserves : Accounted history node _ _ := observes.accounted hstores
    exact hobserves.append (routes.accounted hop hobserves.stores)
  | tick observes flushes =>
    have hobserves := observes.accounted hstores
    refine hobserves.append (flushes.accounted ?_)
    exact hobserves.stores.of_subset (Store.expireBefore_sublist _ _).subset
  | recover routes => exact routes.accounted hop hstores
  | handleLinkEvent routes => exact routes.accounted hop hstores

end GatewayCore

end

/-! ## Runs of the mesh -/

/-- A gateway for every node, and what happened at all of them. -/
structure Mesh (ι : Type) (maxLinks maxSeen storeCapacity : ι → ℕ) where
  cores : ∀ node, GatewayCore (maxLinks node) (maxSeen node) (storeCapacity node)
  history : List (ι × MeshEvent)

namespace Mesh

open GatewayCore (AcceptAll)

variable {ι : Type} {maxLinks maxSeen storeCapacity : ι → ℕ}

section

variable [DecidableEq ι]

/-- Call the gateway of a node with an executor. -/
def call {E : Type} [GatewayLinkExecutor E] (mesh : Mesh ι maxLinks maxSeen storeCapacity) (node : ι)
    (op : GatewayOp) (executor : E) : Mesh ι maxLinks maxSeen storeCapacity :=
  let world := ((GatewayCore.perform op).run ⟨mesh.cores node, executor, []⟩).state
  { cores := Function.update mesh.cores node world.core
    history := mesh.history ++
      (op.event.meshEvents ++ world.log.filterMap fun moment => moment.event.meshEvent?).map
        fun event => (node, event) }

/-- The history when a call has begun. -/
def entered (mesh : Mesh ι maxLinks maxSeen storeCapacity) (node : ι) (op : GatewayOp) :
    List (ι × MeshEvent) :=
  mesh.history ++ op.event.meshEvents.map fun event => (node, event)

/-- One call, of any gateway and with any executor. A frame that is taken in was sent before. -/
inductive Step : Mesh ι maxLinks maxSeen storeCapacity → Mesh ι maxLinks maxSeen storeCapacity → Prop
  | call {mesh : Mesh ι maxLinks maxSeen storeCapacity} (node : ι) (op : GatewayOp)
      (carried : ∀ bytes, .arrived bytes ∈ op.event.meshEvents →
        ∃ sender, (sender, .sent bytes) ∈ mesh.history)
      {E : Type} [GatewayLinkExecutor E] (executor : E) : Step mesh (mesh.call node op executor)

/-- The mesh after any such calls on new gateways. -/
inductive Run (configs : ∀ node, GatewayConfig (maxLinks node)) :
    Mesh ι maxLinks maxSeen storeCapacity → Prop
  | start {cores : ∀ node, GatewayCore (maxLinks node) (maxSeen node) (storeCapacity node)}
      (new_eq : ∀ node, GatewayCore.new (configs node) = .ok (cores node)) : Run configs ⟨cores, []⟩
  | step {mesh mesh' : Mesh ι maxLinks maxSeen storeCapacity} (before : Run configs mesh)
      (last : Step mesh mesh') : Run configs mesh'

/-- Every event is explained by those before it, and the stores have only what their nodes were given. -/
structure Accountable (mesh : Mesh ι maxLinks maxSeen storeCapacity) : Prop where
  admissible : Relaying.Admissible meshRules mesh.history
  wellFormed : ∀ node, (mesh.cores node).store.WellFormed
  stores : ∀ node, GatewayCore.StoresHeld mesh.history node (mesh.cores node)

/-- A call enters its event in the history, and then what it did. -/
theorem exists_call {E : Type} [GatewayLinkExecutor E] (mesh : Mesh ι maxLinks maxSeen storeCapacity)
    {node : ι} (hstore : (mesh.cores node).store.WellFormed) (op : GatewayOp) (executor : E) :
    ∃ moments core, GatewayCore.Call (GatewayCore.Answers E) (mesh.cores node) op moments core ∧
      (mesh.call node op executor).cores = Function.update mesh.cores node core ∧
      (mesh.call node op executor).history = mesh.entered node op ++
        (moments.filterMap fun moment => moment.event.meshEvent?).map fun event => (node, event) := by
  obtain ⟨moments, core, executor', hcall, hstate⟩ :=
    GatewayCore.run_perform op ⟨mesh.cores node, executor, []⟩ hstore
  refine ⟨moments, core, hcall, ?_, ?_⟩
  · rw [Mesh.call, hstate]
  · rw [Mesh.call, hstate, List.map_append, entered, List.append_assoc, List.nil_append]

/-- What a call enters and does is accounted for. -/
theorem Accountable.exists_call {E : Type} [GatewayLinkExecutor E]
    {mesh : Mesh ι maxLinks maxSeen storeCapacity} (h : Accountable mesh) (node : ι) {op : GatewayOp}
    (hcarried : ∀ bytes, .arrived bytes ∈ op.event.meshEvents →
      ∃ sender, (sender, .sent bytes) ∈ mesh.history) (executor : E) :
    Relaying.Admissible meshRules (mesh.entered node op) ∧
      ∃ moments core, GatewayCore.Call (GatewayCore.Answers E) (mesh.cores node) op moments core ∧
        (mesh.call node op executor).cores = Function.update mesh.cores node core ∧
        (mesh.call node op executor).history = mesh.entered node op ++
          (moments.filterMap fun moment => moment.event.meshEvent?).map (fun event => (node, event)) ∧
        GatewayCore.Accounted (mesh.entered node op) node moments core := by
  obtain ⟨moments, core, hcall, hcores, hhistory⟩ := mesh.exists_call (h.wellFormed node) op executor
  refine ⟨h.admissible.append fun _ => explained_of_mem_meshEvents hcarried, moments, core, hcall, hcores,
    hhistory, ?_⟩
  exact hcall.accounted (fun given hmem => List.mem_append_right _ (List.mem_map_of_mem hmem))
    ((h.stores node).mono (List.subset_append_left _ _))

/-- **A call keeps the account.** -/
theorem Accountable.call {E : Type} [GatewayLinkExecutor E]
    {mesh : Mesh ι maxLinks maxSeen storeCapacity} (h : Accountable mesh) (node : ι) {op : GatewayOp}
    (hcarried : ∀ bytes, .arrived bytes ∈ op.event.meshEvents →
      ∃ sender, (sender, .sent bytes) ∈ mesh.history) (executor : E) :
    Accountable (mesh.call node op executor) := by
  obtain ⟨hentered, moments, core, hcall, hcores, hhistory, haccounted⟩ :=
    h.exists_call node hcarried executor
  have hsub : mesh.history ⊆ mesh.entered node op := List.subset_append_left _ _
  refine ⟨?_, ?_, ?_⟩
  · rw [hhistory]
    apply hentered.append
    intro event hmem
    obtain ⟨moment, hmoment, hevent⟩ := List.mem_filterMap.mp hmem
    exact haccounted.explained moment hmoment event hevent
  · rw [hcores]
    intro other
    by_cases hother : other = node
    · subst hother
      rw [Function.update_self]
      exact GatewayCore.wellFormed_steps hcall.steps (h.wellFormed other)
    · rw [Function.update_of_ne hother]
      exact h.wellFormed other
  · rw [hcores, hhistory]
    intro other
    by_cases hother : other = node
    · subst hother
      rw [Function.update_self]
      exact haccounted.stores.mono (List.subset_append_left _ _)
    · rw [Function.update_of_ne hother]
      exact (h.stores other).mono (List.subset_append_of_subset_left _ hsub)

/-- A step keeps the mesh accountable. -/
theorem Accountable.step {mesh mesh' : Mesh ι maxLinks maxSeen storeCapacity} (h : Accountable mesh)
    (hstep : Step mesh mesh') : Accountable mesh' := by
  cases hstep with
  | call node op carried executor => exact h.call node carried executor

/-- In every run everything is accounted for. -/
theorem Run.accountable {configs : ∀ node, GatewayConfig (maxLinks node)}
    {mesh : Mesh ι maxLinks maxSeen storeCapacity} (h : Run configs mesh) : Accountable mesh := by
  induction h with
  | @start cores new_eq =>
    refine ⟨.nil, fun node => ?_, fun node record hmem => ?_⟩
    · obtain ⟨-, -, -, -, hcore⟩ := GatewayCore.new_eq_ok (new_eq node)
      show (cores node).store.WellFormed
      rw [hcore]
      exact .new _
    · obtain ⟨-, -, -, -, hcore⟩ := GatewayCore.new_eq_ok (new_eq node)
      replace hmem : record ∈ (cores node).store.live := hmem
      rw [hcore] at hmem
      simp at hmem
  | step before last ih => exact ih.step last

end

/-! ## Where messages come from -/

/-- What a message has lost on its way over some links, and that it still had a hop for each of them but
the first. -/
structure Travelled (origin : HyfEnvelopeRef) (links : ℕ) (envelope : HyfEnvelopeRef) : Prop where
  loses : Router.LosesHops origin links envelope
  hops : links = 0 ∨ 1 ≤ envelope.hopLimit.toNat

/-- Along a path only the hop limit changes, by one for every link. -/
theorem travelled_of_path {history : List (ι × MeshEvent)} {origin : ι × HyfEnvelopeRef} {links : ℕ}
    {node : ι} {envelope : HyfEnvelopeRef} (h : Relaying.Path meshRules history origin links node envelope) :
    Travelled origin.2 links envelope := by
  refine h.relates (fun envelope => ⟨.refl envelope, .inl rfl⟩) ?_
  intro first links before after hbefore hrelay
  simp only [meshRules] at hrelay
  split_ifs at hrelay with hexhausted
  cases hrelay
  have htwo : 2 ≤ before.hopLimit.toNat := UInt8.le_iff_toNat_le.mp (Router.not_le_one_iff.mp hexhausted)
  have hlost : (before.hopLimit - 1).toNat = before.hopLimit.toNat - 1 :=
    UInt8.toNat_sub_of_le _ _ (UInt8.le_iff_toNat_le.mpr (Nat.one_le_of_lt htwo))
  refine ⟨hbefore.loses.trans ⟨rfl, ?_⟩, .inr ?_⟩
  · show (before.hopLimit - 1).toNat + 1 = before.hopLimit.toNat
    omega
  · show 1 ≤ (before.hopLimit - 1).toNat
    omega

/-- What is delivered was submitted before and has lost a hop for every link but possibly the last. -/
theorem Accountable.exists_submitted {mesh : Mesh ι maxLinks maxSeen storeCapacity} (h : Accountable mesh)
    {before after : List (ι × MeshEvent)} {node : ι} {envelope : HyfEnvelopeRef}
    (hsplit : mesh.history = before ++ (node, .delivered envelope) :: after) :
    ∃ source submitted links lost, (source, .submitted submitted) ∈ before ∧
      Relaying.Reaches meshRules before (source, submitted) links node envelope ∧
      Router.LosesHops submitted lost envelope ∧ lost ≤ links ∧ links ≤ lost + 1 ∧
      links ≤ max 1 submitted.hopLimit.toNat := by
  obtain ⟨⟨source, submitted⟩, links, hreaches⟩ := h.admissible.reaches_of_delivered hsplit
  have hmem := hreaches.submitted_mem
  have hreached := hreaches
  cases hreached with
  | held path =>
    obtain ⟨hloses, hhops⟩ := travelled_of_path path
    have heq : envelope.hopLimit.toNat + links = submitted.hopLimit.toNat := hloses.hopLimit_eq
    exact ⟨source, submitted, links, links, hmem, hreaches, hloses, le_rfl, Nat.le_succ _, by omega⟩
  | @arrived links _ _ _ _ path sent decode arrived =>
    obtain ⟨hloses, hhops⟩ := travelled_of_path path
    have heq : envelope.hopLimit.toNat + links = submitted.hopLimit.toNat := hloses.hopLimit_eq
    exact ⟨source, submitted, links + 1, links, hmem, hreaches, hloses, Nat.le_succ _, le_rfl, by omega⟩

/-- **Whatever a mesh delivers was submitted to it**, in every run. A message that a node delivers was
submitted before, at some node, and came over links that it was sent on; it is unchanged but for the hops it
lost, one for every link but possibly the last, and crossed at most as many links as it had hops, or one.
What a node sends or stores came in the same way and has lost one hop for every link. -/
theorem delivers_submitted [DecidableEq ι] {configs : ∀ node, GatewayConfig (maxLinks node)}
    {mesh : Mesh ι maxLinks maxSeen storeCapacity} (h : Run configs mesh) :
    (∀ before after node envelope, mesh.history = before ++ (node, .delivered envelope) :: after →
      ∃ source submitted links lost, (source, .submitted submitted) ∈ before ∧
        Relaying.Reaches meshRules before (source, submitted) links node envelope ∧
        Router.LosesHops submitted lost envelope ∧ lost ≤ links ∧ links ≤ lost + 1 ∧
        links ≤ max 1 submitted.hopLimit.toNat) ∧
    (∀ node bytes, (node, .sent bytes) ∈ mesh.history →
      ∃ source submitted links envelope, (source, .submitted submitted) ∈ mesh.history ∧
        Relaying.Path meshRules mesh.history (source, submitted) links node envelope ∧
        decodeEnvelope bytes = .ok envelope ∧ Router.LosesHops submitted links envelope) ∧
    ∀ node, ∀ record ∈ (mesh.cores node).store.live,
      ∃ source submitted links envelope, (source, .submitted submitted) ∈ mesh.history ∧
        Relaying.Path meshRules mesh.history (source, submitted) links node envelope ∧
        record = recordOf envelope ∧ Router.LosesHops submitted links envelope := by
  have haccountable := h.accountable
  refine ⟨fun _ _ _ _ => haccountable.exists_submitted, ?_, ?_⟩
  · intro node bytes hsent
    obtain ⟨⟨source, submitted⟩, links, envelope, hpath, hdecode⟩ :=
      haccountable.admissible.path_of_sent node bytes hsent
    refine ⟨source, submitted, links, envelope, hpath.submitted_mem, hpath, ?_,
      (travelled_of_path hpath).loses⟩
    replace hdecode : (decodeEnvelope bytes).toOption = some envelope := hdecode
    cases hread : decodeEnvelope bytes with
    | ok other =>
      rw [hread] at hdecode
      exact congrArg Except.ok (Option.some.inj hdecode)
    | error error =>
      rw [hread] at hdecode
      cases hdecode
  · intro node record hmem
    obtain ⟨envelope, -, hrecord, hheld⟩ := haccountable.stores node record hmem
    obtain ⟨⟨source, submitted⟩, links, hpath⟩ := haccountable.admissible.path_of_held hheld
    exact ⟨source, submitted, links, envelope, hpath.submitted_mem, hpath, hrecord,
      (travelled_of_path hpath).loses⟩

/-! ## A line of three gateways -/

/-- Three nodes with addresses of their own. -/
def lineConfig (node : Fin 3) : GatewayConfig 2 :=
  { GatewayCore.sampleConfig with nodeId := ⟨fillBytes 32 (UInt8.ofNat (node.val + 1))⟩ }

/-- Their gateways. -/
def lineCore (node : Fin 3) : GatewayCore 2 8 4 :=
  { GatewayCore.sampleCore with
    config := lineConfig node
    router := Router.new (lineConfig node).routerPolicy }

/-- The gateways are new. -/
theorem new_lineConfig (node : Fin 3) : GatewayCore.new (lineConfig node) = .ok (lineCore node) := by
  have hvalidate : ∀ node, (lineConfig node).validate = .ok () := by decide
  simp only [GatewayCore.new, hvalidate, Except.mapError, bind, Except.bind]
  rfl

/-- Three nodes in a line. -/
abbrev LineMesh := Mesh (Fin 3) (fun _ => 2) (fun _ => 8) fun _ => 4

/-- A packet of another network with an empty header. -/
def linePacket : List UInt8 := List.replicate 20 0

/-- A message from the first gateway to the last. -/
def lineEnvelope : HyfEnvelopeRef :=
  { sampleEnvelope 2 (.node ⟨fillBytes 32 3⟩) 4 with
    payloadKind := .foreignRnsPacket
    payload := linePacket }

/-- The first two gateways have a link each. -/
def lineLinked : LineMesh :=
  ((⟨lineCore, []⟩ : LineMesh).call 0 (.handleLinkEvent (.up ⟨fillBytes 16 3⟩)) AcceptAll.mk).call 1
    (.handleLinkEvent (.up ⟨fillBytes 16 4⟩)) AcceptAll.mk

/-- The first one submits. -/
def lineSubmitted : LineMesh := lineLinked.call 0 (.submit lineEnvelope) AcceptAll.mk

/-- The message on the first link. -/
def firstFrame : LinkFrameRef := ⟨⟨fillBytes 16 3⟩, 0, wireBytes lineEnvelope⟩

/-- The message on the second link, one hop shorter. -/
def secondFrame : LinkFrameRef := ⟨⟨fillBytes 16 4⟩, 0, wireBytes { lineEnvelope with hopLimit := 3 }⟩

/-- The second gateway relays the message, and the third one delivers it. -/
def lineDelivered : LineMesh :=
  (lineSubmitted.call 1 (.ingestLinkFrame firstFrame) AcceptAll.mk).call 2
    (.ingestLinkFrame secondFrame) AcceptAll.mk

/-- The links come up. -/
theorem run_lineLinked : Run lineConfig lineLinked :=
  ((Run.start new_lineConfig).step (.call 0 _ (by simp [GatewayOp.event, RouterEvent.meshEvents]) _)).step
    (.call 1 _ (by simp [GatewayOp.event, RouterEvent.meshEvents]) _)

/-- The message is submitted, forwarded and delivered. -/
theorem run_lineDelivered : Run lineConfig lineDelivered := by
  have hsubmitted : Run lineConfig lineSubmitted :=
    run_lineLinked.step (.call 0 _ (by simp [GatewayOp.event, RouterEvent.meshEvents]) _)
  have hfirst : (0, .sent firstFrame.bytes) ∈ lineSubmitted.history := by decide +kernel
  have hrelayed := hsubmitted.step (.call 1 (.ingestLinkFrame firstFrame) (fun bytes hmem => by
    cases List.mem_singleton.mp hmem
    exact ⟨0, hfirst⟩) AcceptAll.mk)
  have hsecond : (1, .sent secondFrame.bytes) ∈
      (lineSubmitted.call 1 (.ingestLinkFrame firstFrame) AcceptAll.mk).history := by
    decide +kernel
  exact hrelayed.step (.call 2 (.ingestLinkFrame secondFrame) (fun bytes hmem => by
    cases List.mem_singleton.mp hmem
    exact ⟨1, hsecond⟩) AcceptAll.mk)

/-- The delivery is the last that happened. -/
theorem lineDelivered_history : lineDelivered.history =
    lineDelivered.history.dropLast ++ [(2, .delivered { lineEnvelope with hopLimit := 3 })] := by
  decide +kernel

/-- The message that is delivered at the end of the line was submitted at its start. -/
theorem lineDelivered_delivers_submitted :
    ∃ source submitted links lost, (source, .submitted submitted) ∈ lineDelivered.history.dropLast ∧
      Relaying.Reaches meshRules lineDelivered.history.dropLast (source, submitted) links 2
        { lineEnvelope with hopLimit := 3 } ∧
      Router.LosesHops submitted lost { lineEnvelope with hopLimit := 3 } ∧ lost ≤ links ∧
      links ≤ lost + 1 ∧ links ≤ max 1 submitted.hopLimit.toNat :=
  (delivers_submitted run_lineDelivered).1 _ _ _ _ lineDelivered_history

end Mesh

end Hyf
