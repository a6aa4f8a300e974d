import Hyf.Gateway.Retention
import Hyf.Router.HopLimit

/-!
# Submitting a message

`submit` routes the message and then flushes the store. This module says what a caller can conclude
from its result: without a link the message waits in the store (`submit_stores_iff`,
`submit_keeps_community_iff`), and an error is either about the submitted message, which then had no
effect, or about a message that was stored before (`submit_error_cases`).
-/

namespace Hyf

namespace GatewayCore

variable {maxLinks maxSeen storeCapacity : ℕ} {E : Type}
  {answers : LinkId → List UInt8 → TimestampMs → Except GatewayError Unit → Prop}

/-- Submitting routes the message and flushes, after counting it. -/
theorem run_submit [GatewayLinkExecutor E] (envelope : HyfEnvelopeRef)
    {world : World maxLinks maxSeen storeCapacity E} (hstore : world.core.store.WellFormed) :
    ∃ moments core executor,
      RoutesThenFlushes (Answers E) { world.core with metrics := world.core.metrics.addSubmitted }
        (.localSubmit envelope) moments ((submit envelope).run world).outcome core ∧
      ((submit envelope).run world).state = ⟨core, executor, world.log ++ moments⟩ := by
  have hevent : ∀ now, RouterEvent.localSubmit envelope ≠ .tick now := by simp
  obtain ⟨moments, outcome, core, executor, hcall, houtcome, hstate⟩ :=
    run_routeThenFlush hevent
      { world with core := { world.core with metrics := world.core.metrics.addSubmitted } } hstore
  have hrun : (submit envelope).run world = (do routeEvent (.localSubmit envelope); flushStore :
      GatewayM maxLinks maxSeen storeCapacity E Unit).run
        { world with core := { world.core with metrics := world.core.metrics.addSubmitted } } := rfl
  rw [hrun]
  exact ⟨moments, core, executor, houtcome ▸ hcall, hstate⟩

/-! ## What a flush can fail on -/

/-- Only sends and store commands can fail. -/
theorem CommandStep.outcome_ok {core core' : GatewayCore maxLinks maxSeen storeCapacity}
    {command : RouterCommand} {moments : List (Moment maxLinks maxSeen storeCapacity)}
    {outcome : Except GatewayError Unit}
    (h : CommandStep answers core command moments outcome core') (hsend : command.isSend = false)
    (hstore : ∀ inner, command ≠ .store inner) : outcome = .ok () := by
  cases h with
  | sendUnencodable refused => cases hsend
  | sendRefused valid fits answer metrics => cases hsend
  | putRefused allowed refused => exact absurd rfl (hstore _)
  | removeRefused refused => exact absurd rfl (hstore _)
  | _ => rfl

/-- Every command of a list is executed, and what that logs is in the log of the whole. -/
theorem Executes.exists_step {core core' : GatewayCore maxLinks maxSeen storeCapacity}
    {commands : List RouterCommand} {moments : List (Moment maxLinks maxSeen storeCapacity)}
    {executions : List (RouterCommand × Except GatewayError Unit)} {command : RouterCommand}
    (h : Executes answers core commands moments executions core') (hmem : command ∈ commands) :
    ∃ before inner executed after, CommandStep answers before command inner executed after ∧
      inner ++ [⟨.executed command executed, after⟩] ⊆ moments := by
  induction h with
  | nil core => cases hmem
  | @cons _ core₁ _ _ _ inner later outcome _ head tail ih =>
    obtain rfl | hlater := List.mem_cons.mp hmem
    · refine ⟨_, inner, outcome, core₁, head, fun moment hmoment => ?_⟩
      rw [List.append_cons]
      exact List.mem_append_left _ hmoment
    · obtain ⟨before, inner', executed, after, hstep, hsub⟩ := ih hlater
      exact ⟨before, inner', executed, after, hstep, fun moment hmoment =>
        List.mem_append_right _ (List.mem_cons_of_mem _ (hsub hmoment))⟩

/-- What holds of every single execution holds of the executions of a list. -/
theorem Executes.forall_outcome {P : RouterCommand → Except GatewayError Unit → Prop}
    {core core' : GatewayCore maxLinks maxSeen storeCapacity} {commands : List RouterCommand}
    {moments : List (Moment maxLinks maxSeen storeCapacity)}
    {executions : List (RouterCommand × Except GatewayError Unit)}
    (h : Executes answers core commands moments executions core')
    (hstep : ∀ command ∈ commands, ∀ (core core' : GatewayCore maxLinks maxSeen storeCapacity)
      moments outcome, CommandStep answers core command moments outcome core' →
        P command outcome) : ∀ x ∈ executions, P x.1 x.2 := by
  induction h with
  | nil => simp
  | cons head tail ih =>
    intro x hx
    rcases List.mem_cons.mp hx with rfl | hx
    · exact hstep _ List.mem_cons_self _ _ _ _ head
    · exact ih (fun command hmem => hstep command (List.mem_cons_of_mem _ hmem)) x hx

/-- Without a store among them, only sends fail. -/
theorem Executes.outcome_ok {core core' : GatewayCore maxLinks maxSeen storeCapacity}
    {commands : List RouterCommand} {moments : List (Moment maxLinks maxSeen storeCapacity)}
    {executions : List (RouterCommand × Except GatewayError Unit)}
    (h : Executes answers core commands moments executions core')
    (hstore : ∀ command ∈ commands, ∀ inner, command ≠ .store inner) :
    ∀ x ∈ executions, x.1.isSend = false → x.2 = .ok () :=
  h.forall_outcome (P := fun command outcome => command.isSend = false → outcome = .ok ())
    fun command hmem _ _ _ _ hstep hsend => hstep.outcome_ok hsend (hstore command hmem)

/-- A flush turn in which nothing fails releases the record. -/
theorem flushVerdict_of_forall_ok {executions : List (RouterCommand × Except GatewayError Unit)}
    (h : ∀ x ∈ executions, x.2 = .ok ()) : flushVerdict executions = .ok true := by
  have hnone : ∀ x ∈ executions, failure? x = none := by
    rintro ⟨command, outcome⟩ hx
    rw [failure?, show outcome = .ok () from h _ hx]
  have hnon : executions.findSome? nonrecoverable? = none := by
    rw [List.findSome?_eq_none_iff]
    intro x hx
    rw [nonrecoverable?, hnone x hx]
    rfl
  rw [flushVerdict, hnon, Except.ok.injEq, Bool.and_eq_true, List.all_eq_true, Bool.or_eq_true,
    List.isEmpty_iff, List.any_eq_true]
  refine ⟨fun x hx => by simp [hnone x hx], ?_⟩
  cases executions with
  | nil => exact .inl rfl
  | cons x rest => exact .inr ⟨x, List.mem_cons_self, by simp [hnone x List.mem_cons_self]⟩

/-- What was executed stands in the log. -/
theorem exists_moment_of_mem_executions {core core' : GatewayCore maxLinks maxSeen storeCapacity}
    {commands : List RouterCommand} {moments : List (Moment maxLinks maxSeen storeCapacity)}
    {executions : List (RouterCommand × Except GatewayError Unit)}
    (h : Executes answers core commands moments executions core')
    {command : RouterCommand} {outcome : Except GatewayError Unit}
    (hx : (command, outcome) ∈ executions) :
    ∃ moment ∈ moments, moment.event = .executed command outcome := by
  rw [← h.executionsOf_moments, executionsOf, List.mem_filterMap] at hx
  obtain ⟨moment, hmem, hevent⟩ := hx
  refine ⟨moment, hmem, ?_⟩
  cases hcase : moment.event with
  | executed command' outcome' =>
    rw [hcase] at hevent
    cases hevent
    rfl
  | _ =>
    rw [hcase] at hevent
    cases hevent

/-- Why flushing the record of a message fails: it has to leave on more links than there is room for
commands, or a link refused it in a way that is not worth another try. -/
def FlushFailure (moments : List (Moment maxLinks maxSeen storeCapacity)) (error : GatewayError)
    (stored : HyfEnvelopeRef) : Prop :=
  (∃ required, routerCommandCapacity < required ∧
      error = .router (.outputTooSmall routerCommandCapacity required)) ∨
    error.isRecoverableSendFailure = false ∧ ∃ linkId, ∃ moment ∈ moments,
      moment.event = .executed (.send linkId stored) (.error error)

/-- A failure is found in a longer log, too. -/
theorem FlushFailure.mono {moments moments' : List (Moment maxLinks maxSeen storeCapacity)}
    {error : GatewayError} {stored : HyfEnvelopeRef} (h : FlushFailure moments error stored)
    (hsub : moments ⊆ moments') : FlushFailure moments' error stored := by
  rcases h with hcrowded | ⟨herror, linkId, moment, hmem, hevent⟩
  · exact .inl hcrowded
  · exact .inr ⟨herror, linkId, moment, hsub hmem, hevent⟩

/-- A flush turn that fails fails on the record it took, and the store stays as it is. -/
theorem Iteration.error_cases {core core' : GatewayCore maxLinks maxSeen storeCapacity}
    {moments : List (Moment maxLinks maxSeen storeCapacity)} {error : GatewayError}
    (h : Iteration answers core moments (.error error) core') :
    ∃ stored, ValidEnvelope stored ∧ recordOf stored ∈ core.store.live ∧
      core'.store = core.store ∧ FlushFailure moments error stored := by
  have hstore : core'.store = core.store := by
    rcases h.store with ⟨-, hsame⟩ | ⟨hok, -⟩
    · exact hsame
    · cases hok
  generalize houtcome : (Except.error error : Except GatewayError Bool) = outcome at h
  cases h with
  | empty none_pending => cases houtcome
  | idle valid pending idle => cases houtcome
  | released valid pending nonempty executes verdict removed => cases houtcome
  | crowded valid pending crowded =>
    cases houtcome
    exact ⟨_, valid, Store.firstPending_mem pending, hstore, .inl ⟨_, crowded, rfl⟩⟩
  | kept valid pending executes verdict =>
    refine ⟨_, valid, Store.firstPending_mem pending, hstore, .inr ?_⟩
    obtain ⟨⟨command, outcome⟩, hx, houtcome', hrecoverable⟩ := flushVerdict_error houtcome.symm
    cases houtcome'
    have hplanned : command ∈ core.router.planStored _ :=
      executes.map_fst ▸ List.mem_map_of_mem hx
    -- of the commands of a stored plan only the sends can fail
    cases Router.planned_of_mem_planStored hplanned with
    | send linkId egress unexpired hops =>
      obtain ⟨moment, hmem, hevent⟩ := exists_moment_of_mem_executions executes hx
      exact ⟨hrecoverable, linkId, moment, List.mem_append_left _ hmem, hevent⟩
    | drop reason =>
      cases executes.outcome_ok (fun _ h => ne_store_of_mem_planStored h) _ hx rfl
    | deliverLocal fresh =>
      cases executes.outcome_ok (fun _ h => ne_store_of_mem_planStored h) _ hx rfl

/-- A flush that fails fails on a record that was there before and still is. -/
theorem Flushes.error_cases {core core' : GatewayCore maxLinks maxSeen storeCapacity}
    {moments : List (Moment maxLinks maxSeen storeCapacity)} {error : GatewayError}
    (h : Flushes answers core moments (.error error) core') :
    ∃ stored, ValidEnvelope stored ∧ recordOf stored ∈ core.store.live ∧
      recordOf stored ∈ core'.store.live ∧ FlushFailure moments error stored := by
  generalize houtcome : (Except.error error : Except GatewayError Unit) = outcome at h
  induction h with
  | stop last => cases houtcome
  | fail last =>
    cases houtcome
    obtain ⟨stored, hvalid, hlive, hsame, hfailure⟩ := last.error_cases
    exact ⟨stored, hvalid, hlive, hsame ▸ hlive, hfailure⟩
  | next turn rest ih =>
    obtain ⟨stored, hvalid, hlive, hlive', hfailure⟩ := ih houtcome
    exact ⟨stored, hvalid, turn.live_sublist.subset hlive, hlive',
      hfailure.mono (List.subset_append_right _ _)⟩

/-! ## Without a link -/

/-- No link is up. -/
def Offline (core : GatewayCore maxLinks maxSeen storeCapacity) : Prop :=
  ∀ link ∈ core.router.links.live, link.up = false

instance (core : GatewayCore maxLinks maxSeen storeCapacity) : Decidable core.Offline :=
  inferInstanceAs (Decidable (∀ link ∈ core.router.links.live, link.up = false))

/-- Without a link that is up there is nowhere to send to. -/
theorem Offline.egressLinks {core : GatewayCore maxLinks maxSeen storeCapacity}
    (h : core.Offline) (ingress : Option LinkId) : core.router.egressLinks ingress = [] := by
  rw [List.eq_nil_iff_forall_not_mem]
  intro linkId hmem
  cases h _ (Router.mem_egressLinks.mp hmem).1

/-- The links are part of the frame. -/
theorem Offline.of_frame {core core' : GatewayCore maxLinks maxSeen storeCapacity}
    (h : core.Offline) (hframe : SameFrame core core') : core'.Offline := by
  rw [Offline, hframe.links]
  exact h

/-- Without a link a stored message is at most delivered or dropped. -/
theorem Offline.planStored {core : GatewayCore maxLinks maxSeen storeCapacity} (h : core.Offline)
    {envelope : HyfEnvelopeRef} (hvalid : ValidEnvelope envelope) :
    core.router.planStored envelope = [] ∨ ∃ command, command.isSend = false ∧
      core.router.planStored envelope = [command] := by
  have hnosend : ∀ command ∈ core.router.planStored envelope, command.isSend = false := by
    intro command hmem
    cases Router.planned_of_mem_planStored hmem with
    | drop reason => rfl
    | deliverLocal fresh => rfl
    | send linkId egress unexpired hops =>
      rw [h.egressLinks] at egress
      cases egress
  have hadmits : core.router.AdmitsPlan (core.router.planStored envelope) :=
    Router.admitsPlan_planStored hvalid
  have hsends := hadmits.sends
  cases hplan : core.router.planStored envelope with
  | nil => exact .inl rfl
  | cons command rest =>
    rw [hplan] at hnosend hsends
    have hrest : rest = [] := by
      rw [List.eq_nil_iff_forall_not_mem]
      intro other hmem
      have := hnosend other (List.mem_cons_of_mem _ hmem)
      rw [hsends other hmem] at this
      cases this
    exact .inr ⟨command, hnosend command List.mem_cons_self, by rw [hrest]⟩

/-- Without a link a flush turn does nothing, or it removes a record whose plan it carried out. -/
theorem Offline.iteration {core core' : GatewayCore maxLinks maxSeen storeCapacity}
    (hoffline : core.Offline) {moments : List (Moment maxLinks maxSeen storeCapacity)}
    {outcome : Except GatewayError Bool} (h : Iteration answers core moments outcome core') :
    outcome = .ok false ∧ core'.store = core.store ∨
      outcome = .ok true ∧ ∃ envelope, ValidEnvelope envelope ∧
        recordOf envelope ∈ core.store.live ∧ core.router.planStored envelope ≠ [] ∧
        core.store.remove envelope.messageId = .ok core'.store := by
  cases h with
  | empty none_pending => exact .inl ⟨rfl, rfl⟩
  | idle valid pending idle => exact .inl ⟨rfl, rfl⟩
  | crowded valid pending crowded =>
    rcases hoffline.planStored valid with hplan | ⟨command, -, hplan⟩
    · rw [hplan] at crowded
      cases crowded
    · rw [hplan] at crowded
      exact absurd crowded (by simp [routerCommandCapacity])
  | released valid pending nonempty executes verdict removed =>
    exact .inr ⟨rfl, _, valid, Store.firstPending_mem pending, nonempty, removed⟩
  | @kept envelope _ executions _ valid pending executes verdict =>
    -- commands that cannot fail would have released the record
    refine absurd (flushVerdict_of_forall_ok fun x hx => ?_) verdict
    have hplanned : x.1 ∈ core.router.planStored envelope :=
      executes.map_fst ▸ List.mem_map_of_mem hx
    refine executes.outcome_ok (fun _ h => ne_store_of_mem_planStored h) x hx ?_
    rcases hoffline.planStored valid with hplan | ⟨command, hsend, hplan⟩
    · rw [hplan] at hplanned
      cases hplanned
    · rw [hplan, List.mem_singleton] at hplanned
      rwa [hplanned]

/-- A message that no link takes and that is not for this node waits. -/
structure Waits (core : GatewayCore maxLinks maxSeen storeCapacity) (envelope : HyfEnvelopeRef) :
    Prop where
  unexpired : core.router.nowMs < envelope.expiresAtMs
  hops : envelope.hopLimit ≠ 0
  remote : core.router.isForThisNode envelope.destination = false

/-- What a record waits for is part of the frame. -/
theorem Waits.of_frame {core core' : GatewayCore maxLinks maxSeen storeCapacity}
    {envelope : HyfEnvelopeRef} (h : core.Waits envelope) (hframe : SameFrame core core') :
    core'.Waits envelope where
  unexpired := by rw [hframe.nowMs]; exact h.unexpired
  hops := h.hops
  remote := by
    rw [← h.remote]
    simp only [Router.isForThisNode, Router.isLocalDestination, hframe.policy]

/-- A record that waits is not forwarded while no link is up. -/
theorem Waits.planStored {core : GatewayCore maxLinks maxSeen storeCapacity}
    {envelope : HyfEnvelopeRef} (h : core.Waits envelope) (hoffline : core.Offline) :
    core.router.planStored envelope = [] := by
  have hremote := h.remote
  rw [Router.planStored, if_neg (UInt64.not_le.mpr h.unexpired), if_neg h.hops]
  cases hdestination : envelope.destination with
  | community communityId =>
    rw [hdestination] at hremote
    have hlocal : core.router.policy.isLocalCommunity communityId = false := hremote
    simp [Router.fanOut, Router.deliversCommunity, hlocal, hoffline.egressLinks]
  | node node =>
    rw [hdestination] at hremote
    have hlocal : core.router.isLocalDestination (.node node) = false := hremote
    simp [Router.planStoredUnicast, hdestination, hlocal, hoffline.egressLinks]
  | foreign endpoint =>
    simp [Router.planStoredUnicast, Router.isLocalDestination, hdestination, hoffline.egressLinks]

/-- Without a link a flush succeeds, and whatever waits is kept. -/
theorem Offline.flushes {core core' : GatewayCore maxLinks maxSeen storeCapacity}
    (hoffline : core.Offline) (hstore : core.store.WellFormed)
    {moments : List (Moment maxLinks maxSeen storeCapacity)} {outcome : Except GatewayError Unit}
    (h : Flushes answers core moments outcome core') :
    outcome = .ok () ∧ ∀ envelope, ValidEnvelope envelope → core.Waits envelope →
      recordOf envelope ∈ core.store.live → recordOf envelope ∈ core'.store.live := by
  induction h with
  | stop last =>
    rcases hoffline.iteration last with ⟨-, hsame⟩ | ⟨hgoes, -⟩
    · exact ⟨rfl, fun envelope _ _ hlive => hsame ▸ hlive⟩
    · cases hgoes
  | fail last =>
    rcases hoffline.iteration last with ⟨hstops, -⟩ | ⟨hgoes, -⟩
    · cases hstops
    · cases hgoes
  | next turn rest ih =>
    obtain ⟨hok, hkeeps⟩ := ih (hoffline.of_frame turn.frame)
      (hstore.of_sublist turn.live_sublist)
    refine ⟨hok, fun envelope hvalid hwaits hlive => ?_⟩
    refine hkeeps envelope hvalid (hwaits.of_frame turn.frame) ?_
    rcases hoffline.iteration turn with ⟨hstops, -⟩ | ⟨-, released, hreleased, hmem, hplan, hremove⟩
    · cases hstops
    · refine (hstore.mem_live_remove hremove).mpr ⟨hlive, fun hid => hplan ?_⟩
      -- one record per id, so the removed record would be the one that waits
      have hsame : recordOf envelope = recordOf released :=
        List.inj_on_of_nodup_map hstore.nodup hlive hmem hid
      rw [← eq_of_recordOf_eq hvalid hreleased hsame]
      exact hwaits.planStored hoffline

/-- Without a link a message for others is to be stored. -/
theorem Waits.planEvent {core : GatewayCore maxLinks maxSeen storeCapacity}
    {envelope : HyfEnvelopeRef} (h : core.Waits envelope) (hoffline : core.Offline)
    (hvalid : ValidEnvelope envelope)
    (hunseen : core.router.hasSeen (seenKeyFor envelope) = false) :
    core.router.planEvent (.localSubmit envelope) = .ok [.store (.put envelope)] := by
  have hremote := h.remote
  have hunicast : (∀ communityId, envelope.destination ≠ .community communityId) →
      core.router.isLocalDestination envelope.destination = false →
      core.router.planEnvelope envelope none = [.store (.put envelope)] := by
    intro hdestination hlocal
    rw [Router.planEnvelope_of_unicast hdestination h.unexpired hunseen, Router.planUnicast, hlocal,
      hoffline.egressLinks]
    simp [envelopeForNextHop, h.hops]
  rw [Router.planEvent, Router.planFor_of_valid hvalid, Except.ok.injEq]
  cases hdestination : envelope.destination with
  | community communityId =>
    rw [hdestination] at hremote
    have hlocal : core.router.policy.isLocalCommunity communityId = false := hremote
    rw [Router.planEnvelope_of_community hdestination h.unexpired hunseen,
      Router.planCommunity_none, if_pos]
    simp [Router.fanOut, Router.deliversCommunity, hlocal, hoffline.egressLinks]
  | node node =>
    rw [hdestination] at hremote
    exact hunicast (by simp [hdestination]) (by rw [hdestination]; exact hremote)
  | foreign endpoint => exact hunicast (by simp [hdestination]) (by rw [hdestination]; rfl)

/-- The only way to route an event whose plan is a single command: execute it. -/
theorem Routes.of_singleton {core core' : GatewayCore maxLinks maxSeen storeCapacity}
    {event : RouterEvent} {command : RouterCommand}
    {moments : List (Moment maxLinks maxSeen storeCapacity)} {outcome : Except GatewayError Unit}
    (h : Routes answers core event moments outcome core')
    (hplan : core.router.planEvent event = .ok [command]) :
    ∃ moments', CommandStep answers (core.routed event) command moments' outcome core' := by
  cases h with
  | refused plan =>
    rw [hplan] at plan
    cases plan
  | crowded plan_eq crowded =>
    rw [hplan] at plan_eq
    cases plan_eq
    exact absurd crowded (by simp [routerCommandCapacity])
  | executed plan_eq executes =>
    rw [hplan] at plan_eq
    cases plan_eq
    cases executes with
    | @cons _ core₁ _ _ _ moments₁ _ outcome _ head tail =>
      cases tail
      refine ⟨moments₁, ?_⟩
      cases outcome with
      | ok value => exact head
      | error error => exact head

/-- Routing a message leaves the configuration, the clock and the links alone. -/
theorem Routes.frame {core core' : GatewayCore maxLinks maxSeen storeCapacity}
    {event : RouterEvent} {moments : List (Moment maxLinks maxSeen storeCapacity)}
    {outcome : Except GatewayError Unit} (h : Routes answers core event moments outcome core')
    (hevent : core.routed event = core) : SameFrame core core' := by
  cases h with
  | refused plan =>
    rw [hevent]
    exact .refl _
  | crowded plan_eq crowded =>
    rw [hevent]
    exact .refl _
  | executed plan_eq executes =>
    rw [hevent] at executes
    exact executes.frame

/-- The flush after a submission, without a link. -/
theorem Routes.flushes_offline {core core₁ core' : GatewayCore maxLinks maxSeen storeCapacity}
    {envelope : HyfEnvelopeRef} {moments moments' : List (Moment maxLinks maxSeen storeCapacity)}
    {routed outcome : Except GatewayError Unit}
    (h : Routes answers core (.localSubmit envelope) moments routed core₁)
    (hoffline : core.Offline) (hstore : core.store.WellFormed)
    (hflushes : Flushes answers core₁.expired moments' outcome core') :
    outcome = .ok () ∧ ∀ stored, ValidEnvelope stored → core.Waits stored →
      core.lastNowMs < stored.expiresAtMs → recordOf stored ∈ core₁.store.live →
      recordOf stored ∈ core'.store.live := by
  have hframe := h.frame rfl
  have hexpired : SameFrame core core₁.expired := hframe.trans ⟨rfl, rfl, rfl, rfl, rfl⟩
  have hstore₁ : core₁.expired.store.WellFormed :=
    wellFormed_step (wellFormed_steps (h.steps (by simp)) hstore) (.expire core₁)
  obtain ⟨hok, hkeeps⟩ := (hoffline.of_frame hexpired).flushes hstore₁ hflushes
  refine ⟨hok, fun stored hvalid hwaits hunexpired hlive => ?_⟩
  refine hkeeps stored hvalid (hwaits.of_frame hexpired)
    (Store.mem_live_expireBefore.mpr ⟨hlive, ?_⟩)
  rwa [hframe.lastNowMs]

/-- What waits is stored by `submit`, unless its id is in the store already, or it is too large. -/
theorem submit_of_waits [GatewayLinkExecutor E] {world : World maxLinks maxSeen storeCapacity E}
    {envelope : HyfEnvelopeRef} (hstore : world.core.store.WellFormed)
    (hunexpired : world.core.lastNowMs < envelope.expiresAtMs)
    (hwaits : world.core.Waits envelope) (hoffline : world.core.Offline)
    (hallowed : world.core.config.policy.allowStoreAndForward = true)
    (hvalid : ValidEnvelope envelope)
    (hunseen : world.core.router.hasSeen (seenKeyFor envelope) = false) :
    (∃ error, world.core.store.putEnvelope envelope = .error error ∧
        ((submit envelope).run world).outcome = .error (.store error)) ∨
      (∃ store, world.core.store.putEnvelope envelope = .ok store) ∧
        ((submit envelope).run world).outcome = .ok () ∧
        ((submit envelope).run world).state.core.Holds envelope := by
  obtain ⟨moments, core, executor, hcall, hstate⟩ := run_submit envelope hstore
  have hplan : ∀ metrics, { world.core with metrics }.router.planEvent (.localSubmit envelope) =
      .ok [.store (.put envelope)] := fun _ => hwaits.planEvent hoffline hvalid hunseen
  have hsteps := hcall.steps (by simp)
  have hstore' : core.store.WellFormed := wellFormed_steps hsteps hstore
  rw [hstate]
  -- the call routes the message and then flushes the store, unless routing fails
  generalize ((submit envelope).run world).outcome = outcome at hcall
  cases hcall with
  | refused routes =>
    obtain ⟨moments', hstep⟩ := routes.of_singleton (hplan _)
    cases hstep with
    | putRefused allowed refused => exact .inl ⟨_, refused, rfl⟩
  | @flushed _ _ _ core₁ _ routes flushes =>
    right
    obtain ⟨moments', hstep⟩ := routes.of_singleton (hplan _)
    obtain ⟨hok, hkeeps⟩ := routes.flushes_offline hoffline hstore flushes
    cases hstep with
    | putDisabled disabled metrics =>
      rw [show world.core.config.policy.allowStoreAndForward = false from disabled] at hallowed
      cases hallowed
    | put allowed accepted metrics =>
      have heffect := Store.putEnvelope_eq_ok accepted
      refine ⟨⟨_, accepted⟩, hok, Retains.holds ⟨hvalid, heffect.fits, ?_⟩ hstore'⟩
      exact hkeeps envelope hvalid (hwaits.of_frame ⟨rfl, rfl, rfl, rfl, rfl⟩) hunexpired
        (heffect.mem_live.mpr (.inl rfl))

/-- A hop is left. -/
theorem ne_zero_of_one_le_hopLimit {envelope : HyfEnvelopeRef} (h : 1 ≤ envelope.hopLimit) :
    envelope.hopLimit ≠ 0 := by
  intro hzero
  rw [hzero] at h
  exact absurd h (by decide)

/-- **Store and forward without a link.** A message for others is stored by `submit`, exactly when
the store has no record under its id yet. The router would tell two communities apart, the store
does not. -/
theorem submit_stores_iff [GatewayLinkExecutor E] {world : World maxLinks maxSeen storeCapacity E}
    {envelope : HyfEnvelopeRef} (hreachable : Reachable world.core) (hoffline : world.core.Offline)
    (hallowed : world.core.config.policy.allowStoreAndForward = true)
    (hfree : world.core.storedLen < storeCapacity) (hvalid : ValidEnvelope envelope)
    (hunexpired : world.core.lastNowMs < envelope.expiresAtMs) (hhops : 1 ≤ envelope.hopLimit)
    (hremote : world.core.router.isForThisNode envelope.destination = false)
    (hfits : (wireBytes envelope).length ≤ gatewayFrameBufferLen)
    (hunseen : world.core.router.hasSeen (seenKeyFor envelope) = false) :
    (((submit envelope).run world).outcome = .ok () ∧
        ((submit envelope).run world).state.core.Holds envelope) ↔
      world.core.store.contains envelope.messageId = false := by
  have hwaits : world.core.Waits envelope := {
    unexpired := by rwa [hreachable.timely.clocks]
    hops := ne_zero_of_one_le_hopLimit hhops
    remote := hremote }
  rcases submit_of_waits hreachable.wellFormed hunexpired hwaits hoffline hallowed hvalid hunseen
    with ⟨error, hput, herror⟩ | ⟨⟨store, hput⟩, hok, hholds⟩
  · rw [herror]
    constructor
    · rintro ⟨h, -⟩
      cases h
    · intro habsent
      obtain ⟨store, hstored⟩ := Store.exists_putEnvelope_eq_ok hvalid hfits habsent hfree
      rw [hput] at hstored
      cases hstored
  · exact ⟨fun _ => (Store.putEnvelope_eq_ok hput).absent, fun _ => ⟨hok, hholds⟩⟩

/-- The small gateway before its first call. -/
def sampleStart : World 2 8 4 AcceptAll := ⟨sampleCore, .mk, []⟩

/-- The sample gateway is reached by making it. -/
theorem reachable_sampleStart : Reachable sampleStart.core := ⟨_, _, .start new_sampleConfig⟩

/-- A message to another node is stored by the gateway without links. -/
theorem sampleStart_stores :
    ((submit (sampleEnvelope 2 (.node ⟨fillBytes 32 7⟩) 3)).run sampleStart).outcome = .ok () ∧
      ((submit (sampleEnvelope 2 (.node ⟨fillBytes 32 7⟩) 3)).run sampleStart).state.core.Holds
        (sampleEnvelope 2 (.node ⟨fillBytes 32 7⟩) 3) := by
  refine (submit_stores_iff reachable_sampleStart (by decide) rfl (by decide)
    (validEnvelope_sampleEnvelope _ _ _) (by decide) (by decide) (by decide) (by decide)
    (by decide)).mpr ?_
  decide

/-- The gateway without links after a message to one community was submitted. -/
def communityWorld : World 2 8 4 AcceptAll :=
  sampleCall (.submit (sampleEnvelope 2 (.community ⟨fillBytes 16 6⟩) 3)) ⟨sampleCore, .mk, []⟩

/-- The sample world is reached by a run. -/
theorem run_communityWorld : Run sampleConfig communityWorld.log communityWorld.core :=
  Run.call (.start new_sampleConfig) (.submit (sampleEnvelope 2 (.community ⟨fillBytes 16 6⟩) 3))
    AcceptAll .mk

/-- The same message id in a second community: the router takes it for a new message, the store for
a duplicate. -/
theorem communityWorld_refuses_second : Reachable communityWorld.core ∧
    communityWorld.core.Offline ∧
    communityWorld.core.config.policy.allowStoreAndForward = true ∧
    communityWorld.core.storedLen < 4 ∧
    ValidEnvelope (sampleEnvelope 2 (.community ⟨fillBytes 16 8⟩) 3) ∧
    communityWorld.core.lastNowMs <
      (sampleEnvelope 2 (.community ⟨fillBytes 16 8⟩) 3).expiresAtMs ∧
    1 ≤ (sampleEnvelope 2 (.community ⟨fillBytes 16 8⟩) 3).hopLimit ∧
    communityWorld.core.router.isForThisNode (.community ⟨fillBytes 16 8⟩) = false ∧
    (wireBytes (sampleEnvelope 2 (.community ⟨fillBytes 16 8⟩) 3)).length ≤
      gatewayFrameBufferLen ∧
    communityWorld.core.router.hasSeen
      (seenKeyFor (sampleEnvelope 2 (.community ⟨fillBytes 16 8⟩) 3)) = false ∧
    ((submit (sampleEnvelope 2 (.community ⟨fillBytes 16 8⟩) 3)).run communityWorld).outcome =
      .error (.store .duplicate) := by
  refine ⟨⟨_, _, run_communityWorld⟩, ?_, ?_, ?_, validEnvelope_sampleEnvelope _ _ _, ?_, ?_, ?_,
    ?_, ?_, ?_⟩
  all_goals decide +kernel

/-- A member's community message is delivered to the node itself and then done with. -/
theorem submit_of_member [GatewayLinkExecutor E] {world : World maxLinks maxSeen storeCapacity E}
    {envelope : HyfEnvelopeRef} {communityId : CommunityId}
    (hstore : world.core.store.WellFormed) (hoffline : world.core.Offline)
    (hvalid : ValidEnvelope envelope)
    (hunexpired : world.core.router.nowMs < envelope.expiresAtMs)
    (hdestination : envelope.destination = .community communityId)
    (hmember : world.core.router.policy.isLocalCommunity communityId = true)
    (hunseen : world.core.router.hasSeen (seenKeyFor envelope) = false) :
    ((submit envelope).run world).outcome = .ok () ∧
      ((submit envelope).run world).state.core.store.live ⊆ world.core.store.live := by
  obtain ⟨moments, core, executor, hcall, hstate⟩ := run_submit envelope hstore
  have hplan : ∀ metrics, { world.core with metrics }.router.planEvent (.localSubmit envelope) =
      .ok [.deliverLocal envelope] := by
    intro metrics
    rw [Router.planEvent, Router.planFor_of_valid hvalid, Except.ok.injEq]
    rw [Router.planEnvelope_of_community hdestination hunexpired hunseen,
      Router.planCommunity_none]
    simp [Router.fanOut, Router.deliversCommunity_of_unseen hunseen, hmember, hoffline.egressLinks]
  rw [hstate]
  generalize ((submit envelope).run world).outcome = outcome at hcall
  cases hcall with
  | refused routes =>
    obtain ⟨moments', hstep⟩ := routes.of_singleton (hplan _)
    cases hstep
  | @flushed _ _ _ core₁ _ routes flushes =>
    obtain ⟨moments', hstep⟩ := routes.of_singleton (hplan _)
    refine ⟨(routes.flushes_offline hoffline hstore flushes).1, ?_⟩
    -- delivery does not touch the store, and a flush only removes records
    have hsame : core₁.store = world.core.store := hstep.store_eq (by simp)
    refine List.Subset.trans flushes.live_sublist.subset ?_
    rw [← hsame]
    exact (Store.expireBefore_sublist _ _).subset

/-- **Community messages without a link.** A community message that `submit` accepted waits in the
store exactly when the node is not itself a member: a member's own message is delivered to the node,
which counts as success, and no link ever gets it. -/
theorem submit_keeps_community_iff [GatewayLinkExecutor E]
    {world : World maxLinks maxSeen storeCapacity E} {envelope : HyfEnvelopeRef}
    {communityId : CommunityId} (hreachable : Reachable world.core)
    (hallowed : world.core.config.policy.allowStoreAndForward = true)
    (hoffline : world.core.Offline) (hvalid : ValidEnvelope envelope)
    (hunexpired : world.core.lastNowMs < envelope.expiresAtMs)
    (hdestination : envelope.destination = .community communityId) (hhops : 1 ≤ envelope.hopLimit)
    (hunseen : world.core.router.hasSeen (seenKeyFor envelope) = false)
    (habsent : world.core.store.contains envelope.messageId = false) :
    (((submit envelope).run world).outcome = .ok () →
        ((submit envelope).run world).state.core.Holds envelope) ↔
      world.core.router.policy.isLocalCommunity communityId = false := by
  have hunexpired' : world.core.router.nowMs < envelope.expiresAtMs := by
    rwa [hreachable.timely.clocks]
  cases hmember : world.core.router.policy.isLocalCommunity communityId with
  | true =>
    obtain ⟨hok, hlive⟩ := submit_of_member hreachable.wellFormed hoffline hvalid hunexpired'
      hdestination hmember hunseen
    refine iff_of_false (fun hstores => ?_) (by simp)
    -- the store has no record under the id, before or after
    obtain ⟨len, frame, -, hfilter⟩ := hstores hok
    have hmem := List.mem_of_mem_filter (hfilter ▸ List.mem_singleton_self _)
    exact Store.contains_eq_false_iff.mp habsent _ (hlive hmem) rfl
  | false =>
    refine iff_of_true (fun hok => ?_) rfl
    have hwaits : world.core.Waits envelope := {
      unexpired := hunexpired'
      hops := ne_zero_of_one_le_hopLimit hhops
      remote := by rw [hdestination]; exact hmember }
    rcases submit_of_waits hreachable.wellFormed hunexpired hwaits hoffline hallowed hvalid hunseen
      with ⟨error, -, herror⟩ | ⟨-, -, hholds⟩
    · rw [herror] at hok
      cases hok
    · exact hholds

/-- A message to a community is stored while no link is up. -/
theorem sampleStart_keeps_community :
    ((submit (sampleEnvelope 2 (.community ⟨fillBytes 16 6⟩) 3)).run sampleStart).outcome = .ok () ∧
      ((submit (sampleEnvelope 2 (.community ⟨fillBytes 16 6⟩) 3)).run
        sampleStart).state.core.Holds (sampleEnvelope 2 (.community ⟨fillBytes 16 6⟩) 3) := by
  have hok : ((submit (sampleEnvelope 2 (.community ⟨fillBytes 16 6⟩) 3)).run
      sampleStart).outcome = .ok () := by
    decide +kernel
  refine ⟨hok, (submit_keeps_community_iff reachable_sampleStart rfl (by decide)
    (validEnvelope_sampleEnvelope _ _ _) (by decide) rfl (by decide) (by decide)
    (by decide)).mpr ?_ hok⟩
  decide

/-- The node of the small gateway is a member of the community and submits a message to it: the
result is a success and nothing is stored. -/
theorem sampleStart_loses_member_message : Reachable sampleStart.core ∧
    sampleStart.core.config.policy.allowStoreAndForward = true ∧
    sampleStart.core.Offline ∧ sampleStart.core.storedLen < 4 ∧
    ValidEnvelope (sampleEnvelope 2 (.community ⟨fillBytes 16 5⟩) 3) ∧
    sampleStart.core.lastNowMs < (sampleEnvelope 2 (.community ⟨fillBytes 16 5⟩) 3).expiresAtMs ∧
    1 ≤ (sampleEnvelope 2 (.community ⟨fillBytes 16 5⟩) 3).hopLimit ∧
    sampleStart.core.router.hasSeen
      (seenKeyFor (sampleEnvelope 2 (.community ⟨fillBytes 16 5⟩) 3)) = false ∧
    sampleStart.core.store.contains
      (sampleEnvelope 2 (.community ⟨fillBytes 16 5⟩) 3).messageId = false ∧
    ((submit (sampleEnvelope 2 (.community ⟨fillBytes 16 5⟩) 3)).run sampleStart).outcome = .ok () ∧
    ((submit (sampleEnvelope 2 (.community ⟨fillBytes 16 5⟩) 3)).run
      sampleStart).state.core.store.live = [] := by
  refine ⟨reachable_sampleStart, ?_, ?_, ?_, validEnvelope_sampleEnvelope _ _ _, ?_, ?_, ?_, ?_, ?_,
    ?_⟩
  all_goals decide

/-! ## Errors -/

end GatewayCore

/-- Whether an event changed more than the metrics: a frame or a key was accepted, or a command or a
flush turn carried out. -/
def GatewayEvent.hasEffect : GatewayEvent → Bool
  | sendLinkBytes _ _ _ answer => answer = .ok ()
  | committed _ => true
  | executed _ outcome => outcome = .ok ()
  | flushed _ _ => true

namespace GatewayCore

/-- Nothing happened but counting. -/
structure NoEffect (core : GatewayCore maxLinks maxSeen storeCapacity)
    (moments : List (Moment maxLinks maxSeen storeCapacity))
    (core' : GatewayCore maxLinks maxSeen storeCapacity) : Prop where
  core_eq : ∃ metrics, core' = { core with metrics }
  events : ∀ moment ∈ moments, moment.event.hasEffect = false

/-- A command that fails has no effect. -/
theorem CommandStep.noEffect {core core' : GatewayCore maxLinks maxSeen storeCapacity}
    {command : RouterCommand} {moments : List (Moment maxLinks maxSeen storeCapacity)}
    {error : GatewayError} (h : CommandStep answers core command moments (.error error) core') :
    NoEffect core moments core' := by
  refine ⟨h.of_error, ?_⟩
  cases h with
  | sendRefused valid fits answer metrics => simp [GatewayEvent.hasEffect]
  | _ => simp

/-- Commands that all fail have no effect. -/
theorem Executes.noEffect {core core' : GatewayCore maxLinks maxSeen storeCapacity}
    {commands : List RouterCommand} {moments : List (Moment maxLinks maxSeen storeCapacity)}
    {executions : List (RouterCommand × Except GatewayError Unit)}
    (h : Executes answers core commands moments executions core')
    (hfail : ∀ x ∈ executions, ∃ error, x.2 = .error error) : NoEffect core moments core' := by
  induction h with
  | nil => exact ⟨⟨_, rfl⟩, by simp⟩
  | cons head tail ih =>
    obtain ⟨error, rfl⟩ := hfail _ List.mem_cons_self
    obtain ⟨⟨metrics, rfl⟩, hhead⟩ := head.noEffect
    obtain ⟨⟨metrics', rfl⟩, htail⟩ := ih fun x hx => hfail x (List.mem_cons_of_mem _ hx)
    refine ⟨⟨metrics', rfl⟩, ?_⟩
    intro moment hmem
    rcases List.mem_append.mp hmem with hmem | hmem
    · exact hhead moment hmem
    rcases List.mem_cons.mp hmem with rfl | hmem
    · simp [GatewayEvent.hasEffect]
    · exact htail moment hmem

/-- An error is returned only when no command succeeded. -/
theorem routeVerdict_error {executions : List (RouterCommand × Except GatewayError Unit)}
    {error : GatewayError} (h : routeVerdict executions = .error error) :
    ∀ x ∈ executions, ∃ error, x.2 = .error error := by
  rw [routeVerdict] at h
  split_ifs at h with hsuccess
  rintro ⟨command, outcome⟩ hx
  cases outcome with
  | error error => exact ⟨error, rfl⟩
  | ok value => exact absurd (List.any_eq_true.mpr ⟨_, hx, rfl⟩) hsuccess

/-- A submission that is refused has no effect. -/
theorem Routes.noEffect {core core' : GatewayCore maxLinks maxSeen storeCapacity}
    {envelope : HyfEnvelopeRef} {moments : List (Moment maxLinks maxSeen storeCapacity)}
    {error : GatewayError}
    (h : Routes answers core (.localSubmit envelope) moments (.error error) core') :
    NoEffect core moments core' := by
  generalize houtcome : (Except.error error : Except GatewayError Unit) = outcome at h
  cases h with
  | refused plan => exact ⟨⟨core.metrics, rfl⟩, by simp⟩
  | crowded plan_eq crowded => exact ⟨⟨core.metrics, rfl⟩, by simp⟩
  | executed plan_eq executes => exact executes.noEffect (routeVerdict_error houtcome.symm)

/-- A submission with a link up stores nothing. -/
theorem Routes.store_eq {core core' : GatewayCore maxLinks maxSeen storeCapacity}
    {envelope : HyfEnvelopeRef} {moments : List (Moment maxLinks maxSeen storeCapacity)}
    {outcome : Except GatewayError Unit}
    (h : Routes answers core (.localSubmit envelope) moments outcome core')
    (honline : ¬core.Offline) : core'.store = core.store := by
  cases h with
  | refused plan => rfl
  | crowded plan_eq crowded => rfl
  | @executed plan _ _ _ plan_eq executes =>
    refine executes.store_eq ?_
    rintro command hmem inner rfl
    rw [Router.planEvent] at plan_eq
    by_cases hvalid : ValidEnvelope envelope
    · rw [Router.planFor_of_valid hvalid, Except.ok.injEq] at plan_eq
      rw [← plan_eq] at hmem
      -- a put is planned only when there is no link
      cases Router.planned_of_mem_planEnvelope hmem with
      | put offline unexpired fresh hops =>
        exact honline fun link hlink =>
          Router.up_eq_false_of_egressLinks_eq_nil offline hlink (by simp)
    · obtain ⟨reason, rfl⟩ := Router.planFor_of_invalid hvalid plan_eq
      simp at hmem

/-- The part of `submit` before the flush. -/
def routeSubmitted [GatewayLinkExecutor E] (envelope : HyfEnvelopeRef) :
    GatewayM maxLinks maxSeen storeCapacity E Unit := do
  modifyMetrics .addSubmitted
  routeEvent (.localSubmit envelope)

/-- **Errors of `submit`.** Either routing the message failed, and then it had no effect: nothing
was sent, stored, delivered or marked as seen. Or the message was routed and not stored, and the
error is about another message, stored before and still there, whose flush failed for good. -/
theorem submit_error_cases [GatewayLinkExecutor E]
    {world : World maxLinks maxSeen storeCapacity E} {envelope : HyfEnvelopeRef}
    (hreachable : Reachable world.core) {error : GatewayError}
    (herror : ((submit envelope).run world).outcome = .error error) :
    ∃ moments, ((submit envelope).run world).state.log = world.log ++ moments ∧
      (((routeSubmitted envelope).run world).outcome = .error error ∧
          NoEffect world.core moments ((submit envelope).run world).state.core ∨
        ((routeSubmitted envelope).run world).outcome = .ok () ∧
          ((submit envelope).run world).state.core.store.live ⊆ world.core.store.live ∧
          ∃ stored, ValidEnvelope stored ∧ recordOf stored ∈ world.core.store.live ∧
            recordOf stored ∈ ((submit envelope).run world).state.core.store.live ∧
            FlushFailure moments error stored) := by
  have hsubmit : (submit envelope).run world = (do routeSubmitted envelope; flushStore :
      GatewayM maxLinks maxSeen storeCapacity E Unit).run world := rfl
  have hstore := hreachable.wellFormed
  obtain ⟨moments, outcome, core, executor, hroutes, houtcome, hstate⟩ :=
    run_routeEvent (.localSubmit envelope)
      { world with core := { world.core with metrics := world.core.metrics.addSubmitted } }
  change ((routeSubmitted envelope).run world).outcome = outcome at houtcome
  change ((routeSubmitted envelope).run world).state = _ at hstate
  rw [hsubmit, EStateM.run_bind] at herror ⊢
  cases hrun : (routeSubmitted envelope).run world with
  | error error' state =>
    rw [hrun] at houtcome hstate herror
    cases houtcome
    cases hstate
    cases herror
    obtain ⟨⟨metrics, rfl⟩, hevents⟩ := hroutes.noEffect
    exact ⟨moments, rfl, .inl ⟨rfl, ⟨metrics, rfl⟩, hevents⟩⟩
  | ok value state =>
    rw [hrun] at houtcome hstate herror
    cases houtcome
    cases hstate
    have hsteps := hroutes.steps (by simp)
    have hstore₁ : core.store.WellFormed := wellFormed_steps hsteps hstore
    obtain ⟨moments', outcome, core', executor', hflushes, houtcome', hstate'⟩ :=
      run_flushStore ⟨core, executor, world.log ++ moments⟩ hstore₁
    simp only at herror ⊢
    rw [houtcome'] at herror
    subst herror
    rw [hstate']
    -- a flush without links does not fail, so some link is up and the message was not stored
    have honline : ¬Offline _ := fun hoffline => by
      have hok := (hroutes.flushes_offline hoffline hstore hflushes).1
      cases hok
    have hsame : core.store = world.core.store := hroutes.store_eq honline
    have hsub : core.expired.store.live ⊆ world.core.store.live := by
      rw [← hsame]
      exact (Store.expireBefore_sublist _ _).subset
    obtain ⟨stored, hvalid, hbefore, hafter, hfailure⟩ := hflushes.error_cases
    refine ⟨moments ++ moments', by rw [List.append_assoc], .inr ⟨rfl, ?_, stored, hvalid,
      hsub hbefore, hafter, hfailure.mono (List.subset_append_right _ _)⟩⟩
    exact List.Subset.trans hflushes.live_sublist.subset hsub

/-- The small gateway with a stored message that its link did not take when it came up. -/
def busyWorld : World 2 8 4 Scripted :=
  ((perform (.handleLinkEvent (.up ⟨fillBytes 16 3⟩))).run ⟨storedWorld.core,
    ⟨[.error (.driver ⟨fillBytes 16 3⟩ .backpressure)]⟩, storedWorld.log⟩).state

/-- The sample world is reached by a run. -/
theorem run_busyWorld : Run sampleConfig busyWorld.log busyWorld.core :=
  Run.call run_storedWorld (.handleLinkEvent (.up ⟨fillBytes 16 3⟩)) Scripted
    ⟨[.error (.driver ⟨fillBytes 16 3⟩ .backpressure)]⟩

/-- Next, the executor accepts one frame and then fails for good. -/
def blockedWorld : World 2 8 4 Scripted :=
  { busyWorld with executor := ⟨[.ok (), .error (.driver ⟨fillBytes 16 3⟩ .fatal)]⟩ }

/-- Its core is reachable, whatever the executor does next. -/
theorem reachable_blockedWorld : Reachable blockedWorld.core := by
  simp only [blockedWorld]
  exact ⟨_, _, run_busyWorld⟩

/-- The submission whose error is about the stored message. -/
theorem blockedWorld_submit_error :
    ((submit (sampleEnvelope 3 (.node ⟨fillBytes 32 7⟩) 3)).run blockedWorld).outcome =
      .error (.driver ⟨fillBytes 16 3⟩ .fatal) := by
  decide +kernel

/-- The sample message itself is routed. -/
theorem blockedWorld_routes :
    ((routeSubmitted (sampleEnvelope 3 (.node ⟨fillBytes 32 7⟩) 3)).run blockedWorld).outcome =
      .ok () := by
  decide +kernel

/-- The error that is returned is about another message, which is stored. -/
theorem blockedWorld_error_is_about_stored :
    ∃ moments stored, recordOf stored ∈ blockedWorld.core.store.live ∧
      FlushFailure (moments : List (Moment 2 8 4)) (.driver ⟨fillBytes 16 3⟩ .fatal) stored := by
  obtain ⟨moments, -, hcases⟩ := submit_error_cases reachable_blockedWorld blockedWorld_submit_error
  rcases hcases with ⟨hrefused, -⟩ | ⟨-, -, stored, -, hlive, -, hfailure⟩
  · rw [blockedWorld_routes] at hrefused
    cases hrefused
  · exact ⟨moments, stored, hlive, hfailure⟩

/-- The message was sent and marked as seen, and the result is an error. -/
theorem blockedWorld_sends_with_error : Reachable blockedWorld.core ∧
    ((submit (sampleEnvelope 3 (.node ⟨fillBytes 32 7⟩) 3)).run blockedWorld).outcome =
      .error (.driver ⟨fillBytes 16 3⟩ .fatal) ∧
    blockedWorld.core.router.hasSeen
      (seenKeyFor (sampleEnvelope 3 (.node ⟨fillBytes 32 7⟩) 3)) = false ∧
    ((submit (sampleEnvelope 3 (.node ⟨fillBytes 32 7⟩) 3)).run
      blockedWorld).state.core.router.hasSeen
        (seenKeyFor (sampleEnvelope 3 (.node ⟨fillBytes 32 7⟩) 3)) = true ∧
    .executed (.send ⟨fillBytes 16 3⟩ (sampleEnvelope 3 (.node ⟨fillBytes 32 7⟩) 3)) (.ok ()) ∈
      (((submit (sampleEnvelope 3 (.node ⟨fillBytes 32 7⟩) 3)).run blockedWorld).state.log.drop
        blockedWorld.log.length).map Moment.event := by
  refine ⟨reachable_blockedWorld, ?_, ?_, ?_, ?_⟩
  all_goals decide +kernel

end GatewayCore

end Hyf
