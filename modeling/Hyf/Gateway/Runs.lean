import Hyf.Gateway.Flush

/-!
# Runs of the gateway

A run is any sequence of calls on a new core, each with an executor of its own, whatever the calls
return. Each call takes the atomic steps of `CoreStep`: it executes commands that the router has
planned, expires records, ends a flush turn, moves the clock or changes a link. `Run.invariant` is
the rule that the theorems about runs use: what every step keeps holds after every run.
-/

namespace Hyf

open LoggedSteps

/-- The calls a gateway accepts. -/
inductive GatewayOp where
  | submit (envelope : HyfEnvelopeRef)
  | ingestLinkFrame (frame : LinkFrameRef)
  | tick (now : TimestampMs)
  | handleLinkEvent (event : LinkEvent)

namespace GatewayCore

variable {maxLinks maxSeen storeCapacity : ℕ} {E : Type}
  {answers : LinkId → List UInt8 → TimestampMs → Except GatewayError Unit → Prop}

/-- The call that an operation stands for. -/
def perform [GatewayLinkExecutor E] : GatewayOp → GatewayM maxLinks maxSeen storeCapacity E Unit
  | .submit envelope => submit envelope
  | .ingestLinkFrame frame => ingestLinkFrame frame
  | .tick now => tick now
  | .handleLinkEvent event => handleLinkEvent event

/-- The log and the core after a sequence of calls on a new core. -/
inductive Run (config : GatewayConfig maxLinks) :
    List (Moment maxLinks maxSeen storeCapacity) → GatewayCore maxLinks maxSeen storeCapacity → Prop
  | start {core : GatewayCore maxLinks maxSeen storeCapacity} (new_eq : new config = .ok core) :
      Run config [] core
  | call {log : List (Moment maxLinks maxSeen storeCapacity)}
      {core : GatewayCore maxLinks maxSeen storeCapacity} (before : Run config log core)
      (op : GatewayOp) (E : Type) [GatewayLinkExecutor E] (executor : E) :
      Run config ((perform op).run ⟨core, executor, log⟩).state.log
        ((perform op).run ⟨core, executor, log⟩).state.core

/-- The cores that some run ends in. -/
def Reachable (core : GatewayCore maxLinks maxSeen storeCapacity) : Prop :=
  ∃ config log, Run config log core

/-! ## Atomic steps -/

/-- The executions of a flush turn that end with the removal of the record: all sends were accepted
and there was one, or the only command was a local delivery or a drop. -/
def Releases (executions : List (RouterCommand × Except GatewayError Unit)) : Prop :=
  ((∃ x ∈ executions, x.1.isSend = true) ∧ ∀ x ∈ executions, x.1.isSend = true → x.2 = .ok ()) ∨
    (∃ envelope, executions = [(.deliverLocal envelope, .ok ())]) ∨
    ∃ messageId reason, executions = [(.drop messageId reason, .ok ())]

/-- The core after the clock has moved to `now`. -/
def observed (core : GatewayCore maxLinks maxSeen storeCapacity) (now : TimestampMs) :
    GatewayCore maxLinks maxSeen storeCapacity :=
  { core with
    lastNowMs := now
    router := { core.router with nowMs := now }
    store := (core.store.expireBefore now).2
    metrics := core.metrics.addExpired (core.store.expireBefore now).1 }

/-- The atomic steps of the calls, with the moments they log. -/
inductive CoreStep : GatewayCore maxLinks maxSeen storeCapacity →
    List (Moment maxLinks maxSeen storeCapacity) → GatewayCore maxLinks maxSeen storeCapacity → Prop
  | metrics (core : GatewayCore maxLinks maxSeen storeCapacity) (metrics : GatewayMetrics) :
      CoreStep core [] { core with metrics }
  | link {core : GatewayCore maxLinks maxSeen storeCapacity} {router : Router maxLinks maxSeen}
      {linkId : LinkId} {up : Bool} (set : core.router.setLinkState linkId up = .ok router) :
      CoreStep core [] { core with router }
  | observe {core : GatewayCore maxLinks maxSeen storeCapacity} {now : TimestampMs}
      (later : core.lastNowMs < now) :
      CoreStep core [⟨.executed (.store (.expireBefore now)) (.ok ()), core.observed now⟩]
        (core.observed now)
  | expire (core : GatewayCore maxLinks maxSeen storeCapacity) : CoreStep core [] core.expired
  | command
      {answers : LinkId → List UInt8 → TimestampMs → Except GatewayError Unit → Prop}
      {core core' : GatewayCore maxLinks maxSeen storeCapacity} {command : RouterCommand}
      {moments : List (Moment maxLinks maxSeen storeCapacity)} {outcome : Except GatewayError Unit}
      (admits : core.router.Admits command)
      (step : CommandStep answers core command moments outcome core') :
      CoreStep core (moments ++ [⟨.executed command outcome, core'⟩]) core'
  | kept (core : GatewayCore maxLinks maxSeen storeCapacity) (messageId : MessageId)
      (executions : List (RouterCommand × Except GatewayError Unit)) :
      CoreStep core [⟨.flushed messageId executions, core⟩] core
  | released {core : GatewayCore maxLinks maxSeen storeCapacity} {messageId : MessageId}
      {executions : List (RouterCommand × Except GatewayError Unit)}
      {store : Store storeCapacity gatewayFrameBufferLen} (releases : Releases executions)
      (removed : core.store.remove messageId = .ok store) :
      CoreStep core [⟨.flushed messageId executions, core⟩] { core with store }

/-- Admission of a send does not depend on the duplicate filter. -/
theorem SameFrame.admits {core core' : GatewayCore maxLinks maxSeen storeCapacity}
    (h : SameFrame core core') {command : RouterCommand} (hsend : command.isSend = true)
    (hadmits : core.router.Admits command) : core'.router.Admits command := by
  cases command with
  | send linkId envelope =>
    rw [Router.Admits, h.nowMs, h.egressLinks]
    exact hadmits
  | _ => cases hsend

/-- Executing planned commands is a run of steps. -/
theorem Executes.steps {core core' : GatewayCore maxLinks maxSeen storeCapacity}
    {commands : List RouterCommand} {moments : List (Moment maxLinks maxSeen storeCapacity)}
    {executions : List (RouterCommand × Except GatewayError Unit)}
    (h : Executes answers core commands moments executions core')
    (hplan : core.router.AdmitsPlan commands) : Steps CoreStep core moments core' := by
  induction h with
  | nil => exact .refl _
  | cons head tail ih =>
    -- after the first command all others are sends, which stay admitted
    have hrest := ih {
      admits := fun command hmem => head.frame.admits (hplan.sends command hmem)
        (hplan.admits command (List.mem_cons_of_mem _ hmem))
      sends := fun command hmem => hplan.sends command (List.mem_of_mem_tail hmem) }
    have hhead := Steps.single (CoreStep.command (hplan.admits _ List.mem_cons_self) head)
    simpa only [List.append_assoc, List.singleton_append] using hhead.trans hrest

/-! ## Flush turns release records for the stated reasons only -/

/-- A flush fails with an error that is not recoverable. -/
theorem flushVerdict_error {executions : List (RouterCommand × Except GatewayError Unit)}
    {error : GatewayError} (h : flushVerdict executions = .error error) :
    ∃ x ∈ executions, x.2 = .error error ∧ error.isRecoverableSendFailure = false := by
  unfold flushVerdict at h
  split at h
  · rename_i found hfound
    cases h
    obtain ⟨x, hx, herror⟩ := List.exists_of_findSome?_eq_some hfound
    obtain ⟨command, outcome⟩ := x
    cases outcome with
    | ok value => cases herror
    | error error' =>
      simp only [nonrecoverable?, failure?, Option.filter] at herror
      split_ifs at herror with hrec
      cases herror
      exact ⟨_, hx, rfl, by simpa using hrec⟩
  · cases h

/-- What is no failure has succeeded. -/
theorem eq_ok_of_failure?_isNone {x : RouterCommand × Except GatewayError Unit}
    (h : (failure? x).isNone = true) : x.2 = .ok () := by
  obtain ⟨command, outcome⟩ := x
  cases outcome with
  | ok value => rfl
  | error error => cases h

/-- A verdict to go on means that the executions of a stored plan release the record. -/
theorem releases_of_flushVerdict {core core' : GatewayCore maxLinks maxSeen storeCapacity}
    {envelope : HyfEnvelopeRef} {moments : List (Moment maxLinks maxSeen storeCapacity)}
    {executions : List (RouterCommand × Except GatewayError Unit)}
    (hexecutes : Executes answers core (core.router.planStored envelope) moments executions core')
    (hvalid : ValidEnvelope envelope) (hnonempty : core.router.planStored envelope ≠ [])
    (hverdict : flushVerdict executions = .ok true) : Releases executions := by
  have hcommands := hexecutes.map_fst
  have hsome : executions ≠ [] := by
    rintro rfl
    exact hnonempty hcommands.symm
  unfold flushVerdict at hverdict
  split at hverdict
  · cases hverdict
  rw [Except.ok.injEq, Bool.and_eq_true, Bool.or_eq_true, List.all_eq_true, List.any_eq_true,
    List.isEmpty_iff, or_iff_right hsome] at hverdict
  obtain ⟨hall, x, hx, hsuccess⟩ := hverdict
  by_cases hsend : ∃ y ∈ executions, y.1.isSend = true
  · refine .inl ⟨hsend, fun y hy hysend => eq_ok_of_failure?_isNone ?_⟩
    simpa [hysend] using hall y hy
  · -- without sends the plan is one command, and that command succeeded
    right
    have hplanned : x.1 ∈ core.router.planStored envelope := hcommands ▸ List.mem_map_of_mem hx
    have hnosend : x.1.isSend = false := by
      simpa using fun h => hsend ⟨x, hx, h⟩
    have hok : x.2 = .ok () := eq_ok_of_failure?_isNone (by simpa [hnosend] using hsuccess)
    have hsingle : executions = [x] := by
      cases executions with
      | nil => exact absurd rfl hsome
      | cons head rest =>
        have hrest : rest = [] := by
          by_contra hne
          obtain ⟨y, hy⟩ := List.exists_mem_of_ne_nil _ hne
          have hadmits : core.router.AdmitsPlan (core.router.planStored envelope) :=
            Router.admitsPlan_planStored hvalid
          rw [← hcommands] at hadmits
          exact hsend ⟨y, List.mem_cons_of_mem _ hy, hadmits.sends y.1 (List.mem_map_of_mem hy)⟩
        subst hrest
        rw [List.mem_singleton] at hx
        rw [hx]
    obtain ⟨command, outcome⟩ := x
    cases hok
    cases Router.planned_of_mem_planStored hplanned with
    | drop reason => exact .inr ⟨_, _, hsingle⟩
    | deliverLocal fresh => exact .inl ⟨_, hsingle⟩
    | send linkId egress unexpired hops => cases hnosend

/-- A turn of the flush is a run of steps. -/
theorem Iteration.steps {core core' : GatewayCore maxLinks maxSeen storeCapacity}
    {moments : List (Moment maxLinks maxSeen storeCapacity)} {outcome : Except GatewayError Bool}
    (h : Iteration answers core moments outcome core') : Steps CoreStep core moments core' := by
  cases h with
  | empty none_pending => exact .refl _
  | crowded valid pending crowded => exact .refl _
  | idle valid pending idle => exact .refl _
  | kept valid pending executes verdict =>
    exact (executes.steps (Router.admitsPlan_planStored valid)).tail (.kept _ _ _)
  | released valid pending nonempty executes verdict removed =>
    have hstore := executes.store_eq fun command h inner => ne_store_of_mem_planStored h inner
    rw [← hstore] at removed
    exact (executes.steps (Router.admitsPlan_planStored valid)).tail
      (.released (releases_of_flushVerdict executes valid nonempty verdict) removed)

/-- A flush is a run of steps. -/
theorem Flushes.steps {core core' : GatewayCore maxLinks maxSeen storeCapacity}
    {moments : List (Moment maxLinks maxSeen storeCapacity)} {outcome : Except GatewayError Unit}
    (h : Flushes answers core moments outcome core') : Steps CoreStep core moments core' := by
  induction h with
  | stop last => exact last.steps
  | fail last => exact last.steps
  | next turn rest ih => exact turn.steps.trans ih

/-! ## Every call takes such steps -/

/-- Routing an event other than a tick: at most a link changes, then the plan is executed. -/
theorem Routes.steps {core core' : GatewayCore maxLinks maxSeen storeCapacity} {event : RouterEvent}
    {moments : List (Moment maxLinks maxSeen storeCapacity)} {outcome : Except GatewayError Unit}
    (h : Routes answers core event moments outcome core') (hevent : ∀ now, event ≠ .tick now) :
    Steps CoreStep core moments core' := by
  -- the change of the router is a link step, or there is none
  have hrouted : Steps CoreStep core [] (core.routed event) := by
    have hset : ∀ linkId up router, core.router.setLinkState linkId up = .ok router →
        Steps CoreStep core [] { core with router } := fun _ _ _ hset => .single (.link hset)
    cases event with
    | localSubmit envelope => exact .refl core
    | tick now => exact absurd rfl (hevent now)
    | link event =>
      cases event with
      | frame frame => exact .refl core
      | up linkId =>
        rw [routed, Router.handleEvent]
        cases hok : core.router.setLinkState linkId true with
        | ok router => exact hset _ _ _ hok
        | error error => exact .refl core
      | down linkId =>
        rw [routed, Router.handleEvent]
        cases hok : core.router.setLinkState linkId false with
        | ok router => exact hset _ _ _ hok
        | error error => exact .refl core
  cases h with
  | refused plan => exact hrouted
  | crowded plan_eq crowded => exact hrouted
  | executed plan_eq executes =>
    refine hrouted.trans (executes.steps ?_)
    cases event with
    | localSubmit envelope => exact Router.admitsPlan_planFor plan_eq
    | tick now => exact absurd rfl (hevent now)
    | link event =>
      have hnil : ∀ router : Router maxLinks maxSeen, router.AdmitsPlan [] :=
        fun _ => ⟨by simp, by simp⟩
      cases event with
      | frame frame =>
        simp only [Router.planEvent] at plan_eq
        split at plan_eq
        · exact Router.admitsPlan_planFor plan_eq
        · cases plan_eq
          exact Router.admitsPlan_singleton trivial
      | up linkId =>
        simp only [Router.planEvent] at plan_eq
        cases hok : core.router.setLinkState linkId true <;> rw [hok] at plan_eq <;> cases plan_eq
        exact hnil _
      | down linkId =>
        simp only [Router.planEvent] at plan_eq
        cases hok : core.router.setLinkState linkId false <;> rw [hok] at plan_eq <;> cases plan_eq
        exact hnil _

/-- A step keeps the store well formed. -/
theorem wellFormed_step {core core' : GatewayCore maxLinks maxSeen storeCapacity}
    {moments : List (Moment maxLinks maxSeen storeCapacity)} (hstore : core.store.WellFormed)
    (h : CoreStep core moments core') : core'.store.WellFormed := by
  cases h with
  | metrics metrics => exact hstore
  | link set => exact hstore
  | observe later => exact hstore.of_sublist (Store.expireBefore_sublist _ _)
  | expire => exact hstore.of_sublist (Store.expireBefore_sublist _ _)
  | kept messageId executions => exact hstore
  | released releases removed => exact hstore.of_sublist (Store.remove_sublist removed)
  | command admits step =>
    cases step with
    | put allowed accepted metrics => exact hstore.putEnvelope (Store.putEnvelope_eq_ok accepted)
    | remove accepted => exact admits.elim
    | expireBefore now metrics => exact admits.elim
    | _ => exact hstore

/-- A run of steps keeps the store well formed. -/
theorem wellFormed_steps {core core' : GatewayCore maxLinks maxSeen storeCapacity}
    {moments : List (Moment maxLinks maxSeen storeCapacity)}
    (h : Steps CoreStep core moments core') (hstore : core.store.WellFormed) :
    core'.store.WellFormed :=
  h.invariant_state (fun _ _ _ hstore hstep => wellFormed_step hstore hstep) hstore

/-- Routing an event and then flushing the store, as `submit`, `ingest_link_frame` and the recovery
of a link do. -/
inductive RoutesThenFlushes
    (answers : LinkId → List UInt8 → TimestampMs → Except GatewayError Unit → Prop)
    (core : GatewayCore maxLinks maxSeen storeCapacity) (event : RouterEvent) :
    List (Moment maxLinks maxSeen storeCapacity) → Except GatewayError Unit →
      GatewayCore maxLinks maxSeen storeCapacity → Prop
  | refused {moments : List (Moment maxLinks maxSeen storeCapacity)} {error : GatewayError}
      {core' : GatewayCore maxLinks maxSeen storeCapacity}
      (routes : Routes answers core event moments (.error error) core') :
      RoutesThenFlushes answers core event moments (.error error) core'
  | flushed {moments moments' : List (Moment maxLinks maxSeen storeCapacity)}
      {outcome : Except GatewayError Unit}
      {core' core'' : GatewayCore maxLinks maxSeen storeCapacity}
      (routes : Routes answers core event moments (.ok ()) core')
      (flushes : Flushes answers core'.expired moments' outcome core'') :
      RoutesThenFlushes answers core event (moments ++ moments') outcome core''

/-- Routing and flushing is a run of steps. -/
theorem RoutesThenFlushes.steps {core core' : GatewayCore maxLinks maxSeen storeCapacity}
    {event : RouterEvent} {moments : List (Moment maxLinks maxSeen storeCapacity)}
    {outcome : Except GatewayError Unit}
    (h : RoutesThenFlushes answers core event moments outcome core')
    (hevent : ∀ now, event ≠ .tick now) : Steps CoreStep core moments core' := by
  cases h with
  | refused routes => exact routes.steps hevent
  | flushed routes flushes =>
    refine (routes.steps hevent).trans ?_
    have hexpire := (Steps.single (CoreStep.expire _)).trans flushes.steps
    rwa [List.nil_append] at hexpire

/-- What a call does that routes an event and flushes the store. -/
theorem run_routeThenFlush [GatewayLinkExecutor E] {event : RouterEvent}
    (hevent : ∀ now, event ≠ .tick now) (world : World maxLinks maxSeen storeCapacity E)
    (hstore : world.core.store.WellFormed) :
    ∃ moments outcome core executor,
      RoutesThenFlushes (Answers E) world.core event moments outcome core ∧
      ((do routeEvent event; flushStore :
        GatewayM maxLinks maxSeen storeCapacity E Unit).run world).outcome = outcome ∧
      ((do routeEvent event; flushStore :
        GatewayM maxLinks maxSeen storeCapacity E Unit).run world).state =
          ⟨core, executor, world.log ++ moments⟩ := by
  obtain ⟨moments, outcome, core, executor, hroutes, houtcome, hstate⟩ := run_routeEvent event world
  cases hrun : (routeEvent event).run world with
  | error error state =>
    rw [hrun] at houtcome hstate
    cases houtcome
    cases hstate
    refine ⟨_, _, _, executor, .refused hroutes, ?_⟩
    simp [hrun]
  | ok value state =>
    rw [hrun] at houtcome hstate
    cases houtcome
    cases hstate
    obtain ⟨moments', outcome, core', executor', hflushes, houtcome', hstate'⟩ :=
      run_flushStore ⟨core, executor, world.log ++ moments⟩
        (wellFormed_steps (hroutes.steps hevent) hstore)
    refine ⟨_, outcome, core', executor', .flushed hroutes hflushes, ?_⟩
    simp only [EStateM.run_bind, hrun]
    rw [← List.append_assoc]
    exact ⟨houtcome', hstate'⟩

/-- The clock goes forward or stays. -/
theorem run_observeTime [GatewayLinkExecutor E] (now : TimestampMs)
    (world : World maxLinks maxSeen storeCapacity E) :
    (observeTime now).run world = if now ≤ world.core.lastNowMs then .ok () world else
      .ok () { world with
        core := world.core.observed now
        log := world.log ++
          [⟨.executed (.store (.expireBefore now)) (.ok ()), world.core.observed now⟩] } := by
  by_cases hle : now ≤ world.core.lastNowMs
  · simp [observeTime, hle]
  · rw [if_neg hle]
    simp only [observeTime, EStateM.run_bind, EStateM.run_get, if_neg hle, run_modifyCore]
    rfl

/-- A call took steps: they lead from the core before to the core after, and the log grew by what
they logged. -/
def Took {α : Type} (world : World maxLinks maxSeen storeCapacity E)
    (result : EStateM.Result GatewayError (World maxLinks maxSeen storeCapacity E) α) : Prop :=
  ∃ moments, Steps CoreStep world.core moments result.state.core ∧
    result.state.log = world.log ++ moments

/-- A result that is reached by steps took them. -/
theorem Took.of_steps {α : Type} {world : World maxLinks maxSeen storeCapacity E}
    {result : EStateM.Result GatewayError (World maxLinks maxSeen storeCapacity E) α}
    {moments : List (Moment maxLinks maxSeen storeCapacity)}
    {core : GatewayCore maxLinks maxSeen storeCapacity} {executor : E}
    (h : Steps CoreStep world.core moments core)
    (hstate : result.state = ⟨core, executor, world.log ++ moments⟩) : Took world result :=
  ⟨moments, by rwa [hstate], by rw [hstate]⟩

/-- What follows a computation is only reached when it succeeded. -/
theorem Took.bind {α β : Type} {world : World maxLinks maxSeen storeCapacity E}
    {x : GatewayM maxLinks maxSeen storeCapacity E α}
    {f : α → GatewayM maxLinks maxSeen storeCapacity E β} (hx : Took world (x.run world))
    (hf : ∀ a world', x.run world = .ok a world' → Steps CoreStep world.core
      (world'.log.drop world.log.length) world'.core → Took world' ((f a).run world')) :
    Took world ((x >>= f).run world) := by
  obtain ⟨moments, hsteps, hlog⟩ := hx
  rw [EStateM.run_bind]
  cases hrun : x.run world with
  | error error world' =>
    rw [hrun] at hsteps hlog
    exact ⟨moments, hsteps, hlog⟩
  | ok a world' =>
    rw [hrun, EStateM.Result.state_ok] at hsteps hlog
    obtain ⟨moments', hsteps', hlog'⟩ := hf a world' hrun (by rwa [hlog, List.drop_left])
    refine ⟨moments ++ moments', hsteps.trans hsteps', ?_⟩
    rw [← List.append_assoc, ← hlog]
    exact hlog'

/-- Counting takes a step. -/
theorem took_modifyMetrics (f : GatewayMetrics → GatewayMetrics)
    (world : World maxLinks maxSeen storeCapacity E) : Took world ((modifyMetrics f).run world) :=
  ⟨[], .single (.metrics _ _), by simp⟩

section

variable [GatewayLinkExecutor E]

/-- Looking at the clock takes steps. -/
theorem took_observeTime (now : TimestampMs) (world : World maxLinks maxSeen storeCapacity E) :
    Took world ((observeTime now).run world) := by
  rw [run_observeTime]
  split_ifs with hle
  · exact ⟨[], .refl _, by simp⟩
  · exact ⟨_, .single (.observe (UInt64.not_le.mp hle)), rfl⟩

/-- Routing takes steps. -/
theorem took_routeEvent {event : RouterEvent} (hevent : ∀ now, event ≠ .tick now)
    (world : World maxLinks maxSeen storeCapacity E) :
    Took world ((routeEvent event).run world) := by
  obtain ⟨moments, outcome, core, executor, hroutes, -, hstate⟩ := run_routeEvent event world
  exact .of_steps (hroutes.steps hevent) hstate

/-- Flushing takes steps. -/
theorem took_flushStore {world : World maxLinks maxSeen storeCapacity E}
    (hstore : world.core.store.WellFormed) : Took world (flushStore.run world) := by
  obtain ⟨moments, outcome, core, executor, hflushes, -, hstate⟩ := run_flushStore world hstore
  have hexpire := (Steps.single (CoreStep.expire world.core)).trans hflushes.steps
  rw [List.nil_append] at hexpire
  exact .of_steps hexpire hstate

/-- **Every call takes atomic steps**, whatever it returns. -/
theorem took_perform (op : GatewayOp) {world : World maxLinks maxSeen storeCapacity E}
    (hstore : world.core.store.WellFormed) : Took world ((perform op).run world) := by
  have hroute : ∀ {event : RouterEvent}, (∀ now, event ≠ .tick now) →
      ∀ {world : World maxLinks maxSeen storeCapacity E}, world.core.store.WellFormed →
      Took world ((do routeEvent event; flushStore :
        GatewayM maxLinks maxSeen storeCapacity E Unit).run world) := by
    intro event hevent world hstore
    exact (took_routeEvent hevent world).bind fun _ _ _ hsteps =>
      took_flushStore (wellFormed_steps hsteps hstore)
  cases op with
  | submit envelope =>
    exact (took_modifyMetrics _ world).bind fun _ _ _ hsteps =>
      hroute (by simp) (wellFormed_steps hsteps hstore)
  | ingestLinkFrame frame =>
    refine (took_modifyMetrics _ world).bind fun _ world₁ _ hsteps₁ => ?_
    have hstore₁ := wellFormed_steps hsteps₁ hstore
    exact (took_observeTime _ world₁).bind fun _ _ _ hsteps =>
      hroute (by simp) (wellFormed_steps hsteps hstore₁)
  | tick now =>
    exact (took_observeTime now world).bind fun _ _ _ hsteps =>
      took_flushStore (wellFormed_steps hsteps hstore)
  | handleLinkEvent event =>
    cases event with
    | up linkId => exact hroute (by simp) hstore
    | down linkId =>
      exact (took_routeEvent (by simp) world).bind fun _ _ _ _ => ⟨[], .refl _, by simp⟩
    | frame frame =>
      exact (took_routeEvent (by simp) world).bind fun _ _ _ _ => ⟨[], .refl _, by simp⟩

end

/-! ## Invariants of runs -/

/-- A new core has nothing stored, no links and no remembered keys. -/
theorem new_eq_ok {config : GatewayConfig maxLinks}
    {core : GatewayCore maxLinks maxSeen storeCapacity} (h : new config = .ok core) :
    config.validate = .ok () ∧ config.router.maxLinks ≤ maxLinks ∧
      config.router.maxSeenMessages ≤ maxSeen ∧ config.store.capacity ≤ storeCapacity ∧
      core = {
        config
        router := Router.new config.routerPolicy
        store := Store.new config.storePolicy
        metrics := {}
        lastNowMs := 0
        lastDeliveredMessageId := none
        lastDeliveredPayloadLen := 0 } := by
  have hcapacity : ∀ {name configured maximum},
      validateRuntimeCapacity name configured maximum = .ok () → configured ≤ maximum := by
    intro name configured maximum h
    unfold validateRuntimeCapacity at h
    split_ifs at h
    omega
  rw [new] at h
  obtain ⟨_, hvalidate, h⟩ := Except.exists_of_bind_eq_ok h
  obtain ⟨_, hlinks, h⟩ := Except.exists_of_bind_eq_ok h
  obtain ⟨_, hseen, h⟩ := Except.exists_of_bind_eq_ok h
  obtain ⟨_, hstore, h⟩ := Except.exists_of_bind_eq_ok h
  refine ⟨?_, hcapacity hlinks, hcapacity hseen, hcapacity hstore, (Except.ok.inj h).symm⟩
  cases hcheck : config.validate with
  | ok value => rfl
  | error error =>
    rw [hcheck] at hvalidate
    cases hvalidate

/-- **The invariant rule for runs.** -/
theorem Run.invariant {config : GatewayConfig maxLinks}
    {I : List (Moment maxLinks maxSeen storeCapacity) →
      GatewayCore maxLinks maxSeen storeCapacity → Prop}
    (hinit : ∀ core, new config = .ok core → I [] core)
    (hstep : ∀ log core moments core', core.store.WellFormed → I log core →
      CoreStep core moments core' → I (log ++ moments) core')
    {log : List (Moment maxLinks maxSeen storeCapacity)}
    {core : GatewayCore maxLinks maxSeen storeCapacity} (h : Run config log core) :
    core.store.WellFormed ∧ I log core := by
  induction h with
  | start new_eq =>
    obtain ⟨-, -, -, -, rfl⟩ := new_eq_ok new_eq
    exact ⟨.new _, hinit _ new_eq⟩
  | @call log core before op E _ executor ih =>
    have htook : Took ⟨core, executor, log⟩ ((perform op).run ⟨core, executor, log⟩) :=
      took_perform op ih.1
    obtain ⟨moments, hsteps, hlog⟩ := htook
    rw [hlog]
    exact hsteps.invariant (I := fun log core => core.store.WellFormed ∧ I log core)
      (fun log core moments core' hI hstep' =>
        ⟨wellFormed_step hI.1 hstep', hstep log core moments core' hI.1 hI.2 hstep'⟩) ih

/-- In every run the store is well formed. -/
theorem Run.wellFormed {config : GatewayConfig maxLinks}
    {log : List (Moment maxLinks maxSeen storeCapacity)}
    {core : GatewayCore maxLinks maxSeen storeCapacity} (h : Run config log core) :
    core.store.WellFormed :=
  (h.invariant (I := fun _ _ => True) (fun _ _ => trivial) (fun _ _ _ _ _ _ _ => trivial)).1

/-- In every reachable core the store is well formed. -/
theorem Reachable.wellFormed {core : GatewayCore maxLinks maxSeen storeCapacity}
    (h : Reachable core) : core.store.WellFormed := by
  obtain ⟨config, log, hrun⟩ := h
  exact hrun.wellFormed

/-! ## A small gateway

A node that is a member of one community, with room for two links, and two executors for it. -/

/-- The executor that accepts every frame. -/
inductive AcceptAll where
  | mk

instance : GatewayLinkExecutor AcceptAll where
  sendLinkBytes executor _ _ _ := (.ok (), executor)

/-- The executor that answers from a script, and accepts every frame after it. -/
structure Scripted where
  script : List (Except GatewayError Unit)

instance : GatewayLinkExecutor Scripted where
  sendLinkBytes executor _ _ _ := (executor.script.headD (.ok ()), ⟨executor.script.tail⟩)

/-- Two links, eight keys, four messages, and one community of its own. -/
def sampleConfig : GatewayConfig 2 where
  nodeId := ⟨fillBytes 32 1⟩
  router := ⟨2, 8⟩
  store := ⟨4, .new⟩
  links := SlotArray.empty _ _
  policy := {
    allowStoreAndForward := true
    localCommunities := (SlotArray.empty _ _).write 0 (some ⟨fillBytes 16 5⟩) }

/-- The gateway of this configuration. -/
def sampleCore : GatewayCore 2 8 4 where
  config := sampleConfig
  router := Router.new sampleConfig.routerPolicy
  store := Store.new sampleConfig.storePolicy
  metrics := {}
  lastNowMs := 0
  lastDeliveredMessageId := none
  lastDeliveredPayloadLen := 0

/-- The configuration is accepted. -/
theorem new_sampleConfig : new sampleConfig = .ok sampleCore := by
  have hvalidate : sampleConfig.validate = .ok () := by decide
  simp only [new, hvalidate, Except.mapError, bind, Except.bind]
  rfl

/-- A frame with a message to the node itself. -/
def localFrame (id : UInt8) : LinkFrameRef :=
  ⟨⟨fillBytes 16 3⟩, 0, wireBytes (sampleEnvelope id (.node ⟨fillBytes 32 1⟩) 3)⟩

/-- The world after one call with an executor that accepts everything. -/
def sampleCall (op : GatewayOp) (world : World 2 8 4 AcceptAll) : World 2 8 4 AcceptAll :=
  ((perform op).run world).state

/-- The world after some calls, the last one first. -/
def sampleCalls : List GatewayOp → World 2 8 4 AcceptAll
  | [] => ⟨sampleCore, .mk, []⟩
  | op :: ops => sampleCall op (sampleCalls ops)

/-- The calls are a run. -/
theorem run_sampleCalls (ops : List GatewayOp) :
    Run sampleConfig (sampleCalls ops).log (sampleCalls ops).core := by
  induction ops with
  | nil => exact .start new_sampleConfig
  | cons op ops ih => exact ih.call op AcceptAll .mk

/-- The world after a link came up and a message for another node was submitted. -/
def sampleWorld : World 2 8 4 AcceptAll :=
  sampleCall (.submit (sampleEnvelope 2 (.node ⟨fillBytes 32 7⟩) 3))
    (sampleCall (.handleLinkEvent (.up ⟨fillBytes 16 3⟩)) ⟨sampleCore, .mk, []⟩)

/-- The two calls are a run. -/
theorem run_sampleWorld : Run sampleConfig sampleWorld.log sampleWorld.core :=
  Run.call (Run.call (.start new_sampleConfig) (.handleLinkEvent (.up ⟨fillBytes 16 3⟩)) AcceptAll
    .mk) (.submit (sampleEnvelope 2 (.node ⟨fillBytes 32 7⟩) 3)) AcceptAll .mk

end GatewayCore

end Hyf
