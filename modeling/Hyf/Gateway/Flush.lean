import Hyf.Gateway.Execution

/-!
# Routing and flushing

`run_routeEvent` says what routing an event does, `Iteration` what one turn of the flush loop does,
and `Flushes` is the whole loop: turns that go on, followed by one that stops or fails. Every turn
that goes on removes a record, so the loop of `flushStore` never runs out of fuel (`run_flushLoop`).
-/

namespace Hyf

namespace GatewayCore

variable {maxLinks maxSeen storeCapacity : ℕ} {E : Type}
  {answers : LinkId → List UInt8 → TimestampMs → Except GatewayError Unit → Prop}

/-! ## What commands leave alone -/

/-- Two cores with the same configuration, clock and link table. -/
structure SameFrame (core core' : GatewayCore maxLinks maxSeen storeCapacity) : Prop where
  config : core'.config = core.config
  lastNowMs : core'.lastNowMs = core.lastNowMs
  policy : core'.router.policy = core.router.policy
  nowMs : core'.router.nowMs = core.router.nowMs
  links : core'.router.links = core.router.links

/-- A core has its own frame. -/
theorem SameFrame.refl (core : GatewayCore maxLinks maxSeen storeCapacity) : SameFrame core core :=
  ⟨rfl, rfl, rfl, rfl, rfl⟩

/-- Frames that stay the same twice stay the same. -/
theorem SameFrame.trans {core core' core'' : GatewayCore maxLinks maxSeen storeCapacity}
    (h : SameFrame core core') (h' : SameFrame core' core'') : SameFrame core core'' where
  config := h'.config.trans h.config
  lastNowMs := h'.lastNowMs.trans h.lastNowMs
  policy := h'.policy.trans h.policy
  nowMs := h'.nowMs.trans h.nowMs
  links := h'.links.trans h.links

/-- The links to send on are part of the frame. -/
theorem SameFrame.egressLinks {core core' : GatewayCore maxLinks maxSeen storeCapacity}
    (h : SameFrame core core') (ingress : Option LinkId) :
    core'.router.egressLinks ingress = core.router.egressLinks ingress := by
  rw [Router.egressLinks, Router.egressLinks, h.links]

/-- A command keeps the frame. -/
theorem CommandStep.frame {core core' : GatewayCore maxLinks maxSeen storeCapacity}
    {command : RouterCommand} {moments : List (Moment maxLinks maxSeen storeCapacity)}
    {outcome : Except GatewayError Unit}
    (h : CommandStep answers core command moments outcome core') : SameFrame core core' := by
  cases h with
  | sent valid fits answer metrics => constructor <;> simp [commit]
  | put allowed accepted metrics => constructor <;> simp [commit]
  | deliverLocal envelope metrics => constructor <;> simp [commit]
  | _ => exact ⟨rfl, rfl, rfl, rfl, rfl⟩

/-- Only the store commands touch the store. -/
theorem CommandStep.store_eq {core core' : GatewayCore maxLinks maxSeen storeCapacity}
    {command : RouterCommand} {moments : List (Moment maxLinks maxSeen storeCapacity)}
    {outcome : Except GatewayError Unit}
    (h : CommandStep answers core command moments outcome core')
    (hcommand : ∀ inner, command ≠ .store inner) : core'.store = core.store := by
  cases h with
  | put allowed accepted metrics => exact absurd rfl (hcommand _)
  | remove accepted => exact absurd rfl (hcommand _)
  | expireBefore now metrics => exact absurd rfl (hcommand _)
  | _ => rfl

/-- A command that failed changed nothing but the metrics. -/
theorem CommandStep.of_error {core core' : GatewayCore maxLinks maxSeen storeCapacity}
    {command : RouterCommand} {moments : List (Moment maxLinks maxSeen storeCapacity)}
    {error : GatewayError} (h : CommandStep answers core command moments (.error error) core') :
    ∃ metrics, core' = { core with metrics } := by
  cases h with
  | sendRefused valid fits answer metrics => exact ⟨metrics, rfl⟩
  | _ => exact ⟨core.metrics, rfl⟩

/-- A key that is committed is all that committing logs. -/
theorem eq_of_mem_commitMoments {core : GatewayCore maxLinks maxSeen storeCapacity}
    {envelope : HyfEnvelopeRef} {moment : Moment maxLinks maxSeen storeCapacity}
    (h : moment ∈ core.commitMoments envelope) :
    moment = ⟨.committed (seenKeyFor envelope), core.commit envelope⟩ := by
  unfold commitMoments at h
  split_ifs at h
  · cases h
  · rwa [List.mem_singleton] at h

/-- Only a send calls the executor, with the encoding of its envelope. -/
theorem CommandStep.sends {core core' : GatewayCore maxLinks maxSeen storeCapacity}
    {command : RouterCommand} {moments : List (Moment maxLinks maxSeen storeCapacity)}
    {outcome : Except GatewayError Unit}
    (h : CommandStep answers core command moments outcome core')
    {moment : Moment maxLinks maxSeen storeCapacity} (hmem : moment ∈ moments) {linkId : LinkId}
    {bytes : List UInt8} {nowMs : TimestampMs} {answer : Except GatewayError Unit}
    (hevent : moment.event = .sendLinkBytes linkId bytes nowMs answer) :
    moment.core = core ∧ ∃ envelope, command = .send linkId envelope ∧
      bytes = wireBytes envelope := by
  have hcommit : ∀ {c : GatewayCore maxLinks maxSeen storeCapacity} {envelope},
      moment ∉ c.commitMoments envelope := by
    intro c envelope hmoment
    rw [eq_of_mem_commitMoments hmoment] at hevent
    cases hevent
  cases h with
  | sendRefused valid fits answer metrics =>
    rw [List.mem_singleton] at hmem
    subst hmem
    cases hevent
    exact ⟨rfl, _, rfl, rfl⟩
  | sent valid fits answer metrics =>
    rcases List.mem_cons.mp hmem with rfl | hmem
    · cases hevent
      exact ⟨rfl, _, rfl, rfl⟩
    · exact absurd hmem hcommit
  | put allowed accepted metrics => exact absurd hmem hcommit
  | deliverLocal envelope metrics => exact absurd hmem hcommit
  | _ => cases hmem

/-- Many commands keep it. -/
theorem Executes.frame {core core' : GatewayCore maxLinks maxSeen storeCapacity}
    {commands : List RouterCommand} {moments : List (Moment maxLinks maxSeen storeCapacity)}
    {executions : List (RouterCommand × Except GatewayError Unit)}
    (h : Executes answers core commands moments executions core') : SameFrame core core' := by
  induction h with
  | nil => exact .refl _
  | cons head tail ih => exact head.frame.trans ih

/-- Commands that store nothing keep the store. -/
theorem Executes.store_eq {core core' : GatewayCore maxLinks maxSeen storeCapacity}
    {commands : List RouterCommand} {moments : List (Moment maxLinks maxSeen storeCapacity)}
    {executions : List (RouterCommand × Except GatewayError Unit)}
    (h : Executes answers core commands moments executions core')
    (hcommands : ∀ command ∈ commands, ∀ inner, command ≠ .store inner) :
    core'.store = core.store := by
  induction h with
  | nil => rfl
  | cons head tail ih =>
    rw [ih fun command hmem => hcommands command (List.mem_cons_of_mem _ hmem),
      head.store_eq (hcommands _ List.mem_cons_self)]

/-! ## Routing an event -/

/-- The buffer has room for as many commands as the router gives. -/
@[simp] theorem length_commandBuffer : commandBuffer.length = routerCommandCapacity := by
  rw [commandBuffer, List.length_replicate]

/-- The core after the router has handled an event. -/
def routed (core : GatewayCore maxLinks maxSeen storeCapacity) (event : RouterEvent) :
    GatewayCore maxLinks maxSeen storeCapacity :=
  { core with router := (core.router.handleEvent event commandBuffer).2 }

/-- What routing an event returns: the router's error, or the verdict over the executed plan. -/
inductive Routes (answers : LinkId → List UInt8 → TimestampMs → Except GatewayError Unit → Prop)
    (core : GatewayCore maxLinks maxSeen storeCapacity) (event : RouterEvent) :
    List (Moment maxLinks maxSeen storeCapacity) → Except GatewayError Unit →
      GatewayCore maxLinks maxSeen storeCapacity → Prop
  | refused {error : RouterError} (plan : core.router.planEvent event = .error error) :
      Routes answers core event [] (.error (.router error)) (core.routed event)
  | crowded {plan : List RouterCommand} (plan_eq : core.router.planEvent event = .ok plan)
      (crowded : routerCommandCapacity < plan.length) :
      Routes answers core event []
        (.error (.router (.outputTooSmall routerCommandCapacity plan.length))) (core.routed event)
  | executed {plan : List RouterCommand}
      {moments : List (Moment maxLinks maxSeen storeCapacity)}
      {executions : List (RouterCommand × Except GatewayError Unit)}
      {core' : GatewayCore maxLinks maxSeen storeCapacity}
      (plan_eq : core.router.planEvent event = .ok plan)
      (executes : Executes answers (core.routed event) plan moments executions core') :
      Routes answers core event moments (routeVerdict executions) core'

/-- `route_event`, as its steps. -/
theorem run_routeEvent [GatewayLinkExecutor E] (event : RouterEvent)
    (world : World maxLinks maxSeen storeCapacity E) :
    ∃ moments outcome core executor, Routes (Answers E) world.core event moments outcome core ∧
      ((routeEvent event).run world).outcome = outcome ∧
      ((routeEvent event).run world).state = ⟨core, executor, world.log ++ moments⟩ := by
  have hemission := world.core.router.handleEvent_eq event commandBuffer
  have hstart : (routeEvent event).run world =
      (do let count ← propagate .router (world.core.router.handleEvent event commandBuffer).1.result
          executeCommands ((world.core.router.handleEvent event commandBuffer).1.out.take count) :
        GatewayM maxLinks maxSeen storeCapacity E Unit).run
      { world with core := world.core.routed event } := rfl
  rw [hstart, hemission]
  cases hplan : world.core.router.planEvent event with
  | error error =>
    refine ⟨_, _, _, world.executor, .refused hplan, ?_⟩
    simp [Router.writeResult]
  | ok plan =>
    by_cases hroom : plan.length ≤ commandBuffer.length
    · have hresult := (commands_writePlan hroom).1
      obtain ⟨moments, executions, core, executor, hexecutes, houtcome, hstate⟩ :=
        run_executeCommands plan { world with core := world.core.routed event }
      refine ⟨_, _, _, executor, .executed hplan hexecutes, ?_⟩
      simp only [Router.writeResult, hresult, EStateM.run_bind, run_propagate_ok,
        take_out_writePlan hroom]
      exact ⟨houtcome, hstate⟩
    · rw [length_commandBuffer, Nat.not_le] at hroom
      refine ⟨_, _, _, world.executor, .crowded hplan hroom, ?_⟩
      simp [Router.writeResult, writePlan, hroom]

/-! ## One turn of the flush loop -/

/-- One turn of the flush loop on a well-formed store: what it logs, whether the loop goes on, and
the core after it. -/
inductive Iteration (answers : LinkId → List UInt8 → TimestampMs → Except GatewayError Unit → Prop)
    (core : GatewayCore maxLinks maxSeen storeCapacity) :
    List (Moment maxLinks maxSeen storeCapacity) → Except GatewayError Bool →
      GatewayCore maxLinks maxSeen storeCapacity → Prop
  | empty (none_pending : core.store.firstPending = none) :
      Iteration answers core [] (.ok false) core
  | crowded {envelope : HyfEnvelopeRef} (valid : ValidEnvelope envelope)
      (pending : core.store.firstPending = some (recordOf envelope))
      (crowded : routerCommandCapacity < (core.router.planStored envelope).length) :
      Iteration answers core [] (.error (.router (.outputTooSmall routerCommandCapacity
        (core.router.planStored envelope).length))) core
  | idle {envelope : HyfEnvelopeRef} (valid : ValidEnvelope envelope)
      (pending : core.store.firstPending = some (recordOf envelope))
      (idle : core.router.planStored envelope = []) : Iteration answers core [] (.ok false) core
  | kept {envelope : HyfEnvelopeRef} {moments : List (Moment maxLinks maxSeen storeCapacity)}
      {executions : List (RouterCommand × Except GatewayError Unit)}
      {core' : GatewayCore maxLinks maxSeen storeCapacity} (valid : ValidEnvelope envelope)
      (pending : core.store.firstPending = some (recordOf envelope))
      (executes : Executes answers core (core.router.planStored envelope) moments executions core')
      (verdict : flushVerdict executions ≠ .ok true) :
      Iteration answers core (moments ++ [⟨.flushed envelope.messageId executions, core'⟩])
        (flushVerdict executions) core'
  | released {envelope : HyfEnvelopeRef} {moments : List (Moment maxLinks maxSeen storeCapacity)}
      {executions : List (RouterCommand × Except GatewayError Unit)}
      {core' : GatewayCore maxLinks maxSeen storeCapacity}
      {store : Store storeCapacity gatewayFrameBufferLen} (valid : ValidEnvelope envelope)
      (pending : core.store.firstPending = some (recordOf envelope))
      (nonempty : core.router.planStored envelope ≠ [])
      (executes : Executes answers core (core.router.planStored envelope) moments executions core')
      (verdict : flushVerdict executions = .ok true)
      (removed : core.store.remove envelope.messageId = .ok store) :
      Iteration answers core (moments ++ [⟨.flushed envelope.messageId executions, core'⟩])
        (.ok true) { core' with store }

/-- The commands planned for a stored message are not store commands. -/
theorem ne_store_of_mem_planStored {router : Router maxLinks maxSeen} {envelope : HyfEnvelopeRef}
    {command : RouterCommand} (h : command ∈ router.planStored envelope)
    (inner : RouterStoreCommand) : command ≠ .store inner := by
  cases Router.planned_of_mem_planStored h <;> simp

/-- A turn of the loop, as its steps. -/
theorem run_flushIteration [GatewayLinkExecutor E]
    (world : World maxLinks maxSeen storeCapacity E) (hstore : world.core.store.WellFormed) :
    ∃ moments outcome core executor, Iteration (Answers E) world.core moments outcome core ∧
      (flushIteration.run world).outcome = outcome ∧
      (flushIteration.run world).state = ⟨core, executor, world.log ++ moments⟩ := by
  cases hpending : world.core.store.firstPending with
  | none =>
    refine ⟨_, _, _, world.executor, .empty hpending, ?_⟩
    simp [flushIteration, hpending]
  | some record =>
    have hmem := Store.firstPending_mem hpending
    -- what is stored decodes, so the branch for undecodable records is never taken
    obtain ⟨envelope, hvalid, -, rfl⟩ := hstore.encodes record hmem
    have hdecode := decodeEnvelope_wireBytes hvalid
    have hforward : world.core.router.forwardStored envelope commandBuffer =
        writePlan (world.core.router.planStored envelope) commandBuffer :=
      Router.forwardStored_eq hvalid commandBuffer
    by_cases hroom : (world.core.router.planStored envelope).length ≤ commandBuffer.length
    · have hresult := (commands_writePlan hroom).1
      by_cases hidle : world.core.router.planStored envelope = []
      · refine ⟨_, _, _, world.executor, .idle hvalid hpending hidle, ?_⟩
        rw [hidle] at hresult hforward
        simp [flushIteration, hpending, hdecode, hforward, hresult]
      · have hcount : (world.core.router.planStored envelope).length ≠ 0 := by
          rwa [Ne, List.length_eq_zero_iff]
        obtain ⟨moments, executions, core, executor, hexecutes, houtcome, hstate⟩ :=
          run_executeCommandsForFlush (world.core.router.planStored envelope) world
        -- a stored message is not stored again, so its record is still there to be removed
        have hstore' : core.store = world.core.store :=
          hexecutes.store_eq fun command h inner => ne_store_of_mem_planStored h inner
        have hexecutions := hexecutes.executionsOf_moments
        cases hverdict : flushVerdict executions with
        | error error =>
          refine ⟨_, _, _, executor,
            .kept hvalid hpending hexecutes (by rw [hverdict]; exact fun h => by cases h), ?_⟩
          simp [flushIteration, hpending, hdecode, hforward, hresult, hcount,
            take_out_writePlan hroom, houtcome, hstate, hexecutions, hverdict]
        | ok released =>
          cases released with
          | false =>
            refine ⟨_, _, _, executor,
              .kept hvalid hpending hexecutes (by rw [hverdict]; exact fun h => by cases h), ?_⟩
            simp [flushIteration, hpending, hdecode, hforward, hresult, hcount,
              take_out_writePlan hroom, houtcome, hstate, hexecutions, hverdict]
          | true =>
            obtain ⟨store, hremove⟩ := Store.exists_remove_eq_ok hmem
            refine ⟨_, _, _, executor,
              .released hvalid hpending hidle hexecutes hverdict hremove, ?_⟩
            rw [recordOf_messageId] at hremove
            simp only [flushIteration, EStateM.run_bind, EStateM.run_get, hpending, recordOf_bytes,
              recordOf_messageId, hdecode, run_propagate_ok, hforward, hresult, hcount, if_false,
              take_out_writePlan hroom, EStateM.run_observing, houtcome, hstate, run_record,
              List.drop_left, hexecutions, hverdict, Bool.not_true, Bool.false_eq_true, hstore',
              hremove, run_modifyCore, EStateM.run_pure, EStateM.Result.outcome_ok,
              EStateM.Result.state_ok, List.append_assoc, and_self]
    · rw [length_commandBuffer, Nat.not_le] at hroom
      refine ⟨_, _, _, world.executor, .crowded hvalid hpending hroom, ?_⟩
      simp [flushIteration, hpending, hdecode, hforward, writePlan, hroom]

/-- A turn keeps the frame. -/
theorem Iteration.frame {core core' : GatewayCore maxLinks maxSeen storeCapacity}
    {moments : List (Moment maxLinks maxSeen storeCapacity)} {outcome : Except GatewayError Bool}
    (h : Iteration answers core moments outcome core') : SameFrame core core' := by
  cases h with
  | empty none_pending => exact .refl _
  | crowded valid pending crowded => exact .refl _
  | idle valid pending idle => exact .refl _
  | kept valid pending executes verdict => exact executes.frame
  | released valid pending nonempty executes verdict removed =>
    exact executes.frame.trans ⟨rfl, rfl, rfl, rfl, rfl⟩

/-- A turn that goes on removes one record; any other turn leaves the store alone. -/
theorem Iteration.store {core core' : GatewayCore maxLinks maxSeen storeCapacity}
    {moments : List (Moment maxLinks maxSeen storeCapacity)} {outcome : Except GatewayError Bool}
    (h : Iteration answers core moments outcome core') :
    outcome ≠ .ok true ∧ core'.store = core.store ∨
      outcome = .ok true ∧ ∃ messageId, core.store.remove messageId = .ok core'.store := by
  cases h with
  | empty none_pending => exact .inl ⟨by simp, rfl⟩
  | crowded valid pending crowded => exact .inl ⟨by simp, rfl⟩
  | idle valid pending idle => exact .inl ⟨by simp, rfl⟩
  | kept valid pending executes verdict =>
    refine .inl ⟨verdict, executes.store_eq ?_⟩
    exact fun command h inner => ne_store_of_mem_planStored h inner
  | released valid pending nonempty executes verdict removed =>
    exact .inr ⟨rfl, _, removed⟩

/-- A turn adds nothing to the store. -/
theorem Iteration.live_sublist {core core' : GatewayCore maxLinks maxSeen storeCapacity}
    {moments : List (Moment maxLinks maxSeen storeCapacity)} {outcome : Except GatewayError Bool}
    (h : Iteration answers core moments outcome core') :
    core'.store.live.Sublist core.store.live := by
  rcases h.store with ⟨-, hsame⟩ | ⟨-, messageId, hremove⟩
  · rw [hsame]
  · exact Store.remove_sublist hremove

/-- With an empty store a turn does nothing. -/
theorem Iteration.of_empty {core core' : GatewayCore maxLinks maxSeen storeCapacity}
    {moments : List (Moment maxLinks maxSeen storeCapacity)} {outcome : Except GatewayError Bool}
    (h : Iteration answers core moments outcome core') (hempty : core.store.live = []) :
    outcome = .ok false ∧ core' = core := by
  have hnone := Store.firstPending_eq_none_iff.mpr hempty
  cases h with
  | empty none_pending => exact ⟨rfl, rfl⟩
  | crowded valid pending crowded => rw [hnone] at pending; cases pending
  | idle valid pending idle => rw [hnone] at pending; cases pending
  | kept valid pending executes verdict => rw [hnone] at pending; cases pending
  | released valid pending nonempty executes verdict removed =>
    rw [hnone] at pending
    cases pending

/-! ## The flush loop -/

/-- The loop of `flush_store`: turns that go on, then one that stops or fails. -/
inductive Flushes (answers : LinkId → List UInt8 → TimestampMs → Except GatewayError Unit → Prop) :
    GatewayCore maxLinks maxSeen storeCapacity → List (Moment maxLinks maxSeen storeCapacity) →
      Except GatewayError Unit → GatewayCore maxLinks maxSeen storeCapacity → Prop
  | stop {core core' : GatewayCore maxLinks maxSeen storeCapacity}
      {moments : List (Moment maxLinks maxSeen storeCapacity)}
      (last : Iteration answers core moments (.ok false) core') :
      Flushes answers core moments (.ok ()) core'
  | fail {core core' : GatewayCore maxLinks maxSeen storeCapacity}
      {moments : List (Moment maxLinks maxSeen storeCapacity)} {error : GatewayError}
      (last : Iteration answers core moments (.error error) core') :
      Flushes answers core moments (.error error) core'
  | next {core core' core'' : GatewayCore maxLinks maxSeen storeCapacity}
      {moments moments' : List (Moment maxLinks maxSeen storeCapacity)}
      {outcome : Except GatewayError Unit}
      (turn : Iteration answers core moments (.ok true) core')
      (rest : Flushes answers core' moments' outcome core'') :
      Flushes answers core (moments ++ moments') outcome core''

/-- **The flush loop ends.** With more fuel than there are records, the loop runs until a turn stops
it or fails. -/
theorem run_flushLoop [GatewayLinkExecutor E] (fuel : ℕ)
    (world : World maxLinks maxSeen storeCapacity E) (hstore : world.core.store.WellFormed)
    (hfuel : world.core.store.len < fuel) :
    ∃ moments outcome core executor, Flushes (Answers E) world.core moments outcome core ∧
      ((flushLoop fuel).run world).outcome = outcome ∧
      ((flushLoop fuel).run world).state = ⟨core, executor, world.log ++ moments⟩ := by
  induction fuel generalizing world with
  | zero => omega
  | succ fuel ih =>
    obtain ⟨moments, outcome, core, executor, hturn, houtcome, hstate⟩ :=
      run_flushIteration world hstore
    cases hrun : flushIteration.run world with
    | error error state =>
      rw [hrun] at houtcome hstate
      cases houtcome
      cases hstate
      refine ⟨_, _, _, executor, .fail hturn, ?_⟩
      simp [flushLoop, hrun]
    | ok goesOn state =>
      rw [hrun] at houtcome hstate
      cases houtcome
      cases hstate
      cases goesOn with
      | false =>
        refine ⟨_, _, _, executor, .stop hturn, ?_⟩
        simp [flushLoop, hrun]
      | true =>
        -- one record less, so the fuel that is left is still enough
        have hlen : core.store.len < fuel := by
          rcases hturn.store with ⟨hne, -⟩ | ⟨-, messageId, hremove⟩
          · exact absurd rfl hne
          · have := Store.len_remove hremove
            omega
        obtain ⟨moments', outcome, core', executor', hrest, houtcome', hstate'⟩ :=
          ih ⟨core, executor, world.log ++ moments⟩ (hstore.of_sublist hturn.live_sublist) hlen
        refine ⟨_, outcome, core', executor', .next hturn hrest, ?_⟩
        simp only [flushLoop, EStateM.run_bind, hrun, if_true]
        rw [← List.append_assoc]
        exact ⟨houtcome', hstate'⟩

/-- The core after the expiry at the start of a flush. -/
def expired (core : GatewayCore maxLinks maxSeen storeCapacity) :
    GatewayCore maxLinks maxSeen storeCapacity :=
  { core with
    store := (core.store.expireBefore core.lastNowMs).2
    metrics := core.metrics.addExpired (core.store.expireBefore core.lastNowMs).1 }

/-- Expiry keeps the frame. -/
theorem SameFrame.expired (core : GatewayCore maxLinks maxSeen storeCapacity) :
    SameFrame core core.expired :=
  ⟨rfl, rfl, rfl, rfl, rfl⟩

/-- `flush_store`, as its turns. -/
theorem run_flushStore [GatewayLinkExecutor E] (world : World maxLinks maxSeen storeCapacity E)
    (hstore : world.core.store.WellFormed) :
    ∃ moments outcome core executor, Flushes (Answers E) world.core.expired moments outcome core ∧
      (flushStore.run world).outcome = outcome ∧
      (flushStore.run world).state = ⟨core, executor, world.log ++ moments⟩ := by
  have hexpired : world.core.expired.store.WellFormed :=
    hstore.of_sublist (Store.expireBefore_sublist _ _)
  exact run_flushLoop (world.core.expired.store.len + 1) { world with core := world.core.expired }
    hexpired (Nat.lt_succ_self _)

/-- A flush keeps the frame. -/
theorem Flushes.frame {core core' : GatewayCore maxLinks maxSeen storeCapacity}
    {moments : List (Moment maxLinks maxSeen storeCapacity)} {outcome : Except GatewayError Unit}
    (h : Flushes answers core moments outcome core') : SameFrame core core' := by
  induction h with
  | stop last => exact last.frame
  | fail last => exact last.frame
  | next turn rest ih => exact turn.frame.trans ih

/-- A flush adds nothing to the store. -/
theorem Flushes.live_sublist {core core' : GatewayCore maxLinks maxSeen storeCapacity}
    {moments : List (Moment maxLinks maxSeen storeCapacity)} {outcome : Except GatewayError Unit}
    (h : Flushes answers core moments outcome core') :
    core'.store.live.Sublist core.store.live := by
  induction h with
  | stop last => exact last.live_sublist
  | fail last => exact last.live_sublist
  | next turn rest ih => exact ih.trans turn.live_sublist

end GatewayCore

end Hyf
