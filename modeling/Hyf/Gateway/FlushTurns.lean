import Hyf.Gateway.Runs

/-!
# The turns of the flush loop

The loop of `flush_store` has no counter. It ends because every turn that goes on removes the record
it has flushed: the store holds each id once, what it holds decodes, and none of the commands that
are executed for a stored message touches the store. `flush_terminates` counts the turns and looks at
the internal calls of each.
-/

namespace Hyf

namespace Router

variable {maxLinks maxSeen : ℕ}

/-- A stored message is delivered at most once and sent at most once on every link that is up. -/
theorem length_planStored_le (router : Router maxLinks maxSeen) (envelope : HyfEnvelopeRef) :
    (router.planStored envelope).length ≤ 1 + router.upLinkCountExcept none := by
  have hunicast : (router.planStoredUnicast envelope).length ≤ 1 := by
    rw [planStoredUnicast]
    split_ifs
    · exact le_rfl
    · exact le_rfl
    · cases (router.egressLinks none).head? <;> simp
  rw [planStored]
  split_ifs
  · simp
  · simp
  cases hdestination : envelope.destination with
  | node node =>
    dsimp only
    omega
  | foreign endpoint =>
    dsimp only
    omega
  | community communityId =>
    have := Bool.toNat_le (router.deliversCommunity envelope communityId)
    dsimp only
    rw [length_fanOut]
    omega

/-- With a link up something is always planned for a stored message. -/
theorem planStored_ne_nil {router : Router maxLinks maxSeen} (h : router.egressLinks none ≠ [])
    (envelope : HyfEnvelopeRef) : router.planStored envelope ≠ [] := by
  have hunicast : router.planStoredUnicast envelope ≠ [] := by
    rw [planStoredUnicast]
    split_ifs
    · simp
    · simp
    · simpa using h
  rw [planStored]
  split_ifs
  · simp
  · simp
  · cases hdestination : envelope.destination with
    | node node => exact hunicast
    | foreign endpoint => exact hunicast
    | community communityId => simp [fanOut, h]

/-- The links a stored message leaves on: all that are up for a community, else the first. -/
def storedEgress (router : Router maxLinks maxSeen) (destination : HyfDestination) : List LinkId :=
  match destination with
  | .community _ => router.egressLinks none
  | .node _ | .foreign _ => (router.egressLinks none).head?.toList

theorem send_mem_planStored_iff {router : Router maxLinks maxSeen} {envelope : HyfEnvelopeRef}
    {linkId : LinkId} :
    .send linkId envelope ∈ router.planStored envelope ↔
      router.nowMs < envelope.expiresAtMs ∧ envelope.hopLimit ≠ 0 ∧
        router.isLocalDestination envelope.destination = false ∧
          linkId ∈ router.storedEgress envelope.destination := by
  have hunicast : .send linkId envelope ∈ router.planStoredUnicast envelope ↔
      router.isLocalDestination envelope.destination = false ∧
        linkId ∈ (router.egressLinks none).head?.toList := by
    rw [planStoredUnicast]
    split_ifs with hlocal hseen
    · simp [hlocal]
    · simp [hlocal]
    · simp [hlocal]
  rw [planStored]
  split_ifs with hexpired hhops
  · simp [UInt64.not_lt.mpr hexpired]
  · simp [hhops]
  rw [and_iff_right (UInt64.not_le.mp hexpired), and_iff_right hhops]
  cases hdestination : envelope.destination with
  | community communityId =>
    simp only [fanOut]
    split_ifs <;> simp [isLocalDestination, storedEgress]
  | node node =>
    rw [hdestination] at hunicast
    exact hunicast
  | foreign endpoint =>
    rw [hdestination] at hunicast
    exact hunicast

end Router

namespace GatewayCore

variable {maxLinks maxSeen storeCapacity : ℕ} {E : Type} [GatewayLinkExecutor E]

/-! ## Where a flush starts -/

/-- What a call does before it flushes the store. -/
def beforeFlush : GatewayOp → GatewayM maxLinks maxSeen storeCapacity E Unit
  | .submit envelope => do
    modifyMetrics .addSubmitted
    routeEvent (.localSubmit envelope)
  | .ingestLinkFrame frame => do
    modifyMetrics .addReceived
    observeTime frame.receivedAtMs
    routeEvent (.link (.frame frame))
  | .tick now => observeTime now
  | .handleLinkEvent event => routeEvent (.link event)

/-- The calls that flush the store: all but a link that went down and a frame given as an event. -/
def GatewayOp.flushes : GatewayOp → Bool
  | .handleLinkEvent (.up _) => true
  | .handleLinkEvent _ => false
  | _ => true

theorem perform_eq_beforeFlush (op : GatewayOp) :
    (perform op : GatewayM maxLinks maxSeen storeCapacity E Unit) =
      (do beforeFlush op; if GatewayOp.flushes op then flushStore) := by
  cases op with
  | submit envelope => rfl
  | ingestLinkFrame frame => simp [perform, ingestLinkFrame, beforeFlush, GatewayOp.flushes]
  | tick now => rfl
  | handleLinkEvent event => cases event <;> rfl

theorem took_beforeFlush (op : GatewayOp) (world : World maxLinks maxSeen storeCapacity E) :
    Took world ((beforeFlush op).run world) := by
  cases op with
  | submit envelope =>
    exact (took_modifyMetrics _ world).bind fun _ _ _ _ => took_routeEvent (by simp) _
  | ingestLinkFrame frame =>
    refine (took_modifyMetrics _ world).bind fun _ world₁ _ _ => ?_
    exact (took_observeTime _ world₁).bind fun _ _ _ _ => took_routeEvent (by simp) _
  | tick now => exact took_observeTime now world
  | handleLinkEvent event => exact took_routeEvent (by simp) world

/-- The worlds in which the store may be flushed: a reachable core with any executor, and what a call
on it has made of them by the time it flushes. -/
inductive StartsFlush (config : GatewayConfig maxLinks) :
    World maxLinks maxSeen storeCapacity E → Prop
  | between {log : List (Moment maxLinks maxSeen storeCapacity)}
      {core : GatewayCore maxLinks maxSeen storeCapacity} (run : Run config log core) (executor : E) :
      StartsFlush config ⟨core, executor, log⟩
  | during {log : List (Moment maxLinks maxSeen storeCapacity)}
      {core : GatewayCore maxLinks maxSeen storeCapacity} (run : Run config log core) (executor : E)
      (op : GatewayOp) (succeeded : ((beforeFlush op).run ⟨core, executor, log⟩).outcome = .ok ()) :
      StartsFlush config ((beforeFlush op).run ⟨core, executor, log⟩).state

/-- A call that flushes the store does so from such a world, unless what it does before fails: its
result is the one of that flush. -/
theorem run_perform_flushes {config : GatewayConfig maxLinks}
    {log : List (Moment maxLinks maxSeen storeCapacity)}
    {core : GatewayCore maxLinks maxSeen storeCapacity} (run : Run config log core) (executor : E)
    {op : GatewayOp} (hflushes : GatewayOp.flushes op = true) :
    (∃ world, StartsFlush config world ∧
        (perform op).run ⟨core, executor, log⟩ = flushStore.run world) ∨
      ∃ error world, (beforeFlush op).run ⟨core, executor, log⟩ = .error error world ∧
        (perform op).run ⟨core, executor, log⟩ = .error error world := by
  rw [perform_eq_beforeFlush, if_pos hflushes]
  cases hbefore : (beforeFlush op).run ⟨core, executor, log⟩ with
  | ok u world =>
    have hstart := StartsFlush.during run executor op (congrArg EStateM.Result.outcome hbefore)
    rw [hbefore] at hstart
    exact .inl ⟨world, hstart, by rw [EStateM.run_bind, hbefore]⟩
  | error error world =>
    exact .inr ⟨error, world, rfl, by rw [EStateM.run_bind, hbefore]⟩

theorem StartsFlush.wellFormed {config : GatewayConfig maxLinks}
    {world : World maxLinks maxSeen storeCapacity E} (h : StartsFlush config world) :
    world.core.store.WellFormed := by
  cases h with
  | between run executor => exact run.wellFormed
  | @during log core run executor op succeeded =>
    obtain ⟨moments, hsteps, -⟩ := took_beforeFlush op ⟨core, executor, log⟩
    exact wellFormed_steps hsteps run.wellFormed

/-! ## The turns -/

/-- The worlds at the head of the loop, with the number of turns that went before. -/
inductive FlushHead (start : World maxLinks maxSeen storeCapacity E) :
    ℕ → World maxLinks maxSeen storeCapacity E → Prop
  | first : FlushHead start 0 { start with core := start.core.expired }
  | next {turns : ℕ} {world world' : World maxLinks maxSeen storeCapacity E}
      (head : FlushHead start turns world) (goesOn : flushIteration.run world = .ok true world') :
      FlushHead start (turns + 1) world'

/-- The internal calls of a turn succeed: what is stored decodes, it is routed without an error, and
when its commands were executed with success its record is still there to be removed. -/
def InternalCallsSucceed (world : World maxLinks maxSeen storeCapacity E) : Prop :=
  ∀ stored, world.core.store.firstPending = some stored →
    ∃ envelope, decodeEnvelope stored.bytes = .ok envelope ∧
      ∃ count, (world.core.router.forwardStored envelope commandBuffer).result = .ok count ∧
        ∀ after, (executeCommandsForFlush ((world.core.router.forwardStored envelope
            commandBuffer).out.take count)).run world = .ok true after →
          ∃ store, after.core.store.remove stored.messageId = .ok store

/-- Nothing that is executed for a stored message touches the store. -/
theorem internalCallsSucceed {world : World maxLinks maxSeen storeCapacity E}
    (hstore : world.core.store.WellFormed) (hup : world.core.router.upLinkCountExcept none ≤ 15) :
    InternalCallsSucceed world := by
  intro stored hpending
  have hmem := Store.firstPending_mem hpending
  obtain ⟨envelope, hvalid, -, rfl⟩ := hstore.encodes stored hmem
  have hroom : (world.core.router.planStored envelope).length ≤ commandBuffer.length := by
    have := world.core.router.length_planStored_le envelope
    rw [length_commandBuffer, routerCommandCapacity]
    omega
  have hforward := @Router.forwardStored_eq _ _ world.core.router envelope hvalid commandBuffer
  refine ⟨envelope, decodeEnvelope_wireBytes hvalid, _, by
    rw [hforward, (commands_writePlan hroom).1], ?_⟩
  rw [hforward, take_out_writePlan hroom]
  intro after hexecuted
  obtain ⟨moments, executions, core, executor, hexecutes, -, hstate⟩ :=
    run_executeCommandsForFlush (world.core.router.planStored envelope) world
  rw [hexecuted, EStateM.Result.state_ok] at hstate
  rw [hstate, hexecutes.store_eq fun command h inner => ne_store_of_mem_planStored h inner]
  exact Store.exists_remove_eq_ok hmem

/-- A turn that goes on leaves one record less, and the store well formed with the same links. -/
theorem flushIteration_goesOn {world world' : World maxLinks maxSeen storeCapacity E}
    (hstore : world.core.store.WellFormed) (h : flushIteration.run world = .ok true world') :
    world'.core.store.len < world.core.store.len ∧ world'.core.store.WellFormed ∧
      world'.core.router.upLinkCountExcept none = world.core.router.upLinkCountExcept none := by
  obtain ⟨moments, outcome, core, executor, hturn, houtcome, hstate⟩ :=
    run_flushIteration world hstore
  rw [h] at houtcome hstate
  cases houtcome
  cases hstate
  have hlinks : core.router.upLinkCountExcept none = world.core.router.upLinkCountExcept none := by
    rw [Router.upLinkCountExcept, hturn.frame.links, Router.upLinkCountExcept]
  obtain ⟨hne, -⟩ | ⟨-, messageId, hremove⟩ := hturn.store
  · exact absurd rfl hne
  · have hlen := Store.len_remove hremove
    refine ⟨?_, hstore.of_sublist hturn.live_sublist, hlinks⟩
    change core.store.len < world.core.store.len
    omega

/-- What holds at every head of the loop: as many records are gone as turns went before. -/
structure FlushInvariant (start : World maxLinks maxSeen storeCapacity E) (turns : ℕ)
    (world : World maxLinks maxSeen storeCapacity E) : Prop where
  wellFormed : world.core.store.WellFormed
  len_le : turns + world.core.store.len ≤ start.core.expired.store.len
  links : world.core.router.upLinkCountExcept none = start.core.router.upLinkCountExcept none

theorem FlushHead.invariant {start world : World maxLinks maxSeen storeCapacity E} {turns : ℕ}
    (hstore : start.core.store.WellFormed) (h : FlushHead start turns world) :
    FlushInvariant start turns world := by
  induction h with
  | first => exact ⟨hstore.of_sublist (Store.expireBefore_sublist _ _), by simp, rfl⟩
  | next head goesOn ih =>
    obtain ⟨hlen, hstore', hlinks⟩ := flushIteration_goesOn ih.wellFormed goesOn
    have := ih.len_le
    exact ⟨hstore', by omega, hlinks.trans ih.links⟩

/-- From every head of the loop a last turn is reached, which is what the loop returns. -/
theorem FlushHead.exists_last {start : World maxLinks maxSeen storeCapacity E} (fuel : ℕ) {turns : ℕ}
    {world : World maxLinks maxSeen storeCapacity E} (hstore : start.core.store.WellFormed)
    (h : FlushHead start turns world) (hfuel : world.core.store.len < fuel) :
    ∃ last head, FlushHead start last head ∧
      ((∃ final, flushIteration.run head = .ok false final ∧
          (flushLoop fuel).run world = .ok () final) ∨
        ∃ error final, flushIteration.run head = .error error final ∧
          (flushLoop fuel).run world = .error error final) := by
  induction fuel generalizing turns world with
  | zero => omega
  | succ fuel ih =>
    cases hrun : flushIteration.run world with
    | error error final =>
      exact ⟨turns, world, h, .inr ⟨error, final, hrun, by simp [flushLoop, hrun]⟩⟩
    | ok goesOn world' =>
      cases goesOn with
      | false => exact ⟨turns, world, h, .inl ⟨world', hrun, by simp [flushLoop, hrun]⟩⟩
      | true =>
        have hlen := (flushIteration_goesOn (h.invariant hstore).wellFormed hrun).1
        have hloop : (flushLoop (fuel + 1)).run world = (flushLoop fuel).run world' := by
          simp [flushLoop, hrun]
        rw [hloop]
        exact ih (.next h hrun) (by omega)

/-- **A flush ends and its internal calls do not fail.** With at most 15 links up, whatever the executor
answers: no more turns go on than there are records, every turn that goes on leaves fewer of them, in
every turn the internal calls succeed, and the flush returns what its last turn returns. -/
theorem flush_terminates {config : GatewayConfig maxLinks}
    {start : World maxLinks maxSeen storeCapacity E} (h : StartsFlush config start)
    (hup : start.core.router.upLinkCountExcept none ≤ 15) :
    (∀ turns world, FlushHead start turns world →
      turns ≤ start.core.expired.store.len ∧ InternalCallsSucceed world ∧
        ∀ world', flushIteration.run world = .ok true world' →
          world'.core.store.len < world.core.store.len) ∧
    ∃ turns world, FlushHead start turns world ∧
      ((∃ final, flushIteration.run world = .ok false final ∧ flushStore.run start = .ok () final) ∨
        ∃ error final, flushIteration.run world = .error error final ∧
          flushStore.run start = .error error final) := by
  have hstore := h.wellFormed
  constructor
  · intro turns world hhead
    have hinvariant := hhead.invariant hstore
    have := hinvariant.len_le
    refine ⟨by omega, internalCallsSucceed hinvariant.wellFormed (hinvariant.links ▸ hup), ?_⟩
    intro world' hrun
    exact (flushIteration_goesOn hinvariant.wellFormed hrun).1
  · exact FlushHead.first.exists_last (start.core.expired.store.len + 1) hstore (Nat.lt_succ_self _)

/-- A message was stored while no link was up. -/
def offlineWorld : World 2 8 4 AcceptAll :=
  sampleCall (.submit (sampleEnvelope 2 (.node ⟨fillBytes 32 7⟩) 3)) ⟨sampleCore, .mk, []⟩

theorem run_offlineWorld : Run sampleConfig offlineWorld.log offlineWorld.core :=
  Run.call (.start new_sampleConfig) (.submit (sampleEnvelope 2 (.node ⟨fillBytes 32 7⟩) 3))
    AcceptAll .mk

/-- A link has just come up. -/
def recoveredWorld : World 2 8 4 AcceptAll :=
  ((beforeFlush (.handleLinkEvent (.up ⟨fillBytes 16 3⟩))).run offlineWorld).state

theorem startsFlush_recoveredWorld : StartsFlush sampleConfig recoveredWorld := by
  have hrun := run_offlineWorld
  have hup : ((beforeFlush (.handleLinkEvent (.up ⟨fillBytes 16 3⟩))).run offlineWorld).outcome =
      .ok () := by decide +kernel
  rw [recoveredWorld]
  generalize offlineWorld = world at hrun hup ⊢
  exact .during hrun world.executor _ hup

/-- The stored message is sent in the first turn. -/
theorem flush_terminates_recoveredWorld : recoveredWorld.core.expired.store.len = 1 ∧
    recoveredWorld.core.router.upLinkCountExcept none = 1 ∧
    ∀ turns world, FlushHead recoveredWorld turns world → turns ≤ 1 ∧ InternalCallsSucceed world := by
  obtain ⟨hlen, hup⟩ : recoveredWorld.core.expired.store.len = 1 ∧
      recoveredWorld.core.router.upLinkCountExcept none = 1 := by decide +kernel
  refine ⟨hlen, hup, fun turns world hhead => ?_⟩
  obtain ⟨hturns, hcalls, -⟩ :=
    (flush_terminates startsFlush_recoveredWorld (by rw [hup]; decide)).1 turns world hhead
  exact ⟨hlen ▸ hturns, hcalls⟩

end GatewayCore

end Hyf
