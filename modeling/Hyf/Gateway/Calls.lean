import Hyf.Common.Moves
import Hyf.Gateway.Runs

/-!
# What every part of a call keeps, every call keeps

The calls of the gateway are made of few parts: a command is executed, the router is replaced by the one
that has handled an event, the clock moves, a counter is raised, expired records are removed, and a turn
of the flush loop is taken. `Parts` says of a relation between worlds that each part moves along it;
`Parts.perform_from` says that then every call does. A relation about executors or counters is so
proved for the parts only.
-/

namespace Hyf

open ByteCodec

namespace GatewayCore

variable {maxLinks maxSeen storeCapacity : ℕ} {E α β : Type}
  {R : World maxLinks maxSeen storeCapacity E → World maxLinks maxSeen storeCapacity E → Prop}

section

variable [IsPreorder _ R]

theorem moves_propagate {ε : Type} (convert : ε → GatewayError) (result : Except ε α) :
    Moves R (propagate convert result : GatewayM maxLinks maxSeen storeCapacity E α) := by
  cases result with
  | ok a => exact Moves.pure a
  | error error => exact Moves.throw (convert error)

end

variable [GatewayLinkExecutor E]

/-- The execution of a command, and the record of its outcome in the log. -/
def executeRecorded (command : RouterCommand) :
    GatewayM maxLinks maxSeen storeCapacity E (Except GatewayError Unit) := do
  let outcome ← observing (executeCommand command)
  record (.executed command outcome)
  return outcome

/-- The world after the router has taken note of a report on a link. -/
def noted (world : World maxLinks maxSeen storeCapacity E) :
    GatewayOp → World maxLinks maxSeen storeCapacity E
  | .handleLinkEvent event => { world with core := world.core.routed (.link event) }
  | _ => world

/-- The parts of which calls are made move along `R`. -/
structure Parts (maxLinks maxSeen storeCapacity : ℕ) (E : Type) [GatewayLinkExecutor E]
    (R : World maxLinks maxSeen storeCapacity E → World maxLinks maxSeen storeCapacity E → Prop) :
    Prop extends IsPreorder _ R where
  execute : ∀ command, Moves R (executeRecorded command)
  clock : ∀ (now : TimestampMs) (world : World maxLinks maxSeen storeCapacity E),
    R world { world with core := { world.core with
      lastNowMs := now, router := { world.core.router with nowMs := now } } }
  submitted : ∀ world, R world { world with core := { world.core with
    metrics := world.core.metrics.addSubmitted } }
  received : ∀ world, R world { world with core := { world.core with
    metrics := world.core.metrics.addReceived } }
  expire : ∀ world, R world { world with core := world.core.expired }
  turn : (∀ commands, Moves R (executeCommandsForFlush commands)) → Moves R flushIteration

namespace Parts

variable (parts : Parts maxLinks maxSeen storeCapacity E R)

include parts

theorem moves_executeCommandsRecord (commands : List RouterCommand) (result : CommandExecution) :
    Moves R (executeCommandsRecord commands result :
      GatewayM maxLinks maxSeen storeCapacity E CommandExecution) := by
  have := parts.toIsPreorder
  induction commands generalizing result with
  | nil => exact Moves.pure result
  | cons command rest ih =>
    have hsplit : (executeCommandsRecord (command :: rest) result :
        GatewayM maxLinks maxSeen storeCapacity E CommandExecution) =
          executeRecorded command >>= fun outcome =>
            executeCommandsRecord rest (result.add command outcome) := by
      simp only [executeCommandsRecord, executeRecorded, bind_assoc, pure_bind]
    rw [hsplit]
    exact Moves.bind (parts.execute command) fun outcome => ih _

theorem moves_executeCommands (commands : List RouterCommand) :
    Moves R (executeCommands commands : GatewayM maxLinks maxSeen storeCapacity E Unit) := by
  have := parts.toIsPreorder
  unfold executeCommands
  apply Moves.bind (parts.moves_executeCommandsRecord commands {})
  intro result
  apply Moves.ite
  · exact Moves.pure ()
  · split
    · exact Moves.throw _
    · exact Moves.pure ()

theorem moves_executeCommandsForFlush (commands : List RouterCommand) :
    Moves R (executeCommandsForFlush commands :
      GatewayM maxLinks maxSeen storeCapacity E Bool) := by
  have := parts.toIsPreorder
  unfold executeCommandsForFlush
  apply Moves.bind (parts.moves_executeCommandsRecord commands {})
  intro result
  -- the rest of the program is compiled behind a throw too
  cases result.firstNonrecoverableError with
  | some error =>
    apply Moves.bind (Moves.throw error)
    intro _
    cases result.firstError with
    | some first => exact Moves.ite (Moves.pure _) (Moves.ite (Moves.pure _)
        (Moves.ite (Moves.pure _) (Moves.throw _)))
    | none => exact Moves.ite (Moves.pure _) (Moves.ite (Moves.pure _) (Moves.pure _))
  | none =>
    cases result.firstError with
    | some first => exact Moves.ite (Moves.pure _) (Moves.ite (Moves.pure _)
        (Moves.ite (Moves.pure _) (Moves.throw _)))
    | none => exact Moves.ite (Moves.pure _) (Moves.ite (Moves.pure _) (Moves.pure _))

/-- Routing an event, from where the router has handled it. -/
theorem routeEvent_from (event : RouterEvent) (world : World maxLinks maxSeen storeCapacity E) :
    R { world with core := world.core.routed event } ((routeEvent event).run world).state := by
  have := parts.toIsPreorder
  have hmoves : Moves R (do
      let count ← propagate .router (world.core.router.handleEvent event commandBuffer).1.result
      executeCommands ((world.core.router.handleEvent event commandBuffer).1.out.take count)) :=
    Moves.bind (moves_propagate _ _) fun count => parts.moves_executeCommands _
  exact hmoves.state_related _

/-- The router stays as it is for a message. -/
theorem moves_routeEvent {event : RouterEvent}
    (hevent : ∀ router : Router maxLinks maxSeen, (router.handleEvent event commandBuffer).2 = router) :
    Moves R (routeEvent event : GatewayM maxLinks maxSeen storeCapacity E Unit) := by
  constructor
  intro world
  have hroute := parts.routeEvent_from event world
  rw [routed, hevent] at hroute
  exact hroute

theorem moves_observeTime (now : TimestampMs) :
    Moves R (observeTime now : GatewayM maxLinks maxSeen storeCapacity E Unit) := by
  have := parts.toIsPreorder
  apply Moves.bind Moves.get
  intro world
  apply Moves.ite (Moves.pure ())
  constructor
  intro world
  have hclock := parts.clock now world
  have hmoves : Moves R (do
      let count ← propagate .router
        (emit commandBuffer (.store (.expireBefore now))).result
      executeCommands ((emit commandBuffer (.store (.expireBefore now))).out.take count)) :=
    Moves.bind (moves_propagate _ _) fun count => parts.moves_executeCommands _
  exact trans_of R hclock (hmoves.state_related _)

theorem moves_flushLoop (fuel : ℕ) :
    Moves R (flushLoop fuel : GatewayM maxLinks maxSeen storeCapacity E Unit) := by
  have := parts.toIsPreorder
  induction fuel with
  | zero => exact Moves.pure ()
  | succ fuel ih =>
    apply Moves.bind (parts.turn parts.moves_executeCommandsForFlush)
    intro again
    exact Moves.ite ih (Moves.pure ())

theorem moves_flushStore :
    Moves R (flushStore : GatewayM maxLinks maxSeen storeCapacity E Unit) := by
  have := parts.toIsPreorder
  constructor
  intro world
  exact trans_of R (parts.expire world) ((parts.moves_flushLoop _).state_related _)

theorem moves_submit (envelope : HyfEnvelopeRef) :
    Moves R (submit envelope : GatewayM maxLinks maxSeen storeCapacity E Unit) := by
  have := parts.toIsPreorder
  apply Moves.bind ⟨parts.submitted⟩
  intro _
  exact Moves.bind (parts.moves_routeEvent fun _ => rfl) fun _ => parts.moves_flushStore

theorem moves_ingestLinkFrame (frame : LinkFrameRef) :
    Moves R (ingestLinkFrame frame : GatewayM maxLinks maxSeen storeCapacity E Unit) := by
  have := parts.toIsPreorder
  apply Moves.bind ⟨parts.received⟩
  intro _
  apply Moves.bind (parts.moves_observeTime frame.receivedAtMs)
  intro _
  exact Moves.bind (parts.moves_routeEvent fun _ => rfl) fun _ => parts.moves_flushStore

theorem moves_tick (now : TimestampMs) :
    Moves R (tick now : GatewayM maxLinks maxSeen storeCapacity E Unit) := by
  have := parts.toIsPreorder
  exact Moves.bind (parts.moves_observeTime now) fun _ => parts.moves_flushStore

/-- A report on a link, from where the router has taken note of it. -/
theorem handleLinkEvent_from (event : LinkEvent)
    (world : World maxLinks maxSeen storeCapacity E) :
    R { world with core := world.core.routed (.link event) }
      ((handleLinkEvent event).run world).state := by
  have := parts.toIsPreorder
  have hroute := parts.routeEvent_from (.link event) world
  unfold handleLinkEvent
  rw [EStateM.run_bind]
  cases hrun : (routeEvent (.link event)).run world with
  | error error world' =>
    rw [hrun] at hroute
    exact hroute
  | ok value world' =>
    rw [hrun] at hroute
    apply trans_of R hroute
    cases event with
    | up linkId => exact parts.moves_flushStore.state_related world'
    | _ => exact refl_of R world'

/-- **Every call moves along `R`**, from where the router has taken note of a report. -/
theorem perform_from (op : GatewayOp) (world : World maxLinks maxSeen storeCapacity E) :
    R (noted world op) ((perform op).run world).state := by
  cases op with
  | submit envelope => exact (parts.moves_submit envelope).state_related world
  | ingestLinkFrame frame => exact (parts.moves_ingestLinkFrame frame).state_related world
  | tick now => exact (parts.moves_tick now).state_related world
  | handleLinkEvent event => exact parts.handleLinkEvent_from event world

end Parts

end GatewayCore

end Hyf
