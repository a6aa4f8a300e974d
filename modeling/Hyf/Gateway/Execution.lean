import Hyf.Gateway.Core
import Hyf.Router.RouterState
import Hyf.Router.RouterTheorems
import Hyf.Store.StoreTheorems

/-!
# What the gateway's functions do

Each function of the gateway core is described here once, by a relation between the core before, the
moments it logs, what it returns and the core after. `CommandStep` is the execution of one command
and `Executes` of a list of them. Later modules use these descriptions and never unfold the
functions.
-/

namespace Hyf

namespace GatewayCore

variable {maxLinks maxSeen storeCapacity : ℕ} {E : Type}

/-! ## Basic computations -/

/-- Recording an event adds a moment to the log. -/
@[simp] theorem run_record (event : GatewayEvent) (world : World maxLinks maxSeen storeCapacity E) :
    (record event).run world =
      .ok () { world with log := world.log ++ [⟨event, world.core⟩] } := rfl

/-- A change of the core. -/
@[simp] theorem run_modifyCore (f : GatewayCore maxLinks maxSeen storeCapacity →
    GatewayCore maxLinks maxSeen storeCapacity) (world : World maxLinks maxSeen storeCapacity E) :
    (modifyCore f).run world = .ok () { world with core := f world.core } := rfl

/-- A change of the counters. -/
@[simp] theorem run_modifyMetrics (f : GatewayMetrics → GatewayMetrics)
    (world : World maxLinks maxSeen storeCapacity E) :
    (modifyMetrics f).run world =
      .ok () { world with core := { world.core with metrics := f world.core.metrics } } := rfl

/-- A value is passed on. -/
@[simp] theorem run_propagate_ok {ε α : Type} (convert : ε → GatewayError) (a : α)
    (world : World maxLinks maxSeen storeCapacity E) :
    (propagate convert (.ok a)).run world = .ok a world := rfl

/-- An error is converted, and ends the call. -/
@[simp] theorem run_propagate_error {ε α : Type} (convert : ε → GatewayError) (error : ε)
    (world : World maxLinks maxSeen storeCapacity E) :
    (propagate convert (.error error : Except ε α)).run world = .error (convert error) world := rfl

/-! ## One command -/

/-- The core after a key was committed. -/
def commit (core : GatewayCore maxLinks maxSeen storeCapacity) (envelope : HyfEnvelopeRef) :
    GatewayCore maxLinks maxSeen storeCapacity :=
  { core with router := core.router.commitSeen envelope }

/-- What committing logs: the key, if it was not remembered already. -/
def commitMoments (core : GatewayCore maxLinks maxSeen storeCapacity) (envelope : HyfEnvelopeRef) :
    List (Moment maxLinks maxSeen storeCapacity) :=
  if core.router.hasSeen (seenKeyFor envelope) then []
  else [⟨.committed (seenKeyFor envelope), core.commit envelope⟩]

/-- Committing a key changes the router, and is logged. -/
theorem run_commitSeen (envelope : HyfEnvelopeRef)
    (world : World maxLinks maxSeen storeCapacity E) :
    (commitSeen envelope).run world = .ok () { world with
      core := world.core.commit envelope
      log := world.log ++ world.core.commitMoments envelope } := by
  by_cases hseen : world.core.router.hasSeen (seenKeyFor envelope)
  · simp [commitSeen, hseen, commitMoments, commit]
  · simp [commitSeen, hseen, commitMoments, commit]

/-- The answers an executor can give, in whatever state it is. -/
def Answers (E : Type) [GatewayLinkExecutor E] (linkId : LinkId) (bytes : List UInt8)
    (nowMs : TimestampMs) (answer : Except GatewayError Unit) : Prop :=
  ∃ executor : E, (GatewayLinkExecutor.sendLinkBytes executor linkId bytes nowMs).1 = answer

/-- The execution of one command: the moments it logs, its outcome and the core after it. -/
inductive CommandStep
    (answers : LinkId → List UInt8 → TimestampMs → Except GatewayError Unit → Prop)
    (core : GatewayCore maxLinks maxSeen storeCapacity) :
    RouterCommand → List (Moment maxLinks maxSeen storeCapacity) → Except GatewayError Unit →
      GatewayCore maxLinks maxSeen storeCapacity → Prop
  | sendUnencodable {linkId : LinkId} {envelope : HyfEnvelopeRef} {error : HyfWireError}
      (refused : encodeEnvelope envelope (List.replicate gatewayFrameBufferLen 0) = .error error) :
      CommandStep answers core (.send linkId envelope) [] (.error (.wire error)) core
  | sendRefused {linkId : LinkId} {envelope : HyfEnvelopeRef} {error : GatewayError}
      (valid : ValidEnvelope envelope)
      (fits : (wireBytes envelope).length ≤ gatewayFrameBufferLen)
      (answer : answers linkId (wireBytes envelope) envelope.createdAtMs (.error error))
      (metrics : GatewayMetrics) :
      CommandStep answers core (.send linkId envelope)
        [⟨.sendLinkBytes linkId (wireBytes envelope) envelope.createdAtMs (.error error), core⟩]
        (.error error) { core with metrics }
  | sent {linkId : LinkId} {envelope : HyfEnvelopeRef} (valid : ValidEnvelope envelope)
      (fits : (wireBytes envelope).length ≤ gatewayFrameBufferLen)
      (answer : answers linkId (wireBytes envelope) envelope.createdAtMs (.ok ()))
      (metrics : GatewayMetrics) :
      CommandStep answers core (.send linkId envelope)
        (⟨.sendLinkBytes linkId (wireBytes envelope) envelope.createdAtMs (.ok ()), core⟩ ::
          commitMoments { core with metrics } envelope)
        (.ok ()) (commit { core with metrics } envelope)
  | putRefused {envelope : HyfEnvelopeRef} {error : StoreError}
      (allowed : core.config.policy.allowStoreAndForward = true)
      (refused : core.store.putEnvelope envelope = .error error) :
      CommandStep answers core (.store (.put envelope)) [] (.error (.store error)) core
  | put {envelope : HyfEnvelopeRef} {store : Store storeCapacity gatewayFrameBufferLen}
      (allowed : core.config.policy.allowStoreAndForward = true)
      (accepted : core.store.putEnvelope envelope = .ok store) (metrics : GatewayMetrics) :
      CommandStep answers core (.store (.put envelope))
        (commitMoments { core with store, metrics } envelope)
        (.ok ()) (commit { core with store, metrics } envelope)
  | putDisabled {envelope : HyfEnvelopeRef}
      (disabled : core.config.policy.allowStoreAndForward = false) (metrics : GatewayMetrics) :
      CommandStep answers core (.store (.put envelope)) [] (.ok ()) { core with metrics }
  | removeRefused {messageId : MessageId} {error : StoreError}
      (refused : core.store.remove messageId = .error error) :
      CommandStep answers core (.store (.remove messageId)) [] (.error (.store error)) core
  | remove {messageId : MessageId} {store : Store storeCapacity gatewayFrameBufferLen}
      (accepted : core.store.remove messageId = .ok store) :
      CommandStep answers core (.store (.remove messageId)) [] (.ok ()) { core with store }
  | expireBefore (now : TimestampMs) (metrics : GatewayMetrics) :
      CommandStep answers core (.store (.expireBefore now)) [] (.ok ())
        { core with store := (core.store.expireBefore now).2, metrics }
  | drop (messageId : MessageId) (reason : DropReason) (metrics : GatewayMetrics) :
      CommandStep answers core (.drop messageId reason) [] (.ok ()) { core with metrics }
  | dropFrame (linkId : LinkId) (reason : DropReason) (metrics : GatewayMetrics) :
      CommandStep answers core (.dropFrame linkId reason) [] (.ok ()) { core with metrics }
  | deliverLocal (envelope : HyfEnvelopeRef) (metrics : GatewayMetrics) :
      CommandStep answers core (.deliverLocal envelope)
        (commitMoments { core with
          metrics
          lastDeliveredMessageId := some envelope.messageId
          lastDeliveredPayloadLen := envelope.payload.length } envelope)
        (.ok ()) (commit { core with
          metrics
          lastDeliveredMessageId := some envelope.messageId
          lastDeliveredPayloadLen := envelope.payload.length } envelope)

/-- An error of the encoder on the frame buffer, or the wire bytes of a valid envelope. -/
theorem encodeEnvelope_frame (envelope : HyfEnvelopeRef) :
    (∃ error, encodeEnvelope envelope (List.replicate gatewayFrameBufferLen 0) = .error error) ∨
      ValidEnvelope envelope ∧ (wireBytes envelope).length ≤ gatewayFrameBufferLen ∧
        ∃ frame, encodeEnvelope envelope (List.replicate gatewayFrameBufferLen 0) =
          .ok ((wireBytes envelope).length, frame) ∧
          frame.take (wireBytes envelope).length = wireBytes envelope := by
  by_cases hvalid : ValidEnvelope envelope
  · by_cases hfits : (wireBytes envelope).length ≤ gatewayFrameBufferLen
    · right
      refine ⟨hvalid, hfits, _, encodeEnvelope_eq hvalid (by rwa [List.length_replicate]), ?_⟩
      rw [List.take_left' rfl]
    · left
      exact ⟨_, encodeEnvelope_of_short hvalid (by rw [List.length_replicate]; omega)⟩
  · left
    cases hcheck : validateEnvelope envelope with
    | ok => exact absurd hcheck hvalid
    | error error =>
      refine ⟨error, ?_⟩
      simp only [encodeEnvelope, envelopeEncodedLen_of_invalid hcheck, Except.bind, Bind.bind]

section

variable [GatewayLinkExecutor E]

/-- The executor gives an answer, and changes nothing but itself. -/
theorem run_callExecutor (linkId : LinkId) (bytes : List UInt8) (nowMs : TimestampMs)
    (world : World maxLinks maxSeen storeCapacity E) :
    ∃ answer executor, Answers E linkId bytes nowMs answer ∧
      (callExecutor linkId bytes nowMs).run world = .ok answer { world with
        executor := executor
        log := world.log ++ [⟨.sendLinkBytes linkId bytes nowMs answer, world.core⟩] } := by
  exact ⟨_, _, ⟨world.executor, rfl⟩, rfl⟩

/-- `sendEnvelope` fails before or after calling the executor, or the frame was accepted. -/
theorem run_sendEnvelope (linkId : LinkId) (envelope : HyfEnvelopeRef)
    (world : World maxLinks maxSeen storeCapacity E) :
    (∃ error, encodeEnvelope envelope (List.replicate gatewayFrameBufferLen 0) = .error error ∧
        (sendEnvelope linkId envelope).run world = .error (.wire error) world) ∨
      ValidEnvelope envelope ∧ (wireBytes envelope).length ≤ gatewayFrameBufferLen ∧
        ∃ answer executor metrics,
          Answers E linkId (wireBytes envelope) envelope.createdAtMs answer ∧
          (sendEnvelope linkId envelope).run world =
            let world' : World maxLinks maxSeen storeCapacity E :=
              { core := { world.core with metrics := metrics }
                executor := executor
                log := world.log ++ [⟨.sendLinkBytes linkId (wireBytes envelope)
                  envelope.createdAtMs answer, world.core⟩] }
            match answer with
            | .ok () => .ok () world'
            | .error error => .error error world' := by
  rcases encodeEnvelope_frame envelope with
    ⟨error, hencode⟩ | ⟨hvalid, hfits, frame, hencode, hframe⟩
  · left
    refine ⟨error, hencode, ?_⟩
    simp [sendEnvelope, hencode]
  · right
    -- the frame is encoded, and what follows depends on the answer of the link
    obtain ⟨answer, executor, hanswer, hcall⟩ :=
      run_callExecutor linkId (wireBytes envelope) envelope.createdAtMs world
    cases answer with
    | ok value =>
      refine ⟨hvalid, hfits, .ok value, executor,
        world.core.metrics.addSent (wireBytes envelope).length, hanswer, ?_⟩
      simp only [sendEnvelope, hencode, EStateM.run_bind, run_propagate_ok, hframe, hcall,
        run_modifyMetrics]
    | error error =>
      refine ⟨hvalid, hfits, .error error, executor, world.core.metrics.addLinkError, hanswer, ?_⟩
      simp only [sendEnvelope, hencode, EStateM.run_bind, run_propagate_ok, hframe, hcall,
        run_modifyMetrics, EStateM.run_throw]

/-- **Executing a command is a command step.** -/
theorem executeCommand_step (command : RouterCommand)
    (world : World maxLinks maxSeen storeCapacity E) :
    ∃ moments outcome core executor,
      CommandStep (Answers E) world.core command moments outcome core ∧
      ((executeCommand command).run world).outcome = outcome ∧
      ((executeCommand command).run world).state = ⟨core, executor, world.log ++ moments⟩ := by
  cases command with
  | send linkId envelope =>
    rcases run_sendEnvelope linkId envelope world with ⟨error, hencode, hrun⟩ |
      ⟨hvalid, hfits, answer, executor, metrics, hanswer, hrun⟩
    · refine ⟨_, _, _, world.executor, .sendUnencodable hencode, ?_⟩
      simp [executeCommand, hrun]
    · cases answer with
      | error error =>
        refine ⟨_, _, _, executor, .sendRefused hvalid hfits hanswer metrics, ?_⟩
        simp [executeCommand, hrun]
      | ok value =>
        refine ⟨_, _, _, executor, .sent hvalid hfits hanswer metrics, ?_⟩
        simp [executeCommand, hrun, run_commitSeen]
  | store command =>
    cases command with
    | put envelope =>
      cases hallowed : world.core.config.policy.allowStoreAndForward with
      | false =>
        refine ⟨_, _, _, world.executor, .putDisabled hallowed world.core.metrics.addDropped, ?_⟩
        simp [executeCommand, hallowed]
      | true =>
        cases hput : world.core.store.putEnvelope envelope with
        | error error =>
          refine ⟨_, _, _, world.executor, .putRefused hallowed hput, ?_⟩
          simp [executeCommand, hallowed, hput]
        | ok store =>
          refine ⟨_, _, _, world.executor, .put hallowed hput world.core.metrics.addStored, ?_⟩
          simp [executeCommand, hallowed, hput, run_commitSeen]
    | remove messageId =>
      cases hremove : world.core.store.remove messageId with
      | error error =>
        refine ⟨_, _, _, world.executor, .removeRefused hremove, ?_⟩
        simp [executeCommand, hremove]
      | ok store =>
        refine ⟨_, _, _, world.executor, .remove hremove, ?_⟩
        simp [executeCommand, hremove]
    | expireBefore now =>
      refine ⟨_, _, _, world.executor, .expireBefore now
        (world.core.metrics.addExpired (world.core.store.expireBefore now).1), ?_⟩
      simp [executeCommand]
  | drop messageId reason =>
    refine ⟨_, _, _, world.executor, .drop messageId reason world.core.metrics.addDropped, ?_⟩
    simp [executeCommand]
  | dropFrame linkId reason =>
    refine ⟨_, _, _, world.executor, .dropFrame linkId reason world.core.metrics.addDropped, ?_⟩
    simp [executeCommand]
  | deliverLocal envelope =>
    refine ⟨_, _, _, world.executor, .deliverLocal envelope world.core.metrics.addDelivered, ?_⟩
    simp [executeCommand, run_commitSeen]

end

end GatewayCore

/-! ## The counters -/

/-- The counters after a list of executions. -/
def CommandExecution.ofExecutions
    (executions : List (RouterCommand × Except GatewayError Unit)) : CommandExecution :=
  executions.foldl (fun result execution => result.add execution.1 execution.2) {}

/-- The error of an execution. -/
def failure? (execution : RouterCommand × Except GatewayError Unit) : Option GatewayError :=
  match execution.2 with
  | .ok () => none
  | .error error => some error

/-- The error of an execution, if it is not recoverable. -/
def nonrecoverable? (execution : RouterCommand × Except GatewayError Unit) : Option GatewayError :=
  (failure? execution).filter fun error => !error.isRecoverableSendFailure

/-- One turn of the loop counts the success and the send, and keeps the first error of each kind. -/
theorem add_eq (result : CommandExecution) (command : RouterCommand)
    (outcome : Except GatewayError Unit) : result.add command outcome = {
      successes := result.successes + (failure? (command, outcome)).isNone.toNat
      plannedSends := result.plannedSends + command.isSend.toNat
      successfulSends := result.successfulSends +
        (command.isSend && (failure? (command, outcome)).isNone).toNat
      firstError := result.firstError.or (failure? (command, outcome))
      firstNonrecoverableError :=
        result.firstNonrecoverableError.or (nonrecoverable? (command, outcome)) } := by
  obtain ⟨successes, plannedSends, successfulSends, first, nonrecoverable⟩ := result
  cases outcome with
  | ok value =>
    cases hsend : command.isSend <;>
      simp [CommandExecution.add, hsend, failure?, nonrecoverable?]
  | error error =>
    -- each of the two errors is set only while it is still empty
    cases hsend : command.isSend <;> cases first <;> cases nonrecoverable <;>
      cases hrec : error.isRecoverableSendFailure <;>
      simp [CommandExecution.add, hsend, failure?, nonrecoverable?, hrec, Option.filter]

/-- Adding executions up counts the successes and keeps the first failures. -/
theorem foldl_add (executions : List (RouterCommand × Except GatewayError Unit))
    (result : CommandExecution) :
    executions.foldl (fun result execution => result.add execution.1 execution.2) result = {
      successes := result.successes + executions.countP fun x => (failure? x).isNone
      plannedSends := result.plannedSends + executions.countP fun x => x.1.isSend
      successfulSends := result.successfulSends +
        executions.countP fun x => x.1.isSend && (failure? x).isNone
      firstError := result.firstError.or (executions.findSome? failure?)
      firstNonrecoverableError :=
        result.firstNonrecoverableError.or (executions.findSome? nonrecoverable?) } := by
  -- counters add up, and the first error stays the first
  have hcount : ∀ (p : RouterCommand × Except GatewayError Unit → Bool) x rest n,
      n + (p x).toNat + List.countP p rest = n + List.countP p (x :: rest) := by
    intro p x rest n
    rw [List.countP_cons]
    cases p x
    · simp
    · simp
      omega
  have hfind : ∀ (f : RouterCommand × Except GatewayError Unit → Option GatewayError) x rest o,
      (Option.or o (f x)).or (List.findSome? f rest) = o.or (List.findSome? f (x :: rest)) := by
    intro f x rest o
    rw [List.findSome?_cons, Option.or_assoc]
    cases f x <;> rfl
  induction executions generalizing result with
  | nil => simp
  | cons execution rest ih =>
    rw [List.foldl_cons, ih, add_eq]
    simp only [hcount (fun x => (failure? x).isNone), hcount (fun x => x.1.isSend),
      hcount (fun x => x.1.isSend && (failure? x).isNone), hfind]

/-- The successes and the first failures of executions. -/
theorem ofExecutions_eq (executions : List (RouterCommand × Except GatewayError Unit)) :
    CommandExecution.ofExecutions executions = {
      successes := executions.countP fun x => (failure? x).isNone
      plannedSends := executions.countP fun x => x.1.isSend
      successfulSends := executions.countP fun x => x.1.isSend && (failure? x).isNone
      firstError := executions.findSome? failure?
      firstNonrecoverableError := executions.findSome? nonrecoverable? } := by
  rw [CommandExecution.ofExecutions, foldl_add]
  simp

/-- What `execute_commands` returns after these executions. -/
def routeVerdict (executions : List (RouterCommand × Except GatewayError Unit)) :
    Except GatewayError Unit :=
  if executions.any fun x => (failure? x).isNone then .ok ()
  else match executions.findSome? failure? with
    | some error => .error error
    | none => .ok ()

/-- What `execute_commands_for_flush` returns after these executions. -/
def flushVerdict (executions : List (RouterCommand × Except GatewayError Unit)) :
    Except GatewayError Bool :=
  match executions.findSome? nonrecoverable? with
  | some error => .error error
  | none => .ok ((executions.all fun x => !x.1.isSend || (failure? x).isNone) &&
      (executions.isEmpty || executions.any fun x => x.1.isSend || (failure? x).isNone))

/-- Something is counted if there is any. -/
theorem any_eq_countP_pos {α : Type} (p : α → Bool) (l : List α) :
    decide (l.countP p > 0) = l.any p := by
  rw [Bool.eq_iff_iff, decide_eq_true_eq, gt_iff_lt, List.countP_pos_iff, List.any_eq_true]

/-- A routed event succeeds if a command did, or if there was none. -/
theorem routeVerdict_eq (executions : List (RouterCommand × Except GatewayError Unit)) :
    routeVerdict executions =
      if (CommandExecution.ofExecutions executions).successes > 0 || executions.isEmpty then .ok ()
      else match (CommandExecution.ofExecutions executions).firstError with
        | some error => .error error
        | none => .ok () := by
  rw [ofExecutions_eq, any_eq_countP_pos, routeVerdict]
  cases executions with
  | nil => rfl
  | cons execution rest => simp only [List.isEmpty_cons, Bool.or_false]

/-- The two counters agree exactly when every counted element passes. -/
theorem countP_and_beq_countP {α : Type} (p q : α → Bool) (l : List α) :
    ((l.countP fun x => p x && q x) == l.countP p) = l.all fun x => !p x || q x := by
  have hfilter : (l.countP fun x => p x && q x) = (l.filter p).countP q := by
    rw [List.countP_filter]
    exact List.countP_congr fun x _ => by rw [Bool.and_comm]
  rw [Bool.eq_iff_iff, beq_iff_eq, hfilter, List.countP_eq_length_filter (p := p),
    List.countP_eq_length]
  simp only [List.mem_filter, List.all_eq_true, Bool.or_eq_true, Bool.not_eq_true']
  constructor
  · intro h x hx
    by_cases hp : p x
    · exact .inr (h x ⟨hx, hp⟩)
    · exact .inl (by simpa using hp)
  · rintro h x ⟨hx, hp⟩
    rcases h x hx with hnot | hq
    · rw [hp] at hnot
      cases hnot
    · exact hq

/-- A flushed record fails with the first failure that is not recoverable. -/
theorem flushVerdict_eq (executions : List (RouterCommand × Except GatewayError Unit)) :
    flushVerdict executions =
      match (CommandExecution.ofExecutions executions).firstNonrecoverableError with
      | some error => .error error
      | none =>
        if (CommandExecution.ofExecutions executions).plannedSends > 0 then
          .ok ((CommandExecution.ofExecutions executions).successfulSends ==
            (CommandExecution.ofExecutions executions).plannedSends)
        else if (CommandExecution.ofExecutions executions).successes > 0 ||
            executions.isEmpty then .ok true
        else match (CommandExecution.ofExecutions executions).firstError with
          | some error => if error.isRecoverableSendFailure then .ok false else .error error
          | none => .ok true := by
  rw [ofExecutions_eq, any_eq_countP_pos, countP_and_beq_countP, flushVerdict]
  cases hnon : executions.findSome? nonrecoverable? with
  | some error => rfl
  | none =>
    simp only
    by_cases hsends : executions.countP (fun x => x.1.isSend) > 0
    · obtain ⟨x, hx, hsend⟩ := List.countP_pos_iff.mp hsends
      have hany : (executions.any fun x => x.1.isSend || (failure? x).isNone) = true :=
        List.any_eq_true.mpr ⟨x, hx, by rw [hsend]; rfl⟩
      rw [if_pos hsends, hany, Bool.or_true, Bool.and_true]
    · -- without sends only the successes count
      have hnosend : ∀ x ∈ executions, x.1.isSend = false := by
        intro x hx
        by_contra hsend
        exact hsends (List.countP_pos_iff.mpr ⟨x, hx, by simpa using hsend⟩)
      have hall : (executions.all fun x => !x.1.isSend || (failure? x).isNone) = true :=
        List.all_eq_true.mpr fun x hx => by rw [hnosend x hx]; rfl
      have hany : (executions.any fun x => x.1.isSend || (failure? x).isNone) =
          executions.any fun x => (failure? x).isNone := by
        rw [Bool.eq_iff_iff, List.any_eq_true, List.any_eq_true]
        refine exists_congr fun x => and_congr_right fun hx => ?_
        rw [hnosend x hx, Bool.false_or]
      rw [if_neg hsends, hall, hany, Bool.true_and, Bool.or_comm]
      split_ifs with hsuccess
      · rw [hsuccess]
      · cases hfirst : executions.findSome? failure? with
        | none =>
          -- an execution that is no success has an error
          rw [Bool.not_eq_true, Bool.or_eq_false_iff] at hsuccess
          obtain ⟨x, hx⟩ := List.exists_mem_of_ne_nil executions (by simpa using hsuccess.2)
          have hok := List.findSome?_eq_none_iff.mp hfirst x hx
          have hfail := List.any_eq_false.mp hsuccess.1 x hx
          rw [hok] at hfail
          exact absurd rfl hfail
        | some error =>
          obtain ⟨x, hx, herror⟩ := List.exists_of_findSome?_eq_some hfirst
          have hrecoverable : error.isRecoverableSendFailure = true := by
            have := List.findSome?_eq_none_iff.mp hnon x hx
            simpa [nonrecoverable?, herror, Option.filter] using this
          rw [Bool.not_eq_true] at hsuccess
          simp only [hsuccess, hrecoverable, if_true]

namespace GatewayCore

variable {maxLinks maxSeen storeCapacity : ℕ} {E : Type}

/-! ## Several commands -/

/-- The execution of a list of commands, one after the other. -/
inductive Executes
    (answers : LinkId → List UInt8 → TimestampMs → Except GatewayError Unit → Prop) :
    GatewayCore maxLinks maxSeen storeCapacity → List RouterCommand →
      List (Moment maxLinks maxSeen storeCapacity) →
      List (RouterCommand × Except GatewayError Unit) →
      GatewayCore maxLinks maxSeen storeCapacity → Prop
  | nil (core : GatewayCore maxLinks maxSeen storeCapacity) : Executes answers core [] [] [] core
  | cons {core core' core'' : GatewayCore maxLinks maxSeen storeCapacity} {command : RouterCommand}
      {rest : List RouterCommand} {moments moments' : List (Moment maxLinks maxSeen storeCapacity)}
      {outcome : Except GatewayError Unit}
      {executions : List (RouterCommand × Except GatewayError Unit)}
      (head : CommandStep answers core command moments outcome core')
      (tail : Executes answers core' rest moments' executions core'') :
      Executes answers core (command :: rest)
        (moments ++ ⟨.executed command outcome, core'⟩ :: moments')
        ((command, outcome) :: executions) core''

/-- Committing executes nothing. -/
theorem executionsOf_commitMoments (core : GatewayCore maxLinks maxSeen storeCapacity)
    (envelope : HyfEnvelopeRef) : executionsOf (core.commitMoments envelope) = [] := by
  unfold commitMoments
  split_ifs <;> rfl

/-- Within one command no other is executed. -/
theorem CommandStep.executionsOf_moments
    {answers : LinkId → List UInt8 → TimestampMs → Except GatewayError Unit → Prop}
    {core core' : GatewayCore maxLinks maxSeen storeCapacity} {command : RouterCommand}
    {moments : List (Moment maxLinks maxSeen storeCapacity)} {outcome : Except GatewayError Unit}
    (h : CommandStep answers core command moments outcome core') : executionsOf moments = [] := by
  cases h with
  | sent valid fits answer metrics => exact executionsOf_commitMoments _ _
  | put allowed accepted metrics => exact executionsOf_commitMoments _ _
  | deliverLocal envelope metrics => exact executionsOf_commitMoments _ _
  | _ => rfl

/-- The log has the executions of the commands. -/
theorem Executes.executionsOf_moments
    {answers : LinkId → List UInt8 → TimestampMs → Except GatewayError Unit → Prop}
    {core core' : GatewayCore maxLinks maxSeen storeCapacity} {commands : List RouterCommand}
    {moments : List (Moment maxLinks maxSeen storeCapacity)}
    {executions : List (RouterCommand × Except GatewayError Unit)}
    (h : Executes answers core commands moments executions core') :
    executionsOf moments = executions := by
  induction h with
  | nil => rfl
  | cons head tail ih =>
    have hhead := head.executionsOf_moments
    rw [executionsOf] at hhead ih ⊢
    rw [List.filterMap_append, hhead, List.nil_append, List.filterMap_cons, ih]
    rfl

/-- Every command is executed, in order. -/
theorem Executes.map_fst
    {answers : LinkId → List UInt8 → TimestampMs → Except GatewayError Unit → Prop}
    {core core' : GatewayCore maxLinks maxSeen storeCapacity} {commands : List RouterCommand}
    {moments : List (Moment maxLinks maxSeen storeCapacity)}
    {executions : List (RouterCommand × Except GatewayError Unit)}
    (h : Executes answers core commands moments executions core') :
    executions.map Prod.fst = commands := by
  induction h with
  | nil => rfl
  | cons head tail ih => rw [List.map_cons, ih]

section

variable [GatewayLinkExecutor E]

/-- `execute_commands_record` executes the commands and adds up what came of them. -/
theorem run_executeCommandsRecord (commands : List RouterCommand) (result : CommandExecution)
    (world : World maxLinks maxSeen storeCapacity E) :
    ∃ moments executions core executor,
      Executes (Answers E) world.core commands moments executions core ∧
      (executeCommandsRecord commands result).run world =
        .ok (executions.foldl (fun result execution => result.add execution.1 execution.2) result)
          ⟨core, executor, world.log ++ moments⟩ := by
  induction commands generalizing result world with
  | nil =>
    refine ⟨[], [], world.core, world.executor, .nil _, ?_⟩
    rw [List.append_nil]
    rfl
  | cons command rest ih =>
    obtain ⟨moments, outcome, core, executor, hstep, houtcome, hstate⟩ :=
      executeCommand_step command world
    obtain ⟨moments', executions, core', executor', hexecutes, hrun⟩ := ih
      (result.add command outcome)
      ⟨core, executor, world.log ++ moments ++ [⟨.executed command outcome, core⟩]⟩
    refine ⟨_, _, core', executor', .cons hstep hexecutes, ?_⟩
    simp only [executeCommandsRecord, EStateM.run_bind, EStateM.run_observing, houtcome, hstate,
      run_record, hrun]
    simp only [List.append_assoc, List.cons_append, List.nil_append, List.foldl_cons]

/-- **Executing the commands of a plan**, and what is returned for it. -/
theorem run_executeCommands (commands : List RouterCommand)
    (world : World maxLinks maxSeen storeCapacity E) :
    ∃ moments executions core executor,
      Executes (Answers E) world.core commands moments executions core ∧
      ((executeCommands commands).run world).outcome = routeVerdict executions ∧
      ((executeCommands commands).run world).state = ⟨core, executor, world.log ++ moments⟩ := by
  obtain ⟨moments, executions, core, executor, hexecutes, hrun⟩ :=
    run_executeCommandsRecord commands {} world
  refine ⟨moments, executions, core, executor, hexecutes, ?_⟩
  have hempty : commands.isEmpty = executions.isEmpty := by
    rw [← hexecutes.map_fst]
    simp
  change (executeCommandsRecord commands {}).run world =
    .ok (CommandExecution.ofExecutions executions) _ at hrun
  rw [routeVerdict_eq]
  simp only [executeCommands, EStateM.run_bind, hrun, hempty]
  split_ifs
  · exact ⟨rfl, rfl⟩
  · cases (CommandExecution.ofExecutions executions).firstError <;> exact ⟨rfl, rfl⟩

/-- `execute_commands_for_flush` executes the commands and judges what came of them. -/
theorem run_executeCommandsForFlush (commands : List RouterCommand)
    (world : World maxLinks maxSeen storeCapacity E) :
    ∃ moments executions core executor,
      Executes (Answers E) world.core commands moments executions core ∧
      ((executeCommandsForFlush commands).run world).outcome = flushVerdict executions ∧
      ((executeCommandsForFlush commands).run world).state =
        ⟨core, executor, world.log ++ moments⟩ := by
  obtain ⟨moments, executions, core, executor, hexecutes, hrun⟩ :=
    run_executeCommandsRecord commands {} world
  refine ⟨moments, executions, core, executor, hexecutes, ?_⟩
  have hempty : commands.isEmpty = executions.isEmpty := by
    rw [← hexecutes.map_fst]
    simp
  change (executeCommandsRecord commands {}).run world =
    .ok (CommandExecution.ofExecutions executions) _ at hrun
  rw [flushVerdict_eq]
  simp only [executeCommandsForFlush, EStateM.run_bind, hrun, hempty]
  cases (CommandExecution.ofExecutions executions).firstNonrecoverableError with
  | some error => exact ⟨rfl, rfl⟩
  | none =>
    simp only
    split_ifs
    · exact ⟨rfl, rfl⟩
    · exact ⟨rfl, rfl⟩
    · cases (CommandExecution.ofExecutions executions).firstError with
      | none => exact ⟨rfl, rfl⟩
      | some error =>
        simp only
        split_ifs <;> exact ⟨rfl, rfl⟩

end

end GatewayCore

end Hyf
