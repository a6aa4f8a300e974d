import Hyf.Gateway.Calls

/-!
# The counters of the gateway

The counters of a core say what its log says: after every run each of them is the number of the events that
it counts, or the largest counter when there were more. The records balance too: whatever was stored is
stored still, has expired or was released.
-/

namespace Hyf

/-! ## Counters that stop at the largest value -/

/-- A number as a counter shows it. -/
def saturated (n : ℕ) : UInt64 := UInt64.ofNat (min n (2 ^ 64 - 1))

/-- A saturated counter is the count, or the largest number of 64 bits. -/
theorem toNat_saturated (n : ℕ) : (saturated n).toNat = min n (2 ^ 64 - 1) := by
  rw [saturated, UInt64.toNat_ofNat', Nat.mod_eq_of_lt]
  omega

/-- Adding to a saturated counter counts further. -/
theorem saturatingAdd_saturated {n m : ℕ} (h : m < 2 ^ 64) :
    saturatingAdd (saturated n) (UInt64.ofNat m) = saturated (n + m) := by
  have hm : (UInt64.ofNat m).toNat = m := by rw [UInt64.toNat_ofNat', Nat.mod_eq_of_lt h]
  unfold saturatingAdd
  rw [← UInt64.toNat_inj, toNat_saturated, toNat_saturated, hm]
  split_ifs with hlt
  · rw [UInt64.toNat_add, toNat_saturated, hm, Nat.mod_eq_of_lt hlt]
    omega
  · rw [UInt64.toNat_ofNat', Nat.mod_eq_of_lt (by omega)]
    omega

/-- Counting one more. -/
theorem saturatingAdd_saturated_one (n : ℕ) :
    saturatingAdd (saturated n) 1 = saturated (n + 1) := @saturatingAdd_saturated n 1 (by omega)

/-! ## What the events count -/

namespace GatewayEvent

/-- Frames that a link accepted. -/
def sentCount : GatewayEvent → ℕ
  | sendLinkBytes _ _ _ (.ok ()) => 1
  | _ => 0

/-- The bytes of those frames. -/
def bytesSentCount : GatewayEvent → ℕ
  | sendLinkBytes _ bytes _ (.ok ()) => bytes.length
  | _ => 0

/-- Frames that a link refused. -/
def linkErrorCount : GatewayEvent → ℕ
  | sendLinkBytes _ _ _ (.error _) => 1
  | _ => 0

/-- Local deliveries. -/
def deliveredCount : GatewayEvent → ℕ
  | executed (.deliverLocal _) _ => 1
  | _ => 0

/-- Drops, and puts into a store that is not in use. -/
def droppedCount (allowed : Bool) : GatewayEvent → ℕ
  | executed (.drop _ _) _ => 1
  | executed (.dropFrame _ _) _ => 1
  | executed (.store (.put _)) _ => if allowed then 0 else 1
  | _ => 0

/-- Puts that the store accepted. -/
def storedCount (allowed : Bool) : GatewayEvent → ℕ
  | executed (.store (.put _)) (.ok ()) => if allowed then 1 else 0
  | _ => 0

/-- Flush turns that released their record, and removals. -/
def releasedCount : GatewayEvent → ℕ
  | executed (.store (.remove _)) (.ok ()) => 1
  | flushed _ executions => if flushVerdict executions = .ok true then 1 else 0
  | _ => 0

end GatewayEvent

section

variable {maxLinks maxSeen storeCapacity : ℕ}

/-- How much all events of a log count together. -/
def total (count : GatewayEvent → ℕ) (log : List (Moment maxLinks maxSeen storeCapacity)) : ℕ :=
  (log.map fun moment => count moment.event).sum

/-- Two logs count what their parts count. -/
@[simp] theorem total_append (count : GatewayEvent → ℕ)
    (log log' : List (Moment maxLinks maxSeen storeCapacity)) :
    total count (log ++ log') = total count log + total count log' := by
  rw [total, List.map_append, List.sum_append]
  rfl

/-- A single moment counts what its event counts. -/
@[simp] theorem total_singleton (count : GatewayEvent → ℕ)
    (moment : Moment maxLinks maxSeen storeCapacity) :
    total count [moment] = count moment.event := by
  rw [total, List.map_singleton, List.sum_singleton]

/-- Only the events are counted. -/
theorem total_congr {log log' : List (Moment maxLinks maxSeen storeCapacity)}
    (h : log'.map Moment.event = log.map Moment.event) (count : GatewayEvent → ℕ) :
    total count log' = total count log := by
  have hmap : ∀ log : List (Moment maxLinks maxSeen storeCapacity),
      total count log = ((log.map Moment.event).map count).sum := by
    intro log
    rw [List.map_map]
    rfl
  rw [hmap, hmap, h]

/-- The counters that a log accounts for, beside those of the calls and of expired records. -/
def GatewayMetrics.ofLog (submitted received : UInt64) (expired : ℕ) (allowed : Bool)
    (log : List (Moment maxLinks maxSeen storeCapacity)) : GatewayMetrics where
  submitted
  received
  sent := saturated (total GatewayEvent.sentCount log)
  stored := saturated (total (GatewayEvent.storedCount allowed) log)
  delivered := saturated (total GatewayEvent.deliveredCount log)
  dropped := saturated (total (GatewayEvent.droppedCount allowed) log)
  expired := saturated expired
  linkErrors := saturated (total GatewayEvent.linkErrorCount log)
  bytesSent := saturated (total GatewayEvent.bytesSentCount log)

end

namespace GatewayCore

variable {maxLinks maxSeen storeCapacity : ℕ} {E : Type} {allowed : Bool}
  {core : GatewayCore maxLinks maxSeen storeCapacity}
  {log : List (Moment maxLinks maxSeen storeCapacity)}

/-- The counters of the core account for the log, and its records for what was stored. -/
structure Balanced (allowed : Bool) (core : GatewayCore maxLinks maxSeen storeCapacity)
    (log : List (Moment maxLinks maxSeen storeCapacity)) : Prop where
  allowed_eq : core.config.policy.allowStoreAndForward = allowed
  wellFormed : core.store.WellFormed
  exists_expired : ∃ submitted received expired,
    core.metrics = .ofLog submitted received expired allowed log ∧
    total (GatewayEvent.storedCount allowed) log =
      core.storedLen + expired + total GatewayEvent.releasedCount log

/-- An event that no counter counts. -/
structure Uncounted (allowed : Bool) (event : GatewayEvent) : Prop where
  sent : event.sentCount = 0
  bytesSent : event.bytesSentCount = 0
  linkError : event.linkErrorCount = 0
  delivered : event.deliveredCount = 0
  dropped : event.droppedCount allowed = 0
  stored : event.storedCount allowed = 0

/-- An event that no counter counts changes none. -/
theorem Uncounted.ofLog_eq {event : GatewayEvent} (h : Uncounted allowed event)
    (submitted received : UInt64) (expired : ℕ) : GatewayMetrics.ofLog submitted received expired
      allowed (log ++ [⟨event, core⟩]) = .ofLog submitted received expired allowed log := by
  obtain ⟨hsent, hbytes, herror, hdelivered, hdropped, hstored⟩ := h
  simp only [GatewayMetrics.ofLog, total_append, total_singleton, hsent, hbytes, herror, hdelivered,
    hdropped, hstored, Nat.add_zero]

/-- Committing a key is not counted. -/
theorem uncounted_committed (key : RouterSeenKey) : Uncounted allowed (.committed key) :=
  ⟨rfl, rfl, rfl, rfl, rfl, rfl⟩

/-- A flush is not counted by itself; its executions are. -/
theorem uncounted_flushed (messageId : MessageId)
    (executions : List (RouterCommand × Except GatewayError Unit)) :
    Uncounted allowed (.flushed messageId executions) :=
  ⟨rfl, rfl, rfl, rfl, rfl, rfl⟩

/-- A send is not counted by itself. -/
theorem uncounted_send (linkId : LinkId) (envelope : HyfEnvelopeRef)
    (outcome : Except GatewayError Unit) :
    Uncounted allowed (.executed (.send linkId envelope) outcome) :=
  ⟨rfl, rfl, rfl, rfl, rfl, rfl⟩

/-! ## Commands -/

/-- One moment that no counter counts, and nothing released by it. -/
theorem Balanced.append_uncounted (h : Balanced allowed core log)
    {moment : Moment maxLinks maxSeen storeCapacity} (huncounted : Uncounted allowed moment.event)
    (hreleased : moment.event.releasedCount = 0) : Balanced allowed core (log ++ [moment]) := by
  obtain ⟨submitted, received, expired, hmetrics, hstored⟩ := h.exists_expired
  refine ⟨h.allowed_eq, h.wellFormed, submitted, received, expired, ?_, ?_⟩
  · rw [huncounted.ofLog_eq, hmetrics]
  · rw [total_append, total_append, total_singleton, total_singleton, huncounted.stored, hreleased]
    exact hstored

/-- The parts of the core that `Balanced` does not read. -/
theorem Balanced.congr {core' : GatewayCore maxLinks maxSeen storeCapacity}
    (h : Balanced allowed core log) (hconfig : core'.config = core.config)
    (hstore : core'.store = core.store) (hmetrics : core'.metrics = core.metrics) :
    Balanced allowed core' log := by
  obtain ⟨hallowed, hwellFormed, submitted, received, expired, hofLog, hstored⟩ := h
  refine ⟨hconfig ▸ hallowed, hstore ▸ hwellFormed, submitted, received, expired,
    hmetrics.trans hofLog, ?_⟩
  rw [hstored, storedLen, storedLen, hstore]

/-- Committing a key keeps the balance. -/
theorem Balanced.append_commit (h : Balanced allowed core log) (envelope : HyfEnvelopeRef) :
    Balanced allowed (core.commit envelope) (log ++ core.commitMoments envelope) := by
  have hcommit : Balanced allowed (core.commit envelope) log := h.congr rfl rfl rfl
  unfold commitMoments
  split_ifs
  · rw [List.append_nil]
    exact hcommit
  · exact hcommit.append_uncounted (uncounted_committed _) rfl

/-- The balance depends on the events only. -/
theorem Balanced.congr_log {log' : List (Moment maxLinks maxSeen storeCapacity)}
    (h : Balanced allowed core log) (hevents : log'.map Moment.event = log.map Moment.event) :
    Balanced allowed core log' := by
  obtain ⟨hallowed, hwellFormed, submitted, received, expired, hofLog, hstored⟩ := h
  refine ⟨hallowed, hwellFormed, submitted, received, expired, ?_, ?_⟩
  · rw [hofLog]
    simp only [GatewayMetrics.ofLog, total_congr hevents]
  · rw [total_congr hevents, hstored, total_congr hevents]

/-- What a commit logs does not depend on the rest of the core. -/
theorem map_event_commitMoments {core' : GatewayCore maxLinks maxSeen storeCapacity}
    (hrouter : core'.router = core.router) (envelope : HyfEnvelopeRef) :
    (core'.commitMoments envelope).map Moment.event =
      (core.commitMoments envelope).map Moment.event := by
  unfold commitMoments
  rw [hrouter]
  split_ifs <;> rfl

variable [GatewayLinkExecutor E]

/-- The recorded execution changes what the execution changes, and logs it. -/
theorem run_executeRecorded (command : RouterCommand)
    (world : World maxLinks maxSeen storeCapacity E) :
    ((executeRecorded command).run world).state =
      { ((executeCommand command).run world).state with
        log := ((executeCommand command).run world).state.log ++
          [⟨.executed command ((executeCommand command).run world).outcome,
            ((executeCommand command).run world).state.core⟩] } := by
  simp only [executeRecorded, EStateM.run_bind, EStateM.run_observing, run_record,
    EStateM.run_pure, EStateM.Result.state_ok]

/-- One moment that is counted, but stores and releases nothing. -/
theorem Balanced.append_counted (h : Balanced allowed core log) {f : GatewayMetrics → GatewayMetrics}
    {moment : Moment maxLinks maxSeen storeCapacity}
    (hcount : ∀ submitted received expired, f (.ofLog submitted received expired allowed log) =
      .ofLog submitted received expired allowed (log ++ [moment]))
    (hstored : moment.event.storedCount allowed = 0) (hreleased : moment.event.releasedCount = 0) :
    Balanced allowed { core with metrics := f core.metrics } (log ++ [moment]) := by
  obtain ⟨submitted, received, expired, hmetrics, hbalance⟩ := h.exists_expired
  refine ⟨h.allowed_eq, h.wellFormed, submitted, received, expired, ?_, ?_⟩
  · rw [← hcount, ← hmetrics]
  · rw [total_append, total_append, total_singleton, total_singleton, hstored, hreleased]
    exact hbalance

/-- A send keeps the balance, whatever the executor answers. -/
theorem balanced_executed_send {world : World maxLinks maxSeen storeCapacity E} (linkId : LinkId)
    (envelope : HyfEnvelopeRef) (h : Balanced allowed world.core world.log) :
    Balanced allowed ((executeCommand (.send linkId envelope)).run world).state.core
      ((executeCommand (.send linkId envelope)).run world).state.log := by
  obtain ⟨error, hencode⟩ | ⟨-, hfits, frame, hencode, hframe⟩ := encodeEnvelope_frame envelope
  · have hrun : (sendEnvelope linkId envelope).run world = .error (.wire error) world := by
      simp [sendEnvelope, hencode]
    simp only [executeCommand, EStateM.run_bind, hrun, EStateM.Result.state_error]
    exact h
  obtain ⟨answer, executor, -, hcall⟩ :=
    run_callExecutor linkId (wireBytes envelope) envelope.createdAtMs world
  cases answer with
  | ok value =>
    have hlen : (wireBytes envelope).length < 2 ^ 64 := lt_of_le_of_lt hfits (by decide)
    have hcounted : Balanced allowed { world.core with
        metrics := world.core.metrics.addSent (wireBytes envelope).length } (world.log ++
          [⟨.sendLinkBytes linkId (wireBytes envelope) envelope.createdAtMs (.ok value),
            world.core⟩]) := by
      refine h.append_counted (fun submitted received expired => ?_) rfl rfl
      simp [GatewayMetrics.addSent, GatewayMetrics.ofLog, saturatingAdd_saturated hlen,
        saturatingAdd_saturated_one, GatewayEvent.sentCount, GatewayEvent.bytesSentCount,
        GatewayEvent.linkErrorCount, GatewayEvent.deliveredCount, GatewayEvent.droppedCount,
        GatewayEvent.storedCount]
    have hrun : (sendEnvelope linkId envelope).run world = .ok () { world with
        core := { world.core with
          metrics := world.core.metrics.addSent (wireBytes envelope).length }
        executor
        log := world.log ++ [⟨.sendLinkBytes linkId (wireBytes envelope) envelope.createdAtMs
          (.ok value), world.core⟩] } := by
      simp only [sendEnvelope, hencode, EStateM.run_bind, run_propagate_ok, hframe, hcall,
        run_modifyMetrics]
    simp only [executeCommand, EStateM.run_bind, hrun, run_commitSeen, EStateM.Result.state_ok]
    exact hcounted.append_commit envelope
  | error error =>
    have hrun : (sendEnvelope linkId envelope).run world = .error error { world with
        core := { world.core with metrics := world.core.metrics.addLinkError }
        executor
        log := world.log ++ [⟨.sendLinkBytes linkId (wireBytes envelope) envelope.createdAtMs
          (.error error), world.core⟩] } := by
      simp only [sendEnvelope, hencode, EStateM.run_bind, run_propagate_ok, hframe, hcall,
        run_modifyMetrics, EStateM.run_throw]
    simp only [executeCommand, EStateM.run_bind, hrun, EStateM.Result.state_error]
    refine h.append_counted (fun submitted received expired => ?_) rfl rfl
    simp [GatewayMetrics.addLinkError, GatewayMetrics.ofLog, saturatingAdd_saturated_one,
      GatewayEvent.sentCount, GatewayEvent.bytesSentCount, GatewayEvent.linkErrorCount,
      GatewayEvent.deliveredCount, GatewayEvent.droppedCount, GatewayEvent.storedCount]

/-- What is left and what is removed make the length together. -/
theorem len_expireBefore {n frameMax : ℕ} (store : Store n frameMax) (now : TimestampMs) :
    (store.expireBefore now).2.len + (store.expireBefore now).1 = store.len := by
  have hcount := store.live.length_eq_length_filter_add fun record => record.expiresAtMs ≤ now
  have hkept : (store.expireBefore now).2.len =
      (store.live.filter fun record => !decide (record.expiresAtMs ≤ now)).length :=
    congrArg List.length (Store.live_expireBefore store now)
  have hexpired : (store.expireBefore now).1 =
      (store.live.filter fun record => record.expiresAtMs ≤ now).length :=
    List.countP_eq_length_filter
  rw [hkept, hexpired, Nat.add_comm]
  exact hcount.symm

/-- Expired records are counted. -/
theorem Balanced.expireBefore (h : Balanced allowed core log) (hcapacity : storeCapacity < 2 ^ 64)
    (now : TimestampMs) : Balanced allowed { core with
      store := (core.store.expireBefore now).2
      metrics := core.metrics.addExpired (core.store.expireBefore now).1 } log := by
  obtain ⟨submitted, received, expired, hmetrics, hbalance⟩ := h.exists_expired
  have hlen := len_expireBefore core.store now
  have hcount : (core.store.expireBefore now).1 < 2 ^ 64 := by
    have hle : core.store.len ≤ storeCapacity := core.store.records.length_live_le
    omega
  refine ⟨h.allowed_eq, h.wellFormed.of_sublist (Store.expireBefore_sublist _ _), submitted,
    received, expired + (core.store.expireBefore now).1, ?_, ?_⟩
  · rw [hmetrics]
    simp only [GatewayMetrics.addExpired, GatewayMetrics.ofLog, saturatingAdd_saturated hcount]
  · rw [hbalance, storedLen, storedLen]
    change _ = (core.store.expireBefore now).2.len + _ + _
    omega

/-- A record less, and what released it. -/
theorem Balanced.append_remove (h : Balanced allowed core log) {messageId : MessageId}
    {store : Store storeCapacity gatewayFrameBufferLen}
    (hremove : core.store.remove messageId = .ok store)
    {moment : Moment maxLinks maxSeen storeCapacity} (huncounted : Uncounted allowed moment.event)
    (hreleased : moment.event.releasedCount = 1) :
    Balanced allowed { core with store } (log ++ [moment]) := by
  obtain ⟨submitted, received, expired, hmetrics, hbalance⟩ := h.exists_expired
  have hlen := Store.len_remove hremove
  refine ⟨h.allowed_eq, h.wellFormed.of_sublist (Store.remove_sublist hremove), submitted, received,
    expired, ?_, ?_⟩
  · rw [huncounted.ofLog_eq]
    exact hmetrics
  · rw [total_append, total_append, total_singleton, total_singleton, huncounted.stored, hreleased,
      hbalance, storedLen]
    change _ = store.len + _ + _
    omega

/-- A record more, and its put. -/
theorem Balanced.append_put (h : Balanced true core log) {envelope : HyfEnvelopeRef}
    {store : Store storeCapacity gatewayFrameBufferLen}
    (hput : core.store.putEnvelope envelope = .ok store)
    (core' : GatewayCore maxLinks maxSeen storeCapacity) :
    Balanced true { core with store, metrics := core.metrics.addStored }
      (log ++ [⟨.executed (.store (.put envelope)) (.ok ()), core'⟩]) := by
  obtain ⟨submitted, received, expired, hmetrics, hbalance⟩ := h.exists_expired
  have hlen := (Store.putEnvelope_eq_ok hput).len_eq
  refine ⟨h.allowed_eq, h.wellFormed.putEnvelope (Store.putEnvelope_eq_ok hput), submitted, received,
    expired, ?_, ?_⟩
  · rw [hmetrics]
    simp [GatewayMetrics.addStored, GatewayMetrics.ofLog, saturatingAdd_saturated_one,
      GatewayEvent.sentCount, GatewayEvent.bytesSentCount, GatewayEvent.linkErrorCount,
      GatewayEvent.deliveredCount, GatewayEvent.droppedCount, GatewayEvent.storedCount]
  · rw [total_append, total_append, total_singleton, total_singleton, hbalance, storedLen, storedLen]
    change _ + 1 = store.len + _ + (_ + 0)
    omega

/-- A command that drops counts as one drop. -/
theorem addDropped_ofLog {moment : Moment maxLinks maxSeen storeCapacity}
    (hsent : moment.event.sentCount = 0) (hbytes : moment.event.bytesSentCount = 0)
    (herror : moment.event.linkErrorCount = 0) (hdelivered : moment.event.deliveredCount = 0)
    (hdropped : moment.event.droppedCount allowed = 1)
    (hstored : moment.event.storedCount allowed = 0) (submitted received : UInt64) (expired : ℕ) :
    (GatewayMetrics.ofLog submitted received expired allowed log).addDropped =
      .ofLog submitted received expired allowed (log ++ [moment]) := by
  simp only [GatewayMetrics.addDropped, GatewayMetrics.ofLog, saturatingAdd_saturated_one,
    total_append, total_singleton, hsent, hbytes, herror, hdelivered, hdropped, hstored, Nat.add_zero]

/-- A delivery counts one. -/
theorem addDelivered_ofLog (envelope : HyfEnvelopeRef)
    (core : GatewayCore maxLinks maxSeen storeCapacity) (submitted received : UInt64)
    (expired : ℕ) : (GatewayMetrics.ofLog submitted received expired allowed log).addDelivered =
      .ofLog submitted received expired allowed
        (log ++ [⟨.executed (.deliverLocal envelope) (.ok ()), core⟩]) := by
  simp [GatewayMetrics.addDelivered, GatewayMetrics.ofLog, saturatingAdd_saturated_one,
    GatewayEvent.sentCount, GatewayEvent.bytesSentCount, GatewayEvent.linkErrorCount,
    GatewayEvent.deliveredCount, GatewayEvent.droppedCount, GatewayEvent.storedCount]

/-- An execution keeps the balance, whichever command it is. -/
theorem balanced_executeRecorded (hcapacity : storeCapacity < 2 ^ 64) (command : RouterCommand)
    {world : World maxLinks maxSeen storeCapacity E} (h : Balanced allowed world.core world.log) :
    Balanced allowed ((executeRecorded command).run world).state.core
      ((executeRecorded command).run world).state.log := by
  rw [run_executeRecorded]
  cases command with
  | send linkId envelope =>
    exact (balanced_executed_send linkId envelope h).append_uncounted (uncounted_send _ _ _) rfl
  | drop messageId reason =>
    simp only [executeCommand, run_modifyMetrics, EStateM.Result.state_ok]
    exact h.append_counted (addDropped_ofLog rfl rfl rfl rfl rfl rfl) rfl rfl
  | dropFrame linkId reason =>
    simp only [executeCommand, run_modifyMetrics, EStateM.Result.state_ok]
    exact h.append_counted (addDropped_ofLog rfl rfl rfl rfl rfl rfl) rfl rfl
  | deliverLocal envelope =>
    have hdelivered : Balanced allowed { world.core with
        lastDeliveredMessageId := some envelope.messageId
        lastDeliveredPayloadLen := envelope.payload.length } world.log := h.congr rfl rfl rfl
    simp only [executeCommand, EStateM.run_bind, run_modifyCore, run_modifyMetrics, run_commitSeen,
      EStateM.Result.state_ok]
    have hcounted := (hdelivered.append_commit envelope).append_counted
      (addDelivered_ofLog envelope world.core) rfl rfl
    refine hcounted.congr_log ?_
    simp only [List.map_append, List.map_singleton]
    congr 2
    exact map_event_commitMoments (by rfl) envelope
  | store command =>
    cases command with
    | put envelope =>
      have hallowed := h.allowed_eq
      cases allowed with
      | false =>
        simp only [executeCommand, EStateM.run_bind, EStateM.run_get, hallowed, Bool.false_eq_true,
          if_false, run_modifyMetrics, EStateM.Result.state_ok]
        exact h.append_counted (addDropped_ofLog rfl rfl rfl rfl rfl rfl) rfl rfl
      | true =>
        simp only [executeCommand, EStateM.run_bind, EStateM.run_get, hallowed, if_true]
        cases hput : world.core.store.putEnvelope envelope with
        | error error =>
          simp only [run_propagate_error, EStateM.Result.state_error]
          exact h.append_uncounted ⟨rfl, rfl, rfl, rfl, rfl, rfl⟩ rfl
        | ok store =>
          simp only [run_propagate_ok, run_modifyCore, run_modifyMetrics, run_commitSeen,
            EStateM.Result.state_ok]
          refine ((h.append_commit envelope).append_put hput world.core).congr_log ?_
          simp only [List.map_append, List.map_singleton]
          congr 2
          exact map_event_commitMoments (by rfl) envelope
    | remove messageId =>
      simp only [executeCommand, EStateM.run_bind, EStateM.run_get]
      cases hremove : world.core.store.remove messageId with
      | error error =>
        simp only [run_propagate_error, EStateM.Result.state_error]
        exact h.append_uncounted ⟨rfl, rfl, rfl, rfl, rfl, rfl⟩ rfl
      | ok store =>
        simp only [run_propagate_ok, run_modifyCore, EStateM.Result.state_ok]
        exact h.append_remove hremove ⟨rfl, rfl, rfl, rfl, rfl, rfl⟩ rfl
    | expireBefore now =>
      simp only [executeCommand, EStateM.run_bind, EStateM.run_get, run_modifyCore,
        run_modifyMetrics, EStateM.Result.state_ok]
      exact (h.expireBefore hcapacity now).append_uncounted ⟨rfl, rfl, rfl, rfl, rfl, rfl⟩ rfl

/-! ## Every call -/

/-- The world stays balanced. -/
def KeepsBalance (allowed : Bool) (world world' : World maxLinks maxSeen storeCapacity E) : Prop :=
  Balanced allowed world.core world.log → Balanced allowed world'.core world'.log

instance : IsPreorder (World maxLinks maxSeen storeCapacity E) (KeepsBalance allowed) where
  refl _ := id
  trans _ _ _ := fun h h' hbalanced => h' (h hbalanced)

/-- A turn releases a record exactly when its verdict is to go on. -/
theorem keepsBalance_flushIteration
    (hflush : ∀ commands, Moves (KeepsBalance allowed) (executeCommandsForFlush commands :
      GatewayM maxLinks maxSeen storeCapacity E Bool)) :
    Moves (KeepsBalance allowed) (flushIteration : GatewayM maxLinks maxSeen storeCapacity E Bool) := by
  constructor
  intro world h
  change Balanced allowed (flushIteration.run world).state.core (flushIteration.run world).state.log
  cases hpending : world.core.store.firstPending with
  | none =>
    simp only [flushIteration, EStateM.run_bind, EStateM.run_get, hpending, EStateM.run_pure,
      EStateM.Result.state_ok]
    exact h
  | some record =>
    have hmem := Store.firstPending_mem hpending
    obtain ⟨envelope, hvalid, -, rfl⟩ := h.wellFormed.encodes record hmem
    have hforward : world.core.router.forwardStored envelope commandBuffer =
        writePlan (world.core.router.planStored envelope) commandBuffer :=
      Router.forwardStored_eq hvalid commandBuffer
    by_cases hroom : (world.core.router.planStored envelope).length ≤ commandBuffer.length
    swap
    · rw [length_commandBuffer, Nat.not_le] at hroom
      simpa [flushIteration, hpending, decodeEnvelope_wireBytes hvalid, hforward, writePlan,
        hroom] using h
    have hresult := (commands_writePlan hroom).1
    by_cases hidle : world.core.router.planStored envelope = []
    · rw [hidle] at hresult hforward
      simpa [flushIteration, hpending, decodeEnvelope_wireBytes hvalid, hforward, hresult] using h
    have hcount : (world.core.router.planStored envelope).length ≠ 0 := by
      rwa [Ne, List.length_eq_zero_iff]
    have hmid := (hflush (world.core.router.planStored envelope)).state_related world h
    change Balanced allowed
      ((executeCommandsForFlush (world.core.router.planStored envelope)).run world).state.core
      ((executeCommandsForFlush (world.core.router.planStored envelope)).run world).state.log at hmid
    obtain ⟨moments, executions, core, executor, hexecutes, houtcome, hstate⟩ :=
      run_executeCommandsForFlush (world.core.router.planStored envelope) world
    rw [hstate] at hmid
    have hstore : core.store = world.core.store :=
      hexecutes.store_eq fun command h inner => ne_store_of_mem_planStored h inner
    have hexecutions := hexecutes.executionsOf_moments
    have hturn : flushIteration.run world = (do
        record (.flushed envelope.messageId executions)
        if !(← propagate id (flushVerdict executions)) then
          return false
        let store ← propagate .store ((← get).core.store.remove envelope.messageId)
        modifyCore fun core => { core with store }
        return true : GatewayM maxLinks maxSeen storeCapacity E Bool).run
          ⟨core, executor, world.log ++ moments⟩ := by
      simp only [flushIteration, EStateM.run_bind, EStateM.run_get, hpending, recordOf_bytes,
        recordOf_messageId, decodeEnvelope_wireBytes hvalid, run_propagate_ok, hforward, hresult,
        hcount, if_false, take_out_writePlan hroom, EStateM.run_observing, houtcome, hstate,
        run_record, List.drop_left, hexecutions]
    rw [hturn]
    by_cases hverdict : flushVerdict executions = .ok true
    · obtain ⟨store, hremove⟩ := Store.exists_remove_eq_ok hmem
      rw [recordOf_messageId, ← hstore] at hremove
      simp only [EStateM.run_bind, EStateM.run_get, run_record, hverdict, run_propagate_ok,
        Bool.not_true, Bool.false_eq_true, if_false, hremove, run_modifyCore, EStateM.run_pure,
        EStateM.Result.state_ok]
      exact hmid.append_remove hremove (uncounted_flushed _ _) (if_pos hverdict)
    · have hkept : Balanced allowed core
          (world.log ++ moments ++ [⟨.flushed envelope.messageId executions, core⟩]) :=
        hmid.append_uncounted (uncounted_flushed _ _) (if_neg hverdict)
      cases hresult : flushVerdict executions with
      | error error => exact hkept
      | ok released =>
        cases released with
        | false => exact hkept
        | true => exact absurd hresult hverdict

/-- The parts of all calls keep the balance. -/
theorem keepsBalance_parts (hcapacity : storeCapacity < 2 ^ 64) :
    Parts maxLinks maxSeen storeCapacity E (KeepsBalance allowed) where
  execute command := ⟨fun _ h => balanced_executeRecorded hcapacity command h⟩
  clock now world h := h.congr rfl rfl rfl
  submitted world h := by
    obtain ⟨submitted, received, expired, hmetrics, hbalance⟩ := h.exists_expired
    refine ⟨h.allowed_eq, h.wellFormed, saturatingAdd submitted 1, received, expired, ?_, hbalance⟩
    rw [hmetrics]
    rfl
  received world h := by
    obtain ⟨submitted, received, expired, hmetrics, hbalance⟩ := h.exists_expired
    refine ⟨h.allowed_eq, h.wellFormed, submitted, saturatingAdd received 1, expired, ?_, hbalance⟩
    rw [hmetrics]
    rfl
  expire world h := h.expireBefore hcapacity world.core.lastNowMs
  turn := keepsBalance_flushIteration

/-- The balance holds in every run. -/
theorem balanced_of_run {config : GatewayConfig maxLinks} (hcapacity : storeCapacity < 2 ^ 64)
    (h : Run config log core) : Balanced config.policy.allowStoreAndForward core log := by
  induction h with
  | start new_eq =>
    obtain ⟨-, -, -, -, rfl⟩ := new_eq_ok new_eq
    refine ⟨rfl, .new _, 0, 0, 0, rfl, ?_⟩
    change 0 = (Store.new _ : Store storeCapacity gatewayFrameBufferLen).live.length + 0 + 0
    rw [Store.live_new]
    rfl
  | @call log core before op E _ executor ih =>
    refine (keepsBalance_parts hcapacity).perform_from op ⟨core, executor, log⟩ ?_
    cases op with
    | handleLinkEvent event => exact ih.congr rfl rfl rfl
    | _ => exact ih

/-- **The counters account for everything a gateway did.** After every run the counters are what the log
counts, up to the largest value a counter can show, and the records balance: whatever the store ever
accepted is stored still, has expired, or was released by a flush turn whose verdict was to go on. -/
theorem metrics_account {config : GatewayConfig maxLinks} (hcapacity : storeCapacity < 2 ^ 64)
    (h : Run config log core) :
    core.metrics.sent = saturated (total GatewayEvent.sentCount log) ∧
    core.metrics.bytesSent = saturated (total GatewayEvent.bytesSentCount log) ∧
    core.metrics.linkErrors = saturated (total GatewayEvent.linkErrorCount log) ∧
    core.metrics.delivered = saturated (total GatewayEvent.deliveredCount log) ∧
    core.metrics.dropped = saturated
      (total (GatewayEvent.droppedCount config.policy.allowStoreAndForward) log) ∧
    core.metrics.stored = saturated
      (total (GatewayEvent.storedCount config.policy.allowStoreAndForward) log) ∧
    ∃ expired, core.metrics.expired = saturated expired ∧
      total (GatewayEvent.storedCount config.policy.allowStoreAndForward) log =
        core.storedLen + expired + total GatewayEvent.releasedCount log := by
  obtain ⟨submitted, received, expired, hmetrics, hbalance⟩ := (balanced_of_run hcapacity h).exists_expired
  rw [hmetrics]
  exact ⟨rfl, rfl, rfl, rfl, rfl, rfl, expired, rfl, hbalance⟩

/-- The world after a message was stored, the link came up and took it, and a message to the node
itself came in twice. -/
def countedWorld : World 2 8 4 AcceptAll :=
  sampleCalls [.ingestLinkFrame (localFrame 4), .ingestLinkFrame (localFrame 4),
    .handleLinkEvent (.up ⟨fillBytes 16 3⟩), .submit (sampleEnvelope 2 (.node ⟨fillBytes 32 7⟩) 3)]

/-- The sample world is reached by a run. -/
theorem run_countedWorld : Run sampleConfig countedWorld.log countedWorld.core :=
  run_sampleCalls _

/-- One message was stored and released, one sent, one delivered and one dropped. -/
theorem countedWorld_metrics_account :
    (countedWorld.core.metrics.sent = 1 ∧
      countedWorld.core.metrics.bytesSent =
        saturated (total GatewayEvent.bytesSentCount countedWorld.log) ∧
      countedWorld.core.metrics.linkErrors = 0 ∧
      countedWorld.core.metrics.delivered = 1 ∧
      countedWorld.core.metrics.dropped = 1 ∧
      countedWorld.core.metrics.stored = 1) ∧
    total GatewayEvent.releasedCount countedWorld.log = 1 ∧
    ∃ expired, countedWorld.core.metrics.expired = saturated expired ∧
      1 = countedWorld.core.storedLen + expired + 1 := by
  obtain ⟨hsent, hbytes, herrors, hdelivered, hdropped, hstored, expired, hexpired, hbalance⟩ :=
    metrics_account (by decide) run_countedWorld
  have hreleased : total GatewayEvent.releasedCount countedWorld.log = 1 := by decide +kernel
  have hput : total (GatewayEvent.storedCount sampleConfig.policy.allowStoreAndForward)
      countedWorld.log = 1 := by decide +kernel
  refine ⟨⟨?_, hbytes, ?_, ?_, ?_, ?_⟩, hreleased, expired, hexpired, ?_⟩
  · exact hsent.trans (by decide +kernel)
  · exact herrors.trans (by decide +kernel)
  · exact hdelivered.trans (by decide +kernel)
  · exact hdropped.trans (by decide +kernel)
  · exact hstored.trans (by decide +kernel)
  · exact hput.symm.trans (hbalance.trans (congrArg _ hreleased))

end GatewayCore

end Hyf
