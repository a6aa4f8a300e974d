import Hyf.Gateway.Runs

/-!
# Time and expiry

The router and the core each keep a clock. In every moment of every run the two agree and no stored
record has expired, so that nothing that has expired is ever handed to a link.
-/

namespace Hyf

namespace GatewayCore

variable {maxLinks maxSeen storeCapacity : ℕ}
  {answers : LinkId → List UInt8 → TimestampMs → Except GatewayError Unit → Prop}

/-- The clocks agree and nothing in the store has expired. -/
structure Timely (core : GatewayCore maxLinks maxSeen storeCapacity) : Prop where
  clocks : core.router.nowMs = core.lastNowMs
  unexpired : ∀ record ∈ core.store.live, core.lastNowMs < record.expiresAtMs

theorem Timely.of_frame {core core' : GatewayCore maxLinks maxSeen storeCapacity}
    (h : core.Timely) (hframe : SameFrame core core') (hlive : core'.store.live ⊆ core.store.live) :
    core'.Timely where
  clocks := by rw [hframe.nowMs, hframe.lastNowMs, h.clocks]
  unexpired record hmem := by
    rw [hframe.lastNowMs]
    exact h.unexpired record (hlive hmem)

/-- The cores a command passes through differ from the ends in the filter and the metrics only. -/
theorem CommandStep.moment_core {core core' : GatewayCore maxLinks maxSeen storeCapacity}
    {command : RouterCommand} {moments : List (Moment maxLinks maxSeen storeCapacity)}
    {outcome : Except GatewayError Unit}
    (h : CommandStep answers core command moments outcome core')
    {moment : Moment maxLinks maxSeen storeCapacity} (hmem : moment ∈ moments) :
    SameFrame core moment.core ∧
      (moment.core.store = core.store ∨ moment.core.store = core'.store) := by
  have hcommit : ∀ {c : GatewayCore maxLinks maxSeen storeCapacity} {envelope},
      moment ∈ c.commitMoments envelope → moment.core = c.commit envelope := by
    intro c envelope hmem
    rw [eq_of_mem_commitMoments hmem]
  have hframe := h.frame
  cases h with
  | sendRefused valid fits answer metrics =>
    rw [List.mem_singleton] at hmem
    rw [hmem]
    exact ⟨.refl _, .inl rfl⟩
  | sent valid fits answer metrics =>
    rcases List.mem_cons.mp hmem with rfl | hmem
    · exact ⟨.refl _, .inl rfl⟩
    · rw [hcommit hmem]
      exact ⟨hframe, .inr rfl⟩
  | put allowed accepted metrics =>
    rw [hcommit hmem]
    exact ⟨hframe, .inr rfl⟩
  | deliverLocal envelope metrics =>
    rw [hcommit hmem]
    exact ⟨hframe, .inr rfl⟩
  | _ => cases hmem

/-- A command of a plan keeps the store free of expired records. -/
theorem Timely.command {core core' : GatewayCore maxLinks maxSeen storeCapacity}
    (h : core.Timely) {command : RouterCommand}
    {moments : List (Moment maxLinks maxSeen storeCapacity)} {outcome : Except GatewayError Unit}
    (hadmits : core.router.Admits command)
    (hstep : CommandStep answers core command moments outcome core') : core'.Timely := by
  have hframe := hstep.frame
  by_cases hput : ∃ envelope, command = .store (.put envelope)
  · obtain ⟨envelope, rfl⟩ := hput
    cases hstep with
    | putRefused allowed refused => exact h
    | putDisabled disabled metrics => exact h.of_frame hframe (List.Subset.refl _)
    | put allowed accepted metrics =>
      refine ⟨by rw [hframe.nowMs, hframe.lastNowMs, h.clocks], ?_⟩
      intro record hmem
      rw [hframe.lastNowMs]
      rcases (Store.putEnvelope_eq_ok accepted).mem_live.mp hmem with rfl | hold
      · rw [recordOf_expiresAtMs, ← h.clocks]
        exact hadmits.2
      · exact h.unexpired record hold
  · have hstore : core'.store = core.store := by
      refine hstep.store_eq ?_
      rintro inner rfl
      cases inner with
      | put envelope => exact hput ⟨envelope, rfl⟩
      | remove messageId => exact hadmits
      | expireBefore now => exact hadmits
    exact h.of_frame hframe (by rw [hstore]; exact List.Subset.refl _)

/-- A frame handed to a link carries an envelope that has not expired. -/
def SendsUnexpired (moment : Moment maxLinks maxSeen storeCapacity) : Prop :=
  ∀ linkId bytes nowMs answer, moment.event = .sendLinkBytes linkId bytes nowMs answer →
    ∃ envelope, decodeEnvelope bytes = .ok envelope ∧
      moment.core.lastNowMs < envelope.expiresAtMs

theorem CommandStep.sendsUnexpired {core core' : GatewayCore maxLinks maxSeen storeCapacity}
    (htimely : core.Timely) {command : RouterCommand}
    {moments : List (Moment maxLinks maxSeen storeCapacity)} {outcome : Except GatewayError Unit}
    (hadmits : core.router.Admits command)
    (h : CommandStep answers core command moments outcome core') :
    ∀ moment ∈ moments, SendsUnexpired moment := by
  intro moment hmem linkId bytes nowMs answer hevent
  obtain ⟨hcore, envelope, rfl, rfl⟩ := h.sends hmem hevent
  refine ⟨envelope, decodeEnvelope_wireBytes hadmits.1, ?_⟩
  rw [hcore, ← htimely.clocks]
  exact hadmits.2.1

/-- Every moment is timely and sends only what has not expired, and the clock never runs back. -/
structure TimelyLog (log : List (Moment maxLinks maxSeen storeCapacity))
    (core : GatewayCore maxLinks maxSeen storeCapacity) : Prop where
  now : core.Timely
  always : ∀ moment ∈ log, moment.core.Timely
  sends : ∀ moment ∈ log, SendsUnexpired moment
  monotone : log.Pairwise fun earlier later => earlier.core.lastNowMs ≤ later.core.lastNowMs
  past : ∀ moment ∈ log, moment.core.lastNowMs ≤ core.lastNowMs

/-- Moments at one clock value, not before the end of the log, extend a timely log. -/
theorem TimelyLog.append {log moments : List (Moment maxLinks maxSeen storeCapacity)}
    {core core' : GatewayCore maxLinks maxSeen storeCapacity} (h : TimelyLog log core)
    (hnow : core'.Timely) (hle : core.lastNowMs ≤ core'.lastNowMs)
    (hmoments : ∀ moment ∈ moments, moment.core.Timely ∧ SendsUnexpired moment ∧
      moment.core.lastNowMs = core'.lastNowMs) : TimelyLog (log ++ moments) core' where
  now := hnow
  always moment hmem := by
    rcases List.mem_append.mp hmem with hold | hnew
    · exact h.always moment hold
    · exact (hmoments moment hnew).1
  sends moment hmem := by
    rcases List.mem_append.mp hmem with hold | hnew
    · exact h.sends moment hold
    · exact (hmoments moment hnew).2.1
  monotone := by
    rw [List.pairwise_append]
    refine ⟨h.monotone, ?_, ?_⟩
    · refine List.pairwise_of_forall_mem_list fun earlier hearlier later hlater => ?_
      rw [(hmoments earlier hearlier).2.2, (hmoments later hlater).2.2]
      exact UInt64.le_rfl
    · intro earlier hearlier later hlater
      rw [(hmoments later hlater).2.2]
      exact UInt64.le_trans (h.past earlier hearlier) hle
  past moment hmem := by
    rcases List.mem_append.mp hmem with hold | hnew
    · exact UInt64.le_trans (h.past moment hold) hle
    · rw [(hmoments moment hnew).2.2]
      exact UInt64.le_rfl

theorem TimelyLog.step {log moments : List (Moment maxLinks maxSeen storeCapacity)}
    {core core' : GatewayCore maxLinks maxSeen storeCapacity} (h : TimelyLog log core)
    (hstep : CoreStep core moments core') : TimelyLog (log ++ moments) core' := by
  -- a moment without a send has nothing to show about expiry
  have hquiet : ∀ {moment : Moment maxLinks maxSeen storeCapacity},
      (∀ linkId bytes nowMs answer, moment.event ≠ .sendLinkBytes linkId bytes nowMs answer) →
      SendsUnexpired moment :=
    fun hne linkId bytes nowMs answer hevent => absurd hevent (hne linkId bytes nowMs answer)
  cases hstep with
  | metrics metrics =>
    exact h.append (h.now.of_frame ⟨rfl, rfl, rfl, rfl, rfl⟩ (List.Subset.refl _)) UInt64.le_rfl
      (by simp)
  | link set =>
    obtain ⟨-, hnow, -⟩ := Router.setLinkState_eq_ok set
    refine h.append ⟨?_, h.now.unexpired⟩ UInt64.le_rfl (by simp)
    rw [← h.now.clocks]
    exact hnow
  | observe later =>
    have htimely : ∀ now, (core.observed now).Timely := fun now =>
      ⟨rfl, fun record hmem => (Store.mem_live_expireBefore.mp hmem).2⟩
    refine h.append (htimely _) (UInt64.le_of_lt later) ?_
    intro moment hmem
    rw [List.mem_singleton] at hmem
    subst hmem
    exact ⟨htimely _, hquiet (by simp), rfl⟩
  | expire =>
    exact h.append (h.now.of_frame ⟨rfl, rfl, rfl, rfl, rfl⟩
      (Store.expireBefore_sublist _ _).subset) UInt64.le_rfl (by simp)
  | kept messageId executions =>
    refine h.append h.now UInt64.le_rfl ?_
    intro moment hmem
    rw [List.mem_singleton] at hmem
    subst hmem
    exact ⟨h.now, hquiet (by simp), rfl⟩
  | released releases removed =>
    refine h.append (h.now.of_frame ⟨rfl, rfl, rfl, rfl, rfl⟩
      (Store.remove_sublist removed).subset) UInt64.le_rfl ?_
    intro moment hmem
    rw [List.mem_singleton] at hmem
    subst hmem
    exact ⟨h.now, hquiet (by simp), rfl⟩
  | command admits step =>
    have htimely := h.now.command admits step
    have hframe := step.frame
    -- the moments of a command see the store before it or after it
    refine h.append htimely (by rw [hframe.lastNowMs]; exact UInt64.le_rfl) ?_
    intro moment hmem
    rcases List.mem_append.mp hmem with hmoment | hlast
    · obtain ⟨hmframe, hstore⟩ := step.moment_core hmoment
      refine ⟨?_, step.sendsUnexpired h.now admits moment hmoment, ?_⟩
      · rcases hstore with hbefore | hafter
        · exact h.now.of_frame hmframe (by rw [hbefore]; exact List.Subset.refl _)
        · refine ⟨by rw [hmframe.nowMs, hmframe.lastNowMs, h.now.clocks], ?_⟩
          rw [hafter, hmframe.lastNowMs, ← hframe.lastNowMs]
          exact htimely.unexpired
      · rw [hmframe.lastNowMs, hframe.lastNowMs]
    · rw [List.mem_singleton] at hlast
      subst hlast
      exact ⟨htimely, hquiet (by simp), rfl⟩

theorem timelyLog_of_run {config : GatewayConfig maxLinks}
    {log : List (Moment maxLinks maxSeen storeCapacity)}
    {core : GatewayCore maxLinks maxSeen storeCapacity} (h : Run config log core) :
    TimelyLog log core := by
  refine (h.invariant ?_ ?_).2
  · intro core hnew
    obtain ⟨-, -, -, -, rfl⟩ := new_eq_ok hnew
    exact ⟨⟨rfl, by simp⟩, by simp, by simp, by simp, by simp⟩
  · intro log core moments core' _ hlog hstep
    exact hlog.step hstep

theorem Reachable.timely {core : GatewayCore maxLinks maxSeen storeCapacity}
    (h : Reachable core) : core.Timely := by
  obtain ⟨config, log, hrun⟩ := h
  exact (timelyLog_of_run hrun).now

/-- No step moves the clock back. -/
theorem CoreStep.lastNowMs_le {core core' : GatewayCore maxLinks maxSeen storeCapacity}
    {moments : List (Moment maxLinks maxSeen storeCapacity)} (h : CoreStep core moments core') :
    core.lastNowMs ≤ core'.lastNowMs := by
  cases h with
  | observe later => exact UInt64.le_of_lt later
  | command admits step => exact UInt64.le_of_eq step.frame.lastNowMs.symm
  | _ => exact UInt64.le_rfl

/-- **Time and expiry.** After every run the clocks agree and no stored record has expired. This was
so in every moment of the run, the clock has never run back, nor does the next call move it back,
and whatever was handed to a link had not expired. -/
theorem clocks_agree_and_nothing_expired {config : GatewayConfig maxLinks}
    {log : List (Moment maxLinks maxSeen storeCapacity)}
    {core : GatewayCore maxLinks maxSeen storeCapacity} (h : Run config log core) :
    TimelyLog log core ∧ ∀ (op : GatewayOp) (E : Type) [GatewayLinkExecutor E] (executor : E),
      core.lastNowMs ≤ ((perform op).run ⟨core, executor, log⟩).state.core.lastNowMs := by
  refine ⟨timelyLog_of_run h, ?_⟩
  intro op E _ executor
  have htook : Took ⟨core, executor, log⟩ ((perform op).run ⟨core, executor, log⟩) :=
    took_perform op h.wellFormed
  obtain ⟨moments, hsteps, -⟩ := htook
  refine hsteps.invariant_state (I := fun core' => core.lastNowMs ≤ core'.lastNowMs) ?_
    UInt64.le_rfl
  intro core₁ moments core₂ hle hstep
  exact UInt64.le_trans hle hstep.lastNowMs_le

/-- A message was sent on a link that had come up. -/
theorem clocks_agree_sampleWorld :
    sampleWorld.log.length = 3 ∧ TimelyLog sampleWorld.log sampleWorld.core :=
  ⟨by decide +kernel, (clocks_agree_and_nothing_expired run_sampleWorld).1⟩

end GatewayCore

end Hyf
