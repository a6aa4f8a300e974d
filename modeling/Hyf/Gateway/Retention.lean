import Hyf.Gateway.Expiry

/-!
# Stored messages are not lost

A message that was put into the store stays there, under its id and with its encoded bytes, until it
expires or a flush turn has handed it on. Nothing that happens to other messages takes it away.
-/

namespace Hyf

open LoggedSteps

namespace GatewayCore

variable {maxLinks maxSeen storeCapacity : ℕ}
  {answers : LinkId → List UInt8 → TimestampMs → Except GatewayError Unit → Prop}

/-- The put of `envelope` was executed and accepted in this moment. -/
def StoredAt (moment : Moment maxLinks maxSeen storeCapacity) (envelope : HyfEnvelopeRef) : Prop :=
  moment.event = .executed (.store (.put envelope)) (.ok ()) ∧
    moment.core.config.policy.allowStoreAndForward = true

/-- From this moment on `envelope` need not be stored: it has expired, or a flush turn for its
record has sent it on every link it tried, delivered it or dropped it. -/
def ReleasedAt (moment : Moment maxLinks maxSeen storeCapacity) (envelope : HyfEnvelopeRef) :
    Prop :=
  envelope.expiresAtMs ≤ moment.core.lastNowMs ∨
    ∃ executions, moment.event = .flushed envelope.messageId executions ∧ Releases executions

/-- The store holds one record under the id of `envelope`, and its bytes are the encoding of
`envelope`. -/
def Holds (core : GatewayCore maxLinks maxSeen storeCapacity) (envelope : HyfEnvelopeRef) : Prop :=
  ∃ len frame,
    encodeEnvelope envelope (List.replicate gatewayFrameBufferLen 0) = .ok (len, frame) ∧
    core.store.live.filter (fun record => decide (record.messageId = envelope.messageId)) =
      [.new (frame.take len) (metadataFor envelope)]

/-- As `Holds`, for a well-formed store. -/
structure Retains (core : GatewayCore maxLinks maxSeen storeCapacity) (envelope : HyfEnvelopeRef) :
    Prop where
  valid : ValidEnvelope envelope
  fits : (wireBytes envelope).length ≤ gatewayFrameBufferLen
  live : recordOf envelope ∈ core.store.live

theorem Retains.of_live {core core' : GatewayCore maxLinks maxSeen storeCapacity}
    {envelope : HyfEnvelopeRef} (h : core.Retains envelope)
    (hlive : recordOf envelope ∈ core'.store.live) : core'.Retains envelope :=
  ⟨h.valid, h.fits, hlive⟩

theorem Retains.holds {core : GatewayCore maxLinks maxSeen storeCapacity}
    {envelope : HyfEnvelopeRef} (h : core.Retains envelope) (hstore : core.store.WellFormed) :
    core.Holds envelope := by
  have hroom : (wireBytes envelope).length ≤
      (List.replicate gatewayFrameBufferLen (0 : UInt8)).length := by
    rw [List.length_replicate]
    exact h.fits
  refine ⟨_, _, encodeEnvelope_eq h.valid hroom, ?_⟩
  rw [List.take_left' rfl]
  exact hstore.filter_messageId h.live

/-- Every message stored in the log and not released since is still there. -/
def RetainsAll (log : List (Moment maxLinks maxSeen storeCapacity))
    (core : GatewayCore maxLinks maxSeen storeCapacity) : Prop :=
  ∀ before moment after envelope, log = before ++ moment :: after → StoredAt moment envelope →
    (∀ later ∈ after, ¬ReleasedAt later envelope) → core.Retains envelope

/-- What a step has to keep: records that it does not release, and those it stores. -/
theorem RetainsAll.extend {log moments : List (Moment maxLinks maxSeen storeCapacity)}
    {core core' : GatewayCore maxLinks maxSeen storeCapacity} (h : RetainsAll log core)
    (hkeeps : ∀ envelope, core.Retains envelope →
      (∀ moment ∈ moments, ¬ReleasedAt moment envelope) → core'.Retains envelope)
    (hstores : ∀ moment ∈ moments, ∀ envelope, StoredAt moment envelope →
      core'.Retains envelope) : RetainsAll (log ++ moments) core' := by
  intro before moment after envelope hsplit hstored hkept
  rcases append_eq_append_cons hsplit with ⟨rest, hlog, rfl⟩ | ⟨start, rfl, hnew⟩
  · refine hkeeps envelope (h before moment rest envelope hlog hstored ?_) ?_
    · exact fun later hlater => hkept later (List.mem_append_left _ hlater)
    · exact fun later hlater => hkept later (List.mem_append_right _ hlater)
  · refine hstores moment ?_ envelope hstored
    rw [hnew]
    exact List.mem_append_right _ List.mem_cons_self

/-- The log retains what it stores, now and in every moment. -/
structure RetainLog (log : List (Moment maxLinks maxSeen storeCapacity))
    (core : GatewayCore maxLinks maxSeen storeCapacity) : Prop where
  timely : core.Timely
  now : RetainsAll log core
  always : ∀ before moment after, log = before ++ moment :: after →
    RetainsAll (before ++ [moment]) moment.core ∧ moment.core.store.WellFormed

theorem RetainLog.append {log moments : List (Moment maxLinks maxSeen storeCapacity)}
    {core core' : GatewayCore maxLinks maxSeen storeCapacity} (h : RetainLog log core)
    (htimely : core'.Timely) (hnow : RetainsAll (log ++ moments) core')
    (halways : ∀ before moment after, moments = before ++ moment :: after →
      RetainsAll (log ++ (before ++ [moment])) moment.core ∧ moment.core.store.WellFormed) :
    RetainLog (log ++ moments) core' where
  timely := htimely
  now := hnow
  always before moment after hsplit := by
    rcases append_eq_append_cons hsplit with ⟨rest, hlog, -⟩ | ⟨start, rfl, hnew⟩
    · exact h.always before moment rest hlog
    · rw [List.append_assoc]
      exact halways start moment after hnew

/-- A command of a plan removes nothing, and stores what an accepted put says. -/
theorem RetainLog.command {log moments : List (Moment maxLinks maxSeen storeCapacity)}
    {core core' : GatewayCore maxLinks maxSeen storeCapacity} (h : RetainLog log core)
    (hstore : core.store.WellFormed) {command : RouterCommand}
    {outcome : Except GatewayError Unit} (hadmits : core.router.Admits command)
    (hstep : CommandStep answers core command moments outcome core') :
    RetainLog (log ++ (moments ++ [⟨.executed command outcome, core'⟩])) core' := by
  have hstore' : core'.store.WellFormed := wellFormed_step hstore (.command hadmits hstep)
  -- the store only grows, at once or not at all
  have hgrows : ∀ record, record ∈ core.store.live → record ∈ core'.store.live := by
    intro record hmem
    cases hstep with
    | put allowed accepted metrics =>
      exact (Store.putEnvelope_eq_ok accepted).mem_live.mpr (.inr hmem)
    | remove accepted => exact hadmits.elim
    | expireBefore now metrics => exact hadmits.elim
    | _ => exact hmem
  have hput : ∀ envelope, command = .store (.put envelope) → outcome = .ok () →
      core'.config.policy.allowStoreAndForward = true → core'.Retains envelope := by
    rintro envelope rfl rfl hallowed
    cases hstep with
    | put allowed accepted metrics =>
      have heffect := Store.putEnvelope_eq_ok accepted
      exact ⟨heffect.valid, heffect.fits, heffect.mem_live.mpr (.inl rfl)⟩
    | putDisabled disabled metrics =>
      rw [disabled] at hallowed
      cases hallowed
  have hinner : ∀ moment ∈ moments, ∀ envelope, ¬StoredAt moment envelope := by
    rintro moment hmem envelope ⟨hevent, -⟩
    have hnone := List.filterMap_eq_nil_iff.mp hstep.executionsOf_moments moment hmem
    rw [hevent] at hnone
    cases hnone
  have hnow : RetainsAll (log ++ (moments ++ [⟨.executed command outcome, core'⟩])) core' := by
    refine h.now.extend ?_ ?_
    · exact fun envelope hretains _ => hretains.of_live (hgrows _ hretains.live)
    · intro moment hmem envelope hstored
      rcases List.mem_append.mp hmem with hmoment | hlast
      · exact absurd hstored (hinner moment hmoment envelope)
      · rw [List.mem_singleton] at hlast
        subst hlast
        obtain ⟨hevent, hallowed⟩ := hstored
        cases hevent
        exact hput envelope rfl rfl hallowed
  refine h.append (h.timely.command hadmits hstep) hnow ?_
  intro before moment after hsplit
  rcases append_eq_append_cons hsplit with ⟨rest, hmoments, -⟩ | ⟨start, rfl, hlast⟩
  · -- inside the command: the store is the one before or the one after
    have hmem : ∀ m ∈ before ++ [moment], m ∈ moments := by
      rw [hmoments]
      intro m hm
      simp only [List.mem_append, List.mem_cons, List.not_mem_nil, or_false] at hm ⊢
      tauto
    have hcore := (hstep.moment_core (hmem moment (by simp))).2
    refine ⟨h.now.extend ?_ ?_, ?_⟩
    · intro envelope hretains _
      rcases hcore with hbefore | hafter
      · exact hretains.of_live (hbefore ▸ hretains.live)
      · exact hretains.of_live (hafter ▸ hgrows _ hretains.live)
    · exact fun m hm envelope hstored => absurd hstored (hinner m (hmem m hm) envelope)
    · rcases hcore with hbefore | hafter
      · exact hbefore ▸ hstore
      · exact hafter ▸ hstore'
  · obtain ⟨rfl, rfl, -⟩ :
        start = [] ∧ moment = ⟨.executed command outcome, core'⟩ ∧ after = [] := by
      cases start with
      | nil =>
        cases hlast
        exact ⟨rfl, rfl, rfl⟩
      | cons head rest => simp at hlast
    rw [List.append_nil]
    exact ⟨hnow, hstore'⟩

/-- Steps with one moment that stores nothing. -/
theorem RetainLog.append_single {log : List (Moment maxLinks maxSeen storeCapacity)}
    {core core' : GatewayCore maxLinks maxSeen storeCapacity} (h : RetainLog log core)
    (htimely : core'.Timely) {moment : Moment maxLinks maxSeen storeCapacity}
    (hevent : ∀ envelope, moment.event ≠ .executed (.store (.put envelope)) (.ok ()))
    (hstore : moment.core.store.WellFormed)
    (hkeeps : ∀ envelope, core.Retains envelope → ¬ReleasedAt moment envelope →
      moment.core.Retains envelope ∧ core'.Retains envelope) :
    RetainLog (log ++ [moment]) core' := by
  have hstored : ∀ m ∈ [moment], ∀ envelope, ¬StoredAt m envelope := by
    rintro m hmem envelope ⟨hput, -⟩
    rw [List.mem_singleton] at hmem
    subst hmem
    exact hevent envelope hput
  refine h.append htimely (h.now.extend ?_ ?_) ?_
  · exact fun envelope hretains hkept =>
      (hkeeps envelope hretains (hkept moment (List.mem_singleton_self _))).2
  · exact fun m hmem envelope hput => absurd hput (hstored m hmem envelope)
  · intro before m after hsplit
    cases before with
    | cons head rest => simp at hsplit
    | nil =>
      cases hsplit
      refine ⟨h.now.extend ?_ ?_, hstore⟩
      · exact fun envelope hretains hkept =>
          (hkeeps envelope hretains (hkept moment (List.mem_singleton_self _))).1
      · exact fun m hmem envelope hput => absurd hput (hstored m hmem envelope)

/-- Steps that log nothing. -/
theorem RetainLog.append_nil {log : List (Moment maxLinks maxSeen storeCapacity)}
    {core core' : GatewayCore maxLinks maxSeen storeCapacity} (h : RetainLog log core)
    (htimely : core'.Timely)
    (hkeeps : ∀ record ∈ core.store.live, record ∈ core'.store.live) :
    RetainLog (log ++ []) core' := by
  refine h.append htimely (h.now.extend ?_ (by simp)) (by simp)
  exact fun envelope hretains _ => hretains.of_live (hkeeps _ hretains.live)

theorem RetainLog.step {log moments : List (Moment maxLinks maxSeen storeCapacity)}
    {core core' : GatewayCore maxLinks maxSeen storeCapacity} (h : RetainLog log core)
    (hlog : TimelyLog log core) (hstore : core.store.WellFormed)
    (hstep : CoreStep core moments core') : RetainLog (log ++ moments) core' := by
  have htimely := (hlog.step hstep).now
  have hstore' := wellFormed_step hstore hstep
  cases hstep with
  | metrics metrics => exact h.append_nil htimely fun record hmem => hmem
  | link set => exact h.append_nil htimely fun record hmem => hmem
  | expire =>
    -- nothing in the store has expired
    refine h.append_nil htimely fun record hmem => ?_
    exact Store.mem_live_expireBefore.mpr ⟨hmem, h.timely.unexpired record hmem⟩
  | @observe _ now later =>
    refine h.append_single htimely (by simp) hstore' ?_
    intro envelope hretains hkept
    have hlive : recordOf envelope ∈ (core.observed now).store.live := by
      refine Store.mem_live_expireBefore.mpr ⟨hretains.live, ?_⟩
      rw [recordOf_expiresAtMs]
      exact UInt64.not_le.mp fun hle => hkept (.inl hle)
    exact ⟨hretains.of_live hlive, hretains.of_live hlive⟩
  | kept messageId executions =>
    refine h.append_single htimely (by simp) hstore ?_
    exact fun envelope hretains _ => ⟨hretains, hretains⟩
  | released releases removed =>
    refine h.append_single htimely (by simp) hstore ?_
    intro envelope hretains hkept
    refine ⟨hretains, hretains.of_live ((hstore.mem_live_remove removed).mpr ⟨hretains.live, ?_⟩)⟩
    rintro rfl
    exact hkept (.inr ⟨_, rfl, releases⟩)
  | command admits step => exact h.command hstore admits step

theorem retainLog_of_run {config : GatewayConfig maxLinks}
    {log : List (Moment maxLinks maxSeen storeCapacity)}
    {core : GatewayCore maxLinks maxSeen storeCapacity} (h : Run config log core) :
    RetainLog log core := by
  refine (h.invariant (I := fun log core => TimelyLog log core ∧ RetainLog log core) ?_ ?_).2.2
  · intro core hnew
    have htimely := timelyLog_of_run (.start hnew)
    exact ⟨htimely, htimely.now, by simp [RetainsAll], by simp⟩
  · rintro log core moments core' hstore ⟨htimely, hretain⟩ hstep
    exact ⟨htimely.step hstep, hretain.step htimely hstore hstep⟩

/-- **Stored messages are not lost.** Once the put of a message was accepted, the store holds
exactly its encoding, in every later moment and at the end of the run, until the first moment that
releases it. -/
theorem holds_until_released {config : GatewayConfig maxLinks}
    {log : List (Moment maxLinks maxSeen storeCapacity)}
    {core : GatewayCore maxLinks maxSeen storeCapacity} (h : Run config log core)
    {before after : List (Moment maxLinks maxSeen storeCapacity)}
    {moment : Moment maxLinks maxSeen storeCapacity} {envelope : HyfEnvelopeRef}
    (hlog : log = before ++ moment :: after) (hstored : StoredAt moment envelope) :
    moment.core.Holds envelope ∧
      (∀ mid later rest, after = mid ++ later :: rest →
        (∀ m ∈ mid ++ [later], ¬ReleasedAt m envelope) → later.core.Holds envelope) ∧
      ((∀ m ∈ after, ¬ReleasedAt m envelope) → core.Holds envelope) := by
  have hretain := retainLog_of_run h
  refine ⟨?_, ?_, ?_⟩
  · obtain ⟨hall, hstore⟩ := hretain.always before moment after hlog
    exact (hall before moment [] envelope rfl hstored (by simp)).holds hstore
  · rintro mid later rest rfl hkept
    obtain ⟨hall, hstore⟩ := hretain.always (before ++ moment :: mid) later rest
      (by rw [hlog, List.append_assoc, List.cons_append])
    refine (hall before moment (mid ++ [later]) envelope ?_ hstored hkept).holds hstore
    rw [List.append_assoc, List.cons_append]
  · intro hkept
    exact (hretain.now before moment after envelope hlog hstored hkept).holds h.wellFormed

/-- A message for another node was submitted while there was no link. -/
def storedWorld : World 2 8 4 AcceptAll :=
  sampleCall (.submit (sampleEnvelope 2 (.node ⟨fillBytes 32 7⟩) 3)) ⟨sampleCore, .mk, []⟩

theorem run_storedWorld : Run sampleConfig storedWorld.log storedWorld.core :=
  Run.call (.start new_sampleConfig) (.submit (sampleEnvelope 2 (.node ⟨fillBytes 32 7⟩) 3))
    AcceptAll .mk

theorem storedWorld_log_ne_nil : storedWorld.log ≠ [] := by
  rw [← List.length_pos_iff]
  decide +kernel

theorem holds_storedWorld :
    storedWorld.core.Holds (sampleEnvelope 2 (.node ⟨fillBytes 32 7⟩) 3) := by
  have hstored : StoredAt (storedWorld.log.getLast storedWorld_log_ne_nil)
      (sampleEnvelope 2 (.node ⟨fillBytes 32 7⟩) 3) :=
    ⟨by decide +kernel, by decide +kernel⟩
  have hlog := (List.dropLast_append_getLast storedWorld_log_ne_nil).symm
  exact (holds_until_released run_storedWorld hlog hstored).2.2 (by simp)

end GatewayCore

end Hyf
