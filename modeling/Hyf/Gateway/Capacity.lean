import Hyf.Gateway.Submit

/-!
# Capacities

A configuration asks for a number of links, remembered keys and records, and `GatewayCore.new`
checks that the tables are at least that large. The tables themselves have the sizes of their
types, and these are the limits that apply: each can be filled completely (`capacities_bound_iff`).
The configured numbers are limits only where they are equal to the sizes.
-/

namespace Hyf

open ByteCodec

/-! ## Fresh identifiers -/

/-- The byte array that spells a number. -/
def numberBytes (n value : ℕ) : ByteArrayN n := ⟨toBe n value, length_toBe n value⟩

/-- No list that is shorter than the number of byte arrays holds them all. -/
theorem exists_fresh_bytes {n : ℕ} (used : List (ByteArrayN n)) (h : used.length < 256 ^ n) :
    ∃ bytes, bytes ∉ used := by
  by_contra hall
  rw [not_exists] at hall
  have hnodup : ((List.range (used.length + 1)).map (numberBytes n)).Nodup := by
    refine List.nodup_range.map_on ?_
    intro a ha b hb hab
    rw [List.mem_range] at ha hb
    exact toBe_injective (by omega) (by omega) (congrArg List.Vector.toList hab)
  have hsubset : (List.range (used.length + 1)).map (numberBytes n) ⊆ used :=
    fun bytes _ => not_not.mp (hall bytes)
  have hlen := (List.subperm_of_subset hnodup hsubset).length_le
  rw [List.length_map, List.length_range] at hlen
  omega

/-- A message with the given id. -/
def messageWithId (messageId : MessageId) (destination : HyfDestination) : HyfEnvelopeRef :=
  { sampleEnvelope 0 destination 1 with messageId := messageId }

/-- The messages that fill the tables are valid. -/
theorem validEnvelope_messageWithId (messageId : MessageId) (destination : HyfDestination) :
    ValidEnvelope (messageWithId messageId destination) :=
  validEnvelope_iff.mpr (validEnvelope_iff.mp (validEnvelope_sampleEnvelope 0 destination 1))

/-- A destination that is never local. -/
def elsewhere : HyfDestination := .foreign ⟨.fips, [0], by simp, by decide⟩

namespace GatewayCore

variable {maxLinks maxSeen storeCapacity : ℕ} {E : Type}
  {answers : LinkId → List UInt8 → TimestampMs → Except GatewayError Unit → Prop}

/-! ## Filling the tables -/

/-- There is nothing to flush in an empty store. -/
theorem Flushes.of_empty {core core' : GatewayCore maxLinks maxSeen storeCapacity}
    {moments : List (Moment maxLinks maxSeen storeCapacity)} {outcome : Except GatewayError Unit}
    (h : Flushes answers core moments outcome core') (hempty : core.store.live = []) :
    core' = core := by
  cases h with
  | stop last => exact (last.of_empty hempty).2
  | fail last => cases (last.of_empty hempty).1
  | next turn rest => cases (turn.of_empty hempty).1

/-- A core with nothing stored, at time 0. -/
structure Idle (core : GatewayCore maxLinks maxSeen storeCapacity) : Prop where
  empty : core.store.live = []
  nowMs : core.router.nowMs = 0

/-- A new gateway is idle. -/
theorem idle_new {config : GatewayConfig maxLinks}
    {core : GatewayCore maxLinks maxSeen storeCapacity} (h : new config = .ok core) :
    core.Idle := by
  obtain ⟨-, -, -, -, rfl⟩ := new_eq_ok h
  exact ⟨Store.live_new _, rfl⟩

/-- Routing on an empty store and then flushing, when the plan is carried out and stores nothing. -/
theorem RoutesThenFlushes.of_idle {core core' : GatewayCore maxLinks maxSeen storeCapacity}
    {event : RouterEvent} {moments : List (Moment maxLinks maxSeen storeCapacity)}
    {outcome : Except GatewayError Unit}
    (h : RoutesThenFlushes answers core event moments outcome core')
    (hempty : ∀ {moments outcome core₁}, Routes answers core event moments outcome core₁ →
      outcome = .ok () ∧ core₁.store.live = []) :
    ∃ moments core₁, Routes answers core event moments (.ok ()) core₁ ∧ core' = core₁.expired := by
  cases h with
  | refused routes => cases (hempty routes).1
  | @flushed _ _ _ core₁ _ routes flushes =>
    refine ⟨_, core₁, routes, flushes.of_empty ?_⟩
    have hsub := Store.expireBefore_sublist core₁.store core₁.lastNowMs
    rw [(hempty routes).2] at hsub
    exact List.sublist_nil.mp hsub

/-- The core after its store was found empty and nothing had to be flushed. -/
theorem Idle.expired {core : GatewayCore maxLinks maxSeen storeCapacity} (h : core.Idle) :
    core.expired.Idle where
  empty := by
    have hsub := Store.expireBefore_sublist core.store core.lastNowMs
    rw [h.empty] at hsub
    exact List.sublist_nil.mp hsub
  nowMs := h.nowMs

/-- The cores that some run under `config` ends in. -/
def ReachableFrom (config : GatewayConfig maxLinks)
    (core : GatewayCore maxLinks maxSeen storeCapacity) : Prop :=
  ∃ log, Run config log core

/-- What is reached from some configuration is reachable. -/
theorem ReachableFrom.reachable {config : GatewayConfig maxLinks}
    {core : GatewayCore maxLinks maxSeen storeCapacity} (h : ReachableFrom config core) :
    Reachable core := by
  obtain ⟨log, hrun⟩ := h
  exact ⟨config, log, hrun⟩

/-- One more link comes up. -/
theorem ReachableFrom.up {config : GatewayConfig maxLinks}
    {core : GatewayCore maxLinks maxSeen storeCapacity} (h : ReachableFrom config core)
    (linkId : LinkId) : ∃ (moments : List (Moment maxLinks maxSeen storeCapacity))
      (outcome : Except GatewayError Unit) (core' : GatewayCore maxLinks maxSeen storeCapacity),
      RoutesThenFlushes (Answers AcceptAll) core (.link (.up linkId)) moments outcome core' ∧
        ReachableFrom config core' := by
  obtain ⟨log, hrun⟩ := h
  have hevent : ∀ now, RouterEvent.link (.up linkId) ≠ .tick now := by simp
  obtain ⟨moments, outcome, core', executor, hcall, -, hstate⟩ :=
    run_routeThenFlush hevent ⟨core, AcceptAll.mk, log⟩ hrun.wellFormed
  refine ⟨moments, outcome, core', hcall, log ++ moments, ?_⟩
  have hrun' := Run.call hrun (.handleLinkEvent (.up linkId)) AcceptAll .mk
  change Run config ((do routeEvent (.link (.up linkId)); flushStore :
    GatewayM maxLinks maxSeen storeCapacity AcceptAll Unit).run _).state.log
    ((do routeEvent (.link (.up linkId)); flushStore :
    GatewayM maxLinks maxSeen storeCapacity AcceptAll Unit).run _).state.core at hrun'
  rwa [hstate] at hrun'

/-- One more envelope is submitted. -/
theorem ReachableFrom.submit {config : GatewayConfig maxLinks}
    {core : GatewayCore maxLinks maxSeen storeCapacity} (h : ReachableFrom config core)
    (envelope : HyfEnvelopeRef) : ∃ (moments : List (Moment maxLinks maxSeen storeCapacity))
      (outcome : Except GatewayError Unit) (core' : GatewayCore maxLinks maxSeen storeCapacity),
      RoutesThenFlushes (Answers AcceptAll) { core with metrics := core.metrics.addSubmitted }
        (.localSubmit envelope) moments outcome core' ∧ ReachableFrom config core' := by
  obtain ⟨log, hrun⟩ := h
  have hstore : (⟨core, AcceptAll.mk, log⟩ :
      World maxLinks maxSeen storeCapacity AcceptAll).core.store.WellFormed := hrun.wellFormed
  obtain ⟨moments, core', executor, hcall, hstate⟩ := run_submit envelope hstore
  refine ⟨moments, _, core', hcall, log ++ moments, ?_⟩
  have hrun' := Run.call hrun (.submit envelope) AcceptAll .mk
  rw [perform, hstate] at hrun'
  exact hrun'

/-- Routing an event without commands. -/
theorem Routes.of_nil {core core' : GatewayCore maxLinks maxSeen storeCapacity}
    {event : RouterEvent} {moments : List (Moment maxLinks maxSeen storeCapacity)}
    {outcome : Except GatewayError Unit} (h : Routes answers core event moments outcome core')
    (hplan : core.router.planEvent event = .ok []) :
    outcome = .ok () ∧ core' = core.routed event := by
  cases h with
  | refused plan =>
    rw [hplan] at plan
    cases plan
  | crowded plan_eq crowded =>
    rw [hplan] at plan_eq
    cases plan_eq
    exact absurd crowded (Nat.not_lt_zero _)
  | executed plan_eq executes =>
    rw [hplan] at plan_eq
    cases plan_eq
    cases executes
    exact ⟨rfl, rfl⟩

/-- A link can be added while the table has room. -/
theorem Idle.add_link {config : GatewayConfig maxLinks}
    {core : GatewayCore maxLinks maxSeen storeCapacity} (h : core.Idle)
    (hreach : ReachableFrom config core) (hroom : core.router.links.live.length < maxLinks)
    (hsize : maxLinks < 2 ^ 64) :
    ∃ core' : GatewayCore maxLinks maxSeen storeCapacity, ReachableFrom config core' ∧
      core'.Idle ∧ core'.router.links.live.length = core.router.links.live.length + 1 := by
  -- ids are longer than addresses, so there is always one that the table does not have
  obtain ⟨bytes, hfresh⟩ := exists_fresh_bytes
    (core.router.links.live.map fun link => link.linkId.bytes) (by
      rw [List.length_map]
      exact lt_trans hroom (lt_trans hsize (by decide)))
  obtain ⟨index, hindex⟩ := SlotArray.exists_firstFree hroom
  have habsent : core.router.findLinkIndex ⟨bytes⟩ = none := by
    rw [Router.findLinkIndex, SlotArray.findLive_eq_none_iff]
    intro link hlink
    rw [decide_eq_false_iff_not]
    intro hid
    exact hfresh (List.mem_map.mpr ⟨link, hlink, by rw [hid]⟩)
  have hset : core.router.setLinkState ⟨bytes⟩ true = .ok { core.router with
      links := core.router.links.write index (some ⟨⟨bytes⟩, true⟩) } := by
    simp [Router.setLinkState, habsent, hindex]
  have hrouted : core.routed (.link (.up ⟨bytes⟩)) = { core with
      router := { core.router with
        links := core.router.links.write index (some ⟨⟨bytes⟩, true⟩) } } := by
    rw [routed, Router.handleEvent, hset]
  obtain ⟨moments, outcome, core', hcall, hreach'⟩ := hreach.up ⟨bytes⟩
  have hplan : core.router.planEvent (.link (.up ⟨bytes⟩)) = .ok [] := by
    rw [Router.planEvent, hset]
    rfl
  have hidle : (core.routed (.link (.up ⟨bytes⟩))).Idle := by
    rw [hrouted]
    exact ⟨h.empty, h.nowMs⟩
  -- an idle core plans nothing for a link that comes up, and has nothing to flush
  obtain ⟨_, core₁, hroutes, rfl⟩ := hcall.of_idle fun hroutes => by
    obtain ⟨hok, rfl⟩ := hroutes.of_nil hplan
    exact ⟨hok, hidle.empty⟩
  obtain ⟨-, rfl⟩ := hroutes.of_nil hplan
  refine ⟨_, hreach', hidle.expired, ?_⟩
  obtain ⟨before, after, hold, hnew⟩ := SlotArray.live_write_firstFree hindex ⟨⟨bytes⟩, true⟩
  change (core.routed (.link (.up ⟨bytes⟩))).router.links.live.length = _
  rw [hrouted, hold]
  change (core.router.links.write index (some ⟨⟨bytes⟩, true⟩)).live.length = _
  rw [hnew]
  simp only [List.length_append, List.length_cons]
  omega

/-- A key can be added while the filter has room: the node sends a message to itself. -/
theorem Idle.add_key {config : GatewayConfig maxLinks}
    {core : GatewayCore maxLinks maxSeen storeCapacity} (h : core.Idle)
    (hreach : ReachableFrom config core) (hroom : core.router.seen.live.length < maxSeen)
    (hsize : maxSeen < 2 ^ 64) :
    ∃ core' : GatewayCore maxLinks maxSeen storeCapacity, ReachableFrom config core' ∧
      core'.Idle ∧ core'.router.seen.live.length = core.router.seen.live.length + 1 := by
  obtain ⟨bytes, hfresh⟩ := exists_fresh_bytes
    (core.router.seen.live.map fun key => key.messageId.bytes) (by
      rw [List.length_map]
      exact lt_trans hroom (lt_trans hsize (by decide)))
  obtain ⟨envelope, henvelope⟩ : ∃ envelope, envelope =
      messageWithId ⟨bytes⟩ (.node core.router.policy.localNodeId) := ⟨_, rfl⟩
  -- the message has a fresh id, so it is delivered and its key committed
  have hunseen : core.router.hasSeen (seenKeyFor envelope) = false := by
    rw [← Bool.not_eq_true, Router.hasSeen_iff]
    intro hmem
    exact hfresh (List.mem_map.mpr ⟨_, hmem, by rw [henvelope]; rfl⟩)
  have hplan : ∀ metrics, { core with metrics }.router.planEvent (.localSubmit envelope) =
      .ok [.deliverLocal envelope] := by
    intro metrics
    have hvalid : ValidEnvelope envelope := henvelope ▸ validEnvelope_messageWithId _ _
    have hlocal : core.router.isLocalDestination envelope.destination = true := by
      rw [henvelope]
      simp [messageWithId, sampleEnvelope, Router.isLocalDestination]
    have hunexpired : core.router.nowMs < envelope.expiresAtMs := by
      rw [h.nowMs, henvelope]
      change (0 : UInt64) < 100
      decide
    rw [Router.planEvent, Router.planFor_of_valid hvalid, Except.ok.injEq,
      Router.planEnvelope_of_unicast (by rw [henvelope]; simp [messageWithId, sampleEnvelope])
        hunexpired hunseen, Router.planUnicast, if_pos hlocal]
  obtain ⟨moments, outcome, core', hcall, hreach'⟩ := hreach.submit envelope
  obtain ⟨_, core₁, hroutes, rfl⟩ := hcall.of_idle fun hroutes => by
    obtain ⟨_, hstep⟩ := hroutes.of_singleton (hplan _)
    cases hstep
    exact ⟨rfl, h.empty⟩
  obtain ⟨_, hstep⟩ := hroutes.of_singleton (hplan _)
  cases hstep
  refine ⟨_, hreach', Idle.expired ⟨h.empty, ?_⟩, Router.length_seen_commitSeen hunseen hroom⟩
  rw [← h.nowMs]
  exact Router.commitSeen_nowMs _ _

/-! ## Filling the store -/

/-- A core without a link whose records all wait for one, at time 0. -/
structure Waiting (core : GatewayCore maxLinks maxSeen storeCapacity) : Prop where
  offline : core.Offline
  nowMs : core.router.nowMs = 0
  waits : ∀ record ∈ core.store.live, ∃ envelope, ValidEnvelope envelope ∧ core.Waits envelope ∧
    record = recordOf envelope

/-- A new gateway waits for nothing. -/
theorem waiting_new {config : GatewayConfig maxLinks}
    {core : GatewayCore maxLinks maxSeen storeCapacity} (h : new config = .ok core) :
    core.Waiting := by
  obtain ⟨-, -, -, -, rfl⟩ := new_eq_ok h
  exact ⟨by simp [Offline, Router.new], rfl, by simp⟩

/-- Records that wait are not flushed. -/
theorem Waiting.flushes {core core' : GatewayCore maxLinks maxSeen storeCapacity} (h : core.Waiting)
    (hclocks : core.router.nowMs = core.lastNowMs)
    {moments : List (Moment maxLinks maxSeen storeCapacity)} {outcome : Except GatewayError Unit}
    (hflushes : Flushes answers core.expired moments outcome core') :
    core'.store.live = core.store.live := by
  have hlive : core.expired.store.live = core.store.live := by
    change (core.store.expireBefore core.lastNowMs).2.live = _
    rw [Store.live_expireBefore, List.filter_eq_self]
    intro record hmem
    obtain ⟨envelope, -, hwaits, rfl⟩ := h.waits record hmem
    have hunexpired := hwaits.unexpired
    rw [hclocks] at hunexpired
    simp [UInt64.not_le.mpr hunexpired]
  have hoffline : core.expired.Offline := h.offline
  rw [← hlive]
  -- without a link an iteration goes on only after releasing a message whose plan is not empty
  cases hflushes with
  | stop last =>
    rcases hoffline.iteration last with ⟨-, hsame⟩ | ⟨hgoes, -⟩
    · rw [hsame]
    · cases hgoes
  | fail last =>
    rcases hoffline.iteration last with ⟨hstops, -⟩ | ⟨hgoes, -⟩
    · cases hstops
    · cases hgoes
  | next turn rest =>
    rcases hoffline.iteration turn with ⟨hstops, -⟩ | ⟨-, released, hvalid, hmem, hplan, -⟩
    · cases hstops
    · rw [hlive] at hmem
      obtain ⟨envelope, hvalid', hwaits, hrecord⟩ := h.waits _ hmem
      obtain rfl := eq_of_recordOf_eq hvalid hvalid' hrecord
      exact absurd (hwaits.planStored h.offline) hplan

/-- There is always another message that waits, unseen and not stored. -/
theorem Waiting.exists_message {core : GatewayCore maxLinks maxSeen storeCapacity}
    (h : core.Waiting) (hseen : maxSeen < 2 ^ 64) (hsize : storeCapacity < 2 ^ 64) :
    ∃ envelope, ValidEnvelope envelope ∧
      (wireBytes envelope).length ≤ gatewayFrameBufferLen ∧ core.Waits envelope ∧
      core.store.contains envelope.messageId = false ∧
      core.router.hasSeen (seenKeyFor envelope) = false := by
  obtain ⟨bytes, hfresh⟩ := exists_fresh_bytes
    (core.store.live.map (fun record => record.messageId.bytes) ++
      core.router.seen.live.map fun key => key.messageId.bytes) (by
      rw [List.length_append, List.length_map, List.length_map]
      have hstored : core.store.live.length ≤ storeCapacity := SlotArray.length_live_le _
      have hkeys := SlotArray.length_live_le core.router.seen
      have hlarge : 2 ^ 64 + 2 ^ 64 < 256 ^ 32 := by decide
      omega)
  rw [List.mem_append, not_or] at hfresh
  refine ⟨messageWithId ⟨bytes⟩ elsewhere, validEnvelope_messageWithId _ _, ?_,
    ⟨?_, ?_, rfl⟩, ?_, ?_⟩
  · rw [length_wireBytes]
    change _ + (destinationBytes elsewhere).length + ([7] : List UInt8).length ≤ _
    decide
  · rw [h.nowMs]
    change (0 : UInt64) < 100
    decide
  · simp [messageWithId, sampleEnvelope]
  · rw [Store.contains_eq_false_iff]
    intro record hmem hid
    exact hfresh.1 (List.mem_map.mpr ⟨record, hmem, by rw [hid]; rfl⟩)
  · rw [← Bool.not_eq_true, Router.hasSeen_iff]
    intro hmem
    exact hfresh.2 (List.mem_map.mpr ⟨_, hmem, rfl⟩)

/-- A gateway still waits if what is new in its store waits. -/
theorem Waiting.of_frame {core core' : GatewayCore maxLinks maxSeen storeCapacity}
    (h : core.Waiting) (hframe : SameFrame core core')
    (hlive : ∀ record ∈ core'.store.live, record ∈ core.store.live ∨
      ∃ envelope, ValidEnvelope envelope ∧ core.Waits envelope ∧ record = recordOf envelope) :
    core'.Waiting where
  offline := h.offline.of_frame hframe
  nowMs := hframe.nowMs.trans h.nowMs
  waits record hmem := by
    have hold : ∃ envelope, ValidEnvelope envelope ∧ core.Waits envelope ∧
        record = recordOf envelope := by
      rcases hlive record hmem with hlive | hnew
      · exact h.waits record hlive
      · exact hnew
    obtain ⟨envelope, hvalid, hwaits, hrecord⟩ := hold
    exact ⟨envelope, hvalid, hwaits.of_frame hframe, hrecord⟩

/-- A record can be added while the store has room and storing is allowed. -/
theorem Waiting.add_record {config : GatewayConfig maxLinks}
    {core : GatewayCore maxLinks maxSeen storeCapacity} (h : core.Waiting)
    (hreach : ReachableFrom config core)
    (hallowed : core.config.policy.allowStoreAndForward = true)
    (hroom : core.storedLen < storeCapacity) (hseen : maxSeen < 2 ^ 64)
    (hsize : storeCapacity < 2 ^ 64) :
    ∃ core' : GatewayCore maxLinks maxSeen storeCapacity, ReachableFrom config core' ∧
      core'.Waiting ∧ core'.config = core.config ∧ core'.storedLen = core.storedLen + 1 := by
  obtain ⟨envelope, hvalid, hfits, hwaits, habsent, hunseen⟩ := h.exists_message hseen hsize
  have hplan : ∀ metrics, { core with metrics }.router.planEvent (.localSubmit envelope) =
      .ok [.store (.put envelope)] := fun _ => hwaits.planEvent h.offline hvalid hunseen
  obtain ⟨store, hput⟩ := Store.exists_putEnvelope_eq_ok hvalid hfits habsent hroom
  obtain ⟨moments, outcome, core', hcall, hreach'⟩ := hreach.submit envelope
  cases hcall with
  | refused routes =>
    obtain ⟨_, hstep⟩ := routes.of_singleton (hplan _)
    cases hstep with
    | putRefused allowed refused =>
      rw [show core.store.putEnvelope envelope = _ from refused] at hput
      cases hput
  | @flushed _ _ _ core₁ _ routes flushes =>
    obtain ⟨_, hstep⟩ := routes.of_singleton (hplan _)
    have hframe : SameFrame core core₁ := by
      have hrouted := routes.frame rfl
      exact ⟨hrouted.config, hrouted.lastNowMs, hrouted.policy, hrouted.nowMs, hrouted.links⟩
    -- the plan is a single put, and the store has room for it
    have heffect : Store.PutEffect core.store core₁.store envelope := by
      cases hstep with
      | putDisabled disabled metrics =>
        rw [show core.config.policy.allowStoreAndForward = false from disabled] at hallowed
        cases hallowed
      | put allowed accepted metrics => exact Store.putEnvelope_eq_ok accepted
    have hwaiting : core₁.Waiting := by
      refine h.of_frame hframe fun record hmem => ?_
      rcases heffect.mem_live.mp hmem with rfl | hold
      · exact .inr ⟨envelope, hvalid, hwaits, rfl⟩
      · exact .inl hold
    have hclocks : core₁.router.nowMs = core₁.lastNowMs := by
      rw [hframe.nowMs, hframe.lastNowMs, hreach.reachable.timely.clocks]
    have hlive := hwaiting.flushes hclocks flushes
    have hflushed : SameFrame core₁ core' := (SameFrame.expired core₁).trans flushes.frame
    refine ⟨core', hreach', hwaiting.of_frame hflushed ?_, ?_, ?_⟩
    · exact fun record hmem => .inl (hlive ▸ hmem)
    · rw [hflushed.config, hframe.config]
    · rw [storedLen, storedLen, ← heffect.len_eq]
      exact congrArg List.length hlive

/-! ## The limits -/

/-- What can be grown by one as long as there is room can be grown to any size. -/
theorem exists_size_eq {α : Type} {P : α → Prop} {size : α → ℕ} {capacity : ℕ} {start : α}
    (hstart : P start) (hzero : size start = 0)
    (hgrow : ∀ a, P a → size a < capacity → ∃ b, P b ∧ size b = size a + 1) {count : ℕ}
    (hcount : count ≤ capacity) : ∃ a, P a ∧ size a = count := by
  induction count with
  | zero => exact ⟨start, hstart, hzero⟩
  | succ count ih =>
    obtain ⟨a, ha, hsize⟩ := ih (by omega)
    obtain ⟨b, hb, hsize'⟩ := hgrow a ha (by omega)
    exact ⟨b, hb, by omega⟩

section

variable {config : GatewayConfig maxLinks} {start : GatewayCore maxLinks maxSeen storeCapacity}

/-- The link table can be filled. -/
theorem exists_full_links (hnew : new config = .ok start) (hlinks : maxLinks < 2 ^ 64) :
    ∃ core : GatewayCore maxLinks maxSeen storeCapacity, ReachableFrom config core ∧
      core.router.links.live.length = maxLinks := by
  have hzero : start.router.links.live.length = 0 := by
    obtain ⟨-, -, -, -, rfl⟩ := new_eq_ok hnew
    simp [Router.new]
  obtain ⟨core, ⟨hreach, -⟩, hlen⟩ := exists_size_eq
    (P := fun core : GatewayCore maxLinks maxSeen storeCapacity =>
      ReachableFrom config core ∧ core.Idle)
    ⟨⟨_, .start hnew⟩, idle_new hnew⟩ hzero
    (fun core h hroom => by
      obtain ⟨core', hreach', hidle', hlen'⟩ := h.2.add_link h.1 hroom hlinks
      exact ⟨core', ⟨hreach', hidle'⟩, hlen'⟩) (Nat.le_refl maxLinks)
  exact ⟨core, hreach, hlen⟩

/-- The seen set can be filled. -/
theorem exists_full_seen (hnew : new config = .ok start) (hseen : maxSeen < 2 ^ 64) :
    ∃ core : GatewayCore maxLinks maxSeen storeCapacity, ReachableFrom config core ∧
      core.router.seen.live.length = maxSeen := by
  have hzero : start.router.seen.live.length = 0 := by
    obtain ⟨-, -, -, -, rfl⟩ := new_eq_ok hnew
    simp [Router.new]
  obtain ⟨core, ⟨hreach, -⟩, hlen⟩ := exists_size_eq
    (P := fun core : GatewayCore maxLinks maxSeen storeCapacity =>
      ReachableFrom config core ∧ core.Idle)
    ⟨⟨_, .start hnew⟩, idle_new hnew⟩ hzero
    (fun core h hroom => by
      obtain ⟨core', hreach', hidle', hlen'⟩ := h.2.add_key h.1 hroom hseen
      exact ⟨core', ⟨hreach', hidle'⟩, hlen'⟩) (Nat.le_refl maxSeen)
  exact ⟨core, hreach, hlen⟩

/-- The store can be filled, if it may store. -/
theorem exists_full_store (hnew : new config = .ok start)
    (hallowed : config.policy.allowStoreAndForward = true) (hseen : maxSeen < 2 ^ 64)
    (hsize : storeCapacity < 2 ^ 64) :
    ∃ core : GatewayCore maxLinks maxSeen storeCapacity, ReachableFrom config core ∧
      core.storedLen = storeCapacity := by
  have hstart : start.config = config ∧ start.storedLen = 0 := by
    obtain ⟨-, -, -, -, rfl⟩ := new_eq_ok hnew
    exact ⟨rfl, congrArg List.length (Store.live_new _)⟩
  obtain ⟨core, ⟨hreach, -⟩, hlen⟩ := exists_size_eq
    (P := fun core : GatewayCore maxLinks maxSeen storeCapacity =>
      ReachableFrom config core ∧ core.Waiting ∧ core.config = config)
    ⟨⟨_, .start hnew⟩, waiting_new hnew, hstart.1⟩ hstart.2
    (fun core h hroom => by
      obtain ⟨core', hreach', hwaiting', hconfig', hlen'⟩ :=
        h.2.1.add_record h.1 (by rw [h.2.2]; exact hallowed) hroom hseen hsize
      exact ⟨core', ⟨hreach', hwaiting', hconfig'.trans h.2.2⟩, hlen'⟩) (Nat.le_refl storeCapacity)
  exact ⟨core, hreach, hlen⟩

/-- Without store and forward nothing is ever stored. -/
theorem live_eq_nil_of_disabled (hdisabled : config.policy.allowStoreAndForward = false)
    {core : GatewayCore maxLinks maxSeen storeCapacity} (h : ReachableFrom config core) :
    core.store.live = [] := by
  obtain ⟨log, hrun⟩ := h
  refine (hrun.invariant (I := fun _ core => core.config = config ∧ core.store.live = []) ?_ ?_).2.2
  · intro core hnew
    obtain ⟨-, -, -, -, rfl⟩ := new_eq_ok hnew
    exact ⟨rfl, Store.live_new _⟩
  · rintro log core moments core' _ ⟨hconfig, hempty⟩ hstep
    -- only a put adds records, and every put checks the policy
    have hsublist : ∀ {store : Store storeCapacity gatewayFrameBufferLen},
        store.live.Sublist core.store.live → store.live = [] := by
      intro store hsub
      rw [hempty] at hsub
      exact List.sublist_nil.mp hsub
    cases hstep with
    | metrics metrics => exact ⟨hconfig, hempty⟩
    | link set => exact ⟨hconfig, hempty⟩
    | observe later => exact ⟨hconfig, hsublist (Store.expireBefore_sublist _ _)⟩
    | expire => exact ⟨hconfig, hsublist (Store.expireBefore_sublist _ _)⟩
    | kept messageId executions => exact ⟨hconfig, hempty⟩
    | released releases removed => exact ⟨hconfig, hsublist (Store.remove_sublist removed)⟩
    | command admits step =>
      refine ⟨step.frame.config.trans hconfig, ?_⟩
      cases step with
      | put allowed accepted metrics =>
        rw [hconfig, hdisabled] at allowed
        cases allowed
      | remove accepted => exact admits.elim
      | expireBefore now metrics => exact admits.elim
      | _ => exact hempty

/-- **Capacities.** The sizes of the tables, which are `usize` constants, bound every run. The
capacities of the configuration, which are at most these sizes, bound every run exactly where they
are equal to them; the store is also bounded when nothing may be stored. -/
theorem capacities_bound_iff (hnew : new config = .ok start) (hlinks : maxLinks < 2 ^ 64)
    (hseen : maxSeen < 2 ^ 64) (hstore : storeCapacity < 2 ^ 64) :
    (∀ core : GatewayCore maxLinks maxSeen storeCapacity, ReachableFrom config core →
        core.storedLen ≤ storeCapacity ∧ core.router.links.live.length ≤ maxLinks ∧
          core.router.seen.live.length ≤ maxSeen) ∧
      ((∀ core : GatewayCore maxLinks maxSeen storeCapacity, ReachableFrom config core →
          core.storedLen ≤ config.store.capacity) ↔
        config.store.capacity = storeCapacity ∨ config.policy.allowStoreAndForward = false) ∧
      ((∀ core : GatewayCore maxLinks maxSeen storeCapacity, ReachableFrom config core →
          core.router.links.live.length ≤ config.router.maxLinks) ↔
        config.router.maxLinks = maxLinks) ∧
      ((∀ core : GatewayCore maxLinks maxSeen storeCapacity, ReachableFrom config core →
          core.router.seen.live.length ≤ config.router.maxSeenMessages) ↔
        config.router.maxSeenMessages = maxSeen) := by
  obtain ⟨-, hlinks_le, hseen_le, hstore_le, -⟩ := new_eq_ok hnew
  -- where a capacity is below the size, a run that fills the table exceeds it
  refine ⟨fun core _ => ⟨SlotArray.length_live_le _, SlotArray.length_live_le _,
    SlotArray.length_live_le _⟩, ⟨?_, ?_⟩, ⟨?_, ?_⟩, ⟨?_, ?_⟩⟩
  · intro hbound
    by_cases hallowed : config.policy.allowStoreAndForward = true
    · obtain ⟨core, hreach, hfull⟩ := exists_full_store hnew hallowed hseen hstore
      have := hbound core hreach
      exact .inl (by omega)
    · exact .inr (by simpa using hallowed)
  · rintro (hequal | hdisabled) core hreach
    · rw [hequal]
      exact SlotArray.length_live_le _
    · rw [show core.storedLen = 0 from
        congrArg List.length (live_eq_nil_of_disabled hdisabled hreach)]
      exact Nat.zero_le _
  · intro hbound
    obtain ⟨core, hreach, hfull⟩ := exists_full_links hnew hlinks
    have := hbound core hreach
    omega
  · intro hequal core _
    rw [hequal]
    exact SlotArray.length_live_le _
  · intro hbound
    obtain ⟨core, hreach, hfull⟩ := exists_full_seen hnew hseen
    have := hbound core hreach
    omega
  · intro hequal core _
    rw [hequal]
    exact SlotArray.length_live_le _

end

/-- The small gateway is configured for exactly its sizes. -/
theorem sampleConfig_bounds_sampleWorld :
    sampleWorld.core.storedLen ≤ sampleConfig.store.capacity ∧
      sampleWorld.core.router.links.live.length ≤ sampleConfig.router.maxLinks ∧
      sampleWorld.core.router.seen.live.length ≤ sampleConfig.router.maxSeenMessages := by
  obtain ⟨-, hstore, hlinks, hseen⟩ := capacities_bound_iff new_sampleConfig (by decide) (by decide)
    (by decide)
  have hreach : ReachableFrom sampleConfig sampleWorld.core := ⟨_, run_sampleWorld⟩
  exact ⟨hstore.mpr (.inl rfl) _ hreach, hlinks.mpr rfl _ hreach, hseen.mpr rfl _ hreach⟩

/-- The executor whose links are all down. -/
inductive RefuseAll where
  | mk

instance : GatewayLinkExecutor RefuseAll where
  sendLinkBytes executor linkId _ _ := (.error (.driver linkId .linkDown), executor)

/-- A configuration for one link, one key and one record. -/
def smallConfig : GatewayConfig 2 := { sampleConfig with router := ⟨1, 1⟩, store := ⟨1, .new⟩ }

def smallCore : GatewayCore 2 8 4 where
  config := smallConfig
  router := Router.new smallConfig.routerPolicy
  store := Store.new smallConfig.storePolicy
  metrics := {}
  lastNowMs := 0
  lastDeliveredMessageId := none
  lastDeliveredPayloadLen := 0

/-- The sample configuration is accepted. -/
theorem new_smallConfig : new smallConfig = .ok smallCore := by
  have hvalidate : smallConfig.validate = .ok () := by decide
  simp only [new, hvalidate, Except.mapError, bind, Except.bind]
  rfl

def smallCall (op : GatewayOp) (world : World 2 8 4 RefuseAll) : World 2 8 4 RefuseAll :=
  ((perform op).run world).state

/-- One more call of the sample run. -/
theorem run_smallCall {world : World 2 8 4 RefuseAll} (h : Run smallConfig world.log world.core)
    (op : GatewayOp) : Run smallConfig (smallCall op world).log (smallCall op world).core :=
  Run.call h op RefuseAll world.executor

/-- Two messages for other nodes were submitted, then two links came up and refused them. -/
def smallWorld : World 2 8 4 RefuseAll :=
  smallCall (.handleLinkEvent (.up ⟨fillBytes 16 4⟩))
    (smallCall (.handleLinkEvent (.up ⟨fillBytes 16 3⟩))
      (smallCall (.submit (sampleEnvelope 3 (.node ⟨fillBytes 32 7⟩) 3))
        (smallCall (.submit (sampleEnvelope 2 (.node ⟨fillBytes 32 7⟩) 3))
          ⟨smallCore, .mk, []⟩)))

/-- The sample world is reached by a run. -/
theorem reachableFrom_smallWorld : ReachableFrom smallConfig smallWorld.core :=
  ⟨smallWorld.log, run_smallCall (run_smallCall (run_smallCall (run_smallCall
    (.start new_smallConfig) _) _) _) _⟩

/-- All three configured capacities are exceeded. -/
theorem smallWorld_exceeds : new smallConfig = .ok smallCore ∧
    ReachableFrom smallConfig smallWorld.core ∧
    smallConfig.store.capacity < smallWorld.core.storedLen ∧
    smallConfig.router.maxLinks < smallWorld.core.router.links.live.length ∧
    smallConfig.router.maxSeenMessages < smallWorld.core.router.seen.live.length := by
  refine ⟨new_smallConfig, reachableFrom_smallWorld, ?_, ?_, ?_⟩
  all_goals decide +kernel

end GatewayCore

end Hyf
