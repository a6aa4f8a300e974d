import Hyf.Config.Validity
import Hyf.GatewayRuntime.Runs

/-!
# New runtimes

A runtime is made in two steps: the configuration is checked, and then every link that it enables is set
up. `new_ok_iff` says that the second step never fails, so that the checks alone decide, and what a new
runtime looks like.
-/

namespace Hyf

open ByteCodec Loopback

/-! ## Nothing to flush -/

namespace GatewayCore

variable {maxLinks maxSeen storeCapacity : ℕ} {E : Type} [GatewayLinkExecutor E]

theorem run_flushStore_of_empty (world : World maxLinks maxSeen storeCapacity E)
    (hempty : world.core.store.live = []) :
    flushStore.run world = .ok () { world with core := world.core.expired } := by
  have hexpired : world.core.expired.store.live = [] := by
    have hsub := Store.expireBefore_sublist world.core.store world.core.lastNowMs
    rw [hempty] at hsub
    exact List.sublist_nil.mp hsub
  have hnone : world.core.expired.store.firstPending = none :=
    Store.firstPending_eq_none_iff.mpr hexpired
  have hturn : flushIteration.run { world with core := world.core.expired } =
      .ok false { world with core := world.core.expired } := by
    simp [flushIteration, hnone]
  have hloop : flushStore.run world =
      (flushLoop (world.core.expired.store.len + 1)).run { world with core := world.core.expired } := rfl
  rw [hloop, flushLoop, EStateM.run_bind, hturn]
  rfl

/-- A link that comes up, when there is room for it and nothing to flush. -/
theorem run_handleLinkEvent_up {world : World maxLinks maxSeen storeCapacity E} {linkId : LinkId}
    {router : Router maxLinks maxSeen} (hset : world.core.router.setLinkState linkId true = .ok router)
    (hempty : world.core.store.live = []) :
    (handleLinkEvent (.up linkId)).run world =
      .ok () { world with core := { world.core with router }.expired } := by
  have hroute : (routeEvent (.link (.up linkId))).run world =
      .ok () { world with core := { world.core with router } } := by
    simp only [routeEvent, EStateM.run_bind, EStateM.run_get, Router.handleEvent, hset,
      run_modifyCore, run_propagate_ok, List.take_zero]
    rfl
  unfold handleLinkEvent
  rw [EStateM.run_bind, hroute]
  exact run_flushStore_of_empty { world with core := { world.core with router } } hempty

theorem expired_of_empty {core : GatewayCore maxLinks maxSeen storeCapacity}
    (hempty : core.store.live = []) : core.expired.store.live = [] ∧
      core.expired.metrics = core.metrics := by
  constructor
  · have hsub := Store.expireBefore_sublist core.store core.lastNowMs
    rw [hempty] at hsub
    exact List.sublist_nil.mp hsub
  · have hcount : (core.store.expireBefore core.lastNowMs).1 = 0 := by
      rw [Store.expireBefore]
      show core.store.live.countP _ = 0
      rw [hempty]
      rfl
    have hadd : saturatingAdd core.metrics.expired 0 = core.metrics.expired := by
      have hlt := core.metrics.expired.toNat_lt
      rw [saturatingAdd, UInt64.toNat_zero, Nat.add_zero, if_pos hlt, UInt64.add_zero]
    show core.metrics.addExpired (core.store.expireBefore core.lastNowMs).1 = core.metrics
    rw [hcount, GatewayMetrics.addExpired]
    show { core.metrics with expired := saturatingAdd core.metrics.expired 0 } = core.metrics
    rw [hadd]

/-- The capacities of a configuration are bounded by those of the core. -/
theorem new_eq_ok_iff {config : GatewayConfig maxLinks} :
    (∃ core : GatewayCore maxLinks maxSeen storeCapacity, new config = .ok core) ↔
      ValidConfig config ∧ config.router.maxLinks ≤ maxLinks ∧
        config.router.maxSeenMessages ≤ maxSeen ∧ config.store.capacity ≤ storeCapacity := by
  have hcapacity : ∀ {name : String} {configured maximum : ℕ}, configured ≤ maximum →
      validateRuntimeCapacity name configured maximum = .ok () := by
    intro name configured maximum h
    rw [validateRuntimeCapacity, if_neg (Nat.not_lt.mpr h)]
  constructor
  · rintro ⟨core, hnew⟩
    obtain ⟨hvalid, hlinks, hseen, hstore, -⟩ := new_eq_ok hnew
    exact ⟨config.validate_eq_ok_iff.mp hvalid, hlinks, hseen, hstore⟩
  · rintro ⟨hvalid, hlinks, hseen, hstore⟩
    rw [new, config.validate_eq_ok_iff.mpr hvalid, hcapacity hlinks, hcapacity hseen,
      hcapacity hstore]
    exact ⟨_, rfl⟩

end GatewayCore

/-! ## The supported links -/

/-- The links that a configuration enables. -/
def GatewayConfig.enabledLinks {maxLinks : ℕ} (config : GatewayConfig maxLinks) : List LinkConfig :=
  config.links.live.filter LinkConfig.enabled

theorem validateLinks_eq_ok_iff (links : List LinkConfig) : validateLinks links = .ok () ↔
    ∀ link ∈ links.filter LinkConfig.enabled, ∃ side : LoopbackSide, link.linkId = side.linkId := by
  have hside : ∀ linkId : LinkId, (∃ side : LoopbackSide, linkId = side.linkId) ↔
      ¬(linkId ≠ loopbackLeftId ∧ linkId ≠ loopbackRightId) := by
    intro linkId
    constructor
    · rintro ⟨side, rfl⟩ ⟨hleft, hright⟩
      cases side with
      | left => exact hleft rfl
      | right => exact hright rfl
    · intro h
      by_cases hleft : linkId = loopbackLeftId
      · exact ⟨.left, hleft⟩
      · exact ⟨.right, by_contra fun hright => h ⟨hleft, hright⟩⟩
  induction links with
  | nil => exact iff_of_true rfl (by simp)
  | cons link rest ih =>
    rw [validateLinks]
    by_cases henabled : link.enabled = true
    · rw [List.filter_cons_of_pos henabled, List.forall_mem_cons, hside]
      refine Iff.trans ?_ (and_congr_right' ih)
      by_cases hunknown : link.linkId ≠ loopbackLeftId ∧ link.linkId ≠ loopbackRightId
      · rw [if_pos ⟨henabled, hunknown⟩]
        exact iff_of_false (fun h => by cases h) fun h => h.1 hunknown
      · rw [if_neg fun h => hunknown h.2]
        exact (and_iff_right hunknown).symm
    · rw [if_neg fun h => henabled h.1, List.filter_cons_of_neg henabled]
      exact ih

namespace GatewayRuntime

variable {maxLinks maxSeen storeCapacity loopbackQueue : ℕ} {config : GatewayConfig maxLinks}

/-- A runtime in which these links were activated, and nothing else happened. -/
structure Activated (config : GatewayConfig maxLinks) (links : List LinkConfig)
    (world : RuntimeWorld maxLinks maxSeen storeCapacity loopbackQueue) : Prop where
  executor_eq : world.gateway.executor = LoopbackPair.new (firstLinkMtu config)
  log_eq : world.gateway.log = []
  received_eq : world.received = []
  config_eq : world.gateway.core.config = config
  lastNowMs_eq : world.gateway.core.lastNowMs = 0
  metrics_eq : world.gateway.core.metrics = {}
  lastDeliveredMessageId_eq : world.gateway.core.lastDeliveredMessageId = none
  lastDeliveredPayloadLen_eq : world.gateway.core.lastDeliveredPayloadLen = 0
  stored_eq : world.gateway.core.store.live = []
  seen_eq : world.gateway.core.router.seen.live = []
  links_packed : world.gateway.core.router.links.Packed
    (links.map fun link => ⟨link.linkId, true⟩)

variable {links : List LinkConfig}
  {world : RuntimeWorld maxLinks maxSeen storeCapacity loopbackQueue}

/-- One link more. -/
theorem Activated.setLinkUp (h : Activated config links world) {link : LinkConfig}
    (hside : ∃ side : LoopbackSide, link.linkId = side.linkId)
    (hfresh : link.linkId ∉ links.map LinkConfig.linkId) (hroom : links.length < maxLinks) :
    ∃ world', setLinkUp link.linkId true world = .ok () world' ∧
      Activated config (links ++ [link]) world' := by
  obtain ⟨side, hlinkId⟩ := hside
  have hendpoint : (world.gateway.executor.endpoint side).linkId = side.linkId ∧
      (world.gateway.executor.endpoint side).up = true := by
    rw [h.executor_eq]
    cases side
    · exact ⟨rfl, rfl⟩
    · exact ⟨rfl, rfl⟩
  -- the endpoint is up already
  have hsame : world.withPair (world.gateway.executor.setEndpoint
      { world.gateway.executor.endpoint side with up := true } side) = world := by
    have hup : { world.gateway.executor.endpoint side with up := true } =
        world.gateway.executor.endpoint side := by
      rw [← hendpoint.2]
    rw [hup, LoopbackPair.setEndpoint_endpoint, RuntimeWorld.withPair_self]
  have hlength : (links.map fun link => (⟨link.linkId, true⟩ : LinkState)).length = links.length :=
    List.length_map _
  have habsent : world.gateway.core.router.findLinkIndex side.linkId = none := by
    rw [Router.findLinkIndex, SlotArray.findLive_eq_none_iff, h.links_packed.live_eq]
    intro row hrow
    rw [List.mem_map] at hrow
    obtain ⟨other, hother, rfl⟩ := hrow
    rw [decide_eq_false_iff_not]
    intro hid
    exact hfresh (List.mem_map.mpr ⟨other, hother, hid.trans hlinkId.symm⟩)
  obtain ⟨router, hset, hseen, hpacked⟩ : ∃ router,
      world.gateway.core.router.setLinkState side.linkId true = .ok router ∧
      router.seen = world.gateway.core.router.seen ∧ router.links.Packed
        ((links ++ [link]).map fun link => (⟨link.linkId, true⟩ : LinkState)) := by
    rw [← hlength] at hroom
    have hpush := h.links_packed.push hroom ⟨side.linkId, true⟩
    have hset : world.gateway.core.router.setLinkState side.linkId true = .ok
        { world.gateway.core.router with
          links := world.gateway.core.router.links.write
            (links.map fun link => (⟨link.linkId, true⟩ : LinkState)).length
            (some ⟨side.linkId, true⟩) } := by
      rw [Router.setLinkState, habsent, h.links_packed.firstFree_eq hroom]
      rfl
    refine ⟨_, hset, rfl, ?_⟩
    rw [List.map_append, List.map_singleton, hlinkId]
    exact hpush
  have hrun := GatewayCore.run_handleLinkEvent_up hset h.stored_eq
  obtain ⟨hempty, hmetrics⟩ := @GatewayCore.expired_of_empty _ _ _
    { world.gateway.core with router } h.stored_eq
  refine ⟨{ world with gateway :=
    { world.gateway with core := { world.gateway.core with router }.expired } }, ?_, ?_⟩
  · rw [hlinkId, setLinkUp_of_side side true world hendpoint.1, hsame, onCore, linkEvent, if_pos rfl]
    rw [EStateM.run] at hrun
    rw [hrun]
  · refine ⟨h.executor_eq, h.log_eq, h.received_eq, h.config_eq, h.lastNowMs_eq,
      hmetrics.trans h.metrics_eq, h.lastDeliveredMessageId_eq, h.lastDeliveredPayloadLen_eq, hempty, ?_,
      hpacked⟩
    rw [← h.seen_eq, ← hseen]
    rfl

/-- All the links that are left. -/
theorem Activated.activateLinks (h : Activated config links world) (rest : List LinkConfig)
    (hside : ∀ link ∈ rest.filter LinkConfig.enabled, ∃ side : LoopbackSide, link.linkId = side.linkId)
    (hnodup : ((links ++ rest.filter LinkConfig.enabled).map LinkConfig.linkId).Nodup)
    (hroom : (links ++ rest.filter LinkConfig.enabled).length ≤ maxLinks) :
    ∃ world', activateLinks rest world = .ok () world' ∧
      Activated config (links ++ rest.filter LinkConfig.enabled) world' := by
  induction rest generalizing links world with
  | nil =>
    refine ⟨world, rfl, ?_⟩
    rw [List.filter_nil, List.append_nil]
    exact h
  | cons link rest ih =>
    rw [GatewayRuntime.activateLinks]
    by_cases henabled : link.enabled = true
    · rw [List.filter_cons_of_pos henabled] at hside hnodup hroom ⊢
      rw [List.append_cons] at hnodup hroom ⊢
      rw [List.forall_mem_cons] at hside
      have hfresh : link.linkId ∉ links.map LinkConfig.linkId := by
        rw [List.map_append, List.map_append, List.nodup_append] at hnodup
        rw [List.nodup_append] at hnodup
        intro hmem
        exact hnodup.1.2.2 _ hmem _ (List.mem_singleton_self _) rfl
      have hless : links.length < maxLinks := by
        rw [List.length_append, List.length_append, List.length_singleton] at hroom
        omega
      obtain ⟨world₁, hset, hactivated⟩ := h.setLinkUp hside.1 hfresh hless
      obtain ⟨world₂, hrest, hactivated'⟩ := ih hactivated hside.2 hnodup hroom
      refine ⟨world₂, ?_, hactivated'⟩
      rw [if_pos henabled, run_bind_of_ok hset]
      exact hrest
    · rw [List.filter_cons_of_neg henabled] at hside hnodup hroom ⊢
      rw [if_neg henabled]
      exact ih h hside hnodup hroom

theorem activated_inactive {core : GatewayCore maxLinks maxSeen storeCapacity}
    (h : GatewayCore.new config = .ok core) : Activated config []
      (inactive config core : RuntimeWorld maxLinks maxSeen storeCapacity loopbackQueue) := by
  obtain ⟨-, -, -, -, rfl⟩ := GatewayCore.new_eq_ok h
  refine ⟨rfl, rfl, rfl, rfl, rfl, rfl, rfl, rfl, Store.live_new _, ?_, .of_empty⟩
  exact SlotArray.live_empty

/-- The configurations that a runtime of this size can be made from. -/
structure Fits (maxSeen storeCapacity : ℕ) (config : GatewayConfig maxLinks) : Prop where
  valid : ValidConfig config
  maxLinks_le : config.router.maxLinks ≤ maxLinks
  maxSeenMessages_le : config.router.maxSeenMessages ≤ maxSeen
  capacity_le : config.store.capacity ≤ storeCapacity
  onPair : ∀ link ∈ config.enabledLinks, ∃ side : LoopbackSide, link.linkId = side.linkId

/-- Behind the checks nothing fails. -/
theorem Fits.exists_new (h : Fits maxSeen storeCapacity config) :
    ∃ world : RuntimeWorld maxLinks maxSeen storeCapacity loopbackQueue,
      new config = .ok world ∧ Activated config config.enabledLinks world := by
  obtain ⟨core, hcore⟩ : ∃ core : GatewayCore maxLinks maxSeen storeCapacity,
      GatewayCore.new config = .ok core := GatewayCore.new_eq_ok_iff.mpr
    ⟨h.valid, h.maxLinks_le, h.maxSeenMessages_le, h.capacity_le⟩
  have hlinks : validateSupportedLinks config = .ok () :=
    (validateLinks_eq_ok_iff _).mpr h.onPair
  have hcount : config.enabledLinks.length ≤ maxLinks := by
    have hle := h.valid.enabled_le
    rw [LinkConfigSet.enabledCount, List.countP_eq_length_filter] at hle
    exact hle.trans h.maxLinks_le
  obtain ⟨world, hactivate, hactivated⟩ :=
    (@activated_inactive _ _ _ loopbackQueue _ _ hcore).activateLinks config.links.live
      h.onPair h.valid.linkIds_nodup hcount
  refine ⟨world, ?_, hactivated⟩
  have hconfigured : activateConfiguredLinks (inactive config core :
      RuntimeWorld maxLinks maxSeen storeCapacity loopbackQueue) = .ok () world := by
    have hconfig : (inactive config core : RuntimeWorld maxLinks maxSeen storeCapacity
        loopbackQueue).gateway.core.config = config := by
      obtain ⟨-, -, -, -, rfl⟩ := GatewayCore.new_eq_ok hcore
      rfl
    rw [activateConfiguredLinks, run_get_bind]
    simp only [hconfig]
    exact hactivate
  unfold inactive at hconfigured
  unfold new
  simp only [hlinks, hcore, ofResult, bind, Except.bind, hconfigured]
  rfl

/-- What `new` returns was checked. -/
theorem fits_of_new (h : new config = .ok world) : Fits maxSeen storeCapacity config := by
  obtain ⟨hlinks, core, hcore, -⟩ := new_eq h
  obtain ⟨hvalid, hmaxLinks, hseen, hstore⟩ := GatewayCore.new_eq_ok_iff.mp ⟨core, hcore⟩
  exact ⟨hvalid, hmaxLinks, hseen, hstore, (validateLinks_eq_ok_iff _).mp hlinks⟩

theorem activated_of_new (h : new config = .ok world) : Activated config config.enabledLinks world := by
  obtain ⟨world', hnew, hactivated⟩ := (fits_of_new h).exists_new
  rw [h] at hnew
  cases hnew
  exact hactivated

/-- **A runtime is made exactly from the configurations that fit it.** Activation never fails: once the
checks of the configuration, its capacities and its links have passed, there is a runtime, with the enabled
links up in the order of the configuration, both sides of the pair up, and nothing queued, stored,
remembered, counted, delivered or logged. -/
theorem new_ok_iff (config : GatewayConfig maxLinks) :
    ((∃ world : RuntimeWorld maxLinks maxSeen storeCapacity loopbackQueue, new config = .ok world) ↔
      Fits maxSeen storeCapacity config) ∧
    ∀ world : RuntimeWorld maxLinks maxSeen storeCapacity loopbackQueue, new config = .ok world →
      Activated config config.enabledLinks world := by
  refine ⟨⟨fun ⟨_, h⟩ => fits_of_new h, fun h => ?_⟩, fun _ h => activated_of_new h⟩
  obtain ⟨world, hnew, -⟩ := h.exists_new
  exact ⟨world, hnew⟩

/-! ## A small runtime -/

/-- The small gateway with the left link of a pair. -/
def pairConfig : GatewayConfig 2 :=
  { GatewayCore.sampleConfig with
    links := (SlotArray.empty _ _).write 0 (some ⟨loopbackLeftId, 256, true⟩) }

def pairStart : RuntimeWorld 2 8 4 4 where
  gateway := {
    core := { GatewayCore.sampleCore with
      config := pairConfig
      router := { GatewayCore.sampleCore.router with
        links := (SlotArray.empty _ _).write 0 (some ⟨loopbackLeftId, true⟩) } }
    executor := LoopbackPair.new 256
    log := [] }
  received := []

theorem new_pairConfig : new pairConfig = .ok pairStart := by
  have hvalidate : pairConfig.validate = .ok () := by decide
  have hlinks : validateSupportedLinks pairConfig = .ok () := by decide
  have hnew : GatewayCore.new pairConfig =
      .ok { GatewayCore.sampleCore with config := pairConfig } := by
    simp only [GatewayCore.new, hvalidate, Except.mapError, bind, Except.bind]
    rfl
  simp only [new, hlinks, hnew, ofResult, bind, Except.bind]
  rfl

/-- The runtime after it has sent a message for another node to the right side. -/
def pairWorld : RuntimeWorld 2 8 4 4 :=
  (perform (.submit (sampleEnvelope 2 (.node ⟨fillBytes 32 7⟩) 3)) pairStart).state

theorem run_pairWorld : Run pairConfig pairWorld :=
  .call (.start new_pairConfig) (.submit (sampleEnvelope 2 (.node ⟨fillBytes 32 7⟩) 3))

end GatewayRuntime

end Hyf
