import Hyf.Router.Router
import Hyf.Store.Store

/-!
# Gateway configuration (`hyf_config`)

A configuration names the node, the capacities the operator asks for, the links and the policy.
`GatewayConfig.validate` runs its checks in the order of the source and stops at the first failure.
-/

/-- A sequence of checks that succeeded: its first check did, and so did the rest. -/
theorem Except.exists_of_bind_eq_ok {ε α β : Type} {x : Except ε α} {f : α → Except ε β} {b : β}
    (h : (x >>= f) = .ok b) : ∃ a, x = .ok a ∧ f a = .ok b := by
  cases x with
  | error error => cases h
  | ok a => exact ⟨a, rfl, h⟩

namespace Hyf

inductive ConfigError where
  | invalidNodeId
  | invalidRouterLinkCapacity
  | invalidRouterDedupeCapacity
  | invalidStoreCapacity
  | invalidLocalCommunity
  | duplicateLocalCommunity (communityId : CommunityId)
  | invalidLinkMtu (linkId : LinkId)
  | duplicateLinkId (linkId : LinkId)
  | linkCountExceedsRouter (links maximum : ℕ)
  | linkCountExceedsRouterCommandCapacity (links maximum : ℕ)
  deriving DecidableEq

structure RouterConfig where
  maxLinks : ℕ
  maxSeenMessages : ℕ

def RouterConfig.validate (config : RouterConfig) : Except ConfigError Unit := do
  if config.maxLinks = 0 then throw .invalidRouterLinkCapacity
  if config.maxSeenMessages = 0 then throw .invalidRouterDedupeCapacity

structure StoreConfig where
  capacity : ℕ
  policy : StorePolicy

def StoreConfig.validate (config : StoreConfig) : Except ConfigError Unit := do
  if config.capacity = 0 then throw .invalidStoreCapacity

structure LinkConfig where
  linkId : LinkId
  mtu : ℕ
  enabled : Bool

def LinkConfig.validate (config : LinkConfig) : Except ConfigError Unit := do
  if config.enabled && config.mtu == 0 then throw (.invalidLinkMtu config.linkId)

abbrev LinkConfigSet (n : ℕ) := SlotArray LinkConfig n

namespace LinkConfigSet

def enabledCount {n : ℕ} (links : LinkConfigSet n) : ℕ :=
  links.live.countP LinkConfig.enabled

/-- Whether an enabled link among the later cells has the same id. -/
def hasDuplicateEnabledLink (later : List (Option LinkConfig)) (linkId : LinkId) : Bool :=
  later.any fun other => other.any fun config => config.enabled && decide (config.linkId = linkId)

/-- The loop over the cells: each one is compared with those after it. -/
def validateCells : List (Option LinkConfig) → Except ConfigError Unit
  | [] => .ok ()
  | none :: later => validateCells later
  | some config :: later => do
    config.validate
    if config.enabled && hasDuplicateEnabledLink later config.linkId then
      throw (.duplicateLinkId config.linkId)
    validateCells later

def validate {n : ℕ} (links : LinkConfigSet n) : Except ConfigError Unit :=
  validateCells links.toList

end LinkConfigSet

structure GatewayPolicyConfig where
  allowStoreAndForward : Bool
  localCommunities : SlotArray CommunityId routerLocalCommunityCapacity

namespace GatewayPolicyConfig

def validateCells : List (Option CommunityId) → Except ConfigError Unit
  | [] => .ok ()
  | none :: later => validateCells later
  | some communityId :: later => do
    if communityId.bytes = fillBytes 16 0 then throw .invalidLocalCommunity
    if later.any fun other => other.any fun otherId => otherId = communityId then
      throw (.duplicateLocalCommunity communityId)
    validateCells later

def validate (policy : GatewayPolicyConfig) : Except ConfigError Unit :=
  validateCells policy.localCommunities.toList

end GatewayPolicyConfig

structure GatewayConfig (maxLinks : ℕ) where
  nodeId : NodeId
  router : RouterConfig
  store : StoreConfig
  links : LinkConfigSet maxLinks
  policy : GatewayPolicyConfig

def validateNodeId (nodeId : NodeId) : Except ConfigError Unit := do
  if nodeId.bytes = fillBytes 32 0 then throw .invalidNodeId

namespace GatewayConfig

variable {maxLinks : ℕ}

def validate (config : GatewayConfig maxLinks) : Except ConfigError Unit := do
  validateNodeId config.nodeId
  config.router.validate
  config.store.validate
  config.policy.validate
  config.links.validate
  let enabledLinks := config.links.enabledCount
  if enabledLinks > config.router.maxLinks then
    throw (.linkCountExceedsRouter enabledLinks config.router.maxLinks)
  let fanoutLinkMax := routerCommandCapacity - 2
  if enabledLinks > fanoutLinkMax then
    throw (.linkCountExceedsRouterCommandCapacity enabledLinks fanoutLinkMax)

def routerPolicy (config : GatewayConfig maxLinks) : RouterPolicy where
  localNodeId := config.nodeId
  localCommunities := config.policy.localCommunities

def storePolicy (config : GatewayConfig maxLinks) : StorePolicy := config.store.policy

/-- An accepted configuration asks for at least one link, one remembered key and one record. -/
theorem capacities_pos_of_validate {config : GatewayConfig maxLinks}
    (h : config.validate = .ok ()) :
    0 < config.router.maxLinks ∧ 0 < config.router.maxSeenMessages ∧
      0 < config.store.capacity := by
  rw [validate] at h
  obtain ⟨_, -, h⟩ := Except.exists_of_bind_eq_ok h
  obtain ⟨_, hrouter, h⟩ := Except.exists_of_bind_eq_ok h
  obtain ⟨_, hstore, -⟩ := Except.exists_of_bind_eq_ok h
  refine ⟨?_, ?_, ?_⟩
  · by_contra hzero
    rw [RouterConfig.validate, if_pos (by omega)] at hrouter
    cases hrouter
  · by_contra hzero
    by_cases hlinks : config.router.maxLinks = 0
    · rw [RouterConfig.validate, if_pos hlinks] at hrouter
      cases hrouter
    · rw [RouterConfig.validate, if_neg hlinks, if_pos (by omega)] at hrouter
      cases hrouter
  · by_contra hzero
    rw [StoreConfig.validate, if_pos (by omega)] at hstore
    cases hstore

end GatewayConfig

end Hyf
