import Hyf.Common.Checks
import Hyf.Config.Config

/-!
# What a configuration must be

`ValidConfig` says in one place what the checks of `GatewayConfig.validate` look for one after another, and
`GatewayConfig.validate_eq_ok_iff` that they accept exactly that.
-/

namespace Hyf

/-- What the checks of a configuration demand. -/
structure ValidConfig {maxLinks : ℕ} (config : GatewayConfig maxLinks) : Prop where
  nodeId_ne : config.nodeId.bytes ≠ fillBytes 32 0
  maxLinks_pos : 0 < config.router.maxLinks
  maxSeenMessages_pos : 0 < config.router.maxSeenMessages
  capacity_pos : 0 < config.store.capacity
  communities_ne : ∀ communityId ∈ config.policy.localCommunities.live,
    communityId.bytes ≠ fillBytes 16 0
  communities_nodup : config.policy.localCommunities.live.Nodup
  mtu_pos : ∀ link ∈ config.links.live, link.enabled = true → 0 < link.mtu
  linkIds_nodup : ((config.links.live.filter LinkConfig.enabled).map LinkConfig.linkId).Nodup
  enabled_le : config.links.enabledCount ≤ config.router.maxLinks
  enabled_le_commands : config.links.enabledCount ≤ routerCommandCapacity - 2

open Checks

theorem RouterConfig.validate_eq_ok_iff (config : RouterConfig) :
    config.validate = .ok () ↔ 0 < config.maxLinks ∧ 0 < config.maxSeenMessages := by
  unfold RouterConfig.validate
  rw [throwIf_then_eq_ok_iff, throwIf_eq_ok_iff, Nat.pos_iff_ne_zero, Nat.pos_iff_ne_zero]

theorem StoreConfig.validate_eq_ok_iff (config : StoreConfig) :
    config.validate = .ok () ↔ 0 < config.capacity := by
  unfold StoreConfig.validate
  rw [throwIf_eq_ok_iff, Nat.pos_iff_ne_zero]

theorem LinkConfig.validate_eq_ok_iff (link : LinkConfig) :
    link.validate = .ok () ↔ (link.enabled = true → 0 < link.mtu) := by
  unfold LinkConfig.validate
  rw [throwIf_eq_ok_iff, Bool.and_eq_true, beq_iff_eq, not_and, Nat.pos_iff_ne_zero]

/-! ## The two tables -/

theorem LinkConfigSet.hasDuplicateEnabledLink_eq_true_iff (later : List (Option LinkConfig))
    (linkId : LinkId) : hasDuplicateEnabledLink later linkId = true ↔
      linkId ∈ (later.reduceOption.filter LinkConfig.enabled).map LinkConfig.linkId := by
  rw [hasDuplicateEnabledLink, List.any_eq_true, List.mem_map]
  constructor
  · rintro ⟨cell, hcell, hsame⟩
    cases cell with
    | none => cases hsame
    | some link =>
      rw [Option.any_some, Bool.and_eq_true, decide_eq_true_eq] at hsame
      exact ⟨link, List.mem_filter.mpr ⟨List.reduceOption_mem_iff.mpr hcell, hsame.1⟩, hsame.2⟩
  · rintro ⟨link, hlink, hsame⟩
    rw [List.mem_filter, List.reduceOption_mem_iff] at hlink
    refine ⟨some link, hlink.1, ?_⟩
    rw [Option.any_some, Bool.and_eq_true, decide_eq_true_eq]
    exact ⟨hlink.2, hsame⟩

theorem LinkConfigSet.validateCells_eq_ok_iff (cells : List (Option LinkConfig)) :
    validateCells cells = .ok () ↔
      (∀ link ∈ cells.reduceOption, link.enabled = true → 0 < link.mtu) ∧
        ((cells.reduceOption.filter LinkConfig.enabled).map LinkConfig.linkId).Nodup := by
  induction cells with
  | nil => simp [validateCells]
  | cons cell later ih =>
    cases cell with
    | none => exact ih
    | some link =>
      unfold validateCells
      rw [bind_eq_ok_iff, throwIf_then_eq_ok_iff, ih, LinkConfig.validate_eq_ok_iff, Bool.and_eq_true,
        hasDuplicateEnabledLink_eq_true_iff, List.reduceOption_cons_of_some, List.forall_mem_cons]
      by_cases henabled : link.enabled = true
      · rw [List.filter_cons_of_pos henabled, List.map_cons, List.nodup_cons]
        tauto
      · rw [List.filter_cons_of_neg henabled]
        tauto

theorem GatewayPolicyConfig.validateCells_eq_ok_iff (cells : List (Option CommunityId)) :
    validateCells cells = .ok () ↔
      (∀ communityId ∈ cells.reduceOption, communityId.bytes ≠ fillBytes 16 0) ∧
        cells.reduceOption.Nodup := by
  induction cells with
  | nil => simp [validateCells]
  | cons cell later ih =>
    cases cell with
    | none => exact ih
    | some communityId =>
      have hlater : (later.any fun other => other.any fun otherId => otherId = communityId) = true ↔
          communityId ∈ later.reduceOption := by
        rw [List.any_eq_true, List.reduceOption_mem_iff]
        constructor
        · rintro ⟨cell, hcell, hsame⟩
          cases cell with
          | none => cases hsame
          | some otherId =>
            rw [Option.any_some, decide_eq_true_eq] at hsame
            exact hsame ▸ hcell
        · intro hcell
          exact ⟨some communityId, hcell, by simp⟩
      unfold validateCells
      rw [throwIf_then_eq_ok_iff, throwIf_then_eq_ok_iff, ih, hlater, List.reduceOption_cons_of_some,
        List.forall_mem_cons, List.nodup_cons]
      tauto

/-! ## The configuration -/

/-- The checks accept exactly the valid configurations. -/
theorem GatewayConfig.validate_eq_ok_iff {maxLinks : ℕ} (config : GatewayConfig maxLinks) :
    config.validate = .ok () ↔ ValidConfig config := by
  unfold GatewayConfig.validate validateNodeId GatewayPolicyConfig.validate LinkConfigSet.validate
  rw [bind_eq_ok_iff, bind_eq_ok_iff, bind_eq_ok_iff, bind_eq_ok_iff, bind_eq_ok_iff,
    throwIf_then_eq_ok_iff, throwIf_eq_ok_iff, throwIf_eq_ok_iff, RouterConfig.validate_eq_ok_iff,
    StoreConfig.validate_eq_ok_iff, GatewayPolicyConfig.validateCells_eq_ok_iff,
    LinkConfigSet.validateCells_eq_ok_iff, Nat.not_lt, Nat.not_lt]
  constructor
  · rintro ⟨hnode, ⟨hlinks, hseen⟩, hstore, ⟨hne, hnodup⟩, ⟨hmtu, hids⟩, hrouter, hcommands⟩
    exact ⟨hnode, hlinks, hseen, hstore, hne, hnodup, hmtu, hids, hrouter, hcommands⟩
  · intro h
    exact ⟨h.nodeId_ne, ⟨h.maxLinks_pos, h.maxSeenMessages_pos⟩, h.capacity_pos,
      ⟨h.communities_ne, h.communities_nodup⟩, ⟨h.mtu_pos, h.linkIds_nodup⟩, h.enabled_le,
      h.enabled_le_commands⟩

end Hyf
