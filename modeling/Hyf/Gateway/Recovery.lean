import Hyf.Gateway.Capacity
import Hyf.Gateway.Echo

/-!
# A link that comes up empties the store

The store is flushed when a link recovers. With links that take what they are given, no turn of that
flush stops it before the store is empty, so that after it every stored message has left on the links
its destination asks for.
-/

namespace Hyf

namespace Router

/-- A link that has come up can be sent on. -/
theorem egressLinks_ne_nil_of_setLinkState {maxLinks maxSeen : ℕ}
    {router router' : Router maxLinks maxSeen} {linkId : LinkId}
    (h : router.setLinkState linkId true = .ok router') : router'.egressLinks none ≠ [] := by
  have hup : ⟨linkId, true⟩ ∈ router'.links.live := by
    obtain ⟨-, -, -, -, hcases⟩ := setLinkState_eq_ok h
    rcases hcases with ⟨before, link, after, -, -, hlive⟩ |
      ⟨-, -, before, after, -, hlive⟩ | ⟨-, hdown, -⟩
    · simp [hlive]
    · simp [hlive]
    · cases hdown
  exact List.ne_nil_of_mem (mem_egressLinks.mpr ⟨hup, by simp⟩)

end Router

namespace GatewayCore

variable {maxLinks maxSeen storeCapacity : ℕ} {E : Type}

/-- **A link that comes up empties the store.** With at most 15 links up and links that take what they
are given, the call succeeds, nothing is left in the store, and every stored message for another node
or a community has left on the links it has to leave on. -/
theorem recovery_drains [GatewayLinkExecutor E] (haccepts : Accepting (Answers E))
    {world : World maxLinks maxSeen storeCapacity E} (hreach : Reachable world.core)
    {linkId : LinkId} {router : Router maxLinks maxSeen}
    (hset : world.core.router.setLinkState linkId true = .ok router)
    (hroom : router.upLinkCountExcept none ≤ 15) :
    ((perform (.handleLinkEvent (.up linkId))).run world).outcome = .ok () ∧
    ((perform (.handleLinkEvent (.up linkId))).run world).state.core.store.live = [] ∧
    ∃ moments,
      ((perform (.handleLinkEvent (.up linkId))).run world).state.log = world.log ++ moments ∧
      ∀ envelope egress, world.core.Retains envelope → envelope.hopLimit ≠ 0 →
        router.isLocalDestination envelope.destination = false →
          egress ∈ router.storedEgress envelope.destination → SentOn moments egress envelope := by
  have htimely := hreach.timely
  obtain ⟨-, hnow, -⟩ := Router.setLinkState_eq_ok hset
  have hrouted : world.core.routed (.link (.up linkId)) = { world.core with router } := by
    rw [routed, Router.handleEvent, hset]
  have hplan : world.core.router.planEvent (.link (.up linkId)) = .ok [] := by
    rw [Router.planEvent, hset]
    rfl
  have hevent : ∀ now, RouterEvent.link (.up linkId) ≠ .tick now := by simp
  obtain ⟨moments, outcome, core', executor, hcall, houtcome, hstate⟩ :=
    run_routeThenFlush hevent world hreach.wellFormed
  change ((perform (.handleLinkEvent (.up linkId))).run world).outcome = outcome at houtcome
  change ((perform (.handleLinkEvent (.up linkId))).run world).state = _ at hstate
  rw [houtcome, hstate]
  cases hcall with
  | refused routes => cases (routes.of_nil hplan).1
  | @flushed first later _ _ _ routes flushes =>
    obtain ⟨-, rfl⟩ := routes.of_nil hplan
    rw [hrouted] at flushes
    have hstore := hreach.wellFormed.of_sublist (Store.expireBefore_sublist _ world.core.lastNowMs)
    obtain ⟨hok, hempty, hsent⟩ := flushes.drains haccepts
      (Router.egressLinks_ne_nil_of_setLinkState hset) hroom hstore
    refine ⟨hok, hempty, first ++ later, rfl, ?_⟩
    intro envelope egress hretains hhops hremote hegress
    -- what is in the store of a reachable core has not expired
    have hunexpired := htimely.unexpired _ hretains.live
    have hlive := Store.mem_live_expireBefore.mpr ⟨hretains.live, hunexpired⟩
    have hclock : router.nowMs = world.core.lastNowMs := hnow.trans htimely.clocks
    have hplanned : .send egress envelope ∈ router.planStored envelope :=
      Router.send_mem_planStored_iff.mpr ⟨hclock ▸ hunexpired, hhops, hremote, hegress⟩
    obtain ⟨moment, hmoment, hevent⟩ := hsent envelope egress hretains.valid hlive hplanned
    exact ⟨moment, List.mem_append_right _ hmoment, hevent⟩

/-- The stored message of the small gateway leaves when its link comes up. -/
theorem recovery_drains_offlineWorld : offlineWorld.core.store.len = 1 ∧
    ((perform (.handleLinkEvent (.up ⟨fillBytes 16 3⟩))).run offlineWorld).outcome = .ok () ∧
    ((perform (.handleLinkEvent (.up ⟨fillBytes 16 3⟩))).run offlineWorld).state.core.store.live = [] ∧
    ∃ moments, ((perform (.handleLinkEvent (.up ⟨fillBytes 16 3⟩))).run offlineWorld).state.log =
        offlineWorld.log ++ moments ∧
      SentOn moments ⟨fillBytes 16 3⟩ (sampleEnvelope 2 (.node ⟨fillBytes 32 7⟩) 3) := by
  have hcheck : (offlineWorld.core.router.setLinkState ⟨fillBytes 16 3⟩ true).toOption.any
      (fun router => decide (router.upLinkCountExcept none ≤ 15 ∧
        router.isLocalDestination (.node ⟨fillBytes 32 7⟩) = false ∧
          ⟨fillBytes 16 3⟩ ∈ router.storedEgress (.node ⟨fillBytes 32 7⟩))) = true := by
    decide +kernel
  have hretains : offlineWorld.core.Retains (sampleEnvelope 2 (.node ⟨fillBytes 32 7⟩) 3) :=
    ⟨validEnvelope_sampleEnvelope _ _ _, by decide +kernel, by decide +kernel⟩
  cases hset : offlineWorld.core.router.setLinkState ⟨fillBytes 16 3⟩ true with
  | error error =>
    rw [hset] at hcheck
    cases hcheck
  | ok router =>
    rw [hset] at hcheck
    obtain ⟨hroom, hremote, hegress⟩ := of_decide_eq_true hcheck
    obtain ⟨hok, hempty, moments, hlog, hsent⟩ :=
      recovery_drains accepting_acceptAll ⟨_, _, run_offlineWorld⟩ hset hroom
    exact ⟨by decide +kernel, hok, hempty, moments, hlog,
      hsent _ _ hretains (by decide) hremote hegress⟩

end GatewayCore

end Hyf
