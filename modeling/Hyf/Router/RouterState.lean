import Hyf.Common.DedupeWindow
import Hyf.Router.RouterPlan

/-!
# The router's tables

The duplicate filter is a dedupe window over the keys committed so far: committing a key that is not
in the window appends it to the history. The link table never holds a link id twice.
-/

namespace Hyf

namespace Router

variable {maxLinks maxSeen : ℕ}

theorem hasSeen_iff {router : Router maxLinks maxSeen} {key : RouterSeenKey} :
    router.hasSeen key = true ↔ key ∈ router.seen.live := by
  simp [hasSeen]

/-! ## Committing keys -/

/-- Committing touches the filter only. -/
theorem exists_commitSeen_eq (router : Router maxLinks maxSeen) (envelope : HyfEnvelopeRef) :
    ∃ seen nextSeen, router.commitSeen envelope =
      { router with seen := seen, nextSeen := nextSeen } := by
  simp only [commitSeen, markSeen]
  split_ifs
  · exact ⟨_, _, rfl⟩
  · split
    · exact ⟨_, _, rfl⟩
    · exact ⟨_, _, rfl⟩
  · exact ⟨_, _, rfl⟩

@[simp] theorem commitSeen_policy (router : Router maxLinks maxSeen) (envelope : HyfEnvelopeRef) :
    (router.commitSeen envelope).policy = router.policy := by
  obtain ⟨seen, nextSeen, h⟩ := router.exists_commitSeen_eq envelope
  rw [h]

@[simp] theorem commitSeen_nowMs (router : Router maxLinks maxSeen) (envelope : HyfEnvelopeRef) :
    (router.commitSeen envelope).nowMs = router.nowMs := by
  obtain ⟨seen, nextSeen, h⟩ := router.exists_commitSeen_eq envelope
  rw [h]

@[simp] theorem commitSeen_links (router : Router maxLinks maxSeen) (envelope : HyfEnvelopeRef) :
    (router.commitSeen envelope).links = router.links := by
  obtain ⟨seen, nextSeen, h⟩ := router.exists_commitSeen_eq envelope
  rw [h]

theorem commitSeen_of_hasSeen {router : Router maxLinks maxSeen} {envelope : HyfEnvelopeRef}
    (h : router.hasSeen (seenKeyFor envelope) = true) : router.commitSeen envelope = router := by
  simp [commitSeen, h]

/-- An unseen key takes a row of its own while the filter has room. -/
theorem length_seen_commitSeen {router : Router maxLinks maxSeen} {envelope : HyfEnvelopeRef}
    (hunseen : router.hasSeen (seenKeyFor envelope) = false)
    (hroom : router.seen.live.length < maxSeen) :
    (router.commitSeen envelope).seen.live.length = router.seen.live.length + 1 := by
  obtain ⟨index, hindex⟩ := SlotArray.exists_firstFree hroom
  obtain ⟨before, after, hold, hnew⟩ :=
    SlotArray.live_write_firstFree hindex (seenKeyFor envelope)
  have hpos : maxSeen ≠ 0 := by omega
  simp only [commitSeen, hunseen, Bool.not_false, if_true, markSeen, if_neg hpos, hindex]
  rw [hnew, hold]
  simp only [List.length_append, List.length_cons]
  omega

/-- The filter holds the window of the keys committed so far, which is a fresh history. -/
structure Remembers (router : Router maxLinks maxSeen) (history : List RouterSeenKey) : Prop where
  represents : DedupeWindow.Represents router.seen router.nextSeen history
  fresh : DedupeWindow.Fresh maxSeen history

theorem remembers_new (policy : RouterPolicy) (h : 0 < maxSeen) :
    (new policy : Router maxLinks maxSeen).Remembers [] :=
  ⟨DedupeWindow.represents_empty h, DedupeWindow.Fresh.nil⟩

theorem Remembers.congr {router router' : Router maxLinks maxSeen} {history : List RouterSeenKey}
    (h : router.Remembers history) (hseen : router'.seen = router.seen)
    (hnext : router'.nextSeen = router.nextSeen) : router'.Remembers history :=
  ⟨hseen ▸ hnext ▸ h.represents, h.fresh⟩

theorem Remembers.hasSeen_iff {router : Router maxLinks maxSeen} {history : List RouterSeenKey}
    (h : router.Remembers history) {key : RouterSeenKey} :
    router.hasSeen key = true ↔ key ∈ history.rtake maxSeen := by
  rw [Router.hasSeen_iff, h.represents.mem_live]

/-- Committing an unseen key appends it to the history. -/
theorem Remembers.commitSeen {router : Router maxLinks maxSeen} {history : List RouterSeenKey}
    (h : router.Remembers history) {envelope : HyfEnvelopeRef}
    (hunseen : router.hasSeen (seenKeyFor envelope) = false) :
    (router.commitSeen envelope).Remembers (history ++ [seenKeyFor envelope]) := by
  have hwrite := h.represents.write (seenKeyFor envelope)
  refine ⟨?_, h.fresh.snoc ?_⟩
  · have hpos : maxSeen ≠ 0 := h.represents.capacity_pos.ne'
    simp only [Router.commitSeen, hunseen, Bool.not_false, if_true, markSeen, if_neg hpos]
    cases hfree : router.seen.firstFree with
    | none => exact hwrite
    | some index =>
      obtain rfl := h.represents.firstFree_eq hfree
      exact hwrite
  · rw [← h.hasSeen_iff, hunseen]
    exact Bool.false_ne_true

/-! ## The link table -/

/-- Setting a link's state replaces its row, adds one, or does nothing. -/
theorem setLinkState_eq_ok {router router' : Router maxLinks maxSeen} {linkId : LinkId} {up : Bool}
    (h : router.setLinkState linkId up = .ok router') :
    router'.policy = router.policy ∧ router'.nowMs = router.nowMs ∧
      router'.seen = router.seen ∧ router'.nextSeen = router.nextSeen ∧
      ((∃ before link after, router.links.live = before ++ link :: after ∧ link.linkId = linkId ∧
          router'.links.live = before ++ ⟨linkId, up⟩ :: after) ∨
        ((∀ link ∈ router.links.live, link.linkId ≠ linkId) ∧ up = true ∧
          ∃ before after, router.links.live = before ++ after ∧
            router'.links.live = before ++ ⟨linkId, up⟩ :: after) ∨
        ((∀ link ∈ router.links.live, link.linkId ≠ linkId) ∧ up = false ∧ router' = router)) := by
  unfold setLinkState at h
  split at h
  · rename_i index hindex
    cases h
    obtain ⟨before, link, after, hlive, hid, -, -, hwrite⟩ := SlotArray.live_write_findLive hindex
    exact ⟨rfl, rfl, rfl, rfl, .inl ⟨before, link, after, hlive, by simpa using hid, hwrite _⟩⟩
  · rename_i hnone
    have habsent : ∀ link ∈ router.links.live, link.linkId ≠ linkId := by
      have := SlotArray.findLive_eq_none_iff.mp hnone
      simpa using this
    split_ifs at h with hdown
    · cases h
      exact ⟨rfl, rfl, rfl, rfl, .inr (.inr ⟨habsent, by simpa using hdown, rfl⟩)⟩
    · split at h
      · cases h
      · rename_i index hfree
        cases h
        exact ⟨rfl, rfl, rfl, rfl, .inr (.inl ⟨habsent, by simpa using hdown,
          SlotArray.live_write_firstFree hfree _⟩)⟩

/-- The ids in the link table. -/
def linkIds (router : Router maxLinks maxSeen) : List LinkId :=
  router.links.live.map LinkState.linkId

theorem nodup_linkIds_setLinkState {router router' : Router maxLinks maxSeen} {linkId : LinkId}
    {up : Bool} (h : router.setLinkState linkId up = .ok router')
    (hnodup : router.linkIds.Nodup) : router'.linkIds.Nodup := by
  obtain ⟨-, -, -, -, hcases⟩ := setLinkState_eq_ok h
  rcases hcases with ⟨before, link, after, hlive, hid, hlive'⟩ |
    ⟨habsent, -, before, after, hlive, hlive'⟩ | ⟨-, -, rfl⟩
  · rw [linkIds, hlive] at hnodup
    rw [linkIds, hlive']
    simpa [hid] using hnodup
  · rw [linkIds, hlive] at hnodup
    rw [linkIds, hlive', List.map_append, List.map_cons,
      List.perm_middle.nodup_iff, List.nodup_cons, ← List.map_append]
    refine ⟨?_, by rwa [List.map_append] at hnodup ⊢⟩
    rw [List.mem_map]
    rintro ⟨link, hmem, hid⟩
    exact habsent link (hlive ▸ hmem) hid
  · exact hnodup

/-- With distinct ids, the only link that is up is the only one a message can leave on. -/
theorem egressLinks_eq_singleton {router : Router maxLinks maxSeen} {linkId : LinkId}
    (hnodup : router.linkIds.Nodup) (hup : linkId ∈ router.egressLinks none)
    (honly : router.egressLinks (some linkId) = []) : router.egressLinks none = [linkId] := by
  have hsub : (router.egressLinks none).Nodup :=
    hnodup.sublist (List.filter_sublist.map _)
  have hall : ∀ other ∈ router.egressLinks none, other = linkId := by
    intro other hother
    by_contra hne
    have : other ∈ router.egressLinks (some linkId) :=
      mem_egressLinks.mpr ⟨mem_egressLinks_none.mp hother, by simpa using hne⟩
    rw [honly] at this
    cases this
  have hperm : (router.egressLinks none).Perm [linkId] := by
    rw [List.perm_ext_iff_of_nodup hsub (List.nodup_singleton _)]
    intro other
    rw [List.mem_singleton]
    exact ⟨hall other, fun h => h ▸ hup⟩
  exact List.perm_singleton.mp hperm

end Router

end Hyf
