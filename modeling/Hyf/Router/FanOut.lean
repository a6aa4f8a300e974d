import Hyf.Common.LoggedSteps
import Hyf.Router.HopLimit
import Hyf.Router.RouterState

/-!
# Community fan-out

In a run of the router the link table has one row for each link, and a link is up in it exactly if the
last report about it that was accepted said so. A community message therefore leaves once on every link
that is up, apart from the one it came in on, behind its local delivery if there is one.
-/

namespace Hyf

open LoggedSteps

/-- What an event that was accepted reports about a link. -/
def linkReports (event : RouterEvent) (emission : Emission) : List (LinkId × Bool) :=
  match event, emission.result with
  | .link (.up linkId), .ok _ => [(linkId, true)]
  | .link (.down linkId), .ok _ => [(linkId, false)]
  | _, _ => []

/-- The last thing that was reported about a link. -/
def lastReport (linkId : LinkId) (reports : List (LinkId × Bool)) : Option Bool :=
  ((reports.filter fun report => report.1 = linkId).getLast?).map Prod.snd

theorem lastReport_concat (linkId : LinkId) (reports : List (LinkId × Bool)) (report : LinkId × Bool) :
    lastReport linkId (reports ++ [report]) =
      if report.1 = linkId then some report.2 else lastReport linkId reports := by
  by_cases hlink : report.1 = linkId
  · rw [if_pos hlink, lastReport, List.filter_append, List.filter_cons_of_pos (by simpa using hlink),
      List.filter_nil, List.getLast?_concat, Option.map_some]
  · rw [if_neg hlink, lastReport, List.filter_append, List.filter_cons_of_neg (by simpa using hlink),
      List.filter_nil, List.append_nil, lastReport]

namespace Router

variable {maxLinks maxSeen : ℕ}

/-- A call that changes the router, with the reports about links that it accepted. -/
inductive RouterStep : Router maxLinks maxSeen → List (LinkId × Bool) → Router maxLinks maxSeen → Prop
  | handleEvent (router : Router maxLinks maxSeen) (event : RouterEvent) (out : List RouterCommand) :
      RouterStep router (linkReports event (router.handleEvent event out).1)
        (router.handleEvent event out).2
  | commitSeen (router : Router maxLinks maxSeen) (envelope : HyfEnvelopeRef) :
      RouterStep router [] (router.commitSeen envelope)

/-- One row for each link, which is up exactly if the last report about it was. -/
structure Tracks (reports : List (LinkId × Bool)) (router : Router maxLinks maxSeen) : Prop where
  nodup : router.linkIds.Nodup
  up_iff : ∀ linkId, ⟨linkId, true⟩ ∈ router.links.live ↔ lastReport linkId reports = some true

theorem tracks_new (policy : RouterPolicy) : (new policy : Router maxLinks maxSeen).Tracks [] where
  nodup := by simp [linkIds, new]
  up_iff linkId := by simp [new, lastReport]

theorem Tracks.congr {reports : List (LinkId × Bool)} {router router' : Router maxLinks maxSeen}
    (h : router.Tracks reports) (hlinks : router'.links = router.links) : router'.Tracks reports where
  nodup := by
    rw [linkIds, hlinks]
    exact h.nodup
  up_iff := by
    rw [hlinks]
    exact h.up_iff

/-- Setting a link's state touches no other link. -/
theorem mem_live_setLinkState {router router' : Router maxLinks maxSeen} {linkId : LinkId} {up : Bool}
    (h : router.setLinkState linkId up = .ok router') (hnodup : router.linkIds.Nodup)
    (other : LinkId) : ⟨other, true⟩ ∈ router'.links.live ↔
      if linkId = other then up = true else ⟨other, true⟩ ∈ router.links.live := by
  obtain ⟨-, -, -, -, hcases⟩ := setLinkState_eq_ok h
  obtain ⟨before, link, after, hlive, hid, hlive'⟩ |
    ⟨habsent, hup, before, after, hlive, hlive'⟩ | ⟨habsent, hup, rfl⟩ := hcases
  · -- the only row of the link is replaced
    have hrest : ∀ row ∈ before ++ after, row.linkId ≠ linkId := by
      rw [linkIds, hlive, List.map_append, List.map_cons, List.perm_middle.nodup_iff,
        List.nodup_cons, ← List.map_append] at hnodup
      intro row hrow hsame
      exact hnodup.1 (List.mem_map.mpr ⟨row, hrow, hsame.trans hid.symm⟩)
    rw [hlive', hlive, List.perm_middle.mem_iff, List.perm_middle.mem_iff, List.mem_cons,
      List.mem_cons]
    by_cases hother : linkId = other
    · rw [if_pos hother, hother, LinkState.mk.injEq]
      constructor
      · rintro (⟨-, hup⟩ | hrow)
        · exact hup.symm
        · exact absurd hother.symm (hrest _ hrow)
      · intro hup
        exact .inl ⟨rfl, hup.symm⟩
    · rw [if_neg hother, LinkState.mk.injEq]
      have hne : (⟨other, true⟩ : LinkState) ≠ link := by
        rintro rfl
        exact hother hid.symm
      simp only [Ne.symm hother, false_and, false_or, hne]
  · -- a row is added
    rw [hlive', List.perm_middle.mem_iff, List.mem_cons, ← hlive, LinkState.mk.injEq]
    by_cases hother : linkId = other
    · rw [if_pos hother]
      exact iff_of_true (.inl ⟨hother.symm, hup.symm⟩) hup
    · rw [if_neg hother]
      simp only [Ne.symm hother, false_and, false_or]
  · -- a link that is not in the table goes down
    by_cases hother : linkId = other
    · rw [if_pos hother, hup]
      refine iff_of_false ?_ Bool.false_ne_true
      intro hrow
      exact habsent _ hrow hother.symm
    · rw [if_neg hother]

theorem Tracks.setLinkState {reports : List (LinkId × Bool)} {router router' : Router maxLinks maxSeen}
    {linkId : LinkId} {up : Bool} (h : router.Tracks reports)
    (hset : router.setLinkState linkId up = .ok router') :
    router'.Tracks (reports ++ [(linkId, up)]) where
  nodup := nodup_linkIds_setLinkState hset h.nodup
  up_iff other := by
    rw [mem_live_setLinkState hset h.nodup, lastReport_concat]
    by_cases hother : linkId = other
    · rw [if_pos hother, if_pos hother, Option.some_inj]
    · rw [if_neg hother, if_neg hother, h.up_iff]

/-- Every call keeps the table true to the reports. -/
theorem Tracks.step {reports accepted : List (LinkId × Bool)} {router router' : Router maxLinks maxSeen}
    (h : router.Tracks reports) (hstep : RouterStep router accepted router') :
    router'.Tracks (reports ++ accepted) := by
  have hlink : ∀ linkId up, (∀ router', router.setLinkState linkId up = .ok router' →
      router'.Tracks (reports ++ [(linkId, up)])) := fun _ _ _ hset => h.setLinkState hset
  have hsame : router.Tracks (reports ++ []) := by
    rw [List.append_nil]
    exact h
  cases hstep with
  | commitSeen envelope => exact hsame.congr (commitSeen_links router envelope)
  | handleEvent event out =>
    cases event with
    | localSubmit envelope => exact hsame
    | tick nowMs => exact hsame.congr rfl
    | link event =>
      cases event with
      | frame frame => exact hsame
      | up linkId =>
        rw [Router.handleEvent]
        cases hset : router.setLinkState linkId true with
        | ok router' => exact hlink linkId true router' hset
        | error error => exact hsame
      | down linkId =>
        rw [Router.handleEvent]
        cases hset : router.setLinkState linkId false with
        | ok router' => exact hlink linkId false router' hset
        | error error => exact hsame

theorem tracks_of_steps {policy : RouterPolicy} {reports : List (LinkId × Bool)}
    {router : Router maxLinks maxSeen} (hrun : Steps RouterStep (new policy) reports router) :
    router.Tracks reports :=
  hrun.invariant (fun _ _ _ _ htracks hstep => htracks.step hstep) (tracks_new policy)

/-- The links a message leaves on are distinct. -/
theorem nodup_egressLinks {router : Router maxLinks maxSeen} (hnodup : router.linkIds.Nodup)
    (ingress : Option LinkId) : (router.egressLinks ingress).Nodup :=
  hnodup.sublist (List.filter_sublist.map _)

/-- An unseen community message with hops left is planned as its fan-out. -/
theorem planEnvelope_eq_fanOut {router : Router maxLinks maxSeen} {envelope : HyfEnvelopeRef}
    {communityId : CommunityId} (hdestination : envelope.destination = .community communityId)
    (hunexpired : router.nowMs < envelope.expiresAtMs)
    (hunseen : router.hasSeen (seenKeyFor envelope) = false) {ingress : Option LinkId}
    (hhops : ingress.isSome → 2 ≤ envelope.hopLimit)
    (hsome : router.fanOut envelope (outboundFor envelope ingress) communityId ingress ≠ []) :
    router.planEnvelope envelope ingress =
      router.fanOut envelope (outboundFor envelope ingress) communityId ingress := by
  have hleft : ¬(ingress.isSome && decide (envelope.hopLimit ≤ 1)) = true := by
    rw [Bool.and_eq_true, decide_eq_true_eq]
    rintro ⟨hlink, hexhausted⟩
    exact absurd hexhausted (not_le_one_iff.mpr (hhops hlink))
  rw [planEnvelope_of_community hdestination hunexpired hunseen, planCommunity, if_neg hleft,
    if_neg hsome]

/-- **Community fan-out is exact.** In every run the link table has one row for each link, and a link is
up in it exactly if the last accepted report about it was. For a valid, unexpired and unseen community
message with hops left, whenever a local delivery or a send is possible, the router writes the local
delivery, if the community is a local one, and then one send for each link that is up and is not the
ingress, in table order; on a slice that is shorter it reports that number and writes nothing. -/
theorem community_fanOut_exact {policy : RouterPolicy} {reports : List (LinkId × Bool)}
    {router : Router maxLinks maxSeen} (hrun : Steps RouterStep (new policy) reports router) :
    router.linkIds.Nodup ∧
    (∀ linkId, ⟨linkId, true⟩ ∈ router.links.live ↔ lastReport linkId reports = some true) ∧
    ∀ event envelope ingress communityId, event.message? = some (envelope, ingress) →
      ValidEnvelope envelope → router.nowMs < envelope.expiresAtMs →
      envelope.destination = .community communityId →
      router.hasSeen (seenKeyFor envelope) = false →
      (ingress.isSome → 2 ≤ envelope.hopLimit) →
      ∃ linkIds : List LinkId,
        linkIds = (router.links.live.filter fun link =>
          link.up && decide (some link.linkId ≠ ingress)).map LinkState.linkId ∧
        linkIds.Nodup ∧
        (∀ linkId, linkId ∈ linkIds ↔
          lastReport linkId reports = some true ∧ some linkId ≠ ingress) ∧
        ∀ commands, commands =
            (if router.policy.isLocalCommunity communityId then [.deliverLocal envelope] else []) ++
              (linkIds.map fun linkId => .send linkId (outboundFor envelope ingress)) →
          commands ≠ [] → ∀ out : List RouterCommand,
            (commands.length ≤ out.length →
              (router.handleEvent event out).1 =
                ⟨.ok commands.length, commands ++ out.drop commands.length⟩) ∧
            (out.length < commands.length →
              (router.handleEvent event out).1 =
                ⟨.error (.outputTooSmall out.length commands.length), out⟩) := by
  have htracks := tracks_of_steps hrun
  refine ⟨htracks.nodup, htracks.up_iff, ?_⟩
  intro event envelope ingress communityId hmessage hvalid hunexpired hdestination hunseen hhops
  refine ⟨router.egressLinks ingress, rfl, nodup_egressLinks htracks.nodup ingress, ?_, ?_⟩
  · intro linkId
    rw [mem_egressLinks, htracks.up_iff]
  · intro commands hcommands hsome out
    rw [← deliversCommunity_of_unseen hunseen] at hcommands
    have hfanOut : commands =
        router.fanOut envelope (outboundFor envelope ingress) communityId ingress := hcommands
    have hplan := planEnvelope_eq_fanOut hdestination hunexpired hunseen hhops (hfanOut ▸ hsome)
    rw [handleEvent_of_message hmessage, handleEnvelope_eq hvalid, hplan, ← hfanOut, writePlan]
    constructor
    · intro hroom
      rw [if_neg (Nat.not_lt.mpr hroom)]
    · intro hshort
      rw [if_pos hshort]

/-- `sampleRouter` with one link. -/
def linkedRouter : Router 1 1 := (sampleRouter.handleEvent (.link (.up ⟨fillBytes 16 3⟩)) []).2

/-- A message to the community of `sampleRouter`. -/
def communityEnvelope : HyfEnvelopeRef := sampleEnvelope 2 (.community ⟨fillBytes 16 5⟩) 4

theorem community_fanOut_exact_linkedRouter :
    (linkedRouter.handleEvent (.localSubmit communityEnvelope)
      (List.replicate 2 (.drop ⟨fillBytes 32 0⟩ .duplicate))).1 =
        ⟨.ok 2, [.deliverLocal communityEnvelope, .send ⟨fillBytes 16 3⟩ communityEnvelope]⟩ := by
  obtain ⟨linkIds, hlinkIds, -, -, hemits⟩ := (community_fanOut_exact
    (.single (.handleEvent sampleRouter (.link (.up ⟨fillBytes 16 3⟩)) []))).2.2
    (.localSubmit communityEnvelope) communityEnvelope none ⟨fillBytes 16 5⟩ rfl
    (validEnvelope_sampleEnvelope _ _ _) (by decide) rfl (by decide) nofun
  obtain rfl : linkIds = [⟨fillBytes 16 3⟩] := hlinkIds.trans (by decide)
  exact (hemits [.deliverLocal communityEnvelope, .send ⟨fillBytes 16 3⟩ communityEnvelope]
    (by decide) (List.cons_ne_nil _ _) _).1 (by decide)

end Router

end Hyf
