import Hyf.Common.Ranking
import Hyf.Nostr.EnvelopeEvents
import Hyf.Nostr.FilterTheorems
import Hyf.Nostr.Handing
import Hyf.Nostr.RelayRuns
import Hyf.Nostr.StoredArrays

/-!
# What a subscription replays

A replay selects the newest event that is left, round after round. It hands out, newest first, the stored
events that a filter accepts: all of them if some filter has no limit, and otherwise as many of the
newest as the limits add up to. The events handed out are those that were published.
-/

namespace Hyf.Nostr

open ByteCodec

/-- The event was created later, or at the same time and its id is smaller. -/
def NostrEvent.Newer (event other : NostrEvent) : Prop :=
  other.createdAt < event.createdAt ∨
    event.createdAt = other.createdAt ∧ event.id.bytes.toList < other.id.bytes.toList

instance (event other : NostrEvent) : Decidable (event.Newer other) :=
  inferInstanceAs (Decidable (_ ∨ _ ∧ _))

/-- How many of the events that some filter accepts are newer. -/
def newerMatches (stored : List NostrEvent) (filters : List NostrFilter) (event : NostrEvent) : ℕ :=
  stored.countP fun other => decide ((∃ filter ∈ filters, filter.Accepts other) ∧ other.Newer event)

section Selection

variable {eventCapacity : ℕ} {events : SlotArray FakeNostrEventRecord eventCapacity}
  {filters : List NostrFilter} {emitted : List.Vector Bool eventCapacity} {index : ℕ}
  {indices : List ℕ} {record : FakeNostrEventRecord}

/-- The events in the cells. -/
def recordsAt (events : SlotArray FakeNostrEventRecord eventCapacity) (indices : List ℕ) :
    List FakeNostrEventRecord :=
  indices.filterMap fun index => events.toList[index]?.join

/-- The records are the ones in the cells. -/
theorem mem_recordsAt : record ∈ recordsAt events indices ↔
    ∃ index ∈ indices, events.toList[index]? = some (some record) := by
  simp only [recordsAt, List.mem_filterMap, Option.join_eq_some_iff]

/-- A filled cell and the ones behind it. -/
theorem recordsAt_cons (hcell : events.toList[index]? = some (some record)) :
    recordsAt events (index :: indices) = record :: recordsAt events indices := by
  rw [recordsAt, List.filterMap_cons, hcell]
  rfl

/-- Filled cells have a record each. -/
theorem length_recordsAt (hoccupied : ∀ index ∈ indices, Occupied events index) :
    (recordsAt events indices).length = indices.length := by
  induction indices with
  | nil => rfl
  | cons index indices ih =>
    rw [List.forall_mem_cons] at hoccupied
    obtain ⟨record, hcell⟩ := hoccupied.1
    rw [recordsAt_cons hcell, List.length_cons, List.length_cons, ih hoccupied.2]

/-- The events are chosen newest first. -/
theorem NewestFirst.pairwise (h : NewestFirst events filters emitted indices)
    (hids : (events.live.map FakeNostrEventRecord.id).Nodup) (hnodup : indices.Nodup)
    (hcandidates : ∀ index ∈ indices, ∃ event, Candidate events filters emitted index event) :
    (recordsAt events indices).Pairwise fun record other => eventSortsBefore record other = true := by
  induction indices generalizing emitted with
  | nil => exact .nil
  | cons first indices ih =>
    obtain ⟨⟨chosen, hchosen, hleast⟩, hrest⟩ := h
    rw [List.nodup_cons] at hnodup
    rw [List.forall_mem_cons] at hcandidates
    rw [recordsAt_cons hchosen.cell_eq, List.pairwise_cons]
    constructor
    · intro other hother
      obtain ⟨index, hindex, hcell⟩ := mem_recordsAt.mp hother
      obtain ⟨other', hcandidate⟩ := hcandidates.2 index hindex
      have hsame : other' = other := by
        have hcell' := hcandidate.cell_eq
        rw [hcell] at hcell'
        cases hcell'
        rfl
      have hne : chosen.id ≠ other.id := by
        intro hid
        have hfirst := SlotArray.index_eq_of_nodup hids hchosen.cell_eq hcell hid
        exact hnodup.1 (hfirst ▸ hindex)
      exact (eventSortsBefore_total hne).resolve_right
        (hleast index hcandidate.index_lt other (hsame ▸ hcandidate))
    · apply ih hrest hnodup.2
      intro index hindex
      obtain ⟨event, hcandidate⟩ := hcandidates.2 index hindex
      have hne : index ≠ first := by
        rintro rfl
        exact hnodup.1 hindex
      exact ⟨event, (candidate_markEmitted_iff hchosen.index_lt).mpr ⟨hne, hcandidate⟩⟩

/-- What was chosen leads the matching events. -/
theorem NewestFirst.leading
    (h : NewestFirst events filters (List.Vector.replicate eventCapacity false) indices)
    (hids : (events.live.map FakeNostrEventRecord.id).Nodup) (hnodup : indices.Nodup)
    (hcandidates : ∀ index ∈ indices, ∃ event,
      Candidate events filters (List.Vector.replicate eventCapacity false) index event) :
    Leading (fun record other => eventSortsBefore record other = true)
      (events.live.filter fun record => eventMatchesFilters record filters)
      (recordsAt events indices) where
  nodup_all := hids.of_map.filter _
  nodup := by
    apply (h.pairwise hids hnodup hcandidates).imp
    rintro record other hbefore rfl
    exact not_eventSortsBefore_self record hbefore
  subset := by
    intro record hrecord
    obtain ⟨index, hindex, hcell⟩ := mem_recordsAt.mp hrecord
    obtain ⟨event, hcandidate⟩ := hcandidates index hindex
    have hsame := hcandidate.cell_eq
    rw [hcell] at hsame
    cases hsame
    exact List.mem_filter.mpr
      ⟨SlotArray.mem_live.mpr (List.mem_of_getElem? hcell), hcandidate.isMatch⟩
  not_before := by
    intro record hrecord other hother hnot
    obtain ⟨index, hindex, hcell⟩ := mem_recordsAt.mp hrecord
    obtain ⟨event, hcandidate⟩ := hcandidates index hindex
    have hsame := hcandidate.cell_eq
    rw [hcell] at hsame
    cases hsame
    obtain ⟨hlive, hmatch⟩ := List.mem_filter.mp hother
    obtain ⟨index', hcell'⟩ := List.getElem?_of_mem (SlotArray.mem_live.mp hlive)
    have hnew : index' ∉ indices := fun hmem => hnot (mem_recordsAt.mpr ⟨index', hmem, hcell'⟩)
    exact h.not_before hindex hcandidate hnew (candidate_replicate hcell' hmatch)

/-- An event was chosen exactly when it matches and few matching events are newer. -/
theorem NewestFirst.mem_recordsAt_iff
    (h : NewestFirst events filters (List.Vector.replicate eventCapacity false) indices)
    (hids : (events.live.map FakeNostrEventRecord.id).Nodup) (hnodup : indices.Nodup)
    (hcandidates : ∀ index ∈ indices, ∃ event,
      Candidate events filters (List.Vector.replicate eventCapacity false) index event) :
    record ∈ recordsAt events indices ↔ record ∈ events.live ∧
      eventMatchesFilters record filters = true ∧ newer events filters record < indices.length := by
  have hoccupied : ∀ index ∈ indices, Occupied events index := by
    intro index hindex
    obtain ⟨event, hcandidate⟩ := hcandidates index hindex
    exact ⟨event, hcandidate.cell_eq⟩
  have htotal : ∀ record ∈ events.live.filter fun record => eventMatchesFilters record filters,
      ∀ other ∈ events.live.filter fun record => eventMatchesFilters record filters,
        record ≠ other → eventSortsBefore record other = true ∨ eventSortsBefore other record = true := by
    intro record hrecord other hother hne
    apply eventSortsBefore_total
    exact fun hid => hne (List.inj_on_of_nodup_map hids (List.mem_filter.mp hrecord).1
      (List.mem_filter.mp hother).1 hid)
  rw [(h.leading hids hnodup hcandidates).mem_iff not_eventSortsBefore_self htotal, List.mem_filter,
    and_assoc, length_recordsAt hoccupied, rank, List.countP_filter, newer]
  simp only [Bool.decide_eq_true, Bool.and_comm]

end Selection

namespace FakeNostrRelay

variable {eventCapacity subscriptionCapacity outputCapacity : ℕ}
  {relay relay' : FakeNostrRelay eventCapacity subscriptionCapacity outputCapacity}
  {filters : List NostrFilter} {subscriptionId : String}

/-- The events that the relay holds. -/
def stored (relay : FakeNostrRelay eventCapacity subscriptionCapacity outputCapacity) :
    List NostrEvent :=
  relay.events.live.map FakeNostrEventRecord.event

/-- The filters accept the stored event, and their limits let it through. -/
def Selects (relay : FakeNostrRelay eventCapacity subscriptionCapacity outputCapacity)
    (filters : List NostrFilter) (event : NostrEvent) : Prop :=
  event ∈ relay.stored ∧ (∃ filter ∈ filters, filter.Accepts event) ∧
    ∀ limit ∈ replayLimit filters, newerMatches relay.stored filters event < limit

/-- The matches that are newer, counted in the cells and in the list. -/
theorem newerMatches_stored (record : FakeNostrEventRecord) :
    newerMatches relay.stored filters record.event = newer relay.events filters record := by
  rw [newerMatches, stored, List.countP_map, newer]
  apply List.countP_congr
  intro other _
  rw [Function.comp_apply, decide_eq_true_iff, Bool.and_eq_true, eventMatchesFilters_iff,
    eventSortsBefore_iff]
  exact Iff.rfl

/-- The events that a replay of all matches would choose. -/
theorem lt_replayCount_iff {record : FakeNostrEventRecord} (hmem : record ∈ relay.events.live)
    (hmatch : eventMatchesFilters record filters = true) :
    newer relay.events filters record < relay.replayCount filters ↔
      ∀ limit ∈ replayLimit filters, newer relay.events filters record < limit := by
  have hmatching : newer relay.events filters record < relay.matching filters :=
    newer_lt_countP hmem hmatch
  rw [replayCount]
  cases replayLimit filters with
  | none => simpa [budget] using hmatching
  | some limit => simp [budget, hmatching]

/-- The outputs of a replay: the events, and the end marker behind them. -/
def replayOutputs (subscriptionId : String) (events : List NostrEvent) : List FakeNostrRelayOutput :=
  events.map (.event subscriptionId) ++ [.eose subscriptionId]

/-- What the queue shows after a replay. -/
theorem shown_replay_done {indices : List ℕ} {last : StoredSubscriptionId}
    (hqueue : relay'.queue = relay.queue ++ indices.map (.storedEvent subscriptionId) ++ [.eose last])
    (hlast : last.text = subscriptionId) (hevents : relay'.events = relay.events)
    (houtputs : relay'.outputEvents = relay.outputEvents)
    (hoccupied : ∀ index ∈ indices, Occupied relay.events index) :
    relay'.shown = relay.shown ++ (replayOutputs subscriptionId
      ((recordsAt relay.events indices).map FakeNostrEventRecord.event)).map .ok := by
  have hview : relay'.view = relay.view := by
    funext record
    rw [view, view, hevents, houtputs]
  have hevent : ∀ indices : List ℕ, (∀ index ∈ indices, Occupied relay.events index) →
      (indices.map (.storedEvent subscriptionId)).map relay.view =
        (((recordsAt relay.events indices).map FakeNostrEventRecord.event).map
          (FakeNostrRelayOutput.event subscriptionId)).map .ok := by
    intro indices hoccupied
    induction indices with
    | nil => rfl
    | cons index indices ih =>
      rw [List.forall_mem_cons] at hoccupied
      obtain ⟨record, hcell⟩ := hoccupied.1
      have hfirst : relay.view (.storedEvent subscriptionId index) =
          .ok (.event subscriptionId record.event) := withView_storedEvent hcell subscriptionId id
      rw [recordsAt_cons hcell, List.map_cons, List.map_cons, ih hoccupied.2, hfirst]
      rfl
  have hmarker : relay.view (.eose last) = .ok (.eose subscriptionId) := by
    rw [← hlast]
    rfl
  rw [shown, hqueue, hview, List.map_append, List.map_append, hevent indices hoccupied, replayOutputs,
    List.map_append, ← List.append_assoc, shown]
  simp only [List.map_cons, List.map_nil, hmarker]

/-- A replay has no events of its own. -/
theorem outputEvents_replayed (indices : List ℕ) :
    (relay.replayed subscriptionId indices).outputEvents = relay.outputEvents := by
  induction indices generalizing relay with
  | nil => rfl
  | cons index indices ih => exact ih

/-- **A replay** hands out the events that the filters select, newest first, and the end marker. -/
theorem Valid.subscribe_selects (h : relay.Valid)
    (hid : validateSubscriptionId subscriptionId = .ok ())
    (hadmits : relay.AdmitsSubscription subscriptionId) (filters : List NostrFilter)
    (hroom : relay.queue.length + relay.replayCount filters < outputCapacity) :
    ∃ relay' events, subscribe subscriptionId filters relay = .ok () relay' ∧ relay'.Valid ∧
      relay'.shown = relay.shown ++ (replayOutputs subscriptionId events).map .ok ∧
      events.Pairwise NostrEvent.Newer ∧ ∀ event, event ∈ events ↔ relay.Selects filters event := by
  rcases h.rememberSubscription hid filters with
    ⟨hfull, -⟩ | ⟨subscriptions, activeSubscriptions, -, hremember, hvalid, -⟩
  · exact absurd hadmits hfull
  have hlen := (ends_validateSubscriptionId subscriptionId).of_ok hid
  obtain ⟨indices, hnodup, hcandidates, hnewest, hend⟩ := hvalid.replaySubscription_spec hlen filters
  obtain ⟨-, hcount, -, hok⟩ | ⟨hfull, -⟩ := hend
  swap
  · exact absurd hroom (not_lt.mpr hfull)
  have hoccupied : ∀ index ∈ indices, Occupied relay.events index := by
    intro index hindex
    obtain ⟨event, hcandidate⟩ := hcandidates index hindex
    exact ⟨event, hcandidate.cell_eq⟩
  have hspare : relay.queue.length + indices.length < outputCapacity := by
    rw [hcount]
    exact hroom
  obtain ⟨hdone, hevents, hqueue⟩ :=
    hvalid.replay_done subscriptionId ⟨subscriptionId, hlen⟩ hspare hoccupied
  refine ⟨_, (recordsAt relay.events indices).map FakeNostrEventRecord.event, ?_, hdone, ?_, ?_, ?_⟩
  · rw [subscribe, run_bind_of_ok hremember, hok]
  · have houtputs : ((relay.withSubscriptions subscriptions activeSubscriptions).replayed subscriptionId
        indices).outputEvents = relay.outputEvents := outputEvents_replayed indices
    exact shown_replay_done hqueue rfl hevents houtputs hoccupied
  · rw [List.pairwise_map]
    apply (hnewest.pairwise h.ids_nodup hnodup hcandidates).imp
    exact fun hbefore => eventSortsBefore_iff.mp hbefore
  · intro event
    have hchosen (record : FakeNostrEventRecord) : record ∈ recordsAt relay.events indices ↔
        record ∈ relay.events.live ∧ eventMatchesFilters record filters = true ∧
          newer relay.events filters record < indices.length :=
      hnewest.mem_recordsAt_iff h.ids_nodup hnodup hcandidates
    constructor
    · intro hevent
      obtain ⟨record, hrecord, rfl⟩ := List.mem_map.mp hevent
      obtain ⟨hlive, hmatch, hnewer⟩ := (hchosen record).mp hrecord
      refine ⟨List.mem_map_of_mem hlive, eventMatchesFilters_iff.mp hmatch, ?_⟩
      rw [newerMatches_stored]
      rw [hcount] at hnewer
      exact (lt_replayCount_iff hlive hmatch).mp hnewer
    · rintro ⟨hevent, hmatch, hlimit⟩
      obtain ⟨record, hlive, rfl⟩ := List.mem_map.mp hevent
      have hmatch := eventMatchesFilters_iff.mpr hmatch
      rw [newerMatches_stored] at hlimit
      have hnewer := (lt_replayCount_iff hlive hmatch).mpr hlimit
      exact List.mem_map_of_mem ((hchosen record).mpr ⟨hlive, hmatch, hcount ▸ hnewer⟩)

/-- What the limits add up to, unless a filter has none; the sum saturates. -/
def limitSum (filters : List NostrFilter) : ℕ :=
  min (filters.map fun filter => filter.limit.getD 0).sum (addressLimit - 1)

/-- The limits add up, and to nothing where one is missing. -/
theorem replayLimit_fold (total : ℕ) (htotal : total ≤ addressLimit - 1) :
    (filters.foldlM (fun total filter => filter.limit.map fun limit =>
        min (total + limit) (addressLimit - 1)) total : Option ℕ) =
      if ∃ filter ∈ filters, filter.limit = none then none
      else some (min (total + (filters.map fun filter => filter.limit.getD 0).sum)
        (addressLimit - 1)) := by
  induction filters generalizing total with
  | nil => simp [Nat.min_eq_left htotal]
  | cons filter filters ih =>
    rw [List.foldlM_cons]
    cases hlimit : filter.limit with
    | none => simp [hlimit]
    | some limit =>
      have hrest := ih (min (total + limit) (addressLimit - 1)) (Nat.min_le_right _ _)
      simp only [Option.map_some, Option.bind_eq_bind, Option.bind_some, hrest, List.mem_cons,
        exists_eq_or_imp, hlimit, reduceCtorEq, false_or, List.map_cons, Option.getD_some, List.sum_cons]
      congr 2
      omega

/-- The limits let an event through if a filter has none, or if they add up to enough. -/
theorem lt_replayLimit_iff {count : ℕ} : (∀ limit ∈ replayLimit filters, count < limit) ↔
    (∃ filter ∈ filters, filter.limit = none) ∨ count < limitSum filters := by
  have hfold := @replayLimit_fold filters 0 (Nat.zero_le _)
  rw [Nat.zero_add] at hfold
  rw [replayLimit, hfold, limitSum]
  split_ifs with hnone <;> simp [hnone]

end FakeNostrRelay

/-! ## Runs -/

namespace RelayOp

open FakeNostrRelay

variable {eventCapacity subscriptionCapacity outputCapacity : ℕ}

/-- What is stored was published. -/
theorem published_of_stored (sha256 : List UInt8 → ByteArrayN 32) (schnorr : Schnorr)
    (ops : List RelayOp) {event : NostrEvent} (hevent : event ∈
      (reached sha256 schnorr eventCapacity subscriptionCapacity outputCapacity ops).stored) :
    ∃ op ∈ ops, op.published = some event := by
  obtain ⟨record, hlive, rfl⟩ := List.mem_map.mp hevent
  have hpublished := @published_run eventCapacity subscriptionCapacity outputCapacity sha256 schnorr _
    valid_new ops
  rcases hpublished.admitted record hlive with hold | hnew
  · have hempty : (FakeNostrRelay.new : FakeNostrRelay eventCapacity subscriptionCapacity
        outputCapacity).events.live = [] := SlotArray.live_empty
    rw [hempty] at hold
    cases hold
  · exact hnew

/-- The arrays of the source keep the event and give it back, and find all keys of its tags. -/
structure KeptInArrays (event : NostrEvent) (cells : Arrays.FakeNostrEventRecord) : Prop where
  copied : Arrays.FakeNostrEventRecord.fromEvent event = .ok cells
  rebuilt : ∀ {T : Type} (f : NostrEvent → T), cells.withEvent f = .ok (f event)
  scanned : ∃ keys, cells.collectPTags eventPTagScanCapacity = .ok keys ∧
    ∀ key, key ∈ keys ↔ event.Mentions key

/-- Every record has cells that keep it. -/
theorem exists_keptInArrays (record : FakeNostrEventRecord) : ∃ cells, KeptInArrays record.event cells := by
  have htags : ∀ tag ∈ record.event.tags,
      checkTag hyfNostrMaxTagValues hyfNostrMaxTagValueChars tag = .ok () := by
    intro tag htag
    obtain ⟨hcount, hvalues⟩ := record.tags.values_le tag htag
    exact checkTag_of_le hcount hvalues
  obtain ⟨copy, hcopy⟩ := FakeNostrEventRecord.exists_fromEvent record.content.length_le
    record.tags.length_le htags
  have hsame : copy.event = record.event := (ends_fromEvent record.event).of_ok hcopy
  refine ⟨Arrays.layout copy, ?_, ?_, _, Arrays.collectPTags_layout copy _, ?_⟩
  · rw [Arrays.fromEvent_eq, hcopy]
    rfl
  · intro T f
    rw [Arrays.withEvent_layout, hsame]
  · intro key
    rw [FakeNostrEventRecord.mem_collectPTags, hsame]

section Reached

variable {sha256 : List UInt8 → ByteArrayN 32} {schnorr : Schnorr} {ops : List RelayOp}
  {relay : FakeNostrRelay eventCapacity subscriptionCapacity outputCapacity}
  {subscriptionId : String} {filters : List NostrFilter}
  (hreached : relay = reached sha256 schnorr eventCapacity subscriptionCapacity outputCapacity ops)
  (hid : validateSubscriptionId subscriptionId = .ok ())
  (hadmits : relay.AdmitsSubscription subscriptionId)

include hreached hid hadmits

/-- **Replays without limits.** After every run, a subscription whose filters have no limit hands out
exactly the stored events that a filter accepts, newest first, and the end marker; and the stored events
are events that were published, which the arrays give back as they were. -/
theorem replays_without_limits (hlimits : ∀ filter ∈ filters, filter.limit = none)
    (hroom : relay.queue.length + relay.matching filters < outputCapacity) :
    ∃ relay' before events, FakeNostrRelay.subscribe subscriptionId filters relay = .ok () relay' ∧
      relay.HandsOut before ∧ relay'.HandsOut (before ++ replayOutputs subscriptionId events) ∧
      events.Pairwise NostrEvent.Newer ∧
      (∀ event, event ∈ events ↔ event ∈ relay.stored ∧ ∃ filter ∈ filters, filter.Accepts event) ∧
      ∀ event ∈ relay.stored,
        (∃ op ∈ ops, op.published = some event) ∧ ∃ cells, KeptInArrays event cells := by
  have hvalid : relay.Valid := hreached ▸ valid_reached sha256 schnorr ops
  obtain ⟨before, hbefore⟩ := hvalid.exists_shown
  have hspare : relay.queue.length + relay.replayCount filters < outputCapacity :=
    lt_of_le_of_lt (Nat.add_le_add_left (replayCount_le relay filters) _) hroom
  obtain ⟨relay', events, hsubscribe, hvalid', hshown, hnewest, hevents⟩ :=
    hvalid.subscribe_selects hid hadmits filters hspare
  rw [hbefore, ← List.map_append] at hshown
  refine ⟨relay', before, events, hsubscribe, hvalid.handsOut hbefore, hvalid'.handsOut hshown, hnewest,
    ?_, ?_⟩
  · intro event
    rw [hevents event, Selects, lt_replayLimit_iff]
    constructor
    · exact fun ⟨hmem, haccepts, _⟩ => ⟨hmem, haccepts⟩
    · rintro ⟨hmem, filter, hfilter, haccepts⟩
      exact ⟨hmem, ⟨filter, hfilter, haccepts⟩, .inl ⟨filter, hfilter, hlimits filter hfilter⟩⟩
  · intro event hevent
    refine ⟨published_of_stored sha256 schnorr ops (hreached ▸ hevent), ?_⟩
    obtain ⟨record, -, rfl⟩ := List.mem_map.mp hevent
    exact exists_keptInArrays record

/-- **Replays with limits.** After every run, a subscription hands out the stored events that a filter
accepts: all of them if some filter has no limit, and otherwise as many of the newest as the limits of
the filters add up to. -/
theorem replays_with_limits
    (hroom : relay.queue.length + relay.replayCount filters < outputCapacity) :
    ∃ relay' before events, FakeNostrRelay.subscribe subscriptionId filters relay = .ok () relay' ∧
      relay.HandsOut before ∧ relay'.HandsOut (before ++ replayOutputs subscriptionId events) ∧
      ∀ event, event ∈ events ↔ event ∈ relay.stored ∧ (∃ filter ∈ filters, filter.Accepts event) ∧
        ((∃ filter ∈ filters, filter.limit = none) ∨
          newerMatches relay.stored filters event < limitSum filters) := by
  have hvalid : relay.Valid := hreached ▸ valid_reached sha256 schnorr ops
  obtain ⟨before, hbefore⟩ := hvalid.exists_shown
  obtain ⟨relay', events, hsubscribe, hvalid', hshown, -, hevents⟩ :=
    hvalid.subscribe_selects hid hadmits filters hroom
  rw [hbefore, ← List.map_append] at hshown
  refine ⟨relay', before, events, hsubscribe, hvalid.handsOut hbefore, hvalid'.handsOut hshown, ?_⟩
  intro event
  rw [hevents event, Selects, lt_replayLimit_iff]

end Reached

/-! ## A note -/

def notePubkeyBytes : List UInt8 :=
  [0xf9, 0x30, 0x8a, 0x01, 0x92, 0x58, 0xc3, 0x10, 0x49, 0x34, 0x4f, 0x85, 0xf8, 0x9d, 0x52, 0x29,
    0xb5, 0x31, 0xc8, 0x45, 0x83, 0x6f, 0x99, 0xb0, 0x86, 0x01, 0xf1, 0x13, 0xbc, 0xe0, 0x36, 0xf9]

/-- The public key of the secret key 3. -/
def notePubkey : ByteArrayN 32 := ⟨notePubkeyBytes, rfl⟩

def noteId : ByteArrayN 32 :=
  ⟨[0xd9, 0x57, 0xf1, 0x7c, 0x2d, 0x31, 0x8e, 0x43, 0x60, 0x13, 0x0d, 0x04, 0x0b, 0x43, 0x10, 0x35,
    0x9e, 0xda, 0x5a, 0x90, 0x5d, 0x0a, 0x73, 0x77, 0x67, 0x2b, 0x33, 0x08, 0x84, 0x8b, 0x13, 0x93],
    rfl⟩

def noteSignature : ByteArrayN 64 :=
  ⟨[0xc3, 0x23, 0x61, 0x91, 0xf2, 0x47, 0x8a, 0x7a, 0x7e, 0x60, 0x8a, 0x3d, 0x7b, 0xe0, 0x5a, 0x3f,
    0x88, 0xd8, 0x8d, 0x11, 0x38, 0x6c, 0x7b, 0xd2, 0x1d, 0x81, 0xd1, 0xe6, 0x0f, 0xef, 0x66, 0xa5,
    0xab, 0x7b, 0x31, 0xb8, 0x19, 0x81, 0x0f, 0x7b, 0x0d, 0x91, 0x60, 0x21, 0x35, 0xca, 0xfa, 0xe3,
    0x0b, 0xf4, 0xe2, 0x0b, 0xcc, 0x95, 0x75, 0x74, 0xe3, 0x88, 0x9f, 0x1b, 0x18, 0x31, 0xeb, 0xcc],
    rfl⟩

/-- A short text note, signed with the secret key 3. -/
def note : NostrEvent where
  id := ⟨noteId⟩
  pubkey := ⟨notePubkey⟩
  createdAt := 1720000000
  kind := 1
  tags := []
  content := "hi"
  sig := ⟨noteSignature⟩

/-- Signatures on the note only. -/
def noteSchnorr : Schnorr where
  SigningKey := Unit
  VerifyingKey := ByteArrayN 32
  Signature := ByteArrayN 64
  signingKeyFromSlice _ := none
  verifyingKeyBytes _ := notePubkey
  signRaw _ _ _ := none
  verifyingKeyFromSlice bytes := some bytes
  signatureFromSlice bytes := some bytes
  verifyRaw verifyingKey _ signature := decide (verifyingKey = notePubkey ∧ signature = noteSignature)

/-- The note is signed. -/
theorem verifyEvent_note : verifyEvent (fun _ => noteId) noteSchnorr note = .ok () := by
  rw [verifyEvent, Outcome.bind_eq (eventId_eq note.unsigned)]
  rfl

/-- An empty buffer is addressable. -/
theorem nil_addressable : ([] : List UInt8).length < addressLimit := by decide

/-- A relay to which the note was published. -/
def noteRelay : FakeNostrRelay 1 1 3 :=
  reached (fun _ => noteId) noteSchnorr 1 1 3
    [.publishWithProfile note [] nil_addressable (.signedKind 1)]

/-- The relay of the sample is reached by publishing the note. -/
theorem noteRelay_reached : noteRelay = reached (fun _ => noteId) noteSchnorr 1 1 3
    [.publishWithProfile note [] nil_addressable (.signedKind 1)] := rfl

/-- The relay holds the note, and its answer is queued. -/
theorem noteRelay_eq : noteRelay.stored = [note] ∧ noteRelay.queue.length = 1 ∧
    noteRelay.subscriptions.live = [] := by
  have hqueue : (FakeNostrRelay.new : FakeNostrRelay 1 1 3).queue = [] := SlotArray.live_empty
  have hroom : (FakeNostrRelay.new : FakeNostrRelay 1 1 3).queue.length < 3 := by
    rw [hqueue]
    exact Nat.succ_pos 2
  obtain ⟨record, hrecord⟩ : ∃ record, FakeNostrEventRecord.fromEvent note = .ok record :=
    FakeNostrEventRecord.exists_fromEvent (by decide) (Nat.zero_le _) nofun
  have hevent : record.event = note := (ends_fromEvent note).of_ok hrecord
  have hfree : (FakeNostrRelay.new : FakeNostrRelay 1 1 3).events.firstFree = some 0 := rfl
  obtain ⟨status, hrun⟩ := valid_new.publishAdmitted_stored rfl rfl hrecord hfree
  rw [if_pos hroom] at hrun
  have hprofile : validatePublishProfile (fun _ => noteId) noteSchnorr note [] (.signedKind 1) = .ok () := by
    rw [validatePublishProfile, Outcome.bind_eq verifyEvent_note]
    rfl
  have hpublish : FakeNostrRelay.publishWithProfile (fun _ => noteId) noteSchnorr note []
      (.signedKind 1) (.new : FakeNostrRelay 1 1 3) = .ok (.accepted "")
        ((FakeNostrRelay.new.withStored 0 record).enqueued (.ok note.id true status)) := by
    rw [FakeNostrRelay.publishWithProfile, hprofile]
    exact hrun
  have hrelay : noteRelay = (FakeNostrRelay.new.withStored 0 record).enqueued
      (.ok note.id true status) := by
    rw [noteRelay, reached, run, List.foldl_cons, List.foldl_nil, RelayOp.call, run_bind_of_ok hpublish]
    rfl
  have hstored : (FakeNostrRelay.new.withStored 0 record : FakeNostrRelay 1 1 3).Valid :=
    valid_new.withStored hfree rfl
  have hafter : (FakeNostrRelay.new.withStored 0 record : FakeNostrRelay 1 1 3).queue.length < 3 := hroom
  rw [hrelay]
  refine ⟨?_, ?_, SlotArray.live_empty⟩
  · show [record.event] = [note]
    rw [hevent]
  · rw [hstored.queue_enqueued hafter, List.length_append]
    show (FakeNostrRelay.new : FakeNostrRelay 1 1 3).queue.length + 1 = 1
    rw [hqueue]
    rfl

/-- It takes a subscription. -/
theorem noteRelay_admits (subscriptionId : String) : noteRelay.AdmitsSubscription subscriptionId := by
  right
  rw [noteRelay_eq.2.2]
  exact Nat.zero_lt_one

/-- It has room for a replay. -/
theorem noteRelay_room (filters : List NostrFilter) :
    noteRelay.queue.length + noteRelay.matching filters < 3 := by
  have hstored : noteRelay.events.live.length = 1 := by
    have hlength := congrArg List.length noteRelay_eq.1
    rwa [stored, List.length_map] at hlength
  have hmatching : noteRelay.matching filters ≤ noteRelay.events.live.length :=
    List.countP_le_length
  rw [hstored] at hmatching
  rw [noteRelay_eq.2.1]
  omega

/-- The identifier of the sample is valid. -/
theorem validateSubscriptionId_notes : validateSubscriptionId "notes" = .ok () := by
  have hlen : (asBytes "notes").length = 5 := rfl
  rw [validateSubscriptionId, Outcome.bind_eq (rejectIf_eq_ok (by rw [hlen]; decide))]
  exact rejectIf_eq_ok (by rw [hlen]; decide)

/-- A subscription to everything. -/
theorem replays_without_limits_note : ∃ relay' before events,
    FakeNostrRelay.subscribe "notes" [.empty] noteRelay = .ok () relay' ∧
      noteRelay.HandsOut before ∧ relay'.HandsOut (before ++ replayOutputs "notes" events) ∧
      note ∈ events := by
  have hlimits : ∀ filter ∈ [NostrFilter.empty], filter.limit = none := by simp [NostrFilter.empty]
  obtain ⟨relay', before, events, hsubscribe, hbefore, hafter, -, hevents, -⟩ :=
    replays_without_limits noteRelay_reached validateSubscriptionId_notes (noteRelay_admits "notes")
      hlimits (noteRelay_room [.empty])
  refine ⟨relay', before, events, hsubscribe, hbefore, hafter, (hevents note).mpr ⟨?_, ?_⟩⟩
  · rw [noteRelay_eq.1]
    exact List.mem_singleton_self note
  · exact ⟨.empty, List.mem_singleton_self _, .inl rfl, .inl rfl, .inl rfl, nofun, nofun⟩

/-- Two filters with limits: notes, but none of them, and two events of kind 2. -/
def noteFilters : List NostrFilter :=
  [{ NostrFilter.empty with kinds := [1], limit := some 0 },
    { NostrFilter.empty with kinds := [2], limit := some 2 }]

/-- The relay has room for what these filters replay. -/
theorem noteFilters_room : noteRelay.queue.length + noteRelay.replayCount noteFilters < 3 :=
  lt_of_le_of_lt (Nat.add_le_add_left (replayCount_le noteRelay noteFilters) _)
    (noteRelay_room noteFilters)

/-- The limit of the filter for another kind counts for the note as well. -/
theorem replays_with_limits_note : ∃ relay' before events,
    FakeNostrRelay.subscribe "notes" noteFilters noteRelay = .ok () relay' ∧
      noteRelay.HandsOut before ∧ relay'.HandsOut (before ++ replayOutputs "notes" events) ∧
      note ∈ events := by
  obtain ⟨relay', before, events, hsubscribe, hbefore, hafter, hevents⟩ :=
    replays_with_limits noteRelay_reached validateSubscriptionId_notes (noteRelay_admits "notes")
      noteFilters_room
  refine ⟨relay', before, events, hsubscribe, hbefore, hafter, (hevents note).mpr ⟨?_, ?_, .inr ?_⟩⟩
  · rw [noteRelay_eq.1]
    exact List.mem_singleton_self note
  · exact ⟨_, List.mem_cons_self, .inr (List.mem_singleton_self _), .inl rfl, .inl rfl, nofun, nofun⟩
  · rw [noteRelay_eq.1]
    decide

/-- A filter of its own accepts the event, and has it among the newest up to its own limit. -/
def SelectsPerFilter (relay : FakeNostrRelay eventCapacity subscriptionCapacity outputCapacity)
    (filters : List NostrFilter) (event : NostrEvent) : Prop :=
  event ∈ relay.stored ∧ ∃ filter ∈ filters, filter.Accepts event ∧
    ∀ limit ∈ filter.limit, newerMatches relay.stored [filter] event < limit

/-- The note is handed out, though the filter that accepts it asks for none. -/
theorem limits_are_not_per_filter : ∃ relay' before events,
    FakeNostrRelay.subscribe "notes" noteFilters noteRelay = .ok () relay' ∧
      noteRelay.HandsOut before ∧ relay'.HandsOut (before ++ replayOutputs "notes" events) ∧
      ¬∀ event, event ∈ events ↔ SelectsPerFilter noteRelay noteFilters event := by
  have hvalid : noteRelay.Valid := valid_reached _ _ _
  obtain ⟨before, hbefore⟩ := hvalid.exists_shown
  obtain ⟨relay', events, hsubscribe, hvalid', hshown, -, hevents⟩ :=
    hvalid.subscribe_selects validateSubscriptionId_notes (noteRelay_admits "notes") noteFilters
      noteFilters_room
  rw [hbefore, ← List.map_append] at hshown
  refine ⟨relay', before, events, hsubscribe, hvalid.handsOut hbefore, hvalid'.handsOut hshown, ?_⟩
  intro hall
  have hnote : note ∈ events := by
    refine (hevents note).mpr ⟨?_, ?_, ?_⟩
    · rw [noteRelay_eq.1]
      exact List.mem_singleton_self note
    · exact ⟨_, List.mem_cons_self, .inr (List.mem_singleton_self _), .inl rfl, .inl rfl, nofun, nofun⟩
    · rw [noteRelay_eq.1]
      decide
  obtain ⟨-, filter, hfilter, haccepts, hlimit⟩ := (hall note).mp hnote
  rw [noteFilters, List.mem_cons, List.mem_singleton] at hfilter
  obtain rfl | rfl := hfilter
  · exact absurd (hlimit 0 rfl) (Nat.not_lt_zero _)
  · obtain hkind | hkind := haccepts.1
    · cases hkind
    · exact absurd (List.mem_singleton.mp hkind) (by decide)

end RelayOp

end Hyf.Nostr
