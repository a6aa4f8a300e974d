import Hyf.Nostr.RelayInvariant

/-!
# Replaying a subscription

A replay queues one output for each event that it chooses, and stops at the limit, when no event is
left, or when the queue is full. `replayLoop_spec` says which outputs it has queued by then; everything
about subscriptions follows from it.
-/

namespace Hyf.Nostr

open ByteCodec

/-- How many events match and were not emitted yet. -/
def remaining {eventCapacity : ℕ} (events : SlotArray FakeNostrEventRecord eventCapacity)
    (filters : List NostrFilter) (emitted : List.Vector Bool eventCapacity) : ℕ :=
  (events.toList.zip emitted.toList).countP fun cell =>
    !cell.2 && cell.1.any fun event => eventMatchesFilters event filters

section Remaining

variable {eventCapacity : ℕ} {events : SlotArray FakeNostrEventRecord eventCapacity}
  {filters : List NostrFilter} {emitted : List.Vector Bool eventCapacity} {index : ℕ}
  {event : FakeNostrEventRecord}

/-- One more mark is one event less. -/
theorem remaining_markEmitted (h : Candidate events filters emitted index event) :
    remaining events filters emitted = remaining events filters (markEmitted emitted index) + 1 := by
  have hcount (cells : List (Option FakeNostrEventRecord)) (marks : List Bool) (index : ℕ)
      (hcell : cells[index]? = some (some event)) (hmark : marks[index]? = some false) :
      (cells.zip marks).countP (fun cell =>
          !cell.2 && cell.1.any fun event => eventMatchesFilters event filters) =
        (cells.zip (marks.set index true)).countP (fun cell =>
          !cell.2 && cell.1.any fun event => eventMatchesFilters event filters) + 1 := by
    induction cells generalizing marks index with
    | nil => cases hcell
    | cons cell cells ih =>
      cases marks with
      | nil => cases hmark
      | cons mark marks =>
        cases index with
        | zero =>
          cases hcell
          cases hmark
          simp [h.isMatch]
        | succ index =>
          have hrest := ih marks index hcell hmark
          rw [List.set_cons_succ, List.zip_cons_cons, List.zip_cons_cons, List.countP_cons,
            List.countP_cons, hrest]
          omega
  apply hcount _ _ _ h.cell_eq
  have hlt : index < emitted.toList.length := by simpa using h.index_lt
  have hfresh := h.fresh
  rw [List.getD_eq_getElem?_getD, List.getElem?_eq_getElem hlt] at hfresh
  rw [List.getElem?_eq_getElem hlt]
  exact congrArg some hfresh

/-- Without a candidate none is left. -/
theorem remaining_eq_zero (h : ∀ index event, ¬Candidate events filters emitted index event) :
    remaining events filters emitted = 0 := by
  rw [remaining, List.countP_eq_zero]
  rintro ⟨cell, mark⟩ hmem hcounts
  obtain ⟨index, hlt, hcell⟩ := List.getElem_of_mem hmem
  rw [List.length_zip, lt_min_iff] at hlt
  rw [List.getElem_zip, Prod.mk.injEq] at hcell
  cases cell with
  | none => simp at hcounts
  | some event =>
    simp only [Bool.and_eq_true, Bool.not_eq_true', Option.any_some] at hcounts
    refine h index event ⟨?_, ?_, hcounts.2⟩
    · rw [List.getElem?_eq_getElem hlt.1, hcell.1]
    · rw [List.getD_eq_getElem?_getD, List.getElem?_eq_getElem hlt.2, hcell.2]
      exact hcounts.1

/-- At the start every matching event is left. -/
theorem remaining_replicate (events : SlotArray FakeNostrEventRecord eventCapacity)
    (filters : List NostrFilter) :
    remaining events filters (List.Vector.replicate eventCapacity false) =
      events.live.countP fun event => eventMatchesFilters event filters := by
  have hcount (cells : List (Option FakeNostrEventRecord)) :
      (cells.zip (List.replicate cells.length false)).countP (fun cell =>
          !cell.2 && cell.1.any fun event => eventMatchesFilters event filters) =
        cells.reduceOption.countP fun event => eventMatchesFilters event filters := by
    induction cells with
    | nil => rfl
    | cons cell cells ih =>
      rw [List.length_cons, List.replicate_succ, List.zip_cons_cons, List.countP_cons, ih]
      cases cell with
      | none => simp
      | some event => simp [List.reduceOption_cons_of_some, List.countP_cons]
  have hlen : events.toList.length = eventCapacity := events.toList_length
  show (events.toList.zip (List.replicate eventCapacity false)).countP _ = _
  rw [SlotArray.live, ← hcount events.toList, hlen]

/-- At the start every matching event is a candidate. -/
theorem candidate_replicate (hcell : events.toList[index]? = some (some event))
    (hmatch : eventMatchesFilters event filters = true) :
    Candidate events filters (List.Vector.replicate eventCapacity false) index event := by
  refine ⟨hcell, ?_, hmatch⟩
  show (List.replicate eventCapacity false).getD index false = false
  rw [List.getD_eq_getElem?_getD, List.getElem?_replicate]
  split_ifs <;> rfl

/-- Marking keeps the other candidates, and only these. -/
theorem candidate_markEmitted_iff {other : ℕ} {event' : FakeNostrEventRecord}
    (hindex : index < eventCapacity) :
    Candidate events filters (markEmitted emitted index) other event' ↔
      other ≠ index ∧ Candidate events filters emitted other event' := by
  have hget : (markEmitted emitted index).toList.getD other false =
      if other = index then true else emitted.toList.getD other false := by
    show (emitted.toList.set index true).getD other false = _
    rw [List.getD_eq_getElem?_getD, List.getD_eq_getElem?_getD]
    by_cases hother : other = index
    · subst hother
      rw [if_pos rfl, List.getElem?_set_self (by simpa using hindex)]
      rfl
    · rw [if_neg hother, List.getElem?_set_ne (Ne.symm hother)]
  constructor
  · intro h
    have hfresh := h.fresh
    rw [hget] at hfresh
    split_ifs at hfresh with hother
    exact ⟨hother, h.cell_eq, hfresh, h.isMatch⟩
  · rintro ⟨hother, h⟩
    refine ⟨h.cell_eq, ?_, h.isMatch⟩
    rw [hget, if_neg hother]
    exact h.fresh

/-! ## Newest first -/

variable (events filters) in
/-- Every event that is chosen comes before those that are left then. -/
def NewestFirst : List.Vector Bool eventCapacity → List ℕ → Prop
  | _, [] => True
  | emitted, index :: indices => Least events filters emitted eventCapacity (some index) ∧
    NewestFirst (markEmitted emitted index) indices

/-- What was not chosen does not sort before what was. -/
theorem NewestFirst.not_before {indices : List ℕ} (h : NewestFirst events filters emitted indices)
    (hindex : index ∈ indices) (hcandidate : Candidate events filters emitted index event) {other : ℕ}
    {event' : FakeNostrEventRecord} (hother : other ∉ indices)
    (hcandidate' : Candidate events filters emitted other event') :
    ¬eventSortsBefore event' event = true := by
  induction indices generalizing emitted with
  | nil => exact absurd hindex List.not_mem_nil
  | cons first indices ih =>
    obtain ⟨⟨chosen, hchosen, hleast⟩, hrest⟩ := h
    rw [List.mem_cons, not_or] at hother
    by_cases hfirst : index = first
    · subst hfirst
      have heq : chosen = event := by
        have hcell := hchosen.cell_eq
        rw [hcandidate.cell_eq] at hcell
        cases hcell
        rfl
      exact heq ▸ hleast other hcandidate'.index_lt event' hcandidate'
    · apply ih hrest ((List.mem_cons.mp hindex).resolve_left hfirst)
      · exact (candidate_markEmitted_iff hchosen.index_lt).mpr ⟨hfirst, hcandidate⟩
      · exact hother.2
      · exact (candidate_markEmitted_iff hchosen.index_lt).mpr ⟨hother.1, hcandidate'⟩

/-- How many matching events sort before the event. -/
def newer (events : SlotArray FakeNostrEventRecord eventCapacity) (filters : List NostrFilter)
    (event : FakeNostrEventRecord) : ℕ :=
  events.live.countP fun other => eventMatchesFilters other filters && eventSortsBefore other event

/-- A match is not newer than itself. -/
theorem newer_lt_countP (hmem : event ∈ events.live) (hmatch : eventMatchesFilters event filters = true) :
    newer events filters event < events.live.countP fun event => eventMatchesFilters event filters := by
  have hself : (eventMatchesFilters event filters && eventSortsBefore event event) = false := by
    rw [Bool.and_eq_false_iff]
    exact .inr (Bool.eq_false_of_not_eq_true (not_eventSortsBefore_self event))
  obtain ⟨before, after, hlive⟩ := List.append_of_mem hmem
  have hle (records : List FakeNostrEventRecord) :
      (records.countP fun other => eventMatchesFilters other filters && eventSortsBefore other event) ≤
        records.countP fun other => eventMatchesFilters other filters := by
    apply List.countP_mono_left
    exact fun other _ hboth => (Bool.and_eq_true_iff.mp hboth).1
  have hbefore := hle before
  have hafter := hle after
  rw [newer, hlive, List.countP_append, List.countP_append, List.countP_cons, List.countP_cons, hself,
    hmatch, if_pos rfl, if_neg Bool.false_ne_true]
  omega

/-- **An event with few newer ones** is among those that are chosen. -/
theorem NewestFirst.mem_of_newer_lt {indices : List ℕ} (h : NewestFirst events filters emitted indices)
    (hids : (events.live.map FakeNostrEventRecord.id).Nodup) (hnodup : indices.Nodup)
    (hcandidates : ∀ index ∈ indices, ∃ event, Candidate events filters emitted index event)
    (hcandidate : Candidate events filters emitted index event)
    (hlt : newer events filters event < indices.length) : index ∈ indices := by
  by_contra hindex
  apply absurd hlt (not_lt.mpr _)
  apply SlotArray.length_le_countP_live hnodup
  intro other hother
  obtain ⟨event', hcandidate'⟩ := hcandidates other hother
  have hne : event'.id ≠ event.id := by
    intro hid
    apply hindex
    rwa [SlotArray.index_eq_of_nodup hids hcandidate.cell_eq hcandidate'.cell_eq hid.symm]
  refine ⟨event', hcandidate'.cell_eq, Bool.and_eq_true_iff.mpr ⟨hcandidate'.isMatch, ?_⟩⟩
  exact (eventSortsBefore_total hne).resolve_right (h.not_before hother hcandidate' hindex hcandidate)

end Remaining

namespace FakeNostrRelay

variable {eventCapacity subscriptionCapacity outputCapacity : ℕ}

/-- The relay with an output queued for each of the events. -/
def replayed (relay : FakeNostrRelay eventCapacity subscriptionCapacity outputCapacity)
    (subscriptionId : String) (indices : List ℕ) :
    FakeNostrRelay eventCapacity subscriptionCapacity outputCapacity :=
  indices.foldl (fun relay index => relay.enqueued (.storedEvent subscriptionId index)) relay

variable {relay : FakeNostrRelay eventCapacity subscriptionCapacity outputCapacity}
  {subscriptionId : String}

theorem events_replayed (indices : List ℕ) :
    (relay.replayed subscriptionId indices).events = relay.events := by
  induction indices generalizing relay with
  | nil => rfl
  | cons index indices ih => exact ih

theorem subscriptions_replayed (indices : List ℕ) :
    (relay.replayed subscriptionId indices).subscriptions = relay.subscriptions := by
  induction indices generalizing relay with
  | nil => rfl
  | cons index indices ih => exact ih

theorem Valid.replayed {indices : List ℕ} (h : relay.Valid)
    (hroom : relay.queue.length + indices.length ≤ outputCapacity)
    (hoccupied : ∀ index ∈ indices, Occupied relay.events index) :
    (relay.replayed subscriptionId indices).Valid ∧
      (relay.replayed subscriptionId indices).queue =
        relay.queue ++ indices.map (.storedEvent subscriptionId) := by
  induction indices generalizing relay with
  | nil => exact ⟨h, (List.append_nil _).symm⟩
  | cons index indices ih =>
    rw [List.length_cons] at hroom
    rw [List.forall_mem_cons] at hoccupied
    have hlt : relay.queue.length < outputCapacity := by omega
    have hqueue := h.queue_enqueued hlt (.storedEvent subscriptionId index)
    have hvalid : (relay.enqueued (.storedEvent subscriptionId index)).Valid := by
      apply h.enqueued hlt rfl
      intro other index' heq
      cases heq
      exact hoccupied.1
    obtain ⟨hvalid', hqueue'⟩ := ih hvalid (by
      rw [hqueue, List.length_append, List.length_singleton]
      omega) hoccupied.2
    refine ⟨hvalid', hqueue'.trans ?_⟩
    rw [hqueue, List.append_assoc]
    rfl

/-- How many outputs a replay has left to queue. -/
def budget (limit : Option ℕ) (emittedCount left : ℕ) : ℕ :=
  match limit with
  | none => left
  | some limit => min (limit - emittedCount) left

section Rounds

variable {filters : List NostrFilter} {limit : Option ℕ} {emittedCount : ℕ}
  {emitted : List.Vector Bool eventCapacity}

theorem replayLoop_limit (h : (limit.any fun limit => decide (limit ≤ emittedCount)) = true) :
    replayLoop subscriptionId filters limit emittedCount emitted relay = .ok () relay := by
  rw [replayLoop, if_pos h]

theorem replayLoop_none (h : ¬(limit.any fun limit => decide (limit ≤ emittedCount)) = true)
    (hnext : nextReplayEvent relay.events filters emitted = .ok none) :
    replayLoop subscriptionId filters limit emittedCount emitted relay = .ok () relay := by
  rw [replayLoop, if_neg h]
  split
  · simp_all
  · rfl
  · simp_all

theorem replayLoop_some (h : ¬(limit.any fun limit => decide (limit ≤ emittedCount)) = true)
    {index : ℕ} (hnext : nextReplayEvent relay.events filters emitted = .ok (some index)) :
    replayLoop subscriptionId filters limit emittedCount emitted relay =
      (enqueueOutputRecord (.storedEvent subscriptionId index) >>= fun _ =>
        replayLoop subscriptionId filters limit (emittedCount + 1) (markEmitted emitted index)) relay := by
  show _ = EStateM.bind (enqueueOutputRecord _) _ relay
  simp only [EStateM.bind]
  rw [replayLoop, if_neg h]
  split
  · simp_all
  · simp_all
  · rename_i chosen hchosen
    rw [hnext] at hchosen
    cases hchosen
    cases enqueueOutputRecord (.storedEvent subscriptionId index) relay <;> rfl

end Rounds

/-- **A replay** queues distinct matching events, all of them unless the limit cuts it short, or it
fails on a full queue. -/
theorem replayLoop_spec (h : relay.Valid) (filters : List NostrFilter) (limit : Option ℕ)
    (emittedCount : ℕ) (emitted : List.Vector Bool eventCapacity) :
    ∃ indices : List ℕ, indices.Nodup ∧
      (∀ index ∈ indices, ∃ event, Candidate relay.events filters emitted index event) ∧
      NewestFirst relay.events filters emitted indices ∧
      ((indices.length = budget limit emittedCount (remaining relay.events filters emitted) ∧
          relay.queue.length + indices.length ≤ outputCapacity ∧
          (remaining relay.events filters emitted ≤ indices.length → ∀ index event,
            Candidate relay.events filters emitted index event → index ∈ indices) ∧
          replayLoop subscriptionId filters limit emittedCount emitted relay =
            .ok () (relay.replayed subscriptionId indices)) ∨
        (indices.length < budget limit emittedCount (remaining relay.events filters emitted) ∧
          relay.queue.length + indices.length = outputCapacity ∧
          replayLoop subscriptionId filters limit emittedCount emitted relay =
            .error (.error (.relayOutputFull outputCapacity))
              (relay.replayed subscriptionId indices).overflowed)) := by
  -- on the number of events that are left: each round takes one of them
  induction hleft : remaining relay.events filters emitted using Nat.strong_induction_on
    generalizing relay emittedCount emitted with
  | h left ih =>
  by_cases hlimit : (limit.any fun limit => decide (limit ≤ emittedCount)) = true
  · obtain ⟨bound, rfl, hbound⟩ := (Option.any_eq_true _ _).mp hlimit
    have hbound : bound ≤ emittedCount := of_decide_eq_true hbound
    refine ⟨[], List.nodup_nil, by simp, trivial, .inl ⟨?_, h.packed.length_le, ?_, replayLoop_limit hlimit⟩⟩
    · rw [budget, List.length_nil, Nat.sub_eq_zero_of_le hbound, Nat.zero_min]
    · intro hnone index event hcandidate
      have hmarked := remaining_markEmitted hcandidate
      rw [List.length_nil] at hnone
      omega
  · have hbudget (left : ℕ) :
        budget limit emittedCount (left + 1) = budget limit (emittedCount + 1) left + 1 := by
      cases limit with
      | none => rfl
      | some bound =>
        have hbound : ¬bound ≤ emittedCount := fun hle => hlimit (decide_eq_true hle)
        rw [budget, budget]
        omega
    obtain ⟨best, hnext, hbest⟩ := nextReplayEvent_least relay.events filters emitted
    cases best with
    | none =>
      have hnone : ∀ index event, ¬Candidate relay.events filters emitted index event :=
        fun index event hcandidate => hbest index hcandidate.index_lt event hcandidate
      obtain rfl : left = 0 := hleft ▸ remaining_eq_zero hnone
      refine ⟨[], List.nodup_nil, by simp, trivial,
        .inl ⟨?_, h.packed.length_le, ?_, replayLoop_none hlimit hnext⟩⟩
      · cases limit <;> simp [budget]
      · exact fun _ index event hcandidate => absurd hcandidate (hnone index event)
    | some index =>
      obtain ⟨event, hcandidate, hleast⟩ := hbest
      have hmarked := remaining_markEmitted hcandidate
      have hstep := h.enqueueOutputRecord_eq (.storedEvent subscriptionId index)
      have hloop := @replayLoop_some _ _ _ relay subscriptionId filters limit emittedCount emitted
        hlimit index hnext
      by_cases hroom : relay.queue.length < outputCapacity
      · have hqueue := h.queue_enqueued hroom (.storedEvent subscriptionId index)
        have hvalid : (relay.enqueued (.storedEvent subscriptionId index)).Valid := by
          apply h.enqueued hroom rfl
          intro other index' heq
          cases heq
          exact ⟨event, hcandidate.cell_eq⟩
        obtain ⟨indices, hnodup, hindices, hnewest, hend⟩ := ih
          (remaining relay.events filters (markEmitted emitted index)) (by omega) hvalid
          (emittedCount + 1) (markEmitted emitted index) rfl
        have hrest : ∀ other ∈ indices, other ≠ index ∧
            ∃ event, Candidate relay.events filters emitted other event := by
          intro other hother
          obtain ⟨event', hevent'⟩ := hindices other hother
          obtain ⟨hne, hevent'⟩ := (candidate_markEmitted_iff hcandidate.index_lt).mp hevent'
          exact ⟨hne, event', hevent'⟩
        rw [if_pos hroom] at hstep
        have hrun : replayLoop subscriptionId filters limit emittedCount emitted relay =
            replayLoop subscriptionId filters limit (emittedCount + 1) (markEmitted emitted index)
              (relay.enqueued (.storedEvent subscriptionId index)) := by
          rw [hloop]
          exact run_bind_of_ok hstep _
        have hleft' : left = remaining relay.events filters (markEmitted emitted index) + 1 := by
          rw [← hleft, hmarked]
        rw [hqueue, List.length_append, List.length_singleton] at hend
        rw [hrun, hleft', hbudget]
        refine ⟨index :: indices, ?_, ?_, ⟨⟨event, hcandidate, hleast⟩, hnewest⟩, ?_⟩
        · exact List.nodup_cons.mpr ⟨fun hmem => (hrest index hmem).1 rfl, hnodup⟩
        · rw [List.forall_mem_cons]
          exact ⟨⟨event, hcandidate⟩, fun other hother => (hrest other hother).2⟩
        · rw [List.length_cons]
          rcases hend with ⟨hlen, hfits, hdone, hok⟩ | ⟨hlen, hfull, herror⟩
          · refine .inl ⟨congrArg (· + 1) hlen, by omega, ?_, hok⟩
            intro hall other event' hevent'
            by_cases hother : other = index
            · exact hother ▸ List.mem_cons_self
            · exact List.mem_cons_of_mem _ (hdone (Nat.le_of_succ_le_succ hall) other event'
                ((candidate_markEmitted_iff hcandidate.index_lt).mpr ⟨hother, hevent'⟩))
          · exact .inr ⟨Nat.succ_lt_succ hlen, by omega, herror⟩
      · have hfull := h.packed.length_le
        refine ⟨[], List.nodup_nil, by simp, trivial, .inr ⟨?_, ?_, ?_⟩⟩
        · rw [← hleft, hmarked, hbudget]
          exact Nat.succ_pos _
        · rw [List.length_nil]
          omega
        · rw [hloop]
          show EStateM.bind (enqueueOutputRecord _) _ relay = _
          rw [if_neg hroom] at hstep
          simp only [EStateM.bind, hstep]
          rfl

end FakeNostrRelay

end Hyf.Nostr
