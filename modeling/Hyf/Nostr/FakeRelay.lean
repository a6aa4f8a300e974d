import Hyf.Common.LoggedSteps
import Hyf.Common.SlotQueue
import Hyf.Nostr.Stored

/-!
# The relay (`hyf_link_nostr`)

A relay in memory: a table of events, a table of subscriptions, and a queue of outputs. An output that
carries an event refers to it by index, in the table of events or in a table of its own for the events
that were handed over to be sent. The queue is an array that is filled behind its last output and
rotated when the first one is consumed.

The relay is modelled with its counters and with the panics of its arithmetic and its indexing. A
callback that receives an output is a function on it.
-/

namespace Hyf.Nostr

open ByteCodec

/-- `EVENT_P_TAG_SCAN_CAPACITY`. -/
def eventPTagScanCapacity : ℕ := 8

/-- What the relay counts. -/
structure FakeNostrRelayMetrics where
  storedEvents : ℕ
  activeSubscriptions : ℕ
  queuedOutputs : ℕ
  outputOverflows : ℕ
  deriving DecidableEq

/-- An active subscription with its filters. -/
structure FakeNostrSubscription where
  subscriptionId : String
  filters : List NostrFilter
  deriving DecidableEq

/-- What the relay sends to its client. -/
inductive FakeNostrRelayOutput where
  | ok (eventId : NostrEventId) (accepted : Bool) (status : NostrRelayStatus)
  | event (subscriptionId : String) (event : NostrEvent)
  | eose (subscriptionId : String)
  | closed (subscriptionId : String) (status : NostrRelayStatus)
  | notice (message : String)
  | auth (challenge : String)
  deriving DecidableEq

/-- The outputs that are no events. -/
inductive FakeNostrRelayControlOutput where
  | ok (eventId : NostrEventId) (accepted : Bool) (status : NostrRelayStatus)
  | eose (subscriptionId : String)
  | closed (subscriptionId : String) (status : NostrRelayStatus)
  | notice (message : String)
  | auth (challenge : String)
  deriving DecidableEq

/-- Which events a relay takes. -/
inductive FakeNostrPublishProfile where
  | hyfEnvelope
  | signedKind (kind : UInt16)
  deriving DecidableEq

/-- An output as it stands in the queue. An event is named by its index, among the stored ones or
among those the queue owns. -/
inductive FakeNostrRelayOutputRecord where
  | ok (eventId : NostrEventId) (accepted : Bool) (status : StoredRelayStatus)
  | storedEvent (subscriptionId : String) (eventIndex : ℕ)
  | ownedEvent (subscriptionId : String) (outputEventIndex : ℕ)
  | eose (subscriptionId : StoredSubscriptionId)
  | closed (subscriptionId : StoredSubscriptionId) (status : StoredRelayStatus)
  | notice (message : StoredControlString)
  | auth (challenge : StoredControlString)
  deriving DecidableEq

/-- The relay: its events, its subscriptions, and the queue of its outputs. -/
structure FakeNostrRelay (eventCapacity subscriptionCapacity outputCapacity : ℕ) where
  events : SlotArray FakeNostrEventRecord eventCapacity
  subscriptions : SlotArray FakeNostrSubscription subscriptionCapacity
  outputs : SlotArray FakeNostrRelayOutputRecord outputCapacity
  outputEvents : SlotArray FakeNostrEventRecord outputCapacity
  nextPublishRejection : Option StoredRelayStatus
  metrics : FakeNostrRelayMetrics

/-- The event in a cell that an output refers to. -/
def recordAt {n : ℕ} (events : SlotArray FakeNostrEventRecord n) (index : ℕ) :
    Outcome NostrError FakeNostrEventRecord :=
  match events.toList[index]? with
  | some (some record) => .ok record
  | _ => fail .unsupported

/-- What an output shows. -/
def FakeNostrRelayOutputRecord.withView {T : Type} {eventCapacity outputCapacity : ℕ}
    (output : FakeNostrRelayOutputRecord) (events : SlotArray FakeNostrEventRecord eventCapacity)
    (outputEvents : SlotArray FakeNostrEventRecord outputCapacity) (f : FakeNostrRelayOutput → T) :
    Outcome NostrError T :=
  match output with
  | .ok eventId accepted status => .ok (f (.ok eventId accepted status.asStatus))
  | .storedEvent subscriptionId eventIndex => do
    let record ← recordAt events eventIndex
    record.withEvent fun event => f (.event subscriptionId event)
  | .ownedEvent subscriptionId outputEventIndex => do
    let record ← recordAt outputEvents outputEventIndex
    record.withEvent fun event => f (.event subscriptionId event)
  | .eose subscriptionId => .ok (f (.eose subscriptionId.text))
  | .closed subscriptionId status => .ok (f (.closed subscriptionId.text status.asStatus))
  | .notice message => .ok (f (.notice message.text))
  | .auth challenge => .ok (f (.auth challenge.text))

def emptyStatus : NostrRelayStatus := ⟨.unknown, "", ""⟩
def duplicateStatus : NostrRelayStatus := ⟨.duplicate, "duplicate", "already stored"⟩
def invalidStatus : NostrRelayStatus := ⟨.invalid, "invalid", "invalid event"⟩

/-- `counter -= 1`. -/
def decrement : ℕ → Outcome NostrError ℕ
  | 0 => .error .panic
  | counter + 1 => .ok counter

/-! ## Matching -/

/-- The sum of the limits, unless a filter has none. -/
def replayLimit (filters : List NostrFilter) : Option ℕ :=
  filters.foldlM (fun total filter => filter.limit.map fun limit =>
    min (total + limit) (addressLimit - 1)) 0

/-- `event_matches_filters`: some filter matches. -/
def eventMatchesFilters (event : FakeNostrEventRecord) (filters : List NostrFilter) : Bool :=
  matchesAnyFilter filters
    ⟨event.kind, event.pubkey, event.collectPTags eventPTagScanCapacity, event.createdAt⟩

/-- Newer events first, and smaller ids first among events of one time. -/
def eventSortsBefore (candidate current : FakeNostrEventRecord) : Bool :=
  decide (candidate.createdAt > current.createdAt) ||
    (decide (candidate.createdAt = current.createdAt) &&
      decide (candidate.id.bytes.toList < current.id.bytes.toList))

/-- Newer events come first; of one age, the smaller identifier. -/
theorem eventSortsBefore_iff {candidate current : FakeNostrEventRecord} :
    eventSortsBefore candidate current = true ↔ current.createdAt < candidate.createdAt ∨
      candidate.createdAt = current.createdAt ∧
        candidate.id.bytes.toList < current.id.bytes.toList := by
  rw [eventSortsBefore, Bool.or_eq_true, Bool.and_eq_true, decide_eq_true_iff, decide_eq_true_iff,
    decide_eq_true_iff]

/-- No event sorts before itself. -/
theorem not_eventSortsBefore_self (event : FakeNostrEventRecord) : ¬eventSortsBefore event event = true := by
  rw [eventSortsBefore_iff]
  rintro (htime | ⟨-, hid⟩)
  · exact UInt64.lt_irrefl _ htime
  · exact List.lt_irrefl _ hid

/-- The order is transitive. -/
theorem eventSortsBefore_trans {first second third : FakeNostrEventRecord}
    (h : eventSortsBefore first second = true) (h' : eventSortsBefore second third = true) :
    eventSortsBefore first third = true := by
  rw [eventSortsBefore_iff] at h h' ⊢
  rcases h with htime | ⟨htime, hid⟩ <;> rcases h' with htime' | ⟨htime', hid'⟩
  · exact .inl (UInt64.lt_trans htime' htime)
  · exact .inl (htime' ▸ htime)
  · exact .inl (htime.symm ▸ htime')
  · exact .inr ⟨htime.trans htime', List.lt_trans hid hid'⟩

/-- Of two events with distinct ids one sorts before the other. -/
theorem eventSortsBefore_total {event event' : FakeNostrEventRecord} (hid : event.id ≠ event'.id) :
    eventSortsBefore event event' = true ∨ eventSortsBefore event' event = true := by
  rw [eventSortsBefore_iff, eventSortsBefore_iff]
  have hbytes : event.id.bytes.toList ≠ event'.id.bytes.toList := by
    intro heq
    exact hid (congrArg NostrEventId.mk (Subtype.ext heq))
  rcases lt_trichotomy event.createdAt.toNat event'.createdAt.toNat with hlt | heq | hgt
  · exact .inr (.inl hlt)
  · have htime := UInt64.toNat_inj.mp heq
    by_cases hlt : event.id.bytes.toList < event'.id.bytes.toList
    · exact .inl (.inr ⟨htime, hlt⟩)
    · by_cases hgt : event'.id.bytes.toList < event.id.bytes.toList
      · exact .inr (.inr ⟨htime.symm, hgt⟩)
      · exact absurd (List.le_antisymm (List.not_lt.mp hgt) (List.not_lt.mp hlt)) hbytes
  · exact .inl (.inl hgt)

section Replay

variable {eventCapacity : ℕ} (events : SlotArray FakeNostrEventRecord eventCapacity)
  (filters : List NostrFilter) (emitted : List.Vector Bool eventCapacity)

/-- The round of `next_replay_event` for the cell `index`. -/
def replayRound (best : Option ℕ) (index : ℕ) (cell : Option FakeNostrEventRecord) :
    Outcome NostrError (Option ℕ) :=
  if emitted.toList.getD index false then .ok best
  else
    match cell with
    | none => .ok best
    | some event =>
      if eventMatchesFilters event filters = false then .ok best
      else
        match best with
        | none => .ok (some index)
        | some currentIndex =>
          match events.toList[currentIndex]? with
          | none => .error .panic
          | some none => fail .unsupported
          | some (some current) =>
            if eventSortsBefore event current then .ok (some index) else .ok best

/-- The loop over the cells, from `index` on. -/
def scanReplay : ℕ → List (Option FakeNostrEventRecord) → Option ℕ → Outcome NostrError (Option ℕ)
  | _, [], best => .ok best
  | index, cell :: cells, best => do
    let best ← replayRound events filters emitted best index cell
    scanReplay (index + 1) cells best

/-- `next_replay_event`: the first of the events that match and were not emitted. -/
def nextReplayEvent : Outcome NostrError (Option ℕ) :=
  scanReplay events filters emitted 0 events.toList none

/-- Mark a cell as emitted. -/
def markEmitted (index : ℕ) : List.Vector Bool eventCapacity :=
  ⟨emitted.toList.set index true, by simp⟩

variable {events filters emitted}

variable (events filters emitted) in

/-- The cell holds an event that matches and was not emitted yet. -/
structure Candidate (index : ℕ) (event : FakeNostrEventRecord) : Prop where
  cell_eq : events.toList[index]? = some (some event)
  fresh : emitted.toList.getD index false = false
  isMatch : eventMatchesFilters event filters = true

/-- A candidate is in the table. -/
theorem Candidate.index_lt {index : ℕ} {event : FakeNostrEventRecord}
    (h : Candidate events filters emitted index event) : index < eventCapacity := by
  obtain ⟨hlt, -⟩ := List.getElem?_eq_some_iff.mp h.cell_eq
  simpa using hlt

variable (events filters emitted) in

/-- Of the cells below `stop`, none is a candidate, or the best one is, and no other event sorts before
it. -/
def Least (stop : ℕ) : Option ℕ → Prop
  | none => ∀ other < stop, ∀ event, ¬Candidate events filters emitted other event
  | some index => ∃ event, Candidate events filters emitted index event ∧
    ∀ other < stop, ∀ event', Candidate events filters emitted other event' →
      ¬eventSortsBefore event' event = true

/-- A cell that is no candidate is passed over. -/
theorem Least.skip {stop : ℕ} {best : Option ℕ} (h : Least events filters emitted stop best)
    (hcell : ∀ event, ¬Candidate events filters emitted stop event) :
    Least events filters emitted (stop + 1) best := by
  cases best with
  | none =>
    intro other hother
    rcases Nat.lt_succ_iff_lt_or_eq.mp hother with hlt | rfl
    · exact h other hlt
    · exact hcell
  | some index =>
    obtain ⟨event, hcandidate, hleast⟩ := h
    refine ⟨event, hcandidate, fun other hother event' hevent' => ?_⟩
    rcases Nat.lt_succ_iff_lt_or_eq.mp hother with hlt | rfl
    · exact hleast other hlt event' hevent'
    · exact absurd hevent' (hcell event')

/-- A round takes the cell, if it is the best candidate so far, or keeps what it has. -/
theorem replayRound_spec {best : Option ℕ} {index : ℕ} {cell : Option FakeNostrEventRecord}
    (hcell : events.toList[index]? = some cell) (hbest : Least events filters emitted index best) :
    ∃ best', replayRound events filters emitted best index cell = .ok best' ∧
      Least events filters emitted (index + 1) best' := by
  unfold replayRound
  by_cases hemitted : emitted.toList.getD index false = true
  · rw [if_pos hemitted]
    refine ⟨best, rfl, hbest.skip fun event hevent => ?_⟩
    rw [hevent.fresh] at hemitted
    cases hemitted
  · rw [if_neg hemitted]
    cases cell with
    | none =>
      refine ⟨best, rfl, hbest.skip fun event hevent => ?_⟩
      have hcell' := hevent.cell_eq
      rw [hcell] at hcell'
      cases hcell'
    | some event =>
      have heq {event' : FakeNostrEventRecord} (h : Candidate events filters emitted index event') :
          event' = event := by
        have hcell' := h.cell_eq
        rw [hcell] at hcell'
        cases hcell'
        rfl
      dsimp only
      by_cases hmatch : eventMatchesFilters event filters = false
      · rw [if_pos hmatch]
        refine ⟨best, rfl, hbest.skip fun event' hevent' => ?_⟩
        have hisMatch := hevent'.isMatch
        rw [heq hevent', hmatch] at hisMatch
        cases hisMatch
      · have hnew : Candidate events filters emitted index event :=
          ⟨hcell, by simpa using hemitted, by simpa using hmatch⟩
        rw [if_neg hmatch]
        cases best with
        | none =>
          refine ⟨some index, rfl, event, hnew, fun other hother event' hevent' => ?_⟩
          rcases Nat.lt_succ_iff_lt_or_eq.mp hother with hlt | rfl
          · exact absurd hevent' (hbest other hlt event')
          · rw [heq hevent']
            exact not_eventSortsBefore_self event
        | some current =>
          obtain ⟨event', hcurrent, hleast⟩ := hbest
          simp only [hcurrent.cell_eq]
          by_cases hbefore : eventSortsBefore event event' = true
          · rw [if_pos hbefore]
            refine ⟨some index, rfl, event, hnew, fun other hother event'' hevent'' hsorts => ?_⟩
            rcases Nat.lt_succ_iff_lt_or_eq.mp hother with hlt | rfl
            · exact hleast other hlt event'' hevent'' (eventSortsBefore_trans hsorts hbefore)
            · rw [heq hevent''] at hsorts
              exact not_eventSortsBefore_self event hsorts
          · rw [if_neg hbefore]
            refine ⟨some current, rfl, event', hcurrent, fun other hother event'' hevent'' => ?_⟩
            rcases Nat.lt_succ_iff_lt_or_eq.mp hother with hlt | rfl
            · exact hleast other hlt event'' hevent''
            · rwa [heq hevent'']

/-- The scan ends with the best candidate if there is one. -/
theorem scanReplay_spec (cells : List (Option FakeNostrEventRecord)) {start : ℕ} {best : Option ℕ}
    (hcells : events.toList.drop start = cells) (hbest : Least events filters emitted start best) :
    ∃ best', scanReplay events filters emitted start cells best = .ok best' ∧
      Least events filters emitted (start + cells.length) best' := by
  induction cells generalizing start best with
  | nil => exact ⟨best, rfl, hbest⟩
  | cons cell cells ih =>
    have hcell : events.toList[start]? = some cell := by
      rw [← List.head?_drop, hcells]
      rfl
    have hrest : events.toList.drop (start + 1) = cells := by
      rw [← List.tail_drop, hcells]
      rfl
    obtain ⟨next, hround, hnext⟩ := replayRound_spec hcell hbest
    obtain ⟨best', hscan, hbest'⟩ := ih hrest hnext
    refine ⟨best', ?_, ?_⟩
    · rw [scanReplay, hround]
      exact hscan
    · rwa [List.length_cons, Nat.add_comm cells.length, ← Nat.add_assoc]

variable (events filters emitted) in

/-- **The next event** is a candidate, and no other candidate sorts before it. -/
theorem nextReplayEvent_least : ∃ best, nextReplayEvent events filters emitted = .ok best ∧
    Least events filters emitted eventCapacity best := by
  have hstart : Least events filters emitted 0 none := fun other hother => absurd hother (Nat.not_lt_zero _)
  obtain ⟨best, hscan, hbest⟩ := scanReplay_spec events.toList rfl hstart
  rw [Nat.zero_add, List.Vector.toList_length] at hbest
  exact ⟨best, hscan, hbest⟩

/-- There is a next event as long as there are candidates. -/
theorem nextReplayEvent_spec : ∃ best, nextReplayEvent events filters emitted = .ok best ∧
    (∀ index, best = some index → ∃ event, Candidate events filters emitted index event) ∧
    (best = none → ∀ index event, ¬Candidate events filters emitted index event) := by
  obtain ⟨best, hnext, hbest⟩ := nextReplayEvent_least events filters emitted
  refine ⟨best, hnext, ?_, ?_⟩
  · rintro index rfl
    obtain ⟨event, hcandidate, -⟩ := hbest
    exact ⟨event, hcandidate⟩
  · rintro rfl index event hcandidate
    exact hbest index hcandidate.index_lt event hcandidate

/-- What is replayed next is a candidate. -/
theorem candidate_of_next {index : ℕ} (h : nextReplayEvent events filters emitted = .ok (some index)) :
    ∃ event, Candidate events filters emitted index event := by
  obtain ⟨best, hnext, hbest, -⟩ := @nextReplayEvent_spec _ events filters emitted
  rw [h] at hnext
  cases hnext
  exact hbest index rfl

/-- Marking a fresh cell leaves fewer of them. -/
theorem count_markEmitted_lt {index : ℕ} (hindex : index < eventCapacity)
    (hfresh : emitted.toList.getD index false = false) :
    (markEmitted emitted index).toList.count false < emitted.toList.count false := by
  have hlt : index < emitted.toList.length := by simpa using hindex
  have hget : emitted.toList[index] = false := by
    rwa [List.getD_eq_getElem?_getD, List.getElem?_eq_getElem hlt] at hfresh
  have hpos : 0 < emitted.toList.count false :=
    List.count_pos_iff.mpr (hget ▸ List.getElem_mem hlt)
  show (emitted.toList.set index true).count false < _
  rw [List.count_set hlt, hget]
  show emitted.toList.count false - 1 + 0 < _
  omega

end Replay

namespace FakeNostrRelay

variable {eventCapacity subscriptionCapacity outputCapacity : ℕ}

/-- An empty relay. -/
def new : FakeNostrRelay eventCapacity subscriptionCapacity outputCapacity where
  events := SlotArray.empty _ _
  subscriptions := SlotArray.empty _ _
  outputs := SlotArray.empty _ _
  outputEvents := SlotArray.empty _ _
  nextPublishRejection := none
  metrics := ⟨0, 0, 0, 0⟩

/-- A call of the relay. -/
abbrev RelayM (eventCapacity subscriptionCapacity outputCapacity : ℕ) :=
  EStateM (Fault NostrError) (FakeNostrRelay eventCapacity subscriptionCapacity outputCapacity)

/-- `return Err(error)`. -/
def failWith {α : Type} (error : NostrError) :
    RelayM eventCapacity subscriptionCapacity outputCapacity α := throw (.error error)

/-! ## The output queue -/

/-- An output that found the queue full is counted. -/
def countOverflow : RelayM eventCapacity subscriptionCapacity outputCapacity Unit :=
  modify fun relay => { relay with
    metrics := { relay.metrics with outputOverflows := relay.metrics.outputOverflows + 1 } }

/-- `enqueue_output_record_index`. -/
def enqueueOutputRecordIndex (output : FakeNostrRelayOutputRecord) :
    RelayM eventCapacity subscriptionCapacity outputCapacity ℕ := do
  match (← get).outputs.firstFree with
  | none =>
    countOverflow
    failWith (.relayOutputFull outputCapacity)
  | some index =>
    modify fun relay => { relay with
      outputs := relay.outputs.write index (some output)
      metrics := { relay.metrics with queuedOutputs := relay.metrics.queuedOutputs + 1 } }
    return index

/-- `enqueue_output_record`. -/
def enqueueOutputRecord (output : FakeNostrRelayOutputRecord) :
    RelayM eventCapacity subscriptionCapacity outputCapacity Unit := do
  let _ ← enqueueOutputRecordIndex output

/-- The status that stands in a record of the queue. -/
def outputOkStatus (index : ℕ) :
    RelayM eventCapacity subscriptionCapacity outputCapacity NostrRelayStatus := do
  match (← get).outputs.toList[index]? with
  | some (some (.ok _ _ status)) => return status.asStatus
  | _ => failWith .unsupported

/-- `enqueue_event_output`: the event is stored in a slot of its own. -/
def enqueueEventOutput (subscriptionId : String) (event : NostrEvent) :
    RelayM eventCapacity subscriptionCapacity outputCapacity Unit := do
  let record ← (FakeNostrEventRecord.fromEvent event).lift
  match (← get).outputEvents.firstFree with
  | none =>
    countOverflow
    failWith (.relayOutputFull outputCapacity)
  | some outputEventIndex =>
    enqueueOutputRecord (.ownedEvent subscriptionId outputEventIndex)
    modify fun relay => { relay with
      outputEvents := relay.outputEvents.write outputEventIndex (some record) }

/-- `enqueue_notice`. -/
def enqueueNotice (message : String) :
    RelayM eventCapacity subscriptionCapacity outputCapacity Unit := do
  let message ← (StoredString.fromStr hyfNostrMaxRelayStatusChars message).lift
  enqueueOutputRecord (.notice message)

/-- `inject_closed`. -/
def injectClosed (subscriptionId : String) (status : NostrRelayStatus) :
    RelayM eventCapacity subscriptionCapacity outputCapacity Unit := do
  (validateSubscriptionId subscriptionId).lift
  let subscriptionId ← (StoredString.fromStr nostrSubscriptionIdMaxLen subscriptionId).lift
  let status ← (StoredRelayStatus.fromStatus status).lift
  enqueueOutputRecord (.closed subscriptionId status)

/-- `inject_eose`. -/
def injectEose (subscriptionId : String) :
    RelayM eventCapacity subscriptionCapacity outputCapacity Unit := do
  (validateSubscriptionId subscriptionId).lift
  let subscriptionId ← (StoredString.fromStr nostrSubscriptionIdMaxLen subscriptionId).lift
  enqueueOutputRecord (.eose subscriptionId)

/-- `inject_auth_challenge`. -/
def injectAuthChallenge (challenge : String) :
    RelayM eventCapacity subscriptionCapacity outputCapacity Unit := do
  let challenge ← (StoredString.fromStr hyfNostrMaxRelayStatusChars challenge).lift
  enqueueOutputRecord (.auth challenge)

/-- `enqueue_ok`. -/
def enqueueOk (eventId : NostrEventId) (accepted : Bool) (status : NostrRelayStatus) :
    RelayM eventCapacity subscriptionCapacity outputCapacity Unit := do
  let status ← (StoredRelayStatus.fromStatus status).lift
  enqueueOutputRecord (.ok eventId accepted status)

/-- The output in the form that its kind is queued in. -/
def enqueueOutput (output : FakeNostrRelayOutput) :
    RelayM eventCapacity subscriptionCapacity outputCapacity Unit :=
  match output with
  | .ok eventId accepted status => enqueueOk eventId accepted status
  | .event subscriptionId event => enqueueEventOutput subscriptionId event
  | .eose subscriptionId => injectEose subscriptionId
  | .closed subscriptionId status => injectClosed subscriptionId status
  | .notice message => enqueueNotice message
  | .auth challenge => injectAuthChallenge challenge

/-- `with_next_output`: the head of the queue is shown and stays. -/
def withNextOutput {T : Type} (relay : FakeNostrRelay eventCapacity subscriptionCapacity outputCapacity)
    (f : FakeNostrRelayOutput → T) : Outcome NostrError (Option T) :=
  match relay.outputs.toList.head? with
  | some (some output) => do return some (← output.withView relay.events relay.outputEvents f)
  | _ => .ok none

/-- The head of the queue, if it is no event. -/
def nextControlOutput (relay : FakeNostrRelay eventCapacity subscriptionCapacity outputCapacity) :
    Option FakeNostrRelayControlOutput :=
  match relay.outputs.toList.head? with
  | some (some (.ok eventId accepted status)) => some (.ok eventId accepted status.asStatus)
  | some (some (.eose subscriptionId)) => some (.eose subscriptionId.text)
  | some (some (.closed subscriptionId status)) =>
    some (.closed subscriptionId.text status.asStatus)
  | some (some (.notice message)) => some (.notice message.text)
  | some (some (.auth challenge)) => some (.auth challenge.text)
  | _ => none

/-- `self.output_events[output_event_index] = None` for an output that owns an event. -/
def freeOutputEvent (output : FakeNostrRelayOutputRecord) :
    RelayM eventCapacity subscriptionCapacity outputCapacity Unit :=
  match output with
  | .ownedEvent _ outputEventIndex =>
    if outputEventIndex < outputCapacity then
      modify fun relay => { relay with
        outputEvents := relay.outputEvents.write outputEventIndex none }
    else throw .panic
  | _ => pure ()

/-- Empty the first cell, and move the others forward. -/
def shiftOutputs : RelayM eventCapacity subscriptionCapacity outputCapacity Unit := do
  modify fun relay => { relay with outputs := relay.outputs.write 0 none }
  if outputCapacity > 1 then
    modify fun relay => { relay with
      outputs := relay.outputs.rotateLeft.write (outputCapacity - 1) none }

/-- `consume_output`: the head of the queue is dropped, if there is one. -/
def consumeOutput : RelayM eventCapacity subscriptionCapacity outputCapacity Bool := do
  match (← get).outputs.toList.head? with
  | some (some output) =>
    freeOutputEvent output
    shiftOutputs
    let queuedOutputs ← (decrement (← get).metrics.queuedOutputs).lift
    modify fun relay => { relay with metrics := { relay.metrics with queuedOutputs } }
    return true
  | _ => return false

/-- `pop_next_output`: the head is shown, and then dropped. -/
def popNextOutput {T : Type} (f : FakeNostrRelayOutput → T) :
    RelayM eventCapacity subscriptionCapacity outputCapacity (Option T) := do
  let output ← ((← get).withNextOutput f).lift
  if output.isSome then
    let _ ← consumeOutput
  return output

/-! ## Subscriptions -/

/-- `remember_subscription`: a known identifier gets new filters. -/
def rememberSubscription (subscriptionId : String) (filters : List NostrFilter) :
    RelayM eventCapacity subscriptionCapacity outputCapacity Unit := do
  (validateSubscriptionId subscriptionId).lift
  let relay ← get
  match relay.subscriptions.findLive fun subscription =>
      subscription.subscriptionId = subscriptionId with
  | some index =>
    set { relay with subscriptions := relay.subscriptions.write index (some ⟨subscriptionId, filters⟩) }
  | none =>
    match relay.subscriptions.firstFree with
    | none => failWith (.relaySubscriptionFull subscriptionCapacity)
    | some index =>
      set { relay with
        subscriptions := relay.subscriptions.write index (some ⟨subscriptionId, filters⟩)
        metrics := { relay.metrics with
          activeSubscriptions := relay.metrics.activeSubscriptions + 1 } }

/-- The loop of `replay_subscription`: the limit bounds the rounds, and every round emits an event that
was not emitted before. -/
def replayLoop (subscriptionId : String) (filters : List NostrFilter) (limit : Option ℕ)
    (emittedCount : ℕ) (emitted : List.Vector Bool eventCapacity)
    (relay : FakeNostrRelay eventCapacity subscriptionCapacity outputCapacity) :
    EStateM.Result (Fault NostrError)
      (FakeNostrRelay eventCapacity subscriptionCapacity outputCapacity) Unit :=
  if limit.any fun limit => decide (limit ≤ emittedCount) then .ok () relay
  else
    match _hnext : nextReplayEvent relay.events filters emitted with
    | .error fault => .error fault relay
    | .ok none => .ok () relay
    | .ok (some index) =>
      match enqueueOutputRecord (.storedEvent subscriptionId index) relay with
      | .error fault relay => .error fault relay
      | .ok () relay =>
        replayLoop subscriptionId filters limit (emittedCount + 1) (markEmitted emitted index) relay
termination_by emitted.toList.count false
decreasing_by
  obtain ⟨event, hcandidate⟩ := candidate_of_next _hnext
  exact count_markEmitted_lt hcandidate.index_lt hcandidate.fresh

/-- `replay_subscription`: the stored events that match, and the end marker. -/
def replaySubscription (subscriptionId : String) (filters : List NostrFilter) :
    RelayM eventCapacity subscriptionCapacity outputCapacity Unit := do
  replayLoop subscriptionId filters (replayLimit filters) 0 (List.Vector.replicate eventCapacity false)
  let subscriptionId ← (StoredString.fromStr nostrSubscriptionIdMaxLen subscriptionId).lift
  enqueueOutputRecord (.eose subscriptionId)

/-- `subscribe`. -/
def subscribe (subscriptionId : String) (filters : List NostrFilter) :
    RelayM eventCapacity subscriptionCapacity outputCapacity Unit := do
  rememberSubscription subscriptionId filters
  replaySubscription subscriptionId filters

/-- Whether there was such a subscription. -/
def closeSubscription (subscriptionId : String) :
    RelayM eventCapacity subscriptionCapacity outputCapacity Bool := do
  (validateSubscriptionId subscriptionId).lift
  let relay ← get
  match relay.subscriptions.findLive fun subscription =>
      subscription.subscriptionId = subscriptionId with
  | none => return false
  | some index =>
    set { relay with subscriptions := relay.subscriptions.write index none }
    let activeSubscriptions ← (decrement relay.metrics.activeSubscriptions).lift
    modify fun relay => { relay with metrics := { relay.metrics with activeSubscriptions } }
    return true

/-! ## Publishing -/

/-- `reject_next_publish`. -/
def rejectNextPublish (status : NostrRelayStatus) :
    RelayM eventCapacity subscriptionCapacity outputCapacity Unit := do
  let status ← (StoredRelayStatus.fromStatus status).lift
  modify fun relay => { relay with nextPublishRejection := some status }

/-- `contains_event`. -/
def containsEvent (relay : FakeNostrRelay eventCapacity subscriptionCapacity outputCapacity)
    (eventId : NostrEventId) : Bool :=
  relay.events.live.any fun event => event.id = eventId

/-- `store_event`: the first free slot. -/
def storeEvent (event : NostrEvent) :
    RelayM eventCapacity subscriptionCapacity outputCapacity Unit := do
  let record ← (FakeNostrEventRecord.fromEvent event).lift
  let relay ← get
  match relay.events.firstFree with
  | none => failWith (.relayEventStoreFull eventCapacity)
  | some index =>
    set { relay with
      events := relay.events.write index (some record)
      metrics := { relay.metrics with storedEvents := relay.metrics.storedEvents + 1 } }

section Publish

variable (sha256 : List UInt8 → ByteArrayN 32) (schnorr : Schnorr)

/-- `validate_publish_profile`. -/
def validatePublishProfile (event : NostrEvent) (decodeBuffer : List UInt8)
    (profile : FakeNostrPublishProfile) : Outcome NostrError Unit :=
  match profile with
  | .hyfEnvelope => do
    let _ ← verifyAndDecodeHyfNostrEvent sha256 schnorr event decodeBuffer
  | .signedKind kind => do
    verifyEvent sha256 schnorr event
    rejectIf (event.kind ≠ kind) (.unexpectedKind kind event.kind)

/-- The publication of an event that the profile admits. -/
def publishAdmitted (event : NostrEvent) :
    RelayM eventCapacity subscriptionCapacity outputCapacity NostrPublishOutcome := do
  let relay ← get
  if relay.containsEvent event.id then
    enqueueOk event.id true duplicateStatus
    return .acceptedDuplicate duplicateStatus
  match relay.nextPublishRejection with
  | some status =>
    set { relay with nextPublishRejection := none }
    let outputIndex ← enqueueOutputRecordIndex (.ok event.id false status)
    return .rejected (← outputOkStatus outputIndex)
  | none =>
    storeEvent event
    enqueueOk event.id true emptyStatus
    return .accepted ""

/-- `publish_with_profile`. -/
def publishWithProfile (event : NostrEvent) (decodeBuffer : List UInt8)
    (profile : FakeNostrPublishProfile) :
    RelayM eventCapacity subscriptionCapacity outputCapacity NostrPublishOutcome :=
  match validatePublishProfile sha256 schnorr event decodeBuffer profile with
  | .error .panic => throw .panic
  | .error (.error _) => do
    enqueueOk event.id false invalidStatus
    return .rejected invalidStatus
  | .ok () => publishAdmitted event

/-- `publish`, for HYF events only. -/
def publish (event : NostrEvent) (decodeBuffer : List UInt8) :
    RelayM eventCapacity subscriptionCapacity outputCapacity NostrPublishOutcome :=
  publishWithProfile sha256 schnorr event decodeBuffer .hyfEnvelope

end Publish

end FakeNostrRelay

end Hyf.Nostr
