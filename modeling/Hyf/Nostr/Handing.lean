import Hyf.Nostr.RelayOperations

/-!
# Handing out the outputs

A caller looks at the oldest output and consumes it. Doing so again and again it is handed what the queue
shows, in its order: consuming an output changes nothing about those behind it.
-/

namespace Hyf.Nostr

open ByteCodec

namespace FakeNostrRelay

variable {eventCapacity subscriptionCapacity outputCapacity : ℕ}
  {relay : FakeNostrRelay eventCapacity subscriptionCapacity outputCapacity}

/-- Looking at the oldest output and consuming it, until none is left, hands out these outputs. -/
def HandsOut : List FakeNostrRelayOutput →
    FakeNostrRelay eventCapacity subscriptionCapacity outputCapacity → Prop
  | [], relay => relay.withNextOutput id = .ok none
  | output :: outputs, relay => relay.withNextOutput id = .ok (some output) ∧
    ∃ relay', consumeOutput relay = .ok true relay' ∧ HandsOut outputs relay'

/-- What a queued output shows. -/
def view (relay : FakeNostrRelay eventCapacity subscriptionCapacity outputCapacity)
    (record : FakeNostrRelayOutputRecord) : Outcome NostrError FakeNostrRelayOutput :=
  record.withView relay.events relay.outputEvents id

/-- What the queue shows, oldest first. -/
def shown (relay : FakeNostrRelay eventCapacity subscriptionCapacity outputCapacity) :
    List (Outcome NostrError FakeNostrRelayOutput) :=
  relay.queue.map relay.view

theorem Valid.exists_shown (h : relay.Valid) :
    ∃ outputs : List FakeNostrRelayOutput, relay.shown = outputs.map .ok := by
  have hviews : ∀ records : List FakeNostrRelayOutputRecord, (∀ record ∈ records, record ∈ relay.queue) →
      ∃ outputs : List FakeNostrRelayOutput, records.map relay.view = outputs.map .ok := by
    intro records hrecords
    induction records with
    | nil => exact ⟨[], rfl⟩
    | cons record records ih =>
      rw [List.forall_mem_cons] at hrecords
      obtain ⟨output, houtput⟩ := h.exists_view hrecords.1
      obtain ⟨outputs, houtputs⟩ := ih hrecords.2
      refine ⟨output :: outputs, ?_⟩
      rw [List.map_cons, List.map_cons, houtputs, view, houtput]
      rfl
  exact hviews relay.queue fun _ hmem => hmem

/-- The cells that other outputs refer to are not freed. -/
theorem Valid.view_consumed (h : relay.Valid) {record : FakeNostrRelayOutputRecord}
    {rest : List FakeNostrRelayOutputRecord} (hqueue : relay.queue = record :: rest)
    {other : FakeNostrRelayOutputRecord} (hother : other ∈ rest) :
    (relay.consumed record rest.length).view other = relay.view other := by
  cases hslot : record.ownedIndex with
  | none => rw [view, view, outputEvents_consumed_of_none hslot]; rfl
  | some slot =>
    have howned := h.owned_nodup
    rw [owned, hqueue, List.filterMap_cons, hslot, List.nodup_cons] at howned
    rw [view, view, outputEvents_consumed_of_some hslot]
    cases other with
    | ownedEvent subscriptionId index =>
      have hne : slot ≠ index := by
        rintro rfl
        exact howned.1 (List.mem_filterMap.mpr ⟨_, hother, rfl⟩)
      have hcell : (relay.outputEvents.write slot none).toList[index]? =
          relay.outputEvents.toList[index]? := by
        rw [SlotArray.toList_write, List.getElem?_set_ne hne]
      rw [FakeNostrRelayOutputRecord.withView, FakeNostrRelayOutputRecord.withView, recordAt, recordAt,
        hcell]
    | _ => rfl

/-- **The outputs are handed out** as the queue shows them. -/
theorem Valid.handsOut {outputs : List FakeNostrRelayOutput} (h : relay.Valid)
    (hshown : relay.shown = outputs.map .ok) : relay.HandsOut outputs := by
  induction outputs generalizing relay with
  | nil =>
    have hqueue : relay.queue = [] := List.map_eq_nil_iff.mp hshown
    have hpacked := h.packed
    rw [hqueue] at hpacked
    rw [HandsOut, withNextOutput]
    rcases hpacked.head?_eq_of_nil with hhead | hhead <;> rw [hhead]
  | cons output outputs ih =>
    obtain ⟨record, rest, hqueue, hview, hrest⟩ := List.map_eq_cons_iff.mp hshown
    refine ⟨?_, relay.consumed record rest.length, h.consumeOutput_eq hqueue, ?_⟩
    · rw [withNextOutput, h.head?_outputs hqueue]
      exact Outcome.bind_eq hview _
    · apply ih (h.consumed hqueue)
      have hqueue' : (relay.consumed record rest.length).queue = rest :=
        (h.packed_consumed hqueue).live_eq
      rw [shown, hqueue', ← hrest]
      exact List.map_congr_left fun other hother => h.view_consumed hqueue hother

end FakeNostrRelay

end Hyf.Nostr
