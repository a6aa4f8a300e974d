import Hyf.Common.Transaction
import Hyf.Fips.Sidecar

/-!
# What the sidecar holds (`hyf_link_fips`)

`FipsQueue.Holds` relates the slots and the counter of a queue to the datagrams in it, and
`FakeFipsSidecar.Holds` says it of both queues, with what is known of the peers. Each call is a
transaction: `sendTo`, `injectFrom` and `registerPeer` change one of these or nothing, and a poll takes
the first datagram or nothing.
-/

namespace Hyf.Fips

open ByteCodec BufferM

variable {sha256 : List UInt8 → ByteArrayN 32} {peerMax queueMax frameMax : ℕ}

/-! ## Datagrams -/

/-- The datagram that a record stands for. -/
def FipsDatagramRecord.asRef (record : FipsDatagramRecord frameMax) : FipsDatagramRef :=
  ⟨record.source, record.destination, record.bytes.toList.take record.len⟩

/-- The datagram of a record has its length. -/
theorem FipsDatagramRecord.length_asRef (record : FipsDatagramRecord frameMax) :
    record.asRef.bytes.length = record.len := by
  rw [asRef, List.length_take, record.bytes.toList_length]
  exact min_eq_left record.len_le

/-- Checking an endpoint does not panic. -/
theorem ends_validate (endpoint : FipsEndpoint) :
    Ends (endpoint.validate sha256) fun _ => endpoint.validate sha256 = .ok () := by
  rw [FipsEndpoint.validate]
  split_ifs
  · exact rfl
  · exact trivial

/-- A record keeps the bytes and both endpoints. -/
theorem ends_new (source destination : FipsEndpoint) (bytes : List UInt8) :
    Ends (FipsDatagramRecord.new sha256 source destination bytes :
        Outcome FipsError (FipsDatagramRecord frameMax)) fun record =>
      record.asRef = ⟨source, destination, bytes⟩ := by
  apply (ends_validate source).bind
  intro _ _
  apply (ends_validate destination).bind
  intro _ _
  split_ifs with hlen
  · obtain ⟨written, stored, hwritten, hstored, htake⟩ := @exists_stored FipsError bytes frameMax hlen
    rw [Outcome.bind_eq hwritten]
    simp only [Outcome.bind_eq hstored]
    exact congrArg (FipsDatagramRef.mk source destination) htake
  · exact trivial

/-! ## Queues -/

namespace FipsQueue

variable {queue : FipsQueue queueMax frameMax} {datagrams : List FipsDatagramRef}

/-- The slots hold these datagrams, first to last, and the counter counts them. -/
def Holds (queue : FipsQueue queueMax frameMax) (datagrams : List FipsDatagramRef) : Prop :=
  ∃ records, queue.slots.Packed records ∧ queue.len = records.length ∧
    datagrams = records.map FipsDatagramRecord.asRef

/-- An empty queue holds nothing. -/
theorem holds_empty : (empty : FipsQueue queueMax frameMax).Holds [] := ⟨[], .of_empty, rfl, rfl⟩

/-- The datagrams in the occupied slots. -/
def queued (queue : FipsQueue queueMax frameMax) : List FipsDatagramRef :=
  queue.slots.live.map FipsDatagramRecord.asRef

/-- What is held is what is queued. -/
theorem Holds.queued_eq (h : queue.Holds datagrams) : queue.queued = datagrams := by
  obtain ⟨records, hpacked, -, rfl⟩ := h
  rw [queued, hpacked.live_eq]

/-- The length is the number of datagrams. -/
theorem Holds.len_eq (h : queue.Holds datagrams) : queue.len = datagrams.length := by
  obtain ⟨records, -, hlen, rfl⟩ := h
  rw [hlen, List.length_map]

/-- The counter is the number of occupied slots. -/
theorem Holds.len_eq_live (h : queue.Holds datagrams) : queue.len = queue.slots.live.length := by
  obtain ⟨records, hpacked, hlen, -⟩ := h
  rw [hlen, hpacked.live_eq]

/-- The occupied slots come first, as many as the counter says. -/
theorem Holds.isSome_eq (h : queue.Holds datagrams) :
    queue.slots.toList.map Option.isSome =
      List.replicate queue.len true ++ List.replicate (queueMax - queue.len) false := by
  obtain ⟨records, hpacked, hlen, rfl⟩ := h
  rw [hpacked.toList_eq, List.map_append, List.map_map, List.map_replicate, hlen]
  congr 1
  exact List.map_const'

/-- A counter that is not zero has a datagram in the first slot. -/
theorem Holds.readAt_zero (h : queue.Holds datagrams) (hne : queue.len ≠ 0) :
    ∃ record, (queue.slots.readAt 0 : Outcome FipsError _) = .ok (some record) := by
  obtain ⟨_ | ⟨record, records⟩, hpacked, hlen, -⟩ := h
  · exact absurd hlen hne
  · exact ⟨record, hpacked.readAt_zero⟩

/-- With room for it a datagram is queued behind the others. -/
theorem Holds.enqueue (h : queue.Holds datagrams) (hroom : queue.len < queueMax)
    (record : FipsDatagramRecord frameMax) :
    ∃ queue', Fips.enqueue queue record = .ok queue' ∧ queue'.Holds (datagrams ++ [record.asRef]) := by
  obtain ⟨records, hpacked, hlen, rfl⟩ := h
  rw [hlen] at hroom
  have hwrite : (queue.slots.writeAt queue.len (some record) : Outcome FipsError _) =
      .ok (queue.slots.write records.length (some record)) := by
    rw [hlen]
    exact SlotArray.writeAt_eq_ok hroom _
  refine ⟨⟨queue.slots.write records.length (some record), queue.len + 1⟩, ?_,
    records ++ [record], hpacked.push hroom record, ?_, ?_⟩
  · rw [Fips.enqueue, Outcome.bind_eq hwrite]
    rfl
  · show queue.len + 1 = _
    rw [List.length_append, List.length_singleton, hlen]
  · rw [List.map_append, List.map_singleton]

/-! ### Polls -/

/-- Nothing is polled from an empty queue. -/
theorem pollQueue_of_nil (h : queue.Holds []) (output : List UInt8) :
    pollQueue (queue, output) = .ok none (queue, output) := by
  rw [pollQueue, run_get_bind]
  exact congrFun (if_pos h.len_eq) _

variable {datagram : FipsDatagramRef} {output : List UInt8}

/-- The first record, and the queue without it. -/
theorem Holds.exists_first (h : queue.Holds (datagram :: datagrams)) :
    ∃ (record : FipsDatagramRecord frameMax) (queue' : FipsQueue queueMax frameMax),
      queue.len ≠ 0 ∧ (queue.slots.readAt 0 : Outcome FipsError _) = .ok (some record) ∧
      record.asRef = datagram ∧ shiftQueue queue = .ok queue' ∧ queue'.Holds datagrams := by
  obtain ⟨_ | ⟨record, records⟩, hpacked, hlen, hmap⟩ := h
  · cases hmap
  obtain ⟨hrecord, hdatagrams⟩ := List.cons_eq_cons.mp hmap
  rw [List.length_cons] at hlen
  have hne : queue.len ≠ 0 := by omega
  obtain ⟨slots, hshift, hwrite, hrest⟩ := hpacked.exists_shiftTo (ε := FipsError)
  rw [← hlen] at hshift
  have hsub : (subUsize queue.len 1 : Outcome FipsError ℕ) = .ok records.length := by
    rw [subUsize_eq_ok (by omega), hlen, Nat.add_sub_cancel]
  refine ⟨record, ⟨slots.write records.length none, records.length⟩, hne, hpacked.readAt_zero,
    hrecord.symm, ?_, records, hrest, rfl, hdatagrams⟩
  rw [shiftQueue, if_neg hne, Outcome.bind_eq hshift, Outcome.bind_eq hsub, Outcome.bind_eq hwrite]
  rfl

/-- A slice that is too short for the first datagram is refused, and nothing changes. -/
theorem pollQueue_of_short (h : queue.Holds (datagram :: datagrams))
    (hshort : output.length < datagram.bytes.length) :
    pollQueue (queue, output) =
      .error (.error (.outputTooSmall datagram.bytes.length output.length)) (queue, output) := by
  obtain ⟨record, queue', hne, hread, rfl, -⟩ := h.exists_first
  rw [record.length_asRef] at hshort ⊢
  rw [pollQueue, run_get_bind]
  simp only [if_neg hne, Outcome.lift_bind hread]
  exact Outcome.run_lift_bind_fail (rejectIf_eq_fail hshort) _ _

/-- A poll copies the first datagram out and takes it from the queue. -/
theorem pollQueue_of_room (h : queue.Holds (datagram :: datagrams))
    (hroom : datagram.bytes.length ≤ output.length) :
    ∃ queue', pollQueue (queue, output) = .ok (some datagram)
        (queue', datagram.bytes ++ output.drop datagram.bytes.length) ∧
      queue'.Holds datagrams := by
  obtain ⟨record, queue', hne, hread, rfl, hshift, hholds⟩ := h.exists_first
  have hlen := record.length_asRef
  rw [hlen] at hroom ⊢
  have hslice : (slice record.bytes.toList 0 record.len : Outcome FipsError _) =
      .ok record.asRef.bytes :=
    slice_take (by rw [record.bytes.toList_length]; exact record.len_le)
  have hcopy := @run_copyInto_front FipsError _ _ _ hlen hroom
  have hout : (slice (record.asRef.bytes ++ output.drop record.len) 0 record.len :
      Outcome FipsError _) = .ok record.asRef.bytes := slice_left hlen
  refine ⟨queue', ?_, hholds⟩
  rw [pollQueue, run_get_bind]
  simp only [if_neg hne, Outcome.lift_bind hread]
  rw [Outcome.lift_bind (rejectIf_eq_ok (Nat.not_lt.mpr hroom)), Outcome.lift_bind hslice]
  simp only [Outcome.lift_bind (runOn_eq_ok hcopy), Outcome.lift_bind hshift, Outcome.lift_bind hout]
  rfl

/-- With room for the first datagram, if there is one, a poll returns it. -/
theorem Holds.pollQueue_of_fits (h : queue.Holds datagrams)
    (hfits : ∀ datagram ∈ datagrams.head?, datagram.bytes.length ≤ output.length) :
    ∃ after, Fips.pollQueue (queue, output) = .ok datagrams.head? after := by
  cases datagrams with
  | nil => exact ⟨_, pollQueue_of_nil h output⟩
  | cons datagram rest =>
    obtain ⟨queue', hpoll, -⟩ := pollQueue_of_room h (hfits datagram rfl)
    exact ⟨_, hpoll⟩

/-- A poll returns the first datagram, if there is one, and the queue keeps the others. -/
theorem Holds.pollQueue (h : queue.Holds datagrams) (output : List UInt8) :
    AllOrNothing Fips.pollQueue (queue, output) fun polled after =>
      polled = datagrams.head? ∧ after.1.Holds datagrams.tail := by
  cases datagrams with
  | nil => exact AllOrNothing.of_run (pollQueue_of_nil h output) ⟨rfl, h⟩
  | cons datagram rest =>
    by_cases hroom : datagram.bytes.length ≤ output.length
    · obtain ⟨queue', hpoll, hholds⟩ := pollQueue_of_room h hroom
      exact AllOrNothing.of_run hpoll ⟨rfl, hholds⟩
    · rw [AllOrNothing, pollQueue_of_short h (not_le.mp hroom)]

end FipsQueue

/-! ## The sidecar -/

/-- Two endpoints share nothing. -/
def Apart (first second : FipsEndpoint) : Prop :=
  first.publicKey ≠ second.publicKey ∧ first.nodeAddr ≠ second.nodeAddr ∧
    first.ipv6Addr ≠ second.ipv6Addr

/-- Endpoints that do not overlap are apart. -/
theorem apart_of_endpointsOverlap {first second : FipsEndpoint}
    (h : ¬endpointsOverlap first second = true) : Apart first second := by
  rw [endpointsOverlap, decide_eq_true_iff, not_or, not_or] at h
  exact h

namespace FakeFipsSidecar

/-- The datagrams in either queue, and what is known of the peers. -/
structure Holds (sidecar : FakeFipsSidecar peerMax queueMax frameMax)
    (ins outs : List FipsDatagramRef) : Prop where
  inbound : sidecar.inbound.Holds ins
  outbound : sidecar.outbound.Holds outs
  destination : ∀ datagram ∈ ins, datagram.destination = sidecar.localEndpoint
  peers : ∃ registered, sidecar.peers.Packed registered ∧ registered.Pairwise Apart ∧
    ∀ peer ∈ registered, Apart sidecar.localEndpoint peer

/-- What no call changes. -/
def SameEndpoint (sidecar sidecar' : FakeFipsSidecar peerMax queueMax frameMax) : Prop :=
  sidecar'.localEndpoint = sidecar.localEndpoint ∧ sidecar'.mtu = sidecar.mtu

variable {sidecar : FakeFipsSidecar peerMax queueMax frameMax} {ins outs : List FipsDatagramRef}

/-- A new sidecar holds nothing, and has this endpoint. -/
theorem ends_new (localEndpoint : FipsEndpoint) (mtu : ℕ) :
    Ends (new sha256 localEndpoint mtu :
        Outcome FipsError (FakeFipsSidecar peerMax queueMax frameMax)) fun sidecar =>
      sidecar.Holds [] [] ∧ sidecar.localEndpoint = localEndpoint := by
  apply (ends_validate localEndpoint).bind
  intro _ _
  apply (ends_rejectIf _ _).bind
  intro _ _
  refine ⟨⟨FipsQueue.holds_empty, FipsQueue.holds_empty, ?_, [], .of_empty, .nil, ?_⟩, rfl⟩
  · intro datagram hdatagram
    cases hdatagram
  · intro peer hpeer
    cases hpeer

/-- A peer that is registered shares nothing with the endpoints that are there. -/
theorem Holds.registerPeer (h : sidecar.Holds ins outs)
    (sha256 : List UInt8 → ByteArrayN 32) (endpoint : FipsEndpoint) :
    AllOrNothing (registerPeer sha256 endpoint) sidecar fun _ sidecar' =>
      sidecar'.Holds ins outs ∧ SameEndpoint sidecar sidecar' := by
  obtain ⟨registered, hpacked, hpairwise, hlocal⟩ := h.peers
  apply AllOrNothing.lift_bind (ends_validate endpoint)
  intro _ _
  apply AllOrNothing.get_bind
  apply AllOrNothing.lift_bind (ends_rejectIf _ _)
  intro _ hapart
  rw [not_or, hpacked.live_eq, List.any_eq_true] at hapart
  by_cases hroom : registered.length < peerMax
  · rw [hpacked.firstFree_eq hroom]
    refine AllOrNothing.of_run rfl ⟨⟨h.inbound, h.outbound, h.destination, registered ++ [endpoint],
      hpacked.push hroom endpoint, ?_, ?_⟩, rfl, rfl⟩
    · rw [List.pairwise_append]
      refine ⟨hpairwise, List.pairwise_singleton _ _, ?_⟩
      intro peer hpeer other hother
      rw [List.mem_singleton.mp hother]
      apply apart_of_endpointsOverlap
      intro hoverlap
      exact hapart.2 ⟨peer, hpeer, hoverlap⟩
    · intro peer hpeer
      obtain hpeer | hpeer := List.mem_append.mp hpeer
      · exact hlocal peer hpeer
      · rw [List.mem_singleton.mp hpeer]
        exact apart_of_endpointsOverlap hapart.1
  · have hfull : registered.length = peerMax := le_antisymm hpacked.length_le (not_lt.mp hroom)
    rw [hpacked.firstFree_eq_none hfull]
    exact rfl

/-- What passes is up. -/
theorem ends_validateUp (sidecar : FakeFipsSidecar peerMax queueMax frameMax) :
    Ends sidecar.validateUp fun _ => sidecar.up = true := by
  rw [validateUp]
  split_ifs with hup
  · exact hup
  · exact trivial

/-- A datagram that is sent goes last in the outbound queue. -/
theorem Holds.sendTo (h : sidecar.Holds ins outs) (sha256 : List UInt8 → ByteArrayN 32)
    (destination : FipsEndpoint) (bytes : List UInt8) :
    AllOrNothing (sendTo sha256 destination bytes) sidecar fun _ sidecar' =>
      sidecar'.Holds ins (outs ++ [⟨sidecar.localEndpoint, destination, bytes⟩]) ∧
        SameEndpoint sidecar sidecar' := by
  apply AllOrNothing.get_bind
  apply AllOrNothing.lift_bind (ends_validateUp sidecar)
  intro _ _
  apply AllOrNothing.lift_bind (ends_rejectIf _ _)
  intro _ _
  apply AllOrNothing.lift_bind (ends_rejectIf _ _)
  intro _ _
  apply AllOrNothing.lift_bind (ends_rejectIf _ _)
  intro _ hroom
  apply AllOrNothing.lift_bind (Hyf.Fips.ends_new sidecar.localEndpoint destination bytes)
  intro record hrecord
  obtain ⟨queue, henqueue, hqueue⟩ := h.outbound.enqueue (not_le.mp hroom) record
  apply AllOrNothing.lift_bind_ok henqueue
  rw [hrecord] at hqueue
  exact AllOrNothing.of_run rfl ⟨⟨h.inbound, hqueue, h.destination, h.peers⟩, rfl, rfl⟩

/-- A datagram that is injected goes last in the inbound queue. -/
theorem Holds.injectFrom (h : sidecar.Holds ins outs) (sha256 : List UInt8 → ByteArrayN 32)
    (source : FipsEndpoint) (bytes : List UInt8) :
    AllOrNothing (injectFrom sha256 source bytes) sidecar fun _ sidecar' =>
      sidecar'.Holds (ins ++ [⟨source, sidecar.localEndpoint, bytes⟩]) outs ∧
        SameEndpoint sidecar sidecar' := by
  apply AllOrNothing.get_bind
  apply AllOrNothing.lift_bind (ends_validateUp sidecar)
  intro _ _
  apply AllOrNothing.lift_bind (ends_rejectIf _ _)
  intro _ _
  apply AllOrNothing.lift_bind (ends_rejectIf _ _)
  intro _ _
  apply AllOrNothing.lift_bind (ends_rejectIf _ _)
  intro _ hroom
  apply AllOrNothing.lift_bind (Hyf.Fips.ends_new source sidecar.localEndpoint bytes)
  intro record hrecord
  obtain ⟨queue, henqueue, hqueue⟩ := h.inbound.enqueue (not_le.mp hroom) record
  apply AllOrNothing.lift_bind_ok henqueue
  rw [hrecord] at hqueue
  refine AllOrNothing.of_run rfl ⟨⟨hqueue, h.outbound, ?_, h.peers⟩, rfl, rfl⟩
  intro datagram hdatagram
  obtain hdatagram | hdatagram := List.mem_append.mp hdatagram
  · exact h.destination datagram hdatagram
  · rw [List.mem_singleton.mp hdatagram]

/-- The queues do not depend on whether the sidecar is up. -/
theorem Holds.setUp (h : sidecar.Holds ins outs) (up : Bool) :
    ({ sidecar with up } : FakeFipsSidecar peerMax queueMax frameMax).Holds ins outs :=
  ⟨h.inbound, h.outbound, h.destination, h.peers⟩

section

variable {datagram : FipsDatagramRef} {output : List UInt8}

/-- Nothing is polled from an empty queue. -/
theorem Holds.pollInbound_of_nil (h : sidecar.Holds [] outs) (output : List UInt8) :
    pollInbound (sidecar, output) = .ok none (sidecar, output) := by
  rw [pollInbound, FipsQueue.pollQueue_of_nil h.inbound]

/-- A buffer that is too short leaves the datagram. -/
theorem Holds.pollInbound_of_short (h : sidecar.Holds (datagram :: ins) outs)
    (hshort : output.length < datagram.bytes.length) :
    pollInbound (sidecar, output) =
      .error (.error (.outputTooSmall datagram.bytes.length output.length)) (sidecar, output) := by
  rw [pollInbound, FipsQueue.pollQueue_of_short h.inbound hshort]

/-- With room for it the datagram at the head is removed and copied. -/
theorem Holds.pollInbound_of_room (h : sidecar.Holds (datagram :: ins) outs)
    (hroom : datagram.bytes.length ≤ output.length) :
    ∃ queue : FipsQueue queueMax frameMax, FakeFipsSidecar.pollInbound (sidecar, output) =
        .ok (some datagram)
          ({ sidecar with inbound := queue }, datagram.bytes ++ output.drop datagram.bytes.length) ∧
      FakeFipsSidecar.Holds { sidecar with inbound := queue } ins outs := by
  obtain ⟨queue, hpoll, hqueue⟩ := FipsQueue.pollQueue_of_room h.inbound hroom
  refine ⟨queue, ?_, ⟨hqueue, h.outbound, ?_, h.peers⟩⟩
  · rw [FakeFipsSidecar.pollInbound, hpoll]
  · intro other hother
    exact h.destination other (List.mem_cons_of_mem _ hother)

/-- An inbound poll removes the head, or changes nothing. -/
theorem Holds.pollInbound (h : sidecar.Holds ins outs) (output : List UInt8) :
    AllOrNothing pollInbound (sidecar, output) fun polled after =>
      polled = ins.head? ∧ after.1.Holds ins.tail outs ∧ SameEndpoint sidecar after.1 := by
  obtain ⟨error, hpoll⟩ | ⟨polled, ⟨queue, output'⟩, hpoll, hhead, hqueue⟩ :=
    (h.inbound.pollQueue output).cases
  · rw [AllOrNothing, FakeFipsSidecar.pollInbound, hpoll]
  · rw [AllOrNothing, FakeFipsSidecar.pollInbound, hpoll]
    refine ⟨hhead, ⟨hqueue, h.outbound, ?_, h.peers⟩, rfl, rfl⟩
    intro datagram hdatagram
    exact h.destination datagram (List.mem_of_mem_tail hdatagram)

/-- An outbound poll removes the head, or changes nothing. -/
theorem Holds.pollOutbound (h : sidecar.Holds ins outs) (output : List UInt8) :
    AllOrNothing pollOutbound (sidecar, output) fun polled after =>
      polled = outs.head? ∧ after.1.Holds ins outs.tail ∧ SameEndpoint sidecar after.1 := by
  obtain ⟨error, hpoll⟩ | ⟨polled, ⟨queue, output'⟩, hpoll, hhead, hqueue⟩ :=
    (h.outbound.pollQueue output).cases
  · rw [AllOrNothing, FakeFipsSidecar.pollOutbound, hpoll]
  · rw [AllOrNothing, FakeFipsSidecar.pollOutbound, hpoll]
    exact ⟨hhead, ⟨h.inbound, hqueue, h.destination, h.peers⟩, rfl, rfl⟩

end

end FakeFipsSidecar

end Hyf.Fips
