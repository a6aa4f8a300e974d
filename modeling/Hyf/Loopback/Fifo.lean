import Hyf.Common.LoggedSteps
import Hyf.Loopback.Loopback

/-!
# The loopback link is a first-in first-out queue in both directions

`Holds` relates an endpoint to the frames it holds, and says what sending and receiving do to them.
`Carries` adds the history of a pair: on either side, what was sent to it is what was received there
followed by what it holds. Every call on the pair keeps it, in any order.
-/

namespace Hyf.Loopback

open ByteCodec BufferM LoggedSteps

/-! ## Endpoints -/

/-- The bytes of a frame and the time at which they were sent. -/
abbrev SentFrame := List UInt8 × TimestampMs

/-- The frame of a cell as it was sent. -/
def QueuedFrame.sent (frame : QueuedFrame) : SentFrame :=
  (frame.bytes.toList.take frame.len, frame.receivedAtMs)

namespace LoopbackEndpoint

variable {N : ℕ} {endpoint peer : LoopbackEndpoint N} {frames : List SentFrame}

/-- The queue of the endpoint holds exactly these frames, in a contiguous prefix of its slots. -/
def Holds (endpoint : LoopbackEndpoint N) (frames : List SentFrame) : Prop :=
  ∃ queued : List QueuedFrame, endpoint.queue.Packed queued ∧ frames = queued.map QueuedFrame.sent ∧
    ∀ frame ∈ queued, frame.len ≤ loopbackMaxFrameLen

/-- A new end holds nothing. -/
theorem holds_new (linkId : LinkId) (mtu : ℕ) :
    (new linkId mtu : LoopbackEndpoint N).Holds [] :=
  ⟨[], .of_empty, rfl, by simp⟩

/-- The slots decide what they hold. -/
theorem Holds.unique {other : List SentFrame} (h : endpoint.Holds frames)
    (h' : endpoint.Holds other) : frames = other := by
  obtain ⟨queued, hpacked, rfl, -⟩ := h
  obtain ⟨queued', hpacked', rfl, -⟩ := h'
  rw [← hpacked.live_eq, hpacked'.live_eq]

/-- An end holds no more frames than it has cells. -/
theorem Holds.length_le (h : endpoint.Holds frames) : frames.length ≤ N := by
  obtain ⟨queued, hpacked, rfl, -⟩ := h
  rw [List.length_map]
  exact hpacked.length_le

/-- The occupied slots come first. -/
theorem Holds.isSome_eq (h : endpoint.Holds frames) :
    endpoint.queue.toList.map Option.isSome =
      List.replicate frames.length true ++ List.replicate (N - frames.length) false := by
  obtain ⟨queued, hpacked, rfl, -⟩ := h
  rw [hpacked.toList_eq, List.map_append, List.map_map, List.map_replicate, List.length_map]
  congr 1
  exact List.map_const'

/-- The queue is as long as it has frames. -/
theorem Holds.queuedLen_eq (h : endpoint.Holds frames) : endpoint.queuedLen = frames.length := by
  have hcount : endpoint.queuedLen = (endpoint.queue.toList.map Option.isSome).countP id := by
    rw [List.countP_map, queuedLen, ← List.countP_eq_length_filter]
    rfl
  rw [hcount, h.isSome_eq, List.countP_append, List.countP_replicate, List.countP_replicate]
  rfl

/-! ## Sending -/

/-- A frame passes if the end is up and the frame fits both limits; otherwise there is an error. -/
theorem validateUp_cases (endpoint : LoopbackEndpoint N) (bytes : List UInt8) :
    ((endpoint.up = true ∧ bytes.length ≤ endpoint.mtu ∧ bytes.length ≤ loopbackMaxFrameLen) ∧
      endpoint.validateUp bytes = .ok ()) ∨
    ¬(endpoint.up = true ∧ bytes.length ≤ endpoint.mtu ∧ bytes.length ≤ loopbackMaxFrameLen) ∧
      ∃ error, endpoint.validateUp bytes = fail error := by
  unfold validateUp
  by_cases hup : endpoint.up = false
  · rw [rejectIf_eq_fail hup, hup]
    exact .inr ⟨by simp, _, rfl⟩
  rw [Outcome.bind_eq (rejectIf_eq_ok hup), validateFrameLen]
  by_cases hmtu : bytes.length > endpoint.mtu
  · rw [rejectIf_eq_fail hmtu]
    exact .inr ⟨fun h => absurd h.2.1 (Nat.not_le.mpr hmtu), _, rfl⟩
  rw [Outcome.bind_eq (rejectIf_eq_ok hmtu)]
  by_cases hmax : bytes.length > loopbackMaxFrameLen
  · rw [rejectIf_eq_fail hmax]
    exact .inr ⟨fun h => absurd h.2.2 (Nat.not_le.mpr hmax), _, rfl⟩
  · rw [rejectIf_eq_ok hmax]
    exact .inl ⟨⟨by simpa using hup, Nat.not_lt.mp hmtu, Nat.not_lt.mp hmax⟩, rfl⟩

/-- A frame is queued behind the others if there is room, and refused with an unchanged queue
otherwise. -/
theorem enqueue_cases (h : peer.Holds frames) {bytes : List UInt8} (nowMs : TimestampMs)
    (hlen : bytes.length ≤ loopbackMaxFrameLen) :
    (frames.length < N ∧ ∃ queue, enqueue bytes nowMs peer = .ok () { peer with queue } ∧
      LoopbackEndpoint.Holds { peer with queue } (frames ++ [(bytes, nowMs)])) ∨
    ¬frames.length < N ∧
      enqueue bytes nowMs peer = .error (.error (.queueFull peer.linkId N)) peer := by
  obtain ⟨queued, hpacked, rfl, hqueued⟩ := h
  have hle := hpacked.length_le
  rw [List.length_map]
  by_cases hroom : queued.length < N
  · obtain ⟨written, stored, hwritten, hstored, htake⟩ :=
      @exists_stored LoopbackError _ _ hlen
    refine .inl ⟨hroom, peer.queue.write queued.length (some ⟨stored, bytes.length, nowMs⟩), ?_,
      queued ++ [⟨stored, bytes.length, nowMs⟩], hpacked.push hroom _, ?_, ?_⟩
    · rw [enqueue, run_get_bind, hpacked.firstFree_eq hroom]
      simp only [Outcome.lift_bind hwritten, Outcome.lift_bind hstored]
      rfl
    · rw [List.map_append, List.map_singleton, QueuedFrame.sent, htake]
    · intro frame hframe
      rw [List.mem_append, List.mem_singleton] at hframe
      obtain hframe | rfl := hframe
      · exact hqueued frame hframe
      · exact hlen
  · refine .inr ⟨hroom, ?_⟩
    rw [enqueue, run_get_bind, hpacked.firstFree_eq_none (by omega)]
    rfl

/-- What an endpoint and its peer must be for a send to succeed. -/
structure CanSend (endpoint peer : LoopbackEndpoint N) (frames : List SentFrame)
    (bytes : List UInt8) : Prop where
  up : endpoint.up = true
  peer_up : peer.up = true
  length_le_mtu : bytes.length ≤ endpoint.mtu
  length_le_peer_mtu : bytes.length ≤ peer.mtu
  length_le : bytes.length ≤ loopbackMaxFrameLen
  room : frames.length < N

/-- A send puts the frame last in the queue of the peer, or fails and leaves the peer alone. -/
theorem sendBytesTo_cases (endpoint : LoopbackEndpoint N) (h : peer.Holds frames)
    (bytes : List UInt8) (nowMs : TimestampMs) :
    (CanSend endpoint peer frames bytes ∧
      ∃ queue, endpoint.sendBytesTo bytes nowMs peer = .ok () { peer with queue } ∧
        LoopbackEndpoint.Holds { peer with queue } (frames ++ [(bytes, nowMs)])) ∨
    ¬CanSend endpoint peer frames bytes ∧
      ∃ error, endpoint.sendBytesTo bytes nowMs peer = .error (.error error) peer := by
  unfold sendBytesTo validateSend validateReceive
  obtain ⟨⟨hup, hmtu, hlen⟩, hvalid⟩ | ⟨hrefused, error, hvalid⟩ := validateUp_cases endpoint bytes
  swap
  · exact .inr ⟨fun h => hrefused ⟨h.up, h.length_le_mtu, h.length_le⟩, error,
      Outcome.run_lift_bind_fail hvalid _ _⟩
  rw [Outcome.lift_bind hvalid, run_get_bind]
  obtain ⟨⟨hpeerUp, hpeerMtu, -⟩, hvalid⟩ | ⟨hrefused, error, hvalid⟩ := validateUp_cases peer bytes
  swap
  · exact .inr ⟨fun h => hrefused ⟨h.peer_up, h.length_le_peer_mtu, h.length_le⟩, error,
      Outcome.run_lift_bind_fail hvalid _ _⟩
  rw [Outcome.lift_bind hvalid]
  obtain ⟨hroom, queue, henqueue, hholds⟩ | ⟨hfull, henqueue⟩ := enqueue_cases h nowMs hlen
  · exact .inl ⟨⟨hup, hpeerUp, hmtu, hpeerMtu, hlen, hroom⟩, queue, henqueue, hholds⟩
  · exact .inr ⟨fun h => hfull h.room, _, henqueue⟩

/-! ## Receiving -/

/-- Nothing is received from an empty queue. -/
theorem receiveInto_of_nil (hN : 0 < N) (h : endpoint.Holds []) (output : List UInt8) :
    receiveInto (endpoint, output) = .ok none (endpoint, output) := by
  obtain ⟨queued, hpacked, hnil, -⟩ := h
  obtain rfl : queued = [] := List.map_eq_nil_iff.mp hnil.symm
  have hhead : endpoint.queue.toList.head? = some none := by
    obtain hempty | hnone := hpacked.head?_eq_of_nil
    · have hlen := endpoint.queue.toList_length
      rw [List.head?_eq_none_iff.mp hempty, List.length_nil] at hlen
      omega
    · exact hnone
  rw [receiveInto, run_get_bind]
  simp only [hhead]
  rfl

variable {bytes output : List UInt8} {nowMs : TimestampMs}

/-- The first of the frames that an endpoint holds, in its slot. -/
theorem Holds.exists_first (h : endpoint.Holds ((bytes, nowMs) :: frames)) :
    ∃ (first : QueuedFrame) (rest : List QueuedFrame), endpoint.queue.Packed (first :: rest) ∧
      first.len = bytes.length ∧ bytes.length ≤ loopbackMaxFrameLen ∧
      first.bytes.toList.take bytes.length = bytes ∧ first.receivedAtMs = nowMs ∧
      frames = rest.map QueuedFrame.sent ∧ ∀ frame ∈ rest, frame.len ≤ loopbackMaxFrameLen := by
  obtain ⟨_ | ⟨first, rest⟩, hpacked, hmap, hqueued⟩ := h
  · cases hmap
  obtain ⟨hfirst, hframes⟩ := List.cons_eq_cons.mp hmap
  have hfit := hqueued first List.mem_cons_self
  have hbytes : first.bytes.toList.take first.len = bytes := (congrArg Prod.fst hfirst).symm
  have hlen : first.len = bytes.length := by
    rw [← hbytes, List.length_take, List.Vector.toList_length]
    exact (min_eq_left hfit).symm
  exact ⟨first, rest, hpacked, hlen, hlen ▸ hfit, hlen ▸ hbytes, (congrArg Prod.snd hfirst).symm,
    hframes, fun frame hframe => hqueued frame (List.mem_cons_of_mem first hframe)⟩

/-- A slice that is too short for the first frame is refused, and nothing changes. -/
theorem receiveInto_of_short (h : endpoint.Holds ((bytes, nowMs) :: frames))
    (hshort : output.length < bytes.length) :
    receiveInto (endpoint, output) =
      .error (.error (.outputTooSmall output.length bytes.length)) (endpoint, output) := by
  obtain ⟨first, rest, hpacked, hlen, -⟩ := h.exists_first
  rw [receiveInto, run_get_bind]
  simp only [hpacked.head?_eq, hlen]
  exact Outcome.run_lift_bind_fail (rejectIf_eq_fail hshort) _ _

/-- A receive copies the first frame out and takes it from the queue. -/
theorem receiveInto_of_room (h : endpoint.Holds ((bytes, nowMs) :: frames))
    (hroom : bytes.length ≤ output.length) :
    ∃ queue, receiveInto (endpoint, output) = .ok (some ⟨endpoint.linkId, nowMs, bytes⟩)
        ({ endpoint with queue }, bytes ++ output.drop bytes.length) ∧
      LoopbackEndpoint.Holds { endpoint with queue } frames := by
  obtain ⟨first, rest, hpacked, hlen, hfit, hbytes, htime, hframes, hrest⟩ := h.exists_first
  have hN : N ≠ 0 := by
    have hle := hpacked.length_le
    rw [List.length_cons] at hle
    omega
  have hslice : (slice first.bytes.toList 0 bytes.length : Outcome LoopbackError _) =
      .ok bytes := by
    rw [slice_eq_ok (Nat.zero_le _) (by rw [List.Vector.toList_length]; exact hfit), List.drop_zero,
      Nat.sub_zero, hbytes]
  have hcopy := runOn_eq_ok (@run_copyInto_front LoopbackError _ _ _ rfl hroom)
  have hout : (slice (bytes ++ output.drop bytes.length) 0 bytes.length :
      Outcome LoopbackError _) = .ok bytes := slice_left rfl
  refine ⟨shiftQueue endpoint.queue, ?_, rest, ?_, hframes, hrest⟩
  · rw [receiveInto, run_get_bind]
    simp only [hpacked.head?_eq, hlen, htime]
    rw [Outcome.lift_bind (rejectIf_eq_ok (Nat.not_lt.mpr hroom)), Outcome.lift_bind hslice]
    simp only [Outcome.lift_bind hcopy, Outcome.lift_bind hout]
    rfl
  · show (shiftQueue endpoint.queue).Packed rest
    rw [shiftQueue, if_neg hN]
    exact hpacked.pop_shiftDown

end LoopbackEndpoint

/-! ## Histories of a pair -/

/-- What is observed of a call: a send that succeeded, or a frame that was received. -/
inductive LoopbackEvent where
  | sent (side : LoopbackSide) (frame : SentFrame)
  | received (side : LoopbackSide) (frame : LinkFrameRef)
  deriving DecidableEq

/-- The frames sent from a side, in order. -/
def sentFrom (side : LoopbackSide) (log : List LoopbackEvent) : List SentFrame :=
  log.filterMap fun
    | .sent origin frame => if origin = side then some frame else none
    | .received _ _ => none

/-- The frames received on a side, in order. -/
def receivedOn (side : LoopbackSide) (log : List LoopbackEvent) : List SentFrame :=
  log.filterMap fun
    | .sent _ _ => none
    | .received target frame => if target = side then some (frame.bytes, frame.receivedAtMs) else none

/-- What was sent in two logs, one after the other. -/
@[simp] theorem sentFrom_append (side : LoopbackSide) (log events : List LoopbackEvent) :
    sentFrom side (log ++ events) = sentFrom side log ++ sentFrom side events :=
  List.filterMap_append

/-- What was received in two logs, one after the other. -/
@[simp] theorem receivedOn_append (side : LoopbackSide) (log events : List LoopbackEvent) :
    receivedOn side (log ++ events) = receivedOn side log ++ receivedOn side events :=
  List.filterMap_append

variable {N mtu : ℕ}

/-- The event of a send, from its result. -/
def sentEvents (side : LoopbackSide) (bytes : List UInt8) (nowMs : TimestampMs) :
    EStateM.Result (Fault LoopbackError) (LoopbackPair N) Unit → List LoopbackEvent
  | .ok _ _ => [.sent side (bytes, nowMs)]
  | .error _ _ => []

/-- The event of a receive, from its result. -/
def receivedEvents (side : LoopbackSide) :
    EStateM.Result (Fault LoopbackError) (LoopbackPair N × List UInt8) (Option LinkFrameRef) →
      List LoopbackEvent
  | .ok (some frame) _ => [.received side frame]
  | _ => []

/-- The side of a link that a driver knows. -/
def sideOf (linkId : LinkId) : LoopbackSide := if linkId = loopbackLeftId then .left else .right

/-- A link is one of the sides, or an error. -/
theorem sideForLink_cases (linkId : LinkId) :
    LoopbackPair.sideForLink linkId = .ok (sideOf linkId) ∨
      ∃ error, LoopbackPair.sideForLink linkId = fail error := by
  unfold LoopbackPair.sideForLink sideOf
  split_ifs
  · exact .inl rfl
  · exact .inl rfl
  · exact .inr ⟨_, rfl⟩

/-- One call on the pair: a send or a receive on either side, an endpoint that goes up or down, or a
method of a driver with the pair. -/
inductive LoopbackStep : LoopbackPair N → List LoopbackEvent → LoopbackPair N → Prop
  | sendBytesTo (pair : LoopbackPair N) (side : LoopbackSide) (bytes : List UInt8)
      (nowMs : TimestampMs) : LoopbackStep pair
        (sentEvents side bytes nowMs (LoopbackPair.sendBytesTo side bytes nowMs pair))
        (LoopbackPair.sendBytesTo side bytes nowMs pair).state
  | sendCommandTo (pair : LoopbackPair N) (side : LoopbackSide) (linkId : LinkId)
      (bytes : List UInt8) (nowMs : TimestampMs) : LoopbackStep pair
        (sentEvents side bytes nowMs (LoopbackPair.sendCommandTo side (.send linkId bytes) nowMs pair))
        (LoopbackPair.sendCommandTo side (.send linkId bytes) nowMs pair).state
  | receiveInto (pair : LoopbackPair N) (side : LoopbackSide) (output : List UInt8) :
      LoopbackStep pair (receivedEvents side (LoopbackPair.receiveInto side (pair, output)))
        (LoopbackPair.receiveInto side (pair, output)).state.1
  | setUp (pair : LoopbackPair N) (side : LoopbackSide) (up : Bool) :
      LoopbackStep pair [] (LoopbackPair.setUp side up pair).state
  | setLinkUp (pair : LoopbackPair N) (linkId : LinkId) (up : Bool) :
      LoopbackStep pair [] (LoopbackDriver.setLinkUp linkId up pair).state
  | sendLinkBytes (pair : LoopbackPair N) (side : LoopbackSide) (linkId : LinkId)
      (bytes : List UInt8) (nowMs : TimestampMs) : LoopbackStep pair
        (sentEvents (sideOf linkId) bytes nowMs
          (LoopbackDriver.sendLinkBytes side linkId bytes nowMs pair))
        (LoopbackDriver.sendLinkBytes side linkId bytes nowMs pair).state
  | sendBytes (pair : LoopbackPair N) (side : LoopbackSide) (bytes : List UInt8)
      (nowMs : TimestampMs) : LoopbackStep pair
        (sentEvents side bytes nowMs (LoopbackDriver.sendBytes side bytes nowMs pair))
        (LoopbackDriver.sendBytes side bytes nowMs pair).state
  | receiveLinkFrame (pair : LoopbackPair N) (linkId : LinkId) (output : List UInt8) :
      LoopbackStep pair
        (receivedEvents (sideOf linkId) (LoopbackDriver.receiveLinkFrame linkId (pair, output)))
        (LoopbackDriver.receiveLinkFrame linkId (pair, output)).state.1
  | pollFrame (pair : LoopbackPair N) (side : LoopbackSide) (output : List UInt8) :
      LoopbackStep pair (receivedEvents side.peer (LoopbackDriver.pollFrame side (pair, output)))
        (LoopbackDriver.pollFrame side (pair, output)).state.1

/-- On either side, what was sent to it is what was received there and then what is in its queue. -/
structure Carries (mtu : ℕ) (log : List LoopbackEvent) (pair : LoopbackPair N) : Prop where
  linkId_eq : ∀ side, (pair.endpoint side).linkId = side.linkId
  mtu_eq : ∀ side, (pair.endpoint side).mtu = mtu
  queue : ∀ side, ∃ frames, (pair.endpoint side).Holds frames ∧
    sentFrom side.peer log = receivedOn side log ++ frames

namespace LoopbackPair

variable {pair : LoopbackPair N}

/-- An end that was set is the one that is found. -/
@[simp] theorem endpoint_setEndpoint (pair : LoopbackPair N) (endpoint : LoopbackEndpoint N)
    (side : LoopbackSide) : (pair.setEndpoint endpoint side).endpoint side = endpoint := by
  cases side <;> rfl

/-- The other endpoint is left alone. -/
theorem endpoint_setEndpoint_of_ne (pair : LoopbackPair N) (endpoint : LoopbackEndpoint N)
    {side other : LoopbackSide} (h : other ≠ side) :
    (pair.setEndpoint endpoint side).endpoint other = pair.endpoint other := by
  cases side <;> cases other <;> first | rfl | exact absurd rfl h

/-- Setting an end to what it was changes nothing. -/
@[simp] theorem setEndpoint_endpoint (pair : LoopbackPair N) (side : LoopbackSide) :
    pair.setEndpoint (pair.endpoint side) side = pair := by
  cases side <;> rfl

/-- The peer of the peer is the side itself. -/
@[simp] theorem peer_peer (side : LoopbackSide) : side.peer.peer = side := by
  cases side <;> rfl

/-- A send from a side is a send of its endpoint to the other one. -/
theorem sendBytesTo_of_ok {side : LoopbackSide} {bytes : List UInt8} {nowMs : TimestampMs} {peer}
    (h : (pair.endpoint side).sendBytesTo bytes nowMs (pair.endpoint side.peer) = .ok () peer) :
    sendBytesTo side bytes nowMs pair = .ok () (pair.setEndpoint peer side.peer) := by
  rw [sendBytesTo, run_get_bind, onEndpoint, h]

/-- A send that the peer's end refuses leaves the pair as it was. -/
theorem sendBytesTo_of_error {side : LoopbackSide} {bytes : List UInt8} {nowMs : TimestampMs} {fault}
    (h : (pair.endpoint side).sendBytesTo bytes nowMs (pair.endpoint side.peer) =
      .error fault (pair.endpoint side.peer)) :
    sendBytesTo side bytes nowMs pair = .error fault pair := by
  rw [sendBytesTo, run_get_bind, onEndpoint, h]
  simp only [setEndpoint_endpoint]

end LoopbackPair

namespace Carries

variable {log : List LoopbackEvent} {pair : LoopbackPair N}

/-- A new pair carries nothing. -/
theorem new : Carries mtu [] (LoopbackPair.new mtu : LoopbackPair N) where
  linkId_eq side := by cases side <;> rfl
  mtu_eq side := by cases side <;> rfl
  queue side := by
    cases side
    · exact ⟨[], LoopbackEndpoint.holds_new _ _, rfl⟩
    · exact ⟨[], LoopbackEndpoint.holds_new _ _, rfl⟩

/-- One endpoint with another queue, and one event that accounts for the change. -/
theorem setEndpoint (h : Carries mtu log pair) {side : LoopbackSide} {endpoint : LoopbackEndpoint N}
    {frames : List SentFrame} {events : List LoopbackEvent}
    (hholds : endpoint.Holds frames) (hlinkId : endpoint.linkId = (pair.endpoint side).linkId)
    (hmtu : endpoint.mtu = (pair.endpoint side).mtu)
    (hside : sentFrom side.peer (log ++ events) = receivedOn side (log ++ events) ++ frames)
    (hother : ∀ other, other ≠ side → sentFrom other.peer events = [] ∧ receivedOn other events = []) :
    Carries mtu (log ++ events) (pair.setEndpoint endpoint side) where
  linkId_eq other := by
    by_cases hsame : other = side
    · rw [hsame, LoopbackPair.endpoint_setEndpoint, hlinkId, h.linkId_eq]
    · rw [LoopbackPair.endpoint_setEndpoint_of_ne _ _ hsame, h.linkId_eq]
  mtu_eq other := by
    by_cases hsame : other = side
    · rw [hsame, LoopbackPair.endpoint_setEndpoint, hmtu, h.mtu_eq]
    · rw [LoopbackPair.endpoint_setEndpoint_of_ne _ _ hsame, h.mtu_eq]
  queue other := by
    by_cases hsame : other = side
    · rw [hsame, LoopbackPair.endpoint_setEndpoint]
      exact ⟨frames, hholds, hside⟩
    · obtain ⟨hsent, hreceived⟩ := hother other hsame
      obtain ⟨queued, hqueued, haccount⟩ := h.queue other
      rw [LoopbackPair.endpoint_setEndpoint_of_ne _ _ hsame]
      refine ⟨queued, hqueued, ?_⟩
      rw [sentFrom_append, receivedOn_append, hsent, hreceived, List.append_nil, List.append_nil,
        haccount]

/-- A send from a side succeeds exactly if it can, and is the next thing sent to the other side; a
failure changes nothing. -/
theorem sendBytesTo_cases (h : Carries mtu log pair) (side : LoopbackSide) {frames : List SentFrame}
    (hframes : (pair.endpoint side.peer).Holds frames) (bytes : List UInt8) (nowMs : TimestampMs) :
    ((pair.endpoint side).CanSend (pair.endpoint side.peer) frames bytes ∧
      ∃ pair', LoopbackPair.sendBytesTo side bytes nowMs pair = .ok () pair' ∧
        Carries mtu (log ++ [.sent side (bytes, nowMs)]) pair') ∨
    ¬(pair.endpoint side).CanSend (pair.endpoint side.peer) frames bytes ∧
      ∃ error, LoopbackPair.sendBytesTo side bytes nowMs pair = .error (.error error) pair := by
  obtain ⟨hcan, queue, hsend, hholds⟩ | ⟨hrefused, error, hsend⟩ :=
    LoopbackEndpoint.sendBytesTo_cases (pair.endpoint side) hframes bytes nowMs
  · refine .inl ⟨hcan, _, LoopbackPair.sendBytesTo_of_ok hsend, ?_⟩
    obtain ⟨queued, hqueued, haccount⟩ := h.queue side.peer
    have hsame : queued = frames := hqueued.unique hframes
    apply h.setEndpoint hholds rfl rfl
    · rw [sentFrom_append, receivedOn_append, haccount, hsame]
      simp [sentFrom, receivedOn]
    · intro other hother
      have hne : side ≠ other.peer := by
        intro hside
        exact hother (by rw [hside, LoopbackPair.peer_peer])
      simp [sentFrom, receivedOn, hne]
  · exact .inr ⟨hrefused, error, LoopbackPair.sendBytesTo_of_error hsend⟩

/-- A send by `send_bytes_to` keeps the accounts. -/
theorem sendBytesTo (h : Carries mtu log pair) (side : LoopbackSide) (bytes : List UInt8)
    (nowMs : TimestampMs) :
    Carries mtu (log ++ sentEvents side bytes nowMs (LoopbackPair.sendBytesTo side bytes nowMs pair))
      (LoopbackPair.sendBytesTo side bytes nowMs pair).state := by
  obtain ⟨frames, hframes, -⟩ := h.queue side.peer
  obtain ⟨-, pair', hsend, hcarries⟩ | ⟨-, error, hsend⟩ := h.sendBytesTo_cases side hframes bytes nowMs
  · rw [hsend]
    exact hcarries
  · rw [hsend, sentEvents, List.append_nil]
    exact h

/-- A send by `send_command_to` keeps the accounts. -/
theorem sendCommandTo (h : Carries mtu log pair) (side : LoopbackSide) (linkId : LinkId)
    (bytes : List UInt8) (nowMs : TimestampMs) :
    Carries mtu
      (log ++ sentEvents side bytes nowMs
        (LoopbackPair.sendCommandTo side (.send linkId bytes) nowMs pair))
      (LoopbackPair.sendCommandTo side (.send linkId bytes) nowMs pair).state := by
  by_cases hlink : linkId = (pair.endpoint side).linkId
  · have hcommand : LoopbackPair.sendCommandTo side (.send linkId bytes) nowMs pair =
        LoopbackPair.sendBytesTo side bytes nowMs pair := by
      rw [LoopbackPair.sendCommandTo, LoopbackPair.sendBytesTo, run_get_bind, run_get_bind,
        LoopbackEndpoint.sendCommandTo, Outcome.lift_bind (rejectIf_eq_ok (not_not.mpr hlink))]
    rw [hcommand]
    exact h.sendBytesTo side bytes nowMs
  · have hcommand : LoopbackPair.sendCommandTo side (.send linkId bytes) nowMs pair =
        .error (.error (.linkMismatch (pair.endpoint side).linkId linkId)) pair := by
      rw [LoopbackPair.sendCommandTo, run_get_bind, LoopbackPair.onEndpoint,
        LoopbackEndpoint.sendCommandTo, Outcome.run_lift_bind_fail (rejectIf_eq_fail hlink)]
      simp only [LoopbackPair.setEndpoint_endpoint]
    rw [hcommand, sentEvents, List.append_nil]
    exact h

/-- What a receive on a side does: nothing to receive, a slice that is too short, or the next frame. -/
theorem receiveInto_cases (hN : 0 < N) (h : Carries mtu log pair) (side : LoopbackSide)
    {frames : List SentFrame} (hframes : (pair.endpoint side).Holds frames) (output : List UInt8) :
    (frames = [] ∧ LoopbackPair.receiveInto side (pair, output) = .ok none (pair, output)) ∨
    ∃ bytes nowMs rest, frames = (bytes, nowMs) :: rest ∧
      ((output.length < bytes.length ∧ LoopbackPair.receiveInto side (pair, output) =
          .error (.error (.outputTooSmall output.length bytes.length)) (pair, output)) ∨
        bytes.length ≤ output.length ∧ ∃ pair', LoopbackPair.receiveInto side (pair, output) =
            .ok (some ⟨side.linkId, nowMs, bytes⟩) (pair', bytes ++ output.drop bytes.length) ∧
          Carries mtu (log ++ [.received side ⟨side.linkId, nowMs, bytes⟩]) pair') := by
  match frames, hframes with
  | [], hframes =>
    refine .inl ⟨rfl, ?_⟩
    rw [LoopbackPair.receiveInto, LoopbackEndpoint.receiveInto_of_nil hN hframes]
    simp only [LoopbackPair.setEndpoint_endpoint]
  | (bytes, nowMs) :: rest, hframes =>
    refine .inr ⟨bytes, nowMs, rest, rfl, ?_⟩
    by_cases hshort : output.length < bytes.length
    · refine .inl ⟨hshort, ?_⟩
      rw [LoopbackPair.receiveInto, LoopbackEndpoint.receiveInto_of_short hframes hshort]
      simp only [LoopbackPair.setEndpoint_endpoint]
    · have hroom := Nat.not_lt.mp hshort
      obtain ⟨queue, hreceive, hholds⟩ := LoopbackEndpoint.receiveInto_of_room hframes hroom
      refine .inr ⟨hroom, pair.setEndpoint { pair.endpoint side with queue } side, ?_, ?_⟩
      · rw [← h.linkId_eq side, LoopbackPair.receiveInto, hreceive]
      obtain ⟨queued, hqueued, haccount⟩ := h.queue side
      have hsame : queued = (bytes, nowMs) :: rest := hqueued.unique hframes
      apply h.setEndpoint hholds rfl rfl
      · rw [sentFrom_append, receivedOn_append, haccount, hsame]
        simp [sentFrom, receivedOn]
      · intro other hother
        simp [sentFrom, receivedOn, hother.symm]

/-- A receive keeps the accounts. -/
theorem receiveInto (hN : 0 < N) (h : Carries mtu log pair) (side : LoopbackSide)
    (output : List UInt8) :
    Carries mtu (log ++ receivedEvents side (LoopbackPair.receiveInto side (pair, output)))
      (LoopbackPair.receiveInto side (pair, output)).state.1 := by
  obtain ⟨frames, hframes, -⟩ := h.queue side
  obtain ⟨-, hreceive⟩ | ⟨bytes, nowMs, rest, -, ⟨-, hreceive⟩ | ⟨-, pair', hreceive, hcarries⟩⟩ :=
    h.receiveInto_cases hN side hframes output
  · rw [hreceive, receivedEvents, List.append_nil]
    · exact h
    · intro frame state hok
      cases hok
  · rw [hreceive, receivedEvents, List.append_nil]
    · exact h
    · intro frame state hok
      cases hok
  · rw [hreceive]
    exact hcarries

/-- Setting an end up or down keeps the accounts. -/
theorem setUp (h : Carries mtu log pair) (side : LoopbackSide) (up : Bool) :
    Carries mtu log (LoopbackPair.setUp side up pair).state := by
  obtain ⟨frames, hframes, haccount⟩ := h.queue side
  have hup : LoopbackEndpoint.Holds { pair.endpoint side with up } frames := hframes
  have hset : Carries mtu (log ++ []) (pair.setEndpoint { pair.endpoint side with up } side) :=
    h.setEndpoint hup rfl rfl (by rw [List.append_nil]; exact haccount) fun _ _ => ⟨rfl, rfl⟩
  rw [List.append_nil] at hset
  exact hset

/-- Every call on the pair keeps the account of both directions. -/
theorem step (hN : 0 < N) {events : List LoopbackEvent} {pair' : LoopbackPair N}
    (h : Carries mtu log pair) (hstep : LoopbackStep pair events pair') :
    Carries mtu (log ++ events) pair' := by
  cases hstep with
  | sendBytesTo side bytes nowMs => exact h.sendBytesTo side bytes nowMs
  | sendCommandTo side linkId bytes nowMs => exact h.sendCommandTo side linkId bytes nowMs
  | receiveInto side output => exact h.receiveInto hN side output
  | setUp side up =>
    rw [List.append_nil]
    exact h.setUp side up
  | sendBytes side bytes nowMs => exact h.sendBytesTo side bytes nowMs
  | pollFrame side output => exact h.receiveInto hN side.peer output
  | setLinkUp linkId up =>
    rw [List.append_nil, LoopbackDriver.setLinkUp]
    obtain hside | ⟨error, hside⟩ := sideForLink_cases linkId
    · rw [Outcome.lift_bind hside]
      exact h.setUp (sideOf linkId) up
    · rw [Outcome.run_lift_bind_fail hside]
      exact h
  | sendLinkBytes side linkId bytes nowMs =>
    rw [LoopbackDriver.sendLinkBytes, sideOf]
    by_cases hleft : linkId = loopbackLeftId
    · rw [if_pos hleft, if_pos hleft]
      exact h.sendBytesTo .left bytes nowMs
    · rw [if_neg hleft, if_neg hleft]
      by_cases hright : linkId = loopbackRightId
      · rw [if_pos hright]
        exact h.sendBytesTo .right bytes nowMs
      · rw [if_neg hright]
        exact (List.append_nil log).symm ▸ h
  | receiveLinkFrame linkId output =>
    rw [LoopbackDriver.receiveLinkFrame]
    obtain hside | ⟨error, hside⟩ := sideForLink_cases linkId
    · rw [Outcome.lift_bind hside]
      exact h.receiveInto hN (sideOf linkId) output
    · rw [Outcome.run_lift_bind_fail hside]
      exact (List.append_nil log).symm ▸ h

end Carries

/-- The account of one direction after a run: `frames` are sent and not yet received. -/
structure ReliableFifo (mtu : ℕ) (log : List LoopbackEvent) (pair : LoopbackPair N)
    (side : LoopbackSide) (frames : List SentFrame) : Prop where
  sent_eq : sentFrom side.peer log = receivedOn side log ++ frames
  contiguous : (pair.endpoint side).queue.toList.map Option.isSome =
    List.replicate frames.length true ++ List.replicate (N - frames.length) false
  queuedLen_eq : (pair.endpoint side).queuedLen = frames.length
  queuedLen_le : (pair.endpoint side).queuedLen ≤ N
  send_iff : ∀ bytes nowMs, (∃ pair', LoopbackPair.sendBytesTo side.peer bytes nowMs pair = .ok () pair') ↔
    (pair.endpoint side.peer).up = true ∧ (pair.endpoint side).up = true ∧
      bytes.length ≤ min mtu 2048 ∧ (pair.endpoint side).queuedLen < N
  send_failed : ∀ bytes nowMs fault pair',
    LoopbackPair.sendBytesTo side.peer bytes nowMs pair = .error fault pair' →
      fault ≠ .panic ∧ pair' = pair
  receive_nil : frames = [] → ∀ output,
    LoopbackPair.receiveInto side (pair, output) = .ok none (pair, output)
  receive_short : ∀ bytes nowMs rest, frames = (bytes, nowMs) :: rest →
    ∀ output : List UInt8, output.length < bytes.length →
      LoopbackPair.receiveInto side (pair, output) =
        .error (.error (.outputTooSmall output.length bytes.length)) (pair, output)
  receive_first : ∀ bytes nowMs rest, frames = (bytes, nowMs) :: rest →
    ∀ output : List UInt8, bytes.length ≤ output.length →
      ∃ pair', LoopbackPair.receiveInto side (pair, output) =
        .ok (some ⟨side.linkId, nowMs, bytes⟩) (pair', bytes ++ output.drop bytes.length)

/-- A run from a new pair accounts for every frame. -/
theorem carries_of_steps (hN : 0 < N) {log : List LoopbackEvent} {pair : LoopbackPair N}
    (hrun : Steps LoopbackStep (LoopbackPair.new mtu) log pair) : Carries mtu log pair :=
  hrun.invariant (fun _ _ _ _ hcarries hstep => hcarries.step hN hstep) Carries.new

/-- **The loopback link is a reliable queue in both directions.** After any interleaving of sends and
receives on either side, endpoints going up and down, and methods of a driver: what was sent to a side
is, in order, byte for byte and with its time, what was received there and then what is in its queue,
which is a contiguous prefix of the slots. A send succeeds exactly if both endpoints are up, the frame
fits, and there is room. A send that fails and a receive into a slice that is too short change
nothing. -/
theorem loopback_fifo (hN : 0 < N) {log : List LoopbackEvent} {pair : LoopbackPair N}
    (hrun : Steps LoopbackStep (LoopbackPair.new mtu) log pair) (side : LoopbackSide) :
    ∃ frames, ReliableFifo mtu log pair side frames := by
  have hcarries := carries_of_steps hN hrun
  obtain ⟨frames, hframes, haccount⟩ := hcarries.queue side
  have hpeerFrames : (pair.endpoint side.peer.peer).Holds frames := by
    rw [LoopbackPair.peer_peer]
    exact hframes
  have hsends := fun bytes nowMs => hcarries.sendBytesTo_cases side.peer hpeerFrames bytes nowMs
  simp only [LoopbackPair.peer_peer] at hsends
  refine ⟨frames, haccount, hframes.isSome_eq, hframes.queuedLen_eq, ?_, ?_, ?_, ?_, ?_, ?_⟩
  · rw [hframes.queuedLen_eq]
    exact hframes.length_le
  · intro bytes nowMs
    rw [hframes.queuedLen_eq]
    constructor
    · rintro ⟨pair', hok⟩
      obtain ⟨hcan, -⟩ | ⟨-, error, herror⟩ := hsends bytes nowMs
      · exact ⟨hcan.up, hcan.peer_up,
          le_min (hcarries.mtu_eq side ▸ hcan.length_le_peer_mtu) hcan.length_le, hcan.room⟩
      · rw [herror] at hok
        cases hok
    · rintro ⟨hup, hpeerUp, hlen, hroom⟩
      have hmtu : bytes.length ≤ mtu := hlen.trans (min_le_left _ _)
      obtain ⟨-, pair', hok, -⟩ | ⟨hrefused, -⟩ := hsends bytes nowMs
      · exact ⟨pair', hok⟩
      · exact absurd ⟨hup, hpeerUp, by rwa [hcarries.mtu_eq], by rwa [hcarries.mtu_eq],
          hlen.trans (min_le_right _ _), hroom⟩ hrefused
  · intro bytes nowMs fault pair' herror
    obtain ⟨-, pair'', hok, -⟩ | ⟨-, error, hfail⟩ := hsends bytes nowMs
    · rw [hok] at herror
      cases herror
    · rw [hfail] at herror
      cases herror
      exact ⟨nofun, rfl⟩
  · rintro rfl output
    obtain ⟨-, hnone⟩ | ⟨bytes, nowMs, rest, hcons, -⟩ :=
      hcarries.receiveInto_cases hN side hframes output
    · exact hnone
    · cases hcons
  · rintro bytes nowMs rest rfl output hshort
    obtain ⟨hnil, -⟩ | ⟨bytes', nowMs', rest', hcons, ⟨-, hfail⟩ | ⟨hroom, -⟩⟩ :=
      hcarries.receiveInto_cases hN side hframes output
    · cases hnil
    · cases hcons
      exact hfail
    · cases hcons
      exact absurd hroom (Nat.not_le.mpr hshort)
  · rintro bytes nowMs rest rfl output hroom
    obtain ⟨hnil, -⟩ | ⟨bytes', nowMs', rest', hcons, ⟨hshort, -⟩ | ⟨-, pair', hok, -⟩⟩ :=
      hcarries.receiveInto_cases hN side hframes output
    · cases hnil
    · cases hcons
      exact absurd hroom (Nat.not_le.mpr hshort)
    · cases hcons
      exact ⟨pair', hok⟩

/-- A pair with one frame under way to the right. -/
def loadedPair : LoopbackPair 2 :=
  (LoopbackPair.sendBytesTo .left [1, 2] 5 (LoopbackPair.new 16)).state

/-- The pair when a second frame was sent to the right and the first was received there. -/
def servedPair : LoopbackPair 2 :=
  (LoopbackPair.receiveInto .right
    ((LoopbackPair.sendBytesTo .left [3] 6 loadedPair).state, [0, 0, 0])).state.1

/-- Two frames are sent to the right, and the first of them is received. -/
theorem steps_servedPair : Steps LoopbackStep (LoopbackPair.new 16)
    [.sent .left ([1, 2], 5), .sent .left ([3], 6), .received .right ⟨loopbackRightId, 5, [1, 2]⟩]
    servedPair := by
  have hfirst := Steps.single
    (LoopbackStep.sendBytesTo (LoopbackPair.new 16 : LoopbackPair 2) .left [1, 2] 5)
  have hsecond := hfirst.tail (LoopbackStep.sendBytesTo loadedPair .left [3] 6)
  have hthird := hsecond.tail (LoopbackStep.receiveInto
    (LoopbackPair.sendBytesTo .left [3] 6 loadedPair).state .right [0, 0, 0])
  refine cast (congrArg (fun log => Steps LoopbackStep _ log servedPair) ?_) hthird
  decide +kernel

/-- Of two frames that were sent to the right, the first was received there and the second is in
the queue. -/
theorem servedPair_loopback_fifo :
    ∃ frames, ReliableFifo 16
      [.sent .left ([1, 2], 5), .sent .left ([3], 6), .received .right ⟨loopbackRightId, 5, [1, 2]⟩]
      servedPair .right frames ∧ frames = [([3], 6)] := by
  obtain ⟨frames, hfifo⟩ := loopback_fifo (by decide) steps_servedPair .right
  refine ⟨frames, hfifo, ?_⟩
  -- what was sent is the received frame and then the queue
  have hsent : [([1, 2], 5), ([3], 6)] = [([1, 2], 5)] ++ frames := hfifo.sent_eq
  exact (List.cons.inj hsent).2.symm

end Hyf.Loopback
