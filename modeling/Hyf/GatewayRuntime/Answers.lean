import Hyf.GatewayRuntime.Runtime
import Hyf.Gateway.Traffic

/-!
# How the loopback driver answers the core

While a side of the pair is up, the other side decides what becomes of a send: it is refused, and nothing
changes, exactly when the frame is too long, the other side is down or its queue is full; else the frame
is last in that queue (`sendLinkBytes_cases`). Sends and receives leave it alone whether an endpoint is up.
-/

namespace Hyf

open ByteCodec BufferM Loopback

/-- The answer to a send from a side that is up, and the pair afterwards, from the pair at the moment of
the send. -/
inductive LinkAnswer {N : ℕ} (mtu : ℕ) (pair : LoopbackPair N) (side : LoopbackSide)
    (frame : SentFrame) : Except GatewayError Unit → LoopbackPair N → Prop
  | tooLarge (large : mtu < frame.1.length) :
      LinkAnswer mtu pair side frame (.error (.loopback (.frameTooLarge frame.1.length mtu))) pair
  | peerDown (fits : frame.1.length ≤ mtu) (down : (pair.endpoint side.peer).up = false) :
      LinkAnswer mtu pair side frame (.error (.loopback (.down side.peer.linkId))) pair
  | queueFull {frames : List SentFrame} (fits : frame.1.length ≤ mtu)
      (up : (pair.endpoint side.peer).up = true) (holds : (pair.endpoint side.peer).Holds frames)
      (full : frames.length = N) :
      LinkAnswer mtu pair side frame (.error (.loopback (.queueFull side.peer.linkId N))) pair
  | accepted {frames : List SentFrame} {queue : SlotArray QueuedFrame N} (fits : frame.1.length ≤ mtu)
      (up : (pair.endpoint side.peer).up = true) (holds : (pair.endpoint side.peer).Holds frames)
      (room : frames.length < N)
      (queued : LoopbackEndpoint.Holds { pair.endpoint side.peer with queue } (frames ++ [frame])) :
      LinkAnswer mtu pair side frame (.ok ())
        (pair.setEndpoint { pair.endpoint side.peer with queue } side.peer)

/-- So the pair decides: a send is accepted exactly when the frame fits, the other side is up and its queue
has room. -/
theorem LinkAnswer.accepted_iff {N mtu : ℕ} {pair pair' : LoopbackPair N} {side : LoopbackSide}
    {frame : SentFrame} {answer : Except GatewayError Unit} {frames : List SentFrame}
    (h : LinkAnswer mtu pair side frame answer pair')
    (hframes : (pair.endpoint side.peer).Holds frames) :
    answer = .ok () ↔ frame.1.length ≤ mtu ∧ (pair.endpoint side.peer).up = true ∧ frames.length < N := by
  cases h with
  | tooLarge large => exact iff_of_false (by rintro ⟨⟩) fun hcan => Nat.not_le.mpr large hcan.1
  | peerDown fits down =>
    refine iff_of_false (by rintro ⟨⟩) fun hcan => ?_
    rw [hcan.2.1] at down
    cases down
  | queueFull fits up holds full =>
    obtain rfl := hframes.unique holds
    exact iff_of_false (by rintro ⟨⟩) fun hcan => hcan.2.2.ne full
  | accepted fits up holds room =>
    obtain rfl := hframes.unique holds
    exact iff_of_true rfl ⟨fits, up, room⟩

namespace Loopback

variable {N mtu : ℕ} {side : LoopbackSide} {bytes : List UInt8} {nowMs : TimestampMs}

/-! ## The executor is the driver -/

theorem sendLinkBytes_of_ok {linkId : LinkId} {pair pair' : LoopbackPair N}
    (h : LoopbackDriver.sendLinkBytes .left linkId bytes nowMs pair = .ok () pair') :
    GatewayLinkExecutor.sendLinkBytes pair linkId bytes nowMs = (.ok (), pair') := by
  unfold GatewayLinkExecutor.sendLinkBytes instGatewayLinkExecutorLoopbackPair
  dsimp only
  split
  all_goals
    rename_i hrun
    rw [h] at hrun
    cases hrun
  rfl

theorem sendLinkBytes_of_error {linkId : LinkId} {pair pair' : LoopbackPair N}
    {error : LoopbackError}
    (h : LoopbackDriver.sendLinkBytes .left linkId bytes nowMs pair =
      .error (.error error) pair') :
    GatewayLinkExecutor.sendLinkBytes pair linkId bytes nowMs =
      (.error (mapLoopbackError error), pair') := by
  unfold GatewayLinkExecutor.sendLinkBytes instGatewayLinkExecutorLoopbackPair
  dsimp only
  split
  all_goals
    rename_i hrun
    rw [h] at hrun
    cases hrun
  rfl

theorem right_ne_left : loopbackRightId ≠ loopbackLeftId := by decide

/-- A link of the pair is found on its side. -/
theorem sideForLink_linkId (side : LoopbackSide) : LoopbackPair.sideForLink side.linkId = .ok side := by
  cases side
  · rfl
  · rfl

/-- Any other link is a mismatch. -/
theorem sideForLink_of_unknown {linkId : LinkId} (h : ∀ side : LoopbackSide, linkId ≠ side.linkId) :
    LoopbackPair.sideForLink linkId = fail (.linkMismatch loopbackLeftId linkId) := by
  have hleft : linkId ≠ loopbackLeftId := h .left
  have hright : linkId ≠ loopbackRightId := h .right
  unfold LoopbackPair.sideForLink
  rw [if_neg hleft, if_neg hright]

/-- A link of the pair sends from its side. -/
theorem sendLinkBytes_linkId (own side : LoopbackSide) (pair : LoopbackPair N) :
    LoopbackDriver.sendLinkBytes own side.linkId bytes nowMs pair =
      LoopbackPair.sendBytesTo side bytes nowMs pair := by
  unfold LoopbackDriver.sendLinkBytes
  cases side with
  | left => rw [LoopbackSide.linkId, if_pos rfl]
  | right => rw [LoopbackSide.linkId, if_neg right_ne_left, if_pos rfl]

/-! ## Refusals -/

theorem LoopbackEndpoint.validateUp_of_up {endpoint : LoopbackEndpoint N}
    (hup : endpoint.up = true) (hlen : bytes.length ≤ loopbackMaxFrameLen) :
    endpoint.validateUp bytes = rejectIf (bytes.length > endpoint.mtu)
      (LoopbackError.frameTooLarge bytes.length endpoint.mtu) := by
  have hdown : ¬endpoint.up = false := by rw [hup]; exact Bool.noConfusion
  unfold LoopbackEndpoint.validateUp LoopbackEndpoint.validateFrameLen
  rw [Outcome.bind_eq (rejectIf_eq_ok hdown)]
  by_cases hmtu : bytes.length > endpoint.mtu
  · rw [rejectIf_eq_fail hmtu]
    rfl
  · rw [rejectIf_eq_ok hmtu]
    exact rejectIf_eq_ok (Nat.not_lt.mpr hlen)

theorem LoopbackEndpoint.validateUp_of_down {endpoint : LoopbackEndpoint N}
    (hdown : endpoint.up = false) :
    endpoint.validateUp bytes = fail (LoopbackError.down endpoint.linkId) := by
  unfold LoopbackEndpoint.validateUp
  rw [rejectIf_eq_fail hdown]
  rfl

/-- What a send from an endpoint that is up does to the endpoint of the other side. -/
theorem LoopbackEndpoint.sendBytesTo_of_up {endpoint peer : LoopbackEndpoint N}
    {frames : List SentFrame} (hpeer : peer.Holds frames) (hup : endpoint.up = true)
    (hmtu : peer.mtu = endpoint.mtu) (hlen : bytes.length ≤ loopbackMaxFrameLen) :
    (endpoint.mtu < bytes.length ∧ endpoint.sendBytesTo bytes nowMs peer =
      .error (.error (.frameTooLarge bytes.length endpoint.mtu)) peer) ∨
    bytes.length ≤ endpoint.mtu ∧
      (peer.up = false ∧ endpoint.sendBytesTo bytes nowMs peer = .error (.error (.down peer.linkId)) peer ∨
        peer.up = true ∧
          (frames.length = N ∧ endpoint.sendBytesTo bytes nowMs peer =
              .error (.error (.queueFull peer.linkId N)) peer ∨
            frames.length < N ∧ ∃ queue,
              endpoint.sendBytesTo bytes nowMs peer = .ok () { peer with queue } ∧
              LoopbackEndpoint.Holds { peer with queue } (frames ++ [(bytes, nowMs)]))) := by
  unfold LoopbackEndpoint.sendBytesTo LoopbackEndpoint.validateSend LoopbackEndpoint.validateReceive
  rw [validateUp_of_up hup hlen]
  by_cases hlarge : bytes.length > endpoint.mtu
  · exact .inl ⟨hlarge, Outcome.run_lift_bind_fail (rejectIf_eq_fail hlarge) _ _⟩
  refine .inr ⟨Nat.not_lt.mp hlarge, ?_⟩
  rw [Outcome.lift_bind (rejectIf_eq_ok hlarge), run_get_bind]
  by_cases hpeerUp : peer.up = true
  · have hpeerLarge : ¬bytes.length > peer.mtu := hmtu ▸ hlarge
    rw [validateUp_of_up hpeerUp hlen, Outcome.lift_bind (rejectIf_eq_ok hpeerLarge)]
    obtain ⟨hroom, queue, henqueue, hqueued⟩ | ⟨hfull, henqueue⟩ := enqueue_cases hpeer nowMs hlen
    · exact .inr ⟨hpeerUp, .inr ⟨hroom, queue, henqueue, hqueued⟩⟩
    · exact .inr ⟨hpeerUp, .inl ⟨hpeer.length_le.antisymm (Nat.not_lt.mp hfull), henqueue⟩⟩
  · rw [Bool.not_eq_true] at hpeerUp
    exact .inl ⟨hpeerUp, Outcome.run_lift_bind_fail (validateUp_of_down hpeerUp) _ _⟩

/-- The endpoints are up as they were. -/
def SameUp (pair pair' : LoopbackPair N) : Prop :=
  ∀ side, (pair'.endpoint side).up = (pair.endpoint side).up

/-- Another queue on one side. -/
theorem sameUp_setEndpoint (pair : LoopbackPair N) {endpoint : LoopbackEndpoint N}
    {side : LoopbackSide} (h : endpoint.up = (pair.endpoint side).up) :
    SameUp pair (pair.setEndpoint endpoint side) := by
  intro other
  by_cases hsame : other = side
  · rw [hsame, LoopbackPair.endpoint_setEndpoint, h]
  · rw [LoopbackPair.endpoint_setEndpoint_of_ne _ _ hsame]

/-- The event of a send, from its answer. -/
def answeredEvents (side : LoopbackSide) (frame : SentFrame) :
    Except GatewayError Unit → List LoopbackEvent
  | .ok () => [.sent side frame]
  | .error _ => []

/-- **A send on a link whose side is up** is answered as the pair decides, and accepted exactly when the
frame was put into the queue. -/
theorem sendLinkBytes_cases (bytes : List UInt8) (nowMs : TimestampMs) {events : List LoopbackEvent}
    {pair : LoopbackPair N} (h : Carries mtu events pair) (hup : (pair.endpoint side).up = true)
    (hlen : bytes.length ≤ loopbackMaxFrameLen) :
    ∃ answer pair', GatewayLinkExecutor.sendLinkBytes pair side.linkId bytes nowMs =
        (answer, pair') ∧ LinkAnswer mtu pair side (bytes, nowMs) answer pair' ∧ SameUp pair pair' ∧
      Carries mtu (events ++ answeredEvents side (bytes, nowMs) answer) pair' := by
  obtain ⟨frames, hframes, -⟩ := h.queue side.peer
  have hcarries := h.sendBytesTo side bytes nowMs
  have hrefused : ∀ error, (pair.endpoint side).sendBytesTo bytes nowMs (pair.endpoint side.peer) =
      .error (.error error) (pair.endpoint side.peer) →
      LinkAnswer mtu pair side (bytes, nowMs) (.error (mapLoopbackError error)) pair →
      ∃ answer pair', GatewayLinkExecutor.sendLinkBytes pair side.linkId bytes nowMs =
        (answer, pair') ∧ LinkAnswer mtu pair side (bytes, nowMs) answer pair' ∧ SameUp pair pair' ∧
        Carries mtu (events ++ answeredEvents side (bytes, nowMs) answer) pair' := by
    intro error hsend hanswer
    refine ⟨_, pair, sendLinkBytes_of_error ?_, hanswer, fun _ => rfl, ?_⟩
    · rw [sendLinkBytes_linkId]
      exact LoopbackPair.sendBytesTo_of_error hsend
    · rw [answeredEvents, List.append_nil]
      exact h
  have hlinkId := h.linkId_eq side.peer
  have hmtu := h.mtu_eq side
  obtain ⟨hlarge, hsend⟩ |
      ⟨hfits, ⟨hdown, hsend⟩ | ⟨hpeerUp, ⟨hfull, hsend⟩ | ⟨hroom, queue, hsend, hqueued⟩⟩⟩ :=
    LoopbackEndpoint.sendBytesTo_of_up hframes hup
      ((h.mtu_eq side.peer).trans hmtu.symm) hlen
  · rw [hmtu] at hlarge hsend
    exact hrefused _ hsend (.tooLarge hlarge)
  · rw [hlinkId] at hsend
    exact hrefused _ hsend (.peerDown (hmtu ▸ hfits) hdown)
  · rw [hlinkId] at hsend
    exact hrefused _ hsend (.queueFull (hmtu ▸ hfits) hpeerUp hframes hfull)
  · have hpair := LoopbackPair.sendBytesTo_of_ok hsend
    rw [hpair] at hcarries
    refine ⟨.ok (), _, sendLinkBytes_of_ok ((sendLinkBytes_linkId .left side pair).trans hpair),
      .accepted (hmtu ▸ hfits) hpeerUp hframes hroom hqueued, sameUp_setEndpoint pair rfl,
      hcarries⟩

/-! ## Receiving -/

variable {frames : List SentFrame} {events : List LoopbackEvent} {pair : LoopbackPair N}

theorem receiveInto_of_zero (endpoint : LoopbackEndpoint 0) (output : List UInt8) :
    LoopbackEndpoint.receiveInto (endpoint, output) = .error .panic (endpoint, output) := by
  have hhead : endpoint.queue.toList.head? = none := by
    rw [List.head?_eq_none_iff, ← List.length_eq_zero_iff, List.Vector.toList_length]
  rw [LoopbackEndpoint.receiveInto, run_get_bind]
  simp only [hhead]
  rfl

theorem sameUp_receiveInto (hframes : (pair.endpoint side).Holds frames) (output : List UInt8) :
    SameUp pair (LoopbackPair.receiveInto side (pair, output)).state.1 := by
  have hstate : ((LoopbackEndpoint.receiveInto (pair.endpoint side, output)).state.1).up =
      (pair.endpoint side).up := by
    cases frames with
    | nil =>
      cases N with
      | zero => rw [receiveInto_of_zero]; rfl
      | succ n => rw [LoopbackEndpoint.receiveInto_of_nil n.succ_pos hframes]; rfl
    | cons first rest =>
      obtain ⟨bytes, nowMs⟩ := first
      by_cases hshort : output.length < bytes.length
      · rw [LoopbackEndpoint.receiveInto_of_short hframes hshort]
        rfl
      · obtain ⟨queue, hreceive, -⟩ :=
          LoopbackEndpoint.receiveInto_of_room hframes (Nat.not_lt.mp hshort)
        rw [hreceive]
        rfl
  cases hrun : LoopbackEndpoint.receiveInto (pair.endpoint side, output) with
  | ok frame state =>
    rw [hrun] at hstate
    simp only [LoopbackPair.receiveInto, hrun]
    exact sameUp_setEndpoint pair hstate
  | error fault state =>
    rw [hrun] at hstate
    simp only [LoopbackPair.receiveInto, hrun]
    exact sameUp_setEndpoint pair hstate

/-- A link of the pair receives on its side. -/
theorem receiveLinkFrame_linkId (side : LoopbackSide) :
    (LoopbackDriver.receiveLinkFrame side.linkId : EStateM (Fault LoopbackError)
      (LoopbackPair N × List UInt8) (Option LinkFrameRef)) = LoopbackPair.receiveInto side := by
  funext state
  rw [LoopbackDriver.receiveLinkFrame, Outcome.lift_bind (sideForLink_linkId side)]

/-- A receive on a side that holds no frames: there is none, or a queue without a place is read. -/
theorem receiveLinkFrame_of_nil (h : Carries mtu events pair)
    (hframes : (pair.endpoint side).Holds []) (output : List UInt8) :
    LoopbackDriver.receiveLinkFrame side.linkId (pair, output) =
      if N = 0 then .error .panic (pair, output) else .ok none (pair, output) := by
  rw [receiveLinkFrame_linkId]
  cases N with
  | zero =>
    rw [if_pos rfl, LoopbackPair.receiveInto, receiveInto_of_zero]
    simp only [LoopbackPair.setEndpoint_endpoint]
  | succ n =>
    rw [if_neg n.succ_ne_zero]
    obtain ⟨-, hnone⟩ | ⟨bytes, nowMs, rest, hcons, -⟩ :=
      h.receiveInto_cases n.succ_pos side hframes output
    · exact hnone
    · cases hcons

/-- The first of the frames comes out, if the output slice has room for it. -/
theorem receiveLinkFrame_of_cons (h : Carries mtu events pair) {rest : List SentFrame}
    (hframes : (pair.endpoint side).Holds ((bytes, nowMs) :: rest)) (output : List UInt8) :
    (output.length < bytes.length ∧ LoopbackDriver.receiveLinkFrame side.linkId (pair, output) =
        .error (.error (.outputTooSmall output.length bytes.length)) (pair, output)) ∨
      bytes.length ≤ output.length ∧ ∃ pair' output',
        LoopbackDriver.receiveLinkFrame side.linkId (pair, output) =
          .ok (some ⟨side.linkId, nowMs, bytes⟩) (pair', output') ∧ SameUp pair pair' ∧
        Carries mtu (events ++ [.received side ⟨side.linkId, nowMs, bytes⟩]) pair' := by
  have hN : 0 < N := by
    have hle := hframes.length_le
    rw [List.length_cons] at hle
    omega
  have hup := sameUp_receiveInto hframes output
  rw [receiveLinkFrame_linkId]
  obtain ⟨hnil, -⟩ | ⟨bytes', nowMs', rest', hcons, ⟨hshort, hfail⟩ | ⟨hroom, pair', hok, hcarries⟩⟩ :=
    h.receiveInto_cases hN side hframes output
  · cases hnil
  · cases hcons
    exact .inl ⟨hshort, hfail⟩
  · cases hcons
    rw [hok] at hup
    exact .inr ⟨hroom, pair', _, hok, hup, hcarries⟩

/-- Any other link is refused. -/
theorem receiveLinkFrame_of_unknown {linkId : LinkId} (h : ∀ side : LoopbackSide, linkId ≠ side.linkId)
    (pair : LoopbackPair N) (output : List UInt8) :
    LoopbackDriver.receiveLinkFrame linkId (pair, output) =
      .error (.error (.linkMismatch loopbackLeftId linkId)) (pair, output) := by
  rw [LoopbackDriver.receiveLinkFrame, Outcome.run_lift_bind_fail (sideForLink_of_unknown h)]

end Loopback

end Hyf
