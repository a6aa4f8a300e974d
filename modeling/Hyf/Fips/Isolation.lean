import Hyf.Fips.Executor
import Hyf.Fips.SidecarRuns

/-!
# A FIPS link hands on the frames of its remote endpoint only

A poll of the executor takes the first datagram of the sidecar before it looks at the endpoints, so a
datagram of another peer is lost to the gateway, but it is never handed on. `Serves` says what a run
keeps: the injected datagrams that are gone were taken in order, and the frames are among those of them
that the remote endpoint sent.
-/

namespace Hyf.Fips

open ByteCodec LoggedSteps

variable {sha256 : List UInt8 → ByteArrayN 32} {peerMax queueMax frameMax : ℕ}

namespace FipsGatewayExecutor

variable {executor : FipsGatewayExecutor peerMax queueMax frameMax} {datagram : FipsDatagramRef}
  {ins outs : List FipsDatagramRef} {output : List UInt8}

/-! ## Polls -/

/-- Nothing is polled while the executor is down. -/
theorem pollSidecarFrame_of_down (hdown : executor.up = false) (nowMs : TimestampMs)
    (output : List UInt8) : pollSidecarFrame nowMs (executor, output) =
      .error (.error (.driver executor.linkId .linkDown)) (executor, output) := by
  rw [pollSidecarFrame, run_get_bind]
  exact Outcome.run_lift_bind_fail (rejectIf_eq_fail hdown) _ _

/-- An executor that is up passes. -/
theorem rejectIf_up (hup : executor.up = true) : rejectIf (executor.up = false)
    (GatewayError.driver executor.linkId .linkDown) = .ok () :=
  rejectIf_eq_ok (by simp [hup])

/-- Nothing is polled from an empty queue. -/
theorem pollSidecarFrame_of_nil (hup : executor.up = true) (h : executor.sidecar.Holds [] outs)
    (nowMs : TimestampMs) (output : List UInt8) :
    pollSidecarFrame nowMs (executor, output) = .ok none (executor, output) := by
  have hpoll : pollInbound (executor, output) = .ok none (executor, output) := by
    rw [pollInbound, h.pollInbound_of_nil]
  rw [pollSidecarFrame, run_get_bind]
  simp only [Outcome.lift_bind (rejectIf_up hup)]
  rw [run_bind_of_ok hpoll]
  rfl

/-- A buffer that is too short leaves the datagram. -/
theorem pollSidecarFrame_of_short (hup : executor.up = true)
    (h : executor.sidecar.Holds (datagram :: ins) outs) (nowMs : TimestampMs)
    (hshort : output.length < datagram.bytes.length) :
    pollSidecarFrame nowMs (executor, output) =
      .error (.error (.driver executor.linkId .outputTooSmall)) (executor, output) := by
  have hpoll : pollInbound (executor, output) =
      .error (.error (.driver executor.linkId .outputTooSmall)) (executor, output) := by
    rw [pollInbound, h.pollInbound_of_short hshort]
    rfl
  rw [pollSidecarFrame, run_get_bind]
  simp only [Outcome.lift_bind (rejectIf_up hup)]
  exact run_bind_of_error hpoll _

/-- A slice with room takes the first datagram from the sidecar. -/
theorem pollInbound_of_room (h : executor.sidecar.Holds (datagram :: ins) outs)
    (hroom : datagram.bytes.length ≤ output.length) :
    ∃ queue : FipsQueue queueMax frameMax,
      FakeFipsSidecar.Holds { executor.sidecar with inbound := queue } ins outs ∧
      pollInbound (executor, output) = .ok (some datagram)
        ({ executor with sidecar := { executor.sidecar with inbound := queue } },
          datagram.bytes ++ output.drop datagram.bytes.length) := by
  obtain ⟨queue, hpoll, hholds⟩ := h.pollInbound_of_room hroom
  refine ⟨queue, hholds, ?_⟩
  rw [pollInbound, hpoll]

/-- A datagram that the remote endpoint sent is handed on. -/
theorem pollSidecarFrame_of_remote (hup : executor.up = true)
    (h : executor.sidecar.Holds (datagram :: ins) outs)
    (hlocal : executor.sidecar.localEndpoint = executor.localEndpoint)
    (hsource : datagram.source = executor.remoteEndpoint) (nowMs : TimestampMs)
    (hroom : datagram.bytes.length ≤ output.length) :
    ∃ queue : FipsQueue queueMax frameMax,
      FakeFipsSidecar.Holds { executor.sidecar with inbound := queue } ins outs ∧
      pollSidecarFrame nowMs (executor, output) =
        .ok (some ⟨executor.linkId, nowMs, datagram.bytes⟩)
          ({ executor with sidecar := { executor.sidecar with inbound := queue } },
            datagram.bytes ++ output.drop datagram.bytes.length) := by
  obtain ⟨queue, hholds, hpoll⟩ := pollInbound_of_room h hroom
  have haccept : ¬(datagram.source ≠ executor.remoteEndpoint ∨
      datagram.destination ≠ executor.localEndpoint) := by
    rw [not_or, not_not, not_not]
    exact ⟨hsource, (h.destination datagram List.mem_cons_self).trans hlocal⟩
  refine ⟨queue, hholds, ?_⟩
  rw [pollSidecarFrame, run_get_bind]
  simp only [Outcome.lift_bind (rejectIf_up hup)]
  rw [run_bind_of_ok hpoll]
  simp only [Outcome.lift_bind (rejectIf_eq_ok haccept)]
  rfl

/-- A datagram of another peer is taken all the same, and refused. -/
theorem pollSidecarFrame_of_foreign (hup : executor.up = true)
    (h : executor.sidecar.Holds (datagram :: ins) outs)
    (hsource : datagram.source ≠ executor.remoteEndpoint) (nowMs : TimestampMs)
    (hroom : datagram.bytes.length ≤ output.length) :
    ∃ queue : FipsQueue queueMax frameMax,
      FakeFipsSidecar.Holds { executor.sidecar with inbound := queue } ins outs ∧
      pollSidecarFrame nowMs (executor, output) =
        .error (.error (.driver executor.linkId .protocol))
          ({ executor with sidecar := { executor.sidecar with inbound := queue } },
            datagram.bytes ++ output.drop datagram.bytes.length) := by
  obtain ⟨queue, hholds, hpoll⟩ := pollInbound_of_room h hroom
  refine ⟨queue, hholds, ?_⟩
  rw [pollSidecarFrame, run_get_bind]
  simp only [Outcome.lift_bind (rejectIf_up hup)]
  rw [run_bind_of_ok hpoll]
  exact Outcome.run_lift_bind_fail (rejectIf_eq_fail (Or.inl hsource)) _ _

/-! ## Sends -/

/-- A send of the executor is a send of its sidecar to the remote endpoint, or nothing. -/
theorem sendLinkBytes_cases (executor : FipsGatewayExecutor peerMax queueMax frameMax)
    (sha256 : List UInt8 → ByteArrayN 32) (linkId : LinkId) (bytes : List UInt8) :
    (∃ error, sendLinkBytes sha256 linkId bytes executor = .error error executor) ∨
      sendLinkBytes sha256 linkId bytes executor =
        sendTo sha256 executor.remoteEndpoint bytes executor := by
  rw [sendLinkBytes, run_get_bind]
  by_cases hlink : linkId ≠ executor.linkId
  · exact .inl ⟨_, Outcome.run_lift_bind_fail (rejectIf_eq_fail hlink) _ _⟩
  rw [Outcome.lift_bind (rejectIf_eq_ok hlink)]
  by_cases hdown : executor.up = false
  · exact .inl ⟨_, Outcome.run_lift_bind_fail (rejectIf_eq_fail hdown) _ _⟩
  rw [Outcome.lift_bind (rejectIf_eq_ok hdown)]
  by_cases hlong : bytes.length > executor.mtu
  · exact .inl ⟨_, Outcome.run_lift_bind_fail (rejectIf_eq_fail hlong) _ _⟩
  · rw [Outcome.lift_bind (rejectIf_eq_ok hlong)]
    exact .inr rfl

end FipsGatewayExecutor

/-! ## Runs of the executor -/

/-- The event of a poll of the executor, from its result. -/
def frameEvents {ε σ : Type} : EStateM.Result ε σ (Option LinkFrameRef) → List FipsEvent
  | .ok (some frame) _ => [.frame frame]
  | _ => []

/-- Without a frame there is no event. -/
theorem frameEvents_none {ε σ : Type} (state : σ) :
    frameEvents (.ok none state : EStateM.Result ε σ (Option LinkFrameRef)) = [] := rfl

/-- An error is no event. -/
theorem frameEvents_error {ε σ : Type} (error : ε) (state : σ) :
    frameEvents (.error error state : EStateM.Result ε σ (Option LinkFrameRef)) = [] := rfl

/-- One call on the executor, or on its sidecar through `sidecar_mut`. -/
inductive ExecutorStep (sha256 : List UInt8 → ByteArrayN 32) :
    FipsGatewayExecutor peerMax queueMax frameMax → List FipsEvent →
      FipsGatewayExecutor peerMax queueMax frameMax → Prop
  | sidecarMut (executor : FipsGatewayExecutor peerMax queueMax frameMax) {events : List FipsEvent}
      {sidecar : FakeFipsSidecar peerMax queueMax frameMax}
      (step : SidecarStep sha256 executor.sidecar events sidecar) :
      ExecutorStep sha256 executor events { executor with sidecar }
  | setUp (executor : FipsGatewayExecutor peerMax queueMax frameMax) (up : Bool) :
      ExecutorStep sha256 executor [] (FipsGatewayExecutor.setUp up executor).state
  | pollSidecarFrame (executor : FipsGatewayExecutor peerMax queueMax frameMax) (nowMs : TimestampMs)
      (output : List UInt8) : ExecutorStep sha256 executor
        (frameEvents (FipsGatewayExecutor.pollSidecarFrame nowMs (executor, output)))
        (FipsGatewayExecutor.pollSidecarFrame nowMs (executor, output)).state.1
  | sendLinkBytes (executor : FipsGatewayExecutor peerMax queueMax frameMax) (linkId : LinkId)
      (bytes : List UInt8) : ExecutorStep sha256 executor
        (doneEvents (.datagram .sent ⟨executor.localEndpoint, executor.remoteEndpoint, bytes⟩)
          (FipsGatewayExecutor.sendLinkBytes sha256 linkId bytes executor))
        (FipsGatewayExecutor.sendLinkBytes sha256 linkId bytes executor).state

/-- The bytes of the datagrams that an endpoint sent. -/
def bytesFrom (source : FipsEndpoint) (datagrams : List FipsDatagramRef) : List (List UInt8) :=
  (datagrams.filter fun datagram => datagram.source = source).map FipsDatagramRef.bytes

/-- The bytes of one peer in two lists. -/
theorem bytesFrom_append (source : FipsEndpoint) (datagrams others : List FipsDatagramRef) :
    bytesFrom source (datagrams ++ others) = bytesFrom source datagrams ++ bytesFrom source others := by
  rw [bytesFrom, List.filter_append, List.map_append]
  rfl

/-- Of the injected datagrams, those in `taken` are gone, and the frames are among them. -/
structure Serves (linkId : LinkId) (localEndpoint remoteEndpoint : FipsEndpoint) (log : List FipsEvent)
    (executor : FipsGatewayExecutor peerMax queueMax frameMax) : Prop where
  linkId_eq : executor.linkId = linkId
  local_eq : executor.localEndpoint = localEndpoint
  remote_eq : executor.remoteEndpoint = remoteEndpoint
  sidecar_local : executor.sidecar.localEndpoint = localEndpoint
  held : ∃ taken ins outs, executor.sidecar.Holds ins outs ∧
    datagramsOf .injected log = taken ++ ins ∧
    datagramsOf .sent log = datagramsOf .polledOutbound log ++ outs ∧
    List.Sublist ((framesOf log).map LinkFrameRef.bytes) (bytesFrom remoteEndpoint taken)

namespace Serves

variable {executor executor' : FipsGatewayExecutor peerMax queueMax frameMax} {linkId : LinkId}
  {localEndpoint remoteEndpoint : FipsEndpoint} {log events : List FipsEvent}

/-- What moves the sidecar alone takes datagrams out, but hands on no frame. -/
theorem sidecarMut (h : Serves linkId localEndpoint remoteEndpoint log executor)
    {sidecar : FakeFipsSidecar peerMax queueMax frameMax}
    (hmoves : ∀ ins outs, executor.sidecar.Holds ins outs →
      FakeFipsSidecar.MovesTo ins outs events executor.sidecar sidecar) :
    Serves linkId localEndpoint remoteEndpoint (log ++ events) { executor with sidecar } := by
  obtain ⟨taken, ins, outs, hholds, hinjected, hsent, hframes⟩ := h.held
  obtain ⟨ins', outs', hmoved, hholds', hsame⟩ := hmoves ins outs hholds
  refine ⟨h.linkId_eq, h.local_eq, h.remote_eq, hsame.1.trans h.sidecar_local,
    taken ++ datagramsOf .polledInbound events, ins', outs', hholds', ?_, ?_, ?_⟩
  · rw [datagramsOf_append, hinjected, List.append_assoc, hmoved.inbound, List.append_assoc]
  · rw [datagramsOf_append, datagramsOf_append, hsent, List.append_assoc, hmoved.outbound,
      List.append_assoc]
  · rw [framesOf_append, hmoved.frames, List.append_nil, bytesFrom_append]
    exact hframes.trans (List.sublist_append_left _ _)

/-- A send keeps the accounts. -/
theorem sendLinkBytes (h : Serves linkId localEndpoint remoteEndpoint log executor) (target : LinkId)
    (bytes : List UInt8) :
    Serves linkId localEndpoint remoteEndpoint
      (log ++ doneEvents (.datagram .sent ⟨executor.localEndpoint, executor.remoteEndpoint, bytes⟩)
        (FipsGatewayExecutor.sendLinkBytes sha256 target bytes executor))
      (FipsGatewayExecutor.sendLinkBytes sha256 target bytes executor).state := by
  obtain ⟨error, hrun⟩ | hrun := executor.sendLinkBytes_cases sha256 target bytes
  · rw [hrun, doneEvents, List.append_nil]
    exact h
  · have hmoved := h.sidecarMut fun ins outs hholds =>
      hholds.movesTo_sendTo sha256 executor.remoteEndpoint bytes
    rw [h.sidecar_local.trans h.local_eq.symm] at hmoved
    rw [hrun, FipsGatewayExecutor.sendTo]
    cases hsend : FakeFipsSidecar.sendTo sha256 executor.remoteEndpoint bytes executor.sidecar with
    | ok _ sidecar =>
      rw [hsend] at hmoved
      exact hmoved
    | error fault sidecar =>
      rw [hsend] at hmoved
      exact hmoved

/-- A poll takes at most the first datagram, and hands it on if the remote endpoint sent it. -/
theorem pollSidecarFrame (h : Serves linkId localEndpoint remoteEndpoint log executor)
    (nowMs : TimestampMs) (output : List UInt8) :
    Serves linkId localEndpoint remoteEndpoint
      (log ++ frameEvents (FipsGatewayExecutor.pollSidecarFrame nowMs (executor, output)))
      (FipsGatewayExecutor.pollSidecarFrame nowMs (executor, output)).state.1 := by
  by_cases hup : executor.up = true
  swap
  · rw [FipsGatewayExecutor.pollSidecarFrame_of_down (Bool.eq_false_of_not_eq_true hup), frameEvents_error,
      List.append_nil]
    exact h
  obtain ⟨taken, ins, outs, hholds, hinjected, hsent, hframes⟩ := h.held
  cases ins with
  | nil =>
    rw [FipsGatewayExecutor.pollSidecarFrame_of_nil hup hholds, frameEvents_none, List.append_nil]
    exact h
  | cons datagram rest =>
    by_cases hroom : datagram.bytes.length ≤ output.length
    · have hinjected' : datagramsOf .injected log = (taken ++ [datagram]) ++ rest := by
        rw [hinjected, List.append_assoc, List.singleton_append]
      by_cases hsource : datagram.source = executor.remoteEndpoint
      · obtain ⟨queue, hholds', hpoll⟩ := FipsGatewayExecutor.pollSidecarFrame_of_remote hup hholds
          (h.sidecar_local.trans h.local_eq.symm) hsource nowMs hroom
        have hbytes : bytesFrom remoteEndpoint [datagram] = [datagram.bytes] := by
          rw [bytesFrom, List.filter_singleton, ← h.remote_eq, decide_eq_true hsource]
          rfl
        rw [hpoll]
        refine ⟨h.linkId_eq, h.local_eq, h.remote_eq, h.sidecar_local, taken ++ [datagram], rest, outs,
          hholds', ?_, ?_, ?_⟩
        · rw [datagramsOf_append, frameEvents, datagramsOf_frame, List.append_nil, hinjected']
        · rw [datagramsOf_append, datagramsOf_append, frameEvents, datagramsOf_frame, datagramsOf_frame,
            List.append_nil, List.append_nil, hsent]
        · rw [framesOf_append, frameEvents, framesOf_frame, List.map_append, bytesFrom_append, hbytes]
          exact hframes.append (List.Sublist.refl _)
      · obtain ⟨queue, hholds', hpoll⟩ := FipsGatewayExecutor.pollSidecarFrame_of_foreign hup hholds
          hsource nowMs hroom
        rw [hpoll]
        rw [frameEvents_error, List.append_nil]
        refine ⟨h.linkId_eq, h.local_eq, h.remote_eq, h.sidecar_local, taken ++ [datagram], rest, outs,
          hholds', hinjected', hsent, ?_⟩
        rw [bytesFrom_append]
        exact hframes.trans (List.sublist_append_left _ _)
    · rw [FipsGatewayExecutor.pollSidecarFrame_of_short hup hholds nowMs (not_le.mp hroom),
        frameEvents_error, List.append_nil]
      exact h

/-- Whatever the executor is asked for keeps the accounts. -/
theorem step (h : Serves linkId localEndpoint remoteEndpoint log executor)
    (hstep : ExecutorStep sha256 executor events executor') :
    Serves linkId localEndpoint remoteEndpoint (log ++ events) executor' := by
  cases hstep with
  | sidecarMut step => exact h.sidecarMut fun _ _ hholds => hholds.step step
  | setUp up =>
    rw [List.append_nil]
    obtain ⟨taken, ins, outs, hholds, hrest⟩ := h.held
    exact ⟨h.linkId_eq, h.local_eq, h.remote_eq, h.sidecar_local, taken, ins, outs, hholds.setUp up, hrest⟩
  | pollSidecarFrame nowMs output => exact h.pollSidecarFrame nowMs output
  | sendLinkBytes target bytes => exact h.sendLinkBytes target bytes

end Serves

/-! ## What a run guarantees -/

/-- The frames that were handed on are injected datagrams of the remote endpoint, in order and each at most
once. A poll while the executor is up hands on the first datagram if the remote endpoint sent it and refuses
it otherwise, and either way takes it, unless the slice is too short for it. -/
structure ExecutorAccount (sha256 : List UInt8 → ByteArrayN 32) (linkId : LinkId)
    (remoteEndpoint : FipsEndpoint) (log : List FipsEvent)
    (executor : FipsGatewayExecutor peerMax queueMax frameMax) : Prop where
  frames : List.Sublist ((framesOf log).map LinkFrameRef.bytes)
    (bytesFrom remoteEndpoint (datagramsOf .injected log))
  outbound : QueueAccount executor.sidecar.outbound (datagramsOf .sent log)
    (datagramsOf .polledOutbound log)
  inbound : ∃ taken, QueueAccount executor.sidecar.inbound (datagramsOf .injected log) taken ∧
    List.Sublist ((framesOf log).map LinkFrameRef.bytes) (bytesFrom remoteEndpoint taken)
  safe : SidecarSafe sha256 executor.sidecar
  down : executor.up = false → ∀ nowMs output,
    FipsGatewayExecutor.pollSidecarFrame nowMs (executor, output) =
      .error (.error (.driver linkId .linkDown)) (executor, output)
  empty : executor.up = true → executor.sidecar.inbound.queued = [] → ∀ nowMs output,
    FipsGatewayExecutor.pollSidecarFrame nowMs (executor, output) = .ok none (executor, output)
  short : ∀ datagram rest, executor.up = true → executor.sidecar.inbound.queued = datagram :: rest →
    ∀ nowMs (output : List UInt8), output.length < datagram.bytes.length →
      FipsGatewayExecutor.pollSidecarFrame nowMs (executor, output) =
        .error (.error (.driver linkId .outputTooSmall)) (executor, output)
  handed : ∀ datagram rest, executor.up = true → executor.sidecar.inbound.queued = datagram :: rest →
    datagram.source = remoteEndpoint → ∀ nowMs (output : List UInt8),
      datagram.bytes.length ≤ output.length →
      ∃ queue : FipsQueue queueMax frameMax, queue.queued = rest ∧
        FipsGatewayExecutor.pollSidecarFrame nowMs (executor, output) =
          .ok (some ⟨linkId, nowMs, datagram.bytes⟩)
            ({ executor with sidecar := { executor.sidecar with inbound := queue } },
              datagram.bytes ++ output.drop datagram.bytes.length)
  refused : ∀ datagram rest, executor.up = true → executor.sidecar.inbound.queued = datagram :: rest →
    datagram.source ≠ remoteEndpoint → ∀ nowMs (output : List UInt8),
      datagram.bytes.length ≤ output.length →
      ∃ queue : FipsQueue queueMax frameMax, queue.queued = rest ∧
        FipsGatewayExecutor.pollSidecarFrame nowMs (executor, output) =
          .error (.error (.driver linkId .protocol))
            ({ executor with sidecar := { executor.sidecar with inbound := queue } },
              datagram.bytes ++ output.drop datagram.bytes.length)

/-- The accounts say what was sent and received. -/
theorem Serves.account {executor : FipsGatewayExecutor peerMax queueMax frameMax} {linkId : LinkId}
    {localEndpoint remoteEndpoint : FipsEndpoint} {log : List FipsEvent}
    (h : Serves linkId localEndpoint remoteEndpoint log executor) :
    ExecutorAccount sha256 linkId remoteEndpoint log executor := by
  obtain rfl := h.linkId_eq
  obtain ⟨taken, ins, outs, hholds, hinjected, hsent, hframes⟩ := h.held
  have hqueued := hholds.inbound.queued_eq
  refine ⟨?_, hholds.outbound.account hsent, ⟨taken, hholds.inbound.account hinjected, hframes⟩,
    hholds.safe, ?_, ?_, ?_, ?_, ?_⟩
  · rw [hinjected, bytesFrom_append]
    exact hframes.trans (List.sublist_append_left _ _)
  · intro hdown nowMs output
    exact FipsGatewayExecutor.pollSidecarFrame_of_down hdown nowMs output
  · intro hup hnil nowMs output
    obtain rfl : ins = [] := hqueued.symm.trans hnil
    exact FipsGatewayExecutor.pollSidecarFrame_of_nil hup hholds nowMs output
  · intro datagram rest hup hcons nowMs output hshort
    obtain rfl : ins = datagram :: rest := hqueued.symm.trans hcons
    exact FipsGatewayExecutor.pollSidecarFrame_of_short hup hholds nowMs hshort
  · intro datagram rest hup hcons hsource nowMs output hroom
    obtain rfl : ins = datagram :: rest := hqueued.symm.trans hcons
    obtain ⟨queue, hrest, hpoll⟩ := FipsGatewayExecutor.pollSidecarFrame_of_remote hup hholds
      (h.sidecar_local.trans h.local_eq.symm) (hsource.trans h.remote_eq.symm) nowMs hroom
    exact ⟨queue, hrest.inbound.queued_eq, hpoll⟩
  · intro datagram rest hup hcons hsource nowMs output hroom
    obtain rfl : ins = datagram :: rest := hqueued.symm.trans hcons
    rw [← h.remote_eq] at hsource
    obtain ⟨queue, hrest, hpoll⟩ :=
      FipsGatewayExecutor.pollSidecarFrame_of_foreign hup hholds hsource nowMs hroom
    exact ⟨queue, hrest.inbound.queued_eq, hpoll⟩

namespace FipsGatewayExecutor

/-- An executor that passes has the endpoint of its sidecar. -/
theorem ends_validate (executor : FipsGatewayExecutor peerMax queueMax frameMax) :
    Ends (executor.validate sha256) fun _ =>
      executor.sidecar.localEndpoint = executor.localEndpoint := by
  apply ((Hyf.Fips.ends_validate executor.localEndpoint).convert _).bind
  intro _ _
  apply ((Hyf.Fips.ends_validate executor.remoteEndpoint).convert _).bind
  intro _ _
  apply (ends_rejectIf _ _).mono
  intro _ haccepted
  rw [not_or, not_or] at haccepted
  exact not_not.mp haccepted.2.1

/-- An executor is over the sidecar that it was built with. -/
theorem ends_new (linkId : LinkId) (localEndpoint remoteEndpoint : FipsEndpoint)
    (sidecar : FakeFipsSidecar peerMax queueMax frameMax) (mtu : ℕ) :
    Ends (new sha256 linkId localEndpoint remoteEndpoint sidecar mtu) fun executor =>
      executor = ⟨linkId, localEndpoint, remoteEndpoint, sidecar, mtu, false⟩ ∧
        sidecar.localEndpoint = localEndpoint := by
  apply (ends_validate _).bind
  intro _ hlocal
  exact ⟨rfl, hlocal⟩

end FipsGatewayExecutor

/-- **The queues of a sidecar are first in, first out, its peers are apart, and an executor hands on what
its remote endpoint sent and nothing else**, in every run of the sidecar and of an executor over it. -/
theorem fips_isolation {localEndpoint : FipsEndpoint} {mtu : ℕ} {log : List FipsEvent}
    {first sidecar : FakeFipsSidecar peerMax queueMax frameMax}
    (hnew : FakeFipsSidecar.new sha256 localEndpoint mtu = .ok first)
    (hsteps : Steps (SidecarStep sha256) first log sidecar) :
    (QueueAccount sidecar.inbound (datagramsOf .injected log) (datagramsOf .polledInbound log) ∧
      QueueAccount sidecar.outbound (datagramsOf .sent log) (datagramsOf .polledOutbound log) ∧
      SidecarSafe sha256 sidecar ∧ sidecar.localEndpoint = localEndpoint) ∧
    ∀ linkId executorLocal remoteEndpoint executorMtu
      (executor executor' : FipsGatewayExecutor peerMax queueMax frameMax) log',
      FipsGatewayExecutor.new sha256 linkId executorLocal remoteEndpoint sidecar executorMtu =
        .ok executor →
      Steps (ExecutorStep sha256) executor log' executor' →
      ExecutorAccount sha256 linkId remoteEndpoint (log ++ log') executor' := by
  obtain ⟨ins, outs, hmoved, hholds, hlocal⟩ := FakeFipsSidecar.ran_of_steps hnew hsteps
  have hinbound : datagramsOf .injected log = datagramsOf .polledInbound log ++ ins := hmoved.inbound
  have houtbound : datagramsOf .sent log = datagramsOf .polledOutbound log ++ outs := hmoved.outbound
  refine ⟨⟨hholds.inbound.account hinbound, hholds.outbound.account houtbound, hholds.safe, hlocal⟩, ?_⟩
  intro linkId executorLocal remoteEndpoint executorMtu executor executor' log' hexecutor hrun
  obtain ⟨rfl, hsame⟩ := (FipsGatewayExecutor.ends_new _ _ _ _ _).of_ok hexecutor
  have hstart : Serves linkId executorLocal remoteEndpoint log
      (⟨linkId, executorLocal, remoteEndpoint, sidecar, executorMtu, false⟩ :
        FipsGatewayExecutor peerMax queueMax frameMax) := by
    refine ⟨rfl, rfl, rfl, hsame, _, ins, outs, hholds, hinbound, houtbound, ?_⟩
    rw [hmoved.frames]
    exact List.nil_sublist _
  have hserves := @Steps.invariant _ _ _ (Serves linkId executorLocal remoteEndpoint)
    (fun _ _ _ _ hserves hstep => hserves.step hstep) _ _ _ _ hrun hstart
  exact hserves.account

/-! ### A run with two peers -/

/-- The digests of the three keys of the run. -/
def fipsDigest (bytes : List UInt8) : ByteArrayN 32 :=
  if bytes = List.replicate 32 1 then
    ⟨[
      114, 205, 110, 132, 34, 196, 7, 251, 109, 9, 134, 144, 241, 19, 11, 125, 237, 126, 194,
      247, 245, 225, 211, 11, 217, 213, 33, 240, 21, 54, 55, 147], rfl⟩
  else if bytes = List.replicate 32 2 then
    ⟨[
      117, 135, 123, 180, 29, 57, 59, 95, 184, 69, 92, 230, 14, 205, 141, 218, 0, 29, 6, 49,
      100, 150, 177, 77, 250, 127, 137, 86, 86, 238, 202, 74], rfl⟩
  else
    ⟨[
      100, 138, 165, 197, 121, 251, 48, 243, 138, 247, 68, 217, 125, 110, 200, 64, 199, 169, 18,
      119, 164, 153, 160, 215, 128, 243, 231, 49, 78, 202, 9, 11], rfl⟩

def fipsEndpoint (seed : UInt8) : FipsEndpoint :=
  deriveFipsEndpoint fipsDigest ⟨List.Vector.replicate 32 seed⟩

/-- A sidecar that knows two peers, and a datagram of either. -/
def fipsSidecar : FakeFipsSidecar 2 2 2 :=
  let started : FakeFipsSidecar 2 2 2 :=
    ⟨fipsEndpoint 1, .empty _ 2, .empty, .empty, true, 2⟩
  let first := (FakeFipsSidecar.registerPeer fipsDigest (fipsEndpoint 2) started).state
  let second := (FakeFipsSidecar.registerPeer fipsDigest (fipsEndpoint 3) first).state
  let third := (FakeFipsSidecar.injectFrom fipsDigest (fipsEndpoint 3) [7] second).state
  (FakeFipsSidecar.injectFrom fipsDigest (fipsEndpoint 2) [8, 9] third).state

/-- The datagram of the other peer is refused, the one of the remote endpoint is handed on. -/
theorem fips_isolation_sample :
    QueueAccount fipsSidecar.inbound
      [⟨fipsEndpoint 3, fipsEndpoint 1, [7]⟩, ⟨fipsEndpoint 2, fipsEndpoint 1, [8, 9]⟩] [] ∧
    ∃ executor : FipsGatewayExecutor 2 2 2,
      ExecutorAccount fipsDigest ⟨List.Vector.replicate 16 5⟩ (fipsEndpoint 2)
        [.datagram .injected ⟨fipsEndpoint 3, fipsEndpoint 1, [7]⟩,
          .datagram .injected ⟨fipsEndpoint 2, fipsEndpoint 1, [8, 9]⟩,
          .frame ⟨⟨List.Vector.replicate 16 5⟩, 60, [8, 9]⟩] executor := by
  have hnew : FakeFipsSidecar.new fipsDigest (fipsEndpoint 1) 2 =
      .ok (⟨fipsEndpoint 1, .empty _ 2, .empty, .empty, true, 2⟩ : FakeFipsSidecar 2 2 2) := rfl
  have hsteps := ((((@Steps.refl _ _ (SidecarStep fipsDigest)
    (⟨fipsEndpoint 1, .empty _ 2, .empty, .empty, true, 2⟩ : FakeFipsSidecar 2 2 2)).tail
      (.registerPeer _ (fipsEndpoint 2))).tail (.registerPeer _ (fipsEndpoint 3))).tail
      (.injectFrom _ (fipsEndpoint 3) [7])).tail (.injectFrom _ (fipsEndpoint 2) [8, 9])
  have hexecutor : FipsGatewayExecutor.new fipsDigest ⟨List.Vector.replicate 16 5⟩ (fipsEndpoint 1)
      (fipsEndpoint 2) fipsSidecar 2 = .ok ⟨⟨List.Vector.replicate 16 5⟩, fipsEndpoint 1,
        fipsEndpoint 2, fipsSidecar, 2, false⟩ := rfl
  have hrun := (((@Steps.refl _ _ (ExecutorStep fipsDigest) (⟨⟨List.Vector.replicate 16 5⟩,
    fipsEndpoint 1, fipsEndpoint 2, fipsSidecar, 2, false⟩ : FipsGatewayExecutor 2 2 2)).tail
      (.setUp _ true)).tail (.pollSidecarFrame _ 50 [0, 0])).tail (.pollSidecarFrame _ 60 [0, 0])
  exact ⟨(fips_isolation hnew hsteps).1.1, _,
    (fips_isolation hnew hsteps).2 _ _ _ _ _ _ _ hexecutor hrun⟩

end Hyf.Fips
