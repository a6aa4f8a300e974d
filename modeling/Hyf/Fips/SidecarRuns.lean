import Hyf.Common.LoggedSteps
import Hyf.Fips.Queues
import Hyf.Link.Frame

/-!
# Runs of the sidecar

A log records which datagrams were sent, injected and polled, and which frames the gateway got. In every
run of the sidecar both queues are first in, first out: what went into a queue is what was polled from it
and then what is in its slots.
-/

namespace Hyf.Fips

open ByteCodec LoggedSteps

variable {sha256 : List UInt8 → ByteArrayN 32} {peerMax queueMax frameMax : ℕ}

/-! ## Events -/

inductive QueueCall where
  | sent
  | injected
  | polledOutbound
  | polledInbound
  deriving DecidableEq

/-- What is observed of a call that succeeds. -/
inductive FipsEvent where
  | datagram (call : QueueCall) (datagram : FipsDatagramRef)
  | frame (frame : LinkFrameRef)

/-- The datagrams of one kind of call, in order. -/
def datagramsOf (call : QueueCall) (log : List FipsEvent) : List FipsDatagramRef :=
  log.filterMap fun
    | .datagram other datagram => if other = call then some datagram else none
    | .frame _ => none

/-- The frames that the gateway got, in order. -/
def framesOf (log : List FipsEvent) : List LinkFrameRef :=
  log.filterMap fun
    | .datagram _ _ => none
    | .frame frame => some frame

@[simp] theorem datagramsOf_append (call : QueueCall) (log events : List FipsEvent) :
    datagramsOf call (log ++ events) = datagramsOf call log ++ datagramsOf call events :=
  List.filterMap_append

@[simp] theorem framesOf_append (log events : List FipsEvent) :
    framesOf (log ++ events) = framesOf log ++ framesOf events := List.filterMap_append

@[simp] theorem datagramsOf_datagram (call other : QueueCall) (datagram : FipsDatagramRef) :
    datagramsOf call [.datagram other datagram] = if other = call then [datagram] else [] := by
  by_cases hsame : other = call
  · simp [datagramsOf, hsame]
  · simp [datagramsOf, hsame]

@[simp] theorem datagramsOf_frame (call : QueueCall) (frame : LinkFrameRef) :
    datagramsOf call [.frame frame] = [] := rfl

@[simp] theorem framesOf_frame (frame : LinkFrameRef) : framesOf [.frame frame] = [frame] := rfl

section

variable {ε σ : Type}

/-- The event of a call that puts a datagram into a queue, from its result. -/
def doneEvents (event : FipsEvent) : EStateM.Result ε σ Unit → List FipsEvent
  | .ok _ _ => [event]
  | .error _ _ => []

/-- The event of a poll, from its result. -/
def polledEvents (call : QueueCall) : EStateM.Result ε σ (Option FipsDatagramRef) → List FipsEvent
  | .ok (some datagram) _ => [.datagram call datagram]
  | _ => []

end

/-! ## Steps -/

/-- One call on the sidecar. -/
inductive SidecarStep (sha256 : List UInt8 → ByteArrayN 32) :
    FakeFipsSidecar peerMax queueMax frameMax → List FipsEvent →
      FakeFipsSidecar peerMax queueMax frameMax → Prop
  | registerPeer (sidecar : FakeFipsSidecar peerMax queueMax frameMax) (endpoint : FipsEndpoint) :
      SidecarStep sha256 sidecar [] (FakeFipsSidecar.registerPeer sha256 endpoint sidecar).state
  | sendTo (sidecar : FakeFipsSidecar peerMax queueMax frameMax) (destination : FipsEndpoint)
      (bytes : List UInt8) : SidecarStep sha256 sidecar
        (doneEvents (.datagram .sent ⟨sidecar.localEndpoint, destination, bytes⟩)
          (FakeFipsSidecar.sendTo sha256 destination bytes sidecar))
        (FakeFipsSidecar.sendTo sha256 destination bytes sidecar).state
  | injectFrom (sidecar : FakeFipsSidecar peerMax queueMax frameMax) (source : FipsEndpoint)
      (bytes : List UInt8) : SidecarStep sha256 sidecar
        (doneEvents (.datagram .injected ⟨source, sidecar.localEndpoint, bytes⟩)
          (FakeFipsSidecar.injectFrom sha256 source bytes sidecar))
        (FakeFipsSidecar.injectFrom sha256 source bytes sidecar).state
  | pollInbound (sidecar : FakeFipsSidecar peerMax queueMax frameMax) (output : List UInt8) :
      SidecarStep sha256 sidecar
        (polledEvents .polledInbound (FakeFipsSidecar.pollInbound (sidecar, output)))
        (FakeFipsSidecar.pollInbound (sidecar, output)).state.1
  | pollOutbound (sidecar : FakeFipsSidecar peerMax queueMax frameMax) (output : List UInt8) :
      SidecarStep sha256 sidecar
        (polledEvents .polledOutbound (FakeFipsSidecar.pollOutbound (sidecar, output)))
        (FakeFipsSidecar.pollOutbound (sidecar, output)).state.1
  | setUp (sidecar : FakeFipsSidecar peerMax queueMax frameMax) (up : Bool) :
      SidecarStep sha256 sidecar [] (FakeFipsSidecar.setUp up sidecar).state

/-- What went into both queues is what was polled and then what is there. -/
structure Moved (ins outs : List FipsDatagramRef) (events : List FipsEvent)
    (ins' outs' : List FipsDatagramRef) : Prop where
  inbound : ins ++ datagramsOf .injected events = datagramsOf .polledInbound events ++ ins'
  outbound : outs ++ datagramsOf .sent events = datagramsOf .polledOutbound events ++ outs'
  frames : framesOf events = []

namespace FakeFipsSidecar

variable {sidecar sidecar' : FakeFipsSidecar peerMax queueMax frameMax}
  {ins outs : List FipsDatagramRef} {events log : List FipsEvent}

/-- The sidecar holds what the events left. -/
def MovesTo (ins outs : List FipsDatagramRef) (events : List FipsEvent)
    (sidecar sidecar' : FakeFipsSidecar peerMax queueMax frameMax) : Prop :=
  ∃ ins' outs', Moved ins outs events ins' outs' ∧ sidecar'.Holds ins' outs' ∧
    SameEndpoint sidecar sidecar'

theorem Holds.movesTo_nil (h : sidecar'.Holds ins outs) (hsame : SameEndpoint sidecar sidecar') :
    MovesTo ins outs [] sidecar sidecar' :=
  ⟨ins, outs, ⟨List.append_nil _, List.append_nil _, rfl⟩, h, hsame⟩

theorem Holds.movesTo_sendTo (h : sidecar.Holds ins outs) (sha256 : List UInt8 → ByteArrayN 32)
    (destination : FipsEndpoint) (bytes : List UInt8) :
    MovesTo ins outs
      (doneEvents (.datagram .sent ⟨sidecar.localEndpoint, destination, bytes⟩)
        (FakeFipsSidecar.sendTo sha256 destination bytes sidecar))
      sidecar (FakeFipsSidecar.sendTo sha256 destination bytes sidecar).state := by
  obtain ⟨error, hrun⟩ | ⟨_, sidecar', hrun, hholds, hsame⟩ :=
    (h.sendTo sha256 destination bytes).cases
  · rw [hrun]
    exact h.movesTo_nil ⟨rfl, rfl⟩
  · rw [hrun]
    refine ⟨_, _, ⟨?_, ?_, rfl⟩, hholds, hsame⟩ <;> simp [doneEvents]

/-- What a step does to the queues. -/
theorem Holds.step (h : sidecar.Holds ins outs) (hstep : SidecarStep sha256 sidecar events sidecar') :
    MovesTo ins outs events sidecar sidecar' := by
  cases hstep with
  | registerPeer endpoint =>
    obtain ⟨error, hrun⟩ | ⟨_, sidecar', hrun, hholds, hsame⟩ :=
      (h.registerPeer sha256 endpoint).cases
    · rw [hrun]
      exact h.movesTo_nil ⟨rfl, rfl⟩
    · rw [hrun]
      exact hholds.movesTo_nil hsame
  | sendTo destination bytes => exact h.movesTo_sendTo sha256 destination bytes
  | injectFrom source bytes =>
    obtain ⟨error, hrun⟩ | ⟨_, sidecar', hrun, hholds, hsame⟩ :=
      (h.injectFrom sha256 source bytes).cases
    · rw [hrun]
      exact h.movesTo_nil ⟨rfl, rfl⟩
    · rw [hrun]
      refine ⟨_, _, ⟨?_, ?_, rfl⟩, hholds, hsame⟩ <;> simp [doneEvents]
  | pollInbound output =>
    obtain ⟨error, hrun⟩ | ⟨polled, after, hrun, rfl, hholds, hsame⟩ := (h.pollInbound output).cases
    · rw [hrun]
      exact h.movesTo_nil ⟨rfl, rfl⟩
    · rw [hrun]
      cases ins with
      | nil => exact hholds.movesTo_nil hsame
      | cons datagram rest =>
        refine ⟨_, _, ⟨?_, ?_, rfl⟩, hholds, hsame⟩ <;> simp [polledEvents]
  | pollOutbound output =>
    obtain ⟨error, hrun⟩ | ⟨polled, after, hrun, rfl, hholds, hsame⟩ := (h.pollOutbound output).cases
    · rw [hrun]
      exact h.movesTo_nil ⟨rfl, rfl⟩
    · rw [hrun]
      cases outs with
      | nil => exact hholds.movesTo_nil hsame
      | cons datagram rest =>
        refine ⟨_, _, ⟨?_, ?_, rfl⟩, hholds, hsame⟩ <;> simp [polledEvents]
  | setUp up => exact (h.setUp up).movesTo_nil ⟨rfl, rfl⟩

/-- A run from a new sidecar: what went in, in order, is what was polled and then what is there. -/
def Ran (localEndpoint : FipsEndpoint) (log : List FipsEvent)
    (sidecar : FakeFipsSidecar peerMax queueMax frameMax) : Prop :=
  ∃ ins outs, Moved [] [] log ins outs ∧ sidecar.Holds ins outs ∧
    sidecar.localEndpoint = localEndpoint

theorem Ran.step {localEndpoint : FipsEndpoint} (h : Ran localEndpoint log sidecar)
    (hstep : SidecarStep sha256 sidecar events sidecar') : Ran localEndpoint (log ++ events) sidecar' := by
  obtain ⟨ins, outs, hlog, hholds, hlocal⟩ := h
  obtain ⟨ins', outs', hevents, hholds', hsame⟩ := hholds.step hstep
  refine ⟨ins', outs', ⟨?_, ?_, ?_⟩, hholds', hsame.1.trans hlocal⟩
  · rw [datagramsOf_append, datagramsOf_append, ← List.append_assoc, hlog.inbound, List.append_assoc,
      hevents.inbound, List.append_assoc]
  · rw [datagramsOf_append, datagramsOf_append, ← List.append_assoc, hlog.outbound, List.append_assoc,
      hevents.outbound, List.append_assoc]
  · rw [framesOf_append, hlog.frames, hevents.frames, List.append_nil]

/-- Every run of a new sidecar. -/
theorem ran_of_steps {localEndpoint : FipsEndpoint} {mtu : ℕ}
    (hnew : new sha256 localEndpoint mtu = .ok sidecar)
    (hsteps : Steps (SidecarStep sha256) sidecar log sidecar') : Ran localEndpoint log sidecar' := by
  obtain ⟨hholds, hlocal⟩ := (ends_new localEndpoint mtu).of_ok hnew
  have hstart : Ran localEndpoint [] sidecar := ⟨[], [], ⟨rfl, rfl, rfl⟩, hholds, hlocal⟩
  have hrun := @Steps.invariant _ _ _ (Ran localEndpoint) (fun _ _ _ _ => Ran.step) _ _ _ _ hsteps hstart
  rwa [List.nil_append] at hrun

end FakeFipsSidecar

/-! ## What a run guarantees -/

/-- A queue that took in `accepted` and gave out `polled`: first in, first out, with a counter that is the
number of occupied slots, which come first. -/
structure QueueAccount (queue : FipsQueue queueMax frameMax) (accepted polled : List FipsDatagramRef) :
    Prop where
  fifo : accepted = polled ++ queue.queued
  len_eq : queue.len = queue.slots.live.length
  isSome_eq : queue.slots.toList.map Option.isSome =
    List.replicate queue.len true ++ List.replicate (queueMax - queue.len) false
  head : queue.len ≠ 0 →
    ∃ record, (queue.slots.readAt 0 : Outcome FipsError _) = .ok (some record)

theorem FipsQueue.Holds.account {queue : FipsQueue queueMax frameMax}
    {datagrams accepted polled : List FipsDatagramRef} (h : queue.Holds datagrams)
    (hfifo : accepted = polled ++ datagrams) : QueueAccount queue accepted polled where
  fifo := by rw [h.queued_eq, hfifo]
  len_eq := h.len_eq_live
  isSome_eq := h.isSome_eq
  head := h.readAt_zero

/-- The peers share nothing with each other or with the sidecar, and every call succeeds or changes
nothing; a poll returns the first datagram. -/
structure SidecarSafe (sha256 : List UInt8 → ByteArrayN 32)
    (sidecar : FakeFipsSidecar peerMax queueMax frameMax) : Prop where
  peers_apart : sidecar.peers.live.Pairwise Apart
  local_apart : ∀ peer ∈ sidecar.peers.live, Apart sidecar.localEndpoint peer
  registerPeer : ∀ endpoint, AllOrNothing (FakeFipsSidecar.registerPeer sha256 endpoint) sidecar
    fun _ _ => True
  sendTo : ∀ destination bytes, AllOrNothing (FakeFipsSidecar.sendTo sha256 destination bytes) sidecar
    fun _ _ => True
  injectFrom : ∀ source bytes, AllOrNothing (FakeFipsSidecar.injectFrom sha256 source bytes) sidecar
    fun _ _ => True
  pollInbound : ∀ output, AllOrNothing FakeFipsSidecar.pollInbound (sidecar, output)
    fun polled _ => polled = sidecar.inbound.queued.head?
  pollOutbound : ∀ output, AllOrNothing FakeFipsSidecar.pollOutbound (sidecar, output)
    fun polled _ => polled = sidecar.outbound.queued.head?
  inbound_served : ∀ output : List UInt8,
    (∀ datagram ∈ sidecar.inbound.queued.head?, datagram.bytes.length ≤ output.length) →
    ∃ after, FakeFipsSidecar.pollInbound (sidecar, output) = .ok sidecar.inbound.queued.head? after
  outbound_served : ∀ output : List UInt8,
    (∀ datagram ∈ sidecar.outbound.queued.head?, datagram.bytes.length ≤ output.length) →
    ∃ after, FakeFipsSidecar.pollOutbound (sidecar, output) = .ok sidecar.outbound.queued.head? after

theorem FakeFipsSidecar.Holds.safe {sidecar : FakeFipsSidecar peerMax queueMax frameMax}
    {ins outs : List FipsDatagramRef} (h : sidecar.Holds ins outs) : SidecarSafe sha256 sidecar where
  peers_apart := by
    obtain ⟨registered, hpacked, hapart, -⟩ := h.peers
    rwa [hpacked.live_eq]
  local_apart := by
    obtain ⟨registered, hpacked, -, hlocal⟩ := h.peers
    rwa [hpacked.live_eq]
  registerPeer endpoint := (h.registerPeer sha256 endpoint).mono fun _ _ _ => trivial
  sendTo destination bytes := (h.sendTo sha256 destination bytes).mono fun _ _ _ => trivial
  injectFrom source bytes := (h.injectFrom sha256 source bytes).mono fun _ _ _ => trivial
  pollInbound output := (h.pollInbound output).mono fun _ _ hpolled => by
    rw [h.inbound.queued_eq, hpolled.1]
  pollOutbound output := (h.pollOutbound output).mono fun _ _ hpolled => by
    rw [h.outbound.queued_eq, hpolled.1]
  inbound_served output hfits := by
    rw [h.inbound.queued_eq] at hfits ⊢
    obtain ⟨after, hpoll⟩ := h.inbound.pollQueue_of_fits hfits
    exact ⟨_, by rw [FakeFipsSidecar.pollInbound, hpoll]⟩
  outbound_served output hfits := by
    rw [h.outbound.queued_eq] at hfits ⊢
    obtain ⟨after, hpoll⟩ := h.outbound.pollQueue_of_fits hfits
    exact ⟨_, by rw [FakeFipsSidecar.pollOutbound, hpoll]⟩

end Hyf.Fips
