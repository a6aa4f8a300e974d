import Hyf.NostrGateway.Polls
import Hyf.Nostr.RelayRuns

/-!
# Runs of the executor

A run mixes the calls of the executor with any operations on its relay, and goes on after a call that
failed. For the relay it is a run of its own operations: a call of the executor publishes an event or
consumes an output, or leaves the relay alone.
-/

namespace Hyf

open ByteCodec Nostr FakeNostrRelay

/-- What the executor is asked for. -/
inductive ExecutorOp where
  | setUp (up : Bool)
  | sendLinkBytes (linkId : LinkId) (bytes : List UInt8) (nowMs : TimestampMs)
  | pollRelayOutput (output : List UInt8) (addressable : output.length < addressLimit)
  | onRelay (op : RelayOp)

namespace ExecutorOp

variable {eventCapacity subscriptionCapacity outputCapacity : ℕ}
  (sha256 : List UInt8 → ByteArrayN 32) (schnorr : Schnorr)

/-- The executor after the operation. -/
def step (executor : NostrGatewayExecutor
    (FakeNostrRelay eventCapacity subscriptionCapacity outputCapacity)) :
    ExecutorOp → NostrGatewayExecutor
      (FakeNostrRelay eventCapacity subscriptionCapacity outputCapacity)
  | .setUp up => { executor with up }
  | .sendLinkBytes linkId bytes nowMs =>
    (NostrGatewayExecutor.sendLinkBytes sha256 schnorr linkId bytes nowMs executor).state
  | .pollRelayOutput output _ =>
    (NostrGatewayExecutor.pollRelayOutput sha256 schnorr output executor).state
  | .onRelay op => executor.withRelay (op.call sha256 schnorr executor.relay).state

/-- The executor after some operations. -/
def run (ops : List ExecutorOp) (executor : NostrGatewayExecutor
    (FakeNostrRelay eventCapacity subscriptionCapacity outputCapacity)) :
    NostrGatewayExecutor (FakeNostrRelay eventCapacity subscriptionCapacity outputCapacity) :=
  ops.foldl (step sha256 schnorr) executor

end ExecutorOp

namespace NostrGatewayExecutor

variable {eventCapacity subscriptionCapacity outputCapacity : ℕ}
  (sha256 : List UInt8 → ByteArrayN 32) (schnorr : Schnorr)
  {executor executor' executor'' : NostrGatewayExecutor
    (FakeNostrRelay eventCapacity subscriptionCapacity outputCapacity)}

/-- The same executor, whose relay was operated on. -/
structure Follows (executor executor' : NostrGatewayExecutor
    (FakeNostrRelay eventCapacity subscriptionCapacity outputCapacity)) : Prop where
  linkId_eq : executor'.linkId = executor.linkId
  mtu_eq : executor'.mtu = executor.mtu
  secret_eq : executor'.authorSecret = executor.authorSecret
  recipient_eq : executor'.recipientPubkey = executor.recipientPubkey
  runs : ∃ ops, executor'.relay = RelayOp.run sha256 schnorr ops executor.relay

variable {sha256 schnorr}

/-- An executor follows itself. -/
theorem Follows.refl (executor : NostrGatewayExecutor
    (FakeNostrRelay eventCapacity subscriptionCapacity outputCapacity)) :
    Follows sha256 schnorr executor executor :=
  ⟨rfl, rfl, rfl, rfl, [], rfl⟩

/-- What follows what follows. -/
theorem Follows.trans (h : Follows sha256 schnorr executor executor')
    (h' : Follows sha256 schnorr executor' executor'') : Follows sha256 schnorr executor executor'' := by
  obtain ⟨ops, hops⟩ := h.runs
  obtain ⟨ops', hops'⟩ := h'.runs
  refine ⟨h'.linkId_eq.trans h.linkId_eq, h'.mtu_eq.trans h.mtu_eq, h'.secret_eq.trans h.secret_eq,
    h'.recipient_eq.trans h.recipient_eq, ops ++ ops', ?_⟩
  rw [hops', hops, RelayOp.run, RelayOp.run, RelayOp.run, List.foldl_append]

/-- One operation on the relay. -/
theorem follows_withRelay (op : RelayOp) : Follows sha256 schnorr executor
    (executor.withRelay (op.call sha256 schnorr executor.relay).state) :=
  ⟨rfl, rfl, rfl, rfl, [op], rfl⟩

/-- The relay stays valid. -/
theorem Follows.valid (h : Follows sha256 schnorr executor executor') (hvalid : executor.relay.Valid) :
    executor'.relay.Valid := by
  obtain ⟨ops, hops⟩ := h.runs
  exact hops ▸ RelayOp.valid_run sha256 schnorr hvalid ops

/-- The relay still remembers, and remembers what is authentic only. -/
theorem Follows.remembers (h : Follows sha256 schnorr executor executor') (hvalid : executor.relay.Valid) :
    Remembers (Authentic sha256 schnorr) executor.relay executor'.relay := by
  obtain ⟨ops, hops⟩ := h.runs
  exact hops ▸ RelayOp.remembers_run sha256 schnorr hvalid ops

/-! ## The calls of the executor -/

/-- A call that publishes leaves the relay as the publication does. -/
theorem state_publishEvent (linkId : LinkId) (event : NostrEvent) :
    (publishEvent sha256 schnorr linkId event executor).state = executor.withRelay
      (FakeNostrRelay.publish sha256 schnorr event (List.replicate gatewayFrameBufferLen 0)
        executor.relay).state := by
  unfold publishEvent
  cases hrun : FakeNostrRelay.publish sha256 schnorr event (List.replicate gatewayFrameBufferLen 0)
      executor.relay with
  | ok outcome relay =>
    have hcall : onRelay (mapNostrSendError linkId) (FakeNostrRelay.publish sha256 schnorr event
        (List.replicate gatewayFrameBufferLen 0)) executor = .ok outcome (executor.withRelay relay) := by
      rw [onRelay, hrun]
      rfl
    rw [run_bind_of_ok hcall]
    cases outcome <;> rfl
  | error fault relay =>
    have hcall : onRelay (mapNostrSendError linkId) (FakeNostrRelay.publish sha256 schnorr event
        (List.replicate gatewayFrameBufferLen 0)) executor =
        .error (fault.map (mapNostrSendError linkId)) (executor.withRelay relay) := by
      rw [onRelay, hrun]
      rfl
    rw [run_bind_of_error hcall]
    rfl

/-- The decode buffer is addressable. -/
theorem length_decodeBuffer :
    (List.replicate gatewayFrameBufferLen (0 : UInt8)).length < addressLimit := by
  rw [List.length_replicate]
  decide

/-- A computation on the side changes nothing when it fails. -/
theorem follows_lift_bind {α : Type} {outcome : Outcome GatewayError α}
    {next : α → NostrGatewayM eventCapacity subscriptionCapacity outputCapacity Unit}
    (hnext : ∀ a, Follows sha256 schnorr executor (next a executor).state) :
    Follows sha256 schnorr executor ((outcome.lift >>= next) executor).state := by
  cases outcome with
  | ok a => exact hnext a
  | error fault => exact Follows.refl executor

/-- A send operates on the relay only. -/
theorem follows_sendLinkBytes (linkId : LinkId) (bytes : List UInt8) (nowMs : TimestampMs) :
    Follows sha256 schnorr executor
      (sendLinkBytes sha256 schnorr linkId bytes nowMs executor).state := by
  rw [sendLinkBytes, run_get_bind]
  apply follows_lift_bind
  intro _
  apply follows_lift_bind
  intro _
  apply follows_lift_bind
  intro _
  apply follows_lift_bind
  intro event
  have hcall : (RelayOp.call sha256 schnorr (.publish event _ length_decodeBuffer)
      executor.relay).state = (FakeNostrRelay.publish sha256 schnorr event
        (List.replicate gatewayFrameBufferLen 0) executor.relay).state := by
    cases hrun : FakeNostrRelay.publish sha256 schnorr event (List.replicate gatewayFrameBufferLen 0)
        executor.relay with
    | ok outcome relay =>
      rw [RelayOp.call, run_bind_of_ok hrun]
      rfl
    | error fault relay =>
      rw [RelayOp.call, run_bind_of_error hrun]
      rfl
  rw [state_publishEvent, ← hcall]
  exact follows_withRelay _

/-- Nothing is polled while the executor is down. -/
theorem poll_of_down (hdown : executor.up = false) (output : List UInt8) :
    pollRelayOutput sha256 schnorr output executor =
      .error (.error (.driver executor.linkId .linkDown)) executor := by
  rw [pollRelayOutput, run_get_bind, rejectIf_eq_fail hdown]
  rfl

/-- Nothing is polled from an empty queue. -/
theorem poll_of_empty (hup : executor.up = true) (hvalid : executor.relay.Valid)
    (hqueue : executor.relay.queue = []) (output : List UInt8) :
    pollRelayOutput sha256 schnorr output executor = .ok none executor := by
  have hpacked := hvalid.packed
  rw [hqueue] at hpacked
  have hnext : executor.relay.withNextOutput isEventOutput = .ok none := by
    rw [withNextOutput]
    rcases hpacked.head?_eq_of_nil with hhead | hhead <;> rw [hhead]
  rw [pollRelayOutput, run_get_bind, Outcome.lift_bind (rejectIf_eq_ok (by simp [hup])),
    Outcome.lift_bind (Outcome.convert_eq hnext _)]
  rfl

/-- **A poll** takes the oldest output or leaves everything as it is. -/
theorem state_pollRelayOutput (hvalid : executor.relay.Valid) (output : List UInt8) :
    (pollRelayOutput sha256 schnorr output executor).state = executor ∨
      ∃ record rest, executor.relay.queue = record :: rest ∧
        (pollRelayOutput sha256 schnorr output executor).state =
          executor.withRelay (executor.relay.consumed record rest.length) := by
  by_cases hup : executor.up = true
  · cases hqueue : executor.relay.queue with
    | nil =>
      rw [poll_of_empty hup hvalid hqueue]
      exact .inl rfl
    | cons record rest =>
      have hconsume := consumeRelayOutput_eq hvalid hqueue
      obtain ⟨event, hshows⟩ | ⟨view, control, hnext, hcontrol, hok, -⟩ :=
        shows_or_control hvalid hqueue
      · rw [poll_of_shows hup hshows]
        cases decodeRelayEvent sha256 schnorr executor.linkId event output with
        | ok frame =>
          dsimp only
          rw [run_bind_of_ok hconsume]
          exact .inr ⟨record, rest, rfl, rfl⟩
        | error fault =>
          cases fault with
          | panic => exact .inl rfl
          | error error =>
            dsimp only
            split_ifs
            · exact .inl rfl
            · rw [run_bind_of_ok hconsume]
              exact .inr ⟨record, rest, rfl, rfl⟩
      · rw [poll_of_control hup hnext hcontrol, Outcome.lift_bind hok, run_bind_of_ok hconsume]
        exact .inr ⟨record, rest, rfl, rfl⟩
  · rw [poll_of_down (Bool.eq_false_of_not_eq_true hup)]
    exact .inl rfl

/-- A poll operates on the relay only. -/
theorem follows_pollRelayOutput (hvalid : executor.relay.Valid) (output : List UInt8) :
    Follows sha256 schnorr executor (pollRelayOutput sha256 schnorr output executor).state := by
  rcases state_pollRelayOutput hvalid output with hstate | ⟨record, rest, hqueue, hstate⟩
  · rw [hstate]
    exact Follows.refl executor
  · have hcall : (RelayOp.call sha256 schnorr .consumeOutput executor.relay).state =
        executor.relay.consumed record rest.length := by
      rw [RelayOp.call, run_bind_of_ok (hvalid.consumeOutput_eq hqueue)]
      rfl
    rw [hstate, ← hcall]
    exact follows_withRelay .consumeOutput

/-- So does every operation, but for whether the executor is up. -/
theorem follows_step (hvalid : executor.relay.Valid) (op : ExecutorOp) :
    Follows sha256 schnorr executor (op.step sha256 schnorr executor) := by
  cases op with
  | setUp up => exact ⟨rfl, rfl, rfl, rfl, [], rfl⟩
  | sendLinkBytes linkId bytes nowMs => exact follows_sendLinkBytes linkId bytes nowMs
  | pollRelayOutput output addressable => exact follows_pollRelayOutput hvalid output
  | onRelay op => exact follows_withRelay op

/-- **A run of the executor** is a run of its relay. -/
theorem follows_run (hvalid : executor.relay.Valid) (ops : List ExecutorOp) :
    Follows sha256 schnorr executor (ExecutorOp.run sha256 schnorr ops executor) := by
  induction ops generalizing executor with
  | nil => exact Follows.refl executor
  | cons op ops ih =>
    have hstep : Follows sha256 schnorr executor (op.step sha256 schnorr executor) :=
      follows_step hvalid op
    exact hstep.trans (ih (hstep.valid hvalid))

end NostrGatewayExecutor

end Hyf
