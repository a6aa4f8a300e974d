import Hyf.Nostr.RelayOperations

/-!
# Runs of the relay

A run is any list of operations, and goes on after an operation that failed. The invariant of the relay
holds after every run.
-/

namespace Hyf.Nostr

open ByteCodec

inductive RelayOp where
  | rememberSubscription (subscriptionId : String) (filters : List NostrFilter)
  | subscribe (subscriptionId : String) (filters : List NostrFilter)
  | closeSubscription (subscriptionId : String)
  | rejectNextPublish (status : NostrRelayStatus)
  | publish (event : NostrEvent) (decodeBuffer : List UInt8)
      (addressable : decodeBuffer.length < addressLimit)
  | publishWithProfile (event : NostrEvent) (decodeBuffer : List UInt8)
      (addressable : decodeBuffer.length < addressLimit) (profile : FakeNostrPublishProfile)
  | enqueueNotice (message : String)
  | injectClosed (subscriptionId : String) (status : NostrRelayStatus)
  | injectEose (subscriptionId : String)
  | injectAuthChallenge (challenge : String)
  | enqueueOutput (output : FakeNostrRelayOutput)
  | enqueueEventOutput (subscriptionId : String) (event : NostrEvent)
  | consumeOutput
  | popNextOutput

namespace RelayOp

variable {eventCapacity subscriptionCapacity outputCapacity : ℕ}
  (sha256 : List UInt8 → ByteArrayN 32) (schnorr : Schnorr)

open FakeNostrRelay in
/-- The call of the operation. What it returns is dropped; its error is not. -/
def call : RelayOp → RelayM eventCapacity subscriptionCapacity outputCapacity Unit
  | .rememberSubscription subscriptionId filters =>
    FakeNostrRelay.rememberSubscription subscriptionId filters
  | .subscribe subscriptionId filters => FakeNostrRelay.subscribe subscriptionId filters
  | .closeSubscription subscriptionId => do
    let _ ← FakeNostrRelay.closeSubscription subscriptionId
  | .rejectNextPublish status => FakeNostrRelay.rejectNextPublish status
  | .publish event decodeBuffer _ => do
    let _ ← FakeNostrRelay.publish sha256 schnorr event decodeBuffer
  | .publishWithProfile event decodeBuffer _ profile => do
    let _ ← FakeNostrRelay.publishWithProfile sha256 schnorr event decodeBuffer profile
  | .enqueueNotice message => FakeNostrRelay.enqueueNotice message
  | .injectClosed subscriptionId status => FakeNostrRelay.injectClosed subscriptionId status
  | .injectEose subscriptionId => FakeNostrRelay.injectEose subscriptionId
  | .injectAuthChallenge challenge => FakeNostrRelay.injectAuthChallenge challenge
  | .enqueueOutput output => FakeNostrRelay.enqueueOutput output
  | .enqueueEventOutput subscriptionId event => FakeNostrRelay.enqueueEventOutput subscriptionId event
  | .consumeOutput => do
    let _ ← FakeNostrRelay.consumeOutput
  | .popNextOutput => do
    let _ ← FakeNostrRelay.popNextOutput id

/-- The operations that take an output away. -/
def takes : RelayOp → Bool
  | .consumeOutput => true
  | .popNextOutput => true
  | _ => false

/-- The event that an operation publishes. -/
def published : RelayOp → Option NostrEvent
  | .publish event _ _ => some event
  | .publishWithProfile event _ _ _ => some event
  | _ => none

def run (ops : List RelayOp)
    (relay : FakeNostrRelay eventCapacity subscriptionCapacity outputCapacity) :
    FakeNostrRelay eventCapacity subscriptionCapacity outputCapacity :=
  ops.foldl (fun relay op => (op.call sha256 schnorr relay).state) relay

open FakeNostrRelay

/-- The event was verified, and is the one that the operation publishes. -/
def Admits (op : RelayOp) (record : FakeNostrEventRecord) : Prop :=
  Authentic sha256 schnorr record ∧ op.published = some record.event

/-- An operation that takes nothing lets the queue grow. -/
theorem keeps_call {op : RelayOp} (h : op.takes = false) :
    Keeps (op.Admits sha256 schnorr) (op.call sha256 schnorr :
      RelayM eventCapacity subscriptionCapacity outputCapacity Unit) := by
  cases op with
  | rememberSubscription subscriptionId filters =>
    exact keeps_rememberSubscription subscriptionId filters
  | subscribe subscriptionId filters => exact keeps_subscribe subscriptionId filters
  | closeSubscription subscriptionId =>
    exact Keeps.bind (keeps_closeSubscription subscriptionId) fun _ => Keeps.pure _
  | rejectNextPublish status => exact keeps_rejectNextPublish status
  | publish event decodeBuffer addressable =>
    apply Keeps.bind _ fun _ => Keeps.pure _
    apply keeps_publishWithProfile sha256 schnorr event addressable
    exact fun record hevent hverified => ⟨hverified, congrArg some hevent.symm⟩
  | publishWithProfile event decodeBuffer addressable profile =>
    apply Keeps.bind _ fun _ => Keeps.pure _
    apply keeps_publishWithProfile sha256 schnorr event addressable
    exact fun record hevent hverified => ⟨hverified, congrArg some hevent.symm⟩
  | enqueueNotice message => exact keeps_enqueueNotice message
  | injectClosed subscriptionId status => exact keeps_injectClosed subscriptionId status
  | injectEose subscriptionId => exact keeps_injectEose subscriptionId
  | injectAuthChallenge challenge => exact keeps_injectAuthChallenge challenge
  | enqueueOutput output => exact keeps_enqueueOutput output
  | enqueueEventOutput subscriptionId event => exact keeps_enqueueEventOutput subscriptionId event
  | consumeOutput => cases h
  | popNextOutput => cases h

/-- An operation that takes an output takes the oldest. -/
theorem ends_call_of_takes {relay : FakeNostrRelay eventCapacity subscriptionCapacity outputCapacity}
    (hvalid : relay.Valid) {op : RelayOp} (h : op.takes = true) :
    ∃ relay', op.call sha256 schnorr relay = .ok () relay' ∧ relay'.Valid ∧
      relay'.queue = relay.queue.tail ∧ relay'.events = relay.events := by
  cases op with
  | consumeOutput =>
    obtain ⟨relay', hrun, h'⟩ := hvalid.consumeOutput
    refine ⟨relay', ?_, h'⟩
    exact run_bind_of_ok hrun _
  | popNextOutput =>
    obtain ⟨output, relay', hrun, h'⟩ := hvalid.popNextOutput id
    refine ⟨relay', ?_, h'⟩
    exact run_bind_of_ok hrun _
  | _ => cases h

/-- What an operation does to the queue, in a valid relay. -/
structure Advances (op : RelayOp)
    (relay : FakeNostrRelay eventCapacity subscriptionCapacity outputCapacity)
    (result : EStateM.Result (Fault NostrError)
      (FakeNostrRelay eventCapacity subscriptionCapacity outputCapacity) Unit) : Prop where
  valid : result.state.Valid
  ne_panic : ∀ relay', result ≠ .error .panic relay'
  takes_oldest : op.takes = true → result.state.queue = relay.queue.tail
  appends : op.takes = false → relay.queue <+: result.state.queue

theorem advances {relay : FakeNostrRelay eventCapacity subscriptionCapacity outputCapacity}
    (hvalid : relay.Valid) (op : RelayOp) : op.Advances relay (op.call sha256 schnorr relay) := by
  cases htakes : op.takes with
  | true =>
    obtain ⟨relay', hrun, hvalid', hqueue, -⟩ := ends_call_of_takes sha256 schnorr hvalid htakes
    rw [hrun]
    constructor
    · exact hvalid'
    · intro _ hpanic
      cases hpanic
    · exact fun _ => hqueue
    · intro hkeeps
      rw [htakes] at hkeeps
      cases hkeeps
  | false =>
    have hends := keeps_call sha256 schnorr htakes relay relay (Grown.refl hvalid)
    have hgrown := hends.state_mem
    constructor
    · exact hgrown.valid
    · exact hends.ne_panic
    · intro hoccurs
      rw [htakes] at hoccurs
      cases hoccurs
    · exact fun _ => hgrown.queue_prefix

theorem valid_run {relay : FakeNostrRelay eventCapacity subscriptionCapacity outputCapacity}
    (h : relay.Valid) (ops : List RelayOp) : (run sha256 schnorr ops relay).Valid := by
  induction ops generalizing relay with
  | nil => exact h
  | cons op ops ih => exact ih (advances sha256 schnorr h op).valid

/-- Whatever a run does, it forgets no event, and stores only verified ones that were published. -/
theorem remembers_call {relay : FakeNostrRelay eventCapacity subscriptionCapacity outputCapacity}
    (h : relay.Valid) (op : RelayOp) :
    Remembers (op.Admits sha256 schnorr) relay (op.call sha256 schnorr relay).state := by
  cases htakes : op.takes with
  | true =>
    obtain ⟨relay', hrun, -, -, hevents⟩ := ends_call_of_takes sha256 schnorr h htakes
    rw [hrun]
    exact .of_events hevents
  | false =>
    exact (keeps_call sha256 schnorr htakes relay relay (Grown.refl h)).state_mem.toRemembers

theorem remembers_run {relay : FakeNostrRelay eventCapacity subscriptionCapacity outputCapacity}
    (h : relay.Valid) (ops : List RelayOp) :
    Remembers (Authentic sha256 schnorr) relay (run sha256 schnorr ops relay) := by
  induction ops generalizing relay with
  | nil => exact .of_events rfl
  | cons op ops ih =>
    have hcall : Remembers (Authentic sha256 schnorr) relay (op.call sha256 schnorr relay).state :=
      (remembers_call sha256 schnorr h op).mono fun _ hadmitted => hadmitted.1
    exact hcall.trans (ih (advances sha256 schnorr h op).valid)

/-- Every event that a run stores was published in it. -/
theorem published_run {relay : FakeNostrRelay eventCapacity subscriptionCapacity outputCapacity}
    (h : relay.Valid) (ops : List RelayOp) :
    Remembers (fun record => ∃ op ∈ ops, op.published = some record.event) relay
      (run sha256 schnorr ops relay) := by
  induction ops generalizing relay with
  | nil => exact .of_events rfl
  | cons op ops ih =>
    have hcall : Remembers (fun record => ∃ op' ∈ op :: ops, op'.published = some record.event) relay
        (op.call sha256 schnorr relay).state :=
      (remembers_call sha256 schnorr h op).mono fun _ hadmitted => ⟨op, List.mem_cons_self, hadmitted.2⟩
    apply hcall.trans
    apply (ih (advances sha256 schnorr h op).valid).mono
    rintro record ⟨op', hmem, hpublished⟩
    exact ⟨op', List.mem_cons_of_mem _ hmem, hpublished⟩

/-- The relay after a run. -/
def reached (eventCapacity subscriptionCapacity outputCapacity : ℕ) (ops : List RelayOp) :
    FakeNostrRelay eventCapacity subscriptionCapacity outputCapacity :=
  run sha256 schnorr ops new

theorem valid_reached (ops : List RelayOp) :
    (reached sha256 schnorr eventCapacity subscriptionCapacity outputCapacity ops).Valid :=
  valid_run sha256 schnorr valid_new ops

end RelayOp

/-- A slot is occupied exactly when one queued output refers to it. -/
theorem FakeNostrRelay.Valid.occupied_iff
    {eventCapacity subscriptionCapacity outputCapacity : ℕ}
    {relay : FakeNostrRelay eventCapacity subscriptionCapacity outputCapacity} (h : relay.Valid)
    (slot : ℕ) : Occupied relay.outputEvents slot ↔
      relay.queue.countP (fun output => output.ownedIndex = some slot) = 1 := by
  have hcount : relay.queue.countP (fun output => output.ownedIndex = some slot) =
      relay.owned.count slot := by
    rw [FakeNostrRelay.owned, List.count, List.countP_filterMap]
    apply List.countP_congr
    intro output _
    cases output.ownedIndex <;> simp
  rw [hcount, ← h.owned_iff]
  constructor
  · exact List.count_eq_one_of_mem h.owned_nodup
  · intro hone
    exact List.count_pos_iff.mp (by omega)

/-- **The invariant of the relay** holds after every run, and the next operation neither panics nor
disturbs the order of the outputs. -/
theorem RelayOp.reached_invariant (sha256 : List UInt8 → ByteArrayN 32) (schnorr : Schnorr)
    (eventCapacity subscriptionCapacity outputCapacity : ℕ) (ops : List RelayOp) :
    (reached sha256 schnorr eventCapacity subscriptionCapacity outputCapacity ops).Valid ∧
      (∀ slot, Occupied
          (reached sha256 schnorr eventCapacity subscriptionCapacity outputCapacity ops).outputEvents slot ↔
        (reached sha256 schnorr eventCapacity subscriptionCapacity outputCapacity ops).queue.countP
          (fun output => output.ownedIndex = some slot) = 1) ∧
      ∀ op : RelayOp, op.Advances
        (reached sha256 schnorr eventCapacity subscriptionCapacity outputCapacity ops)
        (op.call sha256 schnorr
          (reached sha256 schnorr eventCapacity subscriptionCapacity outputCapacity ops)) := by
  have hvalid := @valid_reached eventCapacity subscriptionCapacity outputCapacity sha256 schnorr ops
  exact ⟨hvalid, hvalid.occupied_iff, advances sha256 schnorr hvalid⟩

end Hyf.Nostr
