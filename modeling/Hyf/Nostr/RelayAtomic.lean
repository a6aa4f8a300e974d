import Hyf.Nostr.RelayRuns

/-!
# Which failures leave the relay unchanged

An operation that reports an error should leave the tables, the queue and the pending rejection as they
were. Most operations fail before they write, or write one table only. A publication and a subscription
write a table first and queue their outputs last, and a full queue then finds the table changed.
-/

namespace Hyf.Nostr

open ByteCodec

namespace FakeNostrRelay

variable {eventCapacity subscriptionCapacity outputCapacity : ℕ}
  {relay relay' : FakeNostrRelay eventCapacity subscriptionCapacity outputCapacity}

/-- Nothing but the overflow counter may differ. -/
def Unchanged (relay relay' : FakeNostrRelay eventCapacity subscriptionCapacity outputCapacity) : Prop :=
  ∃ outputOverflows, relay' = { relay with metrics := { relay.metrics with outputOverflows } }

/-- A relay is unchanged with respect to itself. -/
theorem Unchanged.refl (relay : FakeNostrRelay eventCapacity subscriptionCapacity outputCapacity) :
    Unchanged relay relay := ⟨relay.metrics.outputOverflows, rfl⟩

/-- The counter of overflows may change. -/
theorem unchanged_overflowed : Unchanged relay relay.overflowed :=
  ⟨relay.metrics.outputOverflows + 1, rfl⟩

/-- The call does not panic, and an error leaves the relay unchanged. -/
def Undoes {α : Type} (call : RelayM eventCapacity subscriptionCapacity outputCapacity α)
    (relay : FakeNostrRelay eventCapacity subscriptionCapacity outputCapacity) : Prop :=
  EndsWith call relay (fun _ _ => True) fun _ => Unchanged relay

namespace Undoes

variable {α β : Type} {call : RelayM eventCapacity subscriptionCapacity outputCapacity α}

/-- A call that succeeds has nothing to undo. -/
theorem of_ok {a : α} (h : call relay = .ok a relay') : Undoes call relay := EndsWith.of_ok h trivial

/-- A call that fails and leaves the relay undoes. -/
theorem of_unchanged {error : NostrError} (h : call relay = .error (.error error) relay')
    (hunchanged : Unchanged relay relay') : Undoes call relay := EndsWith.of_error h hunchanged

/-- An outcome on the side changes nothing, so what counts is what follows. -/
theorem lift_bind {outcome : Outcome NostrError β} {P : β → Prop} (h : Ends outcome P)
    {next : β → RelayM eventCapacity subscriptionCapacity outputCapacity α}
    (hnext : ∀ b, P b → Undoes (next b) relay) : Undoes (outcome.lift >>= next) relay :=
  EndsWith.lift_bind h (fun _ => Unchanged.refl relay) hnext

/-- What follows the call returns a value only. -/
theorem bind_pure (h : Undoes call relay) (f : α → β) :
    Undoes (call >>= fun a => pure (f a)) relay :=
  EndsWith.bind h fun _ _ _ => trivial

/-- An output is queued, or only the overflow is counted. -/
theorem enqueueOutputRecord (h : relay.Valid) (output : FakeNostrRelayOutputRecord) :
    Undoes (FakeNostrRelay.enqueueOutputRecord output) relay := by
  have hrun := h.enqueueOutputRecord_eq output
  by_cases hroom : relay.queue.length < outputCapacity
  · rw [if_pos hroom] at hrun
    exact of_ok hrun
  · rw [if_neg hroom] at hrun
    exact of_unchanged hrun unchanged_overflowed

/-- `enqueue_notice` is atomic. -/
theorem enqueueNotice (h : relay.Valid) (message : String) :
    Undoes (FakeNostrRelay.enqueueNotice message) relay :=
  lift_bind (ends_fromStr _ _) fun _ _ => enqueueOutputRecord h _

/-- `inject_auth_challenge` is atomic. -/
theorem injectAuthChallenge (h : relay.Valid) (challenge : String) :
    Undoes (FakeNostrRelay.injectAuthChallenge challenge) relay :=
  lift_bind (ends_fromStr _ _) fun _ _ => enqueueOutputRecord h _

/-- `inject_eose` is atomic. -/
theorem injectEose (h : relay.Valid) (subscriptionId : String) :
    Undoes (FakeNostrRelay.injectEose subscriptionId) relay :=
  lift_bind (ends_validateSubscriptionId subscriptionId) fun _ _ =>
    lift_bind (ends_fromStr _ _) fun _ _ => enqueueOutputRecord h _

/-- `inject_closed` is atomic. -/
theorem injectClosed (h : relay.Valid) (subscriptionId : String) (status : NostrRelayStatus) :
    Undoes (FakeNostrRelay.injectClosed subscriptionId status) relay :=
  lift_bind (ends_validateSubscriptionId subscriptionId) fun _ _ =>
    lift_bind (ends_fromStr _ _) fun _ _ =>
      lift_bind (ends_fromStatus status) fun _ _ => enqueueOutputRecord h _

/-- `enqueue_ok` is atomic. -/
theorem enqueueOk (h : relay.Valid) (eventId : NostrEventId) (accepted : Bool)
    (status : NostrRelayStatus) : Undoes (FakeNostrRelay.enqueueOk eventId accepted status) relay :=
  lift_bind (ends_fromStatus status) fun _ _ => enqueueOutputRecord h _

/-- The event is put into its slot only after the output was queued. -/
theorem enqueueEventOutput (h : relay.Valid) (subscriptionId : String) (event : NostrEvent) :
    Undoes (FakeNostrRelay.enqueueEventOutput subscriptionId event) relay := by
  apply lift_bind (ends_fromEvent event)
  intro record _
  apply EndsWith.get_bind
  split
  · exact of_unchanged rfl unchanged_overflowed
  · exact (enqueueOutputRecord h _).bind fun _ _ _ => trivial

/-- `enqueue_output` is atomic. -/
theorem enqueueOutput (h : relay.Valid) (output : FakeNostrRelayOutput) :
    Undoes (FakeNostrRelay.enqueueOutput output) relay := by
  cases output with
  | ok eventId accepted status => exact enqueueOk h eventId accepted status
  | event subscriptionId event => exact enqueueEventOutput h subscriptionId event
  | eose subscriptionId => exact injectEose h subscriptionId
  | closed subscriptionId status => exact injectClosed h subscriptionId status
  | notice message => exact enqueueNotice h message
  | auth challenge => exact injectAuthChallenge h challenge

/-- `reject_next_publish` does not fail. -/
theorem rejectNextPublish (status : NostrRelayStatus) :
    Undoes (FakeNostrRelay.rejectNextPublish status) relay :=
  lift_bind (ends_fromStatus status) fun _ _ => trivial

/-- `remember_subscription` is atomic. -/
theorem rememberSubscription (subscriptionId : String) (filters : List NostrFilter) :
    Undoes (FakeNostrRelay.rememberSubscription subscriptionId filters) relay := by
  apply lift_bind (ends_validateSubscriptionId subscriptionId)
  intro _ _
  apply EndsWith.get_bind
  split
  · exact trivial
  · split
    · exact Unchanged.refl relay
    · exact trivial

/-- `close_subscription` is atomic. -/
theorem closeSubscription (h : relay.Valid) (subscriptionId : String) :
    Undoes (FakeNostrRelay.closeSubscription subscriptionId) relay := by
  apply lift_bind (ends_validateSubscriptionId subscriptionId)
  intro _ _
  apply EndsWith.get_bind
  split
  · exact trivial
  · rename_i index hfind
    obtain ⟨count, hcount⟩ := h.exists_decrement hfind
    rw [Outcome.lift_bind hcount]
    exact trivial

end Undoes

/-! ## Publishing -/

/-- The publication of an admitted event changes the relay before it finds the queue full. -/
structure PublishTears (relay : FakeNostrRelay eventCapacity subscriptionCapacity outputCapacity)
    (event : NostrEvent) : Prop where
  full : relay.queue.length = outputCapacity
  fresh : relay.containsEvent event.id = false
  changes : relay.nextPublishRejection ≠ none ∨
    (∃ record, FakeNostrEventRecord.fromEvent event = .ok record) ∧
      relay.events.live.length < eventCapacity

/-- A call that failed and changed the relay is not atomic. -/
theorem not_undoes {α : Type} {call : RelayM eventCapacity subscriptionCapacity outputCapacity α}
    {error : NostrError} (hrun : call relay = .error (.error error) relay')
    (h : ¬Unchanged relay relay') : ¬Undoes call relay := by
  intro hundoes
  rw [Undoes, EndsWith, hrun] at hundoes
  exact h hundoes

/-- The event is stored last. -/
theorem ends_storeEvent (event : NostrEvent) :
    EndsWith (storeEvent event) relay
      (fun _ _ => (∃ record, FakeNostrEventRecord.fromEvent event = .ok record) ∧
        relay.events.live.length < eventCapacity)
      fun _ => Unchanged relay := by
  apply EndsWith.lift_bind (ends_fromEvent event).with_eq
  · exact fun _ => Unchanged.refl relay
  · intro record hrecord
    apply EndsWith.get_bind
    split
    · exact Unchanged.refl relay
    · rename_i index hfree
      exact ⟨⟨record, hrecord.2⟩, SlotArray.length_live_lt_of_firstFree hfree⟩

/-- A rejection that was used up is lost. -/
theorem not_unchanged_rejectionTaken (h : relay.nextPublishRejection ≠ none) :
    ¬Unchanged relay relay.rejectionTaken.overflowed := by
  rintro ⟨overflows, heq⟩
  exact h (congrArg FakeNostrRelay.nextPublishRejection heq).symm

/-- A relay with one more event is not unchanged. -/
theorem not_unchanged_withStored (index : ℕ) (record : FakeNostrEventRecord) :
    ¬Unchanged relay (relay.withStored index record).overflowed := by
  rintro ⟨overflows, heq⟩
  have hcount := congrArg (fun relay => relay.metrics.storedEvents) heq
  exact absurd hcount (Nat.succ_ne_self _)

/-- Publishing an admitted event is atomic unless it tears. -/
theorem Valid.undoes_publishAdmitted_iff (h : relay.Valid) (event : NostrEvent) :
    Undoes (publishAdmitted event) relay ↔ ¬relay.PublishTears event := by
  by_cases hcontains : relay.containsEvent event.id = true
  · refine iff_of_true ?_ fun htears => ?_
    · apply EndsWith.get_bind
      rw [if_pos hcontains]
      exact (Undoes.enqueueOk h _ _ _).bind_pure _
    · rw [htears.fresh] at hcontains
      cases hcontains
  · have hnew := Bool.eq_false_of_not_eq_true hcontains
    have hfull : ¬relay.queue.length < outputCapacity → relay.queue.length = outputCapacity :=
      fun hroom => Nat.le_antisymm h.packed.length_le (Nat.le_of_not_lt hroom)
    cases hrejection : relay.nextPublishRejection with
    | some status =>
      have hpending : relay.nextPublishRejection ≠ none := by simp [hrejection]
      have hrun := h.publishAdmitted_rejected hnew hrejection
      by_cases hroom : relay.queue.length < outputCapacity
      · rw [if_pos hroom] at hrun
        exact iff_of_true (Undoes.of_ok hrun) fun htears => absurd htears.full hroom.ne
      · rw [if_neg hroom] at hrun
        exact iff_of_false (not_undoes hrun (not_unchanged_rejectionTaken hpending))
          (not_not.mpr ⟨hfull hroom, hnew, .inl hpending⟩)
    | none =>
      by_cases hstores : (∃ record, FakeNostrEventRecord.fromEvent event = .ok record) ∧
          relay.events.live.length < eventCapacity
      · obtain ⟨record, hrecord⟩ := hstores.1
        obtain ⟨index, hfree⟩ := SlotArray.exists_firstFree hstores.2
        obtain ⟨status, hrun⟩ := h.publishAdmitted_stored hnew hrejection hrecord hfree
        by_cases hroom : relay.queue.length < outputCapacity
        · rw [if_pos hroom] at hrun
          exact iff_of_true (Undoes.of_ok hrun) fun htears => absurd htears.full hroom.ne
        · rw [if_neg hroom] at hrun
          exact iff_of_false (not_undoes hrun (not_unchanged_withStored index record))
            (not_not.mpr ⟨hfull hroom, hnew, .inr hstores⟩)
      · refine iff_of_true ?_ fun htears => ?_
        · apply EndsWith.get_bind
          rw [if_neg hcontains, hrejection]
          exact (ends_storeEvent event).bind fun _ _ h => absurd h hstores
        · rcases htears.changes with hpending | hboth
          · exact hpending hrejection
          · exact hstores hboth

/-- Publishing is atomic unless an admitted event tears. -/
theorem Valid.undoes_publishWithProfile_iff (h : relay.Valid) (sha256 : List UInt8 → ByteArrayN 32)
    (schnorr : Schnorr) (event : NostrEvent) {decodeBuffer : List UInt8}
    (hlimit : decodeBuffer.length < addressLimit) (profile : FakeNostrPublishProfile) :
    Undoes (publishWithProfile sha256 schnorr event decodeBuffer profile) relay ↔
      ¬(validatePublishProfile sha256 schnorr event decodeBuffer profile = .ok () ∧
        relay.PublishTears event) := by
  have hends := ends_validatePublishProfile sha256 schnorr event hlimit profile
  unfold publishWithProfile
  cases hvalidate : validatePublishProfile sha256 schnorr event decodeBuffer profile with
  | ok _ =>
    rw [and_iff_right rfl]
    exact h.undoes_publishAdmitted_iff event
  | error fault =>
    cases fault with
    | panic => exact absurd hvalidate hends.ne_panic
    | error error =>
      refine iff_of_true ((Undoes.enqueueOk h _ _ _).bind_pure _) ?_
      rintro ⟨hok, -⟩
      cases hok

/-! ## Subscribing -/

/-- A subscription is remembered, and perhaps replayed in part, before it finds the queue full. -/
structure SubscribeTears (relay : FakeNostrRelay eventCapacity subscriptionCapacity outputCapacity)
    (subscriptionId : String) (filters : List NostrFilter) : Prop where
  valid_id : validateSubscriptionId subscriptionId = .ok ()
  admitted : relay.AdmitsSubscription subscriptionId
  short : outputCapacity ≤ relay.queue.length + relay.replayCount filters
  changes : ⟨subscriptionId, filters⟩ ∉ relay.subscriptions.live ∨
    relay.queue.length < outputCapacity

/-- After a replay that failed. -/
theorem Valid.unchanged_replayed_iff (h : relay.Valid)
    {subscriptions : SlotArray FakeNostrSubscription subscriptionCapacity} {activeSubscriptions : ℕ}
    (hvalid : (relay.withSubscriptions subscriptions activeSubscriptions).Valid)
    {subscriptionId : String} {indices : List ℕ}
    (hfull : relay.queue.length + indices.length = outputCapacity)
    (hoccupied : ∀ index ∈ indices, Occupied relay.events index) :
    Unchanged relay
        ((relay.withSubscriptions subscriptions activeSubscriptions).replayed
          subscriptionId indices).overflowed ↔
      subscriptions = relay.subscriptions ∧ relay.queue.length = outputCapacity := by
  have hqueue : ((relay.withSubscriptions subscriptions activeSubscriptions).replayed subscriptionId
      indices).queue = relay.queue ++ indices.map (.storedEvent subscriptionId) :=
    (hvalid.replayed hfull.le hoccupied).2
  constructor
  · rintro ⟨overflows, heq⟩
    have hsubscriptions := congrArg FakeNostrRelay.subscriptions heq
    have hsame := congrArg queue heq
    refine ⟨(subscriptions_replayed indices).symm.trans hsubscriptions, ?_⟩
    have hlen := congrArg List.length (hqueue.symm.trans hsame)
    rw [List.length_append, List.length_map] at hlen
    have hlen' : relay.queue.length + indices.length = relay.queue.length := hlen
    omega
  · rintro ⟨rfl, hqueuefull⟩
    have hactive : activeSubscriptions = relay.metrics.activeSubscriptions :=
      hvalid.active_eq.trans h.active_eq.symm
    obtain rfl : indices = [] := List.length_eq_zero_iff.mp (by omega)
    subst hactive
    exact unchanged_overflowed

/-- Subscribing is atomic unless the replay does not fit behind the subscription. -/
theorem Valid.undoes_subscribe_iff (h : relay.Valid) (subscriptionId : String)
    (filters : List NostrFilter) :
    Undoes (subscribe subscriptionId filters) relay ↔
      ¬relay.SubscribeTears subscriptionId filters := by
  have hends := ends_validateSubscriptionId subscriptionId
  cases hid : validateSubscriptionId subscriptionId with
  | error fault =>
    refine iff_of_true ?_ fun htears => ?_
    · cases fault with
      | panic => exact absurd hid hends.ne_panic
      | error error =>
        have hrun : FakeNostrRelay.rememberSubscription subscriptionId filters relay =
            .error (.error error) relay := by
          rw [FakeNostrRelay.rememberSubscription, hid]
          rfl
        exact Undoes.of_unchanged (run_bind_of_error hrun _) (Unchanged.refl relay)
    · have hvalid := htears.valid_id
      rw [hid] at hvalid
      cases hvalid
  | ok _ =>
    have hlen := hends.of_ok hid
    rcases h.rememberSubscription hid filters with ⟨hfull, hrun⟩ |
      ⟨subscriptions, activeSubscriptions, hadmits, hrun, hvalid, hsame⟩
    · refine iff_of_true ?_ fun htears => hfull htears.admitted
      exact Undoes.of_unchanged (run_bind_of_error hrun _) (Unchanged.refl relay)
    · obtain ⟨indices, -, hindices, -, hend⟩ := hvalid.replaySubscription_spec hlen filters
      rcases hend with ⟨hroom, -, -, hok⟩ | ⟨hshort, hfull, herror⟩
      · refine iff_of_true ?_ fun htears => not_lt.mpr htears.short hroom
        exact Undoes.of_ok ((run_bind_of_ok hrun _).trans hok)
      · have hiff := @Valid.unchanged_replayed_iff _ _ _ relay h _ _ hvalid subscriptionId _ hfull (by
          intro index hindex
          obtain ⟨event, hevent⟩ := hindices index hindex
          exact ⟨event, hevent.cell_eq⟩)
        have hsubscribe := (run_bind_of_ok hrun fun _ =>
          replaySubscription subscriptionId filters).trans herror
        by_cases hlost : Unchanged relay
            ((relay.withSubscriptions subscriptions activeSubscriptions).replayed
              subscriptionId indices).overflowed
        · refine iff_of_true (Undoes.of_unchanged hsubscribe hlost) fun htears => ?_
          obtain ⟨hsubscriptions, hqueue⟩ := hiff.mp hlost
          rcases htears.changes with hnew | hroom
          · exact hnew (hsame.mp hsubscriptions)
          · exact hroom.ne hqueue
        · refine iff_of_false (not_undoes hsubscribe hlost) (not_not.mpr ⟨hid, hadmits, hshort, ?_⟩)
          rw [hiff, hsame, not_and_or] at hlost
          exact hlost.imp_right fun hne => lt_of_le_of_ne h.packed.length_le hne

end FakeNostrRelay

namespace RelayOp

open FakeNostrRelay

variable {eventCapacity subscriptionCapacity outputCapacity : ℕ}
  (sha256 : List UInt8 → ByteArrayN 32) (schnorr : Schnorr)

/-- The operation changes the relay before it finds the queue full. -/
def Tears (op : RelayOp) (relay : FakeNostrRelay eventCapacity subscriptionCapacity outputCapacity) :
    Prop :=
  match op with
  | .publish event decodeBuffer _ =>
    validatePublishProfile sha256 schnorr event decodeBuffer .hyfEnvelope = .ok () ∧
      relay.PublishTears event
  | .publishWithProfile event decodeBuffer _ profile =>
    validatePublishProfile sha256 schnorr event decodeBuffer profile = .ok () ∧
      relay.PublishTears event
  | .subscribe subscriptionId filters => relay.SubscribeTears subscriptionId filters
  | _ => False

/-- What the call returns does not matter. -/
theorem undoes_discard_iff {α : Type}
    {call : RelayM eventCapacity subscriptionCapacity outputCapacity α}
    {relay : FakeNostrRelay eventCapacity subscriptionCapacity outputCapacity} :
    Undoes (do let _ ← call) relay ↔ Undoes call relay := by
  unfold Undoes EndsWith
  cases hrun : call relay with
  | ok a relay' =>
    rw [run_bind_of_ok hrun]
    exact Iff.rfl
  | error fault relay' =>
    rw [run_bind_of_error hrun]
    cases fault <;> exact Iff.rfl

/-- An operation is atomic unless it tears. -/
theorem undoes_call_iff {relay : FakeNostrRelay eventCapacity subscriptionCapacity outputCapacity}
    (h : relay.Valid) (op : RelayOp) :
    Undoes (op.call sha256 schnorr) relay ↔ ¬op.Tears sha256 schnorr relay := by
  cases op with
  | rememberSubscription subscriptionId filters =>
    exact iff_of_true (Undoes.rememberSubscription _ _) id
  | subscribe subscriptionId filters => exact h.undoes_subscribe_iff subscriptionId filters
  | closeSubscription subscriptionId =>
    exact iff_of_true (undoes_discard_iff.mpr (Undoes.closeSubscription h _)) id
  | rejectNextPublish status => exact iff_of_true (Undoes.rejectNextPublish _) id
  | publish event decodeBuffer addressable =>
    exact undoes_discard_iff.trans (h.undoes_publishWithProfile_iff sha256 schnorr event addressable _)
  | publishWithProfile event decodeBuffer addressable profile =>
    exact undoes_discard_iff.trans (h.undoes_publishWithProfile_iff sha256 schnorr event addressable _)
  | enqueueNotice message => exact iff_of_true (Undoes.enqueueNotice h _) id
  | injectClosed subscriptionId status => exact iff_of_true (Undoes.injectClosed h _ _) id
  | injectEose subscriptionId => exact iff_of_true (Undoes.injectEose h _) id
  | injectAuthChallenge challenge => exact iff_of_true (Undoes.injectAuthChallenge h _) id
  | enqueueOutput output => exact iff_of_true (Undoes.enqueueOutput h _) id
  | enqueueEventOutput subscriptionId event => exact iff_of_true (Undoes.enqueueEventOutput h _ _) id
  | consumeOutput =>
    obtain ⟨relay', hrun, -⟩ :
        ∃ relay', RelayOp.call sha256 schnorr .consumeOutput relay = .ok () relay' ∧ _ :=
      ends_call_of_takes sha256 schnorr h rfl
    exact iff_of_true (Undoes.of_ok hrun) id
  | popNextOutput =>
    obtain ⟨relay', hrun, -⟩ :
        ∃ relay', RelayOp.call sha256 schnorr .popNextOutput relay = .ok () relay' ∧ _ :=
      ends_call_of_takes sha256 schnorr h rfl
    exact iff_of_true (Undoes.of_ok hrun) id

/-- A call that does not panic undoes its errors exactly when they leave the relay unchanged. -/
theorem undoes_iff_of_ne_panic {α : Type}
    {call : RelayM eventCapacity subscriptionCapacity outputCapacity α}
    {relay : FakeNostrRelay eventCapacity subscriptionCapacity outputCapacity}
    (h : ∀ relay', call relay ≠ .error .panic relay') :
    Undoes call relay ↔ ∀ error relay', call relay = .error error relay' → Unchanged relay relay' := by
  unfold Undoes EndsWith
  cases hrun : call relay with
  | ok a relay' => exact iff_of_true trivial fun _ _ herror => by cases herror
  | error fault relay' =>
    cases fault with
    | panic => exact absurd hrun (h relay')
    | error error =>
      constructor
      · rintro hunchanged _ _ ⟨⟩
        exact hunchanged
      · exact fun hunchanged => hunchanged _ _ rfl

/-- On a valid relay no failure of an operation changes anything, unless the operation tears. -/
theorem unchanged_iff {relay : FakeNostrRelay eventCapacity subscriptionCapacity outputCapacity}
    (h : relay.Valid) (op : RelayOp) :
    (∀ error relay', op.call sha256 schnorr relay = .error error relay' → Unchanged relay relay') ↔
      ¬op.Tears sha256 schnorr relay := by
  rw [← undoes_iff_of_ne_panic (advances sha256 schnorr h op).ne_panic]
  exact undoes_call_iff sha256 schnorr h op

/-- **After every run** an operation that fails leaves the relay unchanged, unless it is a publication
or a subscription that tears. -/
theorem reached_unchanged_iff (ops : List RelayOp) (op : RelayOp) :
    (∀ error relay', op.call sha256 schnorr
        (reached sha256 schnorr eventCapacity subscriptionCapacity outputCapacity ops) =
          .error error relay' →
      Unchanged (reached sha256 schnorr eventCapacity subscriptionCapacity outputCapacity ops) relay') ↔
      ¬op.Tears sha256 schnorr
        (reached sha256 schnorr eventCapacity subscriptionCapacity outputCapacity ops) :=
  unchanged_iff sha256 schnorr (valid_reached sha256 schnorr ops) op

/-- Signatures that nothing passes. -/
def noSchnorr : Schnorr where
  SigningKey := Unit
  VerifyingKey := Unit
  Signature := Unit
  signingKeyFromSlice _ := none
  verifyingKeyBytes _ := fillBytes 32 0
  signRaw _ _ _ := none
  verifyingKeyFromSlice _ := none
  signatureFromSlice _ := none
  verifyRaw _ _ _ := false

/-- A notice that fills the queue. -/
def busyRelay : FakeNostrRelay 1 1 1 :=
  reached (fun _ => fillBytes 32 0) noSchnorr 1 1 1 [.enqueueNotice "busy"]

/-- The subscription fails on the full queue, and is remembered. -/
theorem busyRelay_changes : ¬∀ error relay',
    (RelayOp.subscribe "s" []).call (fun _ => fillBytes 32 0) noSchnorr busyRelay =
      .error error relay' → Unchanged busyRelay relay' := by
  rw [busyRelay, unchanged_iff _ _ (valid_reached _ _ _)]
  apply not_not.mpr
  have hqueue : busyRelay.queue.length = 1 := by decide
  refine ⟨by decide, .inr (by decide), ?_, .inl (by decide)⟩
  exact Nat.le_add_right_of_le hqueue.ge

end RelayOp

end Hyf.Nostr
