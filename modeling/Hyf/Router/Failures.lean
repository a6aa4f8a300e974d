import Hyf.Router.HopLimit

/-!
# What a routing error leaves behind

A plan is written as a whole or not at all, and a link table that is full is not touched, so after an
error the router and the slice are what they were. A tick sets the clock before it looks at the slice,
and is the only exception (`errors_atomic_iff`).
-/

namespace Hyf

namespace Router

variable {maxLinks maxSeen : ℕ}

/-- After an error the router and the slice are as before the call. -/
def KeepsOnError (router : Router maxLinks maxSeen) (out : List RouterCommand)
    (after : Emission × Router maxLinks maxSeen) : Prop :=
  ∀ error, after.1.result = .error error → after.2 = router ∧ after.1.out = out

theorem out_of_writePlan_error {plan out : List RouterCommand} {error : RouterError}
    (h : (writePlan plan out).result = .error error) : (writePlan plan out).out = out := by
  unfold writePlan at h ⊢
  split_ifs at h ⊢
  · rfl

theorem out_of_writeResult_error {plan : Except RouterError (List RouterCommand)}
    {out : List RouterCommand} {error : RouterError}
    (h : (writeResult plan out).result = .error error) : (writeResult plan out).out = out := by
  cases plan with
  | ok plan => exact out_of_writePlan_error h
  | error refused => rfl

/-- Routing a stored message writes a plan, or refuses the message. -/
theorem out_of_forwardStored_error {router : Router maxLinks maxSeen} {envelope : HyfEnvelopeRef}
    {out : List RouterCommand} {error : RouterError}
    (h : (router.forwardStored envelope out).result = .error error) :
    (router.forwardStored envelope out).out = out := by
  by_cases hvalid : ValidEnvelope envelope
  · rw [forwardStored_eq hvalid] at h ⊢
    exact out_of_writePlan_error h
  obtain hdrop | ⟨refused, hrefused⟩ := @forwardStored_of_invalid _ _ router envelope hvalid out
  · rw [hdrop] at h ⊢
    exact out_of_writePlan_error h
  · rw [hrefused]

/-- The router changes when a link does, and at a tick. -/
theorem router_of_handleEvent_error {router : Router maxLinks maxSeen} {event : RouterEvent}
    {out : List RouterCommand} {error : RouterError}
    (h : (router.handleEvent event out).1.result = .error error) (hevent : ∀ now, event ≠ .tick now) :
    (router.handleEvent event out).2 = router := by
  have hset : ∀ linkId up, (∃ router', router.setLinkState linkId up = .ok router') ∨
      ∃ error, router.setLinkState linkId up = .error error := by
    intro linkId up
    cases router.setLinkState linkId up with
    | ok router' => exact .inl ⟨router', rfl⟩
    | error error => exact .inr ⟨error, rfl⟩
  cases event with
  | localSubmit envelope => rfl
  | tick now => exact absurd rfl (hevent now)
  | link event =>
    cases event with
    | frame frame => rfl
    | up linkId =>
      obtain ⟨router', hok⟩ | ⟨refused, hrefused⟩ := hset linkId true
      · simp only [handleEvent, hok] at h
        cases h
      · simp only [handleEvent, hrefused]
    | down linkId =>
      obtain ⟨router', hok⟩ | ⟨refused, hrefused⟩ := hset linkId false
      · simp only [handleEvent, hok] at h
        cases h
      · simp only [handleEvent, hrefused]

/-- A tick fails without room for its command, after it has set the clock. -/
theorem keepsOnError_tick (router : Router maxLinks maxSeen) (now : TimestampMs)
    (out : List RouterCommand) : router.KeepsOnError out (router.handleEvent (.tick now) out) ↔
      ¬(out = [] ∧ now ≠ router.nowMs) := by
  simp only [KeepsOnError, handleEvent, emit, List.isEmpty_iff]
  by_cases hempty : out = []
  · simp only [hempty, true_and, not_ne_iff]
    constructor
    · intro h
      exact congrArg nowMs (h _ rfl).1
    · rintro rfl error -
      exact ⟨rfl, rfl⟩
  · simp [hempty]

/-- **A routing error leaves the router and the slice unchanged**, except that a tick without room for
its command has moved the clock. -/
theorem errors_atomic_iff (router : Router maxLinks maxSeen) (out : List RouterCommand) :
    (∀ event, router.KeepsOnError out (router.handleEvent event out) ↔
      ¬(out = [] ∧ ∃ now, event = .tick now ∧ now ≠ router.nowMs)) ∧
    ∀ envelope, router.KeepsOnError out (router.forwardStored envelope out, router) := by
  constructor
  · intro event
    by_cases htick : ∃ now, event = .tick now
    · obtain ⟨now, rfl⟩ := htick
      rw [keepsOnError_tick]
      simp
    · rw [not_exists] at htick
      refine iff_of_true ?_ fun ⟨_, now, hevent, _⟩ => htick now hevent
      intro error herror
      refine ⟨router_of_handleEvent_error herror htick, ?_⟩
      rw [handleEvent_eq] at herror ⊢
      exact out_of_writeResult_error herror
  · intro envelope error herror
    exact ⟨rfl, out_of_forwardStored_error herror⟩

/-- The clock has moved to 300, and the tick is reported as failed. -/
theorem failed_tick_moves_clock :
    (sampleRouter.handleEvent (.tick 300) []).1.result = .error (.outputTooSmall 0 1) ∧
      sampleRouter.nowMs = 0 ∧ (sampleRouter.handleEvent (.tick 300) []).2.nowMs = 300 ∧
      ¬sampleRouter.KeepsOnError [] (sampleRouter.handleEvent (.tick 300) []) := by
  refine ⟨rfl, rfl, rfl, ?_⟩
  rw [keepsOnError_tick]
  decide

end Router

end Hyf
