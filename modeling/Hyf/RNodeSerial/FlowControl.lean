import Hyf.RNodeSerial.Failures

/-!
# Flow control

What a run did is read off from its calls: a send that returned `Ok` is on record, and so is every report
that a poll took off the arrivals and applied. `armed` says of a history what the modem's last word was:
it is ready, and nothing was sent since. With flow control on, the link's `interface_ready` is `armed` of
the history, and every send in the history was made while it was armed. That is the invariant of all
runs, and what the claim about the order of sends and `Ready` reports is read off from.
-/

namespace Hyf.RNodeSerial

open Rns

/-! ## Histories -/

/-- A send returned `Ok`, or a report was applied. -/
inductive LinkRecord where
  | sent (bytes : List UInt8)
  | applied (event : RNodeEvent)
  deriving DecidableEq

/-- A frame was written. -/
def LinkRecord.isSent : LinkRecord → Bool
  | .sent _ => true
  | .applied _ => false

/-- Whether the modem is ready after one more record. -/
def armedAfter (ready : Bool) : LinkRecord → Bool
  | .applied .ready => true
  | .applied (.error _) => false
  | .applied _ => ready
  | .sent _ => false

/-- Whether the last word of a history is a `Ready` report. -/
def armed (history : List LinkRecord) : Bool := history.foldl armedAfter false

/-- How many frames were written. -/
def sends (history : List LinkRecord) : ℕ := history.countP LinkRecord.isSent

/-- How many `Ready` commands were applied. -/
def readies (history : List LinkRecord) : ℕ := history.count (.applied .ready)

/-- Every send in the history was made while the modem was ready. -/
def WellPaced (history : List LinkRecord) : Prop :=
  ∀ before bytes after, history = before ++ .sent bytes :: after → armed before = true

/-- The last record decides, given what was before. -/
theorem armed_concat (history : List LinkRecord) (entry : LinkRecord) :
    armed (history ++ [entry]) = armedAfter (armed history) entry := by
  rw [armed, armed, List.foldl_concat]

/-- The beginning of a well paced history is well paced. -/
theorem WellPaced.of_append {history rest : List LinkRecord} (h : WellPaced (history ++ rest)) :
    WellPaced history := by
  intro before bytes after hsplit
  refine h before bytes (after ++ rest) ?_
  rw [hsplit, List.append_assoc, List.cons_append]

/-- A record at the end: a send needs the modem to be ready. -/
theorem WellPaced.concat {history : List LinkRecord} {entry : LinkRecord} (h : WellPaced history)
    (hentry : entry.isSent = true → armed history = true) : WellPaced (history ++ [entry]) := by
  intro before bytes after hsplit
  rcases LoggedSteps.concat_eq_append_cons hsplit with ⟨rest, hhistory, -⟩ | ⟨rfl, rfl, -⟩
  · exact h before bytes rest hhistory
  · exact hentry rfl

/-- Each send has used up a `Ready` report, and one more is left while the modem is ready. -/
theorem WellPaced.sends_le {history : List LinkRecord} (h : WellPaced history) :
    sends history + (armed history).toNat ≤ readies history := by
  induction history using List.reverseRecOn with
  | nil => decide
  | append_singleton history entry ih =>
    have hbefore := ih h.of_append
    rw [armed_concat, sends, readies, List.countP_append, List.count_append,
      List.countP_singleton, List.count_singleton]
    rw [sends, readies] at hbefore
    cases entry with
    | sent bytes =>
      have harmed := h history bytes [] rfl
      rw [harmed] at hbefore
      simpa [LinkRecord.isSent, armedAfter] using hbefore
    | applied event =>
      have hle := Bool.toNat_le (armed history)
      cases event <;> simp [LinkRecord.isSent, armedAfter] <;> omega

/-- After a record that is not ready, only a `Ready` report makes the modem ready again. -/
theorem ready_mem_of_armed (before : List LinkRecord) {between : List LinkRecord}
    {entry : LinkRecord} (hentry : ∀ ready, armedAfter ready entry = false)
    (h : armed (before ++ entry :: between) = true) : .applied .ready ∈ between := by
  induction between using List.reverseRecOn with
  | nil =>
    rw [armed_concat, hentry] at h
    cases h
  | append_singleton between last ih =>
    rw [← List.cons_append, ← List.append_assoc, armed_concat] at h
    rw [List.mem_append, List.mem_singleton]
    cases last with
    | sent bytes => cases h
    | applied event =>
      cases event with
      | ready => exact .inr rfl
      | error error => cases h
      | _ => exact .inl (ih h)

/-! ## What the polls apply -/

/-- The report that an arrival brings, if it brings one. -/
def Arrival.event : Arrival → Option RNodeEvent
  | .frame taken =>
    if taken.command = kissCmdData then none else (parseCommandFrame taken).toOption
  | .garbled _ | .fault _ | .gap => none

/-- A pending frame that is no data frame brings the report it parses to. -/
theorem event_pending_ok {capacity : ℕ} {pending : PendingFrame capacity} {event : RNodeEvent}
    (hcommand : pending.command ≠ kissCmdData)
    (hparse : parseCommandFrame ⟨pending.command, pending.payload⟩ = .ok event) :
    (Arrival.frame pending.frame).event = some event := by
  rw [Arrival.event, if_neg (show ¬pending.frame.command = _ from hcommand),
    show parseCommandFrame pending.frame = _ from hparse]
  rfl

/-- It brings none if it does not parse. -/
theorem event_pending_error {capacity : ℕ} {pending : PendingFrame capacity} {error : RNodeError}
    (hcommand : pending.command ≠ kissCmdData)
    (hparse : parseCommandFrame ⟨pending.command, pending.payload⟩ = .error error) :
    (Arrival.frame pending.frame).event = none := by
  rw [Arrival.event, if_neg (show ¬pending.frame.command = _ from hcommand),
    show parseCommandFrame pending.frame = _ from hparse]
  rfl

/-- The reports among arrivals, in order. -/
def reports (arrivals : List Arrival) : List RNodeEvent := arrivals.filterMap Arrival.event

namespace RNodeSerialLink

variable {frameMax : ℕ}

/-- From the first link to the second, arrivals were taken off the front, and the reports among them were
applied. -/
def Drains (link link' : RNodeSerialLink frameMax) : Prop :=
  ∃ taken, link.arrivals = taken ++ link'.arrivals ∧
    link'.state = (reports taken).foldl RNodeState.applyEvent link.state

/-- A link drains itself without taking anything. -/
theorem Drains.refl (link : RNodeSerialLink frameMax) : Drains link link := ⟨[], rfl, rfl⟩

/-- What is taken by two drains is taken in order. -/
theorem Drains.trans {first second third : RNodeSerialLink frameMax} (h : Drains first second)
    (h' : Drains second third) : Drains first third := by
  obtain ⟨taken, harrivals, hstate⟩ := h
  obtain ⟨taken', harrivals', hstate'⟩ := h'
  refine ⟨taken ++ taken', ?_, ?_⟩
  · rw [harrivals, harrivals', List.append_assoc]
  · rw [hstate', hstate, reports, reports, reports, List.filterMap_append, List.foldl_append]

instance : IsPreorder (RNodeSerialLink frameMax) Drains where
  refl := Drains.refl
  trans _ _ _ := Drains.trans

/-- An arrival that brings no report is taken off and changes nothing else. -/
theorem Drains.of_cons {link link' : RNodeSerialLink frameMax} {arrival : Arrival}
    (harrivals : link.arrivals = arrival :: link'.arrivals) (hnone : arrival.event = none)
    (hstate : link'.state = link.state) : Drains link link' := by
  refine ⟨[arrival], harrivals, ?_⟩
  rw [reports, List.filterMap_cons_none hnone]
  exact hstate

/-- Taking a frame up leaves it in front; anything else that arrives is passed over. -/
theorem drains_takeUp (nowMs : TimestampMs) : Moves Drains (takeUp nowMs : LinkM frameMax Bool) := by
  constructor
  intro link
  cases hfront : link.arrivals with
  | nil =>
    obtain ⟨link', htake, hleaves⟩ := takeUp_nil nowMs hfront
    obtain ⟨reads, decoder, pending, rfl⟩ := hleaves.resumed_eq
    rw [htake]
    exact ⟨[], hfront.trans hleaves.arrivals_eq.symm, rfl⟩
  | cons arrival rest =>
    obtain ⟨reads, decoder, hrest, -, htook⟩ := takeUp_cons nowMs hfront
    have hpassed : (link.resumed reads decoder none).arrivals = rest := by
      rw [arrivals_none rfl]
      exact hrest
    match arrival, htook with
    | .frame frame, ⟨pending, hframe, htake⟩ =>
      have hkept : (link.resumed reads decoder (some pending)).arrivals = .frame frame :: rest := by
        rw [arrivals_some rfl, hframe]
        exact congrArg _ hrest
      rw [htake]
      exact ⟨[], hfront.trans hkept.symm, rfl⟩
    | .garbled error, htake =>
      rw [show takeUp nowMs link = _ from htake]
      exact .of_cons (hpassed ▸ hfront) rfl rfl
    | .fault error, htake =>
      rw [show takeUp nowMs link = _ from htake]
      exact .of_cons (hpassed ▸ hfront) rfl rfl
    | .gap, htake =>
      rw [show takeUp nowMs link = _ from htake]
      exact .of_cons (hpassed ▸ hfront) rfl rfl

/-- A pending report is applied once it parses. -/
theorem drains_drainPendingCommand :
    Moves Drains (drainPendingCommand : LinkM frameMax (Option RNodeSerialEvent)) := by
  constructor
  intro link
  cases hpending : link.pending with
  | none =>
    have hrun : drainPendingCommand link = .ok none link := by
      rw [drainPendingCommand, ByteCodec.run_get_bind, hpending]
      rfl
    rw [hrun]
    exact Drains.refl link
  | some pending =>
    by_cases hcommand : pending.command = kissCmdData
    · have hrun : drainPendingCommand link = .ok none link := by
        rw [drainPendingCommand, ByteCodec.run_get_bind, hpending]
        simp only
        rw [if_pos hcommand]
        rfl
      rw [hrun]
      exact Drains.refl link
    · cases hparse : parseCommandFrame ⟨pending.command, pending.payload⟩ with
      | error error =>
        rw [drainPendingCommand_error hpending hcommand hparse]
        exact Drains.refl link
      | ok event =>
        rw [drainPendingCommand_ok hpending hcommand hparse]
        refine ⟨[.frame pending.frame], arrivals_some hpending, ?_⟩
        rw [reports, List.filterMap_cons_some (event_pending_ok hcommand hparse)]
        rfl

/-! The drains of data frames clear the pending slot at most, and only when a data frame is there. -/

/-- The pending slot may have been cleared. -/
def Cleared (link link' : RNodeSerialLink frameMax) : Prop :=
  link' = link ∨ link' = { link with pending := none }

instance : IsPreorder (RNodeSerialLink frameMax) Cleared where
  refl _ := .inl rfl
  trans first second third h h' := by
    rcases h with rfl | rfl
    · exact h'
    · rcases h' with rfl | rfl
      · exact .inr rfl
      · exact .inr rfl

/-- Dropping the pending frame clears it. -/
theorem cleared_clearPending : Moves Cleared (clearPending : LinkM frameMax Unit) :=
  Moves.of_modify fun _ => .inr rfl

/-- No data frame is pending. -/
def NoData (link : RNodeSerialLink frameMax) : Prop :=
  ∀ pending, link.pending = some pending → pending.command ≠ kissCmdData

/-- A step that clears the front, and does nothing when no data is in front, drains. -/
theorem drains_of_cleared {link link' : RNodeSerialLink frameMax} (hcleared : Cleared link link')
    (hidle : NoData link → link' = link) : Drains link link' := by
  by_cases hdata : NoData link
  · obtain rfl := hidle hdata
    exact Drains.refl _
  · rcases hcleared with rfl | rfl
    · exact Drains.refl _
    · obtain ⟨pending, hpending, hcommand⟩ : ∃ pending, link.pending = some pending ∧
          pending.command = kissCmdData := by
        simpa [NoData] using hdata
      refine .of_cons (arrivals_some hpending) ?_ rfl
      rw [Arrival.event, if_pos (show pending.frame.command = _ from hcommand)]

section Idle

variable {link : RNodeSerialLink frameMax} (h : NoData link)

include h

/-- `drain_pending_frame` does nothing when no data is pending. -/
theorem drainPendingFrame_idle (output : List UInt8) :
    drainPendingFrame output link = .ok none link := by
  rw [drainPendingFrame, ByteCodec.run_get_bind]
  cases hpending : link.pending with
  | none => rfl
  | some pending =>
    dsimp only
    rw [if_pos (h pending hpending)]
    rfl

/-- `drain_pending_hyf_frame` does nothing when no data is pending. -/
theorem drainPendingHyfFrame_idle (output : List UInt8) :
    drainPendingHyfFrame output link = .ok none link := by
  rw [drainPendingHyfFrame, ByteCodec.run_get_bind]
  cases hpending : link.pending with
  | none => rfl
  | some pending =>
    dsimp only
    rw [if_pos (h pending hpending)]
    rfl

/-- `drain_pending_raw_rns_frame` does nothing when no data is pending. -/
theorem drainPendingRawRnsFrame_idle (output : List UInt8) (params : RnsWrapParams) :
    drainPendingRawRnsFrame output params link = .ok none link := by
  rw [drainPendingRawRnsFrame, ByteCodec.run_get_bind]
  cases hpending : link.pending with
  | none => rfl
  | some pending =>
    dsimp only
    rw [if_pos (h pending hpending)]
    rfl

/-- The drain of the raw driver does nothing when no data is pending. -/
theorem drainPendingWithProvider_idle {π : Type} (wrapParams : RnsWrapParamsProvider π)
    (provider : π) (output : List UInt8) :
    RNodeRawRnsSerialDriver.drainPendingRawRnsFrameWithProvider wrapParams output ⟨link, provider⟩ =
      .ok none ⟨link, provider⟩ := by
  rw [RNodeRawRnsSerialDriver.drainPendingRawRnsFrameWithProvider, ByteCodec.run_get_bind]
  dsimp only
  cases hpending : link.pending with
  | none => rfl
  | some pending =>
    dsimp only
    rw [if_pos (h pending hpending)]
    rfl

end Idle

/-- The drains of the source drain. -/
theorem keptByDrains_drains : KeptByDrains (@Drains frameMax) where
  takeUp := drains_takeUp
  command := drains_drainPendingCommand
  frame output := by
    constructor
    intro link
    refine drains_of_cleared
      ((moves_drainPendingFrame cleared_clearPending output).state_related link) fun hidle => ?_
    rw [drainPendingFrame_idle hidle, EStateM.Result.state_ok]
  hyfFrame output := by
    constructor
    intro link
    refine drains_of_cleared
      ((moves_drainPendingHyfFrame cleared_clearPending output).state_related link) fun hidle => ?_
    rw [drainPendingHyfFrame_idle hidle, EStateM.Result.state_ok]
  rawFrame output params := by
    constructor
    intro link
    refine drains_of_cleared
      ((moves_drainPendingRawRnsFrame cleared_clearPending output params).state_related link)
      fun hidle => ?_
    rw [drainPendingRawRnsFrame_idle hidle, EStateM.Result.state_ok]
  providerFrame π wrapParams output := by
    constructor
    intro driver
    refine drains_of_cleared ((RNodeRawRnsSerialDriver.moves_drainPending cleared_clearPending
      wrapParams output).state_related driver) fun hidle => ?_
    rw [drainPendingWithProvider_idle hidle, EStateM.Result.state_ok]

/-! ## Runs -/

/-- What a call took off the arrivals, by what it left of them. -/
def taken (link link' : RNodeSerialLink frameMax) : List Arrival :=
  link.arrivals.take (link.arrivals.length - link'.arrivals.length)

/-- What stood in front of the rest is what was taken. -/
theorem taken_eq {link link' : RNodeSerialLink frameMax} {taken : List Arrival}
    (h : link.arrivals = taken ++ link'.arrivals) : link.taken link' = taken := by
  rw [RNodeSerialLink.taken, h, List.length_append, Nat.add_sub_cancel, List.take_left]

/-- What was taken stood in front, and its reports were applied to the state. -/
theorem Drains.taken_spec {link link' : RNodeSerialLink frameMax} (h : Drains link link') :
    link.arrivals = link.taken link' ++ link'.arrivals ∧
      link'.state = (reports (link.taken link')).foldl RNodeState.applyEvent link.state := by
  obtain ⟨taken, harrivals, hstate⟩ := h
  rw [taken_eq harrivals]
  exact ⟨harrivals, hstate⟩

end RNodeSerialLink

open RNodeSerialLink

variable {frameMax : ℕ} {π : Type}

/-- What goes on record for a call: a send that returns `Ok`, and the reports that a poll applies. -/
def LinkCall.records (call : LinkCall π) (link : RNodeSerialLink frameMax) : List LinkRecord :=
  match call with
  | port .. => []
  | send bytes =>
    match sendGatewayBytes bytes link with
    | .ok _ _ => [.sent bytes]
    | .error _ _ => []
  | poll call => (reports (link.taken (call.run link).2)).map .applied

/-- The history of a sequence of calls. -/
def historyOf (link : RNodeSerialLink frameMax) : List (LinkCall π) → List LinkRecord
  | [] => []
  | call :: calls => call.records link ++ historyOf (call.run link) calls

/-- One more call adds its records to the history. -/
theorem historyOf_concat (link : RNodeSerialLink frameMax) (calls : List (LinkCall π))
    (call : LinkCall π) : historyOf link (calls ++ [call]) =
      historyOf link calls ++ call.records (LinkCall.step.final link calls) := by
  induction calls generalizing link with
  | nil => exact List.append_nil _
  | cons first calls ih =>
    rw [List.cons_append, historyOf, ih, historyOf, List.append_assoc]
    rfl

namespace RNodeSerialLink

/-! ### The reports of an event poll -/

/-- An arrival without a report, whether it is taken or kept, puts nothing on record. -/
theorem reports_taken_nil {link link' : RNodeSerialLink frameMax} {arrival : Arrival}
    {rest : List Arrival} (hfront : link.arrivals = arrival :: rest) (hnone : arrival.event = none)
    (hleft : link'.arrivals = arrival :: rest ∨ link'.arrivals = rest) :
    reports (link.taken link') = [] := by
  rcases hleft with hkept | hpassed
  · have htaken : link.taken link' = [] := taken_eq (hfront.trans hkept.symm)
    rw [htaken]
    rfl
  · have htaken : link.taken link' = [arrival] := taken_eq (by rw [hfront, hpassed]; rfl)
    rw [htaken, reports, List.filterMap_cons_none hnone, List.filterMap_nil]

/-- An event poll applied this report and no other, and returned it; or it applied none, and returned
nothing, a data frame or an error. -/
inductive EventPolled (link : RNodeSerialLink frameMax)
    (result : EStateM.Result RNodeSerialError (RNodeSerialLink frameMax) (Option RNodeSerialEvent)) :
    Prop
  | report (event : RNodeEvent) (outcome_eq : result.outcome = .ok (some (.fromRnode event)))
      (reports_eq : reports (link.taken result.state) = [event])
  | nothing (outcome_ne : ∀ event, result.outcome = .ok (some event) → ∃ frame, event = .frame frame)
      (reports_eq : reports (link.taken result.state) = [])

/-- What is polled when a frame is in front. -/
theorem eventPolled_frame (nowMs : TimestampMs) (output : List UInt8)
    {link : RNodeSerialLink frameMax} {frame : KissFrameRef} {rest : List Arrival}
    (hfront : link.arrivals = .frame frame :: rest) :
    link.EventPolled (pollEventAt nowMs output link) := by
  obtain ⟨taken, pending, htake, hleaves, hpending, rfl⟩ := takeUp_frame nowMs hfront
  have hcleared := (advanced_cleared hleaves.arrivals_eq hpending).arrivals_eq
  rw [pollEventAt_taken htake hpending]
  by_cases hcommand : pending.command = kissCmdData
  · have hnone : (Arrival.frame pending.frame).event = none := if_pos hcommand
    rw [if_pos hcommand]
    rcases Nat.lt_or_ge output.length pending.payload.length with hshort | hroom
    · have hrun := drainPendingFrame_short hpending hcommand hshort
      rw [ByteCodec.run_bind_of_error hrun]
      exact .nothing (by rintro event ⟨⟩)
        (reports_taken_nil hfront hnone (.inl hleaves.arrivals_eq))
    · have hrun := drainPendingFrame_ok hpending hcommand hroom
      rw [ByteCodec.run_bind_of_ok hrun]
      refine .nothing ?_ (reports_taken_nil hfront hnone (.inr hcleared))
      rintro event ⟨⟩
      exact ⟨_, rfl⟩
  · rw [if_neg hcommand]
    cases hparse : parseCommandFrame ⟨pending.command, pending.payload⟩ with
    | error error =>
      have hnone := event_pending_error hcommand hparse
      rw [drainPendingCommand_error hpending hcommand hparse]
      exact .nothing (by rintro event ⟨⟩)
        (reports_taken_nil hfront hnone (.inl hleaves.arrivals_eq))
    | ok event =>
      have hgone := (advanced_applied hleaves.arrivals_eq hpending event).arrivals_eq
      have htaken : link.taken (taken.applied event) = [.frame pending.frame] :=
        taken_eq (by rw [hfront, hgone]; rfl)
      rw [drainPendingCommand_ok hpending hcommand hparse]
      refine .report event rfl ?_
      rw [EStateM.Result.state_ok, htaken, reports,
        List.filterMap_cons_some (event_pending_ok hcommand hparse)]
      rfl

/-- **What an event poll puts on record** is the report that it returns. -/
theorem eventPolled (nowMs : TimestampMs) (output : List UInt8) (link : RNodeSerialLink frameMax) :
    link.EventPolled (pollEventAt nowMs output link) := by
  -- a poll that takes no frame up ends there
  have hidle {link' : RNodeSerialLink frameMax} (htake : takeUp nowMs link = .ok false link') :
      pollEventAt nowMs output link = .ok none link' := by
    unfold pollEventAt
    rw [ByteCodec.run_bind_of_ok htake]
    rfl
  have hfails {error : RNodeSerialError} {link' : RNodeSerialLink frameMax}
      (htake : takeUp nowMs link = .error error link') :
      pollEventAt nowMs output link = .error error link' := by
    unfold pollEventAt
    rw [ByteCodec.run_bind_of_error htake]
  cases hfront : link.arrivals with
  | nil =>
    obtain ⟨link', htake, hleaves⟩ := takeUp_nil nowMs hfront
    have htaken : link.taken link' = [] := taken_eq (hfront.trans hleaves.arrivals_eq.symm)
    rw [hidle htake]
    refine .nothing (by rintro event ⟨⟩) ?_
    rw [EStateM.Result.state_ok, htaken]
    rfl
  | cons arrival rest =>
    obtain ⟨reads, decoder, hrest, -, htook⟩ := takeUp_cons nowMs hfront
    have hpassed : (link.resumed reads decoder none).arrivals = rest := by
      rw [arrivals_none rfl]
      exact hrest
    cases arrival with
    | frame frame => exact eventPolled_frame nowMs output hfront
    | garbled error =>
      rw [hfails htook]
      exact .nothing (by rintro event ⟨⟩) (reports_taken_nil hfront rfl (.inr hpassed))
    | fault error =>
      rw [hfails htook]
      exact .nothing (by rintro event ⟨⟩) (reports_taken_nil hfront rfl (.inr hpassed))
    | gap =>
      rw [hidle htook]
      exact .nothing (by rintro event ⟨⟩) (reports_taken_nil hfront rfl (.inr hpassed))

/-! ## The invariant -/

/-- With flow control on, readiness follows the history, and the history is well paced. -/
structure Paced (link : RNodeSerialLink frameMax) (history : List LinkRecord) : Prop where
  flowControl : link.state.flowControl = true
  ready_eq : link.state.interfaceReady = armed history
  wellPaced : WellPaced history

/-- Applying reports keeps readiness and history in step. -/
theorem paced_applied (events : List RNodeEvent) {state : RNodeState} {history : List LinkRecord}
    (hflow : state.flowControl = true) (hready : state.interfaceReady = armed history)
    (hpaced : WellPaced history) :
    (events.foldl RNodeState.applyEvent state).flowControl = true ∧
      (events.foldl RNodeState.applyEvent state).interfaceReady =
        armed (history ++ events.map .applied) ∧
      WellPaced (history ++ events.map .applied) := by
  induction events generalizing state history with
  | nil => exact ⟨hflow, by simpa using hready, by simpa using hpaced⟩
  | cons event events ih =>
    have hflow' : (state.applyEvent event).flowControl = true := by
      rw [RNodeState.applyEvent_flowControl, hflow]
    have hready' : (state.applyEvent event).interfaceReady = armed (history ++ [.applied event]) := by
      rw [armed_concat, ← hready]
      cases event <;> rfl
    have hpaced' : WellPaced (history ++ [.applied event]) := hpaced.concat fun hsent => by cases hsent
    simpa using ih hflow' hready' hpaced'

variable {link : RNodeSerialLink frameMax} {history : List LinkRecord}

/-- With flow control on, the link is up exactly when the modem is ready. -/
theorem isUp_eq_of_flowControl (h : link.state.flowControl = true) :
    link.isUp = link.state.interfaceReady := by
  rw [isUp, RNodeState.canTransmit, h, Bool.not_true, Bool.false_or]

/-- A send that returns `Ok` was made while the link was up, and leaves it down. -/
theorem Paced.sent (h : link.Paced history) {bytes : List UInt8} {link' : RNodeSerialLink frameMax}
    (hsend : sendGatewayBytes bytes link = .ok () link') :
    link.isUp = true ∧ link'.isUp = false ∧ link'.Paced (history ++ [.sent bytes]) := by
  rcases sendGatewayBytes_cases link bytes with
    ⟨error, hrefused⟩ | ⟨payload, error, io, -, -, hfailed⟩ | ⟨payload, io, hadmits, -, hsent⟩
  · rw [hrefused] at hsend
    cases hsend
  · rw [hfailed] at hsend
    cases hsend
  · rw [hsent] at hsend
    cases hsend
    have hup : link.isUp = true := hadmits.canTransmit
    have hflow : (link.sentLink io).state.flowControl = true := by
      rw [sentLink, RNodeState.markTxStarted_flowControl, h.flowControl]
    have hbusy : (link.sentLink io).state.interfaceReady = false := by
      rw [sentLink, RNodeState.markTxStarted, if_pos h.flowControl]
    refine ⟨hup, (isUp_eq_of_flowControl hflow).trans hbusy, hflow, ?_, h.wellPaced.concat fun _ => ?_⟩
    · rw [hbusy, armed_concat]
      rfl
    · rw [← h.ready_eq, ← isUp_eq_of_flowControl h.flowControl, hup]

/-- A send that fails leaves readiness as it is. -/
theorem Paced.failed (h : link.Paced history) {bytes : List UInt8} {error : RNodeSerialError}
    {link' : RNodeSerialLink frameMax} (hsend : sendGatewayBytes bytes link = .error error link') :
    link'.Paced history := by
  rcases sendGatewayBytes_cases link bytes with
    ⟨error, hrefused⟩ | ⟨payload, error, io, -, -, hfailed⟩ | ⟨payload, io, -, -, hsent⟩
  · rw [hrefused] at hsend
    cases hsend
    exact h
  · rw [hfailed] at hsend
    cases hsend
    exact ⟨h.flowControl, h.ready_eq, h.wellPaced⟩
  · rw [hsent] at hsend
    cases hsend

/-- A poll applies what it puts on record. -/
theorem Paced.polled (h : link.Paced history) (poll : Poll π) :
    (poll.run link).2.Paced
      (history ++ (reports (link.taken (poll.run link).2)).map .applied) := by
  obtain ⟨-, hstate⟩ := (poll.kept_run keptByDrains_drains link).taken_spec
  obtain ⟨hflow, hready, hwell⟩ := paced_applied (reports (link.taken (poll.run link).2))
    h.flowControl h.ready_eq h.wellPaced
  exact ⟨by rw [hstate, hflow], by rw [hstate, hready], hwell⟩

/-- **One call** keeps readiness and history in step. -/
theorem Paced.call (h : link.Paced history) (call : LinkCall π) :
    (call.run link).Paced (history ++ call.records link) := by
  cases call with
  | port reads writes =>
    rw [LinkCall.records, List.append_nil]
    exact ⟨h.flowControl, h.ready_eq, h.wellPaced⟩
  | send bytes =>
    rw [LinkCall.records, LinkCall.run]
    cases hsend : sendGatewayBytes bytes link with
    | ok _ link' => exact (h.sent hsend).2.2
    | error error link' =>
      rw [List.append_nil]
      exact h.failed hsend
  | poll poll => exact h.polled poll

/-- A new link with flow control is paced. -/
theorem paced_of_new {config : RNodeSerialConfig} {io : SerialPort}
    (hnew : new config io = .ok link) (hflow : config.flowControl = true) : link.Paced [] := by
  obtain ⟨-, -, hstate, -⟩ := new_eq_ok hnew
  refine ⟨?_, ?_, ?_⟩
  · rw [hstate]
    exact hflow
  · rw [hstate, RNodeState.new, hflow]
    rfl
  · intro before bytes after hsplit
    cases before <;> cases hsplit

/-- **Every run** keeps readiness and history in step. -/
theorem Paced.run (h : link.Paced []) (calls : List (LinkCall π)) :
    (LinkCall.step.final link calls).Paced (historyOf link calls) := by
  induction calls using List.reverseRecOn with
  | nil => exact h
  | append_singleton calls call ih =>
    rw [historyOf_concat, Mealy.final_append]
    exact ih.call call

/-- The link is up exactly when a payload within the limit is not refused for flow control. -/
theorem isUp_iff_not_blocked {bytes payload : List UInt8}
    (hpayload : link.payloadForSend bytes = .ok payload) (hlen : payload.length ≤ link.config.mtu) :
    link.isUp = true ↔ sendGatewayBytes bytes link ≠ .error .flowControlBlocked link := by
  constructor
  · intro hup hrefused
    have hadmits : link.Admits bytes payload := ⟨hpayload, hlen, hup⟩
    -- an error of an admitted send comes from a write, which the port has then seen
    rcases writePieces_cases (framePieces kissCmdData payload) link.io with
      ⟨io, hwrote⟩ | ⟨done, rest, error, io, hpieces, hwrote⟩
    · rw [sendGatewayBytes_written hadmits (by rw [writeKissFrame_eq, hwrote.run_eq])] at hrefused
      cases hrefused
    · have hfailed : writeKissFrame kissCmdData payload link.io = .error error io := by
        rw [writeKissFrame_eq, hpieces, hwrote.run_eq]
      rw [sendGatewayBytes_failed hadmits hfailed, EStateM.Result.error.injEq] at hrefused
      exact hwrote.port_ne (congrArg RNodeSerialLink.io hrefused.2)
  · intro hsend
    by_contra hup
    apply hsend
    rw [sendGatewayBytes_of_payload hpayload, if_neg (Nat.not_lt.mpr hlen)]
    rw [isUp] at hup
    rw [if_pos (by simpa using hup)]

/-- What flow control promises of a link and its history: the sends never outnumber the `Ready` reports
applied before them; between two sends, and between a hardware error and the next send, a `Ready` report
was applied; a send succeeds only while the link is up, and leaves it down; and the link is up exactly
when it does not refuse the next sendable payload for flow control. An event poll returns the report that
it puts on record. -/
structure FlowControlled (link : RNodeSerialLink frameMax) (history : List LinkRecord) : Prop where
  sends_le : ∀ before, before <+: history → sends before ≤ readies before
  ready_between : ∀ before between after bytes bytes',
    history = before ++ .sent bytes :: (between ++ .sent bytes' :: after) → .applied .ready ∈ between
  ready_after_error : ∀ before between after error bytes,
    history = before ++ .applied (.error error) :: (between ++ .sent bytes :: after) →
      .applied .ready ∈ between
  sent_down : ∀ bytes link', sendGatewayBytes bytes link = .ok () link' →
    link.isUp = true ∧ link'.isUp = false
  isUp_iff : ∀ bytes payload, link.payloadForSend bytes = .ok payload →
    payload.length ≤ link.config.mtu →
      (link.isUp = true ↔ sendGatewayBytes bytes link ≠ .error .flowControlBlocked link)
  event_polled : ∀ nowMs output, link.EventPolled (pollEventAt nowMs output link)

/-- **Flow control** holds after every sequence of calls to a link that is configured with it, over any
incoming bytes and any failures of the port: of the link, and of what the calls put on record. -/
theorem flowControlled_of_run {config : RNodeSerialConfig} {io : SerialPort}
    {link : RNodeSerialLink frameMax} (hnew : new config io = .ok link)
    (hflow : config.flowControl = true) (calls : List (LinkCall π)) :
    (LinkCall.step.final link calls).FlowControlled (historyOf link calls) := by
  have hpaced := (paced_of_new hnew hflow).run calls
  have hwell := hpaced.wellPaced
  refine ⟨?_, ?_, ?_, ?_, fun _ _ => isUp_iff_not_blocked, fun nowMs output => eventPolled nowMs output _⟩
  · rintro before ⟨rest, hrest⟩
    have hle := (hrest ▸ hwell : WellPaced (before ++ rest)).of_append.sends_le
    omega
  · intro before between after bytes bytes' hhistory
    have hbusy (ready : Bool) : armedAfter ready (.sent bytes) = false := rfl
    apply ready_mem_of_armed before hbusy
    apply hwell _ bytes' after
    rw [hhistory, List.append_assoc, List.cons_append]
  · intro before between after error bytes hhistory
    have hbusy (ready : Bool) : armedAfter ready (.applied (.error error)) = false := rfl
    apply ready_mem_of_armed before hbusy
    apply hwell _ bytes after
    rw [hhistory, List.append_assoc, List.cons_append]
  · intro bytes link' hsend
    obtain ⟨hup, hdown, -⟩ := hpaced.sent hsend
    exact ⟨hup, hdown⟩

/-- A link with flow control on a port where two `Ready` reports arrive. -/
def sampleLink : RNodeSerialLink 128 where
  config := ⟨⟨fillBytes 16 1⟩, 120, true, .hyfEnvelope⟩
  io := ⟨[0xc0, 0x0f, 0xc0, 0x0f, 0xc0].map fun byte => .ok (1, byte), [], []⟩
  state := RNodeState.new true
  decoder := KissDecoder.new 128
  pending := none
  capacity := Nat.le_of_ble_eq_true rfl

/-- A report is polled, an envelope is sent twice, the next report is polled, and it is sent again. -/
def sampleCalls : List (LinkCall Unit) :=
  [.poll (.event 5 []), .send tornEnvelope, .send tornEnvelope, .poll (.event 6 []), .send tornEnvelope]

/-- A frame is sent after each of two `Ready` commands. -/
theorem historyOf_sampleCalls : historyOf sampleLink sampleCalls =
    [.applied .ready, .sent tornEnvelope, .applied .ready, .sent tornEnvelope] := by
  decide +kernel

/-- The second send is blocked: on record are one report and one send, and the same again. -/
theorem flowControlled_sampleLink :
    (sendGatewayBytes tornEnvelope (LinkCall.step.final sampleLink (sampleCalls.take 2))).outcome =
        .error .flowControlBlocked ∧
      (LinkCall.step.final sampleLink sampleCalls).FlowControlled
        [.applied .ready, .sent tornEnvelope, .applied .ready, .sent tornEnvelope] := by
  refine ⟨by decide +kernel, ?_⟩
  have hflow := @flowControlled_of_run _ _ sampleLink.config sampleLink.io sampleLink rfl rfl sampleCalls
  rwa [historyOf_sampleCalls] at hflow

end RNodeSerialLink

end Hyf.RNodeSerial
