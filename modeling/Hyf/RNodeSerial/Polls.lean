import Hyf.Common.Moves
import Hyf.RNodeSerial.Link

/-!
# What the polls and sends of the link do

Every poll takes frames up and drains them, and what these parts keep, every poll keeps (`KeptByDrains`).
A send that is refused does nothing at all; one that is admitted writes its frame, and marks the link busy
if all of it was written.
-/

namespace Hyf.RNodeSerial

open Rns

namespace RNodeSerialLink

variable {frameMax : ℕ}

/-- A new link has its configuration and nothing else. -/
theorem new_eq_ok {config : RNodeSerialConfig} {io : SerialPort} {link : RNodeSerialLink frameMax}
    (h : new config io = .ok link) :
    link.config = config ∧ link.io = io ∧ link.state = RNodeState.new config.flowControl ∧
      link.decoder = KissDecoder.new frameMax ∧ link.pending = none := by
  unfold new at h
  cases hvalidate : config.validate with
  | error error =>
    rw [hvalidate] at h
    cases h
  | ok _ =>
    rw [hvalidate] at h
    simp only [bind, Except.bind] at h
    split_ifs at h
    · cases h
      exact ⟨rfl, rfl, rfl, rfl, rfl⟩

/-! ## Polls -/

/-- Nothing was written. -/
structure Polled (link link' : RNodeSerialLink frameMax) : Prop where
  config_eq : link'.config = link.config
  writes_eq : link'.io.writes = link.io.writes
  written_eq : link'.io.written = link.io.written

/-- Doing nothing keeps these parts. -/
theorem Polled.refl (link : RNodeSerialLink frameMax) : Polled link link := ⟨rfl, rfl, rfl⟩

/-- Two polls after each other keep them. -/
theorem Polled.trans {first second third : RNodeSerialLink frameMax} (h : Polled first second)
    (h' : Polled second third) : Polled first third :=
  ⟨h'.config_eq.trans h.config_eq, h'.writes_eq.trans h.writes_eq, h'.written_eq.trans h.written_eq⟩

instance : IsPreorder (RNodeSerialLink frameMax) Polled where
  refl := Polled.refl
  trans _ _ _ := Polled.trans

/-- Reading on changes what is left to read, the decoder and the pending slot. -/
theorem polled_readLoop (nowMs : TimestampMs) (reads : List ReadResult)
    (link : RNodeSerialLink frameMax) : Polled link (readLoop nowMs reads link).state := by
  induction reads generalizing link with
  | nil => exact ⟨rfl, rfl, rfl⟩
  | cons result reads ih =>
    obtain error | ⟨read, byte⟩ := result
    · exact ⟨rfl, rfl, rfl⟩
    · simp only [readLoop]
      split_ifs
      · exact ⟨rfl, rfl, rfl⟩
      · exact ⟨rfl, rfl, rfl⟩
      · split
        · exact ⟨rfl, rfl, rfl⟩
        · exact ⟨rfl, rfl, rfl⟩
        · rename_i decoder _
          have hrest := ih { link with io := { link.io with reads }, decoder }
          exact ⟨hrest.config_eq, hrest.writes_eq, hrest.written_eq⟩

/-- Reporting that the link is up keeps them. -/
theorem moves_takeUp (nowMs : TimestampMs) :
    Moves Polled (takeUp nowMs : LinkM frameMax Bool) := by
  constructor
  intro link
  unfold takeUp
  split
  · exact Polled.refl link
  · exact polled_readLoop nowMs link.io.reads link

/-- Dropping the pending frame keeps them. -/
theorem moves_clearPending : Moves Polled (clearPending : LinkM frameMax Unit) :=
  Moves.of_modify fun _ => ⟨rfl, rfl, rfl⟩

/-- A lifted check leaves the link alone. -/
theorem moves_check {R : RNodeSerialLink frameMax → RNodeSerialLink frameMax → Prop}
    [IsPreorder (RNodeSerialLink frameMax) R] {ε α : Type} (convert : ε → RNodeSerialError)
    (result : Except ε α) : Moves R (check convert result : LinkM frameMax α) := by
  constructor
  intro link
  cases result with
  | ok a => exact refl_of R link
  | error error => exact refl_of R link

/-- Applying the pending command keeps them. -/
theorem moves_drainPendingCommand :
    Moves Polled (drainPendingCommand : LinkM frameMax (Option RNodeSerialEvent)) := by
  unfold drainPendingCommand
  apply Moves.bind Moves.get
  intro link
  split
  · exact Moves.pure none
  · apply Moves.ite
    · exact Moves.pure none
    · apply Moves.bind (moves_check _ _)
      intro event
      apply Moves.bind
      · exact Moves.of_modify fun _ => ⟨rfl, rfl, rfl⟩
      · intro _
        exact Moves.bind moves_clearPending fun _ => Moves.pure _

/-! The drains of data frames clear the pending slot, and do nothing else. -/

section DataFrames

variable {R : RNodeSerialLink frameMax → RNodeSerialLink frameMax → Prop}
  [IsPreorder (RNodeSerialLink frameMax) R]
  (hclear : Moves R (clearPending : LinkM frameMax Unit))

include hclear

/-- `drain_pending_frame` moves as the clearing of the slot does. -/
theorem moves_drainPendingFrame (output : List UInt8) :
    Moves R (drainPendingFrame output : LinkM frameMax (Option LinkFrameRef)) := by
  unfold drainPendingFrame
  apply Moves.bind Moves.get
  intro link
  split
  · exact Moves.pure none
  · apply Moves.ite
    · exact Moves.pure none
    · apply Moves.ite
      · exact Moves.throw _
      · exact Moves.bind hclear fun _ => Moves.pure _

/-- `drain_pending_hyf_frame` does, too. -/
theorem moves_drainPendingHyfFrame (output : List UInt8) :
    Moves R (drainPendingHyfFrame output : LinkM frameMax (Option LinkFrameRef)) := by
  unfold drainPendingHyfFrame
  apply Moves.bind Moves.get
  intro link
  split
  · exact Moves.pure none
  · apply Moves.ite
    · exact Moves.pure none
    · apply Moves.ite
      · exact Moves.throw _
      · split
        · exact Moves.bind hclear fun _ => Moves.throw _
        · exact Moves.bind hclear fun _ => Moves.pure _

/-- `drain_pending_raw_rns_frame` does, too. -/
theorem moves_drainPendingRawRnsFrame (output : List UInt8) (params : RnsWrapParams) :
    Moves R (drainPendingRawRnsFrame output params : LinkM frameMax (Option LinkFrameRef)) := by
  unfold drainPendingRawRnsFrame
  apply Moves.bind Moves.get
  intro link
  split
  · exact Moves.pure none
  · apply Moves.ite
    · exact Moves.pure none
    · split
      · exact Moves.bind hclear fun _ => Moves.throw _
      · apply Moves.bind (moves_check _ _)
        intro envelope
        apply Moves.bind (moves_check _ _)
        intro encoded
        exact Moves.bind hclear fun _ => Moves.pure _

end DataFrames

end RNodeSerialLink

/-! ## The parts of the polls -/

namespace RNodeRawRnsSerialDriver

open RNodeSerialLink

variable {frameMax : ℕ} {π : Type}

/-- A relation between the links of two drivers. -/
def OnLink (R : RNodeSerialLink frameMax → RNodeSerialLink frameMax → Prop)
    (driver driver' : RNodeRawRnsSerialDriver frameMax π) : Prop := R driver.link driver'.link

instance {R : RNodeSerialLink frameMax → RNodeSerialLink frameMax → Prop}
    [IsPreorder (RNodeSerialLink frameMax) R] :
    IsPreorder (RNodeRawRnsSerialDriver frameMax π) (OnLink R) where
  refl driver := refl_of R driver.link
  trans _ _ _ := trans_of R

/-- A call of the link does to the driver what it does to the link. -/
theorem moves_onLink {R : RNodeSerialLink frameMax → RNodeSerialLink frameMax → Prop} {α : Type}
    {call : LinkM frameMax α} (h : Moves R call) :
    Moves (OnLink R) (onLink call : DriverM frameMax π α) := by
  constructor
  intro driver
  have hlink := h.state_related driver.link
  unfold onLink
  split
  · rename_i hrun
    rwa [hrun] at hlink
  · rename_i hrun
    rwa [hrun] at hlink

/-- The drain of the raw driver, which asks a provider for the parameters, moves as the clearing does. -/
theorem moves_drainPending {R : RNodeSerialLink frameMax → RNodeSerialLink frameMax → Prop}
    [IsPreorder (RNodeSerialLink frameMax) R]
    (hclear : Moves R (clearPending : LinkM frameMax Unit)) (wrapParams : RnsWrapParamsProvider π)
    (output : List UInt8) :
    Moves (OnLink R) (drainPendingRawRnsFrameWithProvider wrapParams output :
      DriverM frameMax π (Option LinkFrameRef)) := by
  unfold drainPendingRawRnsFrameWithProvider
  apply Moves.bind Moves.get
  intro driver
  dsimp only
  split
  · exact Moves.pure none
  · apply Moves.ite
    · exact Moves.pure none
    · split
      · exact Moves.bind (moves_onLink hclear) fun _ => Moves.throw _
      · apply Moves.bind ⟨fun driver => refl_of R driver.link⟩
        intro params
        split
        · exact Moves.throw _
        · apply Moves.bind (moves_onLink (moves_check _ _))
          intro envelope
          apply Moves.bind (moves_onLink (moves_check _ _))
          intro encoded
          exact Moves.bind (moves_onLink hclear) fun _ => Moves.pure _

end RNodeRawRnsSerialDriver

/-- A relation between links that the parts of the polls keep: taking a frame up, and draining it in each
of the ways. -/
structure KeptByDrains {frameMax : ℕ}
    (R : RNodeSerialLink frameMax → RNodeSerialLink frameMax → Prop) : Prop where
  takeUp : ∀ nowMs, Moves R (RNodeSerialLink.takeUp nowMs)
  command : Moves R RNodeSerialLink.drainPendingCommand
  frame : ∀ output, Moves R (RNodeSerialLink.drainPendingFrame output)
  hyfFrame : ∀ output, Moves R (RNodeSerialLink.drainPendingHyfFrame output)
  rawFrame : ∀ output params, Moves R (RNodeSerialLink.drainPendingRawRnsFrame output params)
  providerFrame : ∀ (π : Type) (wrapParams : RnsWrapParamsProvider π) output,
    Moves (RNodeRawRnsSerialDriver.OnLink R)
      (RNodeRawRnsSerialDriver.drainPendingRawRnsFrameWithProvider wrapParams output)

/-- What polls keep is kept by the drains. -/
theorem keptByDrains_polled {frameMax : ℕ} :
    KeptByDrains (@RNodeSerialLink.Polled frameMax) where
  takeUp := RNodeSerialLink.moves_takeUp
  command := RNodeSerialLink.moves_drainPendingCommand
  frame := RNodeSerialLink.moves_drainPendingFrame RNodeSerialLink.moves_clearPending
  hyfFrame := RNodeSerialLink.moves_drainPendingHyfFrame RNodeSerialLink.moves_clearPending
  rawFrame := RNodeSerialLink.moves_drainPendingRawRnsFrame RNodeSerialLink.moves_clearPending
  providerFrame _ := RNodeRawRnsSerialDriver.moves_drainPending RNodeSerialLink.moves_clearPending

namespace KeptByDrains

open RNodeSerialLink

variable {frameMax : ℕ} {R : RNodeSerialLink frameMax → RNodeSerialLink frameMax → Prop}
  [IsPreorder (RNodeSerialLink frameMax) R]

/-- The polling loop keeps what its rounds keep: by induction on what is left to take up. -/
theorem nextDataFrame (h : KeptByDrains R) (nowMs : TimestampMs) :
    Moves R (RNodeSerialLink.nextDataFrame nowMs : LinkM frameMax Bool) := by
  constructor
  intro link
  have htaken := (h.takeUp nowMs).state_related link
  induction link using RNodeSerialLink.nextDataFrame.induct nowMs with
  | case1 link error link' htake =>
    rw [htake] at htaken
    rwa [nextDataFrame_error htake]
  | case2 link link' htake =>
    rw [htake] at htaken
    rwa [nextDataFrame_none htake]
  | case3 link link' htake hpending =>
    rw [htake] at htaken
    rwa [nextDataFrame_empty htake hpending]
  | case4 link link' htake pending hpending hcommand =>
    rw [htake] at htaken
    rwa [nextDataFrame_data htake hpending hcommand]
  | case5 link link' htake pending hpending hcommand error link'' hdrain =>
    have hdrained := h.command.state_related link'
    rw [htake] at htaken
    rw [hdrain] at hdrained
    rw [nextDataFrame_taken htake hpending, if_neg hcommand]
    show R link (EStateM.bind drainPendingCommand _ link').state
    simp only [EStateM.bind, hdrain]
    exact trans_of R htaken hdrained
  | case6 link link' htake pending hpending hcommand event link'' hdrain ih =>
    have hdrained := h.command.state_related link'
    rw [htake] at htaken
    rw [hdrain] at hdrained
    rw [nextDataFrame_taken htake hpending, if_neg hcommand]
    show R link (EStateM.bind drainPendingCommand _ link').state
    simp only [EStateM.bind, hdrain]
    exact trans_of R htaken (trans_of R hdrained (ih ((h.takeUp nowMs).state_related link'')))

/-- `poll_event_at` keeps it. -/
theorem pollEventAt (h : KeptByDrains R) (nowMs : TimestampMs) (output : List UInt8) :
    Moves R (RNodeSerialLink.pollEventAt nowMs output :
      LinkM frameMax (Option RNodeSerialEvent)) := by
  unfold RNodeSerialLink.pollEventAt
  apply Moves.bind (h.takeUp nowMs)
  intro pending
  apply Moves.ite
  · exact Moves.pure none
  · apply Moves.bind Moves.get
    intro link
    split
    · exact Moves.pure none
    · apply Moves.ite
      · exact Moves.bind (h.frame output) fun _ => Moves.pure _
      · exact h.command

/-- `poll_hyf_gateway_frame` keeps it. -/
theorem pollHyfGatewayFrame (h : KeptByDrains R) (nowMs : TimestampMs) (output : List UInt8) :
    Moves R (RNodeSerialLink.pollHyfGatewayFrame nowMs output :
      LinkM frameMax (Option LinkFrameRef)) := by
  apply Moves.bind (h.nextDataFrame nowMs)
  intro pending
  exact Moves.ite (h.hyfFrame output) (Moves.pure none)

/-- `poll_gateway_frame_at` keeps it. -/
theorem pollGatewayFrameAt (h : KeptByDrains R) (nowMs : TimestampMs) (output : List UInt8) :
    Moves R (RNodeSerialLink.pollGatewayFrameAt nowMs output :
      LinkM frameMax (Option LinkFrameRef)) := by
  apply Moves.bind Moves.get
  intro link
  exact Moves.ite (Moves.bind (Moves.throw _) fun _ => h.pollHyfGatewayFrame nowMs output)
    (h.pollHyfGatewayFrame nowMs output)

/-- `poll_gateway_frame_with_rns_params_at` keeps it. -/
theorem pollGatewayFrameWithRnsParamsAt (h : KeptByDrains R) (nowMs : TimestampMs)
    (output : List UInt8) (params : RnsWrapParams) :
    Moves R (RNodeSerialLink.pollGatewayFrameWithRnsParamsAt nowMs output params :
      LinkM frameMax (Option LinkFrameRef)) := by
  have hpoll : Moves R (pollRawRnsGatewayFrame nowMs output params :
      LinkM frameMax (Option LinkFrameRef)) := by
    apply Moves.bind (h.nextDataFrame nowMs)
    intro pending
    exact Moves.ite (h.rawFrame output params) (Moves.pure none)
  apply Moves.bind Moves.get
  intro link
  exact Moves.ite (Moves.bind (Moves.throw _) fun _ => hpoll) hpoll

/-- `poll_frame` keeps it. -/
theorem pollFrame (h : KeptByDrains R) (nowMs : TimestampMs) (output : List UInt8) :
    Moves R (RNodeSerialLink.pollFrame nowMs output : LinkM frameMax (Option LinkFrameRef)) := by
  apply Moves.bind (h.nextDataFrame nowMs)
  intro pending
  exact Moves.ite (h.pollGatewayFrameAt nowMs output) (Moves.pure none)

/-- `poll_frame` of the raw driver keeps it. -/
theorem driverPollFrame (h : KeptByDrains R) {π : Type} (wrapParams : RnsWrapParamsProvider π)
    (nowMs : TimestampMs) (output : List UInt8) :
    Moves (RNodeRawRnsSerialDriver.OnLink R) (RNodeRawRnsSerialDriver.pollFrame wrapParams nowMs
      output : RNodeRawRnsSerialDriver.DriverM frameMax π (Option LinkFrameRef)) := by
  apply Moves.bind (RNodeRawRnsSerialDriver.moves_onLink (h.nextDataFrame nowMs))
  intro pending
  exact Moves.ite (h.providerFrame π wrapParams output) (Moves.pure none)

end KeptByDrains

namespace RNodeSerialLink

variable {frameMax : ℕ}

/-! ## Sends -/

/-- `send_gateway_bytes` comes to writing: the bytes have a payload within the limit, and flow control
does not block. -/
structure Admits (link : RNodeSerialLink frameMax) (bytes payload : List UInt8) : Prop where
  payload_eq : link.payloadForSend bytes = .ok payload
  length_le : payload.length ≤ link.config.mtu
  canTransmit : link.state.canTransmit = true

/-- A frame is admitted with one payload. -/
theorem Admits.payload_unique {link : RNodeSerialLink frameMax} {bytes payload payload' : List UInt8}
    (h : link.Admits bytes payload) (h' : link.Admits bytes payload') : payload = payload' :=
  Except.ok.inj (h.payload_eq.symm.trans h'.payload_eq)

/-- The link after a send that succeeded. -/
def sentLink (link : RNodeSerialLink frameMax) (io : SerialPort) : RNodeSerialLink frameMax :=
  { link with io, state := link.state.markTxStarted }

variable {link : RNodeSerialLink frameMax} {bytes payload : List UInt8}

/-- A check that passes goes on with its value. -/
theorem check_ok_bind {ε α β : Type} (convert : ε → RNodeSerialError) (a : α)
    (next : α → LinkM frameMax β) :
    ((check convert (.ok a : Except ε α) : LinkM frameMax α) >>= next) = next a := rfl

/-- A frame that is not admitted changes nothing. -/
theorem sendGatewayBytes_of_error {error : RNodeSerialError}
    (h : link.payloadForSend bytes = .error error) :
    sendGatewayBytes bytes link = .error error link := by
  rw [sendGatewayBytes, ByteCodec.run_get_bind, h]
  rfl

/-- The checks of a send that has a payload. -/
theorem sendGatewayBytes_of_payload (h : link.payloadForSend bytes = .ok payload) :
    sendGatewayBytes bytes link =
      if payload.length > link.config.mtu then
        .error (.frameTooLarge payload.length link.config.mtu) link
      else if !link.state.canTransmit then .error .flowControlBlocked link
      else (onPort (writeKissFrame kissCmdData payload) >>= fun _ => markTxStarted) link := by
  rw [sendGatewayBytes, ByteCodec.run_get_bind, h, check_ok_bind]
  dsimp only
  by_cases hlong : payload.length > link.config.mtu
  · rw [if_pos hlong, if_pos hlong]
    rfl
  · rw [if_neg hlong, if_neg hlong]
    by_cases hbusy : (!link.state.canTransmit) = true
    · rw [if_pos hbusy, if_pos hbusy]
      rfl
    · rw [if_neg hbusy, if_neg hbusy]

/-- A refused send changes nothing. -/
theorem sendGatewayBytes_refused (h : ∀ payload, ¬link.Admits bytes payload) :
    ∃ error, sendGatewayBytes bytes link = .error error link := by
  cases hpayload : link.payloadForSend bytes with
  | error error => exact ⟨error, sendGatewayBytes_of_error hpayload⟩
  | ok payload =>
    rw [sendGatewayBytes_of_payload hpayload]
    by_cases hlong : payload.length > link.config.mtu
    · exact ⟨_, if_pos hlong⟩
    · rw [if_neg hlong]
      by_cases hbusy : (!link.state.canTransmit) = true
      · exact ⟨_, if_pos hbusy⟩
      · exact absurd ⟨hpayload, Nat.le_of_not_lt hlong, by simpa using hbusy⟩ (h payload)

/-- An admitted frame is written, and the link marked as busy. -/
theorem sendGatewayBytes_admitted (h : link.Admits bytes payload) :
    sendGatewayBytes bytes link =
      (onPort (writeKissFrame kissCmdData payload) >>= fun _ => markTxStarted) link := by
  rw [sendGatewayBytes_of_payload h.payload_eq, if_neg (Nat.not_lt.mpr h.length_le),
    if_neg (by simp [h.canTransmit])]

/-- What the link is after a frame was written. -/
theorem sendGatewayBytes_written (h : link.Admits bytes payload) {io : SerialPort}
    (hwrite : writeKissFrame kissCmdData payload link.io = .ok () io) :
    sendGatewayBytes bytes link = .ok () (link.sentLink io) := by
  rw [sendGatewayBytes_admitted h]
  show EStateM.bind (onPort _) _ link = _
  simp only [EStateM.bind, onPort, hwrite]
  rfl

/-- A write that fails leaves the link as it was, except for its port. -/
theorem sendGatewayBytes_failed (h : link.Admits bytes payload) {io : SerialPort}
    {error : RNodeSerialError} (hwrite : writeKissFrame kissCmdData payload link.io = .error error io) :
    sendGatewayBytes bytes link = .error error { link with io } := by
  rw [sendGatewayBytes_admitted h]
  show EStateM.bind (onPort _) _ link = _
  simp only [EStateM.bind, onPort, hwrite]

/-- **What a send does**: it is refused and changes nothing, it fails while it writes, or it succeeds. -/
theorem sendGatewayBytes_cases (link : RNodeSerialLink frameMax) (bytes : List UInt8) :
    (∃ error, sendGatewayBytes bytes link = .error error link) ∨
      (∃ payload error io, link.Admits bytes payload ∧
        writeKissFrame kissCmdData payload link.io = .error error io ∧
        sendGatewayBytes bytes link = .error error { link with io }) ∨
      ∃ payload io, link.Admits bytes payload ∧
        writeKissFrame kissCmdData payload link.io = .ok () io ∧
        sendGatewayBytes bytes link = .ok () (link.sentLink io) := by
  by_cases hadmits : ∃ payload, link.Admits bytes payload
  · obtain ⟨payload, hadmits⟩ := hadmits
    cases hwrite : writeKissFrame kissCmdData payload link.io with
    | ok _ io =>
      exact .inr (.inr ⟨payload, io, hadmits, hwrite, sendGatewayBytes_written hadmits hwrite⟩)
    | error error io =>
      exact .inr (.inl ⟨payload, error, io, hadmits, hwrite, sendGatewayBytes_failed hadmits hwrite⟩)
  · exact .inl (sendGatewayBytes_refused (not_exists.mp hadmits))

end RNodeSerialLink

end Hyf.RNodeSerial
