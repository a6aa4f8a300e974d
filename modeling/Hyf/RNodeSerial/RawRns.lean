import Hyf.Link.Carrier
import Hyf.RNodeSerial.EndToEnd
import Hyf.Rns.PacketTheorems
import Mathlib.Data.List.ReduceOption

/-!
# RNS packets over the link

In raw mode a link sends the packet of an envelope, without the envelope. The driver that reads asks its
provider how to address what has arrived and puts it into a new envelope. A packet that cannot be addressed,
or for which there is no room, stays where it is. In every interleaving the packets in the envelopes that
the driver returns are those of the envelopes that were sent, in order, each once and unaltered
(`endToEnd_of_rawRun`).
-/

namespace Hyf.RNodeSerial

open Rns RNodeSerialLink

/-- The RNS packet in the bytes of an envelope. -/
def packetOf (bytes : List UInt8) : Option (List UInt8) :=
  match decodeEnvelope bytes with
  | .error _ => none
  | .ok envelope => (unwrapRnsPacket envelope).toOption

/-- The packet in the envelope that a carrier made for it. -/
theorem packetOf_wireBytes {packet : RnsPacketRef} {params : RnsWrapParams} {envelope : HyfEnvelopeRef}
    (h : wrapRnsPacket packet params = .ok envelope) : packetOf (wireBytes envelope) = some packet.raw := by
  have hunwrap := unwrapRnsPacket_eq_ok_iff.mpr ⟨packet, params, rfl, h⟩
  rw [wrapRnsPacket_eq, Carrier.wrap_eq_ok_iff] at h
  obtain ⟨-, -, hvalid, -⟩ := h
  rw [packetOf, decodeEnvelope_wireBytes hvalid]
  show (unwrapRnsPacket envelope).toOption = _
  rw [hunwrap]
  rfl

/-- A frame with a packet is an envelope around it. -/
theorem exists_envelope_of_packetOf {bytes raw : List UInt8} (h : packetOf bytes = some raw) :
    ∃ envelope, decodeEnvelope bytes = .ok envelope ∧ unwrapRnsPacket envelope = .ok raw := by
  rw [packetOf] at h
  cases hdecode : decodeEnvelope bytes with
  | error error =>
    rw [hdecode] at h
    cases h
  | ok envelope =>
    rw [hdecode] at h
    replace h : (unwrapRnsPacket envelope).toOption = some raw := h
    cases hunwrap : unwrapRnsPacket envelope with
    | error error =>
      rw [hunwrap] at h
      cases h
    | ok other =>
      rw [hunwrap] at h
      cases h
      exact ⟨envelope, rfl, hunwrap⟩

/-- The packet of a frame is valid. -/
theorem exists_packet_of_packetOf {bytes raw : List UInt8} (h : packetOf bytes = some raw) :
    ∃ packet, validateRnsPacket raw = .ok packet := by
  obtain ⟨envelope, -, hunwrap⟩ := exists_envelope_of_packetOf h
  rw [unwrapRnsPacket_eq, Carrier.unwrap_eq_ok_iff] at hunwrap
  obtain ⟨-, -, -, packet, hpacket, -⟩ := hunwrap
  exact ⟨packet, hpacket⟩

section

variable {frameMax : ℕ} {sender : RNodeSerialLink frameMax} {bytes payload : List UInt8}
  (hmode : sender.config.dataMode = .rawRnsPacket)

include hmode

/-- In raw mode the payload is the packet of the envelope. -/
theorem payloadForSend_raw_iff :
    sender.payloadForSend bytes = .ok payload ↔ packetOf bytes = some payload := by
  constructor
  · intro h
    rw [payloadForSend, hmode] at h
    obtain ⟨envelope, hdecode, h⟩ := Except.exists_of_bind_eq_ok h
    cases hread : decodeEnvelope bytes with
    | error error =>
      rw [hread] at hdecode
      cases hdecode
    | ok decoded =>
      rw [hread] at hdecode
      cases hdecode
      cases hunwrap : unwrapRnsPacket envelope with
      | error error =>
        rw [hunwrap] at h
        cases h
      | ok raw =>
        rw [hunwrap] at h
        cases h
        rw [packetOf, hread]
        show (unwrapRnsPacket envelope).toOption = _
        rw [hunwrap]
        rfl
  · intro h
    obtain ⟨envelope, hdecode, hunwrap⟩ := exists_envelope_of_packetOf h
    rw [payloadForSend, hmode, hdecode]
    show (unwrapRnsPacket envelope).mapError RNodeSerialError.rns = _
    rw [hunwrap]
    rfl

variable (hwrites : sender.io.writes = [])

include hwrites

/-- A send in raw mode that succeeds has written the frame of its packet. -/
theorem sendGatewayBytes_raw {sender' : RNodeSerialLink frameMax}
    (h : sendGatewayBytes bytes sender = .ok () sender') :
    ∃ raw, packetOf bytes = some raw ∧ raw.length ≤ sender.config.mtu ∧
      sender'.config = sender.config ∧ sender'.io.writes = [] ∧
      sender'.io.written = sender.io.written ++ frameBytes kissCmdData raw := by
  obtain ⟨error, hsend⟩ | ⟨_, error, io, -, -, hsend⟩ | ⟨raw, io, hadmits, hwrite, hsend⟩ :=
    sendGatewayBytes_cases sender bytes
  · rw [hsend] at h
    cases h
  · rw [hsend] at h
    cases h
  · rw [hsend] at h
    cases h
    obtain ⟨port, hwrote⟩ := wroteAll_of_writes hwrites (framePieces kissCmdData raw)
    rw [writeKissFrame_eq, hwrote.run_eq] at hwrite
    cases hwrite
    refine ⟨raw, (payloadForSend_raw_iff hmode).mp hadmits.payload_eq, hadmits.length_le, rfl, ?_, ?_⟩
    · show io.writes = []
      rw [hwrote.writes_eq, hwrites, List.drop_nil]
    · show io.written = _
      rw [hwrote.written_eq, flatten_framePieces]

/-- **Which sends succeed** in raw mode while no write fails. -/
theorem sendGatewayBytes_raw_iff :
    (∃ sender', sendGatewayBytes bytes sender = .ok () sender') ↔
      ∃ raw, packetOf bytes = some raw ∧ raw.length ≤ sender.config.mtu ∧
        sender.state.canTransmit = true := by
  constructor
  · rintro ⟨sender', h⟩
    obtain ⟨error, hsend⟩ | ⟨_, error, io, -, -, hsend⟩ | ⟨raw, io, hadmits, -, -⟩ :=
      sendGatewayBytes_cases sender bytes
    · rw [hsend] at h
      cases h
    · rw [hsend] at h
      cases h
    · exact ⟨raw, (payloadForSend_raw_iff hmode).mp hadmits.payload_eq, hadmits.length_le,
        hadmits.canTransmit⟩
  · rintro ⟨raw, hpacket, hlen, htransmit⟩
    obtain ⟨port, hwrote⟩ := wroteAll_of_writes hwrites (framePieces kissCmdData raw)
    have hwrite : writeKissFrame kissCmdData raw sender.io = .ok () port := by
      rw [writeKissFrame_eq, hwrote.run_eq]
    exact ⟨_, sendGatewayBytes_written ⟨(payloadForSend_raw_iff hmode).mpr hpacket, hlen, htransmit⟩
      hwrite⟩

end

/-! ## The driver's polls -/

namespace RNodeRawRnsSerialDriver

variable {frameMax : ℕ} {π : Type} {link link' : RNodeSerialLink frameMax} {provider : π}
  {wrapParams : RnsWrapParamsProvider π} {nowMs : TimestampMs} {output : List UInt8}

/-- The envelope that the provider has the driver make for a packet. -/
def addressed (wrapParams : RnsWrapParamsProvider π) (provider : π) (packet : RnsPacketRef)
    (receivedAtMs : TimestampMs) : Except RNodeSerialError HyfEnvelopeRef :=
  match (wrapParams packet receivedAtMs provider).1 with
  | none => .error .rnsWrapParamsUnavailable
  | some params => (wrapRnsPacket packet params).mapError .rns

/-- A packet that was addressed was wrapped with the provider's parameters. -/
theorem addressed_eq_ok {packet : RnsPacketRef} {receivedAtMs : TimestampMs} {envelope : HyfEnvelopeRef}
    (h : addressed wrapParams provider packet receivedAtMs = .ok envelope) :
    ∃ params, (wrapParams packet receivedAtMs provider).1 = some params ∧
      wrapRnsPacket packet params = .ok envelope := by
  rw [addressed] at h
  cases hparams : (wrapParams packet receivedAtMs provider).1 with
  | none =>
    rw [hparams] at h
    cases h
  | some params =>
    rw [hparams] at h
    replace h : (wrapRnsPacket packet params).mapError RNodeSerialError.rns = .ok envelope := h
    cases hwrap : wrapRnsPacket packet params with
    | error error =>
      rw [hwrap] at h
      cases h
    | ok wrapped =>
      rw [hwrap] at h
      cases h
      exact ⟨params, rfl, hwrap⟩

/-- A call of the link that succeeds, made by the driver. -/
theorem onLink_of_ok {α : Type} {call : LinkM frameMax α} {a : α} (h : call link = .ok a link')
    (provider : π) : onLink call ⟨link, provider⟩ = .ok a ⟨link', provider⟩ := by
  simp only [onLink, h]

/-- A check that passes goes on. -/
theorem onLink_check_ok {ε α : Type} (convert : ε → RNodeSerialError) (a : α)
    (driver : RNodeRawRnsSerialDriver frameMax π) : onLink (check convert (.ok a)) driver = .ok a driver :=
  rfl

/-- A check that fails reports its converted error. -/
theorem onLink_check_error {ε α : Type} (convert : ε → RNodeSerialError) (error : ε)
    (driver : RNodeRawRnsSerialDriver frameMax π) :
    onLink (check convert (.error error : Except ε α)) driver = .error (convert error) driver :=
  rfl

section

variable {pending : PendingFrame frameMax} {packet : RnsPacketRef} (hpending : link.pending = some pending)
  (hcommand : pending.command = kissCmdData) (hvalidate : validateRnsPacket pending.payload = .ok packet)

include hpending hcommand hvalidate

/-- The driver asks its provider about a packet that is pending. -/
theorem drainPending_eq : drainPendingRawRnsFrameWithProvider wrapParams output ⟨link, provider⟩ =
    (do
      let envelope ← onLink (check id (addressed wrapParams provider packet pending.receivedAtMs))
      let written ← onLink (check .hyfWire (encodeEnvelope envelope output))
      onLink clearPending
      return some ⟨link.config.linkId, pending.receivedAtMs, written.2.take written.1⟩ :
        DriverM frameMax π _)
        ⟨link, (wrapParams packet pending.receivedAtMs provider).2⟩ := by
  rw [drainPendingRawRnsFrameWithProvider, ByteCodec.run_get_bind]
  dsimp only
  rw [hpending]
  dsimp only
  rw [if_neg (not_not.mpr hcommand), hvalidate]
  dsimp only
  have hask : askProvider wrapParams packet pending.receivedAtMs ⟨link, provider⟩ =
      .ok (wrapParams packet pending.receivedAtMs provider).1
        ⟨link, (wrapParams packet pending.receivedAtMs provider).2⟩ := rfl
  rw [ByteCodec.run_bind_of_ok hask, addressed]
  cases (wrapParams packet pending.receivedAtMs provider).1 with
  | none => rfl
  | some params =>
    dsimp only
    cases wrapRnsPacket packet params with
    | error error => rfl
    | ok envelope => rfl

/-- A packet without an address stays. -/
theorem drainPending_unaddressed {error : RNodeSerialError}
    (h : addressed wrapParams provider packet pending.receivedAtMs = .error error) :
    drainPendingRawRnsFrameWithProvider wrapParams output ⟨link, provider⟩ =
      .error error ⟨link, (wrapParams packet pending.receivedAtMs provider).2⟩ := by
  rw [drainPending_eq hpending hcommand hvalidate, h]
  exact ByteCodec.run_bind_of_error (onLink_check_error _ _ _) _

variable {envelope : HyfEnvelopeRef}
  (haddressed : addressed wrapParams provider packet pending.receivedAtMs = .ok envelope)
  (hvalid : ValidEnvelope envelope)

include haddressed hvalid

/-- A packet for whose envelope there is no room stays. -/
theorem drainPending_short (hshort : output.length < (wireBytes envelope).length) :
    drainPendingRawRnsFrameWithProvider wrapParams output ⟨link, provider⟩ =
      .error (.hyfWire (.outputBufferTooShort output.length (wireBytes envelope).length))
        ⟨link, (wrapParams packet pending.receivedAtMs provider).2⟩ := by
  rw [drainPending_eq hpending hcommand hvalidate, haddressed]
  rw [ByteCodec.run_bind_of_ok (onLink_check_ok _ _ _), encodeEnvelope_of_short hvalid hshort]
  exact ByteCodec.run_bind_of_error (onLink_check_error _ _ _) _

/-- With room for it the pending packet is wrapped and returned. -/
theorem drainPending_ok (hroom : (wireBytes envelope).length ≤ output.length) :
    drainPendingRawRnsFrameWithProvider wrapParams output ⟨link, provider⟩ =
      .ok (some ⟨link.config.linkId, pending.receivedAtMs, wireBytes envelope⟩)
        ⟨{ link with pending := none }, (wrapParams packet pending.receivedAtMs provider).2⟩ := by
  rw [drainPending_eq hpending hcommand hvalidate, haddressed]
  rw [ByteCodec.run_bind_of_ok (onLink_check_ok _ _ _), encodeEnvelope_eq hvalid hroom]
  rw [ByteCodec.run_bind_of_ok (onLink_check_ok _ _ _), List.take_left]
  rfl

end

/-- The driver drains the data frame that the loop stopped at. -/
theorem pollFrame_of_next (hnext : nextDataFrame nowMs link = .ok true link') :
    pollFrame wrapParams nowMs output ⟨link, provider⟩ =
      drainPendingRawRnsFrameWithProvider wrapParams output ⟨link', provider⟩ :=
  ByteCodec.run_bind_of_ok (onLink_of_ok hnext provider) _

/-- Without arrivals nothing is polled. -/
theorem pollFrame_empty (h : link.arrivals = []) :
    ∃ link', pollFrame wrapParams nowMs output ⟨link, provider⟩ = .ok none ⟨link', provider⟩ ∧
      link.Advanced link' [] := by
  obtain ⟨link', htake, hleaves⟩ := takeUp_nil nowMs h
  exact ⟨link', ByteCodec.run_bind_of_ok (onLink_of_ok (nextDataFrame_none htake) provider) _,
    hleaves.advanced⟩

/-- The driver has no way to hand a packet over: it has no envelope for it, or no room. -/
def Withheld (wrapParams : RnsWrapParamsProvider π) (provider : π) (packet : RnsPacketRef)
    (receivedAtMs : TimestampMs) (output : List UInt8) (error : RNodeSerialError) : Prop :=
  addressed wrapParams provider packet receivedAtMs = .error error ∨
    ∃ envelope, addressed wrapParams provider packet receivedAtMs = .ok envelope ∧
      output.length < (wireBytes envelope).length ∧
      error = .hyfWire (.outputBufferTooShort output.length (wireBytes envelope).length)

/-- **A packet in front** is returned in its envelope, or it stays there. -/
theorem pollFrame_packet (nowMs : TimestampMs) (output : List UInt8) {raw : List UInt8}
    {rest : List Arrival} {packet : RnsPacketRef}
    (h : link.arrivals = LinkPair.dataFrame raw :: rest) (hvalidate : validateRnsPacket raw = .ok packet) :
    ∃ receivedAtMs provider',
      (∃ envelope link', addressed wrapParams provider packet receivedAtMs = .ok envelope ∧
        pollFrame wrapParams nowMs output ⟨link, provider⟩ =
          .ok (some ⟨link.config.linkId, receivedAtMs, wireBytes envelope⟩) ⟨link', provider'⟩ ∧
        link.Advanced link' rest) ∨
      ∃ error link', Withheld wrapParams provider packet receivedAtMs output error ∧
        pollFrame wrapParams nowMs output ⟨link, provider⟩ = .error error ⟨link', provider'⟩ ∧
        link.Advanced link' (LinkPair.dataFrame raw :: rest) := by
  obtain ⟨taken, pending, hnext, hpending, hframe, hadvanced⟩ :=
    @nextDataFrame_atData _ link rest ⟨kissCmdData, raw⟩ nowMs [] (by simp) h rfl
  have hcommand : pending.command = kissCmdData := congrArg KissFrameRef.command hframe
  obtain rfl : pending.payload = raw := congrArg KissFrameRef.payload hframe
  have hconfig : taken.config = link.config := hadvanced.polled.config_eq
  refine ⟨pending.receivedAtMs, (wrapParams packet pending.receivedAtMs provider).2, ?_⟩
  rw [pollFrame_of_next hnext, ← hconfig]
  cases haddressed : addressed wrapParams provider packet pending.receivedAtMs with
  | error error =>
    exact .inr ⟨error, taken, .inl haddressed,
      drainPending_unaddressed hpending hcommand hvalidate haddressed, hadvanced⟩
  | ok envelope =>
    obtain ⟨params, -, hwrap⟩ := addressed_eq_ok haddressed
    rw [wrapRnsPacket_eq, Carrier.wrap_eq_ok_iff] at hwrap
    obtain ⟨-, -, hvalid, -⟩ := hwrap
    obtain hshort | hroom := Nat.lt_or_ge output.length (wireBytes envelope).length
    · exact .inr ⟨_, taken, .inr ⟨envelope, haddressed, hshort, rfl⟩,
        drainPending_short hpending hcommand hvalidate haddressed hvalid hshort, hadvanced⟩
    · exact .inl ⟨envelope, _, rfl, drainPending_ok hpending hcommand hvalidate haddressed hvalid hroom,
        hadvanced.trans (advanced_cleared hadvanced.arrivals_eq hpending)⟩

end RNodeRawRnsSerialDriver

/-! ## A link and a driver -/

/-- A link that sends and a driver that reads, how many of the bytes that were written have arrived, the
envelopes of the sends that succeeded, and the frames that the driver returned. -/
structure RawPair (sendMax receiveMax : ℕ) (π : Type) where
  sender : RNodeSerialLink sendMax
  receiver : RNodeRawRnsSerialDriver receiveMax π
  arrived : ℕ
  sent : List (List UInt8)
  received : List LinkFrameRef

namespace RawPair

variable {sendMax receiveMax : ℕ} {π : Type} {wrapParams : RnsWrapParamsProvider π}

/-- One step: a send, a poll of the sender over any incoming bytes of its own, the arrival of one byte, or
a poll of the driver. -/
inductive Step (wrapParams : RnsWrapParamsProvider π) :
    RawPair sendMax receiveMax π → RawPair sendMax receiveMax π → Prop
  | sendOk {pair : RawPair sendMax receiveMax π} {bytes : List UInt8} {sender}
      (h : sendGatewayBytes bytes pair.sender = .ok () sender) :
      Step wrapParams pair { pair with sender, sent := pair.sent ++ [bytes] }
  | sendError {pair : RawPair sendMax receiveMax π} {bytes : List UInt8} {error sender}
      (h : sendGatewayBytes bytes pair.sender = .error error sender) :
      Step wrapParams pair { pair with sender }
  | senderPort (pair : RawPair sendMax receiveMax π) (reads : List ReadResult) :
      Step wrapParams pair { pair with
        sender := { pair.sender with io := { pair.sender.io with reads } } }
  | senderPoll {ρ : Type} (pair : RawPair sendMax receiveMax π) (poll : Poll ρ) :
      Step wrapParams pair { pair with sender := (poll.run pair.sender).2 }
  | arrival {pair : RawPair sendMax receiveMax π} {byte : UInt8}
      (h : pair.sender.io.written[pair.arrived]? = some byte) :
      Step wrapParams pair { pair with
        receiver := { pair.receiver with link := LinkPair.arrive pair.receiver.link byte }
        arrived := pair.arrived + 1 }
  | pollOk {pair : RawPair sendMax receiveMax π} {nowMs : TimestampMs} {output : List UInt8}
      {frame : Option LinkFrameRef} {receiver}
      (h : pair.receiver.pollFrame wrapParams nowMs output = .ok frame receiver) :
      Step wrapParams pair { pair with receiver, received := pair.received ++ frame.toList }
  | pollError {pair : RawPair sendMax receiveMax π} {nowMs : TimestampMs} {output : List UInt8}
      {error receiver} (h : pair.receiver.pollFrame wrapParams nowMs output = .error error receiver) :
      Step wrapParams pair { pair with receiver }

/-- A new link in raw mode and a driver over another one with the same mtu; no write fails, and nothing has
arrived. -/
structure Initial (pair : RawPair sendMax receiveMax π) : Prop where
  sender_new : ∃ config io, RNodeSerialLink.new config io = .ok pair.sender ∧
    config.dataMode = .rawRnsPacket ∧ io.writes = [] ∧ io.written = []
  receiver_new : ∃ config io link, RNodeSerialLink.new config io = .ok link ∧ io.reads = [] ∧
    RNodeRawRnsSerialDriver.new link pair.receiver.provider = .ok pair.receiver
  mtu_eq : pair.sender.config.mtu = pair.receiver.link.config.mtu
  arrived_eq : pair.arrived = 0
  sent_eq : pair.sent = []
  received_eq : pair.received = []

abbrev Run (wrapParams : RnsWrapParamsProvider π) :
    RawPair sendMax receiveMax π → RawPair sendMax receiveMax π → Prop :=
  Relation.ReflTransGen (Step wrapParams)

/-! ## What is under way -/

/-- The bytes on the wire, as the driver's port will hand them over. -/
def wire (pair : RawPair sendMax receiveMax π) : List ReadResult :=
  (pair.sender.io.written.drop pair.arrived).map fun byte => .ok (1, byte)

/-- The frame has an envelope that the provider gave an address. -/
def Addressed (wrapParams : RnsWrapParamsProvider π) (frame : LinkFrameRef) : Prop :=
  ∃ provider packet params envelope, (wrapParams packet frame.receivedAtMs provider).1 = some params ∧
    wrapRnsPacket packet params = .ok envelope ∧ frame.bytes = wireBytes envelope

/-- An addressed frame has a packet. -/
theorem Addressed.exists_packet {frame : LinkFrameRef} (h : Addressed wrapParams frame) :
    ∃ raw, packetOf frame.bytes = some raw := by
  obtain ⟨provider, packet, params, envelope, -, hwrap, hbytes⟩ := h
  rw [hbytes]
  exact ⟨_, packetOf_wireBytes hwrap⟩

/-- The driver and the wire hold the packets that were sent and not yet received. -/
structure Underway (wrapParams : RnsWrapParamsProvider π) (pair : RawPair sendMax receiveMax π) :
    Prop where
  sender_mode : pair.sender.config.dataMode = .rawRnsPacket
  mtu_eq : pair.sender.config.mtu = pair.receiver.link.config.mtu
  writes_eq : pair.sender.io.writes = []
  arrived_le : pair.arrived ≤ pair.sender.io.written.length
  addressed : ∀ frame ∈ pair.received, Addressed wrapParams frame
  holds : ∃ raws : List (List UInt8),
    pair.sent.map packetOf = pair.received.map (fun frame => packetOf frame.bytes) ++ raws.map some ∧
    (∀ raw ∈ raws, ∃ packet, validateRnsPacket raw = .ok packet) ∧
    pair.receiver.link.arrivals ++ receive.outputs pair.receiver.link.lastDecoder pair.wire =
      raws.map LinkPair.dataFrame
  settled : (receive.final pair.receiver.link.lastDecoder pair.wire).Idle ∧
    (receive.final pair.receiver.link.lastDecoder pair.wire).openFrame = none

/-- At the start all packets are underway. -/
theorem Initial.underway {pair : RawPair sendMax receiveMax π} (h : pair.Initial) :
    pair.Underway wrapParams := by
  obtain ⟨config, io, hsender, hmode, hwrites, hwritten⟩ := h.sender_new
  obtain ⟨config', io', link, hlink, hreads, hreceiver⟩ := h.receiver_new
  obtain ⟨hconfig, hio, -⟩ := new_eq_ok hsender
  obtain ⟨-, hio', -, hdecoder, hpending⟩ := new_eq_ok hlink
  have hover : pair.receiver.link = link := by
    rw [RNodeRawRnsSerialDriver.new] at hreceiver
    split_ifs at hreceiver
    rw [← Except.ok.inj hreceiver]
  have hnothing : pair.wire = [] := by rw [wire, hio, hwritten, List.drop_nil, List.map_nil]
  have hlast : pair.receiver.link.lastDecoder = KissDecoder.new receiveMax := by
    rw [lastDecoder, hover, hdecoder, hio', hreads, Mealy.final_nil]
  refine ⟨hconfig ▸ hmode, h.mtu_eq, hio ▸ hwrites, ?_, ?_, ⟨[], ?_, by simp, ?_⟩, ?_⟩
  · rw [h.arrived_eq]
    exact Nat.zero_le _
  · rw [h.received_eq]
    simp
  · rw [h.sent_eq, h.received_eq]
    rfl
  · rw [hnothing, hover, arrivals_none hpending, hio', hreads]
    rfl
  · rw [hnothing, hlast]
    exact ⟨KissDecoder.idle_new, rfl⟩

/-- The sender's other calls leave its mode and what it writes alone. -/
theorem Underway.of_sender {pair : RawPair sendMax receiveMax π} (h : pair.Underway wrapParams)
    {sender : RNodeSerialLink sendMax} (hconfig : sender.config = pair.sender.config)
    (hwrites : sender.io.writes = pair.sender.io.writes)
    (hwritten : sender.io.written = pair.sender.io.written) :
    ({ pair with sender } : RawPair sendMax receiveMax π).Underway wrapParams := by
  have hwire : ({ pair with sender } : RawPair sendMax receiveMax π).wire = pair.wire := by
    rw [wire, wire, hwritten]
  refine ⟨hconfig ▸ h.sender_mode, hconfig ▸ h.mtu_eq, hwrites ▸ h.writes_eq, hwritten ▸ h.arrived_le,
    h.addressed, ?_, ?_⟩
  · rw [hwire]
    exact h.holds
  · rw [hwire]
    exact h.settled

/-- A send that succeeds puts its packet last. -/
theorem Underway.sendOk {pair : RawPair sendMax receiveMax π} (h : pair.Underway wrapParams)
    {bytes : List UInt8} {sender : RNodeSerialLink sendMax}
    (hsend : sendGatewayBytes bytes pair.sender = .ok () sender) :
    ({ pair with sender, sent := pair.sent ++ [bytes] } : RawPair sendMax receiveMax π).Underway
      wrapParams := by
  obtain ⟨raw, hpacket, hlen, hconfig, hwrites, hwritten⟩ :=
    sendGatewayBytes_raw h.sender_mode h.writes_eq hsend
  obtain ⟨raws, hsent, hgood, harrivals⟩ := h.holds
  obtain ⟨hidle, hopen⟩ := h.settled
  have hwire : ({ pair with sender, sent := pair.sent ++ [bytes] } : RawPair sendMax receiveMax π).wire =
      pair.wire ++ (frameBytes kissCmdData raw).map fun byte => .ok (1, byte) := by
    rw [wire, wire, hwritten, List.drop_append_of_le_length h.arrived_le, List.map_append]
  have hfit : 1 + raw.length ≤ receiveMax := by
    have hcapacity := pair.receiver.link.capacity
    have hmtu := h.mtu_eq
    omega
  obtain ⟨hframe, hfinal⟩ := LinkPair.receive_frameBytes hidle hopen hfit
  refine ⟨hconfig ▸ h.sender_mode, hconfig ▸ h.mtu_eq, hwrites, ?_, h.addressed,
    ⟨raws ++ [raw], ?_, ?_, ?_⟩, ?_⟩
  · show pair.arrived ≤ sender.io.written.length
    rw [hwritten, List.length_append]
    exact Nat.le_add_right_of_le h.arrived_le
  · rw [List.map_append, hsent, List.map_append, List.append_assoc, List.map_singleton, hpacket]
    rfl
  · intro other hother
    obtain hold | hnew := List.mem_append.mp hother
    · exact hgood other hold
    · exact exists_packet_of_packetOf (List.mem_singleton.mp hnew ▸ hpacket)
  · rw [hwire, Mealy.outputs_append, hframe, ← List.append_assoc, harrivals, List.map_append]
    rfl
  · rw [hwire, Mealy.final_append, hfinal]
    exact ⟨KissDecoder.idle_boundary, rfl⟩

/-- A byte that arrives moves from the wire to the driver's port. -/
theorem Underway.arrival {pair : RawPair sendMax receiveMax π} (h : pair.Underway wrapParams)
    {byte : UInt8} (hbyte : pair.sender.io.written[pair.arrived]? = some byte) :
    ({ pair with
        receiver := { pair.receiver with link := LinkPair.arrive pair.receiver.link byte }
        arrived := pair.arrived + 1 } : RawPair sendMax receiveMax π).Underway wrapParams := by
  obtain ⟨hlt, hbyte⟩ := List.getElem?_eq_some_iff.mp hbyte
  have hwire : pair.wire = [.ok (1, byte)] ++ ({ pair with
      receiver := { pair.receiver with link := LinkPair.arrive pair.receiver.link byte }
      arrived := pair.arrived + 1 } : RawPair sendMax receiveMax π).wire := by
    rw [wire, wire, List.drop_eq_getElem_cons hlt, hbyte]
    rfl
  obtain ⟨raws, hsent, hgood, harrivals⟩ := h.holds
  refine ⟨h.sender_mode, h.mtu_eq, h.writes_eq, hlt, h.addressed, ⟨raws, hsent, hgood, ?_⟩, ?_⟩
  · rw [hwire, Mealy.outputs_append, ← List.append_assoc] at harrivals
    rw [LinkPair.arrivals_arrive, LinkPair.lastDecoder_arrive]
    exact harrivals
  · have hsettled := h.settled
    rw [hwire, Mealy.final_append] at hsettled
    rw [LinkPair.lastDecoder_arrive]
    exact hsettled

/-- The driver took what was in front of it, and what it handed over is received. -/
theorem Underway.of_receiver {pair : RawPair sendMax receiveMax π} (h : pair.Underway wrapParams)
    {receiver : RNodeRawRnsSerialDriver receiveMax π} {rest : List Arrival}
    (hadvanced : pair.receiver.link.Advanced receiver.link rest) {received : List LinkFrameRef}
    {raws : List (List UInt8)} (haddressed : ∀ frame ∈ received, Addressed wrapParams frame)
    (hsent : pair.sent.map packetOf = received.map (fun frame => packetOf frame.bytes) ++ raws.map some)
    (hgood : ∀ raw ∈ raws, ∃ packet, validateRnsPacket raw = .ok packet)
    (hrest : rest ++ receive.outputs pair.receiver.link.lastDecoder pair.wire =
      raws.map LinkPair.dataFrame) :
    ({ pair with receiver, received } : RawPair sendMax receiveMax π).Underway wrapParams := by
  have hconfig := hadvanced.polled.config_eq
  refine ⟨h.sender_mode, hconfig ▸ h.mtu_eq, h.writes_eq, h.arrived_le, haddressed,
    ⟨raws, hsent, hgood, ?_⟩, ?_⟩
  · rw [hadvanced.arrivals_eq, hadvanced.lastDecoder_eq]
    exact hrest
  · rw [hadvanced.lastDecoder_eq]
    exact h.settled

/-- **What a poll of the driver does**: it finds nothing, it returns the next packet in an envelope of its
own, or it keeps that packet. -/
theorem Underway.poll_cases {pair : RawPair sendMax receiveMax π} (h : pair.Underway wrapParams)
    (nowMs : TimestampMs) (output : List UInt8) :
    (∃ receiver, pair.receiver.pollFrame wrapParams nowMs output = .ok none receiver ∧
        pair.receiver.link.arrivals = [] ∧
        ({ pair with receiver } : RawPair sendMax receiveMax π).Underway wrapParams) ∨
      (∃ frame receiver, pair.receiver.pollFrame wrapParams nowMs output = .ok (some frame) receiver ∧
        ({ pair with receiver, received := pair.received ++ [frame] } :
          RawPair sendMax receiveMax π).Underway wrapParams) ∨
      ∃ packet receivedAtMs error receiver, validateRnsPacket packet.raw = .ok packet ∧
        RNodeRawRnsSerialDriver.Withheld wrapParams pair.receiver.provider packet receivedAtMs output
          error ∧
        pair.receiver.pollFrame wrapParams nowMs output = .error error receiver ∧
        ({ pair with receiver } : RawPair sendMax receiveMax π).Underway wrapParams := by
  obtain ⟨raws, hsent, hgood, harrivals⟩ := h.holds
  cases hfront : pair.receiver.link.arrivals with
  | nil =>
    obtain ⟨link, hpoll, hadvanced⟩ := RNodeRawRnsSerialDriver.pollFrame_empty hfront
    rw [hfront] at harrivals
    exact .inl ⟨_, hpoll, rfl, h.of_receiver hadvanced h.addressed hsent hgood harrivals⟩
  | cons arrival rest =>
    rw [hfront] at harrivals
    -- the arrival in front is the first packet that is under way
    obtain ⟨raw, raws', rfl⟩ : ∃ raw raws', raws = raw :: raws' := by
      cases raws with
      | nil => cases harrivals
      | cons raw raws' => exact ⟨raw, raws', rfl⟩
    rw [List.map_cons, List.cons_append] at harrivals
    obtain ⟨rfl, hrest⟩ := List.cons.inj harrivals
    obtain ⟨packet, hvalidate⟩ := hgood raw List.mem_cons_self
    have hraw := raw_of_validateRnsPacket hvalidate
    obtain ⟨receivedAtMs, provider, hcases⟩ :=
      RNodeRawRnsSerialDriver.pollFrame_packet nowMs output hfront hvalidate
    obtain ⟨envelope, link, haddressed, hpoll, hadvanced⟩ | ⟨error, link, hwithheld, hpoll, hadvanced⟩ :=
      hcases
    · obtain ⟨params, hparams, hwrap⟩ := RNodeRawRnsSerialDriver.addressed_eq_ok haddressed
      refine .inr (.inl ⟨_, _, hpoll, h.of_receiver hadvanced ?_ ?_ ?_ hrest⟩)
      · intro frame hframe
        obtain hold | hnew := List.mem_append.mp hframe
        · exact h.addressed frame hold
        · rw [List.mem_singleton.mp hnew]
          exact ⟨pair.receiver.provider, packet, params, envelope, hparams, hwrap, rfl⟩
      · rw [hsent, List.map_append, List.append_assoc, List.map_singleton, packetOf_wireBytes hwrap, hraw]
        rfl
      · exact fun raw hmem => hgood raw (List.mem_cons_of_mem _ hmem)
    · refine .inr (.inr ⟨packet, receivedAtMs, error, _, hraw.symm ▸ hvalidate, hwithheld, hpoll,
        h.of_receiver hadvanced h.addressed hsent hgood ?_⟩)
      rw [List.map_cons, List.cons_append, hrest]

/-- Every step keeps the invariant. -/
theorem Step.underway {pair pair' : RawPair sendMax receiveMax π} (h : Step wrapParams pair pair')
    (hunder : pair.Underway wrapParams) : pair'.Underway wrapParams := by
  cases h with
  | sendOk hsend => exact hunder.sendOk hsend
  | sendError hsend =>
    obtain rfl := LinkPair.sendGatewayBytes_error hunder.writes_eq hsend
    exact hunder
  | senderPort _ reads => exact hunder.of_sender rfl rfl rfl
  | senderPoll _ poll =>
    have hpolled := poll.polled_run pair.sender
    exact hunder.of_sender hpolled.config_eq hpolled.writes_eq hpolled.written_eq
  | arrival hbyte => exact hunder.arrival hbyte
  | @pollOk _ nowMs output _ _ hpoll =>
    obtain ⟨receiver, hnone, -, hafter⟩ | ⟨frame, receiver, hframe, hafter⟩ |
      ⟨_, _, _, _, -, -, hkept, -⟩ := hunder.poll_cases nowMs output
    · rw [hnone] at hpoll
      cases hpoll
      rw [Option.toList_none, List.append_nil]
      exact hafter
    · rw [hframe] at hpoll
      cases hpoll
      exact hafter
    · rw [hkept] at hpoll
      cases hpoll
  | @pollError _ nowMs output _ _ hpoll =>
    obtain ⟨_, hnone, -⟩ | ⟨_, _, hframe, -⟩ | ⟨_, _, _, receiver, -, -, hkept, hafter⟩ :=
      hunder.poll_cases nowMs output
    · rw [hnone] at hpoll
      cases hpoll
    · rw [hframe] at hpoll
      cases hpoll
    · rw [hkept] at hpoll
      cases hpoll
      exact hafter

/-- In every run all packets stay underway. -/
theorem Run.underway {pair pair' : RawPair sendMax receiveMax π} (h : Run wrapParams pair pair')
    (hunder : pair.Underway wrapParams) : pair'.Underway wrapParams := by
  induction h with
  | refl => exact hunder
  | tail _ hstep ih => exact hstep.underway ih

/-! ## Draining -/

/-- The provider addresses every packet, and the envelopes take `room` bytes at most. -/
def Obliging (wrapParams : RnsWrapParamsProvider π) (room : ℕ) : Prop :=
  ∀ provider packet receivedAtMs, validateRnsPacket packet.raw = .ok packet →
    ∃ envelope, RNodeRawRnsSerialDriver.addressed wrapParams provider packet receivedAtMs = .ok envelope ∧
      (wireBytes envelope).length ≤ room

/-- An obliging provider withholds nothing. -/
theorem Obliging.not_withheld {room : ℕ} (h : Obliging wrapParams room) {provider : π}
    {packet : RnsPacketRef} (hvalidate : validateRnsPacket packet.raw = .ok packet)
    (receivedAtMs : TimestampMs) {output : List UInt8} (hroom : room ≤ output.length)
    (error : RNodeSerialError) :
    ¬RNodeRawRnsSerialDriver.Withheld wrapParams provider packet receivedAtMs output error := by
  obtain ⟨envelope, haddressed, hlen⟩ := h provider packet receivedAtMs hvalidate
  rintro (herror | ⟨other, hother, hshort, -⟩)
  · rw [haddressed] at herror
    cases herror
  · rw [haddressed] at hother
    cases hother
    omega

/-- Any number of polls, one after the other. -/
def pollAll (wrapParams : RnsWrapParamsProvider π) (polls : List (TimestampMs × List UInt8)) :
    RNodeRawRnsSerialDriver.DriverM receiveMax π (List (Option LinkFrameRef)) :=
  polls.mapM fun poll => RNodeRawRnsSerialDriver.pollFrame wrapParams poll.1 poll.2

/-- The first poll and the others. -/
theorem pollAll_cons {poll : TimestampMs × List UInt8} {polls : List (TimestampMs × List UInt8)}
    {driver driver' driver'' : RNodeRawRnsSerialDriver receiveMax π} {frame : Option LinkFrameRef}
    {frames : List (Option LinkFrameRef)}
    (hfirst : driver.pollFrame wrapParams poll.1 poll.2 = .ok frame driver')
    (hrest : pollAll wrapParams polls driver' = .ok frames driver'') :
    pollAll wrapParams (poll :: polls) driver = .ok (frame :: frames) driver'' := by
  rw [pollAll, List.mapM_cons]
  rw [ByteCodec.run_bind_of_ok hfirst]
  exact ByteCodec.run_bind_of_ok hrest _

/-- Once every byte has arrived, each poll of an obliging driver with enough room returns the next packet,
until none is left. -/
theorem Underway.polls {pair : RawPair sendMax receiveMax π} (h : pair.Underway wrapParams)
    (hall : pair.arrived = pair.sender.io.written.length) {room : ℕ} (hobliging : Obliging wrapParams room)
    (polls : List (TimestampMs × List UInt8)) (hroom : ∀ poll ∈ polls, room ≤ poll.2.length) :
    ∃ frames receiver, pollAll wrapParams polls pair.receiver = .ok frames receiver ∧
      (pair.received ++ frames.reduceOption).map (fun frame => packetOf frame.bytes) =
        (pair.sent.map packetOf).take (pair.received.length + polls.length) := by
  have hwire : pair.wire = [] := by rw [wire, hall, List.drop_length, List.map_nil]
  induction polls generalizing pair with
  | nil =>
    obtain ⟨raws, hsent, -⟩ := h.holds
    refine ⟨[], pair.receiver, rfl, ?_⟩
    rw [hsent, List.reduceOption_nil, List.append_nil, List.length_nil, Nat.add_zero,
      List.take_append_of_le_length (by rw [List.length_map]), List.take_of_length_le (by
        rw [List.length_map])]
  | cons poll polls ih =>
    have hroom' : ∀ poll ∈ polls, room ≤ poll.2.length :=
      fun later hmem => hroom later (List.mem_cons_of_mem _ hmem)
    obtain ⟨receiver, hpoll, hempty, hafter⟩ | ⟨frame, receiver, hpoll, hafter⟩ |
      ⟨packet, receivedAtMs, error, _, hvalidate, hwithheld, -⟩ := h.poll_cases poll.1 poll.2
    · obtain ⟨frames, receiver', hrun, hframes⟩ := ih hafter hall hroom' hwire
      refine ⟨none :: frames, receiver', pollAll_cons hpoll hrun, ?_⟩
      -- nothing is under way, so everything was received before
      obtain ⟨raws, hsent, -, harrivals⟩ := h.holds
      rw [hempty, hwire] at harrivals
      obtain rfl : raws = [] := List.map_eq_nil_iff.mp harrivals.symm
      replace hframes : (pair.received ++ frames.reduceOption).map (fun frame => packetOf frame.bytes) =
        (pair.sent.map packetOf).take (pair.received.length + polls.length) := hframes
      have hlength : (pair.sent.map packetOf).length = pair.received.length := by
        rw [hsent, List.map_nil, List.append_nil, List.length_map]
      rw [List.reduceOption_cons_of_none, hframes, List.take_of_length_le (by omega),
        List.take_of_length_le (by omega)]
    · obtain ⟨frames, receiver', hrun, hframes⟩ := ih hafter hall hroom' hwire
      refine ⟨some frame :: frames, receiver', pollAll_cons hpoll hrun, ?_⟩
      replace hframes : (pair.received ++ [frame] ++ frames.reduceOption).map
          (fun frame => packetOf frame.bytes) =
        (pair.sent.map packetOf).take ((pair.received ++ [frame]).length + polls.length) := hframes
      rw [List.append_assoc, List.length_append, List.length_singleton, Nat.add_assoc,
        Nat.add_comm 1] at hframes
      rw [List.reduceOption_cons_of_some]
      exact hframes
    · exact absurd hwithheld (hobliging.not_withheld hvalidate receivedAtMs
        (hroom poll List.mem_cons_self) error)

/-! ## The whole way -/

/-- The pair when every byte that was written has arrived. -/
def allArrived (pair : RawPair sendMax receiveMax π) : RawPair sendMax receiveMax π :=
  { pair with
    receiver := { pair.receiver with
      link := (pair.sender.io.written.drop pair.arrived).foldl LinkPair.arrive pair.receiver.link }
    arrived := pair.sender.io.written.length }

/-- What is on the wire can arrive, byte by byte. -/
theorem run_allArrived (pair : RawPair sendMax receiveMax π)
    (hle : pair.arrived ≤ pair.sender.io.written.length) : Run wrapParams pair pair.allArrived := by
  rw [allArrived]
  -- induction on the bytes that are still on the wire
  generalize hbytes : pair.sender.io.written.drop pair.arrived = bytes
  induction bytes generalizing pair with
  | nil =>
    rw [← le_antisymm hle (List.drop_eq_nil_iff.mp hbytes)]
    exact .refl
  | cons byte bytes ih =>
    have hnext : pair.sender.io.written[pair.arrived]? = some byte := by
      rw [← List.head?_drop, hbytes, List.head?_cons]
    have hlt : pair.arrived < pair.sender.io.written.length :=
      (List.getElem?_eq_some_iff.mp hnext).1
    have hrest : pair.sender.io.written.drop (pair.arrived + 1) = bytes := by
      rw [← List.tail_drop, hbytes, List.tail_cons]
    have harrived := ih
      { pair with
        receiver := { pair.receiver with link := LinkPair.arrive pair.receiver.link byte }
        arrived := pair.arrived + 1 } hlt hrest
    exact .head (.arrival hnext) harrived

/-- What a link in raw mode and a driver promise that are connected by a wire: the packets of the envelopes
that were sent come in their order, each once and unaltered, in envelopes with the addresses that the
provider gave; a send succeeds exactly for the envelope of a packet that fits, unless flow control blocks,
and a send that is refused writes nothing; a poll fails only for a packet without an address or without
room, and keeps it; and once all bytes have arrived, as many polls of an obliging driver as packets
are outstanding return all of them. -/
structure EndToEnd (wrapParams : RnsWrapParamsProvider π) (pair : RawPair sendMax receiveMax π) :
    Prop where
  sent_packets : ∀ bytes ∈ pair.sent, ∃ raw, packetOf bytes = some raw
  received_prefix : pair.received.map (fun frame => packetOf frame.bytes) <+: pair.sent.map packetOf
  addressed : ∀ frame ∈ pair.received, Addressed wrapParams frame
  accepted : ∀ bytes, (∃ sender, sendGatewayBytes bytes pair.sender = .ok () sender) ↔
    ∃ raw, packetOf bytes = some raw ∧ raw.length ≤ pair.sender.config.mtu ∧
      pair.sender.state.canTransmit = true
  refused : ∀ bytes error sender, sendGatewayBytes bytes pair.sender = .error error sender →
    sender = pair.sender
  poll_error : ∀ nowMs output error receiver,
    pair.receiver.pollFrame wrapParams nowMs output = .error error receiver →
      ∃ packet receivedAtMs, validateRnsPacket packet.raw = .ok packet ∧
        RNodeRawRnsSerialDriver.Withheld wrapParams pair.receiver.provider packet receivedAtMs output error
  polls : pair.arrived = pair.sender.io.written.length → ∀ room, Obliging wrapParams room →
    ∀ polls : List (TimestampMs × List UInt8), (∀ poll ∈ polls, room ≤ poll.2.length) →
      pair.sent.length - pair.received.length ≤ polls.length →
        ∃ frames receiver, pollAll wrapParams polls pair.receiver = .ok frames receiver ∧
          (pair.received ++ frames.reduceOption).map (fun frame => packetOf frame.bytes) =
            pair.sent.map packetOf

/-- Everything that was sent has a packet. -/
theorem Underway.exists_packet {pair : RawPair sendMax receiveMax π} (h : pair.Underway wrapParams)
    {bytes : List UInt8} (hmem : bytes ∈ pair.sent) : ∃ raw, packetOf bytes = some raw := by
  obtain ⟨raws, hsent, -⟩ := h.holds
  have hpacket : packetOf bytes ∈ pair.sent.map packetOf := List.mem_map_of_mem hmem
  rw [hsent] at hpacket
  obtain hreceived | hunder := List.mem_append.mp hpacket
  · obtain ⟨frame, hframe, heq⟩ := List.mem_map.mp hreceived
    obtain ⟨raw, hraw⟩ := (h.addressed frame hframe).exists_packet
    exact ⟨raw, heq ▸ hraw⟩
  · obtain ⟨raw, -, heq⟩ := List.mem_map.mp hunder
    exact ⟨raw, heq.symm⟩

/-- **RNS packets end to end**: a link in raw mode and a driver with any provider keep this promise in every
interleaving of sends, arriving bytes and polls. -/
theorem endToEnd_of_rawRun {pair pair' : RawPair sendMax receiveMax π} (h : pair.Initial)
    (hrun : Run wrapParams pair pair') : pair'.EndToEnd wrapParams := by
  have hunder := Run.underway hrun h.underway
  obtain ⟨raws, hsent, -⟩ := hunder.holds
  refine ⟨fun _ => hunder.exists_packet, ⟨raws.map some, hsent.symm⟩, hunder.addressed, fun bytes =>
    sendGatewayBytes_raw_iff hunder.sender_mode hunder.writes_eq, ?_, ?_, ?_⟩
  · exact fun bytes error sender hsend => LinkPair.sendGatewayBytes_error hunder.writes_eq hsend
  · intro nowMs output error receiver hpoll
    obtain ⟨_, hnone, -⟩ | ⟨_, _, hframe, -⟩ | ⟨packet, receivedAtMs, _, _, hvalidate, hwithheld, hkept, -⟩ :=
      hunder.poll_cases nowMs output
    · rw [hnone] at hpoll
      cases hpoll
    · rw [hframe] at hpoll
      cases hpoll
    · rw [hkept] at hpoll
      cases hpoll
      exact ⟨packet, receivedAtMs, hvalidate, hwithheld⟩
  · intro hall room hobliging polls hroom hmany
    obtain ⟨frames, receiver, hpolls, hframes⟩ := hunder.polls hall hobliging polls hroom
    refine ⟨frames, receiver, hpolls, hframes.trans (List.take_of_length_le ?_)⟩
    rw [List.length_map]
    omega

/-- A provider that gives every packet the same address. -/
theorem obliging_of_params {params : RnsWrapParams} (h : params.createdAtMs < params.expiresAtMs) :
    Obliging (fun _ _ (provider : π) => (some params, provider))
      (85 + (destinationBytes params.destination).length + rnsMtu) := by
  intro provider packet receivedAtMs hvalidate
  obtain ⟨decoded, hdecode, -⟩ := Except.exists_of_bind_eq_ok hvalidate
  have hsize : packet.raw.length ≤ rnsMtu := by
    cases hread : decodePacket packet.raw with
    | error error =>
      rw [hread] at hdecode
      cases hdecode
    | ok decoded => exact (isPacket_of_decodePacket hread).2.1
  have hwrap : ∃ envelope, wrapRnsPacket packet params = .ok envelope ∧
      envelope.destination = params.destination ∧ envelope.payload = packet.raw := by
    rw [wrapRnsPacket_eq]
    refine ⟨_, Carrier.wrap_eq_ok_iff.mpr ⟨packet, hvalidate, ?_, rfl⟩, rfl, rfl⟩
    exact validEnvelope_iff.mpr ⟨rfl, h, hsize.trans (by decide)⟩
  obtain ⟨envelope, hwrap, hdestination, hpayload⟩ := hwrap
  refine ⟨envelope, ?_, ?_⟩
  · show (wrapRnsPacket packet params).mapError RNodeSerialError.rns = _
    rw [hwrap]
    rfl
  · rw [length_wireBytes, hdestination, hpayload]
    omega

/-- A link and a driver with nothing sent yet. -/
def samplePair : RawPair 64 64 Unit :=
  let link : RNodeSerialLink 64 := {
    config := ⟨⟨fillBytes 16 1⟩, 60, false, .rawRnsPacket⟩
    io := ⟨[], [], []⟩
    state := RNodeState.new false
    decoder := KissDecoder.new 64
    pending := none
    capacity := by decide }
  ⟨link, ⟨link, ()⟩, 0, [], []⟩

/-- The sample pair is a start. -/
theorem initial_samplePair : samplePair.Initial where
  sender_new := ⟨samplePair.sender.config, samplePair.sender.io, rfl, rfl, rfl, rfl⟩
  receiver_new := ⟨samplePair.sender.config, samplePair.sender.io, samplePair.sender, rfl, rfl, rfl⟩
  mtu_eq := rfl
  arrived_eq := rfl
  sent_eq := rfl
  received_eq := rfl

/-- A packet with an empty header. -/
def samplePacket : List UInt8 := List.replicate 20 0

def sampleParams : RnsWrapParams :=
  ⟨⟨fillBytes 32 9⟩, .community ⟨fillBytes 16 9⟩, 1, 100, 4, ⟨fillBytes 32 7⟩⟩

/-- The bytes of an envelope with that packet. -/
def sampleBytes : List UInt8 :=
  wireBytes { sampleEnvelope 7 (.community ⟨fillBytes 16 9⟩) 1 with
    payloadKind := .foreignRnsPacket
    payload := samplePacket }

/-- The packet arrives as a whole and is returned in an envelope with the address of a provider that
gives every packet the same one; what is promised holds from then on. -/
theorem endToEnd_samplePacket : ∃ pair,
    Run (fun _ _ provider => (some sampleParams, provider)) samplePair pair ∧
      pair.sent = [sampleBytes] ∧
      (pair.received.map fun frame => packetOf frame.bytes) = [some samplePacket] ∧
      pair.EndToEnd fun _ _ provider => (some sampleParams, provider) := by
  have hpacket : packetOf sampleBytes = some samplePacket := by decide +kernel
  have hmode : samplePair.sender.config.dataMode = .rawRnsPacket := rfl
  obtain ⟨sender, hsend⟩ :=
    (sendGatewayBytes_raw_iff hmode rfl).mpr ⟨samplePacket, hpacket, by decide, rfl⟩
  have hsent : Run (fun _ _ provider => (some sampleParams, provider)) samplePair
      { samplePair with sender, sent := [sampleBytes] } := .single (.sendOk hsend)
  have harrived := hsent.trans (run_allArrived _ (Nat.zero_le _))
  -- all bytes are there, so one poll returns the packet
  obtain ⟨frames, receiver, hpolls, hreceived⟩ :=
    (endToEnd_of_rawRun initial_samplePair harrived).polls rfl _ (obliging_of_params (by decide))
      [(5, List.replicate 700 0)]
      (by
        intro poll hpoll
        obtain rfl := List.mem_singleton.mp hpoll
        decide +kernel) (by exact le_rfl)
  rw [pollAll, List.mapM_cons] at hpolls
  obtain ⟨frame, receiver', hpoll, hrest⟩ := ByteCodec.exists_of_run_bind_eq_ok hpolls
  cases hrest
  have hrun := harrived.tail (.pollOk hpoll)
  refine ⟨_, hrun, rfl, ?_, endToEnd_of_rawRun initial_samplePair hrun⟩
  rw [← hpacket]
  refine Eq.trans ?_ hreceived
  cases frame <;> rfl

end RawPair

end Hyf.RNodeSerial
