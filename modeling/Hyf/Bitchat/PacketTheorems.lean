import Hyf.Bitchat.Packet

/-!
# The BitChat codec round trip

`ValidPacket` is what the decoder knows of a packet of either version: the flags say which fields are
there, the route has as many hops as it claims, and the lengths are within bounds. The decoder
accepts exactly the layouts of valid packets. The encoder is the layout too, with the flags computed
from the fields, so that a decoded packet of version 2 with a plain payload is written back as it was.
-/

namespace Hyf.Bitchat

open ByteCodec CursorM WriterM

/-- A route has a bounded number of hops, and the bytes of so many peers. -/
structure ValidRoute (route : BitchatRouteRef) : Prop where
  hopCount_le : route.hopCount.toNat ≤ bitchatRouteMaxHops
  rawHops_length : route.rawHops.length = route.hopCount.toNat * bitchatPeerIdLen

/-- A compressed payload has a body and tells an original size within the bound. -/
def ValidPayload : BitchatPayloadRef → Prop
  | .plain _ => True
  | .compressed originalLen compressedBytes =>
    originalLen ≠ 0 ∧ originalLen ≤ bitchatPayloadMaxLen ∧ compressedBytes ≠ []

/-- The packets that the decoder returns, apart from the limit on their length. -/
structure ValidPacket (packet : BitchatPacketRef) : Prop where
  recipient_flag : packet.recipientId.isSome = packet.flags.hasRecipient
  signature_flag : packet.signature.isSome = packet.flags.hasSignature
  route_flag : packet.route.isSome = packet.flags.hasRoute
  compressed_flag : packet.payload.isCompressed = packet.flags.isCompressed
  route_version : ¬(packet.version = .v1 ∧ packet.flags.hasRoute = true)
  route_valid : ∀ route, packet.route = some route → ValidRoute route
  payload_valid : ValidPayload packet.payload
  payload_length : (payloadBytes packet.version packet.payload).length ≤ bitchatPayloadMaxLen

/-! ## Flags -/

/-- The byte of flags is read as these flags. -/
theorem BitchatFlags.fromWireByte_toWireByte (flags : BitchatFlags) :
    fromWireByte flags.toWireByte = .ok flags := by
  obtain ⟨hasRecipient, hasSignature, isCompressed, hasRoute, isRsr⟩ := flags
  cases hasRecipient <;> cases hasSignature <;> cases isCompressed <;> cases hasRoute <;>
    cases isRsr <;> rfl

/-- A byte without reserved bits is written as it was read. -/
theorem BitchatFlags.toWireByte_ofByte (flags : UInt8) :
    flags &&& flagReservedMask = 0 → (ofByte flags).toWireByte = flags := by
  revert flags
  apply forall_byte
  decide

/-- Flags that were read are written as the byte they came from. -/
theorem BitchatFlags.ends_fromWireByte (flags : UInt8) :
    Ends (fromWireByte flags) fun decoded => decoded.toWireByte = flags := by
  refine (ends_rejectIf _ _).bind fun _ hreserved => ?_
  exact toWireByte_ofByte flags (not_not.mp hreserved)

/-! ## Optional fields -/

/-- The decoder's slices take exactly what they are asked for. -/
theorem takesSlices (field : String) : TakesSlices (readSlice field) := takesSlices_takeSlice _ _

section

variable {α : Type} {bytes : α → List UInt8} {reader : CursorM BitchatError α}

/-- A part is read exactly if it is present. -/
theorem yields_readOptional (present : Bool) (h : Yields reader fun a read => read = bytes a) :
    Yields (readOptional present reader) fun value read =>
      value.isSome = present ∧ read = optionalBytes bytes value := by
  cases present with
  | false => exact Yields.pure ⟨rfl, rfl⟩
  | true =>
    apply Yields.bind h
    rintro a _ rfl
    exact Yields.pure ⟨rfl, List.append_nil _⟩

/-- A part that is present is read from its bytes. -/
theorem reads_readOptional {present : Bool} {value : Option α} (hvalue : value.isSome = present)
    (h : ∀ a, Reads reader (bytes a) a) :
    Reads (readOptional present reader) (optionalBytes bytes value) value := by
  subst hvalue
  cases value with
  | none => exact Reads.pure none
  | some a => exact (h a).map some

/-- A part is written if it is there. -/
theorem writes_writeOptional (value : Option α) {write : α → WriterM BitchatError Unit}
    (h : ∀ a, Writes (write a) (bytes a)) :
    Writes (writeOptional value write) (optionalBytes bytes value) := by
  cases value with
  | none => exact Writes.nil
  | some a => exact h a

/-- The length of a part that may be missing. -/
theorem length_optionalBytes {len : ℕ} (value : Option α) (h : ∀ a, (bytes a).length = len) :
    (optionalBytes bytes value).length = if value.isSome then len else 0 := by
  cases value with
  | none => rfl
  | some a => exact h a

end

/-- A peer that was read is its bytes. -/
theorem yields_readPeerId (field : String) :
    Yields (readPeerId field) fun peerId read => read = peerId.bytes.toList := by
  apply ((takesSlices field).yields_readArray 8).bind
  rintro peerId _ rfl
  exact Yields.pure (List.append_nil _)

/-- A peer is read from its bytes. -/
theorem reads_readPeerId (field : String) (peerId : BitchatPeerId) :
    Reads (readPeerId field) peerId.bytes.toList peerId :=
  ((takesSlices field).reads_readArray peerId.bytes).map BitchatPeerId.mk

/-- A signature that was read is its bytes. -/
theorem yields_readSignature :
    Yields readSignature fun signature read => read = signature.bytes.toList := by
  apply ((takesSlices _).yields_readArray 64).bind
  rintro signature _ rfl
  exact Yields.pure (List.append_nil _)

/-- A signature is read from its bytes. -/
theorem reads_readSignature (signature : BitchatSignature) :
    Reads readSignature signature.bytes.toList signature :=
  ((takesSlices _).reads_readArray signature.bytes).map BitchatSignature.mk

/-! ## Lengths and routes -/

/-- A sum that fits is no overflow. -/
theorem checkedAddLen_eq {a b : ℕ} (h : a + b < addressLimit) : checkedAddLen a b = .ok (a + b) := by
  rw [checkedAddLen, checkedAdd_eq_some h]

/-- A checked sum is the sum. -/
theorem ends_checkedAddLen (a b : ℕ) : Ends (checkedAddLen a b) fun len => len = a + b := by
  unfold checkedAddLen checkedAdd
  split_ifs
  · exact rfl
  · exact trivial

/-- A hop count is a byte, so its product with the length of a peer id does not overflow. -/
theorem checkedMulLen_hopCount (hopCount : UInt8) :
    checkedMulLen hopCount.toNat bitchatPeerIdLen = .ok (hopCount.toNat * bitchatPeerIdLen) := by
  have hlt := hopCount.toNat_lt
  rw [checkedMulLen, if_pos (by rw [bitchatPeerIdLen, addressLimit]; omega)]

/-- A route that was read is well formed, and there is one exactly if its flag is set. -/
theorem yields_decodeRoute (version : BitchatVersion) (flags : BitchatFlags) :
    Yields (decodeRoute version flags) fun route read =>
      route.isSome = flags.hasRoute ∧ (∀ r, route = some r → ValidRoute r) ∧
      read = optionalBytes routeBytes route := by
  unfold decodeRoute
  split_ifs with hnone
  · refine Yields.pure ⟨hnone.symm, ?_, rfl⟩
    intro r hr
    cases hr
  rw [Bool.not_eq_false] at hnone
  refine Yields.check (ends_rejectIf _ _) fun _ _ => ?_
  apply (takesSlices _).yields_readU8.bind
  rintro hopCount _ rfl
  refine Yields.check (ends_rejectIf _ _) fun _ hhops => ?_
  rw [checkedMulLen_hopCount]
  refine Yields.check (x := .ok _) rfl fun _ hrouteLen => ?_
  subst hrouteLen
  apply ((takesSlices _).yields _).bind
  rintro rawHops _ ⟨rfl, hlen⟩
  refine Yields.pure ⟨hnone.symm, ?_, ?_⟩
  · intro r hr
    cases hr
    exact ⟨Nat.le_of_not_lt hhops, hlen⟩
  · rw [List.append_nil]
    rfl

/-- A well-formed route is read from its bytes. -/
theorem reads_decodeRoute {version : BitchatVersion} {flags : BitchatFlags}
    {route : Option BitchatRouteRef} (hflag : route.isSome = flags.hasRoute)
    (hversion : ¬(version = .v1 ∧ flags.hasRoute = true))
    (hvalid : ∀ r, route = some r → ValidRoute r) :
    Reads (decodeRoute version flags) (optionalBytes routeBytes route) route := by
  unfold decodeRoute
  cases route with
  | none =>
    have hflagFalse : flags.hasRoute = false := hflag.symm
    rw [if_pos hflagFalse]
    exact Reads.pure none
  | some route =>
    have hflagTrue : flags.hasRoute = true := hflag.symm
    obtain ⟨hhops, hlen⟩ := hvalid route rfl
    rw [if_neg (by rw [hflagTrue]; exact Bool.noConfusion)]
    refine Reads.check (rejectIf_eq_ok fun hv1 => hversion ⟨hv1, hflagTrue⟩) ?_
    refine ((takesSlices _).reads_readU8 route.hopCount).bind ?_
    refine Reads.check (rejectIf_eq_ok (Nat.not_lt.mpr hhops)) ?_
    refine Reads.check (checkedMulLen_hopCount _) ?_
    exact ((takesSlices _).reads_of_length hlen.symm).map fun rawHops =>
      some (BitchatRouteRef.mk route.hopCount rawHops)

/-! ## Payloads -/

/-- The original length is spelled by the preamble. -/
theorem readOriginalLen_eq {bytes : List UInt8} {version : BitchatVersion}
    (h : compressedPreambleLen version ≤ bytes.length) :
    readOriginalLen bytes version = .ok (ofBe (bytes.take (compressedPreambleLen version))) := by
  cases version with
  | v1 =>
    match bytes, h with
    | _ :: _ :: _, _ => rfl
  | v2 =>
    match bytes, h with
    | _ :: _ :: _ :: _ :: _, _ => rfl

/-- A payload that was decoded is valid and stands for its bytes. -/
theorem ends_decodePayload (version : BitchatVersion) (flags : BitchatFlags) (bytes : List UInt8) :
    Ends (decodePayload version flags bytes) fun payload =>
      payload.isCompressed = flags.isCompressed ∧ ValidPayload payload ∧
      bytes = payloadBytes version payload := by
  unfold decodePayload
  split_ifs with hplain
  · exact ⟨hplain.symm, trivial, rfl⟩
  rw [Bool.not_eq_false] at hplain
  refine (ends_rejectIf _ _).bind fun _ hpreamble => ?_
  have hlen : compressedPreambleLen version ≤ bytes.length := Nat.le_of_not_lt hpreamble
  rw [readOriginalLen_eq hlen]
  refine (ends_rejectIf _ _).bind fun _ hzero => ?_
  refine (ends_rejectIf _ _).bind fun _ hlarge => ?_
  apply (ends_slice hlen le_rfl).bind
  rintro body rfl
  refine (ends_rejectIf _ _).bind fun _ hempty => ?_
  refine ⟨hplain.symm, ⟨hzero, Nat.le_of_not_lt hlarge, hempty⟩, ?_⟩
  have hpreambleBytes := toBe_ofBe (bytes.take (compressedPreambleLen version))
  rw [List.length_take, Nat.min_eq_left hlen] at hpreambleBytes
  have hbody : (bytes.drop (compressedPreambleLen version)).take
      (bytes.length - compressedPreambleLen version) =
      bytes.drop (compressedPreambleLen version) := by
    rw [List.take_of_length_le]
    rw [List.length_drop]
  rw [payloadBytes, hpreambleBytes, hbody, List.take_append_drop]

/-- A valid payload is decoded from its bytes. -/
theorem decodePayload_payloadBytes {version : BitchatVersion} {flags : BitchatFlags}
    {payload : BitchatPayloadRef} (hflag : payload.isCompressed = flags.isCompressed)
    (hvalid : ValidPayload payload) :
    decodePayload version flags (payloadBytes version payload) = .ok payload := by
  unfold decodePayload
  cases payload with
  | plain bytes =>
    have hflagFalse : flags.isCompressed = false := hflag.symm
    rw [if_pos hflagFalse]
    rfl
  | compressed originalLen body =>
    have hflagTrue : flags.isCompressed = true := hflag.symm
    obtain ⟨hzero, hlarge, hempty⟩ := hvalid
    -- the preamble is wide enough in both versions, since the original length is bounded
    have hwidth : originalLen < 256 ^ compressedPreambleLen version := by
      rw [bitchatPayloadMaxLen] at hlarge
      cases version
      · show originalLen < 256 ^ 2
        omega
      · show originalLen < 256 ^ 4
        omega
    have hlen : compressedPreambleLen version ≤
        (payloadBytes version (.compressed originalLen body)).length := by
      rw [payloadBytes, List.length_append, length_toBe]
      omega
    have htake : (payloadBytes version (.compressed originalLen body)).take
        (compressedPreambleLen version) = toBe (compressedPreambleLen version) originalLen := by
      rw [payloadBytes, List.take_left' (length_toBe _ _)]
    have hdrop : (payloadBytes version (.compressed originalLen body)).drop
        (compressedPreambleLen version) = body := by
      rw [payloadBytes, List.drop_left' (length_toBe _ _)]
    have hslice : (slice (payloadBytes version (.compressed originalLen body))
        (compressedPreambleLen version) (payloadBytes version (.compressed originalLen body)).length :
        Outcome BitchatError (List UInt8)) = .ok body := by
      rw [slice, if_pos ⟨hlen, le_rfl⟩, hdrop, List.take_of_length_le]
      rw [payloadBytes, List.length_append, length_toBe]
      omega
    rw [if_neg (by rw [hflagTrue]; exact Bool.noConfusion)]
    simp only
    rw [rejectIf_eq_ok (Nat.not_lt.mpr hlen), readOriginalLen_eq hlen, htake, ofBe_toBe hwidth]
    simp only [Bind.bind, Except.bind]
    rw [rejectIf_eq_ok hzero, rejectIf_eq_ok (Nat.not_lt.mpr hlarge), hslice]
    simp only
    rw [rejectIf_eq_ok hempty]
    rfl

/-! ## Whole packets -/

/-- A length that was read has the width of the version. -/
theorem yields_readPayloadLen (version : BitchatVersion) :
    Yields (readPayloadLen version) fun len read => read = toBe (payloadLenWidth version) len := by
  cases version with
  | v1 =>
    apply (takesSlices _).yields_readU16.bind
    rintro len _ rfl
    exact Yields.pure (List.append_nil _)
  | v2 =>
    apply (takesSlices _).yields_readU32.bind
    rintro len _ rfl
    exact Yields.pure (List.append_nil _)

/-- A length within the bound is read from its bytes. -/
theorem reads_readPayloadLen (version : BitchatVersion) {len : ℕ} (h : len ≤ bitchatPayloadMaxLen) :
    Reads (readPayloadLen version) (toBe (payloadLenWidth version) len) len := by
  rw [bitchatPayloadMaxLen] at h
  cases version with
  | v1 =>
    have hlen : (UInt16.ofNat len).toNat = len := by
      rw [UInt16.toNat_ofNat', Nat.mod_eq_of_lt (by omega)]
    have hread := ((takesSlices "payload length").reads_readU16 (UInt16.ofNat len)).map UInt16.toNat
    rwa [hlen] at hread
  | v2 =>
    have hlen : (UInt32.ofNat len).toNat = len := by
      rw [UInt32.toNat_ofNat', Nat.mod_eq_of_lt (by omega)]
    have hread := ((takesSlices "payload length").reads_readU32 (UInt32.ofNat len)).map UInt32.toNat
    rwa [hlen] at hread

/-- A packet that was read is valid and stands for the bytes, up to the version it began with. -/
theorem yields_readBitchatPacket (version : BitchatVersion) :
    Yields (readBitchatPacket version) fun packet read =>
      packet.version = version ∧ ValidPacket packet ∧
      (read.head? = some packet.version.wireValue → read = packetBytes packet) := by
  unfold readBitchatPacket
  apply (takesSlices _).yields_readU8.bind
  rintro versionByte _ rfl
  apply (takesSlices _).yields_readU8.bind
  rintro packetType _ rfl
  apply (takesSlices _).yields_readU8.bind
  rintro ttl _ rfl
  apply (takesSlices _).yields_readU64.bind
  rintro timestamp _ rfl
  apply (takesSlices _).yields_readU8.bind
  rintro flagsByte _ rfl
  refine Yields.check (BitchatFlags.ends_fromWireByte _) fun flags hflags => ?_
  refine Yields.check (ends_rejectIf _ _) fun _ hroute => ?_
  apply (yields_readPayloadLen version).bind
  rintro payloadLen _ rfl
  refine Yields.check (ends_rejectIf _ _) fun _ hmax => ?_
  apply (yields_readPeerId _).bind
  rintro senderId _ rfl
  apply (yields_readOptional _ (yields_readPeerId _)).bind
  rintro recipientId _ ⟨hrecipient, rfl⟩
  apply (yields_decodeRoute version flags).bind
  rintro route _ ⟨hrouteFlag, hrouteValid, rfl⟩
  apply ((takesSlices _).yields payloadLen).bind
  rintro bytes _ ⟨rfl, hlen⟩
  apply Yields.check (ends_decodePayload version flags bytes)
  rintro payload ⟨hcompressed, hpayload, rfl⟩
  apply (yields_readOptional _ yields_readSignature).bind
  rintro signature _ ⟨hsignature, rfl⟩
  -- the version byte is only stepped over here: the caller has looked at it
  refine Yields.pure ⟨rfl, ?_, ?_⟩
  · rw [← hlen] at hmax
    exact ⟨hrecipient, hsignature, hrouteFlag, hcompressed, hroute, hrouteValid, hpayload,
      Nat.le_of_not_lt hmax⟩
  · intro hhead
    rw [List.singleton_append, List.head?_cons, Option.some_inj] at hhead
    subst hhead
    simp only [packetBytes, hflags, hlen, List.append_assoc, List.append_nil]

/-- A valid packet is read from its bytes. -/
theorem reads_readBitchatPacket {packet : BitchatPacketRef} (h : ValidPacket packet) :
    Reads (readBitchatPacket packet.version) (packetBytes packet) packet := by
  unfold readBitchatPacket packetBytes
  simp only [List.append_assoc]
  apply ((takesSlices _).reads_readU8 _).bind
  apply ((takesSlices _).reads_readU8 _).bind
  apply ((takesSlices _).reads_readU8 _).bind
  apply ((takesSlices _).reads_readU64 _).bind
  apply ((takesSlices _).reads_readU8 _).bind
  refine Reads.check (BitchatFlags.fromWireByte_toWireByte _) ?_
  refine Reads.check (rejectIf_eq_ok h.route_version) ?_
  apply (reads_readPayloadLen _ h.payload_length).bind
  refine Reads.check (rejectIf_eq_ok (Nat.not_lt.mpr h.payload_length)) ?_
  refine (reads_readPeerId _ _).bind ?_
  apply (reads_readOptional h.recipient_flag (reads_readPeerId _)).bind
  apply (reads_decodeRoute h.route_flag h.route_version h.route_valid).bind
  apply ((takesSlices _).reads _).bind
  refine Reads.check (decodePayload_payloadBytes h.compressed_flag h.payload_valid) ?_
  exact (reads_readOptional h.signature_flag reads_readSignature).map fun signature =>
    ({ packet with signature } : BitchatPacketRef)

/-- Trailing bytes are refused. -/
theorem finishes_decodeFinish : Finishes decodeFinish := by
  intro cursor hindex
  have hrun : decodeFinish cursor = raise (if cursor.input.length - cursor.index = 0 then .ok ()
      else fail (.trailingBytes (cursor.input.length - cursor.index))) cursor := rfl
  rw [hrun]
  by_cases hend : cursor.index = cursor.input.length
  · refine .inl ⟨hend, ?_⟩
    rw [if_pos (by omega)]
    rfl
  · refine .inr ⟨hend, .trailingBytes (cursor.input.length - cursor.index), ?_⟩
    rw [if_neg (by omega)]
    rfl

/-- The version is the first byte. -/
theorem ends_decodeVersion (input : List UInt8) :
    Ends (decodeVersion input) fun version => input.head? = some version.wireValue := by
  unfold decodeVersion BitchatVersion.fromWireValue
  cases input.head? with
  | none => exact trivial
  | some version =>
    simp only
    split_ifs with hv1 hv2
    · rw [hv1]
      exact rfl
    · rw [hv2]
      exact rfl
    · exact trivial

/-- Whatever the decoder accepts is the layout of a valid packet, and it never panics. -/
theorem ends_decodeBitchatPacket (input : List UInt8) : Ends (decodeBitchatPacket input)
    fun packet => ValidPacket packet ∧ input = packetBytes packet ∧
      input.length ≤ bitchatCorePacketMaxLen := by
  refine (ends_rejectIf _ _).bind fun _ hlen => ?_
  refine (ends_decodeVersion input).bind fun version hversion => ?_
  refine (ends_rejectIf _ _).bind fun _ _ => ?_
  apply ((yields_readBitchatPacket version).runOn_finishes finishes_decodeFinish input).mono
  rintro packet ⟨rfl, hvalid, hbytes⟩
  exact ⟨hvalid, hbytes hversion, Nat.le_of_not_lt hlen⟩

/-- The length of a packet, part by part. -/
theorem length_packetBytes (packet : BitchatPacketRef) : (packetBytes packet).length =
    12 + payloadLenWidth packet.version + bitchatPeerIdLen +
      (if packet.recipientId.isSome then bitchatPeerIdLen else 0) +
      (optionalBytes routeBytes packet.route).length +
      (payloadBytes packet.version packet.payload).length +
      (if packet.signature.isSome then bitchatSignatureLen else 0) := by
  have hrecipient : (optionalBytes (fun recipientId => recipientId.bytes.toList)
      packet.recipientId).length = if packet.recipientId.isSome then bitchatPeerIdLen else 0 :=
    length_optionalBytes packet.recipientId fun recipientId => recipientId.bytes.toList_length
  have hsignature : (optionalBytes (fun signature => signature.bytes.toList)
      packet.signature).length = if packet.signature.isSome then bitchatSignatureLen else 0 :=
    length_optionalBytes packet.signature fun signature => signature.bytes.toList_length
  rw [← hrecipient, ← hsignature]
  simp only [packetBytes, List.length_append, List.length_singleton, length_toBe,
    List.Vector.toList_length, bitchatPeerIdLen]

/-- The layout of a valid packet that is not too long decodes to it. -/
theorem decodeBitchatPacket_packetBytes {packet : BitchatPacketRef} (h : ValidPacket packet)
    (hlen : (packetBytes packet).length ≤ bitchatCorePacketMaxLen) :
    decodeBitchatPacket (packetBytes packet) = .ok packet := by
  have hversion : decodeVersion (packetBytes packet) = .ok packet.version := by
    have hhead : (packetBytes packet).head? = some packet.version.wireValue := by
      simp [packetBytes]
    rw [decodeVersion, hhead]
    cases packet.version
    · rfl
    · rfl
  have hheader : ¬(packetBytes packet).length < fixedHeaderLen packet.version := by
    rw [length_packetBytes]
    cases packet.version
    · simp only [fixedHeaderLen, bitchatV1HeaderLen, payloadLenWidth]
      omega
    · simp only [fixedHeaderLen, bitchatV2HeaderLen, payloadLenWidth]
      omega
  unfold decodeBitchatPacket
  rw [rejectIf_eq_ok (Nat.not_lt.mpr hlen), hversion]
  simp only [Bind.bind, Except.bind]
  rw [rejectIf_eq_ok hheader]
  apply (reads_readBitchatPacket h).runOn_finishes finishes_decodeFinish
  rw [bitchatCorePacketMaxLen] at hlen
  rw [addressLimit]
  omega

/-! ## Encoding -/

/-- The packet with the flags that the encoder writes. -/
def canonicalPacket (packet : BitchatPacketRef) : BitchatPacketRef :=
  { packet with flags := canonicalEncodeFlags packet }

/-- The packets that can be encoded, with their payload. -/
structure EncodablePacket (packet : BitchatPacketRef) (payload : List UInt8) : Prop where
  version_eq : packet.version = .v2
  payload_eq : packet.payload = .plain payload
  payload_length : payload.length ≤ bitchatPayloadMaxLen
  route_valid : ∀ route, packet.route = some route → ValidRoute route
  length_le : (packetBytes (canonicalPacket packet)).length ≤ bitchatCorePacketMaxLen

/-- An encodable packet with its canonical flags is one the decoder returns. -/
theorem EncodablePacket.validPacket {packet : BitchatPacketRef} {payload : List UInt8}
    (h : EncodablePacket packet payload) : ValidPacket (canonicalPacket packet) where
  recipient_flag := rfl
  signature_flag := rfl
  route_flag := rfl
  compressed_flag := by
    show packet.payload.isCompressed = false
    rw [h.payload_eq]
    rfl
  route_version := by
    rintro ⟨hv1, -⟩
    have hv2 : (canonicalPacket packet).version = .v2 := h.version_eq
    rw [hv2] at hv1
    cases hv1
  route_valid := h.route_valid
  payload_valid := by
    show ValidPayload packet.payload
    rw [h.payload_eq]
    exact trivial
  payload_length := by
    show (payloadBytes packet.version packet.payload).length ≤ bitchatPayloadMaxLen
    rw [h.payload_eq]
    exact h.payload_length

/-- The decoded packets of version 2 with a plain payload are encodable, with the flags they have. -/
theorem ValidPacket.encodable {packet : BitchatPacketRef} (h : ValidPacket packet)
    (hversion : packet.version = .v2) (hplain : packet.flags.isCompressed = false)
    (hlen : (packetBytes packet).length ≤ bitchatCorePacketMaxLen) :
    canonicalPacket packet = packet ∧ ∃ payload, EncodablePacket packet payload := by
  have hcanonical : canonicalPacket packet = packet := by
    have hflags : canonicalEncodeFlags packet = packet.flags := by
      rw [canonicalEncodeFlags, h.recipient_flag, h.signature_flag, h.route_flag, ← hplain]
    rw [canonicalPacket, hflags]
  have hpayload := h.compressed_flag
  rw [hplain] at hpayload
  refine ⟨hcanonical, ?_⟩
  cases hkind : packet.payload with
  | compressed originalLen body =>
    rw [hkind] at hpayload
    cases hpayload
  | plain payload =>
    have hmax := h.payload_length
    rw [hkind] at hmax
    refine ⟨payload, hversion, hkind, hmax, h.route_valid, ?_⟩
    rw [hcanonical]
    exact hlen

/-- The length is the one of a plain payload within the bound, in version 2. -/
theorem ends_encodePlainPayloadLen (packet : BitchatPacketRef) :
    Ends (encodePlainPayloadLen packet) fun len => packet.version = .v2 ∧
      ∃ payload, packet.payload = .plain payload ∧ payload.length ≤ bitchatPayloadMaxLen ∧
      len = payload.length := by
  refine (ends_rejectIf _ _).bind fun _ hversion => ?_
  cases packet.payload with
  | compressed originalLen body => exact trivial
  | plain payload =>
    refine (ends_rejectIf _ _).bind fun _ hmax => ?_
    exact ⟨not_not.mp hversion, payload, rfl, Nat.le_of_not_lt hmax, rfl⟩

/-- A route with a length is well formed. -/
theorem ends_encodedRouteLen (route : Option BitchatRouteRef) :
    Ends (encodedRouteLen route) fun len => (∀ r, route = some r → ValidRoute r) ∧
      len = (optionalBytes routeBytes route).length := by
  cases route with
  | none =>
    refine ⟨?_, rfl⟩
    intro r hr
    cases hr
  | some route =>
    refine (ends_rejectIf _ _).bind fun _ hhops => ?_
    rw [checkedMulLen_hopCount]
    refine (ends_rejectIf _ _).bind fun _ hlen => ?_
    apply (ends_checkedAddLen _ _).mono
    rintro _ rfl
    rw [ne_eq, not_not] at hlen
    refine ⟨?_, ?_⟩
    · intro r hr
      cases hr
      exact ⟨Nat.le_of_not_lt hhops, hlen⟩
    · rw [optionalBytes, routeBytes, List.length_append, List.length_singleton, hlen]
      omega

/-- A well-formed route has the length of its bytes. -/
theorem encodedRouteLen_eq {route : Option BitchatRouteRef}
    (h : ∀ r, route = some r → ValidRoute r) :
    encodedRouteLen route = .ok (optionalBytes routeBytes route).length := by
  cases route with
  | none => rfl
  | some route =>
    obtain ⟨hhops, hlen⟩ := h route rfl
    have hbound : route.hopCount.toNat * bitchatPeerIdLen + 1 < addressLimit := by
      rw [bitchatRouteMaxHops] at hhops
      rw [bitchatPeerIdLen, addressLimit]
      omega
    rw [encodedRouteLen, rejectIf_eq_ok (Nat.not_lt.mpr hhops), checkedMulLen_hopCount]
    simp only [Bind.bind, Except.bind]
    rw [rejectIf_eq_ok (not_not.mpr hlen)]
    simp only
    rw [checkedAddLen_eq hbound, optionalBytes, routeBytes, List.length_append,
      List.length_singleton, hlen, Nat.add_comm]

/-- A part counts if it is present. -/
theorem ends_addOptionalLen (present : Bool) (len extra : ℕ) :
    Ends (addOptionalLen present len extra) fun total =>
      total = len + if present then extra else 0 := by
  cases present with
  | false => exact rfl
  | true => exact ends_checkedAddLen len extra

/-- A part that is present is added without overflow. -/
theorem addOptionalLen_eq {present : Bool} {len extra : ℕ} (h : len + extra < addressLimit) :
    addOptionalLen present len extra = .ok (len + if present then extra else 0) := by
  cases present with
  | false => rfl
  | true => exact checkedAddLen_eq h

/-- The length of an encodable packet, field after field as the source adds it up. -/
theorem length_canonicalPacket {packet : BitchatPacketRef} {payload : List UInt8}
    (hversion : packet.version = .v2) (hpayload : packet.payload = .plain payload) :
    (packetBytes (canonicalPacket packet)).length =
      bitchatV2HeaderLen + bitchatPeerIdLen +
        (if packet.recipientId.isSome then bitchatPeerIdLen else 0) +
        (optionalBytes routeBytes packet.route).length + payload.length +
        if packet.signature.isSome then bitchatSignatureLen else 0 := by
  rw [length_packetBytes]
  simp only [canonicalPacket, hversion, hpayload]
  rfl

/-- A packet with a length can be encoded, and it is the length of the canonical packet. -/
theorem ends_bitchatPacketEncodedLenV2 (packet : BitchatPacketRef) :
    Ends (bitchatPacketEncodedLenV2 packet) fun len => (∃ payload, EncodablePacket packet payload) ∧
      len = (packetBytes (canonicalPacket packet)).length := by
  apply (ends_encodePlainPayloadLen packet).bind
  rintro _ ⟨hversion, payload, hpayload, hmax, rfl⟩
  apply (ends_encodedRouteLen packet.route).bind
  rintro _ ⟨hroute, rfl⟩
  apply (ends_checkedAddLen _ _).bind
  rintro _ rfl
  apply (ends_addOptionalLen _ _ _).bind
  rintro _ rfl
  apply (ends_checkedAddLen _ _).bind
  rintro _ rfl
  apply (ends_checkedAddLen _ _).bind
  rintro _ rfl
  apply (ends_addOptionalLen _ _ _).bind
  rintro _ rfl
  refine (ends_rejectIf _ _).bind fun _ hlen => ?_
  rw [← length_canonicalPacket hversion hpayload] at hlen ⊢
  exact ⟨⟨payload, hversion, hpayload, hmax, hroute, Nat.le_of_not_lt hlen⟩, rfl⟩

/-- A packet that can be encoded has the length of the canonical packet. -/
theorem bitchatPacketEncodedLenV2_eq {packet : BitchatPacketRef} {payload : List UInt8}
    (h : EncodablePacket packet payload) :
    bitchatPacketEncodedLenV2 packet = .ok (packetBytes (canonicalPacket packet)).length := by
  have hpayloadLen : encodePlainPayloadLen packet = .ok payload.length := by
    rw [encodePlainPayloadLen, h.payload_eq, rejectIf_eq_ok (not_not.mpr h.version_eq)]
    simp only [Bind.bind, Except.bind]
    rw [rejectIf_eq_ok (Nat.not_lt.mpr h.payload_length)]
    rfl
  have hlen := h.length_le
  have hlimit : bitchatCorePacketMaxLen + bitchatPeerIdLen + bitchatSignatureLen < addressLimit := by
    decide
  rw [length_canonicalPacket h.version_eq h.payload_eq] at hlen ⊢
  rw [bitchatPacketEncodedLenV2, hpayloadLen, encodedRouteLen_eq h.route_valid]
  simp only [Bind.bind, Except.bind]
  -- every partial sum is at most the whole length, so no addition overflows
  rw [checkedAddLen_eq (by omega)]
  simp only
  rw [addOptionalLen_eq (by omega)]
  simp only
  rw [checkedAddLen_eq (by omega)]
  simp only
  rw [checkedAddLen_eq (by omega)]
  simp only
  rw [addOptionalLen_eq (by omega)]
  simp only
  rw [rejectIf_eq_ok (Nat.not_lt.mpr hlen)]
  rfl

/-- The encoder writes the canonical packet. -/
theorem writes_writeBitchatPacket {packet : BitchatPacketRef} {payload : List UInt8}
    (h : EncodablePacket packet payload) :
    Writes (writeBitchatPacket packet payload) (packetBytes (canonicalPacket packet)) := by
  have hlen : (UInt32.ofNat payload.length).toNat = payload.length := by
    have hmax := h.payload_length
    rw [bitchatPayloadMaxLen] at hmax
    rw [UInt32.toNat_ofNat', Nat.mod_eq_of_lt (by omega)]
  have hslice : ∀ bytes, Writes (writeSlice bytes) bytes := fun bytes => writes_writeSlice _ _ bytes
  simp only [packetBytes, canonicalPacket, h.version_eq, h.payload_eq, payloadBytes,
    List.append_assoc]
  unfold writeBitchatPacket
  rw [hlen]
  apply (hslice _).bind
  apply (hslice _).bind
  apply (hslice _).bind
  apply (hslice _).bind
  apply (hslice _).bind
  apply (hslice _).bind
  apply (hslice _).bind
  apply (writes_writeOptional _ fun recipientId => hslice _).bind
  apply (writes_writeOptional _ fun route => (hslice _).bind (hslice _)).bind
  apply (hslice _).bind
  exact writes_writeOptional _ fun signature => hslice _

/-- An encodable packet is written at the front of an output that has room for it. -/
theorem encodeBitchatPacketV2_eq {packet : BitchatPacketRef} {payload : List UInt8}
    (h : EncodablePacket packet payload) {output : List UInt8}
    (hroom : (packetBytes (canonicalPacket packet)).length ≤ output.length) :
    encodeBitchatPacketV2 packet output =
      .ok ((packetBytes (canonicalPacket packet)).length, packetBytes (canonicalPacket packet) ++
        output.drop (packetBytes (canonicalPacket packet)).length) := by
  have hlimit : (packetBytes (canonicalPacket packet)).length < addressLimit := by
    have hlen := h.length_le
    rw [bitchatCorePacketMaxLen] at hlen
    rw [addressLimit]
    omega
  rw [encodeBitchatPacketV2, bitchatPacketEncodedLenV2_eq h, h.payload_eq]
  simp only [Bind.bind, Except.bind]
  rw [rejectIf_eq_ok (by omega), (writes_writeBitchatPacket h).runOn hlimit hroom]
  rfl

/-- What the encoder accepts is encodable and fits the output. -/
theorem ends_encodeBitchatPacketV2 (packet : BitchatPacketRef) (output : List UInt8) :
    Ends (encodeBitchatPacketV2 packet output) fun written =>
      (∃ payload, EncodablePacket packet payload) ∧
      written = ((packetBytes (canonicalPacket packet)).length, packetBytes (canonicalPacket packet) ++
        output.drop (packetBytes (canonicalPacket packet)).length) := by
  cases hrun : bitchatPacketEncodedLenV2 packet with
  | error fault =>
    have hends := ends_bitchatPacketEncodedLenV2 packet
    rw [hrun] at hends
    rw [encodeBitchatPacketV2, hrun]
    cases fault with
    | error error => exact trivial
    | panic => exact hends
  | ok needed =>
    obtain ⟨⟨payload, hencodable⟩, rfl⟩ := (ends_bitchatPacketEncodedLenV2 packet).of_ok hrun
    by_cases hroom : (packetBytes (canonicalPacket packet)).length ≤ output.length
    · rw [encodeBitchatPacketV2_eq hencodable hroom]
      exact ⟨⟨payload, hencodable⟩, rfl⟩
    · rw [encodeBitchatPacketV2, hrun]
      simp only [Bind.bind, Except.bind]
      rw [rejectIf_eq_fail (by omega)]
      exact trivial

/-- **The codec of BitChat packets.** What the encoder writes decodes to the packet with the flags
that its fields imply, in exactly the announced length; a decoded packet of version 2 with a plain
payload is encoded as the bytes it came from; and no input of either version makes the decoder
panic. -/
theorem bitchatCodec_roundtrip :
    (∀ packet output len written, encodeBitchatPacketV2 packet output = .ok (len, written) →
      bitchatPacketEncodedLenV2 packet = .ok len ∧
      decodeBitchatPacket (written.take len) =
        .ok { packet with flags := canonicalEncodeFlags packet }) ∧
    (∀ bytes packet, decodeBitchatPacket bytes = .ok packet → packet.version = .v2 →
      packet.flags.isCompressed = false → ∀ output : List UInt8, bytes.length ≤ output.length →
        encodeBitchatPacketV2 packet output =
          .ok (bytes.length, bytes ++ output.drop bytes.length)) ∧
    ∀ bytes, decodeBitchatPacket bytes ≠ .error .panic := by
  refine ⟨?_, ?_, ?_⟩
  · intro packet output len written hencode
    obtain ⟨⟨payload, hencodable⟩, heq⟩ := (ends_encodeBitchatPacketV2 packet output).of_ok hencode
    cases heq
    rw [List.take_left]
    exact ⟨bitchatPacketEncodedLenV2_eq hencodable,
      decodeBitchatPacket_packetBytes hencodable.validPacket hencodable.length_le⟩
  · intro bytes packet hdecode hversion hplain output hroom
    obtain ⟨hvalid, rfl, hlen⟩ := (ends_decodeBitchatPacket bytes).of_ok hdecode
    obtain ⟨hcanonical, payload, hencodable⟩ := hvalid.encodable hversion hplain hlen
    have hencode := encodeBitchatPacketV2_eq hencodable (hcanonical.symm ▸ hroom)
    rwa [hcanonical] at hencode
  · exact fun bytes => (ends_decodeBitchatPacket bytes).ne_panic

/-- A routed and directed packet with a signature, to evaluate definitions on. -/
def samplePacket : BitchatPacketRef where
  version := .v2
  packetType := 2
  ttl := 7
  timestamp := 1000
  flags := ⟨false, false, true, false, true⟩
  senderId := ⟨fillBytes 8 1⟩
  recipientId := some ⟨fillBytes 8 3⟩
  route := some ⟨1, [5, 5, 5, 5, 5, 5, 5, 5]⟩
  payload := .plain [104, 105]
  signature := some ⟨fillBytes 64 9⟩

theorem encodable_samplePacket : EncodablePacket samplePacket [104, 105] where
  version_eq := rfl
  payload_eq := rfl
  payload_length := by simp [bitchatPayloadMaxLen]
  route_valid := by
    intro route hroute
    cases hroute
    exact ⟨by decide, by decide⟩
  length_le := by
    have hlen : (packetBytes (canonicalPacket samplePacket)).length = _ :=
      @length_canonicalPacket samplePacket [104, 105] rfl rfl
    rw [hlen]
    decide

theorem bitchatCodec_samplePacket : ∃ bytes,
    decodeBitchatPacket bytes = .ok { samplePacket with flags := ⟨true, true, false, true, true⟩ } ∧
    encodeBitchatPacketV2 { samplePacket with flags := ⟨true, true, false, true, true⟩ } bytes =
      .ok (bytes.length, bytes) := by
  have hroom : (packetBytes (canonicalPacket samplePacket)).length ≤
      (packetBytes (canonicalPacket samplePacket)).length := le_rfl
  have hencode := encodeBitchatPacketV2_eq encodable_samplePacket hroom
  rw [List.drop_length, List.append_nil] at hencode
  have hdecode := (bitchatCodec_roundtrip.1 _ _ _ _ hencode).2
  rw [List.take_length] at hdecode
  have hagain := bitchatCodec_roundtrip.2.1 _ _ hdecode rfl rfl _ hroom
  rw [List.drop_length, List.append_nil] at hagain
  exact ⟨packetBytes (canonicalPacket samplePacket), hdecode, hagain⟩

end Hyf.Bitchat
