import Hyf.Rns.Packet

/-!
# The packet codec is a bijection

`packetBytes` lays out a packet of either header type. `decodePacket_eq_ok_iff` says that the decoder
accepts exactly the layouts of the packets that can be encoded, and `encodePacket_eq_ok` and
`encodePacket_eq_error` what the encoder does with its output. `Checked.decodePacket` is the decoder
with the panics of its slices and indices; no input reaches one.
-/

namespace Hyf.Rns

open ByteCodec BufferM

/-! ## Flags -/

/-- Flags are decoded from their byte. -/
theorem decodeFlags_encodeFlags (flags : RnsPacketFlags) :
    decodeFlags (encodeFlags flags) = .ok flags := by
  obtain ⟨header, context, transportType, destination, packet⟩ := flags
  cases header <;> cases context <;> cases transportType <;> cases destination <;> cases packet <;> rfl

/-- The header length that the flags byte selects. -/
def selectedLen (byte : UInt8) : ℕ := if byte &&& 0x40 = 0 then rnsHeader1Len else rnsHeader2Len

/-- A flags byte without the access code bit spells its flags. -/
theorem exists_decodeFlags {byte : UInt8} (h : byte &&& 0x80 = 0) :
    ∃ flags, decodeFlags byte = .ok flags ∧ encodeFlags flags = byte ∧
      headerLen flags.headerType = selectedLen byte := by
  have hall : ∀ byte : UInt8, byte &&& 0x80 = 0 →
      (decodeFlags byte).toOption.map (fun flags =>
        (encodeFlags flags, headerLen flags.headerType)) = some (byte, selectedLen byte) := by
    apply forall_byte
    decide
  have hbyte := hall byte h
  cases hflags : decodeFlags byte with
  | error error =>
    rw [hflags] at hbyte
    cases hbyte
  | ok flags =>
    rw [hflags] at hbyte
    have hpair : (encodeFlags flags, headerLen flags.headerType) = (byte, selectedLen byte) :=
      Option.some.inj hbyte
    exact ⟨flags, rfl, congrArg Prod.fst hpair, congrArg Prod.snd hpair⟩

/-- A byte with the top bit is no flags. -/
theorem decodeFlags_of_access_code {byte : UInt8} (h : byte &&& 0x80 ≠ 0) :
    decodeFlags byte = .error .unsupportedPacketAccessCode := by
  rw [decodeFlags, if_pos h]
  rfl

/-- Flags are determined by their byte. -/
theorem encodeFlags_injective : Function.Injective encodeFlags := by
  intro first second h
  have hdecode := congrArg decodeFlags h
  rwa [decodeFlags_encodeFlags, decodeFlags_encodeFlags, Except.ok.injEq] at hdecode

/-! ## Layout -/

/-- The bytes of the transport identifier, which only the second header has. -/
def transportBytes : Option (ByteArrayN rnsTruncatedHashLen) → List UInt8
  | none => []
  | some transportId => transportId.toList

/-- The bytes of a packet. -/
def packetBytes (packet : RnsPacket) : List UInt8 :=
  encodeFlags packet.flags :: packet.hops :: (transportBytes packet.transportId ++
    (packet.destinationHash.toList ++ packet.context :: packet.data))

/-- What `encode_packet` asks of a packet: a transport identifier exactly in the second header, and at
most `RNS_MTU` bytes. -/
structure Encodable (packet : RnsPacket) : Prop where
  transport : packet.transportId.isSome ↔ packet.flags.headerType = .header2
  size_le : headerLen packet.flags.headerType + packet.data.length ≤ rnsMtu

/-- A hash has 16 bytes. -/
theorem length_hash (hash : ByteArrayN rnsTruncatedHashLen) : hash.toList.length = 16 :=
  hash.toList_length

/-- The header is longer by the transport address. -/
theorem length_transportBytes {packet : RnsPacket}
    (h : packet.transportId.isSome ↔ packet.flags.headerType = .header2) :
    19 + (transportBytes packet.transportId).length = headerLen packet.flags.headerType := by
  cases hheader : packet.flags.headerType with
  | header1 =>
    have hnone : packet.transportId = none := by
      rw [hheader] at h
      simpa using h
    rw [hnone]
    rfl
  | header2 =>
    obtain ⟨transportId, hsome⟩ := Option.isSome_iff_exists.mp (h.mpr hheader)
    rw [hsome, transportBytes, length_hash]
    rfl

/-- A packet is its header and its data. -/
theorem length_packetBytes {packet : RnsPacket}
    (h : packet.transportId.isSome ↔ packet.flags.headerType = .header2) :
    (packetBytes packet).length = headerLen packet.flags.headerType + packet.data.length := by
  have hlen := length_transportBytes h
  simp only [packetBytes, List.length_cons, List.length_append, length_hash]
  omega

/-- A transport address is determined by its bytes. -/
theorem transportBytes_injective : Function.Injective transportBytes := by
  intro first second h
  have hlen := congrArg List.length h
  cases first with
  | none =>
    cases second with
    | none => rfl
    | some second =>
      rw [transportBytes, transportBytes, length_hash] at hlen
      cases hlen
  | some first =>
    cases second with
    | none =>
      rw [transportBytes, transportBytes, length_hash] at hlen
      cases hlen
    | some second => exact congrArg some (List.Vector.toList_injective h)

/-- A layout decides the packet. -/
theorem packetBytes_injective {first second : RnsPacket}
    (hfirst : first.transportId.isSome ↔ first.flags.headerType = .header2)
    (hsecond : second.transportId.isSome ↔ second.flags.headerType = .header2)
    (h : packetBytes first = packetBytes second) : first = second := by
  have hlenFirst := length_transportBytes hfirst
  have hlenSecond := length_transportBytes hsecond
  obtain ⟨flags, hops, transportId, destinationHash, context, data⟩ := first
  obtain ⟨flags', hops', transportId', destinationHash', context', data'⟩ := second
  simp only [packetBytes, List.cons.injEq] at h hlenFirst hlenSecond
  obtain ⟨hflags, hhops, hrest⟩ := h
  rw [← encodeFlags_injective hflags] at hlenSecond ⊢
  -- the same header type, so that the transport identifiers take up the same room
  obtain ⟨htransport, hrest⟩ := List.append_inj hrest (by omega)
  obtain ⟨hdestination, hrest⟩ := List.append_inj hrest (by simp only [length_hash])
  obtain ⟨hcontext, hdata⟩ := List.cons.inj hrest
  rw [hhops, transportBytes_injective htransport, List.Vector.toList_injective hdestination, hcontext,
    hdata]

/-! ## Decoding -/

/-- The bytes around a hash that stands in the input. -/
theorem readTruncatedHash_append (input : List UInt8) (start : ℕ)
    (h : start + rnsTruncatedHashLen ≤ input.length) :
    (readTruncatedHash input start h).toList ++ input.drop (start + rnsTruncatedHashLen) =
      input.drop start := by
  rw [← List.drop_drop]
  exact List.take_append_drop rnsTruncatedHashLen (input.drop start)

/-- Both decoders are given the flags that they stand behind. -/
theorem packetBytes_decodeHeader1Packet {first : UInt8} {rest : List UInt8} {flags : RnsPacketFlags}
    (h : rnsHeader1Len ≤ (first :: rest).length) (hflags : encodeFlags flags = first) :
    packetBytes (decodeHeader1Packet (first :: rest) flags h) = first :: rest := by
  have hlen : 19 ≤ (first :: rest).length := h
  have hdestination := readTruncatedHash_append (first :: rest) 2
    (by rw [rnsTruncatedHashLen]; omega)
  have hcontext := List.getElem_cons_drop (show 18 < (first :: rest).length by omega)
  have hhops := List.getElem_cons_drop (show 1 < (first :: rest).length by omega)
  have hrest := (congrArg (_ ++ ·) hcontext).trans hdestination
  exact congrArg₂ List.cons hflags ((congrArg (_ :: ·) hrest).trans hhops)

/-- A packet with two addresses stands for the bytes it was decoded from. -/
theorem packetBytes_decodeHeader2Packet {first : UInt8} {rest : List UInt8} {flags : RnsPacketFlags}
    (h : rnsHeader2Len ≤ (first :: rest).length) (hflags : encodeFlags flags = first) :
    packetBytes (decodeHeader2Packet (first :: rest) flags h) = first :: rest := by
  have hlen : 35 ≤ (first :: rest).length := h
  have htransport := readTruncatedHash_append (first :: rest) 2
    (by rw [rnsTruncatedHashLen]; omega)
  have hdestination := readTruncatedHash_append (first :: rest) 18
    (by rw [rnsTruncatedHashLen]; omega)
  have hcontext := List.getElem_cons_drop (show 34 < (first :: rest).length by omega)
  have hhops := List.getElem_cons_drop (show 1 < (first :: rest).length by omega)
  have htail := (congrArg (_ ++ ·) hcontext).trans hdestination
  have hrest := (congrArg (_ ++ ·) htail).trans htransport
  exact congrArg₂ List.cons hflags ((congrArg (_ :: ·) hrest).trans hhops)

/-- The byte strings that are packets: no access code, and at most `RNS_MTU` bytes that hold the
header which the flags select. -/
def IsPacket (bytes : List UInt8) : Prop :=
  1 ≤ bytes.length ∧ bytes.length ≤ rnsMtu ∧
    ∀ first ∈ bytes.head?, first &&& 0x80 = 0 ∧ selectedLen first ≤ bytes.length

/-- The bytes of a packet are decoded to one that stands for them. -/
theorem exists_decodePacket {bytes : List UInt8} (h : IsPacket bytes) :
    ∃ packet, decodePacket bytes = .ok packet ∧ packetBytes packet = bytes ∧ Encodable packet := by
  obtain ⟨hempty, hsize, hhead⟩ := h
  match bytes, hempty with
  | first :: rest, _ =>
    obtain ⟨hcode, hlen⟩ := hhead first rfl
    obtain ⟨flags, hflags, hencode, hselected⟩ := exists_decodeFlags hcode
    rw [← hselected] at hlen
    -- the layout of what either decoder returns is the input, so that its size is that of the input
    have hdone : ∀ packet : RnsPacket, packetBytes packet = first :: rest →
        (packet.transportId.isSome ↔ packet.flags.headerType = .header2) → Encodable packet := by
      intro packet hbytes htransport
      refine ⟨htransport, ?_⟩
      rw [← length_packetBytes htransport, hbytes]
      exact hsize
    rw [decodePacket, if_neg (Nat.not_lt.mpr hsize)]
    simp only [hflags, Bind.bind, Except.bind]
    cases hheader : flags.headerType with
    | header1 =>
      rw [hheader, headerLen] at hlen
      have hbytes := packetBytes_decodeHeader1Packet hlen hencode
      simp only
      rw [dif_pos hlen]
      exact ⟨_, rfl, hbytes, hdone _ hbytes (by simp [decodeHeader1Packet, hheader])⟩
    | header2 =>
      rw [hheader, headerLen] at hlen
      have hbytes := packetBytes_decodeHeader2Packet hlen hencode
      simp only
      rw [dif_pos hlen]
      exact ⟨_, rfl, hbytes, hdone _ hbytes (by simp [decodeHeader2Packet, hheader])⟩

/-- Other bytes are refused. -/
theorem decodePacket_of_not_isPacket {bytes : List UInt8} (h : ¬IsPacket bytes) :
    ∃ error, decodePacket bytes = .error error := by
  unfold decodePacket
  by_cases hsize : bytes.length > rnsMtu
  · rw [if_pos hsize]
    exact ⟨_, rfl⟩
  · rw [if_neg hsize]
    match bytes with
    | [] => exact ⟨_, rfl⟩
    | first :: rest =>
      by_cases hcode : first &&& 0x80 = 0
      · obtain ⟨flags, hflags, -, hselected⟩ := exists_decodeFlags hcode
        -- all that is left to fail is the length
        have hshort : ¬headerLen flags.headerType ≤ (first :: rest).length := by
          intro hlen
          apply h
          refine ⟨by simp, Nat.not_lt.mp hsize, fun byte hbyte => ?_⟩
          cases hbyte
          exact ⟨hcode, hselected ▸ hlen⟩
        simp only [hflags, Bind.bind, Except.bind]
        cases hheader : flags.headerType with
        | header1 =>
          rw [hheader, headerLen] at hshort
          simp only
          rw [dif_neg hshort]
          exact ⟨_, rfl⟩
        | header2 =>
          rw [hheader, headerLen] at hshort
          simp only
          rw [dif_neg hshort]
          exact ⟨_, rfl⟩
      · simp only [decodeFlags_of_access_code hcode, Bind.bind, Except.bind]
        exact ⟨_, rfl⟩

/-- What was decoded are the bytes of a packet. -/
theorem isPacket_of_decodePacket {bytes : List UInt8} {packet : RnsPacket}
    (h : decodePacket bytes = .ok packet) : IsPacket bytes := by
  by_contra hnot
  obtain ⟨error, herror⟩ := decodePacket_of_not_isPacket hnot
  rw [h] at herror
  cases herror

/-- Exactly the bytes of packets are decoded. -/
theorem exists_decodePacket_iff {bytes : List UInt8} :
    (∃ packet, decodePacket bytes = .ok packet) ↔ IsPacket bytes := by
  constructor
  · rintro ⟨packet, h⟩
    exact isPacket_of_decodePacket h
  · intro h
    obtain ⟨packet, hdecode, -⟩ := exists_decodePacket h
    exact ⟨packet, hdecode⟩

/-- What the decoder accepts is the layout of the packet it returns. -/
theorem packetBytes_of_decodePacket {bytes : List UInt8} {packet : RnsPacket}
    (h : decodePacket bytes = .ok packet) : Encodable packet ∧ packetBytes packet = bytes := by
  obtain ⟨packet', hdecode, hbytes, hencodable⟩ := exists_decodePacket (isPacket_of_decodePacket h)
  rw [h] at hdecode
  cases hdecode
  exact ⟨hencodable, hbytes⟩

/-- A packet that can be encoded stands for the bytes of one. -/
theorem isPacket_packetBytes {packet : RnsPacket} (h : Encodable packet) :
    IsPacket (packetBytes packet) := by
  have hlen := length_packetBytes h.transport
  have hsize := h.size_le
  have hheader := length_transportBytes h.transport
  refine ⟨by omega, by omega, fun first hfirst => ?_⟩
  cases hfirst
  have hcode : encodeFlags packet.flags &&& 0x80 = 0 := by
    by_contra hcode
    have herror := decodeFlags_of_access_code hcode
    rw [decodeFlags_encodeFlags] at herror
    cases herror
  obtain ⟨flags, hflags, -, hselected⟩ := exists_decodeFlags hcode
  rw [decodeFlags_encodeFlags] at hflags
  cases hflags
  exact ⟨hcode, by omega⟩

/-- The layout of a packet is decoded to it. -/
theorem decodePacket_packetBytes {packet : RnsPacket} (h : Encodable packet) :
    decodePacket (packetBytes packet) = .ok packet := by
  obtain ⟨packet', hdecode, hbytes, hencodable⟩ := exists_decodePacket (isPacket_packetBytes h)
  rw [hdecode, packetBytes_injective hencodable.transport h.transport hbytes]

/-! ## Encoding -/

/-- Either check of the encoder passes where `Encodable` says so. -/
theorem encodedLen_cases (packet : RnsPacket) :
    (headerLen packet.flags.headerType + packet.data.length ≤ rnsMtu ∧
      encodedLen packet = .ok (headerLen packet.flags.headerType + packet.data.length)) ∨
    ¬headerLen packet.flags.headerType + packet.data.length ≤ rnsMtu ∧
      ∃ error, encodedLen packet = .error error := by
  by_cases hsize : headerLen packet.flags.headerType + packet.data.length ≤ rnsMtu
  · have hlimit : headerLen packet.flags.headerType + packet.data.length < addressLimit :=
      hsize.trans_lt (by decide)
    refine .inl ⟨hsize, ?_⟩
    rw [encodedLen, checkedAdd_eq_some hlimit]
    exact if_neg (Nat.not_lt.mpr hsize)
  · refine .inr ⟨hsize, ?_⟩
    unfold encodedLen checkedAdd
    split_ifs with hlimit
    · simp only
      rw [if_pos (Nat.not_le.mp hsize)]
      exact ⟨_, rfl⟩
    · exact ⟨_, rfl⟩

/-- The transport address is checked against the header. -/
theorem validateTransportId_cases (packet : RnsPacket) :
    ((packet.transportId.isSome ↔ packet.flags.headerType = .header2) ∧
      validateTransportId packet = .ok packet.transportId) ∨
    ¬(packet.transportId.isSome ↔ packet.flags.headerType = .header2) ∧
      ∃ error, validateTransportId packet = .error error := by
  unfold validateTransportId
  cases packet.flags.headerType <;> cases packet.transportId <;> simp

/-- The end of either layout, with the header before the destination done. -/
theorem extends_destination (hash : ByteArrayN rnsTruncatedHashLen) (context : UInt8)
    (data : List UInt8) (start : ℕ) :
    Extends (ε := RnsWireError) (do
      copyInto start (start + 16) hash.toList
      setByte (start + 16) context
      copyInto (start + 17) (start + 17 + data.length) data) start
      (hash.toList ++ ([context] ++ data)) := by
  have hhash := length_hash hash
  have hdata := (extends_setByte (ε := RnsWireError) (start + 16) context).bind
    (extends_copyInto (start + 17) data rfl) (by simp)
  exact (extends_copyInto start hash.toList (by rw [hhash])).bind hdata (by rw [hhash])

/-- The parts of a packet are written one behind the other. -/
theorem extends_writePacket {packet : RnsPacket} (h : Encodable packet) :
    Extends (writePacket packet packet.transportId) 0 (packetBytes packet) := by
  have hheader := h.transport
  obtain ⟨flags, hops, transportId, destinationHash, context, data⟩ := packet
  have hflags := extends_setByte (ε := RnsWireError) 0 (encodeFlags flags)
  have hhops := extends_setByte (ε := RnsWireError) 1 hops
  cases transportId with
  | none =>
    have hheader1 : flags.headerType = .header1 := by
      cases hcases : flags.headerType with
      | header1 => rfl
      | header2 => simp [hcases] at hheader
    have hrest := extends_destination destinationHash context data 2
    have hall := hflags.bind (hhops.bind hrest rfl) rfl
    simp only [writePacket, hheader1]
    exact hall
  | some transportId =>
    have hheader2 : flags.headerType = .header2 := by simpa using hheader
    have htransport := extends_copyInto (ε := RnsWireError) 2 transportId.toList
      (show 18 = 2 + _ by rw [length_hash])
    have hrest := htransport.bind (extends_destination destinationHash context data 18)
      (by rw [length_hash])
    have hall := hflags.bind (hhops.bind hrest rfl) rfl
    simp only [writePacket, hheader2]
    exact hall

/-- A packet that can be encoded is put in front of an output with room. -/
theorem encodePacket_eq_ok {packet : RnsPacket} (h : Encodable packet) {output : List UInt8}
    (hroom : (packetBytes packet).length ≤ output.length) :
    encodePacket packet output = .ok (packetBytes packet).length
      (packetBytes packet ++ output.drop (packetBytes packet).length) := by
  have hlen := length_packetBytes h.transport
  have hwrite := (extends_writePacket h).run hroom
  obtain ⟨-, hencoded⟩ | ⟨hsize, -⟩ := encodedLen_cases packet
  · obtain ⟨-, hvalid⟩ | ⟨htransport, -⟩ := validateTransportId_cases packet
    · rw [← hlen] at hencoded
      rw [encodePacket, Outcome.lift_bind (ofResult_eq_ok hencoded id), run_get_bind,
        Outcome.lift_bind (rejectIf_eq_ok (Nat.not_lt.mpr hroom)),
        Outcome.lift_bind (ofResult_eq_ok hvalid id), run_bind_of_ok hwrite]
      rfl
    · exact absurd h.transport htransport
  · exact absurd h.size_le hsize

/-- A failure is reported before anything is written. -/
theorem encodePacket_eq_error {packet : RnsPacket} {output : List UInt8}
    (h : ¬(Encodable packet ∧ (packetBytes packet).length ≤ output.length)) :
    ∃ error, encodePacket packet output = .error (.error error) output := by
  unfold encodePacket
  obtain ⟨hsize, hencoded⟩ | ⟨-, error, hencoded⟩ := encodedLen_cases packet
  · rw [Outcome.lift_bind (ofResult_eq_ok hencoded id), run_get_bind]
    by_cases hroom : output.length < headerLen packet.flags.headerType + packet.data.length
    · exact ⟨_, Outcome.run_lift_bind_fail (rejectIf_eq_fail hroom) _ _⟩
    · rw [Outcome.lift_bind (rejectIf_eq_ok hroom)]
      obtain ⟨htransport, -⟩ | ⟨-, error, hvalid⟩ := validateTransportId_cases packet
      · rw [← length_packetBytes htransport] at hroom
        exact absurd ⟨⟨htransport, hsize⟩, Nat.not_lt.mp hroom⟩ h
      · exact ⟨_, Outcome.run_lift_bind_fail (ofResult_eq_fail hvalid id) _ _⟩
  · exact ⟨_, Outcome.run_lift_bind_fail (ofResult_eq_fail hencoded id) _ _⟩

/-! ## Panics -/

namespace Checked

/-- `read_truncated_hash(&input[start..stop])`. -/
def readTruncatedHash (input : List UInt8) (start stop : ℕ) :
    Outcome RnsWireError (ByteArrayN rnsTruncatedHashLen) := do
  let bytes ← slice input start stop
  toArray rnsTruncatedHashLen bytes

/-- `decode_header1_packet` with the panics of its slices. -/
def decodeHeader1Packet (input : List UInt8) (flags : RnsPacketFlags) :
    Outcome RnsWireError RnsPacket := do
  return {
    flags
    hops := ← byteAt input 1
    transportId := none
    destinationHash := ← readTruncatedHash input 2 18
    context := ← byteAt input 18
    data := ← slice input 19 input.length }

/-- `decode_header2_packet` with the panics of its slices. -/
def decodeHeader2Packet (input : List UInt8) (flags : RnsPacketFlags) :
    Outcome RnsWireError RnsPacket := do
  return {
    flags
    hops := ← byteAt input 1
    transportId := some (← readTruncatedHash input 2 18)
    destinationHash := ← readTruncatedHash input 18 34
    context := ← byteAt input 34
    data := ← slice input 35 input.length }

/-- `decode_packet` with the panics of its slices. -/
def decodePacket (input : List UInt8) : Outcome RnsWireError RnsPacket := do
  rejectIf (input.length > rnsMtu) (.packetTooLarge input.length rnsMtu)
  rejectIf (input = []) (.packetTooShort input.length 1)
  let first ← byteAt input 0
  let flags ← ofResult id (decodeFlags first)
  let minimum := headerLen flags.headerType
  rejectIf (input.length < minimum) (.packetTooShort input.length minimum)
  match flags.headerType with
  | .header1 => decodeHeader1Packet input flags
  | .header2 => decodeHeader2Packet input flags

/-- A hash within the input is read without a panic. -/
theorem readTruncatedHash_eq {input : List UInt8} {start stop : ℕ} (hstop : stop = start + 16)
    (h : stop ≤ input.length) :
    readTruncatedHash input start stop =
      .ok (Rns.readTruncatedHash input start (by rw [rnsTruncatedHashLen]; omega)) := by
  have hlen : ((input.drop start).take (stop - start)).length = rnsTruncatedHashLen := by
    rw [List.length_take, List.length_drop, rnsTruncatedHashLen]
    omega
  have hslice : (slice input start stop : Outcome RnsWireError (List UInt8)) = _ :=
    slice_eq_ok (by omega) h
  rw [readTruncatedHash, Outcome.bind_eq hslice, toArray_eq_ok hlen]
  subst hstop
  simp only [Nat.add_sub_cancel_left]
  rfl

/-- A packet with one address is read without a panic. -/
theorem decodeHeader1Packet_eq {input : List UInt8} (flags : RnsPacketFlags)
    (h : rnsHeader1Len ≤ input.length) :
    decodeHeader1Packet input flags = .ok (Rns.decodeHeader1Packet input flags h) := by
  have hlen : 19 ≤ input.length := h
  have hdata : (slice input 19 input.length : Outcome RnsWireError (List UInt8)) =
      .ok (input.drop 19) := by
    rw [slice_eq_ok hlen le_rfl, List.take_of_length_le (by simp)]
  rw [decodeHeader1Packet, Outcome.bind_eq (byteAt_eq_ok (by omega)),
    Outcome.bind_eq (readTruncatedHash_eq (by rfl) (by omega)),
    Outcome.bind_eq (byteAt_eq_ok (by omega)), Outcome.bind_eq hdata]
  rfl

/-- A packet with two addresses is read without a panic. -/
theorem decodeHeader2Packet_eq {input : List UInt8} (flags : RnsPacketFlags)
    (h : rnsHeader2Len ≤ input.length) :
    decodeHeader2Packet input flags = .ok (Rns.decodeHeader2Packet input flags h) := by
  have hlen : 35 ≤ input.length := h
  have hdata : (slice input 35 input.length : Outcome RnsWireError (List UInt8)) =
      .ok (input.drop 35) := by
    rw [slice_eq_ok hlen le_rfl, List.take_of_length_le (by simp)]
  rw [decodeHeader2Packet, Outcome.bind_eq (byteAt_eq_ok (by omega)),
    Outcome.bind_eq (readTruncatedHash_eq (by rfl) (by omega)),
    Outcome.bind_eq (readTruncatedHash_eq (by rfl) (by omega)),
    Outcome.bind_eq (byteAt_eq_ok (by omega)), Outcome.bind_eq hdata]
  rfl

/-- No input makes the decoder panic. -/
theorem decodePacket_eq (input : List UInt8) :
    decodePacket input = ofResult id (Rns.decodePacket input) := by
  unfold decodePacket Rns.decodePacket
  by_cases hsize : input.length > rnsMtu
  · rw [rejectIf_eq_fail hsize, if_pos hsize]
    rfl
  · rw [Outcome.bind_eq (rejectIf_eq_ok hsize), if_neg hsize]
    match input with
    | [] => rfl
    | first :: rest =>
      have hnil : ¬first :: rest = [] := List.cons_ne_nil first rest
      have hfirst : (byteAt (first :: rest) 0 : Outcome RnsWireError UInt8) = .ok first := rfl
      rw [Outcome.bind_eq (rejectIf_eq_ok hnil), Outcome.bind_eq hfirst]
      cases hflags : decodeFlags first with
      | error error =>
        simp only [hflags]
        rfl
      | ok flags =>
        simp only [hflags, Bind.bind, Except.bind, ofResult]
        by_cases hlen : headerLen flags.headerType ≤ (first :: rest).length
        · rw [rejectIf_eq_ok (Nat.not_lt.mpr hlen)]
          cases hheader : flags.headerType with
          | header1 =>
            rw [hheader, headerLen] at hlen
            simp only [dif_pos hlen]
            exact decodeHeader1Packet_eq flags hlen
          | header2 =>
            rw [hheader, headerLen] at hlen
            simp only [dif_pos hlen]
            exact decodeHeader2Packet_eq flags hlen
        · rw [rejectIf_eq_fail (Nat.not_le.mp hlen)]
          cases hheader : flags.headerType with
          | header1 =>
            rw [hheader, headerLen] at hlen
            simp only [dif_neg hlen]
            rfl
          | header2 =>
            rw [hheader, headerLen] at hlen
            simp only [dif_neg hlen]
            rfl

/-- Both forms of the decoder accept the same. -/
theorem decodePacket_eq_ok_iff {input : List UInt8} {packet : RnsPacket} :
    decodePacket input = .ok packet ↔ Rns.decodePacket input = .ok packet := by
  rw [decodePacket_eq]
  cases Rns.decodePacket input with
  | ok found => simp [ofResult]
  | error error => simp [ofResult, fail]

end Checked

/-- **The packet codec is a bijection** between the packets that can be encoded and the byte strings
that are packets. The encoder succeeds exactly on a packet whose transport identifier fits its header
type, with room in the output for at most `RNS_MTU` bytes; it then writes the layout of the packet,
from which the packet is decoded, and leaves the rest of the output alone. Where it fails the output is
untouched. The decoder succeeds exactly on the byte strings that are packets, never panics, and the
packet it returns is encoded to its input. -/
theorem packetCodec_bijection :
    (∀ packet output,
      (((packet.transportId.isSome ↔ packet.flags.headerType = .header2) ∧
          headerLen packet.flags.headerType + packet.data.length ≤ 500 ∧
          headerLen packet.flags.headerType + packet.data.length ≤ output.length) →
        ∃ bytes, bytes.length = headerLen packet.flags.headerType + packet.data.length ∧
          encodePacket packet output = .ok bytes.length (bytes ++ output.drop bytes.length) ∧
          Checked.decodePacket bytes = .ok packet) ∧
      (¬((packet.transportId.isSome ↔ packet.flags.headerType = .header2) ∧
          headerLen packet.flags.headerType + packet.data.length ≤ 500 ∧
          headerLen packet.flags.headerType + packet.data.length ≤ output.length) →
        ∃ error, encodePacket packet output = .error (.error error) output)) ∧
    ∀ bytes, Checked.decodePacket bytes ≠ .error .panic ∧
      ((∃ packet, Checked.decodePacket bytes = .ok packet) ↔
        1 ≤ bytes.length ∧ bytes.length ≤ 500 ∧ ∀ first ∈ bytes.head?, first &&& 0x80 = 0 ∧
          (if first &&& 0x40 = 0 then 19 else 35) ≤ bytes.length) ∧
      ∀ packet, Checked.decodePacket bytes = .ok packet →
        ∀ output : List UInt8, bytes.length ≤ output.length →
          encodePacket packet output = .ok bytes.length (bytes ++ output.drop bytes.length) := by
  refine ⟨fun packet output => ⟨?_, ?_⟩, fun bytes => ⟨?_, ?_, ?_⟩⟩
  · rintro ⟨htransport, hsize, hroom⟩
    have hencodable : Encodable packet := ⟨htransport, hsize⟩
    have hlen := length_packetBytes htransport
    exact ⟨packetBytes packet, hlen, encodePacket_eq_ok hencodable (hlen ▸ hroom),
      Checked.decodePacket_eq_ok_iff.mpr (decodePacket_packetBytes hencodable)⟩
  · intro h
    apply encodePacket_eq_error
    rintro ⟨hencodable, hroom⟩
    rw [length_packetBytes hencodable.transport] at hroom
    exact h ⟨hencodable.transport, hencodable.size_le, hroom⟩
  · rw [Checked.decodePacket_eq]
    exact (ends_ofResult id _).ne_panic
  · simp only [Checked.decodePacket_eq_ok_iff]
    exact exists_decodePacket_iff
  · intro packet h output hroom
    obtain ⟨hencodable, rfl⟩ := packetBytes_of_decodePacket (Checked.decodePacket_eq_ok_iff.mp h)
    exact encodePacket_eq_ok hencodable hroom

/-- A packet with a transport identifier. -/
def samplePacket : RnsPacket where
  flags := ⟨.header2, true, .transport, .single, .announce⟩
  hops := 3
  transportId := some (fillBytes 16 0x22)
  destinationHash := fillBytes 16 0x33
  context := 0
  data := [0xaa, 0xbb]

/-- The sample packet is encoded and decoded. -/
theorem packetCodec_samplePacket :
    ∃ bytes, bytes.length = 37 ∧
      encodePacket samplePacket (List.replicate 40 0) =
        .ok bytes.length (bytes ++ (List.replicate 40 0).drop bytes.length) ∧
      Checked.decodePacket bytes = .ok samplePacket :=
  (packetCodec_bijection.1 samplePacket (List.replicate 40 0)).1 (by decide)

end Hyf.Rns
