import Hyf.Rns.PacketTheorems

/-!
# The packet hash (`hyf_rns_wire`)

A packet is identified by the hash of its hashable part, which is cut out of the raw bytes: the low
half of the flags byte and what stands behind the hop count and the transport identifier.
`packetHash_identifies` says which fields of the packet that part determines, and is determined by.
-/

namespace Hyf.Rns

open ByteCodec BufferM

def hashableFlagsMask : UInt8 := 0x0f

def packetHashableLen (inputLen : ℕ) : RnsHeaderType → Outcome RnsWireError ℕ
  | .header1 => subUsize inputLen 1
  | .header2 => do
    let rest ← subUsize inputLen rnsTruncatedHashLen
    subUsize rest 1

/-- Where the part after the flags starts in the input. -/
def hashableRestStart : RnsHeaderType → ℕ
  | .header1 => 2
  | .header2 => 2 + rnsTruncatedHashLen

def writePacketHashablePart (input : List UInt8) : BufferM RnsWireError ℕ := do
  let packet ← (Checked.decodePacket input).lift
  let hashableLen ← (packetHashableLen input.length packet.flags.headerType).lift
  let output ← get
  (rejectIf (output.length < hashableLen) (.outputBufferTooShort output.length hashableLen)).lift
  let first ← (byteAt input 0).lift
  setByte 0 (first &&& hashableFlagsMask)
  let rest ← (slice input (hashableRestStart packet.flags.headerType) input.length).lift
  copyInto 1 hashableLen rest
  return hashableLen

/-- `full_hash`, for any hash function. -/
def fullHash (sha256 : List UInt8 → ByteArrayN 32) (data : List UInt8) : ByteArrayN 32 := sha256 data

def packetHash (sha256 : List UInt8 → ByteArrayN 32) (input : List UInt8) :
    Outcome RnsWireError (ByteArrayN 32) := do
  let (hashableLen, hashable) ←
    runOn (writePacketHashablePart input) (List.replicate (rnsMtu - 1) 0)
  let part ← slice hashable 0 hashableLen
  return fullHash sha256 part

/-! ## The hashable part -/

/-- The hashable part in terms of the packet. -/
def hashableBytes (packet : RnsPacket) : List UInt8 :=
  (encodeFlags packet.flags &&& hashableFlagsMask) ::
    (packet.destinationHash.toList ++ packet.context :: packet.data)

/-- The low half of the flags byte keeps the destination type and the packet type. -/
theorem hashableFlags_eq_iff (first second : RnsPacketFlags) :
    encodeFlags first &&& hashableFlagsMask = encodeFlags second &&& hashableFlagsMask ↔
      first.destinationType = second.destinationType ∧ first.packetType = second.packetType := by
  have hlow : ∀ flags : RnsPacketFlags, encodeFlags flags &&& hashableFlagsMask =
      flags.destinationType.toBits <<< 2 ||| flags.packetType.toBits := by
    rintro ⟨header, context, transportType, destination, packet⟩
    cases header <;> cases context <;> cases transportType <;> cases destination <;> cases packet <;> rfl
  rw [hlow, hlow]
  cases first.destinationType <;> cases second.destinationType <;> cases first.packetType <;>
    cases second.packetType <;> decide

theorem hashableBytes_eq_iff (first second : RnsPacket) :
    hashableBytes first = hashableBytes second ↔
      first.flags.destinationType = second.flags.destinationType ∧
      first.flags.packetType = second.flags.packetType ∧
      first.destinationHash = second.destinationHash ∧ first.context = second.context ∧
      first.data = second.data := by
  simp only [hashableBytes, List.cons.injEq, hashableFlags_eq_iff]
  constructor
  · rintro ⟨⟨hdestinationType, hpacketType⟩, hrest⟩
    obtain ⟨hdestination, hrest⟩ := List.append_inj hrest (by simp only [length_hash])
    obtain ⟨hcontext, hdata⟩ := List.cons.inj hrest
    exact ⟨hdestinationType, hpacketType, List.Vector.toList_injective hdestination, hcontext, hdata⟩
  · rintro ⟨hdestinationType, hpacketType, hdestination, hcontext, hdata⟩
    rw [hdestination, hcontext, hdata]
    exact ⟨⟨hdestinationType, hpacketType⟩, rfl⟩

/-- The part after the flags starts at the destination, in either header. -/
theorem drop_packetBytes {packet : RnsPacket} (h : Encodable packet) :
    (packetBytes packet).drop (hashableRestStart packet.flags.headerType) =
      packet.destinationHash.toList ++ packet.context :: packet.data := by
  have hlen := length_transportBytes h.transport
  have hstart : hashableRestStart packet.flags.headerType =
      (transportBytes packet.transportId).length + 2 := by
    cases hheader : packet.flags.headerType with
    | header1 =>
      rw [hheader, headerLen, rnsHeader1Len] at hlen
      rw [hashableRestStart]
      omega
    | header2 =>
      rw [hheader, headerLen, rnsHeader2Len] at hlen
      rw [hashableRestStart, rnsTruncatedHashLen]
      omega
  rw [hstart]
  simp only [packetBytes, List.drop_succ_cons, List.drop_left]

theorem length_hashableBytes (packet : RnsPacket) :
    (hashableBytes packet).length = 18 + packet.data.length := by
  simp only [hashableBytes, List.length_cons, List.length_append, length_hash]
  omega

theorem packetHashableLen_eq {packet : RnsPacket} (h : Encodable packet) :
    packetHashableLen (packetBytes packet).length packet.flags.headerType =
      .ok (hashableBytes packet).length := by
  have hlen := length_packetBytes h.transport
  rw [length_hashableBytes]
  cases hheader : packet.flags.headerType with
  | header1 =>
    rw [hheader, headerLen, rnsHeader1Len] at hlen
    rw [packetHashableLen, subUsize_eq_ok (by omega), hlen]
    congr 1
    omega
  | header2 =>
    rw [hheader, headerLen, rnsHeader2Len] at hlen
    rw [packetHashableLen, Outcome.bind_eq (subUsize_eq_ok (by rw [rnsTruncatedHashLen]; omega)),
      subUsize_eq_ok (by rw [rnsTruncatedHashLen]; omega), hlen, rnsTruncatedHashLen]
    congr 1
    omega

/-- The hashable part is written to any output with room for it, and what is behind it stays. -/
theorem writePacketHashablePart_eq {input : List UInt8} {packet : RnsPacket}
    (h : Checked.decodePacket input = .ok packet) {output : List UInt8}
    (hroom : (hashableBytes packet).length ≤ output.length) :
    writePacketHashablePart input output = .ok (hashableBytes packet).length
      (hashableBytes packet ++ output.drop (hashableBytes packet).length) := by
  obtain ⟨hencodable, rfl⟩ := packetBytes_of_decodePacket (Checked.decodePacket_eq_ok_iff.mp h)
  have hpart := drop_packetBytes hencodable
  have hlen := length_packetBytes hencodable.transport
  have hpacket : 1 ≤ (packetBytes packet).length := (isPacket_packetBytes hencodable).1
  have hstart : hashableRestStart packet.flags.headerType ≤ (packetBytes packet).length := by
    have hlength := congrArg List.length hpart
    simp only [List.length_drop, List.length_append, List.length_cons, length_hash] at hlength
    omega
  have hfirst : (byteAt (packetBytes packet) 0 : Outcome RnsWireError UInt8) =
      .ok (encodeFlags packet.flags) := rfl
  have hrest : (slice (packetBytes packet) (hashableRestStart packet.flags.headerType)
      (packetBytes packet).length : Outcome RnsWireError (List UInt8)) =
        .ok (packet.destinationHash.toList ++ packet.context :: packet.data) := by
    rw [slice_eq_ok hstart le_rfl, hpart, List.take_of_length_le]
    rw [← hpart, List.length_drop]
  have hend : (hashableBytes packet).length =
      1 + (packet.destinationHash.toList ++ packet.context :: packet.data).length := by
    rw [hashableBytes, List.length_cons, Nat.add_comm]
  -- the flags go in front of the rest
  have hwrite := ((extends_setByte (ε := RnsWireError) 0
    (encodeFlags packet.flags &&& hashableFlagsMask)).bind
      (extends_copyInto 1 (packet.destinationHash.toList ++ packet.context :: packet.data)
        hend) rfl).run hroom
  rw [writePacketHashablePart, Outcome.lift_bind h,
    Outcome.lift_bind (packetHashableLen_eq hencodable), run_get_bind,
    Outcome.lift_bind (rejectIf_eq_ok (Nat.not_lt.mpr hroom)), Outcome.lift_bind hfirst]
  simp only [Outcome.lift_bind hrest]
  rw [← bind_assoc, run_bind_of_ok hwrite]
  rfl

/-- The buffer of `packet_hash` has room for the hashable part of every packet. -/
theorem length_hashableBytes_le {packet : RnsPacket} (h : Encodable packet) :
    (hashableBytes packet).length ≤ rnsMtu - 1 := by
  have hlen := length_transportBytes h.transport
  have hsize := h.size_le
  rw [length_hashableBytes]
  omega

theorem packetHash_eq {input : List UInt8} {packet : RnsPacket}
    (h : Checked.decodePacket input = .ok packet) (sha256 : List UInt8 → ByteArrayN 32) :
    packetHash sha256 input = .ok (sha256 (hashableBytes packet)) := by
  obtain ⟨hencodable, -⟩ := packetBytes_of_decodePacket (Checked.decodePacket_eq_ok_iff.mp h)
  have hroom : (hashableBytes packet).length ≤ (List.replicate (rnsMtu - 1) (0 : UInt8)).length := by
    rw [List.length_replicate]
    exact length_hashableBytes_le hencodable
  rw [packetHash, Outcome.bind_eq (runOn_eq_ok (writePacketHashablePart_eq h hroom))]
  have hpart : (slice (hashableBytes packet ++ (List.replicate (rnsMtu - 1) 0).drop
      (hashableBytes packet).length) 0 (hashableBytes packet).length :
        Outcome RnsWireError (List UInt8)) = .ok (hashableBytes packet) :=
    @slice_append _ [] _ _ _ _ rfl (Nat.zero_add _)
  simp only [Outcome.bind_eq hpart]
  rfl

theorem packetHash_eq_fail {input : List UInt8} {error : RnsWireError}
    (h : Checked.decodePacket input = fail error) (sha256 : List UInt8 → ByteArrayN 32) :
    packetHash sha256 input = fail error := by
  have hrun : writePacketHashablePart input (List.replicate (rnsMtu - 1) 0) =
      .error (.error error) (List.replicate (rnsMtu - 1) 0) :=
    Outcome.run_lift_bind_fail h _ _
  rw [packetHash, runOn_eq_error hrun]
  rfl

/-- **The packet hash identifies a packet independently of its path.** The hashable parts of two
packets are equal exactly when the packets agree in destination type, packet type, destination,
context and data, whatever their hops, header type, transport and context flag; the hash of a packet
is the hash of that part. It fails exactly where the decoder does, with the same error. -/
theorem packetHash_identifies (sha256 : List UInt8 → ByteArrayN 32) :
    (∀ first second p q, Checked.decodePacket first = .ok p → Checked.decodePacket second = .ok q →
      ∃ a b : List UInt8,
        (∀ output : List UInt8, a.length ≤ output.length →
          writePacketHashablePart first output = .ok a.length (a ++ output.drop a.length)) ∧
        (∀ output : List UInt8, b.length ≤ output.length →
          writePacketHashablePart second output = .ok b.length (b ++ output.drop b.length)) ∧
        (a = b ↔ p.flags.destinationType = q.flags.destinationType ∧
          p.flags.packetType = q.flags.packetType ∧ p.destinationHash = q.destinationHash ∧
          p.context = q.context ∧ p.data = q.data) ∧
        packetHash sha256 first = .ok (sha256 a) ∧ packetHash sha256 second = .ok (sha256 b)) ∧
    ∀ input, (∀ packet, Checked.decodePacket input = .ok packet →
        ∃ hash, packetHash sha256 input = .ok hash) ∧
      ∀ fault, Checked.decodePacket input = .error fault → packetHash sha256 input = .error fault := by
  refine ⟨?_, fun input => ⟨?_, ?_⟩⟩
  · intro first second p q hp hq
    exact ⟨hashableBytes p, hashableBytes q, fun _ => writePacketHashablePart_eq hp,
      fun _ => writePacketHashablePart_eq hq, hashableBytes_eq_iff p q, packetHash_eq hp sha256,
      packetHash_eq hq sha256⟩
  · intro packet h
    exact ⟨_, packetHash_eq h sha256⟩
  · intro fault h
    match fault, h with
    | .error error, h => exact packetHash_eq_fail h sha256
    | .panic, h =>
      rw [Checked.decodePacket_eq] at h
      exact absurd h (ends_ofResult id _).ne_panic

/-- Two frames of one packet: on its first hop, and further on with a transport identifier. -/
theorem packetHash_samplePacket :
    packetHash (fun data => fillBytes 32 (UInt8.ofNat data.length)) (packetBytes samplePacket) =
      packetHash (fun data => fillBytes 32 (UInt8.ofNat data.length))
        (packetBytes { samplePacket with
          flags := { samplePacket.flags with headerType := .header1 }, hops := 0,
          transportId := none }) := by
  obtain ⟨a, b, -, -, hiff, hfirst, hsecond⟩ :=
    (packetHash_identifies fun data => fillBytes 32 (UInt8.ofNat data.length)).1
      (packetBytes samplePacket) (packetBytes { samplePacket with
        flags := { samplePacket.flags with headerType := .header1 }, hops := 0, transportId := none })
      _ _ (by rfl) (by rfl)
  rw [hfirst, hsecond, hiff.mpr ⟨rfl, rfl, rfl, rfl, rfl⟩]

end Hyf.Rns
