import Hyf.Rns.Crypto

/-!
# Interface access codes (`hyf_rns_wire`)

An interface with an access code signs every packet, puts the end of the signature behind the header
and masks the rest with bytes derived from it. `maskedPacket` is the masked form in terms of the raw
packet. The two directions meet there: `ifacApplyOutbound_eq` says that the sender writes the masked
form, and `verifiedPacket_eq_ok_iff` that the receiver accepts the masked forms and nothing else.
-/

namespace Hyf.Rns

open ByteCodec BufferM

def rnsIfacMinSize : ℕ := 1
def rnsIfacMaxSize : ℕ := 64

def ifacFlag : UInt8 := 0x80

/-- `validate_ifac_size`. -/
def validateIfacSize (ifacSize : ℕ) : Outcome RnsWireError Unit :=
  rejectIf (¬(rnsIfacMinSize ≤ ifacSize ∧ ifacSize ≤ rnsIfacMaxSize))
    (.invalidIfacSize ifacSize rnsIfacMaxSize)

/-- `validate_ifac_key`. -/
def validateIfacKey (ifacKey : List UInt8) : Outcome RnsWireError Unit :=
  rejectIf (ifacKey = []) .invalidIfacKey

/-- `validate_wire_len`. -/
def validateWireLen (len : ℕ) : Outcome RnsWireError Unit :=
  rejectIf (rnsMtu < len) (.packetTooLarge len rnsMtu)

/-- `validate_raw_packet_len`. -/
def validateRawPacketLen (len : ℕ) : Outcome RnsWireError Unit := do
  rejectIf (len ≤ 2) (.packetTooShort len 3)
  validateWireLen len

/-- `constant_time_eq`. -/
def constantTimeEq (left right : List UInt8) : Bool :=
  if left.length ≠ right.length then false
  else (left.zip right).foldl (fun diff pair => diff ||| (pair.1 ^^^ pair.2)) 0 == (0 : UInt8)

/-- `&signature[signature.len() - ifac_size..]`. -/
def signatureEnd (signature : ByteArrayN 64) (ifacSize : ℕ) : Outcome RnsWireError (List UInt8) := do
  let start ← subUsize 64 ifacSize
  slice signature.toList start 64

section

variable (crypto : Primitives)

/-! ## Outbound -/

/-- The length of the masked packet. -/
def ifacRequired (rawLen ifacSize : ℕ) : Outcome RnsWireError ℕ :=
  match checkedAdd rawLen ifacSize with
  | some required => .ok required
  | none => fail (.packetTooLarge rawLen rnsMtu)

/-- `((raw_packet[0] | IFAC_FLAG) ^ out[0]) | IFAC_FLAG`. -/
def maskFlags (rawPacket : List UInt8) (pad : UInt8) : Outcome RnsWireError UInt8 := do
  let first ← byteAt rawPacket 0
  return ((first ||| ifacFlag) ^^^ pad) ||| ifacFlag

/-- `out[1] ^= raw_packet[1]`. -/
def maskHops (rawPacket : List UInt8) (pad : UInt8) : Outcome RnsWireError UInt8 := do
  let hops ← byteAt rawPacket 1
  return pad ^^^ hops

/-- `raw_packet[index - ifac_size] ^ mask`. -/
def maskByte (rawPacket : List UInt8) (ifacSize index : ℕ) (pad : UInt8) :
    Outcome RnsWireError UInt8 := do
  let byte ← byteAt rawPacket (index - ifacSize)
  return byte ^^^ pad

/-- The part of `ifac_apply_outbound` that masks in place, with the mask in the output. -/
def maskInto (rawPacket ifac : List UInt8) (ifacSize required : ℕ) : BufferM RnsWireError Unit := do
  update 0 (maskFlags rawPacket)
  update 1 (maskHops rawPacket)
  copyInto 2 (2 + ifacSize) ifac
  (List.range' (2 + ifacSize) (required - (2 + ifacSize))).forM fun index =>
    update index (maskByte rawPacket ifacSize index)

/-- `ifac_apply_outbound`. -/
def ifacApplyOutbound (rawPacket : List UInt8) (identity : RnsSecretIdentity)
    (ifacKey : List UInt8) (ifacSize : ℕ) : BufferM RnsWireError ℕ := do
  (validateIfacSize ifacSize).lift
  (validateIfacKey ifacKey).lift
  (validateRawPacketLen rawPacket.length).lift
  let first ← (byteAt rawPacket 0).lift
  (rejectIf (first &&& ifacFlag ≠ 0) .unsupportedPacketAccessCode).lift
  let required ← (ifacRequired rawPacket.length ifacSize).lift
  (validateWireLen required).lift
  let out ← get
  (rejectIf (out.length < required) (.outputBufferTooShort out.length required)).lift
  let signature ← (ofResult mapCryptoError (sign crypto identity rawPacket)).lift
  let ifac ← (signatureEnd signature ifacSize).lift
  (rnsHkdfSha256 crypto required ifac (some ifacKey) none).convert mapCryptoError
  maskInto rawPacket ifac ifacSize required
  return required

/-! ## Inbound -/

/-- `(masked_packet[0] ^ mask[0]) & !IFAC_FLAG`. -/
def unmaskFlags (maskedPacket mask : List UInt8) : Outcome RnsWireError UInt8 := do
  let first ← byteAt maskedPacket 0
  let pad ← byteAt mask 0
  return (first ^^^ pad) &&& ~~~ifacFlag

/-- `masked_packet[index] ^ mask[index]`. -/
def unmaskByte (maskedPacket mask : List UInt8) (index : ℕ) : Outcome RnsWireError UInt8 := do
  let byte ← byteAt maskedPacket index
  let pad ← byteAt mask index
  return byte ^^^ pad

/-- The part of `ifac_verify_inbound` that fills its second buffer. -/
def unmaskInto (maskedPacket mask : List UInt8) (ifacSize required : ℕ) :
    BufferM RnsWireError Unit := do
  update 0 fun _ => unmaskFlags maskedPacket mask
  update 1 fun _ => unmaskByte maskedPacket mask 1
  (((List.range rnsMtu).take required).drop 2).forM fun index =>
    update index fun _ => unmaskByte maskedPacket mask (index + ifacSize)

/-- The part of `ifac_verify_inbound` before it writes: of the output it reads the length. -/
def verifiedPacket (maskedPacket : List UInt8) (identity : RnsSecretIdentity)
    (ifacKey : List UInt8) (ifacSize outLen : ℕ) : Outcome RnsWireError (List UInt8) := do
  validateIfacSize ifacSize
  validateIfacKey ifacKey
  validateWireLen maskedPacket.length
  rejectIf (maskedPacket.length ≤ 2 + ifacSize)
    (.packetTooShort maskedPacket.length (2 + ifacSize + 1))
  let first ← byteAt maskedPacket 0
  rejectIf (first &&& ifacFlag = 0) .missingPacketAccessCode
  let required ← subUsize maskedPacket.length ifacSize
  rejectIf (outLen < required) (.outputBufferTooShort outLen required)
  let ifac ← slice maskedPacket 2 (2 + ifacSize)
  let (_, mask) ← runOn ((rnsHkdfSha256 crypto maskedPacket.length ifac (some ifacKey) none).convert
    mapCryptoError) (List.replicate rnsMtu 0)
  let (_, unmasked) ← runOn (unmaskInto maskedPacket mask ifacSize required)
    (List.replicate rnsMtu 0)
  let raw ← slice unmasked 0 required
  let signature ← ofResult mapCryptoError (sign crypto identity raw)
  let expectedIfac ← signatureEnd signature ifacSize
  rejectIf (constantTimeEq ifac expectedIfac = false) .invalidPacketAccessCode
  return raw

/-- `ifac_verify_inbound`. -/
def ifacVerifyInbound (maskedPacket : List UInt8) (identity : RnsSecretIdentity)
    (ifacKey : List UInt8) (ifacSize : ℕ) : BufferM RnsWireError ℕ := do
  let out ← get
  let raw ← (verifiedPacket crypto maskedPacket identity ifacKey ifacSize out.length).lift
  copyInto 0 raw.length raw
  return raw.length

end

/-! ## Bits -/

/-- The flag is the top bit. -/
theorem testBit_ifacFlag (i : ℕ) : (128#8).getLsbD i = decide (i = 7) := by
  by_cases h : i < 8
  · exact (by decide : ∀ j : Fin 8, (128#8).getLsbD j = decide (j.val = 7)) ⟨i, h⟩
  · rw [BitVec.getLsbD_of_ge _ _ (by omega)]
    simp
    omega

/-- Its complement is all other bits. -/
theorem testBit_not_ifacFlag {i : ℕ} (h : i < 8) : (127#8).getLsbD i = decide (i ≠ 7) :=
  (by decide : ∀ j : Fin 8, (127#8).getLsbD j = decide (j.val ≠ 7)) ⟨i, h⟩

/-- The flag is clear where the top bit is. -/
theorem ifacFlag_clear_iff (byte : UInt8) :
    byte &&& ifacFlag = 0 ↔ byte.toBitVec.getLsbD 7 = false :=
  forall_byte (P := fun byte => byte &&& ifacFlag = 0 ↔ byte.toBitVec.getLsbD 7 = false)
    (by decide) byte

/-- A flags byte without the access code bit survives the mask. -/
theorem unmask_mask_flags {byte pad : UInt8} (h : byte &&& ifacFlag = 0) :
    ((((byte ||| ifacFlag) ^^^ pad) ||| ifacFlag) ^^^ pad) &&& ~~~ifacFlag = byte := by
  have hclear := (ifacFlag_clear_iff byte).mp h
  apply UInt8.eq_of_toBitVec_eq
  apply BitVec.eq_of_getLsbD_eq
  intro i hi
  by_cases h7 : i = 7
  · subst h7
    simpa [ifacFlag, -BitVec.getLsbD_eq_getElem, testBit_not_ifacFlag hi] using hclear
  · simp [ifacFlag, -BitVec.getLsbD_eq_getElem, testBit_ifacFlag, testBit_not_ifacFlag hi, h7]

/-- A flags byte with the access code bit is the masked form of what it unmasks to. -/
theorem mask_unmask_flags {byte pad : UInt8} (h : byte &&& ifacFlag ≠ 0) :
    ((((byte ^^^ pad) &&& ~~~ifacFlag) ||| ifacFlag) ^^^ pad) ||| ifacFlag = byte := by
  have hset : byte.toBitVec.getLsbD 7 = true := by
    rw [← Bool.not_eq_false]
    exact fun hclear => h ((ifacFlag_clear_iff byte).mpr hclear)
  apply UInt8.eq_of_toBitVec_eq
  apply BitVec.eq_of_getLsbD_eq
  intro i hi
  by_cases h7 : i = 7
  · subst h7
    simpa [ifacFlag, -BitVec.getLsbD_eq_getElem, testBit_ifacFlag] using hset
  · simp [ifacFlag, -BitVec.getLsbD_eq_getElem, testBit_ifacFlag, testBit_not_ifacFlag hi, h7]

/-- A masked first byte has the flag. -/
theorem mask_flags_set (byte pad : UInt8) :
    (((byte ||| ifacFlag) ^^^ pad) ||| ifacFlag) &&& ifacFlag ≠ 0 := by
  rw [Ne, ifacFlag_clear_iff]
  simp [ifacFlag, -BitVec.getLsbD_eq_getElem, testBit_ifacFlag]

/-- An unmasked first byte has not. -/
theorem unmask_flags_clear (byte pad : UInt8) :
    ((byte ^^^ pad) &&& ~~~ifacFlag) &&& ifacFlag = 0 := by
  rw [ifacFlag_clear_iff]
  simp [ifacFlag, -BitVec.getLsbD_eq_getElem]

/-- Masking twice with the same bytes is masking not at all. -/
theorem zipWith_xor_cancel {bytes pads : List UInt8} (h : bytes.length ≤ pads.length) :
    List.zipWith (· ^^^ ·) (List.zipWith (· ^^^ ·) bytes pads) pads = bytes := by
  induction bytes generalizing pads with
  | nil => rfl
  | cons byte bytes ih =>
    match pads, h with
    | pad :: pads, h =>
      rw [List.zipWith_cons_cons, List.zipWith_cons_cons, ih (Nat.le_of_succ_le_succ h),
        UInt8.xor_assoc, UInt8.xor_self, UInt8.xor_zero]

/-- The bits that are collected stay, so that none are left over only between equal strings. -/
theorem foldl_diff_eq_zero_iff {left right : List UInt8} (hlen : left.length = right.length)
    (diff : UInt8) :
    (left.zip right).foldl (fun diff pair => diff ||| (pair.1 ^^^ pair.2)) diff = 0 ↔
      diff = 0 ∧ left = right := by
  induction left generalizing right diff with
  | nil =>
    rw [List.eq_nil_of_length_eq_zero hlen.symm]
    simp
  | cons a left ih =>
    match right, hlen with
    | b :: right, hlen =>
      rw [List.zip_cons_cons, List.foldl_cons, ih (Nat.succ_injective hlen), UInt8.or_eq_zero_iff,
        UInt8.xor_eq_zero_iff, List.cons.injEq, and_assoc]

/-- The comparison is equality. -/
theorem constantTimeEq_iff (left right : List UInt8) :
    constantTimeEq left right = true ↔ left = right := by
  unfold constantTimeEq
  by_cases hlen : left.length = right.length
  · rw [if_neg (not_not.mpr hlen), beq_iff_eq, foldl_diff_eq_zero_iff hlen]
    exact and_iff_right rfl
  · rw [if_pos hlen]
    constructor
    · exact fun h => absurd h Bool.false_ne_true
    · exact fun h => absurd (congrArg List.length h) hlen

/-! ## The masked form -/

/-- The masked form of a packet: the flags byte with the access code bit, the hop count, the access
code and the rest. -/
def maskBytes : (raw mask ifac : List UInt8) → List UInt8
  | first :: hops :: rest, pad :: pad' :: pads, ifac =>
    (((first ||| ifacFlag) ^^^ pad) ||| ifacFlag) :: (pad' ^^^ hops) ::
      (ifac ++ List.zipWith (· ^^^ ·) rest (pads.drop ifac.length))
  | _, _, _ => []

/-- The raw packet under a masked form, whose access code takes `ifacSize` bytes. -/
def unmaskBytes (ifacSize : ℕ) : (masked mask : List UInt8) → List UInt8
  | first :: hops :: rest, pad :: pad' :: pads =>
    ((first ^^^ pad) &&& ~~~ifacFlag) :: (hops ^^^ pad') ::
      List.zipWith (· ^^^ ·) (rest.drop ifacSize) (pads.drop ifacSize)
  | _, _ => []

/-- What an interface with an access code of `ifacSize` bytes carries. -/
structure IsRaw (ifacSize : ℕ) (raw : List UInt8) : Prop where
  long : 3 ≤ raw.length
  size_le : raw.length + ifacSize ≤ rnsMtu
  clear : ∀ first ∈ raw.head?, first &&& ifacFlag = 0

/-- Unmasking gives the packet back. -/
theorem unmaskBytes_maskBytes {raw mask ifac : List UInt8}
    (hlen : mask.length = raw.length + ifac.length) (hlong : 2 ≤ raw.length)
    (hclear : ∀ first ∈ raw.head?, first &&& ifacFlag = 0) :
    unmaskBytes ifac.length (maskBytes raw mask ifac) mask = raw := by
  match raw, mask, hlong, (by omega : 2 ≤ mask.length), hlen with
  | first :: hops :: rest, pad :: pad' :: pads, _, _, hlen =>
    have hrest : rest.length ≤ (pads.drop ifac.length).length := by
      simp only [List.length_cons] at hlen
      rw [List.length_drop]
      omega
    simp only [maskBytes, unmaskBytes, List.drop_left]
    rw [unmask_mask_flags (hclear first rfl), zipWith_xor_cancel hrest, UInt8.xor_comm pad',
      UInt8.xor_assoc, UInt8.xor_self, UInt8.xor_zero]

/-- Masking the unmasked packet gives the bytes back that came in. -/
theorem maskBytes_unmaskBytes {masked mask : List UInt8} {ifacSize : ℕ}
    (hlen : mask.length = masked.length) (hlong : 2 + ifacSize ≤ masked.length)
    (hset : ∀ first ∈ masked.head?, first &&& ifacFlag ≠ 0) :
    maskBytes (unmaskBytes ifacSize masked mask) mask ((masked.drop 2).take ifacSize) = masked := by
  match masked, mask, (by omega : 2 ≤ masked.length), (by omega : 2 ≤ mask.length), hlen with
  | first :: hops :: rest, pad :: pad' :: pads, _, _, hlen =>
    simp only [List.length_cons, Nat.add_right_cancel_iff] at hlen hlong
    have hifac : (rest.take ifacSize).length = ifacSize := by
      rw [List.length_take]
      omega
    have hrest : (rest.drop ifacSize).length ≤ (pads.drop ifacSize).length := by
      rw [List.length_drop, List.length_drop, hlen]
    simp only [maskBytes, unmaskBytes, List.drop_succ_cons, List.drop_zero]
    rw [mask_unmask_flags (hset first rfl), hifac, zipWith_xor_cancel hrest, List.take_append_drop,
      UInt8.xor_comm hops, ← UInt8.xor_assoc, UInt8.xor_self, UInt8.zero_xor]

/-- A masked packet is longer by the access code. -/
theorem length_maskBytes {raw mask ifac : List UInt8}
    (hlen : mask.length = raw.length + ifac.length) (hlong : 2 ≤ raw.length) :
    (maskBytes raw mask ifac).length = mask.length := by
  match raw, mask, hlong, (by omega : 2 ≤ mask.length), hlen with
  | first :: hops :: rest, pad :: pad' :: pads, _, _, hlen =>
    simp only [List.length_cons] at hlen
    simp only [maskBytes, List.length_cons, List.length_append, List.length_zipWith, List.length_drop]
    omega

/-- An unmasked packet is shorter by the access code. -/
theorem length_unmaskBytes {masked mask : List UInt8} {ifacSize : ℕ}
    (hlen : mask.length = masked.length) (hlong : 2 + ifacSize ≤ masked.length) :
    (unmaskBytes ifacSize masked mask).length = masked.length - ifacSize := by
  match masked, mask, (by omega : 2 ≤ masked.length), (by omega : 2 ≤ mask.length), hlen with
  | first :: hops :: rest, pad :: pad' :: pads, _, _, hlen =>
    simp only [List.length_cons, Nat.add_right_cancel_iff] at hlen hlong
    simp only [unmaskBytes, List.length_cons, List.length_zipWith, List.length_drop]
    omega

/-! ## Outbound -/

/-- A byte that is there is read. -/
theorem byteAt_eq_ok_of_getElem? {bytes : List UInt8} {index : ℕ} {byte : UInt8}
    (h : bytes[index]? = some byte) : (byteAt bytes index : Outcome RnsWireError UInt8) = .ok byte := by
  rw [byteAt, h]

/-- The loop masks the mask itself, from the front. -/
theorem run_maskInto (raw mask ifac : List UInt8) (hlen : mask.length = raw.length + ifac.length)
    (hlong : 2 ≤ raw.length) (rest : List UInt8) :
    maskInto raw ifac ifac.length mask.length (mask ++ rest) = .ok () (maskBytes raw mask ifac ++ rest) := by
  match raw, mask, hlong, (by omega : 2 ≤ mask.length), hlen with
  | first :: hops :: tail, pad :: pad' :: pads, _, _, hlen =>
    simp only [List.length_cons] at hlen
    have hcount : (pad :: pad' :: pads).length - (2 + ifac.length) = (pads.drop ifac.length).length := by
      rw [List.length_drop, List.length_cons, List.length_cons]
      omega
    have hfirst : update 0 (maskFlags (first :: hops :: tail)) (pad :: pad' :: (pads ++ rest)) =
        .ok () ((((first ||| ifacFlag) ^^^ pad) ||| ifacFlag) :: pad' :: (pads ++ rest)) :=
      @run_update _ [] _ _ _ _ _ rfl rfl
    have hhops : ∀ byte, update 1 (maskHops (first :: hops :: tail)) (byte :: pad' :: (pads ++ rest)) =
        .ok () (byte :: (pad' ^^^ hops) :: (pads ++ rest)) :=
      fun byte => @run_update _ [byte] _ _ _ _ _ rfl rfl
    have hcode : ∀ a b, (copyInto 2 (2 + ifac.length) ifac : BufferM RnsWireError Unit)
        (a :: b :: (pads ++ rest)) =
          .ok () ([a, b] ++ ifac ++ pads.drop ifac.length ++ rest) := by
      intro a b
      rw [List.append_assoc _ (pads.drop ifac.length), ← List.drop_append_of_le_length (by omega)]
      exact extends_copyInto 2 ifac rfl [a, b] (pads ++ rest) rfl (by rw [List.length_append]; omega)
    -- the byte of the packet that stands `ifac.length` before the mask byte
    have hmask : ∀ j a b, (pads.drop ifac.length)[j]? = some a →
        (List.zipWith (· ^^^ ·) tail (pads.drop ifac.length))[j]? = some b →
          maskByte (first :: hops :: tail) ifac.length (2 + ifac.length + j) a = .ok b := by
      intro j a b ha hb
      have hindex : 2 + ifac.length + j - ifac.length = j + 2 := by omega
      rw [List.getElem?_zipWith, ha] at hb
      cases hbyte : tail[j]? with
      | none =>
        rw [hbyte] at hb
        cases hb
      | some byte =>
        rw [hbyte] at hb
        cases hb
        have hat : (first :: hops :: tail)[j + 2]? = some byte := hbyte
        rw [maskByte, hindex, Outcome.bind_eq (byteAt_eq_ok_of_getElem? hat)]
        rfl
    rw [maskInto, List.cons_append, List.cons_append, run_bind_of_ok hfirst, run_bind_of_ok (hhops _),
      run_bind_of_ok (hcode _ _), hcount]
    exact run_forM_update (by rw [List.length_zipWith, List.length_drop]; omega) hmask
      (by rw [List.length_append, List.length_cons, List.length_singleton])

section

variable (crypto : Primitives) (identity : RnsSecretIdentity) (ifacKey : List UInt8) (ifacSize : ℕ)

/-- The access code of a packet: the end of its signature. -/
def accessCode (raw : List UInt8) : List UInt8 :=
  (crypto.sign identity.ed25519Secret raw).toList.drop (64 - ifacSize)

/-- The mask that belongs to an access code. -/
def ifacMask (ifac : List UInt8) (len : ℕ) : List UInt8 := (crypto.expand ifacKey ifac [] len).toList

/-- The masked form of a raw packet. -/
def maskedPacket (raw : List UInt8) : List UInt8 :=
  maskBytes raw
    (ifacMask crypto ifacKey (accessCode crypto identity ifacSize raw) (raw.length + ifacSize))
    (accessCode crypto identity ifacSize raw)

end

section

variable {crypto : Primitives} {identity : RnsSecretIdentity} {ifacKey : List UInt8} {ifacSize : ℕ}

/-- The parameters that both directions accept. -/
structure ValidIfac (ifacKey : List UInt8) (ifacSize : ℕ) : Prop where
  key_ne : ifacKey ≠ []
  pos : 1 ≤ ifacSize
  le : ifacSize ≤ 64

/-- The access code has the size of the interface. -/
theorem length_accessCode (crypto : Primitives) (identity : RnsSecretIdentity) (h : ifacSize ≤ 64)
    (raw : List UInt8) :
    (accessCode crypto identity ifacSize raw).length = ifacSize := by
  rw [accessCode, List.length_drop, List.Vector.toList_length]
  omega

/-- The access code is the end of the signature. -/
theorem signatureEnd_eq (h : ifacSize ≤ 64) (raw : List UInt8) :
    signatureEnd (crypto.sign identity.ed25519Secret raw) ifacSize =
      .ok (accessCode crypto identity ifacSize raw) := by
  have hlen := (crypto.sign identity.ed25519Secret raw).toList_length
  rw [signatureEnd, Outcome.bind_eq (subUsize_eq_ok h), slice_eq_ok (by omega) hlen.ge,
    List.take_of_length_le (by rw [List.length_drop, hlen])]
  rfl

/-- The mask has the length asked for. -/
@[simp] theorem length_ifacMask (crypto : Primitives) (ifacKey ifac : List UInt8) (len : ℕ) :
    (ifacMask crypto ifacKey ifac len).length = len :=
  (crypto.expand ifacKey ifac [] len).toList_length

/-- The mask is derived into the front of the output. -/
theorem run_convert_rnsHkdfSha256 (hkey : ifacKey ≠ []) {ifac : List UInt8} (hifac : ifac ≠ [])
    {len : ℕ} (hpos : 0 < len) (hlen : len ≤ rnsMtu) {output : List UInt8}
    (hroom : len ≤ output.length) :
    (rnsHkdfSha256 crypto len ifac (some ifacKey) none).convert mapCryptoError output =
      .ok () (ifacMask crypto ifacKey ifac len ++ output.drop len) := by
  apply run_convert_ok
  apply run_rnsHkdfSha256 hkey hifac hpos _ hroom
  rw [rnsMtu] at hlen
  omega

/-- A packet that fits with its code has a length. -/
theorem ifacRequired_eq_ok {raw : List UInt8} (h : raw.length + ifacSize ≤ rnsMtu) :
    ifacRequired raw.length ifacSize = .ok (raw.length + ifacSize) := by
  rw [ifacRequired, checkedAdd_eq_some (h.trans_lt (by decide))]

/-- The size of a valid interface passes. -/
theorem validateIfacSize_eq_ok (h : ValidIfac ifacKey ifacSize) : validateIfacSize ifacSize = .ok () :=
  rejectIf_eq_ok (not_not.mpr ⟨h.pos, h.le⟩)

/-- The key of a valid interface passes. -/
theorem validateIfacKey_eq_ok (h : ValidIfac ifacKey ifacSize) : validateIfacKey ifacKey = .ok () :=
  rejectIf_eq_ok h.key_ne

/-- A length within the mtu passes. -/
theorem validateWireLen_eq_ok {len : ℕ} (h : len ≤ rnsMtu) : validateWireLen len = .ok () :=
  rejectIf_eq_ok (Nat.not_lt.mpr h)

/-- The sender writes the masked form, whatever the output held before. -/
theorem ifacApplyOutbound_eq (hvalid : ValidIfac ifacKey ifacSize) {raw : List UInt8}
    (hraw : IsRaw ifacSize raw) {out : List UInt8} (hroom : raw.length + ifacSize ≤ out.length) :
    ifacApplyOutbound crypto raw identity ifacKey ifacSize out = .ok (raw.length + ifacSize)
      (maskedPacket crypto identity ifacKey ifacSize raw ++ out.drop (raw.length + ifacSize)) := by
  have hlong := hraw.long
  have hsize := hraw.size_le
  have hcode := length_accessCode crypto identity hvalid.le raw
  have hpos := hvalid.pos
  have hifac : accessCode crypto identity ifacSize raw ≠ [] := by
    intro hnil
    rw [hnil, List.length_nil] at hcode
    omega
  have hwire : validateRawPacketLen raw.length = .ok () := by
    rw [validateRawPacketLen, Outcome.bind_eq (rejectIf_eq_ok (by omega))]
    exact validateWireLen_eq_ok (by omega)
  have hmask := run_maskInto raw
    (ifacMask crypto ifacKey (accessCode crypto identity ifacSize raw) (raw.length + ifacSize))
    (accessCode crypto identity ifacSize raw) (by rw [length_ifacMask, hcode]) (by omega)
    (out.drop (raw.length + ifacSize))
  rw [hcode, length_ifacMask] at hmask
  match raw, hlong with
  | first :: rest, _ =>
    have hfirst : (byteAt (first :: rest) 0 : Outcome RnsWireError UInt8) = .ok first := rfl
    rw [ifacApplyOutbound, Outcome.lift_bind (validateIfacSize_eq_ok hvalid),
      Outcome.lift_bind (validateIfacKey_eq_ok hvalid), Outcome.lift_bind hwire,
      Outcome.lift_bind hfirst, Outcome.lift_bind (rejectIf_eq_ok (not_not.mpr (hraw.clear first rfl))),
      Outcome.lift_bind (ifacRequired_eq_ok hsize), Outcome.lift_bind (validateWireLen_eq_ok hsize),
      run_get_bind, Outcome.lift_bind (rejectIf_eq_ok (by omega)),
      Outcome.lift_bind (ofResult_eq_ok (sign_eq crypto identity _) mapCryptoError),
      Outcome.lift_bind (signatureEnd_eq hvalid.le _),
      run_bind_of_ok (run_convert_rnsHkdfSha256 hvalid.key_ne hifac (by omega) hsize hroom),
      run_bind_of_ok hmask]
    rfl

end

/-! ## Inbound -/

/-- The indices behind the header. -/
theorem take_drop_range {required : ℕ} (h : required ≤ rnsMtu) :
    ((List.range rnsMtu).take required).drop 2 = List.range' 2 (required - 2) := by
  rw [List.take_range, Nat.min_eq_left h, List.range_eq_range', List.drop_range', Nat.zero_add,
    Nat.mul_one]

/-- The second buffer is filled with the raw packet. -/
theorem run_unmaskInto (masked mask after : List UInt8) (ifacSize : ℕ)
    (hlen : mask.length = masked.length) (hlong : 2 + ifacSize ≤ masked.length)
    (hsize : masked.length ≤ rnsMtu) :
    unmaskInto masked (mask ++ after) ifacSize (masked.length - ifacSize) (List.replicate rnsMtu 0) =
      .ok () (unmaskBytes ifacSize masked mask ++
        List.replicate (rnsMtu - (masked.length - ifacSize)) 0) := by
  match masked, mask, (by omega : 2 ≤ masked.length), (by omega : 2 ≤ mask.length), hlen with
  | first :: hops :: rest, pad :: pad' :: pads, _, _, hlen =>
    simp only [List.length_cons, Nat.add_right_cancel_iff] at hlen hlong hsize
    have hrequired : (first :: hops :: rest).length - ifacSize = rest.length - ifacSize + 2 := by
      rw [List.length_cons, List.length_cons]
      omega
    have hbuffer : List.replicate rnsMtu (0 : UInt8) =
        0 :: 0 :: (List.replicate (rest.length - ifacSize) 0 ++
          List.replicate (rnsMtu - (rest.length - ifacSize + 2)) 0) := by
      rw [← List.replicate_add, ← List.replicate_succ, ← List.replicate_succ]
      congr 1
      omega
    have hfirst : ∀ tail, (update 0 fun _ => unmaskFlags (first :: hops :: rest)
        (pad :: pad' :: (pads ++ after))) (0 :: tail) =
          .ok () (((first ^^^ pad) &&& ~~~ifacFlag) :: tail) :=
      fun tail => @run_update _ [] _ _ _ _ _ rfl rfl
    have hhops : ∀ byte tail, (update 1 fun _ => unmaskByte (first :: hops :: rest)
        (pad :: pad' :: (pads ++ after)) 1) (byte :: 0 :: tail) =
          .ok () (byte :: (hops ^^^ pad') :: tail) :=
      fun byte tail => @run_update _ [byte] _ _ _ _ _ rfl rfl
    -- either byte stands `ifacSize` behind the access code
    have hunmask : ∀ j a b, (List.replicate (rest.length - ifacSize) (0 : UInt8))[j]? = some a →
        (List.zipWith (· ^^^ ·) (rest.drop ifacSize) (pads.drop ifacSize))[j]? = some b →
          unmaskByte (first :: hops :: rest) (pad :: pad' :: (pads ++ after)) (2 + j + ifacSize) =
            .ok b := by
      intro j a b _ hb
      rw [List.getElem?_zipWith_eq_some] at hb
      obtain ⟨byte, padByte, hbyte, hpad, rfl⟩ := hb
      rw [List.getElem?_drop] at hbyte hpad
      have hindex : 2 + j + ifacSize = ifacSize + j + 2 := by omega
      have hat : (first :: hops :: rest)[ifacSize + j + 2]? = some byte := hbyte
      have hat' : (pad :: pad' :: (pads ++ after))[ifacSize + j + 2]? = some padByte :=
        List.getElem?_append_left (List.getElem?_eq_some_iff.mp hpad).1 ▸ hpad
      rw [unmaskByte, hindex, Outcome.bind_eq (byteAt_eq_ok_of_getElem? hat),
        Outcome.bind_eq (byteAt_eq_ok_of_getElem? hat')]
      rfl
    have hloop := @run_forM_update _ (fun index _ => unmaskByte (first :: hops :: rest)
      (pad :: pad' :: (pads ++ after)) (index + ifacSize))
      (List.replicate (rest.length - ifacSize) 0)
      (List.zipWith (· ^^^ ·) (rest.drop ifacSize) (pads.drop ifacSize)) 2
      (by simp [hlen]) hunmask [((first ^^^ pad) &&& ~~~ifacFlag), hops ^^^ pad']
      (List.replicate (rnsMtu - (rest.length - ifacSize + 2)) 0) rfl
    rw [List.length_replicate] at hloop
    rw [unmaskInto, hrequired, take_drop_range (by omega), hbuffer, List.cons_append, List.cons_append,
      run_bind_of_ok (hfirst _), run_bind_of_ok (hhops _ _)]
    exact hloop

section

variable {crypto : Primitives} {identity : RnsSecretIdentity} {ifacKey : List UInt8} {ifacSize : ℕ}

/-- Once the checks in front have passed, the access code decides. -/
theorem verifiedPacket_eq (hvalid : ValidIfac ifacKey ifacSize) {masked : List UInt8} {outLen : ℕ}
    (hsize : masked.length ≤ rnsMtu) (hlong : 2 + ifacSize < masked.length)
    (hset : ∀ first ∈ masked.head?, first &&& ifacFlag ≠ 0)
    (hroom : masked.length - ifacSize ≤ outLen) :
    verifiedPacket crypto masked identity ifacKey ifacSize outLen = do
      let raw := unmaskBytes ifacSize masked
        (ifacMask crypto ifacKey ((masked.drop 2).take ifacSize) masked.length)
      rejectIf (constantTimeEq ((masked.drop 2).take ifacSize)
        (accessCode crypto identity ifacSize raw) = false) .invalidPacketAccessCode
      return raw := by
  have hpos := hvalid.pos
  have hifac : (masked.drop 2).take ifacSize ≠ [] := by
    intro hnil
    have hlength := congrArg List.length hnil
    rw [List.length_take, List.length_drop, List.length_nil] at hlength
    omega
  have hslice : (slice masked 2 (2 + ifacSize) : Outcome RnsWireError (List UInt8)) =
      .ok ((masked.drop 2).take ifacSize) := by
    rw [slice_eq_ok (by omega) (by omega), Nat.add_sub_cancel_left]
  have hmask := @run_convert_rnsHkdfSha256 crypto ifacKey hvalid.key_ne _ hifac masked.length (by omega) hsize
    (List.replicate rnsMtu 0) (by rwa [List.length_replicate])
  have hunmask := run_unmaskInto masked
    (ifacMask crypto ifacKey ((masked.drop 2).take ifacSize) masked.length)
    ((List.replicate rnsMtu 0).drop masked.length) ifacSize (by rw [length_ifacMask]) (by omega) hsize
  have hlen := length_unmaskBytes
    (length_ifacMask crypto ifacKey ((masked.drop 2).take ifacSize) masked.length)
    (show 2 + ifacSize ≤ masked.length by omega)
  have hraw : (slice (unmaskBytes ifacSize masked
      (ifacMask crypto ifacKey ((masked.drop 2).take ifacSize) masked.length) ++
        List.replicate (rnsMtu - (masked.length - ifacSize)) 0) 0 (masked.length - ifacSize) :
          Outcome RnsWireError (List UInt8)) = .ok (unmaskBytes ifacSize masked
            (ifacMask crypto ifacKey ((masked.drop 2).take ifacSize) masked.length)) :=
    @slice_append _ [] _ _ _ _ rfl ((Nat.zero_add _).trans hlen)
  match masked, hlong with
  | first :: rest, _ =>
    have hfirst : (byteAt (first :: rest) 0 : Outcome RnsWireError UInt8) = .ok first := rfl
    rw [verifiedPacket, Outcome.bind_eq (validateIfacSize_eq_ok hvalid),
      Outcome.bind_eq (validateIfacKey_eq_ok hvalid), Outcome.bind_eq (validateWireLen_eq_ok hsize),
      Outcome.bind_eq (rejectIf_eq_ok (by omega)), Outcome.bind_eq hfirst,
      Outcome.bind_eq (rejectIf_eq_ok (hset first rfl)), Outcome.bind_eq (subUsize_eq_ok (by omega)),
      Outcome.bind_eq (rejectIf_eq_ok (by omega)), Outcome.bind_eq hslice,
      Outcome.bind_eq (runOn_eq_ok hmask)]
    simp only
    rw [Outcome.bind_eq (runOn_eq_ok hunmask)]
    simp only
    rw [Outcome.bind_eq hraw, Outcome.bind_eq (ofResult_eq_ok (sign_eq crypto identity _) mapCryptoError),
      Outcome.bind_eq (signatureEnd_eq hvalid.le _)]

/-- The masked form of a packet is longer by the access code. -/
theorem length_maskedPacket (crypto : Primitives) (identity : RnsSecretIdentity)
    (hvalid : ValidIfac ifacKey ifacSize) {raw : List UInt8}
    (hraw : IsRaw ifacSize raw) :
    (maskedPacket crypto identity ifacKey ifacSize raw).length = raw.length + ifacSize := by
  have hcode := length_accessCode crypto identity hvalid.le raw
  have hlong := hraw.long
  rw [maskedPacket, length_maskBytes (by rw [length_ifacMask, hcode]) (by omega), length_ifacMask]

/-- The access code stands behind the header of the masked form. -/
theorem take_drop_maskBytes {raw mask : List UInt8} (ifac : List UInt8) (hlong : 2 ≤ raw.length)
    (hlong' : 2 ≤ mask.length) : ((maskBytes raw mask ifac).drop 2).take ifac.length = ifac := by
  match raw, mask, hlong, hlong' with
  | first :: hops :: rest, pad :: pad' :: pads, _, _ => exact List.take_left

/-- The masked form has the flag. -/
theorem head_maskedPacket_set {raw : List UInt8} (first : UInt8)
    (h : first ∈ (maskedPacket crypto identity ifacKey ifacSize raw).head?) :
    first &&& ifacFlag ≠ 0 := by
  unfold maskedPacket maskBytes at h
  split at h
  · cases h
    exact mask_flags_set _ _
  · cases h

/-- The masked form of a raw packet is accepted, and unmasked to it. -/
theorem verifiedPacket_maskedPacket (hvalid : ValidIfac ifacKey ifacSize) {raw : List UInt8}
    (hraw : IsRaw ifacSize raw) {outLen : ℕ} (hroom : raw.length ≤ outLen) :
    verifiedPacket crypto (maskedPacket crypto identity ifacKey ifacSize raw) identity ifacKey ifacSize
      outLen = .ok raw := by
  have hlong := hraw.long
  have hsize := hraw.size_le
  have hlen := length_maskedPacket crypto identity hvalid hraw
  have hcode := length_accessCode crypto identity hvalid.le raw
  have hifac : ((maskedPacket crypto identity ifacKey ifacSize raw).drop 2).take ifacSize =
      accessCode crypto identity ifacSize raw := by
    have hmask := length_ifacMask crypto ifacKey (accessCode crypto identity ifacSize raw)
      (raw.length + ifacSize)
    have htake := take_drop_maskBytes (accessCode crypto identity ifacSize raw)
      (show 2 ≤ raw.length by omega) (hmask.symm ▸ (by omega : 2 ≤ raw.length + ifacSize))
    rwa [hcode] at htake
  have hunmask : unmaskBytes ifacSize (maskedPacket crypto identity ifacKey ifacSize raw)
      (ifacMask crypto ifacKey (accessCode crypto identity ifacSize raw) (raw.length + ifacSize)) =
        raw := by
    have hmask := length_ifacMask crypto ifacKey (accessCode crypto identity ifacSize raw)
      (raw.length + ifacSize)
    have hcancel := unmaskBytes_maskBytes (hcode.symm ▸ hmask) (by omega) hraw.clear
    rwa [hcode] at hcancel
  rw [verifiedPacket_eq hvalid (by omega) (by omega) head_maskedPacket_set (by omega), hifac, hlen,
    hunmask]
  simp only
  rw [Outcome.bind_eq (rejectIf_eq_ok (by simp [constantTimeEq_iff]))]
  rfl

/-- What the checks of the receiver ask, up to the access code. -/
structure Opens (ifacKey : List UInt8) (ifacSize : ℕ) (masked : List UInt8) (outLen : ℕ) : Prop
    extends ValidIfac ifacKey ifacSize where
  size_le : masked.length ≤ rnsMtu
  long : 2 + ifacSize < masked.length
  set : ∀ first ∈ masked.head?, first &&& ifacFlag ≠ 0
  room : masked.length - ifacSize ≤ outLen

/-- What is verified opens: it is long enough, flagged, and has room. -/
theorem ends_verifiedPacket_opens (masked : List UInt8) (outLen : ℕ) :
    Ends (verifiedPacket crypto masked identity ifacKey ifacSize outLen) fun _ =>
      Opens ifacKey ifacSize masked outLen := by
  by_cases hopens : Opens ifacKey ifacSize masked outLen
  · rw [verifiedPacket_eq hopens.toValidIfac hopens.size_le hopens.long hopens.set hopens.room]
    exact (ends_rejectIf _ _).bind fun _ _ => hopens
  · unfold verifiedPacket
    apply (ends_rejectIf _ _).bind
    intro _ hifacSize
    apply (ends_rejectIf _ _).bind
    intro _ hkey
    apply (ends_rejectIf _ _).bind
    intro _ hsize
    apply (ends_rejectIf _ _).bind
    intro _ hlong
    match masked, (by omega : 0 < masked.length) with
    | first :: rest, _ =>
      have hfirst : (byteAt (first :: rest) 0 : Outcome RnsWireError UInt8) = .ok first := rfl
      rw [Outcome.bind_eq hfirst]
      apply (ends_rejectIf _ _).bind
      intro _ hset
      rw [Outcome.bind_eq (subUsize_eq_ok (by omega))]
      apply (ends_rejectIf _ _).bind
      intro _ hroom
      -- a packet that passes all of these opens
      have hvalid := not_not.mp hifacSize
      refine absurd ⟨⟨hkey, hvalid.1, hvalid.2⟩, Nat.not_lt.mp hsize, Nat.not_le.mp hlong, ?_,
        Nat.not_lt.mp hroom⟩ hopens
      intro byte hbyte
      cases hbyte
      exact hset

/-- The receiver never panics, and what it accepts is the masked form of what it returns. -/
theorem ends_verifiedPacket (masked : List UInt8) (outLen : ℕ) :
    Ends (verifiedPacket crypto masked identity ifacKey ifacSize outLen) fun raw =>
      ValidIfac ifacKey ifacSize ∧ IsRaw ifacSize raw ∧ raw.length ≤ outLen ∧
        maskedPacket crypto identity ifacKey ifacSize raw = masked := by
  by_cases hopens : Opens ifacKey ifacSize masked outLen
  · have hlong := hopens.long
    have hsize := hopens.size_le
    have hroom := hopens.room
    have hmask := length_ifacMask crypto ifacKey ((masked.drop 2).take ifacSize) masked.length
    have hlen := length_unmaskBytes hmask (show 2 + ifacSize ≤ masked.length by omega)
    rw [verifiedPacket_eq hopens.toValidIfac hopens.size_le hopens.long hopens.set hopens.room]
    apply (ends_rejectIf _ _).bind
    intro _ hcode
    rw [Bool.not_eq_false, constantTimeEq_iff] at hcode
    refine ⟨hopens.toValidIfac, ⟨?_, ?_, ?_⟩, ?_, ?_⟩
    · omega
    · omega
    · intro first hfirst
      unfold unmaskBytes at hfirst
      split at hfirst
      · cases hfirst
        exact unmask_flags_clear _ _
      · cases hfirst
    · omega
    · have hsum : masked.length - ifacSize + ifacSize = masked.length := by omega
      rw [maskedPacket, ← hcode, hlen, hsum]
      exact maskBytes_unmaskBytes hmask (by omega) hopens.set
  · exact (ends_verifiedPacket_opens masked outLen).mono fun _ h => absurd h hopens

/-- The receiver writes what it has verified. -/
theorem ifacVerifyInbound_eq_ok {masked raw out : List UInt8}
    (h : verifiedPacket crypto masked identity ifacKey ifacSize out.length = .ok raw) :
    ifacVerifyInbound crypto masked identity ifacKey ifacSize out =
      .ok raw.length (raw ++ out.drop raw.length) := by
  obtain ⟨-, -, hroom, -⟩ := (ends_verifiedPacket masked out.length).of_ok h
  have hcopy := @run_copyInto_front RnsWireError _ _ _ rfl hroom
  rw [ifacVerifyInbound, run_get_bind, Outcome.lift_bind h, run_bind_of_ok hcopy]
  rfl

/-- What it has not verified leaves the output alone. -/
theorem ifacVerifyInbound_cases (masked out : List UInt8) :
    (∃ raw, verifiedPacket crypto masked identity ifacKey ifacSize out.length = .ok raw) ∨
    ∃ error, ifacVerifyInbound crypto masked identity ifacKey ifacSize out =
      .error (.error error) out := by
  have hends : Ends (verifiedPacket crypto masked identity ifacKey ifacSize out.length) _ :=
    ends_verifiedPacket masked out.length
  cases hverified : verifiedPacket crypto masked identity ifacKey ifacSize out.length with
  | ok raw => exact .inl ⟨raw, rfl⟩
  | error fault =>
    match fault, hverified with
    | .error error, hverified =>
      refine .inr ⟨error, ?_⟩
      rw [ifacVerifyInbound, run_get_bind]
      exact Outcome.run_lift_bind_fail hverified _ _
    | .panic, hverified => exact absurd hverified hends.ne_panic

end

/-- **Applying and verifying an access code are inverse to each other.** Every raw packet is sent in a
masked form with the access code bit, whatever the output held before, and is verified from it. What is
verified is sent in exactly the form that it was received in, so that a raw packet has one accepted
form. Verifying never panics, and where it fails the output is untouched. -/
theorem ifac_inverse (crypto : Primitives) (identity : RnsSecretIdentity) (ifacKey : List UInt8)
    (ifacSize : ℕ) :
    (ifacKey ≠ [] → 1 ≤ ifacSize → ifacSize ≤ 64 → ∀ raw : List UInt8, 3 ≤ raw.length →
      raw.length ≤ 500 - ifacSize → (∀ first ∈ raw.head?, first &&& 0x80 = 0) →
        ∃ masked : List UInt8, masked.length = raw.length + ifacSize ∧
          (∀ first ∈ masked.head?, first &&& 0x80 ≠ 0) ∧
          (∀ out : List UInt8, masked.length ≤ out.length →
            ifacApplyOutbound crypto raw identity ifacKey ifacSize out =
              .ok masked.length (masked ++ out.drop masked.length)) ∧
          ∀ out : List UInt8, raw.length ≤ out.length →
            ifacVerifyInbound crypto masked identity ifacKey ifacSize out =
              .ok raw.length (raw ++ out.drop raw.length)) ∧
    (∀ masked out len out', ifacVerifyInbound crypto masked identity ifacKey ifacSize out = .ok len out' →
      ∀ output : List UInt8, masked.length ≤ output.length →
        ifacApplyOutbound crypto (out'.take len) identity ifacKey ifacSize output =
          .ok masked.length (masked ++ output.drop masked.length)) ∧
    ∀ masked out fault out', ifacVerifyInbound crypto masked identity ifacKey ifacSize out =
      .error fault out' → fault ≠ .panic ∧ out' = out := by
  refine ⟨?_, ?_, ?_⟩
  · intro hkey hpos hle raw hlong hsize hclear
    have hvalid : ValidIfac ifacKey ifacSize := ⟨hkey, hpos, hle⟩
    have hraw : IsRaw ifacSize raw := ⟨hlong, by rw [rnsMtu]; omega, hclear⟩
    have hlen := length_maskedPacket crypto identity hvalid hraw
    refine ⟨maskedPacket crypto identity ifacKey ifacSize raw, hlen, head_maskedPacket_set, ?_, ?_⟩
    · intro out hroom
      rw [hlen] at hroom ⊢
      exact ifacApplyOutbound_eq hvalid hraw hroom
    · intro out hroom
      exact ifacVerifyInbound_eq_ok (verifiedPacket_maskedPacket hvalid hraw hroom)
  · intro masked out len out' h output hroom
    rcases ifacVerifyInbound_cases masked out with ⟨raw, hverified⟩ | ⟨error, herror⟩
    · obtain ⟨hvalid, hraw, -, hmasked⟩ := (ends_verifiedPacket masked out.length).of_ok hverified
      have hlen := length_maskedPacket crypto identity hvalid hraw
      rw [ifacVerifyInbound_eq_ok hverified] at h
      cases h
      rw [hmasked] at hlen
      rw [hlen] at hroom ⊢
      rw [List.take_left, ifacApplyOutbound_eq hvalid hraw hroom, hmasked]
    · rw [herror] at h
      cases h
  · intro masked out fault out' h
    rcases ifacVerifyInbound_cases masked out with ⟨raw, hverified⟩ | ⟨error, herror⟩
    · rw [ifacVerifyInbound_eq_ok hverified] at h
      cases h
    · rw [herror] at h
      cases h
      refine ⟨?_, rfl⟩
      intro hpanic
      cases hpanic

/-- A short packet goes through with its real signature and mask. -/
theorem ifac_inverse_sample :
    ∃ masked : List UInt8, masked.length = 12 ∧ (∀ first ∈ masked.head?, first &&& 0x80 ≠ 0) ∧
      (∀ out : List UInt8, masked.length ≤ out.length →
        ifacApplyOutbound samplePrimitives [1, 2, 3, 4] sampleIdentity [7] 8 out =
          .ok masked.length (masked ++ out.drop masked.length)) ∧
      ∀ out : List UInt8, 4 ≤ out.length →
        ifacVerifyInbound samplePrimitives masked sampleIdentity [7] 8 out =
          .ok 4 ([1, 2, 3, 4] ++ out.drop 4) :=
  (ifac_inverse samplePrimitives sampleIdentity [7] 8).1 (by decide) (by decide) (by decide)
    [1, 2, 3, 4] (by decide) (by decide) fun _ h => by cases h; rfl

end Hyf.Rns
