import Hyf.Bridge.EventJson
import Hyf.BridgeRuntime.Runs

/-!
# The buffers of the scratch are large enough

A message that was decoded is short enough for every network: each conversion writes at most as much
as its buffer in the scratch has room for. The planning loop, which hands a buffer on with the size
that it had, therefore gets through every selection.
-/

namespace Hyf.BridgeRuntime

open ByteCodec Bridge BitchatBridge LxmfBridge NostrBridge Nostr

/-- The sizes that the buffers have in the scratch. -/
structure EgressOutputs.Sized (outputs : EgressOutputs) : Prop where
  bitchatPacket : outputs.bitchatPacket.length = bitchatBridgePacketMaxLen
  lxmfMessage : outputs.lxmfMessage.length = lxmfBridgeMessageMaxLen
  nostrEventJson : outputs.nostrEventJson.length = hyfNostrBridgeEventJsonMaxLen

theorem sized_outputs (scratch : BridgeRuntimeScratch) : scratch.outputs.Sized where
  bitchatPacket := scratch.bitchatPacket.toList_length
  lxmfMessage := scratch.lxmfMessage.toList_length
  nostrEventJson := scratch.nostrEventJson.toList_length

section

variable {sha256 : List UInt8 → ByteArrayN 32} {schnorr : Schnorr} {raw : List UInt8}
  {message : BridgeMessageRef}

/-- The message of `raw` is a text that every network takes. -/
structure Emittable (raw : List UInt8) (message : BridgeMessageRef) : Prop where
  decode : decodeBridgeMessage raw = .ok message
  payloadKind_eq : message.payloadKind = .textUtf8
  payload_ne : message.payload ≠ []
  createdAtMs_ne : message.createdAtMs ≠ 0

theorem Emittable.valid (h : Emittable raw message) : ValidMessage message :=
  ((ends_decodeBridgeMessage raw).of_ok h.decode).1

theorem Emittable.egress (h : Emittable raw message) : EgressMessage message :=
  ⟨h.valid, h.payloadKind_eq, h.payload_ne, h.createdAtMs_ne⟩

/-- The signer takes the secret key. -/
def SignsWith (schnorr : Schnorr) (secret : NostrSecretKey) : Prop :=
  (schnorr.signingKeyFromSlice secret.bytes).isSome

theorem exists_bridgeMessageToNostrEventJson (hschnorr : schnorr.Accepts)
    (hdecode : decodeBridgeMessage raw = .ok message) {params : NostrBridgeEgressParams}
    (hsecret : SignsWith schnorr params.authorSecret) (scratch : NostrBridgeEventScratch)
    {output : List UInt8} (hroom : output.length = hyfNostrBridgeEventJsonMaxLen) :
    ∃ len written,
      bridgeMessageToNostrEventJson sha256 schnorr raw params scratch output = .ok (len, written) ∧
      written.length = output.length := by
  obtain ⟨key, hkey⟩ := Option.isSome_iff_exists.mp hsecret
  obtain ⟨event, hevent, hunsigned, -⟩ := @exists_bridgeMessageToNostrEvent sha256 schnorr hschnorr
    raw message hdecode params.authorSecret key hkey params.createdAt scratch
  have hlen := length_eventJson_le hdecode hunsigned
  rw [hyfNostrBridgeEventJsonMaxLen] at hroom
  have hlimit : output.length < addressLimit := by
    rw [hroom]
    decide
  have hwrite := writeNostrEventJson_eq hlimit (hlen.trans (by rw [hroom]; decide))
  rw [bridgeMessageToNostrEventJson, Outcome.bind_eq (hevent _ _)]
  refine ⟨_, _, hwrite, ?_⟩
  rw [List.length_append, List.length_drop]
  omega

/-! ## The planning loop -/

/-- A round of the loop makes a plan, and keeps the sizes of the buffers. -/
theorem exists_planEgress (hschnorr : schnorr.Accepts) (h : Emittable raw message)
    {params : BridgeRuntimeEgressParams}
    (hsecret : ∀ egress ∈ params.nostr, SignsWith schnorr egress.authorSecret)
    {outputs : EgressOutputs} (hsized : outputs.Sized) (protocol : BridgeProtocol) :
    ∃ planned, planEgress sha256 schnorr raw params outputs protocol = .ok planned ∧
      planned.2.Sized := by
  cases protocol with
  | hyf => exact ⟨_, rfl, hsized⟩
  | bitChat =>
    unfold planEgress
    cases params.bitchat with
    | none => exact ⟨_, rfl, hsized⟩
    | some egress =>
      obtain ⟨len, written, hwrite, hlen⟩ :=
        exists_bridgeMessageToBitchatPacketV2 h.egress egress hsized.bitchatPacket
      simp only
      rw [Outcome.bind_eq (Outcome.convert_eq h.decode _),
        Outcome.bind_eq (Outcome.convert_eq hwrite _)]
      exact ⟨_, rfl, hlen.trans hsized.bitchatPacket, hsized.lxmfMessage, hsized.nostrEventJson⟩
  | lxmf =>
    unfold planEgress
    cases params.lxmf with
    | none => exact ⟨_, rfl, hsized⟩
    | some egress =>
      obtain ⟨len, written, hwrite, hlen⟩ := exists_bridgeMessageToLxmfMessageFixture h.valid
        h.payloadKind_eq h.payload_ne egress hsized.lxmfMessage
      simp only
      rw [Outcome.bind_eq (Outcome.convert_eq h.decode _),
        Outcome.bind_eq (Outcome.convert_eq hwrite _)]
      exact ⟨_, rfl, hsized.bitchatPacket, hlen.trans hsized.lxmfMessage, hsized.nostrEventJson⟩
  | nostr =>
    unfold planEgress
    cases hparams : params.nostr with
    | none => exact ⟨_, rfl, hsized⟩
    | some egress =>
      obtain ⟨len, written, hwrite, hlen⟩ := @exists_bridgeMessageToNostrEventJson sha256 _ _ _ hschnorr
        h.decode _ (hsecret egress hparams) outputs.nostrEvent _ hsized.nostrEventJson
      simp only
      rw [Outcome.bind_eq (Outcome.convert_eq hwrite _)]
      exact ⟨_, rfl, hsized.bitchatPacket, hsized.lxmfMessage, hlen.trans hsized.nostrEventJson⟩

/-- The loop gets through every selection that the plans have room for. -/
theorem exists_planLoop (hschnorr : schnorr.Accepts) (h : Emittable raw message)
    {params : BridgeRuntimeEgressParams}
    (hsecret : ∀ egress ∈ params.nostr, SignsWith schnorr egress.authorSecret)
    {protocols : List BridgeProtocol} {outputs : EgressOutputs} (hsized : outputs.Sized) {index : ℕ}
    {done rest : List EgressPlan} (hindex : index = done.length)
    (hroom : protocols.length ≤ rest.length) :
    ∃ planned, planLoop sha256 schnorr raw params index protocols (done ++ rest) outputs =
      .ok planned := by
  induction protocols generalizing outputs index done rest with
  | nil => exact ⟨_, rfl⟩
  | cons protocol protocols ih =>
    rw [List.length_cons] at hroom
    have hrest : rest ≠ [] := by
      rintro rfl
      cases hroom
    obtain ⟨⟨plan, outputs'⟩, hplan, hsized'⟩ :=
      @exists_planEgress sha256 _ _ _ hschnorr h _ hsecret _ hsized protocol
    rw [planLoop, Outcome.bind_eq hplan]
    simp only
    rw [Outcome.bind_eq (setAt_append hindex hrest plan)]
    apply ih hsized'
    · rw [List.length_append, List.length_singleton, hindex]
    · rw [List.length_tail]
      omega

end

/-- **Egress never fails for size.** A message that was decoded, if it is a text that is not empty and
has a time, is converted for every network into the buffers of the scratch, whatever the parameters
are, as long as the signer takes the secret key; and the planning loop gets through every selection. -/
theorem egress_fits (sha256 : List UInt8 → ByteArrayN 32) {schnorr : Schnorr}
    (hschnorr : schnorr.Accepts) {raw : List UInt8} {message : BridgeMessageRef}
    (hdecode : decodeBridgeMessage raw = .ok message) (hkind : message.payloadKind = .textUtf8)
    (hpayload : message.payload ≠ []) (hcreated : message.createdAtMs ≠ 0)
    (scratch : BridgeRuntimeScratch) :
    (∀ params, ∃ len written,
      bridgeMessageToBitchatPacketV2 message params scratch.bitchatPacket.toList =
        .ok (len, written)) ∧
    (∀ params, ∃ len written,
      bridgeMessageToLxmfMessageFixture message params scratch.lxmfMessage.toList =
        .ok (len, written)) ∧
    (∀ params : NostrBridgeEgressParams, SignsWith schnorr params.authorSecret → ∃ len written,
      bridgeMessageToNostrEventJson sha256 schnorr raw params scratch.nostrEvent
        scratch.nostrEventJson.toList = .ok (len, written)) ∧
    ∀ (params : BridgeRuntimeEgressParams) (maxEgress : ℕ) (selected : List BridgeProtocol),
      (∀ egress ∈ params.nostr, SignsWith schnorr egress.authorSecret) →
      selected.length ≤ maxEgress →
      ∃ planned, planLoop sha256 schnorr raw params 0 selected
        (List.replicate maxEgress .unsupportedProfile) scratch.outputs = .ok planned := by
  have h : Emittable raw message := ⟨hdecode, hkind, hpayload, hcreated⟩
  have hsized := sized_outputs scratch
  refine ⟨fun params => ?_, fun params => ?_, fun params hsecret => ?_, ?_⟩
  · obtain ⟨len, written, hwrite, -⟩ :=
      exists_bridgeMessageToBitchatPacketV2 h.egress params hsized.bitchatPacket
    exact ⟨len, written, hwrite⟩
  · obtain ⟨len, written, hwrite, -⟩ := exists_bridgeMessageToLxmfMessageFixture h.valid hkind hpayload
      params hsized.lxmfMessage
    exact ⟨len, written, hwrite⟩
  · obtain ⟨len, written, hwrite, -⟩ := @exists_bridgeMessageToNostrEventJson sha256 _ _ _ hschnorr
      hdecode _ hsecret scratch.nostrEvent _ hsized.nostrEventJson
    exact ⟨len, written, hwrite⟩
  · intro params maxEgress selected hsecret hroom
    rw [← List.nil_append (List.replicate maxEgress EgressPlan.unsupportedProfile)]
    exact exists_planLoop hschnorr h hsecret hsized rfl (by rwa [List.length_replicate])

/-- The sample message of a Nostr author, to all three networks at once. -/
theorem egress_fits_sample : ∃ planned,
    planLoop (fun _ => sampleEventId) sampleSchnorr (messageBytes nostrSampleMessage)
      ⟨some ⟨⟨fillBytes 8 4⟩, 7⟩, some ⟨⟨fillBytes 16 1⟩, ⟨fillBytes 16 2⟩, ⟨fillBytes 64 3⟩⟩,
        some ⟨sampleSecret, 1720000000⟩⟩ 0 [.nostr, .bitChat, .lxmf]
      (List.replicate 3 .unsupportedProfile) sampleScratch.outputs = .ok planned :=
  (egress_fits (fun _ => sampleEventId) accepts_sampleSchnorr
    (decodeBridgeMessage_messageBytes validMessage_nostrSampleMessage) rfl (by decide) (by decide)
    sampleScratch).2.2.2 _ 3 _ (by simp [SignsWith, sampleSchnorr]) le_rfl

end Hyf.BridgeRuntime
