import Hyf.BridgeRuntime.Orchestrator

/-!
# What a call to the orchestrator does

A call is a transaction. The two passes over the route policy keep the same protocols (`picks`), each
of them once, so the plans fit the selection and no buffer is written twice; the commands that are
read back from the buffers in the end are then those of the conversions.
-/

namespace Hyf.BridgeRuntime

open ByteCodec Bridge BitchatBridge LxmfBridge NostrBridge Nostr

/-- The key under which the orchestrator remembers a message. -/
def messageKey (message : BridgeMessageRef) : BridgeMessageKey := ⟨message.roomId, message.messageId⟩

/-! ## The selection -/

namespace BridgeRoutePolicy

variable {maxEgress : ℕ} (policy : BridgeRoutePolicy maxEgress) (origin : BridgeOrigin)

/-- The protocols that the loops keep. -/
def picks : List.Vector Bool 4 → List BridgeProtocol → List BridgeProtocol
  | _, [] => []
  | seen, protocol :: protocols =>
    if policy.protocolIsBlocked origin protocol then picks seen protocols
    else if (markSeen seen protocol).1 then picks (markSeen seen protocol).2 protocols
    else protocol :: picks (markSeen seen protocol).2 protocols

/-- The protocols that a message is emitted to, in order. -/
def selection : List BridgeProtocol :=
  policy.picks origin (List.Vector.replicate 4 false) policy.egressProtocols.live

/-- The counting loop counts what is picked. -/
theorem countLoop_eq (seen : List.Vector Bool 4) (count : ℕ) (protocols : List BridgeProtocol) :
    policy.countLoop origin seen count protocols =
      count + (policy.picks origin seen protocols).length := by
  induction protocols generalizing seen count with
  | nil => rfl
  | cons protocol protocols ih =>
    by_cases hblocked : policy.protocolIsBlocked origin protocol
    · simp only [countLoop, picks, if_pos hblocked]
      exact ih _ _
    · by_cases hseen : (markSeen seen protocol).1
      · simp only [countLoop, picks, if_neg hblocked, if_pos hseen]
        exact ih _ _
      · simp only [countLoop, picks, if_neg hblocked, if_neg hseen, List.length_cons]
        rw [ih]
        omega

/-- As many protocols are counted as are selected. -/
theorem selectedEgressCount_eq :
    policy.selectedEgressCount origin = (policy.selection origin).length := by
  rw [selectedEgressCount, countLoop_eq, Nat.zero_add]
  rfl

/-- The selecting loop writes what is picked behind what was there. -/
theorem selectLoop_eq (protocols : List BridgeProtocol) {seen : List.Vector Bool 4} {count : ℕ}
    {done rest : List BridgeProtocol} (hcount : count = done.length)
    (hroom : (policy.picks origin seen protocols).length ≤ rest.length) :
    policy.selectLoop origin seen count (done ++ rest) protocols =
      .ok (count + (policy.picks origin seen protocols).length,
        done ++ policy.picks origin seen protocols ++
          rest.drop (policy.picks origin seen protocols).length) := by
  induction protocols generalizing seen count done rest with
  | nil => simp [selectLoop, picks]
  | cons protocol protocols ih =>
    by_cases hblocked : policy.protocolIsBlocked origin protocol
    · simp only [picks, if_pos hblocked] at hroom
      simp only [selectLoop, picks, if_pos hblocked]
      exact ih hcount hroom
    · by_cases hseen : (markSeen seen protocol).1
      · simp only [picks, if_neg hblocked, if_pos hseen] at hroom
        simp only [selectLoop, picks, if_neg hblocked, if_pos hseen]
        exact ih hcount hroom
      -- the protocol is kept: it is written behind `done`, and one place of `rest` is used up
      · simp only [picks, if_neg hblocked, if_neg hseen, List.length_cons] at hroom
        have hrest : rest ≠ [] := by
          rintro rfl
          simp at hroom
        have hcount' : count + 1 = (done ++ [protocol]).length := by
          rw [hcount, List.length_append, List.length_singleton]
        have hroom' : (policy.picks origin (markSeen seen protocol).2 protocols).length ≤
            rest.tail.length := by
          rw [List.length_tail]
          omega
        simp only [selectLoop, picks, if_neg hblocked, if_neg hseen]
        rw [Outcome.bind_eq (setAt_append hcount hrest protocol), ih hcount' hroom']
        simp only [List.length_cons, List.append_assoc, List.singleton_append, List.drop_tail]
        rw [Nat.add_assoc, Nat.add_comm 1]

/-- A protocol is not marked after another one was marked: it was not before, and it is another. -/
theorem not_marked {seen : List.Vector Bool 4} {first protocol : BridgeProtocol}
    (h : (markSeen seen first).2.get (protocolIndex protocol) = false) :
    protocolIndex first ≠ protocolIndex protocol ∧ seen.get (protocolIndex protocol) = false := by
  unfold markSeen at h
  by_cases hsame : protocolIndex first = protocolIndex protocol
  · rw [hsame, List.Vector.get_set_same] at h
    cases h
  · rw [List.Vector.get_set_of_ne hsame] at h
    exact ⟨hsame, h⟩

/-- Only protocols that are free and not yet marked are kept. -/
theorem mem_picks {seen : List.Vector Bool 4} {protocols : List BridgeProtocol}
    {protocol : BridgeProtocol} (h : protocol ∈ policy.picks origin seen protocols) :
    policy.protocolIsBlocked origin protocol = false ∧
      seen.get (protocolIndex protocol) = false := by
  induction protocols generalizing seen with
  | nil => cases h
  | cons first protocols ih =>
    unfold picks at h
    split_ifs at h with hblocked hseen
    · exact ih h
    · exact ⟨(ih h).1, (not_marked (ih h).2).2⟩
    · rcases List.mem_cons.mp h with rfl | hrest
      · exact ⟨Bool.not_eq_true _ ▸ hblocked, Bool.not_eq_true _ ▸ hseen⟩
      · exact ⟨(ih hrest).1, (not_marked (ih hrest).2).2⟩

/-- No protocol is picked twice. -/
theorem nodup_picks (seen : List.Vector Bool 4) (protocols : List BridgeProtocol) :
    (policy.picks origin seen protocols).Nodup := by
  induction protocols generalizing seen with
  | nil => exact List.nodup_nil
  | cons protocol protocols ih =>
    unfold picks
    split_ifs
    · exact ih _
    · exact ih _
    · refine List.nodup_cons.mpr ⟨fun hagain => ?_, ih _⟩
      exact (not_marked (policy.mem_picks origin hagain).2).1 rfl

/-- No protocol is selected twice. -/
theorem nodup_selection : (policy.selection origin).Nodup := policy.nodup_picks origin _ _

/-- No more is picked than there is. -/
theorem length_picks_le (seen : List.Vector Bool 4) (protocols : List BridgeProtocol) :
    (policy.picks origin seen protocols).length ≤ protocols.length := by
  induction protocols generalizing seen with
  | nil => exact le_rfl
  | cons protocol protocols ih =>
    unfold picks
    split_ifs
    · exact (ih _).trans (Nat.le_succ _)
    · exact (ih _).trans (Nat.le_succ _)
    · exact Nat.succ_le_succ (ih _)

/-- No more is selected than the policy has. -/
theorem length_selection_le : (policy.selection origin).length ≤ maxEgress :=
  (policy.length_picks_le origin _ _).trans policy.egressProtocols.length_live_le

/-- An output with a place for every entry of the policy is large enough for the selection. -/
theorem exists_selectEgress : ∃ selected,
    policy.selectEgress origin (List.replicate maxEgress .hyf) =
      .ok ((policy.selection origin).length, selected) ∧
    (policy.selection origin).length ≤ selected.length ∧
    selected.take (policy.selection origin).length = policy.selection origin := by
  have hle := policy.length_selection_le origin
  have hlen : (List.replicate maxEgress BridgeProtocol.hyf).length = maxEgress :=
    List.length_replicate
  have hloop : policy.selectLoop origin (List.Vector.replicate 4 false) 0
      ([] ++ List.replicate maxEgress .hyf) policy.egressProtocols.live =
      .ok (0 + (policy.selection origin).length, [] ++ policy.selection origin ++
        (List.replicate maxEgress .hyf).drop (policy.selection origin).length) :=
    policy.selectLoop_eq origin _ rfl (hlen.symm ▸ hle)
  rw [Nat.zero_add, List.nil_append, List.nil_append] at hloop
  rw [selectEgress, selectedEgressCount_eq, Outcome.bind_eq (rejectIf_eq_ok (by omega)), hloop]
  refine ⟨_, rfl, ?_, List.take_left⟩
  rw [List.length_append]
  exact Nat.le_add_right _ _

end BridgeRoutePolicy

/-! ## Plans -/

/-- The protocols that the parameters have a conversion for. -/
def BridgeRuntimeEgressParams.supports (params : BridgeRuntimeEgressParams) : BridgeProtocol → Bool
  | .hyf => false
  | .bitChat => params.bitchat.isSome
  | .lxmf => params.lxmf.isSome
  | .nostr => params.nostr.isSome

/-- The buffer that a protocol is converted into. -/
def EgressOutputs.buffer (outputs : EgressOutputs) : BridgeProtocol → List UInt8
  | .hyf => []
  | .bitChat => outputs.bitchatPacket
  | .lxmf => outputs.lxmfMessage
  | .nostr => outputs.nostrEventJson

section

variable {outputs : EgressOutputs} {other : BridgeProtocol} (buffer : List UInt8)

/-- The packet's buffer is no other protocol's. -/
theorem buffer_bitchatPacket (h : other ≠ .bitChat) :
    EgressOutputs.buffer { outputs with bitchatPacket := buffer } other = outputs.buffer other := by
  cases other <;> first | rfl | exact absurd rfl h

/-- The message's buffer is no other protocol's. -/
theorem buffer_lxmfMessage (h : other ≠ .lxmf) :
    EgressOutputs.buffer { outputs with lxmfMessage := buffer } other = outputs.buffer other := by
  cases other <;> first | rfl | exact absurd rfl h

/-- The event's buffer is no other protocol's. -/
theorem buffer_nostrEventJson (h : other ≠ .nostr) :
    EgressOutputs.buffer { outputs with nostrEventJson := buffer } other = outputs.buffer other := by
  cases other <;> first | rfl | exact absurd rfl h

end

section

variable (sha256 : List UInt8 → ByteArrayN 32) (schnorr : Schnorr)

/-- The command for a protocol: the bytes of its conversion, or a drop where there is none. -/
inductive EgressCommand (rawBridge : List UInt8) (message : BridgeMessageRef)
    (params : BridgeRuntimeEgressParams) (outputs : EgressOutputs) :
    BridgeProtocol → BridgeRuntimeCommand → Prop
  | bitChat {egress : BitchatBridgeEgressParams} {len : ℕ} {written : List UInt8} :
    params.bitchat = some egress →
    bridgeMessageToBitchatPacketV2 message egress outputs.bitchatPacket = .ok (len, written) →
    EgressCommand rawBridge message params outputs .bitChat (.emitBitChatPacket (written.take len))
  | lxmf {egress : LxmfBridgeEgressParams} {len : ℕ} {written : List UInt8} :
    params.lxmf = some egress →
    bridgeMessageToLxmfMessageFixture message egress outputs.lxmfMessage = .ok (len, written) →
    EgressCommand rawBridge message params outputs .lxmf (.emitLxmfMessage (written.take len))
  | nostr {egress : NostrBridgeEgressParams} {len : ℕ} {written : List UInt8} :
    params.nostr = some egress →
    bridgeMessageToNostrEventJson sha256 schnorr rawBridge egress outputs.nostrEvent
      outputs.nostrEventJson = .ok (len, written) →
    EgressCommand rawBridge message params outputs .nostr (.emitNostrEvent (written.take len))
  | unsupported {protocol : BridgeProtocol} : params.supports protocol = false →
    EgressCommand rawBridge message params outputs protocol
      (unsupportedProfileDrop (messageKey message))

variable {sha256 schnorr} {rawBridge : List UInt8} {message : BridgeMessageRef}
  {params : BridgeRuntimeEgressParams}

/-- The outputs from which the conversion of `protocol` starts as it would from the `initial` ones. -/
structure Pristine (initial outputs : EgressOutputs) (protocol : BridgeProtocol) : Prop where
  buffer_eq : outputs.buffer protocol = initial.buffer protocol
  nostrEvent_eq : outputs.nostrEvent = initial.nostrEvent

variable (sha256 schnorr rawBridge message params) in

/-- A plan for `protocol` and the outputs after it. The plan stands for its command in all outputs
that keep the buffer of its protocol. -/
structure Planned (initial outputs : EgressOutputs) (protocol : BridgeProtocol)
    (planned : EgressPlan × EgressOutputs) : Prop where
  frame : ∀ other, other ≠ protocol → Pristine outputs planned.2 other
  command : ∃ command,
    EgressCommand sha256 schnorr rawBridge message params initial protocol command ∧
    ∀ final : EgressOutputs, final.buffer protocol = planned.2.buffer protocol →
      planCommand (messageKey message) final planned.1 = .ok command

/-- A protocol without support is dropped, and its buffer is left. -/
theorem Planned.unsupported {initial outputs : EgressOutputs} {protocol : BridgeProtocol}
    (h : params.supports protocol = false) :
    Planned sha256 schnorr rawBridge message params initial outputs protocol
      (.unsupportedProfile, outputs) :=
  ⟨fun _ _ => ⟨rfl, rfl⟩, _, .unsupported h, fun _ _ => rfl⟩

/-- A round of the loop ends without a panic, as planned. -/
theorem ends_planEgress (hdecode : decodeBridgeMessage rawBridge = .ok message)
    {initial outputs : EgressOutputs} {protocol : BridgeProtocol}
    (h : Pristine initial outputs protocol) :
    Ends (planEgress sha256 schnorr rawBridge params outputs protocol)
      (Planned sha256 schnorr rawBridge message params initial outputs protocol) := by
  cases protocol with
  | hyf => exact Planned.unsupported rfl
  | bitChat =>
    unfold planEgress
    cases hparams : params.bitchat with
    | none =>
      apply Planned.unsupported
      rw [BridgeRuntimeEgressParams.supports, hparams]
      rfl
    | some egress =>
      -- the loop decodes the message again, to the same result
      simp only
      rw [Outcome.bind_eq (Outcome.convert_eq hdecode _)]
      apply ((ends_bridgeMessageToBitchatPacketV2 message egress _).with_eq.convert _).bind
      rintro ⟨len, written⟩ ⟨⟨-, hlen, -⟩, hrun⟩
      have hbuffer : outputs.bitchatPacket = initial.bitchatPacket := h.buffer_eq
      rw [hbuffer] at hrun
      refine ⟨fun other hne => ⟨buffer_bitchatPacket _ hne, rfl⟩, _, .bitChat hparams hrun, ?_⟩
      intro final hfinal
      have hfinal : final.bitchatPacket = written := hfinal
      rw [planCommand, hfinal, Outcome.bind_eq (sliceTo_eq_ok hlen)]
      rfl
  | lxmf =>
    unfold planEgress
    cases hparams : params.lxmf with
    | none =>
      apply Planned.unsupported
      rw [BridgeRuntimeEgressParams.supports, hparams]
      rfl
    | some egress =>
      simp only
      rw [Outcome.bind_eq (Outcome.convert_eq hdecode _)]
      apply ((ends_bridgeMessageToLxmfMessageFixture message egress _).with_eq.convert _).bind
      rintro ⟨len, written⟩ ⟨⟨hlen, hlength, -⟩, hrun⟩
      have hbuffer : outputs.lxmfMessage = initial.lxmfMessage := h.buffer_eq
      rw [hbuffer] at hrun
      refine ⟨fun other hne => ⟨buffer_lxmfMessage _ hne, rfl⟩, _, .lxmf hparams hrun, ?_⟩
      intro final hfinal
      have hfinal : final.lxmfMessage = written := hfinal
      rw [planCommand, hfinal, Outcome.bind_eq (sliceTo_eq_ok (hlength.symm ▸ hlen))]
      rfl
  | nostr =>
    unfold planEgress
    cases hparams : params.nostr with
    | none =>
      apply Planned.unsupported
      rw [BridgeRuntimeEgressParams.supports, hparams]
      rfl
    | some egress =>
      -- the event scratch is untouched as well: HYF, BitChat and LXMF do not use it
      apply ((ends_bridgeMessageToNostrEventJson rawBridge egress _ _).with_eq.convert _).bind
      rintro ⟨len, written⟩ ⟨⟨event, -, hwritten⟩, hrun⟩
      have hbuffer : outputs.nostrEventJson = initial.nostrEventJson := h.buffer_eq
      rw [hbuffer, h.nostrEvent_eq] at hrun
      refine ⟨fun other hne => ⟨buffer_nostrEventJson _ hne, rfl⟩, _, .nostr hparams hrun, ?_⟩
      intro final hfinal
      have hfinal : final.nostrEventJson = written := hfinal
      have hlen : len ≤ written.length := by
        rw [(Prod.mk.inj hwritten).1, (Prod.mk.inj hwritten).2, List.length_append]
        exact Nat.le_add_right _ _
      rw [planCommand, hfinal, Outcome.bind_eq (sliceTo_eq_ok hlen)]
      rfl

/-- A buffer that is left twice is left. -/
theorem Pristine.trans {initial outputs outputs' : EgressOutputs} {protocol : BridgeProtocol}
    (h : Pristine initial outputs protocol) (h' : Pristine outputs outputs' protocol) :
    Pristine initial outputs' protocol :=
  ⟨h'.buffer_eq.trans h.buffer_eq, h'.nostrEvent_eq.trans h.nostrEvent_eq⟩

/-- The planning loop fills the plans of the protocols, behind those that are `done`. -/
theorem ends_planLoop (hdecode : decodeBridgeMessage rawBridge = .ok message)
    {initial : EgressOutputs} {protocols : List BridgeProtocol} (hnodup : protocols.Nodup)
    {outputs : EgressOutputs} (hpristine : ∀ protocol ∈ protocols, Pristine initial outputs protocol)
    {index : ℕ} {done rest : List EgressPlan} (hindex : index = done.length)
    (hroom : protocols.length ≤ rest.length) :
    Ends (planLoop sha256 schnorr rawBridge params index protocols (done ++ rest) outputs)
      fun planned => ∃ plans commands, plans.length = protocols.length ∧
        planned.1 = done ++ plans ++ rest.drop plans.length ∧
        List.Forall₂ (EgressCommand sha256 schnorr rawBridge message params initial) protocols
          commands ∧
        (∀ other ∉ protocols, planned.2.buffer other = outputs.buffer other) ∧
        List.Forall₂ (fun plan command =>
          planCommand (messageKey message) planned.2 plan = .ok command)
          plans commands := by
  induction protocols generalizing outputs index done rest with
  | nil => exact ⟨[], [], rfl, by simp, .nil, fun _ _ => rfl, .nil⟩
  | cons protocol protocols ih =>
    obtain ⟨hnew, hnodup⟩ := List.nodup_cons.mp hnodup
    rw [List.length_cons] at hroom
    have hrest : rest ≠ [] := by
      rintro rfl
      simp at hroom
    apply (ends_planEgress hdecode (hpristine protocol List.mem_cons_self)).bind
    rintro ⟨plan, outputs'⟩ ⟨hframe, command, hcommand, hplan⟩
    simp only
    rw [Outcome.bind_eq (setAt_append hindex hrest plan)]
    have hothers : ∀ other ∈ protocols, Pristine initial outputs' other := by
      intro other hother
      have hbefore := hpristine other (List.mem_cons_of_mem _ hother)
      exact hbefore.trans (hframe other fun heq => hnew (heq ▸ hother))
    apply (ih hnodup hothers (by simp [hindex]) (by rw [List.length_tail]; omega)).mono
    -- the rest of the loop keeps the buffer of this plan, since its protocol does not occur again
    rintro ⟨allPlans, final⟩ ⟨plans, commands, hlen, hplans, hcommands, hkept, hemits⟩
    refine ⟨plan :: plans, command :: commands, by simp [hlen], ?_, .cons hcommand hcommands, ?_,
      .cons (hplan final (hkept protocol hnew)) hemits⟩
    · rw [hplans]
      simp only [List.append_assoc, List.singleton_append, List.length_cons, List.drop_tail]
    · intro other hother
      rw [List.mem_cons, not_or] at hother
      exact (hkept other hother.2).trans (hframe other hother.1).buffer_eq

end

/-! ## Emission -/

section

variable {dedupeCapacity maxEgress : ℕ} {orchestrator : BridgeOrchestrator dedupeCapacity maxEgress}

/-- The next command is written behind the ones that are there. -/
theorem setCommand_eq {done rest : List BridgeRuntimeCommand} {index : ℕ}
    (hindex : index = done.length) (hrest : rest ≠ []) (command : BridgeRuntimeCommand) :
    setCommand index command ⟨orchestrator, done ++ rest⟩ =
      .ok () ⟨orchestrator, (done ++ [command]) ++ rest.tail⟩ := by
  show (Outcome.lift (setAt (done ++ rest) index command) >>= fun commands =>
    set (⟨orchestrator, commands⟩ : RuntimeState dedupeCapacity maxEgress)) _ = _
  rw [Outcome.lift_bind (setAt_append hindex hrest command)]
  rfl

/-- The first command is written to the front. -/
theorem setCommand_zero {commands : List BridgeRuntimeCommand} (h : commands ≠ [])
    (command : BridgeRuntimeCommand) :
    setCommand 0 command ⟨orchestrator, commands⟩ =
      .ok () ⟨orchestrator, command :: commands.tail⟩ := by
  simpa using @setCommand_eq _ _ orchestrator [] commands 0 rfl h command

/-- The emission loop writes the commands of the plans, behind those that are `done`. -/
theorem emitLoop_eq {key : BridgeMessageKey} {outputs : EgressOutputs} {plans : List EgressPlan}
    {commands : List BridgeRuntimeCommand}
    (h : List.Forall₂ (fun plan command => planCommand key outputs plan = .ok command) plans commands)
    {count : ℕ} {done rest : List BridgeRuntimeCommand} (hcount : count = done.length)
    (hroom : commands.length ≤ rest.length) :
    emitLoop key outputs count plans ⟨orchestrator, done ++ rest⟩ =
      .ok (count + commands.length)
        ⟨orchestrator, done ++ commands ++ rest.drop commands.length⟩ := by
  induction h generalizing count done rest with
  | nil => simp [emitLoop, pure, EStateM.pure]
  | @cons plan command plans commands hplan _ ih =>
    rw [List.length_cons] at hroom
    have hrest : rest ≠ [] := by
      rintro rfl
      simp at hroom
    rw [emitLoop, Outcome.lift_bind hplan]
    show EStateM.bind (setCommand count command) _ _ = _
    rw [EStateM.bind, setCommand_eq hcount hrest]
    simp only
    rw [ih (by simp [hcount]) (by rw [List.length_tail]; omega)]
    simp only [List.append_assoc, List.singleton_append, List.length_cons, List.drop_tail]
    rw [Nat.add_assoc, Nat.add_comm 1]

end

/-! ## Calls -/

section

variable {sha256 : List UInt8 → ByteArrayN 32} {schnorr : Schnorr} {dedupeCapacity maxEgress : ℕ}

/-- The origin of a message that came in by a protocol. -/
def originOf (protocol : BridgeProtocol) (message : BridgeMessageRef) : BridgeOrigin :=
  ⟨protocol, endpointHash protocol message⟩

/-- A call that found the key in the dedupe set. -/
structure Dropped (message : BridgeMessageRef) (state : RuntimeState dedupeCapacity maxEgress)
    (count : ℕ) (state' : RuntimeState dedupeCapacity maxEgress) : Prop where
  count_eq : count = 1
  count_le : count ≤ state.commands.length
  orchestrator_eq : state'.orchestrator = state.orchestrator
  commands_eq : state'.commands = .drop (messageKey message) .duplicate :: state.commands.drop 1

/-- A call that inserted the key and emitted the message, in an envelope to HYF and by the commands
`egress` to the protocols that `selectEgress` wrote to `selected`. -/
structure Emitted (sha256 : List UInt8 → ByteArrayN 32) (schnorr : Schnorr)
    (protocol : BridgeProtocol) (rawBridge : List UInt8) (message : BridgeMessageRef)
    (params : BridgeRuntimeDispatchParams) (outputs : EgressOutputs)
    (state : RuntimeState dedupeCapacity maxEgress) (count : ℕ)
    (state' : RuntimeState dedupeCapacity maxEgress) (envelope : HyfEnvelopeRef)
    (selected : List BridgeProtocol) (egress : List BridgeRuntimeCommand) : Prop where
  count_eq : count =
    1 + state.orchestrator.routePolicy.selectedEgressCount (originOf protocol message)
  count_le : count ≤ state.commands.length
  length_egress : count = 1 + egress.length
  policy_eq : state'.orchestrator.routePolicy = state.orchestrator.routePolicy
  insert_eq : state.orchestrator.dedupe.insert (messageKey message) =
    .ok (true, state'.orchestrator.dedupe)
  contains_eq : state'.orchestrator.dedupe.contains (messageKey message) = true
  unwrap_eq : unwrapBridgeMessage envelope = .ok rawBridge
  select_eq : state.orchestrator.routePolicy.selectEgress (originOf protocol message)
    (List.replicate maxEgress .hyf) = .ok (egress.length, selected)
  egress_eq : List.Forall₂ (EgressCommand sha256 schnorr rawBridge message params.egress outputs)
    (selected.take egress.length) egress
  commands_eq : state'.commands = .emitHyfEnvelope envelope :: egress ++ state.commands.drop count

/-- What a call that returns `count` did. -/
def Returned (sha256 : List UInt8 → ByteArrayN 32) (schnorr : Schnorr) (protocol : BridgeProtocol)
    (params : BridgeRuntimeDispatchParams) (outputs : EgressOutputs) (rawBridge : List UInt8)
    (state : RuntimeState dedupeCapacity maxEgress) (count : ℕ)
    (state' : RuntimeState dedupeCapacity maxEgress) : Prop :=
  ∃ message, decodeBridgeMessage rawBridge = .ok message ∧
    (state.orchestrator.dedupe.contains (messageKey message) = true ∧
        Dropped message state count state' ∨
      state.orchestrator.dedupe.contains (messageKey message) = false ∧
        ∃ envelope selected egress, Emitted sha256 schnorr protocol rawBridge message params
          outputs state count state' envelope selected egress)

/-- What was pushed is contained, if there is any room. -/
theorem contains_push (set : BridgeDedupeSet dedupeCapacity) (key : BridgeMessageKey)
    (h : 0 < dedupeCapacity) : (set.push key).contains key = true := by
  have hlt : set.nextIndex < set.keys.toList.length := by
    rw [List.Vector.toList_length]
    exact set.nextIndex_lt h
  have hmem : key ∈ (set.push key).keys.live := by
    rw [SlotArray.mem_live, BridgeDedupeSet.push, SlotArray.toList_write]
    exact List.mem_set hlt _
  simpa [BridgeDedupeSet.contains] using hmem

/-- A new key is inserted without a panic. -/
theorem ends_insert (set : BridgeDedupeSet dedupeCapacity) {key : BridgeMessageKey}
    (h : set.contains key = false) : Ends (set.insert key) fun inserted =>
      inserted = (true, set.push key) ∧ set.insert key = .ok (true, set.push key) ∧
      (set.push key).contains key = true := by
  rw [BridgeDedupeSet.insert, h]
  simp only [Bool.false_eq_true, if_false]
  split_ifs with hzero
  · exact trivial
  · exact ⟨rfl, rfl, contains_push set key (Nat.pos_of_ne_zero hzero)⟩

/-- The writes at the end of a call that emits. -/
theorem emission_eq {dedupe dedupe' : BridgeDedupeSet dedupeCapacity}
    {policy : BridgeRoutePolicy maxEgress} {key : BridgeMessageKey} {outputs : EgressOutputs}
    {plans cells : List EgressPlan} {commands egress : List BridgeRuntimeCommand}
    (hplans : List.Forall₂ (fun plan command => planCommand key outputs plan = .ok command) plans
      egress) {selectedCount : ℕ} (hcount : selectedCount = plans.length)
    (hroom : 1 + egress.length ≤ commands.length) (envelope : HyfEnvelopeRef) :
    (do
      modify fun state : RuntimeState dedupeCapacity maxEgress =>
        { state with orchestrator.dedupe := dedupe' }
      setCommand 0 (.emitHyfEnvelope envelope)
      let plans ← Outcome.lift (sliceTo (plans ++ cells) selectedCount)
      emitLoop key outputs 1 plans : RuntimeM dedupeCapacity maxEgress ℕ)
      ⟨⟨dedupe, policy⟩, commands⟩ =
    .ok (1 + egress.length) ⟨⟨dedupe', policy⟩,
      .emitHyfEnvelope envelope :: egress ++ commands.drop (1 + egress.length)⟩ := by
  have hrest : commands ≠ [] := by
    rintro rfl
    simp at hroom
  -- the loop sees the plans that were made, not the cells behind them
  have hslice : (sliceTo (plans ++ cells) selectedCount : Outcome BridgeRuntimeError _) =
      .ok plans := by
    rw [hcount, sliceTo_eq_ok (by simp), List.take_left]
  have hloop := @emitLoop_eq _ _ (⟨dedupe', policy⟩ : BridgeOrchestrator dedupeCapacity maxEgress)
    key outputs plans egress hplans 1 [.emitHyfEnvelope envelope] commands.tail rfl
    (by rw [List.length_tail]; omega)
  show EStateM.bind (setCommand 0 (.emitHyfEnvelope envelope)) _ ⟨⟨dedupe', policy⟩, commands⟩ = _
  rw [EStateM.bind, setCommand_zero hrest]
  simp only
  rw [List.singleton_append, List.singleton_append, List.drop_tail] at hloop
  rw [Outcome.lift_bind hslice, hloop, Nat.add_comm 1]

/-- A message is emitted as a whole, or nothing changes. -/
theorem allOrNothing_emitBridgeMessage (protocol : BridgeProtocol) (rawBridge : List UInt8)
    (params : BridgeRuntimeDispatchParams) (outputs : EgressOutputs)
    (state : RuntimeState dedupeCapacity maxEgress) :
    AllOrNothing (emitBridgeMessage sha256 schnorr protocol rawBridge params outputs) state
      (Returned sha256 schnorr protocol params outputs rawBridge state) := by
  obtain ⟨⟨dedupe, policy⟩, commands⟩ := state
  refine AllOrNothing.get_bind ?_
  refine AllOrNothing.lift_bind ((ends_decodeBridgeMessage rawBridge).with_eq.convert _) ?_
  rintro message ⟨-, hdecode⟩
  simp only
  -- a known key needs one command; otherwise all that may fail comes before the first write
  split_ifs with hknown
  · refine AllOrNothing.lift_bind (ends_rejectIf _ _) fun _ hroom => ?_
    have hroom := not_lt.mp hroom
    have hrest : commands ≠ [] := by
      rintro rfl
      simp at hroom
    have hrun : (do
        setCommand 0 (.drop (messageKey message) .duplicate)
        return 1 : RuntimeM dedupeCapacity maxEgress ℕ) ⟨⟨dedupe, policy⟩, commands⟩ =
        .ok 1 ⟨⟨dedupe, policy⟩, .drop (messageKey message) .duplicate :: commands.tail⟩ := by
      show EStateM.bind (setCommand 0 _) _ _ = _
      rw [EStateM.bind, setCommand_zero hrest]
      rfl
    refine AllOrNothing.of_run hrun ⟨message, hdecode, .inl ⟨hknown, rfl, hroom, rfl, ?_⟩⟩
    rw [List.drop_one]
  · rw [Bool.not_eq_true] at hknown
    obtain ⟨selected, hselect, hfits, htake⟩ := policy.exists_selectEgress (originOf protocol message)
    have hselected := policy.length_selection_le (originOf protocol message)
    refine AllOrNothing.lift_bind (ends_rejectIf _ _) fun _ hroom => ?_
    refine AllOrNothing.lift_bind ((ends_wrapBridgeMessage rawBridge params.wrap).convert _) ?_
    intro envelope hunwrap
    refine AllOrNothing.lift_bind_ok hselect ?_
    refine AllOrNothing.lift_bind_ok (sliceTo_eq_ok hfits) ?_
    rw [htake]
    refine AllOrNothing.lift_bind (@ends_planLoop _ _ _ message _ hdecode outputs _
      (policy.nodup_selection _) outputs (fun _ _ => ⟨rfl, rfl⟩) 0 []
      (List.replicate maxEgress .unsupportedProfile) rfl
      (by rw [List.length_replicate]; exact hselected)) ?_
    rintro ⟨plans, final⟩ ⟨chosen, egress, hchosen, rfl, hegress, -, hcommands⟩
    refine AllOrNothing.lift_bind (ends_insert dedupe hknown) ?_
    rintro _ ⟨rfl, hinsert, hcontains⟩
    have hlen : (policy.selection (originOf protocol message)).length = egress.length :=
      hegress.length_eq
    have hroom : 1 + egress.length ≤ commands.length := by
      rw [← hlen, ← policy.selectedEgressCount_eq]
      exact not_lt.mp hroom
    have hrun := @emission_eq dedupeCapacity maxEgress dedupe (dedupe.push (messageKey message)) policy
      _ final chosen ((List.replicate maxEgress .unsupportedProfile).drop chosen.length) commands
      egress hcommands _ hchosen.symm hroom envelope
    refine AllOrNothing.of_run hrun ⟨message, hdecode, .inr ⟨hknown, envelope, selected, egress, ?_⟩⟩
    exact {
      count_eq := by rw [policy.selectedEgressCount_eq, hlen]
      count_le := hroom
      length_egress := rfl
      policy_eq := rfl
      insert_eq := hinsert
      contains_eq := hcontains
      unwrap_eq := hunwrap
      select_eq := hlen ▸ hselect
      egress_eq := by rw [← hlen, htake]; exact hegress
      commands_eq := rfl }

namespace Ingress

/-- The protocol by which a message comes in. -/
def protocol : Ingress → BridgeProtocol
  | bitchat _ _ => .bitChat
  | lxmf _ _ => .lxmf
  | nostr _ => .nostr

/-- The encoded bridge message of an input. -/
def encodedMessage (sha256 : List UInt8 → ByteArrayN 32) (schnorr : Schnorr)
    (scratch : BridgeRuntimeScratch) : Ingress → Outcome BridgeRuntimeError (List UInt8)
  | bitchat raw ingressParams => do
    let ingress ← (bitchatPacketToBridgeMessage raw ingressParams).convert .bitchat
    let (len, written) ←
      (encodeBridgeMessage ingress.bridgeMessage scratch.bridgeMessage.toList).convert .bridge
    return written.take len
  | lxmf raw ingressParams => do
    let ingress ← (lxmfMessageToBridgeMessage raw ingressParams).convert .lxmf
    let (len, written) ←
      (encodeBridgeMessage ingress.bridgeMessage scratch.bridgeMessage.toList).convert .bridge
    return written.take len
  | nostr event => do
    let (ingress, _) ←
      (nostrEventToBridgeMessage sha256 schnorr event scratch.bridgeMessage.toList).convert .nostr
    return ingress.rawBridgeMessage

end Ingress

/-- The part that the calls for BitChat and LXMF share. -/
theorem allOrNothing_encodeBridgeMessage (message : BridgeMessageRef) (protocol : BridgeProtocol)
    (params : BridgeRuntimeDispatchParams) (scratch : BridgeRuntimeScratch)
    (state : RuntimeState dedupeCapacity maxEgress) :
    AllOrNothing (do
      let (bridgeLen, bridgeMessage) ← Outcome.lift
        ((encodeBridgeMessage message scratch.bridgeMessage.toList).convert .bridge)
      let rawBridge ← Outcome.lift (sliceTo bridgeMessage bridgeLen)
      emitBridgeMessage sha256 schnorr protocol rawBridge params scratch.outputs) state
      fun count state' => ∃ len written,
        encodeBridgeMessage message scratch.bridgeMessage.toList = .ok (len, written) ∧
        Returned sha256 schnorr protocol params scratch.outputs (written.take len) state count
          state' := by
  refine AllOrNothing.lift_bind ((ends_encodeBridgeMessage message _).with_eq.convert _) ?_
  rintro _ ⟨⟨-, rfl⟩, hencode⟩
  have hlen : (messageBytes message).length ≤ (messageBytes message ++
      scratch.bridgeMessage.toList.drop (messageBytes message).length).length := by
    rw [List.length_append]
    exact Nat.le_add_right _ _
  refine AllOrNothing.lift_bind_ok (sliceTo_eq_ok hlen) ?_
  refine (allOrNothing_emitBridgeMessage protocol _ params scratch.outputs state).mono ?_
  exact fun count state' hreturned => ⟨_, _, hencode, hreturned⟩

/-- A call encodes the message of its input and emits it. -/
theorem allOrNothing_ingest (input : Ingress) (params : BridgeRuntimeDispatchParams)
    (scratch : BridgeRuntimeScratch) (state : RuntimeState dedupeCapacity maxEgress) :
    AllOrNothing (ingest sha256 schnorr input params scratch) state fun count state' =>
      ∃ rawBridge, input.encodedMessage sha256 schnorr scratch = .ok rawBridge ∧
        Returned sha256 schnorr input.protocol params scratch.outputs rawBridge state count state' := by
  cases input with
  | bitchat raw ingressParams =>
    refine AllOrNothing.lift_bind
      ((ends_bitchatPacketToBridgeMessage raw ingressParams).with_eq.convert _) ?_
    rintro ingress ⟨-, hingress⟩
    refine (allOrNothing_encodeBridgeMessage ingress.bridgeMessage .bitChat params scratch
      state).mono ?_
    rintro count state' ⟨len, written, hencode, hreturned⟩
    refine ⟨_, ?_, hreturned⟩
    rw [Ingress.encodedMessage, Outcome.bind_eq (Outcome.convert_eq hingress _),
      Outcome.bind_eq (Outcome.convert_eq hencode _)]
    rfl
  | lxmf raw ingressParams =>
    refine AllOrNothing.lift_bind
      ((ends_lxmfMessageToBridgeMessage raw ingressParams).with_eq.convert _) ?_
    rintro ingress ⟨-, hingress⟩
    refine (allOrNothing_encodeBridgeMessage ingress.bridgeMessage .lxmf params scratch
      state).mono ?_
    rintro count state' ⟨len, written, hencode, hreturned⟩
    refine ⟨_, ?_, hreturned⟩
    rw [Ingress.encodedMessage, Outcome.bind_eq (Outcome.convert_eq hingress _),
      Outcome.bind_eq (Outcome.convert_eq hencode _)]
    rfl
  | nostr event =>
    have hlimit : scratch.bridgeMessage.toList.length < addressLimit := by
      rw [List.Vector.toList_length]
      decide
    refine AllOrNothing.lift_bind
      ((ends_nostrEventToBridgeMessage sha256 schnorr event hlimit).with_eq.convert _) ?_
    rintro ⟨ingress, written⟩ ⟨⟨-, hwritten⟩, hingress⟩
    simp only at hwritten
    have hlen : ingress.rawBridgeMessage.length ≤ written.length := by
      rw [hwritten, List.length_append]
      exact Nat.le_add_right _ _
    have htake : written.take ingress.rawBridgeMessage.length = ingress.rawBridgeMessage := by
      rw [hwritten, List.take_left]
    refine AllOrNothing.lift_bind_ok (sliceTo_eq_ok hlen) ?_
    rw [htake]
    refine (allOrNothing_emitBridgeMessage .nostr _ params scratch.outputs state).mono ?_
    intro count state' hreturned
    refine ⟨_, ?_, hreturned⟩
    rw [Ingress.encodedMessage, Outcome.bind_eq (Outcome.convert_eq hingress _)]
    rfl

/-- **A call to the orchestrator is a transaction.** It reports an error and leaves the dedupe set and
the commands as they were, or it returns the number of commands it wrote in front of those it left
alone. These are a single drop, with the orchestrator as it was, exactly when the key was known; and
otherwise the key has been inserted, the first command emits an envelope of the encoded message, and
the others follow `selectEgress`, with a drop for the protocols without a conversion. -/
theorem ingest_transaction (sha256 : List UInt8 → ByteArrayN 32) (schnorr : Schnorr)
    (input : Ingress) (params : BridgeRuntimeDispatchParams) (scratch : BridgeRuntimeScratch)
    (state : RuntimeState dedupeCapacity maxEgress) :
    (∃ error, ingest sha256 schnorr input params scratch state = .error (.error error) state) ∨
    ∃ count state' rawBridge message,
      ingest sha256 schnorr input params scratch state = .ok count state' ∧
      input.encodedMessage sha256 schnorr scratch = .ok rawBridge ∧
      decodeBridgeMessage rawBridge = .ok message ∧
      state'.commands.length = state.commands.length ∧
      state'.commands.drop count = state.commands.drop count ∧
      (count = 1 ∧ state'.commands[0]? = some (.drop (messageKey message) .duplicate) ∧
          state'.orchestrator = state.orchestrator ↔
        state.orchestrator.dedupe.contains (messageKey message) = true) ∧
      (state.orchestrator.dedupe.contains (messageKey message) = false →
        ∃ envelope selected egress, Emitted sha256 schnorr input.protocol rawBridge message params
          scratch.outputs state count state' envelope selected egress) := by
  rcases (allOrNothing_ingest input params scratch state).cases with herror | hok
  · exact .inl herror
  · obtain ⟨count, state', hrun, rawBridge, hencoded, message, hdecode, hcases⟩ := hok
    refine .inr ⟨count, state', rawBridge, message, hrun, hencoded, hdecode, ?_⟩
    rcases hcases with ⟨hknown, hdropped⟩ | ⟨hnew, envelope, selected, egress, hemitted⟩
    -- the key was known
    · obtain ⟨rfl, hle, horchestrator, hcommands⟩ := hdropped
      refine ⟨?_, ?_, ⟨fun _ => hknown, fun _ => ⟨rfl, ?_, horchestrator⟩⟩, ?_⟩
      · rw [hcommands, List.length_cons, List.length_drop]
        omega
      · rw [hcommands]
        rfl
      · rw [hcommands]
        rfl
      · rw [hknown]
        exact fun hfalse => absurd hfalse (by decide)
    -- the key was new: the first command is an envelope and not a drop
    · have hle := hemitted.count_le
      have hlength := hemitted.length_egress
      refine ⟨?_, ?_, ⟨?_, ?_⟩, fun _ => ⟨envelope, selected, egress, hemitted⟩⟩
      · rw [hemitted.commands_eq, List.cons_append, List.length_cons, List.length_append,
          List.length_drop]
        omega
      · rw [hemitted.commands_eq]
        apply List.drop_left'
        rw [List.length_cons]
        omega
      · rintro ⟨-, hfirst, -⟩
        rw [hemitted.commands_eq] at hfirst
        cases hfirst
      · rw [hnew]
        exact fun hfalse => absurd hfalse (by decide)

end

end Hyf.BridgeRuntime
