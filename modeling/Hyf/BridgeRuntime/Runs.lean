import Hyf.BridgeRuntime.OrchestratorTheorems
import Hyf.Common.DedupeWindow
import Hyf.Common.LoggedSteps

/-!
# Loop prevention over whole runs

A run is any sequence of calls to one orchestrator, with inputs, parameters, buffers and commands of
its own for each call; some return and some fail. A call that emits a message inserts its key, and no
other call changes the dedupe set, so the keys emitted so far are the history that the dedupe set is
a window of.
-/

namespace Hyf.BridgeRuntime

open ByteCodec Bridge Nostr LoggedSteps

/-! ## Commands -/

/-- The protocol that a command sends to. -/
def BridgeRuntimeCommand.target : BridgeRuntimeCommand → Option BridgeProtocol
  | emitHyfEnvelope _ => some .hyf
  | emitBitChatPacket _ => some .bitChat
  | emitLxmfMessage _ => some .lxmf
  | emitNostrEvent _ => some .nostr
  | drop _ _ => none

/-- The key of the message that a command emits to HYF. -/
def BridgeRuntimeCommand.emittedKey : BridgeRuntimeCommand → Option BridgeMessageKey
  | emitHyfEnvelope envelope =>
    (unwrapBridgeMessage envelope >>= decodeBridgeMessage).toOption.map messageKey
  | _ => none

/-- A command that is made for a protocol: it sends to the protocol or drops for it. -/
def CommandFor (protocol : BridgeProtocol) (command : BridgeRuntimeCommand) : Prop :=
  (command.target = some protocol ∧ protocol ≠ .hyf) ∨ ∃ key, command = unsupportedProfileDrop key

section

variable {sha256 : List UInt8 → ByteArrayN 32} {schnorr : Schnorr} {rawBridge : List UInt8}
  {message : BridgeMessageRef} {params : BridgeRuntimeEgressParams} {outputs : EgressOutputs}
  {selected : List BridgeProtocol} {egress : List BridgeRuntimeCommand}

/-- A command of the egress is one for its protocol. -/
theorem EgressCommand.commandFor {protocol : BridgeProtocol} {command : BridgeRuntimeCommand}
    (h : EgressCommand sha256 schnorr rawBridge message params outputs protocol command) :
    CommandFor protocol command := by
  cases h with
  | bitChat => exact .inl ⟨rfl, by decide⟩
  | lxmf => exact .inl ⟨rfl, by decide⟩
  | nostr => exact .inl ⟨rfl, by decide⟩
  | unsupported => exact .inr ⟨_, rfl⟩

/-- The commands for a list of protocols send to some of them, in order, and never to HYF. -/
theorem targets_sublist (h : List.Forall₂ CommandFor selected egress) :
    (egress.filterMap BridgeRuntimeCommand.target).Sublist (selected.filter (· ≠ .hyf)) := by
  induction h with
  | nil => exact List.Sublist.slnil
  | @cons protocol command selected egress hcommand _ ih =>
    rcases hcommand with ⟨htarget, hne⟩ | ⟨key, rfl⟩
    · rw [List.filterMap_cons_some htarget, List.filter_cons_of_pos (by simpa using hne)]
      exact ih.cons_cons _
    · rw [List.filterMap_cons_none rfl]
      exact ih.trans ((List.sublist_cons_self _ _).filter _)

/-- The commands of the egress emit no key. -/
theorem emittedKeys_egress (h : List.Forall₂ CommandFor selected egress) :
    egress.filterMap BridgeRuntimeCommand.emittedKey = [] := by
  induction h with
  | nil => rfl
  | @cons protocol command selected egress hcommand _ ih =>
    rw [List.filterMap_cons_none, ih]
    rcases hcommand with ⟨htarget, hne⟩ | ⟨key, rfl⟩
    · cases command with
      | emitHyfEnvelope envelope =>
        cases htarget
        exact absurd rfl hne
      | _ => rfl
    · rfl

end

/-! ## Runs -/

/-- A call as it is seen from outside: where its message came from, the commands it wrote, and the
dedupe set before and after. -/
structure CallRecord (dedupeCapacity : ℕ) where
  protocol : BridgeProtocol
  commands : List BridgeRuntimeCommand
  before : BridgeDedupeSet dedupeCapacity
  after : BridgeDedupeSet dedupeCapacity

/-- The keys that were emitted to HYF, in order. -/
def emittedKeys {dedupeCapacity : ℕ} (log : List (CallRecord dedupeCapacity)) :
    List BridgeMessageKey :=
  log.flatMap fun record => record.commands.filterMap BridgeRuntimeCommand.emittedKey

section

variable (sha256 : List UInt8 → ByteArrayN 32) (schnorr : Schnorr) {dedupeCapacity maxEgress : ℕ}

/-- One call, whatever its arguments are. -/
inductive IngestStep (orchestrator : BridgeOrchestrator dedupeCapacity maxEgress) :
    List (CallRecord dedupeCapacity) → BridgeOrchestrator dedupeCapacity maxEgress → Prop
  | returned {input : Ingress} {params : BridgeRuntimeDispatchParams}
    {scratch : BridgeRuntimeScratch} {commands : List BridgeRuntimeCommand} {count : ℕ}
    {state : RuntimeState dedupeCapacity maxEgress}
    (run : ingest sha256 schnorr input params scratch ⟨orchestrator, commands⟩ = .ok count state) :
    IngestStep orchestrator [⟨input.protocol, state.commands.take count, orchestrator.dedupe,
      state.orchestrator.dedupe⟩] state.orchestrator
  | failed {input : Ingress} {params : BridgeRuntimeDispatchParams}
    {scratch : BridgeRuntimeScratch} {commands : List BridgeRuntimeCommand}
    {fault : Fault BridgeRuntimeError} {state : RuntimeState dedupeCapacity maxEgress}
    (run : ingest sha256 schnorr input params scratch ⟨orchestrator, commands⟩ = .error fault state) :
    IngestStep orchestrator [⟨input.protocol, [], orchestrator.dedupe, state.orchestrator.dedupe⟩]
      state.orchestrator

variable {sha256 schnorr}

/-- A call sends nothing back to where its message came from, makes one command for each of the
protocols it sends to, and inserts the key of the message it emits, if it emits one. -/
structure CallRecord.Sound (record : CallRecord dedupeCapacity) : Prop where
  targets : record.protocol ∉ record.commands.filterMap BridgeRuntimeCommand.target ∧
    (record.commands.filterMap BridgeRuntimeCommand.target).Nodup
  egress : ∃ protocols : List BridgeProtocol, protocols.Nodup ∧ record.protocol ∉ protocols ∧
    List.Forall₂ CommandFor protocols record.commands.tail
  inserts : (record.commands.filterMap BridgeRuntimeCommand.emittedKey = [] ∧
      record.after = record.before) ∨
    ∃ key, record.commands.filterMap BridgeRuntimeCommand.emittedKey = [key] ∧
      record.before.insert key = .ok (true, record.after)

/-- No input is from the mesh itself. -/
theorem Ingress.protocol_ne_hyf (input : Ingress) : input.protocol ≠ .hyf := by
  cases input <;> simp [Ingress.protocol]

/-- A policy without echo does not select the protocol of the origin. -/
theorem not_mem_selection {policy : BridgeRoutePolicy maxEgress} (h : policy.allowEcho = false)
    (origin : BridgeOrigin) : origin.protocol ∉ policy.selection origin := by
  intro hmem
  have hblocked := (policy.mem_picks origin hmem).1
  simp [BridgeRoutePolicy.protocolIsBlocked, h] at hblocked

/-- A call that emits a message leaves a sound record. -/
theorem sound_of_emitted {input : Ingress} {rawBridge : List UInt8} {message : BridgeMessageRef}
    {params : BridgeRuntimeDispatchParams} {outputs : EgressOutputs}
    {state state' : RuntimeState dedupeCapacity maxEgress} {count : ℕ} {envelope : HyfEnvelopeRef}
    {selected : List BridgeProtocol} {egress : List BridgeRuntimeCommand}
    (hdecode : decodeBridgeMessage rawBridge = .ok message)
    (hecho : state.orchestrator.routePolicy.allowEcho = false)
    (h : Emitted sha256 schnorr input.protocol rawBridge message params outputs state count state'
      envelope selected egress) :
    CallRecord.Sound ⟨input.protocol, state'.commands.take count, state.orchestrator.dedupe,
      state'.orchestrator.dedupe⟩ := by
  have htake : state'.commands.take count = .emitHyfEnvelope envelope :: egress := by
    rw [h.commands_eq]
    apply List.take_left'
    rw [List.length_cons, h.length_egress, Nat.add_comm]
  obtain ⟨selected', hselect, -, hselected⟩ :=
    state.orchestrator.routePolicy.exists_selectEgress (originOf input.protocol message)
  have hsame := h.select_eq.symm.trans hselect
  rw [Except.ok.injEq, Prod.mk.injEq] at hsame
  obtain ⟨hlen, rfl⟩ := hsame
  -- what `selectEgress` wrote is the selection, and the commands follow it
  have hcommands : List.Forall₂ CommandFor
      (state.orchestrator.routePolicy.selection (originOf input.protocol message)) egress := by
    rw [← hselected, ← hlen]
    exact h.egress_eq.imp fun _ _ hcommand => hcommand.commandFor
  have horigin := not_mem_selection hecho (originOf input.protocol message)
  have hnodup := state.orchestrator.routePolicy.nodup_selection (originOf input.protocol message)
  have htargets := targets_sublist hcommands
  have hhyf : (BridgeRuntimeCommand.emitHyfEnvelope envelope).target = some .hyf := rfl
  -- the envelope can be unwrapped, so the key is visible in the command
  have hkey : (BridgeRuntimeCommand.emitHyfEnvelope envelope).emittedKey =
      some (messageKey message) := by
    rw [BridgeRuntimeCommand.emittedKey, Outcome.bind_eq h.unwrap_eq, hdecode]
    rfl
  refine ⟨⟨?_, ?_⟩, ⟨_, hnodup, horigin, ?_⟩, .inr ⟨messageKey message, ?_, h.insert_eq⟩⟩
  · simp only
    rw [htake, List.filterMap_cons_some hhyf, List.mem_cons, not_or]
    refine ⟨input.protocol_ne_hyf, fun hmem => horigin ?_⟩
    exact List.mem_of_mem_filter (htargets.subset hmem)
  · simp only
    rw [htake, List.filterMap_cons_some hhyf, List.nodup_cons]
    refine ⟨fun hmem => ?_, htargets.nodup (hnodup.filter _)⟩
    simpa using (List.mem_filter.mp (htargets.subset hmem)).2
  · simp only
    rw [htake]
    exact hcommands
  · simp only
    rw [htake, List.filterMap_cons_some hkey, emittedKeys_egress hcommands]

/-- A call that sends nothing and keeps the dedupe set. -/
theorem sound_of_quiet {protocol : BridgeProtocol} {commands : List BridgeRuntimeCommand}
    {dedupe : BridgeDedupeSet dedupeCapacity}
    (htargets : commands.filterMap BridgeRuntimeCommand.target = [])
    (hkeys : commands.filterMap BridgeRuntimeCommand.emittedKey = []) (htail : commands.tail = []) :
    CallRecord.Sound ⟨protocol, commands, dedupe, dedupe⟩ := by
  refine ⟨⟨?_, ?_⟩, ⟨[], List.nodup_nil, List.not_mem_nil, ?_⟩, .inl ⟨hkeys, rfl⟩⟩
  · simp only [htargets, List.not_mem_nil, not_false_eq_true]
  · simp only [htargets, List.nodup_nil]
  · simp only [htail]
    exact .nil

/-- A call keeps the policy, and its record is sound. -/
theorem IngestStep.cases {orchestrator orchestrator' : BridgeOrchestrator dedupeCapacity maxEgress}
    {records : List (CallRecord dedupeCapacity)}
    (h : IngestStep sha256 schnorr orchestrator records orchestrator')
    (hecho : orchestrator.routePolicy.allowEcho = false) :
    orchestrator'.routePolicy = orchestrator.routePolicy ∧ ∃ record, records = [record] ∧
      record.Sound ∧ record.before = orchestrator.dedupe ∧ record.after = orchestrator'.dedupe := by
  cases h with
  | @returned input params scratch commands count state run =>
    have hcall := @allOrNothing_ingest sha256 schnorr _ _ input params scratch
      ⟨orchestrator, commands⟩
    rw [AllOrNothing, run] at hcall
    obtain ⟨rawBridge, -, message, hdecode, hcases⟩ := hcall
    rcases hcases with ⟨-, hdropped⟩ | ⟨-, envelope, selected, egress, hemitted⟩
    · obtain ⟨rfl, -, horchestrator, hcommands⟩ := hdropped
      refine ⟨by rw [horchestrator], _, rfl, ?_, rfl, rfl⟩
      rw [horchestrator, hcommands]
      exact sound_of_quiet rfl rfl rfl
    · exact ⟨hemitted.policy_eq, _, rfl, sound_of_emitted hdecode hecho hemitted, rfl, rfl⟩
  | @failed input params scratch commands fault state run =>
    have hcall := @allOrNothing_ingest sha256 schnorr _ _ input params scratch
      ⟨orchestrator, commands⟩
    rw [AllOrNothing, run] at hcall
    cases fault with
    -- a call does not panic
    | panic => exact hcall.elim
    | error error =>
      obtain rfl : state = ⟨orchestrator, commands⟩ := hcall
      exact ⟨rfl, _, rfl, sound_of_quiet rfl rfl rfl, rfl, rfl⟩

/-- A key that was inserted was new. -/
theorem insert_eq_true {set set' : BridgeDedupeSet dedupeCapacity} {key : BridgeMessageKey}
    (h : set.insert key = .ok (true, set')) : set.contains key = false ∧ set' = set.push key := by
  unfold BridgeDedupeSet.insert at h
  split_ifs at h with hknown hzero
  · cases h
  · cases h
  · cases h
    exact ⟨Bool.not_eq_true _ ▸ hknown, rfl⟩

/-- A key is contained if it is in some cell. -/
theorem contains_iff {set : BridgeDedupeSet dedupeCapacity} {key : BridgeMessageKey} :
    set.contains key = true ↔ key ∈ set.keys.live := by
  simp [BridgeDedupeSet.contains]

/-- What holds after every call of a run. -/
structure RunInvariant (policy : BridgeRoutePolicy maxEgress) (log : List (CallRecord dedupeCapacity))
    (orchestrator : BridgeOrchestrator dedupeCapacity maxEgress) : Prop where
  policy_eq : orchestrator.routePolicy = policy
  sound : ∀ record ∈ log, record.Sound
  represents : DedupeWindow.Represents orchestrator.dedupe.keys orchestrator.dedupe.nextIndex
    (emittedKeys log)
  fresh : DedupeWindow.Fresh dedupeCapacity (emittedKeys log)
  len_eq : orchestrator.dedupe.len = min dedupeCapacity (emittedKeys log).length

/-- The invariant holds at the start. -/
theorem RunInvariant.new (hcapacity : 0 < dedupeCapacity) (policy : BridgeRoutePolicy maxEgress) :
    RunInvariant policy [] (BridgeOrchestrator.new policy : BridgeOrchestrator dedupeCapacity _) where
  policy_eq := rfl
  sound := by simp
  represents := DedupeWindow.represents_empty hcapacity
  fresh := DedupeWindow.Fresh.nil
  len_eq := by simp [emittedKeys, BridgeOrchestrator.new, BridgeDedupeSet.new]

/-- A call keeps the invariant. -/
theorem RunInvariant.step {policy : BridgeRoutePolicy maxEgress} (hecho : policy.allowEcho = false)
    {log records : List (CallRecord dedupeCapacity)}
    {orchestrator orchestrator' : BridgeOrchestrator dedupeCapacity maxEgress}
    (h : RunInvariant policy log orchestrator)
    (hstep : IngestStep sha256 schnorr orchestrator records orchestrator') :
    RunInvariant policy (log ++ records) orchestrator' := by
  obtain ⟨hpolicy, record, rfl, hsound, hbefore, hafter⟩ := hstep.cases (h.policy_eq ▸ hecho)
  have hkeys : emittedKeys (log ++ [record]) = emittedKeys log ++
      record.commands.filterMap BridgeRuntimeCommand.emittedKey := by
    simp [emittedKeys]
  have hrecords : ∀ other ∈ log ++ [record], other.Sound := by
    intro other hother
    rcases List.mem_append.mp hother with hold | hnew
    · exact h.sound other hold
    · exact List.mem_singleton.mp hnew ▸ hsound
  rcases hsound.inserts with ⟨hnone, hsame⟩ | ⟨key, hkey, hinsert⟩
  · rw [hnone, List.append_nil] at hkeys
    have hdedupe : orchestrator'.dedupe = orchestrator.dedupe := by
      rw [← hafter, hsame, hbefore]
    exact ⟨hpolicy.trans h.policy_eq, hrecords, by rw [hkeys, hdedupe]; exact h.represents,
      by rw [hkeys]; exact h.fresh, by rw [hkeys, hdedupe]; exact h.len_eq⟩
  · rw [hkey] at hkeys
    rw [hbefore, hafter] at hinsert
    obtain ⟨hnew, hpush⟩ := insert_eq_true hinsert
    -- the set holds the window, so a key that could be inserted is not in it
    have hoff : key ∉ (emittedKeys log).rtake dedupeCapacity := by
      intro hmem
      rw [contains_iff.mpr (h.represents.mem_live.mpr hmem)] at hnew
      cases hnew
    refine ⟨hpolicy.trans h.policy_eq, hrecords, ?_, ?_, ?_⟩
    · rw [hkeys, hpush]
      exact h.represents.write key
    · rw [hkeys]
      exact h.fresh.snoc hoff
    · have hlen := h.len_eq
      rw [hkeys, hpush, BridgeDedupeSet.push, List.length_append, List.length_singleton]
      simp only
      split_ifs <;> omega

/-- **The bridge prevents loops.** In every run of an orchestrator without echo, no call sends a
message back to the protocol it came from or makes two commands for one protocol; between two
emissions of a key lie as many other keys as the dedupe set has room for; and the dedupe set always
holds exactly the keys that were emitted last, each once. -/
theorem orchestrator_prevents_loops {egressProtocols : SlotArray BridgeProtocol maxEgress}
    (hcapacity : 0 < dedupeCapacity) {log : List (CallRecord dedupeCapacity)}
    {orchestrator : BridgeOrchestrator dedupeCapacity maxEgress}
    (h : Steps (IngestStep sha256 schnorr)
      (BridgeOrchestrator.new (BridgeRoutePolicy.noEcho egressProtocols)) log orchestrator) :
    (∀ record ∈ log, record.Sound) ∧
    (∀ key before mid after, emittedKeys log = before ++ key :: (mid ++ key :: after) →
      ∃ keys : List BridgeMessageKey, keys.Nodup ∧ keys.length = dedupeCapacity ∧ key ∉ keys ∧
        keys.Sublist mid) ∧
    orchestrator.dedupe.keys.live.Perm ((emittedKeys log).rtake dedupeCapacity) ∧
    ((emittedKeys log).rtake dedupeCapacity).Nodup ∧
    (∀ key, orchestrator.dedupe.contains key = true ↔
      key ∈ (emittedKeys log).rtake dedupeCapacity) ∧
    orchestrator.dedupe.len = ((emittedKeys log).rtake dedupeCapacity).length ∧
    orchestrator.dedupe.len = min dedupeCapacity (emittedKeys log).length := by
  have hinvariant := h.invariant (fun _ _ _ _ hinvariant hstep => hinvariant.step rfl hstep)
    (RunInvariant.new hcapacity (BridgeRoutePolicy.noEcho egressProtocols))
  rw [List.nil_append] at hinvariant
  refine ⟨hinvariant.sound, ?_, hinvariant.represents.live_perm, hinvariant.fresh.nodup_rtake, ?_, ?_,
    hinvariant.len_eq⟩
  · intro key before mid after hsplit
    -- the first `dedupeCapacity` keys in between are the ones to take
    obtain ⟨hlen, hnodup, hother⟩ := (hsplit ▸ hinvariant.fresh).separation
    refine ⟨mid.take dedupeCapacity, hnodup, ?_, hother, List.take_sublist _ _⟩
    rw [List.length_take]
    omega
  · intro key
    rw [contains_iff, hinvariant.represents.mem_live]
  · rw [hinvariant.len_eq, DedupeWindow.length_rtake]

end

/-! ## A run -/

/-- The BitChat packet of the sample message. -/
def sampleBitchat : Ingress :=
  .bitchat [2, 2, 7, 0, 0, 0, 0, 0, 0, 3, 232, 0, 0, 0, 0, 2, 4, 4, 4, 4, 4, 4, 4, 4, 104, 105]
    ⟨⟨fillBytes 16 1⟩, ⟨fillBytes 32 2⟩⟩

def sampleDispatch : BridgeRuntimeDispatchParams :=
  ⟨⟨⟨fillBytes 32 5⟩, 1000, 2000, 7⟩, ⟨none, none, none⟩⟩

def sampleScratch : BridgeRuntimeScratch :=
  ⟨fillBytes _ 0, fillBytes _ 0, fillBytes _ 0, ⟨fillBytes _ 0, fillBytes _ 0⟩, fillBytes _ 0⟩

def sampleEgress : SlotArray BridgeProtocol 3 := ⟨[some .bitChat, some .lxmf, some .lxmf], rfl⟩

def sampleKey : BridgeMessageKey := ⟨⟨fillBytes 16 1⟩, ⟨fillBytes 32 2⟩⟩

/-- The call with the sample packet and room for two commands. -/
def sampleCall (orchestrator : BridgeOrchestrator 2 3) :
    Option (ℕ × RuntimeState 2 3) :=
  match ingest (fun _ => NostrBridge.sampleEventId) NostrBridge.sampleSchnorr sampleBitchat
    sampleDispatch sampleScratch
    ⟨orchestrator, List.replicate 2 (.drop sampleKey .malformedInput)⟩ with
  | .ok count state => some (count, state)
  | .error _ _ => none

/-- The first call emits the message to HYF and drops it for LXMF; BitChat is its origin. -/
def sampleFirst : ℕ × RuntimeState 2 3 :=
  (sampleCall (.new (.noEcho sampleEgress))).get (by decide +kernel)

/-- The second call finds the key. -/
def sampleSecond : ℕ × RuntimeState 2 3 :=
  (sampleCall sampleFirst.2.orchestrator).get (by decide +kernel)

/-- A call of the sample is a step. -/
theorem step_sampleCall {orchestrator : BridgeOrchestrator 2 3} {result : ℕ × RuntimeState 2 3}
    (h : sampleCall orchestrator = some result) :
    IngestStep (fun _ => NostrBridge.sampleEventId) NostrBridge.sampleSchnorr orchestrator
      [⟨.bitChat, result.2.commands.take result.1, orchestrator.dedupe,
        result.2.orchestrator.dedupe⟩] result.2.orchestrator := by
  unfold sampleCall at h
  split at h
  · rename_i count state hrun
    cases h
    exact IngestStep.returned hrun
  · cases h

/-- Two calls with one packet emit it once. -/
theorem sampleRun_emits_once : ∃ (log : List (CallRecord 2)) (orchestrator : BridgeOrchestrator 2 3),
    Steps (IngestStep (fun _ => NostrBridge.sampleEventId) NostrBridge.sampleSchnorr)
      (.new (.noEcho sampleEgress)) log orchestrator ∧
    log.map CallRecord.commands = [sampleFirst.2.commands, [.drop sampleKey .duplicate]] ∧
    emittedKeys log = [sampleKey] ∧ orchestrator.dedupe.len = 1 ∧ ∀ record ∈ log, record.Sound := by
  have hfirst : sampleCall (.new (.noEcho sampleEgress)) = some sampleFirst :=
    (Option.some_get _).symm
  have hsecond : sampleCall sampleFirst.2.orchestrator = some sampleSecond :=
    (Option.some_get _).symm
  have hrun := (Steps.single (step_sampleCall hfirst)).tail (step_sampleCall hsecond)
  have hloops := orchestrator_prevents_loops (by decide) hrun
  have hkeys : emittedKeys ([⟨.bitChat, sampleFirst.2.commands.take sampleFirst.1,
      (BridgeOrchestrator.new (.noEcho sampleEgress) : BridgeOrchestrator 2 3).dedupe,
      sampleFirst.2.orchestrator.dedupe⟩] ++
      [⟨.bitChat, sampleSecond.2.commands.take sampleSecond.1, sampleFirst.2.orchestrator.dedupe,
        sampleSecond.2.orchestrator.dedupe⟩]) = [sampleKey] := by
    decide +kernel
  refine ⟨_, _, hrun, by decide +kernel, hkeys, ?_, hloops.1⟩
  rw [hloops.2.2.2.2.2.2, hkeys]
  rfl

end Hyf.BridgeRuntime
