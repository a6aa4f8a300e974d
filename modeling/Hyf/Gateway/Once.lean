import Hyf.Gateway.Mesh
import Mathlib.Data.Finset.Card

/-!
# Every gateway of a mesh delivers a message once

A gateway delivers a message at most once while its key is among the keys that it committed last, and it
commits no other keys than those of messages that were submitted to the mesh. So unless more different
messages were submitted than a gateway remembers, it has delivered none of them twice, whatever the network
repeated (`Mesh.delivers_once`).
-/

namespace Hyf

open LoggedSteps

/-- The message that a mesh sees delivered. -/
def delivery? : MeshEvent → Option HyfEnvelopeRef
  | .delivered envelope => some envelope
  | _ => none

/-- The key of a message that is submitted. -/
def submittedKey? : MeshEvent → Option RouterSeenKey
  | .submitted envelope => some (seenKeyFor envelope)
  | _ => none

/-- What the log of a gateway delivers. -/
def deliveriesOf {maxLinks maxSeen storeCapacity : ℕ} (log : List (Moment maxLinks maxSeen storeCapacity)) :
    List HyfEnvelopeRef :=
  log.filterMap fun moment => moment.event.meshEvent?.bind delivery?

section

variable {ι : Type} {history : List (ι × MeshEvent)} {node : ι} {envelope : HyfEnvelopeRef}

/-- What a node of a mesh has delivered. -/
def deliveriesAt [DecidableEq ι] (history : List (ι × MeshEvent)) (node : ι) : List HyfEnvelopeRef :=
  history.filterMap fun entry => if entry.1 = node then delivery? entry.2 else none

/-- The keys that were submitted. -/
def submittedKeys (history : List (ι × MeshEvent)) : List RouterSeenKey :=
  history.filterMap fun entry => submittedKey? entry.2

/-- The deliveries of two histories. -/
theorem deliveriesAt_append [DecidableEq ι] (history' : List (ι × MeshEvent)) :
    deliveriesAt (history ++ history') node = deliveriesAt history node ++ deliveriesAt history' node :=
  List.filterMap_append

/-- A longer history has more of them. -/
theorem submittedKeys_subset {history' : List (ι × MeshEvent)} (h : history ⊆ history') :
    submittedKeys history ⊆ submittedKeys history' :=
  List.filterMap_subset _ h

/-- A message that a node knows has the key of one that was submitted. -/
theorem seenKeyFor_mem_submittedKeys (h : Relaying.Admissible meshRules history)
    (hknown : Relaying.Known meshRules history node envelope) :
    seenKeyFor envelope ∈ submittedKeys history := by
  have hpath : ∀ {origin : ι × HyfEnvelopeRef} {links : ℕ} {node : ι},
      Relaying.Path meshRules history origin links node envelope →
      seenKeyFor envelope ∈ submittedKeys history := by
    intro origin links node hpath
    have hsame : seenKeyFor envelope = seenKeyFor origin.2 := by
      rw [(Mesh.travelled_of_path hpath).loses.same]
      rfl
    rw [hsame]
    exact List.mem_filterMap.mpr ⟨_, hpath.submitted_mem, rfl⟩
  cases hknown with
  | held held =>
    obtain ⟨origin, links, hheld⟩ := h.path_of_held held
    exact hpath hheld
  | arrived mem decode =>
    obtain ⟨sender, hmem⟩ := h.sent_of_arrived mem
    obtain ⟨origin, links, sent, hsent, hdecode⟩ := h.path_of_sent sender _ hmem
    rw [decode, Option.some.injEq] at hdecode
    subst hdecode
    exact hpath hsent

end

/-! ## One gateway -/

namespace GatewayCore

variable {maxLinks maxSeen storeCapacity : ℕ} {log : List (Moment maxLinks maxSeen storeCapacity)}
  {core : GatewayCore maxLinks maxSeen storeCapacity}

/-- The invariant of the seen set goes on. -/
theorem DedupeLog.steps {moments : List (Moment maxLinks maxSeen storeCapacity)}
    {core' : GatewayCore maxLinks maxSeen storeCapacity} (h : DedupeLog log core)
    (hsteps : Steps CoreStep core moments core') : DedupeLog (log ++ moments) core' :=
  hsteps.invariant (fun _ _ _ _ hlog hstep => hlog.step hstep) h

/-- A delivery is an execution. -/
theorem exists_executed_of_delivery {moment : Moment maxLinks maxSeen storeCapacity}
    {envelope : HyfEnvelopeRef} (h : moment.event.meshEvent?.bind delivery? = some envelope) :
    ∃ outcome, moment.event = .executed (.deliverLocal envelope) outcome := by
  unfold GatewayEvent.meshEvent? at h
  split at h
  · cases h
  · cases h
    exact ⟨_, by assumption⟩
  · cases h

/-- A gateway that has committed few keys has delivered none of them twice. -/
theorem DedupeLog.nodup_deliveries (h : DedupeLog log core) {keys : Finset RouterSeenKey}
    (hkeys : ∀ key ∈ commitsOf log, key ∈ keys) (hfew : keys.card ≤ maxSeen) :
    ((deliveriesOf log).map seenKeyFor).Nodup := by
  rw [List.Nodup, List.pairwise_map, deliveriesOf, List.pairwise_filterMap,
    List.pairwise_iff_forall_sublist]
  intro first second hsublist delivered hfirst again hsecond hkey
  obtain ⟨before, rest, hsplit, hmem, hrest⟩ := List.cons_sublist_iff.mp hsublist
  obtain ⟨start, mid, rfl⟩ := List.append_of_mem hmem
  obtain ⟨later, after, rfl⟩ := List.append_of_mem (List.singleton_sublist.mp hrest)
  obtain ⟨event, core₁⟩ := first
  obtain ⟨event', core₂⟩ := second
  obtain ⟨outcome, rfl⟩ := exists_executed_of_delivery hfirst
  obtain ⟨outcome', rfl⟩ := exists_executed_of_delivery hsecond
  have hlog : log = start ++ ⟨.executed (.deliverLocal delivered) outcome, core₁⟩ ::
      ((mid ++ later) ++ ⟨.executed (.deliverLocal again) outcome', core₂⟩ :: after) := by
    rw [hsplit]
    simp
  -- the key and a whole window of others were committed
  obtain ⟨others, hnodup, hlength, hother, hothers⟩ := h.separation hlog hkey
  obtain ⟨start', core', rfl⟩ := h.delivered _ _ _ _ _ hlog
  have hsubset : (seenKeyFor delivered :: others).toFinset ⊆ keys := by
    intro key hmem
    rw [List.mem_toFinset, List.mem_cons] at hmem
    apply hkeys
    rw [hlog]
    obtain rfl | hwindow := hmem
    · simp [GatewayEvent.commit?]
    · have hcommitted := hothers.subset hwindow
      simp only [commitsOf_append, commitsOf_cons, List.mem_append] at hcommitted ⊢
      tauto
  have hcard := Finset.card_le_card hsubset
  rw [List.toFinset_card_of_nodup (List.nodup_cons.mpr ⟨hother, hnodup⟩), List.length_cons] at hcard
  omega

end GatewayCore

/-! ## The mesh -/

namespace Mesh

variable {ι : Type} {maxLinks maxSeen storeCapacity : ι → ℕ} [DecidableEq ι]
  {mesh : Mesh ι maxLinks maxSeen storeCapacity} {node : ι}

/-- A log of a gateway of the mesh: what it delivers is what the mesh saw, and it commits keys of submitted
messages only. -/
structure LogOf (mesh : Mesh ι maxLinks maxSeen storeCapacity) (node : ι)
    (log : List (Moment (maxLinks node) (maxSeen node) (storeCapacity node))) : Prop where
  dedupe : GatewayCore.DedupeLog log (mesh.cores node)
  deliveries : deliveriesAt mesh.history node = deliveriesOf log
  committed : ∀ key ∈ commitsOf log, key ∈ submittedKeys mesh.history

/-- Entering a call delivers nothing. -/
theorem deliveriesAt_entered (mesh : Mesh ι maxLinks maxSeen storeCapacity) (other : ι) (op : GatewayOp) :
    deliveriesAt (mesh.entered other op) node = deliveriesAt mesh.history node := by
  have hnothing : ∀ given ∈ op.event.meshEvents, delivery? given = none := by
    intro given hmem
    unfold RouterEvent.meshEvents at hmem
    split at hmem
    · rw [List.mem_singleton] at hmem
      rw [hmem]
      rfl
    · rw [List.mem_singleton] at hmem
      rw [hmem]
      rfl
    · cases hmem
  rw [entered, deliveriesAt_append, deliveriesAt, deliveriesAt, List.filterMap_map, List.append_right_eq_self,
    List.filterMap_eq_nil_iff]
  intro given hmem
  show (if other = node then delivery? given else none) = none
  rw [hnothing given hmem, ite_self]

/-- The deliveries of a call are the ones of its log. -/
theorem deliveriesAt_moments {maxLinks maxSeen storeCapacity : ℕ}
    (moments : List (Moment maxLinks maxSeen storeCapacity)) : deliveriesAt
      ((moments.filterMap fun moment => moment.event.meshEvent?).map fun event => (node, event)) node =
        deliveriesOf moments := by
  rw [deliveriesAt, List.filterMap_map, List.filterMap_filterMap, deliveriesOf]
  congr 1
  funext moment
  cases moment.event.meshEvent? with
  | none => rfl
  | some event => exact if_pos rfl

/-- What happens elsewhere delivers nothing here. -/
theorem deliveriesAt_of_ne {other : ι} (hne : other ≠ node) (events : List MeshEvent) :
    deliveriesAt (events.map fun event => (other, event)) node = [] := by
  rw [deliveriesAt, List.filterMap_map, List.filterMap_eq_nil_iff]
  intro event _
  exact if_neg hne

/-- A call goes on with the log of a node. -/
theorem exists_log_call {E : Type} [GatewayLinkExecutor E] (haccountable : Accountable mesh) (caller : ι)
    {op : GatewayOp} (hcarried : ∀ bytes, .arrived bytes ∈ op.event.meshEvents →
      ∃ sender, (sender, .sent bytes) ∈ mesh.history) (executor : E) (h : ∃ log, mesh.LogOf node log) :
    ∃ log, (mesh.call caller op executor).LogOf node log := by
  obtain ⟨log, hlog⟩ := h
  obtain ⟨hentered, moments, core, hcall, hcores, hhistory, haccounted⟩ :=
    haccountable.exists_call caller hcarried executor
  have hsub : mesh.history ⊆ (mesh.call caller op executor).history := by
    rw [hhistory]
    exact List.subset_append_of_subset_left _ (List.subset_append_left _ _)
  by_cases hcaller : caller = node
  · subst hcaller
    refine ⟨log ++ moments, ?_, ?_, ?_⟩
    · rw [hcores, Function.update_self]
      exact hlog.dedupe.steps hcall.steps
    · rw [hhistory, deliveriesAt_append, deliveriesAt_entered, hlog.deliveries, deliveriesAt_moments,
        deliveriesOf, deliveriesOf, deliveriesOf, List.filterMap_append]
    · intro key hkey
      rw [GatewayCore.commitsOf_append, List.mem_append] at hkey
      obtain hold | hnew := hkey
      · exact submittedKeys_subset hsub (hlog.committed key hold)
      · obtain ⟨moment, hmem, hcommit⟩ := List.mem_filterMap.mp hnew
        obtain ⟨envelope, hknown, rfl⟩ := haccounted.committed moment hmem key hcommit
        have hmem := seenKeyFor_mem_submittedKeys hentered hknown
        rw [hhistory]
        exact submittedKeys_subset (List.subset_append_left _ _) hmem
  · refine ⟨log, ?_, ?_, fun key hkey => submittedKeys_subset hsub (hlog.committed key hkey)⟩
    · rw [hcores, Function.update_of_ne (Ne.symm hcaller)]
      exact hlog.dedupe
    · rw [hhistory, deliveriesAt_append, deliveriesAt_entered, deliveriesAt_of_ne hcaller, List.append_nil,
        hlog.deliveries]

/-- Every node of a run has a log. -/
theorem Run.exists_log {configs : ∀ node, GatewayConfig (maxLinks node)} (h : Run configs mesh)
    (node : ι) : ∃ log, mesh.LogOf node log := by
  induction h with
  | start new_eq =>
    refine ⟨[], (GatewayCore.dedupeLog_of_run (.start (new_eq node))), rfl, ?_⟩
    simp
  | step before last ih =>
    cases last with
    | call caller op carried executor => exact exists_log_call before.accountable caller carried executor ih

/-- **At most once, at every gateway.** In every run of a mesh in which no more different messages were
submitted than a gateway remembers, it has delivered each at most once, whatever the network repeated. -/
theorem delivers_once {configs : ∀ node, GatewayConfig (maxLinks node)} (h : Run configs mesh) (node : ι)
    (hfew : (submittedKeys mesh.history).toFinset.card ≤ maxSeen node) :
    ((deliveriesAt mesh.history node).map seenKeyFor).Nodup := by
  obtain ⟨log, hlog⟩ := h.exists_log node
  rw [hlog.deliveries]
  refine hlog.dedupe.nodup_deliveries (fun key hkey => ?_) hfew
  exact List.mem_toFinset.mpr (hlog.committed key hkey)

open GatewayCore (AcceptAll)

/-- The last frame comes to the third gateway once more. -/
def lineRepeated : LineMesh := lineDelivered.call (Fin.last 2) (.ingestLinkFrame secondFrame) AcceptAll.mk

/-- The sample is reached by a run. -/
theorem run_lineRepeated : Run lineConfig lineRepeated := by
  have hsent : (1, .sent secondFrame.bytes) ∈ lineDelivered.history := by decide +kernel
  refine run_lineDelivered.step (.call 2 _ (fun bytes hmem => ?_) _)
  cases List.mem_singleton.mp hmem
  exact ⟨1, hsent⟩

/-- A frame arrives twice, and is delivered once. -/
theorem lineRepeated_delivers_once :
    (2, .arrived secondFrame.bytes) ∈ lineRepeated.history.drop lineDelivered.history.length ∧
      ((deliveriesAt lineRepeated.history 2).map seenKeyFor).Nodup :=
  ⟨by decide +kernel, delivers_once run_lineRepeated 2 (by decide +kernel)⟩

end Mesh

end Hyf
