import Hyf.Common.BoundedMap
import Hyf.Store.StoreTheorems
import Hyf.Wire.EnvelopeChecked

/-!
# The store as a bounded map

The operations of the store are written here as programs over a mutable store, as in the source: an
error does not undo what was written before it. Every one of them turns out to be one of the pure
operations of `Hyf.Store.Store` (`StoreM.ofPure`), and the pure operations are those of a
`BoundedMap` from message ids to records. A run of any calls therefore keeps the representation
invariant and stores exactly what the map does.
-/

namespace Hyf

/-- A program over a mutable store. -/
abbrev StoreM (n frameMax : ℕ) := EStateM StoreError (Store n frameMax)

namespace StoreM

variable {n frameMax : ℕ} {α : Type}

/-- `map_err(convert)?`. -/
def lift {ε : Type} (convert : ε → StoreError) : Except ε α → StoreM n frameMax α
  | .ok a => pure a
  | .error error => throw (convert error)

/-- `put_valid_frame`: the first free slot is overwritten. -/
def putValidFrame (frame : List UInt8) (metadata : StoreMetadata) : StoreM n frameMax Unit := do
  if (← get).contains metadata.messageId then
    throw .duplicate
  let some index := (← get).firstFreeIndex
    | throw .full
  modify fun store => { store with records := store.records.write index (some (.new frame metadata)) }

/-- `put_envelope`: the envelope is encoded first. -/
def putEnvelope (envelope : HyfEnvelopeRef) : StoreM n frameMax Unit := do
  if (← get).policy.rejectExpiredOnPut && isExpiredAtCreation envelope then
    throw .expired
  let required ← lift .invalidEnvelope (envelopeEncodedLen envelope)
  if required > frameMax then
    throw (.frameTooLarge required frameMax)
  let (len, frame) ← lift .invalidEnvelope (encodeEnvelope envelope (List.replicate frameMax 0))
  putValidFrame (frame.take len) (metadataFor envelope)

/-- `put_frame`: the frame is decoded first. -/
def putFrame (frame : List UInt8) : StoreM n frameMax Unit := do
  if frame.length > frameMax then
    throw (.frameTooLarge frame.length frameMax)
  let store ← get
  let envelope ← lift store.decodeError (decodeEnvelope frame)
  putValidFrame frame (metadataFor envelope)

/-- `remove`: the slot of the record is freed. -/
def remove (messageId : MessageId) : StoreM n frameMax Unit := do
  let some index := (← get).findIndex messageId
    | throw .notFound
  modify fun store => { store with records := store.records.write index none }

/-- `expire_before`: the slots of expired records are freed and counted. -/
def expireBefore (now : TimestampMs) : StoreM n frameMax ℕ :=
  modifyGet fun store => store.expireBefore now

/-! ## The programs and the pure operations -/

/-- The program that puts back the store an operation returns, and keeps the store otherwise. -/
def ofPure (operation : Store n frameMax → Except StoreError (Store n frameMax)) :
    StoreM n frameMax Unit := fun store =>
  match operation store with
  | .ok store' => .ok () store'
  | .error error => .error error store

/-- The call is the function of the store. -/
theorem putValidFrame_eq (frame : List UInt8) (metadata : StoreMetadata) :
    (putValidFrame frame metadata : StoreM n frameMax Unit) =
      ofPure fun store => store.putValidFrame frame metadata := by
  funext store
  simp only [putValidFrame, ofPure, Store.putValidFrame, ByteCodec.run_get_bind]
  split_ifs
  · rfl
  · rw [ByteCodec.run_get_bind]
    cases store.firstFreeIndex <;> rfl

/-- The call is the function of the store. -/
theorem putEnvelope_eq (envelope : HyfEnvelopeRef) :
    (putEnvelope envelope : StoreM n frameMax Unit) =
      ofPure fun store => store.putEnvelope envelope := by
  funext store
  simp only [putEnvelope, ofPure, Store.putEnvelope, putValidFrame_eq, ByteCodec.run_get_bind]
  split_ifs
  · rfl
  · cases envelopeEncodedLen envelope with
    | error error => rfl
    | ok required =>
      simp only [lift, Except.mapError, Bind.bind, Pure.pure, EStateM.pure, EStateM.bind,
        Except.bind]
      split_ifs
      · rfl
      · cases encodeEnvelope envelope (List.replicate frameMax 0) <;> rfl

/-- The call is the function of the store. -/
theorem putFrame_eq (frame : List UInt8) :
    (putFrame frame : StoreM n frameMax Unit) = ofPure fun store => store.putFrame frame := by
  funext store
  simp only [putFrame, ofPure, Store.putFrame, putValidFrame_eq, Bind.bind, Except.bind]
  split_ifs
  · rfl
  · cases decodeEnvelope frame <;> rfl

/-- The call is the function of the store. -/
theorem remove_eq (messageId : MessageId) :
    (remove messageId : StoreM n frameMax Unit) = ofPure fun store => store.remove messageId := by
  funext store
  simp only [remove, ofPure, Store.remove, ByteCodec.run_get_bind]
  cases store.findIndex messageId <;> rfl

/-- An operation that fails leaves the store as it was. -/
theorem ofPure_error {operation : Store n frameMax → Except StoreError (Store n frameMax)}
    {store store' : Store n frameMax} {error : StoreError}
    (h : ofPure operation store = .error error store') : store' = store := by
  unfold ofPure at h
  split at h
  · cases h
  · cases h
    rfl

end StoreM

/-! ## Both puts are one -/

namespace Store

variable {n frameMax : ℕ}

/-- What a pure operation leaves: its result, or the old store. -/
def settle (store : Store n frameMax) : Except StoreError (Store n frameMax) → Store n frameMax
  | .ok store' => store'
  | .error _ => store

/-- The put of a frame that fits and decodes is the insertion of the record of its envelope. -/
theorem putFrame_of_decodes {store : Store n frameMax} {frame : List UInt8}
    {envelope : HyfEnvelopeRef} (hfits : frame.length ≤ frameMax)
    (hdecode : decodeEnvelope frame = .ok envelope) :
    store.putFrame frame = store.putValidFrame frame (metadataFor envelope) := by
  simp only [putFrame, hdecode, Except.mapError, Except.bind, Bind.bind]
  rw [if_neg (by omega)]

/-- Bytes that decode are the layout of a valid envelope. -/
theorem decodeEnvelope_eq_ok {frame : List UInt8} {envelope : HyfEnvelopeRef}
    (h : decodeEnvelope frame = .ok envelope) :
    ValidEnvelope envelope ∧ frame = wireBytes envelope := by
  have hchecked := Checked.decodeEnvelope_eq frame
  rw [h] at hchecked
  exact (Checked.ends_decodeEnvelope frame).of_ok hchecked

/-- The put of a frame that decodes is the put of its envelope, also when it does not fit. -/
theorem putFrame_eq_putEnvelope {store : Store n frameMax} {frame : List UInt8}
    {envelope : HyfEnvelopeRef} (hdecode : decodeEnvelope frame = .ok envelope) :
    store.putFrame frame = store.putEnvelope envelope := by
  obtain ⟨hvalid, rfl⟩ := decodeEnvelope_eq_ok hdecode
  by_cases hfits : (wireBytes envelope).length ≤ frameMax
  · rw [putFrame_of_decodes hfits hdecode, putEnvelope_of_valid hvalid hfits]
  · have hexpiry : isExpiredAtCreation envelope = false := by
      have := UInt64.not_le.mpr (validEnvelope_iff.mp hvalid).2.1
      simp [isExpiredAtCreation, this]
    simp only [putFrame, putEnvelope, hexpiry, Bool.and_false, Bool.false_eq_true, if_false,
      envelopeEncodedLen_eq hvalid, Except.mapError, Except.bind, Bind.bind]
    rw [if_pos (by omega), if_pos (by omega)]
    rfl

/-- A frame that does not decode is not stored. -/
theorem settle_putFrame_of_invalid {store : Store n frameMax} {frame : List UInt8}
    {error : HyfWireError} (hdecode : decodeEnvelope frame = .error error) :
    store.settle (store.putFrame frame) = store := by
  simp only [putFrame, hdecode, Except.mapError, Bind.bind, Except.bind]
  split_ifs
  · rfl
  · rfl

/-- Encoding an envelope first and putting the frame is putting the envelope. -/
theorem putEnvelope_eq_putFrame {store : Store n frameMax} {envelope : HyfEnvelopeRef}
    {output written : List UInt8} {len : ℕ}
    (h : encodeEnvelope envelope output = .ok (len, written)) :
    store.putEnvelope envelope = store.putFrame (written.take len) := by
  cases hcheck : validateEnvelope envelope with
  | error error =>
    simp only [encodeEnvelope, envelopeEncodedLen_of_invalid hcheck, Bind.bind, Except.bind] at h
    cases h
  | ok =>
    have hvalid : ValidEnvelope envelope := hcheck
    by_cases hroom : (wireBytes envelope).length ≤ output.length
    · rw [encodeEnvelope_eq hvalid hroom] at h
      cases h
      rw [List.take_left, putFrame_eq_putEnvelope (decodeEnvelope_wireBytes hvalid)]
    · rw [encodeEnvelope_of_short hvalid (by omega)] at h
      cases h

end Store

/-! ## Runs -/

/-- The calls that the store offers. -/
inductive StoreCall where
  | putEnvelope (envelope : HyfEnvelopeRef)
  | putFrame (frame : List UInt8)
  | remove (messageId : MessageId)
  | expireBefore (now : TimestampMs)

/-- What a call returns: nothing, or the number of expired records. -/
inductive StoreReply where
  | done
  | expired (removed : ℕ)

/-- Records under their message ids. -/
abbrev RecordMap (n : ℕ) := BoundedMap StoreRecord.messageId n

/-- A put on the map: the record of a valid envelope is inserted if it fits the frame size. -/
def RecordMap.put {n : ℕ} (frameMax : ℕ) (records : RecordMap n) :
    Option HyfEnvelopeRef → RecordMap n
  | some envelope =>
    if (wireBytes envelope).length ≤ frameMax then records.insert (recordOf envelope) else records
  | none => records

namespace StoreCall

variable {n frameMax : ℕ}

/-- Performs a call. -/
def perform : StoreCall → StoreM n frameMax StoreReply
  | putEnvelope envelope => do StoreM.putEnvelope envelope; return .done
  | putFrame frame => do StoreM.putFrame frame; return .done
  | remove messageId => do StoreM.remove messageId; return .done
  | expireBefore now => return .expired (← StoreM.expireBefore now)

/-- The store after a call, whether it succeeded or not. -/
def next (store : Store n frameMax) (call : StoreCall) : Store n frameMax :=
  match call.perform store with
  | .ok _ store' => store'
  | .error _ store' => store'

/-- The call on the map. -/
def apply (frameMax : ℕ) (records : RecordMap n) : StoreCall → RecordMap n
  | putEnvelope envelope =>
    records.put frameMax (if validateEnvelope envelope = .ok () then some envelope else none)
  | putFrame frame => records.put frameMax (decodeEnvelope frame).toOption
  | remove messageId => records.delete messageId
  | expireBefore now => records.filter fun record => now < record.expiresAtMs

/-- A call that fails leaves the store as it was. -/
theorem perform_error {call : StoreCall} {store store' : Store n frameMax} {error : StoreError}
    (h : call.perform store = .error error store') : store' = store := by
  -- the three operations that can fail all put back what a pure operation returns
  have hofPure : ∀ {operation : Store n frameMax → Except StoreError (Store n frameMax)},
      (do StoreM.ofPure operation; return StoreReply.done : StoreM n frameMax StoreReply) store =
        .error error store' → store' = store := by
    intro operation hrun
    change EStateM.bind _ _ store = _ at hrun
    unfold EStateM.bind at hrun
    split at hrun
    · cases hrun
    · rename_i error' middle hoperation
      cases hrun
      exact StoreM.ofPure_error hoperation
  cases call with
  | putEnvelope envelope =>
    rw [perform, StoreM.putEnvelope_eq] at h
    exact hofPure h
  | putFrame frame =>
    rw [perform, StoreM.putFrame_eq] at h
    exact hofPure h
  | remove messageId =>
    rw [perform, StoreM.remove_eq] at h
    exact hofPure h
  | expireBefore now => cases h

/-- The store after a pure operation. -/
theorem next_ofPure {call : StoreCall}
    {f : Store n frameMax → Except StoreError (Store n frameMax)}
    (h : call.perform = (do StoreM.ofPure f; return StoreReply.done))
    (store : Store n frameMax) : next store call = store.settle (f store) := by
  simp only [next, h, Bind.bind, EStateM.bind, StoreM.ofPure]
  cases f store <;> rfl

/-- The state after `put_envelope`. -/
theorem next_putEnvelope (store : Store n frameMax) (envelope : HyfEnvelopeRef) :
    next store (.putEnvelope envelope) = store.settle (store.putEnvelope envelope) :=
  next_ofPure (f := fun store => store.putEnvelope envelope)
    (by rw [perform, StoreM.putEnvelope_eq]) store

/-- The state after `put_frame`. -/
theorem next_putFrame (store : Store n frameMax) (frame : List UInt8) :
    next store (.putFrame frame) = store.settle (store.putFrame frame) :=
  next_ofPure (f := fun store => store.putFrame frame) (by rw [perform, StoreM.putFrame_eq]) store

/-- The state after `remove`. -/
theorem next_remove (store : Store n frameMax) (messageId : MessageId) :
    next store (.remove messageId) = store.settle (store.remove messageId) :=
  next_ofPure (f := fun store => store.remove messageId) (by rw [perform, StoreM.remove_eq]) store

end StoreCall

/-- The empty map after a sequence of calls. -/
def RecordMap.runCalls (n frameMax : ℕ) (calls : List StoreCall) : RecordMap n :=
  calls.foldl (StoreCall.apply frameMax) (BoundedMap.empty _ n)

namespace Store

variable {n frameMax : ℕ}

/-- The insertion of a frame is the insertion of its record in the map. -/
theorem putValidFrame_represents {store : Store n frameMax} {records : RecordMap n}
    (h : store.records.Represents records) (frame : List UInt8) (metadata : StoreMetadata) :
    (store.settle (store.putValidFrame frame metadata)).records.Represents
      (records.insert (.new frame metadata)) := by
  -- the map accepts the record exactly when the scan finds no duplicate and a free slot
  have haccepts := h.accepts_iff (a := StoreRecord.new frame metadata)
  have habsent : store.contains metadata.messageId = false ↔ ∀ record ∈ store.records.live,
      record.messageId ≠ (StoreRecord.new frame metadata).messageId := contains_eq_false_iff
  rw [← habsent] at haccepts
  unfold putValidFrame
  split_ifs with hcontains
  · rw [BoundedMap.insert_eq_self]
    · exact h
    · rw [haccepts, hcontains]
      exact fun hfalse => Bool.noConfusion hfalse.1
  · rw [Bool.not_eq_true] at hcontains
    cases hfree : store.firstFreeIndex with
    | none =>
      simp only
      rw [BoundedMap.insert_eq_self]
      · exact h
      · rw [haccepts]
        exact fun hfull => hfull.2 hfree
    | some index =>
      refine h.insert ?_ hfree
      rw [haccepts]
      exact ⟨hcontains, fun hnone => by rw [firstFreeIndex, hnone] at hfree; cases hfree⟩

/-- A put of a valid envelope does what the map does with its record. -/
theorem putEnvelope_represents {store : Store n frameMax} {records : RecordMap n}
    (h : store.records.Represents records) {envelope : HyfEnvelopeRef}
    (hvalid : ValidEnvelope envelope) :
    (store.settle (store.putEnvelope envelope)).records.Represents
      (records.put frameMax (some envelope)) := by
  simp only [RecordMap.put]
  split_ifs with hfits
  · rw [putEnvelope_of_valid hvalid hfits]
    exact putValidFrame_represents h _ _
  · cases hput : store.putEnvelope envelope with
    | ok store' => exact absurd (putEnvelope_eq_ok hput).fits hfits
    | error error => exact h

/-- **One step**: every call does to the records what it does to the map. -/
theorem next_represents {store : Store n frameMax} {records : RecordMap n}
    (h : store.records.Represents records) (call : StoreCall) :
    (call.next store).records.Represents (call.apply frameMax records) := by
  cases call with
  | putEnvelope envelope =>
    rw [StoreCall.next_putEnvelope, StoreCall.apply]
    by_cases hvalid : validateEnvelope envelope = .ok ()
    · rw [if_pos hvalid]
      exact putEnvelope_represents h hvalid
    · rw [if_neg hvalid]
      cases hput : store.putEnvelope envelope with
      | ok store' => exact absurd (putEnvelope_eq_ok hput).valid hvalid
      | error error => exact h
  | putFrame frame =>
    rw [StoreCall.next_putFrame, StoreCall.apply]
    cases hdecode : decodeEnvelope frame with
    | ok envelope =>
      -- a frame that decodes is put as its envelope is
      rw [putFrame_eq_putEnvelope hdecode]
      exact putEnvelope_represents h (decodeEnvelope_eq_ok hdecode).1
    | error error =>
      rw [settle_putFrame_of_invalid hdecode]
      exact h
  | remove messageId =>
    rw [StoreCall.next_remove, StoreCall.apply, remove]
    cases hfind : store.findIndex messageId with
    | none =>
      have habsent : ∀ record ∈ records.entries, record.messageId ≠ messageId := by
        intro record hmem heq
        have hfalse := SlotArray.findLive_eq_none_iff.mp hfind record (h.mem_iff.mp hmem)
        rw [heq, decide_eq_false_iff_not] at hfalse
        exact hfalse rfl
      rw [BoundedMap.delete_eq_self habsent]
      exact h
    | some index => exact h.delete hfind
  | expireBefore now =>
    apply h.clearWhere _ _
    intro record
    rw [decide_eq_false_iff_not, UInt64.not_le]

/-- Whatever is offered and accepted keeps the invariant of the representation. -/
theorem next_wellFormed {store : Store n frameMax} (h : store.WellFormed) (call : StoreCall) :
    (call.next store).WellFormed := by
  have hput : ∀ envelope, (store.settle (store.putEnvelope envelope)).WellFormed := by
    intro envelope
    cases hput : store.putEnvelope envelope with
    | ok store' => exact h.putEnvelope (putEnvelope_eq_ok hput)
    | error error => exact h
  cases call with
  | putEnvelope envelope =>
    rw [StoreCall.next_putEnvelope]
    exact hput envelope
  | putFrame frame =>
    rw [StoreCall.next_putFrame]
    cases hdecode : decodeEnvelope frame with
    | ok envelope =>
      rw [putFrame_eq_putEnvelope hdecode]
      exact hput envelope
    | error error =>
      rw [settle_putFrame_of_invalid hdecode]
      exact h
  | remove messageId =>
    rw [StoreCall.next_remove]
    cases hremove : store.remove messageId with
    | ok store' => exact h.of_sublist (remove_sublist hremove)
    | error error => exact h
  | expireBefore now => exact h.of_sublist (expireBefore_sublist store now)

/-- A new store after a sequence of calls. -/
def runCalls (policy : StorePolicy) (calls : List StoreCall) : Store n frameMax :=
  calls.foldl StoreCall.next (new policy)

/-- **The run invariant**: the store is well-formed and represents the map. -/
theorem runCalls_invariant (policy : StorePolicy) (calls : List StoreCall) :
    (runCalls policy calls : Store n frameMax).WellFormed ∧
      (runCalls policy calls : Store n frameMax).records.Represents
        (RecordMap.runCalls n frameMax calls) := by
  induction calls using List.reverseRecOn with
  | nil => exact ⟨WellFormed.new policy, SlotArray.represents_empty⟩
  | append_singleton calls call ih =>
    rw [runCalls, RecordMap.runCalls, List.foldl_concat, List.foldl_concat]
    exact ⟨next_wellFormed ih.1 call, next_represents ih.2 call⟩

/-- **The store is a bounded map of decodable frames.** After any calls on a new store the records
have distinct message ids, there are at most `n` of them, and each holds at most `frameMax` bytes,
which decode to an envelope with the record's header fields; a further call that fails changes
nothing; putting an envelope and putting its encoding is the same; and the records are the entries
of the map after the same calls. -/
theorem runCalls_refines (policy : StorePolicy) (calls : List StoreCall) :
    let store : Store n frameMax := runCalls policy calls
    (store.live.map StoreRecord.messageId).Nodup ∧ store.len ≤ n ∧
    (∀ record ∈ store.live, record.bytes.length ≤ frameMax ∧ ∃ envelope,
      decodeEnvelope record.bytes = .ok envelope ∧ envelope.messageId = record.messageId ∧
      envelope.createdAtMs = record.createdAtMs ∧ envelope.expiresAtMs = record.expiresAtMs) ∧
    (∀ (call : StoreCall) error store', call.perform store = .error error store' →
      store' = store) ∧
    (∀ envelope output len written, encodeEnvelope envelope output = .ok (len, written) →
      StoreM.putEnvelope envelope store = StoreM.putFrame (written.take len) store) ∧
    (store.live : Multiset StoreRecord) = (RecordMap.runCalls n frameMax calls).entries := by
  intro store
  obtain ⟨hwellFormed, hrepresents⟩ := runCalls_invariant (n := n) policy calls
  refine ⟨hwellFormed.nodup, SlotArray.length_live_le _, ?_, ?_, ?_, hrepresents⟩
  · intro record hmem
    obtain ⟨envelope, hvalid, hfits, rfl⟩ := hwellFormed.encodes record hmem
    exact ⟨hfits, envelope, decodeEnvelope_wireBytes hvalid, rfl, rfl, rfl⟩
  · intro call error store' hfail
    exact StoreCall.perform_error hfail
  · intro envelope output len written hencode
    rw [StoreM.putEnvelope_eq, StoreM.putFrame_eq]
    simp only [StoreM.ofPure]
    rw [putEnvelope_eq_putFrame hencode]

/-- The put of one message, and then of another. -/
theorem runCalls_sampleEnvelope :
    let store : Store 1 256 :=
      runCalls .new [.putEnvelope (sampleEnvelope 2 (.node ⟨fillBytes 32 7⟩) 3)]
    (store.live : Multiset StoreRecord) =
      {recordOf (sampleEnvelope 2 (.node ⟨fillBytes 32 7⟩) 3)} ∧
    StoreM.putEnvelope (sampleEnvelope 4 (.node ⟨fillBytes 32 7⟩) 3) store =
      StoreM.putFrame (wireBytes (sampleEnvelope 4 (.node ⟨fillBytes 32 7⟩) 3)) store := by
  intro store
  have hvalid := validEnvelope_sampleEnvelope
  obtain ⟨-, -, -, -, hputs, hentries⟩ := @runCalls_refines 1 256 .new
    [.putEnvelope (sampleEnvelope 2 (.node ⟨fillBytes 32 7⟩) 3)]
  constructor
  · have hcheck : validateEnvelope (sampleEnvelope 2 (.node ⟨fillBytes 32 7⟩) 3) = .ok () :=
      hvalid 2 _ 3
    have hfits : (wireBytes (sampleEnvelope 2 (.node ⟨fillBytes 32 7⟩) 3)).length ≤ 256 := by decide
    apply hentries.trans
    simp only [RecordMap.runCalls, List.foldl_cons, List.foldl_nil, StoreCall.apply, hcheck, if_true,
      RecordMap.put, if_pos hfits]
    rw [BoundedMap.entries_insert ⟨by simp [BoundedMap.empty], by simp [BoundedMap.empty]⟩]
    rfl
  · have hencode := encodeEnvelope_eq (hvalid 4 (.node ⟨fillBytes 32 7⟩) 3) le_rfl
    have hsame := hputs _ _ _ _ hencode
    rwa [List.take_left] at hsame

end Store

end Hyf
