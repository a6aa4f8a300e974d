import Hyf.RNodeSerial.Port
import Hyf.RNodeSerial.Rejected
import Hyf.Wire.EnvelopeTheorems

/-!
# Sends that fail

A frame goes to the port in pieces. A send that fails between two of them leaves its frame open on the
line, and the next frame's opening `FEND` closes it: the other side is then handed a frame that was
never sent. So what is on the line decodes to the payloads of the successful sends exactly as long as no
send writes behind one that was torn.
-/

namespace Hyf.RNodeSerial

open RNodeSerialLink

variable {frameMax : ℕ} {π : Type}

/-! ## Runs of calls -/

/-- One call in a run: the port behaves differently from now on (bytes arrive, its calls fail or work
again), a send, or a poll. -/
inductive LinkCall (π : Type) where
  | port (reads : List ReadResult) (writes : List (Except RNodeSerialError Unit))
  | send (bytes : List UInt8)
  | poll (call : Poll π)

namespace LinkCall

/-- The link after a call. -/
def run (call : LinkCall π) (link : RNodeSerialLink frameMax) : RNodeSerialLink frameMax :=
  match call with
  | port reads writes => { link with io := { link.io with reads, writes } }
  | send bytes => (sendGatewayBytes bytes link).state
  | poll call => (call.run link).2

/-- The payload of a send that returns `Ok`. -/
def sent (call : LinkCall π) (link : RNodeSerialLink frameMax) : Option (List UInt8) :=
  match call with
  | send bytes =>
    match sendGatewayBytes bytes link with
    | .ok _ _ => (link.payloadForSend bytes).toOption
    | .error _ _ => none
  | port .. => none
  | poll .. => none

/-- Calls one after the other; the outputs are the payloads of the sends that return `Ok`. -/
def step : Mealy (RNodeSerialLink frameMax) (LinkCall π) (List UInt8) := fun link call =>
  (call.run link, call.sent link)

/-- The call is a send that is not refused and whose first write succeeds. -/
def Starts (call : LinkCall π) (link : RNodeSerialLink frameMax) (payload : List UInt8) : Prop :=
  ∃ bytes, call = send bytes ∧ link.Admits bytes payload ∧
    ∀ error, link.io.writes.head? ≠ some (.error error)

/-- The call is a send whose first write succeeds, and one of the others fails: there are two writes
around those of the payload. -/
def Tears (call : LinkCall π) (link : RNodeSerialLink frameMax) : Prop :=
  ∃ payload, call.Starts link payload ∧ ∃ error, .error error ∈ link.io.writes.take (payload.length + 2)

/-- What a call does to the line, and which payload it reports as sent. -/
inductive Effect (call : LinkCall π) (link : RNodeSerialLink frameMax) : Prop
  | quiet (starts : ∀ payload, ¬call.Starts link payload) (sent_eq : call.sent link = none)
      (written_eq : (call.run link).io.written = link.io.written)
  | torn (tears : call.Tears link) (sent_eq : call.sent link = none) (cut : List UInt8)
      (length_le : cut.length ≤ link.config.mtu)
      (written_eq : (call.run link).io.written =
        link.io.written ++ ([kissFend, kissCmdData] ++ stuff cut))
  | whole (payload : List UInt8) (starts : call.Starts link payload) (tears : ¬call.Tears link)
      (sent_eq : call.sent link = some payload) (length_le : payload.length ≤ link.config.mtu)
      (written_eq : (call.run link).io.written = link.io.written ++ frameBytes kissCmdData payload)

end LinkCall

/-- A frame is written in as many pieces as its payload has bytes, and two. -/
theorem length_framePieces (command : UInt8) (payload : List UInt8) :
    (framePieces command payload).length = payload.length + 2 := by
  simp [framePieces]

/-- The pieces of a frame before its last are its opening and the beginning of the payload. -/
theorem framePieces_eq_append {command : UInt8} {payload : List UInt8} {done rest : List (List UInt8)}
    (h : framePieces command payload = done ++ rest) (hdone : done ≠ []) (hrest : rest ≠ []) :
    ∃ cut, cut.length ≤ payload.length ∧ done.flatten = [kissFend, command] ++ stuff cut := by
  obtain ⟨first, done, rfl⟩ := List.exists_cons_of_ne_nil hdone
  rw [framePieces, List.cons_append, List.cons.injEq] at h
  obtain ⟨rfl, h⟩ := h
  -- the closing piece is in the rest
  obtain ⟨rest, last, rfl⟩ := List.eq_nil_or_concat rest |>.resolve_left hrest
  rw [List.concat_eq_append, ← List.append_assoc] at h
  obtain ⟨hpayload, -⟩ := List.append_inj' h rfl
  refine ⟨payload.take done.length, List.length_take_le' _ _, ?_⟩
  have htake := congrArg (List.take done.length) hpayload
  rw [List.take_left, ← List.map_take] at htake
  rw [List.flatten_cons, stuff, List.flatMap_def, htake]

namespace LinkCall

/-- **What a call does**: it writes nothing, it tears a frame, or it sends one. -/
theorem effect (call : LinkCall π) (link : RNodeSerialLink frameMax) : call.Effect link := by
  cases call with
  | port reads writes => exact .quiet (by rintro _ ⟨_, h, -⟩; cases h) rfl rfl
  | poll poll =>
    exact .quiet (by rintro _ ⟨_, h, -⟩; cases h) rfl (poll.polled_run link).written_eq
  | send bytes =>
    by_cases hadmits : ∃ payload, link.Admits bytes payload
    · obtain ⟨payload, hadmits⟩ := hadmits
      rcases writePieces_cases (framePieces kissCmdData payload) link.io with
        ⟨io, hwrote⟩ | ⟨done, rest, error, io, hpieces, hwrote⟩
      · have hsend := sendGatewayBytes_written hadmits (by rw [writeKissFrame_eq, hwrote.run_eq])
        have hsucceed := hwrote.succeed
        rw [length_framePieces] at hsucceed
        refine .whole payload ⟨bytes, rfl, hadmits, ?_⟩ ?_ ?_ hadmits.length_le ?_
        · intro error herror
          obtain ⟨writes, hwrites⟩ := List.head?_eq_some_iff.mp herror
          have hfirst := hsucceed (.error error) (by simp [hwrites])
          cases hfirst
        · rintro ⟨payload', ⟨_, h, hadmits', -⟩, error, herror⟩
          cases h
          obtain rfl := hadmits'.payload_unique hadmits
          cases hsucceed _ herror
        · rw [sent, hsend]
          simp only
          rw [hadmits.payload_eq]
          rfl
        · rw [run, hsend, ← flatten_framePieces]
          exact hwrote.written_eq
      · have hsend := sendGatewayBytes_failed hadmits (by rw [writeKissFrame_eq, hpieces, hwrote.run_eq])
        have hsent : (send bytes : LinkCall π).sent link = none := by rw [sent, hsend]
        by_cases hdone : done = []
        · -- the first write failed
          refine .quiet ?_ hsent ?_
          · rintro payload' ⟨_, h, -, hfirst⟩
            apply hfirst error
            rw [hwrote.writes_eq, hdone]
            rfl
          · rw [run, hsend]
            show io.written = _
            rw [hwrote.written_eq, hdone, List.flatten_nil, List.append_nil]
        · obtain ⟨cut, hcut, hflatten⟩ := framePieces_eq_append hpieces hdone hwrote.rest_ne_nil
          have hlen : done.length < payload.length + 2 := by
            have hpos := List.length_pos_iff.mpr hwrote.rest_ne_nil
            rw [← length_framePieces kissCmdData, hpieces, List.length_append]
            omega
          refine .torn ⟨payload, ⟨bytes, rfl, hadmits, ?_⟩, error, ?_⟩ hsent cut
            (hcut.trans hadmits.length_le) ?_
          · intro error herror
            obtain ⟨first, done, rfl⟩ := List.exists_cons_of_ne_nil hdone
            rw [hwrote.writes_eq] at herror
            cases herror
          · apply List.mem_take_iff_getElem.mpr
            refine ⟨done.length, ?_, ?_⟩
            · rw [hwrote.writes_eq]
              simpa using hlen
            · simp [hwrote.writes_eq]
          · rw [run, hsend, ← hflatten]
            exact hwrote.written_eq
    · obtain ⟨error, hrefused⟩ := sendGatewayBytes_refused (not_exists.mp hadmits)
      refine .quiet ?_ ?_ ?_
      · rintro payload ⟨_, h, hsend, -⟩
        cases h
        exact hadmits ⟨payload, hsend⟩
      · rw [sent, hrefused]
      · rw [run, hrefused]
        rfl

/-- A call does not change the configuration. -/
theorem run_config (call : LinkCall π) (link : RNodeSerialLink frameMax) :
    (call.run link).config = link.config := by
  cases call with
  | port reads writes => rfl
  | poll call => exact (call.polled_run link).config_eq
  | send bytes =>
    rcases sendGatewayBytes_cases link bytes with
      ⟨error, hsend⟩ | ⟨payload, error, io, -, -, hsend⟩ | ⟨payload, io, -, -, hsend⟩
    all_goals
      rw [run, hsend]
      rfl

end LinkCall

/-! ## The line -/

/-- A fresh decoder is handed `frames` out of the bytes, and a frame is left open or not. -/
structure OnLine (capacity : ℕ) (bytes : List UInt8) (frames : List KissFrameRef)
    (opened : Option KissFrameRef) : Prop where
  decoded : ∃ decoder : KissDecoder capacity,
    KissDecoder.next.Runs (KissDecoder.new capacity) bytes (frames.map .ok) decoder ∧
      decoder.Idle ∧ decoder.openFrame = opened

section OnLine

variable {capacity : ℕ} {bytes : List UInt8} {frames : List KissFrameRef}
  {opened : Option KissFrameRef}

/-- An empty line. -/
theorem onLine_nil : OnLine capacity [] [] none :=
  ⟨KissDecoder.new capacity, Mealy.Runs.nil _, KissDecoder.idle_new, rfl⟩

/-- A whole frame is handed over behind the one that was open. -/
theorem OnLine.whole (h : OnLine capacity bytes frames opened) {payload : List UInt8}
    (hfit : 1 + payload.length ≤ capacity) :
    OnLine capacity (bytes ++ frameBytes kissCmdData payload)
      (frames ++ (opened.toList ++ [⟨kissCmdData, payload⟩])) none := by
  obtain ⟨decoder, hruns, hidle, rfl⟩ := h.decoded
  refine ⟨KissDecoder.boundary capacity, ?_, KissDecoder.idle_boundary, rfl⟩
  rw [List.map_append]
  exact hruns.append (KissDecoder.runs_frameBytes hidle (by decide) (by decide) hfit)

/-- The beginning of a frame hands over the one that was open, and is then open itself. -/
theorem OnLine.torn (h : OnLine capacity bytes frames opened) {cut : List UInt8}
    (hfit : 1 + cut.length ≤ capacity) :
    OnLine capacity (bytes ++ ([kissFend, kissCmdData] ++ stuff cut)) (frames ++ opened.toList)
      (some ⟨kissCmdData, cut⟩) := by
  obtain ⟨decoder, hruns, hidle, rfl⟩ := h.decoded
  have hfit' : (kissCmdData :: cut).length ≤ capacity := by
    rw [List.length_cons]
    omega
  refine ⟨KissDecoder.inside (kissCmdData :: cut) hfit', ?_, KissDecoder.idle_of_inFrame rfl, rfl⟩
  rw [List.map_append]
  exact hruns.append (KissDecoder.runs_frame_body hidle (by decide) (by decide) hfit')

end OnLine

/-- A fresh decoder decodes the bytes without an error, and hands over exactly these frames. -/
def Decodes (capacity : ℕ) (bytes : List UInt8) (frames : List KissFrameRef) : Prop :=
  ∃ decoder : KissDecoder capacity,
    KissDecoder.pushBytes (KissDecoder.accept List.concat) bytes
      (KissDecoder.new capacity, ([] : List KissFrameRef)) = .ok () (decoder, frames)

/-- Appending one after the other. -/
theorem foldl_concat {α : Type*} (list rest : List α) : rest.foldl List.concat list = list ++ rest := by
  induction rest generalizing list with
  | nil => exact (List.append_nil list).symm
  | cons head rest ih => rw [List.foldl_cons, ih, List.concat_eq_append, List.append_assoc]; rfl

/-- What is on the line determines what is decoded. -/
theorem OnLine.decodes_iff {capacity : ℕ} {bytes : List UInt8} {frames : List KissFrameRef}
    {opened : Option KissFrameRef} (h : OnLine capacity bytes frames opened)
    (frames' : List KissFrameRef) : Decodes capacity bytes frames' ↔ frames' = frames := by
  obtain ⟨decoder, hruns, -⟩ := h.decoded
  have hpush := KissDecoder.pushBytes_accept hruns List.concat ([] : List KissFrameRef)
  rw [foldl_concat, List.nil_append] at hpush
  constructor
  · rintro ⟨decoder', hpush'⟩
    rw [hpush] at hpush'
    cases hpush'
    rfl
  · rintro rfl
    exact ⟨decoder, hpush⟩

/-! ## Whole runs -/

/-- Some call of the run tears a frame. -/
def SomeTorn (link : RNodeSerialLink frameMax) (calls : List (LinkCall π)) : Prop :=
  ∃ before call after, calls = before ++ call :: after ∧ call.Tears (LinkCall.step.final link before)

/-- Some call of the run starts a frame after an earlier one has torn a frame. -/
def StartsBehindTorn (link : RNodeSerialLink frameMax) (calls : List (LinkCall π)) : Prop :=
  ∃ before call after payload, calls = before ++ call :: after ∧ SomeTorn link before ∧
    call.Starts (LinkCall.step.final link before) payload

/-- A frame is torn in more calls if it was before, or in the last one. -/
theorem someTorn_concat {link : RNodeSerialLink frameMax} {calls : List (LinkCall π)}
    {call : LinkCall π} : SomeTorn link (calls ++ [call]) ↔
      SomeTorn link calls ∨ call.Tears (LinkCall.step.final link calls) := by
  constructor
  · rintro ⟨before, call', after, hsplit, htears⟩
    rcases LoggedSteps.concat_eq_append_cons hsplit with ⟨rest, hcalls, -⟩ | ⟨rfl, rfl, -⟩
    · exact .inl ⟨before, call', rest, hcalls, htears⟩
    · exact .inr htears
  · rintro (⟨before, call', after, rfl, htears⟩ | htears)
    · exact ⟨before, call', after ++ [call], by simp, htears⟩
    · exact ⟨calls, call, [], rfl, htears⟩

/-- A frame starts behind a torn one in more calls if one did before, or the last one does. -/
theorem startsBehindTorn_concat {link : RNodeSerialLink frameMax} {calls : List (LinkCall π)}
    {call : LinkCall π} : StartsBehindTorn link (calls ++ [call]) ↔
      StartsBehindTorn link calls ∨
        SomeTorn link calls ∧ ∃ payload, call.Starts (LinkCall.step.final link calls) payload := by
  constructor
  · rintro ⟨before, call', after, payload, hsplit, htorn, hstarts⟩
    rcases LoggedSteps.concat_eq_append_cons hsplit with ⟨rest, hcalls, -⟩ | ⟨rfl, rfl, -⟩
    · exact .inl ⟨before, call', rest, payload, hcalls, htorn, hstarts⟩
    · exact .inr ⟨htorn, payload, hstarts⟩
  · rintro (⟨before, call', after, payload, rfl, htorn, hstarts⟩ | ⟨htorn, payload, hstarts⟩)
    · exact ⟨before, call', after ++ [call], payload, by simp, htorn, hstarts⟩
    · exact ⟨calls, call, [], payload, rfl, htorn, hstarts⟩

/-- The frames of the payloads that were sent. -/
def dataFrames (payloads : List (List UInt8)) : List KissFrameRef :=
  payloads.map (KissFrameRef.mk kissCmdData)

/-- What is on the line after a run: the frames of the successful sends, with a frame left open once
some send was torn; and strictly more frames than successful sends once a send has started behind. -/
structure LineAfter (capacity : ℕ) (link : RNodeSerialLink frameMax) (calls : List (LinkCall π)) :
    Prop where
  line : ∃ frames opened,
    OnLine capacity (LinkCall.step.final link calls).io.written frames opened ∧
    (¬StartsBehindTorn link calls → frames = dataFrames (LinkCall.step.outputs link calls) ∧
      (opened.isSome = true ↔ SomeTorn link calls)) ∧
    (StartsBehindTorn link calls → (LinkCall.step.outputs link calls).length < frames.length)
  config_eq : (LinkCall.step.final link calls).config = link.config

/-- What is on the line after any calls. -/
theorem lineAfter {capacity : ℕ} {link : RNodeSerialLink frameMax} (hwritten : link.io.written = [])
    (hcapacity : link.config.mtu < capacity) (calls : List (LinkCall π)) :
    LineAfter capacity link calls := by
  induction calls using List.reverseRecOn with
  | nil =>
    refine ⟨⟨[], none, ?_, ?_, ?_⟩, rfl⟩
    · rw [Mealy.final_nil, hwritten]
      exact onLine_nil
    · intro _
      refine ⟨rfl, by simp, ?_⟩
      rintro ⟨before, call, after, hsplit, -⟩
      simp at hsplit
    · rintro ⟨before, call, after, payload, hsplit, -⟩
      simp at hsplit
  | append_singleton calls call ih =>
    obtain ⟨⟨frames, opened, hline, hgood, hbad⟩, hconfig⟩ := ih
    have hfinal : LinkCall.step.final link (calls ++ [call]) =
        call.run (LinkCall.step.final link calls) := Mealy.final_append _ _ _ _
    have houtputs : LinkCall.step.outputs link (calls ++ [call]) =
        LinkCall.step.outputs link calls ++ (call.sent (LinkCall.step.final link calls)).toList := by
      rw [Mealy.outputs_append, Mealy.outputs_cons, Mealy.outputs_nil, List.append_nil]
      rfl
    refine ⟨?_, by rw [hfinal, LinkCall.run_config, hconfig]⟩
    rw [hfinal, houtputs, startsBehindTorn_concat, someTorn_concat]
    cases call.effect (LinkCall.step.final link calls) with
    | quiet hstarts hsent hwritten =>
      have htears : ¬call.Tears (LinkCall.step.final link calls) := by
        rintro ⟨payload, hstart, -⟩
        exact hstarts payload hstart
      rw [hwritten, hsent, Option.toList_none, List.append_nil]
      refine ⟨frames, opened, hline, ?_, ?_⟩
      · intro hnot
        rw [or_iff_left htears]
        exact hgood (not_or.mp hnot).1
      · rintro (hbehind | ⟨-, payload, hstart⟩)
        · exact hbad hbehind
        · exact absurd hstart (hstarts payload)
    | torn htears hsent cut hlen hwritten =>
      have hstart : ∃ payload, call.Starts (LinkCall.step.final link calls) payload := by
        obtain ⟨payload, hstart, -⟩ := htears
        exact ⟨payload, hstart⟩
      rw [hwritten, hsent, Option.toList_none, List.append_nil]
      refine ⟨_, _, hline.torn (by rw [hconfig] at hlen; omega), ?_, ?_⟩
      · intro hnot
        obtain ⟨hnot, hclean⟩ := not_or.mp hnot
        obtain ⟨hframes, hopened⟩ := hgood hnot
        have hnone : opened = none := by
          rw [← Option.not_isSome_iff_eq_none, hopened]
          exact fun htorn => hclean ⟨htorn, hstart⟩
        rw [hnone, Option.toList_none, List.append_nil]
        exact ⟨hframes, iff_of_true rfl (.inr htears)⟩
      · rw [List.length_append]
        intro hbehind
        by_cases hbefore : StartsBehindTorn link calls
        · exact Nat.lt_add_right _ (hbad hbefore)
        · -- the frame that was open is handed over
          obtain ⟨hframes, hopened⟩ := hgood hbefore
          obtain ⟨frame, rfl⟩ :=
            Option.isSome_iff_exists.mp (hopened.mpr (hbehind.resolve_left hbefore).1)
          rw [hframes, dataFrames, List.length_map]
          exact Nat.lt_succ_self _
    | whole payload hstart htears hsent hlen hwritten =>
      rw [hwritten, hsent, Option.toList_some]
      refine ⟨_, _, hline.whole (by rw [hconfig] at hlen; omega), ?_, ?_⟩
      · intro hnot
        obtain ⟨hnot, hclean⟩ := not_or.mp hnot
        obtain ⟨hframes, hopened⟩ := hgood hnot
        have htorn : ¬SomeTorn link calls := fun htorn => hclean ⟨htorn, payload, hstart⟩
        have hnone : opened = none := by
          rw [← Option.not_isSome_iff_eq_none, hopened]
          exact htorn
        rw [hnone, Option.toList_none, List.nil_append, hframes, dataFrames, dataFrames,
          List.map_append, or_iff_left htears]
        exact ⟨rfl, iff_of_false (by simp) htorn⟩
      · simp only [List.length_append, List.length_singleton]
        intro hbehind
        by_cases hbefore : StartsBehindTorn link calls
        · have hlt := hbad hbefore
          omega
        · obtain ⟨hframes, hopened⟩ := hgood hbefore
          obtain ⟨frame, rfl⟩ :=
            Option.isSome_iff_exists.mp (hopened.mpr (hbehind.resolve_left hbefore).1)
          rw [hframes, dataFrames, List.length_map, Option.toList_some, List.length_singleton]
          omega

/-- **Failed sends.** The bytes on the line decode to exactly the payloads of the successful sends if
and only if no send has started to write after an earlier one failed half-way. -/
theorem decodes_sent_iff {config : RNodeSerialConfig} {io : SerialPort} {link : RNodeSerialLink frameMax}
    (hnew : RNodeSerialLink.new config io = .ok link) (hwritten : io.written = []) {capacity : ℕ}
    (hcapacity : config.mtu < capacity) (calls : List (LinkCall π)) :
    Decodes capacity (LinkCall.step.final link calls).io.written
        (dataFrames (LinkCall.step.outputs link calls)) ↔
      ¬StartsBehindTorn link calls := by
  obtain ⟨hconfig, hio, -⟩ := new_eq_ok hnew
  obtain ⟨⟨frames, opened, hline, hgood, hbad⟩, -⟩ :=
    lineAfter (hio ▸ hwritten) (hconfig ▸ hcapacity) calls
  rw [hline.decodes_iff]
  constructor
  · intro hframes hbehind
    have hlt := hbad hbehind
    rw [← hframes, dataFrames, List.length_map] at hlt
    exact absurd hlt (Nat.lt_irrefl _)
  · intro hnot
    exact (hgood hnot).1.symm

/-- A link whose second write fails. -/
def tornLink : RNodeSerialLink 128 where
  config := ⟨⟨fillBytes 16 1⟩, 120, false, .hyfEnvelope⟩
  io := ⟨[], [.ok (), .error .injectedWriteFailure], []⟩
  state := RNodeState.new false
  decoder := KissDecoder.new 128
  pending := none
  capacity := Nat.le_of_ble_eq_true rfl

def tornEnvelope : List UInt8 := wireBytes (sampleEnvelope 7 (.community ⟨fillBytes 16 9⟩) 1)

/-- The same envelope is sent until it succeeds. -/
def tornCalls : List (LinkCall Unit) := [.send tornEnvelope, .send tornEnvelope]

/-- A single torn send leaves nothing that is decoded wrongly. -/
theorem decodes_sent_tornLink :
    Decodes 121 (LinkCall.step.final tornLink (tornCalls.take 1)).io.written
        (dataFrames (LinkCall.step.outputs tornLink (tornCalls.take 1))) ↔
      ¬StartsBehindTorn tornLink (tornCalls.take 1) :=
  @decodes_sent_iff _ _ tornLink.config tornLink.io tornLink rfl rfl 121 (by decide) _

/-- The bytes of the sample: a torn frame and a whole one. -/
theorem written_tornCalls : (LinkCall.step.final tornLink tornCalls).io.written =
    [] ++ ([kissFend, kissCmdData] ++ stuff []) ++ frameBytes kissCmdData tornEnvelope := by
  decide +kernel

/-- One frame was sent. -/
theorem sent_tornCalls : LinkCall.step.outputs tornLink tornCalls = [tornEnvelope] := by
  decide +kernel

/-- The retry succeeds, and the line carries a frame that was never sent. -/
theorem not_decodes_tornCalls :
    ¬Decodes 121 (LinkCall.step.final tornLink tornCalls).io.written
        (dataFrames (LinkCall.step.outputs tornLink tornCalls)) := by
  have htorn := (@onLine_nil 121).torn (show 1 + ([] : List UInt8).length ≤ 121 by decide)
  have hfit : 1 + tornEnvelope.length ≤ 121 := by decide
  rw [written_tornCalls, sent_tornCalls, (htorn.whole hfit).decodes_iff]
  simp [dataFrames]

end Hyf.RNodeSerial
