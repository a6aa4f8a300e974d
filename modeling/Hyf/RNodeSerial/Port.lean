import Hyf.Kiss.KissTheorems
import Hyf.RNodeSerial.Link

/-!
# Writing a frame to the port

`write_kiss_frame` escapes on its own and writes a frame in pieces: the opening pair, one piece for
each payload byte, and the closing byte. Together the pieces are the frame; a write that fails leaves
the port with the pieces before it.
-/

namespace Hyf.RNodeSerial

/-- The pieces of a frame, each written by one call. -/
def framePieces (command : UInt8) (payload : List UInt8) : List (List UInt8) :=
  [kissFend, command] :: (payload.map stuffByte ++ [[kissFend]])

theorem flatten_framePieces (command : UInt8) (payload : List UInt8) :
    (framePieces command payload).flatten = frameBytes command payload := by
  simp [framePieces, frameBytes, stuff, List.flatMap]

def writePieces (pieces : List (List UInt8)) : EStateM RNodeSerialError SerialPort Unit :=
  pieces.forM SerialPort.writeAll

/-- The payload loop writes the piece of its first byte and goes on. -/
theorem writeKissPayload_cons (byte : UInt8) (payload : List UInt8) :
    writeKissPayload (byte :: payload) =
      SerialPort.writeAll (stuffByte byte) >>= fun _ => writeKissPayload payload := by
  rw [writeKissPayload]
  unfold stuffByte
  by_cases hfend : byte = kissFend
  · rw [if_pos hfend, if_pos hfend]
  · rw [if_neg hfend, if_neg hfend]
    by_cases hfesc : byte = kissFesc
    · rw [if_pos hfesc, if_pos hfesc]
    · rw [if_neg hfesc, if_neg hfesc]

theorem writeKissPayload_eq (payload : List UInt8) :
    writeKissPayload payload = writePieces (payload.map stuffByte) := by
  induction payload with
  | nil => rfl
  | cons byte payload ih =>
    rw [writeKissPayload_cons, ih]
    rfl

theorem writePieces_singleton (piece : List UInt8) :
    writePieces [piece] = SerialPort.writeAll piece := by
  funext port
  show EStateM.bind (SerialPort.writeAll piece) (fun _ => pure ()) port = _
  simp only [EStateM.bind]
  cases SerialPort.writeAll piece port <;> rfl

/-- **The second escaper** writes the pieces of the frame. -/
theorem writeKissFrame_eq (command : UInt8) (payload : List UInt8) :
    writeKissFrame command payload = writePieces (framePieces command payload) := by
  have happend : writePieces (payload.map stuffByte ++ [[kissFend]]) =
      writePieces (payload.map stuffByte) >>= fun _ => writePieces [[kissFend]] := List.forM_append
  show _ = SerialPort.writeAll [kissFend, command] >>= fun _ => writePieces _
  rw [happend, ← writeKissPayload_eq, writePieces_singleton]
  rfl

/-! ## How the writes end -/

/-- All pieces were written: none of the calls was to fail. -/
structure WroteAll (port : SerialPort) (pieces : List (List UInt8)) (port' : SerialPort) : Prop where
  run_eq : writePieces pieces port = .ok () port'
  succeed : ∀ result ∈ port.writes.take pieces.length, result = .ok ()
  written_eq : port'.written = port.written ++ pieces.flatten
  reads_eq : port'.reads = port.reads
  writes_eq : port'.writes = port.writes.drop pieces.length

/-- The pieces `done` were written, then a call failed. -/
structure WroteSome (port : SerialPort) (done rest : List (List UInt8)) (error : RNodeSerialError)
    (port' : SerialPort) : Prop where
  run_eq : writePieces (done ++ rest) port = .error error port'
  rest_ne_nil : rest ≠ []
  written_eq : port'.written = port.written ++ done.flatten
  reads_eq : port'.reads = port.reads
  writes_eq : port.writes = List.replicate done.length (.ok ()) ++ .error error :: port'.writes

/-- Writes end in one of the two ways. -/
theorem writePieces_cases (pieces : List (List UInt8)) (port : SerialPort) :
    (∃ port', WroteAll port pieces port') ∨
      ∃ done rest error port', pieces = done ++ rest ∧ WroteSome port done rest error port' := by
  induction pieces generalizing port with
  | nil => exact .inl ⟨port, rfl, by simp, (List.append_nil _).symm, rfl, rfl⟩
  | cons piece pieces ih =>
    obtain ⟨reads, writes, written⟩ := port
    -- the first call either fails or leaves the other pieces to a port that has this one
    have hstep (writes' : List (Except RNodeSerialError Unit))
        (hfirst : SerialPort.writeAll piece ⟨reads, writes, written⟩ =
          .ok () ⟨reads, writes', written ++ piece⟩) (pieces : List (List UInt8)) :
        writePieces (piece :: pieces) ⟨reads, writes, written⟩ =
          writePieces pieces ⟨reads, writes', written ++ piece⟩ := by
      exact ByteCodec.run_bind_of_ok hfirst _
    match writes with
    | .error error :: writes =>
      exact .inr ⟨[], piece :: pieces, error, ⟨reads, writes, written⟩, rfl, rfl, by simp,
        (List.append_nil _).symm, rfl, rfl⟩
    | [] =>
      rcases ih ⟨reads, [], written ++ piece⟩ with
        ⟨port', h⟩ | ⟨done, rest, error, port', -, h⟩
      · refine .inl ⟨port', ?_, by simp, ?_, h.reads_eq, by simpa using h.writes_eq⟩
        · rw [hstep [] rfl, h.run_eq]
        · rw [h.written_eq, List.append_assoc, List.flatten_cons]
      · have hwrites := h.writes_eq
        simp at hwrites
    | .ok () :: writes =>
      rcases ih ⟨reads, writes, written ++ piece⟩ with
        ⟨port', h⟩ | ⟨done, rest, error, port', rfl, h⟩
      · refine .inl ⟨port', ?_, ?_, ?_, h.reads_eq, h.writes_eq⟩
        · rw [hstep writes rfl, h.run_eq]
        · simpa using h.succeed
        · rw [h.written_eq, List.append_assoc, List.flatten_cons]
      · refine .inr ⟨piece :: done, rest, error, port', rfl, ?_, h.rest_ne_nil, ?_, h.reads_eq, ?_⟩
        · rw [List.cons_append, hstep writes rfl, h.run_eq]
        · rw [h.written_eq, List.append_assoc, List.flatten_cons]
        · rw [show writes = _ from h.writes_eq]
          rfl

/-- On a port where no write fails, everything is written. -/
theorem wroteAll_of_writes {port : SerialPort} (h : port.writes = []) (pieces : List (List UInt8)) :
    ∃ port', WroteAll port pieces port' := by
  rcases writePieces_cases pieces port with hwrote | ⟨done, rest, error, port', -, hwrote⟩
  · exact hwrote
  · have hused := hwrote.writes_eq
    rw [h] at hused
    simp at hused

/-- A write that fails has used up a result of the port. -/
theorem WroteSome.port_ne {port port' : SerialPort} {done rest : List (List UInt8)}
    {error : RNodeSerialError} (h : WroteSome port done rest error port') : port' ≠ port := by
  rintro rfl
  have hlen := congrArg List.length h.writes_eq
  simp only [List.length_append, List.length_cons] at hlen
  omega

end Hyf.RNodeSerial
