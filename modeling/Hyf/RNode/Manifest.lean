import Hyf.Common.Checks
import Hyf.Common.JsonSpaced
import Hyf.Common.LoggedSteps
import Hyf.RNode.Timestamp

/-!
# The report of a hardware test (`hyf_link_rnode::hil`)

The report is written as JSON in pieces, a line for every entry. `manifestJson_written` says that the
text is that of one document with the value of the report, also where its texts contain control
characters, and that a writer that fails on the way holds the front of it.
-/

namespace Hyf.RNodeHil

open ByteCodec JsonText

def rnodeHilManifestSchema : String := "hyf.rnode.hil.v1"

/-- How a check ended. -/
inductive RNodeHilCheckStatus where
  | passed
  | failed
  | skipped
  deriving DecidableEq

/-- `as_str`. -/
def RNodeHilCheckStatus.asStr : RNodeHilCheckStatus → String
  | .passed => "passed"
  | .failed => "failed"
  | .skipped => "skipped"

/-- One check of a run, with what there is to say about it. -/
structure RNodeHilCheck where
  id : String
  status : RNodeHilCheckStatus
  detail : Option String
  deriving DecidableEq

/-- The report of a run. -/
structure RNodeHilManifest where
  runId : String
  generatedAt : String
  port : String
  baud : UInt32
  hardwareModel : Option String
  firmwareVersion : Option String
  allowRfTx : Bool
  transmissionPerformed : Bool
  checks : List RNodeHilCheck
  deriving DecidableEq

/-- `io` carries an error of the writer. -/
inductive RNodeHilManifestError where
  | emptyRunId
  | emptyGeneratedAt
  | invalidGeneratedAt
  | emptyPort
  | invalidBaud
  | emptyChecks
  | emptyCheckId
  | rfTransmissionAllowed
  | rfTransmissionRecorded
  | io (code : ℕ)
  deriving DecidableEq

/-- `validate_hil_manifest`. -/
def validateHilManifest (manifest : RNodeHilManifest) : Except RNodeHilManifestError Unit := do
  if manifest.runId = "" then
    throw .emptyRunId
  if manifest.generatedAt = "" then
    throw .emptyGeneratedAt
  if !isUtcRfc3339Timestamp manifest.generatedAt then
    throw .invalidGeneratedAt
  if manifest.port = "" then
    throw .emptyPort
  if manifest.baud = 0 then
    throw .invalidBaud
  if manifest.allowRfTx then
    throw .rfTransmissionAllowed
  if manifest.transmissionPerformed then
    throw .rfTransmissionRecorded
  if manifest.checks = [] then
    throw .emptyChecks
  if manifest.checks.any fun check => check.id = "" then
    throw .emptyCheckId

/-! ## Writing -/

/-- `char::is_control`. -/
def isControl (character : Char) : Bool :=
  character.toNat ≤ 0x1f || (0x7f ≤ character.toNat && character.toNat ≤ 0x9f)

/-- A digit of `{:x}`. -/
def hexByte (digit : ℕ) : UInt8 := UInt8.ofNat (if digit < 10 then 0x30 + digit else 0x57 + digit)

/-- `{:04x}` of a control character. -/
def hexBytes (code : ℕ) : List UInt8 :=
  [hexByte (code / 4096 % 16), hexByte (code / 256 % 16), hexByte (code / 16 % 16), hexByte (code % 16)]

section Writer

variable {σ : Type} (write : List UInt8 → EStateM (Fault RNodeHilManifestError) σ Unit)

/-- The writer of the text literals. -/
def writeText (text : String) : EStateM (Fault RNodeHilManifestError) σ Unit := write (asBytes text)

/-- A character of a string. Control characters are escaped by their code. -/
def writeChar (character : Char) : EStateM (Fault RNodeHilManifestError) σ Unit :=
  if character = '"' then write [0x5c, 0x22]
  else if character = '\\' then write [0x5c, 0x5c]
  else if character = '\n' then write [0x5c, 0x6e]
  else if character = '\r' then write [0x5c, 0x72]
  else if character = '\t' then write [0x5c, 0x74]
  else if isControl character then do
    write [0x5c, 0x75]
    write (hexBytes character.toNat)
  else write (String.utf8EncodeChar character)

/-- `for character in value.chars()`. -/
def writeChars : List Char → EStateM (Fault RNodeHilManifestError) σ Unit
  | [] => return ()
  | character :: characters => do
    writeChar write character
    writeChars characters

/-- `write_json_string`. -/
def writeJsonString (value : String) : EStateM (Fault RNodeHilManifestError) σ Unit := do
  write [0x22]
  writeChars write value.toList
  write [0x22]

/-- `write_optional_json_string`: `null` stands for a text that is not there. -/
def writeOptionalJsonString (value : Option String) : EStateM (Fault RNodeHilManifestError) σ Unit :=
  match value with
  | some value => writeJsonString write value
  | none => writeText write "null"

/-- `{}` of a truth value. -/
def writeBool (value : Bool) : EStateM (Fault RNodeHilManifestError) σ Unit :=
  writeText write (if value then "true" else "false")

/-- `write_hil_check_json`, at its indent. -/
def writeHilCheckJson (check : RNodeHilCheck) : EStateM (Fault RNodeHilManifestError) σ Unit := do
  writeText write "\n    \x7b\n      \"id\": "
  writeJsonString write check.id
  writeText write ",\n      \"status\": "
  writeJsonString write check.status.asStr
  if let some detail := check.detail then
    writeText write ",\n      \"detail\": "
    writeJsonString write detail
  writeText write "\n    \x7d"

/-- `write_hil_manifest_json`, line by line. -/
def writeHilManifestJson (manifest : RNodeHilManifest) :
    EStateM (Fault RNodeHilManifestError) σ Unit := do
  (ofResult id (validateHilManifest manifest)).lift
  writeText write "\x7b\n  \"schema\": "
  writeJsonString write rnodeHilManifestSchema
  writeText write ",\n  \"run_id\": "
  writeJsonString write manifest.runId
  writeText write ",\n  \"generated_at\": "
  writeJsonString write manifest.generatedAt
  writeText write ",\n  \"rnode\": \x7b\n    \"port\": "
  writeJsonString write manifest.port
  writeText write ",\n    \"baud\": "
  write (decimal manifest.baud.toNat)
  writeText write ",\n    \"hardware_model\": "
  writeOptionalJsonString write manifest.hardwareModel
  writeText write ",\n    \"firmware_version\": "
  writeOptionalJsonString write manifest.firmwareVersion
  writeText write "\n  \x7d,\n  \"rf\": \x7b\n    \"allow_rf_tx\": "
  writeBool write manifest.allowRfTx
  writeText write ",\n    \"transmission_performed\": "
  writeBool write manifest.transmissionPerformed
  writeText write "\n  \x7d,\n  \"checks\": ["
  writeSeparated write (writeHilCheckJson write) 0 manifest.checks
  writeText write "\n  ]\n\x7d\n"

end Writer

/-! ## The tree -/

/-- Control characters have codes below 256. -/
theorem lt_of_isControl {c : Char} (h : isControl c = true) : c.toNat < 256 := by
  rw [isControl, Bool.or_eq_true, decide_eq_true_eq, Bool.and_eq_true, decide_eq_true_eq,
    decide_eq_true_eq] at h
  omega

/-- A character by its code, which is no half of a pair. -/
def unitOf (code : ℕ) : StringPart := .unit (quadOf code) (isSurrogate_quadOf code)

/-- How the report spells a character: control characters by their number, but for the three that have a
letter here. -/
def partOf (c : Char) : StringPart :=
  if isControl c = true ∧ c ≠ '\n' ∧ c ≠ '\r' ∧ c ≠ '\t' then unitOf c.toNat
  else JsonText.partOf c

/-- The characters of a string as the report writes them. -/
def bodyOf (value : String) : StringBody := value.toList.map partOf

/-- The derivation of a string. -/
def stringOf (value : String) : Syntax := .string (bodyOf value)

/-- The derivation of a text or of `null`. -/
def optionalOf : Option String → Syntax
  | some value => stringOf value
  | none => .null

/-- The members of a check. -/
def checkMembers (check : RNodeHilCheck) : List (StringBody × Syntax) :=
  (bodyOf "status", stringOf check.status.asStr) ::
    (check.detail.map fun detail => (bodyOf "detail", stringOf detail)).toList

/-- The derivation of a check. -/
def checkOf (check : RNodeHilCheck) : Syntax :=
  .object (spacedMembers (lineBreak 6) (lineBreak 4) (bodyOf "id", stringOf check.id) (checkMembers check))

/-- The derivation of the checks. An empty list has no line breaks. -/
def checksOf : List RNodeHilCheck → Syntax
  | [] => .emptyArray (lineBreak 2)
  | check :: checks =>
    .array (spacedItems (lineBreak 4) (lineBreak 2) (checkOf check) (checks.map checkOf))

/-- The derivation of the part about the device. -/
def rnodeOf (manifest : RNodeHilManifest) : Syntax :=
  .object (spacedMembers (lineBreak 4) (lineBreak 2) (bodyOf "port", stringOf manifest.port)
    [(bodyOf "baud", numberOf manifest.baud.toUInt64),
      (bodyOf "hardware_model", optionalOf manifest.hardwareModel),
      (bodyOf "firmware_version", optionalOf manifest.firmwareVersion)])

/-- The derivation of the part about the radio. -/
def rfOf (manifest : RNodeHilManifest) : Syntax :=
  .object (spacedMembers (lineBreak 4) (lineBreak 2) (bodyOf "allow_rf_tx", boolOf manifest.allowRfTx)
    [(bodyOf "transmission_performed", boolOf manifest.transmissionPerformed)])

/-- The derivation of the report. -/
def manifestOf (manifest : RNodeHilManifest) : Syntax :=
  .object (spacedMembers (lineBreak 2) (lineBreak 0) (bodyOf "schema", stringOf rnodeHilManifestSchema)
    [(bodyOf "run_id", stringOf manifest.runId),
      (bodyOf "generated_at", stringOf manifest.generatedAt),
      (bodyOf "rnode", rnodeOf manifest),
      (bodyOf "rf", rfOf manifest),
      (bodyOf "checks", checksOf manifest.checks)])

/-- The document of a report. -/
def documentOf (manifest : RNodeHilManifest) : Document := ⟨noBlank, manifestOf manifest, lineBreak 0⟩

/-! ## What is written -/

/-- A writer over its state: a write appends its bytes, or fails behind some of them. -/
structure Sink (σ : Type) where
  write : List UInt8 → EStateM (Fault RNodeHilManifestError) σ Unit
  content : σ → List UInt8
  write_cases : ∀ bytes start,
    (∃ after, write bytes start = .ok () after ∧ content after = content start ++ bytes) ∨
      ∃ error part after, part <+: bytes ∧ write bytes start = .error (.error error) after ∧
        content after = content start ++ part

variable {σ : Type} (sink : Sink σ)

/-- The program appends `bytes`, or fails behind some of them. -/
def Appends (program : EStateM (Fault RNodeHilManifestError) σ Unit) (bytes : List UInt8) : Prop :=
  ∀ start,
    (∃ after, program start = .ok () after ∧ sink.content after = sink.content start ++ bytes) ∨
      ∃ error part after, part <+: bytes ∧ program start = .error (.error error) after ∧
        sink.content after = sink.content start ++ part

/-- What a writer appends is emitted. -/
theorem emits_appends : Emits (Appends sink) sink.write where
  nil := fun start => .inl ⟨start, rfl, (List.append_nil _).symm⟩
  bind := by
    intro first second a b hfirst hsecond start
    obtain ⟨middle, hrun, hcontent⟩ | ⟨error, part, after, hpart, hrun, hcontent⟩ := hfirst start
    · show (∃ after, (first >>= fun _ => second) start = _ ∧ _) ∨ _
      rw [run_bind_of_ok hrun]
      obtain ⟨after, hrun', hcontent'⟩ | ⟨error, part, after, hpart, hrun', hcontent'⟩ := hsecond middle
      · exact .inl ⟨after, hrun', by rw [hcontent', hcontent, List.append_assoc]⟩
      · refine .inr ⟨error, a ++ part, after, (List.prefix_append_right_inj a).mpr hpart, hrun', ?_⟩
        rw [hcontent', hcontent, List.append_assoc]
    · exact .inr ⟨error, part, after, hpart.trans (List.prefix_append a b), run_bind_of_error hrun _,
        hcontent⟩
  write := sink.write_cases

/-- The bytes in front of the value of a member. -/
def memberStart (before : Blank) (key : String) : List UInt8 :=
  utf8Bytes before.val ++ (bodyBytes (bodyOf key) ++ [0x3a, 0x20])

/-- A member starts with its line, key and colon. -/
theorem spacedMemberBytes_eq (before : Blank) (key : String) (item : Syntax) :
    spacedMemberBytes before (bodyOf key, item) = memberStart before key ++ item.bytes := by
  simp [spacedMemberBytes, memberStart]

/-- The bytes of the checks, a line for each. -/
theorem bytes_checksOf {checks : List RNodeHilCheck} (hchecks : checks ≠ []) :
    (checksOf checks).bytes = [0x5b] ++ (separated 0 (checks.map fun check =>
      itemBytes (lineBreak 4) (checkOf check)) ++ (utf8Bytes (lineBreak 2).val ++ [0x5d])) := by
  obtain ⟨check, checks, rfl⟩ := List.exists_cons_of_ne_nil hchecks
  rw [checksOf, bytes_array, ← List.map_cons, List.map_map]
  rfl

/-- The literals of a check. -/
theorem check_literals :
    asBytes "\n    \x7b\n      \"id\": " =
      utf8Bytes (lineBreak 4).val ++ ([0x7b] ++ memberStart (lineBreak 6) "id") ∧
    asBytes ",\n      \"status\": " = [0x2c] ++ memberStart (lineBreak 6) "status" ∧
    asBytes ",\n      \"detail\": " = [0x2c] ++ memberStart (lineBreak 6) "detail" ∧
    asBytes "\n    \x7d" = utf8Bytes (lineBreak 4).val ++ [0x7d] := by
  decide +kernel

/-- What a check is written as, literal by literal. -/
theorem bytes_checkOf (check : RNodeHilCheck) :
    itemBytes (lineBreak 4) (checkOf check) =
      asBytes "\n    \x7b\n      \"id\": " ++ (bodyBytes (bodyOf check.id) ++
      (asBytes ",\n      \"status\": " ++ (bodyBytes (bodyOf check.status.asStr) ++
      ((check.detail.map fun detail =>
          asBytes ",\n      \"detail\": " ++ bodyBytes (bodyOf detail)).getD [] ++
        asBytes "\n    \x7d")))) := by
  obtain ⟨hid, hstatus, hdetail, hclose⟩ := check_literals
  have hstring (value : String) : (stringOf value).bytes = bodyBytes (bodyOf value) := rfl
  obtain ⟨id, status, detail⟩ := check
  rw [hid, hstatus, hdetail, hclose, itemBytes, checkOf, bytes_object, checkMembers]
  cases detail <;>
    simp only [Option.map_none, Option.map_some, Option.toList_none, Option.toList_some, Option.getD_none,
      Option.getD_some, List.map_cons, List.map_nil, separated_cons_cons, separated_singleton,
      spacedMemberBytes_eq, hstring, List.append_assoc, List.nil_append]

/-- The literals of a report. -/
theorem report_literals :
    asBytes "\x7b\n  \"schema\": " = [0x7b] ++ memberStart (lineBreak 2) "schema" ∧
    asBytes ",\n  \"run_id\": " = [0x2c] ++ memberStart (lineBreak 2) "run_id" ∧
    asBytes ",\n  \"generated_at\": " = [0x2c] ++ memberStart (lineBreak 2) "generated_at" ∧
    asBytes ",\n  \"rnode\": \x7b\n    \"port\": " =
      [0x2c] ++ (memberStart (lineBreak 2) "rnode" ++ ([0x7b] ++ memberStart (lineBreak 4) "port")) ∧
    asBytes ",\n    \"baud\": " = [0x2c] ++ memberStart (lineBreak 4) "baud" ∧
    asBytes ",\n    \"hardware_model\": " = [0x2c] ++ memberStart (lineBreak 4) "hardware_model" ∧
    asBytes ",\n    \"firmware_version\": " = [0x2c] ++ memberStart (lineBreak 4) "firmware_version" ∧
    asBytes "\n  \x7d,\n  \"rf\": \x7b\n    \"allow_rf_tx\": " =
      utf8Bytes (lineBreak 2).val ++ ([0x7d] ++ ([0x2c] ++ (memberStart (lineBreak 2) "rf" ++
        ([0x7b] ++ memberStart (lineBreak 4) "allow_rf_tx")))) ∧
    asBytes ",\n    \"transmission_performed\": " =
      [0x2c] ++ memberStart (lineBreak 4) "transmission_performed" ∧
    asBytes "\n  \x7d,\n  \"checks\": [" =
      utf8Bytes (lineBreak 2).val ++
        ([0x7d] ++ ([0x2c] ++ (memberStart (lineBreak 2) "checks" ++ [0x5b]))) ∧
    asBytes "\n  ]\n\x7d\n" = utf8Bytes (lineBreak 2).val ++ ([0x5d] ++ (utf8Bytes (lineBreak 0).val ++
      ([0x7d] ++ utf8Bytes (lineBreak 0).val))) := by
  decide +kernel

/-- What a report is written as, literal by literal. -/
theorem bytes_documentOf {manifest : RNodeHilManifest} (hchecks : manifest.checks ≠ []) :
    utf8Bytes (documentOf manifest).text =
      asBytes "\x7b\n  \"schema\": " ++ (bodyBytes (bodyOf rnodeHilManifestSchema) ++
      (asBytes ",\n  \"run_id\": " ++ (bodyBytes (bodyOf manifest.runId) ++
      (asBytes ",\n  \"generated_at\": " ++ (bodyBytes (bodyOf manifest.generatedAt) ++
      (asBytes ",\n  \"rnode\": \x7b\n    \"port\": " ++ (bodyBytes (bodyOf manifest.port) ++
      (asBytes ",\n    \"baud\": " ++ (decimal manifest.baud.toNat ++
      (asBytes ",\n    \"hardware_model\": " ++ ((optionalOf manifest.hardwareModel).bytes ++
      (asBytes ",\n    \"firmware_version\": " ++ ((optionalOf manifest.firmwareVersion).bytes ++
      (asBytes "\n  \x7d,\n  \"rf\": \x7b\n    \"allow_rf_tx\": " ++ ((boolOf manifest.allowRfTx).bytes ++
      (asBytes ",\n    \"transmission_performed\": " ++
        ((boolOf manifest.transmissionPerformed).bytes ++
      (asBytes "\n  \x7d,\n  \"checks\": [" ++
        (separated 0 (manifest.checks.map fun check => itemBytes (lineBreak 4) (checkOf check)) ++
      asBytes "\n  ]\n\x7d\n"))))))))))))))))))) := by
  obtain ⟨hschema, hrun, hgenerated, hport, hbaud, hmodel, hfirmware, hallow, hperformed, hopen, hclose⟩ :=
    report_literals
  have hbaudBytes : (numberOf manifest.baud.toUInt64).bytes = decimal manifest.baud.toNat := by
    rw [bytes_numberOf, UInt32.toNat_toUInt64]
  have htext : (documentOf manifest).text = (manifestOf manifest).text ++ (lineBreak 0).val := rfl
  have hstring (value : String) : (stringOf value).bytes = bodyBytes (bodyOf value) := rfl
  rw [htext, utf8Bytes_append, ← Syntax.bytes, hschema, hrun, hgenerated, hport, hbaud, hmodel, hfirmware,
    hallow, hperformed, hopen, hclose, manifestOf, bytes_object]
  simp only [List.map_cons, List.map_nil, separated_cons_cons, separated_singleton, spacedMemberBytes_eq,
    rnodeOf, rfOf, bytes_object, bytes_checksOf hchecks, hbaudBytes, hstring, List.append_assoc]

section Bytes

variable {P : EStateM (Fault RNodeHilManifestError) σ Unit → List UInt8 → Prop}
  {write : List UInt8 → EStateM (Fault RNodeHilManifestError) σ Unit} (h : Emits P write)

include h

/-- A character is emitted as it is derived. -/
theorem emits_writeChar (character : Char) :
    P (writeChar write character) (utf8Bytes (partOf character).text) := by
  have hhex : ∀ code < 256, [0x5c, 0x75] ++ hexBytes code =
      utf8Bytes (unitOf code).text := by
    decide +kernel
  unfold writeChar
  by_cases hquote : character = '"'
  · subst hquote
    exact h.write [0x5c, 0x22]
  by_cases hbackslash : character = '\\'
  · subst hbackslash
    exact h.write [0x5c, 0x5c]
  by_cases hn : character = '\n'
  · subst hn
    exact h.write [0x5c, 0x6e]
  by_cases hr : character = '\r'
  · subst hr
    exact h.write [0x5c, 0x72]
  by_cases ht : character = '\t'
  · subst ht
    exact h.write [0x5c, 0x74]
  rw [if_neg hquote, if_neg hbackslash, if_neg hn, if_neg hr, if_neg ht]
  by_cases hcontrol : isControl character = true
  · rw [if_pos hcontrol, partOf, if_pos ⟨hcontrol, hn, hr, ht⟩, ← hhex _ (lt_of_isControl hcontrol)]
    exact h.bind (h.write _) (h.write _)
  · have hraw : isUnescaped character := by
      rw [isControl, Bool.or_eq_true, decide_eq_true_eq] at hcontrol
      simp only [isUnescaped, Bool.and_eq_true, decide_eq_true_eq, bne_iff_ne]
      exact ⟨⟨by omega, hquote⟩, hbackslash⟩
    have hbytes : utf8Bytes [character] = String.utf8EncodeChar character := List.append_nil _
    rw [if_neg hcontrol, partOf, if_neg fun hspelled => hcontrol hspelled.1, JsonText.partOf, dif_pos hraw,
      StringPart.text, hbytes]
    exact h.write _

/-- A string is emitted as it is derived. -/
theorem emits_writeJsonString (value : String) :
    P (writeJsonString write value) (bodyBytes (bodyOf value)) := by
  have hchars (characters : List Char) : P (writeChars write characters)
      (utf8Bytes ((characters.map partOf).flatMap StringPart.text)) := by
    induction characters with
    | nil => exact h.nil
    | cons character characters ih =>
      rw [List.map_cons, List.flatMap_cons, utf8Bytes_append]
      exact h.bind (emits_writeChar h character) ih
  have hbytes : bodyBytes (bodyOf value) = [0x22] ++
      (utf8Bytes ((value.toList.map partOf).flatMap StringPart.text) ++ [0x22]) := by
    rw [bodyBytes, utf8Bytes_cons, StringBody.text, utf8Bytes_append]
    rfl
  rw [hbytes]
  exact h.bind (h.write _) (h.bind (hchars _) (h.write _))

/-- A text that may be missing is emitted as it is derived. -/
theorem emits_writeOptionalJsonString (value : Option String) :
    P (writeOptionalJsonString write value) (optionalOf value).bytes := by
  cases value with
  | none => exact h.write (asBytes "null")
  | some value => exact emits_writeJsonString h value

/-- A truth value is emitted as it is derived. -/
theorem emits_writeBool (value : Bool) : P (writeBool write value) (boolOf value).bytes := by
  cases value with
  | true => exact h.write (asBytes "true")
  | false => exact h.write (asBytes "false")

/-- A check is emitted as it is derived. -/
theorem emits_writeHilCheckJson (check : RNodeHilCheck) :
    P (writeHilCheckJson write check) (itemBytes (lineBreak 4) (checkOf check)) := by
  rw [bytes_checkOf]
  obtain ⟨id, status, detail⟩ := check
  refine h.bind (h.write _) (h.bind (emits_writeJsonString h id) (h.bind (h.write _)
    (h.bind (emits_writeJsonString h status.asStr) ?_)))
  cases detail with
  | none => exact h.write _
  | some detail =>
    have hdetail := h.bind (h.write (asBytes ",\n      \"detail\": "))
      (h.bind (emits_writeJsonString h detail) (h.write (asBytes "\n    \x7d")))
    rwa [← List.append_assoc] at hdetail

/-- A report that is accepted is written as its document. -/
theorem emits_writeHilManifestJson {manifest : RNodeHilManifest}
    (hvalid : validateHilManifest manifest = .ok ()) (hchecks : manifest.checks ≠ []) :
    P (writeHilManifestJson write manifest) (utf8Bytes (documentOf manifest).text) := by
  rw [bytes_documentOf hchecks, writeHilManifestJson, Outcome.lift_bind (ofResult_eq_ok hvalid id)]
  exact h.bind (h.write _) (h.bind (emits_writeJsonString h _) (h.bind (h.write _)
    (h.bind (emits_writeJsonString h _) (h.bind (h.write _) (h.bind (emits_writeJsonString h _)
    (h.bind (h.write _) (h.bind (emits_writeJsonString h _) (h.bind (h.write _) (h.bind (h.write _)
    (h.bind (h.write _) (h.bind (emits_writeOptionalJsonString h _) (h.bind (h.write _)
    (h.bind (emits_writeOptionalJsonString h _) (h.bind (h.write _) (h.bind (emits_writeBool h _)
    (h.bind (h.write _) (h.bind (emits_writeBool h _) (h.bind (h.write _)
    (h.bind (h.writeSeparated (emits_writeHilCheckJson h) _ 0) (h.write _))))))))))))))))))))

end Bytes

/-! ## The value -/

/-- The value of a check. -/
def RNodeHilCheck.json (check : RNodeHilCheck) : JsonValue :=
  .object (("id", .string check.id) :: ("status", .string check.status.asStr) ::
    (check.detail.map fun detail => ("detail", .string detail)).toList)

/-- A text or `null`. -/
def optionalJson : Option String → JsonValue
  | some value => .string value
  | none => .null

/-- The value of a report. -/
def RNodeHilManifest.json (manifest : RNodeHilManifest) : JsonValue :=
  .object [("schema", .string rnodeHilManifestSchema), ("run_id", .string manifest.runId),
    ("generated_at", .string manifest.generatedAt),
    ("rnode", .object [("port", .string manifest.port), ("baud", .number manifest.baud.toUInt64),
      ("hardware_model", optionalJson manifest.hardwareModel),
      ("firmware_version", optionalJson manifest.firmwareVersion)]),
    ("rf", .object [("allow_rf_tx", .bool manifest.allowRfTx),
      ("transmission_performed", .bool manifest.transmissionPerformed)]),
    ("checks", .array (manifest.checks.map RNodeHilCheck.json))]

/-- A character is written as one that means it. -/
theorem char_partOf (c : Char) : (partOf c).char = c := by
  have hcode : ∀ code < 256, (quadOf code).code = code := by decide +kernel
  unfold partOf
  split_ifs with hcontrol
  · rw [unitOf, StringPart.char, hcode _ (lt_of_isControl hcontrol.1), Char.ofNat_toNat]
  · exact JsonText.char_partOf c

/-- The written characters mean the string. -/
theorem value_bodyOf (value : String) : (bodyOf value).value = value := by
  have hchars : value.toList.map (StringPart.char ∘ partOf) = value.toList := by
    apply List.map_id''
    exact char_partOf
  rw [bodyOf, StringBody.value, List.map_map, hchars, String.ofList_toList]

/-- The derivation of a check means the check. -/
theorem value_checkOf (check : RNodeHilCheck) : (checkOf check).value = check.json := by
  obtain ⟨id, status, detail⟩ := check
  rw [checkOf, Syntax.value, fields_spacedMembers, RNodeHilCheck.json]
  cases detail <;> simp [checkMembers, stringOf, Syntax.value, value_bodyOf]

/-- The derivation means the text or `null`. -/
theorem value_optionalOf (value : Option String) : (optionalOf value).value = optionalJson value := by
  cases value with
  | none => rfl
  | some value => exact congrArg JsonValue.string (value_bodyOf value)

/-- The derivation of the checks means all of them. -/
theorem value_checksOf (checks : List RNodeHilCheck) :
    (checksOf checks).value = .array (checks.map RNodeHilCheck.json) := by
  cases checks with
  | nil => rfl
  | cons check checks =>
    rw [checksOf, Syntax.value, values_spacedItems, ← List.map_cons, List.map_map]
    exact congrArg JsonValue.array (List.map_congr_left fun check _ => value_checkOf check)

/-- The derivation of the report means the report. -/
theorem value_manifestOf (manifest : RNodeHilManifest) : (manifestOf manifest).value = manifest.json := by
  have hstring (value : String) : (stringOf value).value = .string value :=
    congrArg JsonValue.string (value_bodyOf value)
  rw [manifestOf, Syntax.value, fields_spacedMembers, RNodeHilManifest.json]
  simp only [List.map_cons, List.map_nil, value_bodyOf, hstring, rnodeOf, rfOf, Syntax.value,
    fields_spacedMembers, value_numberOf, value_optionalOf, value_boolOf, value_checksOf]

/-- A check has no numbers. -/
theorem hasLeadingZero_checkOf (check : RNodeHilCheck) : (checkOf check).hasLeadingZero = false := by
  apply hasLeadingZero_spacedMembers
  obtain ⟨id, status, detail⟩ := check
  cases detail <;> simp [checkMembers, stringOf, Syntax.hasLeadingZero]

/-- A report whose baud rate is not zero is JSON. -/
theorem hasLeadingZero_manifestOf {manifest : RNodeHilManifest} (hbaud : manifest.baud ≠ 0) :
    (manifestOf manifest).hasLeadingZero = false := by
  have hnumber : (numberOf manifest.baud.toUInt64).hasLeadingZero = false :=
    hasLeadingZero_numberOf fun hzero => hbaud (UInt32.toUInt64_inj.mp hzero)
  have hoptional (value : Option String) : (optionalOf value).hasLeadingZero = false := by
    cases value <;> rfl
  have hbool (value : Bool) : (boolOf value).hasLeadingZero = false := by
    cases value <;> rfl
  have hrnode : (rnodeOf manifest).hasLeadingZero = false := by
    apply hasLeadingZero_spacedMembers
    simp [hnumber, hoptional, stringOf, Syntax.hasLeadingZero]
  have hrf : (rfOf manifest).hasLeadingZero = false := by
    apply hasLeadingZero_spacedMembers
    simp [hbool]
  have hchecks : (checksOf manifest.checks).hasLeadingZero = false := by
    cases manifest.checks with
    | nil => rfl
    | cons check checks =>
      apply hasLeadingZero_spacedItems
      simp [hasLeadingZero_checkOf]
  apply hasLeadingZero_spacedMembers
  simp [hrnode, hrf, hchecks, stringOf, Syntax.hasLeadingZero]

/-- A check is determined by its value. -/
theorem RNodeHilCheck.json_injective {first second : RNodeHilCheck} (h : first.json = second.json) :
    first = second := by
  have hstatus : ∀ status status' : RNodeHilCheckStatus, status.asStr = status'.asStr →
      status = status' := by
    intro status status' hstr
    cases status <;> cases status' <;> simp_all [RNodeHilCheckStatus.asStr]
  obtain ⟨id, status, detail⟩ := first
  obtain ⟨id', status', detail'⟩ := second
  simp only [json, JsonValue.object.injEq, List.cons.injEq, Prod.mk.injEq, true_and,
    JsonValue.string.injEq] at h
  obtain ⟨rfl, hstr, hdetail⟩ := h
  obtain rfl := hstatus _ _ hstr
  cases detail <;> cases detail' <;> simp_all

/-- **The value determines the report.** -/
theorem RNodeHilManifest.json_injective {first second : RNodeHilManifest}
    (h : first.json = second.json) : first = second := by
  have hoptional : ∀ value value' : Option String, optionalJson value = optionalJson value' →
      value = value' := by
    intro value value' hvalue
    cases value <;> cases value' <;> simp_all [optionalJson]
  obtain ⟨runId, generatedAt, port, baud, hardwareModel, firmwareVersion, allowRfTx,
    transmissionPerformed, checks⟩ := first
  obtain ⟨runId', generatedAt', port', baud', hardwareModel', firmwareVersion', allowRfTx',
    transmissionPerformed', checks'⟩ := second
  simp only [json, JsonValue.object.injEq, List.cons.injEq, Prod.mk.injEq, true_and, and_true,
    JsonValue.string.injEq, JsonValue.number.injEq, JsonValue.bool.injEq, JsonValue.array.injEq,
    UInt32.toUInt64_inj] at h
  obtain ⟨rfl, rfl, ⟨rfl, rfl, hmodel, hfirmware⟩, ⟨rfl, rfl⟩, hchecks⟩ := h
  obtain rfl := hoptional _ _ hmodel
  obtain rfl := hoptional _ _ hfirmware
  obtain rfl := List.map_injective_iff.mpr (fun _ _ => RNodeHilCheck.json_injective) hchecks
  rfl

/-! ## The whole report -/

open Checks

/-- What is checked of a report. -/
theorem validateHilManifest_eq_ok_iff (manifest : RNodeHilManifest) :
    validateHilManifest manifest = .ok () ↔
      manifest.runId ≠ "" ∧ manifest.generatedAt ≠ "" ∧ isUtcRfc3339Timestamp manifest.generatedAt = true ∧
      manifest.port ≠ "" ∧ manifest.baud ≠ 0 ∧ manifest.allowRfTx = false ∧
      manifest.transmissionPerformed = false ∧ manifest.checks ≠ [] ∧
      ∀ check ∈ manifest.checks, check.id ≠ "" := by
  unfold validateHilManifest
  dsimp only
  rw [throwIf_then_eq_ok_iff, throwIf_then_eq_ok_iff, throwIf_then_eq_ok_iff, throwIf_then_eq_ok_iff,
    throwIf_then_eq_ok_iff, throwIf_then_eq_ok_iff, throwIf_then_eq_ok_iff, throwIf_then_eq_ok_iff,
    throwIf_eq_ok_iff]
  simp

/-- A writer into a buffer of `limit` bytes: what does not fit is cut off, and reported. -/
def boundedSink (limit : ℕ) : Sink (List UInt8) where
  write bytes := fun held =>
    if held.length + bytes.length ≤ limit then .ok () (held ++ bytes)
    else .error (.error (.io 0)) (held ++ bytes.take (limit - held.length))
  content := id
  write_cases bytes held := by
    by_cases hfits : held.length + bytes.length ≤ limit
    · exact .inl ⟨held ++ bytes, if_pos hfits, rfl⟩
    · exact .inr ⟨.io 0, bytes.take (limit - held.length), _, List.take_prefix _ _, if_neg hfits, rfl⟩

/-- A report with a control character, a line break and a quotation mark in its texts. -/
def sampleManifest : RNodeHilManifest where
  runId := "run\x01"
  generatedAt := "2024-02-29T23:59:59Z"
  port := "/dev/ttyUSB0"
  baud := 115200
  hardwareModel := none
  firmwareVersion := some "1.74"
  allowRfTx := false
  transmissionPerformed := false
  checks := [⟨"detect", .passed, some "a\nb\"c"⟩, ⟨"radio", .skipped, none⟩]

end Hyf.RNodeHil
