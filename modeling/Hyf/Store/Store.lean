import Hyf.Common.InsertionSort
import Hyf.Common.SlotArray
import Hyf.Wire.EnvelopeTheorems

/-!
# The frame store (`hyf_store`)

A bounded table of encoded envelopes, keyed by message id. A record keeps the encoded bytes and the
three header fields the store itself looks at; the source holds the bytes in a zero-padded array of
`FRAME_MAX` cells next to their length, here they are the live bytes alone.

Every operation that returns an error returns it before the table is touched, so the model's
operations return either the error or the new store.
-/

namespace Hyf

structure StorePolicy where
  rejectExpiredOnPut : Bool
  deriving DecidableEq

def StorePolicy.new : StorePolicy := ⟨true⟩

inductive StoreError where
  | full
  | duplicate
  | expired
  | frameTooLarge (actual maximum : ℕ)
  | invalidEnvelope (error : HyfWireError)
  | notFound
  | outputTooSmall (actual required : ℕ)
  deriving DecidableEq

structure StoreMetadata where
  messageId : MessageId
  createdAtMs : TimestampMs
  expiresAtMs : TimestampMs
  deriving DecidableEq

/-- The header fields of an envelope that the store keeps. -/
def metadataFor (envelope : HyfEnvelopeRef) : StoreMetadata where
  messageId := envelope.messageId
  createdAtMs := envelope.createdAtMs
  expiresAtMs := envelope.expiresAtMs

/-- A stored frame, also what the store lends out as `StoredFrameRef`. -/
structure StoreRecord where
  bytes : List UInt8
  messageId : MessageId
  createdAtMs : TimestampMs
  expiresAtMs : TimestampMs
  deriving DecidableEq

def StoreRecord.new (frame : List UInt8) (metadata : StoreMetadata) : StoreRecord where
  bytes := frame
  messageId := metadata.messageId
  createdAtMs := metadata.createdAtMs
  expiresAtMs := metadata.expiresAtMs

def isExpiredAtCreation (envelope : HyfEnvelopeRef) : Bool :=
  envelope.expiresAtMs ≤ envelope.createdAtMs

/-- Earlier expiry first, then earlier creation, then smaller message id. -/
def recordPrecedes (record existing : StoreRecord) : Bool :=
  record.expiresAtMs < existing.expiresAtMs ||
    (record.expiresAtMs == existing.expiresAtMs && record.createdAtMs < existing.createdAtMs) ||
    (record.expiresAtMs == existing.expiresAtMs && record.createdAtMs == existing.createdAtMs &&
      decide (record.messageId.bytes.toList < existing.messageId.bytes.toList))

/-- The same order, for the frames that the store lends out. -/
def framePrecedes (record existing : StoreRecord) : Bool :=
  record.expiresAtMs < existing.expiresAtMs ||
    (record.expiresAtMs == existing.expiresAtMs && record.createdAtMs < existing.createdAtMs) ||
    (record.expiresAtMs == existing.expiresAtMs && record.createdAtMs == existing.createdAtMs &&
      decide (record.messageId.bytes.toList < existing.messageId.bytes.toList))

/-- Insert a frame into the slice, of which `written` cells are filled. -/
def insertPending (out : List StoreRecord) (written : ℕ) (record : StoreRecord) :
    List StoreRecord :=
  InsertionSort.insertShifting framePrecedes record written out

structure Store (n frameMax : ℕ) where
  policy : StorePolicy
  records : SlotArray StoreRecord n

namespace Store

variable {n frameMax : ℕ}

def new (policy : StorePolicy) : Store n frameMax := ⟨policy, SlotArray.empty _ _⟩

def len (store : Store n frameMax) : ℕ := store.records.live.length

def findIndex (store : Store n frameMax) (messageId : MessageId) : Option ℕ :=
  store.records.findLive fun existing => existing.messageId = messageId

def contains (store : Store n frameMax) (messageId : MessageId) : Bool :=
  (store.findIndex messageId).isSome

def firstFreeIndex (store : Store n frameMax) : Option ℕ := store.records.firstFree

def putValidFrame (store : Store n frameMax) (frame : List UInt8) (metadata : StoreMetadata) :
    Except StoreError (Store n frameMax) :=
  if store.contains metadata.messageId then .error .duplicate
  else match store.firstFreeIndex with
    | none => .error .full
    | some index =>
      .ok { store with records := store.records.write index (some (.new frame metadata)) }

def putEnvelope (store : Store n frameMax) (envelope : HyfEnvelopeRef) :
    Except StoreError (Store n frameMax) := do
  if store.policy.rejectExpiredOnPut && isExpiredAtCreation envelope then
    throw .expired
  let required ← (envelopeEncodedLen envelope).mapError .invalidEnvelope
  if required > frameMax then
    throw (.frameTooLarge required frameMax)
  let (len, frame) ← (encodeEnvelope envelope (List.replicate frameMax 0)).mapError .invalidEnvelope
  store.putValidFrame (frame.take len) (metadataFor envelope)

/-- An envelope that had expired at its creation is reported as such when the policy says so. -/
def decodeError (store : Store n frameMax) (error : HyfWireError) : StoreError :=
  if store.policy.rejectExpiredOnPut && error == .invalidExpiry then .expired
  else .invalidEnvelope error

def putFrame (store : Store n frameMax) (frame : List UInt8) :
    Except StoreError (Store n frameMax) := do
  if frame.length > frameMax then
    throw (.frameTooLarge frame.length frameMax)
  let envelope ← (decodeEnvelope frame).mapError store.decodeError
  store.putValidFrame frame (metadataFor envelope)

def remove (store : Store n frameMax) (messageId : MessageId) :
    Except StoreError (Store n frameMax) :=
  match store.findIndex messageId with
  | none => .error .notFound
  | some index => .ok { store with records := store.records.write index none }

/-- Delete every record that has expired at `now`; also returns how many there were. -/
def expireBefore (store : Store n frameMax) (now : TimestampMs) : ℕ × Store n frameMax :=
  (store.records.live.countP fun existing => existing.expiresAtMs ≤ now,
    { store with records := store.records.clearWhere fun existing => existing.expiresAtMs ≤ now })

/-- The loop of `pending` over the records. -/
def writePending : List StoreRecord → ℕ → List StoreRecord → ℕ × List StoreRecord
  | [], written, out => (written, out)
  | record :: rest, written, out => writePending rest (written + 1) (insertPending out written record)

/-- Fill the slice with the stored frames in order; the slice afterwards comes with the result. -/
def pending (store : Store n frameMax) (out : List StoreRecord) :
    Except StoreError ℕ × List StoreRecord :=
  if out.length < store.len then (.error (.outputTooSmall out.length store.len), out)
  else
    let (written, out) := writePending store.records.live 0 out
    (.ok written, out)

/-- One step of the scan for the first pending record: the earlier of the two is kept. -/
def selectPending (selected : Option StoreRecord) (record : StoreRecord) : Option StoreRecord :=
  match selected with
  | some existing => if recordPrecedes record existing then some record else some existing
  | none => some record

def firstPending (store : Store n frameMax) : Option StoreRecord :=
  store.records.live.foldl selectPending none

end Store

end Hyf
