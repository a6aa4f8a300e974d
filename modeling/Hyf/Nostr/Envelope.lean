import Hyf.Nostr.EventTheorems
import Hyf.Wire.Envelope

/-!
# Envelopes as Nostr events (`hyf_link_nostr`)

An encoded envelope is the content of a signed event, in hexadecimal, with the recipient in a tag. On
the way back the id, the signature, the kind and the recipient tag are checked before the content is
decoded.
-/

namespace Hyf.Nostr

open ByteCodec

def hyfNostrEnvelopeKind : UInt16 := 9775
def hyfNostrTopicTag : String := "hyf"
def hyfNostrAltTag : String := "hyf gateway envelope"

def encodeHyfEnvelopeContent (bytes out : List UInt8) :
    Outcome NostrError (String × List UInt8) := do
  rejectIf (bytes.length > hyfNostrMaxEnvelopeBytes)
    (.envelopeTooLarge bytes.length hyfNostrMaxEnvelopeBytes)
  encodeLowerHex bytes out

def decodeHyfEnvelopeContent (content : String) (out : List UInt8) :
    Outcome NostrError (ℕ × List UInt8) := do
  validateContentLen content
  decodeLowerHex content out

structure HyfNostrEventScratch where
  content : ByteArrayN hyfNostrMaxContentChars
  recipientHex : ByteArrayN 64

def HyfNostrEventScratch.new : HyfNostrEventScratch := ⟨fillBytes _ 0, fillBytes _ 0⟩

section

variable (sha256 : List UInt8 → ByteArrayN 32) (schnorr : Schnorr)

def withSignedHyfNostrEvent {T : Type} (encodedEnvelope : List UInt8) (authorSecret : NostrSecretKey)
    (recipientPubkey : NostrPublicKey) (createdAt : UInt64) (scratch : HyfNostrEventScratch)
    (f : NostrEvent → T) : Outcome NostrError T := do
  let (content, _) ← encodeHyfEnvelopeContent encodedEnvelope scratch.content.toList
  let (recipientHex, _) ← recipientPubkey.writeHex scratch.recipientHex.toList
  let pTag ← NostrTagRef.new ["p", recipientHex]
  let tTag ← NostrTagRef.new ["t", hyfNostrTopicTag]
  let altTag ← NostrTagRef.new ["alt", hyfNostrAltTag]
  let authorPubkey ← deriveNostrPublicKey schnorr authorSecret
  let unsigned ← NostrUnsignedEvent.new authorPubkey createdAt hyfNostrEnvelopeKind
    [pTag, tTag, altTag] content
  let event ← signEvent sha256 schnorr unsigned authorSecret
  return f event

def NostrTagRef.name (tag : NostrTagRef) : String := tag.values.head tag.ne_nil

def NostrTagRef.value (tag : NostrTagRef) : Option String := tag.values[1]?

def hasPTag (tags : List NostrTagRef) : Bool :=
  tags.any fun tag => tag.name = "p" && tag.value.any fun value => (asBytes value).length != 0

/-- The envelope, whose bytes lie in `out`, and `out` afterwards. -/
def verifyAndDecodeHyfNostrEvent (event : NostrEvent) (out : List UInt8) :
    Outcome NostrError (HyfEnvelopeRef × List UInt8) := do
  verifyEvent sha256 schnorr event
  rejectIf (event.kind ≠ hyfNostrEnvelopeKind) (.unexpectedKind hyfNostrEnvelopeKind event.kind)
  rejectIf (hasPTag event.tags = false) (.missingRequiredTag "p")
  let (len, out) ← decodeHyfEnvelopeContent event.content out
  let bytes ← slice out 0 len
  let envelope ← ofResult (fun _ => .malformedEnvelope) (decodeEnvelope bytes)
  return (envelope, out)

/-- What acceptance of an event establishes about it. -/
structure Carries (event : NostrEvent) (bytes : List UInt8) : Prop where
  verified : verifyEvent sha256 schnorr event = .ok ()
  kind_eq : event.kind = hyfNostrEnvelopeKind
  hasPTag : hasPTag event.tags = true
  content_eq : asBytes event.content = lowerHex bytes

theorem ends_decodeHyfEnvelopeContent (content : String) {out : List UInt8}
    (hlimit : out.length < addressLimit) :
    Ends (decodeHyfEnvelopeContent content out) fun decoded => ∃ bytes,
      asBytes content = lowerHex bytes ∧ bytes.length ≤ hyfNostrMaxEnvelopeBytes ∧
      bytes.length ≤ out.length ∧ decoded = (bytes.length, bytes ++ out.drop bytes.length) := by
  refine (ends_rejectIf _ _).bind fun _ hcontent => ?_
  apply (ends_decodeLowerHex content hlimit).mono
  rintro _ ⟨bytes, htext, hfits, rfl⟩
  rw [htext, length_lowerHex] at hcontent
  have hchars : hyfNostrMaxContentChars = 2 * hyfNostrMaxEnvelopeBytes := rfl
  exact ⟨bytes, htext, by omega, hfits, rfl⟩

/-- **An event that is accepted** was verified, and its content is the envelope in hexadecimal. -/
theorem ends_verifyAndDecodeHyfNostrEvent (event : NostrEvent) {out : List UInt8}
    (hlimit : out.length < addressLimit) :
    Ends (verifyAndDecodeHyfNostrEvent sha256 schnorr event out) fun decoded =>
      ∃ bytes, Carries sha256 schnorr event bytes ∧ bytes.length ≤ hyfNostrMaxEnvelopeBytes ∧
        bytes.length ≤ out.length ∧ decodeEnvelope bytes = .ok decoded.1 ∧
        decoded.2 = bytes ++ out.drop bytes.length := by
  apply (ends_verifyEvent sha256 schnorr event).with_eq.bind
  rintro ⟨⟩ ⟨-, hverified⟩
  refine (ends_rejectIf _ _).bind fun _ hkind => (ends_rejectIf _ _).bind fun _ htag => ?_
  apply (ends_decodeHyfEnvelopeContent event.content hlimit).bind
  rintro _ ⟨bytes, hcontent, hmax, hfits, rfl⟩
  apply (ends_slice (Nat.zero_le _) (by simp)).bind
  rintro _ rfl
  rw [List.drop_zero, Nat.sub_zero, List.take_left]
  apply (ends_ofResult _ _).bind
  intro envelope hdecode
  exact ⟨bytes, ⟨hverified, not_not.mp hkind, by simpa using htag, hcontent⟩, hmax, hfits, hdecode, rfl⟩

/-- An event that carries an envelope is accepted. -/
theorem verifyAndDecodeHyfNostrEvent_eq {event : NostrEvent} {bytes : List UInt8}
    (h : Carries sha256 schnorr event bytes) (hmax : bytes.length ≤ hyfNostrMaxEnvelopeBytes)
    {envelope : HyfEnvelopeRef} (hdecode : decodeEnvelope bytes = .ok envelope) {out : List UInt8}
    (hroom : bytes.length ≤ out.length) :
    verifyAndDecodeHyfNostrEvent sha256 schnorr event out =
      .ok (envelope, bytes ++ out.drop bytes.length) := by
  have hcontent : ¬(asBytes event.content).length > hyfNostrMaxContentChars := by
    rw [h.content_eq, length_lowerHex]
    have hchars : hyfNostrMaxContentChars = 2 * hyfNostrMaxEnvelopeBytes := rfl
    omega
  have hlimit : bytes.length < addressLimit := lt_of_le_of_lt hmax (by decide)
  have hhex := decodeLowerHex_eq h.content_eq hlimit hroom
  have hbytes : decodeHyfEnvelopeContent event.content out =
      .ok (bytes.length, bytes ++ out.drop bytes.length) := by
    rw [decodeHyfEnvelopeContent, validateContentLen, Outcome.bind_eq (rejectIf_eq_ok hcontent), hhex]
  have hslice : (slice (bytes ++ out.drop bytes.length) 0 bytes.length : Outcome NostrError _) =
      .ok bytes := by
    rw [slice, if_pos ⟨Nat.zero_le _, by simp⟩, List.drop_zero, Nat.sub_zero, List.take_left]
  rw [verifyAndDecodeHyfNostrEvent, Outcome.bind_eq h.verified,
    Outcome.bind_eq (rejectIf_eq_ok (not_not.mpr h.kind_eq)),
    Outcome.bind_eq (rejectIf_eq_ok (by simp [h.hasPTag])), Outcome.bind_eq hbytes]
  simp only
  rw [Outcome.bind_eq hslice, Outcome.bind_eq (ofResult_eq_ok hdecode _)]
  rfl

/-- What is checked of an event before its content is decoded. -/
structure Checked (event : NostrEvent) : Prop where
  verified : verifyEvent sha256 schnorr event = .ok ()
  kind_eq : event.kind = hyfNostrEnvelopeKind
  hasPTag : hasPTag event.tags = true
  content_le : (asBytes event.content).length ≤ hyfNostrMaxContentChars
  content_even : (asBytes event.content).length % 2 = 0

/-- The room is looked at before the content is. -/
theorem verifyAndDecodeHyfNostrEvent_short {event : NostrEvent} (h : Checked sha256 schnorr event)
    {out : List UInt8} (hshort : out.length < (asBytes event.content).length / 2) :
    verifyAndDecodeHyfNostrEvent sha256 schnorr event out =
      fail (.outputTooSmall ((asBytes event.content).length / 2) out.length) := by
  rw [verifyAndDecodeHyfNostrEvent, Outcome.bind_eq h.verified,
    Outcome.bind_eq (rejectIf_eq_ok (not_not.mpr h.kind_eq)),
    Outcome.bind_eq (rejectIf_eq_ok (by simp [h.hasPTag])), decodeHyfEnvelopeContent, validateContentLen,
    Outcome.bind_eq (rejectIf_eq_ok (not_lt.mpr h.content_le)),
    decodeLowerHex_short h.content_even hshort]
  rfl

/-- More room is asked for when the content of a checked event would not fit. -/
theorem short_of_verifyAndDecodeHyfNostrEvent (event : NostrEvent) {out : List UInt8}
    (hlimit : out.length < addressLimit) :
    Reports (verifyAndDecodeHyfNostrEvent sha256 schnorr event out) fun error =>
      error.isOutputTooSmall = true →
        Checked sha256 schnorr event ∧ out.length < (asBytes event.content).length / 2 := by
  apply Reports.bind
  · intro error herror hsmall
    rw [reports_verifyEvent event error herror] at hsmall
    cases hsmall
  intro _ hverified
  apply Reports.bind
  · exact reports_rejectIf nofun
  intro _ hkind
  apply Reports.bind
  · exact reports_rejectIf nofun
  intro _ htag
  have htag := rejectIf_eq_ok_iff.mp htag
  apply Reports.bind
  · apply Reports.bind
    · exact reports_rejectIf nofun
    intro _ hcontent error herror hsmall
    obtain ⟨heven, hshort⟩ := short_of_decodeLowerHex hlimit error herror hsmall
    exact ⟨⟨hverified, not_not.mp (rejectIf_eq_ok_iff.mp hkind), by simpa using htag,
      not_lt.mp (rejectIf_eq_ok_iff.mp hcontent), heven⟩, hshort⟩
  rintro ⟨len, out'⟩ _
  apply Reports.bind
  · intro error herror
    unfold slice at herror
    split_ifs at herror
    cases herror
  intro bytes _
  apply Reports.bind
  · cases decodeEnvelope bytes with
    | ok envelope => exact reports_ok _ _
    | error error => exact reports_fail nofun
  exact fun _ _ => reports_ok _ _

/-- With room for any envelope, something else is wrong with an event that is refused. -/
theorem reports_verifyAndDecodeHyfNostrEvent (event : NostrEvent) {out : List UInt8}
    (hlimit : out.length < addressLimit) (hroom : hyfNostrMaxEnvelopeBytes ≤ out.length) :
    Reports (verifyAndDecodeHyfNostrEvent sha256 schnorr event out)
      fun error => error.isOutputTooSmall = false := by
  intro error herror
  by_contra hsmall
  obtain ⟨hchecked, hshort⟩ := short_of_verifyAndDecodeHyfNostrEvent sha256 schnorr event hlimit error
    herror (Bool.eq_true_of_not_eq_false hsmall)
  have hmax : hyfNostrMaxContentChars = 2 * hyfNostrMaxEnvelopeBytes := rfl
  have hcontent := hchecked.content_le
  omega

end

end Hyf.Nostr
