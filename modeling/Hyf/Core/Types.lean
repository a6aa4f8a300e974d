import Mathlib.Data.Vector.Basic

/-!
# Identifiers and time (`hyf_core`)

The identifier types are fixed-width byte strings and are only ever compared. A foreign endpoint is
a tagged byte string of 1 to 32 bytes; the source keeps it in a zero-padded array next to its
length, which makes two endpoints equal exactly when their live bytes are.
-/

namespace Hyf

/-- A byte array `[u8; n]`. -/
abbrev ByteArrayN (n : ℕ) := List.Vector UInt8 n

/-- The array `[byte; n]`. -/
def fillBytes (n : ℕ) (byte : UInt8) : ByteArrayN n := List.Vector.replicate n byte

/-- Milliseconds, an unsigned 64-bit number. -/
abbrev TimestampMs := UInt64

structure NodeId where
  bytes : ByteArrayN 32
  deriving DecidableEq

structure MessageId where
  bytes : ByteArrayN 32
  deriving DecidableEq

structure CommunityId where
  bytes : ByteArrayN 16
  deriving DecidableEq

def foreignEndpointMaxLen : ℕ := 32

inductive ForeignNetworkKind where
  | fips
  | rns
  | nostr
  | lxmf
  | bitChat
  deriving DecidableEq

inductive ForeignEndpointError where
  | empty
  | tooLong (actual maximum : ℕ)
  | invalidNetworkTag (tag : UInt8)
  deriving DecidableEq

namespace ForeignNetworkKind

def wireTag : ForeignNetworkKind → UInt8
  | fips => 0
  | rns => 1
  | nostr => 2
  | lxmf => 3
  | bitChat => 4

def fromWireTag (tag : UInt8) : Except ForeignEndpointError ForeignNetworkKind :=
  if tag = 0 then .ok fips
  else if tag = 1 then .ok rns
  else if tag = 2 then .ok nostr
  else if tag = 3 then .ok lxmf
  else if tag = 4 then .ok bitChat
  else .error (.invalidNetworkTag tag)

theorem fromWireTag_wireTag (kind : ForeignNetworkKind) : fromWireTag kind.wireTag = .ok kind := by
  cases kind <;> rfl

/-- Only a kind's own tag decodes to it. -/
theorem wireTag_of_fromWireTag {tag : UInt8} {kind : ForeignNetworkKind}
    (h : fromWireTag tag = .ok kind) : kind.wireTag = tag := by
  unfold fromWireTag at h
  split_ifs at h with h0 h1 h2 h3 h4
  all_goals cases h; simp [wireTag, *]

end ForeignNetworkKind

/-- A foreign endpoint: the network and between 1 and 32 bytes (`as_bytes` of the source). -/
structure ForeignEndpointId where
  network : ForeignNetworkKind
  bytes : List UInt8
  nonempty : bytes ≠ []
  length_le : bytes.length ≤ foreignEndpointMaxLen
  deriving DecidableEq

namespace ForeignEndpointId

def new (network : ForeignNetworkKind) (bytes : List UInt8) :
    Except ForeignEndpointError ForeignEndpointId :=
  if hempty : bytes = [] then .error .empty
  else if hlong : bytes.length > foreignEndpointMaxLen then
    .error (.tooLong bytes.length foreignEndpointMaxLen)
  else .ok ⟨network, bytes, hempty, Nat.le_of_not_lt hlong⟩

def len (endpoint : ForeignEndpointId) : ℕ := endpoint.bytes.length

/-- Rebuilding an endpoint from its parts gives it back. -/
theorem new_self (endpoint : ForeignEndpointId) :
    new endpoint.network endpoint.bytes = .ok endpoint := by
  have hle := endpoint.length_le
  rw [new, dif_neg endpoint.nonempty, dif_neg (by omega)]

theorem new_eq_ok {network : ForeignNetworkKind} {bytes : List UInt8} {endpoint : ForeignEndpointId}
    (h : new network bytes = .ok endpoint) :
    endpoint.network = network ∧ endpoint.bytes = bytes := by
  unfold new at h
  split_ifs at h
  cases h
  exact ⟨rfl, rfl⟩

end ForeignEndpointId

end Hyf
