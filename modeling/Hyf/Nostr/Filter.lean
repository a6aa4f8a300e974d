import Hyf.Nostr.Envelope

/-!
# Filters and relay statuses (`hyf_link_nostr`)

A filter accepts an event when each of its conditions does, and a list of filters when one of them
does. A status is what a relay says about a published event or a closed subscription.
-/

namespace Hyf.Nostr

open ByteCodec

def nostrSubscriptionIdMaxLen : ℕ := 64

structure NostrFilter where
  kinds : List UInt16
  authors : List NostrPublicKey
  pTags : List NostrPublicKey
  since : Option UInt64
  «until» : Option UInt64
  limit : Option ℕ
  deriving DecidableEq

structure NostrFilterTarget where
  kind : UInt16
  author : NostrPublicKey
  pTags : List NostrPublicKey
  createdAt : UInt64

def hasAnyPTag (eventPTags filterPTags : List NostrPublicKey) : Bool :=
  filterPTags.any fun filterTag => eventPTags.contains filterTag

namespace NostrFilter

def empty : NostrFilter := ⟨[], [], [], none, none, none⟩

def matchesTarget (filter : NostrFilter) (target : NostrFilterTarget) : Bool :=
  (filter.kinds.isEmpty || filter.kinds.contains target.kind) &&
    (filter.authors.isEmpty || filter.authors.contains target.author) &&
    (filter.pTags.isEmpty || hasAnyPTag target.pTags filter.pTags) &&
    (filter.since.all fun first => decide (target.createdAt ≥ first)) &&
    (filter.«until».all fun last => decide (target.createdAt ≤ last))

end NostrFilter

def matchesAnyFilter (filters : List NostrFilter) (target : NostrFilterTarget) : Bool :=
  filters.any fun filter => filter.matchesTarget target

def validateSubscriptionId (subscriptionId : String) : Outcome NostrError Unit := do
  let len := (asBytes subscriptionId).length
  rejectIf (len = 0) .invalidSubscriptionId
  rejectIf (len > nostrSubscriptionIdMaxLen) (.subscriptionIdTooLong len nostrSubscriptionIdMaxLen)

/-! ## Statuses -/

inductive NostrRelayStatusPrefix where
  | duplicate
  | pow
  | blocked
  | rateLimited
  | invalid
  | restricted
  | mute
  | error
  | authRequired
  | unknown
  deriving DecidableEq

structure NostrRelayStatus where
  statusPrefix : NostrRelayStatusPrefix
  rawPrefix : String
  detail : String
  deriving DecidableEq

inductive NostrPublishOutcome where
  | accepted (message : String)
  | acceptedDuplicate (status : NostrRelayStatus)
  | rejected (status : NostrRelayStatus)
  deriving DecidableEq

end Hyf.Nostr
