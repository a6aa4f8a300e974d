import Hyf.Common.SlotArray
import Hyf.Link.Frame
import Hyf.Wire.Envelope

/-!
# The router (`hyf_router`)

The router owns the link table, the duplicate filter and the clock, and turns events into commands.
It performs no I/O: commands are written into a slice of the caller, and a routing function returns
how many it wrote. An `Emission` is that pair, the returned result and the slice afterwards.
-/

namespace Hyf

def routerCommandCapacity : ℕ := 16

def routerLocalCommunityCapacity : ℕ := 8

/-- Why a message is dropped. -/
inductive DropReason where
  | duplicate
  | expired
  | hopLimitExhausted
  | invalidEnvelope
  | malformedFrame
  | noRoute
  deriving DecidableEq

/-- What the store is asked for. -/
inductive RouterStoreCommand where
  | put (envelope : HyfEnvelopeRef)
  | remove (messageId : MessageId)
  | expireBefore (now : TimestampMs)
  deriving DecidableEq

/-- What the router asks the gateway to do. -/
inductive RouterCommand where
  | send (linkId : LinkId) (envelope : HyfEnvelopeRef)
  | store (command : RouterStoreCommand)
  | drop (messageId : MessageId) (reason : DropReason)
  | dropFrame (linkId : LinkId) (reason : DropReason)
  | deliverLocal (envelope : HyfEnvelopeRef)
  deriving DecidableEq

/-- A command to send. -/
def RouterCommand.isSend : RouterCommand → Bool
  | send _ _ => true
  | _ => false

/-- The errors of the router. -/
inductive RouterError where
  | outputTooSmall (actual required : ℕ)
  | tooManyLinks (maximum : ℕ)
  | invalidEnvelope (error : HyfWireError)
  deriving DecidableEq

/-- What the router is told. -/
inductive RouterEvent where
  | link (event : LinkEvent)
  | localSubmit (envelope : HyfEnvelopeRef)
  | tick (nowMs : TimestampMs)
  deriving DecidableEq

/-- Who the node is, and its communities. -/
structure RouterPolicy where
  localNodeId : NodeId
  localCommunities : SlotArray CommunityId routerLocalCommunityCapacity
  deriving DecidableEq

/-- `is_local_community`. -/
def RouterPolicy.isLocalCommunity (policy : RouterPolicy) (communityId : CommunityId) : Bool :=
  policy.localCommunities.live.any fun configured => configured = communityId

/-- A link and whether it is up. -/
structure LinkState where
  linkId : LinkId
  up : Bool
  deriving DecidableEq

/-- The part of a destination that the duplicate filter looks at. -/
inductive SeenDestination where
  | messageOnly
  | community (communityId : CommunityId)
  deriving DecidableEq

/-- What the duplicate filter remembers of a message. -/
structure RouterSeenKey where
  destination : SeenDestination
  messageId : MessageId
  deriving DecidableEq

/-- The identity under which the duplicate filter knows a message. -/
def seenKeyFor (envelope : HyfEnvelopeRef) : RouterSeenKey where
  destination := match envelope.destination with
    | .community communityId => .community communityId
    | .node _ | .foreign _ => .messageOnly
  messageId := envelope.messageId

/-- `envelope_for_next_hop`: what comes in on a link goes out one hop shorter. -/
def envelopeForNextHop (envelope : HyfEnvelopeRef) (ingress : Option LinkId) :
    Except DropReason HyfEnvelopeRef :=
  match ingress with
  | none => if envelope.hopLimit = 0 then .error .hopLimitExhausted else .ok envelope
  | some _ =>
    if envelope.hopLimit ≤ 1 then .error .hopLimitExhausted
    else .ok { envelope with hopLimit := envelope.hopLimit - 1 }

/-- `invalid_envelope_drop_reason`. -/
def invalidEnvelopeDropReason : HyfWireError → Option DropReason
  | .invalidExpiry => some .expired
  | _ => none

/-- The result of a routing function and the command slice after it. -/
structure Emission where
  result : Except RouterError ℕ
  out : List RouterCommand
  deriving DecidableEq

/-- Write a single command. -/
def emit (out : List RouterCommand) (command : RouterCommand) : Emission :=
  if out.isEmpty then ⟨.error (.outputTooSmall 0 1), out⟩
  else ⟨.ok 1, out.set 0 command⟩

/-- The router: its policy and clock, the links, and the duplicate filter. -/
structure Router (maxLinks maxSeen : ℕ) where
  policy : RouterPolicy
  nowMs : TimestampMs
  links : SlotArray LinkState maxLinks
  seen : SlotArray RouterSeenKey maxSeen
  nextSeen : ℕ

namespace Router

variable {maxLinks maxSeen : ℕ}

/-- `new`. -/
def new (policy : RouterPolicy) : Router maxLinks maxSeen where
  policy := policy
  nowMs := 0
  links := SlotArray.empty _ _
  seen := SlotArray.empty _ _
  nextSeen := 0

/-! ## Duplicate filter -/

/-- `has_seen`. -/
def hasSeen (router : Router maxLinks maxSeen) (key : RouterSeenKey) : Bool :=
  router.seen.live.any fun existing => existing = key

/-- `mark_seen`: the key takes the first free cell, or the one whose turn it is. -/
def markSeen (router : Router maxLinks maxSeen) (key : RouterSeenKey) : Router maxLinks maxSeen :=
  if maxSeen = 0 then router
  else match router.seen.firstFree with
    | some index =>
      { router with seen := router.seen.write index (some key), nextSeen := (index + 1) % maxSeen }
    | none =>
      { router with
        seen := router.seen.write router.nextSeen (some key)
        nextSeen := (router.nextSeen + 1) % maxSeen }

/-- `commit_seen`. -/
def commitSeen (router : Router maxLinks maxSeen) (envelope : HyfEnvelopeRef) :
    Router maxLinks maxSeen :=
  let key := seenKeyFor envelope
  if !router.hasSeen key then router.markSeen key else router

/-! ## Link table -/

/-- `find_link_index`. -/
def findLinkIndex (router : Router maxLinks maxSeen) (linkId : LinkId) : Option ℕ :=
  router.links.findLive fun existing => existing.linkId = linkId

/-- `set_link_state`: a link that is new takes a free cell. -/
def setLinkState (router : Router maxLinks maxSeen) (linkId : LinkId) (up : Bool) :
    Except RouterError (Router maxLinks maxSeen) :=
  match router.findLinkIndex linkId with
  | some index => .ok { router with links := router.links.write index (some ⟨linkId, up⟩) }
  | none =>
    if !up then .ok router
    else match router.links.firstFree with
      | none => .error (.tooManyLinks maxLinks)
      | some index => .ok { router with links := router.links.write index (some ⟨linkId, up⟩) }

/-- The links a message that came in on `ingress` may leave on. -/
def isUpLinkExcept (ingress : Option LinkId) (link : LinkState) : Bool :=
  link.up && decide (some link.linkId ≠ ingress)

/-- `first_up_link_except`. -/
def firstUpLinkExcept (router : Router maxLinks maxSeen) (ingress : Option LinkId) :
    Option LinkId :=
  (router.links.live.find? (isUpLinkExcept ingress)).map LinkState.linkId

/-- `up_link_count_except`. -/
def upLinkCountExcept (router : Router maxLinks maxSeen) (ingress : Option LinkId) : ℕ :=
  router.links.live.countP (isUpLinkExcept ingress)

/-- `is_local_destination`. -/
def isLocalDestination (router : Router maxLinks maxSeen) (destination : HyfDestination) : Bool :=
  match destination with
  | .node nodeId => nodeId = router.policy.localNodeId
  | _ => false

/-! ## Routing -/

/-- `none` is `Ok(None)`, routing goes on; `some` is what the caller returns. -/
def rejectInvalidOrExpired (router : Router maxLinks maxSeen) (envelope : HyfEnvelopeRef)
    (out : List RouterCommand) : Option Emission :=
  match validateEnvelope envelope with
  | .error error =>
    match invalidEnvelopeDropReason error with
    | some reason => some (emit out (.drop envelope.messageId reason))
    | none => some ⟨.error (.invalidEnvelope error), out⟩
  | .ok () =>
    if envelope.expiresAtMs ≤ router.nowMs then
      some (emit out (.drop envelope.messageId .expired))
    else none

/-- As `rejectInvalidOrExpired`, and an exhausted hop limit is rejected too. -/
def rejectTerminalEnvelope (router : Router maxLinks maxSeen) (envelope : HyfEnvelopeRef)
    (out : List RouterCommand) : Option Emission :=
  match validateEnvelope envelope with
  | .error error =>
    match invalidEnvelopeDropReason error with
    | some reason => some (emit out (.drop envelope.messageId reason))
    | none => some ⟨.error (.invalidEnvelope error), out⟩
  | .ok () =>
    if envelope.expiresAtMs ≤ router.nowMs then
      some (emit out (.drop envelope.messageId .expired))
    else if envelope.hopLimit = 0 then
      some (emit out (.drop envelope.messageId .hopLimitExhausted))
    else none

/-- The fan-out loop: one `Send` per selected link, written from `count` on. -/
def writeSends (selected : LinkState → Bool) (outbound : HyfEnvelopeRef) :
    List LinkState → ℕ → List RouterCommand → ℕ × List RouterCommand
  | [], count, out => (count, out)
  | link :: rest, count, out =>
    if selected link then
      writeSends selected outbound rest (count + 1) (out.set count (.send link.linkId outbound))
    else writeSends selected outbound rest count out

/-- A community message without an egress. -/
def emitCommunityFallback (envelope : HyfEnvelopeRef) (ingress : Option LinkId)
    (out : List RouterCommand) : Emission :=
  if ingress.isNone then emit out (.store (.put envelope))
  else emit out (.drop envelope.messageId .noRoute)

/-- `handle_community_envelope`. -/
def handleCommunityEnvelope (router : Router maxLinks maxSeen) (envelope : HyfEnvelopeRef)
    (communityId : CommunityId) (ingress : Option LinkId) (out : List RouterCommand) : Emission :=
  if ingress.isSome && decide (envelope.hopLimit ≤ 1) then
    emit out (.drop envelope.messageId .hopLimitExhausted)
  else
    let localDelivery := router.policy.isLocalCommunity communityId &&
      !router.hasSeen (seenKeyFor envelope)
    let sendCount := router.upLinkCountExcept ingress
    let required := localDelivery.toNat + sendCount
    if required = 0 then emitCommunityFallback envelope ingress out
    else if out.length < required then ⟨.error (.outputTooSmall out.length required), out⟩
    else
      let (count, out) :=
        if localDelivery then (1, out.set 0 (.deliverLocal envelope)) else (0, out)
      let outbound := match ingress with
        | some _ => { envelope with hopLimit := envelope.hopLimit - 1 }
        | none => envelope
      let (count, out) :=
        writeSends (isUpLinkExcept ingress) outbound router.links.live count out
      ⟨.ok count, out⟩

/-- `forward_stored_community`. -/
def forwardStoredCommunity (router : Router maxLinks maxSeen) (envelope : HyfEnvelopeRef)
    (communityId : CommunityId) (out : List RouterCommand) : Emission :=
  let localDelivery := router.policy.isLocalCommunity communityId &&
    !router.hasSeen (seenKeyFor envelope)
  let sendCount := router.upLinkCountExcept none
  let required := localDelivery.toNat + sendCount
  if required = 0 then ⟨.ok 0, out⟩
  else if out.length < required then ⟨.error (.outputTooSmall out.length required), out⟩
  else
    let (count, out) :=
      if localDelivery then (1, out.set 0 (.deliverLocal envelope)) else (0, out)
    let (count, out) := writeSends LinkState.up envelope router.links.live count out
    ⟨.ok count, out⟩

/-- `handle_envelope`. -/
def handleEnvelope (router : Router maxLinks maxSeen) (envelope : HyfEnvelopeRef)
    (ingress : Option LinkId) (out : List RouterCommand) : Emission :=
  match router.rejectInvalidOrExpired envelope out with
  | some emission => emission
  | none =>
    if router.hasSeen (seenKeyFor envelope) then emit out (.drop envelope.messageId .duplicate)
    else match envelope.destination with
      | .community communityId => router.handleCommunityEnvelope envelope communityId ingress out
      | .node _ | .foreign _ =>
        if router.isLocalDestination envelope.destination then emit out (.deliverLocal envelope)
        else match envelopeForNextHop envelope ingress with
          | .error reason => emit out (.drop envelope.messageId reason)
          | .ok outbound =>
            match router.firstUpLinkExcept ingress with
            | some linkId => emit out (.send linkId outbound)
            | none => emit out (.store (.put outbound))

/-- `handle_frame`. -/
def handleFrame (router : Router maxLinks maxSeen) (frame : LinkFrameRef)
    (out : List RouterCommand) : Emission :=
  match decodeEnvelope frame.bytes with
  | .ok envelope => router.handleEnvelope envelope (some frame.linkId) out
  | .error _ => emit out (.dropFrame frame.linkId .malformedFrame)

/-- Route one event; the router afterwards comes with the emission. -/
def handleEvent (router : Router maxLinks maxSeen) (event : RouterEvent)
    (out : List RouterCommand) : Emission × Router maxLinks maxSeen :=
  match event with
  | .link (.up linkId) =>
    match router.setLinkState linkId true with
    | .ok router' => (⟨.ok 0, out⟩, router')
    | .error error => (⟨.error error, out⟩, router)
  | .link (.down linkId) =>
    match router.setLinkState linkId false with
    | .ok router' => (⟨.ok 0, out⟩, router')
    | .error error => (⟨.error error, out⟩, router)
  | .link (.frame frame) => (router.handleFrame frame out, router)
  | .localSubmit envelope => (router.handleEnvelope envelope none out, router)
  | .tick nowMs => (emit out (.store (.expireBefore nowMs)), { router with nowMs := nowMs })

/-- Route a message taken from the store. -/
def forwardStored (router : Router maxLinks maxSeen) (envelope : HyfEnvelopeRef)
    (out : List RouterCommand) : Emission :=
  match router.rejectTerminalEnvelope envelope out with
  | some emission => emission
  | none => match envelope.destination with
    | .community communityId => router.forwardStoredCommunity envelope communityId out
    | .node _ | .foreign _ =>
      if router.isLocalDestination envelope.destination then
        if router.hasSeen (seenKeyFor envelope) then
          emit out (.drop envelope.messageId .duplicate)
        else emit out (.deliverLocal envelope)
      else match router.firstUpLinkExcept none with
        | some linkId => emit out (.send linkId envelope)
        | none => ⟨.ok 0, out⟩

end Router

end Hyf
