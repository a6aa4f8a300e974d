import Hyf.Core.Types

/-!
# Links, frames and driver errors (`hyf_link`)

The gateway sees a link as an identifier, the frames that arrive on it, and its up and down events.
A frame borrows its bytes from the caller; the model keeps the bytes themselves.
-/

namespace Hyf

structure LinkId where
  bytes : ByteArrayN 16
  deriving DecidableEq

structure LinkFrameRef where
  linkId : LinkId
  receivedAtMs : TimestampMs
  bytes : List UInt8
  deriving DecidableEq

inductive LinkEvent where
  | frame (frame : LinkFrameRef)
  | up (linkId : LinkId)
  | down (linkId : LinkId)
  deriving DecidableEq

inductive LinkDriverErrorKind where
  | linkDown
  | backpressure
  | transientSend
  | transientReceive
  | outputTooSmall
  | frameTooLarge
  | protocol
  | unsupported
  | fatal
  deriving DecidableEq

/-- The failures after which the same send may be tried again. -/
def LinkDriverErrorKind.isRecoverableSendFailure : LinkDriverErrorKind → Bool
  | linkDown | backpressure | transientSend => true
  | _ => false

end Hyf
