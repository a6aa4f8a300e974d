import Hyf.Common.SlotArray
import Hyf.Common.DedupeWindow
import Hyf.Common.ByteCodec
import Hyf.Common.CursorM
import Hyf.Common.Transaction
import Hyf.Common.BoundedMap
import Hyf.Common.Msgpack
import Hyf.Common.Text
import Hyf.Common.JsonText
import Hyf.Common.LoggedSteps
import Hyf.Core.Types
import Hyf.Link.Frame
import Hyf.Wire.Envelope
import Hyf.Wire.EnvelopeTheorems
import Hyf.Wire.EnvelopeChecked
import Hyf.Store.Store
import Hyf.Store.StoreTheorems
import Hyf.Store.StoreCalls
import Hyf.Bridge.Message
import Hyf.Bridge.MessageTheorems
import Hyf.Bitchat.Packet
import Hyf.Bitchat.PacketTheorems
import Hyf.Bridge.BitchatBridge
import Hyf.Lxmf.MsgpackCursor
import Hyf.Lxmf.MsgpackTheorems
import Hyf.Lxmf.Message
import Hyf.Lxmf.SignatureTheorems
import Hyf.Lxmf.MessageTheorems
import Hyf.Bridge.LxmfBridge
import Hyf.Nostr.Event
import Hyf.Nostr.EventTheorems
import Hyf.Bridge.NostrBridge
import Hyf.BridgeRuntime.Orchestrator
import Hyf.BridgeRuntime.OrchestratorTheorems
import Hyf.BridgeRuntime.Runs
import Hyf.Router.Router
import Hyf.Router.RouterPlan
import Hyf.Router.RouterState
import Hyf.Router.RouterTheorems
import Hyf.Router.HopLimit
import Hyf.Config.Config
import Hyf.Gateway.Core
import Hyf.Gateway.Execution
import Hyf.Gateway.Flush
import Hyf.Gateway.Runs
import Hyf.Gateway.Expiry
import Hyf.Gateway.Dedupe
import Hyf.Gateway.Retention
import Hyf.Gateway.Submit
import Hyf.Gateway.Echo
import Hyf.Gateway.Capacity
import Hyf.Common.BufferM
import Hyf.Common.EndsWith
import Hyf.Common.JsonSyntax
import Hyf.Common.JsonCompact
import Hyf.Common.Mealy
import Hyf.Common.Moves
import Hyf.Common.SlotQueue
import Hyf.Common.TextParser
import Hyf.Kiss.Kiss
import Hyf.Kiss.KissTheorems
import Hyf.Kiss.Resync
import Hyf.Loopback.Loopback
import Hyf.Loopback.Fifo
import Hyf.Nostr.Canonical
import Hyf.Nostr.Envelope
import Hyf.Nostr.Filter
import Hyf.Nostr.Stored
import Hyf.Nostr.FakeRelay
import Hyf.Nostr.RelayInvariant
import Hyf.Nostr.Replay
import Hyf.Nostr.RelayOperations
import Hyf.Nostr.EnvelopeEvents
import Hyf.Nostr.JsonParser
import Hyf.Nostr.JsonParserTheorems
import Hyf.Nostr.JsonParserValues
import Hyf.Nostr.Messages
import Hyf.Nostr.MessagesWriting
import Hyf.Nostr.MessagesRoundTrip
import Hyf.Nostr.RelayRuns
import Hyf.Nostr.RelayAtomic
import Hyf.NostrGateway.Executor
import Hyf.NostrGateway.Polls
import Hyf.NostrGateway.Runs
import Hyf.NostrGateway.Carriage
import Hyf.RNode.Command
import Hyf.Rns.Packet
import Hyf.RNodeSerial.Link
import Hyf.RNodeSerial.Port
import Hyf.RNodeSerial.Polls
import Hyf.RNodeSerial.Stream
import Hyf.RNodeSerial.Rejected
import Hyf.RNodeSerial.EndToEnd
import Hyf.RNodeSerial.Failures
import Hyf.RNodeSerial.FlowControl
import Hyf.Rns.Crypto
import Hyf.Rns.PacketTheorems
import Hyf.Rns.Announce
import Hyf.Rns.Ifac
import Hyf.Rns.AnnounceTheorems
import Hyf.Rns.AnnounceEncoding
import Hyf.Rns.PacketHash
import Hyf.Router.FanOut
import Hyf.Router.Forwarding
import Hyf.Gateway.Clock
import Hyf.NostrGateway.Feed
import Hyf.Gateway.FlushTurns
import Hyf.Router.Failures
import Hyf.Common.InsertionSort
import Hyf.Store.Pending
import Hyf.Kiss.Bodies
import Hyf.Kiss.Chunks
import Hyf.NostrGateway.Progress
import Hyf.Common.Ranking
import Hyf.Common.ArrayFill
import Hyf.Nostr.FilterTheorems
import Hyf.Nostr.Handing
import Hyf.Nostr.StoredArrays
import Hyf.Nostr.ReplayOrder
import Hyf.Common.FloatExponent
import Hyf.Lxmf.PayloadLayout
import Hyf.Lxmf.RoundTrip
import Hyf.Nostr.LowerHex
import Hyf.Rns.DestinationNames
import Hyf.Bridge.EventJson
import Hyf.BridgeRuntime.EgressSizes
import Hyf.Rns.Pkcs7
import Hyf.Rns.Token
import Hyf.Rns.TokenTheorems
import Hyf.Rns.SinglePacket
import Hyf.Rns.RatchetSelection
import Hyf.Common.SlotAccess
import Hyf.Fips.Sidecar
import Hyf.Fips.Executor
import Hyf.Fips.Queues
import Hyf.Fips.SidecarRuns
import Hyf.Fips.Isolation
import Hyf.Config.Validity
import Hyf.Gateway.Calls
import Hyf.Gateway.Traffic
import Hyf.Gateway.Metrics
import Hyf.GatewayRuntime.Runtime
import Hyf.GatewayRuntime.Answers
import Hyf.GatewayRuntime.Runs
import Hyf.GatewayRuntime.Construction
import Hyf.GatewayRuntime.Frames
import Hyf.RNode.Encoding
import Hyf.RNode.Readiness
import Hyf.Common.JsonSpaced
import Hyf.RNode.Timestamp
import Hyf.RNode.Manifest
import Hyf.Common.Relaying
import Hyf.Gateway.Mesh
import Hyf.Link.Carrier
import Hyf.Gateway.Carriage
import Hyf.Gateway.Delivery
import Hyf.Gateway.Flooding
import Hyf.RNodeSerial.RawRns
import Hyf.Gateway.Once
import Hyf.Gateway.Recovery
