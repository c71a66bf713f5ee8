import RosBridge.Lib.Program
import RosBridge.Lib.Table
import RosBridge.Lib.Regex
import RosBridge.Lib.RegexLanguage
import RosBridge.Lib.JsonTree
import RosBridge.Lib.KeyOrder
import RosBridge.Lib.Json
import RosBridge.Lib.Log
import RosBridge.Lib.Runs
import RosBridge.Lib.Utf16
import RosBridge.Lib.Base64
import RosBridge.Lib.Binary
import RosBridge.Lib.Decimal
import RosBridge.Session.Validation
import RosBridge.Session.CommandGuard
import RosBridge.Session.GuardRuns
import RosBridge.Session.GuardSpecs
import RosBridge.Session.Changes
import RosBridge.Session.Exclusive
import RosBridge.Session.DeliveryQueue
import RosBridge.Session.QueueSpecs
import RosBridge.Media.Rtp
import RosBridge.Media.Source
import RosBridge.Media.SourceRuns
import RosBridge.Media.Books
import RosBridge.Media.Encoders
import RosBridge.Media.Waiting
import RosBridge.Media.Superseded
import RosBridge.Media.Preserved
import RosBridge.Codec.Schema
import RosBridge.Codec.Convert
import RosBridge.Codec.Typed
import RosBridge.Codec.RoundTrip
import RosBridge.Codec.Laws
import RosBridge.Codec.Limits
import RosBridge.Ros.Representation
import RosBridge.Ros.NativeTrees
import RosBridge.Ros.PublishPath
import RosBridge.Ros.RoundTrip
import RosBridge.Ros.Descriptor
import RosBridge.Config.Binding
import RosBridge.Router.Protocol
import RosBridge.Router.RequestCache
import RosBridge.Router.State
import RosBridge.Router.Session
import RosBridge.Router.Runs
import RosBridge.Router.CacheSpecs
import RosBridge.Router.Steps
import RosBridge.Router.Sane
import RosBridge.Router.Closing
import RosBridge.Router.Hooks
import RosBridge.Router.Walk
import RosBridge.Router.Work
import RosBridge.Router.Publishing
import RosBridge.Router.Inputs
import RosBridge.Router.Turns
import RosBridge.Router.Names
import RosBridge.Router.Revocation
import RosBridge.Router.Accounting
import RosBridge.Router.Releasing
import RosBridge.Router.Nesting
import RosBridge.Router.Rechecking
import RosBridge.Router.Returning
import RosBridge.Router.Retransmission
import RosBridge.Lib.Chunks
import RosBridge.Media.Frames
import RosBridge.Session.Tickets
import RosBridge.Lib.Text
import RosBridge.Transport.Sdp
import RosBridge.Transport.Offers
import RosBridge.Transport.Negotiator
import RosBridge.Transport.Reading
import RosBridge.Transport.Readers
import RosBridge.Router.VideoSlots
import RosBridge.Transport.Mids
import RosBridge.Config.Bridge
import RosBridge.Config.Video
import RosBridge.Router.Admission
import RosBridge.Transport.Endpoint
import RosBridge.Transport.EndpointSafety
import RosBridge.Media.Service
import RosBridge.Media.Pipelines
import RosBridge.Lib.JsonSize
import RosBridge.App.Registry
import RosBridge.App.Catalog
import RosBridge.App.NameChecks
import RosBridge.App.Greeting
import RosBridge.Session.QueueContract
import RosBridge.Media.Numbering
import RosBridge.Media.Timers
import RosBridge.Media.Retry
import RosBridge.Media.Lines
import RosBridge.Media.Worker
import RosBridge.Media.Fixture
import RosBridge.Router.SlotBinding
import RosBridge.Router.Flushing
import RosBridge.Router.MessageSizes
import RosBridge.Transport.MessageLimit
import RosBridge.App.MessageSizes
import RosBridge.App.Canonical
import RosBridge.App.SchemaIds
import RosBridge.Worker.Encoder
import RosBridge.Worker.ParameterSet
import RosBridge.Lib.Interleaving
import RosBridge.Scripts.CredentialStore
import RosBridge.Scripts.Files
import RosBridge.Scripts.Agreement
import RosBridge.Ros.Adapter
import RosBridge.Ros.FanOut
import RosBridge.Lib.Conveyance
import RosBridge.Lib.Upholding
import RosBridge.Router.Streams
import RosBridge.Router.Announcing
import RosBridge.Router.Leases
import RosBridge.App.Writers
import RosBridge.Signaling.Exchanges
import RosBridge.Router.Capacity
import RosBridge.Transport.Closings
import RosBridge.App.Peers
import RosBridge.Worker.Specification
import RosBridge.Worker.Process
import RosBridge.Worker.Contract
