import RfTrans.Ring.Delivery
import RfTrans.Discovery.Codec
import RfTrans.Network.Healing
import RfTrans.Runtime.Registrations
import RfTrans.Service.Request
import RfTrans.Runtime.Scopes
import RfTrans.Network.Containment
import RfTrans.Discovery.Wire
import RfTrans.Lib.Replica
import RfTrans.Network.Agreement
import RfTrans.Runtime.Watched
import RfTrans.Discovery.Runs
import RfTrans.Service.Discovered
import RfTrans.Ring.Names
import RfTrans.Cli.TopicSniffer
import RfTrans.Node.Node
import RfTrans.Lib.Interleaving
import RfTrans.Service.Threads
import RfTrans.Service.Stranded
import RfTrans.Service.Answers
import RfTrans.Runtime.Matched
import RfTrans.Network.Links
import RfTrans.Network.Recovery
import RfTrans.Network.InFlight
import RfTrans.Network.Registration
import RfTrans.Discovery.Collection
import RfTrans.Discovery.HandlerMap
import RfTrans.Runtime.LocalDelivery
import RfTrans.Lib.Framing
import RfTrans.Node.Receivers
import RfTrans.Runtime.Connections
import RfTrans.Runtime.Filters
import RfTrans.Service.TimedOut
import RfTrans.Lib.Layout
import RfTrans.Service.ServiceLoop
import RfTrans.Ring.Bounds
import RfTrans.Ring.Region
import RfTrans.Service.Genuine
import RfTrans.Ring.WriterMapping
import RfTrans.Ring.History
import RfTrans.Discovery.Silence
import RfTrans.Lib.DropOldest
import RfTrans.Runtime.RemoteQueue
import RfTrans.Node.FailedAdvertise
import RfTrans.Runtime.TypeTests
import RfTrans.Discovery.RoundTrip
import RfTrans.Runtime.Publish
import RfTrans.Runtime.PublishSteps
import RfTrans.Lib.Dialing
import RfTrans.Service.Requester
import RfTrans.Lib.Rounding
import RfTrans.Lib.Timing
import RfTrans.Node.Publisher
import RfTrans.Cli.Endpoints
import RfTrans.Cli.Watch
import RfTrans.Lib.Decimal
import RfTrans.Lib.Json
import RfTrans.Cli.Printing
import RfTrans.Cli.Options
import RfTrans.Cli.RawDecode
import RfTrans.Lib.Exec
import RfTrans.Network.Quiescence
import RfTrans.Network.DataPlane
import RfTrans.Network.DiscoveryLoop
import RfTrans.Network.FailureDetector
import RfTrans.Lib.Mailbox
import RfTrans.Node.DispatchThreads
import RfTrans.Cli.Main
import RfTrans.Network.Endpoints
import RfTrans.Network.Calls
import RfTrans.Node.Topics
