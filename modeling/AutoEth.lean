import AutoEth.Lib.Except
import AutoEth.Lib.Dict
import AutoEth.Lib.Distinct
import AutoEth.Lib.BigEndian
import AutoEth.Lib.Stream
import AutoEth.Lib.Units
import AutoEth.Lib.Loop
import AutoEth.Lib.Consume
import AutoEth.Lib.Run
import AutoEth.Lib.Interleave
import AutoEth.Lib.Laps
import AutoEth.Lib.Round
import AutoEth.Lib.Binary64
import AutoEth.Lib.Inet
import AutoEth.Lib.Gf2
import AutoEth.Lib.Crc
import AutoEth.Py
import AutoEth.Floats
import AutoEth.Config
import AutoEth.Codec
import AutoEth.Routes
import AutoEth.Validation
import AutoEth.Quantisation
import AutoEth.Payloads
import AutoEth.E2e
import AutoEth.E2eErrors
import AutoEth.Framing
import AutoEth.Someip
import AutoEth.Reassembly
import AutoEth.Handler
import AutoEth.HandlerRuns
import AutoEth.HandlerStream
import AutoEth.HandlerSafety
import AutoEth.Call
import AutoEth.Publisher
import AutoEth.WireIdentity
import AutoEth.Sd
import AutoEth.SdRoundTrip
import AutoEth.SdWire
import AutoEth.SdSafety
import AutoEth.SdLengths
import AutoEth.Listener
import AutoEth.ListenerRuns
import AutoEth.RegistryHistory
import AutoEth.Subscribe
import AutoEth.Transport
import AutoEth.Subscription
import AutoEth.EventStream
import AutoEth.SubscriptionRuns
import AutoEth.UdpSubscribe
import AutoEth.Receivers
import AutoEth.Agreement
import AutoEth.Announcer
import AutoEth.Announcement
import AutoEth.Instances
import AutoEth.Shared
import AutoEth.Snapshots
import AutoEth.TwoServers
import AutoEth.Confirmation
import AutoEth.ServerContext
import AutoEth.Acks
import AutoEth.ServerThreads
import AutoEth.Isolation
import AutoEth.ServerRuns
import AutoEth.ServerSessions
import AutoEth.Delivery
import AutoEth.Subscribers
import AutoEth.Answered
import AutoEth.Node
import AutoEth.Discovery
import AutoEth.Served
import AutoEth.Terminal
import AutoEth.ClientTerminal
import AutoEth.Tui
