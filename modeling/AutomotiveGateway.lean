import AutomotiveGateway.Foundation.ByteOrder
import AutomotiveGateway.Foundation.Framing
import AutomotiveGateway.Foundation.InOrder
import AutomotiveGateway.Foundation.Insertion
import AutomotiveGateway.Foundation.Interleaving
import AutomotiveGateway.Foundation.Json
import AutomotiveGateway.Foundation.Loop
import AutomotiveGateway.Foundation.Machine
import AutomotiveGateway.Foundation.Memory
import AutomotiveGateway.Foundation.Network
import AutomotiveGateway.Foundation.OrderStatistics
import AutomotiveGateway.Foundation.Pacing
import AutomotiveGateway.Foundation.RunLoop
import AutomotiveGateway.Foundation.Scope
import AutomotiveGateway.Foundation.StdString
import AutomotiveGateway.DoIp.Message
import AutomotiveGateway.DoIp.Encoding
import AutomotiveGateway.DoIp.Uds
import AutomotiveGateway.DoIp.Connection
import AutomotiveGateway.DoIp.Reassembly
import AutomotiveGateway.DoIp.NarrowSizeT
import AutomotiveGateway.DoIp.Session
import AutomotiveGateway.DoIp.Server
import AutomotiveGateway.DoIp.Exchanges
import AutomotiveGateway.DoIp.Replies
import AutomotiveGateway.DoIp.Correlation
import AutomotiveGateway.DoIp.ShortSend
import AutomotiveGateway.DoIp.Client
import AutomotiveGateway.DoIp.ReceiveBuffer
import AutomotiveGateway.DoIp.Oversized
import AutomotiveGateway.DoIp.Diagnosis
import AutomotiveGateway.DoIp.Testers
import AutomotiveGateway.Someip.ServiceDiscovery
import AutomotiveGateway.Someip.SdService
import AutomotiveGateway.Someip.Subscriber
import AutomotiveGateway.Can.Definitions
import AutomotiveGateway.Can.SignalDecoder
import AutomotiveGateway.Can.DbcParser
import AutomotiveGateway.Can.DbcText
import AutomotiveGateway.Can.DbcRoundTrip
import AutomotiveGateway.Can.DbcAttribution
import AutomotiveGateway.Can.SignalSyntax
import AutomotiveGateway.Can.RawValue
import AutomotiveGateway.Can.Motorola
import AutomotiveGateway.Can.BitExtraction
import AutomotiveGateway.Can.ShiftCounts
import AutomotiveGateway.Someip.Message
import AutomotiveGateway.Someip.Receivers
import AutomotiveGateway.Someip.SdRoundTrip
import AutomotiveGateway.Someip.Loopback
import AutomotiveGateway.Someip.Offers
import AutomotiveGateway.Someip.Renewals
import AutomotiveGateway.Someip.Autosar
import AutomotiveGateway.Someip.Publisher
import AutomotiveGateway.Someip.Sessions
import AutomotiveGateway.Someip.OfferRuns
import AutomotiveGateway.Gateway.Callback
import AutomotiveGateway.Gateway.Pipeline
import AutomotiveGateway.Gateway.FrameFormat
import AutomotiveGateway.Gateway.DataLength
import AutomotiveGateway.Gateway.WatchdogTimer
import AutomotiveGateway.Gateway.Silence
import AutomotiveGateway.Gateway.WakeUps
import AutomotiveGateway.Gateway.Process
import AutomotiveGateway.Gateway.Shutdown
import AutomotiveGateway.Gateway.ConfigLoader
import AutomotiveGateway.Gateway.RouteNumbers
import AutomotiveGateway.Gateway.VehicleFiles
import AutomotiveGateway.Gateway.Startup
import AutomotiveGateway.Bench.LatencyHistogram
import AutomotiveGateway.Bench.Percentiles
import AutomotiveGateway.Bench.BenchmarkCollector
import AutomotiveGateway.Bench.StatsReporter
import AutomotiveGateway.Gateway.Schedule
import AutomotiveGateway.Gateway.Discovery
import AutomotiveGateway.Gateway.Waiting
import AutomotiveGateway.Gateway.EndToEnd
import AutomotiveGateway.Gateway.Simulator
import AutomotiveGateway.Gateway.StressTest
