import DpdkStarter.Library.Run
import DpdkStarter.Library.BoundedFifo
import DpdkStarter.Library.Successor
import DpdkStarter.FeatureArc.Repeated
import DpdkStarter.ThreadedPipeline.Shutdown
import DpdkStarter.SingleRing.Protocol
import DpdkStarter.SingleRing.Ownership
import DpdkStarter.Segregation.LoopHead
import DpdkStarter.Segregation.Dependence
import DpdkStarter.LearningSwitch.Forwarding
import DpdkStarter.GraphPipeline.Conservation
import DpdkStarter.TwoRing.Protocol
import DpdkStarter.EventParser.Worker
import DpdkStarter.Acl.Verdict
import DpdkStarter.Rss.Coverage
import DpdkStarter.LpmRouter.MainLoop
import DpdkStarter.Forwarders.TxRefusal
import DpdkStarter.ReadyHandshake.Protocol
import DpdkStarter.SimpleRing.Ownership
import DpdkStarter.StaticNat.Transport
import DpdkStarter.SimpleTx.Generator
import DpdkStarter.FeatureArc.Settled
import DpdkStarter.FeatureArc.Lookup
import DpdkStarter.PacketParser.Agreement
import DpdkStarter.StaticNat.Bounds
import DpdkStarter.StaticNat.Stability
import DpdkStarter.Acl.Defaults
import DpdkStarter.PacketChange.Operations
import DpdkStarter.Reordering.RxReorder
import DpdkStarter.Reordering.DynamicSeqno
import DpdkStarter.FeatureArc.Bounds
import DpdkStarter.ThreadedPipeline.Termination
import DpdkStarter.ThreadedPipeline.Order
import DpdkStarter.SingleRing.Progress
import DpdkStarter.TwoRing.Progress
import DpdkStarter.ThroughRing.Progress
import DpdkStarter.SimpleRing.Values
import DpdkStarter.Telemetry.Counters
import DpdkStarter.PacketParser.RoundTrip
import DpdkStarter.StaticNat.Refinement
import DpdkStarter.SimpleTx.Built
import DpdkStarter.Forwarders.Echo
import DpdkStarter.LpmRouter.Routes
import DpdkStarter.Acl.Sniffer
import DpdkStarter.Reordering.Sample
import DpdkStarter.EventDevice.TwoConsumers
import DpdkStarter.EventDevice.Processes
import DpdkStarter.PacketChange.Edits
import DpdkStarter.EventParser.Retention
import DpdkStarter.LearningSwitch.Ideal
import DpdkStarter.RxDropGraph.Sorting
import DpdkStarter.PacketChange.MainLoop
import DpdkStarter.ReadyHandshake.Progress
