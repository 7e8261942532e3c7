import GoDDS.Bridge.FanOut
import GoDDS.Bridge.Relay
import GoDDS.Bridge.Rest
import GoDDS.Cfilter.FailClosed
import GoDDS.Cfilter.Semantics
import GoDDS.ExclusiveOwnership
import GoDDS.Failover
import GoDDS.Inproc.SharedList
import GoDDS.Isolation
import GoDDS.JsClient
import GoDDS.Loan
import GoDDS.Operator.Cache
import GoDDS.Operator.Inject
import GoDDS.Record.Fault
import GoDDS.Ros2.GraphMessage
import GoDDS.Rpc
import GoDDS.Rtps.AntiReplay
import GoDDS.Rtps.BlockingClose
import GoDDS.Rtps.DataLayout
import GoDDS.Rtps.EndpointRoundTrip
import GoDDS.Rtps.Fidelity
import GoDDS.Rtps.FirstContact
import GoDDS.Rtps.Liveliness
import GoDDS.Rtps.Locks
import GoDDS.Rtps.Matching
import GoDDS.Rtps.Persist
import GoDDS.Rtps.ReadAccess
import GoDDS.Rtps.Reassembly
import GoDDS.Rtps.Recovery
import GoDDS.Rtps.Rejoin
import GoDDS.Rtps.Tcp
import GoDDS.Rtps.Withholding
import GoDDS.Safety.Accounting
import GoDDS.Safety.WriteOrder
import GoDDS.Security.Cert
import GoDDS.Shmem.BackPressure
import GoDDS.Shmem.DataFile
import GoDDS.Shmem.Duplicates
import GoDDS.Shmem.Listeners
import GoDDS.Tools.CdrFailure
import GoDDS.Tools.Idl.Names
import GoDDS.Tools.Idl.RoundTrip
import GoDDS.Tools.Idl.Scoping
import GoDDS.Tools.Idl.Termination
import GoDDS.Tools.Xtypes.Compatibility
import GoDDS.Tools.Xtypes.DynamicData
import GoDDS.Tsn.Health
import GoDDS.WaitSet
import GoDDS.WebSocketTransport
import GoDDS.Rtps.MessageFormat
import GoDDS.Topics
import GoDDS.IterationOrder
