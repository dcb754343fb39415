import NfvConsensus.Foundation.Text
import NfvConsensus.Foundation.Transition
import NfvConsensus.Foundation.Framing
import NfvConsensus.Foundation.Blocks
import NfvConsensus.Foundation.Windows
import NfvConsensus.Python
import NfvConsensus.OpenFlow
import NfvConsensus.ConsensusSwitch
import NfvConsensus.SimpleSwitch
import NfvConsensus.Network
import NfvConsensus.ClientPaxos
import NfvConsensus.LearnerPaxos
import NfvConsensus.Manager
import NfvConsensus.RuleText
import NfvConsensus.RequestFraming
import NfvConsensus.RequestStream
import NfvConsensus.SwitchEquivalence
import NfvConsensus.LearnerStream
import NfvConsensus.LearnedRule
import NfvConsensus.Foundation.Search
import NfvConsensus.DomainFile
import NfvConsensus.Domains
import NfvConsensus.PaxosConf
import NfvConsensus.Roles
import NfvConsensus.PythonLiteral
import NfvConsensus.OfctlRest
import NfvConsensus.RuleValue
import NfvConsensus.RestAcceptance
import NfvConsensus.StatsWaiters
import NfvConsensus.RestRoutes
import NfvConsensus.RestRequests
import NfvConsensus.System
import NfvConsensus.NetworkStart
import NfvConsensus.Delivery
import NfvConsensus.RuleDelivery
import NfvConsensus.Foundation.ReplicatedLog
import NfvConsensus.Agreement
import NfvConsensus.Stopping
import NfvConsensus.Progress
import NfvConsensus.Posting
import NfvConsensus.ClientProcesses
import NfvConsensus.Installation
import NfvConsensus.HostPorts
import NfvConsensus.MemoryIndependence
import NfvConsensus.CopyBounds
import NfvConsensus.Foundation.RunningMean
import NfvConsensus.Foundation.Extremes
import NfvConsensus.ClientStats
import NfvConsensus.LatencyStats
import NfvConsensus.ManagerPerformance
import NfvConsensus.ManagerTiming
import NfvConsensus.Foundation.Groups
import NfvConsensus.ParsePaxos
import NfvConsensus.ConsensusSeries
import NfvConsensus.Foundation.EventLoop
import NfvConsensus.Foundation.Related
import NfvConsensus.Learning
import NfvConsensus.DatapathAddress
import NfvConsensus.ChannelFailure
import NfvConsensus.MessageDecoding
import NfvConsensus.ConfTemplate
import NfvConsensus.AddressSearch
import NfvConsensus.ExtractLoop
import NfvConsensus.ExtractSafety
import NfvConsensus.Foundation.LittleEndian
import NfvConsensus.ClientVnfTest
import NfvConsensus.TestStream
import NfvConsensus.HeaderMemory
import NfvConsensus.ShortReads
import NfvConsensus.ForeignConnections
