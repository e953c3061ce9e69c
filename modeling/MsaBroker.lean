import MsaBroker.Lib.CMemory
import MsaBroker.Lib.Fifo
import MsaBroker.Lib.KeyedList
import MsaBroker.Lib.Machine
import MsaBroker.Lib.Lease
import MsaBroker.Lib.LinkedList
import MsaBroker.Lib.Presence
import MsaBroker.Lib.Renewal
import MsaBroker.Lib.SortedMap
import MsaBroker.Zmessage
import MsaBroker.Elem
import MsaBroker.ElemHeap
import MsaBroker.Zmq
import MsaBroker.Broker
import MsaBroker.TrRecv
import MsaBroker.TrSend
import MsaBroker.TrMgnt
import MsaBroker.Pipeline
import MsaBroker.CtxPool
import MsaBroker.Verdict
import MsaBroker.ZsockList
import MsaBroker.PipelineSteps
import MsaBroker.ErrorReplies
import MsaBroker.CtxOwnership
import MsaBroker.CtxCursor
import MsaBroker.MsgBody
import MsaBroker.BufferLength
import MsaBroker.Ledger
import MsaBroker.Counters
import MsaBroker.FifoRefinement
import MsaBroker.FrameSync
import MsaBroker.Registry
import MsaBroker.MgntRuns
import MsaBroker.Sweep
import MsaBroker.RegistryHeap
import MsaBroker.ElemRefinement
import MsaBroker.LastHeard
import MsaBroker.BrokerRuns
import MsaBroker.SubByValue
import MsaBroker.RoutingIsolation
import MsaBroker.StringFields
import MsaBroker.ZsockTable
import MsaBroker.ServiceAgreement
import MsaBroker.Endpoints
import MsaBroker.Zutil
import MsaBroker.RecvBounds
import MsaBroker.Accounting
import MsaBroker.ServiceEndpoint
import MsaBroker.TickStat
import MsaBroker.ClientRoundTrip
import MsaBroker.Reception
import MsaBroker.Progress
import MsaBroker.Network
import MsaBroker.Posting
import MsaBroker.Parcels
import MsaBroker.Delivery
import MsaBroker.KeepAlive
import MsaBroker.HeapContexts
import MsaBroker.Silence
import MsaBroker.Availability
