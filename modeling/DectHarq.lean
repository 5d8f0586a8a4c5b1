import DectHarq.Isolation
import DectHarq.QueueOrder
import DectHarq.Quiescence
import DectHarq.Retransmission
import DectHarq.Handshake
import DectHarq.Freshness
import DectHarq.Leaks
import DectHarq.PhyToken
import DectHarq.NewData
import DectHarq.CrossTalk
import DectHarq.HarqIndexes
import DectHarq.NodeLimits
import DectHarq.NodeThreads
import DectHarq.NodeBlocks
import DectHarq.Overload
import DectHarq.PutCallers
import DectHarq.StartRetry
import DectHarq.NodeLifetime
import DectHarq.FitComplete
import DectHarq.SoftBuffers
import DectHarq.BackOff
import DectHarq.LinkAdaptation
import DectHarq.AddressFilters
import DectHarq.Attribution
import DectHarq.PacketLengths
import DectHarq.StartUp
import DectHarq.Release
import DectHarq.Delivery
import DectHarq.Standstill
import DectHarq.Understanding
import DectHarq.TransmittedPower
