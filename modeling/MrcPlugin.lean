import MrcPlugin.Basic
import MrcPlugin.Lib.Runs
import MrcPlugin.MrCache
import MrcPlugin.MrOwnership
import MrcPlugin.CommBase
import MrcPlugin.Lib.Cuts
import MrcPlugin.MultiSend
import MrcPlugin.Striping
import MrcPlugin.Tiling
import MrcPlugin.Irecv
import MrcPlugin.Completion
import MrcPlugin.QpLookup
import MrcPlugin.Lib.Queues
import MrcPlugin.Test
import MrcPlugin.SendRuns
import MrcPlugin.Lib.Counts
import MrcPlugin.SendGood
import MrcPlugin.SendSteps
import MrcPlugin.IsendSteps
import MrcPlugin.SendReach
import MrcPlugin.SendHistory
import MrcPlugin.SendProgress
import MrcPlugin.SlotGuard
import MrcPlugin.RecvRuns
import MrcPlugin.RecvGood
import MrcPlugin.RecvSteps
import MrcPlugin.RecvCalls
import MrcPlugin.RecvReach
import MrcPlugin.SendMatch
import MrcPlugin.World
import MrcPlugin.WorldGood
import MrcPlugin.Agreement
import MrcPlugin.MrOrder
import MrcPlugin.RecvQps
import MrcPlugin.Accounting
import MrcPlugin.CommInit
import MrcPlugin.Recovery
import MrcPlugin.RecoveryStages
import MrcPlugin.RecoveryThread
import MrcPlugin.RecoveryClose
import MrcPlugin.RecoveryPair
import MrcPlugin.RecoverySuccess
import MrcPlugin.RecoveryLate
import MrcPlugin.Lib.CText
import MrcPlugin.TunerConfig
import MrcPlugin.TunerCsv
import MrcPlugin.TunerCost
import MrcPlugin.Tuner
import MrcPlugin.TunerOrder
import MrcPlugin.Resiliency
import MrcPlugin.ActiveQps
import MrcPlugin.ReplayLayout
import MrcPlugin.Rows
import MrcPlugin.Lib.Resends
import MrcPlugin.FailoverTest
import MrcPlugin.FailoverRuns
import MrcPlugin.FailoverStops
import MrcPlugin.FailoverPosts
import MrcPlugin.FailoverGood
import MrcPlugin.FailoverSteps
import MrcPlugin.FailoverReach
import MrcPlugin.FailoverBooks
import MrcPlugin.FailoverBooksSteps
import MrcPlugin.FailoverBooksReach
import MrcPlugin.LbWeights
import MrcPlugin.MrFailure
import MrcPlugin.Rejects
import MrcPlugin.RecvFrames
import MrcPlugin.Lib.Spacing
import MrcPlugin.CtsSignal
import MrcPlugin.RecvQueue
import MrcPlugin.ConnectQps
import MrcPlugin.WireBytes
import MrcPlugin.SizeReport
import MrcPlugin.SizesAgree
import MrcPlugin.SizeFidelity
import MrcPlugin.CqRoom
import MrcPlugin.CqRecv
import MrcPlugin.SqRoom
import MrcPlugin.Handshake
import MrcPlugin.RkeyRuns
import MrcPlugin.RkeySends
import MrcPlugin.Rkeys
import MrcPlugin.ActiveTable
import MrcPlugin.MatchById
import MrcPlugin.IbDevs
import MrcPlugin.AsyncEvents
import MrcPlugin.Lib.Calls
import MrcPlugin.Lib.Paths
import MrcPlugin.DeviceInit
import MrcPlugin.InitRuns
import MrcPlugin.RecoveryBatch
import MrcPlugin.QpAddress
import MrcPlugin.QpLifecycle
import MrcPlugin.QpRuns
import MrcPlugin.QpParts
import MrcPlugin.HandshakeState
import MrcPlugin.HandshakeCalls
import MrcPlugin.HandshakePaths
import MrcPlugin.HandshakeExits
import MrcPlugin.ConnectPath
import MrcPlugin.AcceptPath
import MrcPlugin.HandshakeClean
import MrcPlugin.GidIndex
import MrcPlugin.GidRefresh
import MrcPlugin.SubnetDev
import MrcPlugin.VDevices
import MrcPlugin.TunerTable
import MrcPlugin.TunerPrices
import MrcPlugin.TunerDisabled
import MrcPlugin.TunerLarge
import MrcPlugin.Lib.Lines
import MrcPlugin.TunerLines
import MrcPlugin.P2Quantile
import MrcPlugin.WqeLatMon
import MrcPlugin.WqeLatQueue
import MrcPlugin.CommClose
import MrcPlugin.PdRefs
import MrcPlugin.GidBytes
import MrcPlugin.PlaneIds
import MrcPlugin.PathMtu
import MrcPlugin.Lib.Streams
import MrcPlugin.Lib.Layouts
import MrcPlugin.HandshakeWire
import MrcPlugin.HandshakeStreams
import MrcPlugin.HandshakeTogether
import MrcPlugin.HandshakeTold
import MrcPlugin.HandshakeAgrees
import MrcPlugin.SocketModel
import MrcPlugin.SocketAccept
import MrcPlugin.SocketConnect
import MrcPlugin.SocketRuns
import MrcPlugin.SocketServed
import MrcPlugin.Lib.Memory
import MrcPlugin.DeliveryModel
import MrcPlugin.DeliverySteps
import MrcPlugin.DeliveryGood
import MrcPlugin.DeliveryReach
import MrcPlugin.Delivered
import MrcPlugin.Lib.Moments
import MrcPlugin.Lib.Limiter
import MrcPlugin.Lib.Ranks
import MrcPlugin.WqeLatStats
import MrcPlugin.WqeLatReports
import MrcPlugin.Lib.Tallies
import MrcPlugin.FailoverReceive
import MrcPlugin.FailoverReceiveGood
import MrcPlugin.FailoverReceiveSteps
import MrcPlugin.FailoverReceiveReach
import MrcPlugin.FailoverReceiveCalls
import MrcPlugin.FailoverReceived
