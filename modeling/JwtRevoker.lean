import JwtRevoker.RotatingWindow
import JwtRevoker.Numeral
import JwtRevoker.Cpp
import JwtRevoker.BaseBloomFilter
import JwtRevoker.BloomFilterHash
import JwtRevoker.Sha256Standard
import JwtRevoker.Sha256
import JwtRevoker.Sha256Update
import JwtRevoker.Engine
import JwtRevoker.EngineWindow
import JwtRevoker.RevocationLog
import JwtRevoker.EngineInit
import JwtRevoker.LogReplay
import JwtRevoker.WindowContents
import JwtRevoker.Queries
import JwtRevoker.WindowShape
import JwtRevoker.Recovery
import JwtRevoker.NestedSlots
import JwtRevoker.StringParser
import JwtRevoker.ConfigReader
import JwtRevoker.JsonSerializer
import JwtRevoker.JsonText
import JwtRevoker.Scheduler
import JwtRevoker.ProxyQuery
import JwtRevoker.RotationClock
import JwtRevoker.StepRuns
import JwtRevoker.TornRevocation
import JwtRevoker.Rebuild
import JwtRevoker.RebuildRuns
import JwtRevoker.LogRoundTrip
import JwtRevoker.FrameStream
import JwtRevoker.SocketMsgFrame
import JwtRevoker.ThreadSafeQueue
import JwtRevoker.CoroutineSafeQueue
import JwtRevoker.HandleClient
import JwtRevoker.MasterSession
import JwtRevoker.Shutdown
import JwtRevoker.ShutdownOrder
import JwtRevoker.Reconnection
import JwtRevoker.ShutdownRuns
import JwtRevoker.AdjustCalls
import JwtRevoker.RotationTimer
import JwtRevoker.ProxyHistory
import JwtRevoker.RoleChange
import JwtRevoker.ConfigMessages
import JwtRevoker.AdjustSequence
import JwtRevoker.LoadAgreement
import JwtRevoker.Handover
import JwtRevoker.TwoWindows
import JwtRevoker.TwoEngines
import JwtRevoker.VisitedLog
import JwtRevoker.MasterMessages
import JwtRevoker.MessageThread
import JwtRevoker.NodeService
import JwtRevoker.QueueOrder
import JwtRevoker.StatusReport
import JwtRevoker.MasterTransport
import JwtRevoker.Startup
import JwtRevoker.Restart
import JwtRevoker.ClientAnswers
import JwtRevoker.WholeNode
import JwtRevoker.Traces
import JwtRevoker.CallOrder
