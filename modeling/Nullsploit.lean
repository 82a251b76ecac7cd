import Nullsploit.CText
import Nullsploit.Inet
import Nullsploit.ChainTable
import Nullsploit.Runs
import Nullsploit.FwInspect
import Nullsploit.IpReputation
import Nullsploit.CidrMatch
import Nullsploit.Auth
import Nullsploit.IpBlocklist
import Nullsploit.CidrFile
import Nullsploit.AgentCommands
import Nullsploit.Bytes
import Nullsploit.Protocol
import Nullsploit.AgentFraming
import Nullsploit.Cbc
import Nullsploit.AesWrapper
import Nullsploit.HexText
import Nullsploit.LocalControl
import Nullsploit.Dashboard
import Nullsploit.Ingest
import Nullsploit.AgentLoop
import Nullsploit.BatchDelivery
import Nullsploit.Session
import Nullsploit.HttpApi
import Nullsploit.ApiAccess
import Nullsploit.Slots
import Nullsploit.Receiver
import Nullsploit.SseRegistry
import Nullsploit.Connections
import Nullsploit.EpollBatch
import Nullsploit.AgentReach
import Nullsploit.Packet
import Nullsploit.TcpMonitor
import Nullsploit.FlowPool
import Nullsploit.HttpInspect
import Nullsploit.PacketPath
import Nullsploit.XdpFirewall
import Nullsploit.HeaderCompletion
import Nullsploit.RingQueue
import Nullsploit.YaraQueue
import Nullsploit.DetectText
import Nullsploit.CmdiDetect
import Nullsploit.SqliDetect
import Nullsploit.CloseDelivery
import Nullsploit.SocDatabase
import Nullsploit.BlocklistSync
import Nullsploit.UserLogin
import Nullsploit.StaleTokens
import Nullsploit.RingLog
import Nullsploit.EventDedup
import Nullsploit.PathDetect
import Nullsploit.BlocklistRewrite
import Nullsploit.TumblingWindow
import Nullsploit.SynFlood
import Nullsploit.OpenSockets
import Nullsploit.SlowlorisTimeout
import Nullsploit.JsonText
import Nullsploit.EscapeJson
import Nullsploit.LiveAlerts
import Nullsploit.CaseFold
import Nullsploit.BotDetect
import Nullsploit.CaseEvasion
import Nullsploit.RemoteInclusion
import Nullsploit.InspectorCalls
import Nullsploit.PacketReads
import Nullsploit.PushLoops
import Nullsploit.RejectedMessage
import Nullsploit.UrlDecoders
import Nullsploit.SessionRoundtrip
import Nullsploit.AgentRemoval
import Nullsploit.FrameSync
import Nullsploit.Polling
import Nullsploit.Notifier
import Nullsploit.Tokens
import Nullsploit.FeedImport
import Nullsploit.FeedThread
import Nullsploit.StreamRead
import Nullsploit.AgentPush
import Nullsploit.AgentSocket
import Nullsploit.JsonWrite
import Nullsploit.JsonListings
import Nullsploit.BodyFields
import Nullsploit.AiAnalysis
import Nullsploit.WebRequests
import Nullsploit.Csv
import Nullsploit.DatasetExport
