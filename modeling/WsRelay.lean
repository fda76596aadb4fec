import WsRelay.Protocol
import WsRelay.Library.PackedBits
import WsRelay.Library.PlainText
import WsRelay.Library.FoldMaps
import WsRelay.Library.Runs
import WsRelay.Library.PrefixCodec
import WsRelay.Library.Directory
import WsRelay.RouteState
import WsRelay.PeerCenter
import WsRelay.PeerManager
import WsRelay.RpcHandler
import WsRelay.RelayRoom
import WsRelay.WireFormats
import WsRelay.Forwarding
import WsRelay.RouteOps
import WsRelay.ConnVersions
import WsRelay.RoomSteps
import WsRelay.Membership
import WsRelay.LivePeers
import WsRelay.Liveness
import WsRelay.PeerInfoVersions
import WsRelay.ConnBitmap
import WsRelay.Library.Announcements
import WsRelay.TopologyVersions
import WsRelay.BitmapDelivery
import WsRelay.Library.SharedStore
import WsRelay.TwinSteps
import WsRelay.RoomIsolation
import WsRelay.ConnMatrix
import WsRelay.StaleCleanup
import WsRelay.Library.TaggedCache
import WsRelay.PeerCenterCache
import WsRelay.WithdrawnEdges
import WsRelay.Residue
import WsRelay.ChangeBroadcast
import WsRelay.OwnRecords
import WsRelay.Library.CostedTrails
import WsRelay.RoomMoves
import WsRelay.Answers
import WsRelay.RoleAgreement
import WsRelay.SessionIds
import WsRelay.RestartVersions
import WsRelay.HandshakeRegistry
import WsRelay.ConnEncodings
import WsRelay.AlarmClock
import WsRelay.ReportFlags
import WsRelay.EdgeCleanup
import WsRelay.InfoSelections
import WsRelay.SessionResync
import WsRelay.FullUpdates
import WsRelay.Idempotence
import WsRelay.IncrementalSync
import WsRelay.SilentRequests
import WsRelay.Library.BlockStream
import WsRelay.Crypto
import WsRelay.Library.SipHash
import WsRelay.StreamingHash
import WsRelay.KeyDigests
import WsRelay.Library.LittleEndian
import WsRelay.PacketHeaders
import WsRelay.Framing
import WsRelay.MalformedBitmaps
import WsRelay.CenterExpiry
import WsRelay.CenterReports
import WsRelay.Library.EventCounts
import WsRelay.ForeignVersions
import WsRelay.OwnFrames
import WsRelay.CleanupAlarm
import WsRelay.Hibernation
import WsRelay.MemberNews
import WsRelay.Library.OutputRuns
import WsRelay.Phases
import WsRelay.Traffic
import WsRelay.Hearsay
import WsRelay.LastingEdges
import WsRelay.LastingInfos
import WsRelay.Secrecy
import WsRelay.Networks
import WsRelay.Noninterference
import WsRelay.Library.SealedText
import WsRelay.SealedPackets
import WsRelay.Legibility
import WsRelay.Footprint
import WsRelay.Deployment
