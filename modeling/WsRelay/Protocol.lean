import Mathlib

/- Wire-level data of the relay: the packet header and the protobuf messages,
   field by field as far as the relay reads or writes them. The message schemas
   are generated outside this repository and the byte codecs are third-party, so
   both enter through the parameter `Externals`. -/
namespace RelayProtocol

abbrev Bytes := List UInt8
abbrev PeerId := UInt32
abbrev Version := UInt32
abbrev SessionId := UInt64
abbrev Millis := UInt64
abbrev GroupKey := String
abbrev PeerSet := Std.ExtTreeSet PeerId
abbrev PeerMap (Value : Type) := Std.ExtTreeMap PeerId Value

def magic : UInt32 := 0xd1e1a5e1
def protocolVersion : UInt32 := 1
def myPeerId : PeerId := 10000001
def headerSize : Nat := 16

inductive PacketType where
  | invalid | data | handShake | routePacket | ping | pong | taRpc | route | rpcReq | rpcResp
  | foreignNetworkPacket | kcpSrc | kcpDst | noiseHandshakeMsg1 | noiseHandshakeMsg2
  | noiseHandshakeMsg3 | quicSrc | quicDst | relayHandshake | relayHandshakeAck
  deriving DecidableEq, Repr

def PacketType.toU8 : PacketType → UInt8
  | .invalid => 0 | .data => 1 | .handShake => 2 | .routePacket => 3 | .ping => 4
  | .pong => 5 | .taRpc => 6 | .route => 7 | .rpcReq => 8 | .rpcResp => 9
  | .foreignNetworkPacket => 10 | .kcpSrc => 11 | .kcpDst => 12
  | .noiseHandshakeMsg1 => 13 | .noiseHandshakeMsg2 => 14 | .noiseHandshakeMsg3 => 15
  | .quicSrc => 16 | .quicDst => 17 | .relayHandshake => 20 | .relayHandshakeAck => 21

def PacketType.fromU8 : UInt8 → PacketType
  | 1 => .data | 2 => .handShake | 3 => .routePacket | 4 => .ping
  | 5 => .pong | 6 => .taRpc | 7 => .route | 8 => .rpcReq | 9 => .rpcResp
  | 10 => .foreignNetworkPacket | 11 => .kcpSrc | 12 => .kcpDst
  | 13 => .noiseHandshakeMsg1 | 14 => .noiseHandshakeMsg2 | 15 => .noiseHandshakeMsg3
  | 16 => .quicSrc | 17 => .quicDst | 20 => .relayHandshake | 21 => .relayHandshakeAck
  | _ => .invalid

theorem packet_type_round_trip (t : PacketType) : PacketType.fromU8 t.toU8 = t := by
  cases t <;> rfl

structure PacketHeader where
  fromPeerId : PeerId
  toPeerId : PeerId
  packetType : UInt8
  flags : UInt8
  forwardCounter : UInt8
  reserved : UInt8
  len : UInt32
  deriving DecidableEq, Repr

def u32ToLeBytes (v : UInt32) : Bytes :=
  [v.toUInt8, (v >>> 8).toUInt8, (v >>> 16).toUInt8, (v >>> 24).toUInt8]

def u32FromLeBytes (b0 b1 b2 b3 : UInt8) : UInt32 :=
  b0.toUInt32 ||| (b1.toUInt32 <<< 8) ||| (b2.toUInt32 <<< 16) ||| (b3.toUInt32 <<< 24)

def PacketHeader.fromBytes : Bytes → Option PacketHeader
  | b0 :: b1 :: b2 :: b3 :: b4 :: b5 :: b6 :: b7 :: b8 :: b9 :: b10 :: b11 :: b12 :: b13 ::
      b14 :: b15 :: _ => some
    { fromPeerId := u32FromLeBytes b0 b1 b2 b3
      toPeerId := u32FromLeBytes b4 b5 b6 b7
      packetType := b8
      flags := b9
      forwardCounter := b10
      reserved := b11
      len := u32FromLeBytes b12 b13 b14 b15 }
  | _ => none

def PacketHeader.toBytes (h : PacketHeader) : Bytes :=
  u32ToLeBytes h.fromPeerId ++ u32ToLeBytes h.toPeerId ++
    [h.packetType, h.flags, h.forwardCounter, h.reserved] ++ u32ToLeBytes h.len

def PacketHeader.packetTypeEnum (h : PacketHeader) : PacketType := PacketType.fromU8 h.packetType

def parseHeader (bytes : Bytes) : Option PacketHeader := PacketHeader.fromBytes bytes

def createHeader (fromPeerId toPeerId : PeerId) (packetType : PacketType) (payloadLen : UInt32) :
    Bytes :=
  PacketHeader.toBytes
    { fromPeerId, toPeerId, packetType := packetType.toU8, flags := 0, forwardCounter := 1,
      reserved := 0, len := payloadLen }

structure Uuid where
  part1 : UInt32
  part2 : UInt32
  part3 : UInt32
  part4 : UInt32
  deriving DecidableEq, Repr

structure Timestamp where
  seconds : Int64
  nanos : Int32
  deriving DecidableEq, Repr

structure Ipv4Addr where
  addr : UInt32
  deriving DecidableEq, Repr

structure PeerFeatureFlag where
  isPublicServer : Bool
  avoidRelayData : Bool
  kcpInput : Bool
  noRelayKcp : Bool
  supportConnListSync : Bool
  quicInput : Bool
  noRelayQuic : Bool
  isCredentialPeer : Bool
  needP2p : Bool
  disableP2p : Bool
  ipv6PublicAddrProvider : Bool
  deriving DecidableEq, Repr

/- `rest` stands for the encoded schema fields that the relay never names. -/
structure RoutePeerInfo where
  peerId : PeerId := 0
  instId : Option Uuid := none
  cost : UInt32 := 0
  ipv4Addr : Option Ipv4Addr := none
  hostname : Option String := none
  lastUpdate : Option Timestamp := none
  version : Version := 0
  easytierVersion : String := ""
  featureFlag : Option PeerFeatureFlag := none
  peerRouteId : UInt64 := 0
  networkLength : UInt32 := 0
  rest : Bytes := []
  deriving DecidableEq, Repr

structure PeerIdVersion where
  peerId : PeerId
  version : Version
  deriving DecidableEq, Repr

structure RouteConnBitmap where
  peerIds : List PeerIdVersion
  bitmap : Bytes
  deriving DecidableEq, Repr

structure PeerConnInfo where
  peerId : Option PeerIdVersion
  connectedPeerIds : List PeerId
  deriving DecidableEq, Repr

structure RouteConnPeerList where
  peerConnInfos : List PeerConnInfo
  deriving DecidableEq, Repr

inductive ConnInfo where
  | connBitmap : RouteConnBitmap → ConnInfo
  | connPeerList : RouteConnPeerList → ConnInfo
  deriving DecidableEq, Repr

structure ForeignNetworkRouteInfoKey where
  peerId : PeerId
  networkName : String
  deriving DecidableEq, Repr

structure ForeignNetworkRouteInfoEntry where
  foreignPeerIds : List PeerId
  lastUpdate : Option Timestamp
  version : UInt32
  networkSecretDigest : Bytes
  myPeerIdForThisNetwork : PeerId
  deriving DecidableEq, Repr

structure ForeignNetworkInfo where
  key : Option ForeignNetworkRouteInfoKey
  value : Option ForeignNetworkRouteInfoEntry
  deriving DecidableEq, Repr

structure RoutePeerInfos where
  items : List RoutePeerInfo
  deriving DecidableEq, Repr

structure RouteForeignNetworkInfos where
  infos : List ForeignNetworkInfo
  deriving DecidableEq, Repr

structure SyncRouteInfoRequest where
  myPeerId : PeerId
  mySessionId : SessionId
  isInitiator : Bool
  peerInfos : Option RoutePeerInfos
  connInfo : Option ConnInfo
  foreignNetworkInfos : Option RouteForeignNetworkInfos
  deriving DecidableEq, Repr

structure SyncRouteInfoResponse where
  isInitiator : Bool
  sessionId : SessionId
  error : Option Int32
  deriving DecidableEq, Repr

structure HandshakeRequest where
  magic : UInt32
  myPeerId : PeerId
  version : UInt32
  features : List String
  networkName : String
  networkSecretDigest : Bytes
  deriving DecidableEq, Repr

structure RpcDescriptor where
  domainName : String
  protoName : String
  serviceName : String
  methodIndex : UInt32
  deriving DecidableEq, Repr

structure RpcCompressionInfo where
  algo : Int32
  acceptedAlgo : Int32
  deriving DecidableEq, Repr

structure RpcPacket where
  fromPeer : PeerId
  toPeer : PeerId
  transactionId : Int64
  descriptor : Option RpcDescriptor
  body : Bytes
  isRequest : Bool
  totalPieces : UInt32
  pieceIdx : UInt32
  traceId : Int32
  compressionInfo : Option RpcCompressionInfo
  deriving DecidableEq, Repr

structure RpcRequest where
  descriptor : Option RpcDescriptor
  request : Bytes
  timeoutMs : Int32
  deriving DecidableEq, Repr

structure RpcResponse where
  response : Bytes
  error : Option Bytes
  runtimeUs : UInt64
  deriving DecidableEq, Repr

/- The relay stores and copies a direct-connection record without reading it. -/
structure DirectConnectedPeerInfo where
  encoded : Bytes
  deriving DecidableEq, Repr

structure PeerInfoForGlobalMap where
  directPeers : PeerMap DirectConnectedPeerInfo
  deriving DecidableEq

structure ReportPeersRequest where
  myPeerId : PeerId
  peerInfos : Option PeerInfoForGlobalMap
  deriving DecidableEq

structure GetGlobalPeerMapRequest where
  digest : UInt64
  deriving DecidableEq, Repr

structure GetGlobalPeerMapResponse where
  globalPeerMap : PeerMap PeerInfoForGlobalMap
  digest : Option UInt64
  deriving DecidableEq

/- Code the relay calls but does not contain: the prost codecs of the generated
   messages, gzip, the standard library's default hasher and Web Crypto. A decoder
   answers `none` where prost answers an error. -/
structure Externals where
  decodeHandshakeRequest : Bytes → Option HandshakeRequest
  encodeHandshakeRequest : HandshakeRequest → Bytes
  decodeRpcPacket : Bytes → Option RpcPacket
  encodeRpcPacket : RpcPacket → Bytes
  decodeRpcRequest : Bytes → Option RpcRequest
  encodeRpcRequest : RpcRequest → Bytes
  decodeRpcResponse : Bytes → Option RpcResponse
  encodeRpcResponse : RpcResponse → Bytes
  decodeSyncRouteInfoRequest : Bytes → Option SyncRouteInfoRequest
  encodeSyncRouteInfoRequest : SyncRouteInfoRequest → Bytes
  decodeSyncRouteInfoResponse : Bytes → Option SyncRouteInfoResponse
  encodeSyncRouteInfoResponse : SyncRouteInfoResponse → Bytes
  decodeRoutePeerInfo : Bytes → Option RoutePeerInfo
  encodeRoutePeerInfo : RoutePeerInfo → Bytes
  decodeReportPeersRequest : Bytes → Option ReportPeersRequest
  encodeReportPeersResponse : Bytes
  decodeGetGlobalPeerMapRequest : Bytes → Option GetGlobalPeerMapRequest
  encodeGetGlobalPeerMapResponse : GetGlobalPeerMapResponse → Bytes
  gunzip : Bytes → Option Bytes
  defaultHash : Bytes → UInt64
  encryptAesGcm : Bytes → Bytes → Option Bytes

end RelayProtocol
