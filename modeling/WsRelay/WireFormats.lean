import WsRelay.RelayRoom
import WsRelay.Crypto
import WsRelay.Library.PrefixCodec
import WsRelay.Library.FoldMaps

/- A lawful instance of the codecs that the relay takes from outside: every message reads
   back as written. The byte layout is this file's own; runs on fixed inputs use it, with
   the frames of a client and a quiet environment. -/
namespace RelayWireFormats
open RelayProtocol RelayRouteState RelayRoomModel PrefixCodec

variable {A B : Type}

/- A record of fields in order. -/
abbrev fields (f : Format A) (g : Format B) : Format (A × B) := f.followedBy g

def uuid : Format Uuid :=
  (fields uint32 (fields uint32 (fields uint32 uint32))).as
    (fun (a, b, c, d) => ⟨a, b, c, d⟩) (fun m => (m.part1, m.part2, m.part3, m.part4))
    (fun _ => rfl)

def timestamp : Format Timestamp :=
  (fields int64 int32).as (fun (s, n) => ⟨s, n⟩) (fun m => (m.seconds, m.nanos)) (fun _ => rfl)

def ipv4Addr : Format Ipv4Addr := uint32.as Ipv4Addr.mk Ipv4Addr.addr (fun _ => rfl)

def peerFeatureFlag : Format PeerFeatureFlag :=
  (fields bool (fields bool (fields bool (fields bool (fields bool (fields bool (fields bool
    (fields bool (fields bool (fields bool bool)))))))))).as
    (fun (a, b, c, d, e, f, g, h, i, j, k) => ⟨a, b, c, d, e, f, g, h, i, j, k⟩)
    (fun m => (m.isPublicServer, m.avoidRelayData, m.kcpInput, m.noRelayKcp,
      m.supportConnListSync, m.quicInput, m.noRelayQuic, m.isCredentialPeer, m.needP2p,
      m.disableP2p, m.ipv6PublicAddrProvider))
    (fun _ => rfl)

def routePeerInfo : Format RoutePeerInfo :=
  (fields uint32 (fields uuid.optional (fields uint32 (fields ipv4Addr.optional
    (fields text.optional (fields timestamp.optional (fields uint32 (fields text
      (fields peerFeatureFlag.optional (fields uint64 (fields uint32 bytes))))))))))).as
    (fun (a, b, c, d, e, f, g, h, i, j, k, l) => ⟨a, b, c, d, e, f, g, h, i, j, k, l⟩)
    (fun m => (m.peerId, m.instId, m.cost, m.ipv4Addr, m.hostname, m.lastUpdate, m.version,
      m.easytierVersion, m.featureFlag, m.peerRouteId, m.networkLength, m.rest))
    (fun _ => rfl)

def peerIdVersion : Format PeerIdVersion :=
  (fields uint32 uint32).as (fun (p, v) => ⟨p, v⟩) (fun m => (m.peerId, m.version)) (fun _ => rfl)

def routeConnBitmap : Format RouteConnBitmap :=
  (fields peerIdVersion.list bytes).as (fun (ids, bits) => ⟨ids, bits⟩)
    (fun m => (m.peerIds, m.bitmap)) (fun _ => rfl)

def peerConnInfo : Format PeerConnInfo :=
  (fields peerIdVersion.optional uint32.list).as (fun (p, ids) => ⟨p, ids⟩)
    (fun m => (m.peerId, m.connectedPeerIds)) (fun _ => rfl)

def routeConnPeerList : Format RouteConnPeerList :=
  peerConnInfo.list.as RouteConnPeerList.mk RouteConnPeerList.peerConnInfos (fun _ => rfl)

def connInfo : Format ConnInfo :=
  (routeConnBitmap.orElse routeConnPeerList).as
    (fun | .inl bitmap => .connBitmap bitmap | .inr list => .connPeerList list)
    (fun | .connBitmap bitmap => .inl bitmap | .connPeerList list => .inr list)
    (by intro m; cases m <;> rfl)

def foreignNetworkRouteInfoKey : Format ForeignNetworkRouteInfoKey :=
  (fields uint32 text).as (fun (p, name) => ⟨p, name⟩) (fun m => (m.peerId, m.networkName))
    (fun _ => rfl)

def foreignNetworkRouteInfoEntry : Format ForeignNetworkRouteInfoEntry :=
  (fields uint32.list (fields timestamp.optional (fields uint32 (fields bytes uint32)))).as
    (fun (a, b, c, d, e) => ⟨a, b, c, d, e⟩)
    (fun m => (m.foreignPeerIds, m.lastUpdate, m.version, m.networkSecretDigest,
      m.myPeerIdForThisNetwork))
    (fun _ => rfl)

def foreignNetworkInfo : Format ForeignNetworkInfo :=
  (fields foreignNetworkRouteInfoKey.optional foreignNetworkRouteInfoEntry.optional).as
    (fun (k, v) => ⟨k, v⟩) (fun m => (m.key, m.value)) (fun _ => rfl)

def syncRouteInfoRequest : Format SyncRouteInfoRequest :=
  (fields uint32 (fields uint64 (fields bool
    (fields (routePeerInfo.list.as RoutePeerInfos.mk RoutePeerInfos.items (fun _ => rfl)).optional
      (fields connInfo.optional
        (foreignNetworkInfo.list.as RouteForeignNetworkInfos.mk RouteForeignNetworkInfos.infos
          (fun _ => rfl)).optional))))).as
    (fun (a, b, c, d, e, f) => ⟨a, b, c, d, e, f⟩)
    (fun m => (m.myPeerId, m.mySessionId, m.isInitiator, m.peerInfos, m.connInfo,
      m.foreignNetworkInfos))
    (fun _ => rfl)

def syncRouteInfoResponse : Format SyncRouteInfoResponse :=
  (fields bool (fields uint64 int32.optional)).as (fun (a, b, c) => ⟨a, b, c⟩)
    (fun m => (m.isInitiator, m.sessionId, m.error)) (fun _ => rfl)

def handshakeRequest : Format HandshakeRequest :=
  (fields uint32 (fields uint32 (fields uint32 (fields text.list (fields text bytes))))).as
    (fun (a, b, c, d, e, f) => ⟨a, b, c, d, e, f⟩)
    (fun m => (m.magic, m.myPeerId, m.version, m.features, m.networkName, m.networkSecretDigest))
    (fun _ => rfl)

def rpcDescriptor : Format RpcDescriptor :=
  (fields text (fields text (fields text uint32))).as (fun (a, b, c, d) => ⟨a, b, c, d⟩)
    (fun m => (m.domainName, m.protoName, m.serviceName, m.methodIndex)) (fun _ => rfl)

def rpcCompressionInfo : Format RpcCompressionInfo :=
  (fields int32 int32).as (fun (a, b) => ⟨a, b⟩) (fun m => (m.algo, m.acceptedAlgo))
    (fun _ => rfl)

def rpcPacket : Format RpcPacket :=
  (fields uint32 (fields uint32 (fields int64 (fields rpcDescriptor.optional (fields bytes
    (fields bool (fields uint32 (fields uint32 (fields int32
      rpcCompressionInfo.optional))))))))).as
    (fun (a, b, c, d, e, f, g, h, i, j) => ⟨a, b, c, d, e, f, g, h, i, j⟩)
    (fun m => (m.fromPeer, m.toPeer, m.transactionId, m.descriptor, m.body, m.isRequest,
      m.totalPieces, m.pieceIdx, m.traceId, m.compressionInfo))
    (fun _ => rfl)

def rpcRequest : Format RpcRequest :=
  (fields rpcDescriptor.optional (fields bytes int32)).as (fun (a, b, c) => ⟨a, b, c⟩)
    (fun m => (m.descriptor, m.request, m.timeoutMs)) (fun _ => rfl)

def rpcResponse : Format RpcResponse :=
  (fields bytes (fields bytes.optional uint64)).as (fun (a, b, c) => ⟨a, b, c⟩)
    (fun m => (m.response, m.error, m.runtimeUs)) (fun _ => rfl)

/- A map is written as its ascending list of bindings. -/
def peerMap {Value : Type} (f : Format Value) : Format (PeerMap Value) :=
  (fields uint32 f).list.as (fun bindings => Std.ExtTreeMap.ofList bindings compare)
    Std.ExtTreeMap.toList (FoldMaps.ofList_toList)

def peerInfoForGlobalMap : Format PeerInfoForGlobalMap :=
  (peerMap (bytes.as DirectConnectedPeerInfo.mk DirectConnectedPeerInfo.encoded
    (fun _ => rfl))).as PeerInfoForGlobalMap.mk PeerInfoForGlobalMap.directPeers (fun _ => rfl)

def reportPeersRequest : Format ReportPeersRequest :=
  (fields uint32 peerInfoForGlobalMap.optional).as (fun (p, infos) => ⟨p, infos⟩)
    (fun m => (m.myPeerId, m.peerInfos)) (fun _ => rfl)

def getGlobalPeerMapResponse : Format GetGlobalPeerMapResponse :=
  (fields (peerMap peerInfoForGlobalMap) uint64.optional).as (fun (m, d) => ⟨m, d⟩)
    (fun m => (m.globalPeerMap, m.digest)) (fun _ => rfl)

/- Nothing is compressed or encrypted in the runs that use this instance. -/
def wire : Externals where
  decodeHandshakeRequest := handshakeRequest.readAll
  encodeHandshakeRequest := handshakeRequest.write
  decodeRpcPacket := rpcPacket.readAll
  encodeRpcPacket := rpcPacket.write
  decodeRpcRequest := rpcRequest.readAll
  encodeRpcRequest := rpcRequest.write
  decodeRpcResponse := rpcResponse.readAll
  encodeRpcResponse := rpcResponse.write
  decodeSyncRouteInfoRequest := syncRouteInfoRequest.readAll
  encodeSyncRouteInfoRequest := syncRouteInfoRequest.write
  decodeSyncRouteInfoResponse := syncRouteInfoResponse.readAll
  encodeSyncRouteInfoResponse := syncRouteInfoResponse.write
  decodeRoutePeerInfo := routePeerInfo.readAll
  encodeRoutePeerInfo := routePeerInfo.write
  decodeReportPeersRequest := reportPeersRequest.readAll
  encodeReportPeersResponse := []
  decodeGetGlobalPeerMapRequest bytes := (uint64.readAll bytes).map GetGlobalPeerMapRequest.mk
  encodeGetGlobalPeerMapResponse := getGlobalPeerMapResponse.write
  gunzip _ := none
  defaultHash bytes := RelayCrypto.siphash13 bytes 0 0
  encryptAesGcm _ _ := none

/-- What a reader of these messages relies on: the decoder undoes the encoder. -/
structure RoundTrips (x : Externals) : Prop where
  handshake : ∀ m, x.decodeHandshakeRequest (x.encodeHandshakeRequest m) = some m
  packet : ∀ m, x.decodeRpcPacket (x.encodeRpcPacket m) = some m
  request : ∀ m, x.decodeRpcRequest (x.encodeRpcRequest m) = some m
  response : ∀ m, x.decodeRpcResponse (x.encodeRpcResponse m) = some m
  sync : ∀ m, x.decodeSyncRouteInfoRequest (x.encodeSyncRouteInfoRequest m) = some m
  syncAnswer : ∀ m, x.decodeSyncRouteInfoResponse (x.encodeSyncRouteInfoResponse m) = some m
  peerInfo : ∀ m, x.decodeRoutePeerInfo (x.encodeRoutePeerInfo m) = some m

theorem wire_roundTrips : RoundTrips wire := by
  constructor <;> intro m <;> simp only [wire, Format.readAll_write]

/- What a client sends. -/
def frameOf (kind : PacketType) (fromPeer toPeer : PeerId) (payload : Bytes) : Bytes :=
  createHeader fromPeer toPeer kind (UInt32.ofNat payload.length) ++ payload

def greeting (p : PeerId) (networkName : String) (digest : Bytes) : IncomingMessage :=
  .binary (frameOf .handShake p myPeerId
    (handshakeRequest.write ⟨magic, p, protocolVersion, [], networkName, digest⟩))

/- A SyncRouteInfo request to the relay itself. -/
def syncMessage (p : PeerId) (req : SyncRouteInfoRequest) : IncomingMessage :=
  .binary (frameOf .rpcReq p myPeerId
    (rpcPacket.write
      { fromPeer := p, toPeer := myPeerId, transactionId := 1, traceId := 0, isRequest := true,
        totalPieces := 1, pieceIdx := 0, compressionInfo := none,
        descriptor := some ⟨"net", "OspfRouteRpc", "OspfRouteRpc", 1⟩,
        body := rpcRequest.write ⟨none, syncRouteInfoRequest.write req, 5000⟩ }))

def payloadOf : IncomingMessage → Bytes
  | .text _ => []
  | .binary bytes => bytes.drop headerSize

/- Every send and every attachment write succeeds; the draws start at the given number. -/
def quietEnv (nowMs : Millis) (draw : UInt64) : Env where
  nowMs
  seed _ := ⟨⟨0, 0, 0, 0⟩, 0⟩
  randomU64 index := draw + UInt64.ofNat index
  sendOk _ := true
  attachOk _ := true

/- A quiet run: one millisecond and a hundred draws for each event. -/
def quietly (events : List RoomEvent) : List (Env × RoomEvent) :=
  events.zipIdx.map fun (e, i) => (quietEnv (UInt64.ofNat (1000 + i)) (UInt64.ofNat (100 * i + 1)), e)

end RelayWireFormats
