import WsRelay.PeerManager

/- The handshake, ping and RPC handlers, and packet wrapping. They act on the shared
   state and answer bytes or actions; the room performs the actions. -/
namespace RelayRpcHandler
open RelayProtocol RelayRouteState RelayPeerCenter RelayPeerManager PlainText

structure HandshakeOutcome where
  peerId : PeerId
  groupKey : GroupKey
  domainName : String
  responseBytes : Bytes
  deriving DecidableEq, Repr

def groupKeyOf (networkName digestHex : String) : GroupKey := networkName ++ ":" ++ digestHex

def handshakeResponse : HandshakeRequest where
  magic := magic
  myPeerId := myPeerId
  version := protocolVersion
  features := ["node-server-v1"]
  networkName := "public_server"
  networkSecretDigest := List.replicate 32 0

def handshakeOutcome (x : Externals) (req : HandshakeRequest) (groupDigest : String) :
    HandshakeOutcome :=
  let respBytes := x.encodeHandshakeRequest handshakeResponse
  { peerId := req.myPeerId
    groupKey := groupKeyOf req.networkName groupDigest
    domainName := req.networkName
    responseBytes :=
      createHeader myPeerId req.myPeerId .handShake (UInt32.ofNat respBytes.length) ++ respBytes }

/-- The first accepted secret digest of a network name is kept; another one is refused. -/
def handleHandshake (x : Externals) (payload : Bytes) (registry : DigestRegistry) :
    Option HandshakeOutcome × DigestRegistry :=
  match x.decodeHandshakeRequest payload with
  | none => (none, registry)
  | some req =>
    if req.magic ≠ magic then (none, registry)
    else
      let clientDigest := hexText req.networkSecretDigest
      match registry[req.networkName]? with
      | some existing =>
        if existing ≠ clientDigest then (none, registry)
        else (some (handshakeOutcome x req existing), registry)
      | none =>
        (some (handshakeOutcome x req clientDigest), registry.insert req.networkName clientDigest)

def handlePing (fromPeerId : PeerId) (payload : Bytes) : Bytes :=
  createHeader myPeerId fromPeerId .pong (UInt32.ofNat payload.length) ++ payload

structure WsCrypto where
  enabled : Bool := false
  key128 : Bytes := []
  key256 : Bytes := []

def encryptBody (x : Externals) (crypto : WsCrypto) (payload : Bytes) : Option Bytes :=
  if !crypto.key128.isEmpty then x.encryptAesGcm payload crypto.key128
  else if !crypto.key256.isEmpty then x.encryptAesGcm payload crypto.key256
  else some payload

/- wrap_packet patches byte 9 and bytes 12 to 15 of the header it just created. -/
def patchHeader (header : Bytes) (flags : UInt8) (bodyLen : UInt32) : Bytes :=
  (header.set 9 flags).take 12 ++ u32ToLeBytes bodyLen ++ header.drop 16

def wrapPacket (x : Externals) (fromPeerId toPeerId : PeerId) (packetType : PacketType)
    (payload : Bytes) (crypto : WsCrypto) : Option Bytes :=
  let encrypted := crypto.enabled && packetType ≠ .handShake
  let body := if encrypted then encryptBody x crypto payload else some payload
  let flags : UInt8 := if encrypted then 1 else 0
  body.map fun body =>
    let bodyLen := UInt32.ofNat body.length
    patchHeader (createHeader fromPeerId toPeerId packetType bodyLen) flags bodyLen ++ body

inductive RpcAction where
  | sendTo : PeerId → Bytes → RpcAction
  | pushRouteUpdate : PeerId → GroupKey → RpcAction
  | broadcastRouteUpdate : GroupKey → PeerId → RpcAction
  | none : RpcAction
  deriving DecidableEq, Repr

def gunzipMaybe (x : Externals) (data : Bytes) : Bytes := (x.gunzip data).getD data

/- The body after decompression, which only an algorithm above 1 asks for. -/
def rpcBody (x : Externals) (packet : RpcPacket) : Bytes :=
  match packet.compressionInfo with
  | some comp => if 1 < comp.algo then gunzipMaybe x packet.body else packet.body
  | none => packet.body

def innerRequestBody (x : Externals) (packet : RpcPacket) : Bytes :=
  let body := rpcBody x packet
  if packet.isRequest then ((x.decodeRpcRequest body).map (·.request)).getD body else body

def innerResponseBody (x : Externals) (packet : RpcPacket) : Bytes :=
  let body := rpcBody x packet
  if !packet.isRequest then ((x.decodeRpcResponse body).map (·.response)).getD body else body

def serviceName (packet : RpcPacket) : String :=
  (packet.descriptor.map (·.serviceName)).getD ""

def methodIndex (packet : RpcPacket) : UInt32 :=
  (packet.descriptor.map (·.methodIndex)).getD 0

def isPeerCenterService (name : String) : Bool :=
  name == "peer_rpc.PeerCenterRpc" || name == "PeerCenterRpc"

def isOspfRouteService (name : String) : Bool :=
  name == "peer_rpc.OspfRouteRpc" || name == "OspfRouteRpc"

def buildRpcResponseBytes (x : Externals) (req : RpcPacket) (responseBody : Bytes)
    (toPeerId : PeerId) : Bytes :=
  x.encodeRpcPacket
    { fromPeer := myPeerId
      toPeer := toPeerId
      transactionId := req.transactionId
      descriptor := req.descriptor
      body := x.encodeRpcResponse { response := responseBody, error := none, runtimeUs := 0 }
      isRequest := false
      totalPieces := 1
      pieceIdx := 0
      traceId := req.traceId
      compressionInfo := some { algo := 1, acceptedAlgo := 1 } }

/- What a handler leaves behind. -/
structure RpcOutcome where
  actions : List RpcAction
  ctx : WsPeerContext
  peerManager : PeerManager
  peerCenterMap : PeerCenterMap

/- The part of handle_sync_route_info that a decodable request reaches: the broadcast flag
   with the state and context after the ack, the infos and the conn_info. -/
def applySyncRequest (x : Externals) (a : Ambient) (ctx : WsPeerContext) (pm : PeerManager)
    (innerReqBody : Bytes) (groupKey : GroupKey) : Bool × WsPeerContext × PeerManager :=
  match x.decodeSyncRouteInfoRequest innerReqBody with
  | none => (false, ctx, pm)
  | some req =>
    let ctx := { ctx with weAreInitiator := !req.isInitiator }
    let acked := pm.onRouteSessionAck a.seed groupKey ctx.peerId req.mySessionId
      ctx.weAreInitiator a.nowMs
    let (infoChange, informed) := acked.processIncomingPeerInfos x a.seed groupKey innerReqBody
    let (p2pChanged, connected) :=
      informed.processIncomingConnInfo x a.seed groupKey ctx.peerId innerReqBody
    (p2pChanged || infoChange.getD false, ctx, connected)

def handleSyncRouteInfo (x : Externals) (a : Ambient) (ctx : WsPeerContext) (pm : PeerManager)
    (packet : RpcPacket) (innerReqBody : Bytes) (groupKey : GroupKey) :
    List RpcAction × WsPeerContext × PeerManager :=
  let ctx := if ctx.serverSessionId.isEmpty
    then { ctx with serverSessionId := randomU64String a.randomU64 } else ctx
  let (p2pChanged, ctx, applied) := applySyncRequest x a ctx pm innerReqBody groupKey
  let (resp, handled) := applied.handleSyncRouteInfo x a groupKey ctx.peerId innerReqBody
  match resp with
  | none => ([], ctx, handled)
  | some resp =>
    let sendBytes :=
      buildRpcResponseBytes x packet (x.encodeSyncRouteInfoResponse resp) ctx.peerId
    ([.sendTo ctx.peerId sendBytes, .pushRouteUpdate ctx.peerId groupKey] ++
        (if p2pChanged then [.broadcastRouteUpdate groupKey ctx.peerId] else []),
      ctx, handled)

def handlePeerCenterRpc (x : Externals) (a : Ambient) (ctx : WsPeerContext)
    (centers : PeerCenterMap) (packet : RpcPacket) (innerReqBody : Bytes) :
    List RpcAction × PeerCenterMap :=
  let pc := centers.getD ctx.groupKey PeerCenter.new
  let (answer, pc) :=
    if methodIndex packet = 0 then pc.reportPeers x ctx.groupKey innerReqBody a.nowMs
    else if methodIndex packet = 1 then pc.getGlobalPeerMap x ctx.groupKey innerReqBody
    else (none, pc)
  ((answer.map fun respBytes =>
      RpcAction.sendTo ctx.peerId (buildRpcResponseBytes x packet respBytes ctx.peerId)).toList,
    centers.insert ctx.groupKey pc)

/- handle_rpc_req after the packet has been decoded. -/
def dispatchRpcReq (x : Externals) (a : Ambient) (ctx : WsPeerContext) (pm : PeerManager)
    (centers : PeerCenterMap) (packet : RpcPacket) : RpcOutcome :=
  let inner := innerRequestBody x packet
  if isPeerCenterService (serviceName packet) then
    let (actions, centers) := handlePeerCenterRpc x a ctx centers packet inner
    ⟨actions, ctx, pm, centers⟩
  else if isOspfRouteService (serviceName packet) then
    if methodIndex packet = 0 ∨ methodIndex packet = 1 then
      let (actions, ctx, pm) := handleSyncRouteInfo x a ctx pm packet inner ctx.groupKey
      ⟨actions, ctx, pm, centers⟩
    else ⟨[], ctx, pm, centers⟩
  else ⟨[], ctx, pm, centers⟩

def handleRpcReq (x : Externals) (a : Ambient) (ctx : WsPeerContext) (pm : PeerManager)
    (centers : PeerCenterMap) (payload : Bytes) : RpcOutcome :=
  match x.decodeRpcPacket payload with
  | none => ⟨[], ctx, pm, centers⟩
  | some packet => dispatchRpcReq x a ctx pm centers packet

/- handle_rpc_resp always answers no action. The acked session is the header's sender. -/
def handleRpcResp (x : Externals) (a : Ambient) (ctx : WsPeerContext) (pm : PeerManager)
    (headerFromPeerId : PeerId) (payload : Bytes) : Option RpcAction × PeerManager :=
  match x.decodeRpcPacket payload with
  | none => (none, pm)
  | some packet =>
    if isOspfRouteService (serviceName packet) then
      match x.decodeSyncRouteInfoResponse (innerResponseBody x packet) with
      | some resp =>
        if resp.sessionId ≠ 0 then
          (none, pm.onRouteSessionAck a.seed ctx.groupKey headerFromPeerId resp.sessionId
            ctx.weAreInitiator a.nowMs)
        else (none, pm)
      | none => (none, pm)
    else (none, pm)

end RelayRpcHandler
