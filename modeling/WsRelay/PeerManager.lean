import WsRelay.RouteState
import WsRelay.PeerCenter

/- The peer manager around the route state, and the isolate-wide state that the
   rooms share. -/
namespace RelayPeerManager
open RelayProtocol RelayRouteState RelayPeerCenter

/- What the platform supplies to one call: the clock, the draws of a group that the call
   creates, and a random u64. -/
structure Ambient where
  nowMs : Millis
  seed : GroupSeed
  randomU64 : UInt64

def randomU64String (draw : UInt64) : String := draw.toNat.repr

structure WsPeerContext where
  peerId : PeerId
  groupKey : GroupKey
  domainName : String
  serverSessionId : String
  weAreInitiator : Bool
  deriving DecidableEq, Repr

structure PeerManager where
  routeState : RouteState
  deriving DecidableEq

def PeerManager.new : PeerManager := ⟨RouteState.new⟩

def PeerManager.addPeer (pm : PeerManager) (seed : GroupSeed) (groupKey : GroupKey)
    (peerId : PeerId) : PeerManager :=
  ⟨(pm.routeState.addPeer seed groupKey peerId).bumpMyInfoVersion seed groupKey⟩

def PeerManager.cleanupStalePeerConnections (pm : PeerManager) (seed : GroupSeed)
    (groupKey : GroupKey) (staleThresholdMs nowMs : Millis) : PeerManager :=
  ⟨pm.routeState.cleanupStalePeerConnections seed groupKey staleThresholdMs nowMs⟩

def PeerManager.removePeer (pm : PeerManager) (seed : GroupSeed) (ctx : WsPeerContext)
    (nowMs : Millis) : Bool × PeerManager :=
  if ctx.peerId = 0 then (false, pm)
  else (true, ⟨pm.routeState.removePeer seed ctx.groupKey ctx.peerId nowMs⟩)

def PeerManager.listPeerIdsInGroup (pm : PeerManager) (groupKey : GroupKey) : List PeerId :=
  pm.routeState.getPeerIdsInGroup groupKey

def PeerManager.updatePeerInfo (x : Externals) (pm : PeerManager) (seed : GroupSeed)
    (groupKey : GroupKey) (peerId : PeerId) (infoBytes : Bytes) : Bool × PeerManager :=
  let (changed, st) := pm.routeState.updatePeerInfo x seed groupKey peerId infoBytes
  (changed.getD false, ⟨st⟩)

def PeerManager.bumpMyInfoVersion (pm : PeerManager) (seed : GroupSeed) (groupKey : GroupKey) :
    PeerManager :=
  ⟨pm.routeState.bumpMyInfoVersion seed groupKey⟩

def PeerManager.onRouteSessionAck (pm : PeerManager) (seed : GroupSeed) (groupKey : GroupKey)
    (peerId : PeerId) (theirSessionId : SessionId) (weAreInitiator : Bool) (nowMs : Millis) :
    PeerManager :=
  ⟨pm.routeState.onRouteSessionAck seed groupKey peerId theirSessionId weAreInitiator nowMs⟩

/- A built update: the request next to the bytes that carry it. -/
structure RouteUpdate where
  request : SyncRouteInfoRequest
  rpcBytes : Bytes

def routeUpdatePacket (x : Externals) (ctx : WsPeerContext) (targetPeerId : PeerId)
    (transactionDraw : UInt64) (req : SyncRouteInfoRequest) : RpcPacket where
  fromPeer := myPeerId
  toPeer := targetPeerId
  transactionId := transactionDraw.toUInt32.toUInt64.toInt64
  descriptor := some
    { domainName := ctx.domainName
      protoName := "OspfRouteRpc"
      serviceName := "OspfRouteRpc"
      methodIndex := 1 }
  body := x.encodeRpcRequest
    { descriptor := none, request := x.encodeSyncRouteInfoRequest req, timeoutMs := 5000 }
  isRequest := true
  totalPieces := 1
  pieceIdx := 0
  traceId := 0
  compressionInfo := some { algo := 1, acceptedAlgo := 1 }

def PeerManager.buildRouteUpdate (x : Externals) (pm : PeerManager) (a : Ambient)
    (ctx : WsPeerContext) (targetPeerId : PeerId) (forceFull : Bool) :
    Option RouteUpdate × PeerManager :=
  let serverSessionId := (parseU64 ctx.serverSessionId).getD 0
  let (req, st) := pm.routeState.buildSyncRouteInfoRequest a.seed a.nowMs ctx.groupKey targetPeerId
    serverSessionId ctx.weAreInitiator forceFull
  (some
    { request := req
      rpcBytes := x.encodeRpcPacket (routeUpdatePacket x ctx targetPeerId a.randomU64 req) },
    ⟨st⟩)

def PeerManager.handleSyncRouteInfo (x : Externals) (pm : PeerManager) (a : Ambient)
    (groupKey : GroupKey) (fromPeerId : PeerId) (requestBytes : Bytes) :
    Option SyncRouteInfoResponse × PeerManager :=
  let (resp, st) :=
    pm.routeState.handleSyncRouteInfoRequest x a.seed groupKey fromPeerId requestBytes a.nowMs
  (resp, ⟨st⟩)

def PeerManager.processIncomingConnInfo (x : Externals) (pm : PeerManager) (seed : GroupSeed)
    (groupKey : GroupKey) (fromPeerId : PeerId) (requestBytes : Bytes) : Bool × PeerManager :=
  let (changed, st) :=
    pm.routeState.updatePeerConnectionsFromConnInfo x seed groupKey fromPeerId requestBytes
  (changed, ⟨st⟩)

/- One turn of the item loop; an item about the relay itself is stored but not counted. -/
def processItem (x : Externals) (seed : GroupSeed) (groupKey : GroupKey)
    (acc : Bool × PeerManager) (info : RoutePeerInfo) : Bool × PeerManager :=
  let (changed, pm) :=
    acc.2.updatePeerInfo x seed groupKey info.peerId (x.encodeRoutePeerInfo info)
  (acc.1 || (decide (info.peerId ≠ myPeerId) && changed), pm)

def PeerManager.processIncomingPeerInfos (x : Externals) (pm : PeerManager) (seed : GroupSeed)
    (groupKey : GroupKey) (requestBytes : Bytes) : Option Bool × PeerManager :=
  match x.decodeSyncRouteInfoRequest requestBytes with
  | none => (none, pm)
  | some req =>
    match req.peerInfos with
    | none => (some false, pm)
    | some infos =>
      let (hasChange, pm') := infos.items.foldl (processItem x seed groupKey) (false, pm)
      (some hasChange, pm')

abbrev PeerCenterMap := Std.ExtTreeMap GroupKey PeerCenter
abbrev DigestRegistry := Std.ExtTreeMap String String

structure GlobalStateInner where
  peerManager : PeerManager
  peerCenterMap : PeerCenterMap
  networkDigestRegistry : DigestRegistry
  deriving DecidableEq

/- with_global_state creates this on the first use in an isolate. -/
def GlobalStateInner.fresh : GlobalStateInner := ⟨PeerManager.new, ∅, ∅⟩

end RelayPeerManager
