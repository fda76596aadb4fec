import WsRelay.Protocol
import WsRelay.Library.PackedBits
import WsRelay.Library.PlainText

/- The route groups of the relay and every operation on them, one definition per
   source function. Hash maps and B-tree sets are finite maps and sets with
   extensional equality, iterated in key order. Versions are u32 and wrap. -/
namespace RelayRouteState
open RelayProtocol PackedBits PlainText

structure SessionState where
  mySessionId : Option SessionId := none
  dstSessionId : Option SessionId := none
  weAreInitiator : Bool := false
  peerInfoVerMap : PeerMap Version := ∅
  connBitmapVerMap : PeerMap Version := ∅
  foreignNetVer : UInt32 := 0
  lastTouchMs : Millis := 0
  lastConnBitmapSig : Option String := none
  deriving DecidableEq

structure RouteGroupData where
  peers : PeerSet
  peerInfos : PeerMap RoutePeerInfo
  sessions : PeerMap SessionState
  peerConnVersions : PeerMap Version
  myInfo : RoutePeerInfo
  myInfoVersion : Version
  peerConnections : PeerMap PeerSet
  peerRemovedAt : PeerMap Millis
  deriving DecidableEq

structure RouteState where
  groups : Std.ExtTreeMap GroupKey RouteGroupData
  deriving DecidableEq

def RouteState.new : RouteState := ⟨∅⟩

/- The random draws of a group's creation. -/
structure GroupSeed where
  instId : Uuid
  peerRouteId : UInt64
  deriving DecidableEq, Repr

def newGroup (seed : GroupSeed) : RouteGroupData where
  peers := ∅
  peerInfos := ∅
  sessions := ∅
  peerConnVersions := ∅
  myInfo :=
    { peerId := myPeerId
      instId := some seed.instId
      cost := 1
      version := 1
      networkLength := 24
      easytierVersion := "cf-easytier-wsrelay"
      hostname := some "cf-easytier-wsrelay"
      peerRouteId := seed.peerRouteId
      featureFlag := some
        { isPublicServer := true, avoidRelayData := true, kcpInput := false, noRelayKcp := false,
          supportConnListSync := false, quicInput := false, noRelayQuic := false,
          isCredentialPeer := false, needP2p := true, disableP2p := false,
          ipv6PublicAddrProvider := false } }
  myInfoVersion := 1
  peerConnections := ∅
  peerRemovedAt := ∅

def RouteState.ensureGroup (st : RouteState) (seed : GroupSeed) (groupKey : GroupKey) :
    RouteGroupData :=
  (st.groups[groupKey]?).getD (newGroup seed)

def RouteState.put (st : RouteState) (groupKey : GroupKey) (g : RouteGroupData) : RouteState :=
  ⟨st.groups.insert groupKey g⟩

/- bump_all_conn_versions: every id of `peers` or `peer_infos` once, then the relay itself. -/
def RouteGroupData.bumpedIds (g : RouteGroupData) : PeerSet := g.peers.insertMany g.peerInfos.keys

def bumpVersion (versions : PeerMap Version) (peerId : PeerId) : PeerMap Version :=
  versions.insert peerId (versions.getD peerId 1 + 1)

def RouteGroupData.bumpAllConnVersions (g : RouteGroupData) : RouteGroupData :=
  let bumped := g.bumpedIds.toList.foldl bumpVersion g.peerConnVersions
  let own := match bumped[myPeerId]? with
    | some v => v + 1
    | none => 2
  { g with peerConnVersions := bumped.insert myPeerId own }

def RouteGroupData.addPeer (g : RouteGroupData) (peerId : PeerId) : RouteGroupData :=
  let isNew := !g.peers.contains peerId
  let g' := { g with peers := g.peers.insert peerId, peerRemovedAt := g.peerRemovedAt.erase peerId }
  if isNew then g'.bumpAllConnVersions else g'

def RouteState.addPeer (st : RouteState) (seed : GroupSeed) (groupKey : GroupKey)
    (peerId : PeerId) : RouteState :=
  st.put groupKey ((st.ensureGroup seed groupKey).addPeer peerId)

/- peer_connections is kept, so that P2P edges survive a short reconnection. -/
def RouteGroupData.removePeer (g : RouteGroupData) (peerId : PeerId) (nowMs : Millis) :
    RouteGroupData :=
  let wasPresent := g.peers.contains peerId
  let g' :=
    { g with
      peers := g.peers.erase peerId
      peerInfos := g.peerInfos.erase peerId
      sessions := g.sessions.erase peerId
      peerConnVersions := g.peerConnVersions.erase peerId
      peerRemovedAt := g.peerRemovedAt.insert peerId nowMs }
  if wasPresent then g'.bumpAllConnVersions else g'

def RouteState.removePeer (st : RouteState) (seed : GroupSeed) (groupKey : GroupKey)
    (peerId : PeerId) (nowMs : Millis) : RouteState :=
  st.put groupKey ((st.ensureGroup seed groupKey).removePeer peerId nowMs)

def RouteGroupData.updatePeerInfo (g : RouteGroupData) (peerId : PeerId) (info : RoutePeerInfo) :
    Bool × RouteGroupData :=
  match g.peerInfos[peerId]? with
  | none => (true, { g with peerInfos := g.peerInfos.insert peerId info }.bumpAllConnVersions)
  | some old =>
    if old.version < info.version then
      (true, { g with peerInfos := g.peerInfos.insert peerId info })
    else (false, g)

/- update_peer_info; `none` is the decoding error, met before the group is touched. -/
def RouteState.updatePeerInfo (x : Externals) (st : RouteState) (seed : GroupSeed)
    (groupKey : GroupKey) (peerId : PeerId) (infoBytes : Bytes) : Option Bool × RouteState :=
  match x.decodeRoutePeerInfo infoBytes with
  | none => (none, st)
  | some info =>
    let (changed, g) := (st.ensureGroup seed groupKey).updatePeerInfo peerId info
    (some changed, st.put groupKey g)

def SessionState.forget (s : SessionState) : SessionState :=
  { s with
    peerInfoVerMap := ∅
    connBitmapVerMap := ∅
    foreignNetVer := 0
    lastConnBitmapSig := none }

/- What a changed peer session id clears, on both paths that learn of one. -/
def SessionState.resetIfNew (s : SessionState) (sessionId : SessionId) : SessionState :=
  if s.dstSessionId ≠ some sessionId then s.forget else s

def RouteGroupData.session (g : RouteGroupData) (peerId : PeerId) : SessionState :=
  g.sessions.getD peerId {}

def RouteGroupData.onRouteSessionAck (g : RouteGroupData) (peerId : PeerId)
    (theirSessionId : SessionId) (weAreInitiator : Bool) (nowMs : Millis) : RouteGroupData :=
  let session :=
    { (g.session peerId).resetIfNew theirSessionId with
      dstSessionId := some theirSessionId
      weAreInitiator := weAreInitiator
      lastTouchMs := nowMs }
  { g with sessions := g.sessions.insert peerId session }

def RouteState.onRouteSessionAck (st : RouteState) (seed : GroupSeed) (groupKey : GroupKey)
    (peerId : PeerId) (theirSessionId : SessionId) (weAreInitiator : Bool) (nowMs : Millis) :
    RouteState :=
  st.put groupKey
    ((st.ensureGroup seed groupKey).onRouteSessionAck peerId theirSessionId weAreInitiator nowMs)

def RouteState.getPeerConnVersion (st : RouteState) (groupKey : GroupKey) (peerId : PeerId) :
    Version :=
  ((st.groups[groupKey]?).bind fun g => g.peerConnVersions[peerId]?).getD 1

def RouteState.getPeerIdsInGroup (st : RouteState) (groupKey : GroupKey) : List PeerId :=
  ((st.groups[groupKey]?).map fun g => g.peers.toList).getD []

def RouteGroupData.bumpMyInfoVersion (g : RouteGroupData) : RouteGroupData :=
  { g with
    myInfoVersion := g.myInfoVersion + 1
    myInfo := { g.myInfo with version := g.myInfoVersion + 1 } }

def RouteState.bumpMyInfoVersion (st : RouteState) (seed : GroupSeed) (groupKey : GroupKey) :
    RouteState :=
  st.put groupKey (st.ensureGroup seed groupKey).bumpMyInfoVersion

def parseU32 (text : String) : Option UInt32 := (parseUnsigned (2 ^ 32) text).map UInt32.ofNat
def parseU64 (text : String) : Option UInt64 := (parseUnsigned (2 ^ 64) text).map UInt64.ofNat

/- set_my_info_field; the group exists afterwards also when the field is refused. -/
def RouteGroupData.withMyInfoField (g : RouteGroupData) (field value : String) :
    Except String RoutePeerInfo :=
  match field with
  | "hostname" => .ok { g.myInfo with hostname := some value }
  | "network_length" => match parseU32 value with
    | some n => .ok { g.myInfo with networkLength := n }
    | none => .error "invalid network_length"
  | "ipv4_addr" => match parseU32 value with
    | some addr => .ok { g.myInfo with ipv4Addr := some ⟨addr⟩ }
    | none => .error "invalid ipv4_addr"
  | _ => .error "unknown field"

def RouteGroupData.setMyInfoField (g : RouteGroupData) (field value : String) :
    Except String Unit × RouteGroupData :=
  match g.withMyInfoField field value with
  | .ok info => (.ok (), { g with myInfo := info }.bumpMyInfoVersion)
  | .error e => (.error e, g)

def RouteState.setMyInfoField (st : RouteState) (seed : GroupSeed) (groupKey : GroupKey)
    (field value : String) : Except String Unit × RouteState :=
  let (result, g) := (st.ensureGroup seed groupKey).setMyInfoField field value
  (result, st.put groupKey g)

/- usize is 32 bits wide on the deployed target, and the product wraps there. -/
def usizeSize : Nat := 2 ^ 32

def getConnectedPeersFromBitmap (bitmap : RouteConnBitmap) (peerIdx : Nat) : PeerSet :=
  let n := bitmap.peerIds.length
  bitmap.peerIds.zipIdx.foldl (fun connected (pidVer, idx) =>
    if getBit bitmap.bitmap ((peerIdx * n + idx) % usizeSize)
    then connected.insert pidVer.peerId else connected) ∅

def RouteGroupData.keepsReported (g : RouteGroupData) (fromPeerId p : PeerId) : Bool :=
  p ≠ myPeerId && p ≠ fromPeerId && g.peers.contains p

def RouteGroupData.p2pConnections (g : RouteGroupData) (fromPeerId : PeerId) :
    ConnInfo → PeerSet
  | .connBitmap bitmap =>
    match bitmap.peerIds.findIdx? (·.peerId == fromPeerId) with
    | some peerIdx =>
      (getConnectedPeersFromBitmap bitmap peerIdx).filter (g.keepsReported fromPeerId)
    | none => ∅
  | .connPeerList list =>
    match list.peerConnInfos.find? (fun info => info.peerId.map (·.peerId) == some fromPeerId) with
    | some info => Std.ExtTreeSet.ofList (info.connectedPeerIds.filter (g.keepsReported fromPeerId))
    | none => ∅

def RouteGroupData.storeConnections (g : RouteGroupData) (fromPeerId : PeerId)
    (p2p : PeerSet) : Bool × RouteGroupData :=
  if p2p.isEmpty then
    (g.peerConnections.contains fromPeerId,
      { g with peerConnections := g.peerConnections.erase fromPeerId })
  else
    let changed := match g.peerConnections[fromPeerId]? with
      | some old => decide (old ≠ p2p)
      | none => true
    (changed, { g with peerConnections := g.peerConnections.insert fromPeerId p2p })

def RouteGroupData.updatePeerConnectionsFromConnInfo (g : RouteGroupData) (fromPeerId : PeerId)
    (req : SyncRouteInfoRequest) : Bool × RouteGroupData :=
  match req.connInfo with
  | none => (false, g)
  | some connInfo =>
    let (changed, g') := g.storeConnections fromPeerId (g.p2pConnections fromPeerId connInfo)
    if changed then (true, g'.bumpAllConnVersions) else (false, g')

def RouteState.updatePeerConnectionsFromConnInfo (x : Externals) (st : RouteState)
    (seed : GroupSeed) (groupKey : GroupKey) (fromPeerId : PeerId) (requestBytes : Bytes) :
    Bool × RouteState :=
  match x.decodeSyncRouteInfoRequest requestBytes with
  | none => (false, st)
  | some req =>
    let (changed, g) :=
      (st.ensureGroup seed groupKey).updatePeerConnectionsFromConnInfo fromPeerId req
    (changed, st.put groupKey g)

/- The calls of set_bit in the loops of build_conn_bitmap, as (row, column) pairs. -/
abbrev Cell := Nat × Nat

def diagonalCells (n : Nat) : List Cell := (List.range n).map fun i => (i, i)

def serverCells (n serverIdx : Nat) : List Cell :=
  ((List.range n).filter (· ≠ serverIdx)).flatMap fun i => [(serverIdx, i), (i, serverIdx)]

def p2pCells (idxByPeer : PeerMap Nat) (serverIdx : Nat) (connections : PeerMap PeerSet) :
    List Cell :=
  connections.toList.flatMap fun (srcPeer, dstPeers) =>
    match idxByPeer[srcPeer]? with
    | none => []
    | some srcIdx => dstPeers.toList.flatMap fun dstPeer =>
      match idxByPeer[dstPeer]? with
      | none => []
      | some dstIdx =>
        if srcIdx ≠ dstIdx ∧ srcIdx ≠ serverIdx ∧ dstIdx ≠ serverIdx
        then [(srcIdx, dstIdx), (dstIdx, srcIdx)] else []

def allCells (n : Nat) : List Cell :=
  (List.range n).flatMap fun i => (List.range n).map fun j => (i, j)

def indexByPeer (relevantPeers : List PeerId) : PeerMap Nat :=
  relevantPeers.zipIdx.foldl (fun index (p, i) => index.insert p i) ∅

def RouteGroupData.connCells (g : RouteGroupData) (relevantPeers : List PeerId) : List Cell :=
  let n := relevantPeers.length
  let idxByPeer := indexByPeer relevantPeers
  diagonalCells n ++
    match idxByPeer[myPeerId]? with
    | some serverIdx => serverCells n serverIdx ++ p2pCells idxByPeer serverIdx g.peerConnections
    | none => allCells n

def RouteGroupData.connBitmap (g : RouteGroupData) (relevantPeers : List PeerId) :
    RouteConnBitmap :=
  let n := relevantPeers.length
  { peerIds := relevantPeers.map fun pid =>
      { peerId := pid, version := g.peerConnVersions.getD pid 1 }
    bitmap := ((g.connCells relevantPeers).map fun (row, col) => row * n + col).foldl setBit
      (zeros ((n * n + 7) / 8)) }

def peerIdVersionText (p : PeerIdVersion) : String :=
  p.peerId.toNat.repr ++ ":" ++ p.version.toNat.repr

def connBitmapSig (bitmap : RouteConnBitmap) : String :=
  joined "," (bitmap.peerIds.map peerIdVersionText) ++ "|" ++ hexText bitmap.bitmap

/- build_conn_bitmap: the signature is recorded here, before anything is sent. -/
def RouteGroupData.buildConnBitmap (g : RouteGroupData) (relevantPeers : List PeerId)
    (targetPeerId : PeerId) : Option RouteConnBitmap × RouteGroupData :=
  if relevantPeers.isEmpty then (none, g)
  else
    let full := g.connBitmap relevantPeers
    let session := g.session targetPeerId
    let connVersion := session.connBitmapVerMap.getD targetPeerId 0
    let nextConnVersion :=
      if connVersion = 0 then ((full.peerIds.map (·.version)).max?).getD 1 else connVersion
    if session.lastConnBitmapSig = some (connBitmapSig full) then
      (none, { g with sessions := g.sessions.insert targetPeerId session })
    else
      let recorded :=
        { session with
          connBitmapVerMap := session.connBitmapVerMap.insert targetPeerId nextConnVersion
          lastConnBitmapSig := some (connBitmapSig full) }
      (some full, { g with sessions := g.sessions.insert targetPeerId recorded })

def makeStubPeerInfo (nowMs : Millis) (peerId : PeerId) (networkLength : UInt32) :
    RoutePeerInfo where
  peerId := peerId
  version := 1
  lastUpdate := some { seconds := nowMs.toInt64 / 1000, nanos := 0 }
  instId := some ⟨0, 0, 0, 0⟩
  cost := 1
  hostname := none
  easytierVersion := "cf-2.6"
  featureFlag := none
  networkLength := networkLength
  peerRouteId := 0

def timestampOf (nowMs : Millis) : Timestamp := { seconds := (nowMs / 1000).toInt64, nanos := 0 }

def RouteGroupData.allPeers (g : RouteGroupData) (targetPeerId : PeerId) : PeerSet :=
  (g.peers.insert myPeerId).insert targetPeerId

def RouteGroupData.relevantPeers (g : RouteGroupData) (targetPeerId : PeerId) : List PeerId :=
  (myPeerId :: (g.allPeers targetPeerId).toList.filter (· ≠ myPeerId)).insertionSort (· ≤ ·)

/- The accumulators of the loop over the relevant peers. -/
structure InfoSelection where
  peerInfos : PeerMap RoutePeerInfo
  peerInfoVerMap : PeerMap Version
  items : List RoutePeerInfo

def selectInfo (nowMs : Millis) (myInfo : RoutePeerInfo) (forceFull : Bool) (acc : InfoSelection)
    (pid : PeerId) : InfoSelection :=
  let peerInfos :=
    if pid ≠ myPeerId ∧ pid ∉ acc.peerInfos
    then acc.peerInfos.insert pid (makeStubPeerInfo nowMs pid (max myInfo.networkLength 1))
    else acc.peerInfos
  let info := if pid = myPeerId then myInfo else peerInfos.getD pid {}
  let version := max info.version 1
  let prev := if forceFull then 0 else acc.peerInfoVerMap.getD pid 0
  if forceFull || decide (prev < version) then
    { peerInfos
      peerInfoVerMap := acc.peerInfoVerMap.insert pid version
      items := acc.items ++ [info] }
  else { acc with peerInfos }

def foreignNetworkInfos (nowMs : Millis) (allPeers : PeerSet) (version : UInt32) :
    RouteForeignNetworkInfos where
  infos := [
    { key := some { peerId := myPeerId, networkName := "dev-websocket-relay" }
      value := some
        { foreignPeerIds := allPeers.toList
          lastUpdate := some (timestampOf nowMs)
          version
          networkSecretDigest := List.replicate 32 0
          myPeerIdForThisNetwork := myPeerId } }]

/- build_sync_route_info_request before its encoding, in the order of the source: touch the
   session, select the infos, build the bitmap, advance the foreign version. -/
def RouteGroupData.touchSession (g : RouteGroupData) (targetPeerId : PeerId)
    (serverSessionId : SessionId) (nowMs : Millis) : RouteGroupData :=
  let session :=
    { g.session targetPeerId with
      mySessionId := some serverSessionId
      lastTouchMs := nowMs }
  { g with sessions := g.sessions.insert targetPeerId session }

def RouteGroupData.selectInfos (g : RouteGroupData) (nowMs : Millis) (targetPeerId : PeerId)
    (forceFull : Bool) : List RoutePeerInfo × RouteGroupData :=
  let session := g.session targetPeerId
  let selection := (g.relevantPeers targetPeerId).foldl
    (selectInfo nowMs g.myInfo (forceFull || session.dstSessionId.isNone))
    { peerInfos := g.peerInfos, peerInfoVerMap := session.peerInfoVerMap, items := [] }
  let selected := { session with peerInfoVerMap := selection.peerInfoVerMap }
  (selection.items,
    { g with
      peerInfos := selection.peerInfos
      sessions := g.sessions.insert targetPeerId selected })

def RouteGroupData.nextForeignVersion (g : RouteGroupData) (targetPeerId : PeerId) :
    UInt32 × RouteGroupData :=
  let session := g.session targetPeerId
  let version := session.foreignNetVer + 1
  let advanced := { session with foreignNetVer := version }
  (version, { g with sessions := g.sessions.insert targetPeerId advanced })

def RouteGroupData.buildSyncRouteInfoRequest (g : RouteGroupData) (nowMs : Millis)
    (targetPeerId : PeerId) (serverSessionId : SessionId) (weAreInitiator forceFull : Bool) :
    SyncRouteInfoRequest × RouteGroupData :=
  let touched := g.touchSession targetPeerId serverSessionId nowMs
  let (items, selected) := touched.selectInfos nowMs targetPeerId forceFull
  let (connBitmap, mapped) :=
    selected.buildConnBitmap (g.relevantPeers targetPeerId) targetPeerId
  let (version, versioned) := mapped.nextForeignVersion targetPeerId
  ({ myPeerId
     mySessionId := serverSessionId
     isInitiator := weAreInitiator
     peerInfos := if items.isEmpty then none else some { items }
     connInfo := connBitmap.map .connBitmap
     foreignNetworkInfos := some (foreignNetworkInfos nowMs (g.allPeers targetPeerId) version) },
    versioned)

def RouteState.buildSyncRouteInfoRequest (st : RouteState) (seed : GroupSeed) (nowMs : Millis)
    (groupKey : GroupKey) (targetPeerId : PeerId) (serverSessionId : SessionId)
    (weAreInitiator forceFull : Bool) : SyncRouteInfoRequest × RouteState :=
  let (req, g) := (st.ensureGroup seed groupKey).buildSyncRouteInfoRequest nowMs targetPeerId
    serverSessionId weAreInitiator forceFull
  (req, st.put groupKey g)

def RouteGroupData.touchFrom (g : RouteGroupData) (fromPeerId : PeerId)
    (req : SyncRouteInfoRequest) (nowMs : Millis) : RouteGroupData :=
  let session := { g.session fromPeerId with lastTouchMs := nowMs }.resetIfNew req.mySessionId
  let updated :=
    { session with
      dstSessionId := some req.mySessionId
      weAreInitiator := if req.isInitiator then false else session.weAreInitiator }
  { g with sessions := g.sessions.insert fromPeerId updated }

/- The item loop; the flag is need_bump. -/
def storeItem (nowMs : Millis) (peers : PeerSet) (fromPeerId : PeerId)
    (acc : Bool × PeerMap RoutePeerInfo) (info : RoutePeerInfo) : Bool × PeerMap RoutePeerInfo :=
  if peers.contains info.peerId || info.peerId == fromPeerId then
    (acc.1 || !acc.2.contains info.peerId,
      acc.2.insert info.peerId { info with lastUpdate := some (timestampOf nowMs) })
  else acc

def RouteGroupData.storeItems (g : RouteGroupData) (fromPeerId : PeerId)
    (items : List RoutePeerInfo) (nowMs : Millis) : RouteGroupData :=
  let (needBump, peerInfos) :=
    items.foldl (storeItem nowMs g.peers fromPeerId) (false, g.peerInfos)
  let g' := { g with peerInfos }
  if needBump then g'.bumpAllConnVersions else g'

def RouteGroupData.handleSyncRouteInfoRequest (g : RouteGroupData) (fromPeerId : PeerId)
    (req : SyncRouteInfoRequest) (nowMs : Millis) : SyncRouteInfoResponse × RouteGroupData :=
  let touched := g.touchFrom fromPeerId req nowMs
  let stored := match req.peerInfos with
    | some infos => touched.storeItems fromPeerId infos.items nowMs
    | none => touched
  ({ isInitiator := !req.isInitiator
     sessionId := ((stored.sessions[fromPeerId]?).bind (·.mySessionId)).getD 1
     error := none },
    stored)

def RouteState.handleSyncRouteInfoRequest (x : Externals) (st : RouteState) (seed : GroupSeed)
    (groupKey : GroupKey) (fromPeerId : PeerId) (requestBytes : Bytes) (nowMs : Millis) :
    Option SyncRouteInfoResponse × RouteState :=
  match x.decodeSyncRouteInfoRequest requestBytes with
  | none => (none, st)
  | some req =>
    let (resp, g) :=
      (st.ensureGroup seed groupKey).handleSyncRouteInfoRequest fromPeerId req nowMs
    (some resp, st.put groupKey g)

def saturatingAge (nowMs since : Millis) : Millis := if nowMs < since then 0 else nowMs - since

def dropStale (acc : PeerMap PeerSet × PeerMap Millis) (peerId : PeerId) :
    PeerMap PeerSet × PeerMap Millis :=
  ((acc.1.erase peerId).map fun _ conns => conns.erase peerId, acc.2.erase peerId)

def RouteGroupData.stalePeers (g : RouteGroupData) (staleThresholdMs nowMs : Millis) :
    List PeerId :=
  (g.peerRemovedAt.toList.filter fun (_, removedAt) =>
    staleThresholdMs < saturatingAge nowMs removedAt).map Prod.fst

def RouteGroupData.cleanupStalePeerConnections (g : RouteGroupData)
    (staleThresholdMs nowMs : Millis) : RouteGroupData :=
  let (peerConnections, peerRemovedAt) :=
    (g.stalePeers staleThresholdMs nowMs).foldl dropStale (g.peerConnections, g.peerRemovedAt)
  { g with peerConnections, peerRemovedAt }

def RouteState.cleanupStalePeerConnections (st : RouteState) (seed : GroupSeed)
    (groupKey : GroupKey) (staleThresholdMs nowMs : Millis) : RouteState :=
  st.put groupKey
    ((st.ensureGroup seed groupKey).cleanupStalePeerConnections staleThresholdMs nowMs)

end RelayRouteState
