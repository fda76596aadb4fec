import WsRelay.Membership
import WsRelay.Library.SharedStore

/- One handler on two rooms that differ in the shared state only. Where the shared states agree
   on the names and groups that the handler uses, it does the same in both rooms, and what it
   does not use it leaves as it was. -/
namespace RelayTwinSteps
open RelayProtocol RelayRouteState RelayPeerCenter RelayPeerManager RelayRpcHandler RelayRoomModel
open RelayRouteOps RelayRoomSteps RelayMembership SharedStore

/- The names and groups set apart, and the two shared states that they are kept from. -/
structure Zone where
  names : Set String
  groups : Set GroupKey
  base : GlobalStateInner
  base' : GlobalStateInner

def Zone.Registries (z : Zone) (m m' : DigestRegistry) : Prop :=
  Beside z.names (fun n => z.base.networkDigestRegistry[n]?)
    (fun n => z.base'.networkDigestRegistry[n]?) (fun n => m[n]?) (fun n => m'[n]?)

def Zone.Routes (z : Zone) (st st' : RouteState) : Prop :=
  Beside z.groups (fun k => z.base.peerManager.routeState.groups[k]?)
    (fun k => z.base'.peerManager.routeState.groups[k]?) (fun k => st.groups[k]?)
    (fun k => st'.groups[k]?)

def Zone.Managers (z : Zone) (pm pm' : PeerManager) : Prop := z.Routes pm.routeState pm'.routeState

def Zone.Centers (z : Zone) (m m' : PeerCenterMap) : Prop :=
  Beside z.groups (fun k => z.base.peerCenterMap[k]?) (fun k => z.base'.peerCenterMap[k]?)
    (fun k => m[k]?) (fun k => m'[k]?)

structure Zone.Globals (z : Zone) (gs gs' : GlobalStateInner) : Prop where
  manager : z.Managers gs.peerManager gs'.peerManager
  centers : z.Centers gs.peerCenterMap gs'.peerCenterMap
  registry : z.Registries gs.networkDigestRegistry gs'.networkDigestRegistry

structure Zone.Twins (z : Zone) (r r' : Relay) : Prop where
  room : r.room = r'.room
  global : z.Globals r.global r'.global

def Alike {Answer State : Type} (rel : State → State → Prop) (out out' : Answer × State) : Prop :=
  out.1 = out'.1 ∧ rel out.2 out'.2

theorem Alike.cases {Answer State : Type} {rel : State → State → Prop}
    {out out' : Answer × State} (alike : Alike rel out out') :
    ∃ answer after after', out = (answer, after) ∧ out' = (answer, after') ∧ rel after after' := by
  obtain ⟨same, related⟩ := alike
  exact ⟨out.1, out.2, out'.2, rfl, by rw [same], related⟩

section Routes
variable {z : Zone} {key : GroupKey} {st st' : RouteState}

theorem ensureGroup_twin (twin : z.Routes st st') (off : key ∉ z.groups) (seed : GroupSeed) :
    st.ensureGroup seed key = st'.ensureGroup seed key := by
  have same : st.groups[key]? = st'.groups[key]? := twin.agree key off
  unfold RouteState.ensureGroup
  rw [same]

theorem edit_twin (twin : z.Routes st st') (off : key ∉ z.groups) (seed : GroupSeed)
    (edit : RouteGroupData → RouteGroupData) :
    z.Routes (st.put key (edit (st.ensureGroup seed key)))
      (st'.put key (edit (st'.ensureGroup seed key))) := by
  rw [ensureGroup_twin twin off]
  exact twin.insert off _

/-- A call on a group that is not set apart has the same effect in both states. -/
theorem call_twin (x : Externals) (twin : z.Routes st st') {c : RouteCall}
    (off : c.groupKey ∉ z.groups) : z.Routes (RouteState.call x st c) (RouteState.call x st' c) := by
  rcases call_uniform x c with idle | edits
  · rw [(idle st).1, (idle st').1]
    exact twin
  · rw [edits st, edits st']
    exact edit_twin twin off c.seed (c.op.onGroup x)

end Routes

section Managers
variable {z : Zone} {key : GroupKey} {pm pm' : PeerManager} (x : Externals)

theorem listPeerIds_twin (twin : z.Managers pm pm') (off : key ∉ z.groups) :
    pm.listPeerIdsInGroup key = pm'.listPeerIdsInGroup key := by
  have same : pm.routeState.groups[key]? = pm'.routeState.groups[key]? := twin.agree key off
  simp only [PeerManager.listPeerIdsInGroup, RouteState.getPeerIdsInGroup, same]

theorem addPeer_twin (twin : z.Managers pm pm') (off : key ∉ z.groups) (seed : GroupSeed)
    (p : PeerId) : z.Managers (pm.addPeer seed key p) (pm'.addPeer seed key p) := by
  have joined : z.Routes (pm.routeState.addPeer seed key p) (pm'.routeState.addPeer seed key p) :=
    edit_twin twin off seed (·.addPeer p)
  exact edit_twin joined off seed (·.bumpMyInfoVersion)

theorem updatePeerInfo_twin (twin : z.Managers pm pm') (off : key ∉ z.groups) (seed : GroupSeed)
    (p : PeerId) (bytes : Bytes) :
    Alike z.Managers (pm.updatePeerInfo x seed key p bytes)
      (pm'.updatePeerInfo x seed key p bytes) := by
  constructor
  · simp only [PeerManager.updatePeerInfo, RouteState.updatePeerInfo]
    cases x.decodeRoutePeerInfo bytes with
    | none => rfl
    | some info => simp only [ensureGroup_twin twin off]
  · exact call_twin x (c := ⟨key, seed, .updatePeerInfo p bytes⟩) twin off

theorem processItem_twin (seed : GroupSeed) (off : key ∉ z.groups) {acc acc' : Bool × PeerManager}
    (alike : Alike z.Managers acc acc') (info : RoutePeerInfo) :
    Alike z.Managers (processItem x seed key acc info) (processItem x seed key acc' info) := by
  obtain ⟨changed, updated⟩ := updatePeerInfo_twin x alike.2 off seed info.peerId
    (x.encodeRoutePeerInfo info)
  refine ⟨?_, updated⟩
  simp only [processItem, alike.1, changed]

theorem processItems_twin (seed : GroupSeed) (off : key ∉ z.groups) (items : List RoutePeerInfo)
    {acc acc' : Bool × PeerManager} (alike : Alike z.Managers acc acc') :
    Alike z.Managers (items.foldl (processItem x seed key) acc)
      (items.foldl (processItem x seed key) acc') := by
  induction items generalizing acc acc' with
  | nil => exact alike
  | cons info rest ih => exact ih (processItem_twin x seed off alike info)

theorem processIncomingPeerInfos_twin (twin : z.Managers pm pm') (off : key ∉ z.groups)
    (seed : GroupSeed) (bytes : Bytes) :
    Alike z.Managers (pm.processIncomingPeerInfos x seed key bytes)
      (pm'.processIncomingPeerInfos x seed key bytes) := by
  unfold PeerManager.processIncomingPeerInfos
  cases x.decodeSyncRouteInfoRequest bytes with
  | none => exact ⟨rfl, twin⟩
  | some req =>
    cases listed : req.peerInfos with
    | none =>
      simp only [listed]
      exact ⟨rfl, twin⟩
    | some infos =>
      have start : Alike z.Managers (false, pm) (false, pm') := ⟨rfl, twin⟩
      have stored := processItems_twin x seed off infos.items start
      simp only [listed]
      exact ⟨congrArg some stored.1, stored.2⟩

theorem processIncomingConnInfo_twin (twin : z.Managers pm pm') (off : key ∉ z.groups)
    (seed : GroupSeed) (p : PeerId) (bytes : Bytes) :
    Alike z.Managers (pm.processIncomingConnInfo x seed key p bytes)
      (pm'.processIncomingConnInfo x seed key p bytes) := by
  constructor
  · simp only [PeerManager.processIncomingConnInfo, RouteState.updatePeerConnectionsFromConnInfo]
    cases x.decodeSyncRouteInfoRequest bytes with
    | none => rfl
    | some req => simp only [ensureGroup_twin twin off]
  · exact call_twin x (c := ⟨key, seed, .updatePeerConnections p bytes⟩) twin off

theorem handleSync_twin (twin : z.Managers pm pm') (off : key ∉ z.groups) (a : Ambient)
    (p : PeerId) (bytes : Bytes) :
    Alike z.Managers (pm.handleSyncRouteInfo x a key p bytes)
      (pm'.handleSyncRouteInfo x a key p bytes) := by
  constructor
  · simp only [PeerManager.handleSyncRouteInfo, RouteState.handleSyncRouteInfoRequest]
    cases x.decodeSyncRouteInfoRequest bytes with
    | none => rfl
    | some req => simp only [ensureGroup_twin twin off]
  · exact call_twin x (c := ⟨key, a.seed, .handleSync p bytes a.nowMs⟩) twin off

theorem buildRouteUpdate_twin (twin : z.Managers pm pm') (a : Ambient) (ctx : WsPeerContext)
    (off : ctx.groupKey ∉ z.groups) (target : PeerId) (full : Bool) :
    Alike z.Managers (pm.buildRouteUpdate x a ctx target full)
      (pm'.buildRouteUpdate x a ctx target full) := by
  constructor
  · simp only [PeerManager.buildRouteUpdate, RouteState.buildSyncRouteInfoRequest,
      ensureGroup_twin twin off]
  · exact call_twin x (c := ⟨ctx.groupKey, a.seed, .build a.nowMs target
      ((parseU64 ctx.serverSessionId).getD 0) ctx.weAreInitiator full⟩) twin off

end Managers

section Handlers
variable {z : Zone} {pm pm' : PeerManager} (x : Externals)

theorem applySyncRequest_twin (twin : z.Managers pm pm') (a : Ambient) (ctx : WsPeerContext)
    (body : Bytes) {key : GroupKey} (off : key ∉ z.groups) :
    (applySyncRequest x a ctx pm body key).1 = (applySyncRequest x a ctx pm' body key).1 ∧
      Alike z.Managers (applySyncRequest x a ctx pm body key).2
        (applySyncRequest x a ctx pm' body key).2 := by
  unfold applySyncRequest
  cases x.decodeSyncRouteInfoRequest body with
  | none => exact ⟨rfl, rfl, twin⟩
  | some req =>
    have acked : z.Managers
        (pm.onRouteSessionAck a.seed key ctx.peerId req.mySessionId (!req.isInitiator) a.nowMs)
        (pm'.onRouteSessionAck a.seed key ctx.peerId req.mySessionId (!req.isInitiator) a.nowMs) :=
      edit_twin twin off a.seed
        (·.onRouteSessionAck ctx.peerId req.mySessionId (!req.isInitiator) a.nowMs)
    obtain ⟨news, informed⟩ := processIncomingPeerInfos_twin x acked off a.seed body
    obtain ⟨changed, connected⟩ :=
      processIncomingConnInfo_twin x informed off a.seed ctx.peerId body
    simp only [news, changed, Alike, true_and]
    exact connected

theorem handleSyncRouteInfo_twin (twin : z.Managers pm pm') (a : Ambient) (ctx : WsPeerContext)
    (packet : RpcPacket) (body : Bytes) {key : GroupKey} (off : key ∉ z.groups) :
    (handleSyncRouteInfo x a ctx pm packet body key).1 =
        (handleSyncRouteInfo x a ctx pm' packet body key).1 ∧
      z.Managers (handleSyncRouteInfo x a ctx pm packet body key).2.2
        (handleSyncRouteInfo x a ctx pm' packet body key).2.2 := by
  obtain ⟨changed, sameCtx, applied⟩ := applySyncRequest_twin x twin a (withSession a ctx) body off
  have sender : (applySyncRequest x a (withSession a ctx) pm body key).2.1.peerId = ctx.peerId := by
    rw [applySyncRequest_peerId, withSession_peerId]
  constructor
  · obtain ⟨answer, -⟩ := handleSync_twin x applied off a ctx.peerId body
    unfold handleSyncRouteInfo
    simp only [withSession] at changed sameCtx answer sender
    simp only [← sameCtx, ← changed, sender, ← answer]
    split
    · rename_i unanswered
      simp only [unanswered]
    · rename_i resp answered
      simp only [answered]
  · unfold Zone.Managers
    rw [handleSyncRouteInfo_routes, handleSyncRouteInfo_routes]
    exact call_twin x applied off

variable {centers centers' : PeerCenterMap}

theorem handlePeerCenterRpc_twin (twin : z.Centers centers centers') (a : Ambient)
    (ctx : WsPeerContext) (packet : RpcPacket) (body : Bytes) (off : ctx.groupKey ∉ z.groups) :
    Alike z.Centers (handlePeerCenterRpc x a ctx centers packet body)
      (handlePeerCenterRpc x a ctx centers' packet body) := by
  have same : centers.getD ctx.groupKey PeerCenter.new =
      centers'.getD ctx.groupKey PeerCenter.new := by
    have stored : centers[ctx.groupKey]? = centers'[ctx.groupKey]? := twin.agree ctx.groupKey off
    simp only [Std.ExtTreeMap.getD_eq_getD_getElem?, stored]
  unfold handlePeerCenterRpc
  simp only [same]
  exact ⟨rfl, twin.insert off _⟩

/- The packets that a local request is answered for. -/
def served (payload : Bytes) : Bool :=
  (x.decodeRpcPacket payload).any fun packet =>
    isPeerCenterService (serviceName packet) || isOspfRouteService (serviceName packet)

theorem handleRpcReq_unserved {payload : Bytes} (unserved : served x payload = false) (a : Ambient)
    (ctx : WsPeerContext) (pm : PeerManager) (centers : PeerCenterMap) :
    handleRpcReq x a ctx pm centers payload = ⟨[], ctx, pm, centers⟩ := by
  unfold handleRpcReq
  cases decoded : x.decodeRpcPacket payload with
  | none => rfl
  | some packet =>
    have neither : isPeerCenterService (serviceName packet) = false ∧
        isOspfRouteService (serviceName packet) = false := by
      simpa [served, decoded] using unserved
    simp only [dispatchRpcReq, neither.1, neither.2, Bool.false_eq_true, ↓reduceIte]

theorem handleRpcReq_twin (managers : z.Managers pm pm') (maps : z.Centers centers centers')
    (a : Ambient) (ctx : WsPeerContext) (payload : Bytes) (off : ctx.groupKey ∉ z.groups) :
    let out := handleRpcReq x a ctx pm centers payload
    let out' := handleRpcReq x a ctx pm' centers' payload
    out.actions = out'.actions ∧ z.Managers out.peerManager out'.peerManager ∧
      z.Centers out.peerCenterMap out'.peerCenterMap := by
  unfold handleRpcReq
  cases x.decodeRpcPacket payload with
  | none => exact ⟨rfl, managers, maps⟩
  | some packet =>
    obtain ⟨answers, stored⟩ := handlePeerCenterRpc_twin x maps a ctx packet
      (innerRequestBody x packet) off
    obtain ⟨actions, handled⟩ := handleSyncRouteInfo_twin x managers a ctx packet
      (innerRequestBody x packet) off
    simp only [dispatchRpcReq]
    split
    · exact ⟨answers, managers, stored⟩
    · split
      · split
        · exact ⟨actions, handled, maps⟩
        · exact ⟨rfl, managers, maps⟩
      · exact ⟨rfl, managers, maps⟩

theorem handleRpcResp_twin (twin : z.Managers pm pm') (a : Ambient) (ctx : WsPeerContext)
    (p : PeerId) (payload : Bytes) (off : served x payload = true → ctx.groupKey ∉ z.groups) :
    z.Managers (handleRpcResp x a ctx pm p payload).2 (handleRpcResp x a ctx pm' p payload).2 := by
  unfold handleRpcResp
  cases decoded : x.decodeRpcPacket payload with
  | none => exact twin
  | some packet =>
    by_cases ospf : isOspfRouteService (serviceName packet) = true
    · have outside := off (by simp [served, decoded, ospf])
      simp only [ospf, ↓reduceIte]
      cases x.decodeSyncRouteInfoResponse (innerResponseBody x packet) with
      | none => exact twin
      | some resp =>
        simp only
        split
        · exact edit_twin twin outside a.seed
            (·.onRouteSessionAck p resp.sessionId ctx.weAreInitiator a.nowMs)
        · exact twin
    · simp only [ospf, ↓reduceIte, Bool.false_eq_true]
      exact twin

theorem handleHandshake_twin {m m' : DigestRegistry} (twin : z.Registries m m') (payload : Bytes)
    (off : ∀ req, x.decodeHandshakeRequest payload = some req → req.magic = magic →
      req.networkName ∉ z.names) :
    Alike z.Registries (handleHandshake x payload m) (handleHandshake x payload m') := by
  unfold handleHandshake
  cases decoded : x.decodeHandshakeRequest payload with
  | none => exact ⟨rfl, twin⟩
  | some req =>
    by_cases genuine : req.magic = magic
    · have outside := off req decoded genuine
      have same : m[req.networkName]? = m'[req.networkName]? := twin.agree req.networkName outside
      simp only [genuine, ne_eq, not_true_eq_false, ↓reduceIte, ← same]
      cases m[req.networkName]? with
      | none => exact ⟨rfl, twin.insert outside _⟩
      | some existing =>
        simp only
        split
        · exact ⟨rfl, twin⟩
        · exact ⟨rfl, twin⟩
    · simp only [genuine, ne_eq, not_false_eq_true, ↓reduceIte]
      exact ⟨rfl, twin⟩

end Handlers

section Rooms
variable {z : Zone} {r r' : Relay} (x : Externals) (env : Env)

theorem Zone.Twins.withManager (twins : z.Twins r r') {pm pm' : PeerManager}
    (managers : z.Managers pm pm') : z.Twins (r.withManager pm) (r'.withManager pm') :=
  ⟨twins.room, managers, twins.global.centers, twins.global.registry⟩

theorem send_twin (twins : z.Twins r r') (w : SocketId) (frame : Bytes) (origin : Origin) :
    Alike z.Twins (r.send env w frame origin) (r'.send env w frame origin) := by
  simp only [Relay.send, twins.room]
  exact ⟨rfl, rfl, twins.global⟩

theorem serialize_twin (twins : z.Twins r r') (w : SocketId) (att : WsAttachment) :
    Alike z.Twins (r.serializeAttachment env w att) (r'.serializeAttachment env w att) := by
  unfold Relay.serializeAttachment
  split
  · simp only [twins.room]
    exact ⟨rfl, rfl, twins.global⟩
  · exact ⟨rfl, twins⟩

theorem forward_twin (twins : z.Twins r r') (w : SocketId) (header : PacketHeader)
    (frame : Bytes) :
    Alike z.Twins (r.forwardMessage env w header frame) (r'.forwardMessage env w header frame) := by
  unfold Relay.forwardMessage
  rw [twins.room]
  split
  · exact ⟨rfl, twins⟩
  · simp only
    split
    · split
      · exact ⟨rfl, twins⟩
      · exact send_twin env twins _ frame _
    · exact send_twin env twins _ frame _

theorem topology_twin (twins : z.Twins r r') {key : GroupKey} (off : key ∉ z.groups) (p : PeerId) :
    r.topology env key p = r'.topology env key p := by
  simp only [Relay.topology, RouteState.topology, ensureGroup_twin twins.global.manager off]

theorem buildFor_twin (twins : z.Twins r r') {att : WsAttachment} (off : att.groupKey ∉ z.groups)
    (p : PeerId) : Alike z.Twins (r.buildFor x env att p) (r'.buildFor x env att p) := by
  obtain ⟨update, built⟩ := buildRouteUpdate_twin x twins.global.manager
    (env.ambient att.groupKey r'.room.sent.length)
    (attachmentToCtx (env.randomU64 r'.room.sent.length) att) off p true
  unfold Relay.buildFor
  rw [twins.room]
  exact ⟨update, twins.withManager built⟩

theorem foldl_twin {Item : Type} {body body' : Relay → Item → Relay} {items : List Item}
    (each : ∀ item ∈ items, ∀ r r', z.Twins r r' → z.Twins (body r item) (body' r' item))
    (twins : z.Twins r r') : z.Twins (items.foldl body r) (items.foldl body' r') := by
  induction items generalizing r r' with
  | nil => exact twins
  | cons item rest ih =>
    exact ih (fun later listed => each later (by simp [listed])) (each item (by simp) r r' twins)

theorem broadcastTo_twin (twins : z.Twins r r') {groupKey : GroupKey} (off : groupKey ∉ z.groups)
    (excludePeerId : PeerId) (s : Socket) :
    z.Twins (broadcastTo x env groupKey excludePeerId r s)
      (broadcastTo x env groupKey excludePeerId r' s) := by
  unfold broadcastTo
  cases s.attachment with
  | none => exact twins
  | some att =>
    simp only
    split
    · exact twins
    split
    · exact twins
    rename_i named
    have own : att.groupKey ∉ z.groups := by simpa [not_not.mp named] using off
    obtain ⟨answer, after, after', outcome, outcome', built⟩ :=
      (buildFor_twin x env twins own att.peerId).cases
    rw [topology_twin env twins own, outcome, outcome']
    cases answer with
    | none => exact built
    | some update => exact (send_twin env built _ _ _).2

theorem broadcast_twin (twins : z.Twins r r') {groupKey : GroupKey} (off : groupKey ∉ z.groups)
    (excludePeerId : PeerId) :
    z.Twins (r.broadcastRouteUpdate x env groupKey excludePeerId)
      (r'.broadcastRouteUpdate x env groupKey excludePeerId) := by
  unfold Relay.broadcastRouteUpdate
  rw [← twins.room]
  exact foldl_twin (fun s _ a b twins => broadcastTo_twin x env twins off excludePeerId s) twins

theorem runAction_twin (twins : z.Twins r r') (w : SocketId) {att : WsAttachment}
    (off : att.groupKey ∉ z.groups) {action : RpcAction}
    (own : ∀ key p, action = .broadcastRouteUpdate key p → key = att.groupKey) :
    Alike z.Twins (r.runAction x env w att action) (r'.runAction x env w att action) := by
  cases action with
  | sendTo p bytes =>
    simp only [Relay.runAction]
    split
    · exact send_twin env twins _ _ _
    · exact ⟨rfl, twins⟩
  | pushRouteUpdate p key =>
    obtain ⟨answer, after, after', outcome, outcome', built⟩ :=
      (buildFor_twin x env twins off p).cases
    simp only [Relay.runAction, topology_twin env twins off, outcome, outcome']
    cases answer with
    | none => exact ⟨rfl, built⟩
    | some update =>
      simp only
      split
      · exact send_twin env built _ _ _
      · exact ⟨rfl, built⟩
  | broadcastRouteUpdate key p =>
    obtain rfl := own key p rfl
    exact ⟨rfl, broadcast_twin x env twins off p⟩
  | none => exact ⟨rfl, twins⟩

theorem runActions_twin (w : SocketId) {att : WsAttachment} (off : att.groupKey ∉ z.groups)
    {actions : List RpcAction}
    (own : ∀ key p, .broadcastRouteUpdate key p ∈ actions → key = att.groupKey)
    (twins : z.Twins r r') :
    Alike z.Twins (Relay.runActions x env w att actions r)
      (Relay.runActions x env w att actions r') := by
  induction actions generalizing r r' with
  | nil => exact ⟨rfl, twins⟩
  | cons action rest ih =>
    have mine : ∀ key p, action = .broadcastRouteUpdate key p → key = att.groupKey := by
      intro key p same
      exact own key p (by simp [same])
    obtain ⟨ok, after, after', outcome, outcome', next⟩ :=
      (runAction_twin x env twins w off mine).cases
    have later : ∀ key p, .broadcastRouteUpdate key p ∈ rest → key = att.groupKey :=
      fun key p listed => own key p (by simp [listed])
    unfold Relay.runActions
    rw [outcome, outcome']
    cases ok with
    | false => exact ⟨rfl, next⟩
    | true => exact ih later next

theorem handleRpcReqLocally_twin (twins : z.Twins r r') {att : WsAttachment}
    (off : att.groupKey ∉ z.groups) (payload : Bytes) :
    Alike z.Twins (r.handleRpcReqLocally x env att payload)
      (r'.handleRpcReqLocally x env att payload) := by
  obtain ⟨actions, managers, maps⟩ := handleRpcReq_twin x twins.global.manager
    twins.global.centers (env.ambient att.groupKey r'.room.sent.length)
    (attachmentToCtx (env.randomU64 r'.room.sent.length) att) payload off
  unfold Relay.handleRpcReqLocally
  rw [twins.room]
  exact ⟨actions, rfl, managers, maps, twins.global.registry⟩

theorem onRpcReq_twin (twins : z.Twins r r') (w : SocketId) {att : WsAttachment}
    (header : PacketHeader) {payload : Bytes}
    (off : handledLocally header = true → served x payload = true → att.groupKey ∉ z.groups)
    (frame : Bytes) :
    Alike z.Twins (r.onRpcReq x env w att header payload frame)
      (r'.onRpcReq x env w att header payload frame) := by
  unfold Relay.onRpcReq
  split
  · rename_i here
    cases service : served x payload with
    | true =>
      have outside := off here service
      obtain ⟨actions, handled⟩ := handleRpcReqLocally_twin x env twins outside payload
      simp only [← actions]
      refine runActions_twin x env w outside ?_ handled
      intro key p listed
      exact (handleRpcReq_own x _ _ _ _ _ _ listed).1
    | false =>
      simp only [Relay.handleRpcReqLocally, handleRpcReq_unserved x service, Relay.runActions]
      exact ⟨rfl, twins⟩
  · exact forward_twin env twins w header frame

theorem onRpcResp_twin (twins : z.Twins r r') (w : SocketId) {att : WsAttachment}
    (header : PacketHeader) {payload : Bytes}
    (off : handledLocally header = true → served x payload = true → att.groupKey ∉ z.groups)
    (frame : Bytes) :
    Alike z.Twins (r.onRpcResp x env w att header payload frame)
      (r'.onRpcResp x env w att header payload frame) := by
  unfold Relay.onRpcResp
  split
  · rename_i here
    have acked := handleRpcResp_twin x twins.global.manager
      (env.ambient att.groupKey r'.room.sent.length)
      (attachmentToCtx (env.randomU64 r'.room.sent.length) att) header.fromPeerId payload
      (off here)
    rw [twins.room]
    exact ⟨rfl, twins.withManager acked⟩
  · exact forward_twin env twins w header frame

theorem registerPeer_twin (twins : z.Twins r r') {groupKey : GroupKey}
    (off : groupKey ∉ z.groups) (p : PeerId) :
    z.Twins (r.registerPeer x env groupKey p) (r'.registerPeer x env groupKey p) := by
  have added := addPeer_twin twins.global.manager off (env.seed groupKey) p
  have informed := updatePeerInfo_twin x added off (env.seed groupKey) p
    (x.encodeRoutePeerInfo (handshakeInfo env.nowMs p))
  exact twins.withManager (edit_twin informed.2 off (env.seed groupKey) (·.bumpMyInfoVersion))

theorem welcome_twin (twins : z.Twins r r') (w : SocketId) {att : WsAttachment}
    {outcome : HandshakeOutcome} (joins : att.groupKey = outcome.groupKey)
    (off : env.attachOk att = true → outcome.groupKey ∉ z.groups) :
    Alike z.Twins (r.welcome x env w att outcome) (r'.welcome x env w att outcome) := by
  cases written : env.attachOk att with
  | false =>
    simp only [Relay.welcome, Relay.serializeAttachment, written, Bool.false_eq_true, ↓reduceIte]
    exact ⟨rfl, twins⟩
  | true =>
    have outside := off written
    obtain ⟨-, attached⟩ := serialize_twin env twins w att
    simp only [Relay.serializeAttachment, written, ↓reduceIte] at attached
    obtain ⟨ok, after, after', sent, sent', next⟩ :=
      (send_twin env (registerPeer_twin x env attached outside outcome.peerId) w
        outcome.responseBytes .handshakeResponse).cases
    simp only [Relay.welcome, Relay.serializeAttachment, written, ↓reduceIte, sent, sent']
    cases ok with
    | false => exact ⟨rfl, next⟩
    | true =>
      have own : att.groupKey ∉ z.groups := joins ▸ outside
      obtain ⟨-, built⟩ := buildFor_twin x env next own att.peerId
      exact ⟨rfl, broadcast_twin x env built outside 0⟩

end Rooms

inductive SharedKey where
  | name (networkName : String) : SharedKey
  | group (groupKey : GroupKey) : SharedKey
  deriving DecidableEq, Repr

def Zone.Off (z : Zone) : SharedKey → Prop
  | .name n => n ∉ z.names
  | .group k => k ∉ z.groups

/- A handshake looks its name up; once admitted and attached it works on its group. -/
def handshakeKeys (x : Externals) (env : Env) (r : Relay) (att : WsAttachment) (payload : Bytes) :
    List SharedKey :=
  match (x.decodeHandshakeRequest payload).filter (·.magic = magic) with
  | none => []
  | some req =>
    .name req.networkName ::
      match (handleHandshake x payload r.global.networkDigestRegistry).1 with
      | some outcome =>
        if env.attachOk (attachOutcome att outcome) then [.group outcome.groupKey] else []
      | none => []

def requestKeys (x : Externals) (att : WsAttachment) (header : PacketHeader) (payload : Bytes) :
    List SharedKey :=
  if handledLocally header && served x payload then [.group att.groupKey] else []

def messageKeys (x : Externals) (env : Env) (r : Relay) (att : WsAttachment)
    (header : PacketHeader) (payload : Bytes) : List SharedKey :=
  match header.packetTypeEnum with
  | .handShake => handshakeKeys x env r att payload
  | .rpcReq => requestKeys x att header payload
  | .rpcResp => requestKeys x att header payload
  | _ => []

def leavingKeys (room : RelayRoom) (w : SocketId) : List SharedKey :=
  match room.attachment w with
  | none => []
  | some att => if att.peerId = 0 ∨ room.hasOtherConnection att then [] else [.group att.groupKey]

def seatedGroups (room : RelayRoom) : List GroupKey :=
  room.sockets.filterMap fun s => (s.attachment.filter (·.peerId ≠ 0)).map (·.groupKey)

/-- The network names and groups that one event of a room reads or writes. -/
def Relay.keys (x : Externals) (env : Env) (r : Relay) : RoomEvent → List SharedKey
  | .accept => []
  | .message _ (.text _) => []
  | .message w (.binary bytes) =>
    if r.room.isOpen w then
      match parseHeader bytes with
      | none => []
      | some header =>
        messageKeys x env r (r.currentAttachment env w) header (bytes.drop headerSize)
    else []
  | .close w => if r.room.isOpen w then leavingKeys r.room w else []
  | .error w => if r.room.isOpen w then leavingKeys r.room w else []
  | .alarm => (scannedGroups env r).map .group
  | .rehydrate => (seatedGroups r.room).map .group
  | .restart => (seatedGroups r.room).map .group

section Events
variable {z : Zone} {r r' : Relay} (x : Externals) (env : Env)

theorem mem_handshakeKeys_name {payload : Bytes} {req : HandshakeRequest}
    (decoded : x.decodeHandshakeRequest payload = some req) (genuine : req.magic = magic)
    (r : Relay) (att : WsAttachment) :
    .name req.networkName ∈ handshakeKeys x env r att payload := by
  simp [handshakeKeys, decoded, Option.filter, genuine]

theorem onHandShake_twin (twins : z.Twins r r') (w : SocketId) {att : WsAttachment}
    {payload : Bytes} (off : ∀ k ∈ handshakeKeys x env r att payload, z.Off k) :
    (r.onHandShake x env w att payload).1 = (r'.onHandShake x env w att payload).1 ∧
      Alike z.Twins (r.onHandShake x env w att payload).2 (r'.onHandShake x env w att payload).2 := by
  have known : ∀ req, x.decodeHandshakeRequest payload = some req → req.magic = magic →
      req.networkName ∉ z.names := by
    intro req decoded genuine
    exact off (.name req.networkName) (mem_handshakeKeys_name x env decoded genuine r att)
  have group : ∀ outcome,
      (handleHandshake x payload r.global.networkDigestRegistry).1 = some outcome →
      env.attachOk (attachOutcome att outcome) = true → outcome.groupKey ∉ z.groups := by
    intro outcome admitted written
    apply off (.group outcome.groupKey)
    unfold handshakeKeys
    cases decoded : x.decodeHandshakeRequest payload with
    | none => simp [handleHandshake, decoded] at admitted
    | some req =>
      by_cases genuine : req.magic = magic
      · simp [Option.filter, genuine, admitted, written]
      · simp [handleHandshake, decoded, genuine] at admitted
  obtain ⟨outcome, owners, owners', handled, handled', registry⟩ :=
    (handleHandshake_twin x twins.global.registry payload known).cases
  rw [handled] at group
  unfold Relay.onHandShake
  rw [handled, handled']
  have entered : z.Twins
      { r with global := { r.global with networkDigestRegistry := owners } }
      { r' with global := { r'.global with networkDigestRegistry := owners' } } :=
    ⟨twins.room, twins.global.manager, twins.global.centers, registry⟩
  cases outcome with
  | none =>
    simp only [twins.room]
    exact ⟨trivial, rfl, rfl, entered.global⟩
  | some outcome =>
    have joins : (attachOutcome att outcome).groupKey = outcome.groupKey := rfl
    obtain ⟨ok, welcomed⟩ := welcome_twin x env entered w joins (group outcome rfl)
    exact ⟨ok, rfl, welcomed⟩

theorem dispatch_twin (twins : z.Twins r r') (w : SocketId) {att : WsAttachment}
    {header : PacketHeader} {payload : Bytes}
    (off : ∀ k ∈ messageKeys x env r att header payload, z.Off k) (frame : Bytes) :
    (r.dispatch x env w att header payload frame).1 =
        (r'.dispatch x env w att header payload frame).1 ∧
      Alike z.Twins (r.dispatch x env w att header payload frame).2
        (r'.dispatch x env w att header payload frame).2 := by
  have ownGroup (kind : ∀ k ∈ requestKeys x att header payload, z.Off k)
      (here : handledLocally header = true) (service : served x payload = true) :
      att.groupKey ∉ z.groups := kind (.group att.groupKey) (by simp [requestKeys, here, service])
  unfold messageKeys at off
  unfold Relay.dispatch
  cases kind : header.packetTypeEnum with
  | handShake =>
    simp only [kind] at off
    exact onHandShake_twin x env twins w off
  | ping =>
    obtain ⟨ok, after⟩ := send_twin env twins w (handlePing header.fromPeerId payload) .pong
    exact ⟨ok, rfl, after⟩
  | rpcReq =>
    simp only [kind] at off
    obtain ⟨ok, after⟩ := onRpcReq_twin x env twins w header (ownGroup off) frame
    exact ⟨ok, rfl, after⟩
  | rpcResp =>
    simp only [kind] at off
    obtain ⟨ok, after⟩ := onRpcResp_twin x env twins w header (ownGroup off) frame
    exact ⟨ok, rfl, after⟩
  | _ =>
    obtain ⟨ok, after⟩ := forward_twin env twins w header frame
    exact ⟨ok, rfl, after⟩

theorem writeBack_twin (w : SocketId) {out out' : Bool × WsAttachment × Relay}
    (ok : out.1 = out'.1) (alike : Alike z.Twins out.2 out'.2) :
    z.Twins (Relay.writeBack env w out) (Relay.writeBack env w out') := by
  obtain ⟨done, att, after⟩ := out
  obtain ⟨done', att', after'⟩ := out'
  obtain ⟨same, twins⟩ := alike
  simp only at ok same twins
  subst ok same
  cases done with
  | false => exact twins
  | true => exact (serialize_twin env twins w att).2

theorem dropConnection_twin (twins : z.Twins r r') {w : SocketId}
    (off : ∀ k ∈ leavingKeys r.room w, z.Off k) :
    z.Twins (r.dropConnection x env w) (r'.dropConnection x env w) := by
  by_cases leaves : ∃ att, LastConnection r w att
  · obtain ⟨att, attached, known, alone⟩ := leaves
    have outside : att.groupKey ∉ z.groups :=
      off (.group att.groupKey) (by simp [leavingKeys, attached, known, alone])
    have last : LastConnection r' w att := by
      unfold LastConnection
      rw [← twins.room]
      exact ⟨attached, known, alone⟩
    rw [dropConnection_last x env ⟨attached, known, alone⟩, dropConnection_last x env last]
    have removed := call_twin x twins.global.manager (c := removeCall env att) outside
    exact broadcast_twin x env (twins.withManager removed) outside att.peerId
  · have stays : ∀ att, ¬ LastConnection r w att := fun att last => leaves ⟨att, last⟩
    have stays' : ∀ att, ¬ LastConnection r' w att := by
      intro att last
      unfold LastConnection at last
      rw [← twins.room] at last
      exact stays att last
    rw [dropConnection_idle x env stays, dropConnection_idle x env stays']
    exact twins

theorem rehydratePeer_twin {gs gs' : GlobalStateInner} (globals : z.Globals gs gs') {s : Socket}
    (off : ∀ att, s.attachment = some att → att.peerId ≠ 0 → att.groupKey ∉ z.groups) :
    z.Globals (rehydratePeer env gs s) (rehydratePeer env gs' s) := by
  unfold rehydratePeer
  cases attached : s.attachment with
  | none => exact globals
  | some att =>
    simp only
    split
    · exact globals
    · rename_i known
      have outside := off att attached known
      rw [listPeerIds_twin globals.manager outside]
      split
      · exact globals
      · exact ⟨addPeer_twin globals.manager outside _ _, globals.centers, globals.registry⟩

theorem rehydrate_twin {sockets : List Socket} {gs gs' : GlobalStateInner}
    (globals : z.Globals gs gs')
    (off : ∀ s ∈ sockets, ∀ att, s.attachment = some att → att.peerId ≠ 0 →
      att.groupKey ∉ z.groups) :
    z.Globals (sockets.foldl (rehydratePeer env) gs) (sockets.foldl (rehydratePeer env) gs') := by
  induction sockets generalizing gs gs' with
  | nil => exact globals
  | cons s rest ih =>
    exact ih (rehydratePeer_twin env globals (off s (by simp)))
      fun later listed => off later (by simp [listed])

theorem new_twin (twins : z.Twins r r') (off : ∀ key ∈ seatedGroups r.room, key ∉ z.groups) :
    z.Twins (r.new env) (r'.new env) := by
  refine ⟨twins.room, ?_⟩
  unfold Relay.new
  rw [← twins.room]
  refine rehydrate_twin env twins.global ?_
  intro s listed att attached known
  apply off att.groupKey
  refine List.mem_filterMap.mpr ⟨s, listed, ?_⟩
  simp [attached, Option.filter, known]

theorem alarm_twin (twins : z.Twins r r') (off : ∀ key ∈ scannedGroups env r, key ∉ z.groups) :
    z.Twins (r.alarm x env) (r'.alarm x env) := by
  have groups : scannedGroups env r' = scannedGroups env r := by
    unfold scannedGroups
    rw [twins.room]
  have marked : z.Twins (scanned env r) (scanned env r') := by
    unfold scanned
    rw [twins.room]
    exact ⟨rfl, twins.global⟩
  have swept : z.Twins (cleaned env r) (cleaned env r') := by
    unfold cleaned
    rw [groups]
    refine foldl_twin ?_ marked
    intro key listed a b twins
    exact twins.withManager (edit_twin twins.global.manager (off key listed) (env.seed key)
      (·.cleanupStalePeerConnections staleP2pThresholdMs env.nowMs))
  rw [alarm_eq, alarm_eq, groups]
  refine foldl_twin ?_ swept
  intro key listed a b twins
  exact broadcast_twin x env twins (off key listed) 0

theorem websocketMessage_twin (twins : z.Twins r r') (w : SocketId) {bytes : Bytes}
    (off : ∀ header, parseHeader bytes = some header →
      ∀ k ∈ messageKeys x env r (r.currentAttachment env w) header (bytes.drop headerSize),
        z.Off k) :
    z.Twins (r.websocketMessage x env w (.binary bytes))
      (r'.websocketMessage x env w (.binary bytes)) := by
  cases parsed : parseHeader bytes with
  | none =>
    simp only [Relay.websocketMessage, parsed]
    exact twins
  | some header =>
    have sameAtt : r'.currentAttachment env w = r.currentAttachment env w := by
      simp only [Relay.currentAttachment, twins.room]
    rw [websocketMessage_eq x env r w parsed, websocketMessage_eq x env r' w parsed, sameAtt]
    obtain ⟨ok, alike⟩ := dispatch_twin x env twins w (off header parsed) bytes
    exact writeBack_twin env w ok alike

theorem leave_twin (twins : z.Twins r r') {w : SocketId}
    (off : ∀ k ∈ leavingKeys r.room w, z.Off k) :
    let left := r.dropConnection x env w
    let left' := r'.dropConnection x env w
    z.Twins { left with room := left.room.forget w } { left' with room := left'.room.forget w } := by
  have dropped := dropConnection_twin x env twins off
  simp only [dropped.room]
  exact ⟨rfl, dropped.global⟩

/-- One event on two rooms that agree on everything it uses: the rooms stay the same, and so
    does what was set apart. A restart is no such event, it throws both shared states away. -/
theorem step_twin (twins : z.Twins r r') {e : RoomEvent} (stays : e ≠ .restart)
    (off : ∀ k ∈ Relay.keys x env r e, z.Off k) :
    z.Twins (r.step x env e) (r'.step x env e) := by
  cases e with
  | accept =>
    simp only [Relay.step, Relay.fetch, twins.room]
    exact ⟨rfl, twins.global⟩
  | message w message =>
    cases message with
    | text body =>
      simp only [Relay.step, Relay.websocketMessage, ite_self]
      exact twins
    | binary bytes =>
      simp only [Relay.step, ← twins.room]
      split
      · rename_i isOpen
        refine websocketMessage_twin x env twins w ?_
        intro header parsed
        simpa only [Relay.keys, isOpen, ↓reduceIte, parsed] using off
      · exact twins
  | close w | error w =>
    simp only [Relay.step, ← twins.room]
    split
    · rename_i isOpen
      exact leave_twin x env twins (by simpa only [Relay.keys, isOpen, ↓reduceIte] using off)
    · exact twins
  | alarm =>
    refine alarm_twin x env twins ?_
    intro key listed
    exact off (.group key) (List.mem_map_of_mem listed)
  | rehydrate =>
    refine new_twin env twins ?_
    intro key listed
    exact off (.group key) (List.mem_map_of_mem listed)
  | restart => exact absurd rfl stays

end Events

end RelayTwinSteps
