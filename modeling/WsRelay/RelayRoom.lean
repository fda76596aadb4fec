import WsRelay.RpcHandler
import WsRelay.Library.Runs

/- The relay room: its sockets with their attachments, the event handlers, and one
   step of a room on the state it shares with its isolate. A send, an attachment
   write, the clock and random draws are decided by the environment of the event.
   The frames sent are logged together with where they come from. -/
namespace RelayRoomModel
open RelayProtocol RelayRouteState RelayPeerCenter RelayPeerManager RelayRpcHandler

def socketTimeoutMs : UInt64 := 120000
def staleP2pThresholdMs : Millis := 600000

structure WsAttachment where
  peerId : PeerId := 0
  groupKey : GroupKey := ""
  domainName : String := ""
  serverSessionId : String := ""
  weAreInitiator : Bool := false
  lastSeenMs : Int64 := 0
  deriving DecidableEq, Repr

def attachmentToCtx (draw : UInt64) (att : WsAttachment) : WsPeerContext where
  peerId := att.peerId
  groupKey := att.groupKey
  domainName := if att.domainName.isEmpty then "public_server" else att.domainName
  serverSessionId :=
    if att.serverSessionId.isEmpty then randomU64String draw else att.serverSessionId
  weAreInitiator := att.weAreInitiator

abbrev SocketId := Nat

/- A socket that was never given an attachment reads as none. -/
structure Socket where
  id : SocketId
  attachment : Option WsAttachment
  deriving DecidableEq, Repr

inductive Origin where
  | handshakeResponse : Origin
  | pong : Origin
  | rpcResp : Origin
  | forwarded (source : SocketId) : Origin
  | routeUpdate (groupKey : GroupKey) (target : PeerId) (request : SyncRouteInfoRequest)
      (topology : RouteConnBitmap) : Origin
  deriving DecidableEq, Repr

structure Sent where
  socket : SocketId
  frame : Bytes
  ok : Bool
  origin : Origin
  deriving DecidableEq, Repr

/- Connection ids are issued in order, and none is issued twice. -/
structure IssuedIds (sockets : List Socket) (nextSocket : SocketId) : Prop where
  distinct : (sockets.map (·.id)).Nodup
  issued : ∀ s ∈ sockets, s.id < nextSocket

/- `sockets` is get_websockets in its order; `closing` lists the sockets the room closed. -/
structure RelayRoom where
  sockets : List Socket
  nextSocket : SocketId
  sent : List Sent
  closing : List SocketId
  ids : IssuedIds sockets nextSocket
  deriving DecidableEq

def RelayRoom.empty : RelayRoom := ⟨[], 0, [], [], ⟨by simp, by simp⟩⟩

structure Relay where
  room : RelayRoom
  global : GlobalStateInner
  deriving DecidableEq

structure Env where
  nowMs : Millis
  seed : GroupKey → GroupSeed
  randomU64 : Nat → UInt64
  sendOk : Nat → Bool
  attachOk : WsAttachment → Bool

/- Random draws and send outcomes are indexed by the number of frames logged so far. -/
def Env.ambient (env : Env) (groupKey : GroupKey) (index : Nat) : Ambient where
  nowMs := env.nowMs
  seed := env.seed groupKey
  randomU64 := env.randomU64 index

def RelayRoom.attachment (room : RelayRoom) (w : SocketId) : Option WsAttachment :=
  (room.sockets.find? (·.id == w)).bind (·.attachment)

def Socket.attachIf (w : SocketId) (att : WsAttachment) (s : Socket) : Socket :=
  if s.id = w then { s with attachment := some att } else s

@[simp] theorem Socket.attachIf_id (w : SocketId) (att : WsAttachment) (s : Socket) :
    (s.attachIf w att).id = s.id := by
  unfold Socket.attachIf
  split <;> rfl

theorem IssuedIds.attach {sockets : List Socket} {next : SocketId} (ids : IssuedIds sockets next)
    (w : SocketId) (att : WsAttachment) : IssuedIds (sockets.map (·.attachIf w att)) next where
  distinct := by simpa [Function.comp_def] using ids.distinct
  issued := by simpa using ids.issued

theorem IssuedIds.accept {sockets : List Socket} {next : SocketId} (ids : IssuedIds sockets next)
    (attachment : Option WsAttachment) : IssuedIds (sockets ++ [⟨next, attachment⟩]) (next + 1) where
  distinct := by
    rw [List.map_append, List.nodup_append]
    refine ⟨ids.distinct, by simp, ?_⟩
    intro a old b new
    obtain ⟨s, listed, rfl⟩ := List.mem_map.mp old
    have below := ids.issued s listed
    simp only [List.map_cons, List.map_nil, List.mem_singleton] at new
    rw [new]
    exact Nat.ne_of_lt below
  issued := by
    intro s listed
    rcases List.mem_append.mp listed with old | new
    · exact Nat.lt_succ_of_lt (ids.issued s old)
    · simp only [List.mem_singleton] at new
      subst new
      simp

theorem IssuedIds.filter {sockets : List Socket} {next : SocketId} (ids : IssuedIds sockets next)
    (keep : Socket → Bool) : IssuedIds (sockets.filter keep) next where
  distinct := ids.distinct.sublist (List.filter_sublist.map _)
  issued s listed := ids.issued s (List.mem_of_mem_filter listed)

def RelayRoom.attach (room : RelayRoom) (w : SocketId) (att : WsAttachment) : RelayRoom :=
  { room with
    sockets := room.sockets.map (·.attachIf w att)
    ids := room.ids.attach w att }

def Relay.withManager (r : Relay) (pm : PeerManager) : Relay :=
  { r with global := { r.global with peerManager := pm } }

def Relay.send (env : Env) (r : Relay) (w : SocketId) (frame : Bytes) (origin : Origin) :
    Bool × Relay :=
  let ok := env.sendOk r.room.sent.length
  (ok, { r with room := { r.room with sent := r.room.sent ++ [⟨w, frame, ok, origin⟩] } })

def Relay.serializeAttachment (env : Env) (r : Relay) (w : SocketId) (att : WsAttachment) :
    Bool × Relay :=
  if env.attachOk att then (true, { r with room := r.room.attach w att }) else (false, r)

/-- The bitmap that a build for this target starts from, whether or not it is sent. -/
def RouteState.topology (st : RouteState) (seed : GroupSeed) (groupKey : GroupKey)
    (target : PeerId) : RouteConnBitmap :=
  let g := st.ensureGroup seed groupKey
  g.connBitmap (g.relevantPeers target)

def Relay.topology (env : Env) (r : Relay) (groupKey : GroupKey) (target : PeerId) :
    RouteConnBitmap :=
  RouteState.topology r.global.peerManager.routeState (env.seed groupKey) groupKey target

/- One build_route_update for an attached socket; the log index picks its random draws. -/
def Relay.buildFor (x : Externals) (env : Env) (r : Relay) (att : WsAttachment)
    (target : PeerId) : Option RouteUpdate × Relay :=
  let i := r.room.sent.length
  let ctx := attachmentToCtx (env.randomU64 i) att
  let (update, pm) :=
    r.global.peerManager.buildRouteUpdate x (env.ambient ctx.groupKey i) ctx target true
  (update, r.withManager pm)

/- Body of the loop of broadcast_route_update. A failing send is only logged. -/
def broadcastTo (x : Externals) (env : Env) (groupKey : GroupKey) (excludePeerId : PeerId)
    (r : Relay) (s : Socket) : Relay :=
  match s.attachment with
  | none => r
  | some att =>
    if att.peerId = excludePeerId then r
    else if att.groupKey ≠ groupKey then r
    else
      let topology := r.topology env att.groupKey att.peerId
      match r.buildFor x env att att.peerId with
      | (none, built) => built
      | (some update, built) =>
        let header := createHeader myPeerId att.peerId .rpcReq
          (UInt32.ofNat update.rpcBytes.length)
        (built.send env s.id (header ++ update.rpcBytes)
          (.routeUpdate att.groupKey att.peerId update.request topology)).2

def Relay.broadcastRouteUpdate (x : Externals) (env : Env) (r : Relay) (groupKey : GroupKey)
    (excludePeerId : PeerId) : Relay :=
  r.room.sockets.foldl (broadcastTo x env groupKey excludePeerId) r

/-- The first socket that carries the peer id decides: the frame goes to it, or nowhere. -/
def RelayRoom.forwardTarget (room : RelayRoom) (targetPeerId : PeerId) : Option Socket :=
  room.sockets.find? fun s => s.attachment.any (·.peerId == targetPeerId)

def groupMismatch (src target : WsAttachment) : Bool :=
  !src.groupKey.isEmpty && !target.groupKey.isEmpty && src.groupKey != target.groupKey

def Relay.forwardMessage (env : Env) (r : Relay) (source : SocketId) (header : PacketHeader)
    (fullMessage : Bytes) : Bool × Relay :=
  match r.room.forwardTarget header.toPeerId with
  | none => (true, r)
  | some target =>
    let blocked := match r.room.attachment source, target.attachment with
      | some src, some att => groupMismatch src att
      | _, _ => false
    if blocked then (true, r)
    else r.send env target.id fullMessage (.forwarded source)

/- The stub info of a peer that just shook hands; version 1 is deliberately low. -/
def handshakeInfo (nowMs : Millis) (peerId : PeerId) : RoutePeerInfo where
  peerId := peerId
  version := 1
  lastUpdate := some (timestampOf nowMs)
  instId := some ⟨0, 0, 0, 0⟩
  networkLength := 24

def Relay.registerPeer (x : Externals) (env : Env) (r : Relay) (groupKey : GroupKey)
    (peerId : PeerId) : Relay :=
  let seed := env.seed groupKey
  let added := r.global.peerManager.addPeer seed groupKey peerId
  let informed := (added.updatePeerInfo x seed groupKey peerId
    (x.encodeRoutePeerInfo (handshakeInfo env.nowMs peerId))).2
  r.withManager (informed.bumpMyInfoVersion seed groupKey)

def attachOutcome (att : WsAttachment) (outcome : HandshakeOutcome) : WsAttachment :=
  { att with
    peerId := outcome.peerId
    groupKey := outcome.groupKey
    domainName := outcome.domainName
    weAreInitiator := false }

/- The handshake branch up to the final attachment write. The build made for the new peer
   is discarded; the broadcast that follows builds again. The Bool is false when a failed
   write or send returned early. -/
def Relay.welcome (x : Externals) (env : Env) (r : Relay) (w : SocketId) (att : WsAttachment)
    (outcome : HandshakeOutcome) : Bool × Relay :=
  match r.serializeAttachment env w att with
  | (false, r) => (false, r)
  | (true, r) =>
    let registered := r.registerPeer x env outcome.groupKey outcome.peerId
    match registered.send env w outcome.responseBytes .handshakeResponse with
    | (false, r) => (false, r)
    | (true, r) =>
      let (_, built) := r.buildFor x env att att.peerId
      (true, built.broadcastRouteUpdate x env outcome.groupKey 0)

def Relay.onHandShake (x : Externals) (env : Env) (r : Relay) (w : SocketId)
    (att : WsAttachment) (payload : Bytes) : Bool × WsAttachment × Relay :=
  let (outcome, registry) := handleHandshake x payload r.global.networkDigestRegistry
  let r := { r with global := { r.global with networkDigestRegistry := registry } }
  match outcome with
  | none => (true, att, { r with room := { r.room with closing := r.room.closing ++ [w] } })
  | some outcome =>
    let att := attachOutcome att outcome
    let (ok, r) := r.welcome x env w att outcome
    (ok, att, r)

def Relay.runAction (x : Externals) (env : Env) (r : Relay) (w : SocketId) (att : WsAttachment) :
    RpcAction → Bool × Relay
  | .sendTo _ bytes =>
    match wrapPacket x myPeerId att.peerId .rpcResp bytes {} with
    | some packet => r.send env w packet .rpcResp
    | none => (true, r)
  | .pushRouteUpdate peerId _ =>
    let topology := r.topology env att.groupKey peerId
    match r.buildFor x env att peerId with
    | (none, built) => (true, built)
    | (some update, built) =>
      match wrapPacket x myPeerId peerId .rpcReq update.rpcBytes {} with
      | some packet =>
        built.send env w packet (.routeUpdate att.groupKey peerId update.request topology)
      | none => (true, built)
  | .broadcastRouteUpdate groupKey excludePeerId =>
    (true, r.broadcastRouteUpdate x env groupKey excludePeerId)
  | .none => (true, r)

/- The action loop; a failed send leaves the remaining actions undone. -/
def Relay.runActions (x : Externals) (env : Env) (w : SocketId) (att : WsAttachment) :
    List RpcAction → Relay → Bool × Relay
  | [], r => (true, r)
  | action :: rest, r =>
    match r.runAction x env w att action with
    | (false, r) => (false, r)
    | (true, r) => Relay.runActions x env w att rest r

def Relay.handleRpcReqLocally (x : Externals) (env : Env) (r : Relay) (att : WsAttachment)
    (payload : Bytes) : List RpcAction × Relay :=
  let i := r.room.sent.length
  let ctx := attachmentToCtx (env.randomU64 i) att
  let out := handleRpcReq x (env.ambient ctx.groupKey i) ctx r.global.peerManager
    r.global.peerCenterMap payload
  (out.actions,
    { r with global :=
      { r.global with peerManager := out.peerManager, peerCenterMap := out.peerCenterMap } })

def handledLocally (header : PacketHeader) : Bool :=
  header.toPeerId == 0 || header.toPeerId == myPeerId

def Relay.onRpcReq (x : Externals) (env : Env) (r : Relay) (w : SocketId) (att : WsAttachment)
    (header : PacketHeader) (payload fullMessage : Bytes) : Bool × Relay :=
  if handledLocally header then
    let (actions, handled) := r.handleRpcReqLocally x env att payload
    Relay.runActions x env w att actions handled
  else r.forwardMessage env w header fullMessage

def Relay.onRpcResp (x : Externals) (env : Env) (r : Relay) (w : SocketId) (att : WsAttachment)
    (header : PacketHeader) (payload fullMessage : Bytes) : Bool × Relay :=
  if handledLocally header then
    let i := r.room.sent.length
    let ctx := attachmentToCtx (env.randomU64 i) att
    let (_, pm) := handleRpcResp x (env.ambient ctx.groupKey i) ctx r.global.peerManager
      header.fromPeerId payload
    (true, r.withManager pm)
  else r.forwardMessage env w header fullMessage

def Relay.dispatch (x : Externals) (env : Env) (r : Relay) (w : SocketId) (att : WsAttachment)
    (header : PacketHeader) (payload fullMessage : Bytes) : Bool × WsAttachment × Relay :=
  match header.packetTypeEnum with
  | .handShake => r.onHandShake x env w att payload
  | .ping =>
    let (ok, r) := r.send env w (handlePing header.fromPeerId payload) .pong
    (ok, att, r)
  | .rpcReq =>
    let (ok, r) := r.onRpcReq x env w att header payload fullMessage
    (ok, att, r)
  | .rpcResp =>
    let (ok, r) := r.onRpcResp x env w att header payload fullMessage
    (ok, att, r)
  | _ =>
    let (ok, r) := r.forwardMessage env w header fullMessage
    (ok, att, r)

inductive IncomingMessage where
  | text : String → IncomingMessage
  | binary : Bytes → IncomingMessage

/- The local copy of the attachment that a message starts from. -/
def Relay.currentAttachment (env : Env) (r : Relay) (w : SocketId) : WsAttachment :=
  { (r.room.attachment w).getD {} with lastSeenMs := env.nowMs.toInt64 }

/- The copy is written back at the end, unless an error returned earlier. -/
def Relay.writeBack (env : Env) (w : SocketId) : Bool × WsAttachment × Relay → Relay
  | (false, _, r) => r
  | (true, att, r) => (r.serializeAttachment env w att).2

/-- websocket_message; what the relay cannot read as a packet is dropped. -/
def Relay.websocketMessage (x : Externals) (env : Env) (r : Relay) (w : SocketId) :
    IncomingMessage → Relay
  | .text _ => r
  | .binary bytes =>
    match parseHeader bytes with
    | none => r
    | some header =>
      Relay.writeBack env w
        (r.dispatch x env w (r.currentAttachment env w) header (bytes.drop headerSize) bytes)

/- The duplicate-connection guard compares peer ids only, over every group of the room. -/
def RelayRoom.hasOtherConnection (room : RelayRoom) (att : WsAttachment) : Bool :=
  room.sockets.any fun s => s.attachment.any fun other =>
    other.peerId == att.peerId && other.serverSessionId != att.serverSessionId

def Relay.dropConnection (x : Externals) (env : Env) (r : Relay) (w : SocketId) : Relay :=
  match r.room.attachment w with
  | none => r
  | some att =>
    if att.peerId = 0 then r
    else if r.room.hasOtherConnection att then r
    else
      let i := r.room.sent.length
      let ctx := attachmentToCtx (env.randomU64 i) att
      let (_, pm) := r.global.peerManager.removePeer (env.seed ctx.groupKey) ctx env.nowMs
      (r.withManager pm).broadcastRouteUpdate x env att.groupKey att.peerId

def Relay.websocketClose (x : Externals) (env : Env) (r : Relay) (w : SocketId) : Relay :=
  r.dropConnection x env w

def Relay.websocketError (x : Externals) (env : Env) (r : Relay) (w : SocketId) : Relay :=
  r.dropConnection x env w

/- fetch: the socket is accepted first; the write of its initial attachment may fail. -/
def Relay.fetch (env : Env) (r : Relay) : Relay :=
  let att : WsAttachment :=
    { serverSessionId := randomU64String (env.randomU64 r.room.sent.length)
      lastSeenMs := env.nowMs.toInt64 }
  let attachment := if env.attachOk att then some att else none
  { r with room :=
    { r.room with
      sockets := r.room.sockets ++ [⟨r.room.nextSocket, attachment⟩]
      nextSocket := r.room.nextSocket + 1
      ids := r.room.ids.accept attachment } }

def rehydratePeer (env : Env) (gs : GlobalStateInner) (s : Socket) : GlobalStateInner :=
  match s.attachment with
  | none => gs
  | some att =>
    if att.peerId = 0 then gs
    else if att.peerId ∈ gs.peerManager.listPeerIdsInGroup att.groupKey then gs
    else { gs with
      peerManager := gs.peerManager.addPeer (env.seed att.groupKey) att.groupKey att.peerId }

/-- RelayRoom::new over the sockets that survived. -/
def Relay.new (env : Env) (r : Relay) : Relay :=
  { r with global := r.room.sockets.foldl (rehydratePeer env) r.global }

def saturatingSubI64 (a b : Int64) : Int64 :=
  let difference := a.toInt - b.toInt
  if difference < -(2 ^ 63) then Int64.ofInt (-(2 ^ 63))
  else if 2 ^ 63 - 1 < difference then Int64.ofInt (2 ^ 63 - 1)
  else Int64.ofInt difference

def timedOut (nowMs : Millis) (att : WsAttachment) : Bool :=
  decide (0 < att.lastSeenMs) &&
    decide (socketTimeoutMs < (saturatingSubI64 nowMs.toInt64 att.lastSeenMs).toUInt64)

structure AlarmScan where
  closed : List SocketId := []
  aliveCount : Nat := 0
  groupKeys : Std.ExtTreeSet GroupKey := ∅

def scanSocket (nowMs : Millis) (acc : AlarmScan) (s : Socket) : AlarmScan :=
  match s.attachment with
  | some att =>
    if timedOut nowMs att then { acc with closed := acc.closed ++ [s.id] }
    else
      { acc with
        aliveCount := acc.aliveCount + 1
        groupKeys :=
          if 0 < att.lastSeenMs ∧ ¬ att.groupKey.isEmpty
          then acc.groupKeys.insert att.groupKey else acc.groupKeys }
  | none => { acc with aliveCount := acc.aliveCount + 1 }

def cleanupGroup (env : Env) (r : Relay) (groupKey : GroupKey) : Relay :=
  r.withManager (r.global.peerManager.cleanupStalePeerConnections (env.seed groupKey) groupKey
    staleP2pThresholdMs env.nowMs)

def Relay.alarm (x : Externals) (env : Env) (r : Relay) : Relay :=
  let scan := r.room.sockets.foldl (scanSocket env.nowMs) {}
  let r := { r with room := { r.room with closing := r.room.closing ++ scan.closed } }
  if 0 < scan.aliveCount then
    let cleaned := scan.groupKeys.toList.foldl (cleanupGroup env) r
    scan.groupKeys.toList.foldl (fun r groupKey => r.broadcastRouteUpdate x env groupKey 0) cleaned
  else r

def RelayRoom.forget (room : RelayRoom) (w : SocketId) : RelayRoom :=
  { room with
    sockets := room.sockets.filter (·.id ≠ w)
    ids := room.ids.filter _ }

inductive RoomEvent where
  | accept : RoomEvent
  | message : SocketId → IncomingMessage → RoomEvent
  | close : SocketId → RoomEvent
  | error : SocketId → RoomEvent
  | alarm : RoomEvent
  /-- The room object is created again; the isolate and its state survive. -/
  | rehydrate : RoomEvent
  /-- The isolate restarts: the shared state is fresh, sockets and attachments survive. -/
  | restart : RoomEvent

def RelayRoom.isOpen (room : RelayRoom) (w : SocketId) : Bool := room.sockets.any (·.id == w)

/-- One event of a room. Events of a socket that is not open do not occur; a closed or failed
    socket is listed until its event has been handled. -/
def Relay.step (x : Externals) (env : Env) (r : Relay) : RoomEvent → Relay
  | .accept => r.fetch env
  | .message w message => if r.room.isOpen w then r.websocketMessage x env w message else r
  | .close w =>
    if r.room.isOpen w then
      let closed := r.websocketClose x env w
      { closed with room := closed.room.forget w }
    else r
  | .error w =>
    if r.room.isOpen w then
      let failed := r.websocketError x env w
      { failed with room := failed.room.forget w }
    else r
  | .alarm => r.alarm x env
  | .rehydrate => r.new env
  | .restart => { r with global := GlobalStateInner.fresh }.new env

def Relay.initial : Relay := ⟨RelayRoom.empty, GlobalStateInner.fresh⟩

/-- A run of a room is a run of this over its events, each with the environment it meets. -/
def Relay.onEvent (x : Externals) (r : Relay) (e : Env × RoomEvent) : Relay := r.step x e.1 e.2

def Relay.run (x : Externals) (r : Relay) (events : List (Env × RoomEvent)) : Relay :=
  TransitionRuns.run (Relay.onEvent x) r events

end RelayRoomModel
