import WsRelay.OwnRecords
import WsRelay.RoomMoves

/- How a SyncRouteInfo request is answered: the role and the session id of the response, its
   place in the log, and the update that is pushed behind it. The id is the one of the last build
   for the peer, whichever socket that was built for. -/
namespace RelayAnswers
open RelayProtocol RelayRouteState RelayPeerManager RelayRpcHandler RelayRoomModel RelayRouteOps
open RelayRoomSteps RelayMembership RelayPeerInfoVersions RelayBitmapDelivery RelayResidue
open RelayOwnRecords RelayRoomMoves CostedTrails

variable {x : Externals} {env : Env} {r : Relay} {w : SocketId} {att : WsAttachment}

/- my_session_id of the session, or 1 without one. -/
def RouteState.recordedId (st : RouteState) (key : GroupKey) (p : PeerId) : SessionId :=
  ((RouteState.sessionOf st key p).bind (·.mySessionId)).getD 1

theorem session_mySessionId (g : RouteGroupData) (p : PeerId) :
    (g.session p).mySessionId = (g.sessions[p]?).bind (·.mySessionId) := by
  rw [RouteGroupData.session, Std.ExtTreeMap.getD_eq_getD_getElem?]
  cases g.sessions[p]? with
  | none => rfl
  | some s => rfl

theorem resetIfNew_mySessionId (s : SessionState) (sid : SessionId) :
    (s.resetIfNew sid).mySessionId = s.mySessionId := by
  unfold SessionState.resetIfNew
  split
  · rfl
  · rfl

theorem edit_mySessionId (g : RouteGroupData) {op : RouteOp}
    (ordinary : RouteOp.Ordinary x op) (q : PeerId) :
    ((op.edit x g).2.sessions[q]?).bind (·.mySessionId) =
      (g.sessions[q]?).bind (·.mySessionId) := by
  by_cases own : RouteOp.records op = some q
  · cases op with
    | onRouteSessionAck p sid initiator now =>
      obtain rfl := Option.some.inj own
      simp only [RouteOp.edit, RouteGroupData.onRouteSessionAck,
        Std.ExtTreeMap.getElem?_insert_self, Option.bind_some, resetIfNew_mySessionId]
      exact session_mySessionId g p
    | handleSync p bytes now =>
      obtain rfl := Option.some.inj own
      have touched (req : SyncRouteInfoRequest) :
          ((g.touchFrom p req now).sessions[p]?).bind (·.mySessionId) =
            (g.sessions[p]?).bind (·.mySessionId) := by
        simp only [RouteGroupData.touchFrom, Std.ExtTreeMap.getElem?_insert_self,
          Option.bind_some, resetIfNew_mySessionId]
        exact session_mySessionId g p
      simp only [RouteOp.edit]
      split
      · rfl
      · split
        · exact touched _
        · exact touched _
    | removePeer p now => cases ordinary
    | build now p sid initiator full => cases ordinary
    | addPeer p => cases own
    | updatePeerInfo p bytes => cases own
    | bumpMyInfoVersion => cases own
    | setMyInfoField field value => cases own
    | updatePeerConnections p bytes => cases own
    | cleanup threshold now => cases own
  · rw [edit_sessions x g own]

theorem recordedId_call {c : RouteCall} (ordinary : Ordinary x c) (st : RouteState) (key : GroupKey)
    (q : PeerId) :
    RouteState.recordedId (RouteState.call x st c) key q = RouteState.recordedId st key q := by
  rw [RouteState.recordedId, sessionOf_call]
  split
  · rw [edit_mySessionId _ ordinary, ensureGroup_sessionOf, RouteState.recordedId]
  · rfl

theorem recordedId_callAll {calls : List RouteCall} (ordinary : ∀ c ∈ calls, Ordinary x c)
    (st : RouteState) (key : GroupKey) (q : PeerId) :
    RouteState.recordedId (RouteState.callAll x st calls) key q =
      RouteState.recordedId st key q := by
  induction calls generalizing st with
  | nil => rfl
  | cons c rest ih =>
    have later := ih (fun d listed => ordinary d (by simp [listed])) (RouteState.call x st c)
    rw [recordedId_call (ordinary c (by simp))] at later
    exact later

/-- The request's own calls do not touch the id, so it is the one that the request met. -/
theorem syncResponse_eq (a : Ambient) (ctx : WsPeerContext) (pm : PeerManager) {body : Bytes}
    {req : SyncRouteInfoRequest} (decoded : x.decodeSyncRouteInfoRequest body = some req) :
    syncResponse x a ctx pm body req =
      ⟨!req.isInitiator, RouteState.recordedId pm.routeState ctx.groupKey ctx.peerId, none⟩ := by
  have applied : ∀ c ∈ applyCalls x a ctx body, Ordinary x c :=
    fun c listed => requestCalls_ordinary (List.mem_append_left _ listed)
  unfold syncResponse
  simp only [applySyncRequest_calls]
  set st := RouteState.callAll x pm.routeState (applyCalls x a ctx body) with stDef
  set g := st.ensureGroup a.seed ctx.groupKey with gDef
  have stored : (g.handleSyncRouteInfoRequest ctx.peerId req a.nowMs).2.sessions =
      ((RouteOp.handleSync ctx.peerId body a.nowMs).edit x g).2.sessions := by
    simp only [RouteGroupData.handleSyncRouteInfoRequest, RouteOp.edit, decoded]
    cases req.peerInfos with
    | none => rfl
    | some infos =>
      simp only [RouteGroupData.storeItems]
      split
      · rfl
      · rfl
  have number : (g.handleSyncRouteInfoRequest ctx.peerId req a.nowMs).1.sessionId =
      RouteState.recordedId pm.routeState ctx.groupKey ctx.peerId := by
    have answered : (g.handleSyncRouteInfoRequest ctx.peerId req a.nowMs).1.sessionId =
        (((g.handleSyncRouteInfoRequest ctx.peerId req a.nowMs).2.sessions[ctx.peerId]?).bind
          (·.mySessionId)).getD 1 := rfl
    have kept := @edit_mySessionId x g (.handleSync ctx.peerId body a.nowMs) trivial ctx.peerId
    rw [answered, stored, kept, gDef, ensureGroup_sessionOf]
    exact recordedId_callAll applied pm.routeState ctx.groupKey ctx.peerId
  rw [← number]
  rfl

/- A SyncRouteInfo request to the relay itself: its socket, its body, and the body decoded. -/
def syncIn (x : Externals) (r : Relay) :
    RoomEvent → Option (SocketId × Bytes × SyncRouteInfoRequest)
  | .message w (.binary bytes) =>
    if r.room.isOpen w then
      (parseHeader bytes).bind fun header =>
        if header.packetTypeEnum = .rpcReq ∧ handledLocally header = true then
          (syncBody x (bytes.drop headerSize)).bind fun body =>
            (x.decodeSyncRouteInfoRequest body).map fun req => (w, body, req)
        else none
    else none
  | _ => none

def answerTo (x : Externals) (env : Env) (r : Relay) (w : SocketId) (body : Bytes)
    (req : SyncRouteInfoRequest) : SyncRouteInfoResponse :=
  let att := r.currentAttachment env w
  let a := env.ambient att.groupKey r.room.sent.length
  syncResponse x a (attachmentToCtx a.randomU64 att) r.global.peerManager body req

/- The packet of a response, up to the request that it answers. -/
def AnswerFrame (x : Externals) (p : PeerId) (resp : SyncRouteInfoResponse) (frame : Bytes) :
    Prop :=
  ∃ packet, wrapPacket x myPeerId p .rpcResp
    (buildRpcResponseBytes x packet (x.encodeSyncRouteInfoResponse resp) p) {} = some frame

/-- The event is a SyncRouteInfo request on the socket, and the first frame that it sends is the
    response, which goes out. -/
def Answers (x : Externals) (r : Relay) (e : Env × RoomEvent) (w : SocketId)
    (req : SyncRouteInfoRequest) (resp : SyncRouteInfoResponse) : Prop :=
  ∃ body frame, syncIn x r e.2 = some (w, body, req) ∧ resp = answerTo x e.1 r w body req ∧
    AnswerFrame x (seatAt r w).peerId resp frame ∧
    (r.onEvent x e).room.sent[r.room.sent.length]? = some ⟨w, frame, true, .rpcResp⟩

theorem syncIn_some {e : RoomEvent} {body : Bytes} {req : SyncRouteInfoRequest}
    (asked : syncIn x r e = some (w, body, req)) :
    ∃ bytes header, e = .message w (.binary bytes) ∧ r.room.isOpen w = true ∧
      parseHeader bytes = some header ∧ header.packetTypeEnum = .rpcReq ∧
      handledLocally header = true ∧ syncBody x (bytes.drop headerSize) = some body ∧
      x.decodeSyncRouteInfoRequest body = some req := by
  unfold syncIn at asked
  split at asked
  · rename_i w' bytes
    obtain ⟨isOpen, asked⟩ := Option.ite_none_right_eq_some.mp asked
    obtain ⟨header, parsed, asked⟩ := Option.bind_eq_some_iff.mp asked
    obtain ⟨⟨kind, here⟩, asked⟩ := Option.ite_none_right_eq_some.mp asked
    obtain ⟨body', named, asked⟩ := Option.bind_eq_some_iff.mp asked
    obtain ⟨req', decoded, same⟩ := Option.map_eq_some_iff.mp asked
    obtain ⟨rfl, rfl, rfl⟩ := same
    exact ⟨bytes, header, rfl, isOpen, parsed, kind, here, named, decoded⟩
  · cases asked

theorem answerTo_eq {body : Bytes} {req : SyncRouteInfoRequest}
    (decoded : x.decodeSyncRouteInfoRequest body = some req) :
    answerTo x env r w body req = ⟨!req.isInitiator, RouteState.recordedId (routes r)
      (seatAt r w).groupKey (seatAt r w).peerId, none⟩ :=
  syncResponse_eq _ _ _ decoded

theorem runActions_log {action : RpcAction} {rest : List RpcAction}
    (isOpen : r.room.isOpen w = true) (seat : SameSeat att (seatAt r w))
    (own : ∀ p key, .pushRouteUpdate p key ∈ rest → p = att.peerId) :
    (r.runAction x env w att action).2.room.sent <+:
      (Relay.runActions x env w att (action :: rest) r).2.room.sent := by
  have sockets := (runAction_quiet x env r w att action).sockets
  unfold Relay.runActions
  split
  · rename_i after outcome
    rw [outcome]
  · rename_i after outcome
    rw [outcome] at sockets ⊢
    have moves : Moves x env False (fun _ => False) 0 after
        (Relay.runActions x env w att rest after).2 :=
      runActions_moves (by rwa [isOpen_of_sockets sockets]) (by rwa [seatAt_of_sockets sockets]) own
    exact Moves.log_grows moves

theorem request_log (isOpen : r.room.isOpen w = true) (seat : SameSeat att (seatAt r w))
    {payload body : Bytes} {req : SyncRouteInfoRequest} (named : syncBody x payload = some body)
    (decoded : x.decodeSyncRouteInfoRequest body = some req) (header : PacketHeader)
    (here : handledLocally header = true) (frame : Bytes) :
    ∃ answer added, AnswerFrame x att.peerId (syncResponse x (env.ambient att.groupKey
        r.room.sent.length) (attachmentToCtx (env.randomU64 r.room.sent.length) att)
        r.global.peerManager body req) answer ∧
      (r.onRpcReq x env w att header payload frame).2.room.sent =
        r.room.sent ++ ⟨w, answer, env.sendOk r.room.sent.length, .rpcResp⟩ :: added ∧
      (env.sendOk r.room.sent.length = true → ∃ pushed ∈ added, pushed.socket = w ∧
        ∃ met : Relay, pushed.origin = updateSent env met att) := by
  set i := r.room.sent.length with iDef
  set a := env.ambient att.groupKey i
  set ctx := attachmentToCtx (env.randomU64 i) att
  set handled := (r.handleRpcReqLocally x env att payload).2 with handledDef
  obtain ⟨packet, actions, -⟩ := handleRpcReq_sync x a ctx r.global.peerManager named
    r.global.peerCenterMap
  rw [handleSyncRouteInfo_actions x a ctx r.global.peerManager decoded packet] at actions
  set bytes := buildRpcResponseBytes x packet
    (x.encodeSyncRouteInfoResponse (syncResponse x a ctx r.global.peerManager body req)) ctx.peerId
  set told : List RpcAction := if (applySyncRequest x a (withSession a ctx)
    r.global.peerManager body ctx.groupKey).1 then [.broadcastRouteUpdate ctx.groupKey ctx.peerId]
    else [] with toldDef
  obtain ⟨answer, wrapped⟩ := wrapPacket_plain x myPeerId att.peerId .rpcResp bytes
  set ok := env.sendOk i with okDef
  set answered := (handled.send env w answer .rpcResp).2 with answeredDef
  have ran : (r.onRpcReq x env w att header payload frame).2 = (Relay.runActions x env w att
      (.sendTo ctx.peerId bytes :: .pushRouteUpdate ctx.peerId ctx.groupKey :: told) handled).2 := by
    simp only [Relay.onRpcReq, here, ↓reduceIte, ← actions]
    rfl
  have sent : handled.runAction x env w att (.sendTo ctx.peerId bytes) = (ok, answered) := by
    simp only [Relay.runAction, wrapped]
    rfl
  have log : answered.room.sent = r.room.sent ++ [⟨w, answer, ok, .rpcResp⟩] := rfl
  cases outcome : ok with
  | false =>
    refine ⟨answer, [], ⟨packet, wrapped⟩, ?_, by simp⟩
    rw [ran, Relay.runActions, sent, outcome]
    simp only
    rw [log, outcome]
  | true =>
    have own : ∀ p key, .pushRouteUpdate p key ∈ told → p = att.peerId := by
      intro p key pushed
      rw [toldDef] at pushed
      split at pushed
      · simp at pushed
      · simp at pushed
    obtain ⟨update, pushed⟩ : ∃ update : Sent, (update.socket = w ∧
        update.origin = updateSent env answered att) ∧ (answered.runAction x env w att
          (.pushRouteUpdate ctx.peerId ctx.groupKey)).2.room.sent =
            answered.room.sent ++ [update] := ⟨_, ⟨rfl, rfl⟩, rfl⟩
    obtain ⟨later, whole⟩ := @runActions_log x env answered w att
      (.pushRouteUpdate ctx.peerId ctx.groupKey) told isOpen seat own
    refine ⟨answer, update :: later, ⟨packet, wrapped⟩, ?_, fun _ => ?_⟩
    · rw [ran, Relay.runActions, sent, outcome]
      simp only
      rw [← whole, pushed.2, log, outcome]
      simp
    · exact ⟨update, by simp, pushed.1.1, answered, pushed.1.2⟩

/-- What the log shows of an arriving request. -/
theorem sync_answered {e : Env × RoomEvent} {body : Bytes} {req : SyncRouteInfoRequest}
    (asked : syncIn x r e.2 = some (w, body, req)) :
    ∃ answer added, AnswerFrame x (seatAt r w).peerId (answerTo x e.1 r w body req) answer ∧
      (r.onEvent x e).room.sent =
        r.room.sent ++ ⟨w, answer, e.1.sendOk r.room.sent.length, .rpcResp⟩ :: added ∧
      (e.1.sendOk r.room.sent.length = true → ∃ pushed ∈ added, pushed.socket = w ∧
        ∃ met : Relay, pushed.origin = updateSent e.1 met (r.currentAttachment e.1 w)) := by
  obtain ⟨env, event⟩ := e
  obtain ⟨bytes, header, rfl, isOpen, parsed, kind, here, named, decoded⟩ := syncIn_some asked
  obtain ⟨answer, added, frame, log, pushes⟩ := request_log isOpen (currentAttachment_seat env r w)
    named decoded header here bytes
  refine ⟨answer, added, frame, ?_, pushes⟩
  rw [← log]
  simp only [Relay.onEvent, Relay.step, isOpen, ↓reduceIte, websocketMessage_eq x env r w parsed,
    writeBack_sent, Relay.dispatch, kind]

theorem answers_iff {e : Env × RoomEvent} {req : SyncRouteInfoRequest}
    {resp : SyncRouteInfoResponse} :
    Answers x r e w req resp ↔ ∃ body, syncIn x r e.2 = some (w, body, req) ∧
      resp = answerTo x e.1 r w body req ∧ e.1.sendOk r.room.sent.length = true := by
  have behind (answer : Sent) (added : List Sent) :
      (r.room.sent ++ answer :: added)[r.room.sent.length]? = some answer := by simp
  constructor
  · rintro ⟨body, frame, asked, same, -, first⟩
    obtain ⟨answer, added, -, log, -⟩ := sync_answered asked
    rw [log, behind] at first
    exact ⟨body, asked, same, (Sent.mk.inj (Option.some.inj first)).2.2.1⟩
  · rintro ⟨body, asked, rfl, ok⟩
    obtain ⟨answer, added, frame, log, -⟩ := sync_answered asked
    refine ⟨body, answer, asked, rfl, frame, ?_⟩
    rw [log, behind, ok]

theorem sync_isOpen {e : Env × RoomEvent} {body : Bytes} {req : SyncRouteInfoRequest}
    (asked : syncIn x r e.2 = some (w, body, req)) : (r.onEvent x e).room.isOpen w = true := by
  obtain ⟨env, event⟩ := e
  obtain ⟨bytes, header, rfl, isOpen, parsed, -⟩ := syncIn_some asked
  have dispatched := (@dispatch_moves x env False (fun _ => False) r w _ isOpen
    (currentAttachment_seat env r w) header (bytes.drop headerSize) bytes).2.2
  simp only [Relay.onEvent, Relay.step, isOpen, ↓reduceIte, websocketMessage_eq x env r w parsed]
  revert dispatched
  generalize
    r.dispatch x env w (r.currentAttachment env w) header (bytes.drop headerSize) bytes = out
  obtain ⟨ok, att, after⟩ := out
  intro stillOpen
  cases ok with
  | false => exact stillOpen
  | true =>
    simp only [Relay.writeBack, Relay.serializeAttachment]
    split
    · rwa [isOpen_attach]
    · exact stillOpen

end RelayAnswers
