import WsRelay.Answers
import WsRelay.Traffic

/- The frames of the relay as a receiver reads them. With codecs that read back what they wrote,
   the relay's own readers find in each frame what the log says that it carries. -/
namespace RelayLegibility
open RelayProtocol RelayRouteState RelayPeerManager RelayRpcHandler RelayRoomModel RelayRoomSteps
open RelayMembership RelayForwarding RelayFraming RelayWireFormats RelayRoomMoves RelayAnswers
open RelayTraffic RelayPhases RelayLiveness RelayPeerCenter RelayWithdrawnEdges
open RelayChangeBroadcast TransitionRuns OutputRuns

variable {x : Externals} {env : Env} {r : Relay} {w : SocketId} {target : PeerId}
variable {type : PacketType} {frame payload : Bytes}

/- The payload of a packet of this type. -/
def readPayload (type : PacketType) (frame : Bytes) : Option (PeerId × Bytes) :=
  (parseHeader frame).bind fun header =>
    if header.packetTypeEnum = type then some (header.toPeerId, frame.drop headerSize) else none

/- As handle_handshake does. -/
def readHandshake (x : Externals) (frame : Bytes) : Option (PeerId × HandshakeRequest) :=
  (readPayload .handShake frame).bind fun (target, payload) =>
    (x.decodeHandshakeRequest payload).map fun req => (target, req)

/- As handle_rpc_req does on its way to handle_sync_route_info. -/
def readRequest (x : Externals) (frame : Bytes) : Option (PeerId × SyncRouteInfoRequest) :=
  (readPayload .rpcReq frame).bind fun (target, payload) =>
    (syncBody x payload).bind fun body =>
      (x.decodeSyncRouteInfoRequest body).map fun req => (target, req)

/- As handle_rpc_resp does. -/
def readResponse (x : Externals) (frame : Bytes) : Option (PeerId × SyncRouteInfoResponse) :=
  (readPayload .rpcResp frame).bind fun (target, payload) =>
    (x.decodeRpcPacket payload).bind fun packet =>
      if isOspfRouteService (serviceName packet) then
        (x.decodeSyncRouteInfoResponse (innerResponseBody x packet)).map fun resp => (target, resp)
      else none

/- As handle_rpc_resp begins. -/
def readAnswer (x : Externals) (frame : Bytes) : Option (PeerId × RpcPacket) :=
  (readPayload .rpcResp frame).bind fun (target, payload) =>
    (x.decodeRpcPacket payload).map fun answer => (target, answer)

/- What a request of this peer asks for, in the state that it meets: the empty acknowledgement of
   a report, the stored map unless the digest is known, or the opposite role with the session id
   that was last announced. -/
def answerBody (x : Externals) (r : Relay) (seat : WsAttachment) (request : RpcPacket) :
    Option Bytes :=
  let inner := innerRequestBody x request
  if isPeerCenterService (serviceName request) then
    if methodIndex request = 0 then
      (x.decodeReportPeersRequest inner).map fun _ => x.encodeReportPeersResponse
    else if methodIndex request = 1 then
      (x.decodeGetGlobalPeerMapRequest inner).map fun req =>
        x.encodeGetGlobalPeerMapResponse ((centerData (centers r) seat.groupKey).respond req)
    else none
  else if isOspfRouteService (serviceName request) ∧
      (methodIndex request = 0 ∨ methodIndex request = 1) then
    (x.decodeSyncRouteInfoRequest inner).map fun req => x.encodeSyncRouteInfoResponse
      ⟨!req.isInitiator, RouteState.recordedId (routes r) seat.groupKey seat.peerId, none⟩
  else none

/-- What the log says of an entry is what is read: a greeting is answered to the peer it names, a
    ping to the header's sender, a request to the peer of the socket, with the request's own
    numbers and the body it asks for, and an update tells its target the request that was
    built. -/
def Legible (x : Externals) (r : Relay) (e : RoomEvent) (entry : Sent) : Prop :=
  match entry.origin with
  | .handshakeResponse => ∃ w bytes req, e = .message w (.binary bytes) ∧
      x.decodeHandshakeRequest (bytes.drop headerSize) = some req ∧
      readHandshake x entry.frame = some (req.myPeerId, handshakeResponse)
  | .pong => ∃ w bytes header, e = .message w (.binary bytes) ∧ parseHeader bytes = some header ∧
      readPayload .pong entry.frame = some (header.fromPeerId, bytes.drop headerSize)
  | .rpcResp => ∃ w bytes request answer, e = .message w (.binary bytes) ∧
      x.decodeRpcPacket (bytes.drop headerSize) = some request ∧
      readAnswer x entry.frame = some ((seatAt r w).peerId, answer) ∧
      AnswerTo request (seatAt r w).peerId answer ∧
      answerBody x r (seatAt r w) request = some (innerResponseBody x answer)
  | .forwarded _ => True
  | .routeUpdate _ target request _ => readRequest x entry.frame = some (target, request)

theorem readPayload_frame (framed : IsFrame frame target type payload) :
    readPayload type frame = some (target, payload) := by
  obtain ⟨header, parsed, -, addressed, -, kind, -⟩ := framed.parsed
  simp only [readPayload, parsed, Option.bind_some, kind, ↓reduceIte, addressed, framed.follows]

theorem syncBody_update (codecs : RoundTrips x) (ctx : WsPeerContext) (target : PeerId)
    (draw : UInt64) (request : SyncRouteInfoRequest) :
    syncBody x (x.encodeRpcPacket (routeUpdatePacket x ctx target draw request)) =
      some (x.encodeSyncRouteInfoRequest request) := by
  have inner : innerRequestBody x (routeUpdatePacket x ctx target draw request) =
      x.encodeSyncRouteInfoRequest request := by
    have plain : rpcBody x (routeUpdatePacket x ctx target draw request) =
        (routeUpdatePacket x ctx target draw request).body := rfl
    simp only [innerRequestBody, plain]
    simp only [routeUpdatePacket, codecs.request, ↓reduceIte, Option.map_some, Option.getD_some]
  have route : isPeerCenterService
      (serviceName (routeUpdatePacket x ctx target draw request)) = false ∧
      isOspfRouteService (serviceName (routeUpdatePacket x ctx target draw request)) = true := by
    simp only [serviceName, routeUpdatePacket, Option.map_some, Option.getD_some]
    decide
  have method : methodIndex (routeUpdatePacket x ctx target draw request) = 1 := rfl
  simp [syncBody, codecs.packet, route, method, inner]

theorem innerResponseBody_build (codecs : RoundTrips x) (request : RpcPacket) (body : Bytes)
    (asker : PeerId) : ∃ answer,
      x.decodeRpcPacket (buildRpcResponseBytes x request body asker) = some answer ∧
        serviceName answer = serviceName request ∧ innerResponseBody x answer = body := by
  refine ⟨_, codecs.packet _, rfl, ?_⟩
  have plain (answer : RpcPacket) (info : answer.compressionInfo = some ⟨1, 1⟩) :
      rpcBody x answer = answer.body := by
    simp only [rpcBody, info]
    rfl
  simp only [innerResponseBody]
  rw [plain _ rfl, codecs.response]
  rfl

theorem readRequest_update (codecs : RoundTrips x) {ctx : WsPeerContext} {draw : UInt64}
    {request : SyncRouteInfoRequest} (framed : IsFrame frame target .rpcReq
      (x.encodeRpcPacket (routeUpdatePacket x ctx target draw request))) :
    readRequest x frame = some (target, request) := by
  simp only [readRequest, readPayload_frame framed, Option.bind_some, syncBody_update codecs,
    codecs.sync, Option.map_some]

theorem readResponse_build (codecs : RoundTrips x) {request : RpcPacket} {asker : PeerId}
    (service : isOspfRouteService (serviceName request) = true) {resp : SyncRouteInfoResponse}
    (framed : IsFrame frame asker .rpcResp
      (buildRpcResponseBytes x request (x.encodeSyncRouteInfoResponse resp) asker)) :
    readResponse x frame = some (asker, resp) := by
  obtain ⟨answer, decoded, same, inner⟩ := innerResponseBody_build codecs request
    (x.encodeSyncRouteInfoResponse resp) asker
  simp only [readResponse, readPayload_frame framed, Option.bind_some, decoded, same, service,
    ↓reduceIte, inner, codecs.syncAnswer, Option.map_some]

theorem request_answer (a : Ambient) (ctx : WsPeerContext) (r : Relay) (seat : WsAttachment)
    (peer : ctx.peerId = seat.peerId) (group : ctx.groupKey = seat.groupKey) {request : RpcPacket}
    (decoded : x.decodeRpcPacket payload = some request) :
    let actions := (handleRpcReq x a ctx r.global.peerManager r.global.peerCenterMap
      payload).actions
    match answerBody x r seat request with
    | none => actions = []
    | some body => ∃ rest, actions = .sendTo ctx.peerId
        (buildRpcResponseBytes x request body ctx.peerId) :: rest := by
  simp only [handleRpcReq, decoded, dispatchRpcReq, answerBody, ← peer, ← group]
  by_cases center : isPeerCenterService (serviceName request) = true
  · simp only [center, ↓reduceIte, handlePeerCenterRpc]
    by_cases first : methodIndex request = 0
    · simp only [first, ↓reduceIte, PeerCenter.reportPeers]
      cases x.decodeReportPeersRequest (innerRequestBody x request) with
      | none => rfl
      | some req => exact ⟨[], rfl⟩
    · by_cases second : methodIndex request = 1
      · simp only [second, ↓reduceIte, PeerCenter.getGlobalPeerMap]
        cases x.decodeGetGlobalPeerMapRequest (innerRequestBody x request) with
        | none => rfl
        | some req => exact ⟨[], rfl⟩
      · simp [first, second]
  · by_cases route : isOspfRouteService (serviceName request) = true
    · by_cases method : methodIndex request = 0 ∨ methodIndex request = 1
      · simp only [center, route, method, and_self, ↓reduceIte, Bool.false_eq_true]
        cases readable : x.decodeSyncRouteInfoRequest (innerRequestBody x request) with
        | none => exact handleSyncRouteInfo_silent readable request
        | some req =>
          have listed := handleSyncRouteInfo_actions x a ctx r.global.peerManager readable request
          rw [syncResponse_eq a ctx r.global.peerManager readable] at listed
          exact ⟨_, listed⟩
      · simp [center, route, method]
    · simp [center, route]

theorem answered_body (env : Env) (r : Relay) (w : SocketId) {request : RpcPacket}
    (decoded : x.decodeRpcPacket payload = some request)
    (loud : answered x payload = some request) :
    ∃ body, answerBody x r (seatAt r w) request = some body := by
  set att := r.currentAttachment env w
  set a := env.ambient att.groupKey r.room.sent.length
  set ctx := attachmentToCtx (env.randomU64 r.room.sent.length) att
  have listed := request_actions (x := x) a ctx r.global.peerManager r.global.peerCenterMap payload
  have shape := request_answer a ctx r (seatAt r w) rfl rfl decoded
  cases asks : answerBody x r (seatAt r w) request with
  | none =>
    simp only [asks] at shape
    rw [loud, shape] at listed
    cases listed
  | some body => exact ⟨body, rfl⟩

theorem response_first {bytes : Bytes} {header : PacketHeader} {request : RpcPacket} {body : Bytes}
    (isOpen : r.room.isOpen w = true) (parsed : parseHeader bytes = some header)
    (kind : header.packetTypeEnum = .rpcReq) (here : handledLocally header = true)
    (decoded : x.decodeRpcPacket (bytes.drop headerSize) = some request)
    (asks : answerBody x r (seatAt r w) request = some body) :
    ∃ frame rest, sentSince r (r.onEvent x (env, .message w (.binary bytes))) =
        ⟨w, frame, env.sendOk r.room.sent.length, .rpcResp⟩ :: rest ∧
      IsFrame frame (seatAt r w).peerId .rpcResp
        (buildRpcResponseBytes x request body (seatAt r w).peerId) := by
  set att := r.currentAttachment env w with attDef
  set a := env.ambient att.groupKey r.room.sent.length
  set ctx := attachmentToCtx (env.randomU64 r.room.sent.length) att
  set handled := (r.handleRpcReqLocally x env att (bytes.drop headerSize)).2 with handledDef
  have shape := request_answer a ctx r (seatAt r w) rfl rfl decoded
  simp only [asks] at shape
  obtain ⟨rest, actions⟩ := shape
  obtain ⟨frame, wrapped, framed⟩ := wrapPacket_default x att.peerId .rpcResp
    (buildRpcResponseBytes x request body att.peerId)
  have sent : handled.runAction x env w att (.sendTo ctx.peerId
      (buildRpcResponseBytes x request body ctx.peerId)) = handled.send env w frame .rpcResp := by
    have same : buildRpcResponseBytes x request body ctx.peerId =
        buildRpcResponseBytes x request body att.peerId := rfl
    simp only [Relay.runAction, same, wrapped]
  have own : ∀ p key, .pushRouteUpdate p key ∈ rest → p = att.peerId := by
    intro p key pushed
    have asked := handleRpcReq_own x a ctx r.global.peerManager r.global.peerCenterMap
      (bytes.drop headerSize)
    rw [actions] at asked
    exact (asked _ (List.mem_cons_of_mem _ pushed)).1
  obtain ⟨later, whole⟩ := @runActions_log x env handled w att (.sendTo ctx.peerId
    (buildRpcResponseBytes x request body ctx.peerId)) rest isOpen (currentAttachment_seat env r w)
    own
  rw [sent, ← actions] at whole
  have log : (r.onEvent x (env, .message w (.binary bytes))).room.sent =
      (r.room.sent ++ [⟨w, frame, env.sendOk r.room.sent.length, .rpcResp⟩]) ++ later := by
    refine Eq.trans ?_ whole.symm
    simp only [Relay.onEvent, Relay.step, isOpen, ↓reduceIte, websocketMessage_eq x env r w parsed,
      writeBack_sent, Relay.dispatch, kind, Relay.onRpcReq, here]
    rfl
  refine ⟨frame, later, ?_, framed⟩
  rw [sentSince, log, List.append_assoc, List.drop_left]
  rfl

/-- A response is read as the answer to its request, with the body that the request asks for. -/
theorem response_legible (codecs : RoundTrips x) {e : RoomEvent} {entry : Sent}
    (sent : entry ∈ sentSince r (r.onEvent x (env, e))) (origin : entry.origin = .rpcResp) :
    Legible x r e entry := by
  have traffic : Traffic x env r e (r.onEvent x (env, e)) := step_traffic x env r e
  have other : entry ∈ others (sentSince r (r.onEvent x (env, e))) :=
    List.mem_filter.mpr ⟨sent, by rw [origin]; rfl⟩
  obtain ⟨due, listed, pays⟩ := paid_for traffic.paid other
  cases pays with
  | response answer answers framed =>
    rename_i v asker request frame ok
    obtain ⟨bytes, header, rfl, isOpen, parsed, kind, here, loud, rfl⟩ := dues_response listed
    have decoded := (Option.filter_eq_some_iff.mp loud).1
    obtain ⟨body, asks⟩ := answered_body env r v decoded loud
    obtain ⟨frame', rest, log, framed'⟩ := response_first isOpen parsed kind here decoded asks
    have first : ⟨v, frame', env.sendOk r.room.sent.length, .rpcResp⟩ ∈
        others (sentSince r (r.onEvent x (env, .message v (.binary bytes)))) := by
      rw [log]
      exact List.mem_filter.mpr ⟨List.mem_cons_self, rfl⟩
    have same : frame = frame' := congrArg Sent.frame (traffic.other_unique other first)
    -- both readings of the one frame are of the same packet
    obtain ⟨answer', written, -, inner⟩ := innerResponseBody_build codecs request body
      (seatAt r v).peerId
    rw [← framed'.follows, ← same, framed.follows, codecs.packet] at written
    obtain rfl := Option.some.inj written
    rw [← inner] at asks
    refine ⟨v, bytes, request, answer, rfl, decoded, ?_, answers, asks⟩
    simp only [readAnswer, readPayload_frame framed, Option.bind_some, codecs.packet,
      Option.map_some]
  | _ => cases origin

theorem meant_legible (codecs : RoundTrips x) {e : RoomEvent} {entry : Sent}
    (meant : Meant x env r e entry.origin target type payload)
    (framed : IsFrame entry.frame target type payload) (other : entry.origin ≠ .rpcResp) :
    Legible x r e entry := by
  obtain ⟨socket, frame, ok, origin⟩ := entry
  cases meant with
  | welcome asked =>
    refine ⟨_, _, _, rfl, asked, ?_⟩
    simp only [readHandshake, readPayload_frame framed, Option.bind_some, codecs.handshake,
      Option.map_some]
  | pong asked => exact ⟨_, _, _, rfl, asked, readPayload_frame framed⟩
  | response answer => exact absurd rfl other
  | update ctx draw => exact readRequest_update codecs framed

theorem event_legible (codecs : RoundTrips x) (r : Relay) (e : Env × RoomEvent) {entry : Sent}
    (sent : entry ∈ sentSince r (r.onEvent x e)) : Legible x r e.2 entry := by
  by_cases answer : entry.origin = .rpcResp
  · exact response_legible codecs sent answer
  · obtain ⟨added, grown, each⟩ := step_logs x e.1 r e.2
    have whole : sentSince r (r.onEvent x e) = added := by
      rw [sentSince, Relay.onEvent, grown, List.drop_left]
    rw [whole] at sent
    rcases each entry sent with ⟨source, passed⟩ | ⟨target, type, payload, meant, framed⟩
    · simp only [Legible, passed]
    · exact meant_legible codecs meant framed answer

theorem syncBody_answer {body : Bytes} {req : SyncRouteInfoRequest} {seat : WsAttachment}
    (named : syncBody x payload = some body)
    (decoded : x.decodeSyncRouteInfoRequest body = some req) :
    ∃ request, x.decodeRpcPacket payload = some request ∧
      isOspfRouteService (serviceName request) = true ∧
      answerBody x r seat request = some (x.encodeSyncRouteInfoResponse
        ⟨!req.isInitiator, RouteState.recordedId (routes r) seat.groupKey seat.peerId, none⟩) := by
  obtain ⟨request, opened, picked⟩ := Option.bind_eq_some_iff.mp named
  obtain ⟨asks, inner⟩ := Option.ite_none_right_eq_some.mp picked
  simp only [Bool.and_eq_true, Bool.or_eq_true, Bool.not_eq_true', beq_iff_eq] at asks
  obtain ⟨⟨center, service⟩, method⟩ := asks
  rw [← Option.some.inj inner] at decoded
  refine ⟨request, opened, service, ?_⟩
  simp only [answerBody, center, service, method, decoded, and_self, Bool.false_eq_true, ↓reduceIte,
    Option.map_some]

/-- A SyncRouteInfo request is answered first of all: its peer reads the opposite role, the session
    id that was last announced to it, and no error. -/
theorem sync_legible (codecs : RoundTrips x) {e : Env × RoomEvent} {body : Bytes}
    {req : SyncRouteInfoRequest} (asked : syncIn x r e.2 = some (w, body, req)) :
    ∃ frame rest, sentSince r (r.onEvent x e) =
        ⟨w, frame, e.1.sendOk r.room.sent.length, .rpcResp⟩ :: rest ∧
      readResponse x frame = some ((seatAt r w).peerId,
        ⟨!req.isInitiator, RouteState.recordedId (routes r) (seatAt r w).groupKey
          (seatAt r w).peerId, none⟩) := by
  obtain ⟨bytes, header, message, isOpen, parsed, kind, here, named, decoded⟩ := syncIn_some asked
  obtain ⟨env, event⟩ := e
  obtain rfl : event = .message w (.binary bytes) := message
  obtain ⟨request, opened, service, asks⟩ := syncBody_answer named decoded
  obtain ⟨frame, rest, sent, framed⟩ := response_first isOpen parsed kind here opened asks
  exact ⟨frame, rest, sent, readResponse_build codecs service framed⟩

/-- On the wire stands what the log says. In every run each update reads back as the request that
    was built for its target. Whatever the event and the state it meets, each frame reads back as
    what it answers, and what comes first for a SyncRouteInfo request is its response. -/
theorem frames_read_back (codecs : RoundTrips x) (r : Relay) (events : List (Env × RoomEvent)) :
    (∀ entry ∈ sentSince r (Relay.run x r events), ∀ key target request topology,
      entry.origin = .routeUpdate key target request topology →
        readRequest x entry.frame = some (target, request)) ∧
    (∀ (s : Relay) (e : Env × RoomEvent), ∀ entry ∈ sentSince s (s.onEvent x e),
      Legible x s e.2 entry) ∧
    ∀ (s : Relay) (e : Env × RoomEvent) w body req, syncIn x s e.2 = some (w, body, req) →
      ∃ frame rest, sentSince s (s.onEvent x e) =
          ⟨w, frame, e.1.sendOk s.room.sent.length, .rpcResp⟩ :: rest ∧
        readResponse x frame = some ((seatAt s w).peerId,
          ⟨!req.isInitiator, RouteState.recordedId (routes s) (seatAt s w).groupKey
            (seatAt s w).peerId, none⟩) := by
  refine ⟨?_, fun s e entry sent => event_legible codecs s e sent,
    fun s e w body req asked => sync_legible codecs asked⟩
  rw [sentSince_run]
  refine outputs_all (fun _ => True) ?_ trivial (everyStep_true r events)
  intro s e _ _
  refine ⟨trivial, ?_⟩
  intro entry sent key target request topology origin
  have read := event_legible codecs s e sent
  simpa only [Legible, origin] using read

/- A member greets the relay and asks for the routes; what it gets is read by the readers. -/
def firstContact : List (Env × RoomEvent) :=
  quietly [.accept, .message 0 (greeting 5 "net" [0xaa]),
    .message 0 (syncMessage 5 ⟨5, 77, true, none, none, none⟩)]

set_option maxRecDepth 16000 in
theorem first_contact_reads_back :
    ((Relay.run wire Relay.initial firstContact).room.sent.map fun entry =>
      ((readHandshake wire entry.frame).isSome, (readRequest wire entry.frame).isSome,
        (readResponse wire entry.frame).isSome)) =
      [(true, false, false), (false, true, false), (false, false, true), (false, true, false)] ∧
    ∀ entry ∈ sentSince Relay.initial (Relay.run wire Relay.initial firstContact),
      ∀ key target request topology, entry.origin = .routeUpdate key target request topology →
        readRequest wire entry.frame = some (target, request) :=
  ⟨by decide, (frames_read_back wire_roundTrips Relay.initial firstContact).1⟩

end RelayLegibility
