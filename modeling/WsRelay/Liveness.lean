import WsRelay.ChangeBroadcast
import WsRelay.Forwarding

/- When a message is recorded as a sign of life. The copy of the attachment with the new time is
   written back behind the handler, so a send that fails in between loses it, and a message that
   is not read as a packet never makes it. -/
namespace RelayLiveness
open RelayProtocol RelayRouteState RelayPeerCenter RelayPeerManager RelayRpcHandler RelayRoomModel
open RelayRouteOps RelayRoomSteps RelayMembership RelayForwarding RelayResidue RelayChangeBroadcast
open RelayWireFormats

/- A peer center request is answered if its method is known and its body decodes. -/
def centerAnswers (x : Externals) (payload : Bytes) : Bool :=
  (x.decodeRpcPacket payload).any fun packet =>
    isPeerCenterService (serviceName packet) &&
      if methodIndex packet = 0 then
        (x.decodeReportPeersRequest (innerRequestBody x packet)).isSome
      else
        methodIndex packet == 1 &&
          (x.decodeGetGlobalPeerMapRequest (innerRequestBody x packet)).isSome

/- The frames for the requesting socket: the answer, and the update behind a SyncRouteInfo one. -/
def answerFrames (x : Externals) (payload : Bytes) : Nat :=
  match syncBody x payload with
  | some body => if (x.decodeSyncRouteInfoRequest body).isSome then 2 else 0
  | none => if centerAnswers x payload then 1 else 0

def forwardFrames (r : Relay) (w : SocketId) (header : PacketHeader) : Nat :=
  if (delivery r.room w header.toPeerId).isSome then 1 else 0

/- A handshake writes the attachment before it sends anything. -/
def sendsBefore (x : Externals) (r : Relay) (w : SocketId) (header : PacketHeader)
    (payload : Bytes) : Nat :=
  match header.packetTypeEnum with
  | .handShake => 0
  | .ping => 1
  | .rpcReq => if handledLocally header then answerFrames x payload else forwardFrames r w header
  | .rpcResp => if handledLocally header then 0 else forwardFrames r w header
  | _ => forwardFrames r w header

/- The copy as the message leaves it; an accepted handshake has moved it to its group. -/
def updatedAttachment (x : Externals) (env : Env) (r : Relay) (w : SocketId)
    (header : PacketHeader) (payload : Bytes) : WsAttachment :=
  let att := r.currentAttachment env w
  match header.packetTypeEnum with
  | .handShake =>
    match (handleHandshake x payload r.global.networkDigestRegistry).1 with
    | some outcome => attachOutcome att outcome
    | none => att
  | _ => att

/- The sends go out, and the platform takes the attachment. -/
def Writes (x : Externals) (env : Env) (r : Relay) (w : SocketId) (header : PacketHeader)
    (payload : Bytes) : Prop :=
  (∀ i < sendsBefore x r w header payload, env.sendOk (r.room.sent.length + i) = true) ∧
    env.attachOk (updatedAttachment x env r w header payload) = true

section Message
variable {x : Externals} {env : Env} {r : Relay} {w : SocketId} {att : WsAttachment}

theorem updatedAttachment_lastSeen (header : PacketHeader) (payload : Bytes) :
    (updatedAttachment x env r w header payload).lastSeenMs = env.nowMs.toInt64 := by
  unfold updatedAttachment
  simp only
  split
  · split
    · rfl
    · rfl
  · rfl

theorem forward_ok (header : PacketHeader) (frame : Bytes) :
    (r.forwardMessage env w header frame).1 = true ↔
      ∀ i < forwardFrames r w header, env.sendOk (r.room.sent.length + i) = true := by
  unfold Relay.forwardMessage forwardFrames delivery
  cases found : r.room.forwardTarget header.toPeerId with
  | none => simp
  | some target =>
    change (if blockedFrom r.room w target = true then (true, r)
      else r.send env target.id frame (.forwarded w)).1 = true ↔ _
    by_cases blocked : blockedFrom r.room w target = true
    · simp [blocked]
    · simp [blocked, Relay.send, Option.filter]

theorem handleRpcReq_center (a : Ambient) (ctx : WsPeerContext) (pm : PeerManager)
    (centers : PeerCenterMap) {payload : Bytes} (other : syncBody x payload = none) :
    ∃ bytes, (handleRpcReq x a ctx pm centers payload).actions =
      if centerAnswers x payload then [.sendTo ctx.peerId bytes] else [] := by
  unfold syncBody at other
  unfold handleRpcReq centerAnswers
  cases decoded : x.decodeRpcPacket payload with
  | none => exact ⟨[], rfl⟩
  | some packet =>
    rw [decoded, Option.bind_some] at other
    simp only [dispatchRpcReq, Option.any_some]
    by_cases center : isPeerCenterService (serviceName packet) = true
    · simp only [center, ↓reduceIte, Bool.true_and, handlePeerCenterRpc]
      by_cases first : methodIndex packet = 0
      · simp only [first, ↓reduceIte, PeerCenter.reportPeers]
        cases x.decodeReportPeersRequest (innerRequestBody x packet) with
        | none => exact ⟨[], rfl⟩
        | some req => exact ⟨_, rfl⟩
      · by_cases second : methodIndex packet = 1
        · simp only [second, ↓reduceIte, PeerCenter.getGlobalPeerMap]
          cases x.decodeGetGlobalPeerMapRequest (innerRequestBody x packet) with
          | none => exact ⟨[], rfl⟩
          | some req => exact ⟨_, rfl⟩
        · exact ⟨[], by simp [first, second]⟩
    · refine ⟨[], ?_⟩
      by_cases ospf : isOspfRouteService (serviceName packet) = true
      · have method : ¬ (methodIndex packet = 0 ∨ methodIndex packet = 1) := by
          intro known
          simp [center, ospf, known] at other
        simp [center, ospf, method]
      · simp [center, ospf]

/- A failing broadcast is only logged, so it never ends the loop. -/
theorem runActions_broadcasts {actions : List RpcAction}
    (quiet : ∀ action ∈ actions, isBroadcast action = true) (r : Relay) :
    (Relay.runActions x env w att actions r).1 = true := by
  induction actions generalizing r with
  | nil => rfl
  | cons action rest ih =>
    have first := quiet action List.mem_cons_self
    cases action with
    | broadcastRouteUpdate groupKey excludePeerId =>
      exact ih (fun other listed => quiet other (List.mem_cons_of_mem _ listed)) _
    | _ => cases first

theorem runActions_cons (action : RpcAction) (rest : List RpcAction) (r : Relay) :
    (Relay.runActions x env w att (action :: rest) r).1 =
      ((r.runAction x env w att action).1 &&
        (Relay.runActions x env w att rest (r.runAction x env w att action).2).1) := by
  rw [Relay.runActions]
  split
  · rename_i outcome
    rw [outcome]
    rfl
  · rename_i outcome
    rw [outcome]
    simp

theorem response_ok (p : PeerId) (bytes : Bytes) (r : Relay) :
    (Relay.runActions x env w att [.sendTo p bytes] r).1 = env.sendOk r.room.sent.length := by
  obtain ⟨frame, sent⟩ := runAction_sends x env r w att p bytes
  rw [runActions_cons, sent]
  simp [Relay.runActions, Relay.send]

theorem response_update_ok {told : List RpcAction}
    (broadcasts : ∀ action ∈ told, isBroadcast action = true) (p q : PeerId) (bytes : Bytes)
    (groupKey : GroupKey) (r : Relay) :
    (Relay.runActions x env w att (.sendTo p bytes :: .pushRouteUpdate q groupKey :: told) r).1 =
      (env.sendOk r.room.sent.length && env.sendOk (r.room.sent.length + 1)) := by
  obtain ⟨frame, sent⟩ := runAction_sends x env r w att p bytes
  rw [runActions_cons, sent, runActions_cons, runActions_broadcasts broadcasts]
  obtain ⟨pushed, origin, update⟩ := runAction_pushes x env
    (r.send env w frame .rpcResp).2 w att q groupKey
  rw [update]
  simp [Relay.send, buildFor_snd, Relay.withManager]

theorem request_ok (header : PacketHeader) (here : handledLocally header = true)
    (payload frame : Bytes) :
    (r.onRpcReq x env w att header payload frame).1 = true ↔
      ∀ i < answerFrames x payload, env.sendOk (r.room.sent.length + i) = true := by
  set a := env.ambient att.groupKey r.room.sent.length
  set ctx := attachmentToCtx a.randomU64 att
  set handled := (r.handleRpcReqLocally x env att payload).2 with handledDef
  have log : handled.room.sent = r.room.sent := rfl
  have ran : (r.onRpcReq x env w att header payload frame).1 = (Relay.runActions x env w att
      (handleRpcReq x a ctx r.global.peerManager r.global.peerCenterMap payload).actions
        handled).1 := by
    simp only [Relay.onRpcReq, here, ↓reduceIte]
    rfl
  rw [ran]
  cases named : syncBody x payload with
  | none =>
    have frames : answerFrames x payload = if centerAnswers x payload then 1 else 0 := by
      simp only [answerFrames, named]
    obtain ⟨bytes, actions⟩ := handleRpcReq_center (x := x) a ctx r.global.peerManager
      r.global.peerCenterMap named
    rw [actions, frames]
    cases centerAnswers x payload with
    | false => simp [Relay.runActions]
    | true =>
      simp only [↓reduceIte]
      rw [response_ok, log]
      simp
  | some body =>
    obtain ⟨packet, actions, -⟩ := handleRpcReq_sync x a ctx r.global.peerManager named
      r.global.peerCenterMap
    have frames : answerFrames x payload =
        if (x.decodeSyncRouteInfoRequest body).isSome then 2 else 0 := by
      simp only [answerFrames, named]
    rw [actions, frames]
    cases decoded : x.decodeSyncRouteInfoRequest body with
    | none =>
      rw [handleSyncRouteInfo_silent decoded]
      simp [Relay.runActions]
    | some req =>
      rw [handleSyncRouteInfo_actions x a ctx r.global.peerManager decoded packet,
        response_update_ok, log]
      · simp only [Bool.and_eq_true, Option.isSome_some, ↓reduceIte]
        constructor
        · intro both i below
          rcases (by omega : i = 0 ∨ i = 1) with rfl | rfl
          · exact both.1
          · exact both.2
        · intro all
          exact ⟨all 0 (by omega), all 1 (by omega)⟩
      · intro action listed
        rw [List.mem_ite_nil_right, List.mem_singleton] at listed
        rw [listed.2]
        rfl

theorem dispatch_ok {header : PacketHeader} (other : header.packetTypeEnum ≠ .handShake)
    (payload frame : Bytes) :
    (r.dispatch x env w att header payload frame).1 = true ↔
      ∀ i < sendsBefore x r w header payload, env.sendOk (r.room.sent.length + i) = true := by
  unfold Relay.dispatch sendsBefore
  cases kind : header.packetTypeEnum with
  | handShake => exact absurd kind other
  | ping => simp [Relay.send]
  | rpcReq =>
    simp only
    by_cases here : handledLocally header = true
    · simp only [here, ↓reduceIte]
      exact request_ok header here payload frame
    · simp only [Relay.onRpcReq, here]
      exact forward_ok header frame
  | rpcResp =>
    simp only
    by_cases here : handledLocally header = true
    · simp [Relay.onRpcResp, here]
    · simp only [Relay.onRpcResp, here]
      exact forward_ok header frame
  | _ => exact forward_ok header frame

theorem attachment_writeBack {outcome : Bool × WsAttachment × Relay}
    (isOpen : outcome.2.2.room.isOpen w = true) :
    (Relay.writeBack env w outcome).room.attachment w =
      if outcome.1 = true ∧ env.attachOk outcome.2.1 = true then some outcome.2.1
      else outcome.2.2.room.attachment w := by
  obtain ⟨ok, att, after⟩ := outcome
  cases ok with
  | false => simp [Relay.writeBack]
  | true =>
    cases written : env.attachOk att with
    | false => simp [Relay.writeBack, Relay.serializeAttachment, written]
    | true =>
      simp [Relay.writeBack, Relay.serializeAttachment, written, attachment_attach isOpen]

theorem attachment_quiet {allowed : RouteCall → Prop} {r' : Relay} (quiet : Quiet x allowed r r')
    (w : SocketId) : r'.room.attachment w = r.room.attachment w := by
  simp only [RelayRoom.attachment, quiet.sockets]

theorem attachment_welcome (isOpen : r.room.isOpen w = true) (att : WsAttachment)
    (outcome : HandshakeOutcome) :
    (Relay.writeBack env w ((r.welcome x env w att outcome).1, att,
      (r.welcome x env w att outcome).2)).room.attachment w =
        if env.attachOk att = true then some att else r.room.attachment w := by
  cases written : env.attachOk att with
  | false =>
    simp [Relay.welcome, Relay.serializeAttachment, written, Relay.writeBack]
  | true =>
    have quiet := welcome_quiet x env r w att outcome written
    have attached : (r.welcome x env w att outcome).2.room.attachment w = some att := by
      rw [attachment_quiet quiet, registerPeer_room, attachment_attach isOpen]
      simp
    rw [attachment_writeBack (isOpen_welcome isOpen att outcome)]
    simp [attached]

theorem attachment_handShake (isOpen : r.room.isOpen w = true) (att : WsAttachment)
    (payload : Bytes) :
    (Relay.writeBack env w (r.onHandShake x env w att payload)).room.attachment w =
      let left := ((handleHandshake x payload r.global.networkDigestRegistry).1.map
        (attachOutcome att)).getD att
      if env.attachOk left = true then some left else r.room.attachment w := by
  unfold Relay.onHandShake
  cases handled : handleHandshake x payload r.global.networkDigestRegistry with
  | mk outcome registry =>
    cases outcome with
    | none =>
      simp only [Option.map_none, Option.getD_none]
      rw [attachment_writeBack isOpen]
      simp only [true_and]
      rfl
    | some outcome =>
      exact attachment_welcome (r := { r with global := { r.global with
        networkDigestRegistry := registry } }) isOpen (attachOutcome att outcome) outcome

/-- Behind a packet the attachment is the updated copy, or still the old one. -/
theorem attachment_packet (isOpen : r.room.isOpen w = true) {bytes : Bytes}
    {header : PacketHeader} (parsed : parseHeader bytes = some header) :
    let payload := bytes.drop headerSize
    (Writes x env r w header payload ∧ (r.websocketMessage x env w (.binary bytes)).room.attachment
        w = some (updatedAttachment x env r w header payload)) ∨
      (¬ Writes x env r w header payload ∧
        (r.websocketMessage x env w (.binary bytes)).room.attachment w =
          r.room.attachment w) := by
  intro payload
  rw [websocketMessage_eq x env r w parsed]
  unfold Writes
  by_cases greets : header.packetTypeEnum = .handShake
  · have left : (Relay.writeBack env w (r.onHandShake x env w (r.currentAttachment env w)
        payload)).room.attachment w = _ :=
      attachment_handShake isOpen (r.currentAttachment env w) payload
    have updated : updatedAttachment x env r w header payload =
        ((handleHandshake x payload r.global.networkDigestRegistry).1.map
          (attachOutcome (r.currentAttachment env w))).getD (r.currentAttachment env w) := by
      simp only [updatedAttachment, greets]
      cases (handleHandshake x payload r.global.networkDigestRegistry).1 with
      | none => rfl
      | some outcome => rfl
    have first : sendsBefore x r w header payload = 0 := by simp only [sendsBefore, greets]
    have dispatched : r.dispatch x env w (r.currentAttachment env w) header payload bytes =
        r.onHandShake x env w (r.currentAttachment env w) payload := by
      simp only [Relay.dispatch, greets]
    rw [dispatched, left, updated, first]
    simp only [Nat.not_lt_zero, false_implies, implies_true, true_and]
    by_cases written : env.attachOk (((handleHandshake x payload
        r.global.networkDigestRegistry).1.map (attachOutcome (r.currentAttachment env w))).getD
          (r.currentAttachment env w)) = true
    · exact Or.inl ⟨written, if_pos written⟩
    · exact Or.inr ⟨written, if_neg written⟩
  · set att := r.currentAttachment env w with attDef
    obtain ⟨same, quiet⟩ := dispatch_quiet x env r w att payload bytes greets
    have ok : (r.dispatch x env w att header payload bytes).1 = true ↔
        ∀ i < sendsBefore x r w header payload, env.sendOk (r.room.sent.length + i) = true :=
      dispatch_ok greets payload bytes
    have updated : updatedAttachment x env r w header payload = att := by
      unfold updatedAttachment
      cases kind : header.packetTypeEnum with
      | handShake => exact absurd kind greets
      | _ => rfl
    have behind : (Relay.writeBack env w (r.dispatch x env w att header payload
        bytes)).room.attachment w = _ := attachment_writeBack (by rwa [isOpen_quiet quiet])
    rw [same, attachment_quiet quiet] at behind
    simp only [ok] at behind
    rw [updated, behind]
    by_cases written : (∀ i < sendsBefore x r w header payload,
        env.sendOk (r.room.sent.length + i) = true) ∧
          env.attachOk att = true
    · exact Or.inl ⟨written, if_pos written⟩
    · exact Or.inr ⟨written, if_neg written⟩

end Message

def Recorded (r : Relay) (w : SocketId) (nowMs : Millis) : Prop :=
  ∃ att, r.room.attachment w = some att ∧ att.lastSeenMs = nowMs.toInt64

/- A packet whose sends go out in front of the write; a text message is not read at all. -/
def Keeps (x : Externals) (env : Env) (r : Relay) (w : SocketId) : IncomingMessage → Prop
  | .text _ => False
  | .binary bytes =>
    ∃ header, parseHeader bytes = some header ∧ Writes x env r w header (bytes.drop headerSize)

/-- A message is recorded exactly if it is a packet whose sends before the write all succeed and
    whose attachment is taken, or the socket was already seen at this reading of the clock. -/
theorem liveness_recorded_iff {r : Relay} {w : SocketId} (isOpen : r.room.isOpen w = true)
    (x : Externals) (env : Env) (message : IncomingMessage) :
    Recorded (r.websocketMessage x env w message) w env.nowMs ↔
      Recorded r w env.nowMs ∨ Keeps x env r w message := by
  cases message with
  | text content => simp [Relay.websocketMessage, Keeps]
  | binary bytes =>
    cases parsed : parseHeader bytes with
    | none => simp [Relay.websocketMessage, Keeps, parsed]
    | some header =>
      have keeps : Keeps x env r w (.binary bytes) ↔
          Writes x env r w header (bytes.drop headerSize) := by
        simp [Keeps, parsed]
      rw [keeps]
      have behind : (Writes x env r w header (bytes.drop headerSize) ∧ _) ∨ _ :=
        attachment_packet isOpen parsed
      rcases behind with ⟨writes, attached⟩ | ⟨loses, attached⟩
      · have recorded : Recorded (r.websocketMessage x env w (.binary bytes)) w env.nowMs :=
          ⟨_, attached, updatedAttachment_lastSeen header (bytes.drop headerSize)⟩
        exact iff_of_true recorded (Or.inr writes)
      · unfold Recorded
        rw [attached, or_iff_left loses]

/- Peer 5 pings. -/
def pingMessage : IncomingMessage := .binary (frameOf .ping 5 myPeerId [1, 2])

theorem answered_ping_recorded :
    Recorded (twoJoined.websocketMessage wire (quietEnv 2000 500) 0 pingMessage) 0 2000 :=
  (liveness_recorded_iff (r := twoJoined) (w := 0) (by decide) wire (quietEnv 2000 500)
    pingMessage).mpr (Or.inr ⟨_, rfl, fun _ _ => rfl, rfl⟩)

/- Peer 5 sends data to peer 6, whose socket is broken. -/
def brokenEnv : Env := { quietEnv 2000 500 with sendOk := fun _ => false }

def dataMessage : IncomingMessage := .binary (frameOf .data 5 6 [1, 2])

set_option maxRecDepth 8000 in
theorem undelivered_data_not_recorded :
    ¬ Recorded (twoJoined.websocketMessage wire brokenEnv 0 dataMessage) 0 brokenEnv.nowMs := by
  intro ⟨att, attached, seen⟩
  have stale : ((twoJoined.websocketMessage wire brokenEnv 0 dataMessage).room.attachment 0).all
      (fun att => att.lastSeenMs != brokenEnv.nowMs.toInt64) = true := by decide
  rw [attached, Option.all_some, bne_iff_ne] at stale
  exact stale seen

end RelayLiveness
