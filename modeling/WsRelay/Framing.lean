import WsRelay.PacketHeaders
import WsRelay.SilentRequests

/- The frames that the relay makes itself. Each of the four builders writes the header on its
   own; what a receiver parses is who sent it, to whom, its type and how long the payload is. -/
namespace RelayFraming
open RelayProtocol RelayRouteState RelayPeerCenter RelayPeerManager RelayRpcHandler RelayRoomModel
open RelayRoomSteps RelayMembership RelaySilentRequests RelayPacketHeaders

structure IsFrame (frame : Bytes) (target : PeerId) (type : PacketType) (payload : Bytes) :
    Prop where
  parsed : ∃ h, parseHeader frame = some h ∧ h.fromPeerId = myPeerId ∧ h.toPeerId = target ∧
    h.packetType = type.toU8 ∧ h.packetTypeEnum = type ∧ h.flags = 0 ∧
    (payload.length < 2 ^ 32 → h.len.toNat = frame.length - headerSize)
  follows : frame.drop headerSize = payload

theorem createHeader_isFrame (target : PeerId) (type : PacketType) (payload : Bytes) :
    IsFrame (createHeader myPeerId target type (UInt32.ofNat payload.length) ++ payload) target type
      payload := by
  refine ⟨⟨_, parseHeader_toBytes _ payload, rfl, rfl, rfl, packet_type_round_trip type, rfl, ?_⟩,
    ?_⟩
  · intro small
    have whole : (createHeader myPeerId target type (UInt32.ofNat payload.length) ++
        payload).length = headerSize + payload.length := by
      rw [List.length_append]
      rfl
    rw [whole, Nat.add_sub_cancel_left]
    exact UInt32.toNat_ofNat_of_lt' small
  · exact List.drop_left' rfl

theorem patchHeader_same (source target : PeerId) (type : PacketType) (length : UInt32) :
    patchHeader (createHeader source target type length) 0 length =
      createHeader source target type length := rfl

theorem wrapPacket_default (x : Externals) (target : PeerId) (type : PacketType)
    (payload : Bytes) : ∃ frame, wrapPacket x myPeerId target type payload {} = some frame ∧
      IsFrame frame target type payload := by
  refine ⟨_, ?_, createHeader_isFrame target type payload⟩
  have header := patchHeader_same myPeerId target type (UInt32.ofNat payload.length)
  simp [wrapPacket, header]

variable {x : Externals} {env : Env} {r r' r'' : Relay} {w : SocketId}

/- What a frame with this origin is to be addressed to, and to carry. -/
inductive Meant (x : Externals) (env : Env) (r : Relay) :
    RoomEvent → Origin → PeerId → PacketType → Bytes → Prop
  | welcome {w : SocketId} {bytes : Bytes} {req : HandshakeRequest}
      (asked : x.decodeHandshakeRequest (bytes.drop headerSize) = some req) :
      Meant x env r (.message w (.binary bytes)) .handshakeResponse req.myPeerId .handShake
        (x.encodeHandshakeRequest handshakeResponse)
  | pong {w : SocketId} {bytes : Bytes} {header : PacketHeader}
      (asked : parseHeader bytes = some header) :
      Meant x env r (.message w (.binary bytes)) .pong header.fromPeerId .pong
        (bytes.drop headerSize)
  | response {w : SocketId} {bytes : Bytes} (answer : RpcPacket) :
      Meant x env r (.message w (.binary bytes)) .rpcResp (r.currentAttachment env w).peerId
        .rpcResp (x.encodeRpcPacket answer)
  | update {e : RoomEvent} {groupKey : GroupKey} {target : PeerId}
      {request : SyncRouteInfoRequest} {topology : RouteConnBitmap} (ctx : WsPeerContext)
      (draw : UInt64) :
      Meant x env r e (.routeUpdate groupKey target request topology) target .rpcReq
        (x.encodeRpcPacket (routeUpdatePacket x ctx target draw request))

def WellFramed (meant : Origin → PeerId → PacketType → Bytes → Prop) (entry : Sent) : Prop :=
  (∃ source, entry.origin = .forwarded source) ∨
    ∃ target type payload, meant entry.origin target type payload ∧
      IsFrame entry.frame target type payload

def Logs (P : Sent → Prop) (r r' : Relay) : Prop :=
  ∃ added, r'.room.sent = r.room.sent ++ added ∧ ∀ entry ∈ added, P entry

section Logs
variable {P : Sent → Prop}

theorem logs_same (same : r'.room.sent = r.room.sent) : Logs P r r' :=
  ⟨[], by simp [same], by simp⟩

theorem Logs.trans (first : Logs P r r') (second : Logs P r' r'') : Logs P r r'' := by
  obtain ⟨added, sent, each⟩ := first
  obtain ⟨more, sentMore, eachMore⟩ := second
  refine ⟨added ++ more, by rw [sentMore, sent, List.append_assoc], ?_⟩
  intro entry listed
  rcases List.mem_append.mp listed with before | after
  · exact each entry before
  · exact eachMore entry after

theorem logs_send {frame : Bytes} {origin : Origin}
    (proper : P ⟨w, frame, env.sendOk r.room.sent.length, origin⟩) :
    Logs P r (r.send env w frame origin).2 := by
  refine ⟨[⟨w, frame, env.sendOk r.room.sent.length, origin⟩], rfl, ?_⟩
  intro entry listed
  rw [List.mem_singleton.mp listed]
  exact proper

theorem logs_foldl {Item : Type} {body : Relay → Item → Relay}
    (each : ∀ r item, Logs P r (body r item)) (items : List Item) (r : Relay) :
    Logs P r (items.foldl body r) := by
  induction items generalizing r with
  | nil => exact logs_same rfl
  | cons item rest ih => exact (each r item).trans (ih (body r item))

end Logs

section Event
variable {e : RoomEvent} {start : Relay}

theorem broadcastTo_logs (groupKey : GroupKey) (excludePeerId : PeerId) (r : Relay) (s : Socket) :
    Logs (WellFramed (Meant x env start e)) r
      (broadcastTo x env groupKey excludePeerId r s) := by
  unfold broadcastTo
  cases s.attachment with
  | none => exact logs_same rfl
  | some att =>
    simp only
    split
    · exact logs_same rfl
    · split
      · exact logs_same rfl
      · exact logs_send (r := (r.buildFor x env att att.peerId).2)
          (Or.inr ⟨_, _, _, Meant.update _ _, createHeader_isFrame _ _ _⟩)

theorem broadcast_logs (groupKey : GroupKey) (excludePeerId : PeerId) (r : Relay) :
    Logs (WellFramed (Meant x env start e)) r
      (r.broadcastRouteUpdate x env groupKey excludePeerId) :=
  logs_foldl (broadcastTo_logs groupKey excludePeerId) r.room.sockets r

theorem forward_logs (header : PacketHeader) (frame : Bytes) (r : Relay) :
    Logs (WellFramed (Meant x env start e)) r (r.forwardMessage env w header frame).2 := by
  unfold Relay.forwardMessage
  split
  · exact logs_same rfl
  · simp only
    split
    · split
      · exact logs_same rfl
      · exact logs_send (Or.inl ⟨w, rfl⟩)
    · exact logs_send (Or.inl ⟨w, rfl⟩)

theorem runAction_logs {bytes : Bytes} (action : RpcAction) (r : Relay)
    (encoded : ∀ p body, action = .sendTo p body → ∃ answer, body = x.encodeRpcPacket answer) :
    Logs (WellFramed (Meant x env start (.message w (.binary bytes)))) r
      (r.runAction x env w (start.currentAttachment env w) action).2 := by
  cases action with
  | sendTo p body =>
    obtain ⟨answer, rfl⟩ := encoded p body rfl
    exact logs_send (Or.inr ⟨_, _, _, Meant.response answer, createHeader_isFrame _ _ _⟩)
  | pushRouteUpdate p groupKey =>
    exact logs_send (r := (r.buildFor x env (start.currentAttachment env w) p).2)
      (Or.inr ⟨_, _, _, Meant.update _ _, createHeader_isFrame _ _ _⟩)
  | broadcastRouteUpdate groupKey excludePeerId => exact broadcast_logs groupKey excludePeerId r
  | none => exact logs_same rfl

theorem encoded_of_responds {requester : PeerId} {packet : RpcPacket} {actions : List RpcAction}
    (responds : Responds x requester packet actions) {p : PeerId} {body : Bytes}
    (listed : .sendTo p body ∈ actions) : ∃ answer, body = x.encodeRpcPacket answer := by
  obtain ⟨answer, rest, whole, -, -, noOther⟩ := responds.first
  rw [whole] at listed
  rcases List.mem_cons.mp listed with first | later
  · exact ⟨answer, (RpcAction.sendTo.inj first).2⟩
  · exact absurd later (noOther p body)

theorem handleRpcReq_encoded {a : Ambient} {ctx : WsPeerContext} {pm : PeerManager}
    {centers : PeerCenterMap} {payload : Bytes} {p : PeerId} {body : Bytes}
    (listed : .sendTo p body ∈ (handleRpcReq x a ctx pm centers payload).actions) :
    ∃ answer, body = x.encodeRpcPacket answer := by
  unfold handleRpcReq at listed
  cases decoded : x.decodeRpcPacket payload with
  | none => simp [decoded] at listed
  | some packet =>
    simp only [decoded] at listed
    have cases := @dispatchRpcReq_cases x a ctx pm centers packet
    rcases cases with answered | ⟨silent, -⟩
    · exact encoded_of_responds answered listed
    · rw [silent] at listed
      cases listed

theorem onRpcReq_logs {bytes : Bytes} (header : PacketHeader) (payload : Bytes) (r : Relay) :
    Logs (WellFramed (Meant x env start (.message w (.binary bytes)))) r
      (r.onRpcReq x env w (start.currentAttachment env w) header payload bytes).2 := by
  unfold Relay.onRpcReq
  split
  · set handled := r.handleRpcReqLocally x env (start.currentAttachment env w) payload with local'
    show Logs _ r (Relay.runActions x env w (start.currentAttachment env w) handled.1 handled.2).2
    refine runActions_invariant x env handled.2 (fun r' => Logs _ r r') ?_ (logs_same rfl)
    intro r' action listed grown
    refine grown.trans (runAction_logs action r' ?_)
    rintro p body rfl
    exact handleRpcReq_encoded listed
  · exact forward_logs header bytes r

theorem onRpcResp_logs {bytes : Bytes} (att : WsAttachment) (header : PacketHeader)
    (payload : Bytes) (r : Relay) :
    Logs (WellFramed (Meant x env start (.message w (.binary bytes)))) r
      (r.onRpcResp x env w att header payload bytes).2 := by
  unfold Relay.onRpcResp
  split
  · exact logs_same rfl
  · exact forward_logs header bytes r

theorem welcome_logs {bytes : Bytes} {req : HandshakeRequest} {digest : String}
    (asked : x.decodeHandshakeRequest (bytes.drop headerSize) = some req) (att : WsAttachment)
    (r : Relay) :
    Logs (WellFramed (Meant x env start (.message w (.binary bytes)))) r
      (r.welcome x env w att (handshakeOutcome x req digest)).2 := by
  set outcome := handshakeOutcome x req digest with outcomeDef
  have written := sent_serializeAttachment env r w att
  unfold Relay.welcome
  split
  · rename_i failed outcome'
    rw [outcome'] at written
    exact logs_same written
  · rename_i seated outcome'
    rw [outcome'] at written
    have registered : Logs (WellFramed (Meant x env start (.message w (.binary bytes)))) r
        (seated.registerPeer x env outcome.groupKey outcome.peerId) := logs_same written
    have responded : Logs (WellFramed (Meant x env start (.message w (.binary bytes)))) r
        ((seated.registerPeer x env outcome.groupKey outcome.peerId).send env w
          outcome.responseBytes .handshakeResponse).2 :=
      registered.trans
        (logs_send (Or.inr ⟨_, _, _, Meant.welcome asked, createHeader_isFrame _ _ _⟩))
    simp only
    split
    · rename_i unsent sending
      rw [sending] at responded
      exact responded
    · rename_i sent sending
      rw [sending] at responded
      have built : Logs (WellFramed (Meant x env start (.message w (.binary bytes)))) r
          (sent.buildFor x env att att.peerId).2 := responded.trans (logs_same rfl)
      exact built.trans (broadcast_logs outcome.groupKey 0 _)

theorem onHandShake_logs {bytes : Bytes} (att : WsAttachment) (r : Relay) :
    Logs (WellFramed (Meant x env start (.message w (.binary bytes)))) r
      (r.onHandShake x env w att (bytes.drop headerSize)).2.2 := by
  unfold Relay.onHandShake
  cases greeted : (handleHandshake x (bytes.drop headerSize) r.global.networkDigestRegistry).1 with
  | none =>
    simp only [greeted]
    exact logs_same rfl
  | some outcome =>
    obtain ⟨req, digest, asked, same⟩ : ∃ req digest,
        x.decodeHandshakeRequest (bytes.drop headerSize) = some req ∧
          outcome = handshakeOutcome x req digest := by
      unfold handleHandshake at greeted
      cases decoded : x.decodeHandshakeRequest (bytes.drop headerSize) with
      | none => simp [decoded] at greeted
      | some req =>
        simp only [decoded] at greeted
        split at greeted
        · cases greeted
        · split at greeted
          · split at greeted
            · cases greeted
            · exact ⟨req, _, rfl, (Option.some.inj greeted).symm⟩
          · exact ⟨req, _, rfl, (Option.some.inj greeted).symm⟩
    simp only [greeted]
    rw [same]
    exact welcome_logs asked _ _

theorem dispatch_logs {bytes : Bytes} {header : PacketHeader}
    (parsed : parseHeader bytes = some header) :
    Logs (WellFramed (Meant x env r (.message w (.binary bytes)))) r
      (r.dispatch x env w (r.currentAttachment env w) header (bytes.drop headerSize)
        bytes).2.2 := by
  unfold Relay.dispatch
  split
  · exact onHandShake_logs _ r
  · exact logs_send (Or.inr ⟨_, _, _, Meant.pong parsed, createHeader_isFrame _ _ _⟩)
  · exact onRpcReq_logs header (bytes.drop headerSize) r
  · exact onRpcResp_logs _ header (bytes.drop headerSize) r
  · exact forward_logs header bytes r

theorem drop_logs : Logs (WellFramed (Meant x env start e)) r (r.dropConnection x env w) := by
  unfold Relay.dropConnection
  split
  · exact logs_same rfl
  · rename_i att attached
    split
    · exact logs_same rfl
    · split
      · exact logs_same rfl
      · exact broadcast_logs att.groupKey att.peerId _

theorem alarm_logs : Logs (WellFramed (Meant x env start e)) r (r.alarm x env) := by
  have swept : Logs (WellFramed (Meant x env start e)) r (cleaned env r) :=
    logs_same (by rw [cleaned_room]; rfl)
  rw [alarm_eq]
  exact swept.trans (logs_foldl (fun r groupKey => broadcast_logs groupKey 0 r) _ _)

theorem step_logs (x : Externals) (env : Env) (r : Relay) (e : RoomEvent) :
    Logs (WellFramed (Meant x env r e)) r (r.step x env e) := by
  cases e with
  | accept => exact logs_same rfl
  | message w message =>
    simp only [Relay.step]
    split
    · cases message with
      | text words => exact logs_same rfl
      | binary bytes =>
        cases parsed : parseHeader bytes with
        | none =>
          simp only [Relay.websocketMessage, parsed]
          exact logs_same rfl
        | some header =>
          rw [websocketMessage_eq x env r w parsed]
          exact (dispatch_logs parsed).trans (logs_same (writeBack_sent env w _))
    · exact logs_same rfl
  | close w =>
    simp only [Relay.step]
    split
    · exact (drop_logs (w := w)).trans (logs_same rfl)
    · exact logs_same rfl
  | error w =>
    simp only [Relay.step]
    split
    · exact (drop_logs (w := w)).trans (logs_same rfl)
    · exact logs_same rfl
  | alarm => exact alarm_logs
  | rehydrate => exact logs_same rfl
  | restart => exact logs_same rfl

end Event

/-- Headers and their bytes determine each other, and every frame that an event makes the relay
    originate parses to its sender, its target, its type and its length, with the payload next. -/
theorem framing_round_trips :
    (∀ (h : PacketHeader) (rest : Bytes), parseHeader (h.toBytes ++ rest) = some h) ∧
      (∀ b : Bytes, 16 ≤ b.length →
        ∃ h, parseHeader b = some h ∧ h.toBytes = b.take 16) ∧
      (∀ b : Bytes, parseHeader b = none ↔ b.length < 16) ∧
      (∀ (x : Externals) (target : PeerId) (type : PacketType) (payload : Bytes),
        ∃ frame, wrapPacket x myPeerId target type payload {} = some frame ∧
          IsFrame frame target type payload) ∧
      ∀ (x : Externals) (env : Env) (r : Relay) (e : RoomEvent),
        Logs (WellFramed (Meant x env r e)) r (r.step x env e) :=
  ⟨parseHeader_toBytes, fun _ long => parseHeader_long long, parseHeader_none_iff,
    wrapPacket_default, step_logs⟩

end RelayFraming
