import WsRelay.Framing
import WsRelay.Phases
import WsRelay.Liveness
import WsRelay.StaleCleanup
import WsRelay.CleanupAlarm
import WsRelay.Library.OutputRuns

/- What one event puts on the sockets. Route updates go to each socket at most once; everything
   else is what the message asks for, a reply to its sender or the frame itself passed on. -/
namespace RelayTraffic
open RelayProtocol RelayRouteState RelayPeerManager RelayRpcHandler RelayRoomModel RelayRouteOps
open RelayRoomSteps RelayForwarding RelayLiveness RelayChangeBroadcast RelayStaleCleanup
open RelayMembership RelayFraming RelayRoomMoves RelayPhases RelayCleanupAlarm RelayWireFormats
open TransitionRuns OutputRuns

def isRouteUpdate : Origin → Bool
  | .routeUpdate .. => true
  | _ => false

def toldSockets (log : List Sent) : List SocketId :=
  (log.filter fun entry => isRouteUpdate entry.origin).map (·.socket)

def others (log : List Sent) : List Sent := log.filter fun entry => !isRouteUpdate entry.origin

def otherFrames (log : List Sent) : Nat := log.countP fun entry => !isRouteUpdate entry.origin

structure Passed where
  source : SocketId
  target : SocketId
  frame : Bytes
  deriving DecidableEq, Repr

def passedOn (entry : Sent) : Option Passed :=
  match entry.origin with
  | .forwarded source => some ⟨source, entry.socket, entry.frame⟩
  | _ => none

/- What the log has gained: the sockets told about the routes, and the other entries. -/
structure Adds (sockets : List SocketId) (entries : List Sent) (r r' : Relay) : Prop where
  grows : r.room.sent <+: r'.room.sent
  told : toldSockets (sentSince r r') = sockets
  rest : others (sentSince r r') = entries

section Adds
variable {x : Externals} {env : Env} {r r' r'' : Relay} {w : SocketId}

theorem sentSince_same (same : r'.room.sent = r.room.sent) : sentSince r r' = [] := by
  simp [sentSince, same]

theorem sentSince_trans (first : r.room.sent <+: r'.room.sent)
    (second : r'.room.sent <+: r''.room.sent) :
    sentSince r r'' = sentSince r r' ++ sentSince r' r'' := by
  obtain ⟨added, sent⟩ := first
  obtain ⟨more, sentMore⟩ := second
  simp [sentSince, ← sent, ← sentMore]

theorem adds_same (same : r'.room.sent = r.room.sent) : Adds [] [] r r' := by
  have nothing := sentSince_same same
  refine ⟨by rw [same], ?_, ?_⟩
  · rw [nothing]
    rfl
  · rw [nothing]
    rfl

variable {sockets more : List SocketId} {entries entriesMore : List Sent}

theorem Adds.trans (first : Adds sockets entries r r') (second : Adds more entriesMore r' r'') :
    Adds (sockets ++ more) (entries ++ entriesMore) r r'' := by
  have both := sentSince_trans first.grows second.grows
  refine ⟨first.grows.trans second.grows, ?_, ?_⟩
  · rw [both, ← first.told, ← second.told]
    simp [toldSockets]
  · rw [both, ← first.rest, ← second.rest]
    simp [others]

theorem Adds.before (same : r'.room.sent = r.room.sent) (adds : Adds sockets entries r' r'') :
    Adds sockets entries r r'' := by
  have all := (adds_same same).trans adds
  simpa using all

theorem Adds.after (adds : Adds sockets entries r r') (same : r''.room.sent = r'.room.sent) :
    Adds sockets entries r r'' := by
  have all := adds.trans (adds_same same)
  simpa using all

theorem sentSince_send (frame : Bytes) (origin : Origin) :
    sentSince r (r.send env w frame origin).2 =
      [⟨w, frame, env.sendOk r.room.sent.length, origin⟩] := by
  simp [sentSince, Relay.send]

theorem send_grows (frame : Bytes) (origin : Origin) :
    r.room.sent <+: (r.send env w frame origin).2.room.sent :=
  List.prefix_append _ _

theorem adds_other {frame : Bytes} {origin : Origin} (other : isRouteUpdate origin = false) :
    Adds [] [⟨w, frame, env.sendOk r.room.sent.length, origin⟩] r
      (r.send env w frame origin).2 := by
  refine ⟨send_grows frame origin, ?_, ?_⟩
  · simp [sentSince_send, toldSockets, other]
  · simp [sentSince_send, others, other]

theorem adds_update {frame : Bytes} {origin : Origin} (update : isRouteUpdate origin = true) :
    Adds [w] [] r (r.send env w frame origin).2 := by
  refine ⟨send_grows frame origin, ?_, ?_⟩
  · simp [sentSince_send, toldSockets, update]
  · simp [sentSince_send, others, update]

def hears (groupKey : GroupKey) (excludePeerId : PeerId) (s : Socket) : Bool :=
  s.attachment.any fun att => att.peerId != excludePeerId && att.groupKey == groupKey

def listeners (room : RelayRoom) (groupKey : GroupKey) (excludePeerId : PeerId) : List SocketId :=
  (room.sockets.filter (hears groupKey excludePeerId)).map (·.id)

theorem broadcastTo_adds (x : Externals) (env : Env) (groupKey : GroupKey)
    (excludePeerId : PeerId) (s : Socket) (r : Relay) :
    Adds (if hears groupKey excludePeerId s then [s.id] else []) [] r
      (broadcastTo x env groupKey excludePeerId r s) := by
  unfold broadcastTo hears
  cases s.attachment with
  | none => exact adds_same rfl
  | some att =>
    by_cases excluded : att.peerId = excludePeerId
    · simp only [excluded, ↓reduceIte, Option.any_some, bne_self_eq_false, Bool.false_and]
      exact adds_same rfl
    · by_cases member : att.groupKey = groupKey
      · simp only [excluded, member, not_true, ↓reduceIte, Option.any_some, beq_self_eq_true,
          Bool.and_true, bne_iff_ne, ne_eq, not_false_eq_true]
        have built : (r.buildFor x env att att.peerId).2.room.sent = r.room.sent := rfl
        exact Adds.before built (adds_update rfl)
      · simp only [excluded, member, not_false_eq_true, ↓reduceIte, Option.any_some, ne_eq,
          beq_eq_false_iff_ne.mpr member, Bool.and_false]
        exact adds_same rfl

theorem turns_adds (x : Externals) (env : Env) (groupKey : GroupKey) (excludePeerId : PeerId)
    (sockets : List Socket) (r : Relay) :
    Adds ((sockets.filter (hears groupKey excludePeerId)).map (·.id)) [] r
      (sockets.foldl (broadcastTo x env groupKey excludePeerId) r) := by
  induction sockets generalizing r with
  | nil => exact adds_same rfl
  | cons s rest ih =>
    have all := (broadcastTo_adds x env groupKey excludePeerId s r).trans
      (ih (broadcastTo x env groupKey excludePeerId r s))
    cases heard : hears groupKey excludePeerId s with
    | false =>
      rw [List.filter_cons_of_neg (by simp [heard])]
      simpa [heard] using all
    | true =>
      rw [List.filter_cons_of_pos heard]
      simpa [heard] using all

theorem broadcast_adds (x : Externals) (env : Env) (groupKey : GroupKey) (excludePeerId : PeerId)
    (r : Relay) :
    Adds (listeners r.room groupKey excludePeerId) [] r
      (r.broadcastRouteUpdate x env groupKey excludePeerId) :=
  turns_adds x env groupKey excludePeerId r.room.sockets r

theorem listeners_congr {room room' : RelayRoom} (same : room'.sockets = room.sockets)
    (groupKey : GroupKey) (excludePeerId : PeerId) :
    listeners room' groupKey excludePeerId = listeners room groupKey excludePeerId := by
  rw [listeners, same, listeners]

theorem mem_listeners {room : RelayRoom} {groupKey : GroupKey} {excludePeerId : PeerId} :
    w ∈ listeners room groupKey excludePeerId ↔
      ∃ att, room.attachment w = some att ∧ att.peerId ≠ excludePeerId ∧
        att.groupKey = groupKey := by
  simp only [listeners, List.mem_map, List.mem_filter]
  constructor
  · rintro ⟨s, ⟨listed, heard⟩, rfl⟩
    cases attached : s.attachment with
    | none => simp [hears, attached] at heard
    | some att =>
      refine ⟨att, by rw [attachment_of_mem listed, attached], ?_⟩
      simpa [hears, attached] using heard
  · rintro ⟨att, attached, others, member⟩
    obtain ⟨s, listed, rfl, carries⟩ := mem_of_attachment attached
    exact ⟨s, ⟨listed, by simp [hears, carries, others, member]⟩, rfl⟩

theorem listeners_nodup (room : RelayRoom) (groupKey : GroupKey) (excludePeerId : PeerId) :
    (listeners room groupKey excludePeerId).Nodup :=
  room.ids.distinct.sublist (List.filter_sublist.map _)

/- The request that a local RpcReq carries, if it is answered. -/
def answered (x : Externals) (payload : Bytes) : Option RpcPacket :=
  (x.decodeRpcPacket payload).filter fun _ => decide (0 < answerFrames x payload)

inductive Due where
  | welcome (outcome : HandshakeOutcome)
  | pong (fromPeerId : PeerId) (payload : Bytes)
  | response (asker : PeerId) (request : RpcPacket)
  | pass (source : SocketId) (frame : Bytes)

/- The reply for the sender of a packet that is not passed on. -/
def reply (x : Externals) (env : Env) (r : Relay) (w : SocketId) (header : PacketHeader)
    (payload : Bytes) : Option Due :=
  let att := r.currentAttachment env w
  match header.packetTypeEnum with
  | .handShake =>
    ((handleHandshake x payload r.global.networkDigestRegistry).1.filter fun outcome =>
      env.attachOk (attachOutcome att outcome)).map .welcome
  | .ping => some (.pong header.fromPeerId payload)
  | .rpcReq => (answered x payload).map (.response att.peerId)
  | _ => none

/-- What is due for an event, and the socket it is due on: the frame itself for the socket of its
    target, or a reply for its sender. -/
def dues (x : Externals) (env : Env) (r : Relay) : RoomEvent → List (SocketId × Due)
  | .message w (.binary frame) =>
    match parseHeader frame with
    | some header =>
      if r.room.isOpen w = false then []
      else if forwarded header then
        ((delivery r.room w header.toPeerId).map fun target =>
          (target.id, Due.pass w frame)).toList
      else ((reply x env r w header (frame.drop headerSize)).map fun due => (w, due)).toList
    | none => []
  | _ => []

structure AnswerTo (request : RpcPacket) (asker : PeerId) (answer : RpcPacket) : Prop where
  fromRelay : answer.fromPeer = myPeerId
  toAsker : answer.toPeer = asker
  response : answer.isRequest = false
  transaction : answer.transactionId = request.transactionId
  service : answer.descriptor = request.descriptor
  trace : answer.traceId = request.traceId

inductive Pays (x : Externals) : SocketId × Due → Sent → Prop
  | welcome {w : SocketId} {outcome : HandshakeOutcome} {ok : Bool} :
      Pays x (w, .welcome outcome) ⟨w, outcome.responseBytes, ok, .handshakeResponse⟩
  | pong {w : SocketId} {p : PeerId} {payload : Bytes} {ok : Bool} :
      Pays x (w, .pong p payload) ⟨w, handlePing p payload, ok, .pong⟩
  | response {w : SocketId} {asker : PeerId} {request : RpcPacket} {frame : Bytes} {ok : Bool}
      (answer : RpcPacket) (answers : AnswerTo request asker answer)
      (framed : IsFrame frame asker .rpcResp (x.encodeRpcPacket answer)) :
      Pays x (w, .response asker request) ⟨w, frame, ok, .rpcResp⟩
  | pass {target source : SocketId} {frame : Bytes} {ok : Bool} :
      Pays x (target, .pass source frame) ⟨target, frame, ok, .forwarded source⟩

/- Each open socket is told at most once, and the other frames pay what is due. -/
def Speaks (x : Externals) (due : List (SocketId × Due)) (r r' : Relay) : Prop :=
  ∃ sockets entries, Adds sockets entries r r' ∧ sockets.Nodup ∧
    (∀ v ∈ sockets, r.room.isOpen v = true) ∧ List.Forall₂ (Pays x) due entries

theorem speaks_reply {due : List (SocketId × Due)} (adds : Adds [] entries r r')
    (paid : List.Forall₂ (Pays x) due entries) : Speaks x due r r' :=
  ⟨[], entries, adds, by simp, by simp, paid⟩

theorem speaks_same (same : r'.room.sent = r.room.sent) : Speaks x [] r r' :=
  speaks_reply (adds_same same) .nil

theorem Speaks.before {due : List (SocketId × Due)} (same : r'.room = r.room)
    (speaks : Speaks x due r' r'') : Speaks x due r r'' := by
  obtain ⟨told, entries, adds, once, opened, paid⟩ := speaks
  rw [same] at opened
  exact ⟨told, entries, adds.before (by rw [same]), once, opened, paid⟩

theorem isOpen_listeners {room : RelayRoom} {groupKey : GroupKey} {excludePeerId : PeerId}
    (hearing : w ∈ listeners room groupKey excludePeerId) : room.isOpen w = true := by
  obtain ⟨s, inside, rfl⟩ := List.mem_map.mp hearing
  exact List.any_eq_true.mpr ⟨s, List.mem_of_mem_filter inside, by simp⟩

theorem broadcast_speaks (x : Externals) (env : Env) (groupKey : GroupKey)
    (excludePeerId : PeerId) (r : Relay) :
    Speaks x [] r (r.broadcastRouteUpdate x env groupKey excludePeerId) :=
  ⟨_, [], broadcast_adds x env groupKey excludePeerId r, listeners_nodup _ _ _,
    fun _ hearing => isOpen_listeners hearing, .nil⟩

theorem forward_adds (x : Externals) (env : Env) (w : SocketId) (header : PacketHeader)
    (frame : Bytes) (r : Relay) :
    ∃ entries, Adds [] entries r (r.forwardMessage env w header frame).2 ∧
      List.Forall₂ (Pays x) ((delivery r.room w header.toPeerId).map fun target =>
        (target.id, Due.pass w frame)).toList entries := by
  have sent := sentSince_forwardMessage env r w header frame
  have grows : r.room.sent <+: (r.forwardMessage env w header frame).2.room.sent := by
    have logs : Logs (WellFramed (Meant x env r .alarm)) r
        (r.forwardMessage env w header frame).2 := forward_logs header frame r
    obtain ⟨added, log, -⟩ := logs
    exact ⟨added, log.symm⟩
  refine ⟨_, ⟨grows, ?_, rfl⟩, ?_⟩
  · rw [sent]
    cases delivery r.room w header.toPeerId with
    | none => rfl
    | some target => rfl
  · rw [sent]
    cases delivery r.room w header.toPeerId with
    | none => exact .nil
    | some target => exact .cons .pass .nil

theorem first_action (a : Ambient) (ctx : WsPeerContext) (pm : PeerManager)
    (centers : PeerCenterMap) {payload : Bytes} {packet : RpcPacket}
    (decoded : x.decodeRpcPacket payload = some packet) :
    let actions := (handleRpcReq x a ctx pm centers payload).actions
    actions = [] ∨ ∃ body rest,
      actions = .sendTo ctx.peerId (buildRpcResponseBytes x packet body ctx.peerId) :: rest := by
  intro actions
  have dispatched : actions = (dispatchRpcReq x a ctx pm centers packet).actions := by
    simp only [actions, handleRpcReq, decoded]
  rw [dispatched]
  unfold dispatchRpcReq
  simp only
  split
  · obtain ⟨answer, shape⟩ : ∃ answer : Option Bytes,
        (handlePeerCenterRpc x a ctx centers packet (innerRequestBody x packet)).1 =
          (answer.map fun body => RpcAction.sendTo ctx.peerId
            (buildRpcResponseBytes x packet body ctx.peerId)).toList := ⟨_, rfl⟩
    simp only [shape]
    cases answer with
    | none => exact Or.inl rfl
    | some body => exact Or.inr ⟨body, [], rfl⟩
  · split
    · split
      · cases readable : x.decodeSyncRouteInfoRequest (innerRequestBody x packet) with
        | none =>
          left
          exact handleSyncRouteInfo_silent readable packet
        | some req =>
          right
          exact ⟨_, _, handleSyncRouteInfo_actions x a ctx pm readable packet⟩
      · exact Or.inl rfl
    · exact Or.inl rfl

inductive Actions (x : Externals) (ctx : WsPeerContext) : Option RpcPacket → List RpcAction → Prop
  | silent : Actions x ctx none []
  | answer (request : RpcPacket) (body : Bytes) : Actions x ctx (some request)
      [.sendTo ctx.peerId (buildRpcResponseBytes x request body ctx.peerId)]
  | sync (request : RpcPacket) (body : Bytes) (tells : Bool) : Actions x ctx (some request)
      (.sendTo ctx.peerId (buildRpcResponseBytes x request body ctx.peerId) ::
        .pushRouteUpdate ctx.peerId ctx.groupKey ::
          if tells then [.broadcastRouteUpdate ctx.groupKey ctx.peerId] else [])

theorem request_actions (a : Ambient) (ctx : WsPeerContext) (pm : PeerManager)
    (centers : PeerCenterMap) (payload : Bytes) :
    Actions x ctx (answered x payload) (handleRpcReq x a ctx pm centers payload).actions := by
  cases decoded : x.decodeRpcPacket payload with
  | none =>
    simp only [answered, handleRpcReq, decoded, Option.filter_none]
    exact .silent
  | some packet =>
    have first := first_action a ctx pm centers decoded
    cases named : syncBody x payload with
    | none =>
      obtain ⟨bytes, shape⟩ := handleRpcReq_center a ctx pm centers named
      cases answers : centerAnswers x payload with
      | false =>
        have silent : answered x payload = none := by
          simp [answered, decoded, answerFrames, named, answers]
        rw [silent, shape, answers]
        exact .silent
      | true =>
        have loud : answered x payload = some packet := by
          simp [answered, decoded, answerFrames, named, answers, Option.filter]
        rw [shape, answers] at first
        rcases first with nothing | ⟨body, rest, whole⟩
        · simp at nothing
        · rw [loud, shape, answers, whole]
          obtain ⟨-, rfl⟩ := List.cons.inj whole
          exact .answer packet body
    | some body =>
      obtain ⟨packet', shape, -⟩ := handleRpcReq_sync x a ctx pm named centers
      cases readable : x.decodeSyncRouteInfoRequest body with
      | none =>
        have silent : answered x payload = none := by
          simp [answered, decoded, answerFrames, named, readable]
        rw [silent, shape, handleSyncRouteInfo_silent readable]
        exact .silent
      | some req =>
        have loud : answered x payload = some packet := by
          simp [answered, decoded, answerFrames, named, readable, Option.filter]
        rw [handleSyncRouteInfo_actions x a ctx pm readable packet'] at shape
        rw [shape] at first
        rcases first with nothing | ⟨answer, rest, whole⟩
        · simp at nothing
        · rw [loud, shape, whole]
          obtain ⟨-, rfl⟩ := List.cons.inj whole
          exact .sync packet answer _

theorem response_adds (x : Externals) (env : Env) (w : SocketId) (att : WsAttachment)
    (request : RpcPacket) (body : Bytes) (p : PeerId) (r : Relay) :
    ∃ entry, Adds [] [entry] r (r.runAction x env w att
        (.sendTo p (buildRpcResponseBytes x request body att.peerId))).2 ∧
      Pays x (w, .response att.peerId request) entry := by
  obtain ⟨frame, wrapped, framed⟩ := wrapPacket_default x att.peerId .rpcResp
    (buildRpcResponseBytes x request body att.peerId)
  have sent : r.runAction x env w att
      (.sendTo p (buildRpcResponseBytes x request body att.peerId)) =
        r.send env w frame .rpcResp := by
    simp only [Relay.runAction, wrapped]
  rw [sent]
  refine ⟨_, adds_other rfl, .response _ ?_ framed⟩
  exact ⟨rfl, rfl, rfl, rfl, rfl, rfl⟩

theorem push_adds (x : Externals) (env : Env) (w : SocketId) (att : WsAttachment) (p : PeerId)
    (groupKey : GroupKey) (r : Relay) :
    Adds [w] [] r (r.runAction x env w att (.pushRouteUpdate p groupKey)).2 := by
  have built : (r.buildFor x env att p).2.room.sent = r.room.sent := rfl
  exact Adds.before built (adds_update rfl)

/- The peer that asks is excluded from the broadcast, whatever group its socket is in. -/
theorem asker_not_told {room : RelayRoom} {groupKey : GroupKey} {p : PeerId}
    (own : ∀ stored, room.attachment w = some stored → stored.peerId = p) :
    w ∉ listeners room groupKey p := by
  intro hearing
  obtain ⟨stored, attached, other, -⟩ := mem_listeners.mp hearing
  exact other (own stored attached)

theorem request_speaks (x : Externals) (env : Env) {att : WsAttachment} {ctx : WsPeerContext}
    {request : Option RpcPacket} {actions : List RpcAction} (shape : Actions x ctx request actions)
    (same : ctx.peerId = att.peerId) (isOpen : r.room.isOpen w = true)
    (own : ∀ stored, r.room.attachment w = some stored → stored.peerId = att.peerId) :
    Speaks x (request.map fun packet => (w, Due.response att.peerId packet)).toList r
      (Relay.runActions x env w att actions r).2 := by
  cases shape with
  | silent => exact speaks_same rfl
  | answer request body =>
    rw [same, runActions_snd]
    obtain ⟨entry, added, pays⟩ := response_adds x env w att request body att.peerId r
    split
    · exact speaks_reply added (.cons pays .nil)
    · exact speaks_reply added (.cons pays .nil)
  | sync request body tells =>
    rw [same, runActions_snd]
    obtain ⟨entry, added, pays⟩ := response_adds x env w att request body att.peerId r
    set r₁ := (r.runAction x env w att
      (.sendTo att.peerId (buildRpcResponseBytes x request body att.peerId))).2 with first
    split
    · rw [runActions_snd]
      have pushed := push_adds x env w att att.peerId ctx.groupKey r₁
      set r₂ := (r₁.runAction x env w att (.pushRouteUpdate att.peerId ctx.groupKey)).2 with second
      have both : Adds [w] [entry] r r₂ := added.trans pushed
      have self : Speaks x [(w, Due.response att.peerId request)] r r₂ := by
        refine ⟨[w], [entry], both, by simp, ?_, .cons pays .nil⟩
        intro v here
        rw [List.mem_singleton.mp here]
        exact isOpen
      split
      · cases tells with
        | false => exact self
        | true =>
          have room : r₂.room.sockets = r.room.sockets := by
            rw [second, (runAction_quiet x env r₁ w att _).sockets, first,
              (runAction_quiet x env r w att _).sockets]
          have broadcast := broadcast_adds x env ctx.groupKey att.peerId r₂
          rw [listeners_congr room] at broadcast
          refine ⟨_, _, both.trans broadcast, ?_, ?_, .cons pays .nil⟩
          · have absent : w ∉ listeners r.room ctx.groupKey att.peerId := asker_not_told own
            simp [absent, listeners_nodup]
          · intro v here
            rcases List.mem_append.mp here with itself | hearing
            · rw [List.mem_singleton.mp itself]
              exact isOpen
            · exact isOpen_listeners hearing
      · exact self
    · exact speaks_reply added (.cons pays .nil)

theorem onRpcReq_speaks (x : Externals) (env : Env) (isOpen : r.room.isOpen w = true)
    {header : PacketHeader} (here : handledLocally header = true) (payload frame : Bytes) :
    Speaks x ((answered x payload).map fun packet =>
        (w, Due.response (r.currentAttachment env w).peerId packet)).toList r
      (r.onRpcReq x env w (r.currentAttachment env w) header payload frame).2 := by
  set att := r.currentAttachment env w with current
  simp only [Relay.onRpcReq, here, ↓reduceIte]
  set a := env.ambient att.groupKey r.room.sent.length
  set ctx := attachmentToCtx a.randomU64 att
  have shape : Actions x ctx (answered x payload) (handleRpcReq x a ctx r.global.peerManager
    r.global.peerCenterMap payload).actions := request_actions a ctx _ _ payload
  have own (stored : WsAttachment) (attached : r.room.attachment w = some stored) :
      stored.peerId = att.peerId := by
    simp [current, Relay.currentAttachment, attached]
  have spoken : Speaks x _ (r.handleRpcReqLocally x env att payload).2 _ :=
    request_speaks x env shape rfl isOpen own
  have room : (r.handleRpcReqLocally x env att payload).2.room = r.room := rfl
  exact spoken.before room

theorem welcome_speaks (att : WsAttachment) (outcome : HandshakeOutcome) :
    Speaks x (((some outcome).filter fun _ => env.attachOk att).map fun outcome =>
        (w, Due.welcome outcome)).toList r (r.welcome x env w att outcome).2 := by
  unfold Relay.welcome Relay.serializeAttachment
  cases written : env.attachOk att with
  | false => exact speaks_same rfl
  | true =>
    simp only [↓reduceIte]
    set registered := Relay.registerPeer x env { r with room := r.room.attach w att }
      outcome.groupKey outcome.peerId with seated
    have before : registered.room.sent = r.room.sent := rfl
    set entry : Sent := ⟨w, outcome.responseBytes, env.sendOk registered.room.sent.length,
      .handshakeResponse⟩
    have replied : Adds [] [entry] r
        (registered.send env w outcome.responseBytes .handshakeResponse).2 :=
      Adds.before before (adds_other rfl)
    have paid : List.Forall₂ (Pays x) [(w, Due.welcome outcome)] [entry] := .cons .welcome .nil
    split
    · rename_i state sent
      rw [sent] at replied
      exact speaks_reply replied paid
    · rename_i state sent
      rw [sent] at replied
      have built : (state.buildFor x env att att.peerId).2.room.sent = state.room.sent := rfl
      have broadcast := broadcast_adds x env outcome.groupKey 0
        (state.buildFor x env att att.peerId).2
      refine ⟨_, _, (replied.after built).trans broadcast, listeners_nodup _ _ _, ?_, paid⟩
      intro v hearing
      have room : state.room.sockets = (r.room.attach w att).sockets := by
        have after := congrArg (fun out : Bool × Relay => out.2.room.sockets) sent
        exact after.symm
      have opened : state.room.isOpen v = true := isOpen_listeners hearing
      rw [RelayRoom.isOpen, room] at opened
      exact (isOpen_attach r.room w v att).symm.trans opened

theorem onHandShake_speaks (x : Externals) (env : Env) (r : Relay) (w : SocketId)
    (payload : Bytes) :
    Speaks x (((handleHandshake x payload r.global.networkDigestRegistry).1.filter fun outcome =>
        env.attachOk (attachOutcome (r.currentAttachment env w) outcome)).map fun outcome =>
          (w, Due.welcome outcome)).toList r
      (r.onHandShake x env w (r.currentAttachment env w) payload).2.2 := by
  simp only [Relay.onHandShake]
  cases handleHandshake x payload r.global.networkDigestRegistry with
  | mk outcome registry =>
    cases outcome with
    | none =>
      have refused : Adds [] [] r { r with
          room := { r.room with closing := r.room.closing ++ [w] }
          global := { r.global with networkDigestRegistry := registry } } := adds_same rfl
      exact speaks_reply refused .nil
    | some outcome =>
      have room : ({ r with global := { r.global with networkDigestRegistry := registry } } :
          Relay).room = r.room := rfl
      exact Speaks.before room (welcome_speaks _ outcome)

theorem drop_speaks (x : Externals) (env : Env) (r : Relay) (w : SocketId) :
    Speaks x [] r (r.dropConnection x env w) := by
  by_cases leaves : ∃ att, LastConnection r w att
  · obtain ⟨att, last⟩ := leaves
    rw [dropConnection_last x env last]
    have room : (r.withManager ⟨RouteState.call x (routes r) (removeCall env att)⟩).room =
        r.room := rfl
    exact Speaks.before room (broadcast_speaks x env att.groupKey att.peerId _)
  · rw [dropConnection_idle x env fun att last => leaves ⟨att, last⟩]
    exact speaks_same rfl

theorem groups_adds (x : Externals) (env : Env) (groupKeys : List GroupKey) (r : Relay) :
    Adds (groupKeys.flatMap fun key => listeners r.room key 0) [] r
      (groupKeys.foldl (fun r groupKey => r.broadcastRouteUpdate x env groupKey 0) r) := by
  induction groupKeys generalizing r with
  | nil => exact adds_same rfl
  | cons groupKey rest ih =>
    have first := broadcast_adds x env groupKey 0 r
    have later := ih (r.broadcastRouteUpdate x env groupKey 0)
    have room := (broadcast_quiet x env r groupKey 0).sockets
    simp only [listeners_congr room] at later
    exact first.trans later

/- A socket is in one group, so the broadcasts of an alarm share nobody. -/
theorem groups_nodup {groupKeys : List GroupKey} (distinct : groupKeys.Nodup) (room : RelayRoom) :
    (groupKeys.flatMap fun key => listeners room key 0).Nodup := by
  rw [List.nodup_flatMap]
  refine ⟨fun key _ => listeners_nodup room key 0, distinct.imp ?_⟩
  intro key key' different v first second
  obtain ⟨att, attached, -, member⟩ := mem_listeners.mp first
  obtain ⟨att', attached', -, member'⟩ := mem_listeners.mp second
  obtain rfl := Option.some.inj (attached.symm.trans attached')
  exact different (member.symm.trans member')

theorem alarm_speaks (x : Externals) (env : Env) (r : Relay) : Speaks x [] r (r.alarm x env) := by
  have room := cleaned_room env r
  have sent : (cleaned env r).room.sent = r.room.sent := by
    rw [room]
    rfl
  have sockets : (cleaned env r).room.sockets = r.room.sockets := by
    rw [room]
    rfl
  have adds := groups_adds x env (scannedGroups env r) (cleaned env r)
  simp only [listeners_congr sockets] at adds
  rw [alarm_eq]
  refine ⟨_, [], adds.before sent, groups_nodup (scannedGroups_nodup env r) r.room, ?_, .nil⟩
  intro v told
  obtain ⟨key, -, hearing⟩ := List.mem_flatMap.mp told
  exact isOpen_listeners hearing

end Adds

def asks : RoomEvent → Bool
  | .message _ (.binary _) => true
  | _ => false

/- Handshakes, local requests, closes, errors and alarms: what makes the relay tell anybody. -/
def tells : RoomEvent → Bool
  | .message _ (.binary frame) =>
    (parseHeader frame).any fun header => decide (header.packetTypeEnum = .handShake) ||
      (decide (header.packetTypeEnum = .rpcReq) && handledLocally header)
  | .close _ | .error _ | .alarm => true
  | _ => false

/-- The data plane: the frame of this event that is to be passed on, and where to. -/
def switched (r : Relay) : RoomEvent → List Passed
  | .message w (.binary frame) =>
    match parseHeader frame with
    | some header =>
      if r.room.isOpen w = true ∧ forwarded header = true then
        ((delivery r.room w header.toPeerId).map fun target => Passed.mk w target.id frame).toList
      else []
    | none => []
  | _ => []

structure Traffic (x : Externals) (env : Env) (r : Relay) (e : RoomEvent) (r' : Relay) : Prop where
  grows : r.room.sent <+: r'.room.sent
  once : (toldSockets (sentSince r r')).Nodup
  opened : ∀ v ∈ toldSockets (sentSince r r'), r.room.isOpen v = true
  silent : tells e = false → toldSockets (sentSince r r') = []
  paid : List.Forall₂ (Pays x) (dues x env r e) (others (sentSince r r'))

section Step
variable {x : Externals} {env : Env} {r r' : Relay} {w : SocketId} {e : RoomEvent}

theorem Speaks.traffic (speaks : Speaks x (dues x env r e) r r') (telling : tells e = true) :
    Traffic x env r e r' := by
  obtain ⟨sockets, entries, adds, once, opened, paid⟩ := speaks
  refine ⟨adds.grows, ?_, ?_, ?_, ?_⟩
  · rw [adds.told]
    exact once
  · rw [adds.told]
    exact opened
  · simp [telling]
  · rw [adds.rest]
    exact paid

theorem Adds.traffic {entries : List Sent} (adds : Adds [] entries r r')
    (paid : List.Forall₂ (Pays x) (dues x env r e) entries) : Traffic x env r e r' := by
  refine ⟨adds.grows, ?_, ?_, ?_, ?_⟩
  · simp [adds.told]
  · simp [adds.told]
  · intro _
    exact adds.told
  · rw [adds.rest]
    exact paid

theorem Traffic.after {r'' : Relay} (traffic : Traffic x env r e r')
    (same : r''.room.sent = r'.room.sent) : Traffic x env r e r'' := by
  have log : sentSince r r'' = sentSince r r' := by rw [sentSince, same, sentSince]
  obtain ⟨grows, once, opened, silent, paid⟩ := traffic
  refine ⟨by rwa [same], ?_, ?_, ?_, ?_⟩
  all_goals rwa [log]

theorem idle_traffic (same : r'.room.sent = r.room.sent) (nothing : dues x env r e = []) :
    Traffic x env r e r' :=
  (adds_same same).traffic (by rw [nothing]; exact .nil)

theorem dispatch_traffic (isOpen : r.room.isOpen w = true) {frame : Bytes} {header : PacketHeader}
    (parsed : parseHeader frame = some header) :
    Traffic x env r (.message w (.binary frame))
      (r.dispatch x env w (r.currentAttachment env w) header (frame.drop headerSize)
        frame).2.2 := by
  by_cases passes : forwarded header = true
  · have all : dues x env r (.message w (.binary frame)) =
        ((delivery r.room w header.toPeerId).map fun target =>
          (target.id, Due.pass w frame)).toList := by
      simp [dues, parsed, isOpen, passes]
    obtain ⟨entries, adds, paid⟩ := forward_adds x env w header frame r
    rw [dispatch_forwarded x env r w _ (frame.drop headerSize) frame passes]
    rw [← all] at paid
    exact adds.traffic paid
  · have all : dues x env r (.message w (.binary frame)) =
        ((reply x env r w header (frame.drop headerSize)).map fun due => (w, due)).toList := by
      simp [dues, parsed, isOpen, passes]
    unfold Relay.dispatch
    unfold forwarded at passes
    unfold reply at all
    cases kind : header.packetTypeEnum with
    | handShake =>
      have telling : tells (.message w (.binary frame)) = true := by simp [tells, parsed, kind]
      have spoken := onHandShake_speaks x env r w (frame.drop headerSize)
      simp only [kind, Option.map_map, Function.comp_def] at all
      rw [← all] at spoken
      exact spoken.traffic telling
    | ping =>
      have replied : Adds [] _ r
          (r.send env w (handlePing header.fromPeerId (frame.drop headerSize)) .pong).2 :=
        adds_other rfl
      simp only [kind, Option.map_some, Option.toList_some] at all
      refine replied.traffic ?_
      rw [all]
      exact .cons .pong .nil
    | rpcReq =>
      have here : handledLocally header = true := by simpa [kind] using passes
      have telling : tells (.message w (.binary frame)) = true := by
        simp [tells, parsed, kind, here]
      have spoken := onRpcReq_speaks x env isOpen here (frame.drop headerSize) frame
      simp only [kind, Option.map_map, Function.comp_def] at all
      rw [← all] at spoken
      exact spoken.traffic telling
    | rpcResp =>
      have here : handledLocally header = true := by simpa [kind] using passes
      refine idle_traffic ?_ (by simpa [kind] using all)
      simp only [Relay.onRpcResp, here, ↓reduceIte]
      rfl
    | _ => simp [kind] at passes

theorem message_traffic (isOpen : r.room.isOpen w = true) (message : IncomingMessage) :
    Traffic x env r (.message w message) (r.websocketMessage x env w message) := by
  cases message with
  | text body => exact idle_traffic rfl rfl
  | binary frame =>
    cases parsed : parseHeader frame with
    | none =>
      refine idle_traffic ?_ (by simp [dues, parsed])
      simp only [Relay.websocketMessage, parsed]
    | some header =>
      rw [websocketMessage_eq x env r w parsed]
      exact (dispatch_traffic isOpen parsed).after (writeBack_sent env w _)

/-- What one event puts on the sockets, whatever the event, the state and the environment. -/
theorem step_traffic (x : Externals) (env : Env) (r : Relay) (e : RoomEvent) :
    Traffic x env r e (r.step x env e) := by
  cases e with
  | accept => exact idle_traffic rfl rfl
  | message w message =>
    by_cases isOpen : r.room.isOpen w = true
    · simp only [Relay.step, isOpen, ↓reduceIte]
      exact message_traffic isOpen message
    · simp only [Relay.step, isOpen]
      refine idle_traffic rfl ?_
      cases message with
      | text body => rfl
      | binary frame =>
        cases parsed : parseHeader frame with
        | none => simp [dues, parsed]
        | some header => simp [dues, parsed, isOpen]
  | close w =>
    simp only [Relay.step]
    split
    · have dropped : Traffic x env r (.close w) (r.dropConnection x env w) :=
        Speaks.traffic (drop_speaks x env r w) rfl
      exact dropped.after rfl
    · exact idle_traffic rfl rfl
  | error w =>
    simp only [Relay.step]
    split
    · have dropped : Traffic x env r (.error w) (r.dropConnection x env w) :=
        Speaks.traffic (drop_speaks x env r w) rfl
      exact dropped.after rfl
    · exact idle_traffic rfl rfl
  | alarm => exact Speaks.traffic (alarm_speaks x env r) rfl
  | rehydrate => exact idle_traffic rfl rfl
  | restart => exact idle_traffic rfl rfl

theorem dues_length (x : Externals) (env : Env) (r : Relay) (e : RoomEvent) :
    (dues x env r e).length ≤ if asks e then 1 else 0 := by
  cases e with
  | message w message =>
    cases message with
    | text body => exact Nat.le_refl 0
    | binary frame =>
      simp only [dues, asks, ↓reduceIte]
      cases parseHeader frame with
      | none => simp
      | some header =>
        simp only
        split
        · simp
        · split
          · exact Option.length_toList_le
          · exact Option.length_toList_le
  | _ => exact Nat.zero_le _

theorem Traffic.single (traffic : Traffic x env r e r') :
    otherFrames (sentSince r r') ≤ if asks e then 1 else 0 := by
  have paid := traffic.paid.length_eq
  have due := dues_length x env r e
  rw [paid] at due
  simpa [otherFrames, others, List.countP_eq_length_filter] using due

theorem Traffic.other_unique (traffic : Traffic x env r e r') {entry entry' : Sent}
    (first : entry ∈ others (sentSince r r')) (second : entry' ∈ others (sentSince r r')) :
    entry = entry' := by
  have short : (others (sentSince r r')).length ≤ 1 := by
    have single := traffic.single
    rw [otherFrames, List.countP_eq_length_filter] at single
    exact single.trans (by split <;> omega)
  cases listed : others (sentSince r r') with
  | nil => simp [listed] at first
  | cons only rest =>
    have empty : rest = [] := by
      rw [listed, List.length_cons] at short
      exact List.eq_nil_of_length_eq_zero (by omega)
    rw [listed, empty] at first second
    rw [List.mem_singleton.mp first, List.mem_singleton.mp second]

theorem dues_response {asker : PeerId} {request : RpcPacket}
    (due : (w, Due.response asker request) ∈ dues x env r e) :
    ∃ bytes header, e = .message w (.binary bytes) ∧ r.room.isOpen w = true ∧
      parseHeader bytes = some header ∧ header.packetTypeEnum = .rpcReq ∧
      handledLocally header = true ∧ answered x (bytes.drop headerSize) = some request ∧
      asker = (seatAt r w).peerId := by
  cases e with
  | message v message =>
    cases message with
    | text body => simp [dues] at due
    | binary bytes =>
      cases parsed : parseHeader bytes with
      | none => simp [dues, parsed] at due
      | some header =>
        simp only [dues, parsed] at due
        by_cases closed : r.room.isOpen v = false
        · simp [closed] at due
        · by_cases passes : forwarded header = true
          · simp [closed, passes] at due
          · simp only [closed, passes, Bool.true_eq_false, Bool.false_eq_true, ↓reduceIte,
              Option.mem_toList, Option.map_eq_some_iff, Prod.mk.injEq] at due
            obtain ⟨due, replied, rfl, rfl⟩ := due
            unfold reply at replied
            cases kind : header.packetTypeEnum with
            | rpcReq =>
              simp only [kind, Option.map_eq_some_iff, Due.response.injEq] at replied
              obtain ⟨packet, answers, rfl, rfl⟩ := replied
              have here : handledLocally header = true := by simpa [forwarded, kind] using passes
              exact ⟨bytes, header, rfl, by simpa using closed, parsed, kind, here, answers, rfl⟩
            | _ => simp [kind] at replied
  | _ => simp [dues] at due

theorem paid_for {due : List (SocketId × Due)} {entries : List Sent} {entry : Sent}
    (paid : List.Forall₂ (Pays x) due entries) (listed : entry ∈ entries) :
    ∃ d ∈ due, Pays x d entry := by
  induction paid with
  | nil => simp at listed
  | cons pays _ ih =>
    rcases List.mem_cons.mp listed with rfl | later
    · exact ⟨_, List.mem_cons_self, pays⟩
    · obtain ⟨d, isDue, paysLater⟩ := ih later
      exact ⟨d, List.mem_cons_of_mem _ isDue, paysLater⟩

theorem passedOn_others (log : List Sent) :
    log.filterMap passedOn = (others log).filterMap passedOn := by
  rw [others, List.filterMap_filter]
  congr 1
  funext entry
  obtain ⟨w, frame, ok, origin⟩ := entry
  cases origin with
  | routeUpdate key p req topology => rfl
  | _ => rfl

def passDue : SocketId × Due → Option Passed
  | (target, .pass source frame) => some ⟨source, target, frame⟩
  | _ => none

theorem pays_passed {due : List (SocketId × Due)} {entries : List Sent}
    (paid : List.Forall₂ (Pays x) due entries) :
    entries.filterMap passedOn = due.filterMap passDue := by
  induction paid with
  | nil => rfl
  | cons pays _ ih =>
    cases pays with
    | pass => exact congrArg _ ih
    | _ => rw [List.filterMap_cons_none rfl, List.filterMap_cons_none rfl, ih]

theorem reply_not_passed (header : PacketHeader) (payload : Bytes) (due : Due)
    (replied : reply x env r w header payload = some due) : passDue (w, due) = none := by
  unfold reply at replied
  cases kind : header.packetTypeEnum with
  | handShake =>
    simp only [kind, Option.map_eq_some_iff] at replied
    obtain ⟨outcome, -, rfl⟩ := replied
    rfl
  | ping =>
    simp only [kind, Option.some.injEq] at replied
    rw [← replied]
    rfl
  | rpcReq =>
    simp only [kind, Option.map_eq_some_iff] at replied
    obtain ⟨packet, -, rfl⟩ := replied
    rfl
  | _ => simp [kind] at replied

theorem dues_switched (x : Externals) (env : Env) (r : Relay) (e : RoomEvent) :
    (dues x env r e).filterMap passDue = switched r e := by
  cases e with
  | message w message =>
    cases message with
    | text body => rfl
    | binary frame =>
      simp only [dues, switched]
      cases parseHeader frame with
      | none => rfl
      | some header =>
        cases opened : r.room.isOpen w with
        | false => simp
        | true =>
          cases passes : forwarded header with
          | true =>
            simp only [passes, ↓reduceIte, Bool.true_eq_false, and_self]
            cases delivery r.room w header.toPeerId with
            | none => rfl
            | some target => rfl
          | false =>
            cases replied : reply x env r w header (frame.drop headerSize) with
            | none => simp [passes, replied]
            | some due => simp [passes, replied, reply_not_passed header _ due replied]
  | _ => rfl

theorem Traffic.passed (traffic : Traffic x env r e r') :
    (sentSince r r').filterMap passedOn = switched r e := by
  rw [passedOn_others, pays_passed traffic.paid, dues_switched]

end Step

section Run
variable {x : Externals} {r : Relay} {events : List (Env × RoomEvent)}

/- The frame of this event, if it came in on the socket to be passed on. -/
def receivedOn (w : SocketId) (e : Env × RoomEvent) : List Bytes :=
  match e.2 with
  | .message source (.binary frame) =>
    if source = w ∧ (parseHeader frame).any forwarded = true then [frame] else []
  | _ => []

def frameFrom (w : SocketId) (passed : Passed) : Option Bytes :=
  if passed.source = w then some passed.frame else none

theorem switched_received (w : SocketId) (s : Relay) (e : Env × RoomEvent) :
    List.Sublist ((switched s e.2).filterMap (frameFrom w)) (receivedOn w e) := by
  obtain ⟨env, e⟩ := e
  cases e with
  | message source message =>
    cases message with
    | text body => exact List.Sublist.refl _
    | binary frame =>
      simp only [switched]
      cases parsed : parseHeader frame with
      | none => exact List.nil_sublist _
      | some header =>
        simp only
        split
        · rename_i passes
          cases delivery s.room source header.toPeerId with
          | none => exact List.nil_sublist _
          | some target =>
            by_cases same : source = w
            · simp [receivedOn, frameFrom, same, parsed, passes.2]
            · simp [frameFrom, same]
        · exact List.nil_sublist _
  | _ => exact List.Sublist.refl _

/-- Over every run the forwarded traffic is that of a switch: each frame is decided in the state
    it meets, and the frames of one source go on unchanged, in order and at most once. -/
theorem data_plane_is_a_switch (x : Externals) (r : Relay) (events : List (Env × RoomEvent)) :
    let passed := (sentSince r (Relay.run x r events)).filterMap passedOn
    passed = outputs (Relay.onEvent x) (fun r e => switched r e.2) r events ∧
      ∀ w, List.Sublist (passed.filterMap (frameFrom w)) (events.flatMap (receivedOn w)) := by
  intro passed
  have all : passed = outputs (Relay.onEvent x) (fun r e => switched r e.2) r events := by
    simp only [passed]
    rw [sentSince_run, filterMap_outputs]
    exact outputs_congr (fun s e => (step_traffic x e.1 s e.2).passed) r events
  refine ⟨all, ?_⟩
  intro w
  rw [all, filterMap_outputs]
  exact outputs_sublist (switched_received w) r events

/-- Every reply is asked for, and every question is answered once, in order: over every run the
    frames other than route updates are those due, event by event. -/
theorem replies_match_requests (x : Externals) (r : Relay) (events : List (Env × RoomEvent)) :
    List.Forall₂ (Pays x) (outputs (Relay.onEvent x) (fun r e => dues x e.1 r e.2) r events)
      (others (sentSince r (Relay.run x r events))) := by
  rw [sentSince_run, others, filter_outputs]
  exact outputs_forall₂ (fun s e => (step_traffic x e.1 s e.2).paid) r events

theorem count_told (log : List Sent) (w : SocketId) :
    (toldSockets log).count w =
      log.countP fun entry => entry.socket == w && isRouteUpdate entry.origin := by
  simp only [toldSockets, List.count, List.countP_map, List.countP_filter, Function.comp_def]

theorem length_told (log : List Sent) :
    log.countP (fun entry => isRouteUpdate entry.origin) = (toldSockets log).length := by
  simp only [toldSockets, List.length_map, List.countP_eq_length_filter]

theorem Traffic.told_le {env : Env} {e : RoomEvent} {r' : Relay}
    (traffic : Traffic x env r e r') :
    (toldSockets (sentSince r r')).length ≤ if tells e then r.room.sockets.length else 0 := by
  split
  · have inside : toldSockets (sentSince r r') ⊆ r.room.sockets.map (·.id) := by
      intro v listed
      obtain ⟨s, member, named⟩ := List.any_eq_true.mp (traffic.opened v listed)
      exact List.mem_map.mpr ⟨s, member, by simpa using named⟩
    simpa using (traffic.once.subperm inside).length_le
  · rename_i quiet
    simp [traffic.silent (by simpa using quiet)]

/-- No storms: over every run the frames sent are bounded by the events, with no reaction to the
    relay's own traffic. A socket gets one update for an event, and a message one answer. -/
theorem traffic_is_bounded {N : Nat} (few : EveryStep (Relay.onEvent x)
      (fun r _ => r.room.sockets.length ≤ N) r events) :
    let log := sentSince r (Relay.run x r events)
    (∀ w, (toldSockets log).count w ≤ events.countP fun e => tells e.2) ∧
      otherFrames log ≤ events.countP (fun e => asks e.2) ∧
      log.length ≤ events.countP (fun e => asks e.2) + N * events.countP (fun e => tells e.2) := by
  intro log
  have always : EveryStep (Relay.onEvent x) (fun _ _ => True) r events := everyStep_true r events
  have answers : otherFrames log ≤ events.countP fun e => asks e.2 := by
    have single (s : Relay) (e : Env × RoomEvent) (_ : True) :
        otherFrames (sentSince s (s.onEvent x e)) ≤ if asks e.2 then 1 else 0 :=
      (step_traffic x e.1 s e.2).single
    have bound := countP_outputs single always
    rw [← sentSince_run, Nat.one_mul] at bound
    exact bound
  have updates : log.countP (fun entry => isRouteUpdate entry.origin) ≤
      N * events.countP fun e => tells e.2 := by
    rw [show log = _ from sentSince_run x r events]
    have each (s : Relay) (e : Env × RoomEvent) (small : s.room.sockets.length ≤ N) :
        (sentSince s (s.onEvent x e)).countP (fun entry => isRouteUpdate entry.origin) ≤
          if tells e.2 then N else 0 := by
      rw [length_told]
      have here := (step_traffic x e.1 s e.2).told_le
      split at here
      · rename_i telling
        rw [if_pos telling]
        exact le_trans here small
      · rename_i quiet
        rw [if_neg quiet]
        exact here
    exact countP_outputs each few
  refine ⟨?_, answers, ?_⟩
  · intro w
    rw [count_told]
    have once (s : Relay) (e : Env × RoomEvent) (_ : True) :
        (sentSince s (s.onEvent x e)).countP
          (fun entry => entry.socket == w && isRouteUpdate entry.origin) ≤
            if tells e.2 then 1 else 0 := by
      rw [← count_told]
      have traffic : Traffic x e.1 s e.2 (s.onEvent x e) := step_traffic x e.1 s e.2
      split
      · exact List.nodup_iff_count_le_one.mp traffic.once w
      · rename_i quiet
        simp [traffic.silent (by simpa using quiet)]
    have bound := countP_outputs once always
    rw [← sentSince_run, Nat.one_mul] at bound
    exact bound
  · have parts := List.length_eq_countP_add_countP (fun entry : Sent => isRouteUpdate entry.origin)
      (l := log)
    have rest : log.countP (fun entry => decide ¬ isRouteUpdate entry.origin = true) =
        otherFrames log := by
      simp [otherFrames]
    rw [rest] at parts
    omega

end Run

/- Two peers join, and an alarm refreshes both. -/
def busyRun : List (Env × RoomEvent) :=
  [(quietEnv 1000 1, .accept), (quietEnv 1001 101, .message 0 (greeting 5 "net" [0xaa])),
    (quietEnv 2000 201, .accept), (quietEnv 2001 301, .message 1 (greeting 6 "net" [0xaa])),
    (quietEnv 31000 401, .alarm)]

set_option maxRecDepth 8000 in
theorem busy_run_is_bounded :
    let log := sentSince Relay.initial (Relay.run wire Relay.initial busyRun)
    (∀ w, (toldSockets log).count w ≤ busyRun.countP fun e => tells e.2) ∧
      otherFrames log ≤ busyRun.countP (fun e => asks e.2) ∧
      log.length ≤
        busyRun.countP (fun e => asks e.2) + 2 * busyRun.countP (fun e => tells e.2) :=
  traffic_is_bounded (by decide)

end RelayTraffic
