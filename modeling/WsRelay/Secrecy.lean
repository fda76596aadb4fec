import WsRelay.Phases
import WsRelay.MemberNews
import WsRelay.TwinSteps

/- Who is told what. Route updates go to sockets that are seated in the group, seats are taken by
   handshakes only, and frames that come in are passed on between seats. So a socket learns about
   a network only after it has named the network and its digest. -/
namespace RelaySecrecy
open RelayProtocol RelayRouteState RelayPeerManager RelayRpcHandler RelayRoomModel RelayRouteOps
open RelayRoomSteps RelayMembership RelayBitmapDelivery RelayFraming RelayRoomMoves
open RelayForwarding RelayPhases RelayMemberNews RelayTwinSteps RelayWireFormats
open ConnectionDirectory TransitionRuns PlainText

/- An update goes to a socket that is seated as its target in its group. -/
def Seated (r : Relay) (entry : Sent) : Prop :=
  ∀ key target request topology, entry.origin = .routeUpdate key target request topology →
    (seatAt r entry.socket).groupKey = key ∧ (seatAt r entry.socket).peerId = target

def Keyed (keys : List SharedKey) (entry : Sent) : Prop :=
  ∀ key target request topology, entry.origin = .routeUpdate key target request topology →
    .group key ∈ keys

/- An update for a seat, or a reply on the socket that asked. -/
structure Answers (r : Relay) (w : SocketId) (keys : List SharedKey) (entry : Sent) : Prop where
  seated : Seated r entry
  keyed : Keyed keys entry
  reply : ∀ source, entry.origin ≠ .forwarded source ∧
    ((∀ key target request topology, entry.origin ≠ .routeUpdate key target request topology) →
      entry.socket = w)

/- An update of a broadcast that skips one peer. -/
structure Announced (r : Relay) (groupKey : GroupKey) (skipped : PeerId) (entry : Sent) : Prop where
  seated : Seated r entry
  update : ∃ target request topology,
    entry.origin = .routeUpdate groupKey target request topology ∧ target ≠ skipped

theorem Announced.keyed {r : Relay} {groupKey : GroupKey} {skipped : PeerId} {entry : Sent}
    {keys : List SharedKey} (announced : Announced r groupKey skipped entry)
    (used : .group groupKey ∈ keys) : Keyed keys entry := by
  obtain ⟨-, target, request, topology, origin, -⟩ := announced
  intro key target' request' topology' same
  obtain ⟨rfl, -⟩ := Origin.routeUpdate.inj (origin.symm.trans same)
  exact used

theorem Announced.answers {r : Relay} {groupKey : GroupKey} {skipped : PeerId} {entry : Sent}
    {keys : List SharedKey} (announced : Announced r groupKey skipped entry)
    (used : .group groupKey ∈ keys) (w : SocketId) : Answers r w keys entry := by
  have keyed := announced.keyed used
  obtain ⟨seated, target, request, topology, origin, -⟩ := announced
  refine ⟨seated, keyed, fun source => ⟨by simp [origin], fun noUpdate => ?_⟩⟩
  exact absurd origin (noUpdate groupKey target request topology)

def SameSeats (r r' : Relay) : Prop :=
  ∀ w, (seatAt r' w).groupKey = (seatAt r w).groupKey ∧ (seatAt r' w).peerId = (seatAt r w).peerId

section Handlers
variable {x : Externals} {env : Env} {r r' : Relay} {w : SocketId} {att : WsAttachment}
  {keys : List SharedKey}

theorem sameSeats_of_sockets (same : r'.room.sockets = r.room.sockets) : SameSeats r r' := by
  intro w
  rw [seatAt_of_sockets same]
  exact ⟨rfl, rfl⟩

theorem Seated.congr {entry : Sent} (same : SameSeats r r') (seated : Seated r entry) :
    Seated r' entry := by
  intro key target request topology origin
  obtain ⟨group, peer⟩ := seated key target request topology origin
  obtain ⟨sameGroup, samePeer⟩ := same entry.socket
  exact ⟨sameGroup.trans group, samePeer.trans peer⟩

theorem Announced.congr {groupKey : GroupKey} {skipped : PeerId} {entry : Sent}
    (same : SameSeats r r') (announced : Announced r groupKey skipped entry) :
    Announced r' groupKey skipped entry := ⟨announced.seated.congr same, announced.update⟩

theorem Answers.congr {keys : List SharedKey} {entry : Sent} (same : SameSeats r r')
    (answers : Answers r w keys entry) : Answers r' w keys entry :=
  ⟨answers.seated.congr same, answers.keyed, answers.reply⟩

theorem reply_answers {frame : Bytes} {origin : Origin} (others : ∀ source,
    origin ≠ .forwarded source)
    (noUpdate : ∀ key target request topology, origin ≠ .routeUpdate key target request topology) :
    Logs (Answers r w keys) r (r.send env w frame origin).2 := by
  refine logs_send ⟨?_, ?_, fun source => ⟨others source, fun _ => rfl⟩⟩
  · intro key target request topology same
    exact absurd same (noUpdate key target request topology)
  · intro key target request topology same
    exact absurd same (noUpdate key target request topology)

theorem updateSent_seated {v : SocketId} (seat : SameSeat att (seatAt r v)) (frame : Bytes)
    (ok : Bool) : Seated r ⟨v, frame, ok, updateSent env r att⟩ := by
  intro key target request topology same
  obtain ⟨rfl, rfl, -, -⟩ := Origin.routeUpdate.inj same
  exact ⟨seat.groupKey.symm, seat.peerId.symm⟩

theorem logs_tell {P : Sent → Prop} (x : Externals) {v : SocketId} {frame : Bytes}
    (holds : P ⟨v, frame, env.sendOk r.room.sent.length, updateSent env r att⟩) :
    Logs P r ((r.buildFor x env att att.peerId).2.send env v frame (updateSent env r att)).2 := by
  have built : (r.buildFor x env att att.peerId).2.room.sent = r.room.sent := rfl
  exact (logs_same built).trans (logs_send holds)

theorem broadcastTo_announced {groupKey : GroupKey} {excludePeerId : PeerId} {s : Socket}
    (listed : s ∈ r.room.sockets) :
    Logs (Announced r groupKey excludePeerId) r
      (broadcastTo x env groupKey excludePeerId r s) := by
  unfold broadcastTo
  cases attached : s.attachment with
  | none => exact logs_same rfl
  | some att =>
    simp only
    split
    · exact logs_same rfl
    · rename_i other
      split
      · exact logs_same rfl
      · rename_i grouped
        have seat : SameSeat att (seatAt r s.id) := by
          rw [seatAt_of_mem listed attached]
          exact SameSeat.refl att
        obtain rfl : att.groupKey = groupKey := not_not.mp grouped
        exact logs_tell x ⟨updateSent_seated seat _ _, _, _, _, rfl, other⟩

theorem broadcast_announced (groupKey : GroupKey) (excludePeerId : PeerId) (r : Relay) :
    Logs (Announced r groupKey excludePeerId) r
      (r.broadcastRouteUpdate x env groupKey excludePeerId) := by
  have kept : (r.broadcastRouteUpdate x env groupKey excludePeerId).room.sockets =
      r.room.sockets ∧ Logs (Announced r groupKey excludePeerId) r
        (r.broadcastRouteUpdate x env groupKey excludePeerId) := by
    refine broadcast_invariant x env r (fun r' => r'.room.sockets = r.room.sockets ∧
      Logs (Announced r groupKey excludePeerId) r r') ?_ ⟨rfl, logs_same rfl⟩
    intro r' s listed ⟨sockets, logs⟩
    refine ⟨(broadcastTo_quiet x env r' groupKey excludePeerId s).sockets.trans sockets,
      logs.trans ?_⟩
    have turn : Logs (Announced r' groupKey excludePeerId) r'
        (broadcastTo x env groupKey excludePeerId r' s) := broadcastTo_announced (by rwa [sockets])
    exact logs_congr turn fun _ announced => announced.congr (sameSeats_of_sockets sockets.symm)
  exact kept.2

theorem broadcast_answers {groupKey : GroupKey} (used : .group groupKey ∈ keys)
    (excludePeerId : PeerId) (r : Relay) (w : SocketId) :
    Logs (Answers r w keys) r (r.broadcastRouteUpdate x env groupKey excludePeerId) :=
  logs_congr (broadcast_announced groupKey excludePeerId r) fun _ announced =>
    announced.answers used w

theorem runAction_answers {action : RpcAction} (seat : SameSeat att (seatAt r w))
    (used : .group att.groupKey ∈ keys) {draw : UInt64}
    (own : OwnAction (attachmentToCtx draw att) action) :
    Logs (Answers r w keys) r (r.runAction x env w att action).2 := by
  cases action with
  | sendTo p bytes =>
    obtain ⟨frame, sent⟩ := runAction_sends x env r w att p bytes
    rw [sent]
    exact reply_answers (by simp) (by simp)
  | pushRouteUpdate p key =>
    obtain rfl : p = att.peerId := own.1
    refine logs_tell x ⟨updateSent_seated seat _ _, ?_, fun source => ⟨by simp [updateSent], ?_⟩⟩
    · intro key' target request topology same
      obtain ⟨rfl, -⟩ := Origin.routeUpdate.inj same
      exact used
    · exact fun noUpdate => absurd rfl (noUpdate _ _ _ _)
  | broadcastRouteUpdate groupKey excludePeerId =>
    obtain rfl : groupKey = att.groupKey := own.1
    exact broadcast_answers used excludePeerId r w
  | none => exact logs_same rfl

theorem runActions_answers {actions : List RpcAction} (seat : SameSeat att (seatAt r w))
    (used : .group att.groupKey ∈ keys) {draw : UInt64}
    (own : ∀ action ∈ actions, OwnAction (attachmentToCtx draw att) action) :
    Logs (Answers r w keys) r (Relay.runActions x env w att actions r).2 := by
  have kept : (Relay.runActions x env w att actions r).2.room.sockets = r.room.sockets ∧
      Logs (Answers r w keys) r (Relay.runActions x env w att actions r).2 := by
    refine runActions_invariant x env r (fun r' => r'.room.sockets = r.room.sockets ∧
      Logs (Answers r w keys) r r') ?_ ⟨rfl, logs_same rfl⟩
    intro r' action listed ⟨sockets, logs⟩
    have moved : Logs (Answers r' w keys) r' (r'.runAction x env w att action).2 :=
      runAction_answers (by rwa [seatAt_of_sockets sockets]) used (own action listed)
    refine ⟨(runAction_quiet x env r' w att action).sockets.trans sockets, logs.trans ?_⟩
    exact logs_congr moved fun _ answers => answers.congr (sameSeats_of_sockets sockets.symm)
  exact kept.2

theorem handleRpcReqLocally_answers (seat : SameSeat att (seatAt r w))
    (used : .group att.groupKey ∈ keys) (payload : Bytes) :
    Logs (Answers r w keys) r (Relay.runActions x env w att
      (r.handleRpcReqLocally x env att payload).1
      (r.handleRpcReqLocally x env att payload).2).2 := by
  set handled := (r.handleRpcReqLocally x env att payload).2
  have sockets : handled.room.sockets = r.room.sockets := rfl
  have log : handled.room.sent = r.room.sent := rfl
  have own := handleRpcReq_own x (env.ambient att.groupKey r.room.sent.length)
    (attachmentToCtx (env.randomU64 r.room.sent.length) att) r.global.peerManager
    r.global.peerCenterMap payload
  have acted : Logs (Answers handled w keys) handled (Relay.runActions x env w att
      (r.handleRpcReqLocally x env att payload).1 handled).2 := runActions_answers seat used own
  exact (logs_same log).trans (logs_congr acted fun _ answers =>
    answers.congr (sameSeats_of_sockets sockets.symm))

end Handlers

section Seats
variable {x : Externals} {env : Env} {r r' : Relay} {w : SocketId} {att : WsAttachment}

theorem seatAt_attach (isOpen : r.room.isOpen w = true) (att : WsAttachment) (v : SocketId) :
    seatAt { r with room := r.room.attach w att } v = if v = w then att else seatAt r v := by
  unfold seatAt
  rw [attachment_attach isOpen]
  split
  · rfl
  · rfl

theorem sameSeats_attach (isOpen : r.room.isOpen w = true)
    (group : att.groupKey = (seatAt r w).groupKey) (peer : att.peerId = (seatAt r w).peerId) :
    SameSeats r { r with room := r.room.attach w att } := by
  intro v
  rw [seatAt_attach isOpen]
  split
  · rename_i same
    rw [same]
    exact ⟨group, peer⟩
  · exact ⟨rfl, rfl⟩

theorem sameSeats_serialize (isOpen : r.room.isOpen w = true)
    (group : att.groupKey = (seatAt r w).groupKey) (peer : att.peerId = (seatAt r w).peerId) :
    SameSeats r (r.serializeAttachment env w att).2 := by
  unfold Relay.serializeAttachment
  split
  · exact sameSeats_attach isOpen group peer
  · exact sameSeats_of_sockets rfl

theorem sameSeats_writeBack {ok : Bool} (isOpen : r.room.isOpen w = true)
    (sockets : r'.room.sockets = r.room.sockets) (seat : SameSeat att (seatAt r w)) :
    SameSeats r' (Relay.writeBack env w (ok, att, r')) := by
  cases ok with
  | false => exact sameSeats_of_sockets rfl
  | true =>
    refine sameSeats_serialize (by rwa [isOpen_of_sockets sockets]) ?_ ?_
    · rw [seatAt_of_sockets sockets]
      exact seat.groupKey
    · rw [seatAt_of_sockets sockets]
      exact seat.peerId

theorem seated_forget {entry : Sent} (other : entry.socket ≠ w) (seated : Seated r entry) :
    Seated { r with room := r.room.forget w } entry := by
  intro key target request topology origin
  have kept : seatAt { r with room := r.room.forget w } entry.socket =
      seatAt r entry.socket := by
    unfold seatAt
    rw [attachment_forget, if_neg other]
  rw [kept]
  exact seated key target request topology origin

end Seats

section Events
variable {x : Externals} {env : Env} {r r' : Relay} {w : SocketId} {att : WsAttachment}
  {keys : List SharedKey}

theorem welcome_answers (x : Externals) (env : Env) (r : Relay) (w : SocketId)
    (att : WsAttachment) (outcome : HandshakeOutcome)
    (used : env.attachOk att = true → .group outcome.groupKey ∈ keys) :
    Logs (Answers (r.welcome x env w att outcome).2 w keys) r
      (r.welcome x env w att outcome).2 := by
  cases written : env.attachOk att with
  | false =>
    have same : (r.welcome x env w att outcome).2 = r := by
      simp [Relay.welcome, Relay.serializeAttachment, written]
    rw [same]
    exact logs_same rfl
  | true =>
    set registered := Relay.registerPeer x env { r with room := r.room.attach w att }
      outcome.groupKey outcome.peerId with registeredDef
    set final := (r.welcome x env w att outcome).2
    have behind : final.room.sockets = registered.room.sockets :=
      (welcome_quiet x env r w att outcome written).sockets
    have toFinal {r' : Relay} {P : Relay} (same : r'.room.sockets = registered.room.sockets)
        (logs : Logs (Answers r' w keys) r' P) : Logs (Answers final w keys) r' P :=
      logs_congr logs fun _ answers =>
        answers.congr (sameSeats_of_sockets (behind.trans same.symm))
    have replied : Logs (Answers final w keys) registered
        (registered.send env w outcome.responseBytes .handshakeResponse).2 :=
      toFinal rfl (reply_answers (by simp) (by simp))
    have log : registered.room.sent = r.room.sent := rfl
    refine (logs_same log).trans ?_
    change Logs (Answers final w keys) registered (r.welcome x env w att outcome).2
    unfold Relay.welcome Relay.serializeAttachment
    simp only [written, ↓reduceIte, ← registeredDef]
    split
    · rename_i state sent
      rw [sent] at replied
      exact replied
    · rename_i state sent
      rw [sent] at replied
      have sockets : state.room.sockets = registered.room.sockets := by
        have same := congrArg (fun out => out.2.room.sockets) sent
        exact same.symm
      set built := (state.buildFor x env att att.peerId).2
      have builtSockets : built.room.sockets = registered.room.sockets := sockets
      have builtLog : built.room.sent = state.room.sent := rfl
      exact replied.trans ((logs_same builtLog).trans
        (toFinal builtSockets (broadcast_answers (used written) 0 built w)))

theorem mem_handshakeKeys_group {payload : Bytes} {outcome : HandshakeOutcome}
    (admitted : (handleHandshake x payload r.global.networkDigestRegistry).1 = some outcome)
    (written : env.attachOk (attachOutcome att outcome) = true) :
    .group outcome.groupKey ∈ handshakeKeys x env r att payload := by
  unfold handshakeKeys
  cases decoded : x.decodeHandshakeRequest payload with
  | none => simp [handleHandshake, decoded] at admitted
  | some req =>
    by_cases genuine : req.magic = magic
    · simp [Option.filter, genuine, admitted, written]
    · simp [handleHandshake, decoded, genuine] at admitted

theorem onHandShake_answers (isOpen : r.room.isOpen w = true) (payload : Bytes) :
    Logs (Answers (Relay.writeBack env w
      (r.onHandShake x env w (r.currentAttachment env w) payload)) w
      (handshakeKeys x env r (r.currentAttachment env w) payload)) r
      (r.onHandShake x env w (r.currentAttachment env w) payload).2.2 := by
  have group : ∀ outcome,
      (handleHandshake x payload r.global.networkDigestRegistry).1 = some outcome →
      env.attachOk (attachOutcome (r.currentAttachment env w) outcome) = true →
      .group outcome.groupKey ∈ handshakeKeys x env r (r.currentAttachment env w) payload :=
    fun outcome => mem_handshakeKeys_group
  simp only [Relay.onHandShake]
  cases handled : handleHandshake x payload r.global.networkDigestRegistry with
  | mk outcome registry =>
    rw [handled] at group
    cases outcome with
    | none => exact logs_same rfl
    | some outcome =>
      set att := attachOutcome (r.currentAttachment env w) outcome
      set start : Relay := { r with global := { r.global with
        networkDigestRegistry := registry } }
      have opened : start.room.isOpen w = true := isOpen
      have sends := welcome_answers x env start w att outcome (group outcome rfl)
      simp only
      refine logs_congr sends fun _ answers => answers.congr ?_
      cases done : (start.welcome x env w att outcome).1 with
      | false => exact sameSeats_of_sockets rfl
      | true =>
        have written : env.attachOk att = true := by
          by_contra unwritten
          simp [Relay.welcome, Relay.serializeAttachment, unwritten] at done
        have mine : seatAt (start.welcome x env w att outcome).2 w = att := by
          rw [seatAt, RelayMemberNews.welcome_seated opened outcome written]
          rfl
        refine sameSeats_serialize (isOpen_welcome opened att outcome) ?_ ?_
        · rw [mine]
        · rw [mine]

theorem onRpcReq_answers (isOpen : r.room.isOpen w = true) {header : PacketHeader}
    (here : handledLocally header = true) (payload frame : Bytes) :
    Logs (Answers (Relay.writeBack env w
      ((r.onRpcReq x env w (r.currentAttachment env w) header payload frame).1,
        r.currentAttachment env w,
        (r.onRpcReq x env w (r.currentAttachment env w) header payload frame).2)) w
      (requestKeys x (r.currentAttachment env w) header payload)) r
      (r.onRpcReq x env w (r.currentAttachment env w) header payload frame).2 := by
  have quiet := onRpcReq_quiet x env r w (r.currentAttachment env w) header payload frame
  have seat := currentAttachment_seat env r w
  have sends : Logs (Answers r w (requestKeys x (r.currentAttachment env w) header payload)) r
      (r.onRpcReq x env w (r.currentAttachment env w) header payload frame).2 := by
    unfold Relay.onRpcReq
    rw [if_pos here]
    cases service : served x payload with
    | true => exact handleRpcReqLocally_answers seat (by simp [requestKeys, here, service]) payload
    | false =>
      simp only [Relay.handleRpcReqLocally, handleRpcReq_unserved x service, Relay.runActions]
      exact logs_same rfl
  refine logs_congr sends fun _ answers => ?_
  have between : SameSeats r (r.onRpcReq x env w (r.currentAttachment env w) header payload
      frame).2 := sameSeats_of_sockets quiet.sockets
  exact (answers.congr between).congr (sameSeats_writeBack isOpen quiet.sockets seat)

theorem local_answers (isOpen : r.room.isOpen w = true) {header : PacketHeader} {frame : Bytes}
    (stays : forwarded header = false) :
    let outcome := r.dispatch x env w (r.currentAttachment env w) header (frame.drop headerSize)
      frame
    Logs (Answers (Relay.writeBack env w outcome) w (messageKeys x env r
      (r.currentAttachment env w) header (frame.drop headerSize))) r outcome.2.2 := by
  unfold forwarded at stays
  unfold Relay.dispatch messageKeys
  cases kind : header.packetTypeEnum with
  | handShake => exact onHandShake_answers isOpen _
  | ping =>
    have sends : Logs (Answers r w []) r
        (r.send env w (handlePing header.fromPeerId (frame.drop headerSize)) .pong).2 :=
      reply_answers (by simp) (by simp)
    set pinged := r.send env w (handlePing header.fromPeerId (frame.drop headerSize)) .pong
    have between : SameSeats r pinged.2 := sameSeats_of_sockets rfl
    have back : SameSeats pinged.2 (Relay.writeBack env w
        (pinged.1, r.currentAttachment env w, pinged.2)) :=
      sameSeats_writeBack isOpen rfl (currentAttachment_seat env r w)
    exact logs_congr sends fun _ answers => (answers.congr between).congr back
  | rpcReq =>
    simp only [kind, Bool.not_eq_false'] at stays
    exact onRpcReq_answers isOpen stays _ frame
  | rpcResp =>
    simp only [kind, Bool.not_eq_false'] at stays
    simp only [Relay.onRpcResp, stays, ↓reduceIte]
    exact logs_same rfl
  | _ => simp [kind] at stays

end Events

/- What an event owes each frame that it sends. -/
def Owed (r : Relay) (keys : List SharedKey) (e : RoomEvent) (r' : Relay) (entry : Sent) : Prop :=
  match entry.origin with
  | .routeUpdate key target _ _ => .group key ∈ keys ∧
    (seatAt r' entry.socket).groupKey = key ∧ (seatAt r' entry.socket).peerId = target
  | .forwarded source => ∃ header target, e = .message source (.binary entry.frame) ∧
      parseHeader entry.frame = some header ∧
      delivery r.room source header.toPeerId = some target ∧ target.id = entry.socket
  | _ => ∃ message, e = .message entry.socket message

section Step
variable {x : Externals} {env : Env} {r r' : Relay} {w : SocketId} {entry : Sent} {e : RoomEvent}
  {keys : List SharedKey}

theorem Answers.owed {message : IncomingMessage} (answers : Answers r' w keys entry) :
    Owed r keys (.message w message) r' entry := by
  obtain ⟨seated, keyed, reply⟩ := answers
  unfold Owed
  cases origin : entry.origin with
  | routeUpdate key target request topology =>
    exact ⟨keyed key target request topology origin, seated key target request topology origin⟩
  | forwarded source => exact absurd origin (reply source).1
  | _ =>
    have own := (reply 0).2 (by simp [origin])
    exact ⟨message, by rw [own]⟩

theorem Announced.owed {groupKey : GroupKey} {skipped : PeerId}
    (announced : Announced r' groupKey skipped entry) (used : .group groupKey ∈ keys) :
    Owed r keys e r' entry := by
  obtain ⟨seated, target, request, topology, origin, -⟩ := announced
  simp only [Owed, origin]
  exact ⟨used, seated groupKey target request topology origin⟩

theorem mem_sentSince {P : Sent → Prop} (logs : Logs P r r') (listed : entry ∈ sentSince r r') :
    P entry := by
  obtain ⟨added, sent, each⟩ := logs
  rw [sentSince, sent, List.drop_left] at listed
  exact each entry listed

theorem message_owed (isOpen : r.room.isOpen w = true) {frame : Bytes} {header : PacketHeader}
    (parsed : parseHeader frame = some header)
    (listed : entry ∈ sentSince r (r.websocketMessage x env w (.binary frame))) :
    Owed r (messageKeys x env r (r.currentAttachment env w) header (frame.drop headerSize))
      (.message w (.binary frame)) (r.websocketMessage x env w (.binary frame)) entry := by
  cases passes : forwarded header with
  | true =>
    rw [sentSince_websocketMessage x env r w parsed passes] at listed
    obtain ⟨target, delivered, rfl⟩ := Option.map_eq_some_iff.mp (Option.mem_toList.mp listed)
    exact ⟨header, target, rfl, parsed, delivered, rfl⟩
  | false =>
    rw [websocketMessage_eq x env r w parsed] at listed ⊢
    have log := writeBack_sent env w (r.dispatch x env w (r.currentAttachment env w) header
      (frame.drop headerSize) frame)
    rw [sentSince, log] at listed
    exact (mem_sentSince (local_answers isOpen passes) listed).owed

theorem drop_owed (listed : entry ∈ sentSince r (r.dropConnection x env w)) :
    Owed r (leavingKeys r.room w) e
      { r.dropConnection x env w with room := (r.dropConnection x env w).room.forget w } entry := by
  by_cases leaves : ∃ att, LastConnection r w att
  · obtain ⟨att, last⟩ := leaves
    have used : .group att.groupKey ∈ leavingKeys r.room w := by
      obtain ⟨attached, known, alone⟩ := last
      simp [leavingKeys, attached, known, alone]
    rw [dropConnection_last x env last] at listed ⊢
    set left := r.withManager ⟨RouteState.call x (routes r) (removeCall env att)⟩
    have told : Announced left att.groupKey att.peerId entry :=
      mem_sentSince (r := left) (broadcast_announced att.groupKey att.peerId left) listed
    have sockets := (broadcast_quiet x env left att.groupKey att.peerId).sockets
    have behind := told.congr (sameSeats_of_sockets sockets)
    obtain ⟨target, request, topology, origin, other⟩ := told.update
    have stays : entry.socket ≠ w := by
      intro same
      obtain ⟨-, peer⟩ := told.seated att.groupKey target request topology origin
      have seat : seatAt left entry.socket = att := by
        rw [same, seatAt]
        exact congrArg (fun attached => attached.getD {}) last.1
      rw [seat] at peer
      exact other peer.symm
    simp only [Owed, origin]
    exact ⟨used, seated_forget stays behind.seated att.groupKey target request topology origin⟩
  · rw [dropConnection_idle x env fun att last => leaves ⟨att, last⟩] at listed
    simp [sentSince] at listed

theorem groups_announced (x : Externals) (env : Env) (groupKeys : List GroupKey) (r : Relay) :
    (groupKeys.foldl (fun r groupKey => r.broadcastRouteUpdate x env groupKey 0) r).room.sockets =
        r.room.sockets ∧
      Logs (fun entry => ∃ key ∈ groupKeys, Announced r key 0 entry) r
        (groupKeys.foldl (fun r groupKey => r.broadcastRouteUpdate x env groupKey 0) r) := by
  induction groupKeys generalizing r with
  | nil => exact ⟨rfl, logs_same rfl⟩
  | cons key rest ih =>
    have sockets := (broadcast_quiet x env r key 0).sockets
    obtain ⟨later, logs⟩ := ih (r.broadcastRouteUpdate x env key 0)
    refine ⟨later.trans sockets, ?_⟩
    refine (logs_congr (broadcast_announced key 0 r) ?_).trans (logs_congr logs ?_)
    · intro entry announced
      exact ⟨key, by simp, announced⟩
    · rintro entry ⟨other, listed, announced⟩
      exact ⟨other, by simp [listed], announced.congr (sameSeats_of_sockets sockets.symm)⟩

theorem alarm_owed (listed : entry ∈ sentSince r (r.alarm x env)) :
    Owed r ((scannedGroups env r).map .group) e (r.alarm x env) entry := by
  have room := cleaned_room env r
  have sent : (cleaned env r).room.sent = r.room.sent := by
    rw [room]
    rfl
  rw [alarm_eq] at listed ⊢
  obtain ⟨sockets, logs⟩ := groups_announced x env (scannedGroups env r) (cleaned env r)
  obtain ⟨key, scanned, told⟩ := mem_sentSince ((logs_same sent).trans logs) listed
  exact (told.congr (sameSeats_of_sockets sockets)).owed (List.mem_map_of_mem scanned)

/-- One event: updates of the groups it works on go to seats, frames to deliveries, and replies
    to whoever asked. -/
theorem step_owed (x : Externals) (env : Env) (r : Relay) (e : RoomEvent) :
    ∀ entry ∈ sentSince r (r.step x env e),
      Owed r (Relay.keys x env r e) e (r.step x env e) entry := by
  intro entry listed
  have silent {r' : Relay} (same : r'.room.sent = r.room.sent) (inside : entry ∈ sentSince r r') :
      Owed r (Relay.keys x env r e) e (r.step x env e) entry := by
    simp [sentSince, same] at inside
  cases e with
  | accept => exact silent rfl listed
  | message w message =>
    simp only [Relay.step] at listed ⊢
    by_cases isOpen : r.room.isOpen w = true
    · rw [if_pos isOpen] at listed ⊢
      cases message with
      | text body => simp [sentSince, Relay.websocketMessage] at listed
      | binary frame =>
        cases parsed : parseHeader frame with
        | none => simp [sentSince, Relay.websocketMessage, parsed] at listed
        | some header =>
          simp only [Relay.keys, isOpen, ↓reduceIte, parsed]
          exact message_owed isOpen parsed listed
    · rw [if_neg isOpen] at listed
      simp [sentSince] at listed
  | close w =>
    simp only [Relay.step] at listed ⊢
    by_cases isOpen : r.room.isOpen w = true
    · simp only [Relay.keys, isOpen, ↓reduceIte] at listed ⊢
      exact drop_owed listed
    · rw [if_neg isOpen] at listed
      simp [sentSince] at listed
  | error w =>
    simp only [Relay.step] at listed ⊢
    by_cases isOpen : r.room.isOpen w = true
    · simp only [Relay.keys, isOpen, ↓reduceIte] at listed ⊢
      exact drop_owed listed
    · rw [if_neg isOpen] at listed
      simp [sentSince] at listed
  | alarm => exact alarm_owed listed
  | rehydrate => exact silent rfl listed
  | restart => exact silent rfl listed

end Step

def Greets (x : Externals) (w : SocketId) (req : HandshakeRequest) (e : RoomEvent) : Prop :=
  ∃ frame header, e = .message w (.binary frame) ∧ parseHeader frame = some header ∧
    greeted x header (frame.drop headerSize) = some req

def Named (x : Externals) (events : List (Env × RoomEvent)) (w : SocketId) (key : GroupKey)
    (p : PeerId) : Prop :=
  ∃ e ∈ events, ∃ req, Greets x w req e.2 ∧ req.myPeerId = p ∧
    groupKeyOf req.networkName (hexText req.networkSecretDigest) = key

/- What may be sent at an event of a run, given the handshakes so far. -/
def Discreet (x : Externals) (events : List (Env × RoomEvent)) (e : Env × RoomEvent)
    (entry : Sent) : Prop :=
  match entry.origin with
  | .routeUpdate key target _ _ =>
    (key = "" ∧ target = 0) ∨ Named x (events ++ [e]) entry.socket key target
  | .forwarded source => ∃ header, parseHeader entry.frame = some header ∧
      e.2 = .message source (.binary entry.frame) ∧
      (header.toPeerId = 0 ∨ ∃ key, Named x events entry.socket key header.toPeerId ∧
        ((seatAt (Relay.run x Relay.initial events) source).groupKey = "" ∨
          ∃ p, Named x events source key p))
  | _ => ∃ message, e.2 = .message entry.socket message

section Runs
variable {x : Externals} {events : List (Env × RoomEvent)} {w : SocketId}

theorem groupKeyOf_ne_empty (n digest : String) : groupKeyOf n digest ≠ "" := by
  intro same
  have chars := congrArg String.toList same
  simp [groupKeyOf] at chars

theorem message_directoryEvent (x : Externals) (env : Env) (r : Relay) (w : SocketId)
    (message : IncomingMessage) :
    (∃ req written kept, Greets x w req (.message w message) ∧
      directoryEvent x env r (.message w message) = .hello w req.myPeerId req.networkName
        (hexText req.networkSecretDigest) written kept) ∨
      directoryEvent x env r (.message w message) = .idle ∨
      ∃ written, directoryEvent x env r (.message w message) = .touch w written := by
  cases message with
  | text body => exact Or.inr (Or.inl rfl)
  | binary frame =>
    by_cases isOpen : r.room.isOpen w = true
    · cases parsed : parseHeader frame with
      | none => exact Or.inr (Or.inl (by simp [directoryEvent, parsed]))
      | some header =>
        have here : directoryEvent x env r (.message w (.binary frame)) =
            messageEvent x env r w frame header := by
          simp only [directoryEvent, isOpen, ↓reduceIte, parsed]
        rw [here]
        unfold messageEvent
        cases greets : greeted x header (frame.drop headerSize) with
        | none =>
          simp only [greets]
          exact Or.inr (Or.inr ⟨_, rfl⟩)
        | some req =>
          simp only [greets]
          exact Or.inl ⟨req, _, _, ⟨frame, header, rfl, parsed, greets⟩, rfl⟩
    · exact Or.inr (Or.inl (by simp [directoryEvent, isOpen]))

theorem accepts_blank {env : Env} {r : Relay} {e : RoomEvent} {c : SocketId} {s : RoomSeat}
    (accepted : directoryEvent x env r e = .accept c (some s)) :
    s.peer = blank.peer ∧ s.group = blank.group := by
  cases e with
  | accept =>
    simp only [directoryEvent, Event.accept.injEq] at accepted
    obtain ⟨att, attached, rfl⟩ := Option.map_eq_some_iff.mp accepted.2
    obtain ⟨socket, inside, named, carries⟩ := mem_of_attachment attached
    simp only [Relay.fetch, List.mem_append, List.mem_singleton] at inside
    rcases inside with old | new
    · have below := r.room.ids.issued socket old
      rw [named] at below
      exact absurd below (Nat.lt_irrefl _)
    · rw [new] at carries
      simp only at carries
      split at carries
      · rw [← Option.some.inj carries]
        exact ⟨rfl, rfl⟩
      · cases carries
  | message w message =>
    rcases message_directoryEvent x env r w message with ⟨_, _, _, -, greets⟩ | idle | ⟨_, touches⟩
    · cases greets.symm.trans accepted
    · cases idle.symm.trans accepted
    · cases touches.symm.trans accepted
  | _ => grind [directoryEvent]

theorem run_introduced (x : Externals) (events : List (Env × RoomEvent)) :
    Introduced blank groupKeyOf (fun w p n secret => ∃ e ∈ events, ∃ req, Greets x w req e.2 ∧
      req.myPeerId = p ∧ req.networkName = n ∧ hexText req.networkSecretDigest = secret)
      (directory (Relay.run x Relay.initial events)) := by
  set greeting := fun w p n secret => ∃ e ∈ events, ∃ req, Greets x w req e.2 ∧
    req.myPeerId = p ∧ req.networkName = n ∧ hexText req.networkSecretDigest = secret
  have start : Introduced blank groupKeyOf greeting (directory Relay.initial) := by
    intro c s seated
    simp [directory, Relay.initial, RelayRoom.empty, RelayRoom.attachment] at seated
  have all : EveryStep (Relay.onEvent x) (fun _ e => e ∈ events) Relay.initial events :=
    everyStep_of_forall fun _ listed => listed
  refine invariant_run (fun r => Introduced blank groupKeyOf greeting (directory r)) ?_ start all
  intro r e listed introduced
  rw [Relay.onEvent, directory_step]
  obtain ⟨env, event⟩ := e
  refine introduced_step introduced ?_ ?_
  · intro c s accepted
    exact accepts_blank accepted
  · intro c p n secret kept same _
    cases event with
    | message w message =>
      rcases message_directoryEvent x env r w message with ⟨req, _, _, greets, said⟩ | idle |
        ⟨_, touches⟩
      · obtain ⟨rfl, rfl, rfl, rfl, -, -⟩ := Event.hello.inj (said.symm.trans same)
        exact ⟨_, listed, req, greets, rfl, rfl, rfl⟩
      · cases idle.symm.trans same
      · cases touches.symm.trans same
    | _ => grind [directoryEvent]

theorem seatAt_attached {r : Relay} : seatAt r w = (r.room.attachment w).getD {} := rfl

theorem seat_named (x : Externals) (events : List (Env × RoomEvent)) (w : SocketId) :
    let seat := seatAt (Relay.run x Relay.initial events) w
    (seat.groupKey = "" ∧ seat.peerId = 0) ∨ Named x events w seat.groupKey seat.peerId := by
  intro seat
  cases attached : (Relay.run x Relay.initial events).room.attachment w with
  | none =>
    have here : seat = {} := by rw [show seat = _ from seatAt_attached, attached]; rfl
    rw [here]
    exact Or.inl ⟨rfl, rfl⟩
  | some att =>
    have here : seat = att := by rw [show seat = _ from seatAt_attached, attached]; rfl
    have taken : (directory (Relay.run x Relay.initial events)).seat w = some (seatOf att) := by
      simp [directory, attached]
    rw [here]
    rcases run_introduced x events w (seatOf att) taken with ⟨peer, group⟩ | ⟨secret, named, group⟩
    · exact Or.inl ⟨group, peer⟩
    · obtain ⟨e, listed, req, greets, peer, name, digest⟩ := named
      refine Or.inr ⟨e, listed, req, greets, peer, ?_⟩
      rw [name, digest]
      exact group.symm

end Runs

/-- In every run, updates of a network go only to sockets that have named it with its digest, a
    frame is passed on only to a socket that has named its target, between sockets of one network
    if both have named one, and everything else goes to whoever asked. -/
theorem told_only_what_was_named (x : Externals) (events : List (Env × RoomEvent))
    (e : Env × RoomEvent) :
    let r := Relay.run x Relay.initial events
    ∀ entry ∈ sentSince r (Relay.onEvent x r e), Discreet x events e entry := by
  intro r entry listed
  have owed := step_owed x e.1 r e.2 entry listed
  have behind := seat_named x (events ++ [e]) entry.socket
  have last : Relay.run x Relay.initial (events ++ [e]) = Relay.onEvent x r e := by
    simp [Relay.run, run_append, r]
  rw [last] at behind
  unfold Owed at owed
  unfold Discreet
  cases origin : entry.origin with
  | routeUpdate key target request topology =>
    simp only [origin] at owed ⊢
    obtain ⟨-, rfl, rfl⟩ := owed
    exact behind
  | forwarded source =>
    simp only [origin] at owed ⊢
    obtain ⟨header, target, event, parsed, delivered, named⟩ := owed
    refine ⟨header, parsed, event, ?_⟩
    obtain ⟨found, passes⟩ := delivery_some.mp delivered
    obtain ⟨inside, att, attached, peer⟩ := forwardTarget_some found
    have seat : seatAt r target.id = att := seatAt_of_mem inside attached
    rw [← named]
    rcases seat_named x events target.id with blankSeat | introduced
    · left
      rw [← peer, ← seat]
      exact blankSeat.2
    · right
      rw [show Relay.run x Relay.initial events = r from rfl, seat, peer] at introduced
      refine ⟨att.groupKey, introduced, ?_⟩
      change (seatAt r source).groupKey = "" ∨ _
      cases sourced : r.room.attachment source with
      | none =>
        have nobody : seatAt r source = {} := by rw [seatAt_attached, sourced]; rfl
        rw [nobody]
        exact Or.inl rfl
      | some src =>
        have sourceSeat : seatAt r source = src := by rw [seatAt_attached, sourced]; rfl
        rw [sourceSeat]
        rcases (not_blocked sourced attached).mp passes with blankGroup | targetBlank | same
        · exact Or.inl blankGroup
        · obtain ⟨_, _, _, _, _, group⟩ := introduced
          rw [targetBlank] at group
          exact absurd group (groupKeyOf_ne_empty _ _)
        · rcases seat_named x events source with blankSeat | own
          · rw [show Relay.run x Relay.initial events = r from rfl, sourceSeat] at blankSeat
            exact Or.inl blankSeat.1
          · rw [show Relay.run x Relay.initial events = r from rfl, sourceSeat, same] at own
            exact Or.inr ⟨_, own⟩
  | _ =>
    simp only [origin] at owed ⊢
    exact owed

end RelaySecrecy
