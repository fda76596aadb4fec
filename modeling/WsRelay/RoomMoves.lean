import WsRelay.Residue
import WsRelay.BitmapDelivery
import WsRelay.Library.CostedTrails

/- Every event of a room as a trail of a few kinds of moves. A fact about runs is then checked
   once for each kind of move, not once for each handler. -/
namespace RelayRoomMoves
open RelayProtocol RelayRouteState RelayPeerManager RelayRpcHandler RelayRoomModel RelayRouteOps
open RelayRoomSteps RelayMembership RelayPeerInfoVersions RelayBitmapDelivery RelayResidue
open CostedTrails

/- The calls of joins, requests, responses and cleanups. An info is stored under its own id. -/
def RouteOp.Ordinary (x : Externals) : RouteOp → Prop
  | .removePeer _ _ | .build _ _ _ _ _ => False
  | .updatePeerInfo p bytes => ∃ info, info.peerId = p ∧ bytes = x.encodeRoutePeerInfo info
  | _ => True

def Ordinary (x : Externals) (c : RouteCall) : Prop := RouteOp.Ordinary x c.op

/- The attachment of a socket as its next message reads it, the time apart. -/
def seatAt (r : Relay) (w : SocketId) : WsAttachment := (r.room.attachment w).getD {}

structure SameSeat (att seat : WsAttachment) : Prop where
  peerId : att.peerId = seat.peerId
  groupKey : att.groupKey = seat.groupKey
  session : att.serverSessionId = seat.serverSessionId
  role : att.weAreInitiator = seat.weAreInitiator

/- What a write may change of an attachment: peer, group and domain, and the role to false. -/
structure Reseats (att seat : WsAttachment) : Prop where
  session : att.serverSessionId = seat.serverSessionId
  role : att.weAreInitiator = seat.weAreInitiator ∨ att.weAreInitiator = false

theorem SameSeat.refl (att : WsAttachment) : SameSeat att att := ⟨rfl, rfl, rfl, rfl⟩

theorem SameSeat.reseats {att seat : WsAttachment} (same : SameSeat att seat) : Reseats att seat :=
  ⟨same.session, Or.inl same.role⟩

structure Aside (r r' : Relay) : Prop where
  sockets : r'.room.sockets = r.room.sockets
  nextSocket : r'.room.nextSocket = r.room.nextSocket
  sent : r'.room.sent = r.room.sent
  routes : routes r' = routes r

/- The update that is built for an attached socket, and sent to it. -/
def updateSent (env : Env) (r : Relay) (att : WsAttachment) : Origin :=
  .routeUpdate att.groupKey att.peerId (builtRequest env r att att.peerId)
    (r.topology env att.groupKey att.peerId)

/-- The moves of one event; a call of the routes costs one. -/
inductive Move (x : Externals) (env : Env) (accepts : Prop) (removes : RouteCall → Prop) :
    Nat → Relay → Relay → Prop
  | call {r : Relay} (c : RouteCall) (allowed : Ordinary x c ∨ removes c) :
      Move x env accepts removes 1 r (r.withManager ⟨RouteState.call x (routes r) c⟩)
  | aside {r r' : Relay} (same : Aside r r') : Move x env accepts removes 0 r r'
  | send {r : Relay} (w : SocketId) (frame : Bytes) (origin : Origin)
      (other : ∀ key p req topology, origin ≠ .routeUpdate key p req topology) :
      Move x env accepts removes 0 r (r.send env w frame origin).2
  /- The build of a handshake, which is thrown away. -/
  | discard {r : Relay} (att : WsAttachment) (target : PeerId) :
      Move x env accepts removes 0 r (r.buildFor x env att target).2
  | tell {r : Relay} (w : SocketId) (att : WsAttachment) (frame : Bytes)
      (isOpen : r.room.isOpen w = true) (seat : SameSeat att (seatAt r w)) :
      Move x env accepts removes 0 r
        ((r.buildFor x env att att.peerId).2.send env w frame (updateSent env r att)).2
  | attach {r : Relay} (w : SocketId) (att : WsAttachment) (isOpen : r.room.isOpen w = true)
      (reseats : Reseats att (seatAt r w)) :
      Move x env accepts removes 0 r { r with room := r.room.attach w att }
  | accept {r : Relay} (accepting : accepts) : Move x env accepts removes 0 r (r.fetch env)
  | forget {r : Relay} (w : SocketId) :
      Move x env accepts removes 0 r { r with room := r.room.forget w }

abbrev Moves (x : Externals) (env : Env) (accepts : Prop) (removes : RouteCall → Prop) :=
  Trail (Move x env accepts removes)

variable {x : Externals} {env : Env} {accepts : Prop} {removes : RouteCall → Prop}
  {r r' : Relay} {w : SocketId} {att : WsAttachment}

theorem Moves.calls (calls : List RouteCall) (allowed : ∀ c ∈ calls, Ordinary x c ∨ removes c)
    (r : Relay) : Moves x env accepts removes calls.length r
      (r.withManager ⟨RouteState.callAll x (routes r) calls⟩) := by
  induction calls generalizing r with
  | nil => exact .refl 0 r
  | cons c rest ih =>
    have first : Moves x env accepts removes 1 r (r.withManager ⟨RouteState.call x (routes r) c⟩) :=
      .single (.call c (allowed c (by simp)))
    have later := ih (fun d listed => allowed d (by simp [listed]))
      (r.withManager ⟨RouteState.call x (routes r) c⟩)
    refine (first.trans later).mono ?_
    rw [List.length_cons]
    omega

theorem seatAt_of_mem {s : Socket} (listed : s ∈ r.room.sockets)
    (attached : s.attachment = some att) :
    seatAt r s.id = att := by
  rw [seatAt, attachment_of_mem listed, attached, Option.getD_some]

theorem isOpen_of_mem {s : Socket} (listed : s ∈ r.room.sockets) : r.room.isOpen s.id = true :=
  List.any_eq_true.mpr ⟨s, listed, by simp⟩

theorem broadcastTo_moves {groupKey : GroupKey} {excludePeerId : PeerId} {s : Socket}
    (listed : s ∈ r.room.sockets) :
    Moves x env accepts removes 0 r (broadcastTo x env groupKey excludePeerId r s) := by
  unfold broadcastTo
  split
  · exact .refl 0 r
  · rename_i att attached
    split
    · exact .refl 0 r
    · split
      · exact .refl 0 r
      · have seat : SameSeat att (seatAt r s.id) := by
          rw [seatAt_of_mem listed attached]
          exact SameSeat.refl att
        exact .single (.tell s.id att _ (isOpen_of_mem listed) seat)

theorem broadcast_moves (r : Relay) (groupKey : GroupKey) (excludePeerId : PeerId) :
    Moves x env accepts removes 0 r (r.broadcastRouteUpdate x env groupKey excludePeerId) := by
  have loop : Moves x env accepts removes (0 * r.room.sockets.length) r
      (r.room.sockets.foldl (broadcastTo x env groupKey excludePeerId) r) := by
    refine Trail.foldl (fun r' : Relay => r'.room.sockets = r.room.sockets) ?_ rfl
    intro s listed r' same
    constructor
    · apply broadcastTo_moves
      rwa [same]
    · rw [(broadcastTo_quiet x env r' groupKey excludePeerId s).sockets, same]
  exact loop.mono (by omega)

theorem forward_moves (w : SocketId) (header : PacketHeader) (frame : Bytes) :
    Moves x env accepts removes 0 r (r.forwardMessage env w header frame).2 := by
  unfold Relay.forwardMessage
  split
  · exact .refl 0 r
  · simp only
    split
    · split
      · exact .refl 0 r
      · exact .single (.send _ frame _ (by simp))
    · exact .single (.send _ frame _ (by simp))

theorem seatAt_of_sockets (same : r'.room.sockets = r.room.sockets) (w : SocketId) :
    seatAt r' w = seatAt r w := by
  simp only [seatAt, RelayRoom.attachment, same]

theorem isOpen_of_sockets (same : r'.room.sockets = r.room.sockets) (w : SocketId) :
    r'.room.isOpen w = r.room.isOpen w := by
  simp only [RelayRoom.isOpen, same]

theorem runAction_moves {action : RpcAction} (isOpen : r.room.isOpen w = true)
    (seat : SameSeat att (seatAt r w))
    (own : ∀ p key, action = .pushRouteUpdate p key → p = att.peerId) :
    Moves x env accepts removes 0 r (r.runAction x env w att action).2 := by
  cases action with
  | sendTo p bytes =>
    obtain ⟨frame, sent⟩ := runAction_sends x env r w att p bytes
    rw [sent]
    exact .single (.send w frame .rpcResp (by simp))
  | pushRouteUpdate p key =>
    obtain rfl := own p key rfl
    exact .single (.tell w att _ isOpen seat)
  | broadcastRouteUpdate groupKey excludePeerId => exact broadcast_moves r groupKey excludePeerId
  | none => exact .refl 0 r

theorem runActions_moves {actions : List RpcAction} (isOpen : r.room.isOpen w = true)
    (seat : SameSeat att (seatAt r w))
    (own : ∀ p key, .pushRouteUpdate p key ∈ actions → p = att.peerId) :
    Moves x env accepts removes 0 r (Relay.runActions x env w att actions r).2 := by
  have kept : (Relay.runActions x env w att actions r).2.room.sockets = r.room.sockets ∧
      Moves x env accepts removes 0 r (Relay.runActions x env w att actions r).2 := by
    refine runActions_invariant x env r (fun r' => r'.room.sockets = r.room.sockets ∧
      Moves x env accepts removes 0 r r') ?_ ⟨rfl, .refl 0 r⟩
    intro r' action listed ⟨sockets, moves⟩
    have moved : Moves x env accepts removes 0 r' (r'.runAction x env w att action).2 :=
      runAction_moves (by rwa [isOpen_of_sockets sockets]) (by rwa [seatAt_of_sockets sockets])
        fun p key same => own p key (same ▸ listed)
    exact ⟨(runAction_quiet x env r' w att action).sockets.trans sockets, moves.trans moved⟩
  exact kept.2

def listedBy (x : Externals) (payload : Bytes) : Nat :=
  (((syncBody x payload).bind x.decodeSyncRouteInfoRequest).map fun req =>
    (listedItems req).length).getD 0

theorem requestCalls_ordinary {a : Ambient} {ctx : WsPeerContext} {body : Bytes} {c : RouteCall}
    (listed : c ∈ requestCalls x a ctx body) : Ordinary x c := by
  obtain ⟨op, rfl, ⟨sid, initiator, rfl⟩ | ⟨info, rfl⟩ | rfl | rfl⟩ := requestCalls_cases listed
  · trivial
  · exact ⟨info, rfl, rfl⟩
  · trivial
  · trivial

theorem handleRpcReqLocally_moves (payload : Bytes) :
    Moves x env accepts removes (listedBy x payload + 3) r
      (r.handleRpcReqLocally x env att payload).2 := by
  set a := env.ambient att.groupKey r.room.sent.length
  set ctx := attachmentToCtx a.randomU64 att
  have aside (st : RouteState) (same : routes (r.handleRpcReqLocally x env att payload).2 = st) :
      Move x env accepts removes 0 (r.withManager ⟨st⟩)
        (r.handleRpcReqLocally x env att payload).2 :=
    .aside ⟨rfl, rfl, rfl, same⟩
  have routed := handleRpcReq_routes x a ctx r.global.peerManager r.global.peerCenterMap payload
  unfold listedBy
  cases named : syncBody x payload with
  | none =>
    rw [named] at routed
    exact (Trail.single (aside _ routed)).mono (by omega)
  | some body =>
    simp only [named, applySyncRequest_calls] at routed
    have calls : Moves x env accepts removes _ r _ := Moves.calls (requestCalls x a ctx body)
      (fun c listed => Or.inl (requestCalls_ordinary listed)) r
    have whole : routes (r.handleRpcReqLocally x env att payload).2 =
        RouteState.callAll x (routes r) (requestCalls x a ctx body) := by
      simp only [requestCalls, RouteState.callAll, TransitionRuns.run_append,
        TransitionRuns.run_cons, TransitionRuns.run_nil]
      exact routed
    refine (calls.trans (Trail.single (aside _ whole))).mono ?_
    unfold requestCalls applyCalls itemCalls
    rw [Option.bind_some]
    cases x.decodeSyncRouteInfoRequest body with
    | none => simp
    | some req =>
      simp only [List.length_append, List.length_singleton, List.length_map, Option.map_some,
        Option.getD_some]
      omega

theorem onRpcReq_moves (isOpen : r.room.isOpen w = true) (seat : SameSeat att (seatAt r w))
    (header : PacketHeader) (payload frame : Bytes) :
    Moves x env accepts removes (listedBy x payload + 3) r
      (r.onRpcReq x env w att header payload frame).2 := by
  unfold Relay.onRpcReq
  split
  · have handled : Moves x env accepts removes _ r (r.handleRpcReqLocally x env att payload).2 :=
      handleRpcReqLocally_moves payload
    have sockets : (r.handleRpcReqLocally x env att payload).2.room.sockets = r.room.sockets := rfl
    refine handled.trans (m := 0) (runActions_moves ?_ ?_ ?_)
    · rwa [isOpen_of_sockets sockets]
    · rwa [seatAt_of_sockets sockets]
    · intro p key pushed
      exact (handleRpcReq_own x _ _ _ _ _ _ pushed).1
  · exact (forward_moves w header frame).mono (by omega)

theorem onRpcResp_moves (header : PacketHeader) (payload frame : Bytes) :
    Moves x env accepts removes 1 r (r.onRpcResp x env w att header payload frame).2 := by
  unfold Relay.onRpcResp
  split
  · simp only [handleRpcResp_eq]
    cases ackedSession x payload with
    | none => exact .refl 1 r
    | some sid =>
      exact .single (.call ⟨att.groupKey, env.seed att.groupKey, .onRouteSessionAck
        header.fromPeerId sid att.weAreInitiator env.nowMs⟩ (Or.inl trivial))
  · exact (forward_moves w header frame).mono (by omega)

theorem registerPeer_moves (r : Relay) (groupKey : GroupKey) (p : PeerId) :
    Moves x env accepts removes 4 r (r.registerPeer x env groupKey p) := by
  set calls : List RouteCall := [⟨groupKey, env.seed groupKey, .addPeer p⟩,
    ⟨groupKey, env.seed groupKey, .bumpMyInfoVersion⟩,
    ⟨groupKey, env.seed groupKey, .updatePeerInfo p
      (x.encodeRoutePeerInfo (handshakeInfo env.nowMs p))⟩,
    ⟨groupKey, env.seed groupKey, .bumpMyInfoVersion⟩] with callsDef
  have allowed : ∀ c ∈ calls, Ordinary x c ∨ removes c := by
    intro c listed
    left
    simp only [callsDef, List.mem_cons, List.not_mem_nil, or_false] at listed
    rcases listed with rfl | rfl | rfl | rfl
    · trivial
    · trivial
    · exact ⟨handshakeInfo env.nowMs p, rfl, rfl⟩
    · trivial
  exact Moves.calls calls allowed r

theorem seatAt_attach (isOpen : r.room.isOpen w = true) (att : WsAttachment) :
    seatAt { r with room := r.room.attach w att } w = att := by
  rw [seatAt, attachment_attach isOpen, if_pos rfl, Option.getD_some]

theorem welcome_moves (isOpen : r.room.isOpen w = true) (reseats : Reseats att (seatAt r w))
    (outcome : HandshakeOutcome) :
    Moves x env accepts removes 4 r (r.welcome x env w att outcome).2 ∧
      ((r.welcome x env w att outcome).1 = true →
        seatAt (r.welcome x env w att outcome).2 w = att) := by
  cases written : env.attachOk att with
  | false =>
    simp only [Relay.welcome, Relay.serializeAttachment, written]
    exact ⟨.refl 4 r, by simp⟩
  | true =>
    constructor
    · have attached : Moves x env accepts removes 0 r { r with room := r.room.attach w att } :=
        .single (.attach w att isOpen reseats)
      have registered := attached.trans (registerPeer_moves
        { r with room := r.room.attach w att } outcome.groupKey outcome.peerId)
      have answered := registered.trans (Trail.single (.send w outcome.responseBytes
        .handshakeResponse (by simp)))
      simp only [Relay.welcome, Relay.serializeAttachment, written, ↓reduceIte]
      split
      · rename_i after sent
        rw [sent] at answered
        exact answered
      · rename_i after sent
        rw [sent] at answered
        have discarded : Moves x env accepts removes 0 after
            (after.buildFor x env att att.peerId).2 :=
          .single (.discard att att.peerId)
        exact (answered.trans discarded).trans (broadcast_moves _ outcome.groupKey 0)
    · intro _
      have quiet := welcome_quiet x env r w att outcome written
      rw [seatAt_of_sockets quiet.sockets, seatAt_of_sockets (r := { r with
        room := r.room.attach w att })]
      · exact seatAt_attach isOpen att
      · rw [registerPeer_room]

theorem onHandShake_moves (isOpen : r.room.isOpen w = true) (seat : SameSeat att (seatAt r w))
    (payload : Bytes) :
    Moves x env accepts removes 4 r (r.onHandShake x env w att payload).2.2 ∧
      ((r.onHandShake x env w att payload).1 = true →
        Reseats (r.onHandShake x env w att payload).2.1
          (seatAt (r.onHandShake x env w att payload).2.2 w)) := by
  unfold Relay.onHandShake
  cases handleHandshake x payload r.global.networkDigestRegistry with
  | mk outcome registry =>
    set noted : Relay := { r with global := { r.global with networkDigestRegistry := registry } }
    have registered : Moves x env accepts removes 0 r noted := .single (.aside ⟨rfl, rfl, rfl, rfl⟩)
    cases outcome with
    | none =>
      have refused : Aside r { noted with
          room := { noted.room with closing := noted.room.closing ++ [w] } } :=
        ⟨rfl, rfl, rfl, rfl⟩
      constructor
      · exact (Trail.single (.aside refused)).mono (by omega)
      · intro _
        exact seat.reseats
    | some outcome =>
      have reseats : Reseats (attachOutcome att outcome) (seatAt noted w) :=
        ⟨seat.session, Or.inr rfl⟩
      obtain ⟨moves, seated⟩ :=
        @welcome_moves x env accepts removes noted w _ isOpen reseats outcome
      constructor
      · exact (registered.trans moves).mono (by omega)
      · intro completed
        simp only at completed ⊢
        rw [seated completed]
        exact (SameSeat.refl _).reseats

theorem onHandShake_isOpen (isOpen : r.room.isOpen w = true) (payload : Bytes) :
    (r.onHandShake x env w att payload).2.2.room.isOpen w = true := by
  unfold Relay.onHandShake
  cases handleHandshake x payload r.global.networkDigestRegistry with
  | mk outcome registry =>
    cases outcome with
    | none => exact isOpen
    | some outcome => exact isOpen_welcome (r := { r with global := { r.global with
        networkDigestRegistry := registry } }) isOpen _ outcome

theorem dispatch_moves (isOpen : r.room.isOpen w = true) (seat : SameSeat att (seatAt r w))
    (header : PacketHeader) (payload frame : Bytes) :
    Moves x env accepts removes (listedBy x payload + 4) r
        (r.dispatch x env w att header payload frame).2.2 ∧
      ((r.dispatch x env w att header payload frame).1 = true →
        Reseats (r.dispatch x env w att header payload frame).2.1
          (seatAt (r.dispatch x env w att header payload frame).2.2 w)) ∧
      (r.dispatch x env w att header payload frame).2.2.room.isOpen w = true := by
  by_cases kind : header.packetTypeEnum = .handShake
  · obtain ⟨moves, reseats⟩ := onHandShake_moves isOpen seat payload
    simp only [Relay.dispatch, kind]
    exact ⟨moves.mono (by omega), reseats, onHandShake_isOpen isOpen payload⟩
  · obtain ⟨same, quiet⟩ := dispatch_quiet x env r w att payload frame kind
    refine ⟨?_, ?_, ?_⟩
    · unfold Relay.dispatch
      cases packet : header.packetTypeEnum with
      | handShake => exact absurd packet kind
      | ping => exact (Trail.single (.send w _ .pong (by simp))).mono (by omega)
      | rpcReq => exact (onRpcReq_moves isOpen seat header payload frame).mono (by omega)
      | rpcResp => exact (onRpcResp_moves header payload frame).mono (by omega)
      | _ => exact (forward_moves w header frame).mono (by omega)
    · intro _
      rw [same, seatAt_of_sockets quiet.sockets]
      exact seat.reseats
    · rwa [isOpen_of_sockets quiet.sockets]

theorem writeBack_moves {outcome : Bool × WsAttachment × Relay}
    (isOpen : outcome.2.2.room.isOpen w = true)
    (reseats : outcome.1 = true → Reseats outcome.2.1 (seatAt outcome.2.2 w)) :
    Moves x env accepts removes 0 outcome.2.2 (Relay.writeBack env w outcome) := by
  obtain ⟨ok, att, after⟩ := outcome
  cases ok with
  | false => exact .refl 0 after
  | true =>
    simp only [Relay.writeBack, Relay.serializeAttachment]
    split
    · exact .single (.attach w att isOpen (reseats rfl))
    · exact .refl 0 after

theorem currentAttachment_seat (env : Env) (r : Relay) (w : SocketId) :
    SameSeat (r.currentAttachment env w) (seatAt r w) := ⟨rfl, rfl, rfl, rfl⟩

def listedIn (x : Externals) : RoomEvent → Nat
  | .message _ (.binary bytes) => listedBy x (bytes.drop headerSize)
  | _ => 0

theorem message_moves (isOpen : r.room.isOpen w = true) (message : IncomingMessage) :
    Moves x env accepts removes (listedIn x (.message w message) + 4) r
      (r.websocketMessage x env w message) := by
  cases message with
  | text body => exact .refl _ r
  | binary bytes =>
    cases parsed : parseHeader bytes with
    | none =>
      simp only [Relay.websocketMessage, parsed]
      exact .refl _ r
    | some header =>
      obtain ⟨moves, reseats, stillOpen⟩ := dispatch_moves isOpen (currentAttachment_seat env r w)
        header (bytes.drop headerSize) bytes
      rw [websocketMessage_eq x env r w parsed]
      exact moves.trans (writeBack_moves stillOpen reseats)

theorem drop_moves (removed : ∀ att, LastConnection r w att → removes (removeCall env att)) :
    Moves x env accepts removes 1 r
      { r.dropConnection x env w with room := (r.dropConnection x env w).room.forget w } := by
  have forgets (r : Relay) : Moves x env accepts removes 0 r { r with room := r.room.forget w } :=
    .single (.forget w)
  by_cases leaves : ∃ att, LastConnection r w att
  · obtain ⟨att, last⟩ := leaves
    rw [dropConnection_last x env last]
    have called : Moves x env accepts removes 1 r
        (r.withManager ⟨RouteState.call x (routes r) (removeCall env att)⟩) :=
      .single (.call _ (Or.inr (removed att last)))
    exact (called.trans (broadcast_moves _ att.groupKey att.peerId)).trans (forgets _)
  · rw [dropConnection_idle x env fun att last => leaves ⟨att, last⟩]
    exact (forgets r).mono (by omega)

theorem scannedGroups_length (env : Env) (r : Relay) :
    (scannedGroups env r).length ≤ r.room.sockets.length := by
  have loop (sockets : List Socket) (acc : AlarmScan) :
      (sockets.foldl (scanSocket env.nowMs) acc).groupKeys.size ≤
        acc.groupKeys.size + sockets.length := by
    induction sockets generalizing acc with
    | nil => simp
    | cons s rest ih =>
      have first : (scanSocket env.nowMs acc s).groupKeys.size ≤ acc.groupKeys.size + 1 := by
        unfold scanSocket
        split
        · split
          · simp
          · simp only
            split
            · exact Std.ExtTreeSet.size_insert_le
            · simp
        · simp
      have later := ih (scanSocket env.nowMs acc s)
      rw [List.foldl_cons, List.length_cons]
      omega
  have empty : ({} : AlarmScan).groupKeys.size = 0 := rfl
  have whole := loop r.room.sockets {}
  unfold scannedGroups
  simp only
  split
  · rw [Std.ExtTreeSet.length_toList]
    omega
  · simp

theorem alarm_moves (r : Relay) :
    Moves x env accepts removes r.room.sockets.length r (r.alarm x env) := by
  have swept (groupKeys : List GroupKey) (r : Relay) :
      Moves x env accepts removes (1 * groupKeys.length) r
        (groupKeys.foldl (cleanupGroup env) r) := by
    refine Trail.foldl (fun _ => True) ?_ trivial
    intro groupKey _ r _
    exact ⟨.single (.call ⟨groupKey, env.seed groupKey, .cleanup staleP2pThresholdMs env.nowMs⟩
      (Or.inl trivial)), trivial⟩
  have told (groupKeys : List GroupKey) (r : Relay) :
      Moves x env accepts removes (0 * groupKeys.length) r
        (groupKeys.foldl (fun r groupKey => r.broadcastRouteUpdate x env groupKey 0) r) := by
    refine Trail.foldl (fun _ => True) ?_ trivial
    intro groupKey _ r _
    exact ⟨broadcast_moves r groupKey 0, trivial⟩
  have marked : Moves x env accepts removes 0 r (scanned env r) :=
    .single (.aside ⟨rfl, rfl, rfl, rfl⟩)
  have few := scannedGroups_length env r
  rw [alarm_eq]
  refine ((marked.trans (swept (scannedGroups env r) (scanned env r))).trans
    (told (scannedGroups env r) (cleaned env r))).mono ?_
  omega

theorem new_moves (r : Relay) :
    Moves x env accepts removes (2 * r.room.sockets.length) r (r.new env) := by
  have loop (sockets : List Socket) (gs : GlobalStateInner) (r : Relay) :
      Moves x env accepts removes (2 * sockets.length) { r with global := gs }
        { r with global := sockets.foldl (rehydratePeer env) gs } := by
    induction sockets generalizing gs with
    | nil => exact .refl _ _
    | cons s rest ih =>
      have first : Moves x env accepts removes 2 { r with global := gs }
          { r with global := rehydratePeer env gs s } := by
        unfold rehydratePeer
        split
        · exact .refl 2 _
        · rename_i att _
          split
          · exact .refl 2 _
          · split
            · exact .refl 2 _
            · have allowed : ∀ c ∈ ([⟨att.groupKey, env.seed att.groupKey, .addPeer att.peerId⟩,
                  ⟨att.groupKey, env.seed att.groupKey, .bumpMyInfoVersion⟩] : List RouteCall),
                  Ordinary x c ∨ removes c := by
                intro c listed
                left
                simp only [List.mem_cons, List.not_mem_nil, or_false] at listed
                rcases listed with rfl | rfl
                · trivial
                · trivial
              exact Moves.calls _ allowed { r with global := gs }
      refine (first.trans (ih (rehydratePeer env gs s))).mono ?_
      rw [List.length_cons]
      omega
  exact loop r.room.sockets r.global r

/- A restart forgets the shared state before the room is created again. -/
def woken (r : Relay) : RoomEvent → Relay
  | .restart => { r with global := GlobalStateInner.fresh }
  | _ => r

def RemovesBy (env : Env) (r : Relay) (e : RoomEvent) (c : RouteCall) : Prop :=
  ∃ w att, (e = .close w ∨ e = .error w) ∧ LastConnection r w att ∧ c = removeCall env att

def callsBound (x : Externals) (r : Relay) (e : RoomEvent) : Nat :=
  listedIn x e + 2 * r.room.sockets.length + 4

/-- One event, as moves. -/
theorem step_moves (x : Externals) (env : Env) (r : Relay) (e : RoomEvent) :
    Moves x env (e = .accept) (RemovesBy env r e) (callsBound x r e) (woken r e)
      (r.step x env e) := by
  unfold callsBound
  cases e with
  | accept => exact (Trail.single (.accept rfl)).mono (by omega)
  | message w message =>
    simp only [Relay.step, woken]
    split
    · rename_i isOpen
      exact (message_moves isOpen message).mono (by omega)
    · exact .refl _ r
  | close w =>
    simp only [Relay.step, woken]
    split
    · have removed : ∀ att, LastConnection r w att →
          RemovesBy env r (.close w) (removeCall env att) :=
        fun att last => ⟨w, att, Or.inl rfl, last, rfl⟩
      exact (drop_moves removed).mono (by omega)
    · exact .refl _ r
  | error w =>
    simp only [Relay.step, woken]
    split
    · have removed : ∀ att, LastConnection r w att →
          RemovesBy env r (.error w) (removeCall env att) :=
        fun att last => ⟨w, att, Or.inr rfl, last, rfl⟩
      exact (drop_moves removed).mono (by omega)
    · exact .refl _ r
  | alarm => exact (alarm_moves r).mono (by omega)
  | rehydrate => exact (new_moves r).mono (by omega)
  | restart =>
    have moves : Moves x env (RoomEvent.restart = .accept) (RemovesBy env r .restart)
        (2 * r.room.sockets.length) (woken r .restart) (r.step x env .restart) :=
      new_moves (woken r .restart)
    exact moves.mono (by omega)

/- The attachment that a socket is accepted with, if its write succeeds. -/
def firstAttachment (env : Env) (r : Relay) : WsAttachment where
  serverSessionId := randomU64String (env.randomU64 r.room.sent.length)
  lastSeenMs := env.nowMs.toInt64

def firstSeat (env : Env) (r : Relay) : WsAttachment :=
  if env.attachOk (firstAttachment env r) then firstAttachment env r else {}

theorem fetch_seat (isOpen : (r.fetch env).room.isOpen w = true) :
    (r.room.isOpen w = true ∧ seatAt (r.fetch env) w = seatAt r w) ∨
      (w = r.room.nextSocket ∧ seatAt (r.fetch env) w = firstSeat env r) := by
  obtain ⟨s, listed, named⟩ := List.any_eq_true.mp isOpen
  obtain rfl : s.id = w := by simpa using named
  have here := attachment_of_mem listed
  rcases List.mem_append.mp listed with old | new
  · left
    refine ⟨isOpen_of_mem old, ?_⟩
    rw [seatAt, seatAt, here, attachment_of_mem old]
  · right
    obtain rfl := List.mem_singleton.mp new
    refine ⟨rfl, ?_⟩
    rw [seatAt, here]
    by_cases written : env.attachOk (firstAttachment env r) = true
    · rw [firstSeat, if_pos written]
      simp only [firstAttachment] at written ⊢
      rw [if_pos written, Option.getD_some]
    · rw [firstSeat, if_neg written]
      simp only [firstAttachment] at written
      rw [if_neg written, Option.getD_none]

theorem isOpen_forget {w' : SocketId} (isOpen : (r.room.forget w').isOpen w = true) :
    w ≠ w' ∧ r.room.isOpen w = true := by
  obtain ⟨s, listed, named⟩ := List.any_eq_true.mp isOpen
  obtain rfl : s.id = w := by simpa using named
  obtain ⟨old, kept⟩ := List.mem_filter.mp listed
  exact ⟨by simpa using kept, isOpen_of_mem old⟩

theorem Move.seated {k : Nat} (move : Move x env accepts removes k r r')
    (isOpen : r'.room.isOpen w = true) :
    (r.room.isOpen w = true ∧ Reseats (seatAt r' w) (seatAt r w)) ∨
      (accepts ∧ w = r.room.nextSocket ∧ seatAt r' w = firstSeat env r) := by
  have kept (sockets : r'.room.sockets = r.room.sockets) :
      r.room.isOpen w = true ∧ Reseats (seatAt r' w) (seatAt r w) := by
    rw [seatAt_of_sockets sockets]
    exact ⟨by rwa [← isOpen_of_sockets sockets], (SameSeat.refl _).reseats⟩
  cases move with
  | call c allowed => exact Or.inl (kept rfl)
  | aside same => exact Or.inl (kept same.sockets)
  | send w' frame origin other => exact Or.inl (kept rfl)
  | discard att target => exact Or.inl (kept rfl)
  | tell w' att frame opened seat => exact Or.inl (kept rfl)
  | attach w' att opened reseats =>
    left
    rw [isOpen_attach] at isOpen
    refine ⟨isOpen, ?_⟩
    simp only [seatAt, attachment_attach opened]
    split
    · rename_i same
      rw [same, Option.getD_some]
      exact reseats
    · exact (SameSeat.refl _).reseats
  | accept accepting =>
    rcases fetch_seat isOpen with ⟨old, same⟩ | new
    · rw [same]
      exact Or.inl ⟨old, (SameSeat.refl _).reseats⟩
    · exact Or.inr ⟨accepting, new⟩
  | forget w' =>
    left
    obtain ⟨other, old⟩ := isOpen_forget isOpen
    refine ⟨old, ?_⟩
    simp only [seatAt, attachment_forget, other, ↓reduceIte]
    exact (SameSeat.refl _).reseats

theorem Move.nextSocket_le {k : Nat} (move : Move x env accepts removes k r r') :
    r.room.nextSocket ≤ r'.room.nextSocket := by
  cases move with
  | aside same => exact le_of_eq same.nextSocket.symm
  | accept accepting => exact Nat.le_succ _
  | _ => exact Nat.le_refl _

theorem lt_nextSocket (isOpen : r.room.isOpen w = true) : w < r.room.nextSocket := by
  obtain ⟨s, listed, named⟩ := List.any_eq_true.mp isOpen
  obtain rfl : s.id = w := by simpa using named
  exact r.room.ids.issued s listed

def IsUpdate (origin : Origin) : Prop :=
  ∃ key p req topology, origin = .routeUpdate key p req topology

theorem Move.logged {k : Nat} (move : Move x env accepts removes k r r') :
    ∃ added, r'.room.sent = r.room.sent ++ added ∧ ∀ entry ∈ added, IsUpdate entry.origin →
      ∃ att, r.room.isOpen entry.socket = true ∧ SameSeat att (seatAt r entry.socket) ∧
        entry.origin = updateSent env r att := by
  have silent (sent : r'.room.sent = r.room.sent) :
      ∃ added, r'.room.sent = r.room.sent ++ added ∧ ∀ entry ∈ added, IsUpdate entry.origin →
        ∃ att, r.room.isOpen entry.socket = true ∧ SameSeat att (seatAt r entry.socket) ∧
          entry.origin = updateSent env r att := ⟨[], by simp [sent], by simp⟩
  cases move with
  | call c allowed => exact silent rfl
  | aside same => exact silent same.sent
  | send w frame origin other =>
    refine ⟨[⟨w, frame, env.sendOk r.room.sent.length, origin⟩], rfl, ?_⟩
    intro entry listed update
    obtain ⟨key, p, req, topology, same⟩ := update
    rw [List.mem_singleton.mp listed] at same
    exact absurd same (other key p req topology)
  | discard att target => exact silent rfl
  | tell w att frame isOpen seat =>
    refine ⟨[⟨w, frame, env.sendOk r.room.sent.length, updateSent env r att⟩], rfl, ?_⟩
    intro entry listed update
    obtain rfl := List.mem_singleton.mp listed
    exact ⟨att, isOpen, seat, rfl⟩
  | attach w att isOpen reseats => exact silent rfl
  | accept accepting => exact silent rfl
  | forget w => exact silent rfl

/-- An event only adds to the log. -/
theorem Moves.log_grows {n : Nat} (moves : Moves x env accepts removes n r r') :
    r.room.sent <+: r'.room.sent := by
  refine Trail.invariant (fun r' => r.room.sent <+: r'.room.sent) ?_ moves (List.prefix_refl _)
  intro k a b move grown
  obtain ⟨added, sent, -⟩ := move.logged
  rw [sent]
  exact grown.trans (List.prefix_append _ _)

/-- What the moves of an event and the loss of the shared state preserve, the event preserves. -/
theorem step_invariant {e : RoomEvent} (P : Relay → Prop)
    (forgets : P r → P { r with global := GlobalStateInner.fresh })
    (moves : ∀ k s s', Move x env (e = .accept) (RemovesBy env r e) k s s' → P s → P s')
    (start : P r) : P (r.step x env e) := by
  have woke : P (woken r e) := by
    cases e with
    | restart => exact forgets start
    | _ => exact start
  exact Trail.invariant P moves (step_moves x env r e) woke

/-- A socket that stays open through an event keeps its server session id. -/
theorem Moves.session_kept {n : Nat} (moves : Moves x env accepts removes n r r')
    (issued : w < r.room.nextSocket) (isOpen : r'.room.isOpen w = true) :
    r.room.isOpen w = true ∧ (seatAt r' w).serverSessionId = (seatAt r w).serverSessionId := by
  have kept := Trail.invariant (fun r' : Relay => w < r'.room.nextSocket ∧
    (r'.room.isOpen w = true → r.room.isOpen w = true ∧
      (seatAt r' w).serverSessionId = (seatAt r w).serverSessionId)) ?_ moves
    ⟨issued, fun isOpen => ⟨isOpen, rfl⟩⟩
  · exact kept.2 isOpen
  · intro k a b move ⟨below, same⟩
    refine ⟨lt_of_lt_of_le below move.nextSocket_le, ?_⟩
    intro opened
    rcases move.seated opened with ⟨before, reseats⟩ | ⟨-, fresh, -⟩
    · rw [reseats.session]
      exact same before
    · rw [fresh] at below
      exact absurd below (Nat.lt_irrefl _)

theorem woken_room (r : Relay) (e : RoomEvent) : (woken r e).room = r.room := by
  cases e with
  | restart => rfl
  | _ => rfl

theorem step_session_kept {e : RoomEvent} (issued : w < r.room.nextSocket)
    (isOpen : (r.step x env e).room.isOpen w = true) :
    r.room.isOpen w = true ∧
      (seatAt (r.step x env e) w).serverSessionId = (seatAt r w).serverSessionId := by
  have room := woken_room r e
  have kept := Moves.session_kept (step_moves x env r e) (by rwa [room]) isOpen
  have same : seatAt (woken r e) w = seatAt r w := by rw [seatAt, room, seatAt]
  rwa [room, same] at kept

theorem step_nextSocket_le (x : Externals) (env : Env) (r : Relay) (e : RoomEvent) :
    r.room.nextSocket ≤ (r.step x env e).room.nextSocket := by
  have grown := Trail.invariant (fun r' : Relay => (woken r e).room.nextSocket ≤ r'.room.nextSocket)
    (fun _ _ _ move below => le_trans below move.nextSocket_le) (step_moves x env r e) (le_refl _)
  rwa [woken_room] at grown

/-- A socket that is open before and after some events keeps its server session id. -/
theorem run_session_kept {events : List (Env × RoomEvent)} (issued : w < r.room.nextSocket)
    (isOpen : (Relay.run x r events).room.isOpen w = true) :
    (seatAt (Relay.run x r events) w).serverSessionId = (seatAt r w).serverSessionId := by
  let kept (r' : Relay) : Prop := w < r'.room.nextSocket ∧ (r'.room.isOpen w = true →
    (seatAt r' w).serverSessionId = (seatAt r w).serverSessionId)
  have each (s : Relay) (e : Env × RoomEvent) : kept s → kept (s.onEvent x e) := by
    intro ⟨below, same⟩
    refine ⟨lt_of_lt_of_le below (step_nextSocket_le x e.1 s e.2), ?_⟩
    intro opened
    obtain ⟨before, kept⟩ := step_session_kept below opened
    exact kept.trans (same before)
  have whole : kept (Relay.run x r events) := TransitionRuns.invariant_run kept
    (fun s e _ => each s e) ⟨issued, fun _ => rfl⟩ (TransitionRuns.everyStep_true r events)
  exact whole.2 isOpen

end RelayRoomMoves
