import WsRelay.Framing
import WsRelay.RoomMoves
import WsRelay.BitmapDelivery
import WsRelay.Forwarding
import WsRelay.Library.OutputRuns

/- Every event acts on the routes in two phases. First come the calls it brings in, a join, a
   departure, a cleanup or a request of a peer; then come builds only, and what is sent to peers
   about the routes is built there. -/
namespace RelayPhases
open RelayProtocol RelayRouteState RelayPeerManager RelayRpcHandler RelayRoomModel RelayRouteOps
open RelayRoomSteps RelayMembership RelayBitmapDelivery RelayResidue RelayFraming RelayRoomMoves
open RelayConnBitmap RelayForwarding TransitionRuns OutputRuns

/- An update is built from routes that builds alone have reached. -/
def BuiltFrom (x : Externals) (st : RouteState) (entry : Sent) : Prop :=
  ∀ key target request topology, entry.origin = .routeUpdate key target request topology →
    ∃ st' seed nowMs sid initiator, Reaches x IsBuild st st' ∧
      request =
        (st'.buildSyncRouteInfoRequest seed nowMs key target sid initiator true).1 ∧
      topology = RouteState.topologyOf st' seed key target

structure Announces (x : Externals) (r r' : Relay) : Prop where
  reached : Reaches x IsBuild (routes r) (routes r')
  built : Logs (BuiltFrom x (routes r)) r r'

section Announce
variable {x : Externals} {env : Env} {r r' r'' : Relay} {w : SocketId} {att : WsAttachment}

theorem announces_same (sameRoutes : routes r' = routes r)
    (sameLog : r'.room.sent = r.room.sent) : Announces x r r' :=
  ⟨by rw [sameRoutes]; exact Reaches.refl _, logs_same sameLog⟩

theorem builtFrom_later {st st' : RouteState} {entry : Sent} (reached : Reaches x IsBuild st st')
    (built : BuiltFrom x st' entry) : BuiltFrom x st entry := by
  intro key target request topology origin
  obtain ⟨st'', seed, nowMs, sid, initiator, later, same⟩ :=
    built key target request topology origin
  exact ⟨st'', seed, nowMs, sid, initiator, reached.trans later, same⟩

theorem Announces.trans (first : Announces x r r') (second : Announces x r' r'') :
    Announces x r r'' := by
  refine ⟨first.reached.trans second.reached, first.built.trans ?_⟩
  obtain ⟨added, sent, each⟩ := second.built
  exact ⟨added, sent, fun entry listed => builtFrom_later first.reached (each entry listed)⟩

theorem Announces.after (announces : Announces x r r') (sameRoutes : routes r'' = routes r')
    (sameLog : r''.room.sent = r'.room.sent) : Announces x r r'' :=
  announces.trans (announces_same sameRoutes sameLog)

theorem send_announces {frame : Bytes} {origin : Origin}
    (other : ∀ key target request topology, origin ≠ .routeUpdate key target request topology) :
    Announces x r (r.send env w frame origin).2 := by
  refine ⟨Reaches.refl _, logs_send ?_⟩
  intro key target request topology same
  exact absurd same (other key target request topology)

theorem build_announces (env : Env) (r : Relay) (att : WsAttachment) (target : PeerId) :
    Announces x r (r.buildFor x env att target).2 := by
  have builds : IsBuild (buildCall env r att target) := rfl
  exact ⟨by rw [buildFor_snd]; exact Reaches.call builds, logs_same rfl⟩

theorem tell_announces (env : Env) (r : Relay) (w : SocketId) (att : WsAttachment)
    (target : PeerId) (frame : Bytes) :
    Announces x r ((r.buildFor x env att target).2.send env w frame
      (.routeUpdate att.groupKey target (builtRequest env r att target)
        (r.topology env att.groupKey target))).2 := by
  have builds := build_announces (x := x) env r att target
  refine ⟨builds.reached, builds.built.trans (logs_send ?_)⟩
  intro key target' request topology same
  obtain ⟨rfl, rfl, rfl, rfl⟩ := Origin.routeUpdate.inj same
  exact ⟨routes r, env.seed att.groupKey, env.nowMs, _, att.weAreInitiator, Reaches.refl _, rfl,
    rfl⟩

theorem broadcastTo_announces (groupKey : GroupKey) (excludePeerId : PeerId) (r : Relay)
    (s : Socket) : Announces x r (broadcastTo x env groupKey excludePeerId r s) := by
  unfold broadcastTo
  cases s.attachment with
  | none => exact announces_same rfl rfl
  | some att =>
    simp only
    split
    · exact announces_same rfl rfl
    · split
      · exact announces_same rfl rfl
      · exact tell_announces env r s.id att att.peerId _

theorem broadcast_announces (groupKey : GroupKey) (excludePeerId : PeerId) (r : Relay) :
    Announces x r (r.broadcastRouteUpdate x env groupKey excludePeerId) := by
  refine broadcast_invariant x env r (fun r' => Announces x r r') ?_ (announces_same rfl rfl)
  intro r' s _ announces
  exact announces.trans (broadcastTo_announces groupKey excludePeerId r' s)

theorem runAction_announces (r : Relay) (action : RpcAction) :
    Announces x r (r.runAction x env w att action).2 := by
  cases action with
  | sendTo p bytes =>
    obtain ⟨frame, sent⟩ := runAction_sends x env r w att p bytes
    rw [sent]
    exact send_announces (by simp)
  | pushRouteUpdate p groupKey => exact tell_announces env r w att p _
  | broadcastRouteUpdate groupKey excludePeerId =>
    exact broadcast_announces groupKey excludePeerId r
  | none => exact announces_same rfl rfl

theorem runActions_announces (actions : List RpcAction) (r : Relay) :
    Announces x r (Relay.runActions x env w att actions r).2 := by
  refine runActions_invariant x env r (fun r' => Announces x r r') ?_ (announces_same rfl rfl)
  intro r' action _ announces
  exact announces.trans (runAction_announces r' action)

theorem forward_announces (header : PacketHeader) (frame : Bytes) (r : Relay) :
    Announces x r (r.forwardMessage env w header frame).2 := by
  unfold Relay.forwardMessage
  split
  · exact announces_same rfl rfl
  · simp only
    split
    · split
      · exact announces_same rfl rfl
      · exact send_announces (by simp)
    · exact send_announces (by simp)

end Announce

/- A request that the relay handles for a peer of a group. -/
structure Report where
  groupKey : GroupKey
  sender : PeerId
  request : SyncRouteInfoRequest

def heard (x : Externals) (r : Relay) : RoomEvent → List Report
  | .message w (.binary frame) =>
    match parseHeader frame with
    | some header =>
      if r.room.isOpen w = true ∧ header.packetTypeEnum = .rpcReq ∧ handledLocally header = true
      then (((syncBody x (frame.drop headerSize)).bind x.decodeSyncRouteInfoRequest).map
        fun request => Report.mk (seatAt r w).groupKey (seatAt r w).peerId request).toList
      else []
    | none => []
  | _ => []

structure ConnReport where
  groupKey : GroupKey
  sender : PeerId
  connInfo : ConnInfo
  deriving DecidableEq

def Report.conn (report : Report) : Option ConnReport :=
  report.request.connInfo.map (⟨report.groupKey, report.sender, ·⟩)

def connOf (x : Externals) (c : RouteCall) : Option ConnReport :=
  match c.op with
  | .updatePeerConnections p bytes =>
    (x.decodeSyncRouteInfoRequest bytes).bind fun req => req.connInfo.map (⟨c.groupKey, p, ·⟩)
  | _ => none

/- An info comes from a handshake, where it says nothing, or from a report in the same group. -/
def Brings (x : Externals) (reports : List Report) (c : RouteCall) : Prop :=
  match c.op with
  | .updatePeerInfo p bytes =>
    (∃ nowMs, bytes = x.encodeRoutePeerInfo (handshakeInfo nowMs p)) ∨
      ∃ report ∈ reports, report.groupKey = c.groupKey ∧ ∃ item ∈ listedItems report.request,
        item.peerId = p ∧ bytes = x.encodeRoutePeerInfo item
  | .handleSync _ bytes _ => ∀ req, x.decodeSyncRouteInfoRequest bytes = some req →
      ∃ report ∈ reports, report.groupKey = c.groupKey ∧ report.request = req
  | .setMyInfoField _ _ => False
  | .build _ _ _ _ _ => False
  | _ => True

/- The calls of one event in front of its builds, `final` being the state behind the event. -/
structure Prepares (x : Externals) (reports : List Report) (final : RouteState)
    (calls : List RouteCall) : Prop where
  brings : ∀ c ∈ calls, Brings x reports c
  conns : calls.filterMap (connOf x) = reports.filterMap Report.conn
  stores : ∀ report ∈ reports, ∃ c ∈ calls, c.groupKey = report.groupKey ∧ ∃ bytes nowMs,
    c.op = .handleSync report.sender bytes nowMs ∧
      x.decodeSyncRouteInfoRequest bytes = some report.request
  leaves : ∀ c ∈ calls, ∀ p nowMs, c.op = .removePeer p nowMs →
    p ∉ RouteState.members final c.groupKey

def TwoPhases (x : Externals) (reports : List Report) (start r' : Relay) : Prop :=
  ∃ calls mid, Prepares x reports (routes r') calls ∧
    routes mid = RouteState.callAll x (routes start) calls ∧
    mid.room.sent = start.room.sent ∧ Announces x mid r'

section Prepare
variable {x : Externals} {env : Env} {r r' r'' : Relay} {w : SocketId} {att : WsAttachment}

theorem prepares_nothing (final : RouteState) : Prepares x [] final [] :=
  ⟨by simp, rfl, by simp, by simp⟩

theorem announced_alone (announces : Announces x r r') : TwoPhases x [] r r' :=
  ⟨[], r, prepares_nothing _, rfl, rfl, announces⟩

theorem TwoPhases.after {reports : List Report} (phases : TwoPhases x reports r r')
    (sameRoutes : routes r'' = routes r') (sameLog : r''.room.sent = r'.room.sent) :
    TwoPhases x reports r r'' := by
  obtain ⟨calls, mid, prepares, reached, log, announces⟩ := phases
  rw [← sameRoutes] at prepares
  exact ⟨calls, mid, prepares, reached, log, announces.after sameRoutes sameLog⟩

theorem prepares_plain {calls : List RouteCall} (final : RouteState)
    (plain : ∀ c ∈ calls, Brings x [] c ∧ connOf x c = none ∧
      ∀ p nowMs, c.op ≠ .removePeer p nowMs) : Prepares x [] final calls := by
  refine ⟨fun c listed => (plain c listed).1, ?_, by simp, ?_⟩
  · rw [List.filterMap_nil, List.filterMap_eq_nil_iff]
    exact fun c listed => (plain c listed).2.1
  · intro c listed p nowMs same
    exact absurd same ((plain c listed).2.2 p nowMs)

theorem enrolls_plain {c : RouteCall} (enrolls : Enrolls c) :
    Brings x [] c ∧ connOf x c = none ∧ ∀ p nowMs, c.op ≠ .removePeer p nowMs := by
  obtain ⟨key, seed, op⟩ := c
  cases op with
  | addPeer p => exact ⟨trivial, rfl, by simp⟩
  | bumpMyInfoVersion => exact ⟨trivial, rfl, by simp⟩
  | _ => cases enrolls

theorem new_phases (env : Env) (r : Relay) : TwoPhases x [] r (r.new env) := by
  obtain ⟨calls, enrolls, final⟩ := rehydrate_reaches x env r.room.sockets r.global
  refine ⟨calls, r.new env, prepares_plain _ fun c listed => enrolls_plain (enrolls c listed),
    final.symm, rfl, announces_same rfl rfl⟩

theorem drop_phases (x : Externals) (env : Env) (r : Relay) (w : SocketId) :
    TwoPhases x [] r (r.dropConnection x env w) := by
  by_cases leaves : ∃ att, LastConnection r w att
  · obtain ⟨att, last⟩ := leaves
    rw [dropConnection_last x env last]
    set left := r.withManager ⟨RouteState.call x (routes r) (removeCall env att)⟩
    have tells : Announces x left (left.broadcastRouteUpdate x env att.groupKey att.peerId) :=
      broadcast_announces _ _ left
    refine ⟨[removeCall env att], left, ⟨?_, rfl, by simp, ?_⟩, rfl, rfl, tells⟩
    · intro c listed
      rw [List.mem_singleton.mp listed]
      trivial
    · intro c listed p nowMs removes
      rw [List.mem_singleton.mp listed] at removes ⊢
      obtain ⟨rfl, -⟩ := RouteOp.removePeer.inj removes
      have members := members_reaches (tells.reached.mono IsBuild.keepsMembers)
      rw [members]
      have erased : RouteState.members (routes left) att.groupKey =
          (RouteState.members (routes r) att.groupKey).erase att.peerId := by
        simp only [left, routes_withManager, members_call, removeCall, ↓reduceIte,
          RouteOp.peersAfter]
      change att.peerId ∉ RouteState.members (routes left) att.groupKey
      rw [erased]
      simp
  · rw [dropConnection_idle x env fun att last => leaves ⟨att, last⟩]
    exact announced_alone (announces_same rfl rfl)

theorem alarm_phases (x : Externals) (env : Env) (r : Relay) :
    TwoPhases x [] r (r.alarm x env) := by
  have cleans (groupKeys : List GroupKey) (r : Relay) :
      routes (groupKeys.foldl (cleanupGroup env) r) = RouteState.callAll x (routes r)
        (groupKeys.map fun key => ⟨key, env.seed key, .cleanup staleP2pThresholdMs env.nowMs⟩) := by
    induction groupKeys generalizing r with
    | nil => rfl
    | cons key rest ih => exact ih (cleanupGroup env r key)
  have tells (groupKeys : List GroupKey) (r : Relay) : Announces x r
      (groupKeys.foldl (fun r groupKey => r.broadcastRouteUpdate x env groupKey 0) r) := by
    induction groupKeys generalizing r with
    | nil => exact announces_same rfl rfl
    | cons key rest ih => exact (broadcast_announces key 0 r).trans (ih _)
  rw [alarm_eq]
  refine ⟨_, cleaned env r, prepares_plain _ ?_, cleans (scannedGroups env r) (scanned env r), ?_,
    tells _ _⟩
  · intro c listed
    obtain ⟨key, -, rfl⟩ := List.mem_map.mp listed
    exact ⟨trivial, rfl, by simp⟩
  · rw [cleaned_room]
    rfl

theorem welcome_phases (x : Externals) (env : Env) (r : Relay) (w : SocketId) (att : WsAttachment)
    (outcome : HandshakeOutcome) : TwoPhases x [] r (r.welcome x env w att outcome).2 := by
  unfold Relay.welcome Relay.serializeAttachment
  cases env.attachOk att with
  | false => exact announced_alone (announces_same rfl rfl)
  | true =>
    simp only [↓reduceIte]
    set seated : Relay := { r with room := r.room.attach w att }
    set registered := seated.registerPeer x env outcome.groupKey outcome.peerId
    have joined := routes_registerPeer x env seated outcome.groupKey outcome.peerId
    have replied : Announces x registered
        (registered.send env w outcome.responseBytes .handshakeResponse).2 :=
      send_announces (by simp)
    have prepared (final : RouteState) : Prepares x [] final
        ([.addPeer outcome.peerId, .bumpMyInfoVersion, .updatePeerInfo outcome.peerId
          (x.encodeRoutePeerInfo (handshakeInfo env.nowMs outcome.peerId)),
          .bumpMyInfoVersion].map fun op =>
            RouteCall.mk outcome.groupKey (env.seed outcome.groupKey) op) := by
      refine prepares_plain final ?_
      intro c listed
      simp only [List.map_cons, List.map_nil, List.mem_cons, List.not_mem_nil, or_false] at listed
      rcases listed with rfl | rfl | rfl | rfl
      · exact ⟨trivial, rfl, by simp⟩
      · exact ⟨trivial, rfl, by simp⟩
      · exact ⟨Or.inl ⟨env.nowMs, rfl⟩, rfl, by simp⟩
      · exact ⟨trivial, rfl, by simp⟩
    split
    · rename_i state sent
      rw [sent] at replied
      exact ⟨_, registered, prepared _, joined, rfl, replied⟩
    · rename_i state sent
      rw [sent] at replied
      exact ⟨_, registered, prepared _, joined, rfl,
        (replied.trans (build_announces env state att att.peerId)).trans
          (broadcast_announces outcome.groupKey 0 _)⟩

theorem onHandShake_phases (x : Externals) (env : Env) (r : Relay) (w : SocketId)
    (att : WsAttachment) (payload : Bytes) :
    TwoPhases x [] r (r.onHandShake x env w att payload).2.2 := by
  simp only [Relay.onHandShake]
  cases handleHandshake x payload r.global.networkDigestRegistry with
  | mk outcome registry =>
    cases outcome with
    | none => exact announced_alone (announces_same rfl rfl)
    | some outcome =>
      exact welcome_phases x env { r with global := { r.global with
        networkDigestRegistry := registry } } w _ outcome

theorem onRpcResp_phases (x : Externals) (env : Env) (r : Relay) (w : SocketId)
    (att : WsAttachment) (header : PacketHeader) (payload frame : Bytes) :
    TwoPhases x [] r (r.onRpcResp x env w att header payload frame).2 := by
  unfold Relay.onRpcResp
  split
  · simp only [handleRpcResp_eq]
    cases ackedSession x payload with
    | none => exact announced_alone (announces_same rfl rfl)
    | some sid =>
      set ack : RouteCall := ⟨att.groupKey, env.seed att.groupKey, .onRouteSessionAck
        header.fromPeerId sid att.weAreInitiator env.nowMs⟩
      refine ⟨[ack], r.withManager ⟨RouteState.call x (routes r) ack⟩, prepares_plain _ ?_, rfl,
        rfl, announces_same rfl rfl⟩
      intro c listed
      rw [List.mem_singleton.mp listed]
      exact ⟨trivial, rfl, by simp⟩
  · exact announced_alone (forward_announces header frame r)

theorem requestCalls_prepare (a : Ambient) (ctx : WsPeerContext) (body : Bytes)
    (final : RouteState) :
    Prepares x (((x.decodeSyncRouteInfoRequest body).map fun request =>
      Report.mk ctx.groupKey ctx.peerId request).toList) final (requestCalls x a ctx body) := by
  cases decoded : x.decodeSyncRouteInfoRequest body with
  | none =>
    refine prepares_plain final ?_
    intro c listed
    simp only [requestCalls, applyCalls, decoded, List.nil_append, List.mem_singleton] at listed
    rw [listed]
    refine ⟨?_, rfl, by simp⟩
    intro req same
    rw [decoded] at same
    cases same
  | some req =>
    have members (c : RouteCall) (listed : c ∈ requestCalls x a ctx body) :=
      (mem_requestCalls listed).2
    refine ⟨?_, ?_, ?_, ?_⟩
    · intro c listed
      simp only [requestCalls, applyCalls, decoded, itemCalls, List.mem_append,
        List.mem_singleton, List.mem_map] at listed
      rcases listed with ((rfl | ⟨info, inside, rfl⟩) | rfl) | rfl
      · trivial
      · right
        exact ⟨⟨ctx.groupKey, ctx.peerId, req⟩, by simp, rfl, info, inside, rfl, rfl⟩
      · trivial
      · intro req' same
        rw [decoded] at same
        obtain rfl := Option.some.inj same
        exact ⟨⟨ctx.groupKey, ctx.peerId, req⟩, by simp, rfl, rfl⟩
    · have items : (itemCalls x a ctx.groupKey (listedItems req)).filterMap (connOf x) = [] := by
        rw [List.filterMap_eq_nil_iff]
        intro c listed
        obtain ⟨info, -, rfl⟩ := List.mem_map.mp listed
        rfl
      have acks : connOf x ⟨ctx.groupKey, a.seed, .onRouteSessionAck ctx.peerId req.mySessionId
          (!req.isInitiator) a.nowMs⟩ = none := rfl
      have answers : connOf x ⟨ctx.groupKey, a.seed, .handleSync ctx.peerId body a.nowMs⟩ =
          none := rfl
      have tells : connOf x ⟨ctx.groupKey, a.seed, .updatePeerConnections ctx.peerId body⟩ =
          Report.conn ⟨ctx.groupKey, ctx.peerId, req⟩ := by simp [connOf, decoded, Report.conn]
      simp only [requestCalls, applyCalls, decoded, List.filterMap_append, items,
        List.filterMap_cons, List.filterMap_nil, acks, answers, tells, Option.map_some,
        Option.toList_some, List.nil_append, List.append_nil]
    · intro report listed
      rw [Option.map_some, Option.toList_some, List.mem_singleton] at listed
      rw [listed]
      refine ⟨⟨ctx.groupKey, a.seed, .handleSync ctx.peerId body a.nowMs⟩, ?_, rfl, body, a.nowMs,
        rfl, decoded⟩
      simp [requestCalls]
    · intro c listed p nowMs removes
      have keeps := members c listed
      rw [removes] at keeps
      cases keeps

theorem handleRpcReqLocally_phases (x : Externals) (env : Env) (r : Relay) (w : SocketId)
    {att : WsAttachment} (seat : SameSeat att (seatAt r w)) (payload : Bytes) :
    TwoPhases x ((((syncBody x payload).bind x.decodeSyncRouteInfoRequest).map fun request =>
        Report.mk (seatAt r w).groupKey (seatAt r w).peerId request).toList) r
      (Relay.runActions x env w att (r.handleRpcReqLocally x env att payload).1
        (r.handleRpcReqLocally x env att payload).2).2 := by
  set handled := (r.handleRpcReqLocally x env att payload).2
  have tells : Announces x handled (Relay.runActions x env w att
      (r.handleRpcReqLocally x env att payload).1 handled).2 := runActions_announces _ handled
  set a := env.ambient att.groupKey r.room.sent.length
  set ctx := attachmentToCtx a.randomU64 att
  have routed : routes handled = _ :=
    handleRpcReq_routes x a ctx r.global.peerManager r.global.peerCenterMap payload
  cases named : syncBody x payload with
  | none =>
    rw [named] at routed
    exact ⟨[], handled, prepares_nothing _, routed, rfl, tells⟩
  | some body =>
    simp only [named, applySyncRequest_calls] at routed
    have whole : routes handled = RouteState.callAll x (routes r) (requestCalls x a ctx body) := by
      simp only [requestCalls, RouteState.callAll, run_append, run_cons, run_nil]
      exact routed
    have prepared := requestCalls_prepare (x := x) a ctx body (routes (Relay.runActions x env w att
      (r.handleRpcReqLocally x env att payload).1 handled).2)
    have group : ctx.groupKey = (seatAt r w).groupKey := seat.groupKey
    have peer : ctx.peerId = (seatAt r w).peerId := seat.peerId
    rw [group, peer] at prepared
    exact ⟨requestCalls x a ctx body, handled, prepared, whole, rfl, tells⟩

theorem dispatch_phases (x : Externals) (env : Env) {r : Relay} {w : SocketId}
    (isOpen : r.room.isOpen w = true) {frame : Bytes} {header : PacketHeader}
    (parsed : parseHeader frame = some header) :
    TwoPhases x (heard x r (.message w (.binary frame))) r
      (r.dispatch x env w (r.currentAttachment env w) header (frame.drop headerSize)
        frame).2.2 := by
  have seat := currentAttachment_seat env r w
  unfold Relay.dispatch
  cases kind : header.packetTypeEnum with
  | handShake =>
    have silent : heard x r (.message w (.binary frame)) = [] := by simp [heard, parsed, kind]
    rw [silent]
    exact onHandShake_phases x env r w _ _
  | ping =>
    have silent : heard x r (.message w (.binary frame)) = [] := by simp [heard, parsed, kind]
    rw [silent]
    exact announced_alone (send_announces (by simp))
  | rpcReq =>
    simp only [Relay.onRpcReq]
    split
    · rename_i here
      have asked : heard x r (.message w (.binary frame)) =
          (((syncBody x (frame.drop headerSize)).bind x.decodeSyncRouteInfoRequest).map
            fun request => Report.mk (seatAt r w).groupKey (seatAt r w).peerId request).toList := by
        simp [heard, parsed, isOpen, kind, here]
      rw [asked]
      exact handleRpcReqLocally_phases x env r w seat _
    · rename_i away
      have silent : heard x r (.message w (.binary frame)) = [] := by simp [heard, parsed, away]
      rw [silent]
      exact announced_alone (forward_announces header frame r)
  | rpcResp =>
    have silent : heard x r (.message w (.binary frame)) = [] := by simp [heard, parsed, kind]
    rw [silent]
    exact onRpcResp_phases x env r w _ header _ frame
  | _ =>
    have silent : heard x r (.message w (.binary frame)) = [] := by simp [heard, parsed, kind]
    rw [silent]
    exact announced_alone (forward_announces header frame r)

/-- Every event: what it brings in, then what it tells. -/
theorem step_phases (x : Externals) (env : Env) (r : Relay) (e : RoomEvent) :
    TwoPhases x (heard x r e) (woken r e) (r.step x env e) := by
  cases e with
  | accept => exact announced_alone (announces_same rfl rfl)
  | message w message =>
    simp only [Relay.step, woken]
    by_cases isOpen : r.room.isOpen w = true
    · rw [if_pos isOpen]
      cases message with
      | text body => exact announced_alone (announces_same rfl rfl)
      | binary frame =>
        cases parsed : parseHeader frame with
        | none =>
          simp only [Relay.websocketMessage, parsed, heard]
          exact announced_alone (announces_same rfl rfl)
        | some header =>
          rw [websocketMessage_eq x env r w parsed]
          exact (dispatch_phases x env isOpen parsed).after (routes_writeBack env w _)
            (writeBack_sent env w _)
    · rw [if_neg isOpen]
      have silent : heard x r (.message w message) = [] := by
        cases message with
        | text body => rfl
        | binary frame =>
          cases parsed : parseHeader frame with
          | none => simp [heard, parsed]
          | some header => simp [heard, parsed, isOpen]
      rw [silent]
      exact announced_alone (announces_same rfl rfl)
  | close w =>
    simp only [Relay.step, woken]
    split
    · exact (drop_phases x env r w).after rfl rfl
    · exact announced_alone (announces_same rfl rfl)
  | error w =>
    simp only [Relay.step, woken]
    split
    · exact (drop_phases x env r w).after rfl rfl
    · exact announced_alone (announces_same rfl rfl)
  | alarm => exact alarm_phases x env r
  | rehydrate => exact new_phases env r
  | restart => exact new_phases env _

end Prepare

section Log
variable {x : Externals} {r : Relay}

theorem woken_sent (r : Relay) (e : RoomEvent) : (woken r e).room.sent = r.room.sent := by
  cases e <;> rfl

/-- The routes and the log behind one event. -/
theorem onEvent_phases (x : Externals) (r : Relay) (e : Env × RoomEvent) :
    ∃ calls mid, Prepares x (heard x r e.2) (routes (Relay.onEvent x r e)) calls ∧
      routes mid = RouteState.callAll x (routes (woken r e.2)) calls ∧
      Reaches x IsBuild (routes mid) (routes (Relay.onEvent x r e)) ∧
      (Relay.onEvent x r e).room.sent = r.room.sent ++ sentSince r (Relay.onEvent x r e) ∧
      ∀ entry ∈ sentSince r (Relay.onEvent x r e), BuiltFrom x (routes mid) entry := by
  obtain ⟨calls, mid, prepares, reached, log, announces⟩ := step_phases x e.1 r e.2
  obtain ⟨added, sent, built⟩ := announces.built
  have grown : (Relay.onEvent x r e).room.sent = r.room.sent ++ added := by
    rw [← woken_sent r e.2, ← log]
    exact sent
  have since : sentSince r (Relay.onEvent x r e) = added := by
    rw [sentSince, grown, List.drop_left]
  rw [since]
  exact ⟨calls, mid, prepares, reached, announces.reached, grown, built⟩

/-- What a run logs is what its events log, one after the other. -/
theorem sentSince_run (x : Externals) (r : Relay) (events : List (Env × RoomEvent)) :
    sentSince r (Relay.run x r events) =
      outputs (Relay.onEvent x) (fun r e => sentSince r (r.onEvent x e)) r events := by
  have logs (s : Relay) (e : Env × RoomEvent) :
      (s.onEvent x e).room.sent = s.room.sent ++ sentSince s (s.onEvent x e) := by
    obtain ⟨-, -, -, -, -, grown, -⟩ := onEvent_phases x s e
    exact grown
  have grown : (Relay.run x r events).room.sent = r.room.sent ++
      outputs (Relay.onEvent x) (fun r e => sentSince r (r.onEvent x e)) r events :=
    logged_run (fun s : Relay => s.room.sent) logs r events
  rw [sentSince, grown, List.drop_left]

end Log

end RelayPhases
