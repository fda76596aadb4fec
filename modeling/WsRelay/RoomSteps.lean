import WsRelay.RelayRoom
import WsRelay.RouteOps

/- What the handlers of the room leave alone, and which calls they make on the routes. Every
   handler but the handshake and the removal keeps sockets, registry and members. -/
namespace RelayRoomSteps
open RelayProtocol RelayRouteState RelayPeerCenter RelayPeerManager RelayRpcHandler RelayRoomModel
open RelayRouteOps PlainText TransitionRuns

theorem find_by_id {sockets : List Socket} (distinct : (sockets.map (·.id)).Nodup) {s : Socket}
    (listed : s ∈ sockets) : sockets.find? (·.id == s.id) = some s := by
  induction sockets with
  | nil => simp at listed
  | cons first rest ih =>
    simp only [List.map_cons, List.nodup_cons] at distinct
    rcases List.mem_cons.mp listed with here | later
    · subst here
      simp
    · have different : first.id ≠ s.id := by
        intro same
        exact distinct.1 (List.mem_map.mpr ⟨s, later, same.symm⟩)
      rw [List.find?_cons_of_neg (by simpa using different)]
      exact ih distinct.2 later

theorem attachment_of_mem {room : RelayRoom} {s : Socket} (listed : s ∈ room.sockets) :
    room.attachment s.id = s.attachment := by
  simp [RelayRoom.attachment, find_by_id room.ids.distinct listed]

theorem mem_of_attachment {room : RelayRoom} {w : SocketId} {att : WsAttachment}
    (attached : room.attachment w = some att) :
    ∃ s ∈ room.sockets, s.id = w ∧ s.attachment = some att := by
  obtain ⟨s, found, carries⟩ := Option.bind_eq_some_iff.mp attached
  have named := List.find?_some found
  exact ⟨s, List.mem_of_find?_eq_some found, by simpa using named, carries⟩

def Carries (s : Socket) (p : PeerId) (groupKey : GroupKey) : Prop :=
  ∃ att, s.attachment = some att ∧ att.peerId = p ∧ att.groupKey = groupKey

/- Only a successful handshake writes a group key, and a written key is never empty. -/
def Handshaken (att : WsAttachment) : Prop := att.groupKey ≠ ""

instance (att : WsAttachment) : Decidable (Handshaken att) := inferInstanceAs (Decidable (_ ≠ _))

/-- A group key gives back its network name and its digest. -/
theorem groupKeyOf_injective {n n' : String} {digest digest' : Bytes}
    (same : groupKeyOf n (hexText digest) = groupKeyOf n' (hexText digest')) :
    n = n' ∧ digest = digest' := by
  have chars : n.toList ++ ':' :: (hexText digest).toList =
      n'.toList ++ ':' :: (hexText digest').toList := by
    have texts := congrArg String.toList same
    simpa [groupKeyOf] using texts
  obtain ⟨names, digests⟩ :=
    split_last_injective (hexText_no_colon digest) (hexText_no_colon digest') chars
  exact ⟨String.toList_inj.mp names, hexText_injective (String.toList_inj.mp digests)⟩

theorem attachment_attach {room : RelayRoom} {w : SocketId} (isOpen : room.isOpen w = true)
    (att : WsAttachment) (w' : SocketId) :
    (room.attach w att).attachment w' = if w' = w then some att else room.attachment w' := by
  obtain ⟨s, listed, named⟩ := List.any_eq_true.mp isOpen
  obtain rfl : s.id = w := by simpa using named
  by_cases same : w' = s.id
  · subst same
    have listed' : s.attachIf s.id att ∈ (room.attach s.id att).sockets :=
      List.mem_map.mpr ⟨s, listed, rfl⟩
    have read := attachment_of_mem listed'
    rw [Socket.attachIf_id] at read
    simp [read, Socket.attachIf]
  · have unchanged (t : Socket) (other : t.id = w') : t.attachIf s.id att = t := by
      simp [Socket.attachIf, other, same]
    simp only [RelayRoom.attachment, RelayRoom.attach, List.find?_map, Function.comp_def,
      Socket.attachIf_id, same, ↓reduceIte]
    cases found : room.sockets.find? (·.id == w') with
    | none => rfl
    | some t =>
      have here : t.id = w' := by simpa using List.find?_some found
      simp [unchanged t here]

theorem attachment_forget (room : RelayRoom) (w w' : SocketId) :
    (room.forget w).attachment w' = if w' = w then none else room.attachment w' := by
  by_cases same : w' = w
  · subst same
    have absent : (room.forget w').sockets.find? (·.id == w') = none := by
      rw [List.find?_eq_none]
      intro s listed
      have kept := (List.mem_filter.mp listed).2
      simpa using kept
    simp [RelayRoom.attachment, absent]
  · have agree : (room.forget w).sockets.find? (·.id == w') =
        room.sockets.find? (·.id == w') := by
      simp only [RelayRoom.forget, List.find?_filter]
      congr 1
      funext s
      by_cases here : s.id = w'
      · simp [here, same]
      · simp [here]
    simp [RelayRoom.attachment, agree, same]

theorem attachment_next (room : RelayRoom) : room.attachment room.nextSocket = none := by
  cases attached : room.attachment room.nextSocket with
  | none => rfl
  | some att =>
    obtain ⟨s, listed, named, -⟩ := mem_of_attachment attached
    have below := room.ids.issued s listed
    rw [named] at below
    exact absurd below (Nat.lt_irrefl _)

def routes (r : Relay) : RouteState := r.global.peerManager.routeState

@[simp] theorem room_withManager (r : Relay) (pm : PeerManager) :
    (r.withManager pm).room = r.room := rfl

@[simp] theorem registry_withManager (r : Relay) (pm : PeerManager) :
    (r.withManager pm).global.networkDigestRegistry = r.global.networkDigestRegistry := rfl

@[simp] theorem routes_withManager (r : Relay) (pm : PeerManager) :
    routes (r.withManager pm) = pm.routeState := rfl

def Routine (c : RouteCall) : Prop := c.op.routine = true

def KeepsMembers (c : RouteCall) : Prop := c.op.keepsMembers = true

def IsBuild (c : RouteCall) : Prop := c.op.isBuild = true

def KeepsInfos (c : RouteCall) : Prop := c.op.keepsInfos = true

def Plain (c : RouteCall) : Prop := c.op.plain = true

def Enrolls (c : RouteCall) : Prop := c.op.enrolls = true

def NoBuild (c : RouteCall) : Prop := c.op.isBuild = false

theorem Plain.routine (c : RouteCall) (plain : Plain c) : Routine c :=
  RouteOp.routine_of_plain plain

theorem Enrolls.keepsInfos (c : RouteCall) (enrolls : Enrolls c) : KeepsInfos c :=
  (RouteOp.keeps_of_enrolls enrolls).1

theorem Enrolls.noBuild (c : RouteCall) (enrolls : Enrolls c) : NoBuild c :=
  (RouteOp.keeps_of_enrolls enrolls).2

theorem Plain.noBuild (c : RouteCall) (plain : Plain c) : NoBuild c :=
  RouteOp.not_isBuild_of_plain plain

theorem IsBuild.routine (c : RouteCall) (builds : IsBuild c) : Routine c :=
  RouteOp.routine_of_isBuild builds

theorem Routine.keepsMembers (c : RouteCall) (ordinary : Routine c) : KeepsMembers c :=
  RouteOp.keepsMembers_of_routine ordinary

theorem Plain.keepsMembers (c : RouteCall) (plain : Plain c) : KeepsMembers c :=
  (Plain.routine c plain).keepsMembers

theorem IsBuild.keepsMembers (c : RouteCall) (builds : IsBuild c) : KeepsMembers c :=
  (IsBuild.routine c builds).keepsMembers

theorem Routine.keepsInfos (c : RouteCall) (ordinary : Routine c) : KeepsInfos c :=
  RouteOp.keepsInfos_of_routine ordinary

theorem Plain.keepsInfos (c : RouteCall) (plain : Plain c) : KeepsInfos c :=
  (Plain.routine c plain).keepsInfos

structure Quiet (x : Externals) (allowed : RouteCall → Prop) (r r' : Relay) : Prop where
  sockets : r'.room.sockets = r.room.sockets
  nextSocket : r'.room.nextSocket = r.room.nextSocket
  registry : r'.global.networkDigestRegistry = r.global.networkDigestRegistry
  reached : Reaches x allowed (routes r) (routes r')

section Quiet
variable {x : Externals} {allowed weaker : RouteCall → Prop} {r r' r'' : Relay}

theorem Quiet.refl (r : Relay) : Quiet x allowed r r := ⟨rfl, rfl, rfl, Reaches.refl _⟩

theorem Quiet.trans (first : Quiet x allowed r r') (second : Quiet x allowed r' r'') :
    Quiet x allowed r r'' where
  sockets := second.sockets.trans first.sockets
  nextSocket := second.nextSocket.trans first.nextSocket
  registry := second.registry.trans first.registry
  reached := first.reached.trans second.reached

theorem Quiet.mono (imp : ∀ c, allowed c → weaker c) (quiet : Quiet x allowed r r') :
    Quiet x weaker r r' :=
  ⟨quiet.sockets, quiet.nextSocket, quiet.registry, quiet.reached.mono imp⟩

theorem Quiet.foldl {Item : Type} {body : Relay → Item → Relay}
    (each : ∀ r item, Quiet x allowed r (body r item)) (items : List Item) (r : Relay) :
    Quiet x allowed r (items.foldl body r) := by
  induction items generalizing r with
  | nil => exact Quiet.refl r
  | cons item rest ih => exact (each r item).trans (ih (body r item))

theorem Quiet.withManager {pm : PeerManager} (reached : Reaches x allowed (routes r) pm.routeState) :
    Quiet x allowed r (r.withManager pm) :=
  ⟨rfl, rfl, rfl, reached⟩

end Quiet

variable (x : Externals) (env : Env) (r : Relay)

theorem send_quiet {allowed : RouteCall → Prop} (w : SocketId) (frame : Bytes) (origin : Origin) :
    Quiet x allowed r (r.send env w frame origin).2 :=
  ⟨rfl, rfl, rfl, Reaches.refl _⟩

theorem forward_quiet {allowed : RouteCall → Prop} (w : SocketId) (header : PacketHeader)
    (frame : Bytes) : Quiet x allowed r (r.forwardMessage env w header frame).2 := by
  unfold Relay.forwardMessage
  split
  · exact Quiet.refl r
  · simp only
    split
    · split
      · exact Quiet.refl r
      · exact send_quiet x env r _ frame _
    · exact send_quiet x env r _ frame _

def buildCall (att : WsAttachment) (target : PeerId) : RouteCall where
  groupKey := att.groupKey
  seed := env.seed att.groupKey
  op :=
    let ctx := attachmentToCtx (env.randomU64 r.room.sent.length) att
    .build env.nowMs target ((parseU64 ctx.serverSessionId).getD 0) att.weAreInitiator true

theorem buildFor_snd (att : WsAttachment) (target : PeerId) :
    (r.buildFor x env att target).2 =
      r.withManager ⟨RouteState.call x (routes r) (buildCall env r att target)⟩ := rfl

theorem buildFor_quiet (att : WsAttachment) (target : PeerId) :
    Quiet x IsBuild r (r.buildFor x env att target).2 := by
  have builds : IsBuild (buildCall env r att target) := rfl
  rw [buildFor_snd]
  exact Quiet.withManager (Reaches.call builds)

theorem broadcastTo_cases (groupKey : GroupKey) (excludePeerId : PeerId) (s : Socket) :
    broadcastTo x env groupKey excludePeerId r s = r ∨
      ∃ att frame origin, s.attachment = some att ∧ att.groupKey = groupKey ∧
        broadcastTo x env groupKey excludePeerId r s =
          ((r.buildFor x env att att.peerId).2.send env s.id frame origin).2 := by
  unfold broadcastTo
  cases s.attachment with
  | none => exact Or.inl rfl
  | some att =>
    simp only
    split
    · exact Or.inl rfl
    · split
      · exact Or.inl rfl
      · rename_i same
        exact Or.inr ⟨att, _, _, rfl, not_not.mp same, rfl⟩

theorem broadcast_invariant (inv : Relay → Prop) {groupKey : GroupKey} {excludePeerId : PeerId}
    (turn : ∀ r', ∀ s ∈ r.room.sockets, inv r' →
      inv (broadcastTo x env groupKey excludePeerId r' s)) (start : inv r) :
    inv (r.broadcastRouteUpdate x env groupKey excludePeerId) := by
  have listed : EveryStep (broadcastTo x env groupKey excludePeerId)
      (fun _ s => s ∈ r.room.sockets) r r.room.sockets := everyStep_of_forall fun _ inside => inside
  exact invariant_run inv turn start listed

theorem runAction_sends (w : SocketId) (att : WsAttachment) (p : PeerId) (bytes : Bytes) :
    ∃ frame, r.runAction x env w att (.sendTo p bytes) = r.send env w frame .rpcResp :=
  ⟨_, rfl⟩

theorem runAction_pushes (w : SocketId) (att : WsAttachment) (p : PeerId) (groupKey : GroupKey) :
    ∃ frame origin, r.runAction x env w att (.pushRouteUpdate p groupKey) =
      (r.buildFor x env att p).2.send env w frame origin :=
  ⟨_, _, rfl⟩

theorem runActions_invariant (inv : Relay → Prop) {w : SocketId} {att : WsAttachment}
    {actions : List RpcAction}
    (acts : ∀ r, ∀ action ∈ actions, inv r → inv (r.runAction x env w att action).2)
    (start : inv r) : inv (Relay.runActions x env w att actions r).2 := by
  induction actions generalizing r with
  | nil => exact start
  | cons action rest ih =>
    have first := acts r action (by simp) start
    unfold Relay.runActions
    split
    · rename_i outcome
      rw [outcome] at first
      exact first
    · rename_i next outcome
      rw [outcome] at first
      exact ih next (fun r later listed => acts r later (by simp [listed])) first

theorem runActions_snd {x : Externals} {env : Env} {w : SocketId} (att : WsAttachment)
    (action : RpcAction) (rest : List RpcAction) (r : Relay) :
    (Relay.runActions x env w att (action :: rest) r).2 =
      if (r.runAction x env w att action).1
      then (Relay.runActions x env w att rest (r.runAction x env w att action).2).2
      else (r.runAction x env w att action).2 := by
  rw [Relay.runActions]
  split
  · rename_i outcome
    rw [outcome]
    rfl
  · rename_i outcome
    rw [outcome]
    rfl

theorem broadcastTo_quiet (groupKey : GroupKey) (excludePeerId : PeerId) (s : Socket) :
    Quiet x IsBuild r (broadcastTo x env groupKey excludePeerId r s) := by
  rcases broadcastTo_cases x env r groupKey excludePeerId s with
    same | ⟨att, frame, origin, -, -, told⟩
  · rw [same]
    exact Quiet.refl r
  · rw [told]
    exact (buildFor_quiet x env r att att.peerId).trans (send_quiet x env _ s.id frame origin)

theorem broadcast_quiet (groupKey : GroupKey) (excludePeerId : PeerId) :
    Quiet x IsBuild r (r.broadcastRouteUpdate x env groupKey excludePeerId) := by
  refine broadcast_invariant x env r (fun r' => Quiet x IsBuild r r') ?_ (Quiet.refl r)
  intro r' s _ quiet
  exact quiet.trans (broadcastTo_quiet x env r' groupKey excludePeerId s)

theorem runAction_quiet (w : SocketId) (att : WsAttachment) (action : RpcAction) :
    Quiet x IsBuild r (r.runAction x env w att action).2 := by
  cases action with
  | sendTo p bytes =>
    obtain ⟨frame, sent⟩ := runAction_sends x env r w att p bytes
    rw [sent]
    exact send_quiet x env r w frame .rpcResp
  | pushRouteUpdate p groupKey =>
    obtain ⟨frame, origin, pushed⟩ := runAction_pushes x env r w att p groupKey
    rw [pushed]
    exact (buildFor_quiet x env r att p).trans (send_quiet x env _ w frame origin)
  | broadcastRouteUpdate groupKey excludePeerId =>
    exact broadcast_quiet x env r groupKey excludePeerId
  | none => exact Quiet.refl r

theorem runActions_quiet (w : SocketId) (att : WsAttachment) (actions : List RpcAction)
    (r : Relay) : Quiet x IsBuild r (Relay.runActions x env w att actions r).2 := by
  refine runActions_invariant x env r (fun r' => Quiet x IsBuild r r') ?_ (Quiet.refl r)
  intro r' action _ quiet
  exact quiet.trans (runAction_quiet x env r' w att action)

theorem processItems_reaches (seed : GroupSeed) (groupKey : GroupKey) (items : List RoutePeerInfo)
    (acc : Bool × PeerManager) :
    Reaches x Plain acc.2.routeState
      (items.foldl (processItem x seed groupKey) acc).2.routeState := by
  induction items generalizing acc with
  | nil => exact Reaches.refl _
  | cons info rest ih =>
    have first : Reaches x Plain acc.2.routeState
        (processItem x seed groupKey acc info).2.routeState :=
      Reaches.call (c := ⟨groupKey, seed, .updatePeerInfo info.peerId (x.encodeRoutePeerInfo info)⟩)
        (by rfl)
    exact first.trans (ih _)

theorem processIncomingPeerInfos_reaches (pm : PeerManager) (seed : GroupSeed)
    (groupKey : GroupKey) (bytes : Bytes) :
    Reaches x Plain pm.routeState
      (pm.processIncomingPeerInfos x seed groupKey bytes).2.routeState := by
  unfold PeerManager.processIncomingPeerInfos
  split
  · exact Reaches.refl _
  · split
    · exact Reaches.refl _
    · exact processItems_reaches x seed groupKey _ (false, pm)

theorem applySyncRequest_reaches (a : Ambient) (ctx : WsPeerContext) (pm : PeerManager)
    (body : Bytes) (groupKey : GroupKey) :
    Reaches x Plain pm.routeState (applySyncRequest x a ctx pm body groupKey).2.2.routeState := by
  unfold applySyncRequest
  split
  · exact Reaches.refl _
  · rename_i req _
    have acked : Reaches x Plain pm.routeState
        (pm.onRouteSessionAck a.seed groupKey ctx.peerId req.mySessionId (!req.isInitiator)
          a.nowMs).routeState :=
      Reaches.call (c := ⟨groupKey, a.seed,
        .onRouteSessionAck ctx.peerId req.mySessionId (!req.isInitiator) a.nowMs⟩) (by rfl)
    have informed := processIncomingPeerInfos_reaches x
      (pm.onRouteSessionAck a.seed groupKey ctx.peerId req.mySessionId (!req.isInitiator) a.nowMs)
      a.seed groupKey body
    exact (acked.trans informed).trans (Reaches.call
      (c := ⟨groupKey, a.seed, .updatePeerConnections ctx.peerId body⟩) (by rfl))

/- The body of a SyncRouteInfo request, for the payloads that reach its handler. -/
def syncBody (payload : Bytes) : Option Bytes :=
  (x.decodeRpcPacket payload).bind fun packet =>
    if !isPeerCenterService (serviceName packet) && isOspfRouteService (serviceName packet) &&
        (methodIndex packet == 0 || methodIndex packet == 1)
    then some (innerRequestBody x packet) else none

def withSession (a : Ambient) (ctx : WsPeerContext) : WsPeerContext :=
  if ctx.serverSessionId.isEmpty then { ctx with serverSessionId := randomU64String a.randomU64 }
  else ctx

theorem withSession_peerId (a : Ambient) (ctx : WsPeerContext) :
    (withSession a ctx).peerId = ctx.peerId := by
  unfold withSession
  split <;> rfl

theorem applySyncRequest_peerId (a : Ambient) (ctx : WsPeerContext) (pm : PeerManager)
    (body : Bytes) (groupKey : GroupKey) :
    (applySyncRequest x a ctx pm body groupKey).2.1.peerId = ctx.peerId := by
  unfold applySyncRequest
  split <;> rfl

theorem handleSyncRouteInfo_routes (a : Ambient) (ctx : WsPeerContext) (pm : PeerManager)
    (packet : RpcPacket) (body : Bytes) (groupKey : GroupKey) :
    (handleSyncRouteInfo x a ctx pm packet body groupKey).2.2.routeState =
      RouteState.call x
        (applySyncRequest x a (withSession a ctx) pm body groupKey).2.2.routeState
        ⟨groupKey, a.seed, .handleSync ctx.peerId body a.nowMs⟩ := by
  have sender : (applySyncRequest x a (withSession a ctx) pm body groupKey).2.1.peerId =
      ctx.peerId := by
    rw [applySyncRequest_peerId, withSession_peerId]
  rw [← sender]
  unfold handleSyncRouteInfo
  simp only
  split <;> rfl

/-- A local request changes the routes as a SyncRouteInfo request, or not at all. -/
theorem handleRpcReq_routes (a : Ambient) (ctx : WsPeerContext) (pm : PeerManager)
    (centers : PeerCenterMap) (payload : Bytes) :
    (handleRpcReq x a ctx pm centers payload).peerManager.routeState =
      match syncBody x payload with
      | none => pm.routeState
      | some body => RouteState.call x
          (applySyncRequest x a (withSession a ctx) pm body ctx.groupKey).2.2.routeState
          ⟨ctx.groupKey, a.seed, .handleSync ctx.peerId body a.nowMs⟩ := by
  unfold handleRpcReq syncBody
  cases decoded : x.decodeRpcPacket payload with
  | none => rfl
  | some packet =>
    simp only [dispatchRpcReq, Option.bind_some]
    by_cases center : isPeerCenterService (serviceName packet) = true
    · simp [center]
    by_cases ospf : isOspfRouteService (serviceName packet) = true
    · by_cases method : methodIndex packet = 0 ∨ methodIndex packet = 1
      · have listed : (methodIndex packet == 0 || methodIndex packet == 1) = true := by
          simpa using method
        simp [center, ospf, method, handleSyncRouteInfo_routes]
      · simp [center, ospf, method]
    · simp [center, ospf]

theorem handleRpcReq_sync (a : Ambient) (ctx : WsPeerContext) (pm : PeerManager) {payload body : Bytes}
    (named : syncBody x payload = some body) (centers : PeerCenterMap) :
    ∃ packet, (handleRpcReq x a ctx pm centers payload).actions =
        (handleSyncRouteInfo x a ctx pm packet body ctx.groupKey).1 ∧
      (handleRpcReq x a ctx pm centers payload).peerManager =
        (handleSyncRouteInfo x a ctx pm packet body ctx.groupKey).2.2 := by
  unfold syncBody at named
  obtain ⟨packet, decoded, picked⟩ := Option.bind_eq_some_iff.mp named
  obtain ⟨service, inner⟩ := Option.ite_none_right_eq_some.mp picked
  obtain rfl := Option.some.inj inner
  simp only [Bool.and_eq_true, Bool.or_eq_true, Bool.not_eq_true', beq_iff_eq] at service
  obtain ⟨⟨other, ospf⟩, method⟩ := service
  refine ⟨packet, ?_, ?_⟩
  · simp [handleRpcReq, decoded, dispatchRpcReq, other, ospf, method]
  · simp [handleRpcReq, decoded, dispatchRpcReq, other, ospf, method]

/- The response to a decodable request, from the routes after its ack, infos and conn_info. -/
def syncResponse (a : Ambient) (ctx : WsPeerContext) (pm : PeerManager) (body : Bytes)
    (req : SyncRouteInfoRequest) : SyncRouteInfoResponse :=
  let applied := (applySyncRequest x a (withSession a ctx) pm body ctx.groupKey).2.2
  ((applied.routeState.ensureGroup a.seed ctx.groupKey).handleSyncRouteInfoRequest ctx.peerId req
    a.nowMs).1

theorem handleSyncRouteInfo_actions (a : Ambient) (ctx : WsPeerContext) (pm : PeerManager)
    {body : Bytes} {req : SyncRouteInfoRequest}
    (decoded : x.decodeSyncRouteInfoRequest body = some req) (packet : RpcPacket) :
    (handleSyncRouteInfo x a ctx pm packet body ctx.groupKey).1 =
      .sendTo ctx.peerId (buildRpcResponseBytes x packet
        (x.encodeSyncRouteInfoResponse (syncResponse x a ctx pm body req)) ctx.peerId) ::
      .pushRouteUpdate ctx.peerId ctx.groupKey ::
        if (applySyncRequest x a (withSession a ctx) pm body ctx.groupKey).1
        then [.broadcastRouteUpdate ctx.groupKey ctx.peerId] else [] := by
  have sender := applySyncRequest_peerId x a (withSession a ctx) pm body ctx.groupKey
  rw [withSession_peerId] at sender
  simp only [withSession] at sender
  simp only [handleSyncRouteInfo, PeerManager.handleSyncRouteInfo,
    RouteState.handleSyncRouteInfoRequest, decoded, sender]
  rfl

def OwnAction (ctx : WsPeerContext) : RpcAction → Prop
  | .sendTo p _ => p = ctx.peerId
  | .pushRouteUpdate p groupKey => p = ctx.peerId ∧ groupKey = ctx.groupKey
  | .broadcastRouteUpdate groupKey p => groupKey = ctx.groupKey ∧ p = ctx.peerId
  | .none => True

theorem handleSyncRouteInfo_own (a : Ambient) (ctx : WsPeerContext) (pm : PeerManager)
    (packet : RpcPacket) (body : Bytes) :
    ∀ action ∈ (handleSyncRouteInfo x a ctx pm packet body ctx.groupKey).1,
      OwnAction ctx action := by
  have sender : (applySyncRequest x a (withSession a ctx) pm body ctx.groupKey).2.1.peerId =
      ctx.peerId := by
    rw [applySyncRequest_peerId, withSession_peerId]
  simp only [withSession] at sender
  intro action listed
  unfold handleSyncRouteInfo at listed
  simp only [sender] at listed
  split at listed
  · cases listed
  · rcases List.mem_append.mp listed with answer | broadcast
    · simp only [List.mem_cons, List.not_mem_nil, or_false] at answer
      rcases answer with rfl | rfl
      · rfl
      · exact ⟨rfl, rfl⟩
    · simp only [List.mem_ite_nil_right, List.mem_singleton] at broadcast
      rw [broadcast.2]
      exact ⟨rfl, rfl⟩

/-- A local request asks for actions on its own peer and group only. -/
theorem handleRpcReq_own (a : Ambient) (ctx : WsPeerContext) (pm : PeerManager)
    (centers : PeerCenterMap) (payload : Bytes) :
    ∀ action ∈ (handleRpcReq x a ctx pm centers payload).actions, OwnAction ctx action := by
  intro action listed
  unfold handleRpcReq at listed
  split at listed
  · cases listed
  · unfold dispatchRpcReq at listed
    simp only at listed
    split at listed
    · obtain ⟨bytes, -, rfl⟩ := Option.map_eq_some_iff.mp (Option.mem_toList.mp listed)
      rfl
    · split at listed
      · split at listed
        · exact handleSyncRouteInfo_own x a ctx pm _ _ action listed
        · cases listed
      · cases listed

/- The routes in front of handle_sync_route_info_request, and the call of it. -/
def appliedRoutes (att : WsAttachment) (body : Bytes) : RouteState :=
  let a := env.ambient att.groupKey r.room.sent.length
  let ctx := withSession a (attachmentToCtx a.randomU64 att)
  (applySyncRequest x a ctx r.global.peerManager body att.groupKey).2.2.routeState

def syncCall (att : WsAttachment) (body : Bytes) : RouteCall :=
  ⟨att.groupKey, env.seed att.groupKey, .handleSync att.peerId body env.nowMs⟩

theorem routes_handleRpcReqLocally (att : WsAttachment) (payload : Bytes) :
    routes (r.handleRpcReqLocally x env att payload).2 =
      match syncBody x payload with
      | none => routes r
      | some body => RouteState.call x (appliedRoutes x env r att body) (syncCall env att body) :=
  handleRpcReq_routes x _ _ _ _ _

theorem appliedRoutes_reaches (att : WsAttachment) (body : Bytes) :
    Reaches x Plain (routes r) (appliedRoutes x env r att body) :=
  applySyncRequest_reaches x _ _ _ body att.groupKey

theorem handleRpcReqLocally_quiet (att : WsAttachment) (payload : Bytes) :
    Quiet x KeepsMembers r (r.handleRpcReqLocally x env att payload).2 := by
  refine ⟨rfl, rfl, rfl, ?_⟩
  rw [routes_handleRpcReqLocally]
  split
  · exact Reaches.refl _
  · rename_i body _
    have handled : KeepsMembers (syncCall env att body) := rfl
    exact ((appliedRoutes_reaches x env r att body).mono Plain.keepsMembers).trans
      (Reaches.call handled)

theorem onRpcReq_quiet (w : SocketId) (att : WsAttachment) (header : PacketHeader)
    (payload frame : Bytes) :
    Quiet x KeepsMembers r (r.onRpcReq x env w att header payload frame).2 := by
  unfold Relay.onRpcReq
  split
  · exact (handleRpcReqLocally_quiet x env r att payload).trans
      ((runActions_quiet x env w att _ _).mono IsBuild.keepsMembers)
  · exact forward_quiet x env r w header frame

def ackedSession (payload : Bytes) : Option SessionId :=
  (x.decodeRpcPacket payload).bind fun packet =>
    if isOspfRouteService (serviceName packet) then
      ((x.decodeSyncRouteInfoResponse (innerResponseBody x packet)).map (·.sessionId)).filter (· ≠ 0)
    else none

theorem handleRpcResp_eq (a : Ambient) (ctx : WsPeerContext) (pm : PeerManager) (p : PeerId)
    (payload : Bytes) :
    handleRpcResp x a ctx pm p payload =
      (none, match ackedSession x payload with
        | none => pm
        | some sid => pm.onRouteSessionAck a.seed ctx.groupKey p sid ctx.weAreInitiator a.nowMs) := by
  unfold handleRpcResp ackedSession
  cases x.decodeRpcPacket payload with
  | none => rfl
  | some packet =>
    simp only [Option.bind_some]
    split
    · cases x.decodeSyncRouteInfoResponse (innerResponseBody x packet) with
      | none => rfl
      | some resp =>
        by_cases acks : resp.sessionId = 0
        · simp [acks, Option.filter]
        · simp [acks, Option.filter]
    · rfl

theorem handleRpcResp_reaches (a : Ambient) (ctx : WsPeerContext) (pm : PeerManager) (p : PeerId)
    (payload : Bytes) :
    Reaches x Plain pm.routeState (handleRpcResp x a ctx pm p payload).2.routeState := by
  rw [handleRpcResp_eq]
  cases ackedSession x payload with
  | none => exact Reaches.refl _
  | some sid =>
    exact Reaches.call (c := ⟨ctx.groupKey, a.seed,
      .onRouteSessionAck p sid ctx.weAreInitiator a.nowMs⟩) (by rfl)

theorem onRpcResp_quiet (w : SocketId) (att : WsAttachment) (header : PacketHeader)
    (payload frame : Bytes) :
    Quiet x Plain r (r.onRpcResp x env w att header payload frame).2 := by
  unfold Relay.onRpcResp
  split
  · exact Quiet.withManager (handleRpcResp_reaches x _ _ _ _ _)
  · exact forward_quiet x env r w header frame

/- The scan of an alarm: sockets are closed, and the groups of the others are cleaned. -/
def scanned : Relay :=
  let scan := r.room.sockets.foldl (scanSocket env.nowMs) {}
  { r with room := { r.room with closing := r.room.closing ++ scan.closed } }

def scannedGroups : List GroupKey :=
  let scan := r.room.sockets.foldl (scanSocket env.nowMs) {}
  if 0 < scan.aliveCount then scan.groupKeys.toList else []

def cleaned : Relay := (scannedGroups env r).foldl (cleanupGroup env) (scanned env r)

theorem alarm_eq :
    r.alarm x env = (scannedGroups env r).foldl
      (fun r groupKey => r.broadcastRouteUpdate x env groupKey 0) (cleaned env r) := by
  unfold Relay.alarm cleaned scannedGroups scanned
  simp only
  split
  · rfl
  · rfl

theorem cleaned_quiet : Quiet x Plain r (cleaned env r) := by
  have cleansOne (groupKey : GroupKey) (r : Relay) :
      Quiet x Plain r (cleanupGroup env r groupKey) :=
    Quiet.withManager (Reaches.call (c := ⟨groupKey, env.seed groupKey,
      .cleanup staleP2pThresholdMs env.nowMs⟩) (by rfl))
  have marked : Quiet x Plain r (scanned env r) := ⟨rfl, rfl, rfl, Reaches.refl _⟩
  exact marked.trans (Quiet.foldl (fun r groupKey => cleansOne groupKey r) _ _)

theorem cleaned_room : (cleaned env r).room = (scanned env r).room := by
  have swept (groupKeys : List GroupKey) (r : Relay) :
      (groupKeys.foldl (cleanupGroup env) r).room = r.room := by
    induction groupKeys generalizing r with
    | nil => rfl
    | cons groupKey rest ih => exact ih (cleanupGroup env r groupKey)
  exact swept _ _

theorem alarm_quiet : Quiet x Routine r (r.alarm x env) := by
  rw [alarm_eq]
  exact ((cleaned_quiet x env r).mono Plain.routine).trans
    (Quiet.foldl (fun r groupKey => (broadcast_quiet x env r groupKey 0).mono IsBuild.routine) _ _)

theorem writeBack_global (env : Env) (w : SocketId) (out : Bool × WsAttachment × Relay) :
    (Relay.writeBack env w out).global = out.2.2.global := by
  obtain ⟨ok, att, after⟩ := out
  cases ok with
  | false => rfl
  | true =>
    simp only [Relay.writeBack, Relay.serializeAttachment]
    split
    · rfl
    · rfl

theorem sent_serializeAttachment (env : Env) (r : Relay) (w : SocketId) (att : WsAttachment) :
    (r.serializeAttachment env w att).2.room.sent = r.room.sent := by
  unfold Relay.serializeAttachment
  split <;> rfl

theorem writeBack_sent (env : Env) (w : SocketId) (out : Bool × WsAttachment × Relay) :
    (Relay.writeBack env w out).room.sent = out.2.2.room.sent := by
  obtain ⟨ok, att, after⟩ := out
  cases ok with
  | false => rfl
  | true =>
    simp only [Relay.writeBack, Relay.serializeAttachment]
    split
    · rfl
    · rfl

theorem routes_writeBack (env : Env) (w : SocketId) (out : Bool × WsAttachment × Relay) :
    routes (Relay.writeBack env w out) = routes out.2.2 := by
  rw [routes, writeBack_global, routes]

theorem rehydrate_reaches (sockets : List Socket)
    (gs : GlobalStateInner) :
    Reaches x Enrolls gs.peerManager.routeState
      (sockets.foldl (rehydratePeer env) gs).peerManager.routeState := by
  induction sockets generalizing gs with
  | nil => exact Reaches.refl _
  | cons s rest ih =>
    refine Reaches.trans ?_ (ih (rehydratePeer env gs s))
    unfold rehydratePeer
    split
    · exact Reaches.refl _
    · split
      · exact Reaches.refl _
      · split
        · exact Reaches.refl _
        · rename_i att _ _ _
          have joins : Enrolls ⟨att.groupKey, env.seed att.groupKey, .addPeer att.peerId⟩ := rfl
          have bumps : Enrolls ⟨att.groupKey, env.seed att.groupKey, .bumpMyInfoVersion⟩ := rfl
          exact (Reaches.call joins).trans (Reaches.call bumps)

/- A close that removes: an attached peer without a namesake on another session. -/
def LastConnection (w : SocketId) (att : WsAttachment) : Prop :=
  r.room.attachment w = some att ∧ att.peerId ≠ 0 ∧ r.room.hasOtherConnection att = false

def removeCall (att : WsAttachment) : RouteCall :=
  ⟨att.groupKey, env.seed att.groupKey, .removePeer att.peerId env.nowMs⟩

variable {r} in
theorem dropConnection_last {w : SocketId} {att : WsAttachment} (last : LastConnection r w att) :
    r.dropConnection x env w =
      (r.withManager ⟨RouteState.call x (routes r) (removeCall env att)⟩).broadcastRouteUpdate x env
        att.groupKey att.peerId := by
  obtain ⟨attached, known, alone⟩ := last
  simp only [Relay.dropConnection, attached, known, alone, Bool.false_eq_true, ↓reduceIte,
    PeerManager.removePeer, attachmentToCtx]
  rfl

variable {r} in
theorem dropConnection_idle {w : SocketId} (stays : ∀ att, ¬ LastConnection r w att) :
    r.dropConnection x env w = r := by
  unfold Relay.dropConnection
  split
  · rfl
  · rename_i att attached
    split
    · rfl
    · rename_i known
      split
      · rfl
      · rename_i alone
        exact absurd ⟨attached, known, by simpa using alone⟩ (stays att)

end RelayRoomSteps
