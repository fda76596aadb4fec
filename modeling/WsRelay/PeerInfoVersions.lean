import WsRelay.Membership
import WsRelay.WireFormats

/- The versions of the stored peer infos. The item loop of handle_sync_route_info_request is
   the only writer that does not compare versions, so a SyncRouteInfo request alone decides
   whether a stored version falls. -/
namespace RelayPeerInfoVersions
open RelayProtocol RelayRouteState RelayPeerManager RelayRpcHandler RelayRoomModel RelayRouteOps
open RelayRoomSteps RelayMembership RelayWireFormats TransitionRuns FoldMaps

/- An id without an info is below every version. -/
abbrev InfoVersion := WithBot Nat

def versionOf (info : Option RoutePeerInfo) : InfoVersion :=
  match info with
  | some info => info.version.toNat
  | none => ⊥

def RouteState.info (st : RouteState) (key : GroupKey) (p : PeerId) : Option RoutePeerInfo :=
  (st.groups[key]?).bind (·.peerInfos[p]?)

def RouteState.infoVersion (st : RouteState) (key : GroupKey) (p : PeerId) : InfoVersion :=
  versionOf (RouteState.info st key p)

def infoReading (p : PeerId) : Reading (Option RoutePeerInfo) where
  of := fun g => g.peerInfos[p]?
  fresh := none
  new seed := by simp [newGroup]
  bump _ := rfl

theorem infoReading_read (st : RouteState) (key : GroupKey) (p : PeerId) :
    (infoReading p).read st key = RouteState.info st key p :=
  Reading.read_eq_bind rfl st key

theorem ensureGroup_info (st : RouteState) (seed : GroupSeed) (key : GroupKey) (p : PeerId) :
    (st.ensureGroup seed key).peerInfos[p]? = RouteState.info st key p :=
  ((infoReading p).ensureGroup st seed key).trans (infoReading_read st key p)

/-- A call changes the infos of its own group only, and as its edit does. -/
theorem info_call (x : Externals) (st : RouteState) (c : RouteCall) (key : GroupKey) (p : PeerId) :
    RouteState.info (RouteState.call x st c) key p =
      if c.groupKey = key then (c.op.edit x (st.ensureGroup c.seed key)).2.peerInfos[p]?
      else RouteState.info st key p := by
  rw [← infoReading_read, ← infoReading_read]
  exact (infoReading p).call x st c key

theorem selectInfo_peerInfos (nowMs : Millis) (myInfo : RoutePeerInfo) (full : Bool)
    (acc : InfoSelection) (q : PeerId) :
    (selectInfo nowMs myInfo full acc q).peerInfos =
      if q ≠ myPeerId ∧ q ∉ acc.peerInfos
      then acc.peerInfos.insert q (makeStubPeerInfo nowMs q (max myInfo.networkLength 1))
      else acc.peerInfos := by
  unfold selectInfo
  simp only [apply_ite InfoSelection.peerInfos, ite_self]

theorem selectInfo_keeps {nowMs : Millis} {myInfo : RoutePeerInfo} {full : Bool} {p : PeerId}
    {info : RoutePeerInfo} (relevant : List PeerId) {acc : InfoSelection}
    (stored : acc.peerInfos[p]? = some info) :
    (relevant.foldl (selectInfo nowMs myInfo full) acc).peerInfos[p]? = some info := by
  induction relevant generalizing acc with
  | nil => exact stored
  | cons q rest ih =>
    apply ih
    rw [selectInfo_peerInfos]
    split
    · rename_i missing
      have different : q ≠ p := by
        rintro rfl
        exact missing.2 (Std.ExtTreeMap.mem_iff_isSome_getElem?.mpr (by rw [stored]; rfl))
      simpa [Std.ExtTreeMap.getElem?_insert, different] using stored
    · exact stored

/-- A build adds stubs for missing ids and keeps every stored info. -/
theorem build_keeps_info {g : RouteGroupData} {p : PeerId} {info : RoutePeerInfo}
    (stored : g.peerInfos[p]? = some info) (now : Millis) (target : PeerId) (sid : SessionId)
    (initiator full : Bool) :
    (g.buildSyncRouteInfoRequest now target sid initiator full).2.peerInfos[p]? = some info := by
  obtain ⟨sessions, mapped⟩ := buildConnBitmap_frame
    ((g.touchSession target sid now).selectInfos now target full).2 (g.relevantPeers target) target
  simp only [RouteGroupData.buildSyncRouteInfoRequest, RouteGroupData.nextForeignVersion, mapped]
  exact selectInfo_keeps _ stored

theorem versionOf_le_insert {infos : PeerMap RoutePeerInfo} {p q : PeerId} {info : RoutePeerInfo}
    (grows : versionOf infos[p]? ≤ versionOf (some info)) :
    versionOf infos[q]? ≤ versionOf (infos.insert p info)[q]? := by
  by_cases same : p = q
  · subst same
    simpa using grows
  · simp [Std.ExtTreeMap.getElem?_insert, same]

/-- Every writer but the removal and the item loop compares versions first. -/
theorem edit_infoVersion_le (x : Externals) (g : RouteGroupData) {op : RouteOp}
    (keeps : op.keepsInfos = true) (p : PeerId) :
    versionOf g.peerInfos[p]? ≤ versionOf (op.edit x g).2.peerInfos[p]? := by
  cases op with
  | removePeer q now => simp [RouteOp.keepsInfos] at keeps
  | handleSync q bytes now => simp [RouteOp.keepsInfos] at keeps
  | updatePeerInfo q bytes =>
    simp only [RouteOp.edit]
    split
    · exact le_refl _
    · rename_i info _
      split
      · rename_i missing
        apply versionOf_le_insert
        rw [missing]
        exact bot_le
      · rename_i old stored
        simp only
        split
        · rename_i newer
          apply versionOf_le_insert
          rw [stored]
          have grows : old.version.toNat ≤ info.version.toNat :=
            Nat.le_of_lt (UInt32.lt_iff_toNat_lt.mp newer)
          exact WithBot.coe_le_coe.mpr grows
        · exact le_refl _
  | setMyInfoField field value =>
    obtain ⟨myInfo, myInfoVersion, kept⟩ := setMyInfoField_frame g field value
    simp only [RouteOp.edit, kept]
    exact le_refl _
  | updatePeerConnections q bytes =>
    obtain ⟨connections, kept⟩ := editPeerConnections_frame g x q bytes
    rw [kept]
  | build now target sid initiator full =>
    cases stored : g.peerInfos[p]? with
    | none => exact bot_le
    | some info =>
      rw [RouteOp.edit, build_keeps_info stored]
  | addPeer q => exact le_refl _
  | onRouteSessionAck q sid initiator now => exact le_refl _
  | bumpMyInfoVersion => exact le_refl _
  | cleanup threshold now => exact le_refl _

theorem call_infoVersion_le {x : Externals} {st : RouteState} {c : RouteCall}
    (keeps : c.op.keepsInfos = true) (key : GroupKey) (p : PeerId) :
    RouteState.infoVersion st key p ≤ RouteState.infoVersion (RouteState.call x st c) key p := by
  unfold RouteState.infoVersion
  rw [← infoReading_read, ← infoReading_read]
  refine (infoReading p).call_holds
    (P := fun info => versionOf ((infoReading p).read st key) ≤ versionOf info) (le_refl _) ?_
  intro _ before
  exact before.trans (edit_infoVersion_le x _ keeps p)

theorem reaches_infoVersion_le {x : Externals} {st st' : RouteState}
    (reached : Reaches x KeepsInfos st st') (key : GroupKey) (p : PeerId) :
    RouteState.infoVersion st key p ≤ RouteState.infoVersion st' key p :=
  reached.relation (fun a b => RouteState.infoVersion a key p ≤ RouteState.infoVersion b key p)
    (fun _ => le_refl _) le_trans (fun _ _ keeps => call_infoVersion_le keeps key p)

theorem reaches_build_info {x : Externals} {st st' : RouteState} (reached : Reaches x IsBuild st st')
    {key : GroupKey} {p : PeerId} {info : RoutePeerInfo}
    (stored : RouteState.info st key p = some info) : RouteState.info st' key p = some info := by
  refine reached.relation
    (fun a b => RouteState.info a key p = some info → RouteState.info b key p = some info)
    (fun _ same => same) (fun first second start => second (first start)) ?_ stored
  intro s c builds start
  rw [info_call]
  obtain ⟨group, seed, op⟩ := c
  cases op with
  | build now target sid initiator full =>
    by_cases named : group = key
    · simp only [named, ↓reduceIte, RouteOp.edit]
      apply build_keeps_info
      rwa [ensureGroup_info]
    · simpa [named] using start
  | _ => simp [IsBuild, RouteOp.isBuild] at builds

/- The item that the loop leaves behind for an id it may write. -/
def lastItemAbout (req : SyncRouteInfoRequest) (p : PeerId) : Option RoutePeerInfo :=
  req.peerInfos.bind fun infos => infos.items.reverse.find? (·.peerId == p)

def stamped (nowMs : Millis) (info : RoutePeerInfo) : RoutePeerInfo :=
  { info with lastUpdate := some (timestampOf nowMs) }

theorem storeItem_infos (nowMs : Millis) (peers : PeerSet) (sender : PeerId)
    (items : List RoutePeerInfo) (acc : Bool × PeerMap RoutePeerInfo) :
    (items.foldl (storeItem nowMs peers sender) acc).2 =
      items.foldl (fun infos info =>
        if peers.contains info.peerId || info.peerId == sender
        then infos.insert info.peerId (stamped nowMs info) else infos) acc.2 := by
  induction items generalizing acc with
  | nil => rfl
  | cons info rest ih =>
    rw [List.foldl_cons, List.foldl_cons, ih]
    congr 1
    unfold storeItem
    split
    · rfl
    · rfl

theorem storedItems_info (nowMs : Millis) (peers : PeerSet) (sender : PeerId)
    (items : List RoutePeerInfo) (infos : PeerMap RoutePeerInfo) (p : PeerId) :
    (items.foldl (storeItem nowMs peers sender) (false, infos)).2[p]? =
      if p ∈ peers ∨ p = sender then
        ((items.reverse.find? (·.peerId == p)).map (stamped nowMs)).or infos[p]?
      else infos[p]? := by
  rw [storeItem_infos, foldl_overwrite]
  split
  · rename_i connected
    have passes (info : RoutePeerInfo) : (((peers.contains info.peerId || info.peerId == sender) &&
        info.peerId == p) : Bool) = (info.peerId == p) := by
      by_cases about : info.peerId = p
      · subst about
        simpa using connected
      · simp [about]
    simp only [passes]
  · rename_i foreign
    obtain ⟨outside, other⟩ := not_or.mp foreign
    have skipped : (items.reverse.find? fun info =>
        (peers.contains info.peerId || info.peerId == sender) && info.peerId == p) = none := by
      rw [List.find?_eq_none]
      rintro info -
      by_cases about : info.peerId = p
      · subst about
        simp [outside, other]
      · simp [about]
    rw [skipped]
    rfl

theorem handleSync_info {x : Externals} {body : Bytes} {req : SyncRouteInfoRequest}
    (decoded : x.decodeSyncRouteInfoRequest body = some req) (g : RouteGroupData) (sender : PeerId)
    (now : Millis) (p : PeerId) :
    ((RouteOp.handleSync sender body now).edit x g).2.peerInfos[p]? =
      if p ∈ g.peers ∨ p = sender then
        ((lastItemAbout req p).map (stamped now)).or g.peerInfos[p]?
      else g.peerInfos[p]? := by
  simp only [RouteOp.edit, decoded, lastItemAbout]
  cases listed : req.peerInfos with
  | none =>
    simp only [Option.bind_none, Option.map_none, Option.none_or, ite_self]
    rfl
  | some infos => exact storedItems_info now g.peers sender infos.items g.peerInfos p

section Sync
variable {x : Externals} {env : Env} {r : Relay} {att : WsAttachment} {body : Bytes}
  {req : SyncRouteInfoRequest}

variable (env r att) in
theorem info_sync (decoded : x.decodeSyncRouteInfoRequest body = some req) (key : GroupKey)
    (p : PeerId) :
    RouteState.info (RouteState.call x (appliedRoutes x env r att body) (syncCall env att body))
        key p =
      if att.groupKey = key ∧ (p ∈ RouteState.members (routes r) key ∨ p = att.peerId) then
        ((lastItemAbout req p).map (stamped env.nowMs)).or
          (RouteState.info (appliedRoutes x env r att body) key p)
      else RouteState.info (appliedRoutes x env r att body) key p := by
  have sameMembers := members_reaches
    ((appliedRoutes_reaches x env r att body).mono Plain.keepsMembers)
  rw [info_call]
  by_cases named : att.groupKey = key
  · simp only [syncCall, named, ↓reduceIte, true_and]
    rw [handleSync_info decoded, ensureGroup_peers, ensureGroup_info, sameMembers]
  · simp only [syncCall, named, ↓reduceIte, false_and]

/- The request lowers no version: the last item about a connected id is not older. -/
def InOrder (st : RouteState) (att : WsAttachment) (req : SyncRouteInfoRequest) : Prop :=
  ∀ p, p ∈ RouteState.members st att.groupKey ∨ p = att.peerId →
    ∀ item, lastItemAbout req p = some item →
      RouteState.infoVersion st att.groupKey p ≤ versionOf (some item)

theorem sync_versions_iff (decoded : x.decodeSyncRouteInfoRequest body = some req)
    {final : RouteState}
    (built : Reaches x IsBuild
      (RouteState.call x (appliedRoutes x env r att body) (syncCall env att body)) final) :
    (∀ key p, RouteState.infoVersion (routes r) key p ≤ RouteState.infoVersion final key p) ↔
      InOrder (routes r) att req := by
  constructor
  · intro kept p connected item last
    have written := info_sync env r att decoded att.groupKey p
    simp only [connected, and_self, ↓reduceIte, last, Option.map_some, Option.some_or] at written
    have lasting := reaches_build_info built written
    have grown := kept att.groupKey p
    unfold RouteState.infoVersion at grown ⊢
    rw [lasting] at grown
    exact grown
  · intro ordered key p
    have applied := reaches_infoVersion_le
      ((appliedRoutes_reaches x env r att body).mono Plain.keepsInfos) key p
    have later := reaches_infoVersion_le
      (built.mono fun c builds => (IsBuild.routine c builds).keepsInfos) key p
    refine le_trans ?_ later
    have written := info_sync env r att decoded key p
    unfold RouteState.infoVersion
    rw [written]
    split
    · rename_i own
      obtain ⟨rfl, connected⟩ := own
      cases last : lastItemAbout req p with
      | none =>
        simp only [Option.map_none, Option.none_or]
        exact applied
      | some item =>
        simp only [Option.map_some, Option.some_or]
        exact ordered p connected item last
    · exact applied

end Sync

def localSync (x : Externals) (header : PacketHeader) (payload : Bytes) :
    Option SyncRouteInfoRequest :=
  if header.packetTypeEnum = .rpcReq ∧ handledLocally header = true then
    (syncBody x payload).bind x.decodeSyncRouteInfoRequest
  else none

theorem registerPeer_reaches (x : Externals) (env : Env) (r : Relay) (groupKey : GroupKey)
    (p : PeerId) :
    Reaches x KeepsInfos (routes r) (routes (r.registerPeer x env groupKey p)) := by
  have joined : KeepsInfos ⟨groupKey, env.seed groupKey, .addPeer p⟩ := rfl
  exact (Reaches.call joined).trans
    ((registerPeer_quiet x env r groupKey p).reached.mono Plain.keepsInfos)

theorem welcome_reaches (x : Externals) (env : Env) (r : Relay) (w : SocketId) (att : WsAttachment)
    (outcome : HandshakeOutcome) :
    Reaches x KeepsInfos (routes r) (routes (r.welcome x env w att outcome).2) := by
  cases written : env.attachOk att with
  | false =>
    simp only [Relay.welcome, Relay.serializeAttachment, written]
    exact Reaches.refl _
  | true =>
    have registered := registerPeer_reaches x env { r with room := r.room.attach w att }
      outcome.groupKey outcome.peerId
    exact registered.trans
      ((welcome_quiet x env r w att outcome written).reached.mono Routine.keepsInfos)

theorem onHandShake_reaches (x : Externals) (env : Env) (r : Relay) (w : SocketId)
    (att : WsAttachment) (payload : Bytes) :
    Reaches x KeepsInfos (routes r) (routes (r.onHandShake x env w att payload).2.2) := by
  unfold Relay.onHandShake
  simp only
  split
  · exact Reaches.refl _
  · rename_i outcome _
    have welcomed := welcome_reaches x env { r with global := { r.global with
      networkDigestRegistry := (handleHandshake x payload r.global.networkDigestRegistry).2 } }
      w (attachOutcome att outcome) outcome
    exact welcomed

theorem handleRpcReqLocally_reaches (x : Externals) (env : Env) (r : Relay) (att : WsAttachment)
    {payload : Bytes} (silent : (syncBody x payload).bind x.decodeSyncRouteInfoRequest = none) :
    Reaches x KeepsInfos (routes r) (routes (r.handleRpcReqLocally x env att payload).2) := by
  rw [routes_handleRpcReqLocally]
  split
  · exact Reaches.refl _
  · rename_i body named
    have undecodable : x.decodeSyncRouteInfoRequest body = none := by
      rw [named] at silent
      exact silent
    have skipped : RouteState.call x (appliedRoutes x env r att body) (syncCall env att body) =
        appliedRoutes x env r att body := by
      simp [RouteState.call, syncCall, RouteState.handleSyncRouteInfoRequest, undecodable]
    rw [skipped]
    exact (appliedRoutes_reaches x env r att body).mono Plain.keepsInfos

theorem onRpcReq_reaches (x : Externals) (env : Env) (r : Relay) (w : SocketId)
    (att : WsAttachment) {header : PacketHeader} {payload : Bytes} (frame : Bytes)
    (silent : handledLocally header = true →
      (syncBody x payload).bind x.decodeSyncRouteInfoRequest = none) :
    Reaches x KeepsInfos (routes r) (routes (r.onRpcReq x env w att header payload frame).2) := by
  unfold Relay.onRpcReq
  split
  · rename_i here
    exact (handleRpcReqLocally_reaches x env r att (silent here)).trans
      ((runActions_quiet x env w att _ _).reached.mono fun c builds =>
        (IsBuild.routine c builds).keepsInfos)
  · exact (forward_quiet x env r w header frame).reached

theorem dispatch_reaches (x : Externals) (env : Env) (r : Relay) (w : SocketId) (att : WsAttachment)
    {header : PacketHeader} {payload : Bytes} (frame : Bytes)
    (silent : localSync x header payload = none) :
    Reaches x KeepsInfos (routes r) (routes (r.dispatch x env w att header payload frame).2.2) := by
  unfold Relay.dispatch
  cases kind : header.packetTypeEnum with
  | handShake => exact onHandShake_reaches x env r w att payload
  | ping => exact (send_quiet x env r w _ _).reached
  | rpcReq =>
    refine onRpcReq_reaches x env r w att frame fun here => ?_
    simpa [localSync, kind, here] using silent
  | rpcResp =>
    exact (onRpcResp_quiet x env r w att header payload frame).reached.mono Plain.keepsInfos
  | _ => exact (forward_quiet x env r w header frame).reached

theorem dispatch_sync (x : Externals) (env : Env) (r : Relay) (w : SocketId) (att : WsAttachment)
    {header : PacketHeader} {payload : Bytes} (frame : Bytes) {req : SyncRouteInfoRequest}
    (asked : localSync x header payload = some req) :
    ∃ body, x.decodeSyncRouteInfoRequest body = some req ∧
      Reaches x IsBuild
        (RouteState.call x (appliedRoutes x env r att body) (syncCall env att body))
        (routes (r.dispatch x env w att header payload frame).2.2) := by
  obtain ⟨⟨kind, here⟩, decodes⟩ := (Option.ite_none_right_eq_some ..).mp asked
  obtain ⟨body, named, decoded⟩ := Option.bind_eq_some_iff.mp decodes
  refine ⟨body, decoded, ?_⟩
  have handled := routes_handleRpcReqLocally x env r att payload
  simp only [named] at handled
  simp only [Relay.dispatch, kind, Relay.onRpcReq, here, ↓reduceIte]
  rw [← handled]
  exact (runActions_quiet x env w att _ _).reached

/- The event takes this peer out of this group. A restart forgets every group. -/
def Removes (r : Relay) (e : RoomEvent) (key : GroupKey) (p : PeerId) : Prop :=
  match e with
  | .close w | .error w => ∃ att, LastConnection r w att ∧ att.peerId = p ∧ att.groupKey = key
  | .restart => True
  | _ => False

theorem dropConnection_infoVersion (x : Externals) (env : Env) (r : Relay) (w : SocketId)
    {key : GroupKey} {p : PeerId}
    (stays : ¬ ∃ att, LastConnection r w att ∧ att.peerId = p ∧ att.groupKey = key) :
    RouteState.infoVersion (routes r) key p ≤
      RouteState.infoVersion (routes (r.dropConnection x env w)) key p := by
  by_cases leaves : ∃ att, LastConnection r w att
  · obtain ⟨att, last⟩ := leaves
    rw [dropConnection_last x env last]
    have told := reaches_infoVersion_le ((broadcast_quiet x env (r.withManager
      ⟨RouteState.call x (routes r) (removeCall env att)⟩) att.groupKey att.peerId).reached.mono
        fun c builds => (IsBuild.routine c builds).keepsInfos) key p
    refine le_trans (le_of_eq ?_) told
    rw [routes_withManager]
    unfold RouteState.infoVersion
    rw [info_call]
    by_cases named : att.groupKey = key
    · have other : att.peerId ≠ p := fun same => stays ⟨att, last, same, named⟩
      simp [removeCall, named, RouteOp.edit, Std.ExtTreeMap.getElem?_erase, other, ensureGroup_info]
    · simp [removeCall, named]
  · rw [dropConnection_idle x env fun att last => leaves ⟨att, last⟩]

/- What one event must not do: lower the version of a peer that it does not remove. -/
def KeepsInfoVersions (x : Externals) (r : Relay) (e : Env × RoomEvent) : Prop :=
  ∀ key p, ¬ Removes r e.2 key p →
    RouteState.infoVersion (routes r) key p ≤ RouteState.infoVersion (routes (r.onEvent x e)) key p

def SyncsInOrder (x : Externals) (r : Relay) (e : Env × RoomEvent) : Prop :=
  match e.2 with
  | .message w (.binary bytes) =>
    r.room.isOpen w = true → ∀ header, parseHeader bytes = some header →
      ∀ req, localSync x header (bytes.drop headerSize) = some req →
        InOrder (routes r) (r.currentAttachment e.1 w) req
  | _ => True

theorem message_versions_iff {x : Externals} {env : Env} {r : Relay} {w : SocketId} {bytes : Bytes} :
    KeepsInfoVersions x r (env, .message w (.binary bytes)) ↔
      SyncsInOrder x r (env, .message w (.binary bytes)) := by
  simp only [KeepsInfoVersions, Removes, not_false_eq_true, true_implies, SyncsInOrder,
    Relay.onEvent, Relay.step]
  by_cases isOpen : r.room.isOpen w = true
  · simp only [isOpen, ↓reduceIte, true_implies]
    cases parsed : parseHeader bytes with
    | none => simp [Relay.websocketMessage, parsed]
    | some header =>
      rw [websocketMessage_eq x env r w parsed, routes_writeBack]
      simp only [Option.some.injEq, forall_eq']
      cases asked : localSync x header (bytes.drop headerSize) with
      | none =>
        refine iff_of_true ?_ (by simp)
        exact reaches_infoVersion_le (dispatch_reaches x env r w _ bytes asked)
      | some req =>
        obtain ⟨body, decoded, built⟩ := dispatch_sync x env r w (r.currentAttachment env w) bytes asked
        simp only [Option.some.injEq, forall_eq']
        exact sync_versions_iff decoded built
  · simp [isOpen]

theorem event_versions_iff {x : Externals} {r : Relay} {e : Env × RoomEvent} :
    KeepsInfoVersions x r e ↔ SyncsInOrder x r e := by
  obtain ⟨env, e⟩ := e
  cases e with
  | message w message =>
    cases message with
    | text body =>
      simp [KeepsInfoVersions, SyncsInOrder, Relay.onEvent, Relay.step, Relay.websocketMessage]
    | binary bytes => exact message_versions_iff
  | accept =>
    refine iff_of_true ?_ trivial
    intro key p _
    exact le_refl _
  | close w | error w =>
    refine iff_of_true ?_ trivial
    intro key p stays
    simp only [Relay.onEvent, Relay.step]
    split
    · exact dropConnection_infoVersion x env r w stays
    · exact le_refl _
  | alarm =>
    refine iff_of_true ?_ trivial
    intro key p _
    exact reaches_infoVersion_le ((alarm_quiet x env r).reached.mono Routine.keepsInfos) key p
  | rehydrate =>
    refine iff_of_true ?_ trivial
    intro key p _
    exact reaches_infoVersion_le
      ((rehydrate_reaches x env r.room.sockets r.global).mono Enrolls.keepsInfos) key p
  | restart =>
    refine iff_of_true ?_ trivial
    intro key p stays
    exact absurd trivial stays

/-- In a run, the info versions of the peers that stay never fall exactly if every request
    comes in order. -/
theorem peer_infos_never_regress_iff (x : Externals) (events : List (Env × RoomEvent)) :
    EveryStep (Relay.onEvent x) (KeepsInfoVersions x) Relay.initial events ↔
      EveryStep (Relay.onEvent x) (SyncsInOrder x) Relay.initial events := by
  constructor
  · exact everyStep_mono fun r e keeps => event_versions_iff.mp keeps
  · exact everyStep_mono fun r e ordered => event_versions_iff.mpr ordered

/- A member reports its own info with version 5, then with version 3. -/
def ownInfo (v : Version) : SyncRouteInfoRequest :=
  { myPeerId := 5, mySessionId := 9, isInitiator := false,
    peerInfos := some ⟨[{ peerId := 5, version := v }]⟩, connInfo := none,
    foreignNetworkInfos := none }

def staleReport : List (Env × RoomEvent) :=
  quietly [.accept, .message 0 (greeting 5 "net" [0xaa]), .message 0 (syncMessage 5 (ownInfo 5)),
    .message 0 (syncMessage 5 (ownInfo 3))]

set_option maxRecDepth 8000 in
theorem stale_report_lowers_a_version :
    ¬ EveryStep (Relay.onEvent wire) (KeepsInfoVersions wire) Relay.initial staleReport := by
  intro keeps
  let early : List (Env × RoomEvent) := staleReport.take 3
  let late : Env × RoomEvent := (quietEnv 1003 301, .message 0 (syncMessage 5 (ownInfo 3)))
  have split : staleReport = early ++ [late] := rfl
  rw [split] at keeps
  obtain ⟨-, last, -⟩ := (everyStep_append Relay.initial early [late]).mp keeps
  have grown := last "net:aa" 5 (by simp [late, Removes])
  have before : RouteState.infoVersion
      (routes (run (Relay.onEvent wire) Relay.initial early)) "net:aa" 5 = 5 := by decide
  have after : RouteState.infoVersion
      (routes (Relay.onEvent wire (run (Relay.onEvent wire) Relay.initial early) late))
      "net:aa" 5 = 3 := by decide
  rw [before, after] at grown
  exact absurd grown (by decide)

end RelayPeerInfoVersions
