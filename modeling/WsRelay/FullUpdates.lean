import WsRelay.InfoSelections
import WsRelay.RestartVersions

/- A full update describes the membership of its group: the listed infos, the foreign ids and
   the ids of the bitmap are one sorted list. The infos need an invariant of all writers, that
   whatever is stored under an id carries it. -/
namespace RelayFullUpdates
open RelayProtocol RelayRouteState RelayPeerManager RelayRpcHandler RelayRouteOps RelayRoomSteps
open RelayConnBitmap RelayChangeBroadcast RelayResidue RelayOwnRecords RelayInfoSelections
open RelayRestartVersions RelayWireFormats TransitionRuns

/- An info is passed to update_peer_info under its own id by all callers of the source. -/
inductive ManagerEvent where
  | addPeer (seed : GroupSeed) (groupKey : GroupKey) (peerId : PeerId)
  | cleanup (seed : GroupSeed) (groupKey : GroupKey) (staleThresholdMs nowMs : Millis)
  | removePeer (seed : GroupSeed) (ctx : WsPeerContext) (nowMs : Millis)
  | updatePeerInfo (seed : GroupSeed) (groupKey : GroupKey) (info : RoutePeerInfo)
  | bumpMyInfoVersion (seed : GroupSeed) (groupKey : GroupKey)
  | setMyInfoField (seed : GroupSeed) (groupKey : GroupKey) (field value : String)
  | onRouteSessionAck (seed : GroupSeed) (groupKey : GroupKey) (peerId : PeerId)
      (theirSessionId : SessionId) (weAreInitiator : Bool) (nowMs : Millis)
  | buildRouteUpdate (a : Ambient) (ctx : WsPeerContext) (targetPeerId : PeerId) (forceFull : Bool)
  | processIncomingPeerInfos (seed : GroupSeed) (groupKey : GroupKey) (requestBytes : Bytes)
  | processIncomingConnInfo (seed : GroupSeed) (groupKey : GroupKey) (fromPeerId : PeerId)
      (requestBytes : Bytes)
  | handleSyncRouteInfo (a : Ambient) (groupKey : GroupKey) (fromPeerId : PeerId)
      (requestBytes : Bytes)
  | rpcReq (a : Ambient) (ctx : WsPeerContext) (centers : PeerCenterMap) (payload : Bytes)
  | rpcResp (a : Ambient) (ctx : WsPeerContext) (headerFromPeerId : PeerId) (payload : Bytes)

def PeerManager.onEvent (x : Externals) (pm : PeerManager) : ManagerEvent → PeerManager
  | .addPeer seed groupKey p => pm.addPeer seed groupKey p
  | .cleanup seed groupKey threshold now =>
    pm.cleanupStalePeerConnections seed groupKey threshold now
  | .removePeer seed ctx now => (pm.removePeer seed ctx now).2
  | .updatePeerInfo seed groupKey info =>
    (pm.updatePeerInfo x seed groupKey info.peerId (x.encodeRoutePeerInfo info)).2
  | .bumpMyInfoVersion seed groupKey => pm.bumpMyInfoVersion seed groupKey
  | .setMyInfoField seed groupKey field value =>
    ⟨(pm.routeState.setMyInfoField seed groupKey field value).2⟩
  | .onRouteSessionAck seed groupKey p sid initiator now =>
    pm.onRouteSessionAck seed groupKey p sid initiator now
  | .buildRouteUpdate a ctx target full => (pm.buildRouteUpdate x a ctx target full).2
  | .processIncomingPeerInfos seed groupKey bytes =>
    (pm.processIncomingPeerInfos x seed groupKey bytes).2
  | .processIncomingConnInfo seed groupKey p bytes =>
    (pm.processIncomingConnInfo x seed groupKey p bytes).2
  | .handleSyncRouteInfo a groupKey p bytes => (pm.handleSyncRouteInfo x a groupKey p bytes).2
  | .rpcReq a ctx centers payload => (handleRpcReq x a ctx pm centers payload).peerManager
  | .rpcResp a ctx headerFrom payload => (handleRpcResp x a ctx pm headerFrom payload).2

section Reached
variable {x : Externals}

def Named (x : Externals) (c : RouteCall) : Prop := StoresNamed x c.op

theorem named_of_other {c : RouteCall} (other : ∀ p bytes, c.op ≠ .updatePeerInfo p bytes) :
    Named x c := by
  intro p bytes opened
  exact absurd opened (other p bytes)

theorem requestCalls_named (a : Ambient) (ctx : WsPeerContext) (body : Bytes) :
    ∀ c ∈ requestCalls x a ctx body, Named x c := by
  intro c listed
  obtain ⟨op, rfl, ⟨sid, initiator, rfl⟩ | ⟨info, rfl⟩ | rfl | rfl⟩ := requestCalls_cases listed
  · exact named_of_other (by simp)
  · intro p bytes opened
    cases opened
    exact ⟨info, rfl, rfl⟩
  · exact named_of_other (by simp)
  · exact named_of_other (by simp)

theorem itemCalls_named (a : Ambient) (key : GroupKey) (items : List RoutePeerInfo) :
    ∀ c ∈ itemCalls x a key items, Named x c := by
  intro c listed
  obtain ⟨info, -, rfl⟩ := List.mem_map.mp listed
  intro p bytes opened
  cases opened
  exact ⟨info, rfl, rfl⟩

theorem single_reaches (key : GroupKey) (seed : GroupSeed) (op : RouteOp)
    (other : ∀ p bytes, op ≠ .updatePeerInfo p bytes) (st : RouteState) :
    Reaches x (Named x) st (RouteState.call x st ⟨key, seed, op⟩) :=
  Reaches.call (named_of_other other)

theorem onEvent_reaches (pm : PeerManager) (e : ManagerEvent) :
    Reaches x (Named x) pm.routeState (PeerManager.onEvent x pm e).routeState := by
  cases e with
  | addPeer seed key p =>
    have joins := single_reaches (x := x) key seed (.addPeer p) (by simp)
      pm.routeState
    exact joins.trans (single_reaches key seed .bumpMyInfoVersion (by simp) _)
  | cleanup seed key threshold now =>
    exact single_reaches key seed (.cleanup threshold now) (by simp) _
  | removePeer seed ctx now =>
    simp only [PeerManager.onEvent, PeerManager.removePeer]
    split
    · exact Reaches.refl _
    · exact single_reaches ctx.groupKey seed (.removePeer ctx.peerId now)
        (by simp) _
  | updatePeerInfo seed key info =>
    have stored := itemCalls_named (x := x) ⟨0, seed, 0⟩ key [info]
    exact ⟨_, stored, rfl⟩
  | bumpMyInfoVersion seed key =>
    exact single_reaches key seed .bumpMyInfoVersion (by simp) _
  | setMyInfoField seed key field value =>
    exact single_reaches key seed (.setMyInfoField field value) (by simp) _
  | onRouteSessionAck seed key p sid initiator now =>
    exact single_reaches key seed (.onRouteSessionAck p sid initiator now)
      (by simp) _
  | buildRouteUpdate a ctx target full =>
    exact single_reaches ctx.groupKey a.seed
      (.build a.nowMs target ((parseU64 ctx.serverSessionId).getD 0) ctx.weAreInitiator full)
      (by simp) _
  | processIncomingPeerInfos seed key bytes =>
    cases decoded : x.decodeSyncRouteInfoRequest bytes with
    | none =>
      simp only [PeerManager.onEvent, PeerManager.processIncomingPeerInfos, decoded]
      exact Reaches.refl _
    | some req =>
      have called := processIncomingPeerInfos_calls x ⟨0, seed, 0⟩ key pm decoded
      exact ⟨_, itemCalls_named ⟨0, seed, 0⟩ key (listedItems req), called.symm⟩
  | processIncomingConnInfo seed key p bytes =>
    exact single_reaches key seed (.updatePeerConnections p bytes) (by simp) _
  | handleSyncRouteInfo a key p bytes =>
    exact single_reaches key a.seed (.handleSync p bytes a.nowMs) (by simp) _
  | rpcReq a ctx centers payload =>
    simp only [PeerManager.onEvent, handleRpcReq_routes]
    cases syncBody x payload with
    | none => exact Reaches.refl _
    | some body =>
      refine ⟨requestCalls x a ctx body, requestCalls_named a ctx body, ?_⟩
      simp only [applySyncRequest_calls, requestCalls, RouteState.callAll, run_append, run_cons,
        run_nil]
  | rpcResp a ctx headerFrom payload =>
    simp only [PeerManager.onEvent, handleRpcResp_eq]
    cases ackedSession x payload with
    | none => exact Reaches.refl _
    | some sid =>
      exact single_reaches ctx.groupKey a.seed
        (.onRouteSessionAck headerFrom sid ctx.weAreInitiator a.nowMs)
        (by simp) _

theorem onEvent_genuine (decodes : ∀ m, x.decodeRoutePeerInfo (x.encodeRoutePeerInfo m) = some m)
    {pm : PeerManager} (e : ManagerEvent) (genuine : AllGenuine pm.routeState) :
    AllGenuine (PeerManager.onEvent x pm e).routeState := by
  obtain ⟨calls, named, called⟩ := onEvent_reaches (x := x) pm e
  rw [← called]
  exact invariant_run AllGenuine (fun _ _ stores genuine => call_genuine decodes stores genuine)
    genuine (everyStep_of_forall named)

theorem managed_genuine (decodes : ∀ m, x.decodeRoutePeerInfo (x.encodeRoutePeerInfo m) = some m)
    (events : List ManagerEvent) :
    AllGenuine (run (PeerManager.onEvent x) PeerManager.new events).routeState := by
  have start : AllGenuine PeerManager.new.routeState := by
    intro key g stored
    simp [PeerManager.new, RouteState.new] at stored
  exact invariant_run (fun pm => AllGenuine pm.routeState)
    (fun _ e _ genuine => onEvent_genuine decodes e genuine) start
    (everyStep_true PeerManager.new events)

end Reached

section Lists
variable {g : RouteGroupData} {target : PeerId}

theorem relevantPeers_sorted (g : RouteGroupData) (target : PeerId) :
    (g.relevantPeers target).Pairwise (· < ·) := by
  have ordered : (g.relevantPeers target).Pairwise (· ≤ ·) := List.pairwise_insertionSort _ _
  have distinct := relevantPeers_nodup g target
  refine (ordered.and distinct).imp ?_
  intro a b both
  exact UInt32.lt_of_le_of_ne both.1 both.2

theorem allPeers_toList (g : RouteGroupData) (target : PeerId) :
    (g.allPeers target).toList = g.relevantPeers target := by
  have ordered : (g.allPeers target).toList.Pairwise (· < ·) :=
    (g.allPeers target).ordered_toList.imp Std.compare_eq_lt.mp
  have sameMembers (q : PeerId) :
      q ∈ (g.allPeers target).toList ↔ q ∈ g.relevantPeers target := by
    rw [mem_relevantPeers, Std.ExtTreeSet.mem_toList, RouteGroupData.allPeers]
    simp only [Std.ExtTreeSet.mem_insert, Std.LawfulEqCmp.compare_eq_iff_eq]
    rw [@eq_comm _ target q, @eq_comm _ myPeerId q]
    exact or_left_comm
  have permuted : (g.allPeers target).toList.Perm (g.relevantPeers target) := by
    rw [List.perm_ext_iff_of_nodup (ordered.imp UInt32.ne_of_lt) (relevantPeers_nodup g target)]
    exact sameMembers
  refine permuted.eq_of_pairwise ?_ ordered (relevantPeers_sorted g target)
  intro a b _ _ below above
  exact absurd (UInt32.lt_trans below above) (UInt32.lt_irrefl a)

/- The ids of the foreign-network entries of a request, entry by entry. -/
def foreignIds (req : SyncRouteInfoRequest) : List (List PeerId) :=
  ((req.foreignNetworkInfos.map (·.infos)).getD []).filterMap fun info =>
    info.value.map (·.foreignPeerIds)

end Lists

/- One list of ids behind the infos, the foreign ids and the bitmap. -/
structure ListsIds (ids : List PeerId) (req : SyncRouteInfoRequest) : Prop where
  infos : ∃ infos, req.peerInfos = some infos ∧ infos.items.map (·.peerId) = ids
  foreign : foreignIds req = [ids]
  bitmap : ∀ connInfo, req.connInfo = some connInfo →
    ∃ bitmap, connInfo = .connBitmap bitmap ∧ bitmap.peerIds.map (·.peerId) = ids

/- The members, the relay and the target, in order. -/
structure IsMembership (st : RouteState) (key : GroupKey) (target : PeerId) (ids : List PeerId) :
    Prop where
  sorted : ids.Pairwise (· < ·)
  members : ∀ q, q ∈ ids ↔ q = myPeerId ∨ q = target ∨ q ∈ RouteState.members st key

/- Only the target's session is written, and stubs for listed ids that had no info. -/
structure OnlyStubs (now : Millis) (ids : List PeerId) (target : PeerId)
    (before after : RouteGroupData) : Prop where
  frame : ∃ peerInfos sessions, after = { before with peerInfos, sessions }
  sessions : ∀ q, q ≠ target → after.sessions[q]? = before.sessions[q]?
  infos : ∀ q, after.peerInfos[q]? = before.peerInfos[q]? ∨
    (q ∈ ids ∧ q ≠ myPeerId ∧ before.peerInfos[q]? = none ∧
      after.peerInfos[q]? = some (makeStubPeerInfo now q (max before.myInfo.networkLength 1)))

structure DescribesMembership (st : RouteState) (seed : GroupSeed) (key : GroupKey)
    (target : PeerId) (now : Millis) (ids : List PeerId)
    (built : SyncRouteInfoRequest × RouteState) : Prop where
  membership : IsMembership st key target ids
  lists : ListsIds ids built.1
  stored : (listedItems built.1).map some = ids.map (RouteState.storedFor built.2 key)
  own : ∀ item ∈ listedItems built.1, item.peerId = myPeerId →
    item = (st.ensureGroup seed key).myInfo
  group : ∃ after, built.2.groups[key]? = some after ∧
    OnlyStubs now ids target (st.ensureGroup seed key) after
  others : ∀ other, other ≠ key → built.2.groups[other]? = st.groups[other]?

section Update
variable {g : RouteGroupData} (now : Millis) (target : PeerId) (sid : SessionId) (initiator : Bool)

theorem selected_full (g : RouteGroupData) :
    RouteGroupData.selected g now target true = g.relevantPeers target := by
  unfold RouteGroupData.selected
  apply List.filter_eq_self.mpr
  intro q _
  rfl

theorem fullItems (g : RouteGroupData) :
    listedItems (g.buildSyncRouteInfoRequest now target sid initiator true).1 =
      (g.relevantPeers target).map (RouteGroupData.listedInfo g now g.peerInfos) := by
  rw [build_items, selected_full]

theorem listedInfo_named (genuine : RouteGroupData.Genuine g) (q : PeerId) :
    (RouteGroupData.listedInfo g now g.peerInfos q).peerId = q := by
  unfold RouteGroupData.listedInfo
  split
  · rename_i own
    rw [own]
    exact genuine.own
  · cases stored : g.peerInfos[q]? with
    | none => rfl
    | some info => exact genuine.named q info stored

theorem build_lists (genuine : RouteGroupData.Genuine g) :
    ListsIds (g.relevantPeers target)
      (g.buildSyncRouteInfoRequest now target sid initiator true).1 := by
  have items := fullItems now target sid initiator g
  refine ⟨?_, ?_, ?_⟩
  · have listed : (listedItems (g.buildSyncRouteInfoRequest now target sid initiator
        true).1).map (·.peerId) = g.relevantPeers target := by
      rw [items, List.map_map]
      conv_rhs => rw [← List.map_id (g.relevantPeers target)]
      apply List.map_congr_left
      intro q _
      exact listedInfo_named now genuine q
    cases carried : (g.buildSyncRouteInfoRequest now target sid initiator true).1.peerInfos with
    | none =>
      simp only [listedItems, carried, Option.map_none, Option.getD_none, List.map_nil] at listed
      exact absurd listed.symm (relevantPeers_ne_nil g target)
    | some infos =>
      simp only [listedItems, carried, Option.map_some, Option.getD_some] at listed
      exact ⟨infos, rfl, listed⟩
  · simp [foreignIds, RouteGroupData.buildSyncRouteInfoRequest, foreignNetworkInfos,
      allPeers_toList]
  · intro connInfo carried
    rw [(build_spec g now target sid initiator true).1] at carried
    obtain ⟨-, same⟩ := Option.ite_none_left_eq_some.mp carried
    refine ⟨_, (Option.some.inj same).symm, ?_⟩
    simp [RouteGroupData.topology, RouteGroupData.connBitmap, Function.comp_def]

theorem build_onlyStubs (x : Externals) (g : RouteGroupData) (full : Bool) :
    OnlyStubs now (g.relevantPeers target) target g
      (g.buildSyncRouteInfoRequest now target sid initiator full).2 := by
  refine ⟨?_, ?_, ?_⟩
  · obtain ⟨infos, sessions, frame⟩ := build_frame g now target sid initiator full
    exact ⟨infos, sessions, frame⟩
  · intro q other
    have untouched : RouteOp.records (.build now target sid initiator full) ≠ some q := by
      intro same
      exact other (Option.some.inj same).symm
    exact edit_sessions x g untouched
  · intro q
    rw [build_storesInfos]
    by_cases listed : q ∈ g.relevantPeers target ∧ q ≠ myPeerId
    · rw [if_pos listed]
      cases stored : g.peerInfos[q]? with
      | none =>
        right
        exact ⟨listed.1, listed.2, rfl, by simp [RouteGroupData.listedInfo, listed.2, stored]⟩
      | some info =>
        left
        simp [RouteGroupData.listedInfo, listed.2, stored]
    · rw [if_neg listed]
      exact Or.inl rfl

theorem relevantPeers_isMembership (st : RouteState) (seed : GroupSeed) (key : GroupKey) :
    IsMembership st key target ((st.ensureGroup seed key).relevantPeers target) where
  sorted := relevantPeers_sorted (st.ensureGroup seed key) target
  members := by
    intro q
    rw [mem_relevantPeers, ensureGroup_peers]

theorem build_describes (x : Externals) {st : RouteState} (genuine : AllGenuine st)
    (seed : GroupSeed) (key : GroupKey) :
    DescribesMembership st seed key target now ((st.ensureGroup seed key).relevantPeers target)
      (st.buildSyncRouteInfoRequest seed now key target sid initiator true) := by
  set g := st.ensureGroup seed key with gDef
  have named : RouteGroupData.Genuine g := genuine.ensured seed key
  have built : st.buildSyncRouteInfoRequest seed now key target sid initiator true =
      ((g.buildSyncRouteInfoRequest now target sid initiator true).1,
        st.put key (g.buildSyncRouteInfoRequest now target sid initiator true).2) := rfl
  have items := fullItems now target sid initiator g
  rw [built]
  refine ⟨relevantPeers_isMembership target st seed key,
    build_lists now target sid initiator named, ?_, ?_,
    ⟨_, ?_, build_onlyStubs now target sid initiator x g true⟩, ?_⟩
  · rw [items, List.map_map]
    apply List.map_congr_left
    intro q listed
    rw [storedFor_put, build_storedFor, if_pos listed]
    rfl
  · intro item listed own
    rw [items] at listed
    obtain ⟨q, -, rfl⟩ := List.mem_map.mp listed
    rw [listedInfo_named now named] at own
    simp [RouteGroupData.listedInfo, own, gDef]
  · simp [RouteState.put]
  · intro other different
    exact groups_put_ne st _ (Ne.symm different)

end Update

/-- After every history of the peer manager and its handlers, a full build for any target
    describes the membership of the group, and changes the target's session and stubs only. -/
theorem full_updates_describe_membership {x : Externals}
    (decodes : ∀ m, x.decodeRoutePeerInfo (x.encodeRoutePeerInfo m) = some m)
    (events : List ManagerEvent) (seed : GroupSeed) (key : GroupKey) (target : PeerId)
    (now : Millis) (sid : SessionId) (initiator : Bool) :
    let st := (run (PeerManager.onEvent x) PeerManager.new events).routeState
    ∃ ids, DescribesMembership st seed key target now ids
      (st.buildSyncRouteInfoRequest seed now key target sid initiator true) :=
  ⟨_, build_describes now target sid initiator x (managed_genuine decodes events) seed key⟩

/- Peer 5 joins, its info is not known, and a stranger asks for an update. -/
theorem full_update_for_a_stranger :
    let st := (run (PeerManager.onEvent wire) PeerManager.new
      [.addPeer ((quietEnv 1000 500).seed "net:aa") "net:aa" 5]).routeState
    ∃ ids, DescribesMembership st ((quietEnv 1000 500).seed "net:aa") "net:aa" 9 1000 ids
      (st.buildSyncRouteInfoRequest ((quietEnv 1000 500).seed "net:aa") 1000 "net:aa" 9 77 false
        true) :=
  full_updates_describe_membership wire_roundTrips.peerInfo
    [.addPeer ((quietEnv 1000 500).seed "net:aa") "net:aa" 5] ((quietEnv 1000 500).seed "net:aa")
    "net:aa" 9 1000 77 false

end RelayFullUpdates
