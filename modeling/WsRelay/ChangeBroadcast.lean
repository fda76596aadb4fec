import WsRelay.Residue
import WsRelay.TopologyVersions
import WsRelay.ConnMatrix

/- A SyncRouteInfo request can change what the relay tells the other members. The decision to
   broadcast is taken from the two checked writers; handle_sync_route_info_request writes
   after it and is not asked. -/
namespace RelayChangeBroadcast
open RelayProtocol RelayRouteState RelayPeerManager RelayRpcHandler RelayRoomModel RelayRouteOps
open RelayRoomSteps RelayPeerInfoVersions RelayConnMatrix RelayTopologyVersions RelayResidue
open RelayWireFormats TransitionRuns

variable {x : Externals} {st : RouteState} {key : GroupKey} {p : PeerId}

def RouteState.connections (st : RouteState) (key : GroupKey) : PeerMap PeerSet :=
  ((st.groups[key]?).map (·.peerConnections)).getD ∅

theorem ensureGroup_connections (st : RouteState) (seed : GroupSeed) (key : GroupKey) :
    (st.ensureGroup seed key).peerConnections = RouteState.connections st key :=
  connectionsReading.ensureGroup st seed key

theorem connections_call (x : Externals) (st : RouteState) (c : RouteCall) (key : GroupKey) :
    RouteState.connections (RouteState.call x st c) key =
      if c.groupKey = key then (c.op.edit x (st.ensureGroup c.seed key)).2.peerConnections
      else RouteState.connections st key :=
  connectionsReading.call x st c key

def KeepsEdges (c : RouteCall) : Prop := RouteOp.keepsEdges c.op = true

theorem connections_reaches {st' : RouteState} (reached : Reaches x KeepsEdges st st') :
    RouteState.connections st' = RouteState.connections st := by
  refine reached.relation (fun a b => RouteState.connections b = RouteState.connections a)
    (fun _ => rfl) (fun first second => second.trans first) ?_
  intro s c keeps
  funext key
  exact connectionsReading.call_kept (edit_sameEdges x _ keeps).2.1

def apartFromUpdate (info : RoutePeerInfo) : RoutePeerInfo := { info with lastUpdate := none }

def RouteState.shownInfo (st : RouteState) (key : GroupKey) (p : PeerId) : Option RoutePeerInfo :=
  (RouteState.info st key p).map apartFromUpdate

/-- The relay tells its own info from elsewhere, and links every member to itself. -/
structure SameView (key : GroupKey) (before after : RouteState) : Prop where
  infos : ∀ p ∈ RouteState.members before key, p ≠ myPeerId →
    RouteState.shownInfo after key p = RouteState.shownInfo before key p
  edges : ∀ p ∈ RouteState.members before key, ∀ q ∈ RouteState.members before key,
    (Shown (RouteState.connections after key) p q ↔ Shown (RouteState.connections before key) p q)

/- What a build lists for an id: the relay's own info, the stored one, or a stub. -/
def RouteGroupData.listedInfo (g : RouteGroupData) (nowMs : Millis) (infos : PeerMap RoutePeerInfo)
    (p : PeerId) : RoutePeerInfo :=
  if p = myPeerId then g.myInfo
  else infos[p]?.getD (makeStubPeerInfo nowMs p (max g.myInfo.networkLength 1))

theorem listedInfo_selectInfo (g : RouteGroupData) (nowMs : Millis) (full : Bool)
    (acc : InfoSelection) (q : PeerId) :
    RouteGroupData.listedInfo g nowMs (selectInfo nowMs g.myInfo full acc q).peerInfos =
      RouteGroupData.listedInfo g nowMs acc.peerInfos := by
  funext r
  rw [selectInfo_peerInfos]
  split
  · rename_i missing
    unfold RouteGroupData.listedInfo
    by_cases here : q = r
    · subst here
      simp [missing.2]
    · simp [Std.ExtTreeMap.getElem?_insert, here]
  · rfl

def clamped (info : RoutePeerInfo) : Version := max info.version 1

def RouteGroupData.selects (g : RouteGroupData) (nowMs : Millis) (full : Bool)
    (infos : PeerMap RoutePeerInfo) (remembered : PeerMap Version) (p : PeerId) : Bool :=
  full || decide (remembered.getD p 0 < clamped (RouteGroupData.listedInfo g nowMs infos p))

theorem selectInfo_looks (g : RouteGroupData) (nowMs : Millis) (full : Bool)
    (acc : InfoSelection) (q : PeerId) :
    selectInfo nowMs g.myInfo full acc q =
      let info := RouteGroupData.listedInfo g nowMs acc.peerInfos q
      let peerInfos := (selectInfo nowMs g.myInfo full acc q).peerInfos
      if RouteGroupData.selects g nowMs full acc.peerInfos acc.peerInfoVerMap q then
        { peerInfos
          peerInfoVerMap := acc.peerInfoVerMap.insert q (clamped info)
          items := acc.items ++ [info] }
      else { acc with peerInfos } := by
  have looked : (if q = myPeerId then g.myInfo
      else (selectInfo nowMs g.myInfo full acc q).peerInfos.getD q {}) =
      RouteGroupData.listedInfo g nowMs acc.peerInfos q := by
    rw [selectInfo_peerInfos]
    unfold RouteGroupData.listedInfo
    by_cases own : q = myPeerId
    · simp [own]
    · by_cases stored : q ∈ acc.peerInfos
      · simp [own, stored, Std.ExtTreeMap.getD_eq_getD_getElem?]
      · simp [own, stored]
  rw [RouteGroupData.selects, ← looked, selectInfo_peerInfos]
  cases full with
  | true => simp [selectInfo, clamped]
  | false => simp [selectInfo, clamped]

theorem selectInfo_items (g : RouteGroupData) (nowMs : Millis) (relevant : List PeerId)
    (acc : InfoSelection) :
    (relevant.foldl (selectInfo nowMs g.myInfo true) acc).items =
      acc.items ++ relevant.map (RouteGroupData.listedInfo g nowMs acc.peerInfos) := by
  induction relevant generalizing acc with
  | nil => simp
  | cons q rest ih =>
    have first : (selectInfo nowMs g.myInfo true acc q).items =
        acc.items ++ [RouteGroupData.listedInfo g nowMs acc.peerInfos q] := by
      rw [selectInfo_looks]
      rfl
    rw [List.foldl_cons, ih, listedInfo_selectInfo, first]
    simp

/-- A full build for anybody tells the stored info of every member. -/
theorem fullBuild_tells {q : PeerId} {shown : RoutePeerInfo}
    (member : p ∈ RouteState.members st key) (foreign : p ≠ myPeerId)
    (stored : RouteState.shownInfo st key p = some shown) (seed : GroupSeed) (now : Millis)
    (sid : SessionId) (initiator : Bool) :
    ∃ infos, (st.buildSyncRouteInfoRequest seed now key q sid initiator true).1.peerInfos =
      some infos ∧ ∃ item ∈ infos.items, apartFromUpdate item = shown := by
  set g := st.ensureGroup seed key with gDef
  obtain ⟨info, kept, rfl⟩ := Option.map_eq_some_iff.mp stored
  have listed : info ∈ ((g.touchSession q sid now).selectInfos now q true).1 := by
    simp only [RouteGroupData.selectInfos, Bool.true_or, selectInfo_items, List.nil_append]
    refine List.mem_map.mpr ⟨p, ?_, ?_⟩
    · rw [RelayConnBitmap.mem_relevantPeers]
      right
      right
      simpa only [RouteGroupData.touchSession, gDef, ensureGroup_peers] using member
    · have found : g.peerInfos[p]? = some info := by rw [gDef, ensureGroup_info, kept]
      simp [RouteGroupData.listedInfo, foreign, RouteGroupData.touchSession, found]
  have nonempty : ((g.touchSession q sid now).selectInfos now q true).1 ≠ [] :=
    List.ne_nil_of_mem listed
  refine ⟨⟨((g.touchSession q sid now).selectInfos now q true).1⟩, ?_, info, listed, rfl⟩
  simp [RouteState.buildSyncRouteInfoRequest, RouteGroupData.buildSyncRouteInfoRequest, nonempty,
    ← gDef]

/- The item counts as a change: another peer's, and above the stored version. -/
def NewsAbout (x : Externals) (st : RouteState) (key : GroupKey) (item : RoutePeerInfo) : Prop :=
  item.peerId ≠ myPeerId ∧ ∃ info, x.decodeRoutePeerInfo (x.encodeRoutePeerInfo item) = some info ∧
    RouteState.infoVersion st key item.peerId < versionOf (some info)

theorem updatePeerInfo_changed (pm : PeerManager) (seed : GroupSeed) (key : GroupKey) (p : PeerId)
    (bytes : Bytes) :
    (pm.updatePeerInfo x seed key p bytes).1 = true ↔
      ∃ info, x.decodeRoutePeerInfo bytes = some info ∧
        RouteState.infoVersion pm.routeState key p < versionOf (some info) := by
  unfold PeerManager.updatePeerInfo RouteState.updatePeerInfo
  cases x.decodeRoutePeerInfo bytes with
  | none => simp
  | some info =>
    simp only [Option.some.injEq, exists_eq_left', RouteState.infoVersion,
      ← ensureGroup_info pm.routeState seed, RouteGroupData.updatePeerInfo]
    cases (pm.routeState.ensureGroup seed key).peerInfos[p]? with
    | none => simp [versionOf]
    | some old =>
      have newer : versionOf (some old) < versionOf (some info) ↔ old.version < info.version := by
        rw [UInt32.lt_iff_toNat_lt]
        exact WithBot.coe_lt_coe
      rw [newer]
      by_cases fresh : old.version < info.version
      · simp [fresh]
      · simp [fresh]

theorem updatePeerInfo_idle {pm : PeerManager} {seed : GroupSeed} {bytes : Bytes}
    (idle : (pm.updatePeerInfo x seed key p bytes).1 = false) :
    RouteState.info (pm.updatePeerInfo x seed key p bytes).2.routeState =
      RouteState.info pm.routeState := by
  funext other q
  have called := info_call x pm.routeState ⟨key, seed, .updatePeerInfo p bytes⟩ other q
  refine Eq.trans called ?_
  by_cases named : key = other
  · subst named
    have stale := (updatePeerInfo_changed (x := x) pm seed key p bytes).not.mp (by simp [idle])
    simp only [↓reduceIte, RouteOp.edit]
    rw [← ensureGroup_info pm.routeState seed]
    cases decoded : x.decodeRoutePeerInfo bytes with
    | none => rfl
    | some info =>
      simp only [RouteState.infoVersion, ← ensureGroup_info pm.routeState seed, decoded,
        Option.some.injEq, exists_eq_left', not_lt] at stale
      cases stored : (pm.routeState.ensureGroup seed key).peerInfos[p]? with
      | none =>
        rw [stored] at stale
        exact absurd stale (by simp [versionOf])
      | some old =>
        have notNewer : ¬ old.version < info.version := by
          rw [stored] at stale
          rw [UInt32.lt_iff_toNat_lt, not_lt]
          exact WithBot.coe_le_coe.mp stale
        simp only [notNewer, ↓reduceIte]
  · simp only [named, ↓reduceIte]

theorem updatePeerInfo_other (pm : PeerManager) (seed : GroupSeed) (bytes : Bytes) {q : PeerId}
    (different : q ≠ p) :
    RouteState.info (pm.updatePeerInfo x seed key p bytes).2.routeState key q =
      RouteState.info pm.routeState key q := by
  have called := info_call x pm.routeState ⟨key, seed, .updatePeerInfo p bytes⟩ key q
  refine Eq.trans called ?_
  simp only [↓reduceIte, RouteOp.edit]
  rw [← ensureGroup_info pm.routeState seed]
  cases x.decodeRoutePeerInfo bytes with
  | none => rfl
  | some info =>
    simp only
    split
    · simp [Std.ExtTreeMap.getElem?_insert, Ne.symm different]
    · simp only
      split
      · simp [Std.ExtTreeMap.getElem?_insert, Ne.symm different]
      · rfl

/-- The flag of the item loop, read off the state in front of the loop: an item that does not
    count leaves the versions alone for the later ones. -/
theorem processItems_changed (seed : GroupSeed) (items : List RoutePeerInfo)
    (acc : Bool × PeerManager) :
    (items.foldl (processItem x seed key) acc).1 = true ↔
      acc.1 = true ∨ ∃ item ∈ items, NewsAbout x acc.2.routeState key item := by
  induction items generalizing acc with
  | nil => simp
  | cons item rest ih =>
    rw [List.foldl_cons, ih]
    have counted : (processItem x seed key acc item).1 = true ↔
        acc.1 = true ∨ NewsAbout x acc.2.routeState key item := by
      simp only [processItem, Bool.or_eq_true, Bool.and_eq_true, decide_eq_true_eq, NewsAbout,
        updatePeerInfo_changed]
    simp only [counted, List.mem_cons, exists_eq_or_imp, or_assoc]
    by_cases flagged : acc.1 = true ∨ NewsAbout x acc.2.routeState key item
    · rcases flagged with already | news
      · simp [already]
      · simp [news]
    · have same (later : RoutePeerInfo) : NewsAbout x (processItem x seed key acc item).2.routeState
          key later ↔ NewsAbout x acc.2.routeState key later := by
        unfold NewsAbout
        apply and_congr_right
        intro foreign
        have kept : RouteState.info (processItem x seed key acc item).2.routeState key
            later.peerId = RouteState.info acc.2.routeState key later.peerId := by
          unfold processItem
          by_cases own : item.peerId = myPeerId
          · exact updatePeerInfo_other _ _ _ (by rw [own]; exact foreign)
          · have idle : (acc.2.updatePeerInfo x seed key item.peerId
                (x.encodeRoutePeerInfo item)).1 = false := by
              rw [Bool.eq_false_iff, ne_eq, updatePeerInfo_changed]
              intro news
              exact flagged (Or.inr ⟨own, news⟩)
            rw [updatePeerInfo_idle idle]
        simp only [RouteState.infoVersion, kept]
      simp only [same]

def linksOf (reported : PeerSet) : Option PeerSet :=
  if reported.isEmpty then none else some reported

theorem storeConnections_changed (g : RouteGroupData) (p : PeerId) (reported : PeerSet) :
    (g.storeConnections p reported).1 = true ↔ g.peerConnections[p]? ≠ linksOf reported := by
  unfold RouteGroupData.storeConnections linksOf
  split
  · rw [Std.ExtTreeMap.contains_iff_mem, Std.ExtTreeMap.mem_iff_isSome_getElem?,
      Option.isSome_iff_ne_none]
  · simp only
    cases g.peerConnections[p]? with
    | none => simp
    | some old => simp

theorem p2pConnections_members {g g' : RouteGroupData} (same : g'.peers = g.peers) (p : PeerId)
    (connInfo : ConnInfo) : g'.p2pConnections p connInfo = g.p2pConnections p connInfo := by
  have kept : g'.keepsReported p = g.keepsReported p := by
    funext q
    rw [RouteGroupData.keepsReported, RouteGroupData.keepsReported, same]
  unfold RouteGroupData.p2pConnections
  rw [kept]

/- The conn_info of the request is not what is stored for its sender. -/
def RouteGroupData.Reconnects (g : RouteGroupData) (p : PeerId) (req : SyncRouteInfoRequest) :
    Prop :=
  ∃ connInfo, req.connInfo = some connInfo ∧
    g.peerConnections[p]? ≠ linksOf (g.p2pConnections p connInfo)

theorem reconnects_congr {g g' : RouteGroupData} (members : g'.peers = g.peers)
    (links : g'.peerConnections = g.peerConnections) (req : SyncRouteInfoRequest) :
    RouteGroupData.Reconnects g' p req ↔ RouteGroupData.Reconnects g p req := by
  unfold RouteGroupData.Reconnects
  simp only [links, p2pConnections_members members]

theorem processIncomingConnInfo_changed {body : Bytes} {req : SyncRouteInfoRequest}
    (decoded : x.decodeSyncRouteInfoRequest body = some req) (pm : PeerManager) (seed : GroupSeed)
    (key : GroupKey) (p : PeerId) :
    (pm.processIncomingConnInfo x seed key p body).1 = true ↔
      RouteGroupData.Reconnects (pm.routeState.ensureGroup seed key) p req := by
  simp only [PeerManager.processIncomingConnInfo, RouteState.updatePeerConnectionsFromConnInfo,
    decoded, RouteGroupData.updatePeerConnectionsFromConnInfo, RouteGroupData.Reconnects]
  cases req.connInfo with
  | none => simp
  | some connInfo =>
    simp only [Option.some.injEq, exists_eq_left', ← storeConnections_changed]
    split
    · rename_i changed
      simp [changed]
    · rename_i calm
      simp [calm]

theorem connections_calm {body : Bytes} {req : SyncRouteInfoRequest}
    (decoded : x.decodeSyncRouteInfoRequest body = some req) {seed : GroupSeed}
    (calm : ¬ RouteGroupData.Reconnects (st.ensureGroup seed key) p req) :
    RouteState.connections (RouteState.call x st ⟨key, seed, .updatePeerConnections p body⟩) key =
      RouteState.connections st key := by
  rw [connections_call]
  simp only [↓reduceIte, RouteOp.edit, decoded]
  cases reported : req.connInfo with
  | none => exact ensureGroup_connections st seed key
  | some connInfo =>
    have unchanged : ((st.ensureGroup seed key).storeConnections p
        ((st.ensureGroup seed key).p2pConnections p connInfo)).1 = false := by
      rw [Bool.eq_false_iff, ne_eq, storeConnections_changed]
      exact fun differs => calm ⟨connInfo, reported, differs⟩
    rw [← ensureGroup_connections st seed key]
    exact storeConnections_calm unchanged

section Request
variable {a : Ambient} {ctx : WsPeerContext} {pm : PeerManager} {body : Bytes}
  {req : SyncRouteInfoRequest}

def informedCalls (x : Externals) (a : Ambient) (ctx : WsPeerContext) (req : SyncRouteInfoRequest) :
    List RouteCall :=
  ⟨ctx.groupKey, a.seed,
    .onRouteSessionAck ctx.peerId req.mySessionId (!req.isInitiator) a.nowMs⟩ ::
  itemCalls x a ctx.groupKey (listedItems req)

def informedRoutes (x : Externals) (a : Ambient) (ctx : WsPeerContext) (st : RouteState)
    (req : SyncRouteInfoRequest) : RouteState :=
  RouteState.callAll x st (informedCalls x a ctx req)

theorem informed_reaches :
    Reaches x (fun c => KeepsEdges c ∧ KeepsMembers c) st (informedRoutes x a ctx st req) := by
  refine ⟨informedCalls x a ctx req, ?_, rfl⟩
  intro c listed
  rcases List.mem_cons.mp listed with rfl | item
  · exact ⟨rfl, rfl⟩
  · obtain ⟨info, -, rfl⟩ := List.mem_map.mp item
    exact ⟨rfl, rfl⟩

theorem informed_members :
    RouteState.members (informedRoutes x a ctx st req) = RouteState.members st :=
  members_reaches (informed_reaches.mono fun _ both => both.2)

theorem informed_connections :
    RouteState.connections (informedRoutes x a ctx st req) = RouteState.connections st :=
  connections_reaches (informed_reaches.mono fun _ both => both.1)

theorem informed_reconnects (seed : GroupSeed) :
    RouteGroupData.Reconnects ((informedRoutes x a ctx st req).ensureGroup seed key) p req ↔
      RouteGroupData.Reconnects (st.ensureGroup seed key) p req := by
  apply reconnects_congr
  · rw [ensureGroup_peers, ensureGroup_peers, informed_members]
  · rw [ensureGroup_connections, ensureGroup_connections, informed_connections]

theorem info_ack (st : RouteState) (seed : GroupSeed) (key : GroupKey) (sid : SessionId)
    (initiator : Bool) (now : Millis) :
    RouteState.info (RouteState.call x st ⟨key, seed, .onRouteSessionAck p sid initiator now⟩) =
      RouteState.info st := by
  funext other q
  rw [← infoReading_read, ← infoReading_read]
  exact (infoReading q).call_kept rfl

/-- The broadcast flag, read off the state that the request meets. -/
theorem applied_flag (decoded : x.decodeSyncRouteInfoRequest body = some req) :
    (applySyncRequest x a (withSession a ctx) pm body ctx.groupKey).1 = true ↔
      RouteGroupData.Reconnects (pm.routeState.ensureGroup a.seed ctx.groupKey) ctx.peerId req ∨
        ∃ item ∈ listedItems req, NewsAbout x pm.routeState ctx.groupKey item := by
  set acked := pm.onRouteSessionAck a.seed ctx.groupKey ctx.peerId req.mySessionId
    (!req.isInitiator) a.nowMs with ackedDef
  have ackedInfo : RouteState.info acked.routeState = RouteState.info pm.routeState :=
    info_ack (x := x) pm.routeState a.seed ctx.groupKey req.mySessionId (!req.isInitiator) a.nowMs
  have infos : (acked.processIncomingPeerInfos x a.seed ctx.groupKey body).1.getD false = true ↔
      ∃ item ∈ listedItems req, NewsAbout x pm.routeState ctx.groupKey item := by
    have same (item : RoutePeerInfo) : NewsAbout x acked.routeState ctx.groupKey item ↔
        NewsAbout x pm.routeState ctx.groupKey item := by
      simp only [NewsAbout, RouteState.infoVersion, ackedInfo]
    simp only [PeerManager.processIncomingPeerInfos, decoded, listedItems, ← same]
    cases req.peerInfos with
    | none => simp
    | some listed =>
      have counted : (listed.items.foldl (processItem x a.seed ctx.groupKey) (false, acked)).1 =
          true ↔ _ := processItems_changed a.seed listed.items (false, acked)
      simpa using counted
  have informed : (acked.processIncomingPeerInfos x a.seed ctx.groupKey body).2.routeState =
      informedRoutes x a ctx pm.routeState req :=
    processIncomingPeerInfos_calls x a ctx.groupKey acked decoded
  have links := processIncomingConnInfo_changed decoded
    (acked.processIncomingPeerInfos x a.seed ctx.groupKey body).2 a.seed ctx.groupKey ctx.peerId
  rw [informed, informed_reconnects] at links
  simp only [applySyncRequest, decoded, withSession_peerId, Bool.or_eq_true, ← ackedDef, links,
    infos]

def answeredRoutes (x : Externals) (a : Ambient) (ctx : WsPeerContext) (st : RouteState)
    (body : Bytes) (req : SyncRouteInfoRequest) : RouteState :=
  RouteState.call x
    (RouteState.call x (informedRoutes x a ctx st req)
      ⟨ctx.groupKey, a.seed, .updatePeerConnections ctx.peerId body⟩)
    ⟨ctx.groupKey, a.seed, .handleSync ctx.peerId body a.nowMs⟩

theorem handleSyncRouteInfo_answered (decoded : x.decodeSyncRouteInfoRequest body = some req)
    (packet : RpcPacket) :
    (handleSyncRouteInfo x a ctx pm packet body ctx.groupKey).2.2.routeState =
      answeredRoutes x a ctx pm.routeState body req := by
  rw [request_calls]
  simp only [requestCalls, applyCalls, decoded, answeredRoutes, informedRoutes, informedCalls,
    RouteState.callAll, List.cons_append, run_cons, run_append, run_nil]

theorem item_about {item : RoutePeerInfo} (listed : item ∈ listedItems req) :
    (lastItemAbout req item.peerId).isSome := by
  unfold lastItemAbout
  unfold listedItems at listed
  cases infos : req.peerInfos with
  | none => simp [infos] at listed
  | some infos' =>
    rw [infos] at listed
    rw [Option.bind_some, List.find?_isSome]
    exact ⟨item, by simpa using listed, by simp⟩

def Dated (x : Externals) (st : RouteState) (key : GroupKey) (item : RoutePeerInfo) : Prop :=
  ∀ info, x.decodeRoutePeerInfo (x.encodeRoutePeerInfo item) = some info →
    versionOf (some info) ≤ RouteState.infoVersion st key item.peerId

/-- What the ack and each checked write keep holds in front of the connection report. -/
theorem informed_invariant (inv : RouteState → Prop) (start : inv st)
    (acked : ∀ s, inv s → inv (RouteState.call x s ⟨ctx.groupKey, a.seed,
      .onRouteSessionAck ctx.peerId req.mySessionId (!req.isInitiator) a.nowMs⟩))
    (stored : ∀ item ∈ listedItems req, ∀ s, inv s → inv (RouteState.call x s ⟨ctx.groupKey,
      a.seed, .updatePeerInfo item.peerId (x.encodeRoutePeerInfo item)⟩)) :
    inv (informedRoutes x a ctx st req) := by
  have listed : EveryStep (RouteState.call x) (fun _ c => c ∈ informedCalls x a ctx req) st
      (informedCalls x a ctx req) := everyStep_of_forall fun _ inside => inside
  refine invariant_run inv ?_ start listed
  intro s c called kept
  rcases List.mem_cons.mp called with rfl | written
  · exact acked s kept
  · obtain ⟨item, inside, rfl⟩ := List.mem_map.mp written
    exact stored item inside s kept

theorem informed_kept {q : PeerId}
    (dated : ∀ item ∈ listedItems req, item.peerId = q → Dated x st ctx.groupKey item) :
    RouteState.info (informedRoutes x a ctx st req) ctx.groupKey q =
      RouteState.info st ctx.groupKey q := by
  apply informed_invariant
    (fun s => RouteState.info s ctx.groupKey q = RouteState.info st ctx.groupKey q) rfl
  · intro s same
    rw [← same, info_ack]
  · intro item inside s same
    rw [← same]
    by_cases about : item.peerId = q
    · have idle : (PeerManager.updatePeerInfo x ⟨s⟩ a.seed ctx.groupKey item.peerId
          (x.encodeRoutePeerInfo item)).1 = false := by
        rw [Bool.eq_false_iff, ne_eq, updatePeerInfo_changed]
        intro ⟨info, decoded, newer⟩
        have old := dated item inside about info decoded
        simp only [RouteState.infoVersion, about] at old newer
        rw [← same] at old
        exact absurd newer (not_lt.mpr old)
      exact congrFun (congrFun (updatePeerInfo_idle idle) ctx.groupKey) q
    · exact updatePeerInfo_other (x := x) ⟨s⟩ a.seed (x.encodeRoutePeerInfo item) (Ne.symm about)

theorem informed_unlisted {q : PeerId} (unlisted : lastItemAbout req q = none) :
    RouteState.info (informedRoutes x a ctx st req) ctx.groupKey q =
      RouteState.info st ctx.groupKey q := by
  apply informed_kept
  intro item listed about
  have named := item_about listed
  rw [about, unlisted] at named
  cases named

theorem info_updatePeerConnections (st : RouteState) (seed : GroupSeed) (key : GroupKey)
    (p : PeerId) (body : Bytes) :
    RouteState.info (RouteState.call x st ⟨key, seed, .updatePeerConnections p body⟩) =
      RouteState.info st := by
  have kept (g : RouteGroupData) :
      ((RouteOp.updatePeerConnections p body).edit x g).2.peerInfos = g.peerInfos := by
    simp only [RouteOp.edit]
    split
    · rfl
    · split
      · rfl
      · rename_i connInfo _
        obtain ⟨connections, stored⟩ := storeConnections_frame g p (g.p2pConnections p connInfo)
        rw [stored]
  funext other q
  rw [← infoReading_read, ← infoReading_read]
  apply (infoReading q).call_kept
  exact congrArg (fun infos : PeerMap RoutePeerInfo => infos[q]?) (kept _)

/- The last item about a connected id, stamped; the checked updates of the others. -/
theorem answered_info (decoded : x.decodeSyncRouteInfoRequest body = some req) (q : PeerId) :
    RouteState.info (answeredRoutes x a ctx st body req) ctx.groupKey q =
      if q ∈ RouteState.members st ctx.groupKey ∨ q = ctx.peerId then
        ((lastItemAbout req q).map (stamped a.nowMs)).or (RouteState.info st ctx.groupKey q)
      else RouteState.info (informedRoutes x a ctx st req) ctx.groupKey q := by
  unfold answeredRoutes
  rw [info_call]
  simp only [↓reduceIte]
  rw [handleSync_info decoded, ensureGroup_info, info_updatePeerConnections, ensureGroup_peers,
    members_reaches (Reaches.call rfl), informed_members]
  by_cases connected : q ∈ RouteState.members st ctx.groupKey ∨ q = ctx.peerId
  · rw [if_pos connected, if_pos connected]
    cases about : lastItemAbout req q with
    | none => rw [informed_unlisted about]
    | some item => rfl
  · rw [if_neg connected, if_neg connected]

/-- After the request a member is shown as the last item about it, stamp apart. -/
theorem answered_shownInfo (decoded : x.decodeSyncRouteInfoRequest body = some req) {q : PeerId}
    (member : q ∈ RouteState.members st ctx.groupKey) :
    RouteState.shownInfo (answeredRoutes x a ctx st body req) ctx.groupKey q =
      ((lastItemAbout req q).map apartFromUpdate).or (RouteState.shownInfo st ctx.groupKey q) := by
  unfold RouteState.shownInfo
  rw [answered_info decoded, if_pos (Or.inl member)]
  cases lastItemAbout req q with
  | none => rfl
  | some item => rfl

def Settled (st : RouteState) (key : GroupKey) (req : SyncRouteInfoRequest) : Prop :=
  ∀ q ∈ RouteState.members st key, q ≠ myPeerId → ∀ item, lastItemAbout req q = some item →
    RouteState.shownInfo st key q = some (apartFromUpdate item)

/-- A request that reports no new connections changes the view exactly by what it describes. -/
theorem answered_sameView_iff (decoded : x.decodeSyncRouteInfoRequest body = some req)
    (calm : ¬ RouteGroupData.Reconnects (st.ensureGroup a.seed ctx.groupKey) ctx.peerId req) :
    SameView ctx.groupKey st (answeredRoutes x a ctx st body req) ↔
      Settled st ctx.groupKey req := by
  have links : RouteState.connections (answeredRoutes x a ctx st body req) ctx.groupKey =
      RouteState.connections st ctx.groupKey := by
    have handled (st : RouteState) : Reaches x KeepsEdges st (RouteState.call x st
        ⟨ctx.groupKey, a.seed, .handleSync ctx.peerId body a.nowMs⟩) := Reaches.call rfl
    rw [answeredRoutes, connections_reaches (handled _), connections_calm decoded,
      informed_connections]
    rwa [informed_reconnects]
  constructor
  · intro same q member foreign item about
    have shown := same.infos q member foreign
    rw [answered_shownInfo decoded member, about] at shown
    exact shown.symm
  · intro settled
    constructor
    · intro q member foreign
      rw [answered_shownInfo decoded member]
      cases about : lastItemAbout req q with
      | none => rfl
      | some item => exact (settled q member foreign item about).symm
    · intro q _ r _
      rw [links]

theorem handleSyncRouteInfo_silent (undecodable : x.decodeSyncRouteInfoRequest body = none)
    (packet : RpcPacket) :
    (handleSyncRouteInfo x a ctx pm packet body ctx.groupKey).1 = [] := by
  simp only [handleSyncRouteInfo, PeerManager.handleSyncRouteInfo,
    RouteState.handleSyncRouteInfoRequest, undecodable]

end Request

/- Changes are broadcast: an answered SyncRouteInfo request that changes what another member
   would be told asks for a broadcast to the group. -/
def BroadcastsChanges (x : Externals) (a : Ambient) (ctx : WsPeerContext) (pm : PeerManager)
    (centers : PeerCenterMap) (payload : Bytes) : Prop :=
  let out := handleRpcReq x a ctx pm centers payload
  (syncBody x payload).isSome → (∃ p bytes, .sendTo p bytes ∈ out.actions) →
    (∃ q ∈ RouteState.members pm.routeState ctx.groupKey, q ≠ ctx.peerId) →
    ¬ SameView ctx.groupKey pm.routeState out.peerManager.routeState →
    ∃ p, .broadcastRouteUpdate ctx.groupKey p ∈ out.actions

/-- A change is broadcast exactly if the request brings a higher version or new connections,
    describes every member as it is already stored, or nobody else is there to be told. -/
theorem broadcasts_changes_iff (x : Externals) (a : Ambient) (ctx : WsPeerContext)
    (pm : PeerManager) (centers : PeerCenterMap) (payload : Bytes) :
    BroadcastsChanges x a ctx pm centers payload ↔
      ∀ req, (syncBody x payload).bind x.decodeSyncRouteInfoRequest = some req →
        (∀ q ∈ RouteState.members pm.routeState ctx.groupKey, q = ctx.peerId) ∨
        (∃ item ∈ listedItems req, NewsAbout x pm.routeState ctx.groupKey item) ∨
        RouteGroupData.Reconnects (pm.routeState.ensureGroup a.seed ctx.groupKey) ctx.peerId req ∨
        Settled pm.routeState ctx.groupKey req := by
  unfold BroadcastsChanges
  cases named : syncBody x payload with
  | none => simp
  | some body =>
    obtain ⟨packet, actions, manager⟩ :=
      handleRpcReq_sync x a ctx pm named centers
    simp only [actions, manager, Option.isSome_some, forall_const, Option.bind_some]
    cases decoded : x.decodeSyncRouteInfoRequest body with
    | none => simp [handleSyncRouteInfo_silent decoded]
    | some req =>
      have listed := handleSyncRouteInfo_actions x a ctx pm decoded packet
      have answered : ∃ p bytes, RpcAction.sendTo p bytes ∈
          (handleSyncRouteInfo x a ctx pm packet body ctx.groupKey).1 := by
        rw [listed]
        exact ⟨_, _, List.mem_cons_self⟩
      have broadcast : (∃ p, RpcAction.broadcastRouteUpdate ctx.groupKey p ∈
          (handleSyncRouteInfo x a ctx pm packet body ctx.groupKey).1) ↔
          RouteGroupData.Reconnects (pm.routeState.ensureGroup a.seed ctx.groupKey) ctx.peerId req ∨
            ∃ item ∈ listedItems req, NewsAbout x pm.routeState ctx.groupKey item := by
        rw [← applied_flag decoded, listed]
        simp
      rw [handleSyncRouteInfo_answered decoded, broadcast]
      have somebody : (∃ q ∈ RouteState.members pm.routeState ctx.groupKey, q ≠ ctx.peerId) ↔
          ¬ ∀ q ∈ RouteState.members pm.routeState ctx.groupKey, q = ctx.peerId := by
        simp
      simp only [answered, somebody, forall_const, Option.some.injEq, forall_eq']
      by_cases links : RouteGroupData.Reconnects (pm.routeState.ensureGroup a.seed ctx.groupKey)
          ctx.peerId req
      · constructor
        · intro _
          exact Or.inr (Or.inr (Or.inl links))
        · intro _ _ _
          exact Or.inl links
      · rw [answered_sameView_iff decoded links]
        simp only [links, false_or]
        rw [← or_iff_not_imp_left, ← or_iff_not_imp_left, or_comm (b := Settled _ _ _)]

/- Peers 5 and 6 have joined. Then peer 5 sends its real info, with the version of the stub. -/
def twoJoined : Relay :=
  Relay.run wire Relay.initial (quietly [.accept, .message 0 (greeting 5 "net" [0xaa]), .accept,
    .message 1 (greeting 6 "net" [0xaa])])

def realInfo : SyncRouteInfoRequest where
  myPeerId := 5
  mySessionId := 9
  isInitiator := true
  peerInfos := some ⟨[{ peerId := 5, version := 1, hostname := some "five" }]⟩
  connInfo := none
  foreignNetworkInfos := none

def isBroadcast : RpcAction → Bool
  | .broadcastRouteUpdate _ _ => true
  | _ => false

def isAnswer : RpcAction → Bool
  | .sendTo _ _ => true
  | _ => false

set_option maxRecDepth 8000 in
theorem real_info_is_not_broadcast :
    ¬ BroadcastsChanges wire ((quietEnv 2000 500).ambient "net:aa" 0)
      (attachmentToCtx 500 (twoJoined.currentAttachment (quietEnv 2000 500) 0))
      twoJoined.global.peerManager twoJoined.global.peerCenterMap
      (payloadOf (syncMessage 5 realInfo)) := by
  intro broadcasts
  set out := handleRpcReq wire ((quietEnv 2000 500).ambient "net:aa" 0)
    (attachmentToCtx 500 (twoJoined.currentAttachment (quietEnv 2000 500) 0))
    twoJoined.global.peerManager twoJoined.global.peerCenterMap
    (payloadOf (syncMessage 5 realInfo)) with outDef
  have answered : ∃ p bytes, RpcAction.sendTo p bytes ∈ out.actions := by
    have sent : out.actions.any isAnswer = true := by decide
    obtain ⟨action, listed, answer⟩ := List.any_eq_true.mp sent
    cases action with
    | sendTo p bytes => exact ⟨p, bytes, listed⟩
    | _ => cases answer
  have changed : ¬ SameView "net:aa" twoJoined.global.peerManager.routeState
      out.peerManager.routeState := by
    intro same
    exact absurd (same.infos 5 (by decide) (by decide)) (by decide)
  obtain ⟨p, listed⟩ := broadcasts (by decide) answered ⟨6, by decide, by decide⟩ changed
  have quiet : out.actions.all (fun action => !isBroadcast action) = true := by decide
  exact absurd (List.all_eq_true.mp quiet _ listed) (by simp [isBroadcast])

end RelayChangeBroadcast
