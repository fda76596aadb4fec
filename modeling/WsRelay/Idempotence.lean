import WsRelay.ChangeBroadcast

/- A SyncRouteInfo request that is handled twice. Its connections and its checked infos settle
   at once. The unchecked writer leaves the last item about an id, and the checked one takes an
   earlier item with a higher version for news again. -/
namespace RelayIdempotence
open RelayProtocol RelayRouteState RelayPeerManager RelayRpcHandler RelayRoomModel RelayRouteOps
open RelayRoomSteps RelayPeerInfoVersions RelayTopologyVersions RelayResidue RelayChangeBroadcast
open RelayWireFormats TransitionRuns

variable {x : Externals} {st : RouteState} {key : GroupKey} {p : PeerId}

theorem updated_dated (st : RouteState) (seed : GroupSeed) (key : GroupKey)
    (item : RoutePeerInfo) :
    Dated x (RouteState.call x st
      ⟨key, seed, .updatePeerInfo item.peerId (x.encodeRoutePeerInfo item)⟩) key item := by
  intro info decoded
  unfold RouteState.infoVersion
  rw [info_call]
  simp only [↓reduceIte, RouteOp.edit, decoded]
  cases stored : (st.ensureGroup seed key).peerInfos[item.peerId]? with
  | none => simp
  | some old =>
    by_cases newer : old.version < info.version
    · simp [newer]
    · simp only [newer, ↓reduceIte, stored]
      rw [UInt32.lt_iff_toNat_lt, not_lt] at newer
      exact WithBot.coe_le_coe.mpr newer

theorem items_dated (a : Ambient) (items : List RoutePeerInfo) (st : RouteState) :
    ∀ item ∈ items, Dated x (RouteState.callAll x st (itemCalls x a key items)) key item := by
  induction items generalizing st with
  | nil => simp
  | cons first rest ih =>
    intro item listed
    rcases List.mem_cons.mp listed with rfl | later
    · intro info decoded
      have reached : Reaches x KeepsInfos
          (RouteState.call x st ⟨key, a.seed, .updatePeerInfo item.peerId
            (x.encodeRoutePeerInfo item)⟩)
          (RouteState.callAll x st (itemCalls x a key (item :: rest))) := by
        refine ⟨itemCalls x a key rest, ?_, rfl⟩
        intro c listed
        obtain ⟨other, -, rfl⟩ := List.mem_map.mp listed
        rfl
      have written := updated_dated st a.seed key item info decoded
      exact written.trans (reaches_infoVersion_le reached key item.peerId)
    · exact ih _ item later

structure OnlyInfos (key : GroupKey) (before after : RouteState) : Prop where
  group : ∃ g peerInfos sessions, before.groups[key]? = some g ∧
    after.groups[key]? = some { g with peerInfos, sessions }
  others : ∀ other, other ≠ key → after.groups[other]? = before.groups[other]?

theorem OnlyInfos.refl {g : RouteGroupData} (stored : st.groups[key]? = some g) :
    OnlyInfos key st st :=
  ⟨⟨g, g.peerInfos, g.sessions, stored, stored⟩, fun _ _ => rfl⟩

theorem OnlyInfos.trans {st' st'' : RouteState} (first : OnlyInfos key st st')
    (second : OnlyInfos key st' st'') : OnlyInfos key st st'' := by
  obtain ⟨g, infos, sessions, before, between⟩ := first.group
  obtain ⟨g', infos', sessions', found, after⟩ := second.group
  rw [between, Option.some.injEq] at found
  subst found
  refine ⟨⟨g, infos', sessions', before, after⟩, ?_⟩
  intro other different
  rw [second.others other different, first.others other different]

theorem OnlyInfos.stored {st' : RouteState} (only : OnlyInfos key st st') :
    ∃ g, st'.groups[key]? = some g := by
  obtain ⟨g, infos, sessions, -, after⟩ := only.group
  exact ⟨_, after⟩

theorem onlyInfos_call {g : RouteGroupData} {seed : GroupSeed} {op : RouteOp}
    (stored : st.groups[key]? = some g)
    (calm : ∃ peerInfos sessions, op.edit x g = (false, { g with peerInfos, sessions })) :
    OnlyInfos key st (RouteState.call x st ⟨key, seed, op⟩) := by
  obtain ⟨infos, sessions, edited⟩ := calm
  rcases call_groups x st ⟨key, seed, op⟩ with ⟨same, -⟩ | put
  · rw [same]
    exact OnlyInfos.refl stored
  · have written : op.onGroup x g = { g with peerInfos := infos, sessions := sessions } := by
      simp [RouteOp.onGroup, edited]
    rw [put, ensureGroup_stored stored, written]
    refine ⟨⟨g, infos, sessions, stored, by simp [RouteState.put]⟩, ?_⟩
    intro other different
    exact groups_put_ne st _ (Ne.symm different)

theorem known_stays {st' : RouteState} (reached : Reaches x KeepsInfos st st')
    (known : (RouteState.info st key p).isSome) : (RouteState.info st' key p).isSome := by
  have grown := reaches_infoVersion_le reached key p
  unfold RouteState.infoVersion at grown
  obtain ⟨old, stored⟩ := Option.isSome_iff_exists.mp known
  cases after : RouteState.info st' key p with
  | none =>
    rw [stored, after] at grown
    exact absurd grown (WithBot.not_coe_le_bot _)
  | some info => rfl

section Request
variable {a : Ambient} {ctx : WsPeerContext} {body : Bytes} {req : SyncRouteInfoRequest}

theorem informed_keepsInfos : Reaches x KeepsInfos st (informedRoutes x a ctx st req) := by
  refine ⟨informedCalls x a ctx req, ?_, rfl⟩
  intro c listed
  rcases List.mem_cons.mp listed with rfl | item
  · rfl
  · obtain ⟨item, -, rfl⟩ := List.mem_map.mp item
    rfl

def KnowsItems (x : Externals) (st : RouteState) (key : GroupKey) (req : SyncRouteInfoRequest) :
    Prop :=
  ∀ item ∈ listedItems req, (x.decodeRoutePeerInfo (x.encodeRoutePeerInfo item)).isSome →
    (RouteState.info st key item.peerId).isSome

theorem informed_onlyInfos {g : RouteGroupData} (stored : st.groups[ctx.groupKey]? = some g)
    (known : KnowsItems x st ctx.groupKey req) :
    OnlyInfos ctx.groupKey st (informedRoutes x a ctx st req) := by
  refine (informed_invariant (fun s => OnlyInfos ctx.groupKey st s ∧
    ∀ q, (RouteState.info st ctx.groupKey q).isSome → (RouteState.info s ctx.groupKey q).isSome)
    ⟨OnlyInfos.refl stored, fun _ same => same⟩ ?_ ?_).1
  · intro s ⟨frame, kept⟩
    obtain ⟨g', here⟩ := frame.stored
    constructor
    · exact frame.trans (onlyInfos_call here ⟨g'.peerInfos, _, rfl⟩)
    · intro q present
      exact known_stays (Reaches.call rfl) (kept q present)
  · intro item inside s ⟨frame, kept⟩
    obtain ⟨g', here⟩ := frame.stored
    constructor
    · apply frame.trans
      apply onlyInfos_call here
      cases decoded : x.decodeRoutePeerInfo (x.encodeRoutePeerInfo item) with
      | none => exact ⟨g'.peerInfos, g'.sessions, by simp [RouteOp.edit, decoded]⟩
      | some info =>
        have present := kept item.peerId (known item inside (by rw [decoded]; rfl))
        unfold RouteState.info at present
        rw [here] at present
        obtain ⟨old, found⟩ := Option.isSome_iff_exists.mp present
        simp only [Option.bind_some] at found
        by_cases newer : old.version < info.version
        · exact ⟨g'.peerInfos.insert item.peerId info, g'.sessions, by
            simp [RouteOp.edit, decoded, found, newer]⟩
        · exact ⟨g'.peerInfos, g'.sessions, by simp [RouteOp.edit, decoded, found, newer]⟩
    · intro q present
      exact known_stays (Reaches.call rfl) (kept q present)

theorem storeConnections_links (g : RouteGroupData) (p : PeerId) (reported : PeerSet) :
    (g.storeConnections p reported).2.peerConnections[p]? = linksOf reported := by
  unfold RouteGroupData.storeConnections linksOf
  by_cases empty : reported.isEmpty = true
  · simp [empty]
  · simp [empty]

theorem reported_settled (decoded : x.decodeSyncRouteInfoRequest body = some req)
    (st : RouteState) (seed again : GroupSeed) (key : GroupKey) (p : PeerId) :
    ¬ RouteGroupData.Reconnects ((RouteState.call x st
      ⟨key, seed, .updatePeerConnections p body⟩).ensureGroup again key) p req := by
  intro ⟨connInfo, reported, differs⟩
  apply differs
  rw [ensureGroup_connections, connections_call,
    p2pConnections_members (g := st.ensureGroup seed key)]
  · simp only [↓reduceIte, RouteOp.edit, decoded, reported]
    exact storeConnections_links (st.ensureGroup seed key) p _
  · rw [ensureGroup_peers, ensureGroup_peers, members_reaches (Reaches.call rfl)]

theorem answered_members :
    RouteState.members (answeredRoutes x a ctx st body req) = RouteState.members st := by
  unfold answeredRoutes
  rw [members_reaches (Reaches.call rfl), members_reaches (Reaches.call rfl), informed_members]

theorem answered_settled (decoded : x.decodeSyncRouteInfoRequest body = some req)
    (again : GroupSeed) :
    ¬ RouteGroupData.Reconnects ((answeredRoutes x a ctx st body req).ensureGroup again
      ctx.groupKey) ctx.peerId req := by
  have reported := reported_settled decoded (informedRoutes x a ctx st req) a.seed again
    ctx.groupKey ctx.peerId
  have handled (st : RouteState) : Reaches x KeepsEdges st (RouteState.call x st
      ⟨ctx.groupKey, a.seed, .handleSync ctx.peerId body a.nowMs⟩) := Reaches.call rfl
  rwa [answeredRoutes, reconnects_congr (g := (RouteState.call x (informedRoutes x a ctx st req)
    ⟨ctx.groupKey, a.seed, .updatePeerConnections ctx.peerId body⟩).ensureGroup again ctx.groupKey)]
  · rw [ensureGroup_peers, ensureGroup_peers, members_reaches (Reaches.call rfl)]
  · rw [ensureGroup_connections, ensureGroup_connections, connections_reaches (handled _)]

theorem storeItems_calm {now : Millis} {peers : PeerSet} {sender : PeerId}
    (items : List RoutePeerInfo) (acc : Bool × PeerMap RoutePeerInfo)
    (known : ∀ item ∈ items, item.peerId ∈ peers ∨ item.peerId = sender →
      item.peerId ∈ acc.2) :
    (items.foldl (storeItem now peers sender) acc).1 = acc.1 := by
  induction items generalizing acc with
  | nil => rfl
  | cons first rest ih =>
    rw [List.foldl_cons, ih]
    · unfold storeItem
      by_cases connected : first.peerId ∈ peers ∨ first.peerId = sender
      · have present := known first List.mem_cons_self connected
        simp [connected, Std.ExtTreeMap.contains_iff_mem.mpr present]
      · simp [not_or.mp connected]
    · intro item listed connected
      have before := known item (List.mem_cons_of_mem first listed) connected
      unfold storeItem
      split
      · rw [Std.ExtTreeMap.mem_insert]
        exact Or.inr before
      · exact before

theorem onlyInfos_report (decoded : x.decodeSyncRouteInfoRequest body = some req)
    {g : RouteGroupData} {seed : GroupSeed} (stored : st.groups[key]? = some g)
    (calm : ¬ RouteGroupData.Reconnects g p req) :
    OnlyInfos key st (RouteState.call x st ⟨key, seed, .updatePeerConnections p body⟩) := by
  apply onlyInfos_call stored
  refine ⟨g.peerInfos, g.sessions, ?_⟩
  simp only [RouteOp.edit, decoded]
  cases reported : req.connInfo with
  | none => rfl
  | some connInfo =>
    have unchanged : (g.storeConnections p (g.p2pConnections p connInfo)).1 = false := by
      rw [Bool.eq_false_iff, ne_eq, storeConnections_changed]
      exact fun differs => calm ⟨connInfo, reported, differs⟩
    obtain ⟨connections, written⟩ := storeConnections_frame g p (g.p2pConnections p connInfo)
    have kept := storeConnections_calm unchanged
    rw [written] at kept
    apply Prod.ext
    · exact unchanged
    · rw [written]
      simp only at kept
      rw [kept]

theorem onlyInfos_handle (decoded : x.decodeSyncRouteInfoRequest body = some req)
    {g : RouteGroupData} {seed : GroupSeed} {now : Millis} (stored : st.groups[key]? = some g)
    (known : ∀ item ∈ listedItems req, item.peerId ∈ g.peers ∨ item.peerId = p →
      item.peerId ∈ g.peerInfos) :
    OnlyInfos key st (RouteState.call x st ⟨key, seed, .handleSync p body now⟩) := by
  apply onlyInfos_call stored
  unfold listedItems at known
  cases listed : req.peerInfos with
  | none => exact ⟨g.peerInfos, (g.touchFrom p req now).sessions, by
      simp [RouteOp.edit, decoded, listed, RouteGroupData.touchFrom]⟩
  | some infos =>
    rw [listed] at known
    have calm : (infos.items.foldl (storeItem now g.peers p) (false, g.peerInfos)).1 = false :=
      storeItems_calm infos.items (false, g.peerInfos) known
    refine ⟨(infos.items.foldl (storeItem now g.peers p) (false, g.peerInfos)).2,
      (g.touchFrom p req now).sessions, ?_⟩
    simp only [RouteOp.edit, decoded, listed]
    exact Prod.ext calm rfl

theorem answered_onlyInfos (decoded : x.decodeSyncRouteInfoRequest body = some req)
    {g : RouteGroupData} (stored : st.groups[ctx.groupKey]? = some g)
    (calm : ¬ RouteGroupData.Reconnects g ctx.peerId req)
    (known : KnowsItems x st ctx.groupKey req)
    (connected : ∀ item ∈ listedItems req, item.peerId ∈ g.peers ∨ item.peerId = ctx.peerId →
      (RouteState.info st ctx.groupKey item.peerId).isSome) :
    OnlyInfos ctx.groupKey st (answeredRoutes x a ctx st body req) := by
  have informed := informed_onlyInfos (a := a) stored known
  obtain ⟨g', infos, sessions, found, here⟩ := informed.group
  rw [stored, Option.some.injEq] at found
  subst found
  have reported : OnlyInfos ctx.groupKey (informedRoutes x a ctx st req) (RouteState.call x
      (informedRoutes x a ctx st req) ⟨ctx.groupKey, a.seed, .updatePeerConnections ctx.peerId
        body⟩) := onlyInfos_report decoded here calm
  have described := informed.trans reported
  obtain ⟨g', infos', sessions', found, here'⟩ := described.group
  rw [stored, Option.some.injEq] at found
  subst found
  refine described.trans (onlyInfos_handle decoded here' ?_)
  intro item listed linked
  have before : (RouteState.info (informedRoutes x a ctx st req) ctx.groupKey item.peerId).isSome :=
    known_stays informed_keepsInfos (connected item listed linked)
  rw [← info_updatePeerConnections (x := x) _ a.seed ctx.groupKey ctx.peerId body] at before
  unfold RouteState.info at before
  rw [here'] at before
  exact Std.ExtTreeMap.mem_iff_isSome_getElem?.mpr before

/- A member of the sender's group, or the sender: the ids that are written unchecked. -/
abbrev Connected (st : RouteState) (ctx : WsPeerContext) (q : PeerId) : Prop :=
  q ∈ RouteState.members st ctx.groupKey ∨ q = ctx.peerId

theorem informed_dated : ∀ item ∈ listedItems req,
    Dated x (informedRoutes x a ctx st req) ctx.groupKey item :=
  items_dated a (listedItems req) _

theorem answered_stored (decoded : x.decodeSyncRouteInfoRequest body = some req) :
    ∃ g, (answeredRoutes x a ctx st body req).groups[ctx.groupKey]? = some g := by
  apply Option.isSome_iff_exists.mp
  simp [answeredRoutes, RouteState.call, RouteState.handleSyncRouteInfoRequest, decoded,
    RouteState.put]

theorem answered_last (decoded : x.decodeSyncRouteInfoRequest body = some req) {q : PeerId}
    {last : RoutePeerInfo} (connected : Connected st ctx q)
    (about : lastItemAbout req q = some last) :
    RouteState.info (answeredRoutes x a ctx st body req) ctx.groupKey q =
      some (stamped a.nowMs last) := by
  rw [answered_info decoded, if_pos connected, about]
  rfl

theorem answered_dated (decoded : x.decodeSyncRouteInfoRequest body = some req)
    {item : RoutePeerInfo} (listed : item ∈ listedItems req)
    (stranger : ¬ Connected st ctx item.peerId) :
    Dated x (answeredRoutes x a ctx st body req) ctx.groupKey item := by
  intro info read
  unfold RouteState.infoVersion
  rw [answered_info decoded, if_neg stranger]
  exact informed_dated item listed info read

theorem answered_connected_some (decoded : x.decodeSyncRouteInfoRequest body = some req)
    {item : RoutePeerInfo} (listed : item ∈ listedItems req)
    (connected : Connected st ctx item.peerId) :
    (RouteState.info (answeredRoutes x a ctx st body req) ctx.groupKey item.peerId).isSome := by
  obtain ⟨last, about⟩ := Option.isSome_iff_exists.mp (item_about listed)
  rw [answered_last decoded connected about]
  rfl

theorem answered_knows (decoded : x.decodeSyncRouteInfoRequest body = some req) :
    KnowsItems x (answeredRoutes x a ctx st body req) ctx.groupKey req := by
  intro item listed readable
  by_cases connected : Connected st ctx item.peerId
  · exact answered_connected_some decoded listed connected
  · obtain ⟨info, read⟩ := Option.isSome_iff_exists.mp readable
    have dated := answered_dated (a := a) decoded listed connected info read
    unfold RouteState.infoVersion at dated
    cases stored : RouteState.info (answeredRoutes x a ctx st body req) ctx.groupKey
        item.peerId with
    | none =>
      rw [stored] at dated
      exact absurd dated (WithBot.not_coe_le_bot _)
    | some info => rfl

section Again
variable {again : Ambient}

/- What a repeated request must leave alone; the infos without their stamps. -/
structure GroupView where
  peers : PeerSet
  peerConnections : PeerMap PeerSet
  peerConnVersions : PeerMap Version
  myInfo : RoutePeerInfo
  peerInfos : PeerId → Option RoutePeerInfo

def viewOf (g : RouteGroupData) : GroupView where
  peers := g.peers
  peerConnections := g.peerConnections
  peerConnVersions := g.peerConnVersions
  myInfo := g.myInfo
  peerInfos p := g.peerInfos[p]?.map apartFromUpdate

theorem again_onlyInfos (decoded : x.decodeSyncRouteInfoRequest body = some req) :
    OnlyInfos ctx.groupKey (answeredRoutes x a ctx st body req)
      (answeredRoutes x again ctx (answeredRoutes x a ctx st body req) body req) := by
  obtain ⟨g, stored⟩ : ∃ g, (answeredRoutes x a ctx st body req).groups[ctx.groupKey]? = some g :=
    answered_stored decoded
  have settled : ¬ RouteGroupData.Reconnects ((answeredRoutes x a ctx st body req).ensureGroup
      again.seed ctx.groupKey) ctx.peerId req := answered_settled decoded again.seed
  rw [ensureGroup_stored stored] at settled
  apply answered_onlyInfos decoded stored settled (answered_knows decoded)
  intro item listed linked
  apply answered_connected_some decoded listed
  have members : RouteState.members (answeredRoutes x a ctx st body req) =
      RouteState.members st := answered_members
  have peers := ensureGroup_peers (answeredRoutes x a ctx st body req) again.seed ctx.groupKey
  rw [ensureGroup_stored stored, members] at peers
  rwa [peers] at linked

theorem again_shownInfo (decoded : x.decodeSyncRouteInfoRequest body = some req) (q : PeerId) :
    RouteState.shownInfo (answeredRoutes x again ctx (answeredRoutes x a ctx st body req) body req)
        ctx.groupKey q =
      RouteState.shownInfo (answeredRoutes x a ctx st body req) ctx.groupKey q := by
  have members : RouteState.members (answeredRoutes x a ctx st body req) =
      RouteState.members st := answered_members
  unfold RouteState.shownInfo
  rw [answered_info (a := again) decoded, members]
  by_cases connected : Connected st ctx q
  · rw [if_pos connected]
    cases about : lastItemAbout req q with
    | none => rfl
    | some last =>
      rw [answered_last decoded connected about]
      rfl
  · rw [if_neg connected, informed_kept]
    intro item listed about
    rw [← about] at connected
    exact answered_dated decoded listed connected

/- No item about a connected id is above the last one about it. -/
def LastIsNewest (x : Externals) (st : RouteState) (ctx : WsPeerContext)
    (req : SyncRouteInfoRequest) : Prop :=
  ∀ item ∈ listedItems req, item.peerId ≠ myPeerId → Connected st ctx item.peerId →
    ∀ info last, x.decodeRoutePeerInfo (x.encodeRoutePeerInfo item) = some info →
      lastItemAbout req item.peerId = some last → info.version ≤ last.version

theorem again_news_iff (decoded : x.decodeSyncRouteInfoRequest body = some req) :
    (∃ item ∈ listedItems req,
        NewsAbout x (answeredRoutes x a ctx st body req) ctx.groupKey item) ↔
      ¬ LastIsNewest x st ctx req := by
  constructor
  · intro ⟨item, listed, foreign, info, read, newer⟩ newest
    by_cases connected : Connected st ctx item.peerId
    · obtain ⟨last, about⟩ := Option.isSome_iff_exists.mp (item_about listed)
      have bounded := newest item listed foreign connected info last read about
      unfold RouteState.infoVersion at newer
      rw [answered_last decoded connected about] at newer
      have above : last.version.toNat < info.version.toNat := WithBot.coe_lt_coe.mp newer
      exact absurd (UInt32.le_iff_toNat_le.mp bounded) (by omega)
    · exact absurd newer (not_lt.mpr (answered_dated decoded listed connected info read))
  · intro some
    unfold LastIsNewest at some
    push Not at some
    obtain ⟨item, listed, foreign, connected, info, last, read, about, above⟩ := some
    refine ⟨item, listed, foreign, info, read, ?_⟩
    unfold RouteState.infoVersion
    rw [answered_last decoded connected about]
    have higher : last.version < info.version := UInt32.not_le.mp above
    exact WithBot.coe_lt_coe.mpr (UInt32.lt_iff_toNat_lt.mp higher)

theorem again_view (decoded : x.decodeSyncRouteInfoRequest body = some req) (other : GroupKey) :
    ((answeredRoutes x again ctx (answeredRoutes x a ctx st body req) body req).groups[other]?).map
        viewOf =
      ((answeredRoutes x a ctx st body req).groups[other]?).map viewOf := by
  have only : OnlyInfos ctx.groupKey (answeredRoutes x a ctx st body req)
      (answeredRoutes x again ctx (answeredRoutes x a ctx st body req) body req) :=
    again_onlyInfos decoded
  by_cases own : other = ctx.groupKey
  · subst own
    obtain ⟨g, infos, sessions, before, after⟩ := only.group
    have shown (q : PeerId) :
        infos[q]?.map apartFromUpdate = g.peerInfos[q]?.map apartFromUpdate := by
      have same : RouteState.shownInfo (answeredRoutes x again ctx
          (answeredRoutes x a ctx st body req) body req) ctx.groupKey q =
            RouteState.shownInfo (answeredRoutes x a ctx st body req) ctx.groupKey q :=
        again_shownInfo decoded q
      simpa only [RouteState.shownInfo, RouteState.info, before, after, Option.bind_some] using same
    rw [before, after]
    simp only [Option.map_some, viewOf, shown]
  · rw [only.others other own]

end Again

end Request

/- The second handling asks for no broadcast, and shows every group as the first one left it. -/
structure Idempotent (first second : List RpcAction × WsPeerContext × PeerManager) : Prop where
  silent : ∀ key p, RpcAction.broadcastRouteUpdate key p ∉ second.1
  settled : ∀ key : GroupKey, (second.2.2.routeState.groups[key]?).map viewOf =
    (first.2.2.routeState.groups[key]?).map viewOf

/-- Handling a request again changes nothing and asks for no broadcast exactly if no item about
    a connected id has a higher version than the last item about it. -/
theorem repeated_sync_idempotent_iff {x : Externals} {body : Bytes} {req : SyncRouteInfoRequest}
    (decoded : x.decodeSyncRouteInfoRequest body = some req) (a again : Ambient)
    {ctx ctx' : WsPeerContext} (samePeer : ctx'.peerId = ctx.peerId)
    (sameGroup : ctx'.groupKey = ctx.groupKey) (pm : PeerManager) (packet packet' : RpcPacket) :
    let first := handleSyncRouteInfo x a ctx pm packet body ctx.groupKey
    Idempotent first (handleSyncRouteInfo x again ctx' first.2.2 packet' body ctx'.groupKey) ↔
      LastIsNewest x pm.routeState ctx req := by
  intro first
  have firstRoutes : first.2.2.routeState = answeredRoutes x a ctx pm.routeState body req :=
    handleSyncRouteInfo_answered decoded packet
  have secondRoutes : (handleSyncRouteInfo x again ctx' first.2.2 packet' body
      ctx'.groupKey).2.2.routeState =
      answeredRoutes x again ctx (answeredRoutes x a ctx pm.routeState body req) body req := by
    rw [handleSyncRouteInfo_answered decoded, firstRoutes]
    simp only [answeredRoutes, informedRoutes, informedCalls, samePeer, sameGroup]
  have flagged : (applySyncRequest x again (withSession again ctx') first.2.2 body
      ctx'.groupKey).1 = true ↔ ¬ LastIsNewest x pm.routeState ctx req := by
    rw [applied_flag decoded, samePeer, sameGroup, firstRoutes, again_news_iff decoded,
      or_iff_right (answered_settled decoded again.seed)]
  have listed := handleSyncRouteInfo_actions x again ctx' first.2.2 decoded packet'
  constructor
  · intro idempotent
    by_contra older
    rw [if_pos (flagged.mpr older)] at listed
    apply idempotent.silent ctx'.groupKey ctx'.peerId
    rw [listed]
    simp
  · intro newest
    have calm := (not_congr flagged).mpr (not_not_intro newest)
    rw [if_neg calm] at listed
    constructor
    · intro key p asked
      rw [listed] at asked
      simp at asked
    · intro key
      rw [secondRoutes, firstRoutes]
      exact again_view decoded key

/- Peer 5 of two members, and the packet that brings its requests. -/
def fifthCtx : WsPeerContext :=
  attachmentToCtx 500 (twoJoined.currentAttachment (quietEnv 2000 500) 0)

def syncPacket : RpcPacket where
  fromPeer := 5
  toPeer := myPeerId
  transactionId := 1
  descriptor := some ⟨"net", "OspfRouteRpc", "OspfRouteRpc", 1⟩
  body := []
  isRequest := true
  totalPieces := 1
  pieceIdx := 0
  traceId := 0
  compressionInfo := none

theorem single_item_idempotent :
    let first := handleSyncRouteInfo wire ((quietEnv 2000 500).ambient "net:aa" 0) fifthCtx
      twoJoined.global.peerManager syncPacket (wire.encodeSyncRouteInfoRequest realInfo)
      fifthCtx.groupKey
    Idempotent first (handleSyncRouteInfo wire ((quietEnv 3000 600).ambient "net:aa" 0) fifthCtx
      first.2.2 syncPacket (wire.encodeSyncRouteInfoRequest realInfo) fifthCtx.groupKey) := by
  refine (repeated_sync_idempotent_iff (wire_roundTrips.sync realInfo) _ _ rfl rfl _ syncPacket
    syncPacket).mpr ?_
  intro item listed _ _ info last read about
  rw [wire_roundTrips.peerInfo, Option.some.injEq] at read
  subst read
  simp only [listedItems, realInfo, Option.map_some, Option.getD_some, List.mem_singleton] at listed
  subst listed
  simp only [lastItemAbout, realInfo, Option.bind_some, List.reverse_singleton, List.find?_cons,
    beq_self_eq_true, Option.some.injEq] at about
  rw [about]
  exact UInt32.le_refl last.version

def fallingItems : SyncRouteInfoRequest :=
  { realInfo with
    peerInfos := some ⟨[{ peerId := 6, version := 5 }, { peerId := 6, version := 3 }]⟩ }

set_option maxRecDepth 8000 in
/- Versions 5 and 3 of one member: 3 is stored, so 5 is news each time. -/
theorem falling_items_not_idempotent :
    let first := handleSyncRouteInfo wire ((quietEnv 2000 500).ambient "net:aa" 0) fifthCtx
      twoJoined.global.peerManager syncPacket (wire.encodeSyncRouteInfoRequest fallingItems)
      fifthCtx.groupKey
    ¬ Idempotent first (handleSyncRouteInfo wire ((quietEnv 3000 600).ambient "net:aa" 0) fifthCtx
      first.2.2 syncPacket (wire.encodeSyncRouteInfoRequest fallingItems) fifthCtx.groupKey) := by
  intro first idempotent
  set second := handleSyncRouteInfo wire ((quietEnv 3000 600).ambient "net:aa" 0) fifthCtx
    first.2.2 syncPacket (wire.encodeSyncRouteInfoRequest fallingItems) fifthCtx.groupKey
  have asked : second.1.any isBroadcast = true := by decide
  obtain ⟨action, listed, broadcast⟩ := List.any_eq_true.mp asked
  cases action with
  | broadcastRouteUpdate key p => exact idempotent.silent key p listed
  | _ => cases broadcast

end RelayIdempotence
