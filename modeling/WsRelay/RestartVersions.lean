import WsRelay.ChangeBroadcast
import WsRelay.RoomMoves
import WsRelay.Library.Announcements

/- The versions in the updates of a room: the relay's own info and the conn versions. As long as
   the isolate lives, both are read off counters that only go up; a restart recreates the
   counters, and the sockets see it. -/
namespace RelayRestartVersions
open RelayProtocol RelayRouteState RelayPeerManager RelayRpcHandler RelayRoomModel RelayRouteOps
open RelayRoomSteps RelayConnVersions RelayTopologyVersions RelayBitmapDelivery RelayResidue
open RelayPeerInfoVersions RelayChangeBroadcast RelayRoomMoves RelayWireFormats
open TransitionRuns CostedTrails Announcements

variable {x : Externals} {g : RouteGroupData} {st : RouteState} {key : GroupKey} {p q : PeerId}

def InfosNamed (infos : PeerMap RoutePeerInfo) : Prop :=
  ∀ p (info : RoutePeerInfo), infos[p]? = some info → info.peerId = p

theorem InfosNamed.insert {infos : PeerMap RoutePeerInfo} (named : InfosNamed infos)
    {info : RoutePeerInfo} (own : info.peerId = p) : InfosNamed (infos.insert p info) := by
  intro q stored found
  rw [Std.ExtTreeMap.getElem?_insert] at found
  split at found
  · rename_i same
    obtain rfl := Std.LawfulEqCmp.compare_eq_iff_eq.mp same
    rw [← Option.some.inj found]
    exact own
  · exact named q stored found

theorem InfosNamed.erase {infos : PeerMap RoutePeerInfo} (named : InfosNamed infos) :
    InfosNamed (infos.erase p) := by
  intro q stored found
  rw [Std.ExtTreeMap.getElem?_erase] at found
  split at found
  · cases found
  · exact named q stored found

theorem InfosNamed.select {now : Millis} {myInfo : RoutePeerInfo} {full : Bool}
    (relevant : List PeerId) {acc : InfoSelection} (named : InfosNamed acc.peerInfos) :
    InfosNamed (relevant.foldl (selectInfo now myInfo full) acc).peerInfos := by
  induction relevant generalizing acc with
  | nil => exact named
  | cons q rest ih =>
    apply ih
    rw [selectInfo_peerInfos]
    split
    · exact named.insert rfl
    · exact named

theorem InfosNamed.store {now : Millis} {peers : PeerSet} {sender : PeerId}
    (items : List RoutePeerInfo) {acc : Bool × PeerMap RoutePeerInfo} (named : InfosNamed acc.2) :
    InfosNamed (items.foldl (storeItem now peers sender) acc).2 := by
  induction items generalizing acc with
  | nil => exact named
  | cons info rest ih =>
    apply ih
    unfold storeItem
    split
    · exact named.insert rfl
    · exact named

/- The own info shows its counter and the relay's id, and the others are stored by their ids. -/
structure RouteGroupData.Genuine (g : RouteGroupData) : Prop where
  version : g.myInfo.version = g.myInfoVersion
  own : g.myInfo.peerId = myPeerId
  named : InfosNamed g.peerInfos

theorem newGroup_genuine (seed : GroupSeed) : RouteGroupData.Genuine (newGroup seed) where
  version := rfl
  own := rfl
  named := by
    intro p info found
    simp [newGroup] at found

theorem bumpMyInfoVersion_genuine (genuine : RouteGroupData.Genuine g) :
    RouteGroupData.Genuine g.bumpMyInfoVersion := ⟨rfl, genuine.own, genuine.named⟩

theorem setMyInfoField_genuine (genuine : RouteGroupData.Genuine g) (field value : String) :
    RouteGroupData.Genuine (g.setMyInfoField field value).2 := by
  have own (info : RoutePeerInfo) (taken : g.withMyInfoField field value = .ok info) :
      info.peerId = myPeerId := by
    rw [← genuine.own]
    unfold RouteGroupData.withMyInfoField at taken
    split at taken
    · cases taken
      rfl
    · split at taken
      · cases taken
        rfl
      · cases taken
    · split at taken
      · cases taken
        rfl
      · cases taken
    · cases taken
  unfold RouteGroupData.setMyInfoField
  split
  · rename_i info taken
    exact ⟨rfl, own info taken, genuine.named⟩
  · exact genuine

/- An info that is stored by update_peer_info is stored by its own id. -/
def StoresNamed (x : Externals) (op : RouteOp) : Prop :=
  ∀ p bytes, op = .updatePeerInfo p bytes →
    ∃ info, info.peerId = p ∧ bytes = x.encodeRoutePeerInfo info

def ReadsNamed (x : Externals) (op : RouteOp) : Prop :=
  ∀ p bytes, op = .updatePeerInfo p bytes →
    ∀ info, x.decodeRoutePeerInfo bytes = some info → info.peerId = p

theorem StoresNamed.reads
    (decodes : ∀ m, x.decodeRoutePeerInfo (x.encodeRoutePeerInfo m) = some m) {op : RouteOp}
    (stores : StoresNamed x op) : ReadsNamed x op := by
  intro p bytes opened info decoded
  obtain ⟨own, same, rfl⟩ := stores p bytes opened
  rw [decodes, Option.some.injEq] at decoded
  rw [← decoded]
  exact same

theorem edit_genuine {op : RouteOp} (reads : ReadsNamed x op)
    (genuine : RouteGroupData.Genuine g) : RouteGroupData.Genuine (op.edit x g).2 := by
  obtain ⟨version, own, named⟩ := genuine
  cases op with
  | addPeer q => exact ⟨version, own, named⟩
  | removePeer q now => exact ⟨version, own, named.erase⟩
  | onRouteSessionAck q sid initiator now => exact ⟨version, own, named⟩
  | bumpMyInfoVersion => exact bumpMyInfoVersion_genuine ⟨version, own, named⟩
  | cleanup threshold now => exact ⟨version, own, named⟩
  | setMyInfoField field value =>
    exact setMyInfoField_genuine ⟨version, own, named⟩ field value
  | updatePeerInfo q bytes =>
    simp only [RouteOp.edit]
    split
    · exact ⟨version, own, named⟩
    · rename_i info decoded
      have same := reads q bytes rfl info decoded
      split
      · exact ⟨version, own, named.insert same⟩
      · simp only
        split
        · exact ⟨version, own, named.insert same⟩
        · exact ⟨version, own, named⟩
  | updatePeerConnections q bytes =>
    obtain ⟨connections, frame⟩ := editPeerConnections_frame g x q bytes
    rw [frame]
    exact ⟨version, own, named⟩
  | build now target sid initiator full =>
    obtain ⟨sessions, mapped⟩ := buildConnBitmap_frame
      ((g.touchSession target sid now).selectInfos now target full).2 (g.relevantPeers target) target
    simp only [RouteOp.edit, RouteGroupData.buildSyncRouteInfoRequest,
      RouteGroupData.nextForeignVersion, mapped]
    exact ⟨version, own, InfosNamed.select _ named⟩
  | handleSync sender bytes now =>
    simp only [RouteOp.edit]
    split
    · exact ⟨version, own, named⟩
    · split
      · exact ⟨version, own, named⟩
      · exact ⟨version, own, InfosNamed.store _ named⟩

theorem onGroup_genuine {op : RouteOp} (reads : ReadsNamed x op)
    (genuine : RouteGroupData.Genuine g) : RouteGroupData.Genuine (op.onGroup x g) := by
  have edited := edit_genuine reads genuine
  unfold RouteOp.onGroup
  split
  · exact ⟨edited.version, edited.own, edited.named⟩
  · exact edited

def AllGenuine (st : RouteState) : Prop :=
  ∀ (key : GroupKey) g, st.groups[key]? = some g → RouteGroupData.Genuine g

theorem AllGenuine.ensured (genuine : AllGenuine st) (seed : GroupSeed) (key : GroupKey) :
    RouteGroupData.Genuine (st.ensureGroup seed key) :=
  everyGroup_ensured newGroup_genuine genuine seed key

theorem call_genuine_of_reads {c : RouteCall} (reads : ReadsNamed x c.op)
    (genuine : AllGenuine st) : AllGenuine (RouteState.call x st c) :=
  everyGroup_call newGroup_genuine (fun _ kept => onGroup_genuine reads kept) genuine

theorem call_genuine (decodes : ∀ m, x.decodeRoutePeerInfo (x.encodeRoutePeerInfo m) = some m)
    {c : RouteCall} (stores : StoresNamed x c.op) (genuine : AllGenuine st) :
    AllGenuine (RouteState.call x st c) :=
  call_genuine_of_reads (stores.reads decodes) genuine

def RouteState.ownCounter (st : RouteState) (key : GroupKey) : Version :=
  ((st.groups[key]?).map (·.myInfoVersion)).getD 1

def ownCounterReading : Reading Version := ⟨(·.myInfoVersion), 1, fun _ => rfl, fun _ => rfl⟩

theorem ensureGroup_ownCounter (st : RouteState) (seed : GroupSeed) (key : GroupKey) :
    (st.ensureGroup seed key).myInfoVersion = RouteState.ownCounter st key :=
  ownCounterReading.ensureGroup st seed key

theorem edit_myInfoVersion (x : Externals) (g : RouteGroupData) (op : RouteOp) :
    (op.edit x g).2.myInfoVersion = g.myInfoVersion ∨
      (op.edit x g).2.myInfoVersion = g.myInfoVersion + 1 := by
  cases op with
  | bumpMyInfoVersion => exact Or.inr rfl
  | setMyInfoField field value =>
    simp only [RouteOp.edit, RouteGroupData.setMyInfoField]
    split
    · exact Or.inr rfl
    · exact Or.inl rfl
  | updatePeerInfo p bytes =>
    left
    obtain ⟨infos, frame⟩ := editPeerInfo_frame g x p bytes
    rw [frame]
  | updatePeerConnections p bytes =>
    left
    obtain ⟨connections, frame⟩ := editPeerConnections_frame g x p bytes
    rw [frame]
  | build now target sid initiator full =>
    left
    obtain ⟨infos, sessions, frame⟩ := build_frame g now target sid initiator full
    rw [RouteOp.edit, frame]
  | handleSync p bytes now =>
    left
    obtain ⟨infos, sessions, frame⟩ := editSync_frame g x p bytes now
    rw [frame]
  | addPeer p => exact Or.inl rfl
  | removePeer p now => exact Or.inl rfl
  | onRouteSessionAck p sid initiator now => exact Or.inl rfl
  | cleanup threshold now => exact Or.inl rfl

theorem ownCounter_call (x : Externals) (st : RouteState) (c : RouteCall) (key : GroupKey) :
    RouteState.ownCounter (RouteState.call x st c) key =
      if c.groupKey = key then (c.op.edit x (st.ensureGroup c.seed key)).2.myInfoVersion
      else RouteState.ownCounter st key :=
  ownCounterReading.call x st c key

theorem ownCounter_call_step (x : Externals) (st : RouteState) (c : RouteCall) (key : GroupKey) :
    RouteState.ownCounter (RouteState.call x st c) key = RouteState.ownCounter st key ∨
      RouteState.ownCounter (RouteState.call x st c) key = RouteState.ownCounter st key + 1 := by
  rw [ownCounter_call]
  split
  · have edited := edit_myInfoVersion x (st.ensureGroup c.seed key) c.op
    rwa [ensureGroup_ownCounter] at edited
  · exact Or.inl rfl

/- No counter wraps within the given number of calls; a call counts a conn version twice at
   most. -/
structure Spare (calls : Nat) (st : RouteState) : Prop where
  conn : ∀ key p, (st.getPeerConnVersion key p).toNat + 2 * calls < 2 ^ 32
  own : ∀ key, (RouteState.ownCounter st key).toNat + 2 * calls < 2 ^ 32

theorem Spare.fewer {m n : Nat} (fewer : m ≤ n) (spare : Spare n st) : Spare m st where
  conn key p := by
    have bound := spare.conn key p
    omega
  own key := by
    have bound := spare.own key
    omega

theorem Spare.below {m : Nat} (spare : Spare (1 + m) st) :
    VersionsBelow (2 ^ 32 - 3 - 2 * m) st := by
  intro key p
  have bound := spare.conn key p
  omega

theorem Spare.call {m : Nat} (spare : Spare (1 + m) st) (c : RouteCall) :
    Spare m (RouteState.call x st c) where
  conn key p := by
    have bound := spare.conn key p
    have counted : (bumps x st c).toNat ≤ 1 := Bool.toNat_le _
    have after := call_versionsBelow x (by omega) spare.below c key p
    omega
  own key := by
    have bound := spare.own key
    rcases ownCounter_call_step x st c key with same | counted
    · rw [same]
      omega
    · rw [counted, UInt32.toNat_add, UInt32.toNat_one, Nat.mod_eq_of_lt (by omega)]
      omega

theorem Spare.own_le {m : Nat} (spare : Spare (1 + m) st) (c : RouteCall) (key : GroupKey) :
    RouteState.ownCounter st key ≤ RouteState.ownCounter (RouteState.call x st c) key := by
  have bound := spare.own key
  rw [UInt32.le_iff_toNat_le]
  rcases ownCounter_call_step x st c key with same | counted
  · rw [same]
  · rw [counted, UInt32.toNat_add, UInt32.toNat_one, Nat.mod_eq_of_lt (by omega)]
    omega

/-- Only its removal can lower a conn version that has room to count on. -/
theorem Spare.conn_le {m : Nat} (spare : Spare (1 + m) st) {c : RouteCall}
    (stays : ∀ now, c.groupKey = key → c.op ≠ .removePeer q now) :
    st.getPeerConnVersion key q ≤ (RouteState.call x st c).getPeerConnVersion key q := by
  have bound := spare.conn key q
  have room := bumpRoom_of_below (x := x) (by omega) spare.below (by omega) c
  rw [getPeerConnVersion_call]
  split
  · rename_i named
    subst named
    rw [getPeerConnVersion_eq st c.seed]
    have edited : RouteGroupData.connVersion (c.op.edit x (st.ensureGroup c.seed c.groupKey)).2 q =
        RouteGroupData.connVersion (st.ensureGroup c.seed c.groupKey) q := by
      rw [connVersion_edit]
      cases happens : c.op with
      | removePeer p now =>
        have other : p ≠ q := by
          intro same
          exact stays now rfl (by rw [happens, same])
        simp [RouteOp.versionsAfter, RouteGroupData.connVersion, Std.ExtTreeMap.getD_erase, other]
      | _ => rfl
    rw [← edited]
    unfold RouteOp.onGroup
    split
    · rename_i bumps
      exact bump_le (room bumps) q
    · exact UInt32.le_refl _
  · exact UInt32.le_refl _

theorem ownCounter_build {c : RouteCall} (builds : IsBuild c) (st : RouteState) (key : GroupKey) :
    RouteState.ownCounter (RouteState.call x st c) key = RouteState.ownCounter st key := by
  obtain ⟨named, seed, op⟩ := c
  cases op with
  | build now target sid initiator full =>
    apply ownCounterReading.call_kept
    obtain ⟨infos, sessions, frame⟩ :=
      build_frame (st.ensureGroup seed key) now target sid initiator full
    simp only [RouteOp.edit, frame]
    rfl
  | _ => cases builds

theorem connVersion_build {c : RouteCall} (builds : IsBuild c) (st : RouteState) (key : GroupKey)
    (q : PeerId) :
    (RouteState.call x st c).getPeerConnVersion key q = st.getPeerConnVersion key q := by
  obtain ⟨named, seed, op⟩ := c
  cases op with
  | build now target sid initiator full =>
    obtain ⟨infos, sessions, frame⟩ :=
      build_frame (st.ensureGroup seed key) now target sid initiator full
    rw [getPeerConnVersion_call, getPeerConnVersion_eq st seed]
    simp only [RouteOp.onGroup, RouteOp.edit, frame, Bool.false_eq_true, ↓reduceIte]
    exact ite_self _
  | _ => cases builds

theorem Spare.build {m : Nat} (spare : Spare m st) {c : RouteCall} (builds : IsBuild c) :
    Spare m (RouteState.call x st c) where
  conn key p := by
    rw [connVersion_build builds]
    exact spare.conn key p
  own key := by
    rw [ownCounter_build builds]
    exact spare.own key

section Built
variable {env : Env} {r : Relay} {att : WsAttachment} {target : PeerId}

theorem builtRequest_own (genuine : AllGenuine (routes r)) {info : RoutePeerInfo}
    (listed : info ∈ listedItems (builtRequest env r att target)) (own : info.peerId = myPeerId) :
    info.version = RouteState.ownCounter (routes r) att.groupKey := by
  set g := (routes r).ensureGroup (env.seed att.groupKey) att.groupKey with gDef
  have ensured : RouteGroupData.Genuine g := genuine.ensured _ _
  have items : info ∈ (g.relevantPeers target).map
      (RouteGroupData.listedInfo g env.nowMs g.peerInfos) := by
    simp only [listedItems, builtRequest, RouteState.buildSyncRouteInfoRequest,
      RouteGroupData.buildSyncRouteInfoRequest, RouteGroupData.selectInfos, Bool.true_or,
      selectInfo_items, List.nil_append, ← gDef] at listed
    split at listed
    · simp at listed
    · exact listed
  obtain ⟨p, -, same⟩ := List.mem_map.mp items
  unfold RouteGroupData.listedInfo at same
  split at same
  · rw [← same, ensured.version, gDef, ensureGroup_ownCounter]
  · rename_i foreign
    refine absurd ?_ foreign
    rw [← own, ← same]
    cases stored : g.peerInfos[p]? with
    | none => rfl
    | some info => exact (ensured.named p info stored).symm

theorem builtRequest_conn {bitmap : RouteConnBitmap}
    (carries : (builtRequest env r att target).connInfo = some (.connBitmap bitmap))
    {listed : PeerIdVersion} (inside : listed ∈ bitmap.peerIds) :
    listed.version = (routes r).getPeerConnVersion att.groupKey listed.peerId := by
  rw [builtRequest_connInfo] at carries
  obtain ⟨-, same⟩ := Option.ite_none_right_eq_some.mp carries
  obtain rfl := ConnInfo.connBitmap.inj (Option.some.inj same)
  rw [getPeerConnVersion_eq _ (env.seed att.groupKey)]
  exact connBitmap_version inside

end Built

def ownVersions (e : Sent) : List (GroupKey × Version) :=
  match e.origin with
  | .routeUpdate key _ req _ =>
    ((listedItems req).filter (·.peerId == myPeerId)).map fun info => (key, info.version)
  | _ => []

def connVersions (e : Sent) : List (GroupKey × PeerIdVersion) :=
  match e.origin with
  | .routeUpdate key _ req _ =>
    match req.connInfo with
    | some (.connBitmap bitmap) => bitmap.peerIds.map fun listed => (key, listed)
    | _ => []
  | _ => []

theorem ownVersions_update {e : Sent} {v : Version} (shown : (key, v) ∈ ownVersions e) :
    ∃ p req topology, e.origin = .routeUpdate key p req topology ∧
      ∃ info ∈ listedItems req, info.peerId = myPeerId ∧ info.version = v := by
  unfold ownVersions at shown
  split at shown
  · rename_i named p req topology origin
    obtain ⟨info, listed, same⟩ := List.mem_map.mp shown
    obtain ⟨rfl, rfl⟩ := Prod.mk.inj same
    obtain ⟨inside, own⟩ := List.mem_filter.mp listed
    exact ⟨p, req, topology, origin, info, inside, by simpa using own, rfl⟩
  · cases shown

theorem connVersions_update {e : Sent} {listed : PeerIdVersion}
    (shown : (key, listed) ∈ connVersions e) :
    ∃ p req topology, e.origin = .routeUpdate key p req topology ∧
      ∃ bitmap, req.connInfo = some (.connBitmap bitmap) ∧ listed ∈ bitmap.peerIds := by
  unfold connVersions at shown
  split at shown
  · rename_i named p req topology origin
    split at shown
    · rename_i bitmap carried
      obtain ⟨inside, found, same⟩ := List.mem_map.mp shown
      obtain ⟨rfl, rfl⟩ := Prod.mk.inj same
      exact ⟨p, req, topology, origin, bitmap, carried, found⟩
    · cases shown
  · cases shown

/- A level of the routes that updates show: they are built with its current value, builds leave
   it alone, and calls do not lower it while there is room to count on. -/
structure Counts (x : Externals) (removes : RouteCall → Prop) (shows : Sent → Nat → Prop)
    (level : RouteState → Nat) : Prop where
  updates : ∀ e n, shows e n → IsUpdate e.origin
  current : ∀ env r att e n, AllGenuine (routes r) → e.origin = updateSent env r att →
    shows e n → n = level (routes r)
  builds : ∀ c, IsBuild c → ∀ st, level (RouteState.call x st c) = level st
  calls : ∀ m st c, Spare (1 + m) st → Ordinary x c ∨ removes c →
    level st ≤ level (RouteState.call x st c)

theorem counts_own (removes : RouteCall → Prop) (key : GroupKey) :
    Counts x removes (fun e n => ∃ v, (key, v) ∈ ownVersions e ∧ n = v.toNat)
      (fun st => (RouteState.ownCounter st key).toNat) where
  updates e n shows := by
    obtain ⟨v, shown, -⟩ := shows
    obtain ⟨p, req, topology, origin, -⟩ := ownVersions_update shown
    exact ⟨key, p, req, topology, origin⟩
  current env r att e n genuine origin shows := by
    obtain ⟨v, shown, rfl⟩ := shows
    obtain ⟨p, req, topology, same, info, listed, own, rfl⟩ := ownVersions_update shown
    rw [origin] at same
    obtain ⟨rfl, rfl, rfl, rfl⟩ := Origin.routeUpdate.inj same
    exact congrArg UInt32.toNat (builtRequest_own genuine listed own)
  builds c builds st := congrArg UInt32.toNat (ownCounter_build builds st key)
  calls m st c spare _ := UInt32.le_iff_toNat_le.mp (spare.own_le c key)

theorem counts_conn {removes : RouteCall → Prop}
    (stays : ∀ c now, removes c → c.groupKey = key → c.op ≠ .removePeer q now) :
    Counts x removes (fun e n => ∃ v, (key, ⟨q, v⟩) ∈ connVersions e ∧ n = v.toNat)
      (fun st => (st.getPeerConnVersion key q).toNat) where
  updates e n shows := by
    obtain ⟨v, shown, -⟩ := shows
    obtain ⟨p, req, topology, origin, -⟩ := connVersions_update shown
    exact ⟨key, p, req, topology, origin⟩
  current env r att e n genuine origin shows := by
    obtain ⟨v, shown, rfl⟩ := shows
    obtain ⟨p, req, topology, same, bitmap, carries, inside⟩ := connVersions_update shown
    rw [origin] at same
    obtain ⟨rfl, rfl, rfl, rfl⟩ := Origin.routeUpdate.inj same
    exact congrArg UInt32.toNat (builtRequest_conn carries inside)
  builds c builds st := congrArg UInt32.toNat (connVersion_build builds st key q)
  calls m st c spare allowed := by
    rw [← UInt32.le_iff_toNat_le]
    apply spare.conn_le
    intro now named removal
    rcases allowed with ordinary | removed
    · rw [Ordinary, removal] at ordinary
      exact ordinary
    · exact stays c now removed named removal

section Moves
variable {env : Env} {accepts : Prop} {removes : RouteCall → Prop} {r r' : Relay}
  {shows : Sent → Nat → Prop} {level : RouteState → Nat}

/- The part of the log from the given place on rises with the level, and the routes are sound. -/
structure Risen (shows : Sent → Nat → Prop) (level : RouteState → Nat) (place : Nat)
    (r : Relay) : Prop where
  genuine : AllGenuine (routes r)
  since : place ≤ r.room.sent.length
  rising : Rising shows (r.room.sent.drop place) (level (routes r))

theorem removal_of_removesBy {e : RoomEvent} (c : RouteCall) (removed : RemovesBy env r e c) :
    ∃ att, c = removeCall env att := by
  obtain ⟨w, att, -, -, same⟩ := removed
  exact ⟨att, same⟩

theorem storesNamed_of_allowed (removals : ∀ c, removes c → ∃ att, c = removeCall env att)
    {c : RouteCall} (allowed : Ordinary x c ∨ removes c) : StoresNamed x c.op := by
  intro p bytes stores
  rcases allowed with ordinary | removed
  · rw [Ordinary, stores] at ordinary
    exact ordinary
  · obtain ⟨att, rfl⟩ := removals c removed
    cases stores

theorem Risen.still {place : Nat} (risen : Risen shows level place r)
    (sent : r'.room.sent = r.room.sent) (same : routes r' = routes r) :
    Risen shows level place r' := by
  obtain ⟨genuine, since, rising⟩ := risen
  rw [← same] at genuine rising
  rw [← sent] at since rising
  exact ⟨genuine, since, rising⟩

theorem Risen.log {place : Nat} (risen : Risen shows level place r) {entry : Sent}
    (sent : r'.room.sent = r.room.sent ++ [entry]) (same : routes r' = routes r)
    (current : ∀ n, shows entry n → n = level (routes r)) : Risen shows level place r' where
  genuine := by
    rw [same]
    exact risen.genuine
  since := by
    rw [sent, List.length_append]
    exact Nat.le_add_right_of_le risen.since
  rising := by
    rw [sent, same, List.drop_append_of_le_length risen.since]
    apply risen.rising.append
    intro e listed n shown
    rw [List.mem_singleton.mp listed] at shown
    exact current n shown

theorem isBuild_buildCall (env : Env) (r : Relay) (att : WsAttachment) (target : PeerId) :
    IsBuild (buildCall env r att target) := rfl

theorem routes_buildFor (x : Externals) (env : Env) (r : Relay) (att : WsAttachment)
    (target : PeerId) : routes (r.buildFor x env att target).2 =
      RouteState.call x (routes r) (buildCall env r att target) := rfl

theorem Spare.buildFor {m : Nat} (spare : Spare m (routes r)) (x : Externals) (env : Env)
    (att : WsAttachment) (target : PeerId) : Spare m (routes (r.buildFor x env att target).2) := by
  rw [routes_buildFor]
  exact spare.build (isBuild_buildCall env r att target)

theorem buildFor_genuine (decodes : ∀ m, x.decodeRoutePeerInfo (x.encodeRoutePeerInfo m) = some m)
    (genuine : AllGenuine (routes r)) (env : Env) (att : WsAttachment) (target : PeerId) :
    AllGenuine (routes (r.buildFor x env att target).2) := by
  rw [routes_buildFor]
  apply call_genuine decodes _ genuine
  intro p bytes stores
  cases stores

theorem Risen.build (decodes : ∀ m, x.decodeRoutePeerInfo (x.encodeRoutePeerInfo m) = some m)
    (counts : Counts x removes shows level) {place : Nat} (risen : Risen shows level place r)
    (env : Env) (att : WsAttachment) (target : PeerId) :
    Risen shows level place (r.buildFor x env att target).2 where
  genuine := buildFor_genuine decodes risen.genuine env att target
  since := risen.since
  rising := by
    rw [routes_buildFor, counts.builds _ (isBuild_buildCall env r att target)]
    exact risen.rising

theorem risen_move (decodes : ∀ m, x.decodeRoutePeerInfo (x.encodeRoutePeerInfo m) = some m)
    (counts : Counts x removes shows level)
    (removals : ∀ c, removes c → ∃ att, c = removeCall env att) {k m place : Nat}
    (move : Move x env accepts removes k r r') (spare : Spare (k + m) (routes r))
    (risen : Risen shows level place r) : Spare m (routes r') ∧ Risen shows level place r' := by
  cases move with
  | call c allowed =>
    refine ⟨spare.call c, ?_, risen.since, ?_⟩
    · exact call_genuine decodes (storesNamed_of_allowed removals allowed) risen.genuine
    · exact risen.rising.raise (counts.calls m _ c spare allowed)
  | aside same =>
    rw [Nat.zero_add] at spare
    refine ⟨?_, risen.still same.sent same.routes⟩
    rwa [same.routes]
  | send w frame origin other =>
    rw [Nat.zero_add] at spare
    refine ⟨spare, risen.log rfl rfl ?_⟩
    intro n shown
    obtain ⟨key, p, req, topology, update⟩ := counts.updates _ n shown
    exact absurd update (other key p req topology)
  | discard att target =>
    rw [Nat.zero_add] at spare
    exact ⟨spare.buildFor x env att target, risen.build decodes counts env att target⟩
  | tell w att frame isOpen seat =>
    rw [Nat.zero_add] at spare
    have built := risen.build decodes counts env att att.peerId
    refine ⟨spare.buildFor x env att att.peerId, built.log rfl rfl ?_⟩
    intro n shown
    rw [routes_buildFor, counts.builds _ (isBuild_buildCall env r att att.peerId)]
    exact counts.current env r att _ n risen.genuine rfl shown
  | attach w att isOpen reseats =>
    rw [Nat.zero_add] at spare
    exact ⟨spare, risen.still rfl rfl⟩
  | accept accepting =>
    rw [Nat.zero_add] at spare
    exact ⟨spare, risen.still rfl rfl⟩
  | forget w =>
    rw [Nat.zero_add] at spare
    exact ⟨spare, risen.still rfl rfl⟩

theorem risen_step (decodes : ∀ m, x.decodeRoutePeerInfo (x.encodeRoutePeerInfo m) = some m)
    {e : Env × RoomEvent} (awake : e.2 ≠ .restart)
    (counts : Counts x (RemovesBy e.1 r e.2) shows level) {place : Nat}
    (spare : Spare (callsBound x r e.2) (routes r)) (risen : Risen shows level place r) :
    Risen shows level place (r.onEvent x e) := by
  obtain ⟨env, event⟩ := e
  have stays : woken r event = r := by
    cases event with
    | restart => exact absurd rfl awake
    | _ => rfl
  have moves := step_moves x env r event
  rw [stays] at moves
  refine (Trail.budget (fun m r => Spare m (routes r) ∧ Risen shows level place r) ?_ ?_ moves
    (m := 0) ⟨spare, risen⟩).2
  · intro m n s fewer held
    exact ⟨held.1.fewer fewer, held.2⟩
  · intro k m s s' move held
    exact risen_move decodes counts removal_of_removesBy move held.1 held.2

theorem genuine_step (decodes : ∀ m, x.decodeRoutePeerInfo (x.encodeRoutePeerInfo m) = some m)
    (e : Env × RoomEvent) (genuine : AllGenuine (routes r)) :
    AllGenuine (routes (r.onEvent x e)) := by
  apply step_invariant (fun r => AllGenuine (routes r))
  · intro _ key g stored
    simp [routes, GlobalStateInner.fresh, PeerManager.new, RouteState.new] at stored
  · intro k s s' move genuine
    cases move with
    | call c allowed =>
      exact call_genuine decodes (storesNamed_of_allowed removal_of_removesBy allowed) genuine
    | aside same =>
      rw [same.routes]
      exact genuine
    | discard att target => exact buildFor_genuine decodes genuine e.1 att target
    | tell w att frame isOpen seat => exact buildFor_genuine decodes genuine e.1 att att.peerId
    | _ => exact genuine
  · exact genuine

end Moves

def Disconnects (r : Relay) (e : RoomEvent) (key : GroupKey) (q : PeerId) : Prop :=
  ∃ w att, (e = .close w ∨ e = .error w) ∧ LastConnection r w att ∧
    att.groupKey = key ∧ att.peerId = q

/-- Of two updates that are sent on one socket during some events, for one group, the later one
    shows no lower version: neither of the relay's own info nor of a listed peer that stays
    connected meanwhile. -/
def VersionsNeverFall (x : Externals) (before during : List (Env × RoomEvent)) : Prop :=
  let start := Relay.run x Relay.initial before
  let log := (Relay.run x start during).room.sent.drop start.room.sent.length
  ∀ a b, [a, b].Sublist log → a.socket = b.socket → ∀ key,
    (∀ v v', (key, v) ∈ ownVersions a → (key, v') ∈ ownVersions b → v ≤ v') ∧
    ∀ q v v', EveryStep (Relay.onEvent x) (fun r e => ¬ Disconnects r e.2 key q) start during →
      (key, ⟨q, v⟩) ∈ connVersions a → (key, ⟨q, v'⟩) ∈ connVersions b → v ≤ v'

/- The isolate lives on, and the calls of the event can count without a wrap. -/
def StaysAwake (x : Externals) (r : Relay) (e : Env × RoomEvent) : Prop :=
  e.2 ≠ .restart ∧ Spare (callsBound x r e.2) (routes r)

theorem genuine_run (decodes : ∀ m, x.decodeRoutePeerInfo (x.encodeRoutePeerInfo m) = some m)
    (events : List (Env × RoomEvent)) :
    AllGenuine (routes (Relay.run x Relay.initial events)) := by
  have start : AllGenuine (routes Relay.initial) := by
    intro key g stored
    simp [Relay.initial, routes, GlobalStateInner.fresh, PeerManager.new, RouteState.new] at stored
  exact invariant_run (fun r => AllGenuine (routes r)) (fun r e _ => genuine_step decodes e) start
    (everyStep_true Relay.initial events)

theorem risen_run (decodes : ∀ m, x.decodeRoutePeerInfo (x.encodeRoutePeerInfo m) = some m)
    {shows : Sent → Nat → Prop} {level : RouteState → Nat} {before during : List (Env × RoomEvent)}
    (counts : EveryStep (Relay.onEvent x) (fun r e => StaysAwake x r e ∧
      Counts x (RemovesBy e.1 r e.2) shows level) (Relay.run x Relay.initial before) during) :
    let start := Relay.run x Relay.initial before
    Rising shows ((Relay.run x start during).room.sent.drop start.room.sent.length)
      (level (routes (Relay.run x start during))) := by
  intro start
  have fresh : Risen shows level start.room.sent.length start := by
    refine ⟨genuine_run decodes before, Nat.le_refl _, ?_⟩
    rw [List.drop_length]
    exact Rising.start _
  have grown : Risen shows level start.room.sent.length (Relay.run x start during) :=
    invariant_run (Risen shows level start.room.sent.length)
      (fun r e held risen => risen_step decodes held.1.1 held.2 held.1.2 risen) fresh counts
  exact grown.rising

/-- As long as the isolate lives, and no counter wraps, no version falls. -/
theorem versions_never_fall_while_awake
    (decodes : ∀ m, x.decodeRoutePeerInfo (x.encodeRoutePeerInfo m) = some m)
    {before during : List (Env × RoomEvent)}
    (awake : EveryStep (Relay.onEvent x) (StaysAwake x) (Relay.run x Relay.initial before) during) :
    VersionsNeverFall x before during := by
  intro a b later _ key
  constructor
  · intro v v' early late
    have rising := risen_run decodes (everyStep_mono
      (fun r e held => ⟨held, counts_own (RemovesBy e.1 r e.2) key⟩) awake)
    rw [UInt32.le_iff_toNat_le]
    exact rising.le_of_later later ⟨v, early, rfl⟩ ⟨v', late, rfl⟩
  · intro q v v' stays early late
    have counts (r : Relay) (e : Env × RoomEvent) (held : ¬ Disconnects r e.2 key q) :
        Counts x (RemovesBy e.1 r e.2) (fun e n => ∃ v, (key, ⟨q, v⟩) ∈ connVersions e ∧ n = v.toNat)
          (fun st => (st.getPeerConnVersion key q).toNat) := by
      apply counts_conn
      intro c now removed named removal
      obtain ⟨w, att, closes, last, rfl⟩ := removed
      obtain ⟨left, -⟩ := RouteOp.removePeer.inj removal
      exact held ⟨w, att, closes, last, named, left⟩
    have rising := risen_run decodes (everyStep_mono
      (fun r e held => ⟨held.1, counts r e held.2⟩) (everyStep_and awake stays))
    rw [UInt32.le_iff_toNat_le]
    exact rising.le_of_later later ⟨v, early, rfl⟩ ⟨v', late, rfl⟩

/- A check of the recorded counters; an absent one reads as 1. -/
def hasSpare (calls : Nat) (st : RouteState) : Bool :=
  decide (1 + 2 * calls < 2 ^ 32) && st.groups.toList.all fun (_, g) =>
    decide (g.myInfoVersion.toNat + 2 * calls < 2 ^ 32) &&
      g.peerConnVersions.toList.all fun (_, v) => decide (v.toNat + 2 * calls < 2 ^ 32)

theorem spare_of_hasSpare {calls : Nat} (checked : hasSpare calls st = true) : Spare calls st := by
  simp only [hasSpare, Bool.and_eq_true, decide_eq_true_eq, List.all_eq_true] at checked
  obtain ⟨fresh, stored⟩ := checked
  have recorded (key : GroupKey) (g : RouteGroupData) (found : st.groups[key]? = some g) :=
    stored (key, g) (Std.ExtTreeMap.mem_toList_iff_getElem?_eq_some.mpr found)
  constructor
  · intro key p
    rw [RouteState.getPeerConnVersion]
    cases found : st.groups[key]? with
    | none => simpa using fresh
    | some g =>
      cases known : g.peerConnVersions[p]? with
      | none => simpa [known] using fresh
      | some v =>
        have bound := (recorded key g found).2 (p, v)
          (Std.ExtTreeMap.mem_toList_iff_getElem?_eq_some.mpr known)
        simpa [known] using bound
  · intro key
    rw [RouteState.ownCounter]
    cases found : st.groups[key]? with
    | none => simpa using fresh
    | some g => simpa using (recorded key g found).1

/- Peer 5 shakes hands, and an alarm tells it again. -/
def toldTwice : List RoomEvent := [.accept, .message 0 (greeting 5 "net" [0xaa]), .alarm]

set_option maxRecDepth 8000 in
theorem versions_never_fall_for_peer_five : VersionsNeverFall wire [] (quietly toldTwice) := by
  refine versions_never_fall_while_awake wire_roundTrips.peerInfo ⟨?_, ?_, ?_, trivial⟩
  · exact ⟨nofun, spare_of_hasSpare (by decide)⟩
  · exact ⟨nofun, spare_of_hasSpare (by decide)⟩
  · exact ⟨nofun, spare_of_hasSpare (by decide)⟩

/- The same, with a restart before the alarm. -/
def toldAfterRestart : List RoomEvent :=
  [.accept, .message 0 (greeting 5 "net" [0xaa]), .restart, .alarm]

set_option maxRecDepth 8000 in
theorem restart_lowers_the_own_version :
    ¬ VersionsNeverFall wire [] (quietly toldAfterRestart) := by
  intro always
  have ordered := List.pairwise_iff_getElem.mp
    (List.pairwise_iff_forall_sublist.mpr fun {a b} later => always a b later) 1 2
    (by decide) (by decide) (by decide)
  have kept := (ordered (by decide) "net:aa").1 3 2 (by decide) (by decide)
  exact absurd kept (by decide)

end RelayRestartVersions
