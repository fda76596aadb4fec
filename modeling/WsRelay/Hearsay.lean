import WsRelay.Phases
import WsRelay.EdgeCleanup
import WsRelay.FullUpdates
import WsRelay.Forwarding

/- What the updates of a run are made of. The relay adds its own info and its own edges; every
   other info and edge was reported in the same group, and an edge by the last report of one of
   its ends. -/
namespace RelayHearsay
open RelayProtocol RelayRouteState RelayPeerManager RelayRpcHandler RelayRoomModel RelayRouteOps
open RelayRoomSteps RelayPeerInfoVersions RelayBitmapDelivery RelayResidue RelayFraming
open RelayRoomMoves RelayConnBitmap RelayConnMatrix RelayConnEncodings RelayChangeBroadcast
open RelayTopologyVersions RelayEdgeCleanup RelayRestartVersions RelayFullUpdates RelayForwarding
open RelayPhases
open RelayWireFormats TransitionRuns OutputRuns PackedBits

def reportsOf (x : Externals) (events : List (Env × RoomEvent)) : List Report :=
  outputs (Relay.onEvent x) (fun r e => heard x r e.2) Relay.initial events

/- The last connections that a peer has reported in a group. -/
def lastConn (conns : List ConnReport) (key : GroupKey) (p : PeerId) : Option ConnReport :=
  (conns.filter fun c => c.groupKey == key && c.sender == p).getLast?

def Claimed (conns : List ConnReport) (key : GroupKey) (p q : PeerId) : Prop :=
  ∃ report, lastConn conns key p = some report ∧ Lists report.connInfo p q

/- An info that says nothing but the id: that of a handshake, or a stub. -/
def Blank (info : RoutePeerInfo) : Prop :=
  (∃ nowMs, info = handshakeInfo nowMs info.peerId) ∨
    ∃ nowMs networkLength, info = makeStubPeerInfo nowMs info.peerId networkLength

def Reported (reports : List Report) (key : GroupKey) (info : RoutePeerInfo) : Prop :=
  ∃ report ∈ reports, report.groupKey = key ∧
    ∃ item ∈ listedItems report.request, apartFromUpdate item = apartFromUpdate info

def Sourced (reports : List Report) (key : GroupKey) (info : RoutePeerInfo) : Prop :=
  Blank info ∨ Reported reports key info

def OwnInfo (info : RoutePeerInfo) : Prop :=
  ∃ seed version, info = { (newGroup seed).myInfo with version }

/-- An update of a group, against the requests that the relay has handled. -/
structure Hearsay (reports : List Report) (key : GroupKey) (request : SyncRouteInfoRequest) :
    Prop where
  own : ∀ item ∈ listedItems request, item.peerId = myPeerId → OwnInfo item
  others : ∀ item ∈ listedItems request, item.peerId ≠ myPeerId → Sourced reports key item
  edges : ∀ {bitmap : RouteConnBitmap}, request.connInfo = some (.connBitmap bitmap) →
    ∀ {i j : Nat} {p q : PeerId}, (bitmap.peerIds.map (·.peerId))[i]? = some p →
      (bitmap.peerIds.map (·.peerId))[j]? = some q →
      getBit bitmap.bitmap (i * bitmap.peerIds.length + j) = true →
        p = q ∨ p = myPeerId ∨ q = myPeerId ∨ Claimed (reports.filterMap Report.conn) key p q ∨
          Claimed (reports.filterMap Report.conn) key q p

section Requests
variable {reports later : List Report} {key : GroupKey} {p q : PeerId} {info : RoutePeerInfo}

theorem Sourced.mono (sourced : Sourced reports key info) :
    Sourced (reports ++ later) key info := by
  rcases sourced with blank | ⟨report, listed, reported⟩
  · exact Or.inl blank
  · exact Or.inr ⟨report, List.mem_append.mpr (Or.inl listed), reported⟩

theorem sourced_now (reported : Reported later key info) :
    Sourced (reports ++ later) key info := by
  obtain ⟨report, listed, said⟩ := reported
  exact Or.inr ⟨report, List.mem_append.mpr (Or.inr listed), said⟩

theorem claimed_silent {conns more : List ConnReport}
    (silent : ∀ c ∈ more, c.groupKey = key → c.sender ≠ p) (claimed : Claimed conns key p q) :
    Claimed (conns ++ more) key p q := by
  have nothing : (more.filter fun c => c.groupKey == key && c.sender == p) = [] := by
    rw [List.filter_eq_nil_iff]
    intro c listed
    simp only [Bool.and_eq_true, beq_iff_eq, not_and]
    exact silent c listed
  unfold Claimed lastConn at *
  rwa [List.filter_append, nothing, List.append_nil]

theorem claimed_now {conns : List ConnReport} {connInfo : ConnInfo}
    (lists : Lists connInfo p q) : Claimed (conns ++ [⟨key, p, connInfo⟩]) key p q := by
  refine ⟨⟨key, p, connInfo⟩, ?_, lists⟩
  simp [lastConn, List.filter_append]

end Requests

section Infos
variable {x : Externals} {g : RouteGroupData} {P : RoutePeerInfo → Prop}
  {infos : PeerMap RoutePeerInfo}

def EachInfo (P : RoutePeerInfo → Prop) (infos : PeerMap RoutePeerInfo) : Prop :=
  ∀ (p : PeerId) info, infos[p]? = some info → P info

theorem EachInfo.insert {p : PeerId} {info : RoutePeerInfo} (each : EachInfo P infos)
    (holds : P info) : EachInfo P (infos.insert p info) := by
  intro q stored found
  rw [Std.ExtTreeMap.getElem?_insert] at found
  split at found
  · rw [← Option.some.inj found]
    exact holds
  · exact each q stored found

theorem EachInfo.erase (each : EachInfo P infos) (p : PeerId) : EachInfo P (infos.erase p) := by
  intro q stored found
  rw [Std.ExtTreeMap.getElem?_erase] at found
  split at found
  · cases found
  · exact each q stored found

theorem EachInfo.select {nowMs : Millis} {myInfo : RoutePeerInfo} {full : Bool}
    (stubs : ∀ p networkLength, P (makeStubPeerInfo nowMs p networkLength))
    (relevant : List PeerId) {acc : InfoSelection} (each : EachInfo P acc.peerInfos) :
    EachInfo P (relevant.foldl (selectInfo nowMs myInfo full) acc).peerInfos := by
  induction relevant generalizing acc with
  | nil => exact each
  | cons q rest ih =>
    apply ih
    rw [selectInfo_peerInfos]
    split
    · exact each.insert (stubs q _)
    · exact each

theorem EachInfo.store {nowMs : Millis} {peers : PeerSet} {sender : PeerId}
    {items : List RoutePeerInfo}
    (brings : ∀ item ∈ items, P { item with lastUpdate := some (timestampOf nowMs) })
    {acc : Bool × PeerMap RoutePeerInfo} (each : EachInfo P acc.2) :
    EachInfo P (items.foldl (storeItem nowMs peers sender) acc).2 := by
  induction items generalizing acc with
  | nil => exact each
  | cons item rest ih =>
    refine ih (fun later listed => brings later (by simp [listed])) ?_
    unfold storeItem
    split
    · exact each.insert (brings item (by simp))
    · exact each

def Writes (x : Externals) (P : RoutePeerInfo → Prop) : RouteOp → Prop
  | .updatePeerInfo _ bytes => ∀ info, x.decodeRoutePeerInfo bytes = some info → P info
  | .handleSync _ bytes nowMs => ∀ req, x.decodeSyncRouteInfoRequest bytes = some req →
      ∀ item ∈ listedItems req, P { item with lastUpdate := some (timestampOf nowMs) }
  | .build nowMs _ _ _ _ => ∀ p networkLength, P (makeStubPeerInfo nowMs p networkLength)
  | _ => True

theorem edit_eachInfo {op : RouteOp} (writes : Writes x P op) (each : EachInfo P g.peerInfos) :
    EachInfo P (op.edit x g).2.peerInfos := by
  cases op with
  | removePeer p nowMs => exact each.erase p
  | updatePeerInfo p bytes =>
    simp only [RouteOp.edit]
    split
    · exact each
    · rename_i info decoded
      have holds := writes info decoded
      split
      · exact each.insert holds
      · simp only
        split
        · exact each.insert holds
        · exact each
  | setMyInfoField field value =>
    obtain ⟨myInfo, myInfoVersion, kept⟩ := setMyInfoField_frame g field value
    simp only [RouteOp.edit, kept]
    exact each
  | updatePeerConnections p bytes =>
    obtain ⟨connections, kept⟩ := editPeerConnections_frame g x p bytes
    rw [kept]
    exact each
  | build nowMs target sid initiator full =>
    obtain ⟨sessions, mapped⟩ := buildConnBitmap_frame
      ((g.touchSession target sid nowMs).selectInfos nowMs target full).2 (g.relevantPeers target)
      target
    simp only [RouteOp.edit, RouteGroupData.buildSyncRouteInfoRequest,
      RouteGroupData.nextForeignVersion, mapped]
    exact EachInfo.select writes _ each
  | handleSync sender bytes nowMs =>
    simp only [RouteOp.edit]
    split
    · exact each
    · rename_i req decoded
      split
      · exact each
      · rename_i listed carried
        have items : listedItems req = listed.items := by simp [listedItems, carried]
        have brings := writes req decoded
        rw [items] at brings
        exact EachInfo.store brings each
  | addPeer p => exact each
  | onRouteSessionAck p sid initiator nowMs => exact each
  | bumpMyInfoVersion => exact each
  | cleanup threshold nowMs => exact each

end Infos

def Recorded (connections : PeerMap PeerSet) (p q : PeerId) : Prop :=
  ∃ reported, connections[p]? = some reported ∧ q ∈ reported

theorem linked_iff {connections : PeerMap PeerSet} {p q : PeerId} :
    Linked connections p q ↔ Recorded connections p q ∨ Recorded connections q p := Iff.rfl

section Edges
variable {x : Externals} {g : RouteGroupData} {p q : PeerId}

theorem recorded_report {sender : PeerId} {reported : PeerSet} :
    Recorded (g.storeConnections sender reported).2.peerConnections p q ↔
      if sender = p then q ∈ reported else Recorded g.peerConnections p q := by
  unfold Recorded RouteGroupData.storeConnections
  by_cases own : sender = p
  · subst own
    simp only [↓reduceIte]
    split
    · rename_i empty
      have nobody : q ∉ reported := by
        rw [Std.ExtTreeSet.isEmpty_iff.mp empty]
        simp
      simp [nobody]
    · simp
  · simp only [own, ↓reduceIte]
    split
    · simp [Std.ExtTreeMap.getElem?_erase, own]
    · simp [Std.ExtTreeMap.getElem?_insert, own]

theorem recorded_swept {threshold nowMs : Millis} :
    Recorded (g.cleanupStalePeerConnections threshold nowMs).peerConnections p q ↔
      Recorded g.peerConnections p q ∧ p ∉ g.stalePeers threshold nowMs ∧
        q ∉ g.stalePeers threshold nowMs := by
  simp only [Recorded, RouteGroupData.cleanupStalePeerConnections, dropStale_entry]
  by_cases stale : p ∈ g.stalePeers threshold nowMs
  · simp [stale]
  · simp only [stale, ↓reduceIte, Option.map_eq_some_iff, not_false_eq_true, true_and]
    constructor
    · rintro ⟨_, ⟨reported, stored, rfl⟩, member⟩
      obtain ⟨listed, stays⟩ := (mem_withoutAll _ _).mp member
      exact ⟨⟨reported, stored, listed⟩, stays⟩
    · rintro ⟨⟨reported, stored, listed⟩, stays⟩
      exact ⟨_, ⟨reported, stored, rfl⟩, (mem_withoutAll _ _).mpr ⟨listed, stays⟩⟩

theorem edit_recorded {c : RouteCall} (recorded : Recorded (c.op.edit x g).2.peerConnections p q) :
    (∃ connInfo, connOf x c = some ⟨c.groupKey, p, connInfo⟩ ∧ Lists connInfo p q) ∨
      (Recorded g.peerConnections p q ∧ ∀ report, connOf x c = some report → report.sender ≠ p) := by
  obtain ⟨key, seed, op⟩ := c
  by_cases keeps : RouteOp.keepsEdges op = true
  · obtain ⟨-, connections, -⟩ := edit_sameEdges x g keeps
    rw [connections] at recorded
    refine Or.inr ⟨recorded, ?_⟩
    cases op <;> simp_all [RouteOp.keepsEdges, connOf]
  cases op with
  | addPeer other => exact Or.inr ⟨recorded, by simp [connOf]⟩
  | removePeer other nowMs => exact Or.inr ⟨recorded, by simp [connOf]⟩
  | cleanup threshold nowMs => exact Or.inr ⟨(recorded_swept.mp recorded).1, by simp [connOf]⟩
  | updatePeerConnections sender bytes =>
    simp only [RouteOp.edit] at recorded
    cases decoded : x.decodeSyncRouteInfoRequest bytes with
    | none =>
      rw [decoded] at recorded
      exact Or.inr ⟨recorded, by simp [connOf, decoded]⟩
    | some req =>
      cases carried : req.connInfo with
      | none =>
        simp only [decoded, carried] at recorded
        exact Or.inr ⟨recorded, by simp [connOf, decoded, carried]⟩
      | some connInfo =>
        simp only [decoded, carried, recorded_report] at recorded
        by_cases own : sender = p
        · subst own
          rw [if_pos rfl] at recorded
          have listed := ((mem_p2pConnections g sender q connInfo).mp recorded).1
          exact Or.inl ⟨connInfo, by simp [connOf, decoded, carried], listed⟩
        · rw [if_neg own] at recorded
          exact Or.inr ⟨recorded, by simp [connOf, decoded, carried, own]⟩
  | _ => exact absurd rfl keeps

end Edges

def InfosSourced (reports : List Report) (st : RouteState) : Prop :=
  ∀ key p info, RouteState.info st key p = some info → Sourced reports key info

def EdgesClaimed (conns : List ConnReport) (st : RouteState) : Prop :=
  ∀ key p q, Recorded (RouteState.connections st key) p q → Claimed conns key p q

def OwnInfos (st : RouteState) : Prop := EveryGroup (fun g => OwnInfo g.myInfo) st

structure Knows (reports : List Report) (st : RouteState) : Prop where
  genuine : AllGenuine st
  own : OwnInfos st
  infos : InfosSourced reports st
  edges : EdgesClaimed (reports.filterMap Report.conn) st

section Calls
variable {x : Externals} {st st' : RouteState} {c : RouteCall} {reports later : List Report}
  {conns : List ConnReport}

theorem knows_new (reports : List Report) : Knows reports RouteState.new where
  genuine key g stored := by simp [RouteState.new] at stored
  own key g stored := by simp [RouteState.new] at stored
  infos key p info stored := by simp [RouteState.info, RouteState.new] at stored
  edges key p q recorded := by
    obtain ⟨reported, stored, -⟩ := recorded
    simp [RouteState.connections, RouteState.new] at stored

theorem call_ownInfos (keeps : ∀ field value, c.op ≠ .setMyInfoField field value)
    (own : OwnInfos st) : OwnInfos (RouteState.call x st c) := by
  refine everyGroup_call (fun seed => ⟨seed, 1, rfl⟩) ?_ own
  intro g here
  have edited : OwnInfo (c.op.edit x g).2.myInfo := by
    cases happens : c.op with
    | bumpMyInfoVersion =>
      obtain ⟨seed, version, same⟩ := here
      exact ⟨seed, g.myInfoVersion + 1, by simp [RouteOp.edit, RouteGroupData.bumpMyInfoVersion,
        same]⟩
    | setMyInfoField field value => exact absurd happens (keeps field value)
    | updatePeerInfo p bytes =>
      obtain ⟨infos, kept⟩ := editPeerInfo_frame g x p bytes
      rw [kept]
      exact here
    | updatePeerConnections p bytes =>
      obtain ⟨connections, kept⟩ := editPeerConnections_frame g x p bytes
      rw [kept]
      exact here
    | build nowMs target sid initiator full =>
      obtain ⟨infos, sessions, kept⟩ := build_frame g nowMs target sid initiator full
      simp only [RouteOp.edit, kept]
      exact here
    | handleSync p bytes nowMs =>
      obtain ⟨infos, sessions, kept⟩ := editSync_frame g x p bytes nowMs
      rw [kept]
      exact here
    | addPeer p => exact here
    | removePeer p nowMs => exact here
    | onRouteSessionAck p sid initiator nowMs => exact here
    | cleanup threshold nowMs => exact here
  unfold RouteOp.onGroup
  split
  · exact edited
  · exact edited

theorem call_infosSourced (writes : Writes x (Sourced reports c.groupKey) c.op)
    (sourced : InfosSourced reports st) : InfosSourced reports (RouteState.call x st c) := by
  intro key p info stored
  rw [info_call] at stored
  split at stored
  · rename_i named
    subst named
    have each : EachInfo (Sourced reports c.groupKey)
        (st.ensureGroup c.seed c.groupKey).peerInfos := by
      intro q known found
      rw [ensureGroup_info] at found
      exact sourced c.groupKey q known found
    exact edit_eachInfo writes each p info stored
  · exact sourced key p info stored

theorem call_edgesClaimed (claimed : EdgesClaimed conns st) (c : RouteCall) :
    EdgesClaimed (conns ++ (connOf x c).toList) (RouteState.call x st c) := by
  intro key p q recorded
  rw [connections_call] at recorded
  split at recorded
  · rename_i named
    subst named
    rcases edit_recorded recorded with ⟨connInfo, said, lists⟩ | ⟨kept, silent⟩
    · rw [said]
      exact claimed_now lists
    · rw [ensureGroup_connections] at kept
      refine claimed_silent ?_ (claimed c.groupKey p q kept)
      intro report listed _
      exact silent report (Option.mem_toList.mp listed)
  · rename_i elsewhere
    refine claimed_silent ?_ (claimed key p q recorded)
    intro report listed named
    have same : report.groupKey = c.groupKey := by
      have said := Option.mem_toList.mp listed
      unfold connOf at said
      split at said
      · simp only [Option.bind_eq_some_iff, Option.map_eq_some_iff] at said
        obtain ⟨req, -, connInfo, -, rfl⟩ := said
        rfl
      · cases said
    exact absurd (same.symm.trans named) elsewhere

theorem callAll_edgesClaimed (calls : List RouteCall) {conns : List ConnReport} {st : RouteState}
    (claimed : EdgesClaimed conns st) :
    EdgesClaimed (conns ++ calls.filterMap (connOf x)) (RouteState.callAll x st calls) := by
  induction calls generalizing conns st with
  | nil => simpa [RouteState.callAll] using claimed
  | cons c rest ih =>
    have first := ih (call_edgesClaimed (x := x) claimed c)
    have listed : (connOf x c).toList ++ rest.filterMap (connOf x) =
        (c :: rest).filterMap (connOf x) := by
      cases said : connOf x c with
      | none => simp [said]
      | some report => simp [said]
    rw [List.append_assoc, listed] at first
    exact first

theorem brings_writes (decodes : ∀ m, x.decodeRoutePeerInfo (x.encodeRoutePeerInfo m) = some m)
    (brings : Brings x later c) : Writes x (Sourced (reports ++ later) c.groupKey) c.op := by
  unfold Brings at brings
  cases happens : c.op with
  | updatePeerInfo p bytes =>
    rw [happens] at brings
    intro info decoded
    rcases brings with ⟨nowMs, rfl⟩ | ⟨report, listed, named, item, inside, -, rfl⟩
    · rw [decodes, Option.some.injEq] at decoded
      subst decoded
      exact Or.inl (Or.inl ⟨nowMs, rfl⟩)
    · rw [decodes, Option.some.injEq] at decoded
      subst decoded
      exact sourced_now ⟨report, listed, named, item, inside, rfl⟩
  | handleSync p bytes nowMs =>
    rw [happens] at brings
    intro req decoded item inside
    obtain ⟨report, listed, named, same⟩ := brings req decoded
    refine sourced_now ⟨report, listed, named, item, ?_, rfl⟩
    rwa [same]
  | build nowMs target sid initiator full =>
    rw [happens] at brings
    exact brings.elim
  | _ => trivial

theorem brings_storesNamed (brings : Brings x later c) : StoresNamed x c.op := by
  intro p bytes happens
  unfold Brings at brings
  rw [happens] at brings
  rcases brings with ⟨nowMs, rfl⟩ | ⟨report, -, -, item, -, own, rfl⟩
  · exact ⟨_, rfl, rfl⟩
  · exact ⟨item, own, rfl⟩

/-- What an event brings in is known afterwards. -/
theorem Knows.prepare (decodes : ∀ m, x.decodeRoutePeerInfo (x.encodeRoutePeerInfo m) = some m)
    {final : RouteState} {calls : List RouteCall} (prepares : Prepares x later final calls)
    (knows : Knows reports st) : Knows (reports ++ later) (RouteState.callAll x st calls) := by
  have all : EveryStep (RouteState.call x) (fun _ c => Brings x later c) st calls :=
    everyStep_of_forall prepares.brings
  refine ⟨?_, ?_, ?_, ?_⟩
  · exact invariant_run AllGenuine (fun _ _ brings genuine =>
      call_genuine decodes (brings_storesNamed brings) genuine) knows.genuine all
  · refine invariant_run OwnInfos (fun s c brings own => call_ownInfos ?_ own) knows.own all
    intro field value happens
    rw [Brings, happens] at brings
    exact brings
  · exact invariant_run (InfosSourced (reports ++ later)) (fun _ _ brings sourced =>
      call_infosSourced (brings_writes decodes brings) sourced)
      (fun key p info stored => (knows.infos key p info stored).mono) all
  · rw [List.filterMap_append, ← prepares.conns]
    exact callAll_edgesClaimed calls knows.edges

/-- Builds add stubs only. -/
theorem Knows.announce (reached : Reaches x IsBuild st st') (knows : Knows reports st) :
    Knows reports st' := by
  refine reached.relation (fun a b => Knows reports a → Knows reports b) (fun _ kept => kept)
    (fun first second kept => second (first kept)) ?_ knows
  intro s c builds knows
  obtain ⟨key, seed, op⟩ := c
  cases op with
  | build nowMs target sid initiator full =>
    refine ⟨?_, call_ownInfos (by simp) knows.own, ?_, ?_⟩
    · exact call_genuine_of_reads (fun _ _ same => by cases same) knows.genuine
    · exact call_infosSourced (fun p networkLength =>
        Or.inl (Or.inr ⟨nowMs, networkLength, rfl⟩)) knows.infos
    · have edges := call_edgesClaimed (x := x) knows.edges
        ⟨key, seed, .build nowMs target sid initiator full⟩
      have silent : connOf x ⟨key, seed, .build nowMs target sid initiator full⟩ = none := rfl
      rw [silent, Option.toList_none, List.append_nil] at edges
      exact edges
  | _ => cases builds

end Calls

section Updates
variable {x : Externals} {st : RouteState} {reports : List Report} {key : GroupKey}

theorem topology_bits (g : RouteGroupData) (target : PeerId) {i j : Nat} {p q : PeerId}
    (atI : ((RouteGroupData.topology g target).peerIds.map (·.peerId))[i]? = some p)
    (atJ : ((RouteGroupData.topology g target).peerIds.map (·.peerId))[j]? = some q) :
    getBit (RouteGroupData.topology g target).bitmap
        (i * (RouteGroupData.topology g target).peerIds.length + j) = true ↔
      Shown g.peerConnections p q := by
  have ids : (RouteGroupData.topology g target).peerIds.map (·.peerId) = g.relevantPeers target := by
    simp [RouteGroupData.topology, RouteGroupData.connBitmap, Function.comp_def]
  have size : (RouteGroupData.topology g target).peerIds.length =
      (g.relevantPeers target).length := by
    rw [← ids, List.length_map]
  rw [ids] at atI atJ
  rw [size]
  exact connBitmap_bit (relevantPeers_nodup g target) (mem_relevantPeers.mpr (Or.inl rfl)) atI atJ

theorem Knows.hearsay (knows : Knows reports st) (seed : GroupSeed) (nowMs : Millis)
    (target : PeerId) (sid : SessionId) (initiator : Bool) :
    Hearsay reports key
      (st.buildSyncRouteInfoRequest seed nowMs key target sid initiator true).1 := by
  set g := st.ensureGroup seed key with gDef
  have genuine : RouteGroupData.Genuine g := knows.genuine.ensured seed key
  have own : OwnInfo g.myInfo :=
    everyGroup_ensured (fun seed => ⟨seed, 1, rfl⟩) knows.own seed key
  have items (item : RoutePeerInfo) (listed : item ∈ listedItems
      (st.buildSyncRouteInfoRequest seed nowMs key target sid initiator true).1) :
      ∃ p, RouteGroupData.listedInfo g nowMs g.peerInfos p = item ∧ item.peerId = p := by
    have full := fullItems nowMs target sid initiator g
    simp only [RouteState.buildSyncRouteInfoRequest, ← gDef, full, List.mem_map] at listed
    obtain ⟨p, -, rfl⟩ := listed
    exact ⟨p, rfl, listedInfo_named nowMs genuine p⟩
  refine ⟨?_, ?_, ?_⟩
  · intro item listed ours
    obtain ⟨p, rfl, named⟩ := items item listed
    rw [ours] at named
    subst named
    simpa [RouteGroupData.listedInfo] using own
  · intro item listed foreign
    obtain ⟨p, rfl, named⟩ := items item listed
    rw [named] at foreign
    simp only [RouteGroupData.listedInfo, foreign, ↓reduceIte]
    cases stored : g.peerInfos[p]? with
    | none => exact Or.inl (Or.inr ⟨nowMs, _, rfl⟩)
    | some info =>
      rw [gDef, ensureGroup_info] at stored
      exact knows.infos key p info stored
  · intro bitmap carried i j p q atI atJ bit
    have built := (build_spec g nowMs target sid initiator true).1
    simp only [RouteState.buildSyncRouteInfoRequest, ← gDef, built] at carried
    obtain ⟨-, same⟩ := Option.ite_none_left_eq_some.mp carried
    obtain rfl := ConnInfo.connBitmap.inj (Option.some.inj same)
    have edges := knows.edges key
    rw [← ensureGroup_connections st seed, ← gDef] at edges
    rcases (topology_bits g target atI atJ).mp bit with rfl | ours | ours | linked
    · exact Or.inl rfl
    · exact Or.inr (Or.inl ours)
    · exact Or.inr (Or.inr (Or.inl ours))
    · rcases linked_iff.mp linked with forth | back
      · exact Or.inr (Or.inr (Or.inr (Or.inl (edges p q forth))))
      · exact Or.inr (Or.inr (Or.inr (Or.inr (edges q p back))))

theorem woken_knows {r : Relay} (knows : Knows reports (routes r)) (e : RoomEvent) :
    Knows reports (routes (woken r e)) := by
  cases e with
  | restart => exact knows_new reports
  | _ => exact knows

/-- One event: what is known behind it, and what its updates say. -/
theorem step_knows (decodes : ∀ m, x.decodeRoutePeerInfo (x.encodeRoutePeerInfo m) = some m)
    (e : Env × RoomEvent) {r : Relay} (knows : Knows reports (routes r)) :
    Knows (reports ++ heard x r e.2) (routes (Relay.onEvent x r e)) ∧
      ∀ entry ∈ sentSince r (Relay.onEvent x r e), ∀ key target request topology,
        entry.origin = .routeUpdate key target request topology →
          Hearsay (reports ++ heard x r e.2) key request := by
  obtain ⟨calls, mid, prepares, reached, told, -, built⟩ := onEvent_phases x r e
  have prepared := Knows.prepare decodes prepares (woken_knows knows e.2)
  rw [← reached] at prepared
  refine ⟨prepared.announce told, ?_⟩
  intro entry listed key target request topology origin
  obtain ⟨st', seed, nowMs, sid, initiator, later, rfl, -⟩ :=
    built entry listed key target request topology origin
  exact (prepared.announce later).hearsay seed nowMs target sid initiator

theorem run_knows (decodes : ∀ m, x.decodeRoutePeerInfo (x.encodeRoutePeerInfo m) = some m)
    (events : List (Env × RoomEvent)) :
    Knows (reportsOf x events) (routes (Relay.run x Relay.initial events)) := by
  have start : Knows [] (routes Relay.initial) := knows_new []
  have all := history_invariant (fun reports r => Knows reports (routes r))
    (fun _ _ e knows => (step_knows decodes e knows).1) start events
  rwa [List.nil_append] at all

end Updates

theorem reportsOf_snoc (x : Externals) (events : List (Env × RoomEvent)) (e : Env × RoomEvent) :
    reportsOf x (events ++ [e]) =
      reportsOf x events ++ heard x (Relay.run x Relay.initial events) e.2 := by
  rw [reportsOf, outputs_append]
  simp [outputs, reportsOf, Relay.run]

/-- In every run, what an update says about others was reported before, in its own group, and
    what it shows of their connections one of the two ends has reported last. -/
theorem updates_are_hearsay {x : Externals}
    (decodes : ∀ m, x.decodeRoutePeerInfo (x.encodeRoutePeerInfo m) = some m)
    (events : List (Env × RoomEvent)) (e : Env × RoomEvent) :
    let r := Relay.run x Relay.initial events
    ∀ entry ∈ sentSince r (Relay.onEvent x r e), ∀ key target request topology,
      entry.origin = .routeUpdate key target request topology →
        Hearsay (reportsOf x (events ++ [e])) key request := by
  intro r
  rw [reportsOf_snoc]
  exact (step_knows decodes e (run_knows decodes events)).2

/- Peers 5 and 6 join, and peer 5 reports a connection to peer 6. -/
def neighbourReport : SyncRouteInfoRequest where
  myPeerId := 5
  mySessionId := 9
  isInitiator := true
  peerInfos := none
  connInfo := some (.connPeerList ⟨[⟨some ⟨5, 1⟩, [6]⟩]⟩)
  foreignNetworkInfos := none

def twoNeighbours : List (Env × RoomEvent) :=
  quietly [.accept, .message 0 (greeting 5 "net" [0xaa]), .accept,
    .message 1 (greeting 6 "net" [0xaa])]

def neighbourNews : Env × RoomEvent :=
  (quietEnv 2000 900, .message 0 (syncMessage 5 neighbourReport))

theorem neighbours_are_hearsay :
    let r := Relay.run wire Relay.initial twoNeighbours
    ∀ entry ∈ sentSince r (Relay.onEvent wire r neighbourNews), ∀ key target request topology,
      entry.origin = .routeUpdate key target request topology →
        Hearsay (reportsOf wire (twoNeighbours ++ [neighbourNews])) key request :=
  updates_are_hearsay wire_roundTrips.peerInfo twoNeighbours neighbourNews

end RelayHearsay
