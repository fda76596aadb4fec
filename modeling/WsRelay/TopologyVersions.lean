import WsRelay.ConnVersions

/- Topology changes over runs of route operations: a bitmap is left out only when it repeats
   the last build, and a row that changed carries a newer version. Cleaning up never touches
   an edge between members, because the ids it drops are no members. -/
namespace RelayTopologyVersions
open RelayProtocol RelayRouteState RelayRouteOps RelayConnBitmap RelayConnVersions
open RelayWireFormats TransitionRuns Announcements

variable {x : Externals} {g : RouteGroupData} {op : RouteOp} {target p q : PeerId}

def RemovedOutside (g : RouteGroupData) : Prop := ∀ p, p ∈ g.peerRemovedAt → p ∉ g.peers

theorem dropStale_removed {acc : PeerMap PeerSet × PeerMap Millis} (stale : List PeerId) :
    (stale.foldl dropStale acc).2[p]? = if p ∈ stale then none else acc.2[p]? := by
  induction stale generalizing acc with
  | nil => simp
  | cons gone rest ih =>
    rw [List.foldl_cons, ih]
    simp only [dropStale, Std.ExtTreeMap.getElem?_erase, Std.LawfulEqCmp.compare_eq_iff_eq,
      List.mem_cons]
    by_cases same : gone = p
    · simp [same]
    · simp [same, Ne.symm same]

theorem mem_of_dropStale {acc : PeerMap PeerSet × PeerMap Millis} (stale : List PeerId)
    (listed : p ∈ (stale.foldl dropStale acc).2) : p ∈ acc.2 := by
  rw [Std.ExtTreeMap.mem_iff_isSome_getElem?, dropStale_removed] at listed
  split at listed
  · cases listed
  · exact Std.ExtTreeMap.mem_iff_isSome_getElem?.mpr listed

theorem dropStale_reported {acc : PeerMap PeerSet × PeerMap Millis} {stale : List PeerId}
    (pStays : p ∉ stale) (qStays : q ∉ stale) :
    (∃ reported, (stale.foldl dropStale acc).1[p]? = some reported ∧ q ∈ reported) ↔
      ∃ reported, acc.1[p]? = some reported ∧ q ∈ reported := by
  induction stale generalizing acc with
  | nil => rfl
  | cons gone rest ih =>
    simp only [List.mem_cons, not_or] at pStays qStays
    rw [List.foldl_cons, ih pStays.2 qStays.2]
    simp only [dropStale, Std.ExtTreeMap.getElem?_map, Std.ExtTreeMap.getElem?_erase,
      Std.LawfulEqCmp.compare_eq_iff_eq, Ne.symm pStays.1, ↓reduceIte, Option.map_eq_some_iff]
    constructor
    · rintro ⟨_, ⟨reported, stored, rfl⟩, member⟩
      exact ⟨reported, stored, (Std.ExtTreeSet.mem_erase.mp member).2⟩
    · rintro ⟨reported, stored, member⟩
      refine ⟨_, ⟨reported, stored, rfl⟩, Std.ExtTreeSet.mem_erase.mpr ⟨?_, member⟩⟩
      simpa using Ne.symm qStays.1

theorem stalePeers_removed {threshold now : Millis} (stale : p ∈ g.stalePeers threshold now) :
    p ∈ g.peerRemovedAt := by
  obtain ⟨⟨key, removedAt⟩, kept, rfl⟩ := List.mem_map.mp stale
  have listed := (List.mem_filter.mp kept).1
  rw [Std.ExtTreeMap.mem_toList_iff_getElem?_eq_some] at listed
  exact Std.ExtTreeMap.mem_iff_isSome_getElem?.mpr (by rw [listed]; rfl)

/-- Edges between members survive every cleanup. -/
theorem cleanup_linked (outside : RemovedOutside g) (pMember : p ∈ g.peers) (qMember : q ∈ g.peers)
    (threshold now : Millis) :
    Linked (g.cleanupStalePeerConnections threshold now).peerConnections p q ↔
      Linked g.peerConnections p q := by
  have pStays : p ∉ g.stalePeers threshold now := fun stale =>
    outside p (stalePeers_removed stale) pMember
  have qStays : q ∉ g.stalePeers threshold now := fun stale =>
    outside q (stalePeers_removed stale) qMember
  exact or_congr (dropStale_reported pStays qStays) (dropStale_reported qStays pStays)

def RouteOp.keepsEdges : RouteOp → Bool
  | .addPeer _ | .removePeer _ _ | .updatePeerConnections _ _ | .cleanup _ _ => false
  | _ => true

def SameEdges (g g' : RouteGroupData) : Prop :=
  g'.peers = g.peers ∧ g'.peerConnections = g.peerConnections ∧ g'.peerRemovedAt = g.peerRemovedAt

theorem edit_sameEdges (x : Externals) (g : RouteGroupData) {op : RouteOp}
    (keeps : RouteOp.keepsEdges op = true) : SameEdges g (op.edit x g).2 := by
  cases op with
  | updatePeerInfo p bytes =>
    obtain ⟨infos, kept⟩ := editPeerInfo_frame g x p bytes
    rw [kept]
    exact ⟨rfl, rfl, rfl⟩
  | onRouteSessionAck p sid initiator now => exact ⟨rfl, rfl, rfl⟩
  | bumpMyInfoVersion => exact ⟨rfl, rfl, rfl⟩
  | setMyInfoField field value =>
    obtain ⟨myInfo, myInfoVersion, kept⟩ := setMyInfoField_frame g field value
    simp only [RouteOp.edit, kept]
    exact ⟨rfl, rfl, rfl⟩
  | build now p sid initiator full =>
    obtain ⟨infos, sessions, kept⟩ := build_frame g now p sid initiator full
    simp only [RouteOp.edit, kept]
    exact ⟨rfl, rfl, rfl⟩
  | handleSync p bytes now =>
    obtain ⟨infos, sessions, kept⟩ := editSync_frame g x p bytes now
    rw [kept]
    exact ⟨rfl, rfl, rfl⟩
  | _ => simp [RouteOp.keepsEdges] at keeps

theorem edit_removedOutside (x : Externals) (op : RouteOp) (outside : RemovedOutside g) :
    RemovedOutside (op.edit x g).2 := by
  by_cases keeps : RouteOp.keepsEdges op = true
  · obtain ⟨peers, -, removed⟩ := edit_sameEdges x g keeps
    intro p gone
    rw [removed] at gone
    rw [peers]
    exact outside p gone
  cases op with
  | addPeer q =>
    intro p gone member
    obtain ⟨other, listed⟩ := Std.ExtTreeMap.mem_erase.mp gone
    rcases Std.ExtTreeSet.mem_insert.mp member with joined | old
    · exact other joined
    · exact outside p listed old
  | removePeer q now =>
    intro p gone member
    obtain ⟨other, old⟩ := Std.ExtTreeSet.mem_erase.mp member
    rcases Std.ExtTreeMap.mem_insert.mp gone with left | listed
    · exact other left
    · exact outside p listed old
  | cleanup threshold now =>
    intro p gone
    exact outside p (mem_of_dropStale _ gone)
  | updatePeerConnections q bytes =>
    obtain ⟨connections, kept⟩ := editPeerConnections_frame g x q bytes
    rw [kept]
    exact outside
  | _ => exact absurd rfl keeps

theorem onGroup_removedOutside (x : Externals) (op : RouteOp) (outside : RemovedOutside g) :
    RemovedOutside (op.onGroup x g) := by
  have edited := edit_removedOutside x op outside
  unfold RouteOp.onGroup
  split
  · exact edited
  · exact edited

theorem storeConnections_calm {p2p : PeerSet} (calm : (g.storeConnections p p2p).1 = false) :
    (g.storeConnections p p2p).2.peerConnections = g.peerConnections := by
  unfold RouteGroupData.storeConnections at calm ⊢
  apply Std.ExtTreeMap.ext_getElem?
  intro k
  split
  · rename_i empty
    simp only [empty, ↓reduceIte] at calm
    have absent : p ∉ g.peerConnections := by
      rw [← Std.ExtTreeMap.contains_iff_mem, calm]
      exact Bool.false_ne_true
    rw [Std.ExtTreeMap.getElem?_erase]
    by_cases same : p = k
    · subst same
      simp [absent]
    · simp [same]
  · rename_i reports
    simp only [reports, Bool.false_eq_true, ↓reduceIte] at calm
    rw [Std.ExtTreeMap.getElem?_insert]
    by_cases same : p = k
    · subst same
      cases stored : g.peerConnections[p]? with
      | none => simp [stored] at calm
      | some old =>
        have unchanged : old = p2p := by simpa [stored] using calm
        simp [unchanged]
    · simp [same]

/-- An operation that does not bump leaves the members and the edges between them alone. -/
theorem edit_calm (outside : RemovedOutside g) (calm : (op.edit x g).1 = false) :
    (∀ r, r ∈ (op.edit x g).2.peers ↔ r ∈ g.peers) ∧
      ∀ p q, p ∈ g.peers → q ∈ g.peers →
        (Linked (op.edit x g).2.peerConnections p q ↔ Linked g.peerConnections p q) := by
  by_cases keeps : RouteOp.keepsEdges op = true
  · obtain ⟨peers, connections, -⟩ := edit_sameEdges x g keeps
    constructor
    · intro r
      rw [peers]
    · intro p q _ _
      rw [connections]
  cases op with
  | addPeer p =>
    have present : p ∈ g.peers := by
      simpa only [RouteOp.edit, Bool.not_eq_false', Std.ExtTreeSet.contains_iff_mem] using calm
    refine ⟨?_, fun _ _ _ _ => Iff.rfl⟩
    intro r
    simp only [RouteOp.edit, Std.ExtTreeSet.mem_insert, Std.LawfulEqCmp.compare_eq_iff_eq]
    constructor
    · rintro (rfl | old)
      · exact present
      · exact old
    · exact Or.inr
  | removePeer p now =>
    have absent : p ∉ g.peers := by
      have unlisted : g.peers.contains p = false := calm
      rw [← Std.ExtTreeSet.contains_iff_mem, unlisted]
      exact Bool.false_ne_true
    refine ⟨?_, fun _ _ _ _ => Iff.rfl⟩
    intro r
    simp only [RouteOp.edit, Std.ExtTreeSet.mem_erase, ne_eq, Std.LawfulEqCmp.compare_eq_iff_eq]
    constructor
    · exact And.right
    · intro member
      refine ⟨?_, member⟩
      rintro rfl
      exact absent member
  | cleanup threshold now =>
    exact ⟨fun _ => Iff.rfl, fun p q pMember qMember =>
      cleanup_linked outside pMember qMember threshold now⟩
  | updatePeerConnections p bytes =>
    simp only [RouteOp.edit] at calm ⊢
    split
    · exact ⟨fun _ => Iff.rfl, fun _ _ _ _ => Iff.rfl⟩
    · split
      · exact ⟨fun _ => Iff.rfl, fun _ _ _ _ => Iff.rfl⟩
      · rename_i req decoded _ connInfo reported
        simp only [decoded, reported] at calm
        have stored := storeConnections_calm calm
        obtain ⟨connections, kept⟩ := storeConnections_frame g p (g.p2pConnections p connInfo)
        constructor
        · intro r
          rw [kept]
        · intro a b _ _
          rw [stored]
  | _ => exact absurd rfl keeps

/- Versions and rows of one peer, as the target sees them. -/
def RouteGroupData.stamp (p : PeerId) (g : RouteGroupData) : Nat :=
  (RouteGroupData.connVersion g p).toNat

def RouteGroupData.row (target p : PeerId) (g : RouteGroupData) : Set PeerId :=
  neighbours (RouteGroupData.topology g target) p

theorem mem_row (targetMember : target ∈ g.peers) (pMember : p ∈ g.peers) :
    q ∈ RouteGroupData.row target p g ↔ (q = myPeerId ∨ q ∈ g.peers) ∧
      (p = q ∨ p = myPeerId ∨ q = myPeerId ∨ Linked g.peerConnections p q) := by
  unfold RouteGroupData.row RouteGroupData.topology
  rw [mem_neighbours (relevantPeers_nodup g target) (mem_relevantPeers.mpr (Or.inl rfl)),
    mem_relevantPeers, mem_relevantPeers]
  have relevant : (q = myPeerId ∨ q = target ∨ q ∈ g.peers) ↔ (q = myPeerId ∨ q ∈ g.peers) := by
    constructor
    · rintro (own | rfl | member)
      · exact Or.inl own
      · exact Or.inr targetMember
      · exact Or.inr member
    · rintro (own | member)
      · exact Or.inl own
      · exact Or.inr (Or.inr member)
  rw [relevant]
  simp [pMember]

theorem row_calm (outside : RemovedOutside g) (calm : (op.edit x g).1 = false)
    (targetMember : target ∈ g.peers) (pMember : p ∈ g.peers) :
    RouteGroupData.row target p g = RouteGroupData.row target p (op.edit x g).2 := by
  obtain ⟨peers, links⟩ := edit_calm outside calm
  ext q
  rw [mem_row targetMember pMember,
    mem_row ((peers target).mpr targetMember) ((peers p).mpr pMember), peers q]
  by_cases own : q = myPeerId
  · simp [own]
  by_cases member : q ∈ g.peers
  · rw [links p q pMember member]
  · simp [own, member]

theorem connVersion_edit_member (pStays : p ∈ (op.edit x g).2.peers) :
    RouteGroupData.connVersion (op.edit x g).2 p = RouteGroupData.connVersion g p := by
  rw [connVersion_edit]
  cases op with
  | removePeer q now =>
    have other := (Std.ExtTreeSet.mem_erase.mp pStays).1
    simp only [ne_eq, Std.LawfulEqCmp.compare_eq_iff_eq] at other
    simp only [RouteOp.versionsAfter, RouteGroupData.connVersion, Std.ExtTreeMap.getD_erase,
      Std.LawfulEqCmp.compare_eq_iff_eq, other, ↓reduceIte]
  | _ => rfl

theorem bump_lt (room : NoWrap g) (pMember : p ∈ g.peers) :
    (RouteGroupData.connVersion g p).toNat <
      (RouteGroupData.connVersion g.bumpAllConnVersions p).toNat := by
  have bound := room p
  have counted : 1 ≤ (RouteGroupData.bumpsOf g p).toNat := by
    unfold RouteGroupData.bumpsOf
    simp only [pMember, true_or, ↓reduceIte]
    split
    · decide
    · decide
  rw [connVersion_bump, UInt32.toNat_add, Nat.mod_eq_of_lt bound]
  omega

/-- Over one operation the version of a staying member tracks its row. -/
theorem onGroup_tracks (outside : RemovedOutside g)
    (safe : (op.edit x g).1 = true → NoWrap (op.edit x g).2) (targetMember : target ∈ g.peers)
    (pMember : p ∈ g.peers) (pStays : p ∈ (op.onGroup x g).peers) :
    Tracks (RouteGroupData.stamp p) (RouteGroupData.row target p) g (op.onGroup x g) := by
  have pEdited : p ∈ (op.edit x g).2.peers := by
    rw [(edit_peers_versions g x op).1, ← onGroup_peers g x op]
    exact pStays
  have kept := connVersion_edit_member pEdited
  unfold RouteOp.onGroup
  split
  · rename_i bumps
    have rises := bump_lt (safe bumps) pEdited
    rw [kept] at rises
    exact Tracks.of_rise rises
  · rename_i calm
    have still : (op.edit x g).1 = false := by simpa using calm
    refine ⟨?_, fun _ => row_calm outside still targetMember pMember⟩
    unfold RouteGroupData.stamp
    rw [kept]

def AllRemovedOutside (st : RouteState) : Prop :=
  ∀ (key : GroupKey) (g : RouteGroupData), st.groups[key]? = some g → RemovedOutside g

theorem newGroup_removedOutside (seed : GroupSeed) : RemovedOutside (newGroup seed) := by
  intro p gone
  simp [newGroup] at gone

theorem call_removedOutside {st : RouteState} (outside : AllRemovedOutside st) (c : RouteCall) :
    AllRemovedOutside (RouteState.call x st c) :=
  everyGroup_call newGroup_removedOutside (fun _ kept => onGroup_removedOutside x c.op kept) outside

def RouteState.stamp (key : GroupKey) (p : PeerId) (st : RouteState) : Nat :=
  (st.getPeerConnVersion key p).toNat

def RouteState.row (seed : GroupSeed) (key : GroupKey) (target p : PeerId) (st : RouteState) :
    Set PeerId :=
  neighbours (RouteState.topologyOf st seed key target) p

theorem stored_of_member {st : RouteState} {key : GroupKey} (member : p ∈ RouteState.members st key) :
    ∃ g, st.groups[key]? = some g ∧ p ∈ g.peers := by
  unfold RouteState.members at member
  cases stored : st.groups[key]? with
  | none => simp [stored] at member
  | some g =>
    rw [stored] at member
    exact ⟨g, rfl, member⟩

theorem ensureGroup_stored {st : RouteState} {key : GroupKey} (stored : st.groups[key]? = some g)
    (seed : GroupSeed) : st.ensureGroup seed key = g := by
  simp [RouteState.ensureGroup, stored]

theorem topologyOf_stored {st : RouteState} {key : GroupKey} (stored : st.groups[key]? = some g)
    (seed : GroupSeed) (target : PeerId) :
    RouteState.topologyOf st seed key target = RouteGroupData.topology g target := by
  rw [RouteState.topologyOf, ensureGroup_stored stored]

theorem stamp_stored {st : RouteState} {key : GroupKey} (stored : st.groups[key]? = some g)
    (p : PeerId) : RouteState.stamp key p st = RouteGroupData.stamp p g := by
  unfold RouteState.stamp RouteGroupData.stamp
  rw [getPeerConnVersion_eq st ⟨⟨0, 0, 0, 0⟩, 0⟩, ensureGroup_stored stored]

theorem tracks_stored {st st' : RouteState} {key : GroupKey} {g g' : RouteGroupData}
    (stored : st.groups[key]? = some g) (stored' : st'.groups[key]? = some g') (seed : GroupSeed)
    (tracks : Tracks (RouteGroupData.stamp p) (RouteGroupData.row target p) g g') :
    Tracks (RouteState.stamp key p) (RouteState.row seed key target p) st st' := by
  obtain ⟨rises, same⟩ := tracks
  refine ⟨?_, ?_⟩
  · rw [stamp_stored stored, stamp_stored stored']
    exact rises
  · intro still
    rw [stamp_stored stored, stamp_stored stored'] at still
    have rows := same still
    unfold RouteState.row
    rw [topologyOf_stored stored, topologyOf_stored stored']
    exact rows

/- If the call bumps, the bump stays in range. -/
def BumpRoom (x : Externals) (st : RouteState) (c : RouteCall) : Prop :=
  (c.op.edit x (st.ensureGroup c.seed c.groupKey)).1 = true →
    NoWrap (c.op.edit x (st.ensureGroup c.seed c.groupKey)).2

theorem call_tracks {st : RouteState} {c : RouteCall} {key : GroupKey} (seed : GroupSeed)
    (outside : AllRemovedOutside st) (room : BumpRoom x st c)
    (targetMember : target ∈ RouteState.members st key) (pMember : p ∈ RouteState.members st key)
    (pStays : p ∈ RouteState.members (RouteState.call x st c) key) :
    Tracks (RouteState.stamp key p) (RouteState.row seed key target p) st
      (RouteState.call x st c) := by
  obtain ⟨g, stored, inGroup⟩ := stored_of_member pMember
  obtain ⟨g', stored', inGroup'⟩ := stored_of_member pStays
  have targetInGroup : target ∈ g.peers := by
    simpa [RouteState.members, stored] using targetMember
  refine tracks_stored stored stored' seed ?_
  rcases call_groups x st c with ⟨same, -⟩ | put
  · rw [same, stored] at stored'
    cases stored'
    exact Tracks.refl g
  · rw [put] at stored'
    by_cases named : c.groupKey = key
    · subst named
      simp only [RouteState.put, Std.ExtTreeMap.getElem?_insert_self, Option.some.injEq,
        ensureGroup_stored stored] at stored'
      subst stored'
      unfold BumpRoom at room
      rw [ensureGroup_stored stored] at room
      exact onGroup_tracks (outside c.groupKey g stored) room targetInGroup inGroup inGroup'
    · rw [groups_put_ne _ _ named, stored] at stored'
      cases stored'
      exact Tracks.refl g

def bumps (x : Externals) (st : RouteState) (c : RouteCall) : Bool :=
  (c.op.edit x (st.ensureGroup c.seed c.groupKey)).1

def bumpCount (x : Externals) : RouteState → List RouteCall → Nat
  | _, [] => 0
  | st, c :: rest => (bumps x st c).toNat + bumpCount x (RouteState.call x st c) rest

def VersionsBelow (limit : Nat) (st : RouteState) : Prop :=
  ∀ key p, (st.getPeerConnVersion key p).toNat ≤ limit

variable (x op) in
theorem connVersion_edit_le {limit : Nat} (positive : 1 ≤ limit)
    (below : (RouteGroupData.connVersion g p).toNat ≤ limit) :
    (RouteGroupData.connVersion (op.edit x g).2 p).toNat ≤ limit := by
  rw [connVersion_edit]
  cases op with
  | removePeer q now =>
    simp only [RouteOp.versionsAfter, Std.ExtTreeMap.getD_erase]
    split
    · exact positive
    · exact below
  | _ => exact below

theorem connVersion_onGroup_le {limit : Nat} (positive : 1 ≤ limit)
    (below : (RouteGroupData.connVersion g p).toNat ≤ limit) :
    (RouteGroupData.connVersion (op.onGroup x g) p).toNat ≤ limit + 2 * (op.edit x g).1.toNat := by
  have edited := connVersion_edit_le x op positive below
  unfold RouteOp.onGroup
  split
  · rename_i bumped
    have counted := bumpsOf_le_two (op.edit x g).2 p
    have sum := Nat.mod_le ((RouteGroupData.connVersion (op.edit x g).2 p).toNat +
      (RouteGroupData.bumpsOf (op.edit x g).2 p).toNat) (2 ^ 32)
    rw [connVersion_bump, UInt32.toNat_add, bumped, Bool.toNat_true]
    omega
  · omega

variable (x) in
theorem call_versionsBelow {limit : Nat} {st : RouteState} (positive : 1 ≤ limit)
    (below : VersionsBelow limit st) (c : RouteCall) :
    VersionsBelow (limit + 2 * (bumps x st c).toNat) (RouteState.call x st c) := by
  intro key p
  have before := below key p
  rw [getPeerConnVersion_call]
  split
  · rename_i named
    subst named
    rw [getPeerConnVersion_eq st c.seed] at before
    exact connVersion_onGroup_le positive before
  · omega

theorem bumpRoom_of_below {limit : Nat} {st : RouteState} (positive : 1 ≤ limit)
    (below : VersionsBelow limit st) (small : limit + 2 < 2 ^ 32) (c : RouteCall) :
    BumpRoom x st c := by
  intro _ p
  have before := below c.groupKey p
  rw [getPeerConnVersion_eq st c.seed] at before
  have edited := connVersion_edit_le x c.op positive before
  have counted := bumpsOf_le_two (c.op.edit x (st.ensureGroup c.seed c.groupKey)).2 p
  omega

/-- With few bumps in a run, none of them wraps. -/
theorem everyStep_bumpRoom {done : Nat} {st : RouteState} {calls : List RouteCall}
    (below : VersionsBelow (1 + 2 * done) st)
    (few : done + bumpCount x st calls < 2 ^ 31 - 3) :
    EveryStep (RouteState.call x) (BumpRoom x) st calls := by
  induction calls generalizing done st with
  | nil => trivial
  | cons c rest ih =>
    simp only [bumpCount] at few
    refine ⟨bumpRoom_of_below (by omega) below (by omega) c, ?_⟩
    have after := call_versionsBelow x (by omega) below c
    refine @ih (done + (bumps x st c).toNat) _ ?_ ?_
    · have limit : 1 + 2 * (done + (bumps x st c).toNat) =
          1 + 2 * done + 2 * (bumps x st c).toNat := by omega
      rw [limit]
      exact after
    · omega

def Withholds (st : RouteState) (c : RouteCall) : Prop :=
  match c.op with
  | .build now target sid initiator full =>
    (st.buildSyncRouteInfoRequest c.seed now c.groupKey target sid initiator full).1.connInfo = none
  | _ => False

/- Since the last reset of the target's session, the last build for it met this topology: no
   later call of the history builds for the target, drops its session or resets it. -/
def LastBuildMet (x : Externals) (key : GroupKey) (target : PeerId) (history : List RouteCall)
    (topology : RouteConnBitmap) : Prop :=
  ∃ earlier build later, history = earlier ++ build :: later ∧ BuildsFor key target build ∧
    RouteState.topologyOf (RouteState.callAll x RouteState.new earlier) build.seed key target =
      topology ∧
    EveryStep (RouteState.call x) (fun st c => (RouteState.effect x key target st c).Idle)
      (RouteState.callAll x RouteState.new (earlier ++ [build])) later

/-- A build that leaves the bitmap out repeats the topology of the last build for its target. -/
theorem withheld_repeats {key : GroupKey} {history : List RouteCall} {c : RouteCall}
    (builds : BuildsFor key target c)
    (withheld : Withholds (RouteState.callAll x RouteState.new history) c) :
    LastBuildMet x key target history
      (RouteState.topologyOf (RouteState.callAll x RouteState.new history) c.seed key target) := by
  obtain ⟨group, seed, op⟩ := c
  obtain ⟨rfl, now, sid, initiator, full, rfl⟩ := builds
  set st := RouteState.callAll x RouteState.new history with stDef
  have sent := (build_spec (st.ensureGroup seed group) now target sid initiator full).1
  have left : (st.buildSyncRouteInfoRequest seed now group target sid initiator full).1.connInfo =
      none := withheld
  simp only [RouteState.buildSyncRouteInfoRequest, sent] at left
  have known : RouteState.signature st group target =
      some (connBitmapSig (RouteState.topologyOf st seed group target)) := by
    by_contra unknown
    rw [← ensureGroup_signature st seed, RouteState.topologyOf] at unknown
    rw [if_neg unknown] at left
    cases left
  obtain ⟨earlier, build, later, topology, split, announced, marked, quiet⟩ :=
    announced_of_recorded (fun st => RouteState.signature st group target)
      (call_signature x group target) rfl known
  obtain ⟨builds, met⟩ := buildsFor_of_announces announced
  have same : topology = RouteState.topologyOf st seed group target := by
    refine connBitmapSig_injective ?_ (topology_lists _ target) marked
    rw [← met]
    exact topology_lists _ target
  exact ⟨earlier, build, later, split, builds, met.trans same, quiet⟩

def StaysMember (x : Externals) (key : GroupKey) (p : PeerId) (st : RouteState)
    (calls : List RouteCall) : Prop :=
  EveryStep (RouteState.call x) (fun st _ => p ∈ RouteState.members st key) st calls

/-- Between two builds for a target that stays: what the second leaves out was the topology of
    the last build, and every staying peer whose row differs is listed with a newer version. -/
def ChangesAnnounced (x : Externals) (key : GroupKey) (target : PeerId)
    (before : List RouteCall) (first : RouteCall) (between : List RouteCall)
    (second : RouteCall) : Prop :=
  let early := RouteState.callAll x RouteState.new before
  let late := RouteState.callAll x RouteState.new (before ++ first :: between)
  let topology := RouteState.topologyOf early first.seed key target
  let topology' := RouteState.topologyOf late second.seed key target
  (Withholds late second → LastBuildMet x key target (before ++ first :: between) topology') ∧
  ∀ p, StaysMember x key p early (first :: between ++ [second]) →
    neighbours topology p ≠ neighbours topology' p →
    ∀ v w, ⟨p, v⟩ ∈ topology.peerIds → ⟨p, w⟩ ∈ topology'.peerIds → v < w

theorem listed_version {st : RouteState} {seed : GroupSeed} {key : GroupKey} {v : Version}
    (listed : ⟨p, v⟩ ∈ (RouteState.topologyOf st seed key target).peerIds) :
    v.toNat = RouteState.stamp key p st := by
  have recorded := connBitmap_version listed
  unfold RouteState.stamp
  rw [getPeerConnVersion_eq st seed]
  exact congrArg UInt32.toNat recorded

theorem run_removedOutside (calls : List RouteCall) :
    AllRemovedOutside (RouteState.callAll x RouteState.new calls) := by
  have start : AllRemovedOutside RouteState.new := by
    intro key g stored
    simp [RouteState.new] at stored
  refine invariant_run AllRemovedOutside ?_ start (everyStep_true RouteState.new calls)
  intro st c _ outside
  exact call_removedOutside outside c

theorem topology_changes_are_announced {key : GroupKey} {before between : List RouteCall}
    {first second : RouteCall}
    (few : bumpCount x RouteState.new (before ++ first :: between) < 2 ^ 31 - 3)
    (_firstBuilds : BuildsFor key target first) (secondBuilds : BuildsFor key target second)
    (targetStays : StaysMember x key target (RouteState.callAll x RouteState.new before)
      (first :: between ++ [second])) :
    ChangesAnnounced x key target before first between second := by
  refine ⟨withheld_repeats secondBuilds, ?_⟩
  intro p pStays changed v w listed listed'
  have fresh : VersionsBelow (1 + 2 * 0) RouteState.new := by
    intro key p
    simp [RouteState.getPeerConnVersion, RouteState.new]
  have room := everyStep_bumpRoom fresh (by rwa [Nat.zero_add])
  have roomBetween := ((everyStep_append RouteState.new before (first :: between)).mp room).2
  have met := everyStep_and (everyStep_and (everyStep_ends targetStays) (everyStep_ends pStays))
    roomBetween
  have tracked := relation_run AllRemovedOutside
    (Tracks (RouteState.stamp key p) (RouteState.row first.seed key target p)) Tracks.refl
    Tracks.trans (fun st c _ outside => call_removedOutside outside c)
    (fun st c ok outside => call_tracks first.seed outside ok.2 ok.1.1.1 ok.1.2.1 ok.1.2.2)
    (run_removedOutside before) met
  have joined : RouteState.callAll x RouteState.new (before ++ first :: between) =
      run (RouteState.call x) (RouteState.callAll x RouteState.new before) (first :: between) :=
    run_append RouteState.new before (first :: between)
  have present := ((everyStep_append _ (first :: between) [second]).mp pStays).2.1
  rw [← joined] at tracked present
  have rises := tracked.lt_of_change ?_
  · rw [← listed_version listed, ← listed_version listed'] at rises
    exact UInt32.lt_iff_toNat_lt.mpr rises
  · obtain ⟨g, stored, -⟩ := stored_of_member present
    unfold RouteState.row
    rw [topologyOf_stored stored first.seed, ← topologyOf_stored stored second.seed]
    exact changed

/- Between two builds for peer 5 it reports a P2P edge to peer 6. -/
def edgeReport : Bytes :=
  syncRouteInfoRequest.write
    { myPeerId := 5, mySessionId := 9, isInitiator := false, peerInfos := none,
      connInfo := some (.connPeerList ⟨[⟨some ⟨5, 1⟩, [6]⟩]⟩), foreignNetworkInfos := none }

def callOf (op : RouteOp) : RouteCall := ⟨"net:", ⟨⟨0, 0, 0, 0⟩, 0⟩, op⟩

theorem reported_edge_is_announced :
    ChangesAnnounced wire "net:" 5 (callsOf [.addPeer 5, .addPeer 6]) (callOf (buildFor 5 1))
      (callsOf [.updatePeerConnections 5 edgeReport]) (callOf (buildFor 5 2)) := by
  refine topology_changes_are_announced (by decide) ⟨rfl, 1, 7, false, true, rfl⟩
    ⟨rfl, 2, 7, false, true, rfl⟩ ?_
  unfold StaysMember
  decide

end RelayTopologyVersions
