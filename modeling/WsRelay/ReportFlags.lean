import WsRelay.ChangeBroadcast
import WsRelay.ConnEncodings

/- The change flag of a connection report against the neighbours that are stored. An empty set
   and an absent entry are the same neighbours but not the same value: a sweep can leave an
   empty set behind, and a report that clears it counts as a change. -/
namespace RelayReportFlags
open RelayProtocol RelayRouteState RelayRoomModel RelayRouteOps RelayConnVersions
open RelayChangeBroadcast RelayConnEncodings RelayWireFormats

/- The stored neighbours; a missing entry counts as the empty set. -/
def neighbours (st : RouteState) (key : GroupKey) (p : PeerId) : PeerSet :=
  ((RouteState.connections st key)[p]?).getD ∅

section Report
variable {x : Externals} {body : Bytes} {req : SyncRouteInfoRequest}

theorem storeConnections_neighbours (g : RouteGroupData) (p : PeerId) (reported : PeerSet) :
    ((g.storeConnections p reported).2.peerConnections[p]?).getD ∅ = reported := by
  unfold RouteGroupData.storeConnections
  by_cases empty : reported.isEmpty = true
  · have none : reported = ∅ := Std.ExtTreeSet.isEmpty_iff.mp empty
    rw [if_pos empty]
    simp [none]
  · rw [if_neg empty]
    simp

theorem linksOf_ne_iff (stored : Option PeerSet) (reported : PeerSet) :
    (stored ≠ linksOf reported ↔ stored.getD ∅ ≠ reported) ↔
      ¬ (stored = some ∅ ∧ reported = ∅) := by
  unfold linksOf
  by_cases empty : reported = ∅
  · subst empty
    cases stored with
    | none => simp
    | some old => simp
  · have filled : reported.isEmpty = false := by
      rw [Bool.eq_false_iff, ne_eq, Std.ExtTreeSet.isEmpty_iff]
      exact empty
    cases stored with
    | none => simp [filled, empty, Ne.symm empty]
    | some old => simp [filled, empty]

variable (x) in
def report (st : RouteState) (seed : GroupSeed) (key : GroupKey) (p : PeerId) (body : Bytes) :
    Bool × RouteState :=
  st.updatePeerConnectionsFromConnInfo x seed key p body

theorem report_heartbeat (decoded : x.decodeSyncRouteInfoRequest body = some req)
    (silent : req.connInfo = none) (st : RouteState) (seed : GroupSeed) (key : GroupKey)
    (p : PeerId) :
    report x st seed key p body = (false, st.put key (st.ensureGroup seed key)) := by
  simp only [report, RouteState.updatePeerConnectionsFromConnInfo, decoded,
    RouteGroupData.updatePeerConnectionsFromConnInfo, silent]

theorem report_stores (decoded : x.decodeSyncRouteInfoRequest body = some req)
    {connInfo : ConnInfo} (carried : req.connInfo = some connInfo) (st : RouteState)
    (seed : GroupSeed) (key : GroupKey) (p : PeerId) :
    let g := st.ensureGroup seed key
    let stored := g.storeConnections p (g.p2pConnections p connInfo)
    report x st seed key p body =
      (stored.1, st.put key (if stored.1 then stored.2.bumpAllConnVersions else stored.2)) := by
  simp only [report, RouteState.updatePeerConnectionsFromConnInfo, decoded,
    RouteGroupData.updatePeerConnectionsFromConnInfo, carried]
  split
  · rename_i changed
    simp [changed]
  · rename_i calm
    simp [calm]

theorem neighbours_put (st : RouteState) (key : GroupKey) (g : RouteGroupData) (p : PeerId) :
    neighbours (st.put key g) key p = (g.peerConnections[p]?).getD ∅ := by
  simp [neighbours, RouteState.connections, RouteState.put]

theorem neighbours_ensureGroup (st : RouteState) (seed : GroupSeed) (key : GroupKey) (p : PeerId) :
    neighbours st key p = ((st.ensureGroup seed key).peerConnections[p]?).getD ∅ := by
  rw [neighbours, ensureGroup_connections]

theorem report_neighbours (decoded : x.decodeSyncRouteInfoRequest body = some req)
    {connInfo : ConnInfo} (carried : req.connInfo = some connInfo) (st : RouteState)
    (seed : GroupSeed) (key : GroupKey) (p : PeerId) :
    neighbours (report x st seed key p body).2 key p =
      (st.ensureGroup seed key).p2pConnections p connInfo := by
  rw [report_stores decoded carried]
  simp only [neighbours_put]
  split
  · exact storeConnections_neighbours (st.ensureGroup seed key) p _
  · exact storeConnections_neighbours (st.ensureGroup seed key) p _

theorem storeConnections_counts (g : RouteGroupData) (p q : PeerId) (reported : PeerSet) :
    RouteGroupData.connVersion (g.storeConnections p reported).2 q =
        RouteGroupData.connVersion g q ∧
      RouteGroupData.bumpsOf (g.storeConnections p reported).2 q = RouteGroupData.bumpsOf g q := by
  obtain ⟨connections, stored⟩ := storeConnections_frame g p reported
  rw [stored]
  exact ⟨rfl, rfl⟩

theorem report_versions (decoded : x.decodeSyncRouteInfoRequest body = some req) (st : RouteState)
    (seed : GroupSeed) (key : GroupKey) (p q : PeerId) :
    (report x st seed key p body).2.getPeerConnVersion key q = st.getPeerConnVersion key q +
      (if (report x st seed key p body).1 then
        RouteGroupData.bumpsOf (st.ensureGroup seed key) q else 0) := by
  rw [getPeerConnVersion_eq st seed]
  cases carried : req.connInfo with
  | none =>
    rw [report_heartbeat decoded carried]
    simp [getPeerConnVersion_put_self]
  | some connInfo =>
    have counts := storeConnections_counts (st.ensureGroup seed key) p q
      ((st.ensureGroup seed key).p2pConnections p connInfo)
    rw [report_stores decoded carried]
    simp only [getPeerConnVersion_put_self]
    split
    · rw [connVersion_bump, counts.1, counts.2]
    · rw [counts.1]
      simp

end Report

/- The flag tells exactly whether the neighbours differ, and versions move with the flag only. -/
structure FlagExact (x : Externals) (st : RouteState) (seed : GroupSeed) (key : GroupKey)
    (p : PeerId) (body : Bytes) : Prop where
  flag : (report x st seed key p body).1 = true ↔
    neighbours st key p ≠ neighbours (report x st seed key p body).2 key p
  bumped : (report x st seed key p body).1 = true → ∀ q,
    (report x st seed key p body).2.getPeerConnVersion key q = st.getPeerConnVersion key q +
      RouteGroupData.bumpsOf (st.ensureGroup seed key) q
  kept : (report x st seed key p body).1 = false → ∀ q,
    (report x st seed key p body).2.getPeerConnVersion key q = st.getPeerConnVersion key q

/- The request lists nobody for its sender but the sender, the relay and outsiders. -/
def ListsNobody (g : RouteGroupData) (p : PeerId) (req : SyncRouteInfoRequest) : Prop :=
  ∃ connInfo, req.connInfo = some connInfo ∧
    ∀ q, Lists connInfo p q → g.keepsReported p q = false

/- An empty set is stored for the sender, and the request clears it. -/
def ClearsNothing (st : RouteState) (seed : GroupSeed) (key : GroupKey) (p : PeerId)
    (req : SyncRouteInfoRequest) : Prop :=
  (RouteState.connections st key)[p]? = some ∅ ∧ ListsNobody (st.ensureGroup seed key) p req

theorem p2pConnections_eq_empty (g : RouteGroupData) (p : PeerId) (connInfo : ConnInfo) :
    g.p2pConnections p connInfo = ∅ ↔
      ∀ q, Lists connInfo p q → g.keepsReported p q = false := by
  rw [Std.ExtTreeSet.eq_empty_iff_forall_not_mem]
  constructor
  · intro empty q listed
    rw [Bool.eq_false_iff]
    intro keeps
    exact empty q ((mem_p2pConnections g p q connInfo).mpr ⟨listed, keeps⟩)
  · intro nobody q member
    obtain ⟨listed, keeps⟩ := (mem_p2pConnections g p q connInfo).mp member
    rw [nobody q listed] at keeps
    cases keeps

theorem flag_iff {x : Externals} {body : Bytes} {req : SyncRouteInfoRequest}
    (decoded : x.decodeSyncRouteInfoRequest body = some req) (st : RouteState) (seed : GroupSeed)
    (key : GroupKey) (p : PeerId) :
    ((report x st seed key p body).1 = true ↔
      neighbours st key p ≠ neighbours (report x st seed key p body).2 key p) ↔
      ¬ ClearsNothing st seed key p req := by
  cases carried : req.connInfo with
  | none =>
    rw [report_heartbeat decoded carried, neighbours_put, ← neighbours_ensureGroup]
    simp [ClearsNothing, ListsNobody, carried]
  | some connInfo =>
    have changed := storeConnections_changed (st.ensureGroup seed key) p
      ((st.ensureGroup seed key).p2pConnections p connInfo)
    rw [report_neighbours decoded carried, report_stores decoded carried]
    simp only [changed, neighbours, ensureGroup_connections]
    rw [linksOf_ne_iff, p2pConnections_eq_empty]
    simp only [ClearsNothing, ListsNobody, carried, Option.some.injEq, exists_eq_left']

/-- The flag of a decodable report is exact, and the versions follow it, unless the report
    clears an empty set. -/
theorem flag_exact_iff {x : Externals} {body : Bytes} {req : SyncRouteInfoRequest}
    (decoded : x.decodeSyncRouteInfoRequest body = some req) (st : RouteState) (seed : GroupSeed)
    (key : GroupKey) (p : PeerId) :
    FlagExact x st seed key p body ↔ ¬ ClearsNothing st seed key p req := by
  have versions := report_versions decoded st seed key p
  constructor
  · intro exact
    exact (flag_iff decoded st seed key p).mp exact.flag
  · intro fresh
    refine ⟨(flag_iff decoded st seed key p).mpr fresh, ?_, ?_⟩
    · intro changed q
      rw [versions q, if_pos changed]
    · intro calm q
      rw [versions q, calm]
      simp

theorem flag_exact_while_linked :
    FlagExact wire threeMembers ((quietEnv 1500 500).seed "net:aa") "net:aa" 5
      (wire.encodeSyncRouteInfoRequest (linkReport (.connPeerList ⟨[⟨some ⟨5, 0⟩, [6]⟩]⟩))) :=
  (flag_exact_iff (wire_roundTrips.sync _) threeMembers ((quietEnv 1500 500).seed "net:aa")
    "net:aa" 5).mpr fun clears => absurd clears.1 (by decide)

/- Peers 5 and 6 join and 5 reports its link to 6. Then 6 leaves, and eleven minutes later the
   sweep takes it out of the set of 5, which is empty from then on. -/
def sweptNeighbour : RouteState :=
  RouteState.callAll wire RouteState.new
    ([.addPeer 5, .addPeer 6,
      .updatePeerConnections 5 (wire.encodeSyncRouteInfoRequest
        (linkReport (.connPeerList ⟨[⟨some ⟨5, 0⟩, [6]⟩]⟩))),
      .removePeer 6 1000, .cleanup staleP2pThresholdMs 661000].map fun op =>
        ⟨"net:aa", (quietEnv 1000 500).seed "net:aa", op⟩)

theorem empty_report_flagged :
    ¬ FlagExact wire sweptNeighbour ((quietEnv 662000 500).seed "net:aa") "net:aa" 5
      (wire.encodeSyncRouteInfoRequest (linkReport (.connPeerList ⟨[]⟩))) := by
  intro exact
  have flagged : (report wire sweptNeighbour ((quietEnv 662000 500).seed "net:aa") "net:aa" 5
      (wire.encodeSyncRouteInfoRequest (linkReport (.connPeerList ⟨[]⟩)))).1 = true := by decide
  exact absurd (exact.flag.mp flagged) (by decide)

end RelayReportFlags
