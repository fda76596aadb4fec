import WsRelay.Hearsay

/- A reported edge lasts. Departures, sweeps, handshakes and the reports of others take nothing
   from it while its two ends stay and its reporter repeats it, so every update of the group
   shows it both ways. -/
namespace RelayLastingEdges
open RelayProtocol RelayRouteState RelayPeerManager RelayRoomModel RelayRouteOps RelayRoomSteps
open RelayBitmapDelivery RelayRoomMoves RelayConnBitmap RelayConnMatrix RelayConnEncodings
open RelayChangeBroadcast RelayTopologyVersions RelayForwarding RelayPhases RelayHearsay
open RelayWireFormats TransitionRuns OutputRuns PackedBits

/- What the ends and the reporter of an edge do at an event. -/
structure Repeats (x : Externals) (key : GroupKey) (p q : PeerId) (r : Relay)
    (e : Env × RoomEvent) : Prop where
  awake : e.2 ≠ .restart
  reporter : p ∈ RouteState.members (routes (Relay.onEvent x r e)) key
  reported : q ∈ RouteState.members (routes (Relay.onEvent x r e)) key
  repeats : ∀ report ∈ (heard x r e.2).filterMap Report.conn,
    report.groupKey = key → report.sender = p → Lists report.connInfo p q

/- A bitmap that lists both ids, with the two bits between them set. -/
structure Joins (bitmap : RouteConnBitmap) (p q : PeerId) : Prop where
  listed : p ∈ bitmap.peerIds.map (·.peerId) ∧ q ∈ bitmap.peerIds.map (·.peerId)
  bits : ∀ {i j : Nat}, (bitmap.peerIds.map (·.peerId))[i]? = some p →
    (bitmap.peerIds.map (·.peerId))[j]? = some q →
      getBit bitmap.bitmap (i * bitmap.peerIds.length + j) = true ∧
        getBit bitmap.bitmap (j * bitmap.peerIds.length + i) = true

def ShowsEdge (p q : PeerId) (key : GroupKey) (entry : Sent) : Prop :=
  ∀ target request topology, entry.origin = .routeUpdate key target request topology →
    Joins topology p q ∧ ∀ connInfo, request.connInfo = some connInfo →
      connInfo = .connBitmap topology

/- Both ends are members, and the edge is recorded where the relay does not show it anyway. -/
structure Bond (key : GroupKey) (p q : PeerId) (st : RouteState) : Prop where
  reporter : p ∈ RouteState.members st key
  reported : q ∈ RouteState.members st key
  edge : q ≠ myPeerId → q ≠ p → Recorded (RouteState.connections st key) p q

section Calls
variable {x : Externals} {st st' : RouteState} {c : RouteCall} {key : GroupKey} {p q : PeerId}

/- A call that takes none of the two away and reports nothing else of the first. -/
structure Spares (x : Externals) (key : GroupKey) (p q : PeerId) (c : RouteCall) : Prop where
  stays : ∀ gone nowMs, c.groupKey = key → c.op = .removePeer gone nowMs → gone ≠ p ∧ gone ≠ q
  repeats : ∀ connInfo, connOf x c = some ⟨key, p, connInfo⟩ → Lists connInfo p q

theorem Spares.member {a : PeerId} (spares : Spares x key p q c) (either : a = p ∨ a = q)
    (member : a ∈ RouteState.members st key) :
    a ∈ RouteState.members (RouteState.call x st c) key := by
  rw [members_call]
  split
  · rename_i named
    cases happens : c.op with
    | addPeer joined => exact Std.ExtTreeSet.mem_insert.mpr (Or.inr member)
    | removePeer gone nowMs =>
      have others := spares.stays gone nowMs named happens
      refine Std.ExtTreeSet.mem_erase.mpr ⟨?_, member⟩
      rcases either with rfl | rfl
      · simpa using others.1
      · simpa using others.2
    | _ => exact member
  · exact member

theorem call_records {connInfo : ConnInfo} (said : connOf x c = some ⟨key, p, connInfo⟩)
    (lists : Lists connInfo p q) (reported : q ∈ RouteState.members st key)
    (foreign : q ≠ myPeerId) (other : q ≠ p) :
    Recorded (RouteState.connections (RouteState.call x st c) key) p q := by
  obtain ⟨named, seed, op⟩ := c
  cases op with
  | updatePeerConnections sender bytes =>
    simp only [connOf, Option.bind_eq_some_iff, Option.map_eq_some_iff, ConnReport.mk.injEq]
      at said
    obtain ⟨req, decoded, connInfo', carried, rfl, rfl, rfl⟩ := said
    simp only [connections_call, ↓reduceIte, RouteOp.edit, decoded, carried, recorded_report]
    rw [mem_p2pConnections]
    refine ⟨lists, ?_⟩
    rw [← ensureGroup_peers st seed] at reported
    simp [RouteGroupData.keepsReported, foreign, other, reported]
  | _ => cases said

theorem call_keeps (spares : Spares x key p q c) (outside : AllRemovedOutside st)
    (reporter : p ∈ RouteState.members st key) (reported : q ∈ RouteState.members st key)
    (foreign : q ≠ myPeerId) (other : q ≠ p)
    (recorded : Recorded (RouteState.connections st key) p q) :
    Recorded (RouteState.connections (RouteState.call x st c) key) p q := by
  rw [connections_call]
  split
  · rename_i named
    subst named
    set g := st.ensureGroup c.seed c.groupKey with gDef
    rw [← ensureGroup_connections st c.seed, ← gDef] at recorded
    rw [← ensureGroup_peers st c.seed, ← gDef] at reporter reported
    have kept : RemovedOutside g :=
      everyGroup_ensured newGroup_removedOutside outside c.seed c.groupKey
    by_cases keeps : RouteOp.keepsEdges c.op = true
    · obtain ⟨-, connections, -⟩ := edit_sameEdges x g keeps
      rwa [connections]
    cases happens : c.op with
    | addPeer joined => exact recorded
    | removePeer gone nowMs => exact recorded
    | cleanup threshold nowMs =>
      refine recorded_swept.mpr ⟨recorded, ?_, ?_⟩
      · exact fun stale => kept p (stalePeers_removed stale) reporter
      · exact fun stale => kept q (stalePeers_removed stale) reported
    | updatePeerConnections sender bytes =>
      simp only [RouteOp.edit]
      cases decoded : x.decodeSyncRouteInfoRequest bytes with
      | none => exact recorded
      | some req =>
        simp only
        cases carried : req.connInfo with
        | none => exact recorded
        | some connInfo =>
          simp only [recorded_report]
          split
          · rename_i own
            subst own
            have lists := spares.repeats connInfo (by simp [connOf, happens, decoded, carried])
            rw [mem_p2pConnections]
            refine ⟨lists, ?_⟩
            simp [RouteGroupData.keepsReported, foreign, other, reported]
          · exact recorded
    | _ =>
      rw [happens] at keeps
      exact absurd rfl keeps
  · exact recorded

/-- Over the calls of an event the edge is recorded, if it was before or is reported by one. -/
theorem callAll_bond (calls : List RouteCall) {st : RouteState}
    (spares : ∀ c ∈ calls, Spares x key p q c) (outside : AllRemovedOutside st)
    (reporter : p ∈ RouteState.members st key) (reported : q ∈ RouteState.members st key)
    (edge : q ≠ myPeerId → q ≠ p → Recorded (RouteState.connections st key) p q ∨
      ∃ c ∈ calls, ∃ connInfo, connOf x c = some ⟨key, p, connInfo⟩) :
    Bond key p q (RouteState.callAll x st calls) := by
  induction calls generalizing st with
  | nil =>
    refine ⟨reporter, reported, ?_⟩
    intro foreign other
    rcases edge foreign other with recorded | ⟨c, listed, -⟩
    · exact recorded
    · cases listed
  | cons c rest ih =>
    have here := spares c (by simp)
    refine ih (fun later listed => spares later (by simp [listed])) (call_removedOutside outside c)
      (here.member (Or.inl rfl) reporter) (here.member (Or.inr rfl) reported) ?_
    intro foreign other
    rcases edge foreign other with recorded | ⟨d, listed, connInfo, said⟩
    · exact Or.inl (call_keeps here outside reporter reported foreign other recorded)
    · rcases List.mem_cons.mp listed with rfl | later
      · exact Or.inl (call_records said (here.repeats connInfo said) reported foreign other)
      · exact Or.inr ⟨d, later, connInfo, said⟩

theorem callAll_removedOutside (calls : List RouteCall) {st : RouteState}
    (outside : AllRemovedOutside st) : AllRemovedOutside (RouteState.callAll x st calls) := by
  induction calls generalizing st with
  | nil => exact outside
  | cons c rest ih => exact ih (call_removedOutside outside c)

theorem reaches_removedOutside {allowed : RouteCall → Prop} (reached : Reaches x allowed st st')
    (outside : AllRemovedOutside st) : AllRemovedOutside st' := by
  obtain ⟨calls, -, rfl⟩ := reached
  exact callAll_removedOutside calls outside

theorem Bond.built (bond : Bond key p q st) (reached : Reaches x IsBuild st st') :
    Bond key p q st' := by
  have members := members_reaches (reached.mono IsBuild.keepsMembers)
  have keeps : ∀ c : RouteCall, IsBuild c → KeepsEdges c := by
    intro c builds
    obtain ⟨named, seed, op⟩ := c
    cases op with
    | build nowMs target sid initiator full => rfl
    | _ => cases builds
  have connections := connections_reaches (reached.mono keeps)
  obtain ⟨reporter, reported, edge⟩ := bond
  rw [← members] at reporter reported
  rw [← connections] at edge
  exact ⟨reporter, reported, edge⟩

theorem Bond.joins (bond : Bond key p q st) (seed : GroupSeed) (target : PeerId) :
    Joins (RouteState.topologyOf st seed key target) p q := by
  obtain ⟨reporter, reported, edge⟩ := bond
  set g := st.ensureGroup seed key with gDef
  rw [← ensureGroup_peers st seed, ← gDef] at reporter reported
  rw [← ensureGroup_connections st seed, ← gDef] at edge
  have shown : Shown g.peerConnections p q := by
    by_cases own : q = myPeerId
    · exact Or.inr (Or.inr (Or.inl own))
    · by_cases same : q = p
      · exact Or.inl same.symm
      · exact Or.inr (Or.inr (Or.inr (Or.inl (edge own same))))
  have ids : (RouteState.topologyOf st seed key target).peerIds.map (·.peerId) =
      g.relevantPeers target := by
    simp [RouteState.topologyOf, RouteGroupData.topology, RouteGroupData.connBitmap,
      Function.comp_def, gDef]
  refine ⟨?_, ?_⟩
  · rw [ids]
    exact ⟨mem_relevantPeers.mpr (Or.inr (Or.inr reporter)),
      mem_relevantPeers.mpr (Or.inr (Or.inr reported))⟩
  · intro i j atI atJ
    exact ⟨(topology_bits g target atI atJ).mpr shown,
      (topology_bits g target atJ atI).mpr shown.symm⟩

end Calls

section Runs
variable {x : Externals} {r : Relay} {key : GroupKey} {p q : PeerId}

theorem woken_routes {e : RoomEvent} (awake : e ≠ .restart) : routes (woken r e) = routes r := by
  cases e with
  | restart => exact absurd rfl awake
  | _ => rfl

/-- One event: the edge is bound behind it, and its updates show it. -/
theorem step_bond {e : Env × RoomEvent} (repeats : Repeats x key p q r e)
    (outside : AllRemovedOutside (routes r)) (reporter : p ∈ RouteState.members (routes r) key)
    (reported : q ∈ RouteState.members (routes r) key)
    (edge : q ≠ myPeerId → q ≠ p → Recorded (RouteState.connections (routes r) key) p q ∨
      ∃ report ∈ (heard x r e.2).filterMap Report.conn,
        report.groupKey = key ∧ report.sender = p) :
    (AllRemovedOutside (routes (Relay.onEvent x r e)) ∧
      Bond key p q (routes (Relay.onEvent x r e))) ∧
      ∀ entry ∈ sentSince r (Relay.onEvent x r e), ShowsEdge p q key entry := by
  obtain ⟨calls, mid, prepares, reached, told, -, built⟩ := onEvent_phases x r e
  rw [woken_routes repeats.awake] at reached
  have spares (c : RouteCall) (listed : c ∈ calls) : Spares x key p q c := by
    refine ⟨?_, ?_⟩
    · intro gone nowMs named removes
      have left := prepares.leaves c listed gone nowMs removes
      rw [named] at left
      refine ⟨?_, ?_⟩
      · rintro rfl
        exact left repeats.reporter
      · rintro rfl
        exact left repeats.reported
    · intro connInfo said
      have reports : ⟨key, p, connInfo⟩ ∈ (heard x r e.2).filterMap Report.conn := by
        rw [← prepares.conns]
        exact List.mem_filterMap.mpr ⟨c, listed, said⟩
      exact repeats.repeats _ reports rfl rfl
  have bond : Bond key p q (routes mid) := by
    rw [reached]
    refine callAll_bond calls spares outside reporter reported ?_
    intro foreign other
    rcases edge foreign other with recorded | ⟨⟨_, _, connInfo⟩, reports, rfl, rfl⟩
    · exact Or.inl recorded
    · rw [← prepares.conns] at reports
      obtain ⟨c, listed, said⟩ := List.mem_filterMap.mp reports
      exact Or.inr ⟨c, listed, connInfo, said⟩
  have kept : AllRemovedOutside (routes mid) := by
    rw [reached]
    exact callAll_removedOutside calls outside
  refine ⟨⟨reaches_removedOutside told kept, bond.built told⟩, ?_⟩
  intro entry listed target request topology origin
  obtain ⟨st', seed, nowMs, sid, initiator, later, rfl, rfl⟩ :=
    built entry listed key target request topology origin
  refine ⟨(bond.built later).joins seed target, ?_⟩
  intro connInfo carried
  have spec := (build_spec (st'.ensureGroup seed key) nowMs target sid initiator true).1
  simp only [RouteState.buildSyncRouteInfoRequest, spec] at carried
  obtain ⟨-, same⟩ := Option.ite_none_left_eq_some.mp carried
  exact (Option.some.inj same).symm

theorem run_removedOutside (events : List (Env × RoomEvent)) :
    AllRemovedOutside (routes (Relay.run x Relay.initial events)) := by
  have start : AllRemovedOutside (routes Relay.initial) := by
    intro key g stored
    simp [Relay.initial, routes, GlobalStateInner.fresh, PeerManager.new, RouteState.new] at stored
  refine invariant_run (fun r => AllRemovedOutside (routes r)) ?_ start
    (everyStep_true Relay.initial events)
  intro r e _ outside
  obtain ⟨calls, mid, -, reached, told, -⟩ := onEvent_phases x r e
  refine reaches_removedOutside told ?_
  rw [reached]
  apply callAll_removedOutside
  obtain ⟨env, event⟩ := e
  cases event with
  | restart =>
    intro key g stored
    simp [woken, routes, GlobalStateInner.fresh, PeerManager.new, RouteState.new] at stored
  | _ => exact outside

end Runs

/- Peer 5 reports its connection to peer 6, and an alarm tells both again. -/
def refresh : Env × RoomEvent := (quietEnv 31000 1000, .alarm)

end RelayLastingEdges
