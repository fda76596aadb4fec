import WsRelay.ConnEncodings
import WsRelay.StaleCleanup

/- Reported edges outlive the peers they mention. They stay collectable: whoever is mentioned
   is a member or has a recorded removal, so a sweep can take every old edge and no live one. -/
namespace RelayEdgeCleanup
open RelayProtocol RelayRouteState RelayRoomModel RelayRouteOps RelayTopologyVersions
open RelayStaleCleanup RelayConnEncodings RelayWireFormats TransitionRuns

section Sweep
variable {p q : PeerId}

def withoutAll (stale : List PeerId) (reported : PeerSet) : PeerSet :=
  stale.foldl (fun kept gone => kept.erase gone) reported

theorem mem_withoutAll (stale : List PeerId) (reported : PeerSet) :
    q ∈ withoutAll stale reported ↔ q ∈ reported ∧ q ∉ stale := by
  unfold withoutAll
  induction stale generalizing reported with
  | nil => simp
  | cons gone rest ih =>
    rw [List.foldl_cons, ih]
    simp only [Std.ExtTreeSet.mem_erase, List.mem_cons, not_or, ne_eq,
      Std.LawfulEqCmp.compare_eq_iff_eq]
    constructor
    · intro kept
      exact ⟨kept.1.2, Ne.symm kept.1.1, kept.2⟩
    · intro kept
      exact ⟨⟨Ne.symm kept.2.1, kept.1⟩, kept.2.2⟩

theorem dropStale_entry {acc : PeerMap PeerSet × PeerMap Millis} (stale : List PeerId) :
    (stale.foldl dropStale acc).1[p]? =
      if p ∈ stale then none else (acc.1[p]?).map (withoutAll stale) := by
  induction stale generalizing acc with
  | nil =>
    have unchanged : withoutAll [] = id := rfl
    simp [unchanged]
  | cons gone rest ih =>
    rw [List.foldl_cons, ih]
    simp only [dropStale, Std.ExtTreeMap.getElem?_map, Std.ExtTreeMap.getElem?_erase,
      Std.LawfulEqCmp.compare_eq_iff_eq, List.mem_cons]
    by_cases same : gone = p
    · simp [same]
    · by_cases later : p ∈ rest
      · simp [later]
      · simp only [same, Ne.symm same, later, or_self, ↓reduceIte, Option.map_map]
        rfl

end Sweep

/- No member is recorded as removed, and whoever is mentioned is one or the other. -/
structure Tends (members : PeerSet) (connections : PeerMap PeerSet) (removedAt : PeerMap Millis) :
    Prop where
  outside : ∀ p, p ∈ members → p ∉ removedAt
  mentioned : ∀ p, Mentions connections p → p ∈ members ∨ p ∈ removedAt

def Collectable (g : RouteGroupData) : Prop := Tends g.peers g.peerConnections g.peerRemovedAt

section Edit
variable {x : Externals} {g : RouteGroupData}

theorem collectable_of_sameEdges {g' : RouteGroupData} (same : SameEdges g g')
    (collectable : Collectable g) : Collectable g' := by
  obtain ⟨peers, connections, removed⟩ := same
  unfold Collectable
  rw [peers, connections, removed]
  exact collectable

theorem mentions_report {p q : PeerId} {bytes : Bytes}
    (mentioned : Mentions (RouteOp.edit x g (.updatePeerConnections p bytes)).2.peerConnections q) :
    Mentions g.peerConnections q ∨ q = p ∨ q ∈ g.peers := by
  simp only [RouteOp.edit] at mentioned
  cases decoded : x.decodeSyncRouteInfoRequest bytes with
  | none =>
    rw [decoded] at mentioned
    exact Or.inl mentioned
  | some req =>
    cases carried : req.connInfo with
    | none =>
      simp only [decoded, carried] at mentioned
      exact Or.inl mentioned
    | some connInfo =>
      simp only [decoded, carried, RouteGroupData.storeConnections] at mentioned
      split at mentioned
      · rcases mentioned with key | ⟨r, reported, stored, member⟩
        · exact Or.inl (Or.inl (Std.ExtTreeMap.mem_erase.mp key).2)
        · rw [Std.ExtTreeMap.getElem?_erase] at stored
          split at stored
          · cases stored
          · exact Or.inl (Or.inr ⟨r, reported, stored, member⟩)
      · rcases mentioned with key | ⟨r, reported, stored, member⟩
        · rcases Std.ExtTreeMap.mem_insert.mp key with same | old
          · exact Or.inr (Or.inl (Std.LawfulEqCmp.eq_of_compare same).symm)
          · exact Or.inl (Or.inl old)
        · rw [Std.ExtTreeMap.getElem?_insert] at stored
          split at stored
          · rw [Option.some.injEq] at stored
            subst stored
            have kept := ((mem_p2pConnections g p q connInfo).mp member).2
            simp only [RouteGroupData.keepsReported, Bool.and_eq_true] at kept
            exact Or.inr (Or.inr (Std.ExtTreeSet.contains_iff_mem.mp kept.2))
          · exact Or.inl (Or.inr ⟨r, reported, stored, member⟩)

theorem edit_collectable (op : RouteOp)
    (reports : ∀ p bytes, op = .updatePeerConnections p bytes → p ∈ g.peers)
    (collectable : Collectable g) : Collectable (op.edit x g).2 := by
  by_cases keeps : RouteOp.keepsEdges op = true
  · exact collectable_of_sameEdges (edit_sameEdges x g keeps) collectable
  have outside : RemovedOutside (op.edit x g).2 :=
    edit_removedOutside x op fun p removed member => collectable.outside p member removed
  refine ⟨fun p member removed => outside p removed member, ?_⟩
  cases op with
  | addPeer p =>
    intro q mentioned
    by_cases same : q = p
    · subst same
      exact Or.inl Std.ExtTreeSet.mem_insert_self
    · rcases collectable.mentioned q mentioned with member | removed
      · exact Or.inl (Std.ExtTreeSet.mem_insert.mpr (Or.inr member))
      · refine Or.inr (Std.ExtTreeMap.mem_erase.mpr ⟨?_, removed⟩)
        simpa using Ne.symm same
  | removePeer p now =>
    intro q mentioned
    by_cases same : q = p
    · subst same
      exact Or.inr Std.ExtTreeMap.mem_insert_self
    · rcases collectable.mentioned q mentioned with member | removed
      · refine Or.inl (Std.ExtTreeSet.mem_erase.mpr ⟨?_, member⟩)
        simpa using Ne.symm same
      · exact Or.inr (Std.ExtTreeMap.mem_insert.mpr (Or.inr removed))
  | updatePeerConnections p bytes =>
    intro q mentioned
    obtain ⟨connections, kept⟩ := editPeerConnections_frame g x p bytes
    have reporter := reports p bytes rfl
    have origin := mentions_report mentioned
    rw [kept]
    rcases origin with old | same | member
    · exact collectable.mentioned q old
    · exact Or.inl (same ▸ reporter)
    · exact Or.inl member
  | cleanup threshold now =>
    intro q mentioned
    have stays : q ∉ g.stalePeers threshold now := fun stale => dropStale_drops stale mentioned
    have old : Mentions g.peerConnections q := by
      by_contra out
      exact dropStale_keeps_out _ out mentioned
    rcases collectable.mentioned q old with member | removed
    · exact Or.inl member
    · refine Or.inr (Std.ExtTreeMap.mem_iff_isSome_getElem?.mpr ?_)
      simp only [RouteOp.edit, RouteGroupData.cleanupStalePeerConnections, dropStale_removed, stays,
        ↓reduceIte]
      exact Std.ExtTreeMap.mem_iff_isSome_getElem?.mp removed
  | _ => exact absurd rfl keeps

end Edit

def ReportsFromMembers (st : RouteState) (c : RouteCall) : Prop :=
  match c.op with
  | .updatePeerConnections p _ => p ∈ RouteState.members st c.groupKey
  | _ => True

instance (st : RouteState) (c : RouteCall) : Decidable (ReportsFromMembers st c) :=
  match opened : c.op with
  | .updatePeerConnections p _ =>
    decidable_of_iff (p ∈ RouteState.members st c.groupKey) (by simp [ReportsFromMembers, opened])
  | .addPeer _ | .removePeer _ _ | .updatePeerInfo _ _ | .onRouteSessionAck _ _ _ _
  | .bumpMyInfoVersion | .setMyInfoField _ _ | .build _ _ _ _ _ | .handleSync _ _ _
  | .cleanup _ _ => isTrue (by simp [ReportsFromMembers, opened])

def Tended (st : RouteState) (key : GroupKey) : Prop :=
  Tends (RouteState.members st key) (RouteState.connections st key) (RouteState.removedAt st key)

section Runs
variable {x : Externals} {st : RouteState}

theorem ensureGroup_links (st : RouteState) (seed : GroupSeed) (key : GroupKey) :
    (st.ensureGroup seed key).peerConnections = RouteState.connections st key :=
  connectionsReading.ensureGroup st seed key

theorem collectable_ensureGroup (seed : GroupSeed) (key : GroupKey) :
    Collectable (st.ensureGroup seed key) ↔ Tended st key := by
  rw [Collectable, ensureGroup_peers, ensureGroup_links, ensureGroup_removedAt, Tended]

theorem call_tended {c : RouteCall} (reports : ReportsFromMembers st c)
    (tended : ∀ key, Tended st key) (key : GroupKey) : Tended (RouteState.call x st c) key := by
  have members : RouteState.members (RouteState.call x st c) key =
      if c.groupKey = key then (c.op.edit x (st.ensureGroup c.seed key)).2.peers
      else RouteState.members st key := membersReading.call x st c key
  have connections : RouteState.connections (RouteState.call x st c) key =
      if c.groupKey = key then (c.op.edit x (st.ensureGroup c.seed key)).2.peerConnections
      else RouteState.connections st key := connectionsReading.call x st c key
  have removed : RouteState.removedAt (RouteState.call x st c) key =
      if c.groupKey = key then (c.op.edit x (st.ensureGroup c.seed key)).2.peerRemovedAt
      else RouteState.removedAt st key := removedAtReading.call x st c key
  unfold Tended
  rw [members, connections, removed]
  by_cases named : c.groupKey = key
  · subst named
    simp only [↓reduceIte]
    apply edit_collectable c.op _ ((collectable_ensureGroup c.seed c.groupKey).mpr (tended _))
    intro p bytes report
    rw [ensureGroup_peers]
    simpa only [ReportsFromMembers, report] using reports
  · simp only [named, ↓reduceIte]
    exact tended key

theorem new_tended (key : GroupKey) : Tended RouteState.new key := by
  refine ⟨?_, ?_⟩
  · intro p member
    simp [RouteState.members, RouteState.new] at member
  · intro p mentioned
    simp [Mentions, RouteState.connections, RouteState.new] at mentioned

theorem run_tended {calls : List RouteCall}
    (reports : EveryStep (RouteState.call x) ReportsFromMembers RouteState.new calls)
    (key : GroupKey) : Tended (RouteState.callAll x RouteState.new calls) key :=
  invariant_run (fun st => ∀ key, Tended st key)
    (fun _ _ passes tended => call_tended passes tended)
    new_tended reports key

end Runs

def Stale (st : RouteState) (key : GroupKey) (threshold nowMs : Millis) (p : PeerId) : Prop :=
  ∃ removedAt, (RouteState.removedAt st key)[p]? = some removedAt ∧
    OlderThan threshold nowMs removedAt

def OnlySwept (stale : PeerId → Prop) (old new : Option PeerSet) : Prop :=
  match old, new with
  | none, none => True
  | some reported, some kept => ∀ q, q ∈ kept ↔ q ∈ reported ∧ ¬ stale q
  | _, _ => False

structure Harmless (st st' : RouteState) (key : GroupKey) (threshold nowMs : Millis) : Prop where
  edges : ∀ p q, p ∈ RouteState.members st key → q ∈ RouteState.members st key →
    ∀ reported, (RouteState.connections st key)[p]? = some reported → q ∈ reported →
      ∃ kept, (RouteState.connections st' key)[p]? = some kept ∧ q ∈ kept
  recent : ∀ (p : PeerId) (removedAt : Millis), (RouteState.removedAt st key)[p]? = some removedAt →
    nowMs.toNat ≤ removedAt.toNat + threshold.toNat →
      (RouteState.removedAt st' key)[p]? = some removedAt ∧
      OnlySwept (Stale st key threshold nowMs) (RouteState.connections st key)[p]?
        (RouteState.connections st' key)[p]?

def Complete (st st' : RouteState) (key : GroupKey) (threshold nowMs : Millis) : Prop :=
  ∀ (p : PeerId) (removedAt : Millis), (RouteState.removedAt st key)[p]? = some removedAt →
    removedAt.toNat + threshold.toNat < nowMs.toNat →
      ¬ Mentions (RouteState.connections st' key) p ∧ p ∉ RouteState.removedAt st' key

section Cleanup
variable {st : RouteState} {key : GroupKey} {seed : GroupSeed} {threshold nowMs : Millis}

theorem mem_stale {p : PeerId} : p ∈ (st.ensureGroup seed key).stalePeers threshold nowMs ↔
    Stale st key threshold nowMs p := by
  rw [mem_stalePeers_olderThan, ensureGroup_removedAt, Stale]

theorem cleanup_connections (st : RouteState) (seed : GroupSeed) (key : GroupKey)
    (threshold nowMs : Millis) :
    RouteState.connections (st.cleanupStalePeerConnections seed key threshold nowMs) key =
      (((st.ensureGroup seed key).stalePeers threshold nowMs).foldl dropStale
        (RouteState.connections st key, RouteState.removedAt st key)).1 := by
  rw [RouteState.cleanupStalePeerConnections, (put_memory st key _).1,
    RouteGroupData.cleanupStalePeerConnections, ensureGroup_links, ensureGroup_removedAt]

theorem cleanup_removedAt (st : RouteState) (seed : GroupSeed) (key : GroupKey)
    (threshold nowMs : Millis) :
    RouteState.removedAt (st.cleanupStalePeerConnections seed key threshold nowMs) key =
      (((st.ensureGroup seed key).stalePeers threshold nowMs).foldl dropStale
        (RouteState.connections st key, RouteState.removedAt st key)).2 := by
  rw [RouteState.cleanupStalePeerConnections, (put_memory st key _).2,
    RouteGroupData.cleanupStalePeerConnections, ensureGroup_links, ensureGroup_removedAt]

theorem cleanup_entry {p : PeerId} (stays : ¬ Stale st key threshold nowMs p) :
    OnlySwept (Stale st key threshold nowMs) (RouteState.connections st key)[p]?
      (RouteState.connections (st.cleanupStalePeerConnections seed key threshold nowMs) key)[p]? := by
  rw [cleanup_connections, dropStale_entry, if_neg (fun listed => stays (mem_stale.mp listed))]
  cases (RouteState.connections st key)[p]? with
  | none => trivial
  | some reported =>
    intro q
    rw [mem_withoutAll, mem_stale]

theorem cleanup_harmless (tended : Tended st key) :
    Harmless st (st.cleanupStalePeerConnections seed key threshold nowMs) key threshold nowMs := by
  have livePeers : ∀ p, p ∈ RouteState.members st key → ¬ Stale st key threshold nowMs p := by
    intro p member stale
    obtain ⟨removedAt, recorded, -⟩ := stale
    apply tended.outside p member
    rw [Std.ExtTreeMap.mem_iff_isSome_getElem?, recorded]
    rfl
  refine ⟨?_, ?_⟩
  · intro p q pMember qMember reported stored listed
    have entry : OnlySwept (Stale st key threshold nowMs) (RouteState.connections st key)[p]?
        (RouteState.connections (st.cleanupStalePeerConnections seed key threshold nowMs)
          key)[p]? := cleanup_entry (livePeers p pMember)
    rw [stored] at entry
    cases after : (RouteState.connections (st.cleanupStalePeerConnections seed key threshold
      nowMs) key)[p]? with
    | none =>
      rw [after] at entry
      exact entry.elim
    | some kept =>
      rw [after] at entry
      exact ⟨kept, rfl, (entry q).mpr ⟨listed, livePeers q qMember⟩⟩
  · intro p removedAt recorded recent
    have stays : ¬ Stale st key threshold nowMs p := by
      intro stale
      obtain ⟨removedAt', recorded', old⟩ := stale
      rw [recorded, Option.some.injEq] at recorded'
      subst recorded'
      unfold OlderThan at old
      omega
    refine ⟨?_, cleanup_entry stays⟩
    rw [cleanup_removedAt, dropStale_removed, if_neg (fun listed => stays (mem_stale.mp listed))]
    exact recorded

theorem cleanup_complete :
    Complete st (st.cleanupStalePeerConnections seed key threshold nowMs) key threshold nowMs := by
  intro p removedAt recorded old
  have stale : p ∈ (st.ensureGroup seed key).stalePeers threshold nowMs :=
    mem_stale.mpr ⟨removedAt, recorded, old⟩
  refine ⟨?_, ?_⟩
  · rw [cleanup_connections]
    exact dropStale_drops stale
  · rw [cleanup_removedAt, Std.ExtTreeMap.mem_iff_isSome_getElem?, dropStale_removed, if_pos stale]
    simp

end Cleanup

/-- After every run in which only members report, each group is tended, and a cleanup of any
    group with any threshold at any time is harmless and complete. -/
theorem edges_are_collectable {x : Externals} {calls : List RouteCall}
    (reports : EveryStep (RouteState.call x) ReportsFromMembers RouteState.new calls)
    (key : GroupKey) (seed : GroupSeed) (threshold nowMs : Millis) :
    let st := RouteState.callAll x RouteState.new calls
    let st' := st.cleanupStalePeerConnections seed key threshold nowMs
    Tended st key ∧ Harmless st st' key threshold nowMs ∧ Complete st st' key threshold nowMs :=
  ⟨run_tended reports key, cleanup_harmless (run_tended reports key), cleanup_complete⟩

/- Peer 5 reports its link to peer 6, and 6 leaves. -/
def linkedThenLeft : List RouteCall :=
  [.addPeer 5, .addPeer 6,
    .updatePeerConnections 5 (wire.encodeSyncRouteInfoRequest
      (linkReport (.connPeerList ⟨[⟨some ⟨5, 0⟩, [6]⟩]⟩))),
    .removePeer 6 1000].map fun op => ⟨"net:aa", (quietEnv 1000 500).seed "net:aa", op⟩

theorem edges_are_collectable_after_a_leave :
    let st := RouteState.callAll wire RouteState.new linkedThenLeft
    let st' := st.cleanupStalePeerConnections ((quietEnv 9000 500).seed "net:aa") "net:aa" 5000 9000
    Tended st "net:aa" ∧ Harmless st st' "net:aa" 5000 9000 ∧ Complete st st' "net:aa" 5000 9000 :=
  edges_are_collectable (by decide) "net:aa" ((quietEnv 9000 500).seed "net:aa") 5000 9000

end RelayEdgeCleanup
