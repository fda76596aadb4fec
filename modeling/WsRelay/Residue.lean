import WsRelay.PeerInfoVersions
import WsRelay.ConnBitmap

/- What a group keeps about ids that are not its members. Joining and leaving clean up; the
   operations that name an id from the outside record it whether it is a member or not. -/
namespace RelayResidue
open RelayProtocol RelayRouteState RelayPeerManager RelayRpcHandler RelayRoomModel RelayRouteOps
open RelayRoomSteps RelayPeerInfoVersions RelayWireFormats TransitionRuns FoldMaps

variable {x : Externals} {g : RouteGroupData} {p : PeerId}

def RouteGroupData.Traces (g : RouteGroupData) (p : PeerId) : Prop :=
  p ∈ g.peerInfos ∨ p ∈ g.sessions ∨ p ∈ g.peerConnVersions

def RouteGroupData.Known (g : RouteGroupData) (p : PeerId) : Prop := p = myPeerId ∨ p ∈ g.peers

def RouteGroupData.Clean (g : RouteGroupData) : Prop :=
  ∀ p, RouteGroupData.Traces g p → RouteGroupData.Known g p

theorem mem_bumpVersions {ids : List PeerId} {versions : PeerMap Version} :
    p ∈ ids.foldl bumpVersion versions ↔ p ∈ ids ∨ p ∈ versions := by
  induction ids generalizing versions with
  | nil => simp
  | cons first rest ih =>
    rw [List.foldl_cons, ih]
    simp only [bumpVersion, Std.ExtTreeMap.mem_insert, Std.LawfulEqCmp.compare_eq_iff_eq,
      List.mem_cons, @eq_comm _ first p]
    rw [← or_assoc, or_comm (a := p ∈ rest)]

theorem traces_bump : RouteGroupData.Traces g.bumpAllConnVersions p ↔
    RouteGroupData.Traces g p ∨ RouteGroupData.Known g p := by
  have versions : p ∈ g.bumpAllConnVersions.peerConnVersions ↔
      p = myPeerId ∨ (p ∈ g.peers ∨ p ∈ g.peerInfos) ∨ p ∈ g.peerConnVersions := by
    simp only [RouteGroupData.bumpAllConnVersions, Std.ExtTreeMap.mem_insert,
      Std.LawfulEqCmp.compare_eq_iff_eq, mem_bumpVersions, Std.ExtTreeSet.mem_toList, mem_bumpedIds,
      @eq_comm _ myPeerId p]
  have kept : g.bumpAllConnVersions.peerInfos = g.peerInfos ∧
      g.bumpAllConnVersions.sessions = g.sessions := ⟨rfl, rfl⟩
  unfold RouteGroupData.Traces RouteGroupData.Known
  rw [versions, kept.1, kept.2]
  constructor
  · intro traced
    rcases traced with info | session | own | (member | info) | version
    · exact Or.inl (Or.inl info)
    · exact Or.inl (Or.inr (Or.inl session))
    · exact Or.inr (Or.inl own)
    · exact Or.inr (Or.inr member)
    · exact Or.inl (Or.inl info)
    · exact Or.inl (Or.inr (Or.inr version))
  · intro traced
    rcases traced with (info | session | version) | own | member
    · exact Or.inl info
    · exact Or.inr (Or.inl session)
    · exact Or.inr (Or.inr (Or.inr (Or.inr version)))
    · exact Or.inr (Or.inr (Or.inl own))
    · exact Or.inr (Or.inr (Or.inr (Or.inl (Or.inl member))))

theorem clean_bump_iff : RouteGroupData.Clean g.bumpAllConnVersions ↔ RouteGroupData.Clean g := by
  have members (q : PeerId) : RouteGroupData.Known g.bumpAllConnVersions q ↔
      RouteGroupData.Known g q := Iff.rfl
  constructor
  · intro clean q traces
    exact (members q).mp (clean q (traces_bump.mpr (Or.inl traces)))
  · intro clean q traces
    rw [members]
    rcases traces_bump.mp traces with before | known
    · exact clean q before
    · exact known

/- The ids that an operation records without looking at the members. -/
def RouteOp.names (x : Externals) : RouteOp → List PeerId
  | .updatePeerInfo p bytes => if (x.decodeRoutePeerInfo bytes).isSome then [p] else []
  | .onRouteSessionAck p _ _ _ => [p]
  | .build _ target _ _ _ => [target]
  | .handleSync p bytes _ => if (x.decodeSyncRouteInfoRequest bytes).isSome then [p] else []
  | _ => []

theorem mem_selectInfos {nowMs : Millis} {myInfo : RoutePeerInfo} {full : Bool}
    (relevant : List PeerId) (acc : InfoSelection) :
    p ∈ (relevant.foldl (selectInfo nowMs myInfo full) acc).peerInfos ↔
      (p ≠ myPeerId ∧ p ∈ relevant) ∨ p ∈ acc.peerInfos := by
  induction relevant generalizing acc with
  | nil => simp
  | cons q rest ih =>
    rw [List.foldl_cons, ih, selectInfo_peerInfos, List.mem_cons]
    split
    · rename_i missing
      simp only [Std.ExtTreeMap.mem_insert, Std.LawfulEqCmp.compare_eq_iff_eq]
      by_cases here : p = q
      · subst here
        simp [missing.1]
      · simp [here, Ne.symm here]
    · rename_i present
      by_cases here : p = q
      · subst here
        simp only [not_and_or, not_not] at present
        tauto
      · simp [here]

theorem mem_insert_target {sessions : PeerMap SessionState} {target : PeerId} {s : SessionState} :
    p ∈ sessions.insert target s ↔ p = target ∨ p ∈ sessions := by
  simp only [Std.ExtTreeMap.mem_insert, Std.LawfulEqCmp.compare_eq_iff_eq, @eq_comm _ target p]

theorem build_sessions {now : Millis} {target : PeerId} {sid : SessionId} {initiator full : Bool} :
    p ∈ (g.buildSyncRouteInfoRequest now target sid initiator full).2.sessions ↔
      p = target ∨ p ∈ g.sessions := by
  have mapped (relevant : List PeerId) (g : RouteGroupData) (inside : target ∈ g.sessions) :
      p ∈ (g.buildConnBitmap relevant target).2.sessions ↔ p ∈ g.sessions := by
    have absorbed (s : SessionState) : p ∈ g.sessions.insert target s ↔ p ∈ g.sessions := by
      rw [mem_insert_target]
      constructor
      · intro found
        rcases found with rfl | old
        · exact inside
        · exact old
      · exact Or.inr
    unfold RouteGroupData.buildConnBitmap
    split
    · rfl
    · simp only
      split
      · exact absorbed _
      · exact absorbed _
  simp only [RouteGroupData.buildSyncRouteInfoRequest, RouteGroupData.nextForeignVersion,
    mem_insert_target]
  rw [mapped]
  · simp only [RouteGroupData.selectInfos, RouteGroupData.touchSession, mem_insert_target]
    rw [or_self_left, or_self_left]
  · simp [RouteGroupData.selectInfos]

theorem build_infos {now : Millis} {target : PeerId} {sid : SessionId} {initiator full : Bool} :
    p ∈ (g.buildSyncRouteInfoRequest now target sid initiator full).2.peerInfos ↔
      (p ≠ myPeerId ∧ p ∈ g.relevantPeers target) ∨ p ∈ g.peerInfos := by
  obtain ⟨sessions, mapped⟩ := buildConnBitmap_frame
    ((g.touchSession target sid now).selectInfos now target full).2 (g.relevantPeers target) target
  simp only [RouteGroupData.buildSyncRouteInfoRequest, RouteGroupData.nextForeignVersion, mapped]
  exact mem_selectInfos _ _

theorem storeItem_mem {now : Millis} {peers : PeerSet} {sender : PeerId}
    (items : List RoutePeerInfo) (infos : PeerMap RoutePeerInfo) :
    (p ∈ infos → p ∈ (items.foldl (storeItem now peers sender) (false, infos)).2) ∧
      (p ∈ (items.foldl (storeItem now peers sender) (false, infos)).2 →
        p ∈ infos ∨ p = sender ∨ p ∈ peers) := by
  simp only [Std.ExtTreeMap.mem_iff_isSome_getElem?, storedItems_info]
  split
  · rename_i connected
    constructor
    · intro stored
      simp [stored]
    · intro _
      rcases connected with member | same
      · exact Or.inr (Or.inr member)
      · exact Or.inr (Or.inl same)
  · exact ⟨id, Or.inl⟩

structure RouteGroupData.Tracks (g g' : RouteGroupData) (named : List PeerId) (p : PeerId) :
    Prop where
  kept : RouteGroupData.Traces g p → RouteGroupData.Traces g' p
  leaves : p ∈ named → RouteGroupData.Traces g' p
  only : RouteGroupData.Traces g' p →
    RouteGroupData.Traces g p ∨ p ∈ named ∨ RouteGroupData.Known g p

theorem tracks_idle {g' : RouteGroupData} (same : g'.peerInfos = g.peerInfos ∧
    g'.sessions = g.sessions ∧ g'.peerConnVersions = g.peerConnVersions) :
    RouteGroupData.Tracks g g' [] p := by
  have traces : RouteGroupData.Traces g' p ↔ RouteGroupData.Traces g p := by
    unfold RouteGroupData.Traces
    rw [same.1, same.2.1, same.2.2]
  exact ⟨traces.mpr, nofun, fun traced => Or.inl (traces.mp traced)⟩

theorem tracks_write {g' : RouteGroupData} {q : PeerId}
    (written : RouteGroupData.Traces g' p ↔ p = q ∨ RouteGroupData.Traces g p) :
    RouteGroupData.Tracks g g' [q] p where
  kept traced := written.mpr (Or.inr traced)
  leaves named := written.mpr (Or.inl (List.mem_singleton.mp named))
  only traced := by
    rcases written.mp traced with here | before
    · exact Or.inr (Or.inl (List.mem_singleton.mpr here))
    · exact Or.inl before

theorem traces_setInfo (q : PeerId) (info : RoutePeerInfo) :
    RouteGroupData.Traces { g with peerInfos := g.peerInfos.insert q info } p ↔
      p = q ∨ RouteGroupData.Traces g p := by
  simp only [RouteGroupData.Traces, Std.ExtTreeMap.mem_insert, Std.LawfulEqCmp.compare_eq_iff_eq,
    @eq_comm _ q p, or_assoc]

theorem traces_setSession (q : PeerId) (s : SessionState) :
    RouteGroupData.Traces { g with sessions := g.sessions.insert q s } p ↔
      p = q ∨ RouteGroupData.Traces g p := by
  simp only [RouteGroupData.Traces, mem_insert_target]
  rw [or_assoc, or_left_comm]

theorem tracks_build (now : Millis) (target : PeerId) (sid : SessionId) (initiator full : Bool) :
    RouteGroupData.Tracks g (g.buildSyncRouteInfoRequest now target sid initiator full).2
      [target] p := by
  have versions : (g.buildSyncRouteInfoRequest now target sid initiator full).2.peerConnVersions =
      g.peerConnVersions := by
    obtain ⟨infos, sessions, frame⟩ := build_frame g now target sid initiator full
    rw [frame]
  constructor
  · intro traced
    rcases traced with info | session | version
    · exact Or.inl (build_infos.mpr (Or.inr info))
    · exact Or.inr (Or.inl (build_sessions.mpr (Or.inr session)))
    · exact Or.inr (Or.inr (by rwa [versions]))
  · intro named
    exact Or.inr (Or.inl (build_sessions.mpr (Or.inl (List.mem_singleton.mp named))))
  · intro traced
    rcases traced with info | session | version
    · rcases build_infos.mp info with ⟨foreign, relevant⟩ | old
      · rcases RelayConnBitmap.mem_relevantPeers.mp relevant with own | named | member
        · exact absurd own foreign
        · exact Or.inr (Or.inl (List.mem_singleton.mpr named))
        · exact Or.inr (Or.inr (Or.inr member))
      · exact Or.inl (Or.inl old)
    · rcases build_sessions.mp session with named | old
      · exact Or.inr (Or.inl (List.mem_singleton.mpr named))
      · exact Or.inl (Or.inr (Or.inl old))
    · rw [versions] at version
      exact Or.inl (Or.inr (Or.inr version))

theorem tracks_store {q : PeerId} {req : SyncRouteInfoRequest} {now : Millis}
    (items : List RoutePeerInfo) : RouteGroupData.Tracks g
      { g.touchFrom q req now with
        peerInfos := (items.foldl (storeItem now g.peers q) (false, g.peerInfos)).2 } [q] p := by
  have touched : p ∈ (g.touchFrom q req now).sessions ↔ p = q ∨ p ∈ g.sessions :=
    mem_insert_target
  obtain ⟨stays, listed⟩ := @storeItem_mem p now g.peers q items g.peerInfos
  constructor
  · intro traced
    rcases traced with info | session | version
    · exact Or.inl (stays info)
    · exact Or.inr (Or.inl (touched.mpr (Or.inr session)))
    · exact Or.inr (Or.inr version)
  · intro named
    exact Or.inr (Or.inl (touched.mpr (Or.inl (List.mem_singleton.mp named))))
  · intro traced
    rcases traced with info | session | version
    · rcases listed info with old | sender | member
      · exact Or.inl (Or.inl old)
      · exact Or.inr (Or.inl (List.mem_singleton.mpr sender))
      · exact Or.inr (Or.inr (Or.inr member))
    · rcases touched.mp session with sender | old
      · exact Or.inr (Or.inl (List.mem_singleton.mpr sender))
      · exact Or.inl (Or.inr (Or.inl old))
    · exact Or.inl (Or.inr (Or.inr version))

/-- An operation that keeps the members keeps every trace, leaves one of each id it names, and
    otherwise only traces members. -/
theorem edit_traces {op : RouteOp} (keeps : op.keepsMembers = true) :
    RouteGroupData.Tracks g (op.edit x g).2 (RouteOp.names x op) p := by
  cases op with
  | addPeer q => cases keeps
  | removePeer q now => cases keeps
  | bumpMyInfoVersion => exact tracks_idle ⟨rfl, rfl, rfl⟩
  | cleanup threshold now => exact tracks_idle ⟨rfl, rfl, rfl⟩
  | setMyInfoField field value =>
    obtain ⟨myInfo, myInfoVersion, kept⟩ := setMyInfoField_frame g field value
    simp only [RouteOp.edit, kept]
    exact tracks_idle ⟨rfl, rfl, rfl⟩
  | updatePeerConnections q bytes =>
    obtain ⟨connections, kept⟩ := editPeerConnections_frame g x q bytes
    rw [kept]
    exact tracks_idle ⟨rfl, rfl, rfl⟩
  | updatePeerInfo q bytes =>
    simp only [RouteOp.edit, RouteOp.names]
    cases x.decodeRoutePeerInfo bytes with
    | none => exact tracks_idle ⟨rfl, rfl, rfl⟩
    | some info =>
      simp only [Option.isSome_some, ↓reduceIte]
      cases stored : g.peerInfos[q]? with
      | none => exact tracks_write (traces_setInfo q info)
      | some old =>
        simp only
        split
        · exact tracks_write (traces_setInfo q info)
        · -- the stored info stays, and is a trace already
          apply tracks_write
          constructor
          · exact Or.inr
          · intro traced
            rcases traced with rfl | before
            · exact Or.inl (Std.ExtTreeMap.mem_iff_isSome_getElem?.mpr (by rw [stored]; rfl))
            · exact before
  | onRouteSessionAck q sid initiator now => exact tracks_write (traces_setSession q _)
  | build now target sid initiator full => exact tracks_build now target sid initiator full
  | handleSync q bytes now =>
    simp only [RouteOp.edit, RouteOp.names]
    cases x.decodeSyncRouteInfoRequest bytes with
    | none => exact tracks_idle ⟨rfl, rfl, rfl⟩
    | some req =>
      simp only [Option.isSome_some, ↓reduceIte]
      cases req.peerInfos with
      | none => exact tracks_write (traces_setSession q _)
      | some infos => exact tracks_store infos.items

theorem clean_edit_iff {op : RouteOp} (keeps : op.keepsMembers = true)
    (clean : RouteGroupData.Clean g) :
    RouteGroupData.Clean (op.onGroup x g) ↔ ∀ p ∈ RouteOp.names x op, RouteGroupData.Known g p := by
  have bumped : RouteGroupData.Clean (op.onGroup x g) ↔ RouteGroupData.Clean (op.edit x g).2 := by
    unfold RouteOp.onGroup
    split
    · exact clean_bump_iff
    · rfl
  have members : (op.edit x g).2.peers = g.peers := by
    rw [(edit_peers_versions g x op).1]
    cases op <;> simp_all [RouteOp.keepsMembers, RouteOp.peersAfter]
  have known (q : PeerId) : RouteGroupData.Known (op.edit x g).2 q ↔ RouteGroupData.Known g q := by
    unfold RouteGroupData.Known
    rw [members]
  rw [bumped]
  constructor
  · intro still q named
    exact (known q).mp (still q ((edit_traces keeps).leaves named))
  · intro allKnown q traces
    rw [known]
    rcases (edit_traces keeps).only traces with before | named | member
    · exact clean q before
    · exact allKnown q named
    · exact member

theorem clean_of_edit {op : RouteOp} (keeps : op.keepsMembers = true)
    (clean : RouteGroupData.Clean (op.onGroup x g)) : RouteGroupData.Clean g := by
  have bumped : RouteGroupData.Clean (op.edit x g).2 := by
    unfold RouteOp.onGroup at clean
    split at clean
    · exact clean_bump_iff.mp clean
    · exact clean
  have members : (op.edit x g).2.peers = g.peers := by
    rw [(edit_peers_versions g x op).1]
    cases op <;> simp_all [RouteOp.keepsMembers, RouteOp.peersAfter]
  intro q traces
  have known := bumped q ((edit_traces (x := x) keeps).kept traces)
  unfold RouteGroupData.Known at known ⊢
  rwa [members] at known

def RouteState.CleanIn (st : RouteState) (key : GroupKey) : Prop :=
  ∀ g, st.groups[key]? = some g → RouteGroupData.Clean g

def RouteState.KnownIn (st : RouteState) (key : GroupKey) (p : PeerId) : Prop :=
  p = myPeerId ∨ p ∈ RouteState.members st key

variable {st : RouteState} {key : GroupKey}

theorem newGroup_clean (seed : GroupSeed) : RouteGroupData.Clean (newGroup seed) := by
  intro q traces
  simp [RouteGroupData.Traces, newGroup] at traces

theorem cleanIn_iff (seed : GroupSeed) :
    RouteState.CleanIn st key ↔ RouteGroupData.Clean (st.ensureGroup seed key) := by
  unfold RouteState.CleanIn RouteState.ensureGroup
  cases st.groups[key]? with
  | none => simp [newGroup_clean]
  | some g => simp

theorem known_ensured (seed : GroupSeed) :
    RouteGroupData.Known (st.ensureGroup seed key) p ↔ RouteState.KnownIn st key p := by
  rw [RouteGroupData.Known, RouteState.KnownIn, ensureGroup_peers]

theorem cleanIn_call (c : RouteCall) :
    RouteState.CleanIn (RouteState.call x st c) key ↔
      if c.groupKey = key then RouteGroupData.Clean (c.op.onGroup x (st.ensureGroup c.seed key))
      else RouteState.CleanIn st key := by
  rcases call_groups x st c with ⟨same, idle⟩ | put
  · rw [same, idle, ← cleanIn_iff, ite_self]
  · by_cases named : c.groupKey = key
    · subst named
      rw [put, cleanIn_iff c.seed, ensureGroup_put_self]
      simp only [↓reduceIte]
    · rw [put]
      simp only [RouteState.CleanIn, groups_put_ne _ _ named, named, ↓reduceIte]

/- The ids that a call on this group records. -/
def RouteCall.namesIn (x : Externals) (key : GroupKey) (c : RouteCall) : List PeerId :=
  if c.groupKey = key then RouteOp.names x c.op else []

theorem cleanIn_call_iff {c : RouteCall} (keeps : c.op.keepsMembers = true)
    (clean : RouteState.CleanIn st key) :
    RouteState.CleanIn (RouteState.call x st c) key ↔
      ∀ p ∈ RouteCall.namesIn x key c, RouteState.KnownIn st key p := by
  rw [cleanIn_call]
  unfold RouteCall.namesIn
  by_cases named : c.groupKey = key
  · simp only [named, ↓reduceIte, clean_edit_iff keeps ((cleanIn_iff c.seed).mp clean),
      known_ensured]
  · simp [named, clean]

theorem cleanIn_single_iff {c : RouteCall} {p : PeerId} (keeps : c.op.keepsMembers = true)
    (single : RouteOp.names x c.op = [p]) (clean : RouteState.CleanIn st key) :
    RouteState.CleanIn (RouteState.call x st c) key ↔
      (c.groupKey = key → RouteState.KnownIn st key p) := by
  rw [cleanIn_call_iff keeps clean, RouteCall.namesIn, single]
  by_cases named : c.groupKey = key
  · simp [named]
  · simp [named]

theorem cleanIn_of_call {c : RouteCall} (keeps : c.op.keepsMembers = true)
    (clean : RouteState.CleanIn (RouteState.call x st c) key) : RouteState.CleanIn st key := by
  rw [cleanIn_call] at clean
  split at clean
  · exact (cleanIn_iff c.seed).mpr (clean_of_edit keeps clean)
  · exact clean

/-- Calls that keep the members leave a group clean exactly if they only name members: what one
    of them records, no later one takes back. -/
theorem cleanIn_callAll_iff {calls : List RouteCall}
    (keep : ∀ c ∈ calls, c.op.keepsMembers = true) (clean : RouteState.CleanIn st key) :
    RouteState.CleanIn (RouteState.callAll x st calls) key ↔
      ∀ c ∈ calls, ∀ p ∈ RouteCall.namesIn x key c, RouteState.KnownIn st key p := by
  have lost (calls : List RouteCall) (keep : ∀ c ∈ calls, c.op.keepsMembers = true)
      (st : RouteState) (final : RouteState.CleanIn (RouteState.callAll x st calls) key) :
      RouteState.CleanIn st key := by
    induction calls generalizing st with
    | nil => exact final
    | cons c rest ih =>
      exact cleanIn_of_call (keep c (by simp)) (ih (fun d listed => keep d (by simp [listed])) _ final)
  induction calls generalizing st with
  | nil => simpa [RouteState.callAll] using clean
  | cons c rest ih =>
    have keepRest : ∀ d ∈ rest, d.op.keepsMembers = true := fun d listed => keep d (by simp [listed])
    have first := cleanIn_call_iff (x := x) (keep c (by simp)) clean
    have members (q : PeerId) : RouteState.KnownIn (RouteState.call x st c) key q ↔
        RouteState.KnownIn st key q := by
      have called : Reaches x KeepsMembers st (RouteState.call x st c) :=
        Reaches.call (keep c (by simp))
      rw [RouteState.KnownIn, RouteState.KnownIn, members_reaches called]
    simp only [RouteState.callAll, run_cons, List.forall_mem_cons] at lost ih ⊢
    constructor
    · intro final
      have middle := lost rest keepRest _ final
      refine ⟨first.mp middle, ?_⟩
      simpa only [members] using (ih keepRest middle).mp final
    · rintro ⟨here, later⟩
      have middle := first.mpr here
      apply (ih keepRest middle).mpr
      simpa only [members] using later

/- Joining and leaving always leave the group clean. -/
theorem cleanIn_join {c : RouteCall} {p : PeerId} (joins : c.op = .addPeer p)
    (clean : RouteState.CleanIn st key) : RouteState.CleanIn (RouteState.call x st c) key := by
  rw [cleanIn_call]
  split
  · rw [joins]
    set g := st.ensureGroup c.seed key
    have before : RouteGroupData.Clean g := (cleanIn_iff c.seed).mp clean
    have joined : RouteGroupData.Clean { g with
        peers := g.peers.insert p, peerRemovedAt := g.peerRemovedAt.erase p } := by
      intro q traces
      rcases before q traces with own | member
      · exact Or.inl own
      · right
        rw [Std.ExtTreeSet.mem_insert]
        exact Or.inr member
    unfold RouteOp.onGroup
    split
    · exact clean_bump_iff.mpr joined
    · exact joined
  · exact clean

theorem cleanIn_leave {c : RouteCall} {p : PeerId} {now : Millis} (leaves : c.op = .removePeer p now)
    (clean : RouteState.CleanIn st key) : RouteState.CleanIn (RouteState.call x st c) key := by
  rw [cleanIn_call]
  split
  · rw [leaves]
    set g := st.ensureGroup c.seed key
    have before : RouteGroupData.Clean g := (cleanIn_iff c.seed).mp clean
    have left : RouteGroupData.Clean ((RouteOp.removePeer p now).edit x g).2 := by
      intro q traces
      simp only [RouteGroupData.Traces, RouteOp.edit, Std.ExtTreeMap.mem_erase,
        Std.LawfulEqCmp.compare_eq_iff_eq, ← and_or_left, ne_eq] at traces
      rcases before q traces.2 with own | member
      · exact Or.inl own
      · right
        simp only [RouteOp.edit, Std.ExtTreeSet.mem_erase, Std.LawfulEqCmp.compare_eq_iff_eq,
          ne_eq]
        exact ⟨traces.1, member⟩
    unfold RouteOp.onGroup
    split
    · exact clean_bump_iff.mpr left
    · exact left
  · exact clean

inductive GroupEvent where
  | handshake (a : Ambient) (groupKey : GroupKey) (peerId : PeerId)
  | request (a : Ambient) (ctx : WsPeerContext) (packet : RpcPacket) (innerReqBody : Bytes)
  | response (a : Ambient) (ctx : WsPeerContext) (headerFromPeerId : PeerId) (payload : Bytes)
  | build (a : Ambient) (ctx : WsPeerContext) (targetPeerId : PeerId) (forceFull : Bool)
  | removal (a : Ambient) (ctx : WsPeerContext)

def PeerManager.welcome (x : Externals) (pm : PeerManager) (a : Ambient) (groupKey : GroupKey)
    (peerId : PeerId) : PeerManager :=
  let added := pm.addPeer a.seed groupKey peerId
  let informed := (added.updatePeerInfo x a.seed groupKey peerId
    (x.encodeRoutePeerInfo (handshakeInfo a.nowMs peerId))).2
  informed.bumpMyInfoVersion a.seed groupKey

theorem registerPeer_manager (x : Externals) (env : Env) (r : Relay) (groupKey : GroupKey)
    (peerId : PeerId) (index : Nat) :
    (r.registerPeer x env groupKey peerId).global.peerManager =
      PeerManager.welcome x r.global.peerManager (env.ambient groupKey index) groupKey peerId := rfl

def PeerManager.step (x : Externals) (pm : PeerManager) : GroupEvent → PeerManager
  | .handshake a groupKey p => PeerManager.welcome x pm a groupKey p
  | .request a ctx packet body => (handleSyncRouteInfo x a ctx pm packet body ctx.groupKey).2.2
  | .response a ctx headerFrom payload => (handleRpcResp x a ctx pm headerFrom payload).2
  | .build a ctx target full => (pm.buildRouteUpdate x a ctx target full).2
  | .removal a ctx => (pm.removePeer a.seed ctx a.nowMs).2

def itemCalls (x : Externals) (a : Ambient) (groupKey : GroupKey) (items : List RoutePeerInfo) :
    List RouteCall :=
  items.map fun info =>
    ⟨groupKey, a.seed, .updatePeerInfo info.peerId (x.encodeRoutePeerInfo info)⟩

def listedItems (req : SyncRouteInfoRequest) : List RoutePeerInfo :=
  (req.peerInfos.map (·.items)).getD []

def applyCalls (x : Externals) (a : Ambient) (ctx : WsPeerContext) (body : Bytes) :
    List RouteCall :=
  match x.decodeSyncRouteInfoRequest body with
  | none => []
  | some req =>
    [⟨ctx.groupKey, a.seed,
      .onRouteSessionAck ctx.peerId req.mySessionId (!req.isInitiator) a.nowMs⟩] ++
    itemCalls x a ctx.groupKey (listedItems req) ++
    [⟨ctx.groupKey, a.seed, .updatePeerConnections ctx.peerId body⟩]

def requestCalls (x : Externals) (a : Ambient) (ctx : WsPeerContext) (body : Bytes) :
    List RouteCall :=
  applyCalls x a ctx body ++ [⟨ctx.groupKey, a.seed, .handleSync ctx.peerId body a.nowMs⟩]

theorem processItems_calls (x : Externals) (a : Ambient) (groupKey : GroupKey)
    (items : List RoutePeerInfo) (acc : Bool × PeerManager) :
    (items.foldl (processItem x a.seed groupKey) acc).2.routeState =
      RouteState.callAll x acc.2.routeState (itemCalls x a groupKey items) := by
  induction items generalizing acc with
  | nil => rfl
  | cons info rest ih =>
    rw [List.foldl_cons, ih]
    rfl

theorem processIncomingPeerInfos_calls (x : Externals) (a : Ambient) (groupKey : GroupKey)
    (pm : PeerManager) {body : Bytes} {req : SyncRouteInfoRequest}
    (decoded : x.decodeSyncRouteInfoRequest body = some req) :
    (pm.processIncomingPeerInfos x a.seed groupKey body).2.routeState =
      RouteState.callAll x pm.routeState (itemCalls x a groupKey (listedItems req)) := by
  simp only [PeerManager.processIncomingPeerInfos, decoded, listedItems]
  cases req.peerInfos with
  | none => rfl
  | some infos => exact processItems_calls x a groupKey infos.items (false, pm)

theorem applySyncRequest_calls (x : Externals) (a : Ambient) (ctx : WsPeerContext)
    (pm : PeerManager) (body : Bytes) :
    (applySyncRequest x a (withSession a ctx) pm body ctx.groupKey).2.2.routeState =
      RouteState.callAll x pm.routeState (applyCalls x a ctx body) := by
  unfold applySyncRequest applyCalls
  cases decoded : x.decodeSyncRouteInfoRequest body with
  | none => rfl
  | some req =>
    have informed := processIncomingPeerInfos_calls x a ctx.groupKey
      (pm.onRouteSessionAck a.seed ctx.groupKey ctx.peerId req.mySessionId (!req.isInitiator)
        a.nowMs) decoded
    simp only [withSession_peerId, PeerManager.processIncomingConnInfo, informed,
      RouteState.callAll, run_append, run_cons, run_nil]
    rfl

theorem request_calls (x : Externals) (a : Ambient) (ctx : WsPeerContext) (pm : PeerManager)
    (packet : RpcPacket) (body : Bytes) :
    (handleSyncRouteInfo x a ctx pm packet body ctx.groupKey).2.2.routeState =
      RouteState.callAll x pm.routeState (requestCalls x a ctx body) := by
  rw [handleSyncRouteInfo_routes, applySyncRequest_calls]
  unfold requestCalls RouteState.callAll
  rw [run_append]
  rfl

theorem requestCalls_cases {x : Externals} {a : Ambient} {ctx : WsPeerContext} {body : Bytes}
    {c : RouteCall} (listed : c ∈ requestCalls x a ctx body) :
    ∃ op, c = ⟨ctx.groupKey, a.seed, op⟩ ∧
      ((∃ sid initiator, op = .onRouteSessionAck ctx.peerId sid initiator a.nowMs) ∨
        (∃ info, op = .updatePeerInfo info.peerId (x.encodeRoutePeerInfo info)) ∨
        op = .updatePeerConnections ctx.peerId body ∨ op = .handleSync ctx.peerId body a.nowMs) := by
  unfold requestCalls applyCalls itemCalls at listed
  split at listed
  · simp only [List.nil_append, List.mem_singleton] at listed
    exact ⟨_, listed, by simp⟩
  · simp only [List.mem_append, List.mem_map, List.mem_singleton] at listed
    rcases listed with ((ack | ⟨info, -, item⟩) | connInfo) | answer
    · exact ⟨_, ack, by simp⟩
    · exact ⟨_, item.symm, Or.inr (Or.inl ⟨info, rfl⟩)⟩
    · exact ⟨_, connInfo, by simp⟩
    · exact ⟨_, answer, by simp⟩

theorem mem_requestCalls {x : Externals} {a : Ambient} {ctx : WsPeerContext} {body : Bytes}
    {c : RouteCall} (listed : c ∈ requestCalls x a ctx body) :
    c.groupKey = ctx.groupKey ∧ c.op.keepsMembers = true := by
  obtain ⟨op, rfl, ⟨sid, initiator, rfl⟩ | ⟨info, rfl⟩ | rfl | rfl⟩ := requestCalls_cases listed
  · exact ⟨rfl, rfl⟩
  · exact ⟨rfl, rfl⟩
  · exact ⟨rfl, rfl⟩
  · exact ⟨rfl, rfl⟩

/- The ids that an event brings in from the outside; the source checks none of them. -/
def GroupEvent.names (x : Externals) : GroupEvent → List PeerId
  | .request _ ctx _ body =>
    match x.decodeSyncRouteInfoRequest body with
    | none => []
    | some req => ctx.peerId :: ((listedItems req).filter fun info =>
        (x.decodeRoutePeerInfo (x.encodeRoutePeerInfo info)).isSome).map (·.peerId)
  | .response _ _ headerFrom payload => if (ackedSession x payload).isSome then [headerFrom] else []
  | .build _ _ target _ => [target]
  | _ => []

def GroupEvent.groupKey : GroupEvent → GroupKey
  | .handshake _ groupKey _ => groupKey
  | .request _ ctx _ _ => ctx.groupKey
  | .response _ ctx _ _ => ctx.groupKey
  | .build _ ctx _ _ => ctx.groupKey
  | .removal _ ctx => ctx.groupKey

/- Every id that the event brings into the group is the relay's or a member's. -/
def NamesMembers (x : Externals) (key : GroupKey) (pm : PeerManager) (e : GroupEvent) : Prop :=
  GroupEvent.groupKey e = key →
    ∀ p ∈ GroupEvent.names x e, RouteState.KnownIn pm.routeState key p

theorem requestCalls_names (x : Externals) (a : Ambient) (ctx : WsPeerContext) (packet : RpcPacket)
    (body : Bytes) (key : GroupKey) (p : PeerId) :
    (∃ c ∈ requestCalls x a ctx body, p ∈ RouteCall.namesIn x key c) ↔
      ctx.groupKey = key ∧ p ∈ GroupEvent.names x (.request a ctx packet body) := by
  by_cases named : ctx.groupKey = key
  · unfold requestCalls applyCalls itemCalls
    cases decoded : x.decodeSyncRouteInfoRequest body with
    | none => simp [RouteCall.namesIn, RouteOp.names, GroupEvent.names, decoded]
    | some req =>
      simp only [RouteCall.namesIn, named, GroupEvent.names, decoded, true_and,
        List.mem_append, List.mem_cons, List.mem_map, List.mem_filter, List.not_mem_nil, or_false]
      constructor
      · -- the ack, an item, the conn_info and the answer
        rintro ⟨c, ((rfl | ⟨info, listed, rfl⟩) | rfl) | rfl, mentioned⟩
        · left
          simpa [RouteOp.names] using mentioned
        · right
          simp only [RouteOp.names, ↓reduceIte, List.mem_ite_nil_right,
            List.mem_singleton] at mentioned
          exact ⟨info, ⟨listed, mentioned.1⟩, mentioned.2.symm⟩
        · simp [RouteOp.names] at mentioned
        · left
          simpa [RouteOp.names, decoded, named] using mentioned
      · intro mentioned
        rcases mentioned with rfl | ⟨info, ⟨listed, readable⟩, rfl⟩
        · refine ⟨_, Or.inl (Or.inl (Or.inl rfl)), ?_⟩
          simp [RouteOp.names]
        · refine ⟨_, Or.inl (Or.inl (Or.inr ⟨info, listed, rfl⟩)), ?_⟩
          simp [RouteOp.names, readable]
  · constructor
    · rintro ⟨c, listed, mentioned⟩
      rw [RouteCall.namesIn, (mem_requestCalls listed).1, if_neg named] at mentioned
      cases mentioned
    · intro inside
      exact absurd inside.1 named

theorem cleanIn_handshake {x : Externals} {pm : PeerManager} {key : GroupKey} (a : Ambient)
    (groupKey : GroupKey) (p : PeerId) (clean : RouteState.CleanIn pm.routeState key) :
    RouteState.CleanIn (PeerManager.step x pm (.handshake a groupKey p)).routeState key := by
  have joined : RouteState.CleanIn (RouteState.call x pm.routeState
      ⟨groupKey, a.seed, .addPeer p⟩) key := cleanIn_join rfl clean
  have enrolled : groupKey = key → p ∈ RouteState.members (RouteState.call x pm.routeState
      ⟨groupKey, a.seed, .addPeer p⟩) key := by
    intro named
    simp [members_call, named, RouteOp.peersAfter]
  set calls : List RouteCall := [⟨groupKey, a.seed, .bumpMyInfoVersion⟩,
    ⟨groupKey, a.seed, .updatePeerInfo p (x.encodeRoutePeerInfo (handshakeInfo a.nowMs p))⟩,
    ⟨groupKey, a.seed, .bumpMyInfoVersion⟩] with callsDef
  have later : (PeerManager.step x pm (.handshake a groupKey p)).routeState =
      RouteState.callAll x (RouteState.call x pm.routeState ⟨groupKey, a.seed, .addPeer p⟩)
        calls := rfl
  rw [later, cleanIn_callAll_iff (by simp [callsDef, RouteOp.keepsMembers]) joined]
  intro c listed q mentioned
  unfold RouteCall.namesIn at mentioned
  simp only [List.mem_ite_nil_right] at mentioned
  simp only [callsDef, List.mem_cons, List.not_mem_nil, or_false] at listed
  rcases listed with rfl | rfl | rfl
  · cases mentioned.2
  · obtain ⟨named, stub⟩ := mentioned
    simp only [RouteOp.names, List.mem_ite_nil_right, List.mem_singleton] at stub
    exact Or.inr (stub.2 ▸ enrolled named)
  · cases mentioned.2

/-- One event. -/
theorem cleanIn_step_iff {x : Externals} {pm : PeerManager} {e : GroupEvent} {key : GroupKey}
    (clean : RouteState.CleanIn pm.routeState key) :
    RouteState.CleanIn (PeerManager.step x pm e).routeState key ↔ NamesMembers x key pm e := by
  cases e with
  | handshake a groupKey p =>
    have calm : NamesMembers x key pm (.handshake a groupKey p) := by
      intro _ q mentioned
      cases mentioned
    exact iff_of_true (cleanIn_handshake a groupKey p clean) calm
  | request a ctx packet body =>
    have calls : (PeerManager.step x pm (.request a ctx packet body)).routeState =
        RouteState.callAll x pm.routeState (requestCalls x a ctx body) :=
      request_calls x a ctx pm packet body
    rw [calls, cleanIn_callAll_iff (fun c listed => (mem_requestCalls listed).2) clean]
    constructor
    · intro all named p mentioned
      obtain ⟨c, listed, inside⟩ :=
        (requestCalls_names x a ctx packet body key p).mpr ⟨named, mentioned⟩
      exact all c listed p inside
    · intro names c listed p inside
      obtain ⟨named, mentioned⟩ :=
        (requestCalls_names x a ctx packet body key p).mp ⟨c, listed, inside⟩
      exact names named p mentioned
  | response a ctx headerFrom payload =>
    simp only [PeerManager.step, handleRpcResp_eq, NamesMembers, GroupEvent.names,
      GroupEvent.groupKey]
    cases ackedSession x payload with
    | none => simpa using clean
    | some sid =>
      simp only [Option.isSome_some, ↓reduceIte, List.mem_singleton, forall_eq]
      exact cleanIn_single_iff (x := x) (c := ⟨ctx.groupKey, a.seed,
        .onRouteSessionAck headerFrom sid ctx.weAreInitiator a.nowMs⟩) rfl rfl clean
  | build a ctx target full =>
    simp only [NamesMembers, GroupEvent.names, GroupEvent.groupKey, List.mem_singleton, forall_eq]
    exact cleanIn_single_iff (x := x) (c := ⟨ctx.groupKey, a.seed, .build a.nowMs target
      ((parseU64 ctx.serverSessionId).getD 0) ctx.weAreInitiator full⟩) rfl rfl clean
  | removal a ctx =>
    have calm : NamesMembers x key pm (.removal a ctx) := by
      intro _ q mentioned
      cases mentioned
    refine iff_of_true ?_ calm
    simp only [PeerManager.step, PeerManager.removePeer]
    split
    · exact clean
    · exact cleanIn_leave (x := x) (c := ⟨ctx.groupKey, a.seed, .removePeer ctx.peerId a.nowMs⟩)
        rfl clean

/-- No residue: every state of a run keeps the group clean exactly if every request, response
    and build of the run names members only. -/
theorem no_residue_iff (x : Externals) (key : GroupKey) (events : List GroupEvent) :
    (∀ before after, events = before ++ after →
      RouteState.CleanIn (run (PeerManager.step x) PeerManager.new before).routeState key) ↔
    EveryStep (PeerManager.step x) (NamesMembers x key) PeerManager.new events := by
  have empty : RouteState.CleanIn PeerManager.new.routeState key := by
    intro g stored
    simp [PeerManager.new, RouteState.new] at stored
  have exactly : ∀ pm e, RouteState.CleanIn (PeerManager.routeState pm) key →
      (RouteState.CleanIn (PeerManager.step x pm e).routeState key ↔ NamesMembers x key pm e) :=
    fun pm e clean => cleanIn_step_iff clean
  exact @invariant_iff _ _ _ _ (fun pm => RouteState.CleanIn (PeerManager.routeState pm) key) _
    events empty exactly

/- Peer 9 leaves, and then peer 5 still lists it. -/
def lateGossip : List GroupEvent :=
  let a : Ambient := ⟨1000, ⟨⟨0, 0, 0, 0⟩, 0⟩, 7⟩
  let ctx (p : PeerId) : WsPeerContext := ⟨p, "net:aa", "net", "1", false⟩
  let packet : RpcPacket :=
    { fromPeer := 5, toPeer := myPeerId, transactionId := 1, traceId := 0, isRequest := true,
      totalPieces := 1, pieceIdx := 0, compressionInfo := none, descriptor := none, body := [] }
  let req : SyncRouteInfoRequest :=
    { myPeerId := 5, mySessionId := 1, isInitiator := true, connInfo := none,
      foreignNetworkInfos := none, peerInfos := some ⟨[{ peerId := 9, version := 3 }]⟩ }
  [.handshake a "net:aa" 5, .handshake a "net:aa" 9, .removal a (ctx 9),
    .request a (ctx 5) packet (wire.encodeSyncRouteInfoRequest req)]

set_option maxRecDepth 8000 in
theorem removed_peer_is_back :
    ¬ RouteState.CleanIn (run (PeerManager.step wire) PeerManager.new lateGossip).routeState
      "net:aa" := by
  intro clean
  have ensured := (cleanIn_iff ⟨⟨0, 0, 0, 0⟩, 0⟩).mp clean
  have stored : RouteGroupData.Traces ((run (PeerManager.step wire) PeerManager.new
      lateGossip).routeState.ensureGroup ⟨⟨0, 0, 0, 0⟩, 0⟩ "net:aa") 9 := Or.inl (by decide)
  rcases ensured 9 stored with own | member
  · exact absurd own (by decide)
  · exact absurd member (by decide)

end RelayResidue
