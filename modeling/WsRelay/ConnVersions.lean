import WsRelay.ConnBitmap
import WsRelay.WireFormats

/- The connection versions that bitmaps announce, over runs of route operations. They only
   fall where leaving erases a recorded version or where a bump wraps around 2^32. -/
namespace RelayConnVersions
open RelayProtocol RelayRouteState RelayRouteOps RelayConnBitmap RelayWireFormats TransitionRuns

/-- get_peer_conn_version reads the version a build would announce; an absent group reads as
    a new one. -/
theorem getPeerConnVersion_eq (st : RouteState) (seed : GroupSeed) (key : GroupKey) (p : PeerId) :
    st.getPeerConnVersion key p = RouteGroupData.connVersion (st.ensureGroup seed key) p := by
  unfold RouteState.getPeerConnVersion RouteState.ensureGroup RouteGroupData.connVersion
  cases stored : st.groups[key]? with
  | none => simp [newGroup]
  | some g => simp [Std.ExtTreeMap.getD_eq_getD_getElem?]

theorem getPeerConnVersion_put_self (st : RouteState) (key : GroupKey) (g : RouteGroupData)
    (p : PeerId) : (st.put key g).getPeerConnVersion key p = RouteGroupData.connVersion g p := by
  simp [RouteState.getPeerConnVersion, RouteState.put, RouteGroupData.connVersion,
    Std.ExtTreeMap.getD_eq_getD_getElem?]

theorem getPeerConnVersion_put_ne (st : RouteState) {key other : GroupKey} (g : RouteGroupData)
    (different : key ≠ other) (p : PeerId) :
    (st.put key g).getPeerConnVersion other p = st.getPeerConnVersion other p := by
  unfold RouteState.getPeerConnVersion
  rw [groups_put_ne st g different]

theorem getPeerConnVersion_call (x : Externals) (st : RouteState) (c : RouteCall) (key : GroupKey)
    (p : PeerId) :
    (RouteState.call x st c).getPeerConnVersion key p =
      if c.groupKey = key
      then RouteGroupData.connVersion (c.op.onGroup x (st.ensureGroup c.seed key)) p
      else st.getPeerConnVersion key p := by
  rcases call_groups x st c with ⟨same, idle⟩ | put
  · rw [same, idle, ← getPeerConnVersion_eq, ite_self]
  · rw [put]
    by_cases named : c.groupKey = key
    · subst named
      rw [getPeerConnVersion_put_self, if_pos rfl]
    · rw [getPeerConnVersion_put_ne _ _ named, if_neg named]

/- The bitmap that a call emits, when it is a build that does not withhold it. -/
def RouteState.emitted (st : RouteState) (c : RouteCall) : Option RouteConnBitmap :=
  match c.op with
  | .build now target sid initiator full =>
    match (st.buildSyncRouteInfoRequest c.seed now c.groupKey target sid initiator full).1.connInfo with
    | some (.connBitmap bitmap) => some bitmap
    | _ => none
  | _ => none

theorem connBitmap_version {g : RouteGroupData} {relevant : List PeerId} {pv : PeerIdVersion}
    (listed : pv ∈ (g.connBitmap relevant).peerIds) :
    pv.version = RouteGroupData.connVersion g pv.peerId := by
  simp only [RouteGroupData.connBitmap, List.mem_map] at listed
  obtain ⟨p, -, rfl⟩ := listed
  rfl

/-- An emitted bitmap announces, for each id it lists, the version on record. -/
theorem emitted_version {st : RouteState} {c : RouteCall} {bitmap : RouteConnBitmap}
    (emits : RouteState.emitted st c = some bitmap) {pv : PeerIdVersion}
    (listed : pv ∈ bitmap.peerIds) :
    pv.version = st.getPeerConnVersion c.groupKey pv.peerId := by
  obtain ⟨key, seed, op⟩ := c
  cases op with
  | build now target sid initiator full =>
    have built := (build_spec (st.ensureGroup seed key) now target sid initiator full).1
    simp only [RouteState.emitted, RouteState.buildSyncRouteInfoRequest, built] at emits
    split at emits
    · rename_i sent
      obtain ⟨-, full⟩ := (Option.ite_none_left_eq_some ..).mp sent
      cases full
      cases emits
      rw [getPeerConnVersion_eq st seed]
      exact connBitmap_version listed
    · cases emits
  | _ => simp [RouteState.emitted] at emits

def NoWrap (g : RouteGroupData) : Prop :=
  ∀ p, (RouteGroupData.connVersion g p).toNat + (RouteGroupData.bumpsOf g p).toNat < 2 ^ 32

def KeepsVersions (x : Externals) (g : RouteGroupData) (op : RouteOp) : Prop :=
  (match op with
    | .removePeer p _ => p ∉ g.peerConnVersions
    | _ => True) ∧
  ((op.edit x g).1 = true → NoWrap (op.edit x g).2)

def KeepsVersionsCall (x : Externals) (st : RouteState) (c : RouteCall) : Prop :=
  KeepsVersions x (st.ensureGroup c.seed c.groupKey) c.op

theorem bumpsOf_le_two (g : RouteGroupData) (p : PeerId) :
    (RouteGroupData.bumpsOf g p).toNat ≤ 2 := by
  unfold RouteGroupData.bumpsOf
  split <;> split <;> decide

theorem noWrap_of_small {g : RouteGroupData}
    (small : g.peerConnVersions.toList.all fun entry => entry.2.toNat < 2 ^ 32 - 2) :
    NoWrap g := by
  rw [List.all_eq_true] at small
  intro p
  have bumps := bumpsOf_le_two g p
  unfold RouteGroupData.connVersion
  rw [Std.ExtTreeMap.getD_eq_getD_getElem?]
  cases recorded : g.peerConnVersions[p]? with
  | none =>
    simp only [Option.getD_none, UInt32.toNat_one]
    omega
  | some v =>
    have listed := small (p, v) (Std.ExtTreeMap.mem_toList_iff_getElem?_eq_some.mpr recorded)
    simp only [decide_eq_true_eq] at listed
    simp only [Option.getD_some]
    omega

theorem bump_le {g : RouteGroupData} (room : NoWrap g) (p : PeerId) :
    RouteGroupData.connVersion g p ≤ RouteGroupData.connVersion g.bumpAllConnVersions p := by
  have bound := room p
  rw [connVersion_bump, UInt32.le_iff_toNat_le, UInt32.toNat_add, Nat.mod_eq_of_lt bound]
  omega

theorem connVersion_edit (x : Externals) (g : RouteGroupData) (op : RouteOp) (p : PeerId) :
    RouteGroupData.connVersion (op.edit x g).2 p =
      (op.versionsAfter g.peerConnVersions).getD p 1 := by
  rw [RouteGroupData.connVersion, (edit_peers_versions g x op).2]

theorem connVersion_edit_kept {x : Externals} {g : RouteGroupData} {op : RouteOp}
    (keeps : KeepsVersions x g op) (p : PeerId) :
    RouteGroupData.connVersion (op.edit x g).2 p = RouteGroupData.connVersion g p := by
  rw [connVersion_edit]
  cases op with
  | removePeer q now =>
    have unrecorded : q ∉ g.peerConnVersions := keeps.1
    have same : g.peerConnVersions.erase q = g.peerConnVersions := by
      apply Std.ExtTreeMap.ext_getElem?
      intro k
      by_cases erased : q = k
      · subst erased
        simp [unrecorded]
      · simp [Std.ExtTreeMap.getElem?_erase, erased]
    simp only [RouteOp.versionsAfter, same, RouteGroupData.connVersion]
  | _ => rfl

/-- One operation that keeps versions raises none of them below its old value. -/
theorem onGroup_version_le {x : Externals} {g : RouteGroupData} {op : RouteOp}
    (keeps : KeepsVersions x g op) (p : PeerId) :
    RouteGroupData.connVersion g p ≤ RouteGroupData.connVersion (op.onGroup x g) p := by
  rw [← connVersion_edit_kept keeps p]
  unfold RouteOp.onGroup
  split
  · rename_i bumps
    exact bump_le (keeps.2 bumps) p
  · exact UInt32.le_refl _

theorem call_version_le {x : Externals} {st : RouteState} {c : RouteCall}
    (keeps : KeepsVersionsCall x st c) (key : GroupKey) (p : PeerId) :
    st.getPeerConnVersion key p ≤ (RouteState.call x st c).getPeerConnVersion key p := by
  rw [getPeerConnVersion_call]
  split
  · rename_i named
    subst named
    rw [getPeerConnVersion_eq st c.seed]
    exact onGroup_version_le keeps p
  · exact UInt32.le_refl _

theorem run_version_le {x : Externals} {st : RouteState} {calls : List RouteCall}
    (keeps : EveryStep (RouteState.call x) (KeepsVersionsCall x) st calls) (key : GroupKey)
    (p : PeerId) :
    st.getPeerConnVersion key p ≤ (RouteState.callAll x st calls).getPeerConnVersion key p :=
  relation_run (fun _ => True) (fun a b => a.getPeerConnVersion key p ≤ b.getPeerConnVersion key p)
    (fun _ => UInt32.le_refl _) UInt32.le_trans (fun _ _ _ _ => trivial)
    (fun _ _ safe _ => call_version_le safe key p) trivial keeps

/-- In a run, a later bitmap of a group announces no smaller version than an earlier one, for
    any id that both list. -/
def VersionsNeverFall (x : Externals) (st : RouteState) (calls : List RouteCall) : Prop :=
  ∀ before between after : List RouteCall, ∀ first second : RouteCall,
    calls = before ++ first :: between ++ second :: after →
    first.groupKey = second.groupKey →
    ∀ early late : RouteConnBitmap,
      RouteState.emitted (RouteState.callAll x st before) first = some early →
      RouteState.emitted (RouteState.callAll x st (before ++ first :: between)) second = some late →
      ∀ p v w, ⟨p, v⟩ ∈ early.peerIds → ⟨p, w⟩ ∈ late.peerIds → v ≤ w

theorem versions_never_fall {x : Externals} {st : RouteState} {calls : List RouteCall}
    (keeps : EveryStep (RouteState.call x) (KeepsVersionsCall x) st calls) :
    VersionsNeverFall x st calls := by
  intro before between after first second split sameGroup early late emitsEarly emitsLate p v w
    listedEarly listedLate
  rw [split, List.append_assoc, List.cons_append] at keeps
  have fromFirst := ((everyStep_append _ before _).mp keeps).2
  have inBetween : EveryStep (RouteState.call x) (KeepsVersionsCall x)
      (RouteState.callAll x st before) (first :: between) := by
    rw [← List.cons_append] at fromFirst
    exact ((everyStep_append _ (first :: between) _).mp fromFirst).1
  have mono := run_version_le inBetween first.groupKey p
  have readEarly : v = (RouteState.callAll x st before).getPeerConnVersion first.groupKey p :=
    emitted_version emitsEarly listedEarly
  have readLate : w = (RouteState.callAll x st (before ++ first :: between)).getPeerConnVersion
      second.groupKey p := emitted_version emitsLate listedLate
  have joined : RouteState.callAll x st (before ++ first :: between) =
      RouteState.callAll x (RouteState.callAll x st before) (first :: between) :=
    run_append st before (first :: between)
  rw [readEarly, readLate, ← sameGroup, joined]
  exact mono

def callsOf (ops : List RouteOp) : List RouteCall :=
  ops.map fun op => { groupKey := "net:", seed := ⟨⟨0, 0, 0, 0⟩, 0⟩, op }

def buildFor (target : PeerId) (nowMs : Millis) : RouteOp := .build nowMs target 7 false true

theorem versions_never_fall_after_a_join :
    VersionsNeverFall wire RouteState.new
      (callsOf [.addPeer 5, buildFor 5 1, .addPeer 6, buildFor 5 2]) := by
  refine versions_never_fall ⟨⟨trivial, ?_⟩, ⟨trivial, ?_⟩, ⟨trivial, ?_⟩, ⟨trivial, ?_⟩, trivial⟩
  · exact fun _ => noWrap_of_small (by decide)
  · exact fun bumps => absurd bumps (by decide)
  · exact fun _ => noWrap_of_small (by decide)
  · exact fun bumps => absurd bumps (by decide)

/- Peer 5 leaves while its version is 3 and comes back with version 2; the two bitmaps go
   to peer 6, which stays. -/
def rejoin : List RouteOp :=
  [.addPeer 5, .addPeer 6, buildFor 6 1, .removePeer 5 2, .addPeer 5, buildFor 6 3]

theorem rejoin_lowers_a_version :
    ¬ VersionsNeverFall wire RouteState.new (callsOf rejoin) := by
  intro never
  have falls : (3 : Version) ≤ 2 := by
    refine never (callsOf [.addPeer 5, .addPeer 6]) (callsOf [.removePeer 5 2, .addPeer 5]) []
      ⟨"net:", ⟨⟨0, 0, 0, 0⟩, 0⟩, buildFor 6 1⟩ ⟨"net:", ⟨⟨0, 0, 0, 0⟩, 0⟩, buildFor 6 3⟩ rfl rfl
      ⟨[⟨5, 3⟩, ⟨6, 2⟩, ⟨myPeerId, 3⟩], [245, 1]⟩ ⟨[⟨5, 2⟩, ⟨6, 4⟩, ⟨myPeerId, 5⟩], [245, 1]⟩
      ?_ ?_ 5 3 2 (by decide) (by decide)
    · decide
    · decide
  exact absurd falls (by decide)

end RelayConnVersions
