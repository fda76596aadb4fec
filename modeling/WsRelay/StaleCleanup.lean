import WsRelay.TopologyVersions
import WsRelay.LivePeers

/- What the alarm forgets. A group's memory of removed peers and of their edges is swept only if
   an open and recent socket names the group; all other groups keep theirs. -/
namespace RelayStaleCleanup
open RelayProtocol RelayRouteState RelayPeerManager RelayRoomModel RelayRouteOps RelayRoomSteps
open RelayTopologyVersions RelayWireFormats TransitionRuns

def Overdue (nowMs removedAt : Millis) : Prop := removedAt.toNat + 600000 < nowMs.toNat

def Mentions (connections : PeerMap PeerSet) (p : PeerId) : Prop :=
  p ∈ connections ∨
    ∃ (q : PeerId) (reported : PeerSet), connections[q]? = some reported ∧ p ∈ reported

def OlderThan (threshold nowMs removedAt : Millis) : Prop :=
  removedAt.toNat + threshold.toNat < nowMs.toNat

theorem saturatingAge_olderThan {threshold nowMs removedAt : Millis} :
    threshold < saturatingAge nowMs removedAt ↔ OlderThan threshold nowMs removedAt := by
  unfold saturatingAge OlderThan
  rw [UInt64.lt_iff_toNat_lt]
  by_cases early : nowMs < removedAt
  · have later := UInt64.lt_iff_toNat_lt.mp early
    simp only [early, ↓reduceIte, UInt64.toNat_zero]
    omega
  · have order : removedAt ≤ nowMs := UInt64.not_lt.mp early
    have bound := UInt64.le_iff_toNat_le.mp order
    simp only [early, ↓reduceIte, UInt64.toNat_sub_of_le _ _ order]
    omega

theorem overdue_iff {nowMs removedAt : Millis} :
    Overdue nowMs removedAt ↔ OlderThan staleP2pThresholdMs nowMs removedAt := by
  have threshold : staleP2pThresholdMs.toNat = 600000 := rfl
  rw [Overdue, OlderThan, threshold]

section Sweep
variable {g : RouteGroupData} {threshold nowMs : Millis} {p : PeerId}

theorem mem_stalePeers_olderThan : p ∈ g.stalePeers threshold nowMs ↔
    ∃ removedAt, g.peerRemovedAt[p]? = some removedAt ∧ OlderThan threshold nowMs removedAt := by
  simp only [RouteGroupData.stalePeers, List.mem_map, List.mem_filter, Prod.exists,
    Std.ExtTreeMap.mem_toList_iff_getElem?_eq_some, decide_eq_true_eq, saturatingAge_olderThan]
  constructor
  · intro found
    obtain ⟨q, removedAt, kept, rfl⟩ := found
    exact ⟨removedAt, kept⟩
  · intro found
    obtain ⟨removedAt, kept⟩ := found
    exact ⟨p, removedAt, kept, rfl⟩

theorem mem_stalePeers : p ∈ g.stalePeers staleP2pThresholdMs nowMs ↔
    ∃ removedAt, g.peerRemovedAt[p]? = some removedAt ∧ Overdue nowMs removedAt := by
  simp only [mem_stalePeers_olderThan, overdue_iff]

theorem dropStale_keeps_out {acc : PeerMap PeerSet × PeerMap Millis} (stale : List PeerId)
    (out : ¬ Mentions acc.1 p) : ¬ Mentions (stale.foldl dropStale acc).1 p := by
  induction stale generalizing acc with
  | nil => exact out
  | cons gone rest ih =>
    apply ih
    intro mentioned
    apply out
    rcases mentioned with key | ⟨q, reported, stored, member⟩
    · exact Or.inl (Std.ExtTreeMap.mem_erase.mp (Std.ExtTreeMap.mem_map.mp key)).2
    · simp only [dropStale, Std.ExtTreeMap.getElem?_map, Std.ExtTreeMap.getElem?_erase,
        Option.map_eq_some_iff] at stored
      obtain ⟨old, present, rfl⟩ := stored
      split at present
      · cases present
      · exact Or.inr ⟨q, old, present, (Std.ExtTreeSet.mem_erase.mp member).2⟩

theorem dropStale_drops {acc : PeerMap PeerSet × PeerMap Millis} {stale : List PeerId}
    (listed : p ∈ stale) : ¬ Mentions (stale.foldl dropStale acc).1 p := by
  induction stale generalizing acc with
  | nil => cases listed
  | cons gone rest ih =>
    rw [List.foldl_cons]
    by_cases later : p ∈ rest
    · exact ih later
    obtain rfl : p = gone := (List.mem_cons.mp listed).resolve_right later
    apply dropStale_keeps_out
    intro mentioned
    rcases mentioned with key | ⟨q, reported, stored, member⟩
    · simp [dropStale] at key
    · simp only [dropStale, Std.ExtTreeMap.getElem?_map, Std.ExtTreeMap.getElem?_erase,
        Option.map_eq_some_iff] at stored
      obtain ⟨old, -, rfl⟩ := stored
      simp at member

end Sweep

def RouteState.connections (st : RouteState) (key : GroupKey) : PeerMap PeerSet :=
  ((st.groups[key]?).map (·.peerConnections)).getD ∅

def RouteState.removedAt (st : RouteState) (key : GroupKey) : PeerMap Millis :=
  ((st.groups[key]?).map (·.peerRemovedAt)).getD ∅

def SameMemory (st st' : RouteState) (key : GroupKey) : Prop :=
  RouteState.connections st' key = RouteState.connections st key ∧
    RouteState.removedAt st' key = RouteState.removedAt st key

structure Swept (nowMs : Millis) (st st' : RouteState) (key : GroupKey) : Prop where
  removed : ∀ (p : PeerId) (removedAt : Millis),
    (RouteState.removedAt st' key)[p]? = some removedAt →
      ¬ Overdue nowMs removedAt
  edges : ∀ (p : PeerId) (removedAt : Millis),
    (RouteState.removedAt st key)[p]? = some removedAt →
      Overdue nowMs removedAt → ¬ Mentions (RouteState.connections st' key) p

/-- What the alarm is there for: every group is swept. -/
def Bounded (nowMs : Millis) (st st' : RouteState) : Prop := ∀ key, Swept nowMs st st' key

section Memory
variable {x : Externals} {st st' st'' : RouteState} {key : GroupKey} {nowMs : Millis}

def removedAtReading : Reading (PeerMap Millis) :=
  ⟨(·.peerRemovedAt), ∅, fun _ => rfl, fun _ => rfl⟩

theorem ensureGroup_removedAt (st : RouteState) (seed : GroupSeed) (key : GroupKey) :
    (st.ensureGroup seed key).peerRemovedAt = RouteState.removedAt st key :=
  removedAtReading.ensureGroup st seed key

theorem put_memory (st : RouteState) (key : GroupKey) (g : RouteGroupData) :
    RouteState.connections (st.put key g) key = g.peerConnections ∧
      RouteState.removedAt (st.put key g) key = g.peerRemovedAt := by
  simp [RouteState.connections, RouteState.removedAt, RouteState.put]

theorem put_sameMemory (st : RouteState) {key other : GroupKey} (g : RouteGroupData)
    (different : key ≠ other) : SameMemory st (st.put key g) other := by
  simp [SameMemory, RouteState.connections, RouteState.removedAt, groups_put_ne st g different]

theorem SameMemory.trans (first : SameMemory st st' key) (second : SameMemory st' st'' key) :
    SameMemory st st'' key :=
  ⟨second.1.trans first.1, second.2.trans first.2⟩

theorem Swept.before (swept : Swept nowMs st' st'' key) (same : SameMemory st st' key) :
    Swept nowMs st st'' key where
  removed := swept.removed
  edges p removedAt listed := swept.edges p removedAt (by rw [same.2]; exact listed)

theorem Swept.after (swept : Swept nowMs st st' key) (same : SameMemory st' st'' key) :
    Swept nowMs st st'' key where
  removed p removedAt listed := swept.removed p removedAt (by rw [← same.2]; exact listed)
  edges p removedAt listed overdue := by
    rw [same.1]
    exact swept.edges p removedAt listed overdue

theorem call_sameMemory (c : RouteCall) (keeps : RouteOp.keepsEdges c.op = true)
    (key : GroupKey) : SameMemory st (RouteState.call x st c) key := by
  obtain ⟨-, edges, times⟩ := edit_sameEdges x (st.ensureGroup c.seed key) keeps
  exact ⟨connectionsReading.call_kept edges, removedAtReading.call_kept times⟩

theorem keepsEdges_of_isBuild {op : RouteOp} (builds : op.isBuild = true) :
    RouteOp.keepsEdges op = true := by
  cases op <;> simp_all [RouteOp.isBuild, RouteOp.keepsEdges]

theorem builds_sameMemory (reached : Reaches x IsBuild st st') (key : GroupKey) :
    SameMemory st st' key := by
  apply reached.relation (fun a b => SameMemory a b key)
  · intro s
    exact ⟨rfl, rfl⟩
  · intro a b c first second
    exact first.trans second
  · intro s c builds
    exact call_sameMemory c (keepsEdges_of_isBuild builds) key

theorem cleanup_swept (st : RouteState) (seed : GroupSeed) (key : GroupKey) (nowMs : Millis) :
    Swept nowMs st (st.cleanupStalePeerConnections seed key staleP2pThresholdMs nowMs) key := by
  obtain ⟨stored, removed⟩ := put_memory st key
    ((st.ensureGroup seed key).cleanupStalePeerConnections staleP2pThresholdMs nowMs)
  have oldRemoved := ensureGroup_removedAt st seed key
  constructor
  · intro p since listed overdue
    rw [RouteState.cleanupStalePeerConnections, removed] at listed
    simp only [RouteGroupData.cleanupStalePeerConnections, dropStale_removed] at listed
    split at listed
    · cases listed
    · rename_i kept
      exact kept (mem_stalePeers.mpr ⟨since, listed, overdue⟩)
  · intro p since listed overdue
    rw [RouteState.cleanupStalePeerConnections, stored]
    rw [← oldRemoved] at listed
    exact dropStale_drops (mem_stalePeers.mpr ⟨since, listed, overdue⟩)

end Memory

def Names (nowMs : Millis) (key : GroupKey) (s : Socket) : Prop :=
  ∃ att, s.attachment = some att ∧ timedOut nowMs att = false ∧ 0 < att.lastSeenMs ∧
    att.groupKey = key ∧ key ≠ ""

theorem scanSocket_names (nowMs : Millis) (key : GroupKey) (acc : AlarmScan) (s : Socket) :
    (key ∈ (scanSocket nowMs acc s).groupKeys ↔ Names nowMs key s ∨ key ∈ acc.groupKeys) ∧
      acc.aliveCount ≤ (scanSocket nowMs acc s).aliveCount ∧
      (Names nowMs key s → acc.aliveCount < (scanSocket nowMs acc s).aliveCount) := by
  unfold scanSocket Names
  cases s.attachment with
  | none => simp
  | some att =>
    by_cases late : timedOut nowMs att = true
    · simp [late]
    by_cases listed : 0 < att.lastSeenMs ∧ ¬ att.groupKey.isEmpty
    · have named := listed.2
      simp only [String.isEmpty_iff] at named
      simp only [late, Bool.false_eq_true, ↓reduceIte, listed, not_false_eq_true, and_self,
        Std.ExtTreeSet.mem_insert, Std.LawfulEqCmp.compare_eq_iff_eq, Option.some.injEq,
        exists_eq_left', true_and, Nat.le_add_right, Nat.lt_add_one, implies_true, and_true]
      constructor
      · intro found
        rcases found with same | old
        · exact Or.inl ⟨same, same ▸ named⟩
        · exact Or.inr old
      · intro found
        rcases found with ⟨same, -⟩ | old
        · exact Or.inl same
        · exact Or.inr old
    · simp only [late, Bool.false_eq_true, ↓reduceIte, listed, Option.some.injEq, exists_eq_left',
        true_and, Nat.le_add_right, Nat.lt_add_one, implies_true, and_true]
      constructor
      · intro old
        exact Or.inr old
      · intro found
        rcases found with ⟨seen, same, known⟩ | old
        · refine absurd ⟨seen, ?_⟩ listed
          rw [String.isEmpty_iff, same]
          exact known
        · exact old

theorem scan_names (nowMs : Millis) (key : GroupKey) (sockets : List Socket) (acc : AlarmScan) :
    (key ∈ (sockets.foldl (scanSocket nowMs) acc).groupKeys ↔
      (∃ s ∈ sockets, Names nowMs key s) ∨ key ∈ acc.groupKeys) ∧
      acc.aliveCount ≤ (sockets.foldl (scanSocket nowMs) acc).aliveCount ∧
      ((∃ s ∈ sockets, Names nowMs key s) →
        acc.aliveCount < (sockets.foldl (scanSocket nowMs) acc).aliveCount) := by
  induction sockets generalizing acc with
  | nil => simp
  | cons s rest ih =>
    obtain ⟨listedHere, grows, counted⟩ := scanSocket_names nowMs key acc s
    obtain ⟨listed, growsOn, countedOn⟩ := ih (scanSocket nowMs acc s)
    rw [List.foldl_cons, List.exists_mem_cons_iff]
    refine ⟨?_, by omega, ?_⟩
    · rw [listed, listedHere, or_assoc, or_left_comm]
    · intro named
      rcases named with here | later
      · have first := counted here
        omega
      · have next := countedOn later
        omega

theorem mem_scannedGroups {env : Env} {r : Relay} {key : GroupKey} :
    key ∈ scannedGroups env r ↔ ∃ s ∈ r.room.sockets, Names env.nowMs key s := by
  obtain ⟨listed, -, counted⟩ := scan_names env.nowMs key r.room.sockets {}
  simp only [Std.ExtTreeSet.not_mem_empty, or_false] at listed
  rw [← listed]
  unfold scannedGroups
  simp only [List.mem_ite_nil_right, Std.ExtTreeSet.mem_toList]
  constructor
  · intro scanned
    exact scanned.2
  · intro member
    exact ⟨counted (listed.mp member), member⟩

theorem cleanupGroup_routes (env : Env) (r : Relay) (key : GroupKey) :
    routes (cleanupGroup env r key) = (routes r).cleanupStalePeerConnections (env.seed key) key
      staleP2pThresholdMs env.nowMs := rfl

theorem sweepAll_others {env : Env} {key : GroupKey} {keys : List GroupKey} (other : key ∉ keys)
    (r : Relay) : SameMemory (routes r) (routes (keys.foldl (cleanupGroup env) r)) key := by
  induction keys generalizing r with
  | nil => exact ⟨rfl, rfl⟩
  | cons first rest ih =>
    simp only [List.mem_cons, not_or] at other
    have step : SameMemory (routes r) (routes (cleanupGroup env r first)) key :=
      put_sameMemory (routes r) _ (Ne.symm other.1)
    exact step.trans (ih other.2 (cleanupGroup env r first))

theorem sweepAll_swept {env : Env} {key : GroupKey} {keys : List GroupKey} (distinct : keys.Nodup)
    (listed : key ∈ keys) (r : Relay) :
    Swept env.nowMs (routes r) (routes (keys.foldl (cleanupGroup env) r)) key := by
  induction keys generalizing r with
  | nil => cases listed
  | cons first rest ih =>
    obtain ⟨fresh, restDistinct⟩ := List.nodup_cons.mp distinct
    rw [List.foldl_cons]
    by_cases here : key = first
    · subst here
      have cleaned := cleanup_swept (routes r) (env.seed key) key env.nowMs
      rw [← cleanupGroup_routes] at cleaned
      exact cleaned.after (sweepAll_others fresh (cleanupGroup env r key))
    · have later := (List.mem_cons.mp listed).resolve_left here
      have step : SameMemory (routes r) (routes (cleanupGroup env r first)) key :=
        put_sameMemory (routes r) _ (Ne.symm here)
      exact (ih restDistinct later (cleanupGroup env r first)).before step

theorem scannedGroups_nodup (env : Env) (r : Relay) : (scannedGroups env r).Nodup := by
  unfold scannedGroups
  simp only
  split
  · exact Std.ExtTreeSet.distinct_toList.imp (by simp)
  · exact List.nodup_nil

theorem alarm_refresh (x : Externals) (env : Env) (r : Relay) (key : GroupKey) :
    SameMemory (routes (cleaned env r)) (routes (r.alarm x env)) key := by
  have refreshed : Quiet x IsBuild (cleaned env r) (r.alarm x env) := by
    rw [alarm_eq]
    exact Quiet.foldl (fun r groupKey => broadcast_quiet x env r groupKey 0) _ _
  exact builds_sameMemory refreshed.reached key

/-- An alarm sweeps every group exactly if each group with something overdue is named by an open
    socket that has not timed out. -/
theorem alarm_bounded_iff {x : Externals} {env : Env} {r : Relay} :
    Bounded env.nowMs (routes r) (routes (r.alarm x env)) ↔
      ∀ key (p : PeerId) (removedAt : Millis), (RouteState.removedAt (routes r) key)[p]? =
        some removedAt → Overdue env.nowMs removedAt →
          ∃ s ∈ r.room.sockets, Names env.nowMs key s := by
  constructor
  · intro bounded key p removedAt listed overdue
    rw [← mem_scannedGroups]
    by_contra missed
    have kept : SameMemory (routes r) (routes (r.alarm x env)) key :=
      (sweepAll_others missed (scanned env r)).trans (alarm_refresh x env r key)
    exact (bounded key).removed p removedAt (by rw [kept.2]; exact listed) overdue
  · intro watched key
    by_cases named : key ∈ scannedGroups env r
    · exact (sweepAll_swept (scannedGroups_nodup env r) named (scanned env r)).after
        (alarm_refresh x env r key)
    · have kept : SameMemory (routes r) (routes (r.alarm x env)) key :=
        (sweepAll_others named (scanned env r)).trans (alarm_refresh x env r key)
      constructor
      · intro p removedAt listed overdue
        rw [kept.2] at listed
        exact named (mem_scannedGroups.mpr (watched key p removedAt listed overdue))
      · intro p removedAt listed overdue
        exact absurd (mem_scannedGroups.mpr (watched key p removedAt listed overdue)) named

/- An alarm that meets an open socket for each group with something overdue. -/
def AlarmMeetsAll (r : Relay) (e : Env × RoomEvent) : Prop :=
  match e.2 with
  | .alarm => ∀ key (p : PeerId) (removedAt : Millis), (RouteState.removedAt (routes r) key)[p]? =
      some removedAt → Overdue e.1.nowMs removedAt →
        ∃ s ∈ r.room.sockets, Names e.1.nowMs key s
  | _ => True

/-- Every alarm of a run leaves every group swept, exactly if every alarm meets an open and
    recent socket of each group with something overdue. -/
theorem alarms_bound_memory_iff (x : Externals) (events : List (Env × RoomEvent)) :
    (∀ before env after, events = before ++ (env, .alarm) :: after →
        Bounded env.nowMs (routes (Relay.run x Relay.initial before))
          (routes (Relay.run x Relay.initial (before ++ [(env, .alarm)])))) ↔
      EveryStep (Relay.onEvent x) AlarmMeetsAll Relay.initial events := by
  have last (before : List (Env × RoomEvent)) (env : Env) :
      Relay.run x Relay.initial (before ++ [(env, .alarm)]) =
        (Relay.run x Relay.initial before).alarm x env :=
    run_append Relay.initial before [(env, .alarm)]
  rw [everyStep_iff_splits]
  constructor
  · intro bounded before e after split
    obtain ⟨env, event⟩ := e
    cases event with
    | alarm =>
      have swept := bounded before env after split
      rw [last] at swept
      exact alarm_bounded_iff.mp swept
    | _ => trivial
  · intro meets before env after split
    rw [last]
    exact alarm_bounded_iff.mpr (meets before (env, .alarm) after split)

/- The only socket of a network closes; eleven minutes later an alarm meets another network. -/
def abandonedGroup : List (Env × RoomEvent) :=
  quietly [.accept, .message 0 (greeting 5 "net" [0xaa]), .close 0] ++
    [(quietEnv 700000 900, .accept),
      (quietEnv 700001 901, .message 1 (greeting 6 "other" [0xbb]))]

theorem abandoned_group_keeps_its_memory :
    ¬ Bounded 760000 (routes (Relay.run wire Relay.initial abandonedGroup))
      (routes (Relay.run wire Relay.initial
        (abandonedGroup ++ [(quietEnv 760000 902, .alarm)]))) := by
  intro bounded
  refine (bounded "net:aa").removed 5 1002 ?_ ?_
  · decide
  · show (1002 : Millis).toNat + 600000 < (760000 : Millis).toNat
    decide

end RelayStaleCleanup
