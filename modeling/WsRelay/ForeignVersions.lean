import WsRelay.IncrementalSync
import WsRelay.TopologyVersions
import WsRelay.Library.EventCounts

/- The version of the foreign-network entry. The entry has one key for the whole group, and its
   ids follow the membership and the target; its version counts the builds of one session. -/
namespace RelayForeignVersions
open RelayProtocol RelayRouteState RelayRouteOps RelayConnVersions RelayConnBitmap RelayOwnRecords
open RelayInfoSelections RelaySessionResync RelayFullUpdates RelayIncrementalSync
open RelayTopologyVersions RelayWireFormats TransitionRuns EventCounts

/- The entries that a request carries under the relay's own key. -/
def relayEntries (req : SyncRouteInfoRequest) : List ForeignNetworkRouteInfoEntry :=
  ((req.foreignNetworkInfos.map (·.infos)).getD []).filterMap fun info =>
    if info.key = some ⟨myPeerId, "dev-websocket-relay"⟩ then info.value else none

def RouteGroupData.foreignNetVer (g : RouteGroupData) (t : PeerId) : UInt32 :=
  (g.session t).foreignNetVer

def foreignVersionReading (t : PeerId) : Reading UInt32 where
  of g := RouteGroupData.foreignNetVer g t
  fresh := 0
  new seed := by simp [newGroup, RouteGroupData.foreignNetVer, RouteGroupData.session]
  bump _ := rfl

def RouteState.foreignNetVer (st : RouteState) (key : GroupKey) (t : PeerId) : UInt32 :=
  (foreignVersionReading t).read st key

/- A build for the target counts; a removal and a new session id clear. -/
def RouteOp.foreignTick (x : Externals) (t : PeerId) (known : Option SessionId) : RouteOp → Tick
  | .build _ target _ _ _ => if target = t then .counts else .idle
  | .removePeer p _ => if p = t then .clears else .idle
  | .onRouteSessionAck p sid _ _ => if p = t ∧ known ≠ some sid then .clears else .idle
  | .handleSync p bytes _ =>
    match x.decodeSyncRouteInfoRequest bytes with
    | none => .idle
    | some req => if p = t ∧ known ≠ some req.mySessionId then .clears else .idle
  | _ => .idle

def foreignTick (x : Externals) (key : GroupKey) (t : PeerId) (st : RouteState) (c : RouteCall) :
    Tick :=
  if c.groupKey = key then RouteOp.foreignTick x t (RouteState.dstSessionId st key t) c.op
  else .idle

section Counter
variable {x : Externals} {g : RouteGroupData} {key : GroupKey} {t : PeerId}

theorem foreignTick_other {op : RouteOp} (known : Option SessionId)
    (other : RouteOp.records op ≠ some t) : RouteOp.foreignTick x t known op = .idle := by
  have different {p : PeerId} (records : RouteOp.records op = some p) : p ≠ t := by
    intro same
    exact other (records.trans (congrArg some same))
  cases op with
  | build now p sid initiator full => exact if_neg (different rfl)
  | removePeer p now => exact if_neg (different rfl)
  | onRouteSessionAck p sid initiator now => exact if_neg fun both => different rfl both.1
  | handleSync p bytes now =>
    simp only [RouteOp.foreignTick]
    cases x.decodeSyncRouteInfoRequest bytes with
    | none => rfl
    | some req => exact if_neg fun both => different rfl both.1
  | _ => rfl

theorem learned_foreignNetVer {s s' : SessionState} {sid : SessionId}
    (learned : memoryOf s' = if s.dstSessionId = some sid then memoryOf s else blank) :
    s'.foreignNetVer =
      (if s.dstSessionId ≠ some sid then Tick.clears else .idle).act (· + 1) 0 s.foreignNetVer := by
  have counter : s'.foreignNetVer = (memoryOf s').foreignNetVer := rfl
  rw [counter, learned]
  by_cases known : s.dstSessionId = some sid
  · simp [known, Tick.act, memoryOf]
  · simp [known, Tick.act, blank, memoryOf]

theorem edit_foreignNetVer (op : RouteOp) :
    RouteGroupData.foreignNetVer (op.edit x g).2 t =
      (RouteOp.foreignTick x t (g.session t).dstSessionId op).act (· + 1) 0
        (RouteGroupData.foreignNetVer g t) := by
  by_cases own : RouteOp.records op = some t
  · cases op with
    | build now p sid initiator full =>
      obtain rfl := Option.some.inj own
      obtain ⟨bitmaps, sig, left⟩ := build_session g now p sid initiator full
      simp only [RouteOp.edit, RouteOp.foreignTick, RouteGroupData.foreignNetVer, left, ↓reduceIte,
        Tick.act]
    | removePeer p now =>
      obtain rfl := Option.some.inj own
      simp [RouteOp.edit, RouteOp.foreignTick, RouteGroupData.foreignNetVer,
        RouteGroupData.session, Tick.act]
    | onRouteSessionAck p sid initiator now =>
      obtain rfl := Option.some.inj own
      simp only [RouteOp.foreignTick, true_and]
      exact learned_foreignNetVer (ack_memory sid initiator now)
    | handleSync p bytes now =>
      obtain rfl := Option.some.inj own
      cases decoded : x.decodeSyncRouteInfoRequest bytes with
      | none => simp only [RouteOp.edit, RouteOp.foreignTick, decoded, Tick.act]
      | some req =>
        simp only [RouteOp.foreignTick, decoded, true_and]
        exact learned_foreignNetVer (sync_memory decoded now)
    | _ => cases own
  · rw [foreignTick_other _ own]
    have kept := edit_session x g own
    exact congrArg SessionState.foreignNetVer kept

theorem call_foreignNetVer (st : RouteState) (c : RouteCall) :
    RouteState.foreignNetVer (RouteState.call x st c) key t =
      (foreignTick x key t st c).act (· + 1) 0 (RouteState.foreignNetVer st key t) := by
  have called := (foreignVersionReading t).call x st c key
  have known := (dstReading t).ensureGroup st c.seed key
  have version := (foreignVersionReading t).ensureGroup st c.seed key
  rw [RouteState.foreignNetVer, called, foreignTick]
  by_cases named : c.groupKey = key
  · rw [if_pos named, if_pos named, RouteState.dstSessionId, ← known, RouteState.foreignNetVer,
      ← version]
    exact edit_foreignNetVer c.op
  · rw [if_neg named, if_neg named]
    rfl

end Counter

/- The builds for the target since its session began or was last cleared. -/
def buildsSince (x : Externals) (key : GroupKey) (t : PeerId) (calls : List RouteCall) : Nat :=
  countOn (RouteState.call x) (foreignTick x key t) RouteState.new 0 calls

theorem run_foreignNetVer (x : Externals) (key : GroupKey) (t : PeerId) (calls : List RouteCall) :
    RouteState.foreignNetVer (RouteState.callAll x RouteState.new calls) key t =
      UInt32.ofNat (buildsSince x key t calls) := by
  have start : RouteState.foreignNetVer RouteState.new key t = (fun v : UInt32 => v + 1)^[0] 0 := by
    simp [RouteState.foreignNetVer, Reading.read, RouteState.new, foreignVersionReading]
  rw [← iterate_succ_uint32]
  exact value_countOn (fun st => RouteState.foreignNetVer st key t)
    (fun st c => call_foreignNetVer st c) start calls

theorem build_relayEntries (g : RouteGroupData) (now : Millis) (t : PeerId) (sid : SessionId)
    (initiator full : Bool) :
    ∃ entry,
      relayEntries (g.buildSyncRouteInfoRequest now t sid initiator full).1 = [entry] ∧
      entry.version = RouteGroupData.foreignNetVer g t + 1 ∧
      entry.foreignPeerIds = g.relevantPeers t := by
  obtain ⟨bitmaps, sig, mapped⟩ := mapped_session
    ((g.touchSession t sid now).selectInfos now t full).2 (g.relevantPeers t) t
  have counter : ((((g.touchSession t sid now).selectInfos now t full).2.buildConnBitmap
      (g.relevantPeers t) t).2.session t).foreignNetVer = (g.session t).foreignNetVer := by
    rw [mapped, selected_session, session_touched]
  refine ⟨_, rfl, ?_, allPeers_toList g t⟩
  exact congrArg (· + 1) counter

/- The entry of a build for the target behind the calls. -/
structure CarriesCount (x : Externals) (key : GroupKey) (t : PeerId) (calls : List RouteCall)
    (entry : ForeignNetworkRouteInfoEntry) : Prop where
  version : entry.version = UInt32.ofNat (buildsSince x key t calls + 1)
  ids : IsMembership (RouteState.callAll x RouteState.new calls) key t entry.foreignPeerIds

theorem update_builds {key : GroupKey} {t : PeerId} {st : RouteState} {c : RouteCall}
    {req : SyncRouteInfoRequest} (built : updateFor key t st c = some req) :
    c.groupKey = key ∧ ∃ now sid initiator full, c.op = .build now t sid initiator full ∧
      (st.buildSyncRouteInfoRequest c.seed now key t sid initiator full).1 = req := by
  unfold updateFor at built
  split at built
  · rename_i now target sid initiator full opened
    obtain ⟨⟨named, rfl⟩, made⟩ := Option.ite_none_right_eq_some.mp built
    exact ⟨named, now, sid, initiator, full, opened, Option.some.inj made⟩
  · cases built

section Builds
variable {x : Externals} {key : GroupKey} {t : PeerId} {calls : List RouteCall} {c : RouteCall}
  {req : SyncRouteInfoRequest}

theorem update_carriesCount
    (built : updateFor key t (RouteState.callAll x RouteState.new calls) c = some req) :
    ∃ entry, relayEntries req = [entry] ∧ CarriesCount x key t calls entry := by
  set st := RouteState.callAll x RouteState.new calls with stDef
  obtain ⟨-, now, sid, initiator, full, -, rfl⟩ := update_builds built
  obtain ⟨entry, alone, version, ids⟩ :=
    build_relayEntries (st.ensureGroup c.seed key) now t sid initiator full
  refine ⟨entry, alone, ?_, ?_⟩
  · have counter : RouteGroupData.foreignNetVer (st.ensureGroup c.seed key) t =
        RouteState.foreignNetVer st key t := (foreignVersionReading t).ensureGroup st c.seed key
    rw [version, counter, stDef, run_foreignNetVer]
    exact (UInt32.ofNat_add _ 1).symm
  · rw [ids]
    exact relevantPeers_isMembership t st c.seed key

theorem update_ticks {st st' : RouteState} (built : updateFor key t st c = some req) :
    foreignTick x key t st' c = .counts := by
  obtain ⟨named, now, sid, initiator, full, opened, -⟩ := update_builds built
  rw [foreignTick, if_pos named, opened]
  exact if_pos rfl

end Builds

structure TwoBuilds (x : Externals) (key : GroupKey) where
  before : List RouteCall
  first : RouteCall
  between : List RouteCall
  second : RouteCall
  target : PeerId
  target' : PeerId
  request : SyncRouteInfoRequest
  request' : SyncRouteInfoRequest
  built : updateFor key target (RouteState.callAll x RouteState.new before) first = some request
  built' : updateFor key target'
    (RouteState.callAll x RouteState.new (before ++ first :: between)) second = some request'

section Pairs
variable {x : Externals} {key : GroupKey}

def TwoBuilds.count (b : TwoBuilds x key) : Nat := buildsSince x key b.target b.before

def TwoBuilds.count' (b : TwoBuilds x key) : Nat :=
  buildsSince x key b.target' (b.before ++ b.first :: b.between)

/- The version tells the content. -/
structure TwoBuilds.VersionTells (b : TwoBuilds x key) : Prop where
  identifies : ∀ e ∈ relayEntries b.request, ∀ e' ∈ relayEntries b.request',
    e.version = e'.version → e.foreignPeerIds = e'.foreignPeerIds
  grows : ∀ e ∈ relayEntries b.request, ∀ e' ∈ relayEntries b.request',
    e.foreignPeerIds ≠ e'.foreignPeerIds → e.version < e'.version

/- Both are for one target, whose session is neither dropped nor cleared in between. -/
structure TwoBuilds.OneStretch (b : TwoBuilds x key) : Prop where
  same : b.target' = b.target
  undisturbed : EveryStep (RouteState.call x)
    (fun st c => foreignTick x key b.target st c ≠ .clears)
    (RouteState.callAll x RouteState.new (b.before ++ [b.first])) b.between

theorem TwoBuilds.count_lt (b : TwoBuilds x key) (stretch : b.OneStretch) : b.count < b.count' := by
  have ticked : foreignTick x key b.target (RouteState.callAll x RouteState.new b.before) b.first =
      .counts := update_ticks b.built
  have split : b.before ++ b.first :: b.between = (b.before ++ [b.first]) ++ b.between := by simp
  have early : buildsSince x key b.target (b.before ++ [b.first]) = b.count + 1 := by
    unfold buildsSince
    rw [countOn_append]
    exact congrArg (fun tick => tick.act (· + 1) 0 b.count) ticked
  have late : buildsSince x key b.target (b.before ++ [b.first]) ≤ b.count' := by
    unfold TwoBuilds.count' buildsSince
    rw [stretch.same, split, countOn_append _ _ (b.before ++ [b.first])]
    exact le_countOn stretch.undisturbed
  omega

/- The entries of the two requests. -/
structure TwoBuilds.Counts (b : TwoBuilds x key) (e e' : ForeignNetworkRouteInfoEntry) : Prop where
  entries : relayEntries b.request = [e]
  entries' : relayEntries b.request' = [e']
  first : CarriesCount x key b.target b.before e
  second : CarriesCount x key b.target' (b.before ++ b.first :: b.between) e'

theorem TwoBuilds.counts (b : TwoBuilds x key) : ∃ e e', b.Counts e e' := by
  obtain ⟨e, alone, first⟩ := update_carriesCount b.built
  obtain ⟨e', alone', second⟩ := update_carriesCount b.built'
  exact ⟨e, e', alone, alone', first, second⟩

/-- Every version counts the builds for its target since the session began or was last
    cleared. So within one stretch of a session, short of a full turn of the counter, the later
    build has the greater version and the version tells the content. -/
theorem versions_count_builds (b : TwoBuilds x key) :
    ∃ e e', b.Counts e e' ∧
      (b.OneStretch → b.count' + 1 < 2 ^ 32 → e.version < e'.version ∧ b.VersionTells) := by
  obtain ⟨e, e', counts⟩ := b.counts
  refine ⟨e, e', counts, ?_⟩
  intro stretch room
  have order := b.count_lt stretch
  have later : e.version < e'.version := by
    rw [counts.first.version, counts.second.version]
    apply (UInt32.ofNat_lt_iff_lt _ _).mpr
    · exact Nat.succ_lt_succ order
    · exact Nat.lt_trans (Nat.succ_lt_succ order) room
    · exact room
  refine ⟨later, ?_, ?_⟩
  · intro f listed f' listed' equal
    rw [counts.entries, List.mem_singleton] at listed
    rw [counts.entries', List.mem_singleton] at listed'
    rw [listed, listed'] at equal
    rw [equal] at later
    exact absurd later (UInt32.lt_irrefl _)
  · intro f listed f' listed' _
    rw [counts.entries, List.mem_singleton] at listed
    rw [counts.entries', List.mem_singleton] at listed'
    rwa [listed, listed']

end Pairs

def twoBuilds (before between : List RouteOp) (t t' : PeerId) : TwoBuilds wire "net:" where
  before := callsOf before
  first := callOf (buildFor t 1)
  between := callsOf between
  second := callOf (buildFor t' 2)
  target := t
  target' := t'
  request := ((RouteState.callAll wire RouteState.new (callsOf before)).buildSyncRouteInfoRequest
    ⟨⟨0, 0, 0, 0⟩, 0⟩ 1 "net:" t 7 false true).1
  request' := ((RouteState.callAll wire RouteState.new
    (callsOf before ++ callOf (buildFor t 1) :: callsOf between)).buildSyncRouteInfoRequest
    ⟨⟨0, 0, 0, 0⟩, 0⟩ 2 "net:" t' 7 false true).1
  built := by simp [updateFor, callOf, buildFor]
  built' := by simp [updateFor, callOf, buildFor]

theorem later_build_shows_the_join : ∃ e e', (twoBuilds [.addPeer 5] [.addPeer 6] 5 5).Counts e e' ∧
    e.version < e'.version ∧ (twoBuilds [.addPeer 5] [.addPeer 6] 5 5).VersionTells := by
  obtain ⟨e, e', counts, tells⟩ := versions_count_builds (twoBuilds [.addPeer 5] [.addPeer 6] 5 5)
  have stretch : (twoBuilds [.addPeer 5] [.addPeer 6] 5 5).OneStretch := ⟨rfl, by decide⟩
  exact ⟨e, e', counts, tells stretch (by decide)⟩

/- Equal counts, and an id that is relevant in the later build only. -/
theorem equal_counts_refute {x : Externals} {key : GroupKey} {b : TwoBuilds x key} {p : PeerId}
    (equal : UInt32.ofNat (b.count + 1) = UInt32.ofNat (b.count' + 1))
    (absent : ¬ (p = myPeerId ∨ p = b.target ∨
      p ∈ RouteState.members (RouteState.callAll x RouteState.new b.before) key))
    (present : p = myPeerId ∨ p = b.target' ∨ p ∈ RouteState.members
      (RouteState.callAll x RouteState.new (b.before ++ b.first :: b.between)) key) :
    ¬ b.VersionTells := by
  obtain ⟨e, e', counts⟩ := b.counts
  intro tells
  have listed : e ∈ relayEntries b.request := by simp [counts.entries]
  have listed' : e' ∈ relayEntries b.request' := by simp [counts.entries']
  have versions : e.version = e'.version :=
    counts.first.version.trans (equal.trans counts.second.version.symm)
  have same := tells.identifies e listed e' listed' versions
  have relevant : p ∈ e.foreignPeerIds := by
    rw [same]
    exact (counts.second.ids.members p).mpr present
  exact absent ((counts.first.ids.members p).mp relevant)

/- For another target; behind a new session id; behind a removal; behind a full turn. -/
def forAnother : TwoBuilds wire "net:" := twoBuilds [.addPeer 5] [] 5 6

def behindNewSession : TwoBuilds wire "net:" :=
  twoBuilds [.addPeer 5] [.addPeer 6, .onRouteSessionAck 5 9 false 1] 5 5

def behindRemoval : TwoBuilds wire "net:" :=
  twoBuilds [.addPeer 5] [.removePeer 5 1, .addPeer 5, .addPeer 6] 5 5

def behindBuilds (n : Nat) : TwoBuilds wire "net:" :=
  twoBuilds [.addPeer 5] (List.replicate n (buildFor 5 1) ++ [.addPeer 6]) 5 5

theorem behindBuilds_calls (n : Nat) :
    (behindBuilds n).before ++ (behindBuilds n).first :: (behindBuilds n).between =
      callsOf [.addPeer 5] ++ List.replicate (n + 1) (callOf (buildFor 5 1)) ++
        callsOf [.addPeer 6] := by
  simp [behindBuilds, twoBuilds, callsOf, callOf, List.replicate_succ]

theorem countOn_join (p : PeerId) (st : RouteState) (n : Nat) :
    countOn (RouteState.call wire) (foreignTick wire "net:" 5) st n (callsOf [.addPeer p]) = n :=
  rfl

theorem behindBuilds_count (n : Nat) : (behindBuilds n).count' = n + 1 := by
  have built (st : RouteState) : EveryStep (RouteState.call wire)
      (fun st c => foreignTick wire "net:" 5 st c = .counts) st
      (List.replicate (n + 1) (callOf (buildFor 5 1))) := by
    have same : EveryStep (RouteState.call wire) (fun _ c => c = callOf (buildFor 5 1)) st
        (List.replicate (n + 1) (callOf (buildFor 5 1))) :=
      everyStep_of_forall fun c listed => List.eq_of_mem_replicate listed
    refine everyStep_mono ?_ same
    intro st c built
    rw [built]
    rfl
  have target : (behindBuilds n).target' = 5 := rfl
  unfold TwoBuilds.count' buildsSince
  rw [behindBuilds_calls, target, countOn_append, countOn_append, countOn_join, countOn_join,
    countOn_all (built _), List.length_replicate, Nat.zero_add]

theorem behindBuilds_member (n : Nat) : 6 ∈ RouteState.members (RouteState.callAll wire
    RouteState.new ((behindBuilds n).before ++ (behindBuilds n).first :: (behindBuilds n).between))
    "net:" := by
  have joined (st : RouteState) :
      6 ∈ RouteState.members (RouteState.call wire st (callOf (.addPeer 6))) "net:" := by
    rw [members_call]
    simp [callOf, RouteOp.peersAfter]
  rw [behindBuilds_calls, RouteState.callAll, run_append]
  exact joined _

theorem equal_versions_differ :
    ¬ forAnother.VersionTells ∧ ¬ behindNewSession.VersionTells ∧ ¬ behindRemoval.VersionTells ∧
      ¬ (behindBuilds (2 ^ 32 - 1)).VersionTells := by
  refine ⟨?_, ?_, ?_, ?_⟩
  · exact equal_counts_refute (p := 6) (by decide) (by decide) (by decide)
  · exact equal_counts_refute (p := 6) (by decide) (by decide) (by decide)
  · exact equal_counts_refute (p := 6) (by decide) (by decide) (by decide)
  · have member := behindBuilds_member (2 ^ 32 - 1)
    have early : (behindBuilds (2 ^ 32 - 1)).count = 0 := rfl
    refine equal_counts_refute (p := 6) ?_ ?_ (Or.inr (Or.inr member))
    · rw [early, behindBuilds_count]
      rfl
    · decide

end RelayForeignVersions
