import WsRelay.RouteState
import WsRelay.Library.FoldMaps
import WsRelay.Library.Runs

/- The operations of the route state as one step function, what each of them does to the
   group it names, and the frame facts that every run argument starts from. -/
namespace RelayRouteOps
open RelayProtocol RelayRouteState FoldMaps

variable (g : RouteGroupData)

theorem mem_bumpedIds {p : PeerId} : p ∈ g.bumpedIds ↔ p ∈ g.peers ∨ p ∈ g.peerInfos := by
  simp [RouteGroupData.bumpedIds]

theorem bumpedIds_nodup : g.bumpedIds.toList.Nodup := by
  have distinct := g.bumpedIds.distinct_toList
  exact distinct.imp (by simp)

def RouteGroupData.connVersion (p : PeerId) : Version := g.peerConnVersions.getD p 1

/- How often one bump counts an id: once as a member or a known peer, once more as the relay. -/
def RouteGroupData.bumpsOf (p : PeerId) : Version :=
  (if p ∈ g.peers ∨ p ∈ g.peerInfos then 1 else 0) + if p = myPeerId then 1 else 0

theorem connVersion_bump (p : PeerId) :
    RouteGroupData.connVersion g.bumpAllConnVersions p =
      RouteGroupData.connVersion g p + RouteGroupData.bumpsOf g p := by
  have rewritten := foldl_rewrite (fun old => old.getD 1 + 1) (bumpedIds_nodup g)
    g.peerConnVersions
  have loop : bumpVersion = fun acc key => acc.insert key (acc[key]?.getD 1 + 1) := by
    funext acc key
    simp [bumpVersion, Std.ExtTreeMap.getD_eq_getD_getElem?]
  simp only [RouteGroupData.connVersion, RouteGroupData.bumpsOf,
    RouteGroupData.bumpAllConnVersions, Std.ExtTreeMap.getD_eq_getD_getElem?, loop]
  by_cases own : p = myPeerId
  · subst own
    simp only [Std.ExtTreeMap.getElem?_insert_self, rewritten, Std.ExtTreeSet.mem_toList,
      mem_bumpedIds, Option.getD_some, ↓reduceIte]
    by_cases member : myPeerId ∈ g.peers ∨ myPeerId ∈ g.peerInfos
    · simp [member, UInt32.add_assoc]
    · cases g.peerConnVersions[myPeerId]? <;> simp [member]
  · simp only [Std.ExtTreeMap.getElem?_insert, rewritten, Std.ExtTreeSet.mem_toList,
      mem_bumpedIds, own]
    by_cases member : p ∈ g.peers ∨ p ∈ g.peerInfos
    · simp [member, Ne.symm own]
    · simp only [Std.LawfulEqCmp.compare_eq_iff_eq, Ne.symm own, member, ↓reduceIte, add_zero]

/- One constructor for each operation of the source, with the arguments it is called with. -/
inductive RouteOp where
  | addPeer (peerId : PeerId)
  | removePeer (peerId : PeerId) (nowMs : Millis)
  | updatePeerInfo (peerId : PeerId) (infoBytes : Bytes)
  | onRouteSessionAck (peerId : PeerId) (theirSessionId : SessionId) (weAreInitiator : Bool)
      (nowMs : Millis)
  | bumpMyInfoVersion
  | setMyInfoField (field value : String)
  | updatePeerConnections (fromPeerId : PeerId) (requestBytes : Bytes)
  | build (nowMs : Millis) (targetPeerId : PeerId) (serverSessionId : SessionId)
      (weAreInitiator forceFull : Bool)
  | handleSync (fromPeerId : PeerId) (requestBytes : Bytes) (nowMs : Millis)
  | cleanup (staleThresholdMs nowMs : Millis)

structure RouteCall where
  groupKey : GroupKey
  seed : GroupSeed
  op : RouteOp

def RouteState.call (x : Externals) (st : RouteState) (c : RouteCall) : RouteState :=
  match c.op with
  | .addPeer p => st.addPeer c.seed c.groupKey p
  | .removePeer p now => st.removePeer c.seed c.groupKey p now
  | .updatePeerInfo p bytes => (st.updatePeerInfo x c.seed c.groupKey p bytes).2
  | .onRouteSessionAck p sid initiator now =>
    st.onRouteSessionAck c.seed c.groupKey p sid initiator now
  | .bumpMyInfoVersion => st.bumpMyInfoVersion c.seed c.groupKey
  | .setMyInfoField field value => (st.setMyInfoField c.seed c.groupKey field value).2
  | .updatePeerConnections p bytes =>
    (st.updatePeerConnectionsFromConnInfo x c.seed c.groupKey p bytes).2
  | .build now target sid initiator full =>
    (st.buildSyncRouteInfoRequest c.seed now c.groupKey target sid initiator full).2
  | .handleSync p bytes now => (st.handleSyncRouteInfoRequest x c.seed c.groupKey p bytes now).2
  | .cleanup threshold now => st.cleanupStalePeerConnections c.seed c.groupKey threshold now

def RouteState.callAll (x : Externals) (st : RouteState) (calls : List RouteCall) : RouteState :=
  TransitionRuns.run (RouteState.call x) st calls

/- What an operation writes before it bumps, and whether it bumps. -/
def RouteOp.edit (x : Externals) (g : RouteGroupData) : RouteOp → Bool × RouteGroupData
  | .addPeer p =>
    (!g.peers.contains p,
      { g with peers := g.peers.insert p, peerRemovedAt := g.peerRemovedAt.erase p })
  | .removePeer p now =>
    (g.peers.contains p,
      { g with
        peers := g.peers.erase p
        peerInfos := g.peerInfos.erase p
        sessions := g.sessions.erase p
        peerConnVersions := g.peerConnVersions.erase p
        peerRemovedAt := g.peerRemovedAt.insert p now })
  | .updatePeerInfo p bytes =>
    match x.decodeRoutePeerInfo bytes with
    | none => (false, g)
    | some info =>
      match g.peerInfos[p]? with
      | none => (true, { g with peerInfos := g.peerInfos.insert p info })
      | some old =>
        (false, if old.version < info.version
          then { g with peerInfos := g.peerInfos.insert p info } else g)
  | .onRouteSessionAck p sid initiator now => (false, g.onRouteSessionAck p sid initiator now)
  | .bumpMyInfoVersion => (false, g.bumpMyInfoVersion)
  | .setMyInfoField field value => (false, (g.setMyInfoField field value).2)
  | .updatePeerConnections p bytes =>
    match x.decodeSyncRouteInfoRequest bytes with
    | none => (false, g)
    | some req =>
      match req.connInfo with
      | none => (false, g)
      | some connInfo => g.storeConnections p (g.p2pConnections p connInfo)
  | .build now target sid initiator full =>
    (false, (g.buildSyncRouteInfoRequest now target sid initiator full).2)
  | .handleSync p bytes now =>
    match x.decodeSyncRouteInfoRequest bytes with
    | none => (false, g)
    | some req =>
      let touched := g.touchFrom p req now
      match req.peerInfos with
      | none => (false, touched)
      | some infos =>
        let stored := infos.items.foldl (storeItem now g.peers p) (false, g.peerInfos)
        (stored.1, { touched with peerInfos := stored.2 })
  | .cleanup threshold now => (false, g.cleanupStalePeerConnections threshold now)

def RouteOp.onGroup (x : Externals) (g : RouteGroupData) (op : RouteOp) : RouteGroupData :=
  if (op.edit x g).1 then (op.edit x g).2.bumpAllConnVersions else (op.edit x g).2

/-- Every operation is its edit of the named group, followed by at most one bump; an operation
    with an undecodable argument edits nothing and leaves even an absent group absent. Which of
    the two it is does not depend on the state. -/
theorem call_uniform (x : Externals) (c : RouteCall) :
    (∀ st, RouteState.call x st c = st ∧ ∀ g, c.op.onGroup x g = g) ∨
      ∀ st, RouteState.call x st c =
        st.put c.groupKey (c.op.onGroup x (st.ensureGroup c.seed c.groupKey)) := by
  obtain ⟨key, seed, op⟩ := c
  cases op with
  | addPeer p => exact Or.inr fun st => rfl
  | removePeer p now => exact Or.inr fun st => rfl
  | updatePeerInfo p bytes =>
    cases decoded : x.decodeRoutePeerInfo bytes with
    | none =>
      left
      intro st
      simp [RouteState.call, RouteState.updatePeerInfo, RouteOp.onGroup, RouteOp.edit, decoded]
    | some info =>
      right
      intro st
      simp only [RouteState.call, RouteState.updatePeerInfo, RouteOp.onGroup, RouteOp.edit, decoded,
        RouteGroupData.updatePeerInfo]
      cases stored : (st.ensureGroup seed key).peerInfos[p]? with
      | none => rfl
      | some old => by_cases newer : old.version < info.version <;> simp [newer]
  | onRouteSessionAck p sid initiator now => exact Or.inr fun st => rfl
  | bumpMyInfoVersion => exact Or.inr fun st => rfl
  | setMyInfoField field value => exact Or.inr fun st => rfl
  | updatePeerConnections p bytes =>
    cases decoded : x.decodeSyncRouteInfoRequest bytes with
    | none =>
      left
      intro st
      simp [RouteState.call, RouteState.updatePeerConnectionsFromConnInfo, RouteOp.onGroup,
        RouteOp.edit, decoded]
    | some req =>
      right
      intro st
      simp only [RouteState.call, RouteState.updatePeerConnectionsFromConnInfo, RouteOp.onGroup,
        RouteOp.edit, decoded, RouteGroupData.updatePeerConnectionsFromConnInfo]
      cases reported : req.connInfo with
      | none => rfl
      | some connInfo => simp only; split <;> rfl
  | build now target sid initiator full => exact Or.inr fun st => rfl
  | handleSync p bytes now =>
    cases decoded : x.decodeSyncRouteInfoRequest bytes with
    | none =>
      left
      intro st
      simp [RouteState.call, RouteState.handleSyncRouteInfoRequest, RouteOp.onGroup, RouteOp.edit,
        decoded]
    | some req =>
      right
      intro st
      simp only [RouteState.call, RouteState.handleSyncRouteInfoRequest, RouteOp.onGroup,
        RouteOp.edit, decoded, RouteGroupData.handleSyncRouteInfoRequest]
      cases listed : req.peerInfos with
      | none => rfl
      | some infos => rfl
  | cleanup threshold now => exact Or.inr fun st => rfl

theorem call_groups (x : Externals) (st : RouteState) (c : RouteCall) :
    (RouteState.call x st c = st ∧ ∀ g, c.op.onGroup x g = g) ∨
      RouteState.call x st c =
        st.put c.groupKey (c.op.onGroup x (st.ensureGroup c.seed c.groupKey)) := by
  rcases call_uniform x c with idle | edits
  · exact Or.inl (idle st)
  · exact Or.inr (edits st)

theorem ensureGroup_put_self (st : RouteState) (key : GroupKey) (g : RouteGroupData)
    (seed : GroupSeed) : (st.put key g).ensureGroup seed key = g := by
  simp [RouteState.ensureGroup, RouteState.put]

theorem groups_put_ne (st : RouteState) {key other : GroupKey} (g : RouteGroupData)
    (different : key ≠ other) : (st.put key g).groups[other]? = st.groups[other]? := by
  simp [RouteState.put, Std.ExtTreeMap.getElem?_insert, different]

/- Frame facts. A build writes infos and sessions only; nothing but joining and leaving
   changes the members; only leaving erases a version. -/
theorem buildConnBitmap_frame (relevant : List PeerId) (target : PeerId) :
    ∃ sessions, (g.buildConnBitmap relevant target).2 = { g with sessions } := by
  unfold RouteGroupData.buildConnBitmap
  split
  · exact ⟨g.sessions, rfl⟩
  · simp only
    split
    · exact ⟨_, rfl⟩
    · exact ⟨_, rfl⟩

theorem build_frame (now : Millis) (target : PeerId) (sid : SessionId) (initiator full : Bool) :
    ∃ peerInfos sessions,
      (g.buildSyncRouteInfoRequest now target sid initiator full).2 =
        { g with peerInfos, sessions } := by
  obtain ⟨sessions, mapped⟩ := buildConnBitmap_frame
    ((g.touchSession target sid now).selectInfos now target full).2 (g.relevantPeers target) target
  simp only [RouteGroupData.buildSyncRouteInfoRequest, RouteGroupData.nextForeignVersion, mapped]
  exact ⟨_, _, rfl⟩

theorem storeConnections_frame (p : PeerId) (p2p : PeerSet) :
    ∃ peerConnections, (g.storeConnections p p2p).2 = { g with peerConnections } := by
  unfold RouteGroupData.storeConnections
  split
  · exact ⟨_, rfl⟩
  · exact ⟨_, rfl⟩

theorem setMyInfoField_frame (field value : String) :
    ∃ myInfo myInfoVersion,
      (g.setMyInfoField field value).2 = { g with myInfo, myInfoVersion } := by
  unfold RouteGroupData.setMyInfoField
  split
  · exact ⟨_, _, rfl⟩
  · exact ⟨g.myInfo, g.myInfoVersion, rfl⟩

theorem editPeerInfo_frame (x : Externals) (p : PeerId) (bytes : Bytes) :
    ∃ peerInfos, (RouteOp.edit x g (.updatePeerInfo p bytes)).2 = { g with peerInfos } := by
  simp only [RouteOp.edit]
  split
  · exact ⟨g.peerInfos, rfl⟩
  · split
    · exact ⟨_, rfl⟩
    · simp only
      split
      · exact ⟨_, rfl⟩
      · exact ⟨g.peerInfos, rfl⟩

theorem editPeerConnections_frame (x : Externals) (p : PeerId) (bytes : Bytes) :
    ∃ peerConnections,
      (RouteOp.edit x g (.updatePeerConnections p bytes)).2 = { g with peerConnections } := by
  simp only [RouteOp.edit]
  split
  · exact ⟨g.peerConnections, rfl⟩
  · split
    · exact ⟨g.peerConnections, rfl⟩
    · exact storeConnections_frame g p _

theorem editSync_frame (x : Externals) (p : PeerId) (bytes : Bytes) (now : Millis) :
    ∃ peerInfos sessions,
      (RouteOp.edit x g (.handleSync p bytes now)).2 = { g with peerInfos, sessions } := by
  simp only [RouteOp.edit]
  split
  · exact ⟨g.peerInfos, g.sessions, rfl⟩
  · split
    · exact ⟨g.peerInfos, _, rfl⟩
    · exact ⟨_, _, rfl⟩

/- What an edit keeps of the members and of the versions. -/
def RouteOp.peersAfter (peers : PeerSet) : RouteOp → PeerSet
  | .addPeer p => peers.insert p
  | .removePeer p _ => peers.erase p
  | _ => peers

def RouteOp.versionsAfter (versions : PeerMap Version) : RouteOp → PeerMap Version
  | .removePeer p _ => versions.erase p
  | _ => versions

theorem edit_peers_versions (x : Externals) (op : RouteOp) :
    (op.edit x g).2.peers = op.peersAfter g.peers ∧
      (op.edit x g).2.peerConnVersions = op.versionsAfter g.peerConnVersions := by
  cases op with
  | addPeer p => exact ⟨rfl, rfl⟩
  | removePeer p now => exact ⟨rfl, rfl⟩
  | updatePeerInfo p bytes =>
    obtain ⟨infos, kept⟩ := editPeerInfo_frame g x p bytes
    rw [kept]
    exact ⟨rfl, rfl⟩
  | onRouteSessionAck p sid initiator now => exact ⟨rfl, rfl⟩
  | bumpMyInfoVersion => exact ⟨rfl, rfl⟩
  | setMyInfoField field value =>
    obtain ⟨myInfo, myInfoVersion, kept⟩ := setMyInfoField_frame g field value
    simp only [RouteOp.edit, kept]
    exact ⟨rfl, rfl⟩
  | updatePeerConnections p bytes =>
    obtain ⟨connections, kept⟩ := editPeerConnections_frame g x p bytes
    rw [kept]
    exact ⟨rfl, rfl⟩
  | build now target sid initiator full =>
    obtain ⟨infos, sessions, kept⟩ := build_frame g now target sid initiator full
    simp only [RouteOp.edit, kept]
    exact ⟨rfl, rfl⟩
  | handleSync p bytes now =>
    obtain ⟨infos, sessions, kept⟩ := editSync_frame g x p bytes now
    rw [kept]
    exact ⟨rfl, rfl⟩
  | cleanup threshold now => exact ⟨rfl, rfl⟩

structure Reading (α : Type) where
  of : RouteGroupData → α
  fresh : α
  new : ∀ seed, of (newGroup seed) = fresh
  bump : ∀ g : RouteGroupData, of g.bumpAllConnVersions = of g

section Reading
variable {α β : Type} (v : Reading α)

def Reading.read (st : RouteState) (key : GroupKey) : α :=
  ((st.groups[key]?).map v.of).getD v.fresh

theorem Reading.read_eq_bind {v : Reading (Option β)} (absent : v.fresh = none) (st : RouteState)
    (key : GroupKey) : v.read st key = (st.groups[key]?).bind v.of := by
  unfold Reading.read
  cases st.groups[key]? with
  | none => exact absent
  | some g => rfl

theorem Reading.ensureGroup (st : RouteState) (seed : GroupSeed) (key : GroupKey) :
    v.of (st.ensureGroup seed key) = v.read st key := by
  unfold RouteState.ensureGroup Reading.read
  cases st.groups[key]? with
  | none => exact v.new seed
  | some g => rfl

theorem Reading.put (st : RouteState) (key other : GroupKey) (g : RouteGroupData) :
    v.read (st.put key g) other = if key = other then v.of g else v.read st other := by
  by_cases same : key = other
  · subst same
    simp [Reading.read, RouteState.put]
  · simp only [Reading.read, groups_put_ne st g same, same, ↓reduceIte]

theorem Reading.onGroup (x : Externals) (op : RouteOp) :
    v.of (op.onGroup x g) = v.of (op.edit x g).2 := by
  unfold RouteOp.onGroup
  split
  · exact v.bump _
  · rfl

/-- A call changes what is read off its own group only, and as its edit does. -/
theorem Reading.call (x : Externals) (st : RouteState) (c : RouteCall) (key : GroupKey) :
    v.read (RouteState.call x st c) key =
      if c.groupKey = key then v.of (c.op.edit x (st.ensureGroup c.seed key)).2
      else v.read st key := by
  rcases call_groups x st c with ⟨same, idle⟩ | put
  · have kept := v.onGroup (st.ensureGroup c.seed key) x c.op
    rw [idle] at kept
    rw [same, ← kept, v.ensureGroup, ite_self]
  · rw [put, v.put, v.onGroup]
    by_cases named : c.groupKey = key
    · simp only [named, ↓reduceIte]
    · simp only [named, ↓reduceIte]

theorem Reading.call_kept {x : Externals} {st : RouteState} {c : RouteCall} {key : GroupKey}
    (kept : v.of (c.op.edit x (st.ensureGroup c.seed key)).2 = v.of (st.ensureGroup c.seed key)) :
    v.read (RouteState.call x st c) key = v.read st key := by
  rw [v.call, kept, v.ensureGroup, ite_self]

/-- What is known of a reading holds behind a call if it survives the edit of the group. -/
theorem Reading.call_holds {P : α → Prop} {x : Externals} {st : RouteState} {c : RouteCall}
    {key : GroupKey} (before : P (v.read st key))
    (edited : c.groupKey = key → P (v.of (st.ensureGroup c.seed key)) →
      P (v.of (c.op.edit x (st.ensureGroup c.seed key)).2)) :
    P (v.read (RouteState.call x st c) key) := by
  rw [v.call]
  by_cases named : c.groupKey = key
  · rw [if_pos named]
    apply edited named
    rwa [v.ensureGroup]
  · rwa [if_neg named]

end Reading

def membersReading : Reading PeerSet := ⟨(·.peers), ∅, fun _ => rfl, fun _ => rfl⟩

def connectionsReading : Reading (PeerMap PeerSet) :=
  ⟨(·.peerConnections), ∅, fun _ => rfl, fun _ => rfl⟩

def EveryGroup (P : RouteGroupData → Prop) (st : RouteState) : Prop :=
  ∀ (key : GroupKey) (g : RouteGroupData), st.groups[key]? = some g → P g

section EveryGroup
variable {x : Externals} {P : RouteGroupData → Prop} {st : RouteState}

theorem everyGroup_ensured (new : ∀ seed, P (newGroup seed)) (every : EveryGroup P st)
    (seed : GroupSeed) (key : GroupKey) : P (st.ensureGroup seed key) := by
  unfold RouteState.ensureGroup
  cases stored : st.groups[key]? with
  | none => exact new seed
  | some g => exact every key g stored

theorem everyGroup_call (new : ∀ seed, P (newGroup seed)) {c : RouteCall}
    (kept : ∀ g, P g → P (c.op.onGroup x g)) (every : EveryGroup P st) :
    EveryGroup P (RouteState.call x st c) := by
  rcases call_groups x st c with ⟨same, -⟩ | put
  · rw [same]
    exact every
  · intro key g stored
    rw [put] at stored
    by_cases named : c.groupKey = key
    · subst named
      simp only [RouteState.put, Std.ExtTreeMap.getElem?_insert_self, Option.some.injEq] at stored
      rw [← stored]
      exact kept _ (everyGroup_ensured new every c.seed c.groupKey)
    · rw [groups_put_ne _ _ named] at stored
      exact every key g stored

end EveryGroup

def RouteState.members (st : RouteState) (key : GroupKey) : PeerSet :=
  ((st.groups[key]?).map (·.peers)).getD ∅

theorem mem_getPeerIdsInGroup {st : RouteState} {key : GroupKey} {p : PeerId} :
    p ∈ st.getPeerIdsInGroup key ↔ p ∈ RouteState.members st key := by
  unfold RouteState.getPeerIdsInGroup RouteState.members
  cases st.groups[key]? <;> simp

theorem ensureGroup_peers (st : RouteState) (seed : GroupSeed) (key : GroupKey) :
    (st.ensureGroup seed key).peers = RouteState.members st key :=
  membersReading.ensureGroup st seed key

@[simp] theorem onGroup_peers (x : Externals) (op : RouteOp) :
    (op.onGroup x g).peers = op.peersAfter g.peers :=
  (membersReading.onGroup g x op).trans (edit_peers_versions g x op).1

/-- Only joining and leaving change the members, and only of the group that they name. -/
theorem members_call (x : Externals) (st : RouteState) (c : RouteCall) (key : GroupKey) :
    RouteState.members (RouteState.call x st c) key =
      if c.groupKey = key then c.op.peersAfter (RouteState.members st key)
      else RouteState.members st key := by
  have edited := (edit_peers_versions (st.ensureGroup c.seed key) x c.op).1
  rw [ensureGroup_peers] at edited
  rw [← edited]
  exact membersReading.call x st c key

/- A change of the route state made of calls that meet a condition. -/
def Reaches (x : Externals) (allowed : RouteCall → Prop) (st st' : RouteState) : Prop :=
  ∃ calls, (∀ c ∈ calls, allowed c) ∧ RouteState.callAll x st calls = st'

section Reaches
variable {x : Externals} {allowed weaker : RouteCall → Prop} {st st' st'' : RouteState}

theorem Reaches.refl (st : RouteState) : Reaches x allowed st st :=
  ⟨[], by simp, rfl⟩

theorem Reaches.call {c : RouteCall} (ok : allowed c) :
    Reaches x allowed st (RouteState.call x st c) :=
  ⟨[c], by simpa using ok, rfl⟩

theorem Reaches.trans (first : Reaches x allowed st st') (second : Reaches x allowed st' st'') :
    Reaches x allowed st st'' := by
  obtain ⟨calls, ok, rfl⟩ := first
  obtain ⟨later, okLater, rfl⟩ := second
  refine ⟨calls ++ later, ?_, TransitionRuns.run_append st calls later⟩
  intro c listed
  rcases List.mem_append.mp listed with early | late
  · exact ok c early
  · exact okLater c late

theorem Reaches.mono (imp : ∀ c, allowed c → weaker c) (reached : Reaches x allowed st st') :
    Reaches x weaker st st' := by
  obtain ⟨calls, ok, final⟩ := reached
  exact ⟨calls, fun c listed => imp c (ok c listed), final⟩

/-- What every allowed call respects holds between the two ends. -/
theorem Reaches.relation (rel : RouteState → RouteState → Prop) (refl : ∀ s, rel s s)
    (trans : ∀ {a b c}, rel a b → rel b c → rel a c)
    (respects : ∀ s c, allowed c → rel s (RouteState.call x s c))
    (reached : Reaches x allowed st st') : rel st st' := by
  obtain ⟨calls, ok, rfl⟩ := reached
  induction calls generalizing st with
  | nil => exact refl st
  | cons c rest ih =>
    have first := respects st c (ok c (by simp))
    exact trans first (ih fun d listed => ok d (by simp [listed]))

end Reaches

def RouteOp.keepsMembers : RouteOp → Bool
  | .addPeer _ | .removePeer _ _ => false
  | _ => true

def RouteOp.isBuild : RouteOp → Bool
  | .build _ _ _ _ _ => true
  | _ => false

def RouteOp.keepsInfos : RouteOp → Bool
  | .removePeer _ _ | .handleSync _ _ _ => false
  | _ => true

/- The operations of builds, acks, checked infos and conn_info. -/
def RouteOp.routine : RouteOp → Bool
  | .addPeer _ | .removePeer _ _ | .handleSync _ _ _ => false
  | _ => true

/- The operations of a re-created room. -/
def RouteOp.enrolls : RouteOp → Bool
  | .addPeer _ | .bumpMyInfoVersion => true
  | _ => false

theorem RouteOp.keeps_of_enrolls {op : RouteOp} (enrolls : op.enrolls = true) :
    op.keepsInfos = true ∧ op.isBuild = false := by
  cases op <;> simp_all [RouteOp.enrolls, RouteOp.keepsInfos, RouteOp.isBuild]

/- The routine operations but the builds. -/
def RouteOp.plain (op : RouteOp) : Bool := op.routine && !op.isBuild

theorem RouteOp.routine_of_plain {op : RouteOp} (plain : op.plain = true) : op.routine = true :=
  (Bool.and_eq_true_iff.mp plain).1

theorem RouteOp.not_isBuild_of_plain {op : RouteOp} (plain : op.plain = true) :
    op.isBuild = false := by
  simpa using (Bool.and_eq_true_iff.mp plain).2

theorem RouteOp.keepsMembers_of_routine {op : RouteOp} (ordinary : op.routine = true) :
    op.keepsMembers = true := by
  cases op <;> simp_all [RouteOp.routine, RouteOp.keepsMembers]

theorem RouteOp.routine_of_isBuild {op : RouteOp} (builds : op.isBuild = true) :
    op.routine = true := by
  cases op <;> simp_all [RouteOp.isBuild, RouteOp.routine]

theorem RouteOp.keepsInfos_of_routine {op : RouteOp} (ordinary : op.routine = true) :
    op.keepsInfos = true := by
  cases op <;> simp_all [RouteOp.routine, RouteOp.keepsInfos]

theorem members_reaches {x : Externals} {st st' : RouteState}
    (reached : Reaches x (fun c => c.op.keepsMembers = true) st st') :
    RouteState.members st' = RouteState.members st := by
  refine reached.relation (fun a b => RouteState.members b = RouteState.members a) (fun _ => rfl)
    (fun first second => second.trans first) ?_
  intro s c keeps
  funext key
  rw [members_call]
  obtain ⟨group, seed, op⟩ := c
  cases op <;> simp_all [RouteOp.keepsMembers, RouteOp.peersAfter]

end RelayRouteOps
