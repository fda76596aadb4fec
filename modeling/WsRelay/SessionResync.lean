import WsRelay.InfoSelections

/- A new session id of a peer, learned from an ack or from a request, makes the relay forget
   what it remembers of that peer; so the next build tells everything again. -/
namespace RelaySessionResync
open RelayProtocol RelayRouteState RelayRouteOps RelayConnBitmap RelayChangeBroadcast RelayResidue
open RelayOwnRecords RelayInfoSelections TransitionRuns

structure SessionMemory where
  peerInfoVerMap : PeerMap Version
  connBitmapVerMap : PeerMap Version
  foreignNetVer : UInt32
  lastConnBitmapSig : Option String

def memoryOf (s : SessionState) : SessionMemory :=
  ⟨s.peerInfoVerMap, s.connBitmapVerMap, s.foreignNetVer, s.lastConnBitmapSig⟩

def blank : SessionMemory := memoryOf {}

def memoryReading (t : PeerId) : Reading SessionMemory where
  of g := memoryOf (g.session t)
  fresh := blank
  new seed := by simp [newGroup, RouteGroupData.session, blank]
  bump _ := rfl

def RouteState.memory (st : RouteState) (key : GroupKey) (t : PeerId) : SessionMemory :=
  (memoryReading t).read st key

def dstReading (t : PeerId) : Reading (Option SessionId) where
  of g := (g.session t).dstSessionId
  fresh := none
  new seed := by simp [newGroup, RouteGroupData.session]
  bump _ := rfl

def RouteState.dstSessionId (st : RouteState) (key : GroupKey) (t : PeerId) : Option SessionId :=
  (dstReading t).read st key

def Learns (x : Externals) (key : GroupKey) (t : PeerId) (sid : SessionId) (c : RouteCall) : Prop :=
  c.groupKey = key ∧
    ((∃ initiator now, c.op = .onRouteSessionAck t sid initiator now) ∨
      ∃ bytes now req, c.op = .handleSync t bytes now ∧
        x.decodeSyncRouteInfoRequest bytes = some req ∧ req.mySessionId = sid)

def BuildsFor (key : GroupKey) (t : PeerId) (c : RouteCall) : Prop :=
  c.groupKey = key ∧ ∃ now sid initiator full, c.op = .build now t sid initiator full

section Memory
variable {x : Externals} {g : RouteGroupData} {t : PeerId}

theorem forget_memory (s : SessionState) : memoryOf s.forget = blank := rfl

theorem resetIfNew_memory (s : SessionState) (sid : SessionId) :
    memoryOf (s.resetIfNew sid) = if s.dstSessionId = some sid then memoryOf s else blank := by
  unfold SessionState.resetIfNew
  by_cases known : s.dstSessionId = some sid
  · simp [known]
  · simp only [known, ne_eq, not_false_eq_true, ↓reduceIte]
    exact forget_memory s

theorem ack_memory (sid : SessionId) (initiator : Bool) (now : Millis) :
    memoryOf ((g.onRouteSessionAck t sid initiator now).session t) =
      if (g.session t).dstSessionId = some sid then memoryOf (g.session t) else blank := by
  have written : (g.onRouteSessionAck t sid initiator now).session t =
      { (g.session t).resetIfNew sid with
        dstSessionId := some sid, weAreInitiator := initiator, lastTouchMs := now } := by
    rw [RouteGroupData.session]
    exact (session_insert ..).trans (if_pos rfl)
  rw [written, ← resetIfNew_memory]
  rfl

theorem touchFrom_memory (req : SyncRouteInfoRequest) (now : Millis) :
    memoryOf ((g.touchFrom t req now).session t) =
      if (g.session t).dstSessionId = some req.mySessionId then memoryOf (g.session t)
      else blank := by
  have touched := resetIfNew_memory { g.session t with lastTouchMs := now } req.mySessionId
  have written : memoryOf ((g.touchFrom t req now).session t) =
      memoryOf ({ g.session t with lastTouchMs := now }.resetIfNew req.mySessionId) := by
    rw [RouteGroupData.session]
    simp only [RouteGroupData.touchFrom, session_insert, ↓reduceIte]
    rfl
  rw [written, touched]
  rfl

theorem sync_memory {bytes : Bytes} {req : SyncRouteInfoRequest}
    (decoded : x.decodeSyncRouteInfoRequest bytes = some req) (now : Millis) :
    memoryOf ((RouteOp.edit x g (.handleSync t bytes now)).2.session t) =
      if (g.session t).dstSessionId = some req.mySessionId then memoryOf (g.session t)
      else blank := by
  rw [← touchFrom_memory req now]
  simp only [RouteOp.edit, decoded]
  split
  · rfl
  · rfl

theorem learned_memory {st : RouteState} {key : GroupKey} {sid : SessionId} {c : RouteCall}
    (learns : Learns x key t sid c) :
    RouteState.memory (RouteState.call x st c) key t =
      if RouteState.dstSessionId st key t = some sid then RouteState.memory st key t
      else blank := by
  obtain ⟨named, path⟩ := learns
  have called := (memoryReading t).call x st c key
  have memory := (memoryReading t).ensureGroup st c.seed key
  have known := (dstReading t).ensureGroup st c.seed key
  rw [if_pos named] at called
  rw [RouteState.memory, called, RouteState.dstSessionId, RouteState.memory, ← known, ← memory]
  rcases path with ⟨initiator, now, opened⟩ | ⟨bytes, now, req, opened, decoded, rfl⟩
  · rw [opened]
    exact ack_memory sid initiator now
  · rw [opened]
    exact sync_memory decoded now

theorem edit_memory {op : RouteOp} (quiet : ∀ now sid initiator full,
    op ≠ .build now t sid initiator full) :
    memoryOf ((op.edit x g).2.session t) = memoryOf (g.session t) ∨
      memoryOf ((op.edit x g).2.session t) = blank := by
  by_cases own : RouteOp.records op = some t
  · cases op with
    | removePeer p now =>
      obtain rfl := Option.some.inj own
      right
      simp [RouteOp.edit, RouteGroupData.session, blank]
    | onRouteSessionAck p sid initiator now =>
      obtain rfl := Option.some.inj own
      have learned : memoryOf ((RouteOp.edit x g (.onRouteSessionAck p sid initiator now)).2.session
          p) = _ := ack_memory sid initiator now
      rw [learned]
      exact ite_eq_or_eq _ _ _
    | handleSync p bytes now =>
      obtain rfl := Option.some.inj own
      cases decoded : x.decodeSyncRouteInfoRequest bytes with
      | none =>
        left
        simp only [RouteOp.edit, decoded]
      | some req =>
        rw [sync_memory decoded now]
        exact ite_eq_or_eq _ _ _
    | build now p sid initiator full =>
      obtain rfl := Option.some.inj own
      exact absurd rfl (quiet now sid initiator full)
    | _ => cases own
  · left
    rw [edit_session x g own]

theorem call_blank {st : RouteState} {key : GroupKey} {c : RouteCall}
    (quiet : ¬ BuildsFor key t c) (cleared : RouteState.memory st key t = blank) :
    RouteState.memory (RouteState.call x st c) key t = blank := by
  refine (memoryReading t).call_holds (P := fun memory => memory = blank) cleared ?_
  intro named before
  have kept : memoryOf ((c.op.edit x (st.ensureGroup c.seed key)).2.session t) =
      memoryOf ((st.ensureGroup c.seed key).session t) ∨
      memoryOf ((c.op.edit x (st.ensureGroup c.seed key)).2.session t) = blank := by
    apply edit_memory
    intro now sid initiator full opened
    exact quiet ⟨named, now, sid, initiator, full, opened⟩
  rcases kept with same | blanked
  · exact same.trans before
  · exact blanked

theorem run_blank {st : RouteState} {key : GroupKey} {calls : List RouteCall}
    (quiet : ∀ c ∈ calls, ¬ BuildsFor key t c) (cleared : RouteState.memory st key t = blank) :
    RouteState.memory (RouteState.callAll x st calls) key t = blank :=
  invariant_run (fun st => RouteState.memory st key t = blank)
    (fun _ _ passes blanked => call_blank passes blanked) cleared (everyStep_of_forall quiet)

end Memory

/- The request carries the info that the server stores for every relevant id, and conn_info. -/
structure TellsAll (st : RouteState) (key : GroupKey) (t : PeerId)
    (built : SyncRouteInfoRequest × RouteState) : Prop where
  infos : ∀ q, q = myPeerId ∨ q = t ∨ q ∈ RouteState.members st key →
    ∃ item ∈ listedItems built.1, RouteState.storedFor built.2 key q = some item
  connInfo : built.1.connInfo ≠ none

theorem blank_tellsAll {st : RouteState} {key : GroupKey} {t : PeerId}
    (cleared : RouteState.memory st key t = blank) (seed : GroupSeed) (now : Millis)
    (sid : SessionId) (initiator full : Bool) :
    TellsAll st key t (st.buildSyncRouteInfoRequest seed now key t sid initiator full) := by
  set g := st.ensureGroup seed key with gDef
  have memory : memoryOf (g.session t) = blank := by
    rw [← cleared]
    exact (memoryReading t).ensureGroup st seed key
  have remembered : (g.session t).peerInfoVerMap = ∅ := congrArg SessionMemory.peerInfoVerMap memory
  have signature : RouteGroupData.signature g t = none :=
    congrArg SessionMemory.lastConnBitmapSig memory
  constructor
  · intro q listed
    have relevant : q ∈ g.relevantPeers t := by
      rw [mem_relevantPeers, gDef, ensureGroup_peers]
      exact listed
    refine ⟨RouteGroupData.listedInfo g now g.peerInfos q, ?_, ?_⟩
    · have items := build_items g now t sid initiator full
      simp only [RouteState.buildSyncRouteInfoRequest, ← gDef, items]
      refine List.mem_map.mpr ⟨q, ?_, rfl⟩
      rw [mem_selected]
      refine ⟨relevant, ?_⟩
      simp [RouteGroupData.selects, remembered, clamped_positive]
    · simp only [RouteState.buildSyncRouteInfoRequest, ← gDef, storedFor_put]
      rw [build_storedFor, if_pos relevant]
  · simp only [RouteState.buildSyncRouteInfoRequest, ← gDef]
    rw [(build_spec g now t sid initiator full).1, signature]
    simp

structure Resyncs (x : Externals) (st : RouteState) (key : GroupKey) (t : PeerId)
    (sid : SessionId) : Prop where
  same_memory : ∀ c c', Learns x key t sid c → Learns x key t sid c' →
    RouteState.memory (RouteState.call x st c) key t =
      RouteState.memory (RouteState.call x st c') key t
  tells_all : RouteState.dstSessionId st key t ≠ some sid → ∀ c, Learns x key t sid c →
    ∀ calls : List RouteCall, (∀ d ∈ calls, ¬ BuildsFor key t d) →
      ∀ seed now serverSid initiator full,
        let before := RouteState.callAll x (RouteState.call x st c) calls
        TellsAll before key t
          (before.buildSyncRouteInfoRequest seed now key t serverSid initiator full)
  keeps : RouteState.dstSessionId st key t = some sid → ∀ c, Learns x key t sid c →
    RouteState.memory (RouteState.call x st c) key t = RouteState.memory st key t

/-- From every state, a session id that is learned either way clears the memory if it is new
    and keeps it if it is known, and after a new one the next build tells everything. -/
theorem new_session_resyncs (x : Externals) (st : RouteState) (key : GroupKey) (t : PeerId)
    (sid : SessionId) : Resyncs x st key t sid where
  same_memory := by
    intro c c' learns learns'
    rw [learned_memory learns, learned_memory learns']
  tells_all := by
    intro unknown c learns calls quiet seed now serverSid initiator full
    apply blank_tellsAll
    apply run_blank quiet
    rw [learned_memory learns, if_neg unknown]
  keeps := by
    intro known c learns
    rw [learned_memory learns, if_pos known]

end RelaySessionResync
