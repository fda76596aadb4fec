import WsRelay.Residue
import WsRelay.WithdrawnEdges

/- Session records, report times and reported pairs, and the peer that each write is booked on. A
   request is booked on the attached peer, a response on the header's sender, and a report on the
   peer that the message names. -/
namespace RelayOwnRecords
open RelayProtocol RelayRouteState RelayPeerCenter RelayPeerManager RelayRpcHandler RelayRoomModel
open RelayRouteOps RelayRoomSteps RelayPeerCenterCache RelayWithdrawnEdges RelayResidue
open FoldMaps

def RouteState.sessionOf (st : RouteState) (key : GroupKey) (q : PeerId) : Option SessionState :=
  (st.groups[key]?).bind (·.sessions[q]?)

def sessionReading (q : PeerId) : Reading (Option SessionState) where
  of := fun g => g.sessions[q]?
  fresh := none
  new seed := by simp [newGroup]
  bump _ := rfl

theorem sessionReading_read (st : RouteState) (key : GroupKey) (q : PeerId) :
    (sessionReading q).read st key = RouteState.sessionOf st key q :=
  Reading.read_eq_bind rfl st key

theorem ensureGroup_sessionOf (st : RouteState) (seed : GroupSeed) (key : GroupKey) (q : PeerId) :
    (st.ensureGroup seed key).sessions[q]? = RouteState.sessionOf st key q :=
  ((sessionReading q).ensureGroup st seed key).trans (sessionReading_read st key q)

def RouteOp.records : RouteOp → Option PeerId
  | .removePeer p _ | .onRouteSessionAck p _ _ _ | .build _ p _ _ _ | .handleSync p _ _ => some p
  | _ => none

theorem edit_sessions (x : Externals) (g : RouteGroupData) {op : RouteOp} {q : PeerId}
    (other : RouteOp.records op ≠ some q) : (op.edit x g).2.sessions[q]? = g.sessions[q]? := by
  have kept (p : PeerId) (different : p ≠ q) (sessions : PeerMap SessionState) (s : SessionState) :
      (sessions.insert p s)[q]? = sessions[q]? := by
    simp [Std.ExtTreeMap.getElem?_insert, different]
  cases op with
  | addPeer p => rfl
  | bumpMyInfoVersion => rfl
  | cleanup threshold now => rfl
  | removePeer p now =>
    have different : p ≠ q := fun same => other (congrArg some same)
    simp [RouteOp.edit, Std.ExtTreeMap.getElem?_erase, different]
  | updatePeerInfo p bytes =>
    obtain ⟨infos, frame⟩ := editPeerInfo_frame g x p bytes
    rw [frame]
  | onRouteSessionAck p sid initiator now =>
    exact kept p (fun same => other (congrArg some same)) g.sessions _
  | setMyInfoField field value =>
    obtain ⟨myInfo, myInfoVersion, frame⟩ := setMyInfoField_frame g field value
    simp only [RouteOp.edit, frame]
  | updatePeerConnections p bytes =>
    obtain ⟨connections, frame⟩ := editPeerConnections_frame g x p bytes
    rw [frame]
  | build now p sid initiator full =>
    have different : p ≠ q := fun same => other (congrArg some same)
    have mapped (relevant : List PeerId) (g : RouteGroupData) :
        (g.buildConnBitmap relevant p).2.sessions[q]? = g.sessions[q]? := by
      unfold RouteGroupData.buildConnBitmap
      split
      · rfl
      · simp only
        split
        · exact kept p different _ _
        · exact kept p different _ _
    simp only [RouteOp.edit, RouteGroupData.buildSyncRouteInfoRequest,
      RouteGroupData.nextForeignVersion]
    rw [kept p different, mapped]
    simp only [RouteGroupData.selectInfos, RouteGroupData.touchSession]
    rw [kept p different, kept p different]
  | handleSync p bytes now =>
    have different : p ≠ q := fun same => other (congrArg some same)
    simp only [RouteOp.edit]
    split
    · rfl
    · split
      · exact kept p different g.sessions _
      · exact kept p different g.sessions _

theorem edit_session (x : Externals) (g : RouteGroupData) {op : RouteOp} {q : PeerId}
    (other : RouteOp.records op ≠ some q) : (op.edit x g).2.session q = g.session q := by
  rw [RouteGroupData.session, Std.ExtTreeMap.getD_eq_getD_getElem?, edit_sessions x g other,
    ← Std.ExtTreeMap.getD_eq_getD_getElem?]
  rfl

theorem sessionOf_call (x : Externals) (st : RouteState) (c : RouteCall) (key : GroupKey)
    (q : PeerId) :
    RouteState.sessionOf (RouteState.call x st c) key q =
      if c.groupKey = key then (c.op.edit x (st.ensureGroup c.seed key)).2.sessions[q]?
      else RouteState.sessionOf st key q := by
  rw [← sessionReading_read, ← sessionReading_read]
  exact (sessionReading q).call x st c key

/- A call that writes no session but those of the listed owners. -/
def WritesOnly (owners : GroupKey → PeerId → Prop) (c : RouteCall) : Prop :=
  ∀ q, RouteOp.records c.op = some q → owners c.groupKey q

theorem sessionOf_reaches {x : Externals} {owners : GroupKey → PeerId → Prop} {st st' : RouteState}
    (reached : Reaches x (WritesOnly owners) st st') {key : GroupKey} {q : PeerId}
    (other : ¬ owners key q) : RouteState.sessionOf st' key q = RouteState.sessionOf st key q := by
  refine reached.relation
    (fun before after => RouteState.sessionOf after key q = RouteState.sessionOf before key q)
    (fun _ => rfl) (fun first second => second.trans first) ?_
  intro s c writes
  rw [sessionOf_call]
  by_cases named : c.groupKey = key
  · subst named
    simp only [↓reduceIte]
    rw [edit_sessions x _ fun records => other (writes q records), ensureGroup_sessionOf]
  · simp only [named, ↓reduceIte]

theorem requestCalls_own (x : Externals) (a : Ambient) (ctx : WsPeerContext) (body : Bytes) :
    ∀ c ∈ requestCalls x a ctx body,
      WritesOnly (fun key q => key = ctx.groupKey ∧ q = ctx.peerId) c := by
  intro c listed q records
  obtain ⟨op, rfl, ⟨sid, initiator, rfl⟩ | ⟨info, rfl⟩ | rfl | rfl⟩ := requestCalls_cases listed
  · exact ⟨rfl, (Option.some.inj records).symm⟩
  · cases records
  · cases records
  · exact ⟨rfl, (Option.some.inj records).symm⟩

theorem handleRpcReq_sessions (x : Externals) (a : Ambient) (ctx : WsPeerContext)
    (pm : PeerManager) (m : PeerCenterMap) (payload : Bytes) :
    Reaches x (WritesOnly fun key q => key = ctx.groupKey ∧ q = ctx.peerId) pm.routeState
      (handleRpcReq x a ctx pm m payload).peerManager.routeState := by
  rw [handleRpcReq_routes]
  cases syncBody x payload with
  | none => exact Reaches.refl _
  | some body =>
    refine ⟨requestCalls x a ctx body, requestCalls_own x a ctx body, ?_⟩
    simp only [applySyncRequest_calls, requestCalls, RouteState.callAll,
      TransitionRuns.run_append, TransitionRuns.run_cons, TransitionRuns.run_nil]

/- An ack leaves the record as it was only if the same was booked on it in this millisecond. -/
def Acked (st : RouteState) (key : GroupKey) (p : PeerId) (sid : SessionId) (initiator : Bool)
    (nowMs : Millis) : Prop :=
  ∃ s, RouteState.sessionOf st key p = some s ∧ s.dstSessionId = some sid ∧
    s.weAreInitiator = initiator ∧ s.lastTouchMs = nowMs

theorem sessionOf_ack_iff (x : Externals) (st : RouteState) (key : GroupKey) (seed : GroupSeed)
    (p : PeerId) (sid : SessionId) (initiator : Bool) (nowMs : Millis) :
    RouteState.sessionOf (RouteState.call x st
        ⟨key, seed, .onRouteSessionAck p sid initiator nowMs⟩) key p =
      RouteState.sessionOf st key p ↔ Acked st key p sid initiator nowMs := by
  have written : RouteState.sessionOf (RouteState.call x st
      ⟨key, seed, .onRouteSessionAck p sid initiator nowMs⟩) key p =
        some { (((RouteState.sessionOf st key p).getD {}).resetIfNew sid) with
          dstSessionId := some sid, weAreInitiator := initiator, lastTouchMs := nowMs } := by
    rw [sessionOf_call]
    simp only [↓reduceIte, RouteOp.edit, RouteGroupData.onRouteSessionAck,
      RouteGroupData.session, Std.ExtTreeMap.getElem?_insert_self,
      Std.ExtTreeMap.getD_eq_getD_getElem?, ensureGroup_sessionOf]
  rw [written]
  constructor
  · intro same
    exact ⟨_, same.symm, rfl, rfl, rfl⟩
  · rintro ⟨s, stored, known, role, touched⟩
    rw [stored, Option.getD_some]
    simp only [SessionState.resetIfNew, known, ne_eq, not_true_eq_false, ↓reduceIte]
    rw [← known, ← role, ← touched]

def reportTime (m : PeerCenterMap) (key : GroupKey) (q : PeerId) : Option Millis :=
  (centerData m key).peerReportTime[q]?

theorem reportTime_handleRpcReq (x : Externals) (a : Ambient) (ctx : WsPeerContext)
    (pm : PeerManager) (m : PeerCenterMap) (payload : Bytes) (key : GroupKey) (q : PeerId) :
    reportTime (handleRpcReq x a ctx pm m payload).peerCenterMap key q =
      match reportOf x payload with
      | some req =>
        if ctx.groupKey = key ∧ req.myPeerId = q then some a.nowMs else reportTime m key q
      | none => reportTime m key q := by
  unfold reportTime
  rw [handleRpcReq_center]
  cases reportOf x payload with
  | none => rfl
  | some req =>
    simp only [Option.map_some, centerAfter]
    by_cases named : ctx.groupKey = key
    · simp [named, PeerCenterGroupData.report, Std.ExtTreeMap.getElem?_insert]
    · simp [named]

theorem getElem?_mergeReport (stored : PairStore) (req : ReportPeersRequest) (nowMs : Millis)
    (src dst : PeerId) :
    (mergeReport stored req nowMs)[(⟨src, dst⟩ : SrcDstPeerPair)]? =
      if src = req.myPeerId then
        (((directPeers req)[dst]?).map fun info => ⟨info, nowMs⟩).or
          stored[(⟨src, dst⟩ : SrcDstPeerPair)]?
      else stored[(⟨src, dst⟩ : SrcDstPeerPair)]? := by
  have loop := foldl_overwrite (fun _ => true)
    (fun binding : PeerId × DirectConnectedPeerInfo => SrcDstPeerPair.mk req.myPeerId binding.1)
    (fun binding => PeerCenterInfoEntry.mk binding.2 nowMs) (directPeers req).toList stored ⟨src, dst⟩
  simp only [↓reduceIte, Bool.true_and] at loop
  refine Eq.trans loop ?_
  by_cases own : src = req.myPeerId
  · have about (binding : PeerId × DirectConnectedPeerInfo) :
        (SrcDstPeerPair.mk req.myPeerId binding.1 == ⟨src, dst⟩) = (binding.1 == dst) := by
      rw [own]
      by_cases named : binding.1 = dst
      · simp [named]
      · simp [named]
    rw [if_pos own, ← find_binding (directPeers req)]
    simp only [about, Option.map_map, Function.comp_def]
  · have skipped : (directPeers req).toList.reverse.find? (fun binding =>
        SrcDstPeerPair.mk req.myPeerId binding.1 == ⟨src, dst⟩) = none := by
      rw [List.find?_eq_none]
      intro binding _
      simp [Ne.symm own]
    rw [if_neg own, skipped]
    rfl

theorem pairs_handleRpcReq (x : Externals) (a : Ambient) (ctx : WsPeerContext) (pm : PeerManager)
    (m : PeerCenterMap) (payload : Bytes) (key : GroupKey) (pair : SrcDstPeerPair) :
    (storedPairs (handleRpcReq x a ctx pm m payload).peerCenterMap key)[pair]? =
      match reportOf x payload with
      | some req =>
        if ctx.groupKey = key ∧ pair.src = req.myPeerId then
          (((directPeers req)[pair.dst]?).map fun info => ⟨info, a.nowMs⟩).or
            (storedPairs m key)[pair]?
        else (storedPairs m key)[pair]?
      | none => (storedPairs m key)[pair]? := by
  rw [handleRpcReq_pairs]
  cases reportOf x payload with
  | none => rfl
  | some req =>
    simp only [Option.map_some, pairsAfter]
    by_cases named : ctx.groupKey = key
    · simp only [named, ↓reduceIte, true_and]
      exact getElem?_mergeReport (storedPairs m key) req a.nowMs pair.src pair.dst
    · simp [named]

/- A report changes nothing only if the same was reported in this millisecond. -/
def Reported (m : PeerCenterMap) (key : GroupKey) (req : ReportPeersRequest) (nowMs : Millis) :
    Prop :=
  reportTime m key req.myPeerId = some nowMs ∧
    ∀ dst info, (directPeers req)[dst]? = some info →
      (storedPairs m key)[(⟨req.myPeerId, dst⟩ : SrcDstPeerPair)]? = some ⟨info, nowMs⟩

end RelayOwnRecords
