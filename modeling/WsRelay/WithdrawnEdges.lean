import WsRelay.PeerCenterCache
import WsRelay.Membership
import WsRelay.Library.SharedStore

/- The peer centers over runs of a room. Only a report changes a center, reports only add pairs,
   and only a restart takes pairs away; so a pair that its source no longer lists stays. -/
namespace RelayWithdrawnEdges
open RelayProtocol RelayRouteState RelayPeerCenter RelayPeerManager RelayRpcHandler RelayRoomModel
open RelayRoomSteps RelayMembership RelayPeerCenterCache RelayWireFormats PrefixCodec
open TransitionRuns SharedStore

theorem mem_mergeReport {stored : PairStore} {req : ReportPeersRequest} {nowMs : Millis}
    {src dst : PeerId} :
    (⟨src, dst⟩ : SrcDstPeerPair) ∈ mergeReport stored req nowMs ↔
      (src = req.myPeerId ∧ dst ∈ directPeers req) ∨ (⟨src, dst⟩ : SrcDstPeerPair) ∈ stored := by
  have fold (bindings : List (PeerId × DirectConnectedPeerInfo)) (m : PairStore) :
      (⟨src, dst⟩ : SrcDstPeerPair) ∈ bindings.foldl (fun stored binding =>
        stored.insert ⟨req.myPeerId, binding.1⟩ ⟨binding.2, nowMs⟩) m ↔
          (src = req.myPeerId ∧ dst ∈ bindings.map Prod.fst) ∨
            (⟨src, dst⟩ : SrcDstPeerPair) ∈ m := by
    induction bindings generalizing m with
    | nil => simp
    | cons binding rest ih =>
      rw [List.foldl_cons, ih]
      simp only [Std.ExtTreeMap.mem_insert, Std.LawfulEqCmp.compare_eq_iff_eq,
        SrcDstPeerPair.mk.injEq, List.map_cons, List.mem_cons]
      rw [@eq_comm _ req.myPeerId, @eq_comm _ binding.1]
      tauto
  refine Iff.trans (fold (directPeers req).toList stored) ?_
  rw [Std.ExtTreeMap.map_fst_toList_eq_keys, Std.ExtTreeMap.mem_keys]

def centers (r : Relay) : PeerCenterMap := r.global.peerCenterMap

def centerData (m : PeerCenterMap) (key : GroupKey) : PeerCenterGroupData :=
  (m.getD key PeerCenter.new).group key

def storedPairs (m : PeerCenterMap) (key : GroupKey) : PairStore := (centerData m key).globalPeerMap

def reportOf (x : Externals) (payload : Bytes) : Option ReportPeersRequest :=
  (x.decodeRpcPacket payload).bind fun packet =>
    if isPeerCenterService (serviceName packet) && methodIndex packet == 0
    then x.decodeReportPeersRequest (innerRequestBody x packet) else none

def localReport (x : Externals) (header : PacketHeader) (payload : Bytes) :
    Option ReportPeersRequest :=
  if header.packetTypeEnum = .rpcReq ∧ handledLocally header = true then reportOf x payload
  else none

def reportIn (x : Externals) (r : Relay) (e : Env × RoomEvent) :
    Option (GroupKey × ReportPeersRequest) :=
  match e.2 with
  | .message w (.binary bytes) =>
    if r.room.isOpen w then
      (parseHeader bytes).bind fun header =>
        (localReport x header (bytes.drop headerSize)).map fun req =>
          ((r.currentAttachment e.1 w).groupKey, req)
    else none
  | _ => none

def pairsAfter (nowMs : Millis) (key : GroupKey) (stored : PairStore) :
    Option (GroupKey × ReportPeersRequest) → PairStore
  | some (reported, req) => if reported = key then mergeReport stored req nowMs else stored
  | none => stored

def centerAfter (x : Externals) (nowMs : Millis) (key : GroupKey) (data : PeerCenterGroupData) :
    Option (GroupKey × ReportPeersRequest) → PeerCenterGroupData
  | some (reported, req) => if reported = key then data.report x req nowMs else data
  | none => data

theorem centerAfter_pairs (x : Externals) (nowMs : Millis) (key : GroupKey)
    (data : PeerCenterGroupData) (report : Option (GroupKey × ReportPeersRequest)) :
    (centerAfter x nowMs key data report).globalPeerMap =
      pairsAfter nowMs key data.globalPeerMap report := by
  unfold centerAfter pairsAfter
  split
  · split
    · rfl
    · rfl
  · rfl

theorem centerData_insert (m : PeerCenterMap) (key other : GroupKey) (pc : PeerCenter) :
    centerData (m.insert key pc) other =
      if key = other then pc.group other else centerData m other := by
  simp only [centerData, Std.ExtTreeMap.getD_insert, Std.LawfulEqCmp.compare_eq_iff_eq]
  split
  · rfl
  · rfl

theorem handlePeerCenterRpc_center (x : Externals) (a : Ambient) (ctx : WsPeerContext)
    (m : PeerCenterMap) (packet : RpcPacket) (inner : Bytes) (key : GroupKey) :
    centerData (handlePeerCenterRpc x a ctx m packet inner).2 key =
      centerAfter x a.nowMs key (centerData m key)
        ((if methodIndex packet = 0 then x.decodeReportPeersRequest inner else none).map fun req =>
          (ctx.groupKey, req)) := by
  have untouched (pc : PeerCenter) (same : pc = m.getD ctx.groupKey PeerCenter.new) :
      centerData (m.insert ctx.groupKey pc) key = centerData m key := by
    rw [centerData_insert]
    split
    · rename_i named
      rw [same, ← named]
      rfl
    · rfl
  unfold handlePeerCenterRpc
  by_cases report : methodIndex packet = 0
  · simp only [report, ↓reduceIte]
    cases decoded : x.decodeReportPeersRequest inner with
    | none =>
      simp only [PeerCenter.reportPeers, decoded]
      exact untouched _ rfl
    | some req =>
      simp only [PeerCenter.reportPeers, decoded, centerData_insert, Option.map_some, centerAfter]
      split
      · rename_i named
        rw [← named, group_put]
        rfl
      · rfl
  · simp only [report, ↓reduceIte, Option.map_none, centerAfter]
    by_cases ask : methodIndex packet = 1
    · simp only [ask, ↓reduceIte]
      cases decoded : x.decodeGetGlobalPeerMapRequest inner with
      | none =>
        simp only [PeerCenter.getGlobalPeerMap, decoded]
        exact untouched _ rfl
      | some req =>
        simp only [PeerCenter.getGlobalPeerMap, decoded, centerData_insert]
        split
        · rename_i named
          rw [← named, group_put]
          rfl
        · rfl
    · simp only [ask, ↓reduceIte]
      exact untouched _ rfl

theorem handleRpcReq_center (x : Externals) (a : Ambient) (ctx : WsPeerContext) (pm : PeerManager)
    (m : PeerCenterMap) (payload : Bytes) (key : GroupKey) :
    centerData (handleRpcReq x a ctx pm m payload).peerCenterMap key =
      centerAfter x a.nowMs key (centerData m key)
        ((reportOf x payload).map fun req => (ctx.groupKey, req)) := by
  unfold handleRpcReq reportOf
  cases x.decodeRpcPacket payload with
  | none => rfl
  | some packet =>
    simp only [dispatchRpcReq, Option.bind_some]
    by_cases center : isPeerCenterService (serviceName packet) = true
    · simp only [center, ↓reduceIte, handlePeerCenterRpc_center, Bool.true_and, beq_iff_eq]
    · simp only [center, Bool.false_eq_true, ↓reduceIte, Bool.false_and, Option.map_none,
        centerAfter]
      split
      · split
        · rfl
        · rfl
      · rfl

theorem handleRpcReq_pairs (x : Externals) (a : Ambient) (ctx : WsPeerContext) (pm : PeerManager)
    (m : PeerCenterMap) (payload : Bytes) (key : GroupKey) :
    storedPairs (handleRpcReq x a ctx pm m payload).peerCenterMap key =
      pairsAfter a.nowMs key (storedPairs m key)
        ((reportOf x payload).map fun req => (ctx.groupKey, req)) := by
  rw [storedPairs, handleRpcReq_center, centerAfter_pairs]
  rfl

section Frame
variable (x : Externals) (env : Env) (r : Relay)

theorem centers_forward (w : SocketId) (header : PacketHeader) (frame : Bytes) :
    centers (r.forwardMessage env w header frame).2 = centers r := by
  unfold Relay.forwardMessage
  split
  · rfl
  · simp only
    split
    · split
      · rfl
      · rfl
    · rfl

theorem centers_broadcastTo (groupKey : GroupKey) (excludePeerId : PeerId) (s : Socket) :
    centers (broadcastTo x env groupKey excludePeerId r s) = centers r := by
  rcases broadcastTo_cases x env r groupKey excludePeerId s with
    same | ⟨att, frame, origin, -, -, told⟩
  · rw [same]
  · rw [told]
    rfl

theorem centers_broadcast (groupKey : GroupKey) (excludePeerId : PeerId) :
    centers (r.broadcastRouteUpdate x env groupKey excludePeerId) = centers r := by
  refine broadcast_invariant x env r (fun r' => centers r' = centers r) ?_ rfl
  intro r' s _ same
  exact (centers_broadcastTo x env r' groupKey excludePeerId s).trans same

theorem centers_runAction (w : SocketId) (att : WsAttachment) (action : RpcAction) :
    centers (r.runAction x env w att action).2 = centers r := by
  cases action with
  | sendTo p bytes =>
    obtain ⟨frame, sent⟩ := runAction_sends x env r w att p bytes
    rw [sent]
    rfl
  | pushRouteUpdate p groupKey =>
    obtain ⟨frame, origin, pushed⟩ := runAction_pushes x env r w att p groupKey
    rw [pushed]
    rfl
  | broadcastRouteUpdate groupKey excludePeerId =>
    exact centers_broadcast x env r groupKey excludePeerId
  | none => rfl

theorem centers_runActions (w : SocketId) (att : WsAttachment) (actions : List RpcAction)
    (r : Relay) : centers (Relay.runActions x env w att actions r).2 = centers r := by
  refine runActions_invariant x env r (fun r' => centers r' = centers r) ?_ rfl
  intro r' action _ same
  exact (centers_runAction x env r' w att action).trans same

theorem centers_serialize (w : SocketId) (att : WsAttachment) :
    centers (r.serializeAttachment env w att).2 = centers r := by
  unfold Relay.serializeAttachment
  split
  · rfl
  · rfl

theorem centers_onHandShake (w : SocketId) (att : WsAttachment) (payload : Bytes) :
    centers (r.onHandShake x env w att payload).2.2 = centers r := by
  unfold Relay.onHandShake
  simp only
  split
  · rfl
  · rename_i outcome _
    unfold Relay.welcome
    have written := centers_serialize env
      { r with global := { r.global with
        networkDigestRegistry := (handleHandshake x payload r.global.networkDigestRegistry).2 } }
      w (attachOutcome att outcome)
    split
    · rename_i result
      rw [result] at written
      exact written
    · rename_i next result
      rw [result] at written
      have registered : centers (next.registerPeer x env outcome.groupKey outcome.peerId) =
        centers next := rfl
      simp only
      split
      · rename_i sent
        have answered := congrArg (fun out : Bool × Relay => centers out.2) sent
        exact answered.symm.trans (registered.trans written)
      · rename_i later sent
        have answered := congrArg (fun out : Bool × Relay => centers out.2) sent
        rw [centers_broadcast]
        exact answered.symm.trans (registered.trans written)

theorem centers_dropConnection (w : SocketId) :
    centers (r.dropConnection x env w) = centers r := by
  unfold Relay.dropConnection
  split
  · rfl
  · split
    · rfl
    split
    · rfl
    rw [centers_broadcast]
    rfl

theorem centers_alarm : centers (r.alarm x env) = centers r := by
  have swept (keys : List GroupKey) (r : Relay) :
      centers (keys.foldl (cleanupGroup env) r) = centers r := by
    induction keys generalizing r with
    | nil => rfl
    | cons key rest ih => exact ih (cleanupGroup env r key)
  have refreshed (keys : List GroupKey) (r : Relay) :
      centers (keys.foldl (fun r key => r.broadcastRouteUpdate x env key 0) r) = centers r := by
    induction keys generalizing r with
    | nil => rfl
    | cons key rest ih => rw [List.foldl_cons, ih, centers_broadcast]
  rw [alarm_eq, refreshed]
  exact swept _ (scanned env r)

theorem centers_new : centers (r.new env) = centers r := by
  have swept (sockets : List Socket) (gs : GlobalStateInner) :
      (sockets.foldl (rehydratePeer env) gs).peerCenterMap = gs.peerCenterMap := by
    induction sockets generalizing gs with
    | nil => rfl
    | cons s rest ih =>
      rw [List.foldl_cons, ih]
      unfold rehydratePeer
      split
      · rfl
      · split
        · rfl
        · split
          · rfl
          · rfl
  exact swept r.room.sockets r.global

end Frame

section Events
variable {x : Externals} {env : Env} {r : Relay} {key : GroupKey}

theorem dispatch_pairs (w : SocketId) (att : WsAttachment) (header : PacketHeader)
    (payload frame : Bytes) :
    storedPairs (centers (r.dispatch x env w att header payload frame).2.2) key =
      pairsAfter env.nowMs key (storedPairs (centers r) key)
        ((localReport x header payload).map fun req => (att.groupKey, req)) := by
  by_cases kind : header.packetTypeEnum = .rpcReq
  · simp only [Relay.dispatch, kind, Relay.onRpcReq]
    by_cases here : handledLocally header = true
    · have asked : localReport x header payload = reportOf x payload := if_pos ⟨kind, here⟩
      rw [if_pos here, centers_runActions, asked]
      exact handleRpcReq_pairs x _ _ _ (centers r) payload key
    · have passed : localReport x header payload = none := by
        simp only [localReport, here, and_false, ↓reduceIte, Bool.false_eq_true]
      rw [if_neg here, centers_forward, passed]
      rfl
  · have other : localReport x header payload = none := by
      simp only [localReport, kind, false_and, ↓reduceIte]
    have kept : centers (r.dispatch x env w att header payload frame).2.2 = centers r := by
      unfold Relay.dispatch
      cases shape : header.packetTypeEnum with
      | rpcReq => exact absurd shape kind
      | handShake => exact centers_onHandShake x env r w att payload
      | ping => rfl
      | rpcResp =>
        simp only [Relay.onRpcResp]
        split
        · rfl
        · exact centers_forward env r w header frame
      | _ => exact centers_forward env r w header frame
    rw [kept, other]
    rfl

/-- A report merges into the pairs of its group; a restart clears all; nothing else matters. -/
theorem pairs_step {e : Env × RoomEvent} (alive : e.2 ≠ .restart) :
    storedPairs (centers (r.onEvent x e)) key =
      pairsAfter e.1.nowMs key (storedPairs (centers r) key) (reportIn x r e) := by
  obtain ⟨env, event⟩ := e
  cases event with
  | accept => rfl
  | message w message =>
    simp only [Relay.onEvent, Relay.step, reportIn]
    cases message with
    | text body =>
      split
      · rfl
      · rfl
    | binary bytes =>
      by_cases listed : r.room.isOpen w = true
      · simp only [listed, ↓reduceIte]
        cases parsed : parseHeader bytes with
        | none =>
          simp only [Relay.websocketMessage, parsed]
          rfl
        | some header =>
          have written : centers (r.websocketMessage x env w (.binary bytes)) = centers
              (r.dispatch x env w (r.currentAttachment env w) header (bytes.drop headerSize)
                bytes).2.2 := by
            rw [websocketMessage_eq x env r w parsed, centers, writeBack_global]
            rfl
          rw [written]
          exact dispatch_pairs w (r.currentAttachment env w) header (bytes.drop headerSize) bytes
      · simp only [listed, Bool.false_eq_true, ↓reduceIte]
        rfl
  | close w =>
    simp only [Relay.onEvent, Relay.step, reportIn, pairsAfter]
    split
    · exact congrArg (storedPairs · key) (centers_dropConnection x env r w)
    · rfl
  | error w =>
    simp only [Relay.onEvent, Relay.step, reportIn, pairsAfter]
    split
    · exact congrArg (storedPairs · key) (centers_dropConnection x env r w)
    · rfl
  | alarm => exact congrArg (storedPairs · key) (centers_alarm x env r)
  | rehydrate => exact congrArg (storedPairs · key) (centers_new env r)
  | restart => exact absurd rfl alive

theorem pairs_restart (env : Env) :
    storedPairs (centers (r.onEvent x (env, .restart))) key = ∅ := by
  have fresh : centers (r.onEvent x (env, .restart)) = ∅ :=
    centers_new env { r with global := GlobalStateInner.fresh }
  rw [fresh]
  simp [storedPairs, centerData, PeerCenter.new, PeerCenter.group]

end Events

/- The last direct_peers that each source has reported in each group. -/
abbrev LastReports := GroupKey → PeerId → Option (PeerMap DirectConnectedPeerInfo)

def noteReport (x : Externals) (r : Relay) (t : LastReports) (e : Env × RoomEvent) : LastReports :=
  match reportIn x r e with
  | none => t
  | some (reported, req) => fun key p =>
    if key = reported ∧ p = req.myPeerId then some (directPeers req) else t key p

def lastReports (x : Externals) (events : List (Env × RoomEvent)) : LastReports :=
  (run (watch (Relay.onEvent x) (noteReport x)) (Relay.initial, fun _ _ => none) events).2

/- Whatever a response can contain was listed by the last report of its source. -/
def OnlyLastReported (r : Relay) (t : LastReports) : Prop :=
  ∀ key digest src dst,
    (infoIn ((centerData (centers r) key).respond ⟨digest⟩).globalPeerMap src dst).isSome = true →
      ∃ listed, t key src = some listed ∧ dst ∈ listed

/- A report that leaves out no stored destination of its source. -/
def ReportsInFull (x : Externals) (r : Relay) (e : Env × RoomEvent) : Prop :=
  ∀ key req, reportIn x r e = some (key, req) →
    ∀ dst, (⟨req.myPeerId, dst⟩ : SrcDstPeerPair) ∈ storedPairs (centers r) key →
      dst ∈ directPeers req

/- The same, about the pairs that are stored. -/
def Backed (s : Relay × LastReports) : Prop :=
  ∀ key src dst, (⟨src, dst⟩ : SrcDstPeerPair) ∈ storedPairs (centers s.1) key →
    ∃ listed, s.2 key src = some listed ∧ dst ∈ listed

theorem onlyLastReported_iff {r : Relay} {t : LastReports} :
    OnlyLastReported r t ↔ Backed (r, t) := by
  constructor
  · intro only key src dst stored
    apply only key 0 src dst
    have full : (centerData (centers r) key).respond ⟨0⟩ =
        ⟨regroup (storedPairs (centers r) key), some (centerData (centers r) key).digest⟩ := by
      simp [PeerCenterGroupData.respond, storedPairs]
    rw [full]
    exact mem_pairsIn_regroup.mpr stored
  · intro backed key digest src dst contained
    apply backed key src dst
    simp only [PeerCenterGroupData.respond] at contained
    split at contained
    · simp [infoIn] at contained
    · exact mem_pairsIn_regroup.mp contained

theorem backed_step_iff {x : Externals} (s : Relay × LastReports) (e : Env × RoomEvent)
    (backed : Backed s) :
    Backed (watch (Relay.onEvent x) (noteReport x) s e) ↔ ReportsInFull x s.1 e := by
  by_cases again : e.2 = .restart
  · obtain ⟨env, event⟩ := e
    obtain rfl : event = .restart := again
    apply iff_of_true
    · intro key src dst stored
      simp only [watch, pairs_restart] at stored
      simp at stored
    · intro key req reported
      cases reported
  unfold Backed ReportsInFull
  simp only [watch, pairs_step again, noteReport]
  cases reported : reportIn x s.1 e with
  | none =>
    simp only [pairsAfter, reduceCtorEq, false_implies, implies_true, iff_true]
    exact backed
  | some report =>
    obtain ⟨named, req⟩ := report
    simp only [pairsAfter, Option.some.injEq, Prod.mk.injEq]
    constructor
    · rintro kept key req' ⟨rfl, rfl⟩ dst stored
      have after := kept named req.myPeerId dst
      simp only [↓reduceIte, mem_mergeReport, and_self, Option.some.injEq,
        exists_eq_left'] at after
      exact after (Or.inr stored)
    · intro inFull key src dst stored
      by_cases here : named = key
      · subst here
        simp only [↓reduceIte, mem_mergeReport] at stored
        by_cases own : src = req.myPeerId
        · subst own
          refine ⟨directPeers req, by simp, ?_⟩
          rcases stored with ⟨-, listed⟩ | old
          · exact listed
          · exact inFull named req ⟨rfl, rfl⟩ dst old
        · obtain ⟨listed, last, member⟩ := backed named src dst (by simpa [own] using stored)
          exact ⟨listed, by simpa [own] using last, member⟩
      · simp only [here, ↓reduceIte] at stored
        obtain ⟨listed, last, member⟩ := backed key src dst stored
        exact ⟨listed, by simpa [Ne.symm here] using last, member⟩

/-- In every state of a run a response contains only what the last report of its source lists,
    exactly if every report of the run lists all the stored destinations of its source. -/
theorem withdrawn_edges_iff (x : Externals) (events : List (Env × RoomEvent)) :
    (∀ before after, events = before ++ after →
        OnlyLastReported (Relay.run x Relay.initial before) (lastReports x before)) ↔
      EveryStep (Relay.onEvent x) (ReportsInFull x) Relay.initial events := by
  have start : Backed (Relay.initial, fun _ _ => none) := by
    intro key src dst stored
    simp [storedPairs, centerData, centers, Relay.initial, GlobalStateInner.fresh, PeerCenter.new,
      PeerCenter.group] at stored
  have watched : (∀ before after, events = before ++ after →
      Backed (run (watch (Relay.onEvent x) (noteReport x)) (Relay.initial, fun _ _ => none)
        before)) ↔ EveryStep (watch (Relay.onEvent x) (noteReport x))
          (fun s e => ReportsInFull x s.1 e) (Relay.initial, fun _ _ => none) events :=
    invariant_iff start backed_step_iff
  have first (before : List (Env × RoomEvent)) :
      (run (watch (Relay.onEvent x) (noteReport x)) (Relay.initial, fun _ _ => none) before).1 =
        Relay.run x Relay.initial before := run_watch _ _ _ before
  rw [everyStep_watch] at watched
  rw [← watched]
  refine forall_congr' fun before => forall_congr' fun after => forall_congr' fun split => ?_
  rw [onlyLastReported_iff, lastReports, ← first before]

/- A report to the relay itself. -/
def reportMessage (p : PeerId) (listed : List PeerId) : IncomingMessage :=
  .binary (frameOf .rpcReq p myPeerId
    (rpcPacket.write
      { fromPeer := p, toPeer := myPeerId, transactionId := 1, traceId := 0, isRequest := true,
        totalPieces := 1, pieceIdx := 0, compressionInfo := none,
        descriptor := some ⟨"net", "PeerCenterRpc", "PeerCenterRpc", 0⟩,
        body := rpcRequest.write ⟨none, reportPeersRequest.write
          ⟨p, some ⟨listed.foldl (fun m q => m.insert q ⟨[]⟩) ∅⟩⟩, 5000⟩ }))

/- Peer 5 reports 6 and 7, and then only 6. -/
def shrinkingReport : List (Env × RoomEvent) :=
  quietly [.accept, .message 0 (greeting 5 "net" [0xaa]), .message 0 (reportMessage 5 [6, 7]),
    .message 0 (reportMessage 5 [6])]

set_option maxRecDepth 8000 in
theorem withdrawn_edge_stays :
    ¬ OnlyLastReported (Relay.run wire Relay.initial shrinkingReport)
      (lastReports wire shrinkingReport) := by
  intro only
  obtain ⟨listed, last, member⟩ := only "net:aa" 0 5 7 (by decide)
  have second : lastReports wire shrinkingReport "net:aa" 5 =
      some ((∅ : PeerMap DirectConnectedPeerInfo).insert 6 ⟨[]⟩) := by decide
  rw [second] at last
  obtain rfl := Option.some.inj last
  exact absurd member (by decide)

end RelayWithdrawnEdges
