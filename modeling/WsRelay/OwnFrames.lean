import WsRelay.ForeignVersions
import WsRelay.Liveness

/- Whose records a frame from a socket changes, over the whole of its handling. Three identities
   are around: the attachment's, the header's and the message's own. The handler may write on any
   of them, and a broadcast behind a request writes on the members that it is built for. -/
namespace RelayOwnFrames
open RelayProtocol RelayRouteState RelayPeerCenter RelayPeerManager RelayRpcHandler RelayRoomModel
open RelayRouteOps RelayRoomSteps RelayMembership RelayPeerCenterCache RelayWithdrawnEdges
open RelayResidue RelayOwnRecords RelayPeerInfoVersions RelayChangeBroadcast RelayForeignVersions
open RelayLiveness RelayWireFormats PrefixCodec EventCounts

/- Sessions, report times and pairs, apart from those of one peer in one group. -/
structure OnlyOwn (key : GroupKey) (p : PeerId) (before after : Relay) : Prop where
  sessions : ∀ other q, ¬ (other = key ∧ q = p) →
    RouteState.sessionOf (routes after) other q = RouteState.sessionOf (routes before) other q
  reports : ∀ other q, ¬ (other = key ∧ q = p) →
    reportTime (centers after) other q = reportTime (centers before) other q
  pairs : ∀ other (pair : SrcDstPeerPair), ¬ (other = key ∧ pair.src = p) →
    (storedPairs (centers after) other)[pair]? = (storedPairs (centers before) other)[pair]?

theorem onlyOwn_congr {key : GroupKey} {p : PeerId} {before after after' : Relay}
    (same : after'.global = after.global) :
    OnlyOwn key p before after' ↔ OnlyOwn key p before after := by
  have routed : routes after' = routes after := congrArg (·.peerManager.routeState) same
  have mapped : centers after' = centers after := congrArg (·.peerCenterMap) same
  constructor
  · rintro ⟨sessions, reports, pairs⟩
    rw [routed] at sessions
    rw [mapped] at reports pairs
    exact ⟨sessions, reports, pairs⟩
  · rintro ⟨sessions, reports, pairs⟩
    rw [← routed] at sessions
    rw [← mapped] at reports pairs
    exact ⟨sessions, reports, pairs⟩

/- An RpcReq or RpcResp that the relay handles itself. -/
structure LocalRpc (bytes : Bytes) (header : PacketHeader) : Prop where
  parsed : parseHeader bytes = some header
  here : handledLocally header = true
  rpc : header.packetTypeEnum = .rpcReq ∨ header.packetTypeEnum = .rpcResp

def Own (att : WsAttachment) (key : GroupKey) (q : PeerId) : Prop :=
  key = att.groupKey ∧ q = att.peerId

section Frame
variable (x : Externals) (env : Env) (r : Relay) (att : WsAttachment) (header : PacketHeader)
  (payload : Bytes)

/- The request brings a higher version or new connections. -/
def Spreads (req : SyncRouteInfoRequest) : Prop :=
  RouteGroupData.Reconnects ((routes r).ensureGroup (env.seed att.groupKey) att.groupKey)
      att.peerId req ∨
    ∃ item ∈ listedItems req, NewsAbout x (routes r) att.groupKey item

def CarriesNews : Prop :=
  ∃ req, (syncBody x payload).bind x.decodeSyncRouteInfoRequest = some req ∧
    Spreads x env r att req

/- The response and the update for the peer itself go out, and there is news for the others. -/
def Broadcasts : Prop :=
  env.sendOk r.room.sent.length = true ∧ env.sendOk (r.room.sent.length + 1) = true ∧
    CarriesNews x env r att payload

/-- A report names the attached peer, and so does the header of a response that acks; a repeated
    write of the same values does not count. A broadcast finds no other member on an open
    socket. -/
def SpeaksForItself : Prop :=
  match header.packetTypeEnum with
  | .rpcReq => (∀ req, reportOf x payload = some req →
      req.myPeerId = att.peerId ∨ Reported (centers r) att.groupKey req env.nowMs) ∧
      (Broadcasts x env r att payload →
        ∀ s ∈ r.room.sockets, ∀ q, Carries s q att.groupKey → q = att.peerId)
  | .rpcResp => ∀ sid, ackedSession x payload = some sid →
      header.fromPeerId = att.peerId ∨
        Acked (routes r) att.groupKey header.fromPeerId sid att.weAreInitiator env.nowMs
  | _ => True

theorem request_onlyOwn_iff :
    OnlyOwn att.groupKey att.peerId r (r.handleRpcReqLocally x env att payload).2 ↔
      ∀ req, reportOf x payload = some req →
        req.myPeerId = att.peerId ∨ Reported (centers r) att.groupKey req env.nowMs := by
  set a := env.ambient att.groupKey r.room.sent.length
  set ctx := attachmentToCtx a.randomU64 att
  have sessions : ∀ other q, ¬ (other = att.groupKey ∧ q = att.peerId) →
      RouteState.sessionOf (routes (r.handleRpcReqLocally x env att payload).2) other q =
        RouteState.sessionOf (routes r) other q := by
    intro other q foreign
    exact sessionOf_reaches
      (handleRpcReq_sessions x a ctx r.global.peerManager r.global.peerCenterMap payload) foreign
  have times (other : GroupKey) (q : PeerId) := reportTime_handleRpcReq x a ctx
    r.global.peerManager r.global.peerCenterMap payload other q
  have written (other : GroupKey) (pair : SrcDstPeerPair) := pairs_handleRpcReq x a ctx
    r.global.peerManager r.global.peerCenterMap payload other pair
  cases report : reportOf x payload with
  | none =>
    refine iff_of_true ?_ (by simp)
    simp only [report] at times written
    exact ⟨sessions, fun other q _ => times other q, fun other pair _ => written other pair⟩
  | some req =>
    simp only [report] at times written
    simp only [Option.some.injEq, forall_eq']
    constructor
    · intro own
      by_cases self : req.myPeerId = att.peerId
      · exact Or.inl self
      · right
        have foreign : ¬ (att.groupKey = att.groupKey ∧ req.myPeerId = att.peerId) := by
          simp [self]
        constructor
        · have booked := (times att.groupKey req.myPeerId).trans (if_pos ⟨rfl, rfl⟩)
          exact (own.reports _ _ foreign).symm.trans booked
        · intro dst info listed
          have booked := (written att.groupKey ⟨req.myPeerId, dst⟩).trans (if_pos ⟨rfl, rfl⟩)
          rw [listed] at booked
          exact (own.pairs _ ⟨req.myPeerId, dst⟩ foreign).symm.trans booked
    · intro speaks
      refine ⟨sessions, ?_, ?_⟩
      · intro other q foreign
        refine Eq.trans (times other q) ?_
        split
        · rename_i named
          obtain ⟨rfl, rfl⟩ := named
          rcases speaks with self | repeated
          · exact absurd ⟨rfl, self⟩ foreign
          · exact repeated.1.symm
        · rfl
      · intro other pair foreign
        refine Eq.trans (written other pair) ?_
        split
        · rename_i named
          obtain ⟨rfl, self⟩ := named
          rcases speaks with same | repeated
          · exact absurd ⟨rfl, self.trans same⟩ foreign
          · cases listed : (directPeers req)[pair.dst]? with
            | none => rfl
            | some info =>
              obtain ⟨src, dst⟩ := pair
              obtain rfl : src = req.myPeerId := self
              exact (repeated.2 dst info listed).symm
        · rfl

theorem response_onlyOwn_iff (p : PeerId) :
    OnlyOwn att.groupKey att.peerId r (r.withManager (handleRpcResp x
        (env.ambient att.groupKey r.room.sent.length)
        (attachmentToCtx (env.randomU64 r.room.sent.length) att) r.global.peerManager p
        payload).2) ↔
      ∀ sid, ackedSession x payload = some sid →
        p = att.peerId ∨ Acked (routes r) att.groupKey p sid att.weAreInitiator env.nowMs := by
  rw [handleRpcResp_eq]
  cases ackedSession x payload with
  | none =>
    refine iff_of_true ?_ (by simp)
    exact ⟨fun _ _ _ => rfl, fun _ _ _ => rfl, fun _ _ _ => rfl⟩
  | some sid =>
    simp only [Option.some.injEq, forall_eq', ← sessionOf_ack_iff x _ _ (env.seed att.groupKey)]
    constructor
    · intro own
      by_cases self : p = att.peerId
      · exact Or.inl self
      · right
        exact own.sessions att.groupKey p (by simp [self])
    · intro speaks
      refine ⟨?_, fun _ _ _ => rfl, fun _ _ _ => rfl⟩
      intro other q foreign
      by_cases booked : other = att.groupKey ∧ q = p
      · obtain ⟨rfl, rfl⟩ := booked
        rcases speaks with self | repeated
        · exact absurd ⟨rfl, self⟩ foreign
        · exact repeated
      · have acks : WritesOnly (fun key q => key = att.groupKey ∧ q = p) ⟨att.groupKey,
            env.seed att.groupKey, .onRouteSessionAck p sid att.weAreInitiator env.nowMs⟩ := by
          intro q' records
          exact ⟨rfl, (Option.some.inj records).symm⟩
        have acked : Reaches x _ (routes r) _ := Reaches.call acks
        exact sessionOf_reaches acked booked

theorem buildCall_own {seat : WsAttachment} (group : seat.groupKey = att.groupKey)
    (peer : seat.peerId = att.peerId) :
    WritesOnly (Own att) (buildCall env r seat seat.peerId) := by
  intro q records
  exact ⟨group, (Option.some.inj records).symm.trans peer⟩

theorem buildFor_own : Reaches x (WritesOnly (Own att)) (routes r)
    (routes (r.buildFor x env att att.peerId).2) :=
  Reaches.call (buildCall_own env r att rfl rfl)

theorem runActions_own {w : SocketId} {actions : List RpcAction} {ctx : WsPeerContext}
    (peer : ctx.peerId = att.peerId) (own : ∀ action ∈ actions, OwnAction ctx action)
    (calm : ∀ action ∈ actions, isBroadcast action = false) :
    Reaches x (WritesOnly (Own att)) (routes r)
      (routes (Relay.runActions x env w att actions r).2) := by
  refine runActions_invariant x env r
    (fun r' => Reaches x (WritesOnly (Own att)) (routes r) (routes r')) ?_ (Reaches.refl _)
  intro r' action listed reached
  cases action with
  | sendTo p bytes =>
    obtain ⟨frame, sent⟩ := runAction_sends x env r' w att p bytes
    rw [sent]
    exact reached
  | pushRouteUpdate p groupKey =>
    obtain rfl : p = att.peerId := (own _ listed).1.trans peer
    obtain ⟨frame, origin, pushed⟩ := runAction_pushes x env r' w att att.peerId groupKey
    rw [pushed]
    exact reached.trans (buildFor_own x env r' att)
  | broadcastRouteUpdate groupKey excludePeerId => cases calm _ listed
  | none => exact reached

theorem request_shape :
    let ctx := attachmentToCtx (env.randomU64 r.room.sent.length) att
    let actions := (r.handleRpcReqLocally x env att payload).1
    (¬ CarriesNews x env r att payload ∧ ∀ action ∈ actions, isBroadcast action = false) ∨
    (CarriesNews x env r att payload ∧ ∃ bytes, actions = [.sendTo ctx.peerId bytes,
      .pushRouteUpdate ctx.peerId ctx.groupKey,
      .broadcastRouteUpdate ctx.groupKey ctx.peerId]) := by
  intro ctx actions
  set a := env.ambient att.groupKey r.room.sent.length
  cases named : syncBody x payload with
  | none =>
    left
    obtain ⟨bytes, shape⟩ := handleRpcReq_center (x := x) a ctx r.global.peerManager
      r.global.peerCenterMap named
    have handled : actions = if centerAnswers x payload then [.sendTo ctx.peerId bytes] else [] :=
      shape
    constructor
    · rintro ⟨req, decoded, -⟩
      simp [named] at decoded
    · intro action listed
      rw [handled] at listed
      split at listed
      · obtain rfl := List.mem_singleton.mp listed
        rfl
      · cases listed
  | some body =>
    obtain ⟨packet, shape, -⟩ := handleRpcReq_sync x a ctx r.global.peerManager named
      r.global.peerCenterMap
    have handled : actions = (handleSyncRouteInfo x a ctx r.global.peerManager packet body
        ctx.groupKey).1 := shape
    cases decoded : x.decodeSyncRouteInfoRequest body with
    | none =>
      left
      constructor
      · rintro ⟨req, listed, -⟩
        simp [named, decoded] at listed
      · rw [handled, handleSyncRouteInfo_silent decoded]
        intro action listed
        cases listed
    | some req =>
      have news : CarriesNews x env r att payload ↔ (applySyncRequest x a (withSession a ctx)
          r.global.peerManager body ctx.groupKey).1 = true := by
        rw [applied_flag decoded]
        simp only [CarriesNews, named, Option.bind_some, decoded, Option.some.injEq,
          exists_eq_left']
        rfl
      rw [news, handled, handleSyncRouteInfo_actions x a ctx r.global.peerManager decoded packet]
      by_cases tells : (applySyncRequest x a (withSession a ctx) r.global.peerManager body
          ctx.groupKey).1 = true
      · right
        rw [if_pos tells]
        exact ⟨tells, _, rfl⟩
      · left
        rw [if_neg tells]
        refine ⟨tells, ?_⟩
        intro action listed
        rcases List.mem_pair.mp listed with rfl | rfl
        · rfl
        · rfl

theorem runActions_news (w : SocketId) (key : GroupKey) (bytes : Bytes) :
    ∃ answered told : Relay, routes answered = routes r ∧
      told.room.sockets = r.room.sockets ∧
      Reaches x (WritesOnly (Own att)) (routes r) (routes told) ∧
      (Relay.runActions x env w att [.sendTo att.peerId bytes, .pushRouteUpdate att.peerId key,
          .broadcastRouteUpdate key att.peerId] r).2 =
        if env.sendOk r.room.sent.length then
          if env.sendOk (r.room.sent.length + 1) then
            told.broadcastRouteUpdate x env key att.peerId
          else told
        else answered := by
  obtain ⟨answer, sent⟩ := runAction_sends x env r w att att.peerId bytes
  set answered := (r.send env w answer .rpcResp).2 with answeredDef
  obtain ⟨update, origin, pushed⟩ := runAction_pushes x env answered w att att.peerId key
  set told := ((answered.buildFor x env att att.peerId).2.send env w update origin).2 with toldDef
  have built : Reaches x (WritesOnly (Own att)) (routes r) (routes told) :=
    buildFor_own x env answered att
  have first : (r.send env w answer .rpcResp).1 = env.sendOk r.room.sent.length := rfl
  have second : ((answered.buildFor x env att att.peerId).2.send env w update origin).1 =
      env.sendOk (r.room.sent.length + 1) := by
    have length : answered.room.sent.length = r.room.sent.length + 1 := List.length_append
    exact congrArg env.sendOk length
  have broadcast (s : Relay) : (Relay.runActions x env w att
      [.broadcastRouteUpdate key att.peerId] s).2 =
        s.broadcastRouteUpdate x env key att.peerId := rfl
  refine ⟨answered, told, rfl, rfl, built, ?_⟩
  rw [runActions_snd, sent, first, runActions_snd, pushed, second, broadcast]

/-- A request writes on its own peer, and then either ends or broadcasts to the group. -/
theorem request_ends (w : SocketId) (frame : Bytes) (here : handledLocally header = true) :
    let final := (r.onRpcReq x env w att header payload frame).2
    (¬ Broadcasts x env r att payload ∧
      Reaches x (WritesOnly (Own att)) (routes r) (routes final)) ∨
    (Broadcasts x env r att payload ∧ ∃ told : Relay, told.room.sockets = r.room.sockets ∧
      Reaches x (WritesOnly (Own att)) (routes r) (routes told) ∧
      final = told.broadcastRouteUpdate x env att.groupKey att.peerId) := by
  intro final
  set handled := (r.handleRpcReqLocally x env att payload).2 with handledDef
  set actions := (r.handleRpcReqLocally x env att payload).1 with actionsDef
  set a := env.ambient att.groupKey r.room.sent.length
  set ctx := attachmentToCtx (env.randomU64 r.room.sent.length) att
  have asked : Reaches x (WritesOnly (Own att)) (routes r) (routes handled) :=
    handleRpcReq_sessions x a ctx r.global.peerManager r.global.peerCenterMap payload
  have ran : final = (Relay.runActions x env w att actions handled).2 := by
    simp only [final, Relay.onRpcReq, here, ↓reduceIte, actionsDef, handledDef]
  rcases request_shape x env r att payload with ⟨plain, calm⟩ | ⟨news, bytes, shape⟩
  · left
    have own := handleRpcReq_own x a ctx r.global.peerManager r.global.peerCenterMap payload
    refine ⟨fun broadcasts => plain broadcasts.2.2, ?_⟩
    rw [ran]
    exact asked.trans (runActions_own x env handled att rfl own calm)
  · obtain ⟨answered, told, silent, sockets, built, three⟩ :=
      runActions_news x env handled att w att.groupKey bytes
    have log : handled.room.sent.length = r.room.sent.length := rfl
    have whole : final = _ := ran.trans ((congrArg (fun list =>
      (Relay.runActions x env w att list handled).2) shape).trans three)
    rw [log] at whole
    by_cases first : env.sendOk r.room.sent.length = true
    · rw [if_pos first] at whole
      by_cases second : env.sendOk (r.room.sent.length + 1) = true
      · right
        rw [if_pos second] at whole
        exact ⟨⟨first, second, news⟩, told, sockets, asked.trans built, whole⟩
      · left
        rw [if_neg second] at whole
        rw [whole]
        exact ⟨fun broadcasts => second broadcasts.2.1, asked.trans built⟩
    · left
      rw [if_neg first] at whole
      rw [whole, silent]
      exact ⟨fun broadcasts => first broadcasts.1, asked⟩

def carries (q : PeerId) (key : GroupKey) (s : Socket) : Bool :=
  s.attachment.any fun att => att.peerId == q && att.groupKey == key

theorem carries_iff {q : PeerId} {key : GroupKey} {s : Socket} :
    carries q key s = true ↔ Carries s q key := by
  simp [carries, Carries, Option.any_eq_true]

theorem broadcastTo_counts {key : GroupKey} {q excluded : PeerId} (other : q ≠ excluded)
    (s : Socket) :
    RouteState.foreignNetVer (routes (broadcastTo x env key excluded r s)) key q =
      RouteState.foreignNetVer (routes r) key q + if carries q key s then 1 else 0 := by
  unfold broadcastTo carries
  cases s.attachment with
  | none => simp
  | some seat =>
    simp only [Option.any_some, Bool.and_eq_true, beq_iff_eq]
    by_cases skipped : seat.peerId = excluded
    · simp [skipped, Ne.symm other]
    · by_cases inside : seat.groupKey = key
      · have built : RouteState.foreignNetVer (RouteState.call x (routes r)
            (buildCall env r seat seat.peerId)) key q = _ := call_foreignNetVer _ _
        have tick : foreignTick x key q (routes r) (buildCall env r seat seat.peerId) =
            if seat.peerId = q then .counts else .idle := by
          simp [foreignTick, buildCall, inside, RouteOp.foreignTick]
        rw [tick] at built
        simp only [skipped, inside, not_true, ↓reduceIte, and_true, ne_eq]
        refine Eq.trans built ?_
        split
        · rfl
        · simp [Tick.act]
      · simp [skipped, inside]

theorem broadcast_counts {key : GroupKey} {q excluded : PeerId} (other : q ≠ excluded)
    (sockets : List Socket) (r : Relay) :
    RouteState.foreignNetVer (routes (sockets.foldl (broadcastTo x env key excluded) r)) key q =
      RouteState.foreignNetVer (routes r) key q +
        UInt32.ofNat (sockets.countP (carries q key)) := by
  induction sockets generalizing r with
  | nil => simp
  | cons s rest ih =>
    rw [List.foldl_cons, ih, broadcastTo_counts x env r other, List.countP_cons]
    split
    · rw [UInt32.ofNat_add, UInt32.add_assoc, UInt32.add_comm 1]
      rfl
    · simp

theorem foreignNetVer_sessionOf (st : RouteState) (key : GroupKey) (q : PeerId) :
    RouteState.foreignNetVer st key q =
      ((RouteState.sessionOf st key q).map (·.foreignNetVer)).getD 0 := by
  rw [RouteState.foreignNetVer, Reading.read, RouteState.sessionOf]
  cases st.groups[key]? with
  | none => rfl
  | some g =>
    simp only [Option.map_some, Option.getD_some, Option.bind_some, foreignVersionReading,
      RouteGroupData.foreignNetVer, RouteGroupData.session, Std.ExtTreeMap.getD_eq_getD_getElem?]
    cases g.sessions[q]? with
    | none => rfl
    | some session => rfl

theorem request_centers (w : SocketId) (frame : Bytes) (here : handledLocally header = true) :
    centers (r.onRpcReq x env w att header payload frame).2 =
      centers (r.handleRpcReqLocally x env att payload).2 := by
  simp only [Relay.onRpcReq, here, ↓reduceIte]
  exact centers_runActions x env w att _ _

theorem broadcast_alone (told : Relay)
    (alone : ∀ s ∈ told.room.sockets, ∀ q, Carries s q att.groupKey → q = att.peerId) :
    Reaches x (WritesOnly (Own att)) (routes told)
      (routes (told.broadcastRouteUpdate x env att.groupKey att.peerId)) := by
  refine broadcast_invariant x env told
    (fun r' => Reaches x (WritesOnly (Own att)) (routes told) (routes r')) ?_ (Reaches.refl _)
  intro r' s listed reached
  rcases broadcastTo_cases x env r' att.groupKey att.peerId s with
    same | ⟨seat, frame, origin, attached, named, built⟩
  · rwa [same]
  · have own : seat.peerId = att.peerId := alone s listed _ ⟨seat, attached, rfl, named⟩
    rw [built]
    exact reached.trans (Reaches.call (buildCall_own env r' att named own))

/- The builds for a peer in one broadcast leave a mark on its session: there are fewer of them than
   the counter has values, since get_websockets answers with a Vec. -/
theorem broadcast_marks {told : Relay} {q : PeerId} (other : q ≠ att.peerId)
    (few : told.room.sockets.length < usizeSize)
    (kept : RouteState.sessionOf (routes (told.broadcastRouteUpdate x env att.groupKey
      att.peerId)) att.groupKey q = RouteState.sessionOf (routes told) att.groupKey q) :
    ∀ s ∈ told.room.sockets, ¬ Carries s q att.groupKey := by
  set count := told.room.sockets.countP (carries q att.groupKey) with countDef
  have counted : RouteState.foreignNetVer (routes (told.broadcastRouteUpdate x env att.groupKey
      att.peerId)) att.groupKey q =
        RouteState.foreignNetVer (routes told) att.groupKey q + UInt32.ofNat count :=
    broadcast_counts x env other told.room.sockets told
  rw [foreignNetVer_sessionOf, kept, ← foreignNetVer_sessionOf] at counted
  have nothing : UInt32.ofNat count = 0 := by
    have cancelled := congrArg (fun v => v - RouteState.foreignNetVer (routes told)
      att.groupKey q) counted
    simpa using cancelled.symm
  have bounded : count ≤ told.room.sockets.length := List.countP_le_length
  have none : count = 0 := by
    have value := congrArg UInt32.toNat nothing
    rw [UInt32.toNat_ofNat'] at value
    have zero : (0 : UInt32).toNat = 0 := rfl
    have size : usizeSize = 2 ^ 32 := rfl
    omega
  intro s listed carried
  exact List.countP_eq_zero.mp none s listed (carries_iff.mpr carried)

theorem request_iff (w : SocketId) (frame : Bytes) (here : handledLocally header = true)
    (request : header.packetTypeEnum = .rpcReq) :
    let own := OnlyOwn att.groupKey att.peerId r
      (r.onRpcReq x env w att header payload frame).2
    (SpeaksForItself x env r att header payload → own) ∧
      (r.room.sockets.length < usizeSize → own → SpeaksForItself x env r att header payload) := by
  intro own
  have same := request_centers x env r att header payload w frame here
  have ends := request_ends x env r att header payload w frame here
  simp only [SpeaksForItself, request]
  constructor
  · rintro ⟨names, alone⟩
    obtain ⟨-, reports, pairs⟩ := (request_onlyOwn_iff x env r att payload).mpr names
    rw [← same] at reports pairs
    refine ⟨?_, reports, pairs⟩
    intro other q foreign
    rcases ends with ⟨-, reached⟩ | ⟨broadcasts, told, sockets, reached, final⟩
    · exact sessionOf_reaches reached foreign
    · rw [final]
      have quiet := broadcast_alone x env att told (sockets ▸ alone broadcasts)
      exact sessionOf_reaches (reached.trans quiet) foreign
  · intro few kept
    constructor
    · rw [← request_onlyOwn_iff x env r att payload]
      refine ⟨?_, same ▸ kept.reports, same ▸ kept.pairs⟩
      intro other q foreign
      exact sessionOf_reaches (handleRpcReq_sessions x _ _ _ _ payload) foreign
    · intro broadcasts s listed q carried
      rcases ends with ⟨calm, -⟩ | ⟨-, told, sockets, reached, final⟩
      · exact absurd broadcasts calm
      by_contra other
      have foreign : ¬ Own att att.groupKey q := fun owned => other owned.2
      have before := sessionOf_reaches reached foreign
      have after := kept.sessions att.groupKey q foreign
      rw [final] at after
      rw [← sockets] at few listed
      exact broadcast_marks x env att other few (after.trans before.symm) s listed carried

end Frame

/-- Over the whole handling of a local RpcReq or RpcResp, only the attached peer's own records
    change if the frame names no other peer and no broadcast finds another member; and only then,
    in a room whose sockets fit into a Vec. -/
theorem only_own_records_iff {bytes : Bytes} {header : PacketHeader}
    (frame : LocalRpc bytes header) (x : Externals) (env : Env) (r : Relay) (w : SocketId) :
    let att := r.currentAttachment env w
    let own := OnlyOwn att.groupKey att.peerId r (r.websocketMessage x env w (.binary bytes))
    let speaks := SpeaksForItself x env r att header (bytes.drop headerSize)
    (speaks → own) ∧ (r.room.sockets.length < usizeSize → own → speaks) := by
  intro att own speaks
  have handled : own ↔ OnlyOwn att.groupKey att.peerId r
      (r.dispatch x env w att header (bytes.drop headerSize) bytes).2.2 := by
    refine onlyOwn_congr ?_
    rw [websocketMessage_eq x env r w frame.parsed, writeBack_global]
  rw [handled]
  rcases frame.rpc with request | response
  · have dispatched : (r.dispatch x env w att header (bytes.drop headerSize) bytes).2.2 =
        (r.onRpcReq x env w att header (bytes.drop headerSize) bytes).2 := by
      simp only [Relay.dispatch, request]
    rw [dispatched]
    exact request_iff x env r att header (bytes.drop headerSize) w bytes frame.here request
  · have dispatched : (r.dispatch x env w att header (bytes.drop headerSize) bytes).2.2 =
        r.withManager (handleRpcResp x (env.ambient att.groupKey r.room.sent.length)
          (attachmentToCtx (env.randomU64 r.room.sent.length) att) r.global.peerManager
          header.fromPeerId (bytes.drop headerSize)).2 := by
      simp only [Relay.dispatch, response, Relay.onRpcResp, frame.here, ↓reduceIte]
      rfl
    have exact_iff := response_onlyOwn_iff x env r att (bytes.drop headerSize) header.fromPeerId
    rw [dispatched]
    simp only [speaks, SpeaksForItself, response]
    exact ⟨exact_iff.mpr, fun _ => exact_iff.mp⟩

/- Peers 5 and 6 have joined, and the socket of peer 5 acks: once in its own name, once in the name
   of peer 6. -/
def bothJoined : Relay :=
  Relay.run wire Relay.initial (quietly [.accept, .message 0 (greeting 5 "net" [0xaa]), .accept,
    .message 1 (greeting 6 "net" [0xaa])])

def ackFrom (p : PeerId) : Bytes :=
  frameOf .rpcResp p myPeerId (rpcPacket.write
    { fromPeer := p, toPeer := myPeerId, transactionId := 1, traceId := 0, isRequest := false,
      totalPieces := 1, pieceIdx := 0, compressionInfo := none,
      descriptor := some ⟨"net", "OspfRouteRpc", "OspfRouteRpc", 1⟩,
      body := rpcResponse.write ⟨syncRouteInfoResponse.write ⟨false, 77, none⟩, none, 0⟩ })

def ackHeader (p : PeerId) : PacketHeader where
  fromPeerId := p
  toPeerId := myPeerId
  packetType := PacketType.rpcResp.toU8
  flags := 0
  forwardCounter := 1
  reserved := 0
  len := UInt32.ofNat ((ackFrom p).length - headerSize)

set_option maxRecDepth 8000 in
theorem own_ack_stays_own :
    OnlyOwn "net:aa" 5 bothJoined
      (bothJoined.websocketMessage wire (quietEnv 2000 500) 0 (.binary (ackFrom 5))) := by
  have frame : LocalRpc (ackFrom 5) (ackHeader 5) := ⟨by decide, by decide, Or.inr (by decide)⟩
  exact (only_own_records_iff frame wire (quietEnv 2000 500) bothJoined 0).1
    fun _ _ => Or.inl (by decide)

set_option maxRecDepth 8000 in
theorem forged_ack_rewrites_another_session :
    ¬ OnlyOwn "net:aa" 5 bothJoined
      (bothJoined.websocketMessage wire (quietEnv 2000 500) 0 (.binary (ackFrom 6))) := by
  intro own
  have kept := own.sessions "net:aa" 6 (by decide)
  exact absurd kept (by decide)

end RelayOwnFrames
