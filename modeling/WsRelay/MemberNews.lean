import WsRelay.FullUpdates
import WsRelay.Framing
import WsRelay.CleanupAlarm
import WsRelay.Hibernation

/- Who is told about the members of a group. Every update names the members at the time it is
   built, every change of the members is followed by an update for each peer that is concerned,
   and an alarm tells every live peer again, whatever went wrong before. -/
namespace RelayMemberNews
open RelayProtocol RelayRouteState RelayPeerManager RelayRpcHandler RelayRoomModel RelayRouteOps
open RelayRoomSteps RelayMembership RelayWireFormats RelayLivePeers RelayPeerInfoVersions
open RelayBitmapDelivery RelayRestartVersions RelayFullUpdates RelayRoomMoves RelayAlarmClock
open RelayFraming RelayCleanupAlarm RelayHibernation TransitionRuns CostedTrails

section Genuine
variable {x : Externals} {env : Env} {r r' : Relay}
  (decodes : ∀ m, x.decodeRoutePeerInfo (x.encodeRoutePeerInfo m) = some m)

include decodes in
theorem reaches_genuine {allowed : RouteCall → Prop} {st st' : RouteState}
    (named : ∀ c, allowed c → StoresNamed x c.op) (reached : Reaches x allowed st st')
    (genuine : AllGenuine st) : AllGenuine st' := by
  obtain ⟨calls, each, rfl⟩ := reached
  exact invariant_run AllGenuine
    (fun _ c allows genuine => call_genuine decodes (named c allows) genuine) genuine
    (everyStep_of_forall each)

theorem isBuild_storesNamed (c : RouteCall) (builds : IsBuild c) : StoresNamed x c.op := by
  intro p bytes stores
  unfold IsBuild at builds
  rw [stores] at builds
  cases builds

include decodes in
theorem move_genuine {k : Nat} {accepts : Prop} {removes : RouteCall → Prop}
    (removals : ∀ c, removes c → ∃ att, c = removeCall env att)
    (move : Move x env accepts removes k r r') (genuine : AllGenuine (routes r)) :
    AllGenuine (routes r') := by
  cases move with
  | call c allowed => exact call_genuine decodes (storesNamed_of_allowed removals allowed) genuine
  | aside same =>
    rw [same.routes]
    exact genuine
  | send w frame origin other => exact genuine
  | discard att target => exact buildFor_genuine decodes genuine env att target
  | tell w att frame isOpen seat => exact buildFor_genuine decodes genuine env att att.peerId
  | attach w att isOpen reseats => exact genuine
  | accept accepting => exact genuine
  | forget w => exact genuine

include decodes in
theorem moves_genuine {n : Nat} (moves : Moves x env False (fun _ => False) n r r')
    (genuine : AllGenuine (routes r)) : AllGenuine (routes r') :=
  Trail.invariant (fun r => AllGenuine (routes r))
    (fun _ _ _ move kept => move_genuine decodes (fun _ removed => removed.elim) move kept) moves
    genuine

end Genuine

/- The last route update for a socket, whether or not its send went through. -/
def lastUpdate (log : List Sent) (w : SocketId) : Option Sent :=
  (log.filter fun e => e.socket == w && (updateOf e).isSome).getLast?

/- An update for this peer and group that lists exactly the members, the relay and the peer. -/
def NamesMembers (st : RouteState) (att : WsAttachment) (e : Sent) : Prop :=
  ∃ request topology ids, e.origin = .routeUpdate att.groupKey att.peerId request topology ∧
    IsMembership st att.groupKey att.peerId ids ∧ ListsIds ids request

def Informed (r : Relay) (w : SocketId) (att : WsAttachment) : Prop :=
  ∃ e, lastUpdate r.room.sent w = some e ∧ NamesMembers (routes r) att e

/- A log entry that is no update, or one that its peer may believe now. -/
def Current (r : Relay) (e : Sent) : Prop :=
  (updateOf e).isSome = true → ∀ att, r.room.attachment e.socket = some att → att.peerId ≠ 0 →
    NamesMembers (routes r) att e

def AllInformed (r : Relay) : Prop :=
  ∀ w att, r.room.attachment w = some att → att.peerId ≠ 0 → Informed r w att

theorem isMembership_congr {st st' : RouteState} {key : GroupKey} {p : PeerId} {ids : List PeerId}
    (same : RouteState.members st' key = RouteState.members st key)
    (names : IsMembership st key p ids) : IsMembership st' key p ids where
  sorted := names.sorted
  members q := by
    rw [same]
    exact names.members q

theorem namesMembers_congr {st st' : RouteState} {att att' : WsAttachment} {e : Sent}
    (same : RouteState.members st' att.groupKey = RouteState.members st att.groupKey)
    (peer : att'.peerId = att.peerId) (group : att'.groupKey = att.groupKey)
    (names : NamesMembers st att e) : NamesMembers st' att' e := by
  obtain ⟨request, topology, ids, origin, members, lists⟩ := names
  refine ⟨request, topology, ids, ?_, ?_, lists⟩
  · rw [peer, group]
    exact origin
  · rw [peer, group]
    exact isMembership_congr same members

section Log
variable {r r' r'' : Relay} {w : SocketId} {att : WsAttachment}

theorem current_congr {e : Sent} (sockets : r'.room.sockets = r.room.sockets)
    (members : RouteState.members (routes r') = RouteState.members (routes r))
    (current : Current r e) : Current r' e := by
  intro update att attached known
  have before : r.room.attachment e.socket = some att := by
    simpa only [RelayRoom.attachment, sockets] using attached
  exact namesMembers_congr (by rw [members]) rfl rfl (current update att before known)

theorem lastUpdate_append (log added : List Sent) (w : SocketId) :
    lastUpdate (log ++ added) w = (lastUpdate added w).or (lastUpdate log w) := by
  unfold lastUpdate
  rw [List.filter_append, List.getLast?_append]

theorem lastUpdate_mem {log : List Sent} {e : Sent} (last : lastUpdate log w = some e) :
    e ∈ log ∧ e.socket = w ∧ (updateOf e).isSome = true := by
  have listed := List.mem_of_getLast? last
  obtain ⟨inside, passed⟩ := List.mem_filter.mp listed
  rw [Bool.and_eq_true, beq_iff_eq] at passed
  exact ⟨inside, passed.1, passed.2⟩

theorem Informed.later (informed : Informed r w att) (logs : Logs (Current r') r r')
    {att' : WsAttachment} (attached : r'.room.attachment w = some att') (known : att'.peerId ≠ 0)
    (peer : att'.peerId = att.peerId) (group : att'.groupKey = att.groupKey)
    (members : RouteState.members (routes r') att.groupKey =
      RouteState.members (routes r) att.groupKey) : Informed r' w att' := by
  obtain ⟨added, log, current⟩ := logs
  obtain ⟨e, last, names⟩ := informed
  unfold Informed
  rw [log, lastUpdate_append]
  cases newer : lastUpdate added w with
  | none =>
    rw [Option.none_or]
    exact ⟨e, last, namesMembers_congr members peer group names⟩
  | some e' =>
    obtain ⟨inside, rfl, update⟩ := lastUpdate_mem newer
    exact ⟨e', rfl, current e' inside update att' attached known⟩

def Reached (w : SocketId) (r r' : Relay) : Prop :=
  ∃ added, r'.room.sent = r.room.sent ++ added ∧
    ∃ e ∈ added, e.socket = w ∧ (updateOf e).isSome = true

theorem informed_of_reached (logs : Logs (Current r') r r') (reached : Reached w r r')
    (attached : r'.room.attachment w = some att) (known : att.peerId ≠ 0) :
    Informed r' w att := by
  obtain ⟨added, log, current⟩ := logs
  obtain ⟨added', log', e, inside, socket, update⟩ := reached
  obtain rfl : added' = added := List.append_cancel_left (log'.symm.trans log)
  have some_update : e ∈ added'.filter fun e => e.socket == w && (updateOf e).isSome :=
    List.mem_filter.mpr ⟨inside, by simp [socket, update]⟩
  unfold Informed
  rw [log, lastUpdate_append]
  cases newer : lastUpdate added' w with
  | none =>
    have nothing := List.getLast?_eq_none_iff.mp newer
    rw [nothing] at some_update
    cases some_update
  | some e' =>
    obtain ⟨inside', rfl, update'⟩ := lastUpdate_mem newer
    exact ⟨e', rfl, current e' inside' update' att attached known⟩

theorem Reached.logs {P : Sent → Prop} (reached : Reached w r r') (logs : Logs P r' r'') :
    Reached w r r'' := by
  obtain ⟨added, log, e, inside, update⟩ := reached
  obtain ⟨more, log', -⟩ := logs
  exact ⟨added ++ more, by rw [log', log, List.append_assoc], e, List.mem_append_left more inside,
    update⟩

theorem Reached.after {P : Sent → Prop} (logs : Logs P r r') (reached : Reached w r' r'') :
    Reached w r r'' := by
  obtain ⟨added, log, -⟩ := logs
  obtain ⟨more, log', e, inside, update⟩ := reached
  exact ⟨added ++ more, by rw [log', log, List.append_assoc], e, List.mem_append_right added inside,
    update⟩

theorem logs_congr {P Q : Sent → Prop} (logs : Logs P r r') (imp : ∀ e, P e → Q e) :
    Logs Q r r' := by
  obtain ⟨added, log, each⟩ := logs
  exact ⟨added, log, fun e listed => imp e (each e listed)⟩

end Log

section Handlers
variable {x : Externals} {env : Env} {r r' : Relay} {w : SocketId} {att : WsAttachment}
  (decodes : ∀ m, x.decodeRoutePeerInfo (x.encodeRoutePeerInfo m) = some m)

theorem built_namesMembers (genuine : AllGenuine (routes r)) (frame : Bytes) (ok : Bool) :
    NamesMembers (routes r) att ⟨w, frame, ok, updateSent env r att⟩ :=
  ⟨_, _, ((routes r).ensureGroup (env.seed att.groupKey) att.groupKey).relevantPeers att.peerId,
    rfl, relevantPeers_isMembership att.peerId (routes r) _ att.groupKey,
    build_lists env.nowMs att.peerId _ att.weAreInitiator (genuine.ensured _ _)⟩

def Agrees (r : Relay) (w : SocketId) (att : WsAttachment) : Prop :=
  ∀ other, r.room.attachment w = some other →
    other.peerId = att.peerId ∧ other.groupKey = att.groupKey

theorem Agrees.congr (agrees : Agrees r w att) (same : r'.room.sockets = r.room.sockets) :
    Agrees r' w att := by
  intro other attached
  exact agrees other (by simpa only [RelayRoom.attachment, same] using attached)

theorem logs_told (genuine : AllGenuine (routes r))
    (seated : Agrees r w att) (frame : Bytes) :
    Logs (Current r) r
      ((r.buildFor x env att att.peerId).2.send env w frame (updateSent env r att)).2 := by
  refine ⟨[⟨w, frame, env.sendOk r.room.sent.length, updateSent env r att⟩], rfl, ?_⟩
  intro e sent
  rw [List.mem_singleton.mp sent]
  intro _ other attached _
  obtain ⟨peer, group⟩ := seated other attached
  exact namesMembers_congr rfl peer group (built_namesMembers genuine frame _)

theorem broadcastTo_news (genuine : AllGenuine (routes r)) (groupKey : GroupKey)
    (excludePeerId : PeerId) {s : Socket} (listed : s ∈ r.room.sockets) :
    Logs (Current r) r (broadcastTo x env groupKey excludePeerId r s) ∧
      ∀ att, s.attachment = some att → att.peerId ≠ excludePeerId → att.groupKey = groupKey →
        Reached s.id r (broadcastTo x env groupKey excludePeerId r s) := by
  unfold broadcastTo
  cases attached : s.attachment with
  | none => exact ⟨logs_same rfl, by simp⟩
  | some att =>
    simp only
    by_cases excluded : att.peerId = excludePeerId
    · rw [if_pos excluded]
      refine ⟨logs_same rfl, ?_⟩
      intro att' same different
      rw [← Option.some.inj same] at different
      exact absurd excluded different
    · rw [if_neg excluded]
      by_cases other : att.groupKey ≠ groupKey
      · rw [if_pos other]
        refine ⟨logs_same rfl, ?_⟩
        intro att' same _ group
        rw [← Option.some.inj same] at group
        exact absurd group other
      · rw [if_neg other]
        have seated : Agrees r s.id att := by
          intro own carries
          rw [attachment_of_mem listed, attached, Option.some.injEq] at carries
          rw [carries]
          exact ⟨rfl, rfl⟩
        obtain ⟨bytes, built⟩ := buildFor_eq x env r att att.peerId
        rw [built]
        constructor
        · exact logs_told genuine seated _
        · intro _ _ _ _
          exact ⟨_, rfl, _, List.mem_singleton_self _, rfl, rfl⟩

theorem quiet_current {allowed : RouteCall → Prop} (keeps : ∀ c, allowed c → KeepsMembers c)
    (quiet : Quiet x allowed r r') {e : Sent} : Current r' e ↔ Current r e := by
  have members := members_reaches (quiet.reached.mono keeps)
  constructor
  · exact current_congr quiet.sockets.symm members.symm
  · exact current_congr quiet.sockets members

include decodes in
theorem quiet_genuine {allowed : RouteCall → Prop} (named : ∀ c, allowed c → StoresNamed x c.op)
    (quiet : Quiet x allowed r r') (genuine : AllGenuine (routes r)) : AllGenuine (routes r') :=
  reaches_genuine decodes named quiet.reached genuine

include decodes in
theorem turns_news (groupKey : GroupKey) (excludePeerId : PeerId) {sockets : List Socket}
    (genuine : AllGenuine (routes r)) (inside : ∀ s ∈ sockets, s ∈ r.room.sockets) :
    let after := sockets.foldl (broadcastTo x env groupKey excludePeerId) r
    Logs (Current r) r after ∧ ∀ s ∈ sockets, ∀ att, s.attachment = some att →
      att.peerId ≠ excludePeerId → att.groupKey = groupKey → Reached s.id r after := by
  induction sockets generalizing r with
  | nil => exact ⟨logs_same rfl, by simp⟩
  | cons first rest ih =>
    have here := inside first (by simp)
    have quiet := broadcastTo_quiet x env r groupKey excludePeerId first
    obtain ⟨told, reaches⟩ := broadcastTo_news (x := x) genuine groupKey
      excludePeerId here
    obtain ⟨later, reachesLater⟩ := ih (quiet_genuine decodes isBuild_storesNamed quiet genuine)
      (by
        intro s listed
        rw [quiet.sockets]
        exact inside s (by simp [listed]))
    have later' := logs_congr later fun e current =>
      (quiet_current IsBuild.keepsMembers quiet).mp current
    simp only [List.foldl_cons]
    refine ⟨told.trans later', ?_⟩
    intro s listed att attached different group
    rcases List.mem_cons.mp listed with rfl | after
    · exact (reaches att attached different group).logs later
    · exact (reachesLater s after att attached different group).after told

include decodes in
/-- A broadcast sends current updates only, and one to every peer of the group but the excluded. -/
theorem broadcast_news (genuine : AllGenuine (routes r)) (groupKey : GroupKey)
    (excludePeerId : PeerId) :
    Logs (Current r) r (r.broadcastRouteUpdate x env groupKey excludePeerId) ∧
      ∀ s ∈ r.room.sockets, ∀ att, s.attachment = some att → att.peerId ≠ excludePeerId →
        att.groupKey = groupKey →
          Reached s.id r (r.broadcastRouteUpdate x env groupKey excludePeerId) :=
  turns_news decodes groupKey excludePeerId genuine fun _ listed => listed

include decodes in
theorem runAction_news (genuine : AllGenuine (routes r)) {action : RpcAction}
    (own : ∀ p key, action = .pushRouteUpdate p key → p = att.peerId)
    (seated : Agrees r w att) :
    Logs (Current r) r (r.runAction x env w att action).2 := by
  cases action with
  | sendTo p bytes =>
    obtain ⟨frame, sent⟩ := runAction_sends x env r w att p bytes
    rw [sent]
    exact logs_send (by simp [Current, updateOf])
  | pushRouteUpdate p key =>
    obtain rfl := own p key rfl
    exact logs_told (x := x) genuine seated _
  | broadcastRouteUpdate groupKey excludePeerId =>
    exact (broadcast_news decodes genuine groupKey excludePeerId).1
  | none => exact logs_same rfl

include decodes in
theorem runActions_news (genuine : AllGenuine (routes r)) {actions : List RpcAction}
    (own : ∀ p key, .pushRouteUpdate p key ∈ actions → p = att.peerId)
    (seated : Agrees r w att) :
    Logs (Current r) r (Relay.runActions x env w att actions r).2 := by
  have kept : Quiet x IsBuild r (Relay.runActions x env w att actions r).2 ∧
      Logs (Current r) r (Relay.runActions x env w att actions r).2 := by
    refine runActions_invariant x env r
      (fun r' => Quiet x IsBuild r r' ∧ Logs (Current r) r r') ?_ ⟨Quiet.refl r, logs_same rfl⟩
    intro r' action listed ⟨quiet, logs⟩
    have acted : Logs (Current r') r' (r'.runAction x env w att action).2 := runAction_news decodes
      (quiet_genuine decodes isBuild_storesNamed quiet genuine)
      (fun p key same => own p key (same ▸ listed)) (seated.congr quiet.sockets)
    refine ⟨quiet.trans (runAction_quiet x env r' w att action), logs.trans ?_⟩
    exact logs_congr acted fun e current => (quiet_current IsBuild.keepsMembers quiet).mp current
  exact kept.2

end Handlers

structure Kept (r r' : Relay) : Prop where
  seats : ∀ w att', r'.room.attachment w = some att' → att'.peerId ≠ 0 →
    ∃ att, r.room.attachment w = some att ∧ att'.peerId = att.peerId ∧
      att'.groupKey = att.groupKey
  members : RouteState.members (routes r') = RouteState.members (routes r)
  logs : Logs (Current r') r r'

section Events
variable {x : Externals} {env : Env} {r r' r'' : Relay} {w : SocketId} {att : WsAttachment}

theorem Kept.of_sockets (sockets : r'.room.sockets = r.room.sockets)
    (members : RouteState.members (routes r') = RouteState.members (routes r))
    (logs : Logs (Current r) r r') : Kept r r' where
  seats w att' attached _ :=
    ⟨att', by simpa only [RelayRoom.attachment, sockets] using attached, rfl, rfl⟩
  members := members
  logs := logs_congr logs fun _ current => current_congr sockets members current

theorem Kept.refl (r : Relay) : Kept r r := .of_sockets rfl rfl (logs_same rfl)

theorem Kept.current (kept : Kept r r') {e : Sent} (current : Current r e) : Current r' e := by
  intro update att' attached known
  obtain ⟨att, before, peer, group⟩ := kept.seats e.socket att' attached known
  exact namesMembers_congr (by rw [kept.members]) peer group
    (current update att before (peer ▸ known))

theorem Kept.trans (first : Kept r r') (second : Kept r' r'') : Kept r r'' where
  seats w att'' attached known := by
    obtain ⟨att', before, peer', group'⟩ := second.seats w att'' attached known
    obtain ⟨att, start, peer, group⟩ := first.seats w att' before (peer' ▸ known)
    exact ⟨att, start, peer'.trans peer, group'.trans group⟩
  members := second.members.trans first.members
  logs := (logs_congr first.logs fun _ current => second.current current).trans second.logs

theorem Kept.informed (kept : Kept r r') (informed : AllInformed r) : AllInformed r' := by
  intro w att' attached known
  obtain ⟨att, before, peer, group⟩ := kept.seats w att' attached known
  exact (informed w att before (peer ▸ known)).later kept.logs attached known peer group
    (by rw [kept.members])

variable (decodes : ∀ m, x.decodeRoutePeerInfo (x.encodeRoutePeerInfo m) = some m)

theorem forward_news (header : PacketHeader) (frame : Bytes) :
    Logs (Current r) r (r.forwardMessage env w header frame).2 := by
  have sends (target : Socket) :
      Logs (Current r) r (r.send env target.id frame (.forwarded w)).2 :=
    logs_send (by simp [Current, updateOf])
  unfold Relay.forwardMessage
  split
  · exact logs_same rfl
  · rename_i target _
    simp only
    split
    · split
      · exact logs_same rfl
      · exact sends target
    · exact sends target

theorem current_agrees (env : Env) (r : Relay) (w : SocketId) :
    Agrees r w (r.currentAttachment env w) := by
  intro other attached
  rw [Relay.currentAttachment, attached]
  exact ⟨rfl, rfl⟩

include decodes in
theorem onRpcReq_news (genuine : AllGenuine (routes r)) (agrees : Agrees r w att)
    (header : PacketHeader) (payload frame : Bytes) :
    Logs (Current r) r (r.onRpcReq x env w att header payload frame).2 := by
  unfold Relay.onRpcReq
  split
  · set handled := (r.handleRpcReqLocally x env att payload).2 with handledDef
    have quiet : Quiet x KeepsMembers r handled := handleRpcReqLocally_quiet x env r att payload
    have kept : AllGenuine (routes handled) :=
      moves_genuine decodes (handleRpcReqLocally_moves payload) genuine
    have acted : Logs (Current handled) handled (Relay.runActions x env w att
        (r.handleRpcReqLocally x env att payload).1 handled).2 :=
      runActions_news decodes kept (fun p key pushed => (handleRpcReq_own x _ _ _ _ _ _ pushed).1)
        (agrees.congr quiet.sockets)
    have quietly : Logs (Current r) r handled := logs_same rfl
    exact quietly.trans (logs_congr acted fun e current =>
      (quiet_current (fun _ keeps => keeps) quiet).mp current)
  · exact forward_news header frame

include decodes in
theorem dispatch_news (genuine : AllGenuine (routes r)) (agrees : Agrees r w att)
    {header : PacketHeader} (payload frame : Bytes) (other : header.packetTypeEnum ≠ .handShake) :
    Logs (Current r) r (r.dispatch x env w att header payload frame).2.2 := by
  unfold Relay.dispatch
  cases kind : header.packetTypeEnum with
  | handShake => exact absurd kind other
  | ping => exact logs_send (by simp [Current, updateOf])
  | rpcReq => exact onRpcReq_news decodes genuine agrees header payload frame
  | rpcResp =>
    simp only [Relay.onRpcResp]
    split
    · exact logs_same rfl
    · exact forward_news header frame
  | _ => exact forward_news header frame

theorem writeBack_kept (outcome : Bool × WsAttachment × Relay)
    (isOpen : outcome.2.2.room.isOpen w = true)
    (seated : outcome.2.1.peerId ≠ 0 → ∃ att, outcome.2.2.room.attachment w = some att ∧
      outcome.2.1.peerId = att.peerId ∧ outcome.2.1.groupKey = att.groupKey) :
    Kept outcome.2.2 (Relay.writeBack env w outcome) := by
  obtain ⟨ok, att, after⟩ := outcome
  cases ok with
  | false => exact Kept.refl after
  | true =>
    simp only [Relay.writeBack, Relay.serializeAttachment]
    split
    · refine ⟨?_, rfl, logs_same rfl⟩
      intro w' att' attached known
      simp only [attachment_attach isOpen] at attached
      split at attached
      · rename_i here
        obtain rfl := Option.some.inj attached
        rw [here]
        exact seated known
      · exact ⟨att', attached, rfl, rfl⟩
    · exact Kept.refl after

theorem current_seated (env : Env) (r : Relay) (w : SocketId)
    (known : (r.currentAttachment env w).peerId ≠ 0) :
    ∃ att, r.room.attachment w = some att ∧ (r.currentAttachment env w).peerId = att.peerId ∧
      (r.currentAttachment env w).groupKey = att.groupKey := by
  unfold Relay.currentAttachment at known ⊢
  cases attached : r.room.attachment w with
  | none =>
    rw [attached] at known
    exact absurd rfl known
  | some att => exact ⟨att, rfl, rfl, rfl⟩

include decodes in
/-- Any packet but a handshake keeps everybody's seat, and its updates are current. -/
theorem packet_kept (genuine : AllGenuine (routes r)) (isOpen : r.room.isOpen w = true)
    {header : PacketHeader} (payload frame : Bytes) (other : header.packetTypeEnum ≠ .handShake) :
    Kept r (Relay.writeBack env w
      (r.dispatch x env w (r.currentAttachment env w) header payload frame)) := by
  obtain ⟨same, quiet⟩ := dispatch_quiet x env r w (r.currentAttachment env w) payload frame other
  have handled : Kept r (r.dispatch x env w (r.currentAttachment env w) header payload frame).2.2 :=
    .of_sockets quiet.sockets (members_reaches quiet.reached)
      (dispatch_news decodes genuine (current_agrees env r w) payload frame other)
  refine handled.trans (writeBack_kept _ (by rwa [isOpen_quiet quiet]) ?_)
  rw [same]
  intro known
  simpa only [RelayRoom.attachment, quiet.sockets] using current_seated env r w known

end Events

section Changes
variable {x : Externals} {env : Env} {r r' : Relay} {w : SocketId} {att : WsAttachment}
  (decodes : ∀ m, x.decodeRoutePeerInfo (x.encodeRoutePeerInfo m) = some m)

include decodes in
theorem broadcast_informs (genuine : AllGenuine (routes r')) {groupKey : GroupKey}
    {excludePeerId : PeerId} (before : Logs (Current r') r r')
    (others : ∀ w att, r'.room.attachment w = some att → att.peerId ≠ 0 →
      (att.peerId ≠ excludePeerId ∧ att.groupKey = groupKey) ∨ Informed r w att ∧
        RouteState.members (routes r') att.groupKey = RouteState.members (routes r) att.groupKey) :
    AllInformed (r'.broadcastRouteUpdate x env groupKey excludePeerId) := by
  obtain ⟨logs, reaches⟩ :=
    broadcast_news (x := x) decodes genuine groupKey excludePeerId
  have quiet := broadcast_quiet x env r' groupKey excludePeerId
  set after := r'.broadcastRouteUpdate x env groupKey excludePeerId
  have upToDate (e : Sent) (current : Current r' e) : Current after e :=
    (quiet_current IsBuild.keepsMembers quiet).mpr current
  intro w att attached known
  have seated : r'.room.attachment w = some att := by
    simpa only [RelayRoom.attachment, quiet.sockets] using attached
  rcases others w att seated known with ⟨different, group⟩ | ⟨informed, members⟩
  · obtain ⟨s, listed, rfl, carries⟩ := mem_of_attachment seated
    exact informed_of_reached (logs_congr logs upToDate)
      (reaches s listed att carries different group) attached known
  · refine informed.later ((logs_congr before upToDate).trans (logs_congr logs upToDate)) attached
      known rfl rfl ?_
    rw [members_reaches (quiet.reached.mono IsBuild.keepsMembers), members]

include decodes in
/-- A handshake that gets its answer through leaves everybody informed. -/
theorem welcome_informs (genuine : AllGenuine (routes r)) (isOpen : r.room.isOpen w = true)
    {outcome : HandshakeOutcome} (written : env.attachOk att = true)
    (answered : env.sendOk r.room.sent.length = true) (group : att.groupKey = outcome.groupKey)
    (informed : AllInformed r) : AllInformed (r.welcome x env w att outcome).2 := by
  set seated : Relay := { r with room := r.room.attach w att } with seatedDef
  set registered := seated.registerPeer x env outcome.groupKey outcome.peerId with registeredDef
  set told := (registered.send env w outcome.responseBytes .handshakeResponse).2 with toldDef
  set built := (told.buildFor x env att att.peerId).2 with builtDef
  have done : r.welcome x env w att outcome =
      (true, built.broadcastRouteUpdate x env outcome.groupKey 0) := by
    simp only [Relay.welcome, Relay.serializeAttachment, written, ↓reduceIte, ← seatedDef,
      ← registeredDef]
    have sends : registered.send env w outcome.responseBytes .handshakeResponse = (true, told) :=
      Prod.ext answered rfl
    rw [sends]
  have room : built.room.attachment = (r.room.attach w att).attachment := rfl
  have joined : AllGenuine (routes registered) :=
    moves_genuine decodes (registerPeer_moves seated outcome.groupKey outcome.peerId)
      (by exact genuine)
  have sound : AllGenuine (routes told) := joined
  have quiet : Quiet x KeepsMembers
      (seated.withManager ⟨RouteState.call x (routes seated) ⟨outcome.groupKey,
        env.seed outcome.groupKey, .addPeer outcome.peerId⟩⟩) registered :=
    (registerPeer_quiet x env seated outcome.groupKey outcome.peerId).mono Plain.keepsMembers
  have members : RouteState.members (routes built) = RouteState.members (routes registered) :=
    members_reaches ((buildFor_quiet x env told att att.peerId).reached.mono IsBuild.keepsMembers)
  rw [done]
  refine broadcast_informs (r := r) decodes (buildFor_genuine decodes sound env att att.peerId)
    ⟨[⟨w, outcome.responseBytes, env.sendOk r.room.sent.length, .handshakeResponse⟩], rfl, ?_⟩ ?_
  · intro e sent
    rw [List.mem_singleton.mp sent]
    simp [Current, updateOf]
  · intro w' att' attached known
    rw [room, attachment_attach isOpen] at attached
    by_cases same : att'.groupKey = outcome.groupKey
    · exact Or.inl ⟨known, same⟩
    · right
      split at attached
      · rw [← Option.some.inj attached] at same
        exact absurd group same
      · refine ⟨informed w' att' attached known, ?_⟩
        rw [members, members_reaches quiet.reached, routes_withManager, members_call,
          if_neg (Ne.symm same)]
        rfl

theorem welcome_seated (isOpen : r.room.isOpen w = true) (outcome : HandshakeOutcome)
    (written : env.attachOk att = true) :
    (r.welcome x env w att outcome).2.room.attachment w = some att := by
  have quiet := welcome_quiet x env r w att outcome written
  have same : (r.welcome x env w att outcome).2.room.attachment w =
      (r.room.attach w att).attachment w := by
    simp only [RelayRoom.attachment, quiet.sockets, registerPeer_room]
  rw [same, attachment_attach isOpen, if_pos rfl]

/- The answer to an accepted handshake is sent, unless its attachment is not even written. -/
def Welcomed (x : Externals) (r : Relay) (e : Env × RoomEvent) : Prop :=
  match e.2 with
  | .message w (.binary bytes) => r.room.isOpen w = true →
    ∀ header ∈ parseHeader bytes, header.packetTypeEnum = .handShake →
      ∀ outcome ∈ (handleHandshake x (bytes.drop headerSize) r.global.networkDigestRegistry).1,
        e.1.attachOk (attachOutcome (r.currentAttachment e.1 w) outcome) = true →
          e.1.sendOk r.room.sent.length = true
  | _ => True

instance (x : Externals) (r : Relay) : ∀ e : Env × RoomEvent, Decidable (Welcomed x r e)
  | (_, .message _ (.binary _)) =>
    inferInstanceAs (Decidable (_ → ∀ header ∈ _, _ → ∀ outcome ∈ _, _ → _))
  | (_, .message _ (.text _)) | (_, .accept) | (_, .close _) | (_, .error _) | (_, .alarm)
  | (_, .rehydrate) | (_, .restart) => isTrue trivial

include decodes in
theorem handshake_informs (genuine : AllGenuine (routes r)) (isOpen : r.room.isOpen w = true)
    {bytes : Bytes} (welcomed : ∀ outcome ∈
      (handleHandshake x (bytes.drop headerSize) r.global.networkDigestRegistry).1,
        env.attachOk (attachOutcome (r.currentAttachment env w) outcome) = true →
          env.sendOk r.room.sent.length = true)
    (informed : AllInformed r) :
    AllInformed (Relay.writeBack env w
      (r.onHandShake x env w (r.currentAttachment env w) (bytes.drop headerSize))) := by
  unfold Relay.onHandShake
  cases handled : handleHandshake x (bytes.drop headerSize) r.global.networkDigestRegistry with
  | mk outcome registry =>
    simp only
    set noted : Relay := { r with global := { r.global with networkDigestRegistry := registry } }
      with notedDef
    cases outcome with
    | none =>
      dsimp only
      set closed : Relay :=
        { noted with room := { noted.room with closing := noted.room.closing ++ [w] } }
      have refused : Kept r closed := .of_sockets rfl rfl (logs_same rfl)
      have back : Kept closed (Relay.writeBack env w (true, r.currentAttachment env w, closed)) :=
        writeBack_kept (true, r.currentAttachment env w, closed) isOpen (current_seated env r w)
      exact (refused.trans back).informed informed
    | some outcome =>
      dsimp only
      set att := attachOutcome (r.currentAttachment env w) outcome with attDef
      cases written : env.attachOk att with
      | false =>
        have nothing : noted.welcome x env w att outcome = (false, noted) := by
          simp only [Relay.welcome, Relay.serializeAttachment, written]
          rfl
        rw [nothing]
        have kept : Kept r noted := .of_sockets rfl rfl (logs_same rfl)
        exact kept.informed informed
      | true =>
        have answered : env.sendOk r.room.sent.length = true := by
          apply welcomed outcome _ written
          rw [handled]
          rfl
        have everyone : AllInformed (noted.welcome x env w att outcome).2 :=
          welcome_informs decodes (r := noted) (by exact genuine) isOpen written answered rfl
            informed
        have seated : (noted.welcome x env w att outcome).2.room.attachment w = some att :=
          welcome_seated (r := noted) isOpen outcome written
        have back : Kept (noted.welcome x env w att outcome).2 (Relay.writeBack env w
            ((noted.welcome x env w att outcome).1, att, (noted.welcome x env w att outcome).2)) :=
          writeBack_kept (_, att, _) (isOpen_welcome (r := noted) isOpen att outcome)
            fun _ => ⟨att, seated, rfl, rfl⟩
        exact back.informed everyone

include decodes in
theorem message_informs (genuine : AllGenuine (routes r)) (isOpen : r.room.isOpen w = true)
    {message : IncomingMessage} (welcomed : Welcomed x r (env, .message w message))
    (informed : AllInformed r) : AllInformed (r.websocketMessage x env w message) := by
  cases message with
  | text body => exact informed
  | binary bytes =>
    cases parsed : parseHeader bytes with
    | none =>
      simp only [Relay.websocketMessage, parsed]
      exact informed
    | some header =>
      rw [websocketMessage_eq x env r w parsed]
      by_cases kind : header.packetTypeEnum = .handShake
      · simp only [Relay.dispatch, kind]
        exact handshake_informs decodes genuine isOpen (welcomed isOpen header parsed kind) informed
      · exact (packet_kept decodes genuine isOpen _ bytes kind).informed informed

theorem forget_kept (r : Relay) (w : SocketId) : Kept r { r with room := r.room.forget w } where
  seats w' att' attached _ := by
    simp only [attachment_forget] at attached
    split at attached
    · cases attached
    · exact ⟨att', attached, rfl, rfl⟩
  members := rfl
  logs := logs_same rfl

/- Another socket with the same peer id has a session of its own, and stops the removal. -/
theorem last_alone (distinct : DistinctSessions r.room) (last : LastConnection r w att)
    {w' : SocketId} {att' : WsAttachment} (attached : r.room.attachment w' = some att')
    (same : att'.peerId = att.peerId) : w' = w := by
  obtain ⟨here, -, alone⟩ := last
  by_contra other
  have session : att'.serverSessionId ≠ att.serverSessionId := by
    intro shared
    exact other (oneSessionEach distinct w' w _ _ (seat_some.mpr ⟨att', attached, rfl⟩)
      (seat_some.mpr ⟨att, here, rfl⟩) shared)
  obtain ⟨s, listed, -, carries⟩ := mem_of_attachment attached
  have namesake : r.room.hasOtherConnection att = true := by
    rw [RelayRoom.hasOtherConnection, List.any_eq_true]
    exact ⟨s, listed, by simp [carries, same, session]⟩
  rw [alone] at namesake
  cases namesake

include decodes in
/-- A removal is announced to every peer that is left in the group. -/
theorem drop_informs (genuine : AllGenuine (routes r)) (distinct : DistinctSessions r.room)
    (informed : AllInformed r) (w : SocketId) :
    AllInformed { r.dropConnection x env w with
      room := (r.dropConnection x env w).room.forget w } := by
  by_cases leaves : ∃ att, LastConnection r w att
  · obtain ⟨att, last⟩ := leaves
    rw [dropConnection_last x env last]
    set removed := r.withManager ⟨RouteState.call x (routes r) (removeCall env att)⟩
    have names : StoresNamed x (removeCall env att).op := by
      intro p bytes stores
      cases stores
    have sound : AllGenuine (routes removed) := call_genuine decodes names genuine
    obtain ⟨logs, reaches⟩ :=
      broadcast_news (x := x) decodes sound att.groupKey att.peerId
    have quiet := broadcast_quiet x env removed att.groupKey att.peerId
    set after := removed.broadcastRouteUpdate x env att.groupKey att.peerId
    have upToDate : Logs (Current after) removed after :=
      logs_congr logs fun _ => (quiet_current IsBuild.keepsMembers quiet).mpr
    -- The closing socket itself is forgotten, so it need not be informed.
    have told (w' : SocketId) (att' : WsAttachment) (elsewhere : w' ≠ w)
        (attached : after.room.attachment w' = some att') (known : att'.peerId ≠ 0) :
        Informed after w' att' := by
      have before : r.room.attachment w' = some att' := by
        simp only [RelayRoom.attachment, quiet.sockets] at attached ⊢
        exact attached
      by_cases group : att'.groupKey = att.groupKey
      · have different : att'.peerId ≠ att.peerId :=
          fun same => elsewhere (last_alone distinct last before same)
        obtain ⟨s, listed, rfl, carries⟩ := mem_of_attachment before
        exact informed_of_reached upToDate (reaches s listed att' carries different group)
          attached known
      · have start : Logs (Current after) r removed := logs_same rfl
        refine (informed w' att' before known).later (start.trans upToDate) attached known rfl rfl ?_
        rw [members_reaches (quiet.reached.mono IsBuild.keepsMembers), routes_withManager,
          members_call]
        exact if_neg (Ne.symm group)
    intro w' att' attached known
    by_cases here : w' = w
    · rw [attachment_forget, if_pos here] at attached
      cases attached
    · have seated := attached
      rw [attachment_forget, if_neg here] at seated
      exact (told w' att' here seated known).later (forget_kept after w).logs attached known rfl rfl
        rfl
  · rw [dropConnection_idle x env fun att last => leaves ⟨att, last⟩]
    exact (forget_kept r w).informed informed

end Changes

section Alarm
variable {x : Externals} {env : Env} {r : Relay}
  (decodes : ∀ m, x.decodeRoutePeerInfo (x.encodeRoutePeerInfo m) = some m)

include decodes in
theorem cleaned_genuine (genuine : AllGenuine (routes r)) :
    AllGenuine (routes (cleaned env r)) := by
  have swept (groupKeys : List GroupKey) (r : Relay) (genuine : AllGenuine (routes r)) :
      AllGenuine (routes (groupKeys.foldl (cleanupGroup env) r)) := by
    induction groupKeys generalizing r with
    | nil => exact genuine
    | cons groupKey rest ih =>
      apply ih
      have names : StoresNamed x (.cleanup staleP2pThresholdMs env.nowMs) := by
        intro p bytes stores
        cases stores
      exact call_genuine (c := ⟨groupKey, env.seed groupKey, _⟩) decodes names genuine
  exact swept _ _ genuine

include decodes in
theorem refreshes_news (groupKeys : List GroupKey) (genuine : AllGenuine (routes r)) :
    let after := groupKeys.foldl (fun r groupKey => r.broadcastRouteUpdate x env groupKey 0) r
    Logs (Current r) r after ∧ Quiet x IsBuild r after ∧ ∀ w att, r.room.attachment w = some att →
      att.peerId ≠ 0 → att.groupKey ∈ groupKeys → Reached w r after := by
  induction groupKeys generalizing r with
  | nil => exact ⟨logs_same rfl, Quiet.refl r, by simp⟩
  | cons groupKey rest ih =>
    have quiet := broadcast_quiet x env r groupKey 0
    obtain ⟨told, reaches⟩ := broadcast_news (x := x) decodes genuine groupKey 0
    obtain ⟨later, quietLater, reachesLater⟩ :=
      ih (quiet_genuine decodes isBuild_storesNamed quiet genuine)
    have upToDate := logs_congr later fun _ => (quiet_current IsBuild.keepsMembers quiet).mp
    simp only [List.foldl_cons]
    refine ⟨told.trans upToDate, quiet.trans quietLater, ?_⟩
    intro w att attached known listed
    rcases List.mem_cons.mp listed with here | after
    · obtain ⟨s, inside, rfl, carries⟩ := mem_of_attachment attached
      exact (reaches s inside att carries known here).logs later
    · refine (reachesLater w att ?_ known after).after told
      simpa only [RelayRoom.attachment, quiet.sockets] using attached

include decodes in
theorem alarm_kept (genuine : AllGenuine (routes r)) : Kept r (r.alarm x env) := by
  rw [alarm_eq]
  have swept := cleaned_quiet x env r
  obtain ⟨logs, quiet, -⟩ := refreshes_news (x := x) decodes
    (scannedGroups env r) (cleaned_genuine decodes genuine)
  have silent : Logs (Current r) r (cleaned env r) := by
    apply logs_same
    rw [cleaned_room]
    rfl
  refine .of_sockets (quiet.sockets.trans swept.sockets) ?_ ?_
  · rw [members_reaches (quiet.reached.mono IsBuild.keepsMembers),
      members_reaches (swept.reached.mono Plain.keepsMembers)]
  · exact silent.trans (logs_congr logs fun _ => (quiet_current Plain.keepsMembers swept).mp)

include decodes in
theorem alarm_informs (genuine : AllGenuine (routes r)) {w : SocketId} {att : WsAttachment}
    (attached : r.room.attachment w = some att) (known : att.peerId ≠ 0)
    (seen : 0 < att.lastSeenMs) (alive : timedOut env.nowMs att = false)
    (named : att.groupKey ≠ "") : Informed (r.alarm x env) w att := by
  rw [alarm_eq]
  have swept := cleaned_quiet x env r
  obtain ⟨logs, quiet, reaches⟩ := refreshes_news (x := x) decodes
    (scannedGroups env r) (cleaned_genuine decodes genuine)
  have before : (cleaned env r).room.attachment w = some att := by
    simpa only [RelayRoom.attachment, swept.sockets] using attached
  have upToDate := logs_congr logs fun _ => (quiet_current IsBuild.keepsMembers quiet).mpr
  obtain ⟨s, listed, rfl, carries⟩ := mem_of_attachment attached
  have refreshed : att.groupKey ∈ scannedGroups env r :=
    RelayStaleCleanup.mem_scannedGroups.mpr ⟨s, listed, att, carries, alive, seen, rfl, named⟩
  refine informed_of_reached upToDate (reaches s.id att before known refreshed) ?_ known
  simpa only [RelayRoom.attachment, quiet.sockets] using before

end Alarm

section Runs
variable {x : Externals} {r : Relay}
  (decodes : ∀ m, x.decodeRoutePeerInfo (x.encodeRoutePeerInfo m) = some m)

def isRestart : RoomEvent → Bool
  | .restart => true
  | _ => false

/- The sockets have sessions of their own, handshakes are answered, and the isolate lives on. -/
def Announces (x : Externals) (r : Relay) (e : Env × RoomEvent) : Prop :=
  DistinctSessions r.room ∧ Welcomed x r e ∧ isRestart e.2 = false

instance (x : Externals) (r : Relay) (e : Env × RoomEvent) : Decidable (Announces x r e) :=
  inferInstanceAs (Decidable (_ ∧ _))

theorem fetch_kept (env : Env) (r : Relay) : Kept r (r.fetch env) where
  seats w att attached known := by
    rcases fetch_attachment attached with old | rfl
    · exact ⟨att, old, rfl, rfl⟩
    · exact absurd rfl known
  members := rfl
  logs := logs_same rfl

include decodes in
theorem informed_step {e : Env × RoomEvent} (announces : Announces x r e)
    (genuine : AllGenuine (routes r)) (live : LivePeersStay r) (informed : AllInformed r) :
    AllInformed (r.onEvent x e) := by
  obtain ⟨env, e⟩ := e
  obtain ⟨distinct, welcomed, stays⟩ := announces
  cases e with
  | accept => exact (fetch_kept env r).informed informed
  | message w message =>
    simp only [Relay.onEvent, Relay.step]
    split
    · rename_i isOpen
      exact message_informs decodes genuine isOpen welcomed informed
    · exact informed
  | close w =>
    simp only [Relay.onEvent, Relay.step]
    split
    · exact drop_informs decodes genuine distinct informed w
    · exact informed
  | error w =>
    simp only [Relay.onEvent, Relay.step]
    split
    · exact drop_informs decodes genuine distinct informed w
    · exact informed
  | alarm => exact (alarm_kept decodes genuine).informed informed
  | rehydrate =>
    simp only [Relay.onEvent, Relay.step]
    rw [new_idle live]
    exact informed
  | restart => cases stays

include decodes in
/-- Over every run without a restart, if the answers to handshakes go out, the last update for
    each attached peer lists exactly the members of its group at any moment. -/
theorem members_are_informed {events : List (Env × RoomEvent)}
    (announces : EveryStep (Relay.onEvent x) (Announces x) Relay.initial events) :
    AllInformed (Relay.run x Relay.initial events) := by
  have whole : AllGenuine (routes (Relay.run x Relay.initial events)) ∧
      LivePeersStay (Relay.run x Relay.initial events) ∧
        AllInformed (Relay.run x Relay.initial events) := by
    refine invariant_run (fun r => AllGenuine (routes r) ∧ LivePeersStay r ∧ AllInformed r) ?_
      ⟨genuine_run decodes [], ?_, ?_⟩ announces
    · intro r e announces ⟨genuine, live, informed⟩
      exact ⟨genuine_step decodes e genuine, livePeersStay_step e.2 announces.1 live,
        informed_step decodes announces genuine live informed⟩
    · intro s listed
      simp [Relay.initial, RelayRoom.empty] at listed
    · intro w att attached
      simp [Relay.initial, RelayRoom.empty, RelayRoom.attachment] at attached
  exact whole.2.2

include decodes in
/-- Whatever happened before, lost answers and restarts included: behind an alarm every peer that
    it did not find dead was last told exactly the members of its group. -/
theorem alarms_inform_again (events : List (Env × RoomEvent)) (env : Env) :
    let before := Relay.run x Relay.initial events
    ∀ w att, before.room.attachment w = some att → att.peerId ≠ 0 → att.groupKey ≠ "" →
      0 < att.lastSeenMs → timedOut env.nowMs att = false →
        Informed (before.alarm x env) w att :=
  fun _ _ attached known named seen alive =>
    alarm_informs decodes (genuine_run decodes events) attached known seen alive named

end Runs

/- Two peers of one network and a third of another; one of them leaves. -/
def visits : List (Env × RoomEvent) :=
  quietly [.accept, .message 0 (greeting 5 "net" [0xaa]), .accept,
    .message 1 (greeting 6 "net" [0xaa]), .accept, .message 2 (greeting 7 "other" [0xbb]),
    .rehydrate, .close 0]

set_option maxRecDepth 8000 in
theorem visits_are_announced : AllInformed (Relay.run wire Relay.initial visits) :=
  members_are_informed wire_roundTrips.peerInfo (by decide)

/- The answer to the second handshake is lost, and the isolate restarts. -/
def lostAnswer : List (Env × RoomEvent) :=
  [(quietEnv 1000 1, .accept), (quietEnv 1001 101, .message 0 (greeting 5 "net" [0xaa])),
    (quietEnv 1002 201, .accept),
    ({ quietEnv 1003 301 with sendOk := fun _ => false }, .message 1 (greeting 6 "net" [0xaa])),
    (quietEnv 1004 401, .restart)]

set_option maxRecDepth 8000 in
theorem lost_answer_is_made_good :
    ∃ att, (Relay.run wire Relay.initial lostAnswer).room.attachment 1 = some att ∧
      Informed ((Relay.run wire Relay.initial lostAnswer).alarm wire (quietEnv 31000 501)) 1 att := by
  refine ⟨⟨6, "net:aa", "net", "203", false, 1003⟩, by decide, ?_⟩
  exact alarms_inform_again wire_roundTrips.peerInfo lostAnswer (quietEnv 31000 501) 1 _ (by decide)
    (by decide) (by decide) (by decide) (by decide)

end RelayMemberNews
