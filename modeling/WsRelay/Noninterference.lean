import WsRelay.Networks
import WsRelay.StaleCleanup

/- Networks in one room do not disturb each other. As long as the others keep off a network's
   names, its group and its ids, what they do changes nothing for it: it is told what it would be
   told if they only had connected. -/
namespace RelayNoninterference
open RelayProtocol RelayRouteState RelayPeerCenter RelayPeerManager RelayRpcHandler RelayRoomModel
open RelayRouteOps RelayRoomSteps RelayMembership RelayTwinSteps RelayForwarding RelayRoomMoves
open RelayRoomIsolation RelaySecrecy RelayCleanupAlarm RelayAlarmClock RelayNetworks RelayPhases
open RelayStaleCleanup RelayFraming
open RelayWireFormats ConnectionDirectory SharedStore TransitionRuns PlainText

def taken (x : Externals) : RoomEvent → Option PeerId
  | .message _ (.binary frame) =>
    (parseHeader frame).bind fun header =>
      (greeted x header (frame.drop headerSize)).map (·.myPeerId)
  | _ => none

def passedTo : RoomEvent → Option PeerId
  | .message _ (.binary frame) => ((parseHeader frame).filter forwarded).map (·.toPeerId)
  | _ => none

/-- The network's sockets stay with its names, its group and its ids, the other sockets keep off
    them. Only messages can do otherwise. -/
def Apart (n : Network) (x : Externals) (r : Relay) (e : Env × RoomEvent) : Prop :=
  match e.2 with
  | .message w _ =>
    (∀ k ∈ Relay.keys x e.1 r e.2, n.owns k = n.mine w) ∧
      ((taken x e.2).all fun p => n.ids p == n.mine w) ∧
      (n.mine w = true → (passedTo e.2).all n.ids)
  | _ => True

instance (n : Network) (x : Externals) (r : Relay) :
    (e : Env × RoomEvent) → Decidable (Apart n x r e)
  | (env, .message w message) => inferInstanceAs (Decidable
      ((∀ k ∈ Relay.keys x env r (.message w message), n.owns k = n.mine w) ∧
        ((taken x (.message w message)).all fun p => n.ids p == n.mine w) ∧
        (n.mine w = true → (passedTo (.message w message)).all n.ids)))
  | (_, .accept) | (_, .close _) | (_, .error _) | (_, .alarm) | (_, .rehydrate)
  | (_, .restart) => isTrue trivial

theorem Apart.takes {n : Network} {x : Externals} {r : Relay} {env : Env} {w : SocketId}
    {message : IncomingMessage} (apart : Apart n x r (env, .message w message)) {p : PeerId}
    (takes : taken x (.message w message) = some p) : n.ids p = n.mine w := by
  have ids := apart.2.1
  simpa [takes] using ids

/- The events that stay when the others fall silent. They still connect. -/
def heard (n : Network) : RoomEvent → Bool
  | .message w _ | .close w | .error w => n.mine w
  | _ => true

/- The part of the shared state that the network does not use. -/
def outsideOf (n : Network) (gs gs' : GlobalStateInner) : Zone where
  names := {m | n.names m = false}
  groups := {k | k ≠ n.group}
  base := gs
  base' := gs'

structure Shares (n : Network) (gs gs' : GlobalStateInner) : Prop where
  routes : gs.peerManager.routeState.groups[n.group]? = gs'.peerManager.routeState.groups[n.group]?
  center : gs.peerCenterMap[n.group]? = gs'.peerCenterMap[n.group]?
  owners : ∀ m, n.names m = true → gs.networkDigestRegistry[m]? = gs'.networkDigestRegistry[m]?

structure Same (n : Network) (r b : Relay) : Prop where
  room : r.room = b.room
  shared : Shares n r.global b.global

section Agreement
variable {n : Network} {gs gs' gs'' : GlobalStateInner} {r b c : Relay}

theorem Shares.trans (first : Shares n gs gs') (second : Shares n gs' gs'') : Shares n gs gs'' where
  routes := first.routes.trans second.routes
  center := first.center.trans second.center
  owners m own := (first.owners m own).trans (second.owners m own)

theorem Shares.symm (shares : Shares n gs gs') : Shares n gs' gs where
  routes := shares.routes.symm
  center := shares.center.symm
  owners m own := (shares.owners m own).symm

theorem Same.refl (r : Relay) : Same n r r := ⟨rfl, rfl, rfl, fun _ _ => rfl⟩

theorem Same.trans (first : Same n r b) (second : Same n b c) : Same n r c :=
  ⟨first.room.trans second.room, first.shared.trans second.shared⟩

theorem Same.symm (same : Same n r b) : Same n b r := ⟨same.room.symm, same.shared.symm⟩

theorem Shares.globals (shares : Shares n gs gs') : (outsideOf n gs gs').Globals gs gs' := by
  refine ⟨Beside.start ?_, Beside.start ?_, Beside.start ?_⟩
  · intro k off
    rw [not_not.mp off]
    exact shares.routes
  · intro k off
    rw [not_not.mp off]
    exact shares.center
  · intro m off
    exact shares.owners m (by simpa [outsideOf] using off)

theorem shares_of_globals {base base' : GlobalStateInner}
    (globals : (outsideOf n base base').Globals gs gs') : Shares n gs gs' where
  routes := globals.manager.agree n.group (by simp [outsideOf])
  center := globals.centers.agree n.group (by simp [outsideOf])
  owners m own := globals.registry.agree m (by simp [outsideOf, own])

theorem Same.twins (same : Same n r b) : (outsideOf n r.global b.global).Twins r b :=
  ⟨same.room, same.shared.globals⟩

theorem same_of_twins {base base' : GlobalStateInner} (twins : (outsideOf n base base').Twins r b) :
    Same n r b := ⟨twins.room, shares_of_globals twins.global⟩

theorem outsideOf_off {k : SharedKey} (own : n.owns k = true) : (outsideOf n gs gs').Off k := by
  cases k with
  | name m => simpa [Zone.Off, outsideOf, Network.owns] using own
  | group key => simpa [Zone.Off, outsideOf, Network.owns] using own

theorem shares_of_agreeOff {left : List SharedKey} (agree : AgreeOff left gs gs')
    (others : ∀ k ∈ left, n.owns k = false) : Shares n gs gs' := by
  have off {k : SharedKey} (own : n.owns k = true) : k ∉ left := by
    intro inside
    rw [others k inside] at own
    cases own
  have group : .group n.group ∉ left := off (by simp [Network.owns])
  exact ⟨agree.manager.agree n.group group, agree.centers.agree n.group group,
    fun m own => agree.registry.agree m (off own)⟩

end Agreement

def EventOf (w : SocketId) (e : RoomEvent) : Prop :=
  (∃ message, e = .message w message) ∨ e = .close w ∨ e = .error w

structure Elsewhere (w : SocketId) (r r' : Relay) : Prop where
  sockets : r'.room.sockets.filter (·.id ≠ w) = r.room.sockets.filter (·.id ≠ w)
  nextSocket : r'.room.nextSocket = r.room.nextSocket
  closing : r'.room.closing.filter (· ≠ w) = r.room.closing.filter (· ≠ w)

section Elsewhere
variable {x : Externals} {env : Env} {r r' r'' : Relay} {w : SocketId}

theorem Elsewhere.trans (first : Elsewhere w r r') (second : Elsewhere w r' r'') :
    Elsewhere w r r'' :=
  ⟨second.sockets.trans first.sockets, second.nextSocket.trans first.nextSocket,
    second.closing.trans first.closing⟩

theorem Elsewhere.quiet {allowed : RouteCall → Prop} (quiet : Quiet x allowed r r')
    (closing : r'.room.closing = r.room.closing ∨ r'.room.closing = r.room.closing ++ [w]) :
    Elsewhere w r r' := by
  refine ⟨by rw [quiet.sockets], quiet.nextSocket, ?_⟩
  rcases closing with same | more
  · rw [same]
  · simp [more]

theorem elsewhere_attach (r : Relay) (w : SocketId) (att : WsAttachment) :
    Elsewhere w r { r with room := r.room.attach w att } := by
  refine ⟨?_, rfl, rfl⟩
  simp only [RelayRoom.attach]
  induction r.room.sockets with
  | nil => rfl
  | cons s rest ih =>
    by_cases same : s.id = w
    · simpa [Socket.attachIf, same] using ih
    · simpa [Socket.attachIf, same] using ih

theorem elsewhere_serialize (env : Env) (r : Relay) (w : SocketId) (att : WsAttachment) :
    Elsewhere w r (r.serializeAttachment env w att).2 := by
  unfold Relay.serializeAttachment
  split
  · exact elsewhere_attach r w att
  · exact ⟨rfl, rfl, rfl⟩

theorem elsewhere_writeBack (env : Env) (w : SocketId) (out : Bool × WsAttachment × Relay) :
    Elsewhere w out.2.2 (Relay.writeBack env w out) := by
  obtain ⟨ok, att, after⟩ := out
  cases ok with
  | false => exact ⟨rfl, rfl, rfl⟩
  | true => exact elsewhere_serialize env after w att

theorem elsewhere_welcome (x : Externals) (env : Env) (r : Relay) (w : SocketId)
    (att : WsAttachment) (outcome : HandshakeOutcome) :
    Elsewhere w r (r.welcome x env w att outcome).2 := by
  cases written : env.attachOk att with
  | false =>
    simp only [Relay.welcome, Relay.serializeAttachment, written, Bool.false_eq_true, ↓reduceIte]
    exact ⟨rfl, rfl, rfl⟩
  | true =>
    have quiet := welcome_quiet x env r w att outcome written
    have closing : (r.welcome x env w att outcome).2.room.closing = r.room.closing :=
      welcome_closing att outcome
    refine (elsewhere_attach r w att).trans ?_
    exact ⟨by rw [quiet.sockets]; rfl, quiet.nextSocket, by rw [closing]; rfl⟩

theorem elsewhere_message (x : Externals) (env : Env) (r : Relay) (w : SocketId)
    (message : IncomingMessage) : Elsewhere w r (r.websocketMessage x env w message) := by
  cases message with
  | text body => exact ⟨rfl, rfl, rfl⟩
  | binary frame =>
    cases parsed : parseHeader frame with
    | none =>
      simp only [Relay.websocketMessage, parsed]
      exact ⟨rfl, rfl, rfl⟩
    | some header =>
      rw [websocketMessage_eq x env r w parsed]
      refine Elsewhere.trans ?_ (elsewhere_writeBack env w _)
      by_cases kind : header.packetTypeEnum = .handShake
      · simp only [Relay.dispatch, kind, Relay.onHandShake]
        split
        · exact ⟨rfl, rfl, by simp⟩
        · rename_i outcome _
          have welcomed := elsewhere_welcome x env
            { r with global := { r.global with networkDigestRegistry :=
              (handleHandshake x (frame.drop headerSize) r.global.networkDigestRegistry).2 } }
            w (attachOutcome (r.currentAttachment env w) outcome) outcome
          exact ⟨welcomed.sockets, welcomed.nextSocket, welcomed.closing⟩
      · exact Elsewhere.quiet (dispatch_quiet x env r w _ _ frame kind).2
          (dispatch_closing _ header _ frame)

theorem elsewhere_leave (x : Externals) (env : Env) (r : Relay) (w : SocketId) :
    let left := r.dropConnection x env w
    Elsewhere w r { left with room := left.room.forget w } := by
  intro left
  have sockets : left.room.sockets = r.room.sockets ∧ left.room.nextSocket = r.room.nextSocket := by
    by_cases leaves : ∃ att, LastConnection r w att
    · obtain ⟨att, last⟩ := leaves
      simp only [left, dropConnection_last x env last]
      have quiet := broadcast_quiet x env
        (r.withManager ⟨RouteState.call x (routes r) (removeCall env att)⟩) att.groupKey att.peerId
      exact ⟨quiet.sockets, quiet.nextSocket⟩
    · have same : left = r := dropConnection_idle x env fun att last => leaves ⟨att, last⟩
      rw [same]
      exact ⟨rfl, rfl⟩
  refine ⟨?_, sockets.2, ?_⟩
  · simp [RelayRoom.forget, sockets.1]
  · simp only [RelayRoom.forget, left, drop_closing]

theorem Elsewhere.seen {n : Network} (elsewhere : Elsewhere w r r') (foreign : n.mine w = false)
    (sent : r'.room.sent.filter n.concerns = r.room.sent.filter n.concerns) :
    n.seen r'.room = n.seen r.room := by
  obtain ⟨sockets, nextSocket, closing⟩ := elsewhere
  have off (s : Socket) (mine : n.mine s.id = true) : s.id ≠ w := by
    rintro rfl
    rw [foreign] at mine
    cases mine
  have kept (room : RelayRoom) : room.sockets.filter (fun s => n.mine s.id) =
      (room.sockets.filter (·.id ≠ w)).filter fun s => n.mine s.id := by
    rw [List.filter_filter]
    refine List.filter_congr fun s _ => ?_
    cases mine : n.mine s.id with
    | true => simp [off s mine]
    | false => simp
  have closed (room : RelayRoom) : room.closing.filter n.mine =
      (room.closing.filter (· ≠ w)).filter n.mine := by
    rw [List.filter_filter]
    refine List.filter_congr fun c _ => ?_
    by_cases same : c = w
    · simp [same, foreign]
    · simp [same]
  have socketsSame := kept r'.room
  rw [sockets, ← kept] at socketsSame
  have closingSame := closed r'.room
  rw [closing, ← closed] at closingSame
  simp only [Network.seen, socketsSame, nextSocket, sent, closingSame]

end Elsewhere

/- Whoever is seated has greeted in a way that was right for its socket. -/
def Settled (right : SocketId → PeerId → GroupKey → Prop) (r : Relay) : Prop :=
  Introduced blank groupKeyOf (fun w p m secret => right w p (groupKeyOf m secret)) (directory r)

section Seats
variable {n : Network} {x : Externals} {env : Env} {r : Relay} {e : RoomEvent}
  {right : SocketId → PeerId → GroupKey → Prop}

theorem settled_step (settled : Settled right r)
    (joins : ∀ w message p key, e = .message w message → taken x e = some p →
      .group key ∈ Relay.keys x env r e → right w p key) : Settled right (r.step x env e) := by
  unfold Settled
  rw [directory_step]
  refine introduced_step settled (fun c s accepted => accepts_blank accepted) ?_
  intro c p m secret kept same admits
  cases e with
  | message w message =>
    cases message with
    | text body => cases same
    | binary frame =>
      by_cases isOpen : r.room.isOpen w = true
      · cases parsed : parseHeader frame with
        | none => simp [directoryEvent, parsed] at same
        | some header =>
          simp only [directoryEvent, isOpen, ↓reduceIte, parsed, messageEvent] at same
          cases greets : greeted x header (frame.drop headerSize) with
          | none => simp [greets] at same
          | some req =>
            simp only [greets] at same
            obtain ⟨rfl, rfl, rfl, rfl, written, -⟩ := Event.hello.inj same
            obtain ⟨registry, handled, -⟩ := handleHandshake_admitted greets admits
            have kind : header.packetTypeEnum = .handShake :=
              ((Option.ite_none_right_eq_some ..).mp greets).1
            refine joins w _ _ _ rfl (by simp [taken, parsed, greets]) ?_
            simp only [Relay.keys, isOpen, ↓reduceIte, parsed, messageKeys, kind]
            exact mem_handshakeKeys_group (by rw [handled]) written
      · simp [directoryEvent, isOpen] at same
  | _ => grind [directoryEvent]

theorem Settled.mono {weaker : SocketId → PeerId → GroupKey → Prop} (settled : Settled right r)
    (imp : ∀ w p key, right w p key → weaker w p key) : Settled weaker r := by
  intro w s seated
  rcases settled w s seated with blankSeat | ⟨secret, joined, group⟩
  · exact Or.inl blankSeat
  · exact Or.inr ⟨secret, imp _ _ _ joined, group⟩

theorem Settled.attached (settled : Settled right r) {s : Socket} (listed : s ∈ r.room.sockets)
    {att : WsAttachment} (attached : s.attachment = some att) :
    (att.peerId = 0 ∧ att.groupKey = "") ∨ right s.id att.peerId att.groupKey := by
  have seat : (directory r).seat s.id = some (seatOf att) := by
    simp [directory, attachment_of_mem listed, attached]
  rcases settled s.id (seatOf att) seat with blankSeat | ⟨secret, joined, group⟩
  · exact Or.inl blankSeat
  · rw [← group] at joined
    exact Or.inr joined

/- The network's sockets join the network, the others join elsewhere. -/
def Joins (n : Network) (w : SocketId) (p : PeerId) (key : GroupKey) : Prop :=
  n.ids p = n.mine w ∧ ((key == n.group) = n.mine w)

theorem Settled.placed (settled : Settled (Joins n) r) : n.Placed r.room := by
  intro s listed att attached
  rcases settled.attached listed attached with ⟨peer, group⟩ | ⟨peer, group⟩
  · unfold Network.Fits
    split
    · exact Or.inl ⟨peer, group⟩
    · rw [peer, group]
      exact ⟨n.known, n.grouped.symm⟩
  · unfold Network.Fits
    split
    · rename_i own
      rw [own] at peer group
      exact Or.inr ⟨peer, by simpa using group⟩
    · rename_i foreign
      have away : n.mine s.id = false := by simpa using foreign
      rw [away] at peer group
      exact ⟨peer, by simpa using group⟩

theorem settled_apart (settled : Settled (Joins n) r) (apart : Apart n x r (env, e)) :
    Settled (Joins n) (r.step x env e) := by
  refine settled_step settled ?_
  rintro w message p key rfl takes used
  exact ⟨apart.takes takes, apart.1 (.group key) used⟩

end Seats

section Others
variable {n : Network} {x : Externals} {env : Env} {r : Relay} {e : RoomEvent}

theorem foreign_source (foreign : heard n e = false) : ∃ w, n.mine w = false ∧ EventOf w e := by
  cases e with
  | message w message => exact ⟨w, foreign, Or.inl ⟨message, rfl⟩⟩
  | close w => exact ⟨w, foreign, Or.inr (Or.inl rfl)⟩
  | error w => exact ⟨w, foreign, Or.inr (Or.inr rfl)⟩
  | _ => cases foreign

theorem leavingKeys_owned (placed : n.Placed r.room) {w : SocketId} :
    ∀ k ∈ leavingKeys r.room w, n.owns k = n.mine w := by
  intro k used
  unfold leavingKeys at used
  cases attached : r.room.attachment w with
  | none => simp [attached] at used
  | some att =>
    simp only [attached] at used
    split at used
    · cases used
    · rename_i leaves
      obtain rfl := List.mem_singleton.mp used
      have fits := placed_attachment placed attached
      unfold Network.Fits at fits
      cases own : n.mine w with
      | true =>
        simp only [own, ↓reduceIte] at fits
        rcases fits with blankSeat | ⟨-, grouped⟩
        · exact absurd (Or.inl blankSeat.1) leaves
        · simpa [Network.owns] using grouped
      | false =>
        simp only [own, Bool.false_eq_true, ↓reduceIte] at fits
        simpa [Network.owns] using fits.2

theorem foreign_keys (placed : n.Placed r.room) (foreign : heard n e = false)
    (apart : Apart n x r (env, e)) : ∀ k ∈ Relay.keys x env r e, n.owns k = false := by
  obtain ⟨w, other, ⟨message, rfl⟩ | rfl | rfl⟩ := foreign_source foreign
  · intro k used
    rw [apart.1 k used, other]
  · intro k used
    simp only [Relay.keys] at used
    split at used
    · rw [leavingKeys_owned placed k used, other]
    · cases used
  · intro k used
    simp only [Relay.keys] at used
    split at used
    · rw [leavingKeys_owned placed k used, other]
    · cases used

theorem foreign_log (placed : n.Placed r.room) (foreign : heard n e = false)
    (apart : Apart n x r (env, e)) :
    (r.step x env e).room.sent.filter n.concerns = r.room.sent.filter n.concerns := by
  obtain ⟨-, -, -, -, -, grown, -⟩ := onEvent_phases x r (env, e)
  have log : (r.step x env e).room.sent = r.room.sent ++ sentSince r (r.step x env e) := grown
  have silent : (sentSince r (r.step x env e)).filter n.concerns = [] := by
    rw [List.filter_eq_nil_iff]
    intro entry listed
    have owed := step_owed x env r e entry listed
    have sender : ∀ w message, e = .message w message → n.mine w = false := by
      rintro w message rfl
      exact foreign
    unfold Owed at owed
    unfold Network.concerns
    cases origin : entry.origin with
    | routeUpdate key target request topology =>
      simp only [origin] at owed ⊢
      have away := foreign_keys placed foreign apart (.group key) owed.1
      simpa [Network.owns] using away
    | forwarded source =>
      simp only [origin] at owed ⊢
      obtain ⟨header, target, sent, -⟩ := owed
      simp [sender _ _ sent]
    | _ =>
      simp only [origin] at owed ⊢
      obtain ⟨message, sent⟩ := owed
      simp [sender _ _ sent]
  rw [log, List.filter_append, silent, List.append_nil]

/-- Events of other sockets change nothing for the network. -/
theorem foreign_same (placed : n.Placed r.room) (foreign : heard n e = false)
    (apart : Apart n x r (env, e)) : Same n (n.view (r.step x env e)) (n.view r) := by
  have keys := foreign_keys placed foreign apart
  have log := foreign_log placed foreign apart
  have stays : e ≠ .restart := by
    rintro rfl
    cases foreign
  have shared : Shares n (r.step x env e).global r.global :=
    shares_of_agreeOff (step_agreeOff x env r stays) fun k used =>
      keys k (List.mem_filter.mp used).1
  obtain ⟨w, other, source⟩ := foreign_source foreign
  have elsewhere : Elsewhere w r (r.step x env e) := by
    rcases source with ⟨message, rfl⟩ | rfl | rfl
    · simp only [Relay.step]
      split
      · exact elsewhere_message x env r w message
      · exact ⟨rfl, rfl, rfl⟩
    · simp only [Relay.step]
      split
      · exact elsewhere_leave x env r w
      · exact ⟨rfl, rfl, rfl⟩
    · simp only [Relay.step]
      split
      · exact elsewhere_leave x env r w
      · exact ⟨rfl, rfl, rfl⟩
  exact ⟨elsewhere.seen other log, shared⟩

end Others

def OwnEvent (n : Network) (e : RoomEvent) : Prop := ∃ w, n.mine w = true ∧ EventOf w e

section Own
variable {n : Network} {x : Externals} {env : Env} {lag : Nat} {r b : Relay} {e : RoomEvent}

theorem apart_permitted {w : SocketId} (own : n.mine w = true) {frame : Bytes}
    (isOpen : r.room.isOpen w = true) (apart : Apart n x r (env, .message w (.binary frame)))
    (header : PacketHeader) (parsed : parseHeader frame = some header) :
    Permitted n x env r w (r.currentAttachment env w) header (frame.drop headerSize) := by
  refine ⟨?_, ?_, ?_⟩
  · intro k used
    rw [← own]
    apply apart.1 k
    simpa only [Relay.keys, isOpen, ↓reduceIte, parsed] using used
  · intro req greets
    rw [← own]
    exact apart.takes (by simp [taken, parsed, greets])
  · intro passes
    have addressed := apart.2.2 own
    simpa [passedTo, parsed, Option.filter, passes] using addressed

theorem own_shows (shows : n.Shows lag r b) (own : OwnEvent n e) (apart : Apart n x r (env, e)) :
    n.Shows lag (r.step x env e) (b.step x (later env lag) e) := by
  obtain ⟨w, mine, source⟩ := own
  have opened : b.room.isOpen w = r.room.isOpen w := by
    rw [← shows.view]
    exact isOpen_seen mine
  rcases source with ⟨message, rfl⟩ | rfl | rfl
  · simp only [Relay.step, opened]
    split
    · rename_i isOpen
      cases message with
      | text body => exact shows
      | binary frame => exact message_shows x env shows mine (apart_permitted mine isOpen apart)
    · exact shows
  · simp only [Relay.step, opened]
    split
    · exact leave_shows x env shows mine
    · exact shows
  · simp only [Relay.step, opened]
    split
    · exact leave_shows x env shows mine
    · exact shows

theorem keys_view (placed : n.Placed r.room) (own : OwnEvent n e) :
    Relay.keys x (later env lag) (n.view r) e = Relay.keys x env r e := by
  obtain ⟨w, mine, source⟩ := own
  have opened : (n.view r).room.isOpen w = r.room.isOpen w := isOpen_seen mine
  have attached : (n.view r).room.attachment w = r.room.attachment w := attachment_seen mine
  have leaving : leavingKeys (n.view r).room w = leavingKeys r.room w := by
    unfold leavingKeys
    rw [attached]
    cases seat : r.room.attachment w with
    | none => rfl
    | some att =>
      have fits := placed_attachment placed seat
      rw [Network.Fits, if_pos mine] at fits
      rcases fits with blankSeat | ⟨named, -⟩
      · simp [blankSeat.1]
      · simp only [Network.view, hasOtherConnection_seen placed named]
  rcases source with ⟨message, rfl⟩ | rfl | rfl
  · cases message with
    | text body => rfl
    | binary frame =>
      simp only [Relay.keys, opened, Relay.currentAttachment, attached]
      rfl
  · simp only [Relay.keys, opened, leaving]
  · simp only [Relay.keys, opened, leaving]

theorem keys_same (same : Same n r b) (own : OwnEvent n e)
    (owned : ∀ k ∈ Relay.keys x env r e, n.owns k = true) :
    Relay.keys x env b e = Relay.keys x env r e := by
  obtain ⟨w, -, source⟩ := own
  rcases source with ⟨message, rfl⟩ | rfl | rfl
  · cases message with
    | text body => rfl
    | binary frame =>
      simp only [Relay.keys, ← same.room, Relay.currentAttachment] at owned ⊢
      split
      · rename_i isOpen
        simp only [isOpen, ↓reduceIte] at owned
        cases parsed : parseHeader frame with
        | none => rfl
        | some header =>
          simp only [parsed, messageKeys] at owned ⊢
          cases kind : header.packetTypeEnum with
          | handShake =>
            simp only [kind] at owned ⊢
            have known : ∀ req, x.decodeHandshakeRequest (frame.drop headerSize) = some req →
                req.magic = magic → req.networkName ∉ (outsideOf n r.global b.global).names := by
              intro req decoded genuine
              have named := owned _ (mem_handshakeKeys_name x env decoded genuine r _)
              simpa [outsideOf, Network.owns] using named
            have judged := handleHandshake_twin x same.shared.globals.registry
              (frame.drop headerSize) known
            simp only [handshakeKeys, judged.1]
          | _ => rfl
      · rfl
  · simp only [Relay.keys, same.room]
  · simp only [Relay.keys, same.room]

theorem own_keys (placed : n.Placed r.room) (own : OwnEvent n e) (apart : Apart n x r (env, e)) :
    ∀ k ∈ Relay.keys x env r e, n.owns k = true := by
  obtain ⟨w, mine, ⟨message, rfl⟩ | rfl | rfl⟩ := own
  · intro k used
    rw [apart.1 k used, mine]
  · intro k used
    simp only [Relay.keys] at used
    split at used
    · rw [leavingKeys_owned placed k used, mine]
    · cases used
  · intro k used
    simp only [Relay.keys] at used
    split at used
    · rw [leavingKeys_owned placed k used, mine]
    · cases used

end Own

/- The others only connect, and everything that was sent concerns the network. -/
structure Lone (n : Network) (b : Relay) : Prop where
  settled : Settled (fun w p key => n.mine w = true ∧ n.ids p = true ∧ key = n.group) b
  told : ∀ entry ∈ b.room.sent, n.concerns entry = true

section Alone
variable {n : Network} {x : Externals} {env : Env} {r b : Relay} {e : RoomEvent}

theorem Lone.placed (lone : Lone n b) : n.Placed b.room := by
  have joins : Settled (Joins n) b := by
    refine lone.settled.mono ?_
    rintro w p key ⟨own, named, rfl⟩
    exact ⟨by rw [own, named], by simp [own]⟩
  exact joins.placed

theorem Lone.log (lone : Lone n b) : (n.seen b.room).sent = b.room.sent :=
  List.filter_eq_self.mpr lone.told

theorem Lone.shows (lone : Lone n b) : n.Shows 0 b (n.view b) :=
  ⟨rfl, congrArg List.length lone.log.symm, lone.placed⟩

theorem lag_exists (placed : n.Placed r.room) : ∃ lag, n.Shows lag r (n.view r) := by
  have shorter : (n.view r).room.sent.length ≤ r.room.sent.length :=
    List.length_filter_le n.concerns r.room.sent
  refine ⟨r.room.sent.length - (n.view r).room.sent.length, rfl, ?_, placed⟩
  omega

theorem own_same (placed : n.Placed r.room) (lone : Lone n b)
    (same : Same n (n.view r) (n.view b)) (own : OwnEvent n e) (apart : Apart n x r (env, e)) :
    ∃ lag, Apart n x b (later env lag, e) ∧
      Same n (n.view (r.step x env e)) (n.view (b.step x (later env lag) e)) := by
  obtain ⟨lag, shows⟩ := lag_exists placed
  have owned := own_keys placed own apart
  have viewed : Relay.keys x (later env lag) (n.view r) e = Relay.keys x env r e :=
    keys_view placed own
  rw [← viewed] at owned
  have stays : e ≠ .restart := by
    rintro rfl
    obtain ⟨w, -, ⟨message, source⟩ | source | source⟩ := own
    · cases source
    · cases source
    · cases source
  have twins := step_twin x (later env lag) same.twins stays fun k used =>
    outsideOf_off (owned k used)
  have keys : Relay.keys x (later env lag) b e = Relay.keys x env r e := by
    have back : Relay.keys x (later (later env lag) 0) (n.view b) e =
        Relay.keys x (later env lag) b e := keys_view lone.placed own
    rw [← back, ← viewed]
    exact keys_same same own owned
  have apartAlone : Apart n x b (later env lag, e) := by
    cases e with
    | message w message =>
      refine ⟨?_, apart.2⟩
      rw [keys]
      exact apart.1
    | _ => trivial
  refine ⟨lag, apartAlone, ?_⟩
  have joint := (own_shows shows own apart).view
  have alone := (own_shows lone.shows own apartAlone).view
  rw [joint, alone]
  exact same_of_twins twins

end Alone

section Alarm
variable {n : Network} {r b : Relay} (x : Externals) (env : Env)

theorem single_of_nodup {Item : Type} [DecidableEq Item] {items : List Item} {a : Item}
    (distinct : items.Nodup) (only : ∀ item ∈ items, item = a) :
    items = if a ∈ items then [a] else [] := by
  cases items with
  | nil => simp
  | cons first rest =>
    obtain rfl := only first (by simp)
    cases rest with
    | nil => simp
    | cons second rest =>
      have again := only second (by simp)
      simp [again] at distinct

theorem named_group {env : Env} (placed : n.Placed r.room) {s : Socket}
    (listed : s ∈ r.room.sockets) {key : GroupKey} (names : Names env.nowMs key s) :
    (key == n.group) = n.mine s.id := by
  obtain ⟨att, attached, -, -, rfl, known⟩ := names
  have fits := placed s listed att attached
  unfold Network.Fits at fits
  cases own : n.mine s.id with
  | true =>
    simp only [own, ↓reduceIte] at fits
    rcases fits with blankSeat | ⟨-, grouped⟩
    · exact absurd blankSeat.2 known
    · simpa using grouped
  | false =>
    simp only [own, Bool.false_eq_true, ↓reduceIte] at fits
    simpa using fits.2

theorem scannedGroups_view (placed : n.Placed r.room) :
    scannedGroups env (n.view r) = (scannedGroups env r).filter (· == n.group) := by
  have inView (key : GroupKey) : key ∈ scannedGroups env (n.view r) ↔
      key ∈ (scannedGroups env r).filter (· == n.group) := by
    rw [List.mem_filter, mem_scannedGroups, mem_scannedGroups]
    constructor
    · rintro ⟨s, listed, names⟩
      obtain ⟨inside, own⟩ := List.mem_filter.mp listed
      exact ⟨⟨s, inside, names⟩, (named_group placed inside names).trans own⟩
    · rintro ⟨⟨s, inside, names⟩, group⟩
      rw [named_group placed inside names] at group
      exact ⟨s, List.mem_filter.mpr ⟨inside, group⟩, names⟩
  have only : ∀ key ∈ (scannedGroups env r).filter (· == n.group), key = n.group := by
    intro key listed
    simpa using (List.mem_filter.mp listed).2
  rw [single_of_nodup ((scannedGroups_nodup env r).filter _) only,
    single_of_nodup (scannedGroups_nodup env (n.view r)) fun key listed =>
      only key ((inView key).mp listed)]
  simp only [inView]

theorem scanned_view (r : Relay) : n.view (scanned env r) = scanned env (n.view r) := by
  have closed (sockets : List Socket) := (scan_late env.nowMs sockets {}).1
  have late : ((r.room.sockets.filter (late env.nowMs)).map (·.id)).filter n.mine =
      ((r.room.sockets.filter fun s => n.mine s.id).filter (late env.nowMs)).map (·.id) := by
    rw [List.filter_map, List.filter_filter, List.filter_filter]
    simp only [Function.comp_def, Bool.and_comm]
  simp only [scanned, closed, Network.view, Network.seen, List.filter_append,
    List.nil_append, late]

theorem outside_group (key : GroupKey) (gs : GlobalStateInner) :
    key ∉ (outside [.group key] gs).groups := by
  simp [outside]

theorem cleanup_away {key : GroupKey} (other : key ≠ n.group) (r : Relay) :
    Same n (cleanupGroup env r key) r := by
  have globals := outside_start [.group key] r.global
  have cleaned := edit_twin globals.manager (outside_group key _) (env.seed key)
    (·.cleanupStalePeerConnections staleP2pThresholdMs env.nowMs)
  have after : (outside [.group key] r.global).Globals (cleanupGroup env r key).global
      (cleanupGroup env r key).global := ⟨cleaned, globals.centers, globals.registry⟩
  have agree := agreeOff_of_outside after
  refine ⟨rfl, shares_of_agreeOff agree ?_⟩
  intro k used
  rw [List.mem_singleton.mp used]
  simpa [Network.owns] using other

theorem broadcast_away {key : GroupKey} (other : key ≠ n.group) (r : Relay) :
    Same n (n.view (r.broadcastRouteUpdate x env key 0)) (n.view r) := by
  have twins : (outside [.group key] r.global).Twins r r := ⟨rfl, outside_start _ _⟩
  have after := broadcast_twin x env twins (outside_group key _) 0
  have agree := agreeOff_of_outside after.global
  have quiet := broadcast_quiet x env r key 0
  have logs : Logs (Announced r key 0) r (r.broadcastRouteUpdate x env key 0) :=
    broadcast_announced key 0 r
  obtain ⟨added, log, announced⟩ := logs
  have silent : added.filter n.concerns = [] := by
    rw [List.filter_eq_nil_iff]
    intro entry listed
    obtain ⟨target, request, topology, origin, -⟩ := (announced entry listed).update
    simpa [Network.concerns, origin] using other
  refine ⟨?_, shares_of_agreeOff agree ?_⟩
  · have closing : (r.broadcastRouteUpdate x env key 0).room.closing = r.room.closing :=
      broadcast_closing r key 0
    simp only [Network.view, Network.seen, quiet.sockets, quiet.nextSocket, log, closing,
      List.filter_append, silent, List.append_nil]
  · intro k used
    rw [List.mem_singleton.mp used]
    simpa [Network.owns] using other

theorem group_off (gs gs' : GlobalStateInner) : n.group ∉ (outsideOf n gs gs').groups := by
  simp [outsideOf]

theorem cleanups_same (keys : List GroupKey) (same : Same n (n.view r) b) :
    Same n (n.view (keys.foldl (cleanupGroup env) r))
      ((keys.filter (· == n.group)).foldl (cleanupGroup env) b) := by
  have all : EveryStep (cleanupGroup env) (fun _ _ => True) r keys := everyStep_true r keys
  refine filtered_run (fun a c => Same n (n.view a) c) ?_ ?_ same all
  · intro a c key _ own between
    obtain rfl : key = n.group := by simpa using own
    have twins := between.twins
    exact same_of_twins (twins.withManager (edit_twin twins.global.manager (group_off _ _)
      (env.seed n.group) (·.cleanupStalePeerConnections staleP2pThresholdMs env.nowMs)))
  · intro a c key _ away between
    have other : key ≠ n.group := by simpa using away
    have kept : Same n (cleanupGroup env (n.view a) key) (n.view a) :=
      cleanup_away env other (n.view a)
    exact kept.trans between

theorem broadcasts_away {keys : List GroupKey} (others : n.group ∉ keys) (r : Relay) :
    Same n (n.view (keys.foldl (fun r key => r.broadcastRouteUpdate x env key 0) r))
      (n.view r) := by
  induction keys generalizing r with
  | nil => exact Same.refl _
  | cons key rest ih =>
    rw [List.mem_cons, not_or] at others
    exact (ih others.2 _).trans (broadcast_away x env (Ne.symm others.1) r)

/- Among the broadcasts of an alarm one is for the network, from some place of the log on. -/
theorem broadcasts_same {keys : List GroupKey} (distinct : keys.Nodup) (placed : n.Placed r.room)
    (same : Same n (n.view r) b) :
    ∃ lag, Same n (n.view (keys.foldl (fun r key => r.broadcastRouteUpdate x env key 0) r))
      ((keys.filter (· == n.group)).foldl
        (fun r key => r.broadcastRouteUpdate x (later env lag) key 0) b) := by
  induction keys generalizing r with
  | nil => exact ⟨0, same⟩
  | cons key rest ih =>
    obtain ⟨fresh, restDistinct⟩ := List.nodup_cons.mp distinct
    by_cases own : key = n.group
    · subst own
      have empty : rest.filter (· == n.group) = [] := by
        rw [List.filter_eq_nil_iff]
        rintro other listed
        have different : other ≠ n.group := fun again => fresh (again ▸ listed)
        simpa using different
      obtain ⟨lag, shows⟩ := lag_exists placed
      have shown := (broadcast_shows x env shows 0).view
      have twins := broadcast_twin x (later env lag) same.twins (group_off _ _) 0
      have after := broadcasts_away x env fresh
        (r.broadcastRouteUpdate x env n.group 0)
      rw [shown] at after
      refine ⟨lag, ?_⟩
      rw [List.filter_cons_of_pos (by simp), empty]
      exact after.trans (same_of_twins twins)
    · rw [List.filter_cons_of_neg (by simpa using own)]
      refine ih restDistinct ?_ ((broadcast_away x env own r).trans same)
      unfold Network.Placed
      rw [(broadcast_quiet x env r key 0).sockets]
      exact placed

theorem alarm_view (placed : n.Placed r.room) :
    ∃ lag, Same n (n.view (r.alarm x env)) ((n.view r).alarm x (later env lag)) := by
  have marked : Same n (n.view (scanned env r)) (scanned env (n.view r)) := by
    rw [scanned_view]
    exact Same.refl _
  have swept := cleanups_same env (scannedGroups env r) marked
  have stays : n.Placed (cleaned env r).room := by
    rw [cleaned_room]
    exact placed
  obtain ⟨lag, told⟩ := broadcasts_same x env (scannedGroups_nodup env r) stays swept
  refine ⟨lag, ?_⟩
  rw [alarm_eq, alarm_eq]
  have groups : scannedGroups (later env lag) (n.view r) =
      (scannedGroups env r).filter (· == n.group) := scannedGroups_view env placed
  unfold cleaned
  rw [groups]
  exact told

theorem lone_groups (lone : Lone n b) : ∀ key ∈ scannedGroups env b, key = n.group := by
  intro key listed
  obtain ⟨s, inside, att, attached, -, -, rfl, known⟩ := mem_scannedGroups.mp listed
  rcases lone.settled.attached inside attached with blankSeat | ⟨-, -, grouped⟩
  · exact absurd blankSeat.2 known
  · exact grouped

theorem cleanup_shows {lag : Nat} (shows : n.Shows lag r b) (key : GroupKey) :
    n.Shows lag (cleanupGroup env r key) (cleanupGroup env b key) := by
  have same : b.global = r.global := by
    rw [← shows.view]
    rfl
  unfold cleanupGroup
  rw [same]
  exact shows.withManager _

theorem lone_alarm (lone : Lone n b) : n.view (b.alarm x env) = (n.view b).alarm x env := by
  have own := lone_groups env lone
  have groups : scannedGroups env (n.view b) = scannedGroups env b := by
    rw [scannedGroups_view env lone.placed]
    refine List.filter_eq_self.mpr ?_
    intro key listed
    simp [own key listed]
  have marked : n.Shows 0 (scanned env b) (scanned env (n.view b)) := by
    rw [← scanned_view]
    exact ⟨rfl, lone.shows.lag, lone.placed⟩
  have swept (keys : List GroupKey) (r c : Relay) (shows : n.Shows 0 r c) :
      n.Shows 0 (keys.foldl (cleanupGroup env) r) (keys.foldl (cleanupGroup env) c) := by
    induction keys generalizing r c with
    | nil => exact shows
    | cons key rest ih => exact ih _ _ (cleanup_shows env shows key)
  have told (keys : List GroupKey) (only : ∀ key ∈ keys, key = n.group) (r c : Relay)
      (shows : n.Shows 0 r c) :
      n.Shows 0 (keys.foldl (fun r key => r.broadcastRouteUpdate x env key 0) r)
        (keys.foldl (fun r key => r.broadcastRouteUpdate x env key 0) c) := by
    induction keys generalizing r c with
    | nil => exact shows
    | cons key rest ih =>
      obtain rfl := only key (by simp)
      exact ih (fun later listed => only later (by simp [listed])) _ _
        (broadcast_shows x env shows 0)
  rw [alarm_eq, alarm_eq, groups]
  refine (told _ own _ _ ?_).view
  unfold cleaned
  rw [groups]
  exact swept _ _ _ marked

theorem alarm_same (placed : n.Placed r.room) (lone : Lone n b)
    (same : Same n (n.view r) (n.view b)) :
    ∃ lag, Same n (n.view (r.alarm x env)) (n.view (b.alarm x (later env lag))) := by
  obtain ⟨lag, joint⟩ := alarm_view x env placed
  refine ⟨lag, joint.trans ?_⟩
  rw [lone_alarm x (later env lag) lone]
  refine same_of_twins (alarm_twin x (later env lag) same.twins ?_)
  intro key listed
  have inside : key ∈ (scannedGroups env r).filter (· == n.group) := by
    rw [← scannedGroups_view env placed]
    exact listed
  have own : key = n.group := by simpa using (List.mem_filter.mp inside).2
  rw [own]
  exact group_off _ _

end Alarm

section Arrivals
variable {n : Network} {r b : Relay} (env : Env)

theorem fetch_same {lag : Nat} (same : Same n (n.view r) (n.view b))
    (ahead : r.room.sent.length = b.room.sent.length + lag) :
    Same n (n.view (r.fetch env)) (n.view (b.fetch (later env lag))) := by
  have sockets : r.room.sockets.filter (fun s => n.mine s.id) =
      b.room.sockets.filter (fun s => n.mine s.id) := congrArg RelayRoom.sockets same.room
  have sent : r.room.sent.filter n.concerns = b.room.sent.filter n.concerns :=
    congrArg RelayRoom.sent same.room
  have closing : r.room.closing.filter n.mine = b.room.closing.filter n.mine :=
    congrArg RelayRoom.closing same.room
  have next : (n.view r).room.nextSocket = (n.view b).room.nextSocket :=
    congrArg RelayRoom.nextSocket same.room
  have issued : r.room.nextSocket = b.room.nextSocket := next
  have draw : (later env lag).randomU64 b.room.sent.length =
      env.randomU64 r.room.sent.length := by simp only [later, ahead]
  refine ⟨?_, same.shared⟩
  simp only [Network.view, Network.seen, Relay.fetch, List.filter_append, sockets, sent, closing,
    issued, draw]
  rfl

theorem rehydrate_same {sockets : List Socket} {gs gs' : GlobalStateInner}
    (placed : ∀ s ∈ sockets, ∀ att, s.attachment = some att → n.Fits s.id att)
    (shares : Shares n gs gs') :
    Shares n (sockets.foldl (rehydratePeer env) gs)
      ((sockets.filter fun s => n.mine s.id).foldl (rehydratePeer env) gs') := by
  have all : EveryStep (rehydratePeer env) (fun _ s => s ∈ sockets) gs sockets :=
    everyStep_of_forall fun _ listed => listed
  refine filtered_run (Shares n) ?_ ?_ shares all
  · intro a c s listed own between
    refine shares_of_globals (rehydratePeer_twin env between.globals ?_)
    intro att attached known
    have fits := placed s listed att attached
    rw [Network.Fits, if_pos own] at fits
    obtain ⟨-, grouped⟩ := fits.resolve_left fun blankSeat => known blankSeat.1
    rw [grouped]
    exact group_off _ _
  · intro a c s listed foreign between
    refine Shares.trans ?_ between
    cases attached : s.attachment with
    | none =>
      simp only [rehydratePeer, attached]
      exact ⟨rfl, rfl, fun _ _ => rfl⟩
    | some att =>
      have fits := placed s listed att attached
      rw [Network.Fits, if_neg (by simp [foreign])] at fits
      have off : ∀ found, s.attachment = some found → found.peerId ≠ 0 →
          found.groupKey ∉ (outside [.group att.groupKey] a).groups := by
        intro found same _
        rw [attached] at same
        obtain rfl := Option.some.inj same
        exact outside_group _ _
      have agree := agreeOff_of_outside (rehydratePeer_twin env (outside_start _ a) off)
      refine shares_of_agreeOff agree ?_
      intro k used
      rw [List.mem_singleton.mp used]
      simpa [Network.owns] using fits.2

theorem new_same (placed : n.Placed r.room) (placed' : n.Placed b.room)
    (same : Same n (n.view r) (n.view b)) : Same n (n.view (r.new env)) (n.view (b.new env)) := by
  have listed : r.room.sockets.filter (fun s => n.mine s.id) =
      b.room.sockets.filter (fun s => n.mine s.id) := congrArg RelayRoom.sockets same.room
  have joint := rehydrate_same env placed same.shared
  have alone := rehydrate_same env placed' (Same.refl (n := n) b).shared
  rw [listed] at joint
  exact ⟨same.room, joint.trans alone.symm⟩

end Arrivals

/- The same event, with the answers of its environment from a later place of the log. -/
def Postponed (e e' : Env × RoomEvent) : Prop := e'.2 = e.2 ∧ ∃ lag, e'.1 = later e.1 lag

structure Alongside (n : Network) (r b : Relay) : Prop where
  settled : Settled (Joins n) r
  lone : Lone n b
  same : Same n (n.view r) (n.view b)

section Runs
variable {n : Network} {x : Externals} {env : Env} {r b : Relay} {e : RoomEvent}

theorem heard_cases (stays : heard n e = true) :
    OwnEvent n e ∨ e = .accept ∨ e = .alarm ∨ e = .rehydrate ∨ e = .restart := by
  cases e with
  | message w message => exact Or.inl ⟨w, stays, Or.inl ⟨message, rfl⟩⟩
  | close w => exact Or.inl ⟨w, stays, Or.inr (Or.inl rfl)⟩
  | error w => exact Or.inl ⟨w, stays, Or.inr (Or.inr rfl)⟩
  | _ => simp

theorem told_step (lone : Lone n b) (stays : heard n e = true)
    (owned : ∀ k ∈ Relay.keys x env b e, n.owns k = true) :
    ∀ entry ∈ (b.step x env e).room.sent, n.concerns entry = true := by
  obtain ⟨-, -, -, -, -, grown, -⟩ := onEvent_phases x b (env, e)
  have log : (b.step x env e).room.sent = b.room.sent ++ sentSince b (b.step x env e) := grown
  intro entry listed
  rw [log] at listed
  rcases List.mem_append.mp listed with old | new
  · exact lone.told entry old
  · have owed := step_owed x env b e entry new
    have sender : ∀ w message, e = .message w message → n.mine w = true := by
      rintro w message rfl
      exact stays
    unfold Owed at owed
    unfold Network.concerns
    cases origin : entry.origin with
    | routeUpdate key target request topology =>
      simp only [origin] at owed ⊢
      exact owned (.group key) owed.1
    | forwarded source =>
      simp only [origin] at owed ⊢
      obtain ⟨header, target, sent, -⟩ := owed
      exact sender _ _ sent
    | _ =>
      simp only [origin] at owed ⊢
      obtain ⟨message, sent⟩ := owed
      exact sender _ _ sent

theorem lone_step (lone : Lone n b) (stays : heard n e = true) (apart : Apart n x b (env, e)) :
    Lone n (b.step x env e) := by
  constructor
  · refine settled_step lone.settled ?_
    rintro w message p key rfl takes used
    have own : n.mine w = true := stays
    have grouped := apart.1 (.group key) used
    rw [own] at grouped
    exact ⟨own, (apart.takes takes).trans own, by simpa [Network.owns] using grouped⟩
  · rcases heard_cases stays with own | rfl | rfl | rfl | rfl
    · exact told_step lone stays (own_keys lone.placed own apart)
    · exact lone.told
    · refine told_step lone stays ?_
      intro k used
      obtain ⟨key, listed, rfl⟩ := List.mem_map.mp used
      simp [Network.owns, lone_groups env lone key listed]
    · exact lone.told
    · exact lone.told

theorem alongside_heard (alongside : Alongside n r b) (stays : heard n e = true)
    (apart : Apart n x r (env, e)) :
    ∃ lag, Alongside n (r.step x env e) (b.step x (later env lag) e) := by
  obtain ⟨settled, lone, same⟩ := alongside
  have behind := settled_apart settled apart
  have follows (lag : Nat) (apartAlone : Apart n x b (later env lag, e))
      (after : Same n (n.view (r.step x env e)) (n.view (b.step x (later env lag) e))) :
      ∃ lag, Alongside n (r.step x env e) (b.step x (later env lag) e) :=
    ⟨lag, behind, lone_step lone stays apartAlone, after⟩
  rcases heard_cases stays with own | rfl | rfl | rfl | rfl
  · obtain ⟨lag, apartAlone, after⟩ := own_same settled.placed lone same own apart
    exact follows lag apartAlone after
  · obtain ⟨lag, shows⟩ := lag_exists settled.placed
    refine follows lag trivial (fetch_same env same ?_)
    have sent : (n.view r).room.sent = (n.view b).room.sent := congrArg RelayRoom.sent same.room
    have all : (n.view b).room.sent = b.room.sent := lone.log
    rw [shows.lag, sent, all]
  · obtain ⟨lag, after⟩ := alarm_same x env settled.placed lone same
    exact follows lag trivial after
  · exact follows 0 trivial (new_same env settled.placed lone.placed same)
  · have fresh : Same n (n.view { r with global := GlobalStateInner.fresh })
        (n.view { b with global := GlobalStateInner.fresh }) :=
      ⟨same.room, rfl, rfl, fun _ _ => rfl⟩
    exact follows 0 trivial (new_same env settled.placed lone.placed fresh)

theorem alongside_foreign (alongside : Alongside n r b) (foreign : heard n e = false)
    (apart : Apart n x r (env, e)) : Alongside n (r.step x env e) b where
  settled := settled_apart alongside.settled apart
  lone := alongside.lone
  same := (foreign_same alongside.settled.placed foreign apart).trans alongside.same

theorem alongside_initial (n : Network) : Alongside n Relay.initial Relay.initial := by
  have nobody (right : SocketId → PeerId → GroupKey → Prop) : Settled right Relay.initial := by
    intro w s seated
    simp [directory, Relay.initial, RelayRoom.empty, RelayRoom.attachment] at seated
  refine ⟨nobody _, ⟨nobody _, ?_⟩, Same.refl _⟩
  intro entry listed
  cases listed

end Runs

/-- What the network gets from a run, and what it gets from another one in which the others only
    connect: the same sockets, close requests and frames, and the same records of its group. -/
structure Undisturbed (n : Network) (r alone : Relay) : Prop where
  told : r.room.sent.filter n.concerns = alone.room.sent
  view : Same n (n.view r) (n.view alone)

/- Two networks in one room. The second one comes, claims an edge to a peer of the first and goes
   between two members of the first. -/
def firstNetwork : Network where
  mine w := w != 1
  group := "net:aa"
  names name := name == "net"
  ids p := p == 5 || p == 7
  grouped := by decide
  known := by decide

def falseReport : SyncRouteInfoRequest where
  myPeerId := 6
  mySessionId := 9
  isInitiator := true
  peerInfos := none
  connInfo := some (.connPeerList ⟨[⟨some ⟨6, 1⟩, [5]⟩]⟩)
  foreignNetworkInfos := none

def twoNetworks : List (Env × RoomEvent) :=
  quietly [.accept, .accept, .message 0 (greeting 5 "net" [0xaa]),
    .message 1 (greeting 6 "other" [0xbb]), .message 1 (syncMessage 6 falseReport), .alarm, .accept,
    .close 1, .message 2 (greeting 7 "net" [0xaa])]

end RelayNoninterference
