import WsRelay.Answers
import WsRelay.WireFormats

/- Who is the initiator of a session. A response states a role, and the requests on the same
   socket take theirs from the attachment, which no response reaches. -/
namespace RelayRoleAgreement
open RelayProtocol RelayRouteState RelayPeerManager RelayRpcHandler RelayRoomModel RelayRouteOps
open RelayRoomSteps RelayBitmapDelivery RelayWireFormats RelayRoomMoves RelayAnswers
open TransitionRuns

variable {x : Externals} {env : Env} {r r' : Relay} {w : SocketId} {accepts : Prop}
  {removes : RouteCall → Prop}

def AllUpdates (holds : SocketId → SyncRouteInfoRequest → Prop) (log : List Sent) : Prop :=
  ∀ entry ∈ log, ∀ key p req topology,
    entry.origin = .routeUpdate key p req topology → holds entry.socket req

/-- Once a request on a socket has been answered, the updates on the socket claim the role of the
    response, until the next request arrives there. -/
def AgreesOnRoles (x : Externals) (events : List (Env × RoomEvent)) : Prop :=
  ∀ before e mid after, events = before ++ e :: (mid ++ after) →
    let asked := Relay.run x Relay.initial before
    let answered := asked.onEvent x e
    ∀ w req resp, Answers x asked e w req resp →
      EveryStep (Relay.onEvent x) (fun r e => ∀ body next, syncIn x r e.2 ≠ some (w, body, next))
        answered mid →
      AllUpdates (fun socket update => socket = w → update.isInitiator = resp.isInitiator)
        ((Relay.run x answered mid).room.sent.drop asked.room.sent.length)

/- Every answered request claims the role itself. -/
def AsksAsInitiator (x : Externals) (r : Relay) (e : Env × RoomEvent) : Prop :=
  ∀ w body req, syncIn x r e.2 = some (w, body, req) →
    e.1.sendOk r.room.sent.length = true → req.isInitiator = true

structure Passive (r : Relay) : Prop where
  seats : ∀ w, r.room.isOpen w = true → (seatAt r w).weAreInitiator = false
  updates : AllUpdates (fun _ req => req.isInitiator = false) r.room.sent

theorem passive_move {k : Nat} (move : Move x env accepts removes k r r') (passive : Passive r) :
    Passive r' where
  seats := by
    intro w isOpen
    rcases move.seated isOpen with ⟨opened, reseats⟩ | ⟨-, -, fresh⟩
    · rcases reseats.role with kept | cleared
      · rw [kept]
        exact passive.seats w opened
      · exact cleared
    · rw [fresh, firstSeat]
      split
      · rfl
      · rfl
  updates := by
    obtain ⟨added, sent, built⟩ := move.logged
    rw [sent]
    intro entry listed key p req topology update
    rcases List.mem_append.mp listed with old | new
    · exact passive.updates entry old key p req topology update
    · obtain ⟨att, isOpen, seat, same⟩ := built entry new ⟨key, p, req, topology, update⟩
      rw [same] at update
      injection update with _ _ request _
      rw [← request]
      exact seat.role.trans (passive.seats _ isOpen)

theorem passive_step (e : Env × RoomEvent) (passive : Passive r) : Passive (r.onEvent x e) := by
  apply step_invariant Passive
  · intro passive
    exact ⟨passive.seats, passive.updates⟩
  · intro k s s' move passive
    exact passive_move move passive
  · exact passive

theorem passive_run (events : List (Env × RoomEvent)) (passive : Passive r) :
    Passive (Relay.run x r events) :=
  invariant_run Passive (fun _ e _ => passive_step e) passive (everyStep_true r events)

theorem passive_initial : Passive Relay.initial where
  seats := by
    intro w isOpen
    cases isOpen
  updates := by
    intro entry listed
    cases listed

theorem push_is_passive {e : Env × RoomEvent} {body : Bytes} {req : SyncRouteInfoRequest}
    (passive : Passive r) (asked : syncIn x r e.2 = some (w, body, req))
    (ok : e.1.sendOk r.room.sent.length = true) :
    ∃ pushed ∈ (r.onEvent x e).room.sent.drop r.room.sent.length, pushed.socket = w ∧
      ∃ key p update topology, pushed.origin = .routeUpdate key p update topology ∧
        update.isInitiator = false := by
  obtain ⟨answer, added, -, log, pushes⟩ := sync_answered asked
  obtain ⟨pushed, listed, here, met, built⟩ := pushes ok
  obtain ⟨bytes, header, -, isOpen, -⟩ := syncIn_some asked
  refine ⟨pushed, ?_, here, _, _, _, _, built, passive.seats w isOpen⟩
  rw [log, List.drop_left]
  exact List.mem_cons_of_mem _ listed

theorem asks_as_initiator {e : Env × RoomEvent} {before after : List (Env × RoomEvent)}
    (agrees : AgreesOnRoles x (before ++ e :: after)) :
    AsksAsInitiator x (Relay.run x Relay.initial before) e := by
  intro w body req asked ok
  have answers := answers_iff.mpr ⟨body, asked, rfl, ok⟩
  have same := agrees before e [] after rfl w req _ answers trivial
  obtain ⟨pushed, listed, here, key, p, update, topology, origin, passive⟩ :=
    push_is_passive (passive_run before passive_initial) asked ok
  have role := same pushed listed key p update topology origin here
  obtain ⟨bytes, header, -, -, -, -, -, -, decoded⟩ := syncIn_some asked
  rw [passive, answerTo_eq decoded] at role
  simpa using role.symm

/-- The roles agree throughout a run exactly if every request that is answered in it claims the
    role for its sender. -/
theorem roles_agree_iff (x : Externals) (events : List (Env × RoomEvent)) :
    AgreesOnRoles x events ↔
      EveryStep (Relay.onEvent x) (AsksAsInitiator x) Relay.initial events := by
  rw [everyStep_iff_splits]
  constructor
  · rintro agrees before e after rfl
    exact asks_as_initiator agrees
  · intro always before e mid after split asked answered w req resp answers _ entry listed key p
      update topology origin here
    have passive : Passive (Relay.run x answered mid) :=
      passive_run mid (passive_step e (passive_run before passive_initial))
    obtain ⟨body, arrived, rfl, ok⟩ := answers_iff.mp answers
    have claims := always before e (mid ++ after) split w body req arrived ok
    obtain ⟨bytes, header, -, -, -, -, -, -, decoded⟩ := syncIn_some arrived
    rw [answerTo_eq decoded, claims]
    exact passive.updates entry (List.mem_of_mem_drop listed) key p update topology origin

/- A client that wants the relay to be the initiator. -/
def passiveRequest : SyncRouteInfoRequest where
  myPeerId := 5
  mySessionId := 77
  isInitiator := false
  peerInfos := none
  connInfo := none
  foreignNetworkInfos := none

def joined : List (Env × RoomEvent) := quietly [.accept, .message 0 (greeting 5 "net" [0xaa])]

def declined : Env × RoomEvent := (quietEnv 1002 201, .message 0 (syncMessage 5 passiveRequest))

set_option maxRecDepth 8000 in
theorem passiveRequest_arrives : syncIn wire (Relay.run wire Relay.initial joined)
    (.message 0 (syncMessage 5 passiveRequest)) =
      some (0, syncRouteInfoRequest.write passiveRequest, passiveRequest) := by decide

theorem push_contradicts_the_answer : ¬ AgreesOnRoles wire (joined ++ [declined]) := by
  intro agrees
  have claims := asks_as_initiator agrees 0 _ passiveRequest passiveRequest_arrives rfl
  exact absurd claims (by decide)

end RelayRoleAgreement
