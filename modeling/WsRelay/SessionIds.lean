import WsRelay.RoleAgreement

/- Which session id the two directions of a socket show. Updates take it from the attachment of
   the socket, responses from the session record of the peer, and the record keeps what the last
   build for the peer was given, on whichever socket. -/
namespace RelaySessionIds
open RelayProtocol RelayRouteState RelayPeerManager RelayRpcHandler RelayRoomModel RelayRouteOps
open RelayRoomSteps RelayBitmapDelivery RelayWireFormats RelayRoomMoves RelayAnswers
open RelayRoleAgreement TransitionRuns PlainText

variable {x : Externals} {env : Env} {r r' : Relay} {w : SocketId} {att : WsAttachment}
  {accepts : Prop} {removes : RouteCall → Prop}

/- The number in the server_session_id of the attachment. -/
def numberOf (r : Relay) (w : SocketId) : Option SessionId := parseU64 (seatAt r w).serverSessionId

/-- In every state of a run, every response and every update that was sent on an open socket
    shows the number in the attachment of the socket. -/
def IdsAgree (x : Externals) (events : List (Env × RoomEvent)) : Prop :=
  ∀ before after, events = before ++ after →
    let now := Relay.run x Relay.initial before
    ∀ w, now.room.isOpen w = true →
      AllUpdates (fun socket update => socket = w → numberOf now w = some update.mySessionId)
        now.room.sent ∧
      ∀ early e late, before = early ++ e :: late → ∀ req resp,
        Answers x (Relay.run x Relay.initial early) e w req resp →
          numberOf now w = some resp.sessionId

def AcceptsAttached (r : Relay) (e : Env × RoomEvent) : Prop :=
  match e.2 with
  | .accept => e.1.attachOk (firstAttachment e.1 r) = true
  | _ => True

/- An answered request meets a record that was last built on its own socket. -/
def AnswersOwnId (x : Externals) (r : Relay) (e : Env × RoomEvent) : Prop :=
  ∀ w body req, syncIn x r e.2 = some (w, body, req) → e.1.sendOk r.room.sent.length = true →
    numberOf r w =
      some (RouteState.recordedId (routes r) (seatAt r w).groupKey (seatAt r w).peerId)

theorem parseU64_draw (draw : UInt64) : parseU64 (randomU64String draw) = some draw := by
  have below : draw.toNat < 2 ^ 64 := draw.toNat_lt
  rw [parseU64, randomU64String, parseUnsigned_repr below, Option.map_some, UInt64.ofNat_toNat]

/- A build for an attachment with a number takes that number. -/
theorem built_number {target : PeerId} {n : SessionId}
    (number : parseU64 att.serverSessionId = some n) :
    (builtRequest env r att target).mySessionId = n := by
  have filled : att.serverSessionId.isEmpty = false := by
    cases empty : att.serverSessionId.isEmpty with
    | false => rfl
    | true =>
      have unread : parseU64 "" = none := by decide
      rw [String.isEmpty_iff.mp empty, unread] at number
      cases number
  have taken : (builtRequest env r att target).mySessionId =
      (parseU64 (attachmentToCtx (env.randomU64 r.room.sent.length) att).serverSessionId).getD 0 :=
    rfl
  rw [taken, attachmentToCtx]
  simp only [filled, Bool.false_eq_true, ↓reduceIte, number, Option.getD_some]

structure Numbered (r : Relay) : Prop where
  seats : ∀ w, r.room.isOpen w = true → ∃ n, numberOf r w = some n
  updates : AllUpdates (fun socket req => socket < r.room.nextSocket ∧
    (r.room.isOpen socket = true → numberOf r socket = some req.mySessionId)) r.room.sent

theorem numbered_move {k : Nat} (move : Move x env accepts removes k r r')
    (written : accepts → env.attachOk (firstAttachment env r) = true) (numbered : Numbered r) :
    Numbered r' where
  seats := by
    intro w isOpen
    rcases move.seated isOpen with ⟨opened, reseats⟩ | ⟨accepting, -, fresh⟩
    · rw [numberOf, reseats.session]
      exact numbered.seats w opened
    · rw [numberOf, fresh, firstSeat, if_pos (written accepting)]
      exact ⟨_, parseU64_draw _⟩
  updates := by
    obtain ⟨added, sent, built⟩ := move.logged
    have grown := move.nextSocket_le
    rw [sent]
    intro entry listed key p req topology update
    have kept (issued : entry.socket < r.room.nextSocket)
        (isOpen : r'.room.isOpen entry.socket = true) :
        r.room.isOpen entry.socket = true ∧ numberOf r' entry.socket = numberOf r entry.socket := by
      rcases move.seated isOpen with ⟨opened, reseats⟩ | ⟨-, fresh, -⟩
      · rw [numberOf, reseats.session]
        exact ⟨opened, rfl⟩
      · exact absurd issued (by rw [fresh]; exact Nat.lt_irrefl _)
    rcases List.mem_append.mp listed with old | new
    · obtain ⟨issued, shown⟩ := numbered.updates entry old key p req topology update
      refine ⟨lt_of_lt_of_le issued grown, ?_⟩
      intro isOpen
      obtain ⟨opened, same⟩ := kept issued isOpen
      rw [same]
      exact shown opened
    · obtain ⟨att, opened, seat, same⟩ := built entry new ⟨key, p, req, topology, update⟩
      have issued := lt_nextSocket opened
      refine ⟨lt_of_lt_of_le issued grown, ?_⟩
      intro isOpen
      obtain ⟨n, number⟩ := numbered.seats _ opened
      have request : builtRequest env r att att.peerId = req := by
        rw [same] at update
        injection update
      rw [(kept issued isOpen).2, number, ← request]
      rw [numberOf, ← seat.session] at number
      rw [built_number number]

theorem numbered_step (e : Env × RoomEvent) (attached : AcceptsAttached r e)
    (numbered : Numbered r) : Numbered (r.onEvent x e) := by
  obtain ⟨env, event⟩ := e
  by_cases accepting : event = .accept
  · subst accepting
    have move : Move x env True (fun _ => False) 0 r (r.fetch env) := .accept trivial
    exact numbered_move move (fun _ => attached) numbered
  · apply step_invariant Numbered
    · intro numbered
      exact ⟨numbered.seats, numbered.updates⟩
    · intro k s s' move numbered
      exact numbered_move move (fun accepts => absurd accepts accepting) numbered
    · exact numbered

theorem numbered_run {events : List (Env × RoomEvent)}
    (attached : EveryStep (Relay.onEvent x) AcceptsAttached Relay.initial events) :
    Numbered (Relay.run x Relay.initial events) := by
  have start : Numbered Relay.initial := by
    constructor
    · intro w isOpen
      cases isOpen
    · intro entry listed
      cases listed
  exact invariant_run Numbered (fun _ e written => numbered_step e written) start attached

theorem answers_own_id {e : Env × RoomEvent} {before after : List (Env × RoomEvent)}
    (agree : IdsAgree x (before ++ e :: after)) :
    AnswersOwnId x (Relay.run x Relay.initial before) e := by
  intro w body req asked ok
  have answered : Relay.run x Relay.initial (before ++ [e]) =
      (Relay.run x Relay.initial before).onEvent x e := run_append _ _ _
  have stillOpen := sync_isOpen asked
  obtain ⟨bytes, header, -, isOpen, -, -, -, -, decoded⟩ := syncIn_some asked
  have shown := (agree (before ++ [e]) after (by simp) w (by rwa [answered])).2 before e [] rfl req
    _ (answers_iff.mpr ⟨body, asked, rfl, ok⟩)
  have kept := (step_session_kept (lt_nextSocket isOpen) stillOpen).2
  rw [answered, numberOf, Relay.onEvent, kept, answerTo_eq decoded] at shown
  exact shown

/-- If every accepted socket gets its attachment, the ids agree throughout a run exactly if every
    answered request meets a record that was last built on its own socket. -/
theorem session_ids_agree_iff {events : List (Env × RoomEvent)}
    (attached : EveryStep (Relay.onEvent x) AcceptsAttached Relay.initial events) :
    IdsAgree x events ↔
      EveryStep (Relay.onEvent x) (AnswersOwnId x) Relay.initial events := by
  rw [everyStep_iff_splits]
  constructor
  · rintro agree before e after rfl
    exact answers_own_id agree
  · intro always before after split now w isOpen
    subst split
    have numbered : Numbered now := numbered_run ((everyStep_append _ _ _).mp attached).1
    constructor
    · intro entry listed key p update topology origin here
      obtain ⟨-, shown⟩ := numbered.updates entry listed key p update topology origin
      rw [here] at shown
      exact shown isOpen
    · intro early e late split req resp answers
      subst split
      obtain ⟨body, asked, rfl, ok⟩ := answers_iff.mp answers
      obtain ⟨bytes, header, -, opened, -, -, -, -, decoded⟩ := syncIn_some asked
      have whole : now = Relay.run x (Relay.run x Relay.initial early) (e :: late) :=
        run_append _ _ _
      have own := always early e (late ++ after) (by simp) w body req asked ok
      rw [whole] at isOpen ⊢
      rw [numberOf, run_session_kept (lt_nextSocket opened) isOpen, answerTo_eq decoded]
      exact own

theorem quietly_attached (events : List RoomEvent) :
    EveryStep (Relay.onEvent x) AcceptsAttached r (quietly events) := by
  have quiet : ∀ e ∈ quietly events, ∀ att, e.1.attachOk att = true := by
    intro e listed att
    obtain ⟨⟨event, i⟩, -, rfl⟩ := List.mem_map.mp listed
    rfl
  refine everyStep_mono ?_ (everyStep_of_forall quiet)
  intro s e attaches
  unfold AcceptsAttached
  split
  · exact attaches _
  · trivial

def askedOnce : List RoomEvent :=
  [.accept, .message 0 (greeting 5 "net" [0xaa]), .message 0 (syncMessage 5 passiveRequest)]

set_option maxRecDepth 8000 in
theorem ids_agree_on_one_socket : IdsAgree wire (quietly askedOnce) := by
  refine (session_ids_agree_iff (quietly_attached askedOnce)).mpr ⟨?_, ?_, ?_, trivial⟩
  · intro w body req asked
    cases asked
  · intro w body req asked
    have greets : syncIn wire (Relay.run wire Relay.initial (quietly [.accept]))
        (.message 0 (greeting 5 "net" [0xaa])) = none := by decide
    exact absurd (greets.symm.trans asked) (by simp)
  · intro w body req asked _
    obtain ⟨rfl, -⟩ := Prod.mk.inj (Option.some.inj (passiveRequest_arrives.symm.trans asked))
    decide

/- Peer 5 comes back on a second socket, and asks on the first one. -/
def seenTwice : List (Env × RoomEvent) :=
  quietly [.accept, .message 0 (greeting 5 "net" [0xaa]), .accept,
    .message 1 (greeting 5 "net" [0xaa])]

def asksOnFirst : Env × RoomEvent := (quietEnv 1004 401, .message 0 (syncMessage 5 passiveRequest))

set_option maxRecDepth 8000 in
theorem answer_shows_the_other_sockets_id : ¬ IdsAgree wire (seenTwice ++ [asksOnFirst]) := by
  intro agree
  have arrives : syncIn wire (Relay.run wire Relay.initial seenTwice) asksOnFirst.2 =
      some (0, syncRouteInfoRequest.write passiveRequest, passiveRequest) := by decide
  exact absurd (answers_own_id agree 0 _ passiveRequest arrives rfl) (by decide)

end RelaySessionIds
