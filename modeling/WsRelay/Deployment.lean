import WsRelay.RoomIsolation
import WsRelay.Library.OutputRuns

/- The worker in front of the rooms. A request is answered by the worker or handed to the room
   that it names; a room runs in the isolate that its object was created in, with whatever other
   rooms are there. A room that shares no name and no group with its neighbours is a relay of its
   own, and its sockets are those of the requests that named it. -/
namespace RelayDeployment
open RelayProtocol RelayRouteState RelayPeerManager RelayRoomModel RelayTwinSteps
open RelayRoomIsolation RelayWireFormats SharedStore TransitionRuns OutputRuns

/- What the worker and the room read of a request: the decoded query pairs in order, and the
   Upgrade header. -/
structure Request where
  path : String
  queryPairs : List (String × String)
  upgrade : Option String
  deriving DecidableEq, Repr

abbrev RoomName := String

inductive Answer where
  | response (status : Nat) (body : String) : Answer
  | room (name : RoomName) : Answer
  deriving DecidableEq, Repr

/- `var` is the WS_PATH variable of the environment. -/
def wsPath (var : Option String) : String :=
  "/" ++ String.ofList ((var.getD "ws").toList.dropWhile (· == '/'))

def roomId (req : Request) : RoomName :=
  ((req.queryPairs.find? (·.1 == "room")).map (·.2)).getD "default"

/- fetch of the worker. -/
def fetch (var : Option String) (req : Request) : Answer :=
  if req.path = "/healthz" then .response 200 "ok"
  else if req.path = wsPath var ∨ req.path = wsPath var ++ "/" then
    if req.upgrade ≠ some "websocket" then .response 400 "Expected WebSocket upgrade"
    else .room (roomId req)
  else .response 404 "Not found"

/- The check that the room makes again before it accepts the socket. -/
def roomFetch (req : Request) : Answer :=
  if req.upgrade ≠ some "websocket" then .response 400 "Expected websocket"
  else .response 101 ""

/-- A request reaches a room exactly when it asks for an upgrade on the socket's path and names
    the room first; the room does not refuse what the worker has let through. -/
theorem fetch_room_iff {var : Option String} {req : Request} {name : RoomName} :
    fetch var req = .room name ↔ req.path ≠ "/healthz" ∧
      (req.path = wsPath var ∨ req.path = wsPath var ++ "/") ∧
      roomFetch req = .response 101 "" ∧ roomId req = name := by
  unfold fetch roomFetch
  by_cases health : req.path = "/healthz"
  · simp [health]
  · by_cases here : req.path = wsPath var ∨ req.path = wsPath var ++ "/"
    · by_cases upgrade : req.upgrade = some "websocket"
      · simp [health, here, upgrade]
      · simp [health, here, upgrade]
    · simp [health, here]

example : fetch none ⟨"/ws/", [("x", "1"), ("room", "a"), ("room", "b")], some "websocket"⟩ =
    .room "a" := by decide

abbrev IsolateId := Nat

/- Every room has an object once it has been created in some isolate. -/
structure Deployment where
  rooms : RoomName → RelayRoom
  home : RoomName → Option IsolateId
  memory : IsolateId → GlobalStateInner

def Deployment.initial : Deployment where
  rooms _ := RelayRoom.empty
  home _ := none
  memory _ := GlobalStateInner.fresh

inductive Delivery where
  | message (w : SocketId) (content : IncomingMessage) : Delivery
  | close (w : SocketId) : Delivery
  | error (w : SocketId) : Delivery
  | alarm : Delivery

def Delivery.event : Delivery → RoomEvent
  | .message w content => .message w content
  | .close w => .close w
  | .error w => .error w
  | .alarm => .alarm

inductive PlatformEvent where
  | request (env : Env) (req : Request) : PlatformEvent
  | deliver (name : RoomName) (env : Env) (delivery : Delivery) : PlatformEvent
  /-- RelayRoom::new in this isolate. -/
  | create (name : RoomName) (isolate : IsolateId) (env : Env) : PlatformEvent
  /-- The isolate starts again; the objects in it are gone. -/
  | start (isolate : IsolateId) : PlatformEvent

structure Act where
  name : RoomName
  isolate : IsolateId
  env : Env
  event : RoomEvent

def Deployment.relay (d : Deployment) (name : RoomName) (i : IsolateId) : Relay :=
  ⟨d.rooms name, d.memory i⟩

def Deployment.prepare (d : Deployment) : PlatformEvent → Deployment
  | .create name i _ => { d with home := Function.update d.home name (some i) }
  | .start i =>
    { d with
      home := fun name => if d.home name = some i then none else d.home name
      memory := Function.update d.memory i GlobalStateInner.fresh }
  | _ => d

def Deployment.act (var : Option String) (d : Deployment) : PlatformEvent → Option Act
  | .request env req =>
    match fetch var req with
    | .room name => (d.home name).map fun i => ⟨name, i, env, .accept⟩
    | .response _ _ => none
  | .deliver name env delivery => (d.home name).map fun i => ⟨name, i, env, delivery.event⟩
  | .create name i env => some ⟨name, i, env, .rehydrate⟩
  | .start _ => none

def Deployment.perform (x : Externals) (d : Deployment) (a : Act) : Deployment :=
  let after := (d.relay a.name a.isolate).step x a.env a.event
  { d with
    rooms := Function.update d.rooms a.name after.room
    memory := Function.update d.memory a.isolate after.global }

def Deployment.step (x : Externals) (var : Option String) (d : Deployment) (e : PlatformEvent) :
    Deployment :=
  let d := d.prepare e
  match d.act var e with
  | none => d
  | some a => d.perform x a

def Deployment.run (x : Externals) (var : Option String) (events : List PlatformEvent) :
    Deployment :=
  TransitionRuns.run (Deployment.step x var) Deployment.initial events

/- The events of one room, and the starts of isolates. -/
def concerns (var : Option String) (name : RoomName) : PlatformEvent → Bool
  | .request _ req => fetch var req == .room name
  | .deliver other _ _ => other == name
  | .create other _ _ => other == name
  | .start _ => true

def ownEvents (var : Option String) (name : RoomName) (events : List PlatformEvent) :
    List PlatformEvent := events.filter (concerns var name)

/- A start forgets what was written in the isolate. -/
def forgets (left : IsolateId → List SharedKey) : PlatformEvent → IsolateId → List SharedKey
  | .start i => Function.update left i []
  | _ => left

/- What the other rooms have written in each isolate since it started. -/
def leaves (x : Externals) (var : Option String) (name : RoomName) (d : Deployment)
    (left : IsolateId → List SharedKey) (e : PlatformEvent) : IsolateId → List SharedKey :=
  match (d.prepare e).act var e with
  | none => forgets left e
  | some a =>
    if a.name = name then left
    else Function.update left a.isolate
      (left a.isolate ++ written x a.env ((d.prepare e).relay a.name a.isolate) a.event)

def uses (x : Externals) (var : Option String) (name : RoomName) (d : Deployment)
    (e : PlatformEvent) : List (IsolateId × SharedKey) :=
  match (d.prepare e).act var e with
  | none => []
  | some a =>
    if a.name = name then
      (Relay.keys x a.env ((d.prepare e).relay a.name a.isolate) a.event).map (a.isolate, ·)
    else []

/-- No event of the room uses a name or a group that another room has written in its isolate. -/
def StaysClear (x : Externals) (var : Option String) (name : RoomName)
    (s : Deployment × (IsolateId → List SharedKey)) (e : PlatformEvent) : Prop :=
  ∀ u ∈ uses x var name s.1 e, u.2 ∉ s.2 u.1

instance (x : Externals) (var : Option String) (name : RoomName)
    (s : Deployment × (IsolateId → List SharedKey)) (e : PlatformEvent) :
    Decidable (StaysClear x var name s e) := inferInstanceAs (Decidable (∀ _ ∈ _, _))

variable {x : Externals} {var : Option String} {name : RoomName} {d d' : Deployment}
variable {left : IsolateId → List SharedKey} {e : PlatformEvent} {a : Act}

/- The room is the same, and so is each memory off what the other rooms have written in it. -/
structure Follows (name : RoomName) (left : IsolateId → List SharedKey) (d d' : Deployment) :
    Prop where
  room : d.rooms name = d'.rooms name
  home : d.home name = d'.home name
  memory : ∀ i, AgreeOff (left i) (d.memory i) (d'.memory i)

theorem act_event (acts : d.act var e = some a) : a.event ≠ .restart := by
  cases e with
  | request env req =>
    simp only [Deployment.act] at acts
    split at acts
    · obtain ⟨i, -, rfl⟩ := Option.map_eq_some_iff.mp acts
      simp
    · cases acts
  | deliver room env delivery =>
    obtain ⟨i, -, rfl⟩ := Option.map_eq_some_iff.mp acts
    cases delivery <;> simp [Delivery.event]
  | create room i env =>
    obtain rfl := Option.some.inj acts
    simp
  | start i => cases acts

theorem act_concerns (acts : d.act var e = some a) :
    concerns var name e = decide (a.name = name) := by
  cases e with
  | request env req =>
    simp only [Deployment.act] at acts
    split at acts
    · rename_i room routed
      obtain ⟨i, -, rfl⟩ := Option.map_eq_some_iff.mp acts
      rw [concerns, routed]
      by_cases same : room = name
      · simp [same]
      · simp [same]
    · cases acts
  | deliver room env delivery =>
    obtain ⟨i, -, rfl⟩ := Option.map_eq_some_iff.mp acts
    exact beq_eq_decide room name
  | create room i env =>
    obtain rfl := Option.some.inj acts
    exact beq_eq_decide room name
  | start i => cases acts

theorem act_same (own : concerns var name e = true) (home : d.home name = d'.home name) :
    d.act var e = d'.act var e := by
  cases e with
  | request env req =>
    have routed : fetch var req = .room name := by simpa [concerns] using own
    simp only [Deployment.act, routed, home]
  | deliver room env delivery =>
    have same : room = name := by simpa [concerns] using own
    simp only [Deployment.act, same, home]
  | create room i env => rfl
  | start i => rfl

theorem forgets_act (acts : d.act var e = some a) : forgets left e = left := by
  cases e with
  | start i => cases acts
  | _ => rfl

theorem prepare_follows (follows : Follows name left d d') (e : PlatformEvent) :
    Follows name (forgets left e) (d.prepare e) (d'.prepare e) := by
  cases e with
  | create room i env =>
    refine ⟨follows.room, ?_, follows.memory⟩
    simp only [Deployment.prepare, Function.update_apply, follows.home]
  | start i =>
    refine ⟨follows.room, by simp only [Deployment.prepare, follows.home], ?_⟩
    intro j
    by_cases same : j = i
    · subst same
      simp only [Deployment.prepare, forgets, Function.update_self]
      exact agreeOff_refl [] _
    · simp only [Deployment.prepare, forgets, Function.update_of_ne same]
      exact follows.memory j
  | _ => exact follows

theorem prepare_foreign (follows : Follows name left d d') (other : concerns var name e = false) :
    Follows name left (d.prepare e) d' := by
  cases e with
  | create room i env =>
    have different : name ≠ room := by
      rintro rfl
      simp [concerns] at other
    refine ⟨follows.room, ?_, follows.memory⟩
    simp only [Deployment.prepare, Function.update_of_ne different, follows.home]
  | start i => simp [concerns] at other
  | _ => exact follows

theorem perform_own (follows : Follows name left d d') (own : a.name = name)
    (stays : a.event ≠ .restart)
    (clear : ∀ k ∈ Relay.keys x a.env (d.relay name a.isolate) a.event, k ∉ left a.isolate) :
    Follows name left (d.perform x a) (d'.perform x a) := by
  obtain ⟨room, i, env, event⟩ := a
  obtain rfl : room = name := own
  have twins : (zoneOf (left i) (d.memory i) (d'.memory i)).Twins (d.relay room i)
      (d'.relay room i) := ⟨follows.room, follows.memory i⟩
  have after := step_twin x env twins stays fun k used => zoneOf_off.mpr (clear k used)
  refine ⟨?_, follows.home, ?_⟩
  · simp only [Deployment.perform, Function.update_self]
    exact after.room
  · intro j
    by_cases same : j = i
    · subst same
      simp only [Deployment.perform, Function.update_self]
      exact agreeOff_of_globals after.global
    · simp only [Deployment.perform, Function.update_of_ne same]
      exact follows.memory j

theorem perform_foreign (follows : Follows name left d d') (other : a.name ≠ name)
    (stays : a.event ≠ .restart) :
    Follows name (Function.update left a.isolate
      (left a.isolate ++ written x a.env (d.relay a.name a.isolate) a.event))
      (d.perform x a) d' := by
  refine ⟨?_, follows.home, ?_⟩
  · simp only [Deployment.perform, Function.update_of_ne other.symm]
    exact follows.room
  · intro j
    by_cases same : j = a.isolate
    · subst same
      simp only [Deployment.perform, Function.update_self]
      have changed := step_agreeOff x a.env (d.relay a.name a.isolate) stays
      exact changed.trans (follows.memory a.isolate)
    · simp only [Deployment.perform, Function.update_of_ne same]
      exact follows.memory j

theorem step_idle (acts : (d.prepare e).act var e = none) : d.step x var e = d.prepare e := by
  simp only [Deployment.step, acts]

theorem step_act (acts : (d.prepare e).act var e = some a) :
    d.step x var e = (d.prepare e).perform x a := by
  simp only [Deployment.step, acts]

theorem follows_own (follows : Follows name left d d') (own : concerns var name e = true)
    (clear : StaysClear x var name (d, left) e) :
    Follows name (leaves x var name d left e) (d.step x var e) (d'.step x var e) := by
  have prepared := prepare_follows follows e
  have same : (d.prepare e).act var e = (d'.prepare e).act var e := act_same own prepared.home
  unfold leaves
  cases acts : (d.prepare e).act var e with
  | none =>
    rw [step_idle acts, step_idle (same.symm.trans acts)]
    exact prepared
  | some a =>
    have named : a.name = name := by simpa [act_concerns acts] using own
    rw [forgets_act acts] at prepared
    rw [step_act acts, step_act (same.symm.trans acts)]
    simp only [named, ↓reduceIte]
    refine perform_own prepared named (act_event acts) ?_
    intro k used
    refine clear (a.isolate, k) ?_
    simp only [uses, acts, named, ↓reduceIte]
    exact List.mem_map_of_mem used

theorem follows_foreign (follows : Follows name left d d')
    (other : concerns var name e = false) :
    Follows name (leaves x var name d left e) (d.step x var e) d' := by
  have prepared := prepare_foreign follows other
  unfold leaves
  cases acts : (d.prepare e).act var e with
  | none =>
    have kept : forgets left e = left := by
      cases e with
      | start i => simp [concerns] at other
      | _ => rfl
    rw [step_idle acts]
    simp only [kept]
    exact prepared
  | some a =>
    have different : a.name ≠ name := by simpa [act_concerns acts] using other
    rw [step_act acts]
    simp only [different, ↓reduceIte]
    exact perform_foreign prepared different (act_event acts)

/-- A room that stays clear of its neighbours is what it is without them, at every moment. -/
theorem room_runs_alone (name : RoomName) {events : List PlatformEvent}
    (clear : EveryStep (watch (Deployment.step x var) (leaves x var name)) (StaysClear x var name)
      (Deployment.initial, fun _ => []) events) :
    Follows name (run (watch (Deployment.step x var) (leaves x var name))
        (Deployment.initial, fun _ => []) events).2 (Deployment.run x var events)
      (Deployment.run x var (ownEvents var name events)) := by
  have alone : Follows name (fun _ => []) Deployment.initial Deployment.initial :=
    ⟨rfl, rfl, fun _ => agreeOff_refl [] _⟩
  have joint := run_watch (Deployment.step x var) (leaves x var name)
    (Deployment.initial, fun _ => []) events
  rw [Deployment.run, ← joint]
  exact filtered_run (fun s d' => Follows name s.2 s.1 d')
    (fun _ _ _ clear own follows => follows_own follows own clear)
    (fun _ _ _ _ other follows => follows_foreign follows other) alone clear

/- An event of the room as events of a relay; `alive` tells whether the room has an object. -/
def translated (alive : Bool) : PlatformEvent → List (Env × RoomEvent)
  | .request env _ => if alive then [(env, .accept)] else []
  | .deliver _ env delivery => if alive then [(env, delivery.event)] else []
  | .create _ _ env => [(env, if alive then .rehydrate else .restart)]
  | .start _ => []

def aliveAfter (i : IsolateId) (alive : Bool) : PlatformEvent → Bool
  | .create _ _ _ => true
  | .start j => alive && j != i
  | _ => alive

/-- What the room sees of the deployment, if its objects are in this isolate. -/
def asRelay (var : Option String) (name : RoomName) (i : IsolateId)
    (events : List PlatformEvent) : List (Env × RoomEvent) :=
  outputs (aliveAfter i) translated false (ownEvents var name events)

def settles (name : RoomName) (i : IsolateId) : PlatformEvent → Bool
  | .create other j _ => other != name || j == i
  | _ => true

/- The deployment as this relay sees it. Without an object the isolate is as it starts. -/
structure StandsFor (name : RoomName) (i : IsolateId) (alive : Bool) (d : Deployment) (r : Relay) :
    Prop where
  room : d.rooms name = r.room
  home : d.home name = if alive then some i else none
  memory : d.memory i = if alive then r.global else GlobalStateInner.fresh

theorem performs {i : IsolateId} {r : Relay} {env : Env} {event : RoomEvent}
    (same : d.relay name i = r) (home : d.home name = some i) :
    StandsFor name i true (d.perform x ⟨name, i, env, event⟩) (r.step x env event) := by
  refine ⟨?_, home, ?_⟩
  · simp only [Deployment.perform, Function.update_self, same]
  · simp only [Deployment.perform, Function.update_self, same, ↓reduceIte]

theorem standsFor_step {i : IsolateId} {alive : Bool} {r : Relay}
    (stands : StandsFor name i alive d r) (own : concerns var name e = true)
    (settled : settles name i e = true) :
    StandsFor name i (aliveAfter i alive e) (d.step x var e)
      (Relay.run x r (translated alive e)) := by
  obtain ⟨room, home, memory⟩ := stands
  cases e with
  | request env req =>
    have routed : fetch var req = .room name := by simpa [concerns] using own
    cases alive with
    | false =>
      have idle : (d.prepare (.request env req)).act var (.request env req) = none := by
        simp [Deployment.act, Deployment.prepare, routed, home]
      rw [step_idle idle]
      exact ⟨room, home, memory⟩
    | true =>
      have acts : (d.prepare (.request env req)).act var (.request env req) =
          some ⟨name, i, env, .accept⟩ := by
        simp [Deployment.act, Deployment.prepare, routed, home]
      rw [step_act acts]
      exact performs (by simp only [Deployment.relay, Deployment.prepare, room, memory]; rfl) home
  | deliver other env delivery =>
    have named : other = name := by simpa [concerns] using own
    subst named
    cases alive with
    | false =>
      have idle : (d.prepare (.deliver other env delivery)).act var
          (.deliver other env delivery) = none := by
        simp [Deployment.act, Deployment.prepare, home]
      rw [step_idle idle]
      exact ⟨room, home, memory⟩
    | true =>
      have acts : (d.prepare (.deliver other env delivery)).act var
          (.deliver other env delivery) = some ⟨other, i, env, delivery.event⟩ := by
        simp [Deployment.act, Deployment.prepare, home]
      rw [step_act acts]
      exact performs (by simp only [Deployment.relay, Deployment.prepare, room, memory]; rfl) home
  | create other j env =>
    have named : other = name := by simpa [concerns] using own
    subst named
    have here : j = i := by simpa [settles] using settled
    subst here
    have acts : (d.prepare (.create other j env)).act var (.create other j env) =
        some ⟨other, j, env, .rehydrate⟩ := rfl
    have created : (d.prepare (.create other j env)).home other = some j := by
      simp [Deployment.prepare]
    rw [step_act acts]
    cases alive with
    | false =>
      have fresh : (d.prepare (.create other j env)).relay other j =
          { r with global := GlobalStateInner.fresh } := by
        simp only [Deployment.relay, Deployment.prepare, room, memory]
        rfl
      have started : StandsFor other j true
          ((d.prepare (.create other j env)).perform x ⟨other, j, env, .rehydrate⟩)
          (Relay.step x env { r with global := GlobalStateInner.fresh } .rehydrate) :=
        performs fresh created
      exact started
    | true =>
      have kept : (d.prepare (.create other j env)).relay other j = r := by
        simp only [Deployment.relay, Deployment.prepare, room, memory]
        rfl
      exact performs kept created
  | start j =>
    have idle : (d.prepare (.start j)).act var (.start j) = none := rfl
    rw [step_idle idle]
    by_cases same : j = i
    · subst same
      refine ⟨room, ?_, ?_⟩
      · simp only [Deployment.prepare, home, aliveAfter, bne_self_eq_false, Bool.and_false]
        cases alive <;> simp
      · simp [Deployment.prepare, aliveAfter]
    · have other : i ≠ j := Ne.symm same
      refine ⟨room, ?_, ?_⟩
      · cases alive <;> simp [Deployment.prepare, home, aliveAfter, other, same]
      · cases alive <;> simp [Deployment.prepare, memory, aliveAfter, other, same]
        rfl

theorem standsFor_run {i : IsolateId} {alive : Bool} {r : Relay} {events : List PlatformEvent}
    (stands : StandsFor name i alive d r) (own : ∀ e ∈ events, concerns var name e = true)
    (settled : ∀ e ∈ events, settles name i e = true) :
    StandsFor name i (run (aliveAfter i) alive events) (run (Deployment.step x var) d events)
      (Relay.run x r (outputs (aliveAfter i) translated alive events)) := by
  induction events generalizing alive d r with
  | nil => exact stands
  | cons e rest ih =>
    have next := standsFor_step (x := x) stands (own e (by simp)) (settled e (by simp))
    have later := ih next (fun e' listed => own e' (by simp [listed]))
      fun e' listed => settled e' (by simp [listed])
    rw [outputs, Relay.run, run_append]
    exact later

/-- The rooms of a deployment are relays. A room whose objects are created in one isolate, and
    that uses no name and no group that a neighbour has written there, has the sockets and has
    sent the frames of one relay: it accepts a socket for each request that the worker hands it,
    and starts again where the isolate does. -/
theorem rooms_are_relays (x : Externals) (var : Option String) (name : RoomName) (i : IsolateId)
    {events : List PlatformEvent} (settled : events.all (settles name i) = true)
    (clear : EveryStep (watch (Deployment.step x var) (leaves x var name)) (StaysClear x var name)
      (Deployment.initial, fun _ => []) events) :
    (Deployment.run x var events).rooms name =
      (Relay.run x Relay.initial (asRelay var name i events)).room := by
  have start : StandsFor name i false Deployment.initial Relay.initial := ⟨rfl, rfl, rfl⟩
  have own (e : PlatformEvent) (kept : e ∈ ownEvents var name events) :
      concerns var name e = true ∧ settles name i e = true := by
    obtain ⟨listed, concerned⟩ := List.mem_filter.mp kept
    exact ⟨concerned, List.all_eq_true.mp settled e listed⟩
  have alone := standsFor_run (x := x) start (fun e kept => (own e kept).1)
    fun e kept => (own e kept).2
  have joint := room_runs_alone name clear
  exact joint.room.trans alone.room

/- Two rooms in one isolate, each with a network of its own, and requests that reach none. -/
def busyIsolate : List PlatformEvent :=
  let at' (i : Nat) := quietEnv (UInt64.ofNat (1000 + i)) (UInt64.ofNat (100 * i + 1))
  let asks (name : RoomName) : Request := ⟨"/ws", [("room", name)], some "websocket"⟩
  [.start 7, .create "a" 7 (at' 0), .create "b" 7 (at' 1), .request (at' 2) (asks "a"),
    .request (at' 3) (asks "b"), .request (at' 4) ⟨"/healthz", [], none⟩,
    .request (at' 5) ⟨"/ws", [("room", "a")], none⟩,
    .deliver "a" (at' 6) (.message 0 (greeting 5 "net" [0xaa])),
    .deliver "b" (at' 7) (.message 0 (greeting 6 "other" [0xbb])),
    .deliver "a" (at' 8) .alarm, .deliver "b" (at' 9) (.close 0)]

set_option maxRecDepth 16000 in
theorem busy_isolate_has_two_relays :
    (Deployment.run wire none busyIsolate).rooms "a" =
      (Relay.run wire Relay.initial (asRelay none "a" 7 busyIsolate)).room :=
  rooms_are_relays wire none "a" 7 (by decide) (by decide)

end RelayDeployment
