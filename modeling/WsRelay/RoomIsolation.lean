import WsRelay.TwinSteps
import WsRelay.WireFormats

/- Two rooms in one isolate. The rooms have their own sockets and share the rest, so what one
   room does is seen in the other wherever both use one network name or one group. While the
   first room keeps clear of what the second has written, it runs as if it were alone. -/
namespace RelayRoomIsolation
open RelayProtocol RelayRouteState RelayPeerCenter RelayPeerManager RelayRpcHandler RelayRoomModel
open RelayRoomSteps RelayMembership RelayTwinSteps RelayWireFormats SharedStore TransitionRuns

inductive Side where
  | a : Side
  | b : Side
  deriving DecidableEq, Repr

structure Isolate where
  roomA : RelayRoom
  roomB : RelayRoom
  global : GlobalStateInner
  deriving DecidableEq

def Isolate.initial : Isolate := ⟨RelayRoom.empty, RelayRoom.empty, GlobalStateInner.fresh⟩

def Isolate.relay (i : Isolate) : Side → Relay
  | .a => ⟨i.roomA, i.global⟩
  | .b => ⟨i.roomB, i.global⟩

structure IsolateEvent where
  side : Side
  env : Env
  event : RoomEvent

/- An event of one room. A restart of the isolate is listed with the room that is created first
   after it; the other room is created again by a rehydration of its own. -/
def Isolate.step (x : Externals) (i : Isolate) (e : IsolateEvent) : Isolate :=
  let after := (i.relay e.side).step x e.env e.event
  match e.side with
  | .a => { i with roomA := after.room, global := after.global }
  | .b => { i with roomB := after.room, global := after.global }

def Isolate.run (x : Externals) (events : List IsolateEvent) : Isolate :=
  TransitionRuns.run (Isolate.step x) Isolate.initial events

def restarts : RoomEvent → Bool
  | .restart => true
  | _ => false

/- The events without those of the second room. A restart of the isolate is no room's event. -/
def IsolateEvent.stays (e : IsolateEvent) : Bool := e.side == .a || restarts e.event

def withoutB (events : List IsolateEvent) : List IsolateEvent := events.filter (·.stays)

def verdict (x : Externals) (r : Relay) : RoomEvent → Option Bool
  | .message w (.binary bytes) =>
    if r.room.isOpen w then
      match parseHeader bytes with
      | none => none
      | some header =>
        if header.packetTypeEnum = .handShake then
          some (handleHandshake x (bytes.drop headerSize)
            r.global.networkDigestRegistry).1.isSome
        else none
    else none
  | _ => none

/-- The first room judges every handshake and sends every frame as if it were alone. -/
def Isolated (x : Externals) (events : List IsolateEvent) : Prop :=
  (∀ before e after, events = before ++ e :: after → e.side = .a →
    verdict x ((Isolate.run x before).relay .a) e.event =
      verdict x ((Isolate.run x (withoutB before)).relay .a) e.event) ∧
  (Isolate.run x events).roomA.sent = (Isolate.run x (withoutB events)).roomA.sent

/- What an event writes: a name that has an owner already is only looked up. -/
def written (x : Externals) (env : Env) (r : Relay) (e : RoomEvent) : List SharedKey :=
  (Relay.keys x env r e).filter fun
    | .name n => r.global.networkDigestRegistry[n]?.isNone
    | .group _ => true

def standing (left : List SharedKey) (e : RoomEvent) : List SharedKey :=
  if restarts e then [] else left

/- The names and groups that the second room wrote since the isolate started. -/
def leaves (x : Externals) (i : Isolate) (left : List SharedKey) (e : IsolateEvent) :
    List SharedKey :=
  match e.side with
  | .a => standing left e.event
  | .b => standing left e.event ++ written x e.env (i.relay .b) e.event

/-- An event of the first room uses nothing that the second has written. -/
def KeepsClear (x : Externals) (s : Isolate × List SharedKey) (e : IsolateEvent) : Prop :=
  e.side = .a → ∀ k ∈ Relay.keys x e.env (s.1.relay .a) e.event, k ∉ standing s.2 e.event

instance (x : Externals) (s : Isolate × List SharedKey) (e : IsolateEvent) :
    Decidable (KeepsClear x s e) := inferInstanceAs (Decidable (_ → _))

def zoneOf (left : List SharedKey) (gs gs' : GlobalStateInner) : Zone where
  names := {n | .name n ∈ left}
  groups := {k | .group k ∈ left}
  base := gs
  base' := gs'

def AgreeOff (left : List SharedKey) (gs gs' : GlobalStateInner) : Prop :=
  (zoneOf left gs gs').Globals gs gs'

theorem zoneOf_off {left : List SharedKey} {gs gs' : GlobalStateInner} {k : SharedKey} :
    (zoneOf left gs gs').Off k ↔ k ∉ left := by
  cases k <;> exact Iff.rfl

theorem agreeOff_refl (left : List SharedKey) (gs : GlobalStateInner) : AgreeOff left gs gs :=
  ⟨Beside.start fun _ _ => rfl, Beside.start fun _ _ => rfl, Beside.start fun _ _ => rfl⟩

theorem agreeOff_of_globals {left : List SharedKey} {base base' gs gs' : GlobalStateInner}
    (globals : (zoneOf left base base').Globals gs gs') : AgreeOff left gs gs' :=
  ⟨Beside.start globals.manager.agree, Beside.start globals.centers.agree,
    Beside.start globals.registry.agree⟩

theorem AgreeOff.trans {left more : List SharedKey} {a b c : GlobalStateInner}
    (first : AgreeOff more a b) (second : AgreeOff left b c) : AgreeOff (left ++ more) a c := by
  have out {k : SharedKey} (off : k ∉ left ++ more) : k ∉ left ∧ k ∉ more := by
    simpa using off
  refine ⟨Beside.start ?_, Beside.start ?_, Beside.start ?_⟩
  · intro k off
    obtain ⟨here, there⟩ := out off
    exact (first.manager.agree k there).trans (second.manager.agree k here)
  · intro k off
    obtain ⟨here, there⟩ := out off
    exact (first.centers.agree k there).trans (second.centers.agree k here)
  · intro n off
    obtain ⟨here, there⟩ := out off
    exact (first.registry.agree n there).trans (second.registry.agree n here)

/- Everything but the listed keys, set apart from a single shared state. -/
def outside (keys : List SharedKey) (gs : GlobalStateInner) : Zone where
  names := {n | .name n ∉ keys}
  groups := {k | .group k ∉ keys}
  base := gs
  base' := gs

theorem outside_off {keys : List SharedKey} {gs : GlobalStateInner} {k : SharedKey}
    (listed : k ∈ keys) : (outside keys gs).Off k := by
  cases k with
  | name n => exact fun absent => absent listed
  | group key => exact fun absent => absent listed

theorem outside_start (keys : List SharedKey) (gs : GlobalStateInner) :
    (outside keys gs).Globals gs gs :=
  ⟨Beside.start fun _ _ => rfl, Beside.start fun _ _ => rfl, Beside.start fun _ _ => rfl⟩

theorem agreeOff_of_outside {keys : List SharedKey} {base gs gs' : GlobalStateInner}
    (globals : (outside keys base).Globals gs gs') : AgreeOff keys gs base :=
  ⟨Beside.start globals.manager.kept, Beside.start globals.centers.kept,
    Beside.start globals.registry.kept⟩

/-- Off what it writes, an event leaves the shared state as it was. -/
theorem step_agreeOff (x : Externals) (env : Env) (r : Relay) {e : RoomEvent}
    (stays : e ≠ .restart) : AgreeOff (written x env r e) (r.step x env e).global r.global := by
  have twins : (outside (Relay.keys x env r e) r.global).Twins r r := ⟨rfl, outside_start _ _⟩
  have after := step_twin x env twins stays fun k listed => outside_off listed
  obtain ⟨managers, centers, registry⟩ := agreeOff_of_outside after.global
  have groups {k : GroupKey} (off : .group k ∉ written x env r e) :
      .group k ∉ Relay.keys x env r e := fun used => off (List.mem_filter.mpr ⟨used, rfl⟩)
  refine ⟨Beside.start fun k off => managers.agree k (groups off),
    Beside.start fun k off => centers.agree k (groups off), Beside.start ?_⟩
  intro n off
  cases owned : r.global.networkDigestRegistry[n]? with
  | some digest => exact (registry_step x env r stays owned).trans owned.symm
  | none =>
    have unused : .name n ∉ Relay.keys x env r e :=
      fun used => off (List.mem_filter.mpr ⟨used, by simp [owned]⟩)
    exact registry.agree n unused

theorem restart_agreeOff (x : Externals) (env : Env) (r : Relay) :
    AgreeOff (written x env r .restart) (r.step x env .restart).global GlobalStateInner.fresh := by
  have groupsOnly : written x env r .restart = Relay.keys x env r .restart := by
    refine List.filter_eq_self.mpr ?_
    intro k listed
    obtain ⟨key, -, rfl⟩ := List.mem_map.mp listed
    rfl
  let restarted : Relay := { r with global := GlobalStateInner.fresh }
  have twins : (outside (Relay.keys x env r .restart) GlobalStateInner.fresh).Twins restarted
      restarted := ⟨rfl, outside_start _ _⟩
  have after := new_twin env twins (fun key listed => outside_off (k := .group key)
    (List.mem_map_of_mem listed))
  rw [groupsOnly]
  exact agreeOff_of_outside after.global

theorem verdict_twin {x : Externals} (env : Env) {z : Zone} {r r' : Relay} (twins : z.Twins r r')
    {e : RoomEvent} (off : ∀ k ∈ Relay.keys x env r e, z.Off k) :
    verdict x r e = verdict x r' e := by
  cases e with
  | message w message =>
    cases message with
    | text body => rfl
    | binary bytes =>
      simp only [verdict, ← twins.room]
      split
      · rename_i isOpen
        simp only [Relay.keys, isOpen, ↓reduceIte] at off
        cases parsed : parseHeader bytes with
        | none => rfl
        | some header =>
          simp only [parsed, messageKeys] at off
          simp only
          split
          · rename_i kind
            simp only [kind] at off
            have same := handleHandshake_twin x twins.global.registry (bytes.drop headerSize)
              fun req decoded genuine => off (.name req.networkName)
                (mem_handshakeKeys_name x env decoded genuine r _)
            rw [same.1]
          · rfl
      · rfl
  | _ => rfl

/- The watched run of both rooms against the run of the first: what the second room has written
   is all that may differ, and in the other run the second room has no socket. -/
structure Unseen (s : Isolate × List SharedKey) (i : Isolate) : Prop where
  room : s.1.roomA = i.roomA
  nobody : i.roomB = RelayRoom.empty
  shared : AgreeOff s.2 s.1.global i.global

variable {x : Externals} {s : Isolate × List SharedKey} {i : Isolate} {e : IsolateEvent}

theorem Unseen.twins (unseen : Unseen s i) :
    (zoneOf s.2 s.1.global i.global).Twins (s.1.relay .a) (i.relay .a) :=
  ⟨unseen.room, unseen.shared⟩

theorem restarts_iff {e : RoomEvent} : restarts e = true ↔ e = .restart := by
  cases e <;> simp [restarts]

/- A restart forgets both shared states, and with them what the second room had written. -/
theorem unseen_restart (unseen : Unseen s i) (fresh : restarts e.event = true) :
    Unseen (watch (Isolate.step x) (leaves x) s e) (Isolate.step x i e) := by
  obtain ⟨side, env, event⟩ := e
  obtain rfl : event = .restart := restarts_iff.mp fresh
  cases side with
  | a =>
    have same : ({ s.1.relay .a with global := GlobalStateInner.fresh } : Relay) =
        { i.relay .a with global := GlobalStateInner.fresh } := by
      simp only [Isolate.relay, unseen.room]
    simp only [watch, Isolate.step, Relay.step, same, leaves, standing, fresh]
    exact ⟨rfl, unseen.nobody, agreeOff_refl _ _⟩
  | b =>
    have nobody : (i.relay .b).room = RelayRoom.empty := unseen.nobody
    have alone : ((i.relay .b).step x env .restart).global = GlobalStateInner.fresh := by
      simp only [Relay.step, Relay.new, nobody]
      rfl
    refine ⟨unseen.room, unseen.nobody, ?_⟩
    have after := restart_agreeOff x env (s.1.relay .b)
    simp only [watch, Isolate.step, leaves, standing, fresh, ↓reduceIte, List.nil_append, alone]
    exact after

theorem unseen_own (unseen : Unseen s i) (own : e.side = .a) (stays : e.event ≠ .restart)
    (clear : KeepsClear x s e) :
    Unseen (watch (Isolate.step x) (leaves x) s e) (Isolate.step x i e) := by
  obtain ⟨side, env, event⟩ := e
  obtain rfl : side = .a := own
  have ongoing : restarts event = false := by
    simpa using mt restarts_iff.mp stays
  have off : ∀ k ∈ Relay.keys x env (s.1.relay .a) event,
      (zoneOf s.2 s.1.global i.global).Off k := by
    intro k used
    have unwritten := clear rfl k used
    simp only [standing, ongoing, Bool.false_eq_true, ↓reduceIte] at unwritten
    exact zoneOf_off.mpr unwritten
  have after := step_twin x env unseen.twins stays off
  simp only [watch, Isolate.step, leaves, standing, ongoing, Bool.false_eq_true, ↓reduceIte]
  exact ⟨after.room, unseen.nobody, agreeOff_of_globals after.global⟩

theorem unseen_other (unseen : Unseen s i) (other : e.side = .b) (stays : e.event ≠ .restart) :
    Unseen (watch (Isolate.step x) (leaves x) s e) i := by
  obtain ⟨side, env, event⟩ := e
  obtain rfl : side = .b := other
  have ongoing : restarts event = false := by
    simpa using mt restarts_iff.mp stays
  have after := (step_agreeOff x env (s.1.relay .b) stays).trans unseen.shared
  refine ⟨unseen.room, unseen.nobody, ?_⟩
  simp only [watch, Isolate.step, leaves, standing, ongoing, Bool.false_eq_true, ↓reduceIte]
  exact after

theorem stays_cases : e.stays = true ↔ restarts e.event = true ∨ e.side = .a := by
  simp [IsolateEvent.stays, or_comm]

/-- The run of the first room alone follows the run of both. -/
theorem unseen_run {events : List IsolateEvent}
    (clear : EveryStep (watch (Isolate.step x) (leaves x)) (KeepsClear x) (Isolate.initial, [])
      events) :
    Unseen (run (watch (Isolate.step x) (leaves x)) (Isolate.initial, []) events)
      (Isolate.run x (withoutB events)) := by
  refine filtered_run Unseen ?_ ?_ ⟨rfl, rfl, agreeOff_refl [] _⟩ clear
  · intro s i e clear kept unseen
    cases fresh : restarts e.event with
    | true => exact unseen_restart unseen fresh
    | false =>
      have own : e.side = .a := by simpa [fresh] using stays_cases.mp kept
      have stays : e.event ≠ .restart := by simp [← restarts_iff, fresh]
      exact unseen_own unseen own stays clear
  · intro s i e clear removed unseen
    have neither : restarts e.event = false ∧ e.side ≠ .a := by
      simpa [stays_cases] using mt stays_cases.mpr (by simp [removed])
    have other : e.side = .b := by
      cases side : e.side with
      | a => exact absurd side neither.2
      | b => rfl
    have stays : e.event ≠ .restart := by simp [← restarts_iff, neither.1]
    exact unseen_other unseen other stays

/-- Rooms are isolated in every run in which no event of the first room uses a network name or
    a group that the second room has written since the isolate last started. -/
theorem rooms_are_isolated {events : List IsolateEvent}
    (clear : EveryStep (watch (Isolate.step x) (leaves x)) (KeepsClear x) (Isolate.initial, [])
      events) : Isolated x events := by
  have joint (events : List IsolateEvent) :
      (run (watch (Isolate.step x) (leaves x)) (Isolate.initial, []) events).1 =
        Isolate.run x events := run_watch _ _ _ _
  constructor
  · rintro before e after rfl own
    obtain ⟨early, here, -⟩ := (everyStep_append _ _ _).mp clear
    have unseen := unseen_run early
    cases fresh : restarts e.event with
    | true =>
      rw [restarts_iff.mp fresh]
      rfl
    | false =>
      rw [← joint]
      refine verdict_twin e.env unseen.twins fun k used => zoneOf_off.mpr ?_
      have unwritten := here own k used
      simpa [standing, fresh] using unwritten
  · rw [← joint, (unseen_run clear).room]

/- Each room has a network of its own; the second one's member is left alone by the first. -/
def rooms (events : List (Side × RoomEvent)) : List IsolateEvent :=
  events.zipIdx.map fun ((side, event), i) =>
    ⟨side, quietEnv (UInt64.ofNat (1000 + i)) (UInt64.ofNat (100 * i + 1)), event⟩

def separateNetworks : List IsolateEvent :=
  rooms [(.b, .accept), (.b, .message 0 (greeting 6 "other" [0xbb])), (.a, .accept),
    (.a, .message 0 (greeting 5 "net" [0xaa])), (.b, .alarm), (.a, .alarm), (.b, .close 0)]

theorem separate_networks_are_isolated : Isolated wire separateNetworks :=
  rooms_are_isolated (by decide)

/- A peer of the second room takes the name first, with a digest of its own. -/
def takenName : List IsolateEvent :=
  rooms [(.b, .accept), (.b, .message 0 (greeting 6 "net" [0xbb])), (.a, .accept)]

def refusedGreeting : IsolateEvent :=
  ⟨.a, quietEnv 1003 301, .message 0 (greeting 5 "net" [0xaa])⟩

theorem taken_name_refuses_a_handshake :
    verdict wire ((Isolate.run wire takenName).relay .a) refusedGreeting.event = some false ∧
      verdict wire ((Isolate.run wire (withoutB takenName)).relay .a) refusedGreeting.event =
        some true ∧
      ¬ Isolated wire (takenName ++ [refusedGreeting]) := by
  have refused : verdict wire ((Isolate.run wire takenName).relay .a) refusedGreeting.event =
      some false := by decide
  have accepted : verdict wire ((Isolate.run wire (withoutB takenName)).relay .a)
      refusedGreeting.event = some true := by decide
  refine ⟨refused, accepted, ?_⟩
  intro isolated
  have same := isolated.1 takenName refusedGreeting [] rfl rfl
  rw [refused, accepted] at same
  cases same

end RelayRoomIsolation
