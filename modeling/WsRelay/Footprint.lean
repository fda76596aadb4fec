import WsRelay.RoomIsolation
import WsRelay.Phases
import WsRelay.Secrecy
import WsRelay.WithdrawnEdges
import WsRelay.Library.OutputRuns

/- What the shared state has entries for. A name is registered, and a group gets its records, by
   a greeting that is admitted; the blank group belongs to sockets that have not greeted. Only a
   restart of the isolate frees an entry. -/
namespace RelayFootprint
open RelayProtocol RelayRouteState RelayPeerManager RelayRpcHandler RelayRoomModel RelayRouteOps
open RelayRoomSteps RelayMembership RelayTwinSteps RelayRoomIsolation RelayWithdrawnEdges
open RelayRoomMoves RelayStaleCleanup RelayPhases RelaySecrecy RelayWireFormats
open ConnectionDirectory TransitionRuns OutputRuns PlainText

variable {x : Externals} {env : Env} {r : Relay} {w : SocketId} {e : RoomEvent}

/- The groups with an entry in one of the two maps. -/
def Held (gs : GlobalStateInner) (k : GroupKey) : Prop :=
  k ∈ gs.peerManager.routeState.groups ∨ k ∈ gs.peerCenterMap

def admitsNow (r : Relay) (req : HandshakeRequest) : Bool :=
  r.global.networkDigestRegistry[req.networkName]?.all (· == hexText req.networkSecretDigest)

/- The greeting of an event, if it is admitted. -/
def admission (x : Externals) (r : Relay) : RoomEvent → Option HandshakeRequest
  | .message w (.binary bytes) =>
    if r.room.isOpen w then
      (parseHeader bytes).bind fun header =>
        (greeted x header (bytes.drop headerSize)).filter (admitsNow r)
    else none
  | _ => none

/-- The admitted greetings of a run, in order. -/
def admissions (x : Externals) (r : Relay) (events : List (Env × RoomEvent)) :
    List HandshakeRequest :=
  outputs (Relay.onEvent x) (fun r e => (admission x r e.2).toList) r events

def groupOf (req : HandshakeRequest) : GroupKey :=
  groupKeyOf req.networkName (hexText req.networkSecretDigest)

theorem admitsNow_iff {req : HandshakeRequest} : admitsNow r req = true ↔ Admits r req := by
  simp only [admitsNow, Admits, Directory.admits, directory, Option.all_eq_true, beq_iff_eq]

theorem admission_some {req : HandshakeRequest} (admitted : admission x r e = some req) :
    ∃ w bytes header, e = .message w (.binary bytes) ∧ r.room.isOpen w = true ∧
      parseHeader bytes = some header ∧ greeted x header (bytes.drop headerSize) = some req ∧
      Admits r req := by
  unfold admission at admitted
  split at admitted
  · rename_i w bytes
    obtain ⟨isOpen, admitted⟩ := Option.ite_none_right_eq_some.mp admitted
    obtain ⟨header, parsed, admitted⟩ := Option.bind_eq_some_iff.mp admitted
    obtain ⟨greets, now⟩ := Option.filter_eq_some_iff.mp admitted
    exact ⟨w, bytes, header, rfl, isOpen, parsed, greets, admitsNow_iff.mp now⟩
  · cases admitted

theorem admission_message {bytes : Bytes} {header : PacketHeader} {req : HandshakeRequest}
    (isOpen : r.room.isOpen w = true) (parsed : parseHeader bytes = some header)
    (greets : greeted x header (bytes.drop headerSize) = some req) (admitted : Admits r req) :
    admission x r (.message w (.binary bytes)) = some req := by
  simp only [admission, isOpen, ↓reduceIte, parsed, Option.bind_some, greets]
  exact Option.filter_eq_some_iff.mpr ⟨rfl, admitsNow_iff.mpr admitted⟩

theorem hello_admission {c : SocketId} {p : PeerId} {n digest : String} {seated kept : Bool}
    (hello : directoryEvent x env r e = .hello c p n digest seated kept)
    (admitted : (directory r).admits n digest) :
    ∃ req, admission x r e = some req ∧ req.networkName = n ∧
      hexText req.networkSecretDigest = digest := by
  cases e with
  | message w message =>
    cases message with
    | text body => cases hello
    | binary bytes =>
      by_cases isOpen : r.room.isOpen w = true
      · cases parsed : parseHeader bytes with
        | none => simp [directoryEvent, parsed] at hello
        | some header =>
          simp only [directoryEvent, isOpen, ↓reduceIte, parsed, messageEvent] at hello
          cases greets : greeted x header (bytes.drop headerSize) with
          | none => simp [greets] at hello
          | some req =>
            simp only [greets] at hello
            obtain ⟨-, -, rfl, rfl, -, -⟩ := Event.hello.inj hello
            exact ⟨req, admission_message isOpen parsed greets admitted, rfl, rfl⟩
      · simp [directoryEvent, isOpen] at hello
  | _ => grind [directoryEvent]

theorem admission_hello (env : Env) {req : HandshakeRequest}
    (admitted : admission x r e = some req) :
    ∃ c p seated kept, directoryEvent x env r e = .hello c p req.networkName
        (hexText req.networkSecretDigest) seated kept ∧
      (directory r).admits req.networkName (hexText req.networkSecretDigest) := by
  obtain ⟨w, bytes, header, rfl, isOpen, parsed, greets, admits⟩ := admission_some admitted
  simp only [directoryEvent, isOpen, ↓reduceIte, parsed, messageEvent, greets]
  exact ⟨_, _, _, _, rfl, admits⟩

theorem registered_iff {n : String} :
    n ∈ r.global.networkDigestRegistry ↔ ((directory r).owner n).isSome = true := by
  rw [Std.ExtTreeMap.mem_iff_isSome_getElem?]
  rfl

/-- One event registers the name of the greeting that it admits. -/
theorem registered_step (stays : e ≠ .restart) {n : String} :
    n ∈ (r.step x env e).global.networkDigestRegistry ↔
      n ∈ r.global.networkDigestRegistry ∨
        n ∈ (admission x r e).toList.map (·.networkName) := by
  rw [registered_iff, registered_iff, directory_step,
    owned_step (directoryEvent_restart stays)]
  refine or_congr_right ?_
  simp only [List.mem_map, Option.mem_toList]
  constructor
  · rintro ⟨c, p, digest, seated, kept, hello, admitted⟩
    obtain ⟨req, found, named, -⟩ := hello_admission hello admitted
    exact ⟨req, found, named⟩
  · rintro ⟨req, found, rfl⟩
    obtain ⟨c, p, seated, kept, hello, admits⟩ := admission_hello env found
    exact ⟨c, p, _, seated, kept, hello, admits⟩

theorem registered_run {events : List (Env × RoomEvent)} (stays : ∀ e ∈ events, e.2 ≠ .restart)
    {n : String} : n ∈ (Relay.run x r events).global.networkDigestRegistry ↔
      n ∈ r.global.networkDigestRegistry ∨ n ∈ (admissions x r events).map (·.networkName) := by
  induction events generalizing r with
  | nil => simp [Relay.run, admissions, outputs]
  | cons e rest ih =>
    have later := @ih (Relay.onEvent x r e) fun e' listed => stays e' (by simp [listed])
    have here : n ∈ (Relay.onEvent x r e).global.networkDigestRegistry ↔ _ :=
      registered_step (stays e (by simp))
    simp only [Relay.run, run_cons, admissions, outputs, List.map_append, List.mem_append] at later ⊢
    rw [later, here, or_assoc]

theorem callAll_grows {k : GroupKey} (calls : List RouteCall) {st : RouteState}
    (known : k ∈ st.groups) : k ∈ (RouteState.callAll x st calls).groups := by
  induction calls generalizing st with
  | nil => exact known
  | cons c rest ih =>
    refine ih ?_
    rcases call_groups x st c with ⟨same, -⟩ | put
    · rwa [same]
    · rw [put, RouteState.put, Std.ExtTreeMap.mem_insert]
      exact Or.inr known

theorem routes_grow {k : GroupKey} (stays : e ≠ .restart)
    (known : k ∈ r.global.peerManager.routeState.groups) :
    k ∈ (r.step x env e).global.peerManager.routeState.groups := by
  obtain ⟨calls, mid, -, reached, ⟨builds, -, announced⟩, -⟩ := onEvent_phases x r (env, e)
  have awake : woken r e = r := by
    cases e with
    | restart => exact absurd rfl stays
    | _ => rfl
  have prepared : k ∈ (routes mid).groups := by
    rw [reached, awake]
    exact callAll_grows calls known
  have after : k ∈ (routes (Relay.onEvent x r (env, e))).groups := by
    rw [← announced]
    exact callAll_grows builds prepared
  exact after

theorem handleRpcReq_centers (a : Ambient) (ctx : WsPeerContext) (pm : PeerManager)
    {m : PeerCenterMap} (payload : Bytes) {k : GroupKey} (known : k ∈ m) :
    k ∈ (handleRpcReq x a ctx pm m payload).peerCenterMap := by
  unfold handleRpcReq
  split
  · exact known
  · unfold dispatchRpcReq
    simp only
    split
    · unfold handlePeerCenterRpc
      rw [Std.ExtTreeMap.mem_insert]
      exact Or.inr known
    · split
      · split
        · exact known
        · exact known
      · exact known

theorem dispatch_centers {k : GroupKey} (att : WsAttachment) (header : PacketHeader)
    (payload frame : Bytes) (known : k ∈ centers r) :
    k ∈ centers (r.dispatch x env w att header payload frame).2.2 := by
  unfold Relay.dispatch
  split
  · rwa [centers_onHandShake]
  · exact known
  · simp only [Relay.onRpcReq]
    split
    · rw [centers_runActions]
      exact handleRpcReq_centers _ _ _ payload known
    · rwa [centers_forward]
  · simp only [Relay.onRpcResp]
    split
    · exact known
    · rwa [centers_forward]
  · rwa [centers_forward]

theorem centers_grow {k : GroupKey} (stays : e ≠ .restart) (known : k ∈ centers r) :
    k ∈ centers (r.step x env e) := by
  have left (w : SocketId) : k ∈ centers (r.dropConnection x env w) := by
    rwa [centers_dropConnection]
  cases e with
  | accept => exact known
  | message w message =>
    simp only [Relay.step]
    split
    · cases message with
      | text body => exact known
      | binary bytes =>
        cases parsed : parseHeader bytes with
        | none =>
          simp only [Relay.websocketMessage, parsed]
          exact known
        | some header =>
          rw [websocketMessage_eq x env r w parsed, centers, writeBack_global]
          exact dispatch_centers _ header _ bytes known
    · exact known
  | close w =>
    simp only [Relay.step]
    split
    · exact left w
    · exact known
  | error w =>
    simp only [Relay.step]
    split
    · exact left w
    · exact known
  | alarm => exact (centers_alarm x env r).symm ▸ known
  | rehydrate => exact (centers_new env r).symm ▸ known
  | restart => exact absurd rfl stays

theorem routes_kept {events : List (Env × RoomEvent)} (stays : ∀ e ∈ events, e.2 ≠ .restart)
    {k : GroupKey} (known : k ∈ r.global.peerManager.routeState.groups) :
    k ∈ (Relay.run x r events).global.peerManager.routeState.groups :=
  invariant_run (fun s : Relay => k ∈ s.global.peerManager.routeState.groups)
    (fun _ _ stays known => routes_grow stays known) known (everyStep_of_forall stays)

theorem centers_kept {events : List (Env × RoomEvent)} (stays : ∀ e ∈ events, e.2 ≠ .restart)
    {k : GroupKey} (known : k ∈ centers r) : k ∈ centers (Relay.run x r events) :=
  invariant_run (fun s : Relay => k ∈ centers s)
    (fun _ _ stays known => centers_grow stays known) known (everyStep_of_forall stays)

/- Blank, or the group of a greeting that was admitted so far. -/
def Accounted (admitted : List HandshakeRequest) (k : GroupKey) : Prop :=
  k = "" ∨ k ∈ admitted.map groupOf

structure Accounts (admitted : List HandshakeRequest) (r : Relay) : Prop where
  seats : Introduced blank groupKeyOf (fun _ _ n digest => ∃ req ∈ admitted,
    req.networkName = n ∧ hexText req.networkSecretDigest = digest) (directory r)
  groups : ∀ k, Held r.global k → Accounted admitted k

theorem Accounted.mono {admitted more : List HandshakeRequest} {k : GroupKey}
    (known : Accounted admitted k) : Accounted (admitted ++ more) k := by
  refine known.imp_right ?_
  intro listed
  rw [List.map_append]
  exact List.mem_append_left _ listed

theorem Accounts.attached {admitted : List HandshakeRequest} (accounts : Accounts admitted r)
    {att : WsAttachment} (attached : r.room.attachment w = some att) :
    Accounted admitted att.groupKey := by
  have taken : (directory r).seat w = some (seatOf att) := by simp [directory, attached]
  rcases accounts.seats w (seatOf att) taken with
    ⟨-, group⟩ | ⟨digest, ⟨req, listed, named, same⟩, group⟩
  · exact Or.inl group
  · have own : att.groupKey = groupOf req := by
      rw [groupOf, named, same]
      exact group
    exact Or.inr (own ▸ List.mem_map_of_mem listed)

theorem Accounts.socket {admitted : List HandshakeRequest} (accounts : Accounts admitted r)
    {s : Socket} {att : WsAttachment} (inside : s ∈ r.room.sockets)
    (carries : s.attachment = some att) : Accounted admitted att.groupKey :=
  accounts.attached ((attachment_of_mem inside).trans carries)

theorem Accounts.current {admitted : List HandshakeRequest} (accounts : Accounts admitted r) :
    Accounted admitted (r.currentAttachment env w).groupKey := by
  unfold Relay.currentAttachment
  cases attached : r.room.attachment w with
  | none => exact Or.inl rfl
  | some att =>
    have own : Accounted admitted att.groupKey := accounts.attached attached
    exact own

theorem outcome_admitted {header : PacketHeader} {payload : Bytes} {outcome : HandshakeOutcome}
    (kind : header.packetTypeEnum = .handShake)
    (answered : (handleHandshake x payload r.global.networkDigestRegistry).1 = some outcome) :
    ∃ req, greeted x header payload = some req ∧ Admits r req ∧
      outcome.groupKey = groupOf req := by
  cases greets : greeted x header payload with
  | none =>
    simp only [greeted, kind, ↓reduceIte] at greets
    unfold handleHandshake at answered
    cases decoded : x.decodeHandshakeRequest payload with
    | none => simp [decoded] at answered
    | some req =>
      have wrong : req.magic ≠ magic := by simpa [decoded, Option.filter] using greets
      simp [decoded, wrong] at answered
  | some req =>
    by_cases admitted : Admits r req
    · obtain ⟨registry, whole, -⟩ := handleHandshake_admitted greets admitted
      rw [whole] at answered
      obtain rfl := Option.some.inj answered
      exact ⟨req, rfl, admitted, rfl⟩
    · rw [handleHandshake_refused greets admitted] at answered
      cases answered

/-- The groups that an event uses are those of its sockets and that of its admission. -/
theorem keys_accounted {admitted : List HandshakeRequest} (accounts : Accounts admitted r)
    {k : GroupKey} (used : .group k ∈ Relay.keys x env r e) :
    Accounted (admitted ++ (admission x r e).toList) k := by
  have leaving {w : SocketId} (left : .group k ∈ leavingKeys r.room w) : Accounted admitted k := by
    unfold leavingKeys at left
    split at left
    · cases left
    · rename_i att attached
      split at left
      · cases left
      · obtain rfl := SharedKey.group.inj (List.mem_singleton.mp left)
        exact accounts.attached attached
  have seated (sits : .group k ∈ (seatedGroups r.room).map SharedKey.group) :
      Accounted admitted k := by
    obtain ⟨key, listed, same⟩ := List.mem_map.mp sits
    obtain rfl := SharedKey.group.inj same
    obtain ⟨s, inside, named⟩ := List.mem_filterMap.mp listed
    obtain ⟨att, taken, rfl⟩ := Option.map_eq_some_iff.mp named
    exact accounts.socket inside (Option.filter_eq_some_iff.mp taken).1
  cases e with
  | accept => cases used
  | message w message =>
    cases message with
    | text body => cases used
    | binary bytes =>
      by_cases isOpen : r.room.isOpen w = true
      · simp only [Relay.keys, isOpen, ↓reduceIte] at used
        cases parsed : parseHeader bytes with
        | none => simp [parsed] at used
        | some header =>
          simp only [parsed] at used
          have requested (listed : .group k ∈ requestKeys x (r.currentAttachment env w) header
              (bytes.drop headerSize)) : Accounted admitted k := by
            unfold requestKeys at listed
            split at listed
            · obtain rfl := SharedKey.group.inj (List.mem_singleton.mp listed)
              exact accounts.current
            · cases listed
          unfold messageKeys at used
          split at used
          · rename_i kind
            unfold handshakeKeys at used
            split at used
            · cases used
            · rcases List.mem_cons.mp used with name | group
              · cases name
              · split at group
                · rename_i outcome answered
                  split at group
                  · obtain rfl := SharedKey.group.inj (List.mem_singleton.mp group)
                    obtain ⟨req, greets, admits, own⟩ := outcome_admitted kind answered
                    rw [admission_message isOpen parsed greets admits, own]
                    exact Or.inr (by simp)
                  · cases group
                · cases group
          · exact (requested used).mono
          · exact (requested used).mono
          · cases used
      · simp [Relay.keys, isOpen] at used
  | close w =>
    simp only [Relay.keys] at used
    split at used
    · exact (leaving used).mono
    · cases used
  | error w =>
    simp only [Relay.keys] at used
    split at used
    · exact (leaving used).mono
    · cases used
  | alarm =>
    obtain ⟨key, listed, same⟩ := List.mem_map.mp used
    obtain rfl := SharedKey.group.inj same
    obtain ⟨s, inside, att, carries, -, -, rfl, -⟩ := mem_scannedGroups.mp listed
    exact (accounts.socket inside carries).mono
  | rehydrate => exact (seated used).mono
  | restart => exact (seated used).mono

theorem held_step {k : GroupKey} (held : Held (r.step x env e).global k) :
    Held r.global k ∨ .group k ∈ Relay.keys x env r e := by
  by_cases used : .group k ∈ Relay.keys x env r e
  · exact Or.inr used
  have unwritten : .group k ∉ written x env r e :=
    fun listed => used (List.mem_of_mem_filter listed)
  left
  unfold Held at held ⊢
  simp only [Std.ExtTreeMap.mem_iff_isSome_getElem?] at held ⊢
  by_cases fresh : e = .restart
  · subst fresh
    have agrees := restart_agreeOff x env r
    have routes := agrees.manager.agree k unwritten
    have maps := agrees.centers.agree k unwritten
    rw [routes, maps] at held
    simp [GlobalStateInner.fresh, PeerManager.new, RouteState.new] at held
  · have agrees := step_agreeOff x env r fresh
    have routes := agrees.manager.agree k unwritten
    have maps := agrees.centers.agree k unwritten
    rwa [routes, maps] at held

theorem accounts_step {admitted : List HandshakeRequest} (accounts : Accounts admitted r) :
    Accounts (admitted ++ (admission x r e).toList) (r.step x env e) where
  seats := by
    rw [directory_step]
    have known : Introduced blank groupKeyOf (fun _ _ n digest =>
        ∃ req ∈ admitted ++ (admission x r e).toList,
          req.networkName = n ∧ hexText req.networkSecretDigest = digest) (directory r) := by
      intro c s seated
      refine (accounts.seats c s seated).imp_right ?_
      rintro ⟨digest, ⟨req, listed, named⟩, group⟩
      exact ⟨digest, ⟨req, List.mem_append_left _ listed, named⟩, group⟩
    refine introduced_step known (fun c s accepted => accepts_blank accepted) ?_
    intro c p n digest kept hello admits
    obtain ⟨req, admitted', named, same⟩ := hello_admission hello admits
    exact ⟨req, by simp [admitted'], named, same⟩
  groups k held := by
    rcases held_step held with before | used
    · exact (accounts.groups k before).mono
    · exact keys_accounted accounts used

theorem accounts_run (x : Externals) (events : List (Env × RoomEvent)) :
    Accounts (admissions x Relay.initial events) (Relay.run x Relay.initial events) := by
  have start : Accounts [] Relay.initial := by
    constructor
    · intro c s seated
      simp [directory, Relay.initial, RelayRoom.empty, RelayRoom.attachment] at seated
    · intro k held
      simp [Held, Relay.initial, GlobalStateInner.fresh, PeerManager.new, RouteState.new] at held
  exact history_invariant Accounts (fun _ _ _ accounts => accounts_step accounts) start events

def admittedSeat (x : Externals) (env : Env) (r : Relay) (w : SocketId) (req : HandshakeRequest) :
    WsAttachment :=
  attachOutcome (r.currentAttachment env w)
    (handshakeOutcome x req (hexText req.networkSecretDigest))

theorem admission_stored {req : HandshakeRequest} (admitted : admission x r e = some req)
    (recorded : ∀ w message, e = .message w message →
      env.attachOk (admittedSeat x env r w req) = true) :
    groupOf req ∈ (r.step x env e).global.peerManager.routeState.groups := by
  obtain ⟨w, bytes, header, rfl, isOpen, parsed, greets, admits⟩ := admission_some admitted
  have written := recorded w (.binary bytes) rfl
  rw [admittedSeat] at written
  obtain ⟨kept, hello⟩ : ∃ kept, directoryEvent x env r (.message w (.binary bytes)) =
      .hello w req.myPeerId req.networkName (hexText req.networkSecretDigest) true kept := by
    refine ⟨env.attachOk (r.currentAttachment env w), ?_⟩
    simp only [directoryEvent, isOpen, ↓reduceIte, parsed, messageEvent, greets, written]
  have joined : req.myPeerId ∈
      (directory (r.step x env (.message w (.binary bytes)))).members (groupOf req) := by
    have welcome : (directory r).admits req.networkName (hexText req.networkSecretDigest) := admits
    rw [directory_step, hello, Directory.step, Directory.hello, if_pos welcome, if_pos rfl]
    simp [Directory.enroll, groupOf]
  by_contra absent
  have empty : (routes (r.step x env (.message w (.binary bytes)))).groups[groupOf req]? = none :=
    Std.ExtTreeMap.getElem?_eq_none absent
  simp [directory, RouteState.members, empty] at joined

theorem size_le {Value : Type} (m : Std.ExtTreeMap String Value) {keys : List String}
    (listed : ∀ k ∈ m, k ∈ keys) : m.size ≤ keys.length := by
  have inside : m.keys ⊆ keys := fun k known => listed k (Std.ExtTreeMap.mem_keys.mp known)
  have fewer := (Std.ExtTreeMap.nodup_keys.subperm inside).length_le
  rwa [Std.ExtTreeMap.length_keys] at fewer

theorem registered_admitted (x : Externals) (events : List (Env × RoomEvent)) {n : String}
    (known : n ∈ (Relay.run x Relay.initial events).global.networkDigestRegistry) :
    n ∈ (admissions x Relay.initial events).map (·.networkName) := by
  have keeps (history : List HandshakeRequest) (r : Relay) (e : Env × RoomEvent)
      (before : ∀ n ∈ r.global.networkDigestRegistry, n ∈ history.map (·.networkName)) :
      ∀ n ∈ (Relay.onEvent x r e).global.networkDigestRegistry,
        n ∈ (history ++ (admission x r e.2).toList).map (·.networkName) := by
    intro n known
    rw [List.map_append, List.mem_append]
    by_cases fresh : e.2 = .restart
    · rw [registered_iff, Relay.onEvent, directory_step, fresh] at known
      simp [directoryEvent, Directory.step] at known
    · exact ((registered_step fresh).mp known).imp_left (before n)
  have start : ∀ n ∈ Relay.initial.global.networkDigestRegistry,
      n ∈ ([] : List HandshakeRequest).map (·.networkName) := by
    intro n known
    simp [Relay.initial, GlobalStateInner.fresh] at known
  exact history_invariant (fun (history : List HandshakeRequest) (r : Relay) =>
    ∀ n ∈ r.global.networkDigestRegistry, n ∈ history.map (·.networkName)) keeps start events n
      known

/-- In every run the shared state has records for the blank group and the groups of admitted
    greetings only, so there are no more networks in it than greetings were admitted. A greeting
    that is admitted and recorded leaves routes of its group. Each of the three maps keeps all of
    its entries until the isolate restarts, and until then the names that are registered are those
    registered before and those admitted. -/
theorem memory_is_accounted_for (x : Externals) (events : List (Env × RoomEvent)) :
    let r := Relay.run x Relay.initial events
    let admitted := admissions x Relay.initial events
    (∀ k, Held r.global k → Accounted admitted k) ∧
    r.global.peerManager.routeState.groups.size ≤ admitted.length + 1 ∧
    r.global.peerCenterMap.size ≤ admitted.length + 1 ∧
    r.global.networkDigestRegistry.size ≤ admitted.length ∧
    (∀ (e : Env × RoomEvent) req, admission x r e.2 = some req →
      (∀ w message, e.2 = .message w message →
        e.1.attachOk (admittedSeat x e.1 r w req) = true) →
      groupOf req ∈ (Relay.onEvent x r e).global.peerManager.routeState.groups) ∧
    ∀ more, (∀ e ∈ more, restarts e.2 = false) →
      let later := Relay.run x r more
      (∀ k ∈ r.global.peerManager.routeState.groups,
        k ∈ later.global.peerManager.routeState.groups) ∧
      (∀ k ∈ r.global.peerCenterMap, k ∈ later.global.peerCenterMap) ∧
      ∀ n, n ∈ later.global.networkDigestRegistry ↔
        n ∈ r.global.networkDigestRegistry ∨ n ∈ (admissions x r more).map (·.networkName) := by
  intro r admitted
  have accounts : Accounts admitted r := accounts_run x events
  have listed (k : GroupKey) (held : Held r.global k) :
      k ∈ "" :: admitted.map groupOf := List.mem_cons.mpr (accounts.groups k held)
  have count : ("" :: admitted.map groupOf).length = admitted.length + 1 := by simp
  refine ⟨accounts.groups, ?_, ?_, ?_, fun e req found recorded => admission_stored found recorded,
    fun more ongoing => ?_⟩
  · rw [← count]
    exact size_le _ fun k known => listed k (Or.inl known)
  · rw [← count]
    exact size_le _ fun k known => listed k (Or.inr known)
  · have names : (admitted.map HandshakeRequest.networkName).length = admitted.length := by simp
    rw [← names]
    exact size_le _ fun n known => registered_admitted x events known
  · have stays (e : Env × RoomEvent) (inside : e ∈ more) : e.2 ≠ .restart := by
      intro fresh
      have flagged := restarts_iff.mpr fresh
      rw [ongoing e inside] at flagged
      cases flagged
    exact ⟨fun k known => routes_kept stays known, fun k known => centers_kept stays known,
      fun n => registered_run stays⟩

/- Two networks are admitted; what they left stays when the sockets have closed. -/
def visits : List (Env × RoomEvent) :=
  quietly [.accept, .message 0 (greeting 5 "net" [0xaa]), .accept,
    .message 1 (greeting 6 "other" [0xbb])]

def departures : List (Env × RoomEvent) := quietly [.close 0, .close 1, .alarm]

set_option maxRecDepth 8000 in
theorem departed_networks_are_kept :
    groupKeyOf "net" (hexText [0xaa]) ∈ (Relay.run wire (Relay.run wire Relay.initial visits)
        departures).global.peerManager.routeState.groups ∧
      (Relay.run wire (Relay.run wire Relay.initial visits) departures).room.sockets = [] := by
  have stored : groupKeyOf "net" (hexText [0xaa]) ∈
      (Relay.run wire Relay.initial visits).global.peerManager.routeState.groups := by decide
  exact ⟨((memory_is_accounted_for wire visits).2.2.2.2.2 departures (by decide)).1 _ stored,
    by decide⟩

end RelayFootprint
