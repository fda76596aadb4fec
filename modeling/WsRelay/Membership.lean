import WsRelay.RoomSteps
import WsRelay.Library.Directory

/- The room as a directory: every event of the room is one event of the directory of seats,
   members and digest owners. What holds of directories over runs holds of the room. -/
namespace RelayMembership
open RelayProtocol RelayRouteState RelayPeerManager RelayRpcHandler RelayRoomModel RelayRouteOps
open RelayRoomSteps ConnectionDirectory TransitionRuns PlainText

abbrev RoomSeat := Seat PeerId GroupKey String String
abbrev RoomDirectory := Directory SocketId PeerId GroupKey String String String
abbrev RoomDirectoryEvent := Event SocketId PeerId GroupKey String String String

def seatOf (att : WsAttachment) : RoomSeat :=
  ⟨att.peerId, att.groupKey, att.domainName, att.serverSessionId⟩

def blank : RoomSeat := seatOf {}

def directory (r : Relay) : RoomDirectory where
  seat w := (r.room.attachment w).map seatOf
  members groupKey := {p | p ∈ RouteState.members (routes r) groupKey}
  owner networkName := r.global.networkDigestRegistry[networkName]?

/- A handshake that decodes and carries the magic number. -/
def greeted (x : Externals) (header : PacketHeader) (payload : Bytes) : Option HandshakeRequest :=
  if header.packetTypeEnum = .handShake then
    (x.decodeHandshakeRequest payload).filter (·.magic = magic)
  else none

def messageEvent (x : Externals) (env : Env) (r : Relay) (w : SocketId) (bytes : Bytes)
    (header : PacketHeader) : RoomDirectoryEvent :=
  let att := r.currentAttachment env w
  let payload := bytes.drop headerSize
  match greeted x header payload with
  | some req =>
    let digest := hexText req.networkSecretDigest
    .hello w req.myPeerId req.networkName digest
      (env.attachOk (attachOutcome att (handshakeOutcome x req digest))) (env.attachOk att)
  | none => .touch w ((r.dispatch x env w att header payload bytes).1 && env.attachOk att)

def directoryEvent (x : Externals) (env : Env) (r : Relay) : RoomEvent → RoomDirectoryEvent
  | .accept =>
    .accept r.room.nextSocket
      (((r.fetch env).room.attachment r.room.nextSocket).map seatOf)
  | .message w (.binary bytes) =>
    if r.room.isOpen w then
      match parseHeader bytes with
      | some header => messageEvent x env r w bytes header
      | none => .idle
    else .idle
  | .message _ (.text _) => .idle
  | .close w => if r.room.isOpen w then .leave w else .idle
  | .error w => if r.room.isOpen w then .leave w else .idle
  | .alarm => .idle
  | .rehydrate => .rehydrate
  | .restart => .restart

theorem directory_quiet {x : Externals} {r r' : Relay} (quiet : Quiet x KeepsMembers r r') :
    directory r' = directory r := by
  have members := members_reaches quiet.reached
  simp only [directory, RelayRoom.attachment, quiet.sockets, quiet.registry, members]

theorem directory_attach {r : Relay} {w : SocketId} (isOpen : r.room.isOpen w = true)
    (att : WsAttachment) :
    directory { r with room := r.room.attach w att } = (directory r).take w (seatOf att) := by
  apply Directory.ext
  · funext w'
    simp only [directory, Directory.take, attachment_attach isOpen]
    by_cases same : w' = w
    · subst same
      simp
    · simp [same]
  · rfl
  · rfl

theorem seatOf_current (env : Env) (r : Relay) (w : SocketId) :
    seatOf (r.currentAttachment env w) = ((directory r).seat w).getD blank := by
  unfold Relay.currentAttachment directory
  cases attached : r.room.attachment w with
  | none => simp [attached, blank, seatOf]
  | some att => simp [attached, seatOf]

theorem directory_serialize {env : Env} {r : Relay} {w : SocketId}
    (isOpen : r.room.isOpen w = true) (att : WsAttachment) :
    directory (r.serializeAttachment env w att).2 =
      if env.attachOk att then (directory r).take w (seatOf att) else directory r := by
  unfold Relay.serializeAttachment
  split
  · exact directory_attach isOpen att
  · rfl

theorem isOpen_quiet {x : Externals} {allowed : RouteCall → Prop} {r r' : Relay}
    (quiet : Quiet x allowed r r') (w : SocketId) : r'.room.isOpen w = r.room.isOpen w := by
  simp only [RelayRoom.isOpen, quiet.sockets]

theorem dispatch_quiet (x : Externals) (env : Env) (r : Relay) (w : SocketId) (att : WsAttachment)
    {header : PacketHeader} (payload frame : Bytes) (other : header.packetTypeEnum ≠ .handShake) :
    (r.dispatch x env w att header payload frame).2.1 = att ∧
      Quiet x KeepsMembers r (r.dispatch x env w att header payload frame).2.2 := by
  unfold Relay.dispatch
  cases kind : header.packetTypeEnum with
  | handShake => exact absurd kind other
  | ping => exact ⟨rfl, send_quiet x env r w _ _⟩
  | rpcReq => exact ⟨rfl, onRpcReq_quiet x env r w att header payload frame⟩
  | rpcResp =>
    exact ⟨rfl, (onRpcResp_quiet x env r w att header payload frame).mono Plain.keepsMembers⟩
  | _ => exact ⟨rfl, forward_quiet x env r w header frame⟩

theorem dispatch_ungreeted (x : Externals) (env : Env) (r : Relay) (w : SocketId)
    (att : WsAttachment) {header : PacketHeader} (payload frame : Bytes)
    (silent : greeted x header payload = none) :
    (r.dispatch x env w att header payload frame).2.1 = att ∧
      Quiet x KeepsMembers r (r.dispatch x env w att header payload frame).2.2 := by
  by_cases kind : header.packetTypeEnum = .handShake
  · have refused : handleHandshake x payload r.global.networkDigestRegistry =
        (none, r.global.networkDigestRegistry) := by
      simp only [greeted, kind, ↓reduceIte] at silent
      unfold handleHandshake
      cases decoded : x.decodeHandshakeRequest payload with
      | none => rfl
      | some req =>
        have wrong : req.magic ≠ magic := by simpa [decoded, Option.filter] using silent
        simp [wrong]
    simp only [Relay.dispatch, kind, Relay.onHandShake, refused]
    exact ⟨trivial, rfl, rfl, rfl, Reaches.refl _⟩
  · exact dispatch_quiet x env r w att payload frame kind

theorem websocketMessage_eq (x : Externals) (env : Env) (r : Relay) (w : SocketId) {bytes : Bytes}
    {header : PacketHeader} (parsed : parseHeader bytes = some header) :
    r.websocketMessage x env w (.binary bytes) =
      Relay.writeBack env w
        (r.dispatch x env w (r.currentAttachment env w) header (bytes.drop headerSize) bytes) := by
  simp only [Relay.websocketMessage, parsed]

theorem directory_writeBack {env : Env} {w : SocketId} {outcome : Bool × WsAttachment × Relay}
    (isOpen : outcome.2.2.room.isOpen w = true) :
    directory (Relay.writeBack env w outcome) =
      if outcome.1 && env.attachOk outcome.2.1 then
        (directory outcome.2.2).take w (seatOf outcome.2.1)
      else directory outcome.2.2 := by
  obtain ⟨ok, att, after⟩ := outcome
  cases ok with
  | true => simpa [Relay.writeBack] using directory_serialize isOpen att
  | false => rfl

/-- A message without a greeting at most seats its connection. -/
theorem directory_ungreeted (x : Externals) (env : Env) (r : Relay) {w : SocketId}
    (isOpen : r.room.isOpen w = true) {bytes : Bytes} {header : PacketHeader}
    (parsed : parseHeader bytes = some header)
    (silent : greeted x header (bytes.drop headerSize) = none) :
    directory (r.websocketMessage x env w (.binary bytes)) =
      (directory r).step blank groupKeyOf (messageEvent x env r w bytes header) := by
  obtain ⟨sameAtt, quiet⟩ := dispatch_ungreeted x env r w (r.currentAttachment env w)
    (bytes.drop headerSize) bytes silent
  rw [websocketMessage_eq x env r w parsed,
    directory_writeBack (by rw [isOpen_quiet quiet]; exact isOpen), sameAtt, directory_quiet quiet,
    seatOf_current]
  simp only [messageEvent, silent]
  rfl

def Admits (r : Relay) (req : HandshakeRequest) : Prop :=
  (directory r).admits req.networkName (hexText req.networkSecretDigest)

theorem handleHandshake_admitted {x : Externals} {r : Relay} {header : PacketHeader}
    {payload : Bytes} {req : HandshakeRequest} (greets : greeted x header payload = some req)
    (admitted : Admits r req) :
    ∃ registry, handleHandshake x payload r.global.networkDigestRegistry =
        (some (handshakeOutcome x req (hexText req.networkSecretDigest)), registry) ∧
      ∀ n, registry[n]? = if n = req.networkName then some (hexText req.networkSecretDigest)
        else r.global.networkDigestRegistry[n]? := by
  obtain ⟨-, passed⟩ := (Option.ite_none_right_eq_some ..).mp greets
  obtain ⟨decoded, genuine⟩ := Option.filter_eq_some_iff.mp passed
  have magical : req.magic = magic := by simpa using genuine
  unfold handleHandshake
  simp only [decoded, magical, ne_eq, not_true_eq_false, ↓reduceIte]
  cases owned : r.global.networkDigestRegistry[req.networkName]? with
  | none =>
    refine ⟨_, rfl, ?_⟩
    intro n
    rw [Std.ExtTreeMap.getElem?_insert]
    by_cases same : n = req.networkName
    · simp [same]
    · simp [same, Ne.symm same]
  | some existing =>
    have agrees : existing = hexText req.networkSecretDigest := admitted existing owned
    subst agrees
    refine ⟨r.global.networkDigestRegistry, by simp, ?_⟩
    intro n
    by_cases same : n = req.networkName
    · subst same
      simp [owned]
    · simp [same]

theorem handleHandshake_refused {x : Externals} {r : Relay} {header : PacketHeader}
    {payload : Bytes} {req : HandshakeRequest} (greets : greeted x header payload = some req)
    (refused : ¬ Admits r req) :
    handleHandshake x payload r.global.networkDigestRegistry =
      (none, r.global.networkDigestRegistry) := by
  obtain ⟨-, passed⟩ := (Option.ite_none_right_eq_some ..).mp greets
  obtain ⟨decoded, genuine⟩ := Option.filter_eq_some_iff.mp passed
  have magical : req.magic = magic := by simpa using genuine
  have mismatch : ∃ existing, r.global.networkDigestRegistry[req.networkName]? = some existing ∧
      existing ≠ hexText req.networkSecretDigest := by
    simpa [Admits, Directory.admits, directory] using refused
  obtain ⟨existing, owned, different⟩ := mismatch
  simp [handleHandshake, decoded, magical, owned, different]

theorem routes_registerPeer (x : Externals) (env : Env) (r : Relay) (groupKey : GroupKey)
    (p : PeerId) :
    let call := fun st op => RouteState.call x st ⟨groupKey, env.seed groupKey, op⟩
    let stub := x.encodeRoutePeerInfo (handshakeInfo env.nowMs p)
    routes (r.registerPeer x env groupKey p) =
      call (call (call (call (routes r) (.addPeer p)) .bumpMyInfoVersion)
        (.updatePeerInfo p stub)) .bumpMyInfoVersion := by
  simp only [Relay.registerPeer, PeerManager.updatePeerInfo, PeerManager.addPeer,
    PeerManager.bumpMyInfoVersion, routes, Relay.withManager, RouteState.call]

theorem registerPeer_room (x : Externals) (env : Env) (r : Relay) (groupKey : GroupKey)
    (p : PeerId) : (r.registerPeer x env groupKey p).room = r.room := rfl

theorem registerPeer_registry (x : Externals) (env : Env) (r : Relay) (groupKey : GroupKey)
    (p : PeerId) : (r.registerPeer x env groupKey p).global.networkDigestRegistry =
      r.global.networkDigestRegistry := rfl

theorem registerPeer_quiet (x : Externals) (env : Env) (r : Relay) (groupKey : GroupKey)
    (p : PeerId) :
    Quiet x Plain
      (r.withManager ⟨RouteState.call x (routes r) ⟨groupKey, env.seed groupKey, .addPeer p⟩⟩)
      (r.registerPeer x env groupKey p) := by
  refine ⟨by rw [registerPeer_room, room_withManager], by rw [registerPeer_room, room_withManager],
    by rw [registerPeer_registry, registry_withManager], ?_⟩
  rw [routes_registerPeer, routes_withManager]
  have ordinary (op : RouteOp) (passes : op.plain = true) (st : RouteState) :
      Reaches x Plain st (RouteState.call x st ⟨groupKey, env.seed groupKey, op⟩) :=
    Reaches.call passes
  exact ((ordinary .bumpMyInfoVersion rfl _).trans (ordinary (.updatePeerInfo p _) rfl _)).trans
    (ordinary .bumpMyInfoVersion rfl _)

theorem directory_registerPeer (x : Externals) (env : Env) (r : Relay) (groupKey : GroupKey)
    (p : PeerId) :
    directory (r.registerPeer x env groupKey p) = (directory r).enroll p groupKey := by
  rw [directory_quiet ((registerPeer_quiet x env r groupKey p).mono Plain.keepsMembers)]
  apply Directory.ext
  · rfl
  · funext key
    ext q
    simp only [directory, routes, Relay.withManager, members_call, RouteOp.peersAfter,
      Directory.enroll]
    by_cases same : groupKey = key
    · subst same
      simp [@eq_comm _ q p]
    · simp [same, Ne.symm same]
  · rfl

theorem welcome_quiet (x : Externals) (env : Env) (r : Relay) (w : SocketId) (att : WsAttachment)
    (outcome : HandshakeOutcome) (written : env.attachOk att = true) :
    Quiet x Routine
      (Relay.registerPeer x env { r with room := r.room.attach w att } outcome.groupKey
        outcome.peerId)
      (r.welcome x env w att outcome).2 := by
  unfold Relay.welcome Relay.serializeAttachment
  simp only [written, ↓reduceIte]
  set registered := Relay.registerPeer x env { r with room := r.room.attach w att }
    outcome.groupKey outcome.peerId
  have answered : Quiet x Routine registered
      (registered.send env w outcome.responseBytes .handshakeResponse).2 := send_quiet x env _ w _ _
  split
  · rename_i state sent
    rw [sent] at answered
    exact answered
  · rename_i state sent
    rw [sent] at answered
    have built := (buildFor_quiet x env state att att.peerId).trans
      (broadcast_quiet x env _ outcome.groupKey 0)
    exact answered.trans (built.mono IsBuild.routine)

theorem isOpen_attach (room : RelayRoom) (w w' : SocketId) (att : WsAttachment) :
    (room.attach w att).isOpen w' = room.isOpen w' := by
  simp [RelayRoom.isOpen, RelayRoom.attach, List.any_map, Function.comp_def]

theorem isOpen_welcome {x : Externals} {env : Env} {r : Relay} {w : SocketId}
    (isOpen : r.room.isOpen w = true) (att : WsAttachment) (outcome : HandshakeOutcome) :
    (r.welcome x env w att outcome).2.room.isOpen w = true := by
  cases written : env.attachOk att with
  | false => simpa [Relay.welcome, Relay.serializeAttachment, written] using isOpen
  | true =>
    rw [isOpen_quiet (welcome_quiet x env r w att outcome written),
      isOpen_quiet (registerPeer_quiet x env _ outcome.groupKey outcome.peerId)]
    exact (isOpen_attach r.room w w att).trans isOpen

/-- The handshake branch, seen as the directory: seat and member, or nothing. -/
theorem directory_welcome {x : Externals} {env : Env} {r : Relay} {w : SocketId}
    (isOpen : r.room.isOpen w = true) (att : WsAttachment) (outcome : HandshakeOutcome) :
    directory (r.welcome x env w att outcome).2 =
      if env.attachOk att then
        ((directory r).take w (seatOf att)).enroll outcome.peerId outcome.groupKey
      else directory r := by
  cases written : env.attachOk att with
  | false => simp [Relay.welcome, Relay.serializeAttachment, written]
  | true =>
    rw [directory_quiet ((welcome_quiet x env r w att outcome written).mono Routine.keepsMembers),
      directory_registerPeer, directory_attach isOpen]
    simp

theorem directory_own {r : Relay} {registry : DigestRegistry} {n digest : String}
    (owners : ∀ m, registry[m]? =
      if m = n then some digest else r.global.networkDigestRegistry[m]?) :
    directory { r with global := { r.global with networkDigestRegistry := registry } } =
      (directory r).own n digest := by
  apply Directory.ext
  · rfl
  · rfl
  · funext m
    by_cases same : m = n
    · subst same
      simpa [directory, Directory.own] using owners m
    · simpa [directory, Directory.own, same] using owners m

theorem take_again (d : RoomDirectory) (w : SocketId) (s : RoomSeat) (p : PeerId) (g : GroupKey) :
    ((d.take w s).enroll p g).take w s = (d.take w s).enroll p g := by
  simp [Directory.take, Directory.enroll]

theorem directory_greeted {x : Externals} {env : Env} {r : Relay} {w : SocketId}
    (isOpen : r.room.isOpen w = true) {bytes : Bytes} {header : PacketHeader}
    {req : HandshakeRequest} (parsed : parseHeader bytes = some header)
    (greets : greeted x header (bytes.drop headerSize) = some req) :
    directory (r.websocketMessage x env w (.binary bytes)) =
      (directory r).step blank groupKeyOf (messageEvent x env r w bytes header) := by
  have kind : header.packetTypeEnum = .handShake :=
    ((Option.ite_none_right_eq_some ..).mp greets).1
  rw [websocketMessage_eq x env r w parsed]
  simp only [messageEvent, greets, Relay.dispatch, kind, Relay.onHandShake, Directory.step,
    Directory.hello]
  by_cases admitted : Admits r req
  · obtain ⟨registry, handled, owners⟩ := handleHandshake_admitted greets admitted
    have admits : (directory r).admits req.networkName (hexText req.networkSecretDigest) := admitted
    have seat : seatOf (attachOutcome (r.currentAttachment env w)
        (handshakeOutcome x req (hexText req.networkSecretDigest))) =
          ⟨req.myPeerId, groupKeyOf req.networkName (hexText req.networkSecretDigest),
            req.networkName, (((directory r).seat w).getD blank).session⟩ := by
      rw [← seatOf_current env r w]
      rfl
    rw [handled]
    simp only [admits, ↓reduceIte]
    rw [directory_writeBack (isOpen_welcome (by exact isOpen) _ _),
      directory_welcome (by exact isOpen), directory_own owners, seat]
    cases written : env.attachOk (attachOutcome (r.currentAttachment env w)
        (handshakeOutcome x req (hexText req.networkSecretDigest))) with
    | true =>
      simp only [↓reduceIte, Bool.and_true, take_again, ite_self]
      rfl
    | false => simp
  · have refused : ¬ (directory r).admits req.networkName (hexText req.networkSecretDigest) :=
      admitted
    rw [handleHandshake_refused greets admitted]
    simp only [refused, ↓reduceIte]
    rw [directory_writeBack (by exact isOpen), seatOf_current]
    simp only [Bool.true_and]
    rfl

theorem seat_some {r : Relay} {w : SocketId} {s : RoomSeat} :
    (directory r).seat w = some s ↔ ∃ att, r.room.attachment w = some att ∧ seatOf att = s := by
  simp [directory]

theorem hasOtherConnection_iff (r : Relay) (att : WsAttachment) :
    r.room.hasOtherConnection att = true ↔ (directory r).hasNamesake (seatOf att) := by
  unfold RelayRoom.hasOtherConnection Directory.hasNamesake
  rw [List.any_eq_true]
  constructor
  · rintro ⟨s, listed, passed⟩
    obtain ⟨other, attached, same⟩ := (Option.any_eq_true _ _).mp passed
    refine ⟨s.id, seatOf other, seat_some.mpr ⟨other, ?_, rfl⟩, ?_⟩
    · rw [attachment_of_mem listed, attached]
    · simpa [seatOf] using same
  · rintro ⟨w, seat, seated, samePeer, otherSession⟩
    obtain ⟨other, attached, rfl⟩ := seat_some.mp seated
    obtain ⟨s, listed, -, carries⟩ := mem_of_attachment attached
    refine ⟨s, listed, ?_⟩
    simpa [carries, seatOf] using And.intro samePeer otherSession

theorem directory_removePeer (x : Externals) (r : Relay) (seed : GroupSeed) (nowMs : Millis)
    (p : PeerId) (groupKey : GroupKey) :
    directory (r.withManager ⟨RouteState.call x (routes r) ⟨groupKey, seed, .removePeer p nowMs⟩⟩) =
      (directory r).dismiss p groupKey := by
  apply Directory.ext
  · rfl
  · funext key
    ext q
    rw [mem_dismiss]
    simp only [directory, routes_withManager, members_call, RouteOp.peersAfter]
    by_cases same : groupKey = key
    · subst same
      simp [and_comm, @eq_comm _ q p]
    · simp [same, Ne.symm same]
  · rfl

theorem directory_forget (r : Relay) (w : SocketId) :
    directory { r with room := r.room.forget w } = (directory r).vacate w := by
  apply Directory.ext
  · funext w'
    simp only [directory, Directory.vacate, attachment_forget]
    by_cases same : w' = w
    · subst same
      simp
    · simp [same]
  · rfl
  · rfl

theorem directory_drop (x : Externals) (env : Env) (r : Relay) (w : SocketId) :
    directory (r.dropConnection x env w) = (directory r).drop blank w := by
  by_cases leaves : ∃ att, LastConnection r w att
  · obtain ⟨att, last⟩ := leaves
    obtain ⟨attached, known, alone⟩ := last
    have seated : (directory r).seat w = some (seatOf att) := seat_some.mpr ⟨att, attached, rfl⟩
    have peer : (seatOf att).peer ≠ blank.peer := known
    have unique : ¬ (directory r).hasNamesake (seatOf att) := by
      rw [← hasOtherConnection_iff, alone]
      exact Bool.false_ne_true
    rw [dropConnection_last x env ⟨attached, known, alone⟩,
      directory_quiet ((broadcast_quiet x env _ _ _).mono IsBuild.keepsMembers)]
    simp only [Directory.drop, seated, peer, unique, or_self, ↓reduceIte]
    exact directory_removePeer x r _ _ _ _
  · have stays : ∀ att, ¬ LastConnection r w att := fun att last => leaves ⟨att, last⟩
    rw [dropConnection_idle x env stays]
    unfold Directory.drop
    split
    · rfl
    · rename_i seat seated
      obtain ⟨att, attached, rfl⟩ := seat_some.mp seated
      by_cases known : att.peerId = 0
      · have anonymous : (seatOf att).peer = blank.peer := known
        simp only [anonymous, true_or, ↓reduceIte]
      · have namesake : (directory r).hasNamesake (seatOf att) := by
          rw [← hasOtherConnection_iff]
          by_contra alone
          exact stays att ⟨attached, known, by simpa using alone⟩
        simp only [namesake, or_true, ↓reduceIte]

theorem directory_close (x : Externals) (env : Env) (r : Relay) (w : SocketId) :
    let closed := r.dropConnection x env w
    directory { closed with room := closed.room.forget w } = (directory r).leave blank w := by
  simp only [directory_forget, directory_drop, Directory.leave]

theorem members_addPeer (x : Externals) (pm : PeerManager) (seed : GroupSeed) (p : PeerId)
    (groupKey key : GroupKey) :
    RouteState.members (pm.addPeer seed groupKey p).routeState key =
      if groupKey = key then (RouteState.members pm.routeState key).insert p
      else RouteState.members pm.routeState key := by
  have calls : (pm.addPeer seed groupKey p).routeState = RouteState.call x
      (RouteState.call x pm.routeState ⟨groupKey, seed, .addPeer p⟩)
      ⟨groupKey, seed, .bumpMyInfoVersion⟩ := rfl
  rw [calls, members_call, members_call]
  by_cases same : groupKey = key <;> simp [same, RouteOp.peersAfter]

theorem rehydratePeer_members (x : Externals) (env : Env) (gs : GlobalStateInner) (s : Socket)
    (groupKey : GroupKey) (p : PeerId) :
    p ∈ RouteState.members (rehydratePeer env gs s).peerManager.routeState groupKey ↔
      p ∈ RouteState.members gs.peerManager.routeState groupKey ∨
        (p ≠ 0 ∧ Carries s p groupKey) := by
  unfold rehydratePeer
  cases attached : s.attachment with
  | none => simp [Carries, attached]
  | some att =>
    have carries : Carries s p groupKey ↔ att.peerId = p ∧ att.groupKey = groupKey := by
      simp [Carries, attached]
    rw [carries]
    by_cases anonymous : att.peerId = 0
    · simp only [anonymous, ↓reduceIte]
      refine ⟨Or.inl, ?_⟩
      rintro (old | ⟨known, rfl, -⟩)
      · exact old
      · exact absurd rfl known
    by_cases present : att.peerId ∈ gs.peerManager.listPeerIdsInGroup att.groupKey
    · have member := mem_getPeerIdsInGroup.mp present
      simp only [anonymous, present, ↓reduceIte]
      refine ⟨Or.inl, ?_⟩
      rintro (old | ⟨-, rfl, rfl⟩)
      · exact old
      · exact member
    · simp only [anonymous, present, ↓reduceIte, members_addPeer x]
      by_cases named : att.groupKey = groupKey
      · simp only [named, ↓reduceIte, Std.ExtTreeSet.mem_insert,
          Std.LawfulEqCmp.compare_eq_iff_eq, and_true]
        constructor
        · rintro (rfl | old)
          · exact Or.inr ⟨anonymous, rfl⟩
          · exact Or.inl old
        · rintro (old | ⟨-, rfl⟩)
          · exact Or.inr old
          · exact Or.inl rfl
      · simp [named]

theorem rehydratePeer_registry (env : Env) (gs : GlobalStateInner) (s : Socket) :
    (rehydratePeer env gs s).networkDigestRegistry = gs.networkDigestRegistry := by
  unfold rehydratePeer
  split
  · rfl
  · split
    · rfl
    · split <;> rfl

/-- RelayRoom::new enrolls every attached peer that is missing, and nobody else. -/
theorem rehydrate_members (x : Externals) (env : Env) (sockets : List Socket)
    (gs : GlobalStateInner) (groupKey : GroupKey) (p : PeerId) :
    p ∈ RouteState.members (sockets.foldl (rehydratePeer env) gs).peerManager.routeState groupKey ↔
      p ∈ RouteState.members gs.peerManager.routeState groupKey ∨
        (p ≠ 0 ∧ ∃ s ∈ sockets, Carries s p groupKey) := by
  induction sockets generalizing gs with
  | nil => simp
  | cons s rest ih =>
    rw [List.foldl_cons, ih, rehydratePeer_members x]
    simp only [List.mem_cons, exists_eq_or_imp, and_or_left, or_assoc]

theorem rehydrate_registry (env : Env) (sockets : List Socket) (gs : GlobalStateInner) :
    (sockets.foldl (rehydratePeer env) gs).networkDigestRegistry = gs.networkDigestRegistry := by
  induction sockets generalizing gs with
  | nil => rfl
  | cons s rest ih => rw [List.foldl_cons, ih, rehydratePeer_registry]

theorem sits_iff {r : Relay} {p : PeerId} {groupKey : GroupKey} :
    (directory r).sits p groupKey ↔ ∃ s ∈ r.room.sockets, Carries s p groupKey := by
  constructor
  · rintro ⟨w, seat, seated, rfl, rfl⟩
    obtain ⟨att, attached, rfl⟩ := seat_some.mp seated
    obtain ⟨s, listed, -, carries⟩ := mem_of_attachment attached
    exact ⟨s, listed, att, carries, rfl, rfl⟩
  · rintro ⟨s, listed, att, attached, rfl, rfl⟩
    refine ⟨s.id, seatOf att, seat_some.mpr ⟨att, ?_, rfl⟩, rfl, rfl⟩
    rw [attachment_of_mem listed, attached]

theorem directory_new (x : Externals) (env : Env) (r : Relay) :
    directory (r.new env) =
      let d := directory r
      { d with members := fun g => d.members g ∪ d.seated blank g } := by
  apply Directory.ext
  · rfl
  · funext groupKey
    ext p
    have members := rehydrate_members x env r.room.sockets r.global groupKey p
    simp only [Set.mem_union, Directory.seated, Set.mem_ofPred_eq, sits_iff]
    exact members
  · funext n
    simp only [directory, Relay.new, rehydrate_registry]

theorem directory_fetch (env : Env) (r : Relay) :
    directory (r.fetch env) =
      (directory r).step blank groupKeyOf
        (.accept r.room.nextSocket (((r.fetch env).room.attachment r.room.nextSocket).map seatOf)) := by
  apply Directory.ext
  · funext w
    by_cases same : w = r.room.nextSocket
    · subst same
      simp [directory, Directory.step]
    · have older : (r.fetch env).room.attachment w = r.room.attachment w := by
        simp only [Relay.fetch, RelayRoom.attachment, List.find?_append]
        cases found : r.room.sockets.find? (·.id == w) with
        | none => simp [Ne.symm same]
        | some s => rfl
      simp [directory, Directory.step, same, older]
  · rfl
  · rfl

theorem directory_restart (x : Externals) (env : Env) (r : Relay) :
    directory (Relay.new env { r with global := GlobalStateInner.fresh }) =
      (directory r).step blank groupKeyOf .restart := by
  rw [directory_new x]
  apply Directory.ext
  · rfl
  · funext groupKey
    ext p
    have empty : p ∉ RouteState.members RouteState.new groupKey := by
      simp [RouteState.members, RouteState.new]
    constructor
    · rintro (member | seated)
      · exact absurd member empty
      · exact seated
    · intro seated
      exact Or.inr seated
  · funext n
    simp [directory, Directory.step, GlobalStateInner.fresh]

/-- Each event of the room is the event of the directory that it stands for. -/
theorem directory_step (x : Externals) (env : Env) (r : Relay) (e : RoomEvent) :
    directory (r.step x env e) =
      (directory r).step blank groupKeyOf (directoryEvent x env r e) := by
  cases e with
  | accept => exact directory_fetch env r
  | message w message =>
    cases message with
    | text body =>
      simp only [Relay.step, Relay.websocketMessage, ite_self]
      rfl
    | binary bytes =>
      by_cases isOpen : r.room.isOpen w = true
      · simp only [Relay.step, directoryEvent, isOpen, ↓reduceIte]
        cases parsed : parseHeader bytes with
        | none => simp [Relay.websocketMessage, parsed, Directory.step]
        | some header =>
          cases greets : greeted x header (bytes.drop headerSize) with
          | none => exact directory_ungreeted x env r isOpen parsed greets
          | some req => exact directory_greeted isOpen parsed greets
      · simp [Relay.step, directoryEvent, isOpen, Directory.step]
  | close w =>
    by_cases isOpen : r.room.isOpen w = true
    · simp only [Relay.step, directoryEvent, isOpen, ↓reduceIte]
      exact directory_close x env r w
    · simp [Relay.step, directoryEvent, isOpen, Directory.step]
  | error w =>
    by_cases isOpen : r.room.isOpen w = true
    · simp only [Relay.step, directoryEvent, isOpen, ↓reduceIte]
      exact directory_close x env r w
    · simp [Relay.step, directoryEvent, isOpen, Directory.step]
  | alarm => exact directory_quiet ((alarm_quiet x env r).mono Routine.keepsMembers)
  | rehydrate => exact directory_new x env r
  | restart => exact directory_restart x env r

theorem directoryEvent_restart {x : Externals} {env : Env} {r : Relay} {e : RoomEvent}
    (stays : e ≠ .restart) : directoryEvent x env r e ≠ .restart := by
  unfold directoryEvent messageEvent
  cases e with
  | restart => exact absurd rfl stays
  | _ => grind

/-- A registered name keeps its digest until the isolate restarts. -/
theorem registry_step (x : Externals) (env : Env) (r : Relay) {e : RoomEvent}
    (stays : e ≠ .restart) {n digest : String}
    (owned : r.global.networkDigestRegistry[n]? = some digest) :
    (r.step x env e).global.networkDigestRegistry[n]? = some digest := by
  have kept : ((directory r).step blank groupKeyOf (directoryEvent x env r e)).owner n =
      some digest := owner_step (directoryEvent_restart stays) owned
  rw [← directory_step] at kept
  exact kept

end RelayMembership
