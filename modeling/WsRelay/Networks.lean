import WsRelay.Secrecy
import WsRelay.RoomIsolation
import WsRelay.HandshakeRegistry

/- One network among those that share a room, and what the room looks like from there. The
   network has its own sockets, its own names and ids and one group. On its own events the room
   works as if there were nobody else. -/
namespace RelayNetworks
open RelayProtocol RelayRouteState RelayPeerCenter RelayPeerManager RelayRpcHandler RelayRoomModel
open RelayRouteOps RelayRoomSteps RelayMembership RelayTwinSteps RelayForwarding RelayRoomMoves
open RelayHandshakeRegistry TransitionRuns

structure Network where
  mine : SocketId → Bool
  group : GroupKey
  names : String → Bool
  ids : PeerId → Bool
  grouped : group ≠ ""
  known : ids 0 = false

namespace Network
variable (n : Network)

def owns : SharedKey → Bool
  | .name networkName => n.names networkName
  | .group groupKey => groupKey == n.group

def concerns (entry : Sent) : Bool :=
  match entry.origin with
  | .routeUpdate groupKey _ _ _ => groupKey == n.group
  | .forwarded source => n.mine source
  | _ => n.mine entry.socket

/- What an attachment may say on a socket of the network, and what on any other. -/
def Fits (w : SocketId) (att : WsAttachment) : Prop :=
  if n.mine w then
    (att.peerId = 0 ∧ att.groupKey = "") ∨ (n.ids att.peerId = true ∧ att.groupKey = n.group)
  else n.ids att.peerId = false ∧ att.groupKey ≠ n.group

def Placed (room : RelayRoom) : Prop :=
  ∀ s ∈ room.sockets, ∀ att, s.attachment = some att → n.Fits s.id att

def seen (room : RelayRoom) : RelayRoom where
  sockets := room.sockets.filter fun s => n.mine s.id
  nextSocket := room.nextSocket
  sent := room.sent.filter n.concerns
  closing := room.closing.filter n.mine
  ids := room.ids.filter _

/-- The room as the network sees it, on the shared state as it is. -/
def view (r : Relay) : Relay := { r with room := n.seen r.room }

end Network

/- The answers of the environment from a later place of the log. -/
def later (env : Env) (lag : Nat) : Env :=
  { env with
    randomU64 := fun i => env.randomU64 (i + lag)
    sendOk := fun i => env.sendOk (i + lag) }

/- The view of a room whose log is ahead by the frames that the network does not see. -/
structure Network.Shows (n : Network) (lag : Nat) (r b : Relay) : Prop where
  view : n.view r = b
  lag : r.room.sent.length = b.room.sent.length + lag
  placed : n.Placed r.room

section Lookups
variable {n : Network} {room : RelayRoom} {w : SocketId}

theorem attachment_seen (own : n.mine w = true) :
    (n.seen room).attachment w = room.attachment w := by
  unfold RelayRoom.attachment Network.seen
  simp only
  rw [List.find?_filter]
  congr 1
  refine List.find?_congr ?_
  intro s _
  by_cases same : s.id = w
  · simp [same, own]
  · simp [same]

theorem isOpen_seen (own : n.mine w = true) : (n.seen room).isOpen w = room.isOpen w := by
  unfold RelayRoom.isOpen Network.seen
  rw [List.any_filter]
  refine List.any_congr rfl ?_
  intro s
  by_cases same : s.id = w
  · simp [same, own]
  · simp [same]

theorem seen_attach (att : WsAttachment) :
    n.seen (room.attach w att) = (n.seen room).attach w att := by
  have sockets : (room.sockets.map (·.attachIf w att)).filter (fun s => n.mine s.id) =
      (room.sockets.filter fun s => n.mine s.id).map (·.attachIf w att) := by
    rw [List.filter_map]
    congr 1
    refine List.filter_congr ?_
    intro s _
    simp
  simp only [Network.seen, RelayRoom.attach, sockets]

theorem placed_attach (placed : n.Placed room) {att : WsAttachment} (fits : n.Fits w att) :
    n.Placed (room.attach w att) := by
  intro s listed written attached
  obtain ⟨old, inside, rfl⟩ := List.mem_map.mp listed
  by_cases same : old.id = w
  · simp only [Socket.attachIf, same, ↓reduceIte, Option.some.injEq] at attached
    rw [← attached, Socket.attachIf_id, same]
    exact fits
  · simp only [Socket.attachIf, same, ↓reduceIte] at attached ⊢
    exact placed old inside written attached

theorem placed_attachment (placed : n.Placed room) {att : WsAttachment}
    (attached : room.attachment w = some att) : n.Fits w att := by
  obtain ⟨s, listed, rfl, carries⟩ := mem_of_attachment attached
  exact placed s listed att carries

end Lookups

section Handlers
variable {n : Network} {lag : Nat} {r b : Relay} {w : SocketId} {att : WsAttachment}
  (x : Externals) (env : Env)

theorem Network.Shows.draw (shows : n.Shows lag r b) :
    (later env lag).randomU64 b.room.sent.length = env.randomU64 r.room.sent.length := by
  simp only [later, shows.lag]

theorem Network.Shows.ambient (shows : n.Shows lag r b) (groupKey : GroupKey) :
    (later env lag).ambient groupKey b.room.sent.length =
      env.ambient groupKey r.room.sent.length := by
  simp only [Env.ambient, shows.draw]
  rfl

theorem Network.Shows.withManager (shows : n.Shows lag r b) (pm : PeerManager) :
    n.Shows lag (r.withManager pm) (b.withManager pm) := by
  obtain ⟨rfl, lag, placed⟩ := shows
  exact ⟨rfl, lag, placed⟩

theorem send_shows (shows : n.Shows lag r b) {frame : Bytes} {origin : Origin}
    (heard : ∀ ok, n.concerns ⟨w, frame, ok, origin⟩ = true) :
    Alike (n.Shows lag) (r.send env w frame origin) (b.send (later env lag) w frame origin) := by
  obtain ⟨rfl, ahead, placed⟩ := shows
  have same : (later env lag).sendOk (n.view r).room.sent.length =
      env.sendOk r.room.sent.length := by simp only [later, ahead]
  simp only [Relay.send, same]
  refine ⟨rfl, ?_, ?_, placed⟩
  · simp [Network.view, Network.seen, List.filter_append, heard]
  · simp only [List.length_append, List.length_cons, List.length_nil]
    omega

theorem serialize_shows (shows : n.Shows lag r b)
    (fits : env.attachOk att = true → n.Fits w att) :
    Alike (n.Shows lag) (r.serializeAttachment env w att)
      (b.serializeAttachment (later env lag) w att) := by
  obtain ⟨rfl, ahead, placed⟩ := shows
  have same : (later env lag).attachOk att = env.attachOk att := rfl
  unfold Relay.serializeAttachment
  rw [same]
  split
  · rename_i written
    refine ⟨rfl, ?_, ahead, placed_attach placed (fits written)⟩
    simp only [Network.view, seen_attach]
  · exact ⟨rfl, rfl, ahead, placed⟩

theorem buildFor_shows (shows : n.Shows lag r b) (att : WsAttachment) (p : PeerId) :
    Alike (n.Shows lag) (r.buildFor x env att p) (b.buildFor x (later env lag) att p) := by
  unfold Relay.buildFor
  simp only [shows.draw, shows.ambient]
  obtain ⟨rfl, ahead, placed⟩ := shows
  exact ⟨rfl, rfl, ahead, placed⟩

theorem topology_shows (shows : n.Shows lag r b) (groupKey : GroupKey) (p : PeerId) :
    b.topology (later env lag) groupKey p = r.topology env groupKey p := by
  obtain ⟨rfl, -, -⟩ := shows
  rfl

theorem broadcastTo_other {groupKey : GroupKey} {s : Socket}
    (other : ∀ att, s.attachment = some att → att.groupKey ≠ groupKey) (excludePeerId : PeerId) :
    broadcastTo x env groupKey excludePeerId r s = r := by
  unfold broadcastTo
  cases attached : s.attachment with
  | none => rfl
  | some att =>
    simp only
    split
    · rfl
    · rw [if_pos (other att attached)]

theorem broadcastTo_shows (shows : n.Shows lag r b) (excludePeerId : PeerId) (s : Socket) :
    n.Shows lag (broadcastTo x env n.group excludePeerId r s)
      (broadcastTo x (later env lag) n.group excludePeerId b s) := by
  unfold broadcastTo
  cases s.attachment with
  | none => exact shows
  | some att =>
    simp only
    split
    · exact shows
    split
    · exact shows
    rename_i grouped
    have heard : (att.groupKey == n.group) = true := by simpa using grouped
    obtain ⟨answer, after, after', outcome, outcome', built⟩ :=
      (buildFor_shows x env shows att att.peerId).cases
    rw [topology_shows env shows, outcome, outcome']
    cases answer with
    | none => exact built
    | some update =>
      refine (send_shows env built ?_).2
      intro ok
      exact heard

theorem broadcast_shows (shows : n.Shows lag r b) (excludePeerId : PeerId) :
    n.Shows lag (r.broadcastRouteUpdate x env n.group excludePeerId)
      (b.broadcastRouteUpdate x (later env lag) n.group excludePeerId) := by
  have listed : b.room.sockets = r.room.sockets.filter fun s => n.mine s.id := by
    rw [← shows.view]
    rfl
  have all : EveryStep (broadcastTo x env n.group excludePeerId)
      (fun _ s => s ∈ r.room.sockets) r r.room.sockets := everyStep_of_forall fun _ inside => inside
  unfold Relay.broadcastRouteUpdate
  rw [listed]
  refine filtered_run (n.Shows lag) ?_ ?_ shows all
  · intro a a' s _ _ between
    exact broadcastTo_shows x env between excludePeerId s
  · intro a a' s inside foreign between
    rw [broadcastTo_other]
    · exact between
    · intro att attached
      have fits := shows.placed s inside att attached
      rw [Network.Fits, if_neg (by simp [foreign])] at fits
      exact fits.2

theorem runAction_shows (shows : n.Shows lag r b) (own : n.mine w = true)
    (grouped : att.groupKey = n.group) {draw : UInt64} {action : RpcAction}
    (asked : OwnAction (attachmentToCtx draw att) action) :
    Alike (n.Shows lag) (r.runAction x env w att action)
      (b.runAction x (later env lag) w att action) := by
  cases action with
  | sendTo p bytes =>
    simp only [Relay.runAction]
    split
    · exact send_shows env shows fun _ => own
    · exact ⟨rfl, shows⟩
  | pushRouteUpdate p key =>
    obtain ⟨answer, after, after', outcome, outcome', built⟩ :=
      (buildFor_shows x env shows att p).cases
    simp only [Relay.runAction, topology_shows env shows, outcome, outcome']
    cases answer with
    | none => exact ⟨rfl, built⟩
    | some update =>
      simp only
      split
      · refine send_shows env built ?_
        intro ok
        simp [Network.concerns, grouped]
      · exact ⟨rfl, built⟩
  | broadcastRouteUpdate key p =>
    have key_eq : key = att.groupKey := asked.1
    subst key_eq
    simp only [Relay.runAction, grouped]
    exact ⟨rfl, broadcast_shows x env shows p⟩
  | none => exact ⟨rfl, shows⟩

theorem runActions_shows (own : n.mine w = true) (grouped : att.groupKey = n.group)
    {draw : UInt64} {actions : List RpcAction}
    (asked : ∀ action ∈ actions, OwnAction (attachmentToCtx draw att) action)
    (shows : n.Shows lag r b) :
    Alike (n.Shows lag) (Relay.runActions x env w att actions r)
      (Relay.runActions x (later env lag) w att actions b) := by
  induction actions generalizing r b with
  | nil => exact ⟨rfl, shows⟩
  | cons action rest ih =>
    obtain ⟨ok, after, after', outcome, outcome', next⟩ :=
      (runAction_shows x env shows own grouped (asked action (by simp))).cases
    unfold Relay.runActions
    rw [outcome, outcome']
    cases ok with
    | false => exact ⟨rfl, next⟩
    | true => exact ih (fun action listed => asked action (by simp [listed])) next

theorem handleRpcReqLocally_shows (shows : n.Shows lag r b) (att : WsAttachment)
    (payload : Bytes) :
    Alike (n.Shows lag) (r.handleRpcReqLocally x env att payload)
      (b.handleRpcReqLocally x (later env lag) att payload) := by
  unfold Relay.handleRpcReqLocally
  simp only [shows.draw, shows.ambient]
  obtain ⟨rfl, ahead, placed⟩ := shows
  exact ⟨rfl, rfl, ahead, placed⟩

theorem forwardTarget_seen {room : RelayRoom} (placed : n.Placed room) {p : PeerId}
    (own : n.ids p = true) : (n.seen room).forwardTarget p = room.forwardTarget p := by
  unfold RelayRoom.forwardTarget Network.seen
  simp only
  rw [List.find?_filter]
  refine List.find?_congr ?_
  intro s listed
  cases mine : n.mine s.id with
  | true => simp
  | false =>
    cases attached : s.attachment with
    | none => simp
    | some att =>
      have fits := placed s listed att attached
      rw [Network.Fits, if_neg (by simp [mine])] at fits
      have other : att.peerId ≠ p := by
        rintro rfl
        rw [own] at fits
        exact absurd fits.1 (by simp)
      simp [other]

theorem forward_shows (shows : n.Shows lag r b) (own : n.mine w = true) {header : PacketHeader}
    (addressed : n.ids header.toPeerId = true) (frame : Bytes) :
    Alike (n.Shows lag) (r.forwardMessage env w header frame)
      (b.forwardMessage (later env lag) w header frame) := by
  have found : b.room.forwardTarget header.toPeerId = r.room.forwardTarget header.toPeerId := by
    rw [← shows.view]
    exact forwardTarget_seen shows.placed addressed
  have source : b.room.attachment w = r.room.attachment w := by
    rw [← shows.view]
    exact attachment_seen own
  unfold Relay.forwardMessage
  rw [found, source]
  split
  · exact ⟨rfl, shows⟩
  · simp only
    split
    · split
      · exact ⟨rfl, shows⟩
      · exact send_shows env shows fun _ => own
    · exact send_shows env shows fun _ => own

theorem onRpcReq_shows (shows : n.Shows lag r b) (own : n.mine w = true) {header : PacketHeader}
    {payload : Bytes}
    (grouped : handledLocally header = true → served x payload = true → att.groupKey = n.group)
    (addressed : handledLocally header = false → n.ids header.toPeerId = true) (frame : Bytes) :
    Alike (n.Shows lag) (r.onRpcReq x env w att header payload frame)
      (b.onRpcReq x (later env lag) w att header payload frame) := by
  unfold Relay.onRpcReq
  split
  · rename_i here
    cases service : served x payload with
    | true =>
      have asked := handleRpcReq_own x (env.ambient att.groupKey r.room.sent.length)
        (attachmentToCtx (env.randomU64 r.room.sent.length) att) r.global.peerManager
        r.global.peerCenterMap payload
      obtain ⟨actions, handled⟩ := handleRpcReqLocally_shows x env shows att payload
      simp only [← actions]
      exact runActions_shows x env own (grouped here service) asked handled
    | false =>
      simp only [Relay.handleRpcReqLocally, handleRpcReq_unserved x service, Relay.runActions]
      exact ⟨rfl, shows⟩
  · rename_i elsewhere
    exact forward_shows env shows own (addressed (by simpa using elsewhere)) frame

theorem onRpcResp_shows (shows : n.Shows lag r b) (own : n.mine w = true) {header : PacketHeader}
    {payload : Bytes}
    (addressed : handledLocally header = false → n.ids header.toPeerId = true) (frame : Bytes) :
    Alike (n.Shows lag) (r.onRpcResp x env w att header payload frame)
      (b.onRpcResp x (later env lag) w att header payload frame) := by
  unfold Relay.onRpcResp
  split
  · simp only [shows.draw, shows.ambient]
    obtain ⟨rfl, ahead, placed⟩ := shows
    exact ⟨rfl, rfl, ahead, placed⟩
  · rename_i elsewhere
    exact forward_shows env shows own (addressed (by simpa using elsewhere)) frame

theorem registerPeer_shows (shows : n.Shows lag r b) (groupKey : GroupKey) (p : PeerId) :
    n.Shows lag (r.registerPeer x env groupKey p)
      (b.registerPeer x (later env lag) groupKey p) := by
  obtain ⟨rfl, ahead, placed⟩ := shows
  exact ⟨rfl, ahead, placed⟩

theorem welcome_shows (shows : n.Shows lag r b) (own : n.mine w = true)
    {outcome : HandshakeOutcome}
    (joins : env.attachOk att = true → n.Fits w att ∧ outcome.groupKey = n.group) :
    Alike (n.Shows lag) (r.welcome x env w att outcome)
      (b.welcome x (later env lag) w att outcome) := by
  have same : (later env lag).attachOk att = env.attachOk att := rfl
  cases written : env.attachOk att with
  | false =>
    simp only [Relay.welcome, Relay.serializeAttachment, same, written, Bool.false_eq_true,
      ↓reduceIte]
    exact ⟨rfl, shows⟩
  | true =>
    obtain ⟨fits, grouped⟩ := joins written
    obtain ⟨-, attached⟩ := serialize_shows env shows fun _ => fits
    simp only [Relay.serializeAttachment, same, written, ↓reduceIte] at attached
    have registered := registerPeer_shows x env attached outcome.groupKey outcome.peerId
    have heard : ∀ ok, n.concerns ⟨w, outcome.responseBytes, ok, .handshakeResponse⟩ = true :=
      fun _ => own
    obtain ⟨ok, after, after', sent, sent', next⟩ := (send_shows env registered heard).cases
    simp only [Relay.welcome, Relay.serializeAttachment, same, written, ↓reduceIte, sent, sent']
    cases ok with
    | false => exact ⟨rfl, next⟩
    | true =>
      obtain ⟨-, built⟩ := buildFor_shows x env next att att.peerId
      simp only [grouped]
      exact ⟨rfl, broadcast_shows x env built 0⟩

theorem onHandShake_shows (shows : n.Shows lag r b) (own : n.mine w = true) {payload : Bytes}
    (joins : ∀ outcome,
      (handleHandshake x payload r.global.networkDigestRegistry).1 = some outcome →
      env.attachOk (attachOutcome att outcome) = true →
      n.Fits w (attachOutcome att outcome) ∧ outcome.groupKey = n.group) :
    (r.onHandShake x env w att payload).1 = (b.onHandShake x (later env lag) w att payload).1 ∧
      Alike (n.Shows lag) (r.onHandShake x env w att payload).2
        (b.onHandShake x (later env lag) w att payload).2 := by
  have registry : b.global.networkDigestRegistry = r.global.networkDigestRegistry := by
    rw [← shows.view]
    rfl
  unfold Relay.onHandShake
  rw [registry]
  cases handled : handleHandshake x payload r.global.networkDigestRegistry with
  | mk outcome owners =>
    rw [handled] at joins
    have entered : n.Shows lag
        { r with global := { r.global with networkDigestRegistry := owners } }
        { b with global := { b.global with networkDigestRegistry := owners } } := by
      obtain ⟨rfl, ahead, placed⟩ := shows
      exact ⟨rfl, ahead, placed⟩
    cases outcome with
    | none =>
      obtain ⟨rfl, ahead, placed⟩ := shows
      refine ⟨rfl, rfl, ?_, ahead, placed⟩
      simp [Network.view, Network.seen, List.filter_append, own]
    | some outcome =>
      obtain ⟨ok, welcomed⟩ := welcome_shows x env entered own (joins outcome rfl)
      exact ⟨ok, rfl, welcomed⟩

/- What a message of the network may be. -/
structure Permitted (n : Network) (x : Externals) (env : Env) (r : Relay) (w : SocketId)
    (att : WsAttachment) (header : PacketHeader) (payload : Bytes) : Prop where
  keys : ∀ k ∈ messageKeys x env r att header payload, n.owns k = true
  taken : ∀ req, greeted x header payload = some req → n.ids req.myPeerId = true
  passed : forwarded header = true → n.ids header.toPeerId = true

theorem admitted_request {payload : Bytes} {registry : DigestRegistry} {outcome : HandshakeOutcome}
    (admitted : (handleHandshake x payload registry).1 = some outcome) :
    ∃ req, x.decodeHandshakeRequest payload = some req ∧ req.magic = magic ∧
      outcome.peerId = req.myPeerId := by
  cases decoded : x.decodeHandshakeRequest payload with
  | none => simp [handleHandshake, decoded] at admitted
  | some req =>
    obtain ⟨-, rfl⟩ := answers_registered ⟨decoded, admitted⟩
    refine ⟨req, rfl, ?_, rfl⟩
    by_contra wrong
    simp [handleHandshake, decoded, wrong] at admitted

theorem joins_network (own : n.mine w = true) {header : PacketHeader} {payload : Bytes}
    (kind : header.packetTypeEnum = .handShake)
    (permitted : Permitted n x env r w att header payload) (outcome : HandshakeOutcome)
    (admitted : (handleHandshake x payload r.global.networkDigestRegistry).1 = some outcome)
    (written : env.attachOk (attachOutcome att outcome) = true) :
    n.Fits w (attachOutcome att outcome) ∧ outcome.groupKey = n.group := by
  obtain ⟨keys, taken, -⟩ := permitted
  simp only [messageKeys, kind] at keys
  have grouped := keys _ (RelaySecrecy.mem_handshakeKeys_group admitted written)
  obtain ⟨req, decoded, genuine, peer⟩ := admitted_request x admitted
  have named := taken req (by simp [greeted, kind, decoded, Option.filter, genuine])
  have joins : outcome.groupKey = n.group := by simpa [Network.owns] using grouped
  refine ⟨?_, joins⟩
  rw [Network.Fits, if_pos own]
  exact Or.inr ⟨by rw [attachOutcome, peer, named], joins⟩

theorem dispatch_shows (shows : n.Shows lag r b) (own : n.mine w = true) {header : PacketHeader}
    {payload : Bytes} (permitted : Permitted n x env r w att header payload) (frame : Bytes) :
    (r.dispatch x env w att header payload frame).1 =
        (b.dispatch x (later env lag) w att header payload frame).1 ∧
      Alike (n.Shows lag) (r.dispatch x env w att header payload frame).2
        (b.dispatch x (later env lag) w att header payload frame).2 := by
  have keys := permitted.keys
  have passed := permitted.passed
  unfold messageKeys at keys
  unfold forwarded at passed
  unfold Relay.dispatch
  cases kind : header.packetTypeEnum with
  | handShake => exact onHandShake_shows x env shows own (joins_network x env own kind permitted)
  | ping =>
    have replied : Alike (n.Shows lag)
        (r.send env w (handlePing header.fromPeerId payload) .pong)
        (b.send (later env lag) w (handlePing header.fromPeerId payload) .pong) :=
      send_shows env shows fun _ => own
    exact ⟨replied.1, rfl, replied.2⟩
  | rpcReq =>
    simp only [kind] at keys passed
    have grouped : handledLocally header = true → served x payload = true →
        att.groupKey = n.group := by
      intro here service
      have used := keys (.group att.groupKey) (by simp [requestKeys, here, service])
      simpa [Network.owns] using used
    obtain ⟨ok, after⟩ := onRpcReq_shows x env shows own grouped (by simpa using passed) frame
    exact ⟨ok, rfl, after⟩
  | rpcResp =>
    simp only [kind] at passed
    obtain ⟨ok, after⟩ := onRpcResp_shows x env shows own (by simpa using passed) frame
    exact ⟨ok, rfl, after⟩
  | _ =>
    obtain ⟨ok, after⟩ := forward_shows env shows own (by simpa [kind] using passed) frame
    exact ⟨ok, rfl, after⟩

theorem writeBack_shows {out out' : Bool × WsAttachment × Relay} (ok : out.1 = out'.1)
    (alike : Alike (n.Shows lag) out.2 out'.2)
    (fits : env.attachOk out.2.1 = true → n.Fits w out.2.1) :
    n.Shows lag (Relay.writeBack env w out) (Relay.writeBack (later env lag) w out') := by
  obtain ⟨done, att, after⟩ := out
  obtain ⟨done', att', after'⟩ := out'
  obtain ⟨same, shows⟩ := alike
  simp only at ok same shows
  subst ok same
  cases done with
  | false => exact shows
  | true => exact (serialize_shows env shows fits).2

theorem dispatch_fits (own : n.mine w = true) (fits : n.Fits w att) {header : PacketHeader}
    {payload : Bytes} (permitted : Permitted n x env r w att header payload) (frame : Bytes)
    (written : env.attachOk (r.dispatch x env w att header payload frame).2.1 = true) :
    n.Fits w (r.dispatch x env w att header payload frame).2.1 := by
  by_cases kind : header.packetTypeEnum = .handShake
  · have joins := joins_network x env own kind permitted
    simp only [Relay.dispatch, kind, Relay.onHandShake] at written ⊢
    cases handled : handleHandshake x payload r.global.networkDigestRegistry with
    | mk outcome owners =>
      rw [handled] at joins
      simp only [handled] at written
      cases outcome with
      | none => exact fits
      | some outcome => exact (joins outcome rfl written).1
  · rw [(dispatch_quiet x env r w att payload frame kind).1]
    exact fits

theorem current_fits (placed : n.Placed r.room) (own : n.mine w = true) :
    n.Fits w (r.currentAttachment env w) := by
  unfold Relay.currentAttachment
  cases attached : r.room.attachment w with
  | none =>
    rw [Network.Fits, if_pos own]
    exact Or.inl ⟨rfl, rfl⟩
  | some seat =>
    have fits : n.Fits w seat := placed_attachment placed attached
    exact fits

theorem current_shows (shows : n.Shows lag r b) (own : n.mine w = true) :
    b.currentAttachment (later env lag) w = r.currentAttachment env w := by
  have same : b.room.attachment w = r.room.attachment w := by
    rw [← shows.view]
    exact attachment_seen own
  simp only [Relay.currentAttachment, same, later]

theorem message_shows (shows : n.Shows lag r b) (own : n.mine w = true) {frame : Bytes}
    (permitted : ∀ header, parseHeader frame = some header →
      Permitted n x env r w (r.currentAttachment env w) header (frame.drop headerSize)) :
    n.Shows lag (r.websocketMessage x env w (.binary frame))
      (b.websocketMessage x (later env lag) w (.binary frame)) := by
  cases parsed : parseHeader frame with
  | none =>
    simp only [Relay.websocketMessage, parsed]
    exact shows
  | some header =>
    rw [websocketMessage_eq x env r w parsed, websocketMessage_eq x (later env lag) b w parsed,
      current_shows env shows own]
    obtain ⟨ok, alike⟩ := dispatch_shows x env shows own (permitted header parsed) frame
    have current := current_fits env shows.placed own
    refine writeBack_shows env ok alike ?_
    exact dispatch_fits x env own current (permitted header parsed) frame

theorem hasOtherConnection_seen {room : RelayRoom} (placed : n.Placed room)
    (named : n.ids att.peerId = true) :
    (n.seen room).hasOtherConnection att = room.hasOtherConnection att := by
  unfold RelayRoom.hasOtherConnection Network.seen
  rw [Bool.eq_iff_iff, List.any_eq_true, List.any_eq_true]
  constructor
  · rintro ⟨s, listed, other⟩
    exact ⟨s, List.mem_of_mem_filter listed, other⟩
  · rintro ⟨s, listed, other⟩
    obtain ⟨found, attached, passes⟩ := (Option.any_eq_true _ _).mp other
    have same : found.peerId = att.peerId := by simpa using And.left (by simpa using passes)
    refine ⟨s, List.mem_filter.mpr ⟨listed, ?_⟩, other⟩
    by_contra foreign
    have fits := placed s listed found attached
    rw [Network.Fits, if_neg foreign, same, named] at fits
    exact absurd fits.1 (by simp)

theorem lastConnection_shows (shows : n.Shows lag r b) (own : n.mine w = true) :
    LastConnection b w att ↔ LastConnection r w att := by
  have placed := shows.placed
  rw [← shows.view]
  unfold LastConnection Network.view
  simp only [attachment_seen own]
  refine and_congr_right fun attached => and_congr_right fun nonzero => ?_
  have fits := placed_attachment placed attached
  rw [Network.Fits, if_pos own] at fits
  rcases fits with blank | ⟨named, -⟩
  · exact absurd blank.1 nonzero
  · rw [hasOtherConnection_seen placed named]

theorem drop_shows (shows : n.Shows lag r b) (own : n.mine w = true) :
    n.Shows lag (r.dropConnection x env w) (b.dropConnection x (later env lag) w) := by
  by_cases leaves : ∃ att, LastConnection r w att
  · obtain ⟨att, last⟩ := leaves
    have fits := placed_attachment shows.placed last.1
    rw [Network.Fits, if_pos own] at fits
    obtain ⟨-, grouped⟩ := fits.resolve_left fun blank => last.2.1 blank.1
    rw [dropConnection_last x env last,
      dropConnection_last x (later env lag) ((lastConnection_shows shows own).mpr last), grouped]
    have same : routes b = routes r := by
      rw [← shows.view]
      rfl
    rw [same]
    exact broadcast_shows x env (shows.withManager _) att.peerId
  · rw [dropConnection_idle x env fun att last => leaves ⟨att, last⟩,
      dropConnection_idle x (later env lag) fun att last =>
        leaves ⟨att, (lastConnection_shows shows own).mp last⟩]
    exact shows

theorem seen_forget (room : RelayRoom) : n.seen (room.forget w) = (n.seen room).forget w := by
  simp only [Network.seen, RelayRoom.forget, List.filter_filter, Bool.and_comm]

theorem leave_shows (shows : n.Shows lag r b) (own : n.mine w = true) :
    let left := r.dropConnection x env w
    let left' := b.dropConnection x (later env lag) w
    n.Shows lag { left with room := left.room.forget w }
      { left' with room := left'.room.forget w } := by
  obtain ⟨view, ahead, placed⟩ := drop_shows x env shows own
  refine ⟨?_, ahead, ?_⟩
  · rw [← view]
    simp only [Network.view, seen_forget]
  · intro s listed att attached
    exact placed s (List.mem_of_mem_filter listed) att attached

end Handlers

end RelayNetworks
