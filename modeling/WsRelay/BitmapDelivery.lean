import WsRelay.Membership
import WsRelay.ConnBitmap
import WsRelay.WireFormats

/- Bitmaps that a route update leaves out, against the frames that were sent before. The record
   kept for a target is honest while every open socket attached as the target was sent the
   recorded bitmap; as long as all records are honest, nothing unknown is left out. -/
namespace RelayBitmapDelivery
open RelayProtocol RelayRouteState RelayPeerManager RelayRpcHandler RelayRoomModel RelayRouteOps
open RelayRoomSteps RelayMembership RelayConnBitmap RelayWireFormats TransitionRuns Announcements

def updateOf (e : Sent) : Option (SyncRouteInfoRequest × RouteConnBitmap) :=
  match e.origin with
  | .routeUpdate _ _ req topology => some (req, topology)
  | _ => none

def carried (e : Sent) : Option RouteConnBitmap :=
  (updateOf e).bind fun (req, _) =>
    match req.connInfo with
    | some (.connBitmap bitmap) => some bitmap
    | _ => none

/- The topology of a route update without conn_info. -/
def omitted (e : Sent) : Option RouteConnBitmap :=
  (updateOf e).bind fun (req, topology) => if req.connInfo.isNone then some topology else none

def Told (log : List Sent) (w : SocketId) (bitmap : RouteConnBitmap) : Prop :=
  ∃ e ∈ log, e.socket = w ∧ e.ok = true ∧ carried e = some bitmap

instance (log : List Sent) (w : SocketId) (bitmap : RouteConnBitmap) :
    Decidable (Told log w bitmap) := inferInstanceAs (Decidable (∃ e ∈ log, _))

/-- A bitmap is left out only where an earlier frame on the same socket delivered it. -/
def OmitsOnlyTold (log : List Sent) : Prop :=
  ∀ before e after, log = before ++ e :: after → ∀ bitmap, omitted e = some bitmap →
    Told before e.socket bitmap

theorem Told.append {log : List Sent} {w : SocketId} {bitmap : RouteConnBitmap}
    (told : Told log w bitmap) (extra : List Sent) : Told (log ++ extra) w bitmap := by
  obtain ⟨e, listed, delivers⟩ := told
  exact ⟨e, List.mem_append_left extra listed, delivers⟩

theorem omitsOnlyTold_snoc {log : List Sent} {last : Sent} (kept : OmitsOnlyTold log)
    (safe : ∀ bitmap, omitted last = some bitmap → Told log last.socket bitmap) :
    OmitsOnlyTold (log ++ [last]) := by
  intro before e after split bitmap omits
  rcases List.eq_nil_or_concat after with rfl | ⟨later, final, rfl⟩
  · obtain ⟨rfl, same⟩ := List.append_inj' split rfl
    cases same
    exact safe bitmap omits
  · rw [List.concat_eq_append, ← List.cons_append, ← List.append_assoc] at split
    obtain ⟨rfl, -⟩ := List.append_inj' split rfl
    exact kept before e later rfl bitmap omits

theorem omitsOnlyTold_append {log extra : List Sent} (kept : OmitsOnlyTold log)
    (other : ∀ e ∈ extra, updateOf e = none) : OmitsOnlyTold (log ++ extra) := by
  induction extra using List.reverseRecOn with
  | nil => simpa using kept
  | append_singleton early last ih =>
    rw [← List.append_assoc]
    refine omitsOnlyTold_snoc (ih fun e listed => other e (by simp [listed])) ?_
    intro bitmap omits
    rw [omitted, other last (by simp)] at omits
    cases omits

/- Open sockets with the peer and group they count as; an unattached one counts as nobody. -/
def seats (room : RelayRoom) : List (SocketId × PeerId × GroupKey) :=
  room.sockets.map fun s =>
    (s.id, (s.attachment.getD {}).peerId, (s.attachment.getD {}).groupKey)

def HonestRecords (r : Relay) : Prop :=
  ∀ w p key, (w, p, key) ∈ seats r.room → ∀ bitmap, bitmap.peerIds ≠ [] →
    RouteState.signature (routes r) key p = some (connBitmapSig bitmap) →
    Told r.room.sent w bitmap

structure Honest (r : Relay) : Prop where
  records : HonestRecords r
  omissions : OmitsOnlyTold r.room.sent

structure Mild (r r' : Relay) : Prop where
  seated : ∀ seat ∈ seats r'.room, seat ∈ seats r.room
  faded : ∀ key p, RouteState.signature (routes r') key p = RouteState.signature (routes r) key p ∨
    RouteState.signature (routes r') key p = none
  logged : ∃ extra, r'.room.sent = r.room.sent ++ extra ∧ ∀ e ∈ extra, updateOf e = none

theorem Mild.refl (r : Relay) : Mild r r :=
  ⟨fun _ listed => listed, fun _ _ => Or.inl rfl, [], by simp, by simp⟩

theorem Mild.trans {r r' r'' : Relay} (first : Mild r r') (second : Mild r' r'') : Mild r r'' where
  seated seat listed := first.seated seat (second.seated seat listed)
  faded key p := by
    rcases second.faded key p with same | gone
    · rw [same]
      exact first.faded key p
    · exact Or.inr gone
  logged := by
    obtain ⟨extra, log, other⟩ := first.logged
    obtain ⟨extra', log', other'⟩ := second.logged
    refine ⟨extra ++ extra', by rw [log', log, List.append_assoc], ?_⟩
    intro e listed
    rcases List.mem_append.mp listed with early | late
    · exact other e early
    · exact other' e late

/-- Mild changes keep records honest. -/
theorem Mild.honest {r r' : Relay} (mild : Mild r r') (honest : Honest r) : Honest r' := by
  obtain ⟨extra, log, other⟩ := mild.logged
  constructor
  · intro w p key listed bitmap lists recorded
    rw [log]
    rcases mild.faded key p with same | gone
    · rw [same] at recorded
      exact (honest.records w p key (mild.seated _ listed) bitmap lists recorded).append extra
    · rw [gone] at recorded
      cases recorded
  · rw [log]
    exact omitsOnlyTold_append honest.omissions other

theorem reaches_faded {x : Externals} {st st' : RouteState} (reached : Reaches x NoBuild st st')
    (key : GroupKey) (p : PeerId) :
    RouteState.signature st' key p = RouteState.signature st key p ∨
      RouteState.signature st' key p = none := by
  refine reached.relation (fun a b => RouteState.signature b key p = RouteState.signature a key p ∨
      RouteState.signature b key p = none) (fun _ => Or.inl rfl) ?_ ?_
  · intro a b c first second
    rcases second with same | gone
    · rw [same]
      exact first
    · exact Or.inr gone
  · intro st c noBuild
    rw [call_signature x key p st c]
    cases happens : RouteState.effect x key p st c with
    | announces topology =>
      obtain ⟨-, now, sid, initiator, full, op⟩ := (buildsFor_of_announces happens).1
      simp [NoBuild, op, RouteOp.isBuild] at noBuild
    | forgets => exact Or.inr rfl
    | idle => exact Or.inl rfl

theorem mild_of_quiet {x : Externals} {r r' : Relay} (quiet : Quiet x NoBuild r r')
    (logged : ∃ extra, r'.room.sent = r.room.sent ++ extra ∧ ∀ e ∈ extra, updateOf e = none) :
    Mild r r' where
  seated seat listed := by
    unfold seats at listed
    rwa [quiet.sockets] at listed
  faded key p := reaches_faded quiet.reached key p
  logged := logged

def builtRequest (env : Env) (r : Relay) (att : WsAttachment) (target : PeerId) :
    SyncRouteInfoRequest :=
  let ctx := attachmentToCtx (env.randomU64 r.room.sent.length) att
  ((routes r).buildSyncRouteInfoRequest (env.seed att.groupKey) env.nowMs att.groupKey target
    ((parseU64 ctx.serverSessionId).getD 0) att.weAreInitiator true).1

section Build
variable (x : Externals) (env : Env) (r : Relay) (att : WsAttachment) (target : PeerId)

theorem buildFor_eq : ∃ bytes, r.buildFor x env att target =
    (some ⟨builtRequest env r att target, bytes⟩, (r.buildFor x env att target).2) := ⟨_, rfl⟩

/- The current topology is not the recorded one, so a build emits it. -/
def News (key : GroupKey) (p : PeerId) : Prop :=
  RouteState.signature (routes r) key p ≠ some (connBitmapSig (r.topology env key p))

instance (key : GroupKey) (p : PeerId) : Decidable (News env r key p) :=
  inferInstanceAs (Decidable (_ ≠ _))

theorem topology_eq (key : GroupKey) (p : PeerId) :
    r.topology env key p = RouteState.topologyOf (routes r) (env.seed key) key p := rfl

theorem builtRequest_connInfo :
    (builtRequest env r att target).connInfo =
      if News env r att.groupKey target then some (.connBitmap (r.topology env att.groupKey target))
      else none := by
  have built := (build_spec ((routes r).ensureGroup (env.seed att.groupKey) att.groupKey) env.nowMs
    target ((parseU64 (attachmentToCtx (env.randomU64 r.room.sent.length) att).serverSessionId).getD 0)
    att.weAreInitiator true).1
  rw [ensureGroup_signature] at built
  by_cases news : News env r att.groupKey target
  · rw [if_pos news]
    exact built.trans (if_neg news)
  · have known : RouteState.signature (routes r) att.groupKey target =
        some (connBitmapSig (r.topology env att.groupKey target)) := by simpa [News] using news
    rw [if_neg news]
    exact built.trans (if_pos known)

/-- A build records the topology for its own target and leaves the other records alone. -/
theorem buildFor_signature (key : GroupKey) (p : PeerId) :
    RouteState.signature (routes (r.buildFor x env att target).2) key p =
      if att.groupKey = key ∧ target = p
      then some (connBitmapSig (r.topology env att.groupKey target))
      else RouteState.signature (routes r) key p := by
  rw [buildFor_snd, routes_withManager, call_signature x key p]
  unfold RouteState.effect buildCall
  by_cases named : att.groupKey = key
  · subst named
    by_cases same : target = p
    · subst same
      simp only [↓reduceIte, RouteOp.effect, and_self]
      rfl
    · simp only [↓reduceIte, RouteOp.effect, same, and_false]
      rfl
  · simp only [named, ↓reduceIte, false_and]
    rfl

end Build

/- A build for a socket that records something new is sent, and no other open socket attached
   as the target is left behind. -/
def TellsAll (env : Env) (r : Relay) (w : SocketId) (key : GroupKey) (p : PeerId) : Prop :=
  News env r key p → env.sendOk r.room.sent.length = true ∧
    ∀ seat ∈ seats r.room, seat.1 ≠ w → seat.2 = (p, key) →
      Told r.room.sent seat.1 (r.topology env key p)

instance (env : Env) (r : Relay) (w : SocketId) (key : GroupKey) (p : PeerId) :
    Decidable (TellsAll env r w key p) := inferInstanceAs (Decidable (News env r key p → _ ∧ _))

theorem topology_lists_peers (env : Env) (r : Relay) (key : GroupKey) (p : PeerId) :
    (r.topology env key p).peerIds ≠ [] :=
  topology_lists ((routes r).ensureGroup (env.seed key) key) p

/-- The records stay honest over a build that is sent to the socket it was made for. -/
theorem tell_honest {x : Externals} {env : Env} {r : Relay} {w : SocketId} {att : WsAttachment}
    {p : PeerId} (honest : Honest r) (seated : (w, p, att.groupKey) ∈ seats r.room)
    (tells : TellsAll env r w att.groupKey p) (frame : Bytes) :
    Honest ((r.buildFor x env att p).2.send env w frame
      (.routeUpdate att.groupKey p (builtRequest env r att p) (r.topology env att.groupKey p))).2 := by
  set key := att.groupKey with keyDef
  set bitmap := r.topology env key p with bitmapDef
  have lists : bitmap.peerIds ≠ [] := topology_lists_peers env r key p
  have sends : (builtRequest env r att p).connInfo =
      if News env r key p then some (.connBitmap bitmap) else none :=
    builtRequest_connInfo env r att p
  constructor
  · intro w' q key' listed other otherLists recorded
    have before : (w', q, key') ∈ seats r.room := listed
    have noted : RouteState.signature (routes (r.buildFor x env att p).2) key' q =
        some (connBitmapSig other) := recorded
    rw [buildFor_signature] at noted
    by_cases own : att.groupKey = key' ∧ p = q
    · obtain ⟨rfl, rfl⟩ := own
      rw [if_pos ⟨rfl, rfl⟩] at noted
      have same : other = bitmap :=
        connBitmapSig_injective otherLists lists (Option.some.inj noted).symm
      subst same
      by_cases news : News env r key p
      · obtain ⟨sent, others⟩ := tells news
        by_cases here : w' = w
        · subst here
          refine ⟨_, List.mem_append_right _ (List.mem_singleton.mpr rfl), rfl, sent, ?_⟩
          simp only [carried, updateOf, Option.bind_some, sends, news, ↓reduceIte]
        · exact (others (w', p, key) before here rfl).append _
      · have known : RouteState.signature (routes r) key p = some (connBitmapSig bitmap) := by
          simpa [News] using news
        exact (honest.records w' p key before bitmap lists known).append _
    · rw [if_neg own] at noted
      exact (honest.records w' q key' before other otherLists noted).append _
  · refine omitsOnlyTold_snoc honest.omissions ?_
    intro other omits
    simp only [omitted, updateOf, Option.bind_some, sends] at omits
    by_cases news : News env r key p
    · simp only [news, ↓reduceIte, Option.isNone_some, Bool.false_eq_true, reduceCtorEq] at omits
    · simp only [news, ↓reduceIte, Option.isNone_none, Option.some.injEq] at omits
      subst omits
      have known : RouteState.signature (routes r) key p = some (connBitmapSig bitmap) := by
        simpa [News] using news
      exact honest.records w p key seated bitmap lists known

/-- A discarded build is harmless if it has nothing new to record. -/
theorem discard_mild (x : Externals) (env : Env) (r : Relay) (att : WsAttachment) {p : PeerId}
    (stale : ¬ News env r att.groupKey p) : Mild r (r.buildFor x env att p).2 where
  seated seat listed := listed
  faded key q := by
    rw [buildFor_signature]
    by_cases own : att.groupKey = key ∧ p = q
    · obtain ⟨rfl, rfl⟩ := own
      have known : RouteState.signature (routes r) att.groupKey p =
          some (connBitmapSig (r.topology env att.groupKey p)) := by simpa [News] using stale
      rw [if_pos ⟨rfl, rfl⟩, known]
      exact Or.inl rfl
    · rw [if_neg own]
      exact Or.inl rfl
  logged := ⟨[], by simp [buildFor_snd], by simp⟩

def TurnTells (env : Env) (groupKey : GroupKey) (excludePeerId : PeerId) (r : Relay)
    (s : Socket) : Prop :=
  ∀ att ∈ s.attachment, att.peerId ≠ excludePeerId → att.groupKey = groupKey →
    TellsAll env r s.id groupKey att.peerId

instance (env : Env) (groupKey : GroupKey) (excludePeerId : PeerId) (r : Relay) (s : Socket) :
    Decidable (TurnTells env groupKey excludePeerId r s) :=
  inferInstanceAs (Decidable (∀ att ∈ s.attachment, _))

def BroadcastTells (x : Externals) (env : Env) (r : Relay) (groupKey : GroupKey)
    (excludePeerId : PeerId) : Prop :=
  EveryStep (broadcastTo x env groupKey excludePeerId) (TurnTells env groupKey excludePeerId) r
    r.room.sockets

instance (x : Externals) (env : Env) (r : Relay) (groupKey : GroupKey) (excludePeerId : PeerId) :
    Decidable (BroadcastTells x env r groupKey excludePeerId) :=
  inferInstanceAs (Decidable (EveryStep _ _ _ _))

theorem seat_of_mem {room : RelayRoom} {s : Socket} (listed : s ∈ room.sockets) {att : WsAttachment}
    (attached : s.attachment = some att) : (s.id, att.peerId, att.groupKey) ∈ seats room := by
  refine List.mem_map.mpr ⟨s, listed, ?_⟩
  simp [attached]

theorem broadcastTo_honest {x : Externals} {env : Env} {groupKey : GroupKey}
    {excludePeerId : PeerId} {r : Relay} {s : Socket} (honest : Honest r)
    (listed : s ∈ r.room.sockets) (tells : TurnTells env groupKey excludePeerId r s) :
    Honest (broadcastTo x env groupKey excludePeerId r s) := by
  unfold broadcastTo
  cases attached : s.attachment with
  | none => exact honest
  | some att =>
    simp only
    split
    · exact honest
    · rename_i included
      split
      · exact honest
      · rename_i same
        have named : att.groupKey = groupKey := by simpa using same
        obtain ⟨bytes, built⟩ := buildFor_eq x env r att att.peerId
        have seated := seat_of_mem listed attached
        have told := tells att attached included named
        rw [← named] at told
        rw [built]
        exact tell_honest honest seated told _

theorem broadcast_honest {x : Externals} {env : Env} {groupKey : GroupKey}
    {excludePeerId : PeerId} {r : Relay} (honest : Honest r)
    (tells : BroadcastTells x env r groupKey excludePeerId) :
    Honest (r.broadcastRouteUpdate x env groupKey excludePeerId) := by
  have listed : EveryStep (broadcastTo x env groupKey excludePeerId)
      (fun _ s => s ∈ r.room.sockets) r r.room.sockets := everyStep_of_forall fun s member => member
  have kept : Honest (run (broadcastTo x env groupKey excludePeerId) r r.room.sockets) ∧
      (run (broadcastTo x env groupKey excludePeerId) r r.room.sockets).room.sockets =
        r.room.sockets := by
    refine invariant_run (fun r' => Honest r' ∧ r'.room.sockets = r.room.sockets) ?_
      ⟨honest, rfl⟩ (everyStep_and tells listed)
    rintro r' s ⟨turn, member⟩ ⟨honest', sockets⟩
    rw [← sockets] at member
    exact ⟨broadcastTo_honest honest' member turn,
      (broadcastTo_quiet x env r' groupKey excludePeerId s).sockets.trans sockets⟩
  exact kept.1

theorem mild_of_reaches {x : Externals} {r r' : Relay} (room : r'.room = r.room)
    (reached : Reaches x NoBuild (routes r) (routes r')) : Mild r r' where
  seated seat listed := by rwa [room] at listed
  faded key p := reaches_faded reached key p
  logged := ⟨[], by rw [room, List.append_nil], by simp⟩

theorem send_mild (env : Env) (r : Relay) (w : SocketId) (frame : Bytes) (origin : Origin)
    (other : ∀ key p req topology, origin ≠ .routeUpdate key p req topology) :
    Mild r (r.send env w frame origin).2 where
  seated seat listed := listed
  faded key p := Or.inl rfl
  logged := by
    refine ⟨[⟨w, frame, env.sendOk r.room.sent.length, origin⟩], rfl, ?_⟩
    intro e listed
    rw [List.mem_singleton] at listed
    subst listed
    unfold updateOf
    split
    · rename_i key p req topology same
      exact absurd same (other key p req topology)
    · rfl

theorem forward_mild (env : Env) (r : Relay) (w : SocketId) (header : PacketHeader)
    (frame : Bytes) : Mild r (r.forwardMessage env w header frame).2 := by
  unfold Relay.forwardMessage
  split
  · exact Mild.refl r
  · simp only
    split
    · split
      · exact Mild.refl r
      · exact send_mild env r _ frame _ (by simp)
    · exact send_mild env r _ frame _ (by simp)

theorem handleRpcReqLocally_mild (x : Externals) (env : Env) (r : Relay) (att : WsAttachment)
    (payload : Bytes) : Mild r (r.handleRpcReqLocally x env att payload).2 := by
  refine mild_of_reaches (x := x) ?_ ?_
  · rfl
  rw [routes_handleRpcReqLocally]
  split
  · exact Reaches.refl _
  · rename_i body _
    have handled : NoBuild (syncCall env att body) := rfl
    exact ((appliedRoutes_reaches x env r att body).mono Plain.noBuild).trans (Reaches.call handled)

theorem onRpcResp_mild (x : Externals) (env : Env) (r : Relay) (w : SocketId) (att : WsAttachment)
    (header : PacketHeader) (payload frame : Bytes) :
    Mild r (r.onRpcResp x env w att header payload frame).2 := by
  unfold Relay.onRpcResp
  split
  · exact mild_of_reaches (x := x) rfl ((handleRpcResp_reaches x _ _ _ _ _).mono Plain.noBuild)
  · exact forward_mild env r w header frame

theorem registerPeer_mild (x : Externals) (env : Env) (r : Relay) (groupKey : GroupKey)
    (p : PeerId) : Mild r (r.registerPeer x env groupKey p) := by
  have joins : NoBuild ⟨groupKey, env.seed groupKey, .addPeer p⟩ := rfl
  exact mild_of_reaches (x := x) (registerPeer_room x env r groupKey p)
    ((Reaches.call joins).trans
      ((registerPeer_quiet x env r groupKey p).reached.mono Plain.noBuild))

theorem seats_attach {room : RelayRoom} {w w' : SocketId} {att : WsAttachment} {p : PeerId}
    {key : GroupKey} (seated : (w', p, key) ∈ seats (room.attach w att)) :
    (w' = w ∧ p = att.peerId ∧ key = att.groupKey) ∨ (w', p, key) ∈ seats room := by
  obtain ⟨t, listed, same⟩ := List.mem_map.mp seated
  obtain ⟨s, old, rfl⟩ := List.mem_map.mp listed
  by_cases here : s.id = w
  · left
    simp only [Socket.attachIf, here, ↓reduceIte, Option.getD_some, Prod.mk.injEq] at same
    exact ⟨same.1.symm, same.2.1.symm, same.2.2.symm⟩
  · right
    simp only [Socket.attachIf, here, ↓reduceIte] at same
    exact List.mem_map.mpr ⟨s, old, same⟩

/- The socket was sent whatever is recorded for this peer of this group. -/
def ToldRecord (r : Relay) (w : SocketId) (key : GroupKey) (p : PeerId) : Prop :=
  ∀ bitmap, bitmap.peerIds ≠ [] →
    RouteState.signature (routes r) key p = some (connBitmapSig bitmap) →
    Told r.room.sent w bitmap

theorem attach_honest {r : Relay} {w : SocketId} {att : WsAttachment} (honest : Honest r)
    (told : ToldRecord r w att.groupKey att.peerId) :
    Honest { r with room := r.room.attach w att } := by
  constructor
  · intro w' p key seated bitmap lists recorded
    rcases seats_attach seated with ⟨rfl, rfl, rfl⟩ | old
    · exact told bitmap lists recorded
    · exact honest.records w' p key old bitmap lists recorded
  · exact honest.omissions

theorem current_seat (env : Env) {r : Relay} {w : SocketId} (isOpen : r.room.isOpen w = true) :
    (w, (r.currentAttachment env w).peerId, (r.currentAttachment env w).groupKey) ∈
      seats r.room := by
  obtain ⟨s, listed, named⟩ := List.any_eq_true.mp isOpen
  obtain rfl : s.id = w := by simpa using named
  refine List.mem_map.mpr ⟨s, listed, ?_⟩
  simp only [Relay.currentAttachment, attachment_of_mem listed]

theorem writeBack_honest {env : Env} {w : SocketId} {outcome : Bool × WsAttachment × Relay}
    (honest : Honest outcome.2.2)
    (seated : outcome.1 = true →
      (w, outcome.2.1.peerId, outcome.2.1.groupKey) ∈ seats outcome.2.2.room) :
    Honest (Relay.writeBack env w outcome) := by
  obtain ⟨ok, att, after⟩ := outcome
  cases ok with
  | false => exact honest
  | true =>
    simp only [Relay.writeBack, Relay.serializeAttachment]
    split
    · exact attach_honest honest (honest.records w att.peerId att.groupKey (seated rfl))
    · exact honest

/- After the attachment the socket was sent what is recorded for it; and once the handshake
   is answered, the build that is thrown away has nothing to record. -/
def WelcomeTells (x : Externals) (env : Env) (r : Relay) (w : SocketId) (att : WsAttachment)
    (outcome : HandshakeOutcome) : Prop :=
  env.attachOk att = true →
    ToldRecord r w att.groupKey att.peerId ∧
    (env.sendOk r.room.sent.length = true →
      let registered := Relay.registerPeer x env { r with room := r.room.attach w att }
        outcome.groupKey outcome.peerId
      let answered := (registered.send env w outcome.responseBytes .handshakeResponse).2
      ¬ News env answered att.groupKey att.peerId ∧
        BroadcastTells x env (answered.buildFor x env att att.peerId).2 outcome.groupKey 0)

theorem welcome_honest {x : Externals} {env : Env} {r : Relay} {w : SocketId} {att : WsAttachment}
    {outcome : HandshakeOutcome} (honest : Honest r) (tells : WelcomeTells x env r w att outcome) :
    Honest (r.welcome x env w att outcome).2 := by
  unfold Relay.welcome Relay.serializeAttachment
  cases written : env.attachOk att with
  | false => exact honest
  | true =>
    obtain ⟨told, answers⟩ := tells written
    have attached := attach_honest honest told
    have registered := (registerPeer_mild x env { r with room := r.room.attach w att }
      outcome.groupKey outcome.peerId).honest attached
    have answered := (send_mild env (Relay.registerPeer x env
      { r with room := r.room.attach w att } outcome.groupKey outcome.peerId) w
      outcome.responseBytes .handshakeResponse (by simp)).honest registered
    cases sent : env.sendOk r.room.sent.length with
    | false =>
      have failed : ((Relay.registerPeer x env { r with room := r.room.attach w att }
          outcome.groupKey outcome.peerId).send env w outcome.responseBytes .handshakeResponse).1 =
            false := sent
      simp only [↓reduceIte]
      split
      · rename_i after outcome'
        rw [outcome'] at answered
        exact answered
      · rename_i after outcome'
        rw [outcome'] at failed
        cases failed
    | true =>
      obtain ⟨stale, broadcasts⟩ := answers sent
      simp only [↓reduceIte]
      split
      · rename_i after outcome'
        rw [outcome'] at answered
        exact answered
      · rename_i after outcome'
        simp only [outcome'] at answered stale broadcasts
        exact broadcast_honest ((discard_mild x env after att stale).honest answered) broadcasts

def ActionTells (x : Externals) (env : Env) (w : SocketId) (att : WsAttachment) (r : Relay) :
    RpcAction → Prop
  | .pushRouteUpdate p _ => TellsAll env r w att.groupKey p
  | .broadcastRouteUpdate groupKey excludePeerId => BroadcastTells x env r groupKey excludePeerId
  | _ => True

def ActionsTell (x : Externals) (env : Env) (w : SocketId) (att : WsAttachment) :
    List RpcAction → Relay → Prop
  | [], _ => True
  | action :: rest, r =>
    ActionTells x env w att r action ∧
      ((r.runAction x env w att action).1 = true →
        ActionsTell x env w att rest (r.runAction x env w att action).2)

theorem wrapPacket_plain (x : Externals) (fromPeerId toPeerId : PeerId) (kind : PacketType)
    (payload : Bytes) : ∃ packet, wrapPacket x fromPeerId toPeerId kind payload {} = some packet :=
  ⟨_, rfl⟩

theorem runAction_honest {x : Externals} {env : Env} {r : Relay} {w : SocketId}
    {att : WsAttachment} {action : RpcAction} (honest : Honest r)
    (seated : (w, att.peerId, att.groupKey) ∈ seats r.room)
    (own : ∀ p key, action = .pushRouteUpdate p key → p = att.peerId)
    (tells : ActionTells x env w att r action) : Honest (r.runAction x env w att action).2 := by
  cases action with
  | sendTo p bytes =>
    simp only [Relay.runAction]
    split
    · exact (send_mild env r w _ _ (by simp)).honest honest
    · exact honest
  | pushRouteUpdate p key =>
    obtain rfl := own p key rfl
    obtain ⟨bytes, built⟩ := buildFor_eq x env r att att.peerId
    obtain ⟨packet, wrapped⟩ := wrapPacket_plain x myPeerId att.peerId .rpcReq bytes
    simp only [Relay.runAction]
    rw [built]
    simp only [wrapped]
    exact tell_honest honest seated tells packet
  | broadcastRouteUpdate groupKey excludePeerId => exact broadcast_honest honest tells
  | none => exact honest

theorem runActions_honest {x : Externals} {env : Env} {w : SocketId} {att : WsAttachment}
    {actions : List RpcAction} {r : Relay} (honest : Honest r)
    (seated : (w, att.peerId, att.groupKey) ∈ seats r.room)
    (own : ∀ p key, .pushRouteUpdate p key ∈ actions → p = att.peerId)
    (tells : ActionsTell x env w att actions r) :
    Honest (Relay.runActions x env w att actions r).2 := by
  induction actions generalizing r with
  | nil => exact honest
  | cons action rest ih =>
    obtain ⟨first, later⟩ := tells
    have kept := runAction_honest honest seated
      (fun p key same => own p key (by simp [same])) first
    have sockets := (runAction_quiet x env r w att action).sockets
    unfold Relay.runActions
    split
    · rename_i after outcome
      rw [outcome] at kept
      exact kept
    · rename_i after outcome
      rw [outcome] at kept sockets later
      refine ih kept ?_ (fun p key listed => own p key (by simp [listed])) (later rfl)
      unfold seats at seated ⊢
      rwa [sockets]

def RequestTells (x : Externals) (env : Env) (r : Relay) (w : SocketId) (att : WsAttachment)
    (payload : Bytes) : Prop :=
  ActionsTell x env w att (r.handleRpcReqLocally x env att payload).1
    (r.handleRpcReqLocally x env att payload).2

theorem onRpcReq_honest {x : Externals} {env : Env} {r : Relay} {w : SocketId} {att : WsAttachment}
    {header : PacketHeader} {payload : Bytes} (frame : Bytes) (honest : Honest r)
    (seated : (w, att.peerId, att.groupKey) ∈ seats r.room)
    (tells : handledLocally header = true → RequestTells x env r w att payload) :
    Honest (r.onRpcReq x env w att header payload frame).2 := by
  unfold Relay.onRpcReq
  split
  · rename_i here
    refine runActions_honest ((handleRpcReqLocally_mild x env r att payload).honest honest) seated
      ?_ (tells here)
    intro p key pushed
    exact (handleRpcReq_own x _ _ _ _ _ _ pushed).1
  · exact (forward_mild env r w header frame).honest honest

theorem forget_mild (r : Relay) (w : SocketId) : Mild r { r with room := r.room.forget w } where
  seated seat listed := by
    obtain ⟨s, kept, same⟩ := List.mem_map.mp listed
    exact List.mem_map.mpr ⟨s, (List.mem_filter.mp kept).1, same⟩
  faded key p := Or.inl rfl
  logged := ⟨[], by simp [RelayRoom.forget], by simp⟩

def HandshakeTells (x : Externals) (env : Env) (r : Relay) (w : SocketId) (att : WsAttachment)
    (payload : Bytes) : Prop :=
  match handleHandshake x payload r.global.networkDigestRegistry with
  | (none, _) => True
  | (some outcome, registry) =>
    WelcomeTells x env { r with global := { r.global with networkDigestRegistry := registry } } w
      (attachOutcome att outcome) outcome

def MessageTells (x : Externals) (env : Env) (r : Relay) (w : SocketId) (bytes : Bytes)
    (header : PacketHeader) : Prop :=
  let att := r.currentAttachment env w
  let payload := bytes.drop headerSize
  match header.packetTypeEnum with
  | .handShake => HandshakeTells x env r w att payload
  | .rpcReq => handledLocally header = true → RequestTells x env r w att payload
  | _ => True

def LeaveTells (x : Externals) (env : Env) (r : Relay) (w : SocketId) : Prop :=
  ∀ att, LastConnection r w att →
    BroadcastTells x env (r.withManager ⟨RouteState.call x (routes r) (removeCall env att)⟩)
      att.groupKey att.peerId

/-- No step leaves a record behind that an open socket of its target was not told: see each
    case for what it may do. -/
def KeepsRecordsHonest (x : Externals) (r : Relay) (e : Env × RoomEvent) : Prop :=
  match e.2 with
  | .accept => RouteState.signature (routes r) "" 0 = none
  | .message w (.binary bytes) =>
    r.room.isOpen w = true → ∀ header, parseHeader bytes = some header →
      MessageTells x e.1 r w bytes header
  | .close w | .error w => LeaveTells x e.1 r w
  | .alarm =>
    EveryStep (fun r groupKey => r.broadcastRouteUpdate x e.1 groupKey 0)
      (fun r groupKey => BroadcastTells x e.1 r groupKey 0) (cleaned e.1 r) (scannedGroups e.1 r)
  | _ => True

theorem signature_fresh (key : GroupKey) (p : PeerId) :
    RouteState.signature RouteState.new key p = none := by
  simp [RouteState.signature, RouteState.new]

theorem rehydrate_mild (x : Externals) (env : Env) (r : Relay) : Mild r (r.new env) :=
  mild_of_reaches (x := x) rfl
    ((rehydrate_reaches x env r.room.sockets r.global).mono Enrolls.noBuild)

theorem seats_attach_self {room : RelayRoom} {w : SocketId} (isOpen : room.isOpen w = true)
    (att : WsAttachment) : (w, att.peerId, att.groupKey) ∈ seats (room.attach w att) := by
  obtain ⟨s, listed, named⟩ := List.any_eq_true.mp isOpen
  obtain rfl : s.id = w := by simpa using named
  refine List.mem_map.mpr ⟨s.attachIf s.id att, List.mem_map.mpr ⟨s, listed, rfl⟩, ?_⟩
  simp [Socket.attachIf]

theorem welcome_seat {x : Externals} {env : Env} {r : Relay} {w : SocketId} {att : WsAttachment}
    {outcome : HandshakeOutcome} (isOpen : r.room.isOpen w = true)
    (completed : (r.welcome x env w att outcome).1 = true) :
    (w, att.peerId, att.groupKey) ∈ seats (r.welcome x env w att outcome).2.room := by
  cases written : env.attachOk att with
  | false =>
    simp only [Relay.welcome, Relay.serializeAttachment, written] at completed
    cases completed
  | true =>
    have quiet := welcome_quiet x env r w att outcome written
    unfold seats
    rw [quiet.sockets, registerPeer_room]
    exact seats_attach_self isOpen att

theorem handshake_honest {x : Externals} {env : Env} {r : Relay} {w : SocketId}
    {att : WsAttachment} {payload : Bytes} (honest : Honest r) (isOpen : r.room.isOpen w = true)
    (seated : (w, att.peerId, att.groupKey) ∈ seats r.room)
    (tells : HandshakeTells x env r w att payload) :
    Honest (Relay.writeBack env w (r.onHandShake x env w att payload)) := by
  unfold Relay.onHandShake
  unfold HandshakeTells at tells
  cases handled : handleHandshake x payload r.global.networkDigestRegistry with
  | mk outcome registry =>
    rw [handled] at tells
    cases outcome with
    | none =>
      have refused : Mild r
          { r with
            room := { r.room with closing := r.room.closing ++ [w] }
            global := { r.global with networkDigestRegistry := registry } } :=
        ⟨fun _ listed => listed, fun _ _ => Or.inl rfl, [], by simp, by simp⟩
      exact writeBack_honest (refused.honest honest) fun _ => seated
    | some outcome =>
      have registered : Mild r
          { r with global := { r.global with networkDigestRegistry := registry } } :=
        ⟨fun _ listed => listed, fun _ _ => Or.inl rfl, [], by simp, by simp⟩
      exact writeBack_honest (welcome_honest (registered.honest honest) tells)
        fun completed => welcome_seat isOpen completed

theorem message_honest {x : Externals} {env : Env} {r : Relay} {w : SocketId} {bytes : Bytes}
    {header : PacketHeader} (honest : Honest r) (isOpen : r.room.isOpen w = true)
    (parsed : parseHeader bytes = some header) (tells : MessageTells x env r w bytes header) :
    Honest (r.websocketMessage x env w (.binary bytes)) := by
  have seated := current_seat env isOpen
  rw [websocketMessage_eq x env r w parsed]
  by_cases kind : header.packetTypeEnum = .handShake
  · simp only [MessageTells, kind] at tells
    simp only [Relay.dispatch, kind]
    exact handshake_honest honest isOpen seated tells
  · obtain ⟨sameAtt, quiet⟩ := dispatch_quiet x env r w (r.currentAttachment env w)
      (bytes.drop headerSize) bytes kind
    apply writeBack_honest
    · unfold Relay.dispatch
      cases packet : header.packetTypeEnum with
      | handShake => exact absurd packet kind
      | ping => exact (send_mild env r w _ _ (by simp)).honest honest
      | rpcReq =>
        simp only [MessageTells, packet] at tells
        exact onRpcReq_honest bytes honest seated tells
      | rpcResp => exact (onRpcResp_mild x env r w _ header _ bytes).honest honest
      | _ => exact (forward_mild env r w header bytes).honest honest
    · intro _
      rw [sameAtt]
      unfold seats
      rw [quiet.sockets]
      exact seated

theorem leave_honest {x : Externals} {env : Env} {r : Relay} {w : SocketId} (honest : Honest r)
    (tells : LeaveTells x env r w) :
    Honest { r.dropConnection x env w with room := (r.dropConnection x env w).room.forget w } := by
  refine (forget_mild _ w).honest ?_
  by_cases leaves : ∃ att, LastConnection r w att
  · obtain ⟨att, last⟩ := leaves
    rw [dropConnection_last x env last]
    have removes : NoBuild (removeCall env att) := rfl
    have removed := mild_of_reaches (x := x) (room_withManager r _) (Reaches.call removes)
    exact broadcast_honest (removed.honest honest) (tells att last)
  · rw [dropConnection_idle x env fun att last => leaves ⟨att, last⟩]
    exact honest

theorem accept_honest {env : Env} {r : Relay} (honest : Honest r)
    (unrecorded : RouteState.signature (routes r) "" 0 = none) : Honest (r.fetch env) := by
  constructor
  · intro w p key seated bitmap lists recorded
    simp only [seats, Relay.fetch, List.map_append, List.mem_append, List.map_cons, List.map_nil,
      List.mem_singleton] at seated
    rcases seated with old | new
    · exact honest.records w p key old bitmap lists recorded
    · have nobody : p = 0 ∧ key = "" := by
        simp only [Prod.mk.injEq] at new
        split at new
        · exact ⟨new.2.1, new.2.2⟩
        · exact ⟨new.2.1, new.2.2⟩
      obtain ⟨rfl, rfl⟩ := nobody
      have noted : RouteState.signature (routes r) "" 0 = some (connBitmapSig bitmap) := recorded
      rw [unrecorded] at noted
      cases noted
  · exact honest.omissions

/-- One event under the condition keeps records honest and leaves nothing unknown out. -/
theorem onEvent_honest {x : Externals} {r : Relay} {e : Env × RoomEvent} (honest : Honest r)
    (tells : KeepsRecordsHonest x r e) : Honest (r.onEvent x e) := by
  obtain ⟨env, e⟩ := e
  unfold Relay.onEvent
  cases e with
  | accept => exact accept_honest honest tells
  | message w message =>
    simp only [Relay.step]
    split
    · rename_i isOpen
      cases message with
      | text body => exact honest
      | binary bytes =>
        cases parsed : parseHeader bytes with
        | none =>
          simp only [Relay.websocketMessage, parsed]
          exact honest
        | some header => exact message_honest honest isOpen parsed (tells isOpen header parsed)
    · exact honest
  | close w =>
    simp only [Relay.step]
    split
    · exact leave_honest honest tells
    · exact honest
  | error w =>
    simp only [Relay.step]
    split
    · exact leave_honest honest tells
    · exact honest
  | alarm =>
    have swept : Mild r (cleaned env r) := by
      refine mild_of_quiet ((cleaned_quiet x env r).mono Plain.noBuild) ?_
      exact ⟨[], by rw [cleaned_room, List.append_nil]; rfl, by simp⟩
    simp only [Relay.step, alarm_eq]
    exact invariant_run Honest (fun r groupKey told kept => broadcast_honest kept told)
      (swept.honest honest) tells
  | rehydrate => exact (rehydrate_mild x env r).honest honest
  | restart =>
    have forgotten : Honest { r with global := GlobalStateInner.fresh } := by
      constructor
      · intro w p key seated bitmap lists recorded
        have noted : RouteState.signature RouteState.new key p = some (connBitmapSig bitmap) :=
          recorded
        rw [signature_fresh] at noted
        cases noted
      · exact honest.omissions
    exact (rehydrate_mild x env _).honest forgotten

theorem buildFor_topology (x : Externals) (env : Env) (r : Relay) (att : WsAttachment)
    (target : PeerId) (key : GroupKey) (p : PeerId) :
    (r.buildFor x env att target).2.topology env key p = r.topology env key p := by
  rw [topology_eq, topology_eq, buildFor_snd, routes_withManager]
  unfold RouteState.topologyOf
  by_cases named : att.groupKey = key
  · subst named
    obtain ⟨infos, sessions, kept⟩ := build_frame
      ((routes r).ensureGroup (env.seed att.groupKey) att.groupKey) env.nowMs target
      ((parseU64 (attachmentToCtx (env.randomU64 r.room.sent.length) att).serverSessionId).getD 0)
      att.weAreInitiator true
    have built : RouteState.call x (routes r) (buildCall env r att target) =
        (routes r).put att.groupKey
          { (routes r).ensureGroup (env.seed att.groupKey) att.groupKey with
            peerInfos := infos, sessions := sessions } := by
      rw [← kept]
      rfl
    rw [built, ensureGroup_put_self]
    rfl
  · have elsewhere : (RouteState.call x (routes r) (buildCall env r att target)).groups[key]? =
        (routes r).groups[key]? := groups_put_ne (routes r) _ named
    simp only [RouteState.ensureGroup, elsewhere]

theorem buildFor_stale {x : Externals} {env : Env} {r : Relay} {key : GroupKey} {p : PeerId}
    (stale : ¬ News env r key p) (att : WsAttachment) (target : PeerId) :
    ¬ News env (r.buildFor x env att target).2 key p := by
  unfold News at stale ⊢
  rw [not_not] at stale ⊢
  rw [buildFor_topology, buildFor_signature]
  split
  · rename_i own
    rw [own.1, own.2]
  · exact stale

theorem discard_stale (x : Externals) (env : Env) (r : Relay) (att : WsAttachment) (p : PeerId) :
    ¬ News env (r.buildFor x env att p).2 att.groupKey p := by
  unfold News
  rw [not_not, buildFor_topology, buildFor_signature, if_pos ⟨rfl, rfl⟩]

def AddsNoBitmap (w : SocketId) (before after : List Sent) : Prop :=
  ∃ added, after = before ++ added ∧ ∀ e ∈ added, e.socket = w → carried e = none

def AddsOmission (w : SocketId) (before after : List Sent) : Prop :=
  ∃ added, after = before ++ added ∧ ∃ e ∈ added, e.socket = w ∧ (omitted e).isSome = true

theorem AddsNoBitmap.trans {w : SocketId} {a b c : List Sent} (first : AddsNoBitmap w a b)
    (second : AddsNoBitmap w b c) : AddsNoBitmap w a c := by
  obtain ⟨added, rfl, silent⟩ := first
  obtain ⟨more, rfl, silent'⟩ := second
  refine ⟨added ++ more, by rw [List.append_assoc], ?_⟩
  intro e listed
  rcases List.mem_append.mp listed with early | late
  · exact silent e early
  · exact silent' e late

section Turn
variable {x : Externals} {env : Env} {w : SocketId} {att : WsAttachment} {r : Relay} {s : Socket}

theorem broadcastTo_stale (known : att.peerId ≠ 0) (stale : ¬ News env r att.groupKey att.peerId)
    (own : s.id = w → s.attachment = some att) :
    AddsNoBitmap w r.room.sent (broadcastTo x env att.groupKey 0 r s).room.sent ∧
      ¬ News env (broadcastTo x env att.groupKey 0 r s) att.groupKey att.peerId ∧
      (s.id = w → AddsOmission w r.room.sent (broadcastTo x env att.groupKey 0 r s).room.sent) := by
  have idle : AddsNoBitmap w r.room.sent r.room.sent := ⟨[], by simp, by simp⟩
  unfold broadcastTo
  cases attached : s.attachment with
  | none =>
    refine ⟨idle, stale, ?_⟩
    intro here
    rw [own here] at attached
    cases attached
  | some current =>
    simp only
    split
    · rename_i excluded
      refine ⟨idle, stale, ?_⟩
      intro here
      rw [own here] at attached
      cases attached
      exact absurd excluded known
    · split
      · rename_i other
        refine ⟨idle, stale, ?_⟩
        intro here
        rw [own here] at attached
        cases attached
        exact absurd rfl other
      · obtain ⟨bytes, built⟩ := buildFor_eq x env r current current.peerId
        rw [built]
        refine ⟨⟨[_], rfl, ?_⟩, buildFor_stale (x := x) stale current current.peerId, ?_⟩
        · intro e listed here
          rw [List.mem_singleton] at listed
          subst listed
          rw [own here] at attached
          cases attached
          have left := builtRequest_connInfo env r att att.peerId
          rw [if_neg stale] at left
          simp only [carried, updateOf, Option.bind_some, left]
        · intro here
          rw [own here] at attached
          cases attached
          have left := builtRequest_connInfo env r att att.peerId
          rw [if_neg stale] at left
          refine ⟨[_], rfl, _, List.mem_singleton.mpr rfl, here, ?_⟩
          simp [omitted, updateOf, left]

theorem broadcastLoop_stale (known : att.peerId ≠ 0) {sockets : List Socket}
    (own : ∀ s ∈ sockets, s.id = w → s.attachment = some att)
    (stale : ¬ News env r att.groupKey att.peerId) :
    AddsNoBitmap w r.room.sent (sockets.foldl (broadcastTo x env att.groupKey 0) r).room.sent ∧
      ((∃ s ∈ sockets, s.id = w) → AddsOmission w r.room.sent
        (sockets.foldl (broadcastTo x env att.groupKey 0) r).room.sent) := by
  induction sockets generalizing r with
  | nil => exact ⟨⟨[], by simp, by simp⟩, by simp⟩
  | cons s rest ih =>
    obtain ⟨silent, stale', omits⟩ := broadcastTo_stale (x := x) known stale (own s (by simp))
    obtain ⟨silentRest, omitsRest⟩ := ih (fun t listed => own t (by simp [listed])) stale'
    refine ⟨silent.trans silentRest, ?_⟩
    rintro ⟨t, listed, here⟩
    rcases List.mem_cons.mp listed with rfl | later
    · obtain ⟨added, log, e, member, omission⟩ := omits here
      obtain ⟨more, logRest, -⟩ := silentRest
      refine ⟨added ++ more, ?_, e, List.mem_append_left more member, omission⟩
      rw [List.foldl_cons, logRest, log, List.append_assoc]
    · obtain ⟨added, log, -⟩ := silent
      obtain ⟨more, logRest, e, member, omission⟩ := omitsRest ⟨t, later, here⟩
      refine ⟨added ++ more, ?_, e, List.mem_append_right added member, omission⟩
      rw [List.foldl_cons, logRest, log, List.append_assoc]

end Turn

/-- The update that a peer gets from the broadcast of its own handshake never carries a bitmap:
    the build that was thrown away has just recorded it. -/
theorem welcome_omits {x : Externals} {env : Env} {r : Relay} {w : SocketId} {att : WsAttachment}
    {outcome : HandshakeOutcome} (isOpen : r.room.isOpen w = true)
    (written : env.attachOk att = true) (answered : env.sendOk r.room.sent.length = true)
    (group : att.groupKey = outcome.groupKey) (known : att.peerId ≠ 0) :
    AddsNoBitmap w r.room.sent (r.welcome x env w att outcome).2.room.sent ∧
      AddsOmission w r.room.sent (r.welcome x env w att outcome).2.room.sent := by
  set registered := Relay.registerPeer x env { r with room := r.room.attach w att }
    outcome.groupKey outcome.peerId with registeredDef
  set replied := (registered.send env w outcome.responseBytes .handshakeResponse).2 with repliedDef
  set thrown := (replied.buildFor x env att att.peerId).2 with thrownDef
  have final : (r.welcome x env w att outcome).2 =
      thrown.broadcastRouteUpdate x env att.groupKey 0 := by
    have sent : registered.send env w outcome.responseBytes .handshakeResponse =
        (true, replied) := Prod.ext answered rfl
    simp only [Relay.welcome, Relay.serializeAttachment, written, ↓reduceIte, ← registeredDef, sent,
      group, thrownDef]
  have sockets : thrown.room.sockets = (r.room.attach w att).sockets := rfl
  have own : ∀ s ∈ thrown.room.sockets, s.id = w → s.attachment = some att := by
    intro s listed here
    rw [sockets] at listed
    have read := attachment_of_mem listed
    rw [here, attachment_attach isOpen, if_pos rfl] at read
    exact read.symm
  have present : ∃ s ∈ thrown.room.sockets, s.id = w := by
    obtain ⟨s, listed, named⟩ := List.any_eq_true.mp isOpen
    refine ⟨s.attachIf w att, List.mem_map.mpr ⟨s, listed, rfl⟩, ?_⟩
    simpa using named
  have reply : AddsNoBitmap w r.room.sent thrown.room.sent := by
    refine ⟨[_], rfl, ?_⟩
    intro e listed _
    rw [List.mem_singleton] at listed
    subst listed
    rfl
  obtain ⟨silent, omits⟩ := broadcastLoop_stale (x := x) known own
    (discard_stale x env replied att att.peerId)
  rw [final]
  refine ⟨reply.trans silent, ?_⟩
  obtain ⟨added, log, -⟩ := reply
  obtain ⟨more, logRest, e, member, omission⟩ := omits present
  refine ⟨added ++ more, ?_, e, List.mem_append_right added member, omission⟩
  rw [← List.append_assoc, ← log]
  exact logRest

/-- In a run whose steps keep the records honest, a bitmap is left out of a route update only
    if an earlier frame on the same socket carried it. -/
theorem bitmaps_omitted_only_if_told {x : Externals} {events : List (Env × RoomEvent)}
    (tells : EveryStep (Relay.onEvent x) (KeepsRecordsHonest x) Relay.initial events) :
    OmitsOnlyTold (Relay.run x Relay.initial events).room.sent := by
  have start : Honest Relay.initial := by
    constructor
    · intro w p key seated
      simp [seats, Relay.initial, RelayRoom.empty] at seated
    · intro before e after split
      simp [Relay.initial, RelayRoom.empty] at split
  have kept : Honest (run (Relay.onEvent x) Relay.initial events) :=
    invariant_run Honest (fun r e told honest => onEvent_honest honest told) start tells
  exact kept.omissions

structure Completes (x : Externals) (env : Env) (r : Relay) (w : SocketId) (att : WsAttachment)
    (payload : Bytes) (outcome : HandshakeOutcome) : Prop where
  isOpen : r.room.isOpen w = true
  accepted : (handleHandshake x payload r.global.networkDigestRegistry).1 = some outcome
  written : env.attachOk (attachOutcome att outcome) = true
  answered : env.sendOk r.room.sent.length = true
  known : outcome.peerId ≠ 0

/-- While every step keeps the records honest, only bitmaps that the socket was sent are left
    out. The broadcast of a completed handshake leaves the bitmap out for its own socket in any
    case, whether it was sent one or not. -/
theorem bitmap_delivery (x : Externals) :
    (∀ events, EveryStep (Relay.onEvent x) (KeepsRecordsHonest x) Relay.initial events →
      OmitsOnlyTold (Relay.run x Relay.initial events).room.sent) ∧
    ∀ env r w att payload outcome, Completes x env r w att payload outcome →
      let after := (r.onHandShake x env w att payload).2.2
      AddsNoBitmap w r.room.sent after.room.sent ∧ AddsOmission w r.room.sent after.room.sent := by
  refine ⟨fun events tells => bitmaps_omitted_only_if_told tells, ?_⟩
  intro env r w att payload outcome completes
  simp only [Relay.onHandShake, completes.accepted]
  exact welcome_omits (r := { r with global := { r.global with networkDigestRegistry :=
    (handleHandshake x payload r.global.networkDigestRegistry).2 } }) completes.isOpen
    completes.written completes.answered rfl completes.known

/- The answer to the handshake fails; two alarms later the peer was told once and is then
   spared the same bitmap. -/
def lateTelling : List (Env × RoomEvent) :=
  [(quietEnv 1000 1, .accept),
    ({ quietEnv 1001 101 with sendOk := fun _ => false }, .message 0 (greeting 5 "net" [0xaa])),
    (quietEnv 1002 201, .alarm), (quietEnv 1003 301, .alarm)]

theorem handshakeTells_unanswered {x : Externals} {env : Env} {r : Relay}
    (unrecorded : ∀ key p, RouteState.signature (routes r) key p = none)
    (unsent : env.sendOk r.room.sent.length = false) (w : SocketId) (att : WsAttachment)
    (payload : Bytes) : HandshakeTells x env r w att payload := by
  unfold HandshakeTells
  split
  · trivial
  · rename_i outcome _ _
    intro _
    constructor
    · intro bitmap _ recorded
      have nothing := unrecorded outcome.groupKey outcome.peerId
      cases nothing.symm.trans recorded
    · intro sent
      rw [unsent] at sent
      cases sent

def netGreeting : HandshakeRequest := ⟨magic, 5, protocolVersion, [], "net", [0xaa]⟩

theorem bitmap_delivery_of_peer_five :
    OmitsOnlyTold (Relay.run wire Relay.initial lateTelling).room.sent ∧
      let accepted := Relay.onEvent wire Relay.initial (quietEnv 1000 1, .accept)
      let after := (accepted.onHandShake wire (quietEnv 1001 101) 0 {}
        (handshakeRequest.write netGreeting)).2.2
      AddsNoBitmap 0 accepted.room.sent after.room.sent ∧
        AddsOmission 0 accepted.room.sent after.room.sent := by
  constructor
  · refine (bitmap_delivery wire).1 lateTelling ⟨?_, ?_, ?_, ?_, trivial⟩
    · exact signature_fresh "" 0
    · intro _ header parsed
      have kind : (parseHeader (frameOf .handShake 5 myPeerId
          (handshakeRequest.write netGreeting))).map (·.packetTypeEnum) = some .handShake := by
        decide
      have read : parseHeader (frameOf .handShake 5 myPeerId
          (handshakeRequest.write netGreeting)) = some header := parsed
      rw [read] at kind
      simp only [Option.map_some, Option.some.injEq] at kind
      simp only [MessageTells, kind]
      refine handshakeTells_unanswered ?_ rfl _ _ _
      exact signature_fresh
    · unfold KeepsRecordsHonest
      decide
    · unfold KeepsRecordsHonest
      decide
  · exact (bitmap_delivery wire).2 (quietEnv 1001 101) _ 0 {} _
      (handshakeOutcome wire netGreeting "aa")
      ⟨by decide, rfl, rfl, rfl, by decide⟩

/- A first handshake: its own build is thrown away, and the broadcast leaves the bitmap out. -/
def firstHandshake : List (Env × RoomEvent) :=
  quietly [.accept, .message 0 (greeting 5 "net" [0xaa])]

theorem first_handshake_omits_an_untold_bitmap :
    ¬ OmitsOnlyTold (Relay.run wire Relay.initial firstHandshake).room.sent := by
  intro told
  have untold : ∀ e ∈ (Relay.run wire Relay.initial firstHandshake).room.sent,
      carried e = none := by decide
  have final : (Relay.run wire Relay.initial firstHandshake).room.sent.getLast?.bind omitted =
      some ⟨[⟨5, 3⟩, ⟨myPeerId, 3⟩], [15]⟩ := by decide
  obtain ⟨last, isLast, omits⟩ := Option.bind_eq_some_iff.mp final
  obtain ⟨early, split⟩ := List.getLast?_eq_some_iff.mp isLast
  obtain ⟨e, listed, -, -, carries⟩ := told early last [] split _ omits
  rw [split] at untold
  rw [untold e (List.mem_append_left _ listed)] at carries
  cases carries

end RelayBitmapDelivery
