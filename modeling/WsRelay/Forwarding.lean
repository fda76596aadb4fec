import WsRelay.WireFormats
import WsRelay.RoomSteps

/- Which socket a forwarded frame reaches. The first socket with the target's peer id decides,
   and the group test passes whenever one of the two sides has no group yet. -/
namespace RelayForwarding
open RelayProtocol RelayRouteState RelayPeerManager RelayRpcHandler RelayRoomModel RelayRoomSteps
open RelayWireFormats

/- The kinds of frame that websocket_message passes to forward_message. -/
def forwarded (header : PacketHeader) : Bool :=
  match header.packetTypeEnum with
  | .handShake | .ping => false
  | .rpcReq | .rpcResp => !handledLocally header
  | _ => true

def sentSince (before after : Relay) : List Sent := after.room.sent.drop before.room.sent.length

def blockedFrom (room : RelayRoom) (source : SocketId) (target : Socket) : Bool :=
  match room.attachment source, target.attachment with
  | some src, some att => groupMismatch src att
  | _, _ => false

def delivery (room : RelayRoom) (source : SocketId) (p : PeerId) : Option Socket :=
  (room.forwardTarget p).filter fun target => !blockedFrom room source target

theorem sentSince_forwardMessage (env : Env) (r : Relay) (w : SocketId) (header : PacketHeader)
    (frame : Bytes) :
    sentSince r (r.forwardMessage env w header frame).2 =
      ((delivery r.room w header.toPeerId).map fun target =>
        ⟨target.id, frame, env.sendOk r.room.sent.length, .forwarded w⟩).toList := by
  unfold Relay.forwardMessage delivery
  cases found : r.room.forwardTarget header.toPeerId with
  | none => simp [sentSince]
  | some target =>
    change sentSince r (if blockedFrom r.room w target = true then (true, r)
      else r.send env target.id frame (.forwarded w)).2 = _
    by_cases blocked : blockedFrom r.room w target = true
    · simp [blocked, sentSince]
    · simp [blocked, sentSince, Relay.send, Option.filter]

theorem dispatch_forwarded (x : Externals) (env : Env) (r : Relay) (w : SocketId)
    (att : WsAttachment) {header : PacketHeader} (payload frame : Bytes)
    (passes : forwarded header = true) :
    (r.dispatch x env w att header payload frame).2.2 = (r.forwardMessage env w header frame).2 := by
  unfold forwarded at passes
  unfold Relay.dispatch
  cases kind : header.packetTypeEnum with
  | handShake => simp [kind] at passes
  | ping => simp [kind] at passes
  | rpcReq =>
    have remote : handledLocally header = false := by simpa [kind] using passes
    simp [Relay.onRpcReq, remote]
  | rpcResp =>
    have remote : handledLocally header = false := by simpa [kind] using passes
    simp [Relay.onRpcResp, remote]
  | _ => rfl

/-- All that a forwarded frame causes: at most one send, of the unchanged frame. -/
theorem sentSince_websocketMessage (x : Externals) (env : Env) (r : Relay) (w : SocketId)
    {frame : Bytes} {header : PacketHeader} (parsed : parseHeader frame = some header)
    (passes : forwarded header = true) :
    sentSince r (r.websocketMessage x env w (.binary frame)) =
      ((delivery r.room w header.toPeerId).map fun target =>
        ⟨target.id, frame, env.sendOk r.room.sent.length, .forwarded w⟩).toList := by
  rw [← sentSince_forwardMessage]
  simp only [Relay.websocketMessage, parsed]
  have state := dispatch_forwarded x env r w (r.currentAttachment env w) (frame.drop headerSize)
    frame passes
  rw [← state]
  obtain ⟨ok, att, after⟩ :=
    r.dispatch x env w (r.currentAttachment env w) header (frame.drop headerSize) frame
  cases ok with
  | false => rfl
  | true => simp only [Relay.writeBack, sentSince, sent_serializeAttachment]

theorem not_blocked {room : RelayRoom} {w : SocketId} {target : Socket} {src att : WsAttachment}
    (source : room.attachment w = some src) (carries : target.attachment = some att) :
    blockedFrom room w target = false ↔
      src.groupKey = "" ∨ att.groupKey = "" ∨ src.groupKey = att.groupKey := by
  simp [blockedFrom, source, carries, groupMismatch, or_assoc, Decidable.imp_iff_not_or]

theorem forwardTarget_some {room : RelayRoom} {p : PeerId} {target : Socket}
    (found : room.forwardTarget p = some target) :
    target ∈ room.sockets ∧ ∃ att, target.attachment = some att ∧ att.peerId = p := by
  refine ⟨List.mem_of_find?_eq_some found, ?_⟩
  have carries := List.find?_some found
  cases attached : target.attachment with
  | none => simp [attached] at carries
  | some att => exact ⟨att, rfl, by simpa [attached] using carries⟩

theorem delivery_some {room : RelayRoom} {w : SocketId} {p : PeerId} {target : Socket} :
    delivery room w p = some target ↔
      room.forwardTarget p = some target ∧ blockedFrom room w target = false := by
  simp [delivery, Option.filter_eq_some_iff]

theorem delivery_blocked {room : RelayRoom} {w : SocketId} {p : PeerId} {target : Socket}
    (found : room.forwardTarget p = some target) (blocked : blockedFrom room w target = true) :
    delivery room w p = none := by
  simp [delivery, found, blocked, Option.filter]

/- A frame stays among sockets that shook hands for one group. -/
def ForwardIsolated (x : Externals) (env : Env) (r : Relay) (w : SocketId) (frame : Bytes) : Prop :=
  ∀ sent ∈ sentSince r (r.websocketMessage x env w (.binary frame)),
    ∃ src att, r.room.attachment w = some src ∧ r.room.attachment sent.socket = some att ∧
      Handshaken src ∧ Handshaken att ∧ src.groupKey = att.groupKey

/-- Forwarding keeps to the group exactly when the socket that it picks, if any, and the source
    have both shaken hands. -/
theorem forward_isolated_iff (x : Externals) (env : Env) (r : Relay) (w : SocketId)
    {frame : Bytes} {header : PacketHeader} (parsed : parseHeader frame = some header)
    (passes : forwarded header = true) :
    ForwardIsolated x env r w frame ↔
      ∀ target, r.room.forwardTarget header.toPeerId = some target →
        (∃ src, r.room.attachment w = some src ∧ Handshaken src) ∧
          ∃ att, target.attachment = some att ∧ Handshaken att := by
  unfold ForwardIsolated
  rw [sentSince_websocketMessage x env r w parsed passes]
  constructor
  · intro isolated target found
    obtain ⟨listed, att, carries, -⟩ := forwardTarget_some found
    cases blocked : blockedFrom r.room w target with
    | true =>
      cases source : r.room.attachment w with
      | none => simp [blockedFrom, source] at blocked
      | some src =>
        simp only [blockedFrom, source, carries, groupMismatch, Bool.and_eq_true] at blocked
        refine ⟨⟨src, rfl, ?_⟩, att, carries, ?_⟩
        · simpa [Handshaken] using blocked.1.1
        · simpa [Handshaken] using blocked.1.2
    | false =>
      have delivered := delivery_some.mpr ⟨found, blocked⟩
      obtain ⟨src, att', source, reached, srcShaken, attShaken, -⟩ :=
        isolated ⟨target.id, frame, env.sendOk r.room.sent.length, .forwarded w⟩ (by simp [delivered])
      rw [attachment_of_mem listed] at reached
      exact ⟨⟨src, source, srcShaken⟩, att', reached, attShaken⟩
  · intro shaken sent listed
    obtain ⟨target, delivered, rfl⟩ : ∃ target, delivery r.room w header.toPeerId =
        some target ∧ ⟨target.id, frame, env.sendOk r.room.sent.length, .forwarded w⟩ = sent := by
      simpa using listed
    obtain ⟨found, passing⟩ := delivery_some.mp delivered
    obtain ⟨⟨src, source, srcShaken⟩, att, carries, attShaken⟩ := shaken target found
    refine ⟨src, att, source, ?_, srcShaken, attShaken, ?_⟩
    · rw [attachment_of_mem (forwardTarget_some found).1]
      exact carries
    · rcases (not_blocked source carries).mp passing with empty | empty | same
      · exact absurd empty srcShaken
      · exact absurd empty attShaken
      · exact same

def attachedAs (id : SocketId) (p : PeerId) (groupKey : GroupKey) : Socket :=
  ⟨id, some { peerId := p, groupKey, domainName := "net", serverSessionId := id.repr }⟩

def roomOf (sockets : List Socket) (ids : IssuedIds sockets sockets.length) : Relay :=
  ⟨⟨sockets, sockets.length, [], [], ids⟩, GlobalStateInner.fresh⟩

theorem forward_isolated_between_members :
    ForwardIsolated wire (quietEnv 1 1)
      (roomOf [attachedAs 0 5 "net:aa", attachedAs 1 6 "net:aa"] ⟨by decide, by decide⟩) 0
      (frameOf .data 5 6 [1, 2]) := by
  have parsed : parseHeader (frameOf .data 5 6 [1, 2]) = some ⟨5, 6, 1, 0, 1, 0, 2⟩ := rfl
  refine (forward_isolated_iff wire (quietEnv 1 1) _ 0 parsed rfl).mpr ?_
  intro target found
  obtain rfl := Option.some.inj found
  exact ⟨⟨_, rfl, by decide⟩, _, rfl, by decide⟩

/- Socket 1 was accepted and never shook hands; its frame still reaches peer 5. -/
theorem stranger_injects_a_frame :
    ¬ ForwardIsolated wire (quietEnv 1 1)
      (roomOf [attachedAs 0 5 "net:aa", attachedAs 1 0 ""] ⟨by decide, by decide⟩) 1
      (frameOf .data 5 5 [1, 2]) := by
  intro isolated
  obtain ⟨src, att, source, -, shaken, -⟩ :=
    isolated ⟨0, frameOf .data 5 5 [1, 2], true, .forwarded 1⟩ (by decide)
  obtain rfl := Option.some.inj source
  exact shaken rfl

def ForwardDelivers (x : Externals) (env : Env) (r : Relay) (w : SocketId) (frame : Bytes)
    (p : PeerId) (groupKey : GroupKey) : Prop :=
  let sends := sentSince r (r.websocketMessage x env w (.binary frame))
  ((∃ s ∈ r.room.sockets, Carries s p groupKey) →
    ∃ s ∈ r.room.sockets, Carries s p groupKey ∧
      ∃ ok, sends = [⟨s.id, frame, ok, .forwarded w⟩]) ∧
  ((∀ s ∈ r.room.sockets, ¬ Carries s p groupKey) → sends = [])

theorem forwardTarget_none {room : RelayRoom} {p : PeerId} (absent : room.forwardTarget p = none)
    {s : Socket} (listed : s ∈ room.sockets) (groupKey : GroupKey) :
    ¬ Carries s p groupKey := by
  rintro ⟨att, attached, named, -⟩
  have passed := List.find?_eq_none.mp absent s listed
  simp [attached, named] at passed

/-- Delivery works exactly when the first socket with the target's peer id is in the source's
    group, or belongs to another group and nobody in the source's group has that peer id. -/
theorem forward_delivers_iff (x : Externals) (env : Env) (r : Relay) (w : SocketId)
    {frame : Bytes} {header : PacketHeader} {src : WsAttachment}
    (parsed : parseHeader frame = some header) (passes : forwarded header = true)
    (source : r.room.attachment w = some src) :
    ForwardDelivers x env r w frame header.toPeerId src.groupKey ↔
      ∀ target att, r.room.forwardTarget header.toPeerId = some target →
        target.attachment = some att →
        att.groupKey = src.groupKey ∨
          (src.groupKey ≠ "" ∧ att.groupKey ≠ "" ∧
            ∀ s ∈ r.room.sockets, ¬ Carries s header.toPeerId src.groupKey) := by
  unfold ForwardDelivers
  rw [sentSince_websocketMessage x env r w parsed passes]
  constructor
  · rintro ⟨present, absent⟩ target att found carries
    obtain ⟨listed, att', carries', named⟩ := forwardTarget_some found
    obtain rfl : att' = att := Option.some.inj (carries'.symm.trans carries)
    by_cases same : att'.groupKey = src.groupKey
    · exact Or.inl same
    right
    cases blocked : blockedFrom r.room w target with
    | true =>
      have nothing : delivery r.room w header.toPeerId = none := delivery_blocked found blocked
      have open' : src.groupKey ≠ "" ∧ att'.groupKey ≠ "" := by
        simp only [blockedFrom, source, carries, groupMismatch, Bool.and_eq_true] at blocked
        simpa using blocked.1
      refine ⟨open'.1, open'.2, ?_⟩
      intro s member attached
      obtain ⟨t, -, -, ok, sends⟩ := present ⟨s, member, attached⟩
      simp [nothing] at sends
    | false =>
      have delivered := delivery_some.mpr ⟨found, blocked⟩
      exfalso
      by_cases someone : ∃ s ∈ r.room.sockets, Carries s header.toPeerId src.groupKey
      · obtain ⟨s, member, ⟨other, attached, -, group⟩, ok, sends⟩ := present someone
        simp only [delivered, Option.map_some, Option.toList_some, List.cons.injEq,
          Sent.mk.injEq, and_true] at sends
        have sameSocket : r.room.attachment target.id = r.room.attachment s.id := by rw [sends.1]
        rw [attachment_of_mem listed, attachment_of_mem member, carries, attached] at sameSocket
        exact same ((congrArg WsAttachment.groupKey (Option.some.inj sameSocket)).trans group)
      · push Not at someone
        simpa [delivered] using absent someone
  · intro condition
    cases found : r.room.forwardTarget header.toPeerId with
    | none =>
      have nothing : delivery r.room w header.toPeerId = none := by simp [delivery, found]
      refine ⟨?_, fun _ => by simp [nothing]⟩
      rintro ⟨s, member, attached⟩
      exact absurd attached (forwardTarget_none found member _)
    | some target =>
      obtain ⟨listed, att, carries, named⟩ := forwardTarget_some found
      rcases condition target att found carries with same | ⟨srcGroup, attGroup, nobody⟩
      · have passing := (not_blocked source carries).mpr (Or.inr (Or.inr same.symm))
        have delivered := delivery_some.mpr ⟨found, passing⟩
        have reached : Carries target header.toPeerId src.groupKey :=
          ⟨att, carries, named, same⟩
        refine ⟨fun _ => ⟨target, listed, reached, env.sendOk r.room.sent.length, ?_⟩, ?_⟩
        · simp [delivered]
        · intro nobody
          exact absurd reached (nobody target listed)
      · have different : att.groupKey ≠ src.groupKey := by
          intro same
          exact nobody target listed ⟨att, carries, named, same⟩
        have blocked : blockedFrom r.room w target = true := by
          simp [blockedFrom, source, carries, groupMismatch, srcGroup, attGroup, different.symm]
        have nothing : delivery r.room w header.toPeerId = none := delivery_blocked found blocked
        refine ⟨?_, fun _ => by simp [nothing]⟩
        rintro ⟨s, member, attached⟩
        exact absurd attached (nobody s member)

/- Peer 5 of network net stands before its namesake of another network. -/
def namesakes : Relay :=
  roomOf [attachedAs 0 5 "net:aa", attachedAs 1 5 "other:bb", attachedAs 2 6 "net:aa"]
    ⟨by decide, by decide⟩

theorem forward_delivers_to_the_first_namesake :
    ForwardDelivers wire (quietEnv 1 1) namesakes 2 (frameOf .data 6 5 [9]) 5 "net:aa" := by
  have source : namesakes.room.attachment 2 = some
      { peerId := 6, groupKey := "net:aa", domainName := "net", serverSessionId := "2" } := by
    decide
  have parsed : parseHeader (frameOf .data 6 5 [9]) = some ⟨6, 5, 1, 0, 1, 0, 1⟩ := rfl
  refine (forward_delivers_iff wire (quietEnv 1 1) namesakes 2 parsed rfl source).mpr ?_
  intro target att found carries
  obtain rfl := Option.some.inj found
  obtain rfl := Option.some.inj carries
  exact Or.inl rfl

def reversedNamesakes : Relay :=
  roomOf [attachedAs 0 5 "other:bb", attachedAs 1 5 "net:aa", attachedAs 2 6 "net:aa"]
    ⟨by decide, by decide⟩

/- In the other order the frame is dropped, although peer 5 of the source's own network
   is connected. -/
theorem namesake_swallows_a_frame :
    ¬ ForwardDelivers wire (quietEnv 1 1) reversedNamesakes 2 (frameOf .data 6 5 [9]) 5
      "net:aa" := by
  rintro ⟨present, -⟩
  have nothing : sentSince reversedNamesakes (reversedNamesakes.websocketMessage wire (quietEnv 1 1)
      2 (.binary (frameOf .data 6 5 [9]))) = [] := by decide
  obtain ⟨s, -, -, ok, sends⟩ :=
    present ⟨attachedAs 1 5 "net:aa", by decide, _, rfl, rfl, rfl⟩
  rw [nothing] at sends
  exact absurd sends (by simp)

end RelayForwarding
