import WsRelay.Membership
import WsRelay.WireFormats

/- Members against open sockets, over all runs of a room: no ghosts exactly while no seat is
   given up carelessly, no evictions ever, and one digest for each network name as long as the
   registry is not lost behind the sockets' backs. -/
namespace RelayLivePeers
open RelayProtocol RelayRouteState RelayPeerManager RelayRpcHandler RelayRoomModel RelayRouteOps
open RelayRoomSteps RelayMembership RelayWireFormats ConnectionDirectory TransitionRuns

def NoGhostPeers (r : Relay) : Prop :=
  ∀ groupKey p, p ∈ r.global.peerManager.listPeerIdsInGroup groupKey →
    ∃ s ∈ r.room.sockets, Carries s p groupKey

theorem noGhostPeers_iff {r : Relay} : NoGhostPeers r ↔ NoGhosts (directory r) := by
  constructor
  · intro clean groupKey p member
    exact sits_iff.mpr (clean groupKey p (mem_getPeerIdsInGroup.mpr member))
  · intro clean groupKey p listed
    exact sits_iff.mp (clean groupKey p (mem_getPeerIdsInGroup.mp listed))

theorem accept_fresh {x : Externals} {env : Env} {r : Relay} {e : RoomEvent} {w : SocketId}
    {seat : Option RoomSeat} (accepted : directoryEvent x env r e = .accept w seat) :
    (directory r).seat w = none ∧
      ∀ s, seat = some s → s.peer = blank.peer ∧ s.group = blank.group := by
  have kind : e = .accept := by
    cases e with
    | accept => rfl
    | message w' message =>
      cases message with
      | text body => simp [directoryEvent] at accepted
      | binary bytes =>
        simp only [directoryEvent] at accepted
        split at accepted
        · split at accepted
          · simp only [messageEvent] at accepted
            split at accepted <;> simp at accepted
          · simp at accepted
        · simp at accepted
    | close w' => simp only [directoryEvent] at accepted; split at accepted <;> simp at accepted
    | error w' => simp only [directoryEvent] at accepted; split at accepted <;> simp at accepted
    | _ => simp [directoryEvent] at accepted
  subst kind
  simp only [directoryEvent, Event.accept.injEq] at accepted
  obtain ⟨rfl, rfl⟩ := accepted
  refine ⟨by simp [directory, attachment_next], ?_⟩
  intro s taken
  obtain ⟨att, attached, rfl⟩ := Option.map_eq_some_iff.mp taken
  obtain ⟨t, listed, named, carries⟩ := mem_of_attachment attached
  simp only [Relay.fetch, List.mem_append, List.mem_singleton] at listed
  rcases listed with old | rfl
  · have below := r.room.ids.issued t old
    rw [named] at below
    exact absurd below (Nat.lt_irrefl _)
  · simp only [Option.ite_none_right_eq_some, Option.some.injEq] at carries
    rw [← carries.2]
    exact ⟨rfl, rfl⟩

def LeavesNoGhostPeer (x : Externals) (r : Relay) (e : Env × RoomEvent) : Prop :=
  LeavesNoGhost blank groupKeyOf (directory r) (directoryEvent x e.1 r e.2)

theorem noGhostPeers_step_iff {x : Externals} {r : Relay} (e : Env × RoomEvent)
    (clean : NoGhostPeers r) : NoGhostPeers (r.onEvent x e) ↔ LeavesNoGhostPeer x r e := by
  rw [noGhostPeers_iff] at clean ⊢
  unfold Relay.onEvent
  rw [directory_step]
  exact noGhosts_step_iff clean fun w seat accepted => (accept_fresh accepted).1

/-- A run shows no ghost in any of its states exactly if each of its events leaves none: an
    admitted handshake does not pull an attached socket away from the last seat of a member,
    and a close does not skip the removal of a member whose only socket it was. -/
theorem no_ghost_peers_iff (x : Externals) (events : List (Env × RoomEvent)) :
    (∀ before after, events = before ++ after →
        NoGhostPeers (Relay.run x Relay.initial before)) ↔
      EveryStep (Relay.onEvent x) (LeavesNoGhostPeer x) Relay.initial events := by
  refine invariant_iff ?_ fun r e clean => noGhostPeers_step_iff e clean
  intro groupKey p listed
  simp [Relay.initial, GlobalStateInner.fresh, PeerManager.new, RouteState.new,
    PeerManager.listPeerIdsInGroup, RouteState.getPeerIdsInGroup] at listed

/- A handshaken socket shakes hands again for another network. -/
def switchNetworks : List (Env × RoomEvent) :=
  quietly [.accept, .message 0 (greeting 5 "net" [0xaa]), .message 0 (greeting 5 "other" [0xbb])]

theorem switching_leaves_a_ghost :
    ¬ NoGhostPeers (Relay.run wire Relay.initial switchNetworks) := by
  intro clean
  obtain ⟨s, listed, carries⟩ := clean "net:aa" 5 (by decide)
  have only : (Relay.run wire Relay.initial switchNetworks).room.sockets =
      [⟨0, some
        { peerId := 5, groupKey := "other:bb", domainName := "other", serverSessionId := "1",
          lastSeenMs := 1002 }⟩] := by decide
  rw [only, List.mem_singleton] at listed
  obtain ⟨att, attached, -, group⟩ := carries
  rw [listed] at attached
  obtain rfl := Option.some.inj attached
  exact absurd group (by decide)

/- Attached sockets carry pairwise different server session ids. -/
def DistinctSessions (room : RelayRoom) : Prop :=
  room.sockets.Pairwise fun s t =>
    ∀ a ∈ s.attachment, ∀ b ∈ t.attachment, a.serverSessionId ≠ b.serverSessionId

instance (room : RelayRoom) : Decidable (DistinctSessions room) :=
  inferInstanceAs (Decidable (List.Pairwise _ _))

def LivePeersStay (r : Relay) : Prop :=
  ∀ s ∈ r.room.sockets, ∀ att, s.attachment = some att → att.peerId ≠ 0 →
    att.peerId ∈ r.global.peerManager.listPeerIdsInGroup att.groupKey

theorem livePeersStay_iff {r : Relay} : LivePeersStay r ↔ NoEvictions blank (directory r) := by
  constructor
  · intro live groupKey p known sits
    obtain ⟨s, listed, att, attached, rfl, rfl⟩ := sits_iff.mp sits
    exact mem_getPeerIdsInGroup.mp (live s listed att attached known)
  · intro live s listed att attached known
    exact mem_getPeerIdsInGroup.mpr
      (live att.groupKey att.peerId known (sits_iff.mpr ⟨s, listed, att, attached, rfl, rfl⟩))

theorem oneSessionEach {r : Relay} (distinct : DistinctSessions r.room) :
    OneSessionEach (directory r) := by
  intro w w' seat seat' seated seated' sameSession
  obtain ⟨a, attached, rfl⟩ := seat_some.mp seated
  obtain ⟨b, attached', rfl⟩ := seat_some.mp seated'
  obtain ⟨s, listed, rfl, carries⟩ := mem_of_attachment attached
  obtain ⟨t, listed', rfl, carries'⟩ := mem_of_attachment attached'
  by_contra apart
  have different : s ≠ t := fun same => apart (congrArg Socket.id same)
  have symmetric : Std.Symm fun s t : Socket =>
      ∀ a ∈ s.attachment, ∀ b ∈ t.attachment, a.serverSessionId ≠ b.serverSessionId :=
    ⟨fun s t apart b hb a ha => (apart a ha b hb).symm⟩
  exact distinct.forall listed listed' different a carries b carries' sameSession

theorem no_live_peer_evicted {x : Externals} {events : List (Env × RoomEvent)}
    (distinct : EveryStep (Relay.onEvent x) (fun r _ => DistinctSessions r.room) Relay.initial
      events) :
    LivePeersStay (Relay.run x Relay.initial events) := by
  refine invariant_run LivePeersStay ?_ ?_ distinct
  · intro r e sessions live
    rw [livePeersStay_iff] at live ⊢
    unfold Relay.onEvent
    rw [directory_step]
    refine noEvictions_step live (oneSessionEach sessions) ?_
    intro w s accepted
    exact ((accept_fresh accepted).2 s rfl).1
  · intro s listed
    simp [Relay.initial, RelayRoom.empty] at listed

/- The old socket of a reconnecting peer closes late, next to a rehydration. -/
def lateClose : List (Env × RoomEvent) :=
  quietly [.accept, .message 0 (greeting 5 "net" [0xaa]), .accept,
    .message 1 (greeting 5 "net" [0xaa]), .close 0, .rehydrate]

theorem late_close_keeps_the_peer :
    LivePeersStay (Relay.run wire Relay.initial lateClose) :=
  no_live_peer_evicted (by decide)

def OneDigestPerName (r : Relay) : Prop :=
  ∀ s ∈ r.room.sockets, ∀ t ∈ r.room.sockets, ∀ a b, s.attachment = some a →
    t.attachment = some b → Handshaken a → Handshaken b → a.domainName = b.domainName →
    a.groupKey = b.groupKey

def FoundsNameCleanly (x : Externals) (r : Relay) (e : Env × RoomEvent) : Prop :=
  FoundsName blank groupKeyOf (directory r) (directoryEvent x e.1 r e.2)

def RoomNamesAgree (r : Relay) : Prop := NamesAgree blank groupKeyOf (directory r)

theorem oneDigestPerName_of {r : Relay} (agree : RoomNamesAgree r) : OneDigestPerName r := by
  intro s listed t listed' a b attached attached' shaken shaken' sameName
  have seated : (directory r).seat s.id = some (seatOf a) :=
    seat_some.mpr ⟨a, (attachment_of_mem listed).trans attached, rfl⟩
  have seated' : (directory r).seat t.id = some (seatOf b) :=
    seat_some.mpr ⟨b, (attachment_of_mem listed').trans attached', rfl⟩
  exact agree.1 s.id t.id _ _ seated seated' shaken shaken' sameName

/-- As long as no handshake makes its digest the owner of a name under which sockets of another
    digest are still open, a name never has two groups. -/
theorem one_digest_per_name {x : Externals} {events : List (Env × RoomEvent)}
    (founds : EveryStep (Relay.onEvent x) (FoundsNameCleanly x) Relay.initial events) :
    OneDigestPerName (Relay.run x Relay.initial events) := by
  have agree : RoomNamesAgree (Relay.run x Relay.initial events) := by
    refine invariant_run RoomNamesAgree ?_ ?_ founds
    · intro r e cleanly agree
      unfold RoomNamesAgree Relay.onEvent at *
      rw [directory_step]
      refine namesAgree_step agree cleanly ?_
      intro w s accepted
      exact ((accept_fresh accepted).2 s rfl).2
    · constructor
      · intro w w' s s' seated
        simp [directory, Relay.initial, RelayRoom.empty, RelayRoom.attachment] at seated
      · intro w s secret seated
        simp [directory, Relay.initial, RelayRoom.empty, RelayRoom.attachment] at seated
  exact oneDigestPerName_of agree

theorem one_digest_for_two_members :
    OneDigestPerName (Relay.run wire Relay.initial lateClose) := by
  refine one_digest_per_name ⟨trivial, ?_, trivial, ?_, trivial, trivial, trivial⟩
  · intro unowned w s seated other named
    obtain ⟨att, attached, rfl⟩ := seat_some.mp seated
    obtain ⟨t, listed, -, carries⟩ := mem_of_attachment attached
    have blankOnly : ∀ t ∈ (Relay.onEvent wire Relay.initial (quietEnv 1000 1, .accept)).room.sockets,
        t.attachment = some { serverSessionId := "1", lastSeenMs := 1000 } := by decide
    have same := Option.some.inj (carries.symm.trans (blankOnly t listed))
    subst same
    exact absurd rfl named
  · intro unowned
    exact absurd unowned (by decide)

/- The isolate restarts under a connected member; the registry is empty again. -/
def forgottenDigest : List (Env × RoomEvent) :=
  quietly [.accept, .message 0 (greeting 5 "net" [0xaa]), .restart, .accept,
    .message 1 (greeting 6 "net" [0xbb])]

theorem restart_splits_a_network :
    ¬ OneDigestPerName (Relay.run wire Relay.initial forgottenDigest) := by
  intro agree
  let first : WsAttachment :=
    { peerId := 5, groupKey := "net:aa", domainName := "net", serverSessionId := "1",
      lastSeenMs := 1001 }
  let second : WsAttachment :=
    { peerId := 6, groupKey := "net:bb", domainName := "net", serverSessionId := "303",
      lastSeenMs := 1004 }
  have sockets : (Relay.run wire Relay.initial forgottenDigest).room.sockets =
      [⟨0, some first⟩, ⟨1, some second⟩] := by decide
  unfold OneDigestPerName at agree
  rw [sockets] at agree
  have same : first.groupKey = second.groupKey :=
    agree ⟨0, some first⟩ (by simp) ⟨1, some second⟩ (by simp) first second rfl rfl (by decide)
      (by decide) rfl
  exact absurd same (by decide)

end RelayLivePeers
