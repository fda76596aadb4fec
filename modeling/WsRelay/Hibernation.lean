import WsRelay.LivePeers

/- Hibernation. A room object that the platform creates again over its open sockets finds every
   attached peer among the members, so that nothing happens: a run with wakeups is the same run
   without them. -/
namespace RelayHibernation
open RelayProtocol RelayRouteState RelayPeerManager RelayRpcHandler RelayRoomModel RelayRouteOps
open RelayRoomSteps RelayMembership RelayWireFormats RelayLivePeers ConnectionDirectory
open TransitionRuns

theorem livePeersStay_step {x : Externals} {env : Env} {r : Relay} (e : RoomEvent)
    (sessions : DistinctSessions r.room) (live : LivePeersStay r) :
    LivePeersStay (r.step x env e) := by
  rw [livePeersStay_iff] at live ⊢
  rw [directory_step]
  refine noEvictions_step live (oneSessionEach sessions) ?_
  intro w s accepted
  exact ((accept_fresh accepted).2 s rfl).1

theorem rehydrate_idle {env : Env} {gs : GlobalStateInner} {sockets : List Socket}
    (live : ∀ s ∈ sockets, ∀ att, s.attachment = some att → att.peerId ≠ 0 →
      att.peerId ∈ gs.peerManager.listPeerIdsInGroup att.groupKey) :
    sockets.foldl (rehydratePeer env) gs = gs := by
  induction sockets with
  | nil => rfl
  | cons s rest ih =>
    have first : rehydratePeer env gs s = gs := by
      unfold rehydratePeer
      cases attached : s.attachment with
      | none => rfl
      | some att =>
        simp only
        split
        · rfl
        · rename_i known
          exact if_pos (live s (by simp) att attached known)
    rw [List.foldl_cons, first]
    exact ih fun t listed => live t (by simp [listed])

theorem new_idle {env : Env} {r : Relay} (live : LivePeersStay r) : r.new env = r := by
  unfold Relay.new
  rw [rehydrate_idle live]

def isWakeup : RoomEvent → Bool
  | .rehydrate => true
  | _ => false

/-- As long as attached sockets have session ids of their own, wakeups change nothing: members,
    routes, attachments and every frame sent are those of the run without them. -/
theorem wakeups_change_nothing {x : Externals} {events : List (Env × RoomEvent)}
    (distinct : EveryStep (Relay.onEvent x) (fun r _ => DistinctSessions r.room) Relay.initial
      events) :
    Relay.run x Relay.initial events =
      Relay.run x Relay.initial (events.filter fun e => !isWakeup e.2) := by
  have same : Relay.run x Relay.initial events =
      Relay.run x Relay.initial (events.filter fun e => !isWakeup e.2) ∧
        LivePeersStay (Relay.run x Relay.initial events) := by
    refine filtered_run (fun r r' => r = r' ∧ LivePeersStay r) ?_ ?_ ⟨rfl, ?_⟩ distinct
    · intro r r' e sessions _ ⟨same, live⟩
      subst same
      exact ⟨rfl, livePeersStay_step e.2 sessions live⟩
    · intro r r' e sessions woken ⟨same, live⟩
      subst same
      have wakes : e.2 = .rehydrate := by
        obtain ⟨env, e⟩ := e
        cases e with
        | rehydrate => rfl
        | _ => simp [isWakeup] at woken
      have idle : r.onEvent x e = r := by
        rw [Relay.onEvent, wakes]
        exact new_idle live
      rw [idle]
      exact ⟨rfl, live⟩
    · intro s listed
      simp [Relay.initial, RelayRoom.empty] at listed
  exact same.1

def sleepyRun : List (Env × RoomEvent) :=
  quietly [.accept, .message 0 (greeting 5 "net" [0xaa]), .rehydrate, .accept,
    .message 1 (greeting 6 "net" [0xaa]), .restart, .rehydrate, .close 0]

set_option maxRecDepth 8000 in
theorem sleepy_run_without_wakeups :
    Relay.run wire Relay.initial sleepyRun =
      Relay.run wire Relay.initial (sleepyRun.filter fun e => !isWakeup e.2) :=
  wakeups_change_nothing (by decide)

end RelayHibernation
