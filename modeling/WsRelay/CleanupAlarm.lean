import WsRelay.RoomMoves
import WsRelay.AlarmClock
import WsRelay.Library.Watchdog

/- The alarm in the storage of a room. A new connection arms it, the platform takes it away when
   it rings, and the handler arms it again while it finds sockets that it does not close. Over
   whole runs it is a watchdog over the sockets that the room has not closed. -/
namespace RelayCleanupAlarm
open RelayProtocol RelayRpcHandler RelayRoomModel RelayRouteOps RelayRoomSteps RelayMembership
open RelayWireFormats RelayAlarmClock RelayRoomMoves TransitionRuns

def cleanupIntervalMs : Nat := 30000

structure Platform where
  env : Env
  getAlarmOk : Bool
  setAlarmOk : Bool

structure DurableRoom where
  relay : Relay
  alarm : Option Nat

/- schedule_cleanup_alarm: nothing if an alarm is set, or if the storage fails. -/
def scheduleCleanupAlarm (platform : Platform) (alarm : Option Nat) : Option Nat :=
  if platform.getAlarmOk then
    match alarm with
    | some existing => some existing
    | none =>
      if platform.setAlarmOk then some (platform.env.nowMs.toNat + cleanupIntervalMs) else none
  else alarm

/- A failed write of the first attachment returns in front of the scheduling. -/
def DurableRoom.fetch (platform : Platform) (s : DurableRoom) : DurableRoom where
  relay := s.relay.fetch platform.env
  alarm :=
    if platform.env.attachOk (firstAttachment platform.env s.relay)
    then scheduleCleanupAlarm platform s.alarm else s.alarm

/- The alarm that rings is deleted before its handler runs. -/
def DurableRoom.ring (x : Externals) (platform : Platform) (s : DurableRoom) : DurableRoom where
  relay := s.relay.alarm x platform.env
  alarm :=
    if 0 < (alarmScan platform.env s.relay).aliveCount
    then scheduleCleanupAlarm platform none else none

def DurableRoom.rings (platform : Platform) (s : DurableRoom) : Bool :=
  s.alarm.any fun due => decide (due ≤ platform.env.nowMs.toNat)

/-- One event of a room together with its alarm, which rings only when it has come due. -/
def DurableRoom.step (x : Externals) (platform : Platform) (s : DurableRoom) :
    RoomEvent → DurableRoom
  | .accept => s.fetch platform
  | .alarm => if s.rings platform then s.ring x platform else s
  | e => { s with relay := s.relay.step x platform.env e }

def DurableRoom.initial : DurableRoom := ⟨Relay.initial, none⟩

structure TimedRoom where
  clock : Nat
  alarms : Nat
  room : DurableRoom

def countsAlarm (platform : Platform) (s : DurableRoom) : RoomEvent → Bool
  | .alarm => s.rings platform
  | _ => false

def TimedRoom.onEvent (x : Externals) (s : TimedRoom) (e : Platform × RoomEvent) : TimedRoom where
  clock := e.1.env.nowMs.toNat
  alarms := s.alarms + if countsAlarm e.1 s.room e.2 then 1 else 0
  room := s.room.step x e.1 e.2

def TimedRoom.run (x : Externals) (start : Nat) (events : List (Platform × RoomEvent)) :
    TimedRoom :=
  TransitionRuns.run (TimedRoom.onEvent x) ⟨start, 0, DurableRoom.initial⟩ events

def ClockForward (s : TimedRoom) (e : Platform × RoomEvent) : Prop :=
  s.clock ≤ e.1.env.nowMs.toNat

instance (s : TimedRoom) (e : Platform × RoomEvent) : Decidable (ClockForward s e) :=
  inferInstanceAs (Decidable (_ ≤ _))

/- An alarm for each full interval, and a pending one is an interval behind the last. -/
structure Paced (start : Nat) (s : TimedRoom) : Prop where
  rung : start + s.alarms * cleanupIntervalMs ≤ s.clock
  pending : ∀ due, s.room.alarm = some due → start + (s.alarms + 1) * cleanupIntervalMs ≤ due

theorem scheduled_cases (platform : Platform) (alarm : Option Nat) :
    scheduleCleanupAlarm platform alarm = alarm ∨
      scheduleCleanupAlarm platform alarm =
        some (platform.env.nowMs.toNat + cleanupIntervalMs) := by
  unfold scheduleCleanupAlarm
  split
  · cases alarm with
    | some existing => exact Or.inl rfl
    | none =>
      simp only
      split
      · exact Or.inr rfl
      · exact Or.inl rfl
  · exact Or.inl rfl

theorem rings_iff {platform : Platform} {s : DurableRoom} :
    s.rings platform = true ↔ ∃ due, s.alarm = some due ∧ due ≤ platform.env.nowMs.toNat := by
  unfold DurableRoom.rings
  cases s.alarm with
  | none => simp
  | some due => simp

theorem paced_step {x : Externals} {start : Nat} {s : TimedRoom} {e : Platform × RoomEvent}
    (forward : ClockForward s e) (paced : Paced start s) : Paced start (s.onEvent x e) := by
  obtain ⟨platform, e⟩ := e
  unfold ClockForward at forward
  simp only at forward
  have ticked := paced.rung
  have later : start + s.alarms * cleanupIntervalMs ≤ platform.env.nowMs.toNat := by omega
  have kept (alarm : Option Nat) (same : alarm = s.room.alarm ∨
      alarm = some (platform.env.nowMs.toNat + cleanupIntervalMs)) (due : Nat)
      (pending : alarm = some due) : start + (s.alarms + 1) * cleanupIntervalMs ≤ due := by
    rcases same with same | same
    · exact paced.pending due (same ▸ pending)
    · rw [same, Option.some.injEq] at pending
      rw [Nat.add_mul]
      omega
  cases e with
  | accept =>
    refine ⟨by simpa [TimedRoom.onEvent, countsAlarm] using later, ?_⟩
    simp only [TimedRoom.onEvent, countsAlarm, DurableRoom.step, DurableRoom.fetch]
    apply kept
    split
    · exact scheduled_cases platform s.room.alarm
    · exact Or.inl rfl
  | alarm =>
    cases rings : s.room.rings platform with
    | false =>
      refine ⟨by simpa [TimedRoom.onEvent, countsAlarm, rings] using later, ?_⟩
      simp only [TimedRoom.onEvent, countsAlarm, DurableRoom.step, rings]
      exact paced.pending
    | true =>
      obtain ⟨due, pending, reached⟩ := rings_iff.mp rings
      have before := paced.pending due pending
      have counted : start + (s.alarms + 1) * cleanupIntervalMs ≤ platform.env.nowMs.toNat := by
        omega
      refine ⟨by simpa [TimedRoom.onEvent, countsAlarm, rings] using counted, ?_⟩
      intro next scheduled
      simp only [TimedRoom.onEvent, countsAlarm, DurableRoom.step, rings, ↓reduceIte,
        DurableRoom.ring] at scheduled ⊢
      split at scheduled
      · rcases scheduled_cases platform none with same | same
        · rw [same] at scheduled
          cases scheduled
        · rw [same, Option.some.injEq] at scheduled
          rw [Nat.add_mul]
          omega
      · cases scheduled
  | _ =>
    refine ⟨by simpa [TimedRoom.onEvent, countsAlarm] using later, ?_⟩
    simp only [TimedRoom.onEvent, countsAlarm, DurableRoom.step]
    exact paced.pending

/- One peer joins and another socket stays silent; the alarm rings on time. -/
def platformAt (nowMs : Millis) (draw : UInt64) : Platform := ⟨quietEnv nowMs draw, true, true⟩

def watchedRun : List (Platform × RoomEvent) :=
  [(platformAt 1000 1, .accept), (platformAt 1001 101, .message 0 (greeting 5 "net" [0xaa])),
    (platformAt 2000 201, .accept), (platformAt 31000 301, .alarm),
    (platformAt 32000 401, .close 1)]

section Sockets
variable {x : Externals} {env : Env} {r r' : Relay} {w : SocketId}

def ClosesMore (r r' : Relay) : Prop := r.room.closing ⊆ r'.room.closing

theorem closesMore_of_eq (same : r'.room.closing = r.room.closing) : ClosesMore r r' := by
  unfold ClosesMore
  rw [same]
  exact List.Subset.refl _

theorem broadcast_closing (r : Relay) (groupKey : GroupKey) (excludePeerId : PeerId) :
    (r.broadcastRouteUpdate x env groupKey excludePeerId).room.closing = r.room.closing := by
  refine broadcast_invariant x env r (fun r' => r'.room.closing = r.room.closing) ?_ rfl
  intro r' s _ same
  exact (broadcastTo_closing x env r' groupKey excludePeerId s).trans same

theorem forward_closing (header : PacketHeader) (frame : Bytes) :
    (r.forwardMessage env w header frame).2.room.closing = r.room.closing := by
  unfold Relay.forwardMessage
  split
  · rfl
  · simp only
    split
    · split
      · rfl
      · rfl
    · rfl

theorem runActions_closing (att : WsAttachment) (actions : List RpcAction) (r : Relay) :
    (Relay.runActions x env w att actions r).2.room.closing = r.room.closing := by
  refine runActions_invariant x env r (fun r' => r'.room.closing = r.room.closing) ?_ rfl
  intro r' action _ same
  rw [← same]
  cases action with
  | sendTo p bytes =>
    obtain ⟨frame, sent⟩ := runAction_sends x env r' w att p bytes
    rw [sent]
    rfl
  | pushRouteUpdate p groupKey =>
    obtain ⟨frame, origin, pushed⟩ := runAction_pushes x env r' w att p groupKey
    rw [pushed]
    rfl
  | broadcastRouteUpdate groupKey excludePeerId => exact broadcast_closing r' groupKey excludePeerId
  | none => rfl

theorem welcome_closing (att : WsAttachment) (outcome : HandshakeOutcome) :
    (r.welcome x env w att outcome).2.room.closing = r.room.closing := by
  unfold Relay.welcome Relay.serializeAttachment
  cases env.attachOk att with
  | false => rfl
  | true =>
    simp only [↓reduceIte]
    split
    · rename_i sent
      exact (congrArg (·.2.room.closing) sent).symm
    · rename_i after sent
      have same : after.room.closing = r.room.closing := (congrArg (·.2.room.closing) sent).symm
      exact (broadcast_closing _ outcome.groupKey 0).trans same

theorem dispatch_closing (att : WsAttachment) (header : PacketHeader) (payload frame : Bytes) :
    (r.dispatch x env w att header payload frame).2.2.room.closing = r.room.closing ∨
      (r.dispatch x env w att header payload frame).2.2.room.closing = r.room.closing ++ [w] := by
  unfold Relay.dispatch
  split
  · simp only [Relay.onHandShake]
    split
    · exact Or.inr rfl
    · exact Or.inl (welcome_closing _ _)
  · exact Or.inl rfl
  · simp only [Relay.onRpcReq]
    split
    · exact Or.inl (runActions_closing att _ _)
    · exact Or.inl (forward_closing header frame)
  · simp only [Relay.onRpcResp]
    split
    · exact Or.inl rfl
    · exact Or.inl (forward_closing header frame)
  · exact Or.inl (forward_closing header frame)

theorem dispatch_closesMore (att : WsAttachment) (header : PacketHeader) (payload frame : Bytes) :
    ClosesMore r (r.dispatch x env w att header payload frame).2.2 := by
  rcases dispatch_closing att header payload frame with same | more
  · exact closesMore_of_eq same
  · unfold ClosesMore
    rw [more]
    exact List.subset_append_left _ _

theorem writeBack_closing (outcome : Bool × WsAttachment × Relay) :
    (Relay.writeBack env w outcome).room.closing = outcome.2.2.room.closing := by
  obtain ⟨ok, att, after⟩ := outcome
  cases ok with
  | false => rfl
  | true =>
    simp only [Relay.writeBack, Relay.serializeAttachment]
    split
    · rfl
    · rfl

theorem message_closesMore (message : IncomingMessage) :
    ClosesMore r (r.websocketMessage x env w message) := by
  cases message with
  | text body => exact closesMore_of_eq rfl
  | binary bytes =>
    cases parsed : parseHeader bytes with
    | none =>
      simp only [Relay.websocketMessage, parsed]
      exact closesMore_of_eq rfl
    | some header =>
      rw [websocketMessage_eq x env r w parsed]
      unfold ClosesMore
      rw [writeBack_closing]
      exact dispatch_closesMore _ header _ bytes

theorem drop_closing (r : Relay) (w : SocketId) :
    (r.dropConnection x env w).room.closing = r.room.closing := by
  by_cases leaves : ∃ att, LastConnection r w att
  · obtain ⟨att, last⟩ := leaves
    rw [dropConnection_last x env last, broadcast_closing]
    rfl
  · rw [dropConnection_idle x env fun att last => leaves ⟨att, last⟩]

theorem attach_again (room : RelayRoom) (att : WsAttachment) :
    ((room.attach w att).attach w att).sockets = (room.attach w att).sockets := by
  have same (s : Socket) : (s.attachIf w att).attachIf w att = s.attachIf w att := by
    unfold Socket.attachIf
    by_cases here : s.id = w
    · simp [here]
    · simp [here]
  simp only [RelayRoom.attach, List.map_map, Function.comp_def, same]

theorem attach_sockets_congr {room room' : RelayRoom} (same : room'.sockets = room.sockets)
    (w : SocketId) (att : WsAttachment) :
    (room'.attach w att).sockets = (room.attach w att).sockets :=
  congrArg (List.map fun s : Socket => s.attachIf w att) same

theorem writeBack_sockets (env : Env) (w : SocketId) (outcome : Bool × WsAttachment × Relay) :
    (Relay.writeBack env w outcome).room.sockets = outcome.2.2.room.sockets ∨
      (Relay.writeBack env w outcome).room.sockets =
        (outcome.2.2.room.attach w outcome.2.1).sockets := by
  obtain ⟨ok, att, after⟩ := outcome
  cases ok with
  | false => exact Or.inl rfl
  | true =>
    simp only [Relay.writeBack, Relay.serializeAttachment]
    split
    · exact Or.inr rfl
    · exact Or.inl rfl

theorem dispatch_sockets (att : WsAttachment) (header : PacketHeader) (payload frame : Bytes) :
    let out := r.dispatch x env w att header payload frame
    out.2.1.lastSeenMs = att.lastSeenMs ∧ (out.2.2.room.sockets = r.room.sockets ∨
      out.2.2.room.sockets = (r.room.attach w out.2.1).sockets) := by
  intro out
  by_cases kind : header.packetTypeEnum = .handShake
  · simp only [out, Relay.dispatch, kind, Relay.onHandShake]
    cases handleHandshake x payload r.global.networkDigestRegistry with
    | mk outcome registry =>
      cases outcome with
      | none => exact ⟨rfl, Or.inl rfl⟩
      | some outcome =>
        refine ⟨rfl, ?_⟩
        cases written : env.attachOk (attachOutcome att outcome) with
        | false => simp [Relay.welcome, Relay.serializeAttachment, written]
        | true => exact Or.inr (welcome_quiet x env { r with global := { r.global with
            networkDigestRegistry := registry } } w _ outcome written).sockets
  · obtain ⟨same, quiet⟩ := dispatch_quiet x env r w att payload frame kind
    exact ⟨congrArg _ same, Or.inl quiet.sockets⟩

theorem message_sockets (x : Externals) (env : Env) (r : Relay) (w : SocketId)
    (message : IncomingMessage) :
    (r.websocketMessage x env w message).room.sockets = r.room.sockets ∨
      ∃ att : WsAttachment, att.lastSeenMs = env.nowMs.toInt64 ∧
        (r.websocketMessage x env w message).room.sockets = (r.room.attach w att).sockets := by
  cases message with
  | text body => exact Or.inl rfl
  | binary bytes =>
    cases parsed : parseHeader bytes with
    | none => simp [Relay.websocketMessage, parsed]
    | some header =>
      rw [websocketMessage_eq x env r w parsed]
      set out := r.dispatch x env w (r.currentAttachment env w) header (bytes.drop headerSize) bytes
      obtain ⟨stamped, handled⟩ : out.2.1.lastSeenMs = env.nowMs.toInt64 ∧ _ :=
        dispatch_sockets (r.currentAttachment env w) header (bytes.drop headerSize) bytes
      have written := writeBack_sockets env w out
      rcases handled with same | attached
      · rcases written with kept | wrote
        · exact Or.inl (kept.trans same)
        · right
          refine ⟨out.2.1, stamped, ?_⟩
          exact wrote.trans (attach_sockets_congr same w out.2.1)
      · right
        refine ⟨out.2.1, stamped, ?_⟩
        rcases written with kept | wrote
        · exact kept.trans attached
        · rw [wrote, attach_sockets_congr attached, attach_again]

def Stamps (env : Env) (r r' : Relay) : Prop :=
  ∀ w att, r'.room.attachment w = some att → r.room.attachment w = some att ∨
    (att.lastSeenMs = env.nowMs.toInt64 ∧ r.room.isOpen w = true)

theorem stamps_of_sockets (same : r'.room.sockets = r.room.sockets) : Stamps env r r' := by
  intro w att attached
  left
  simpa only [RelayRoom.attachment, same] using attached

theorem message_stamps (isOpen : r.room.isOpen w = true) (message : IncomingMessage) :
    Stamps env r (r.websocketMessage x env w message) := by
  have written : _ ∨ ∃ att : WsAttachment, att.lastSeenMs = env.nowMs.toInt64 ∧
      (r.websocketMessage x env w message).room.sockets = (r.room.attach w att).sockets :=
    message_sockets x env r w message
  rcases written with same | ⟨att, stamped, wrote⟩
  · exact stamps_of_sockets same
  · intro w' att' attached
    have read : (r.room.attach w att).attachment w' = some att' := by
      simpa only [RelayRoom.attachment, wrote] using attached
    rw [attachment_attach isOpen] at read
    split at read
    · rename_i here
      obtain rfl := Option.some.inj read
      rw [here]
      exact Or.inr ⟨stamped, isOpen⟩
    · exact Or.inl read

theorem drop_sockets (r : Relay) (w : SocketId) :
    (r.dropConnection x env w).room.sockets = r.room.sockets := by
  by_cases leaves : ∃ att, LastConnection r w att
  · obtain ⟨att, last⟩ := leaves
    rw [dropConnection_last x env last, (broadcast_quiet x env _ _ _).sockets]
    rfl
  · rw [dropConnection_idle x env fun att last => leaves ⟨att, last⟩]

theorem forget_stamps (r : Relay) (w : SocketId) :
    Stamps env r { r.dropConnection x env w with
      room := (r.dropConnection x env w).room.forget w } := by
  intro w' att attached
  rw [attachment_forget] at attached
  split at attached
  · cases attached
  · have kept : Stamps env r (r.dropConnection x env w) := stamps_of_sockets (drop_sockets r w)
    exact kept w' att attached

/-- Every event but an accept or an alarm leaves the requests to close, and reads on each socket
    what was there or the time of the event. -/
theorem step_stamps (x : Externals) (env : Env) {e : RoomEvent} (other : e ≠ .accept)
    (quiet : e ≠ .alarm) (r : Relay) :
    ClosesMore r (r.step x env e) ∧ Stamps env r (r.step x env e) := by
  have idle : ClosesMore r r ∧ Stamps env r r := ⟨closesMore_of_eq rfl, stamps_of_sockets rfl⟩
  have leaves (w : SocketId) : ClosesMore r { r.dropConnection x env w with
      room := (r.dropConnection x env w).room.forget w } := closesMore_of_eq (drop_closing r w)
  cases e with
  | accept => exact absurd rfl other
  | alarm => exact absurd rfl quiet
  | message w message =>
    simp only [Relay.step]
    split
    · rename_i isOpen
      exact ⟨message_closesMore message, message_stamps isOpen message⟩
    · exact idle
  | close w =>
    simp only [Relay.step]
    split
    · exact ⟨leaves w, forget_stamps r w⟩
    · exact idle
  | error w =>
    simp only [Relay.step]
    split
    · exact ⟨leaves w, forget_stamps r w⟩
    · exact idle
  | rehydrate => exact ⟨closesMore_of_eq rfl, stamps_of_sockets rfl⟩
  | restart => exact ⟨closesMore_of_eq rfl, stamps_of_sockets rfl⟩

theorem fetch_attachment {att : WsAttachment}
    (attached : (r.fetch env).room.attachment w = some att) :
    r.room.attachment w = some att ∨ att = firstAttachment env r := by
  obtain ⟨s, listed, rfl, carries⟩ := mem_of_attachment attached
  rcases List.mem_append.mp listed with old | new
  · exact Or.inl ((attachment_of_mem old).trans carries)
  · right
    obtain rfl := List.mem_singleton.mp new
    simp only [Option.ite_none_right_eq_some, Option.some.injEq] at carries
    exact carries.2.symm

end Sockets

def limits : Watchdog.Limits where
  interval := cleanupIntervalMs
  timeout := 120000
  interval_nonneg := by simp
  timeout_nonneg := by simp

/- The sockets that the room has not closed, with the time on their attachments. -/
def watch (s : DurableRoom) : Watchdog.Watch SocketId where
  seen w :=
    if w ∈ s.relay.room.closing then none else (s.relay.room.attachment w).map lastSeen
  due := s.alarm.map fun due : Nat => (due : Int)

theorem watch_seen {s : DurableRoom} {w : SocketId} {a : Int} :
    (watch s).seen w = some a ↔ w ∉ s.relay.room.closing ∧
      ∃ att, s.relay.room.attachment w = some att ∧ lastSeen att = a := by
  simp only [watch, Option.ite_none_left_eq_some, Option.map_eq_some_iff]

def Stamped (r : Relay) : Prop :=
  ∀ w, r.room.isOpen w = true → ∃ att, r.room.attachment w = some att ∧ 0 < lastSeen att

def accepts : RoomEvent → Bool
  | .accept => true
  | _ => false

/- The clock runs forward within the range of an i64, the storage answers, and the attachment of
   a new connection is written. -/
def Reliable (s : TimedRoom) (e : Platform × RoomEvent) : Prop :=
  ClockForward s e ∧ 0 < e.1.env.nowMs.toNat ∧ e.1.env.nowMs.toNat < 2 ^ 63 ∧
    e.1.getAlarmOk = true ∧ e.1.setAlarmOk = true ∧
      (accepts e.2 = true → e.1.env.attachOk (firstAttachment e.1.env s.room.relay) = true)

instance (s : TimedRoom) (e : Platform × RoomEvent) : Decidable (Reliable s e) :=
  inferInstanceAs (Decidable (_ ≤ _ ∧ _))

def Punctual (delay : Nat) (s : TimedRoom) (e : Platform × RoomEvent) : Prop :=
  ∀ due ∈ s.room.alarm, e.1.env.nowMs.toNat ≤ due + delay

instance (delay : Nat) (s : TimedRoom) (e : Platform × RoomEvent) :
    Decidable (Punctual delay s e) := inferInstanceAs (Decidable (∀ due ∈ s.room.alarm, _))

theorem now_of_small {nowMs : Millis} (small : nowMs.toNat < 2 ^ 63) : now nowMs = nowMs.toNat := by
  have bits := reinterpreted nowMs.toInt64
  have same : nowMs.toInt64.toUInt64 = nowMs := rfl
  rw [same] at bits
  have low := nowMs.toInt64.le_toInt
  unfold now
  split at bits
  · omega
  · omega

section Watched
variable {x : Externals} {s : TimedRoom} {platform : Platform} {e : RoomEvent}

theorem lastSeen_stamped {att : WsAttachment} (small : platform.env.nowMs.toNat < 2 ^ 63)
    (stamped : att.lastSeenMs = platform.env.nowMs.toInt64) :
    lastSeen att = platform.env.nowMs.toNat := by
  rw [lastSeen, stamped]
  exact now_of_small small

theorem scheduled_reliable (reliable : Reliable s (platform, e)) (alarm : Option Nat) :
    scheduleCleanupAlarm platform alarm =
      some (alarm.getD (platform.env.nowMs.toNat + cleanupIntervalMs)) := by
  obtain ⟨-, -, -, reads, writes, -⟩ := reliable
  simp only at reads writes
  unfold scheduleCleanupAlarm
  rw [if_pos reads, if_pos writes]
  cases alarm with
  | none => rfl
  | some existing => rfl

theorem watch_accept (reliable : Reliable s (platform, .accept)) :
    Watchdog.Step limits platform.env.nowMs.toNat (watch s.room)
      (watch (s.room.step x platform .accept)) := by
  obtain ⟨-, -, small, -, -, written⟩ := id reliable
  have first := written rfl
  simp only at small first
  refine .enter ?_ ?_
  · intro w a seen
    obtain ⟨spared, att, attached, rfl⟩ := watch_seen.mp seen
    rcases fetch_attachment attached with old | rfl
    · exact Or.inl (watch_seen.mpr ⟨spared, att, old, rfl⟩)
    · exact Or.inr (lastSeen_stamped small rfl)
  · simp only [watch, DurableRoom.step, DurableRoom.fetch, first, ↓reduceIte,
      scheduled_reliable reliable]
    cases s.room.alarm with
    | none => rfl
    | some due => rfl

theorem not_late {nowMs : Millis} {att : WsAttachment} (small : nowMs.toNat < 2 ^ 63)
    (stamped : 0 < lastSeen att) (alive : timedOut nowMs att = false) :
    nowMs.toNat - lastSeen att ≤ 120000 := by
  have spared : ¬ timedOut nowMs att = true := by simp [alive]
  rw [timedOut_iff, now_of_small small] at spared
  by_contra old
  exact spared ⟨stamped, Or.inl (by omega)⟩

theorem watch_ring (reliable : Reliable s (platform, .alarm)) (stamped : Stamped s.room.relay) :
    Watchdog.Step limits platform.env.nowMs.toNat (watch s.room)
      (watch (s.room.ring x platform)) := by
  obtain ⟨-, -, small, -⟩ := id reliable
  simp only at small
  set r := s.room.relay with relayDef
  have sockets : (r.alarm x platform.env).room.sockets = r.room.sockets :=
    (alarm_quiet x platform.env r).sockets
  have closed : (r.alarm x platform.env).room.closing =
      r.room.closing ++ (r.room.sockets.filter (late platform.env.nowMs)).map (·.id) := by
    rw [alarm_eq, broadcasts_closing, cleaned_room]
    simp only [scanned, (scan_late platform.env.nowMs r.room.sockets {}).1, List.nil_append]
  have spares (w : SocketId) (a : Int) (seen : (watch (s.room.ring x platform)).seen w = some a) :
      ∃ sock ∈ r.room.sockets, sock.id = w ∧ late platform.env.nowMs sock = false ∧
        w ∉ r.room.closing ∧ ∃ att, sock.attachment = some att ∧ lastSeen att = a := by
    obtain ⟨spared, att, attached, rfl⟩ := watch_seen.mp seen
    have attached' : r.room.attachment w = some att := by
      simpa only [DurableRoom.ring, RelayRoom.attachment, ← relayDef, sockets] using attached
    obtain ⟨sock, listed, rfl, carries⟩ := mem_of_attachment attached'
    simp only [DurableRoom.ring, ← relayDef, closed, List.mem_append, not_or] at spared
    refine ⟨sock, listed, rfl, ?_, spared.1, att, carries, rfl⟩
    by_contra hot
    exact spared.2 (List.mem_map.mpr ⟨sock, List.mem_filter.mpr ⟨listed, by simpa using hot⟩, rfl⟩)
  refine .ring ?_ ?_ ?_
  · intro w a seen
    obtain ⟨sock, listed, rfl, cool, spared, att, carries, rfl⟩ := spares w a seen
    have attached : r.room.attachment sock.id = some att :=
      (attachment_of_mem listed).trans carries
    obtain ⟨att', attached', positive⟩ := stamped sock.id (isOpen_of_mem listed)
    rw [attached, Option.some.injEq] at attached'
    subst attached'
    refine ⟨watch_seen.mpr ⟨spared, att, attached, rfl⟩, not_late small positive ?_⟩
    simpa [late, carries] using cool
  · by_cases alive : 0 < (alarmScan platform.env r).aliveCount
    · left
      simp [watch, DurableRoom.ring, ← relayDef, alive, scheduled_reliable reliable, limits]
    · right
      intro w
      cases seen : (watch (s.room.ring x platform)).seen w with
      | none => rfl
      | some a =>
        obtain ⟨sock, listed, -, cool, -⟩ := spares w a seen
        have counted := (scan_late platform.env.nowMs r.room.sockets {}).2
        have kept : sock ∈ r.room.sockets.filter fun s => !late platform.env.nowMs s :=
          List.mem_filter.mpr ⟨listed, by simp [cool]⟩
        have some_kept := List.length_pos_of_mem kept
        simp only [alarmScan, counted] at alive
        omega
  · intro d pending
    simp only [watch, DurableRoom.ring, ← relayDef, scheduled_reliable reliable] at pending
    split at pending
    · simpa [limits] using pending.symm
    · cases pending

/-- Each event of a reliable room is a step of the watchdog. -/
theorem watch_step (reliable : Reliable s (platform, e)) (stamped : Stamped s.room.relay) :
    Watchdog.Step limits platform.env.nowMs.toNat (watch s.room)
      (watch (s.room.step x platform e)) := by
  obtain ⟨-, -, small, -⟩ := id reliable
  simp only at small
  have turns (r' : Relay) (more : ClosesMore s.room.relay r')
      (stamps : Stamps platform.env s.room.relay r') :
      Watchdog.Step limits platform.env.nowMs.toNat (watch s.room)
        (watch { s.room with relay := r' }) := by
    refine .turn ?_ rfl
    intro w a seen
    obtain ⟨spared, att, attached, rfl⟩ := watch_seen.mp seen
    have before : w ∉ s.room.relay.room.closing := fun closing => spared (more closing)
    rcases stamps w att attached with old | ⟨now, isOpen⟩
    · exact Or.inl (watch_seen.mpr ⟨before, att, old, rfl⟩)
    · right
      obtain ⟨att', attached', -⟩ := stamped w isOpen
      refine ⟨lastSeen_stamped small now, ?_⟩
      rw [watch_seen.mpr ⟨before, att', attached', rfl⟩]
      simp
  cases e with
  | accept => exact watch_accept reliable
  | alarm =>
    simp only [DurableRoom.step]
    split
    · exact watch_ring reliable stamped
    · exact turns s.room.relay (closesMore_of_eq rfl) (stamps_of_sockets rfl)
  | message w message =>
    obtain ⟨more, stamps⟩ := step_stamps x platform.env (e := .message w message) (by simp)
      (by simp) s.room.relay
    exact turns _ more stamps
  | close w =>
    obtain ⟨more, stamps⟩ := step_stamps x platform.env (e := .close w) (by simp) (by simp)
      s.room.relay
    exact turns _ more stamps
  | error w =>
    obtain ⟨more, stamps⟩ := step_stamps x platform.env (e := .error w) (by simp) (by simp)
      s.room.relay
    exact turns _ more stamps
  | rehydrate => exact turns _ (closesMore_of_eq rfl) (stamps_of_sockets rfl)
  | restart => exact turns _ (closesMore_of_eq rfl) (stamps_of_sockets rfl)

theorem stamped_of_sockets {r r' : Relay} (same : r'.room.sockets = r.room.sockets)
    (stamped : Stamped r) : Stamped r' := by
  intro w isOpen
  rw [isOpen_of_sockets same] at isOpen
  simpa only [RelayRoom.attachment, same] using stamped w isOpen

theorem stamped_accept (reliable : Reliable s (platform, .accept)) (stamped : Stamped s.room.relay) :
    Stamped (s.room.relay.fetch platform.env) := by
  obtain ⟨-, positive, small, -, -, written⟩ := reliable
  have first := written rfl
  simp only at positive small first
  intro w isOpen
  obtain ⟨sock, listed, named⟩ := List.any_eq_true.mp isOpen
  obtain rfl : sock.id = w := by simpa using named
  rw [attachment_of_mem listed]
  rcases List.mem_append.mp listed with old | new
  · rw [← attachment_of_mem old]
    exact stamped sock.id (isOpen_of_mem old)
  · obtain rfl := List.mem_singleton.mp new
    refine ⟨firstAttachment platform.env s.room.relay, if_pos first, ?_⟩
    rw [lastSeen_stamped small rfl]
    omega

theorem stamped_forget {r : Relay} (w : SocketId) (stamped : Stamped r) :
    Stamped { r with room := r.room.forget w } := by
  intro w' isOpen
  obtain ⟨other, before⟩ := isOpen_forget isOpen
  simp only [attachment_forget, other, ↓reduceIte]
  exact stamped w' before

theorem stamped_step (reliable : Reliable s (platform, e)) (stamped : Stamped s.room.relay) :
    Stamped (s.room.step x platform e).relay := by
  obtain ⟨-, positive, small, -⟩ := id reliable
  simp only at positive small
  have leaves (w : SocketId) : Stamped { s.room.relay.dropConnection x platform.env w with
      room := (s.room.relay.dropConnection x platform.env w).room.forget w } :=
    stamped_forget w (stamped_of_sockets (drop_sockets s.room.relay w) stamped)
  cases e with
  | accept => exact stamped_accept reliable stamped
  | alarm =>
    simp only [DurableRoom.step]
    split
    · exact stamped_of_sockets (alarm_quiet x platform.env s.room.relay).sockets stamped
    · exact stamped
  | message w message =>
    simp only [DurableRoom.step, Relay.step]
    split
    · rename_i isOpen
      rcases message_sockets x platform.env s.room.relay w message with same | ⟨att, now, wrote⟩
      · exact stamped_of_sockets same stamped
      · refine stamped_of_sockets
          (r := { s.room.relay with room := s.room.relay.room.attach w att }) wrote ?_
        intro w' opened
        simp only [attachment_attach isOpen, isOpen_attach] at opened ⊢
        split
        · refine ⟨att, rfl, ?_⟩
          rw [lastSeen_stamped small now]
          omega
        · exact stamped w' opened
    · exact stamped
  | close w =>
    simp only [DurableRoom.step, Relay.step]
    split
    · exact leaves w
    · exact stamped
  | error w =>
    simp only [DurableRoom.step, Relay.step]
    split
    · exact leaves w
    · exact stamped
  | rehydrate => exact stamped_of_sockets rfl stamped
  | restart => exact stamped_of_sockets rfl stamped

/- The invariant of reliable runs. The bound on the silence needs punctual alarms as well. -/
structure WellWatched (delay : Nat) (s : TimedRoom) : Prop where
  stamped : Stamped s.room.relay
  guarded : Watchdog.Guarded limits s.clock (watch s.room)
  recent : ∀ w a, (watch s.room).seen w = some a → s.clock ≤ a + 150000 + delay

theorem wellWatched_step {delay : Nat} {event : Platform × RoomEvent}
    (met : Reliable s event ∧ Punctual delay s event) (well : WellWatched delay s) :
    WellWatched delay (s.onEvent x event) := by
  obtain ⟨platform, e⟩ := event
  obtain ⟨reliable, punctual⟩ := met
  have step : Watchdog.Step limits platform.env.nowMs.toNat (watch s.room)
      (watch (s.room.step x platform e)) := watch_step reliable well.stamped
  have forward : (s.clock : Int) ≤ platform.env.nowMs.toNat := Int.ofNat_le.mpr reliable.1
  refine ⟨stamped_step reliable well.stamped,
    Watchdog.guarded_step well.guarded forward step, ?_⟩
  intro w a seen
  have reached (d : Int) (pending : (watch s.room).due = some d) :
      platform.env.nowMs.toNat ≤ d + delay := by
    obtain ⟨due, alarm, rfl⟩ := Option.map_eq_some_iff.mp pending
    exact_mod_cast punctual due alarm
  have bound := Watchdog.watched_step well.guarded reached step (Int.natCast_nonneg delay) seen
  simp only [TimedRoom.onEvent]
  simp only [limits, cleanupIntervalMs] at bound
  omega

end Watched

theorem wellWatched_start (delay start : Nat) :
    WellWatched delay ⟨start, 0, DurableRoom.initial⟩ where
  stamped := by
    intro w isOpen
    simp [DurableRoom.initial, Relay.initial, RelayRoom.empty, RelayRoom.isOpen] at isOpen
  guarded := by
    have nobody : watch DurableRoom.initial = ⟨fun _ => none, none⟩ := by
      simp [watch, DurableRoom.initial, Relay.initial, RelayRoom.empty, RelayRoom.attachment]
    rw [nobody]
    exact Watchdog.guarded_start _
  recent := by
    intro w a seen
    simp [watch, DurableRoom.initial, Relay.initial, RelayRoom.empty, RelayRoom.attachment] at seen

/-- In a reliable room an open socket that was not told to close was heard of at most two and a
    half minutes and the delay of an alarm ago, and an alarm is pending for it. -/
theorem silent_sockets_are_closed {x : Externals} {start delay : Nat}
    {events : List (Platform × RoomEvent)}
    (met : EveryStep (TimedRoom.onEvent x) (fun s e => Reliable s e ∧ Punctual delay s e)
      ⟨start, 0, DurableRoom.initial⟩ events) :
    let s := TimedRoom.run x start events
    ∀ sock ∈ s.room.relay.room.sockets, sock.id ∉ s.room.relay.room.closing →
      ∃ att due, sock.attachment = some att ∧ s.clock ≤ lastSeen att + 150000 + delay ∧
        s.room.alarm = some due ∧ due ≤ s.clock + cleanupIntervalMs := by
  intro s sock listed spared
  have well : WellWatched delay s := invariant_run (WellWatched delay)
    (fun _ _ met well => wellWatched_step met well) (wellWatched_start delay start) met
  obtain ⟨att, attached, -⟩ := well.stamped sock.id (isOpen_of_mem listed)
  have seen : (watch s.room).seen sock.id = some (lastSeen att) :=
    watch_seen.mpr ⟨spared, att, attached, rfl⟩
  obtain ⟨d, pending, -⟩ := well.guarded.armed _ _ seen
  have near := well.guarded.soon d pending
  obtain ⟨due, alarm, rfl⟩ := Option.map_eq_some_iff.mp pending
  refine ⟨att, due, ?_, well.recent _ _ seen, alarm, ?_⟩
  · rwa [attachment_of_mem listed] at attached
  · simp only [limits] at near
    omega

set_option maxRecDepth 8000 in
theorem watched_run_closes_silent_sockets :
    let s := TimedRoom.run wire 0 watchedRun
    ∀ sock ∈ s.room.relay.room.sockets, sock.id ∉ s.room.relay.room.closing →
      ∃ att due, sock.attachment = some att ∧ s.clock ≤ lastSeen att + 150000 + 0 ∧
        s.room.alarm = some due ∧ due ≤ s.clock + cleanupIntervalMs :=
  @silent_sockets_are_closed wire 0 0 watchedRun (by decide)

end RelayCleanupAlarm
