import WsRelay.StaleCleanup
import WsRelay.WireFormats

/- The timeout check of the alarm against exact ages. The signed age is compared as an
   unsigned number, so an attachment from the future counts as infinitely old. -/
namespace RelayAlarmClock
open RelayProtocol RelayRouteState RelayRpcHandler RelayRoomModel RelayRoomSteps RelayWireFormats
open RelayStaleCleanup

def now (nowMs : Millis) : Int := nowMs.toInt64.toInt

def lastSeen (att : WsAttachment) : Int := att.lastSeenMs.toInt

theorem reinterpreted (a : Int64) :
    (a.toUInt64.toNat : Int) = if a.toInt < 0 then a.toInt + 2 ^ 64 else a.toInt := by
  have bits : a.toInt = if 2 * a.toUInt64.toNat < 2 ^ 64 then (a.toUInt64.toNat : Int)
      else a.toUInt64.toNat - 2 ^ 64 := BitVec.toInt_eq_toNat_cond a.toBitVec
  have small := a.toUInt64.toNat_lt
  split at bits
  · rw [if_neg (by omega), bits]
  · rw [if_pos (by omega), bits]
    omega

theorem saturatingSub_toInt (a b : Int64) :
    (saturatingSubI64 a b).toInt = max (-2 ^ 63) (min (2 ^ 63 - 1) (a.toInt - b.toInt)) := by
  unfold saturatingSubI64
  simp only
  split
  · rw [Int64.toInt_ofInt_of_le (by omega) (by omega)]
    omega
  · split
    · rw [Int64.toInt_ofInt_of_le (by omega) (by omega)]
      omega
    · rw [Int64.toInt_ofInt_of_le (by omega) (by omega)]
      omega

/-- The check of the code: the exact age is too large, or it is negative. -/
theorem timedOut_iff (nowMs : Millis) (att : WsAttachment) :
    timedOut nowMs att = true ↔ 0 < lastSeen att ∧
      (120000 < now nowMs - lastSeen att ∨ now nowMs < lastSeen att) := by
  have seen : 0 < att.lastSeenMs ↔ 0 < lastSeen att := Int64.lt_iff_toInt_lt
  have age := saturatingSub_toInt nowMs.toInt64 att.lastSeenMs
  have unsigned := reinterpreted (saturatingSubI64 nowMs.toInt64 att.lastSeenMs)
  have limit : socketTimeoutMs.toNat = 120000 := by decide
  have clockBelow := nowMs.toInt64.toInt_lt
  have clockAbove := nowMs.toInt64.le_toInt
  have seenBelow := att.lastSeenMs.toInt_lt
  unfold timedOut
  rw [Bool.and_eq_true, decide_eq_true_eq, decide_eq_true_eq, seen, UInt64.lt_iff_toNat_lt, limit]
  unfold now lastSeen
  constructor
  · intro late
    refine ⟨late.1, ?_⟩
    have unsignedAge := late.2
    split at unsigned
    · omega
    · omega
  · intro late
    refine ⟨late.1, ?_⟩
    rcases late with ⟨positive, old | future⟩
    · split at unsigned
      · omega
      · omega
    · split at unsigned
      · omega
      · omega

def alarmScan (env : Env) (r : Relay) : AlarmScan := r.room.sockets.foldl (scanSocket env.nowMs) {}

def closedBy (x : Externals) (env : Env) (r : Relay) : List SocketId :=
  (r.alarm x env).room.closing.drop r.room.closing.length

def late (nowMs : Millis) (s : Socket) : Bool := s.attachment.any (timedOut nowMs)

theorem broadcastTo_closing (x : Externals) (env : Env) (r : Relay) (groupKey : GroupKey)
    (excludePeerId : PeerId) (s : Socket) :
    (broadcastTo x env groupKey excludePeerId r s).room.closing = r.room.closing := by
  rcases broadcastTo_cases x env r groupKey excludePeerId s with
    same | ⟨att, frame, origin, -, -, told⟩
  · rw [same]
  · rw [told]
    rfl

theorem broadcasts_closing (x : Externals) (env : Env) (groupKeys : List GroupKey) (r : Relay) :
    (groupKeys.foldl (fun r groupKey => r.broadcastRouteUpdate x env groupKey 0) r).room.closing =
      r.room.closing := by
  have toAll (groupKey : GroupKey) (r : Relay) :
      (r.broadcastRouteUpdate x env groupKey 0).room.closing = r.room.closing := by
    refine broadcast_invariant x env r
      (fun r' => r'.room.closing = r.room.closing) ?_ rfl
    intro r' s _ same
    exact (broadcastTo_closing x env r' groupKey 0 s).trans same
  induction groupKeys generalizing r with
  | nil => rfl
  | cons groupKey rest ih => exact (ih _).trans (toAll groupKey r)

theorem scanSocket_late (nowMs : Millis) (acc : AlarmScan) (s : Socket) :
    (scanSocket nowMs acc s).closed = acc.closed ++ (if late nowMs s then [s.id] else []) ∧
      (scanSocket nowMs acc s).aliveCount = acc.aliveCount + (if late nowMs s then 0 else 1) := by
  unfold scanSocket late
  cases s.attachment with
  | none => simp
  | some att =>
    by_cases timeout : timedOut nowMs att = true
    · simp [timeout]
    · simp [timeout]

theorem scan_late (nowMs : Millis) (sockets : List Socket) (acc : AlarmScan) :
    (sockets.foldl (scanSocket nowMs) acc).closed =
        acc.closed ++ (sockets.filter (late nowMs)).map (·.id) ∧
      (sockets.foldl (scanSocket nowMs) acc).aliveCount =
        acc.aliveCount + (sockets.filter fun s => !late nowMs s).length := by
  induction sockets generalizing acc with
  | nil => simp
  | cons s rest ih =>
    obtain ⟨closedHere, countedHere⟩ := scanSocket_late nowMs acc s
    obtain ⟨closed, counted⟩ := ih (scanSocket nowMs acc s)
    rw [List.foldl_cons, closed, counted, closedHere, countedHere]
    cases hot : late nowMs s with
    | true => simp [hot]
    | false =>
      simp [hot]
      omega

theorem closedBy_eq (x : Externals) (env : Env) (r : Relay) :
    closedBy x env r = (r.room.sockets.filter (late env.nowMs)).map (·.id) := by
  have scan := (scan_late env.nowMs r.room.sockets {}).1
  unfold closedBy
  rw [alarm_eq, broadcasts_closing, cleaned_room]
  simp only [scanned, scan, List.nil_append, List.drop_left]

theorem mem_closedBy {x : Externals} {env : Env} {r : Relay} {s : Socket}
    (listed : s ∈ r.room.sockets) : s.id ∈ closedBy x env r ↔ late env.nowMs s = true := by
  rw [closedBy_eq, List.mem_map]
  constructor
  · intro closed
    obtain ⟨other, hot, same⟩ := closed
    obtain ⟨listed', hot⟩ := List.mem_filter.mp hot
    have one := List.inj_on_of_nodup_map r.room.ids.distinct listed' listed same
    rwa [← one]
  · intro hot
    exact ⟨s, List.mem_filter.mpr ⟨listed, hot⟩, rfl⟩

structure AlarmExact (x : Externals) (env : Env) (r : Relay) : Prop where
  closes : ∀ s ∈ r.room.sockets, s.id ∈ closedBy x env r ↔ ∃ att, s.attachment = some att ∧
    0 < lastSeen att ∧ 120000 < now env.nowMs - lastSeen att
  alive : (alarmScan env r).aliveCount =
    (r.room.sockets.filter fun s => s.id ∉ closedBy x env r).length
  refreshed : ∀ s ∈ r.room.sockets, s.id ∉ closedBy x env r → ∀ att, s.attachment = some att →
    0 < lastSeen att → att.groupKey ≠ "" → att.groupKey ∈ scannedGroups env r

/- No attachment was written at a later reading of the clock. -/
def ClockAhead (env : Env) (r : Relay) : Prop :=
  ∀ s ∈ r.room.sockets, ∀ att, s.attachment = some att → 0 < lastSeen att →
    lastSeen att ≤ now env.nowMs

theorem alarm_alive (x : Externals) (env : Env) (r : Relay) :
    (alarmScan env r).aliveCount =
      (r.room.sockets.filter fun s => s.id ∉ closedBy x env r).length := by
  unfold alarmScan
  rw [(scan_late env.nowMs r.room.sockets {}).2, Nat.zero_add]
  congr 1
  apply List.filter_congr
  intro s listed
  rw [Bool.eq_iff_iff, decide_eq_true_eq, mem_closedBy listed]
  simp

theorem alarm_refreshes {x : Externals} {env : Env} {r : Relay} {s : Socket}
    (listed : s ∈ r.room.sockets) (survives : s.id ∉ closedBy x env r) {att : WsAttachment}
    (attached : s.attachment = some att) (seen : 0 < lastSeen att) (named : att.groupKey ≠ "") :
    att.groupKey ∈ scannedGroups env r := by
  rw [mem_closedBy listed, late, attached] at survives
  refine mem_scannedGroups.mpr ⟨s, listed, att, attached, ?_, ?_, rfl, named⟩
  · simpa using survives
  · exact Int64.lt_iff_toInt_lt.mpr seen

/-- The alarm is exact if and only if no attachment lies ahead of its clock. -/
theorem alarm_exact_iff (x : Externals) (env : Env) (r : Relay) :
    AlarmExact x env r ↔ ClockAhead env r := by
  constructor
  · intro exact s listed att attached seen
    by_contra future
    have closed : s.id ∈ closedBy x env r := by
      rw [mem_closedBy listed, late, attached, Option.any_some, timedOut_iff]
      exact ⟨seen, Or.inr (by omega)⟩
    obtain ⟨att', attached', -, old⟩ := (exact.closes s listed).mp closed
    rw [attached, Option.some.injEq] at attached'
    subst attached'
    omega
  · intro ahead
    refine ⟨?_, alarm_alive x env r, ?_⟩
    · intro s listed
      rw [mem_closedBy listed, late]
      cases attached : s.attachment with
      | none => simp
      | some att =>
        have before := ahead s listed att attached
        rw [Option.any_some, timedOut_iff]
        simp only [Option.some.injEq, exists_eq_left']
        constructor
        · intro hot
          have reached := before hot.1
          exact ⟨hot.1, by omega⟩
        · intro old
          exact ⟨old.1, Or.inl old.2⟩
    · intro s listed survives att attached seen named
      exact alarm_refreshes listed survives attached seen named

/- Peer 5 greets at 5000 ms; then the clock steps back, and the alarm rings at 4000 ms. -/
def greetedAhead : Relay :=
  Relay.run wire Relay.initial [(quietEnv 5000 1, .accept),
    (quietEnv 5000 101, .message 0 (greeting 5 "net" [0xaa]))]

theorem alarm_closes_a_live_socket : ¬ AlarmExact wire (quietEnv 4000 201) greetedAhead := by
  intro exact
  have hasty : greetedAhead.room.sockets.any (fun s => late 4000 s &&
      s.attachment.any fun att => decide (now 4000 < lastSeen att)) = true := by decide
  obtain ⟨s, listed, hot⟩ := List.any_eq_true.mp hasty
  rw [Bool.and_eq_true] at hot
  obtain ⟨att, attached, -, old⟩ := (exact.closes s listed).mp ((mem_closedBy listed).mpr hot.1)
  have future := hot.2
  rw [attached, Option.any_some, decide_eq_true_eq] at future
  have clock : (quietEnv 4000 201).nowMs = 4000 := rfl
  rw [clock] at old
  omega

end RelayAlarmClock
