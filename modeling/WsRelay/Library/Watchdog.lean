import Mathlib

/- Watchdogs. One alarm looks after any number of parties: it is armed when somebody comes, it
   drops whoever has been silent for too long, and it is armed again while anybody is left. -/
namespace Watchdog
variable {Party : Type*}

structure Limits where
  interval : Int
  timeout : Int
  interval_nonneg : 0 ≤ interval
  timeout_nonneg : 0 ≤ timeout

/- When each party that is still watched was last seen, and when the pending alarm is due. -/
structure Watch (Party : Type*) where
  seen : Party → Option Int
  due : Option Int

variable {limits : Limits} {t u : Int} {s s' : Watch Party}

/-- What can happen at a reading of the clock. Parties may always leave. -/
inductive Step (limits : Limits) (t : Int) (s s' : Watch Party) : Prop
  | turn (known : ∀ i a, s'.seen i = some a → s.seen i = some a ∨ (a = t ∧ s.seen i ≠ none))
      (kept : s'.due = s.due)
  | enter (known : ∀ i a, s'.seen i = some a → s.seen i = some a ∨ a = t)
      (armed : s'.due = some (s.due.getD (t + limits.interval)))
  | ring (known : ∀ i a, s'.seen i = some a → s.seen i = some a ∧ t - a ≤ limits.timeout)
      (rearmed : s'.due = some (t + limits.interval) ∨ ∀ i, s'.seen i = none)
      (soon : ∀ d, s'.due = some d → d = t + limits.interval)

/- Whoever is watched has an alarm in front of it, and the next one is never far. -/
structure Guarded (limits : Limits) (t : Int) (s : Watch Party) : Prop where
  armed : ∀ i a, s.seen i = some a →
    ∃ d, s.due = some d ∧ d ≤ a + limits.timeout + limits.interval
  soon : ∀ d, s.due = some d → d ≤ t + limits.interval

theorem guarded_start (t : Int) : Guarded limits t (⟨fun _ => none, none⟩ : Watch Party) :=
  ⟨by simp, by simp⟩

theorem guarded_step (guarded : Guarded limits t s) (later : t ≤ u) (step : Step limits u s s') :
    Guarded limits u s' := by
  have patient := limits.timeout_nonneg
  cases step with
  | turn known kept =>
    constructor
    · intro i a seen
      rw [kept]
      rcases known i a seen with old | ⟨rfl, watched⟩
      · exact guarded.armed i a old
      · obtain ⟨b, before⟩ := Option.ne_none_iff_exists'.mp watched
        obtain ⟨d, pending, -⟩ := guarded.armed i b before
        have near := guarded.soon d pending
        exact ⟨d, pending, by omega⟩
    · intro d pending
      rw [kept] at pending
      have near := guarded.soon d pending
      omega
  | enter known armed =>
    have near : s.due.getD (u + limits.interval) ≤ u + limits.interval := by
      cases pending : s.due with
      | none => simp
      | some d =>
        have before := guarded.soon d pending
        rw [Option.getD_some]
        omega
    constructor
    · intro i a seen
      refine ⟨_, armed, ?_⟩
      rcases known i a seen with old | rfl
      · obtain ⟨d, pending, within⟩ := guarded.armed i a old
        rw [pending, Option.getD_some]
        exact within
      · omega
    · intro d pending
      rw [armed, Option.some.injEq] at pending
      omega
  | ring known rearmed soon =>
    constructor
    · intro i a seen
      rcases rearmed with armed | nobody
      · have recent := (known i a seen).2
        exact ⟨_, armed, by omega⟩
      · rw [nobody i] at seen
        cases seen
    · intro d pending
      rw [soon d pending]

/-- If alarms ring at most so much too late, nobody stays watched for longer than the timeout,
    one interval and that delay after it was last seen. -/
theorem watched_step {delay : Int} (guarded : Guarded limits t s)
    (punctual : ∀ d, s.due = some d → u ≤ d + delay) (step : Step limits u s s')
    (tolerant : 0 ≤ delay) {i : Party} {a : Int} (seen : s'.seen i = some a) :
    u ≤ a + limits.timeout + limits.interval + delay := by
  have patient := limits.timeout_nonneg
  have regular := limits.interval_nonneg
  have waiting (old : s.seen i = some a) : u ≤ a + limits.timeout + limits.interval + delay := by
    obtain ⟨d, pending, within⟩ := guarded.armed i a old
    have reached := punctual d pending
    omega
  cases step with
  | turn known kept =>
    rcases known i a seen with old | ⟨rfl, -⟩
    · exact waiting old
    · omega
  | enter known armed =>
    rcases known i a seen with old | rfl
    · exact waiting old
    · omega
  | ring known rearmed soon =>
    have recent := (known i a seen).2
    omega

end Watchdog
