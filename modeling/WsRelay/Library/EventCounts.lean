import WsRelay.Library.Runs

/- A counter in a run: each event advances it, clears it or leaves it alone. The number of
   advances since the last clearing says its value, whatever it counts in. -/
namespace EventCounts
open TransitionRuns
variable {State Event Value : Type*}

inductive Tick where
  | counts | clears | idle
  deriving DecidableEq, Repr

def Tick.act (next : Value → Value) (start : Value) : Tick → Value → Value
  | .counts, value => next value
  | .clears, _ => start
  | .idle, value => value

/- The advances since the last clearing, counted on from `n`. -/
def countOn (step : State → Event → State) (tick : State → Event → Tick) :
    State → Nat → List Event → Nat
  | _, n, [] => n
  | s, n, e :: rest => countOn step tick (step s e) ((tick s e).act (· + 1) 0 n) rest

section Count
variable {step : State → Event → State} {tick : State → Event → Tick}

theorem countOn_append (s : State) (n : Nat) (before after : List Event) :
    countOn step tick s n (before ++ after) =
      countOn step tick (run step s before) (countOn step tick s n before) after := by
  induction before generalizing s n with
  | nil => rfl
  | cons e rest ih => exact ih (step s e) _

theorem le_countOn {s : State} {n : Nat} {events : List Event}
    (stays : EveryStep step (fun s e => tick s e ≠ .clears) s events) :
    n ≤ countOn step tick s n events := by
  induction events generalizing s n with
  | nil => exact Nat.le_refl n
  | cons e rest ih =>
    obtain ⟨here, later⟩ := stays
    have after := ih (n := (tick s e).act (· + 1) 0 n) later
    have first : n ≤ (tick s e).act (· + 1) 0 n := by
      cases ticked : tick s e with
      | counts => exact Nat.le_succ n
      | clears => exact absurd ticked here
      | idle => exact Nat.le_refl n
    exact Nat.le_trans first after

theorem countOn_all {s : State} {n : Nat} {events : List Event}
    (all : EveryStep step (fun s e => tick s e = .counts) s events) :
    countOn step tick s n events = n + events.length := by
  induction events generalizing s n with
  | nil => rfl
  | cons e rest ih =>
    rw [countOn, all.1, ih all.2, List.length_cons]
    simp only [Tick.act]
    omega

/-- A value that follows the ticks has been advanced as often as the count says. -/
theorem value_countOn {next : Value → Value} {start : Value} (value : State → Value)
    (follows : ∀ s e, value (step s e) = (tick s e).act next start (value s)) {s : State} {n : Nat}
    (counted : value s = next^[n] start) (events : List Event) :
    value (run step s events) = next^[countOn step tick s n events] start := by
  induction events generalizing s n with
  | nil => exact counted
  | cons e rest ih =>
    apply ih
    rw [follows, counted]
    cases tick s e with
    | counts => exact (Function.iterate_succ_apply' next n start).symm
    | clears => rfl
    | idle => rfl

end Count

/- A machine counter counts modulo its size. -/
theorem iterate_succ_uint32 (n : Nat) : (fun v : UInt32 => v + 1)^[n] 0 = UInt32.ofNat n := by
  induction n with
  | zero => rfl
  | succ n ih =>
    rw [Function.iterate_succ_apply', ih]
    exact (UInt32.ofNat_add n 1).symm

end EventCounts
