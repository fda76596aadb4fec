import WsRelay.Library.Runs

/- Machines that put something out at each step. What a run puts out is the list of what its
   steps put out, each in the state that its event meets. -/
namespace OutputRuns
open TransitionRuns
variable {State Event Output : Type*}

def outputs (step : State → Event → State) (out : State → Event → List Output) :
    State → List Event → List Output
  | _, [] => []
  | s, e :: rest => out s e ++ outputs step out (step s e) rest

variable {step : State → Event → State} {out : State → Event → List Output}

theorem outputs_append (s : State) (before after : List Event) :
    outputs step out s (before ++ after) =
      outputs step out s before ++ outputs step out (run step s before) after := by
  induction before generalizing s with
  | nil => rfl
  | cons e rest ih => simp only [List.cons_append, outputs, run_cons, ih, List.append_assoc]

/-- A log that every step extends by its output is extended by the output of the run. -/
theorem logged_run (log : State → List Output)
    (logs : ∀ s e, log (step s e) = log s ++ out s e) (s : State) (events : List Event) :
    log (run step s events) = log s ++ outputs step out s events := by
  induction events generalizing s with
  | nil => simp [outputs]
  | cons e rest ih => rw [run_cons, ih, logs, outputs, List.append_assoc]

theorem filterMap_outputs {Seen : Type*} (see : Output → Option Seen) (s : State)
    (events : List Event) :
    (outputs step out s events).filterMap see =
      outputs step (fun s e => (out s e).filterMap see) s events := by
  induction events generalizing s with
  | nil => rfl
  | cons e rest ih => simp only [outputs, List.filterMap_append, ih]

theorem filter_outputs (keep : Output → Bool) (s : State) (events : List Event) :
    (outputs step out s events).filter keep =
      outputs step (fun s e => (out s e).filter keep) s events := by
  induction events generalizing s with
  | nil => rfl
  | cons e rest ih => simp only [outputs, List.filter_append, ih]

/-- Two outputs that agree entry by entry at each step do so over a whole run. -/
theorem outputs_forall₂ {Output' : Type*} {agree : Output → Output' → Prop}
    {out' : State → Event → List Output'}
    (each : ∀ s e, List.Forall₂ agree (out s e) (out' s e)) (s : State) (events : List Event) :
    List.Forall₂ agree (outputs step out s events) (outputs step out' s events) := by
  induction events generalizing s with
  | nil => exact .nil
  | cons e rest ih => exact List.rel_append (each s e) (ih (step s e))

theorem outputs_congr {out' : State → Event → List Output} (same : ∀ s e, out s e = out' s e)
    (s : State) (events : List Event) : outputs step out s events = outputs step out' s events := by
  induction events generalizing s with
  | nil => rfl
  | cons e rest ih => rw [outputs, outputs, same, ih]

/-- What puts out only parts of its input, in order, does so over a whole run. -/
theorem outputs_sublist {input : Event → List Output}
    (each : ∀ s e, List.Sublist (out s e) (input e)) (s : State) (events : List Event) :
    List.Sublist (outputs step out s events) (events.flatMap input) := by
  induction events generalizing s with
  | nil => exact List.Sublist.refl _
  | cons e rest ih =>
    rw [outputs, List.flatMap_cons]
    exact (each s e).append (ih (step s e))

/-- An invariant of the state and of all that has been put out so far. -/
theorem history_invariant (inv : List Output → State → Prop)
    (keeps : ∀ history s e, inv history s → inv (history ++ out s e) (step s e)) {s : State}
    {history : List Output} (start : inv history s) (events : List Event) :
    inv (history ++ outputs step out s events) (run step s events) := by
  induction events generalizing s history with
  | nil => simpa [outputs] using start
  | cons e rest ih =>
    rw [outputs, run_cons, ← List.append_assoc]
    exact ih (keeps history s e start)

/-- What every admitted step puts out where an invariant holds. -/
theorem outputs_all {ok : State → Event → Prop} (inv : State → Prop) {P : Output → Prop}
    (each : ∀ s e, ok s e → inv s → inv (step s e) ∧ ∀ o ∈ out s e, P o) {s : State}
    {events : List Event} (start : inv s) (all : EveryStep step ok s events) :
    ∀ o ∈ outputs step out s events, P o := by
  induction events generalizing s with
  | nil => simp [outputs]
  | cons e rest ih =>
    obtain ⟨kept, here⟩ := each s e all.1 start
    intro o listed
    rw [outputs] at listed
    rcases List.mem_append.mp listed with now | later
    · exact here o now
    · exact ih kept all.2 o later

/-- A bound on the output of the events of one kind, where the others put out nothing. -/
theorem countP_outputs {ok : State → Event → Prop} {p : Output → Bool} {kind : Event → Bool}
    {bound : Nat} (each : ∀ s e, ok s e → (out s e).countP p ≤ if kind e then bound else 0)
    {s : State} {events : List Event} (all : EveryStep step ok s events) :
    (outputs step out s events).countP p ≤ bound * events.countP kind := by
  induction events generalizing s with
  | nil => simp [outputs]
  | cons e rest ih =>
    have here := each s e all.1
    have later := ih all.2
    rw [outputs, List.countP_append, List.countP_cons, Nat.mul_add]
    split at here
    · rename_i counted
      rw [if_pos counted, Nat.mul_one]
      omega
    · rename_i skipped
      rw [if_neg skipped]
      omega

end OutputRuns
