import Mathlib

/- Runs of a deterministic step function over a list of events. A condition on a run is
   a condition on each event in the state that it meets. -/
namespace TransitionRuns
variable {State Event : Type*}

def run (step : State → Event → State) (s : State) (events : List Event) : State :=
  events.foldl step s

def EveryStep (step : State → Event → State) (ok : State → Event → Prop) :
    State → List Event → Prop
  | _, [] => True
  | s, e :: rest => ok s e ∧ EveryStep step ok (step s e) rest

variable {step : State → Event → State} {ok : State → Event → Prop}

instance decidableEveryStep [∀ s e, Decidable (ok s e)] :
    ∀ (s : State) (events : List Event), Decidable (EveryStep step ok s events)
  | _, [] => isTrue trivial
  | s, e :: rest =>
    have := decidableEveryStep (step s e) rest
    inferInstanceAs (Decidable (ok s e ∧ EveryStep step ok (step s e) rest))

@[simp] theorem run_nil (s : State) : run step s [] = s := rfl

@[simp] theorem run_cons (s : State) (e : Event) (rest : List Event) :
    run step s (e :: rest) = run step (step s e) rest := rfl

theorem run_append (s : State) (before after : List Event) :
    run step s (before ++ after) = run step (run step s before) after :=
  List.foldl_append

theorem everyStep_append (s : State) (before after : List Event) :
    EveryStep step ok s (before ++ after) ↔
      EveryStep step ok s before ∧ EveryStep step ok (run step s before) after := by
  induction before generalizing s with
  | nil => simp [EveryStep]
  | cons e rest ih => simp only [List.cons_append, EveryStep, run_cons, ih, and_assoc]

/-- A condition on every event of a run, with the states in front of it spelled out. -/
theorem everyStep_iff_splits (s : State) (events : List Event) :
    EveryStep step ok s events ↔
      ∀ before e after, events = before ++ e :: after → ok (run step s before) e := by
  induction events generalizing s with
  | nil => simp [EveryStep]
  | cons first rest ih =>
    constructor
    · intro all before e after split
      cases before with
      | nil =>
        obtain ⟨rfl, -⟩ := List.cons.inj split
        exact all.1
      | cons head before =>
        obtain ⟨rfl, tail⟩ := List.cons.inj split
        exact (ih _).mp all.2 before e after tail
    · intro always
      refine ⟨always [] first rest rfl, (ih _).mpr ?_⟩
      intro before e after split
      exact always (first :: before) e after (by rw [split, List.cons_append])

/-- Along a simulation that maps the events, a condition can be checked on either side. -/
theorem everyStep_map {State' Event' : Type*} {step' : State' → Event' → State'}
    {ok' : State' → Event' → Prop} (state : State → State') (event : Event → Event')
    (simulates : ∀ s e, state (step s e) = step' (state s) (event e)) (s : State)
    (events : List Event) :
    EveryStep step' ok' (state s) (events.map event) ↔
      EveryStep step (fun s e => ok' (state s) (event e)) s events := by
  induction events generalizing s with
  | nil => rfl
  | cons e rest ih =>
    simp only [List.map_cons, EveryStep]
    rw [← simulates, ih]

theorem everyStep_mono {weaker : State → Event → Prop} (imp : ∀ s e, ok s e → weaker s e)
    {s : State} {events : List Event} (all : EveryStep step ok s events) :
    EveryStep step weaker s events := by
  induction events generalizing s with
  | nil => trivial
  | cons e rest ih => exact ⟨imp s e all.1, ih all.2⟩

theorem everyStep_true (s : State) (events : List Event) :
    EveryStep step (fun _ _ => True) s events := by
  induction events generalizing s with
  | nil => trivial
  | cons e rest ih => exact ⟨trivial, ih (step s e)⟩

theorem everyStep_of_forall {good : Event → Prop} {s : State} {events : List Event}
    (all : ∀ e ∈ events, good e) : EveryStep step (fun _ e => good e) s events := by
  induction events generalizing s with
  | nil => trivial
  | cons e rest ih => exact ⟨all e (by simp), ih fun later listed => all later (by simp [listed])⟩

/-- Two conditions that agree where the invariant holds hold along the same runs, if the first
    one keeps the invariant. -/
theorem everyStep_congr {same : State → Event → Prop} (inv : State → Prop)
    (agree : ∀ s e, inv s → (ok s e ↔ same s e)) (keeps : ∀ s e, ok s e → inv s → inv (step s e))
    {s : State} {events : List Event} (start : inv s) :
    EveryStep step ok s events ↔ EveryStep step same s events := by
  induction events generalizing s with
  | nil => rfl
  | cons e rest ih =>
    have here := agree s e start
    constructor
    · intro all
      exact ⟨here.mp all.1, (ih (keeps s e all.1 start)).mp all.2⟩
    · intro all
      have first := here.mpr all.1
      exact ⟨first, (ih (keeps s e first start)).mpr all.2⟩

theorem everyStep_ends {met : State → Prop} {s : State} {events : List Event} {last : Event}
    (all : EveryStep step (fun s _ => met s) s (events ++ [last])) :
    EveryStep step (fun s e => met s ∧ met (step s e)) s events := by
  induction events generalizing s with
  | nil => trivial
  | cons e rest ih =>
    obtain ⟨here, later⟩ := all
    refine ⟨⟨here, ?_⟩, ih later⟩
    cases rest with
    | nil => exact later.1
    | cons next rest => exact later.1

theorem everyStep_and {also : State → Event → Prop} {s : State} {events : List Event}
    (all : EveryStep step ok s events) (more : EveryStep step also s events) :
    EveryStep step (fun s e => ok s e ∧ also s e) s events := by
  induction events generalizing s with
  | nil => trivial
  | cons e rest ih => exact ⟨⟨all.1, more.1⟩, ih all.2 more.2⟩

/-- What every admitted step keeps holds after an admitted run. -/
theorem invariant_run (inv : State → Prop) (keeps : ∀ s e, ok s e → inv s → inv (step s e))
    {s : State} {events : List Event} (start : inv s) (all : EveryStep step ok s events) :
    inv (run step s events) := by
  induction events generalizing s with
  | nil => exact start
  | cons e rest ih => exact ih (keeps s e all.1 start) all.2

/-- When a condition on the event says exactly whether the invariant survives it, every state
    of a run keeps the invariant exactly if every event meets the condition. What is known of
    the steps anyway may be used. -/
theorem invariant_iff_within {inv : State → Prop} {known : State → Event → Prop} {s : State}
    {events : List Event} (start : inv s)
    (exactly : ∀ s e, known s e → inv s → (inv (step s e) ↔ ok s e))
    (all : EveryStep step known s events) :
    (∀ before after, events = before ++ after → inv (run step s before)) ↔
      EveryStep step ok s events := by
  induction events generalizing s with
  | nil =>
    constructor
    · intro _
      trivial
    · intro _ before after split
      obtain ⟨rfl, -⟩ := List.append_eq_nil_iff.mp split.symm
      exact start
  | cons e rest ih =>
    have survives := exactly s e all.1 start
    constructor
    · intro always
      have first : inv (step s e) := always [e] rest rfl
      refine ⟨survives.mp first, (ih first all.2).mp ?_⟩
      intro before after split
      exact always (e :: before) after (by rw [split, List.cons_append])
    · intro passes before after split
      cases before with
      | nil => exact start
      | cons first before =>
        obtain ⟨rfl, tail⟩ := List.cons.inj split
        exact (ih (survives.mpr passes.1) all.2).mpr passes.2 before after tail

theorem invariant_iff {inv : State → Prop} {s : State} {events : List Event} (start : inv s)
    (exactly : ∀ s e, inv s → (inv (step s e) ↔ ok s e)) :
    (∀ before after, events = before ++ after → inv (run step s before)) ↔
      EveryStep step ok s events :=
  invariant_iff_within start (fun s e _ => exactly s e) (everyStep_true s events)

/-- A reflexive and transitive relation that every admitted step respects, from states that
    keep an invariant, relates the two ends of a run. -/
theorem relation_run (inv : State → Prop) (rel : State → State → Prop)
    (refl : ∀ s, rel s s) (trans : ∀ {a b c}, rel a b → rel b c → rel a c)
    (keeps : ∀ s e, ok s e → inv s → inv (step s e))
    (respects : ∀ s e, ok s e → inv s → rel s (step s e))
    {s : State} {events : List Event} (start : inv s) (all : EveryStep step ok s events) :
    rel s (run step s events) := by
  induction events generalizing s with
  | nil => exact refl s
  | cons e rest ih =>
    exact trans (respects s e all.1 start) (ih (keeps s e all.1 start) all.2)

/-- Removing the events that the relation does not see: one machine runs on all events, the
    other on the kept ones, and they stay related. -/
theorem filtered_run {State' : Type*} {step' : State' → Event → State'}
    (sim : State → State' → Prop) {keep : Event → Bool}
    (kept : ∀ s s' e, ok s e → keep e = true → sim s s' → sim (step s e) (step' s' e))
    (removed : ∀ s s' e, ok s e → keep e = false → sim s s' → sim (step s e) s')
    {s : State} {s' : State'} {events : List Event} (start : sim s s')
    (all : EveryStep step ok s events) :
    sim (run step s events) (run step' s' (events.filter keep)) := by
  induction events generalizing s s' with
  | nil => exact start
  | cons e rest ih =>
    cases seen : keep e with
    | true =>
      rw [List.filter_cons_of_pos seen]
      exact ih (kept s s' e all.1 seen start) all.2
    | false =>
      rw [List.filter_cons_of_neg (by simp [seen])]
      exact ih (removed s s' e all.1 seen start) all.2

/-- The same where the other machine meets each kept event in a version of its own. -/
theorem exists_filtered_run {State' Event' : Type*} {step' : State' → Event' → State'}
    (sim : State → State' → Prop) (version : Event → Event' → Prop) {keep : Event → Bool}
    (kept : ∀ s s' e, ok s e → keep e = true → sim s s' →
      ∃ e', version e e' ∧ sim (step s e) (step' s' e'))
    (removed : ∀ s s' e, ok s e → keep e = false → sim s s' → sim (step s e) s')
    {s : State} {s' : State'} {events : List Event} (start : sim s s')
    (all : EveryStep step ok s events) :
    ∃ events', List.Forall₂ version (events.filter keep) events' ∧
      sim (run step s events) (run step' s' events') := by
  induction events generalizing s s' with
  | nil => exact ⟨[], .nil, start⟩
  | cons e rest ih =>
    cases seen : keep e with
    | true =>
      obtain ⟨e', versioned, next⟩ := kept s s' e all.1 seen start
      obtain ⟨later, matched, final⟩ := ih next all.2
      rw [List.filter_cons_of_pos seen]
      exact ⟨e' :: later, .cons versioned matched, final⟩
    | false =>
      rw [List.filter_cons_of_neg (by simp [seen])]
      exact ih (removed s s' e all.1 seen start) all.2

end TransitionRuns
