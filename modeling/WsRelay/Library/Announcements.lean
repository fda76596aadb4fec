import WsRelay.Library.Runs

/- Announcing on change. A record keeps the mark of the last value announced, so that an
   announcement with the same mark can be left out; a stamp goes up whenever the value does
   change. Both are judged over whole runs. -/
namespace Announcements
open TransitionRuns
variable {State Event Value Mark : Type*}

inductive Effect (Value : Type*) where
  | announces : Value → Effect Value
  | forgets : Effect Value
  | idle : Effect Value

def Effect.mark (mark : Value → Mark) (record : Option Mark) : Effect Value → Option Mark
  | .announces v => some (mark v)
  | .forgets => none
  | .idle => record

/- The event leaves the last announcement standing. -/
def Effect.Idle : Effect Value → Prop
  | .idle => True
  | _ => False

section Record
variable {step : State → Event → State} {effect : State → Event → Effect Value}
  {mark : Value → Mark}

/-- A record that follows the effects holds a mark only if an earlier event announced a value
    with that mark and every event since was idle. -/
theorem announced_of_recorded (record : State → Option Mark)
    (follows : ∀ s e, record (step s e) = (effect s e).mark mark (record s)) {s : State}
    (start : record s = none) {events : List Event} {m : Mark}
    (recorded : record (run step s events) = some m) :
    ∃ before e after v, events = before ++ e :: after ∧
      effect (run step s before) e = .announces v ∧ mark v = m ∧
      EveryStep step (fun s e => (effect s e).Idle) (run step s (before ++ [e])) after := by
  induction events using List.reverseRecOn with
  | nil =>
    rw [run_nil, start] at recorded
    cases recorded
  | append_singleton events last ih =>
    have final := follows (run step s events) last
    rw [run_append, run_cons, run_nil, final] at recorded
    cases happens : effect (run step s events) last with
    | announces v =>
      rw [happens] at recorded
      exact ⟨events, last, [], v, rfl, happens, Option.some.inj recorded, trivial⟩
    | forgets =>
      rw [happens] at recorded
      cases recorded
    | idle =>
      rw [happens] at recorded
      obtain ⟨before, e, after, v, rfl, announced, marked, quiet⟩ := ih recorded
      refine ⟨before, e, after ++ [last], v, by simp, announced, marked, ?_⟩
      rw [everyStep_append]
      refine ⟨quiet, ?_, trivial⟩
      rw [← run_append, List.append_assoc, List.singleton_append]
      simp only [happens]
      trivial

end Record

section Stamp
variable {stamp : State → Nat} {value : State → Value}

/- The stamp does not fall, and stands still only where the value does. -/
def Tracks (stamp : State → Nat) (value : State → Value) (s s' : State) : Prop :=
  stamp s ≤ stamp s' ∧ (stamp s = stamp s' → value s = value s')

theorem Tracks.refl (s : State) : Tracks stamp value s s := ⟨Nat.le_refl _, fun _ => rfl⟩

theorem Tracks.trans {s s' s'' : State} (first : Tracks stamp value s s')
    (second : Tracks stamp value s' s'') : Tracks stamp value s s'' := by
  obtain ⟨rises, tracked⟩ := first
  obtain ⟨rises', tracked'⟩ := second
  constructor
  · omega
  · intro still
    have early := tracked (by omega)
    have late := tracked' (by omega)
    exact early.trans late

theorem Tracks.of_rise {s s' : State} (rises : stamp s < stamp s') : Tracks stamp value s s' := by
  constructor
  · omega
  · intro still
    omega

theorem Tracks.lt_of_change {s s' : State} (tracked : Tracks stamp value s s')
    (changed : value s ≠ value s') : stamp s < stamp s' := by
  obtain ⟨rises, same⟩ := tracked
  by_contra stuck
  exact changed (same (by omega))

end Stamp

/- A log next to a level that does not fall. Entries that show the level of the moment they were
   written at show no less than the entries before them. -/
section Rising
variable {Entry Level : Type*} [Preorder Level] {shows : Entry → Level → Prop}
  {log added : List Entry} {level level' : Level}

structure Rising (shows : Entry → Level → Prop) (log : List Entry) (level : Level) : Prop where
  ordered : log.Pairwise fun a b => ∀ v v', shows a v → shows b v' → v ≤ v'
  reached : ∀ a ∈ log, ∀ v, shows a v → v ≤ level

theorem Rising.start (level : Level) : Rising shows [] level := ⟨List.Pairwise.nil, by simp⟩

theorem Rising.raise (rising : Rising shows log level) (up : level ≤ level') :
    Rising shows log level' where
  ordered := rising.ordered
  reached a listed v shown := le_trans (rising.reached a listed v shown) up

theorem Rising.append (rising : Rising shows log level)
    (current : ∀ a ∈ added, ∀ v, shows a v → v = level) : Rising shows (log ++ added) level where
  ordered := by
    rw [List.pairwise_append]
    refine ⟨rising.ordered, ?_, ?_⟩
    · apply List.pairwise_of_forall_mem_list
      intro a first b second v v' early late
      rw [current a first v early, current b second v' late]
    · intro a first b second v v' early late
      rw [current b second v' late]
      exact rising.reached a first v early
  reached := by
    intro a listed v shown
    rcases List.mem_append.mp listed with old | new
    · exact rising.reached a old v shown
    · exact le_of_eq (current a new v shown)

theorem Rising.le_of_later (rising : Rising shows log level) {a b : Entry}
    (later : [a, b].Sublist log) {v v' : Level} (early : shows a v) (late : shows b v') : v ≤ v' :=
  List.pairwise_iff_forall_sublist.mp rising.ordered later v v' early late

end Rising

end Announcements
