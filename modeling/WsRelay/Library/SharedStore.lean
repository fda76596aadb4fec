import WsRelay.Library.Runs

/- A store that several parties share, in two runs side by side. Off a set of keys the stores of
   the two runs agree; on it each is as it was at the start. A party that keeps off the set does
   the same in both runs and leaves the set alone, which is one fact to carry instead of two. -/
namespace SharedStore
open TransitionRuns

section Beside
variable {Key Value : Type*}

structure Beside (apart : Set Key) (base base' store store' : Key → Value) : Prop where
  agree : ∀ k ∉ apart, store k = store' k
  kept : ∀ k ∈ apart, store k = base k
  kept' : ∀ k ∈ apart, store' k = base' k

variable {apart : Set Key} {base base' store store' : Key → Value}

theorem Beside.start (agree : ∀ k ∉ apart, base k = base' k) :
    Beside apart base base' base base' where
  agree := agree
  kept _ _ := rfl
  kept' _ _ := rfl

theorem Beside.write [DecidableEq Key] (beside : Beside apart base base' store store') {key : Key}
    (off : key ∉ apart) (v : Value) {next next' : Key → Value}
    (written : ∀ k, next k = if key = k then v else store k)
    (written' : ∀ k, next' k = if key = k then v else store' k) :
    Beside apart base base' next next' where
  agree k outside := by
    rw [written, written', beside.agree k outside]
  kept k inside := by
    have other : key ≠ k := fun same => off (same ▸ inside)
    rw [written, if_neg other, beside.kept k inside]
  kept' k inside := by
    have other : key ≠ k := fun same => off (same ▸ inside)
    rw [written', if_neg other, beside.kept' k inside]

theorem Beside.insert {Entry : Type*} [Ord Key] [Std.TransOrd Key] [Std.LawfulEqOrd Key]
    [DecidableEq Key] {apart : Set Key} {base base' : Key → Option Entry}
    {m m' : Std.ExtTreeMap Key Entry}
    (beside : Beside apart base base' (fun k => m[k]?) (fun k => m'[k]?)) {key : Key}
    (off : key ∉ apart) (entry : Entry) :
    Beside apart base base' (fun k => (m.insert key entry)[k]?)
      (fun k => (m'.insert key entry)[k]?) := by
  apply beside.write off (some entry)
  · intro k
    simp only [Std.ExtTreeMap.getElem?_insert, Std.LawfulEqCmp.compare_eq_iff_eq]
  · intro k
    simp only [Std.ExtTreeMap.getElem?_insert, Std.LawfulEqCmp.compare_eq_iff_eq]

end Beside

variable {State Event Trace : Type*}

def watch (step : State → Event → State) (leaves : State → Trace → Event → Trace)
    (s : State × Trace) (e : Event) : State × Trace :=
  (step s.1 e, leaves s.1 s.2 e)

theorem run_watch (step : State → Event → State) (leaves : State → Trace → Event → Trace)
    (s : State × Trace) (events : List Event) :
    (run (watch step leaves) s events).1 = run step s.1 events := by
  induction events generalizing s with
  | nil => rfl
  | cons e rest ih => exact ih (watch step leaves s e)

theorem everyStep_watch {step : State → Event → State} {leaves : State → Trace → Event → Trace}
    {ok : State → Event → Prop} (s : State × Trace) (events : List Event) :
    EveryStep (watch step leaves) (fun s e => ok s.1 e) s events ↔
      EveryStep step ok s.1 events := by
  induction events generalizing s with
  | nil => rfl
  | cons e rest ih => exact and_congr Iff.rfl (ih (watch step leaves s e))

end SharedStore
