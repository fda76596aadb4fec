import Mathlib

/- Trails of moves with a price. What every move keeps holds at the end of a trail, and a
   budget bounds what the moves of a trail spend together. -/
namespace CostedTrails
variable {State : Type*} {Move : Nat → State → State → Prop} {s s' s'' : State} {k m n : Nat}

/- A trail that spends at most the given amount. -/
inductive Trail (Move : Nat → State → State → Prop) : Nat → State → State → Prop
  | refl (n : Nat) (s : State) : Trail Move n s s
  | cons {k m n : Nat} {s s' s'' : State} (first : Move k s s') (rest : Trail Move m s' s'')
      (within : k + m ≤ n) : Trail Move n s s''

theorem Trail.single (move : Move k s s') : Trail Move k s s' :=
  .cons move (.refl 0 s') (by omega)

theorem Trail.mono (trail : Trail Move n s s') (more : n ≤ m) : Trail Move m s s' := by
  cases trail with
  | refl => exact .refl m s
  | cons first rest within => exact .cons first rest (by omega)

theorem Trail.trans (first : Trail Move n s s') (second : Trail Move m s' s'') :
    Trail Move (n + m) s s'' := by
  induction first with
  | refl n s => exact second.mono (by omega)
  | cons move rest within ih => exact .cons move (ih second) (by omega)

theorem Trail.foldl {Item : Type*} {body : State → Item → State} (inv : State → Prop)
    {items : List Item}
    (each : ∀ item ∈ items, ∀ s, inv s → Trail Move k s (body s item) ∧ inv (body s item))
    (start : inv s) : Trail Move (k * items.length) s (items.foldl body s) := by
  induction items generalizing s with
  | nil => exact .refl _ s
  | cons item rest ih =>
    obtain ⟨first, kept⟩ := each item (by simp) s start
    have later := ih (fun other listed => each other (by simp [listed])) kept
    refine (first.trans later).mono ?_
    rw [List.length_cons, Nat.mul_succ]
    omega

theorem Trail.invariant (inv : State → Prop)
    (keeps : ∀ k s s', Move k s s' → inv s → inv s') (trail : Trail Move n s s') (start : inv s) :
    inv s' := by
  induction trail with
  | refl n s => exact start
  | cons first rest within ih => exact ih (keeps _ _ _ first start)

/-- Along a trail every move may use the budget that is left in front of it. -/
theorem Trail.budget (inv : Nat → State → Prop) (spare : ∀ {m n s}, m ≤ n → inv n s → inv m s)
    (keeps : ∀ k m s s', Move k s s' → inv (k + m) s → inv m s') (trail : Trail Move n s s')
    (start : inv (n + m) s) : inv m s' := by
  induction trail with
  | refl n s => exact spare (by omega) start
  | @cons k m' n s s' s'' first rest within ih =>
    apply ih
    refine keeps k (m' + m) s s' first (spare ?_ start)
    omega

end CostedTrails
