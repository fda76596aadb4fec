import Mathlib

/- Loops that write a finite map key by key, over any ordered key type. -/
namespace FoldMaps
variable {Key Value : Type*} [Ord Key] [Std.TransOrd Key] [Std.LawfulEqOrd Key]

/-- Rewriting each key of a duplicate-free list once, from its own old value. -/
theorem foldl_rewrite [DecidableEq Key] (next : Option Value → Value) {keys : List Key}
    (distinct : keys.Nodup) (m : Std.ExtTreeMap Key Value) (k : Key) :
    (keys.foldl (fun acc key => acc.insert key (next acc[key]?)) m)[k]? =
      if k ∈ keys then some (next m[k]?) else m[k]? := by
  induction keys generalizing m with
  | nil => simp
  | cons key rest ih =>
    obtain ⟨fresh, restDistinct⟩ := List.nodup_cons.mp distinct
    rw [List.foldl_cons, ih restDistinct]
    by_cases same : key = k
    · subst same
      simp [fresh]
    · simp [Std.ExtTreeMap.getElem?_insert, same, Ne.symm same]

/-- The positions of a duplicate-free list, as a map from element to position. -/
theorem foldl_positions [DecidableEq Key] {keys : List Key} (distinct : keys.Nodup)
    (offset : Nat) (m : Std.ExtTreeMap Key Nat) (k : Key) (i : Nat) :
    ((keys.zipIdx offset).foldl (fun acc (key, pos) => acc.insert key pos) m)[k]? = some i ↔
      (offset ≤ i ∧ keys[i - offset]? = some k) ∨ (k ∉ keys ∧ m[k]? = some i) := by
  induction keys generalizing offset m with
  | nil => simp
  | cons key rest ih =>
    obtain ⟨fresh, restDistinct⟩ := List.nodup_cons.mp distinct
    rw [List.zipIdx_cons, List.foldl_cons, ih restDistinct]
    by_cases same : key = k
    · subst same
      simp only [Std.ExtTreeMap.getElem?_insert_self, Option.some.injEq, fresh, not_false_eq_true,
        true_and, List.mem_cons, not_true_eq_false, false_and, or_false]
      constructor
      · rintro (⟨later, at_i⟩ | here)
        · exact absurd (List.mem_of_getElem? at_i) fresh
        · subst here
          simp
      · rintro ⟨bound, at_i⟩
        by_cases first : i = offset
        · exact Or.inr first.symm
        · rw [show i - offset = (i - offset - 1) + 1 by omega, List.getElem?_cons_succ] at at_i
          exact absurd (List.mem_of_getElem? at_i) fresh
    · have kept : (m.insert key offset)[k]? = m[k]? := by
        simp [Std.ExtTreeMap.getElem?_insert, same]
      rw [kept]
      constructor
      · rintro (⟨later, at_i⟩ | ⟨absent, stored⟩)
        · refine Or.inl ⟨by omega, ?_⟩
          rw [show i - offset = (i - (offset + 1)) + 1 by omega, List.getElem?_cons_succ]
          exact at_i
        · exact Or.inr ⟨by simp [Ne.symm same, absent], stored⟩
      · rintro (⟨bound, at_i⟩ | ⟨absent, stored⟩)
        · by_cases first : i = offset
          · subst first
            simp [same] at at_i
          · refine Or.inl ⟨by omega, ?_⟩
            rwa [show i - offset = (i - (offset + 1)) + 1 by omega,
              List.getElem?_cons_succ] at at_i
        · exact Or.inr ⟨fun member => absent (by simp [member]), stored⟩

/-- A map is rebuilt from its bindings. -/
theorem ofList_toList [DecidableEq Key] (m : Std.ExtTreeMap Key Value) :
    Std.ExtTreeMap.ofList m.toList compare = m := by
  apply Std.ExtTreeMap.ext_getElem?
  intro k
  cases stored : m[k]? with
  | none =>
    apply Std.ExtTreeMap.getElem?_ofList_of_contains_eq_false
    simpa using stored
  | some v =>
    exact Std.ExtTreeMap.getElem?_ofList_of_mem Std.ReflCmp.compare_self
      Std.ExtTreeMap.distinct_keys_toList
      (Std.ExtTreeMap.mem_toList_iff_getElem?_eq_some.mpr stored)

/-- A loop that overwrites unseen: for each key the last value written to it stands. -/
theorem foldl_overwrite [DecidableEq Key] {Item : Type*} (writes : Item → Bool)
    (key : Item → Key) (value : Item → Value) (items : List Item) (m : Std.ExtTreeMap Key Value)
    (k : Key) :
    (items.foldl (fun acc item =>
        if writes item then acc.insert (key item) (value item) else acc) m)[k]? =
      ((items.reverse.find? fun item => writes item && key item == k).map value).or m[k]? := by
  induction items using List.reverseRecOn with
  | nil => simp
  | append_singleton items item ih =>
    rw [List.foldl_append, List.reverse_append, List.foldl_cons, List.foldl_nil,
      List.reverse_singleton, List.singleton_append]
    by_cases taken : writes item = true
    · by_cases named : key item = k
      · simp [taken, named]
      · simp [taken, named, Std.ExtTreeMap.getElem?_insert, ih]
    · simp [taken, ih]

/-- A search through the bindings of a map is a lookup. -/
theorem find_binding [DecidableEq Key] (m : Std.ExtTreeMap Key Value) (k : Key) :
    (m.toList.reverse.find? (·.1 == k)).map Prod.snd = m[k]? := by
  cases found : m.toList.reverse.find? (·.1 == k) with
  | none =>
    have absent : k ∉ m := by
      intro member
      obtain ⟨v, stored⟩ := Option.isSome_iff_exists.mp
        (Std.ExtTreeMap.mem_iff_isSome_getElem?.mp member)
      have listed := Std.ExtTreeMap.mem_toList_iff_getElem?_eq_some.mpr stored
      have skipped := List.find?_eq_none.mp found (k, v) (List.mem_reverse.mpr listed)
      simp at skipped
    simp [absent]
  | some binding =>
    obtain ⟨key, v⟩ := binding
    have named : key = k := by simpa using List.find?_some found
    subst named
    have listed := List.mem_reverse.mp (List.mem_of_find?_eq_some found)
    exact (Std.ExtTreeMap.mem_toList_iff_getElem?_eq_some.mp listed).symm

/-- A loop that inserts what passes a test: the passing keys join the set. -/
theorem mem_foldl_insert_if {Item : Type*} (keep : Item → Bool) (key : Item → Key)
    (items : List Item) (start : Std.ExtTreeSet Key) (k : Key) :
    k ∈ items.foldl (fun acc item => if keep item then acc.insert (key item) else acc) start ↔
      (∃ item ∈ items, keep item = true ∧ key item = k) ∨ k ∈ start := by
  induction items generalizing start with
  | nil => simp
  | cons item rest ih =>
    rw [List.foldl_cons, ih, List.exists_mem_cons_iff]
    by_cases kept : keep item = true
    · simp only [kept, ↓reduceIte, Std.ExtTreeSet.mem_insert, Std.LawfulEqCmp.compare_eq_iff_eq,
        true_and]
      rw [or_assoc, or_left_comm]
    · simp only [kept, Bool.false_eq_true, ↓reduceIte, false_and, false_or]

/-- A loop whose turns commute on different keys does not see the order. -/
theorem foldl_enumeration {State : Type*} {turn : State → Key × Value → State}
    (commutes : ∀ s a b, a.1 ≠ b.1 → turn (turn s a) b = turn (turn s b) a)
    {m : Std.ExtTreeMap Key Value} {bindings : List (Key × Value)}
    (lists : bindings.Perm m.toList) (s : State) :
    bindings.foldl turn s = m.toList.foldl turn s := by
  refine lists.foldl_eq' ?_ s
  intro a listedA b listedB s
  by_cases same : a.1 = b.1
  · have storedA := Std.ExtTreeMap.mem_toList_iff_getElem?_eq_some.mp (lists.mem_iff.mp listedA)
    have storedB := Std.ExtTreeMap.mem_toList_iff_getElem?_eq_some.mp (lists.mem_iff.mp listedB)
    rw [same, storedB] at storedA
    have equal : a = b := Prod.ext same (Option.some.inj storedA).symm
    rw [equal]
  · exact commutes s a b same

/-- Sorting the keys of an enumeration gives the keys in their order. -/
theorem mergeSort_enumeration {m : Std.ExtTreeMap Key Value} {bindings : List (Key × Value)}
    (lists : bindings.Perm m.toList) :
    (bindings.map Prod.fst).mergeSort (fun a b => (compare a b).isLE) = m.keys := by
  have sorted := @List.pairwise_mergeSort Key (fun a b => (compare a b).isLE)
    (fun a b c => Std.TransCmp.isLE_trans) (fun a b => by
      rw [@Std.OrientedCmp.eq_swap Key compare _ b, Bool.or_eq_true]
      cases compare a b <;> simp)
    (bindings.map Prod.fst)
  have ordered : m.keys.Pairwise fun a b => (compare a b).isLE = true :=
    Std.ExtTreeMap.ordered_keys.imp fun less => by rw [less]; rfl
  have same : ((bindings.map Prod.fst).mergeSort fun a b => (compare a b).isLE).Perm m.keys := by
    rw [← Std.ExtTreeMap.map_fst_toList_eq_keys]
    exact (List.mergeSort_perm _ _).trans (lists.map Prod.fst)
  refine same.eq_of_pairwise ?_ sorted ordered
  intro a b _ _ below above
  exact Std.LawfulEqCmp.compare_eq_iff_eq.mp (Std.OrientedCmp.isLE_antisymm below above)

end FoldMaps
