import WsRelay.Library.Runs

/- A cached copy that is refreshed by tag. The server keeps a store with a tag computed from part
   of it; the client polls with the tag of its copy and gets the copy anew unless the tags agree.
   The copy is current after every poll exactly if no poll meets a store that differs from the
   copy outside the part which the tag covers. -/
namespace TaggedCache
open TransitionRuns

variable {Store Update View Input Key Tag : Type*}

/- `input` is what the tag is hashed from; it determines the covered part of the view, and is
   determined by it. An update that answers none leaves the store and its tag alone. -/
structure Scheme (Store Update View Input Key Tag : Type*) where
  update : Store → Update → Option Store
  view : Store → View
  input : Store → Input
  covered : View → Key
  same_input : ∀ a b, input a = input b ↔ covered (view a) = covered (view b)
  hash : Input → Tag
  unset : Tag

structure Copies (Store View Tag : Type*) where
  store : Store
  tag : Tag
  view : View
  held : Tag

inductive Event (Update : Type*) where
  | update : Update → Event Update
  | poll : Event Update

variable (c : Scheme Store Update View Input Key Tag) [DecidableEq Tag]

def Scheme.write (s : Copies Store View Tag) (u : Update) : Copies Store View Tag :=
  match c.update s.store u with
  | none => s
  | some store => { s with store, tag := c.hash (c.input store) }

def Scheme.refresh (s : Copies Store View Tag) : Copies Store View Tag :=
  if s.held = s.tag ∧ s.held ≠ c.unset then s
  else { s with view := c.view s.store, held := s.tag }

def Scheme.step (s : Copies Store View Tag) : Event Update → Copies Store View Tag
  | .update u => c.write s u
  | .poll => c.refresh s

def Scheme.hashed (s : Copies Store View Tag) : List (Event Update) → List Input
  | [] => []
  | .update u :: rest => ((c.update s.store u).map c.input).toList ++
    Scheme.hashed (c.write s u) rest
  | .poll :: rest => Scheme.hashed (c.refresh s) rest

def Scheme.Current (s : Copies Store View Tag) : Prop := s.view = c.view s.store

/- After a poll the copy is current. -/
def Scheme.PollsCurrent (s : Copies Store View Tag) : Event Update → Prop
  | .update _ => True
  | .poll => c.Current (c.refresh s)

/- In front of a poll: nothing is held, or the tag can tell, or there is nothing to tell. -/
def Scheme.PollsTelling (s : Copies Store View Tag) : Event Update → Prop
  | .update _ => True
  | .poll => s.held = c.unset ∨ c.covered s.view ≠ c.covered (c.view s.store) ∨ c.Current s

structure Scheme.Tagged (known : List Input) (s : Copies Store View Tag) : Prop where
  server : (s.tag = c.unset ∧ s.held = c.unset) ∨
    (s.tag = c.hash (c.input s.store) ∧ c.input s.store ∈ known)
  client : s.held = c.unset ∨
    ∃ old, s.view = c.view old ∧ s.held = c.hash (c.input old) ∧ c.input old ∈ known

variable {c} {known : List Input} {s : Copies Store View Tag}

omit [DecidableEq Tag] in
theorem tagged_write (tagged : c.Tagged known s) (u : Update)
    (given : ∀ i ∈ (c.update s.store u).map c.input, i ∈ known) :
    c.Tagged known (c.write s u) := by
  unfold Scheme.write
  cases updated : c.update s.store u with
  | none => exact tagged
  | some store =>
    constructor
    · exact Or.inr ⟨rfl, given (c.input store) (by rw [updated]; rfl)⟩
    · exact tagged.client

theorem tagged_refresh (tagged : c.Tagged known s) : c.Tagged known (c.refresh s) := by
  unfold Scheme.refresh
  split
  · exact tagged
  rcases tagged.server with ⟨untagged, -⟩ | ⟨hashed, listed⟩
  · exact ⟨Or.inl ⟨untagged, untagged⟩, Or.inl untagged⟩
  · exact ⟨Or.inr ⟨hashed, listed⟩, Or.inr ⟨s.store, rfl, hashed, listed⟩⟩

/-- One poll: the copy is current behind it exactly if the tag could tell in front of it. -/
theorem poll_current_iff (injective : ∀ i ∈ known, ∀ j ∈ known, c.hash i = c.hash j → i = j)
    (tagged : c.Tagged known s) :
    c.Current (c.refresh s) ↔
      s.held = c.unset ∨ c.covered s.view ≠ c.covered (c.view s.store) ∨ c.Current s := by
  unfold Scheme.refresh
  by_cases matching : s.held = s.tag ∧ s.held ≠ c.unset
  · obtain ⟨same, holding⟩ := matching
    simp only [same, true_and]
    rw [if_pos (same ▸ holding)]
    constructor
    · intro current
      exact Or.inr (Or.inr current)
    · intro telling
      rcases telling with unheld | differs | current
      · exact absurd (same.trans unheld) holding
      · obtain ⟨old, viewed, tag, listed⟩ := tagged.client.resolve_left holding
        rcases tagged.server with ⟨-, unheld⟩ | ⟨hashed, listedNow⟩
        · exact absurd unheld holding
        have sameTag : c.hash (c.input old) = c.hash (c.input s.store) := by
          rw [← tag, ← hashed, same]
        have sameInput := injective _ listed _ listedNow sameTag
        rw [viewed] at differs
        exact absurd ((c.same_input old s.store).mp sameInput) differs
      · exact current
  · rw [if_neg matching]
    refine iff_of_true rfl ?_
    by_cases unheld : s.held = c.unset
    · exact Or.inl unheld
    refine Or.inr (Or.inl ?_)
    intro same
    obtain ⟨old, viewed, tag, -⟩ := tagged.client.resolve_left unheld
    rcases tagged.server with ⟨-, unset⟩ | ⟨hashed, -⟩
    · exact unheld unset
    rw [viewed] at same
    have sameInput := (c.same_input old s.store).mpr same
    exact matching ⟨by rw [tag, hashed, sameInput], unheld⟩

/-- Over a run, with a hash that is injective on what it is given. -/
theorem polls_current_iff {events : List (Event Update)}
    (injective : ∀ i ∈ known, ∀ j ∈ known, c.hash i = c.hash j → i = j)
    (tagged : c.Tagged known s) (given : ∀ i ∈ c.hashed s events, i ∈ known) :
    EveryStep c.step c.PollsCurrent s events ↔ EveryStep c.step c.PollsTelling s events := by
  induction events generalizing s with
  | nil => rfl
  | cons e rest ih =>
    cases e with
    | update u =>
      have first : ∀ i ∈ (c.update s.store u).map c.input, i ∈ known := by
        intro i input
        exact given i (List.mem_append_left _ (Option.mem_toList.mpr input))
      have later : ∀ i ∈ c.hashed (c.write s u) rest, i ∈ known := by
        intro i input
        exact given i (List.mem_append_right _ input)
      exact and_congr Iff.rfl (ih (tagged_write tagged u first) later)
    | poll => exact and_congr (poll_current_iff injective tagged) (ih (tagged_refresh tagged) given)

end TaggedCache
