import Mathlib

/- A receiver that is kept up to date by version numbers. The sender remembers for each key the
   version that it told last, and skips the key until the current version is above it. Nothing is
   assumed about how values and versions move; the writes have to keep the mirror covered. -/
namespace VersionedMirrors

structure Mirror (Key View Version : Type*) where
  told : Key → Version
  held : Key → Option View

variable {Key View Version : Type*} [LT Version]
variable (version : View → Version) {relevant : Set Key} {content : Key → View}

/- The value would be sent, or the receiver has it already. -/
def Mirror.Announces (m : Mirror Key View Version) (key : Key) (value : View) : Prop :=
  m.told key < version value ∨ m.held key = some value

def Mirror.Covers (m : Mirror Key View Version) (relevant : Set Key) (content : Key → View) :
    Prop :=
  ∀ key ∈ relevant, m.Announces version key (content key)

omit [LT Version] in
def Mirror.Agrees (m : Mirror Key View Version) (relevant : Set Key) (content : Key → View) :
    Prop :=
  ∀ key ∈ relevant, m.held key = some (content key)

def Mirror.tell [DecidableEq Key] (m : Mirror Key View Version) (chosen : List Key)
    (content : Key → View) : Mirror Key View Version where
  told key := if key ∈ chosen then version (content key) else m.told key
  held key := if key ∈ chosen then some (content key) else m.held key

variable {version} {m m' : Mirror Key View Version}

theorem Mirror.Agrees.covers (agrees : m.Agrees relevant content) :
    m.Covers version relevant content := by
  intro key listed
  exact Or.inr (agrees key listed)

/-- A sender that remembers nothing skips nothing. -/
theorem covers_of_forgotten (forgotten : ∀ key ∈ relevant, m.told key < version (content key)) :
    m.Covers version relevant content := by
  intro key listed
  exact Or.inl (forgotten key listed)

/-- Writes keep a mirror covered exactly if they announce what they change or bring in. -/
theorem covers_written_iff {relevant' : Set Key} {content' : Key → View} (written : Set Key)
    (covers : m.Covers version relevant content)
    (others : ∀ key ∈ relevant', key ∉ written → key ∈ relevant ∧ content' key = content key) :
    m.Covers version relevant' content' ↔
      ∀ key ∈ relevant', key ∈ written → m.Announces version key (content' key) := by
  constructor
  · intro covered key listed _
    exact covered key listed
  · intro announced key listed
    by_cases wrote : key ∈ written
    · exact announced key listed wrote
    · obtain ⟨old, same⟩ := others key listed wrote
      rw [same]
      exact covers key old

section Tell
variable [DecidableEq Key] {chosen : List Key}

/-- A message that skips only what is not above the told version makes a covered mirror agree. -/
theorem tell_agrees (covers : m.Covers version relevant content)
    (skips : ∀ key ∈ relevant, key ∉ chosen → ¬ m.told key < version (content key)) :
    (m.tell version chosen content).Agrees relevant content := by
  intro key listed
  unfold Mirror.tell
  by_cases told : key ∈ chosen
  · exact if_pos told
  · rcases covers key listed with newer | held
    · exact absurd newer (skips key listed told)
    · exact (if_neg told).trans held

/-- If it sends only what is above, then no other mirror agrees afterwards. -/
theorem tell_agrees_iff (skips : ∀ key ∈ relevant,
    key ∈ chosen ↔ m.told key < version (content key)) :
    (m.tell version chosen content).Agrees relevant content ↔
      m.Covers version relevant content := by
  constructor
  · intro agrees key listed
    have holds := agrees key listed
    unfold Mirror.tell at holds
    by_cases told : key ∈ chosen
    · exact Or.inl ((skips key listed).mp told)
    · simp only [told, ↓reduceIte] at holds
      exact Or.inr holds
  · intro covers
    apply tell_agrees covers
    intro key listed skipped newer
    exact skipped ((skips key listed).mpr newer)

end Tell

end VersionedMirrors
