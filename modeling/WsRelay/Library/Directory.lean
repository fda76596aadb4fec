import Mathlib

/- A directory of connections: who sits where, who is a member of each group, and which secret
   owns each name. Members outlive nothing by right: joining adds one, leaving removes one
   unless a namesake is still connected. -/
namespace ConnectionDirectory
open Classical

structure Seat (Peer Group Name Session : Type*) where
  peer : Peer
  group : Group
  name : Name
  session : Session

@[ext] structure Directory (Conn Peer Group Name Secret Session : Type*) where
  seat : Conn → Option (Seat Peer Group Name Session)
  members : Group → Set Peer
  owner : Name → Option Secret

inductive Event (Conn Peer Group Name Secret Session : Type*) where
  | idle : Event Conn Peer Group Name Secret Session
  | accept (c : Conn) (s : Option (Seat Peer Group Name Session)) :
      Event Conn Peer Group Name Secret Session
  /-- An unseated connection may take the blank seat. -/
  | touch (c : Conn) (written : Bool) : Event Conn Peer Group Name Secret Session
  /-- A greeting names a peer, a network and its secret. `written` tells whether the new seat
      could be recorded, `kept` whether the old one was when the greeting was refused. -/
  | hello (c : Conn) (p : Peer) (n : Name) (secret : Secret) (written kept : Bool) :
      Event Conn Peer Group Name Secret Session
  | leave (c : Conn) : Event Conn Peer Group Name Secret Session
  | rehydrate : Event Conn Peer Group Name Secret Session
  | restart : Event Conn Peer Group Name Secret Session

variable {Conn Peer Group Name Secret Session : Type*}

section Observations
variable (d : Directory Conn Peer Group Name Secret Session)

def Directory.sits (p : Peer) (g : Group) : Prop :=
  ∃ c s, d.seat c = some s ∧ s.peer = p ∧ s.group = g

def Directory.sitsBeside (c : Conn) (p : Peer) (g : Group) : Prop :=
  ∃ c' s, c' ≠ c ∧ d.seat c' = some s ∧ s.peer = p ∧ s.group = g

/- A connection of the same peer, in whatever group, with another session. -/
def Directory.hasNamesake (s : Seat Peer Group Name Session) : Prop :=
  ∃ c' other, d.seat c' = some other ∧ other.peer = s.peer ∧ other.session ≠ s.session

def Directory.admits (n : Name) (secret : Secret) : Prop :=
  ∀ owner, d.owner n = some owner → owner = secret

end Observations

section Step
variable (blank : Seat Peer Group Name Session) (key : Name → Secret → Group)

noncomputable def Directory.take (d : Directory Conn Peer Group Name Secret Session) (c : Conn)
    (s : Seat Peer Group Name Session) : Directory Conn Peer Group Name Secret Session :=
  { d with seat := Function.update d.seat c (some s) }

noncomputable def Directory.touch (d : Directory Conn Peer Group Name Secret Session) (c : Conn)
    (written : Bool) : Directory Conn Peer Group Name Secret Session :=
  if written then d.take c ((d.seat c).getD blank) else d

noncomputable def Directory.own (d : Directory Conn Peer Group Name Secret Session) (n : Name)
    (secret : Secret) : Directory Conn Peer Group Name Secret Session :=
  { d with owner := Function.update d.owner n (some secret) }

noncomputable def Directory.enroll (d : Directory Conn Peer Group Name Secret Session) (p : Peer)
    (g : Group) : Directory Conn Peer Group Name Secret Session :=
  { d with members := Function.update d.members g (insert p (d.members g)) }

noncomputable def Directory.hello (d : Directory Conn Peer Group Name Secret Session) (c : Conn)
    (p : Peer) (n : Name) (secret : Secret) (written kept : Bool) :
    Directory Conn Peer Group Name Secret Session :=
  if d.admits n secret then
    if written then
      let seat := ⟨p, key n secret, n, ((d.seat c).getD blank).session⟩
      ((d.own n secret).take c seat).enroll p (key n secret)
    else d.own n secret
  else d.touch blank c kept

noncomputable def Directory.dismiss (d : Directory Conn Peer Group Name Secret Session) (p : Peer)
    (g : Group) : Directory Conn Peer Group Name Secret Session :=
  { d with members := Function.update d.members g (d.members g \ {p}) }

noncomputable def Directory.vacate (d : Directory Conn Peer Group Name Secret Session) (c : Conn) :
    Directory Conn Peer Group Name Secret Session :=
  { d with seat := Function.update d.seat c none }

/- The peer of a closing connection stays a member while a namesake is connected. -/
noncomputable def Directory.drop (d : Directory Conn Peer Group Name Secret Session) (c : Conn) :
    Directory Conn Peer Group Name Secret Session :=
  match d.seat c with
  | none => d
  | some s =>
    if s.peer = blank.peer ∨ d.hasNamesake s then d else d.dismiss s.peer s.group

noncomputable def Directory.leave (d : Directory Conn Peer Group Name Secret Session) (c : Conn) :
    Directory Conn Peer Group Name Secret Session :=
  (d.drop blank c).vacate c

def Directory.seated (d : Directory Conn Peer Group Name Secret Session) (g : Group) : Set Peer :=
  {p | p ≠ blank.peer ∧ d.sits p g}

noncomputable def Directory.step (d : Directory Conn Peer Group Name Secret Session) :
    Event Conn Peer Group Name Secret Session → Directory Conn Peer Group Name Secret Session
  | .idle => d
  | .accept c s => { d with seat := Function.update d.seat c s }
  | .touch c written => d.touch blank c written
  | .hello c p n secret written kept => d.hello blank key c p n secret written kept
  | .leave c => d.leave blank c
  | .rehydrate => { d with members := fun g => d.members g ∪ d.seated blank g }
  | .restart => { d with members := d.seated blank, owner := fun _ => none }

end Step

section Seats
variable {blank : Seat Peer Group Name Session} {key : Name → Secret → Group}
variable {d : Directory Conn Peer Group Name Secret Session} {c : Conn}
  {s : Seat Peer Group Name Session} {p : Peer} {g : Group}

theorem sits_take : (d.take c s).sits p g ↔ (s.peer = p ∧ s.group = g) ∨ d.sitsBeside c p g := by
  constructor
  · rintro ⟨c', s', seated, rfl, rfl⟩
    by_cases same : c' = c
    · subst same
      simp only [Directory.take, Function.update_self, Option.some.injEq] at seated
      exact Or.inl (by simp [seated])
    · simp only [Directory.take, Function.update_of_ne same] at seated
      exact Or.inr ⟨c', s', same, seated, rfl, rfl⟩
  · rintro (⟨rfl, rfl⟩ | ⟨c', s', other, seated, rfl, rfl⟩)
    · exact ⟨c, s, by simp [Directory.take], rfl, rfl⟩
    · exact ⟨c', s', by simp [Directory.take, Function.update_of_ne other, seated], rfl, rfl⟩

theorem sits_iff_beside (seat : d.seat c = some s) :
    d.sits p g ↔ (s.peer = p ∧ s.group = g) ∨ d.sitsBeside c p g := by
  have same : d.take c s = d := by
    simp [Directory.take, ← seat]
  rw [← sits_take, same]

theorem sits_iff_beside_none (free : d.seat c = none) : d.sits p g ↔ d.sitsBeside c p g := by
  constructor
  · rintro ⟨c', s', seated, here⟩
    refine ⟨c', s', ?_, seated, here⟩
    rintro rfl
    simp [free] at seated
  · rintro ⟨c', s', -, here⟩
    exact ⟨c', s', here⟩

theorem sits_vacate : (d.vacate c).sits p g ↔ d.sitsBeside c p g := by
  constructor
  · rintro ⟨c', s', seated, here⟩
    by_cases same : c' = c
    · subst same
      simp [Directory.vacate] at seated
    · simp only [Directory.vacate, Function.update_of_ne same] at seated
      exact ⟨c', s', same, seated, here⟩
  · rintro ⟨c', s', other, seated, here⟩
    exact ⟨c', s', by simpa [Directory.vacate, Function.update_of_ne other] using seated, here⟩

theorem seat_drop : (d.drop blank c).seat = d.seat := by
  unfold Directory.drop
  split
  · rfl
  · split <;> rfl

theorem owner_drop : (d.drop blank c).owner = d.owner := by
  unfold Directory.drop
  split
  · rfl
  · split <;> rfl

/-- An owned name keeps its owner until a restart. -/
theorem owner_step {n : Name} {secret : Secret} {e : Event Conn Peer Group Name Secret Session}
    (stays : e ≠ .restart) (owned : d.owner n = some secret) :
    (d.step blank key e).owner n = some secret := by
  cases e with
  | idle => exact owned
  | accept c s => exact owned
  | touch c written =>
    simp only [Directory.step, Directory.touch]
    split
    · exact owned
    · exact owned
  | hello c p m offered written kept =>
    have first (admitted : d.admits m offered) : (d.own m offered).owner n = some secret := by
      by_cases same : n = m
      · subst same
        simp [Directory.own, admitted secret owned]
      · simpa [Directory.own, same] using owned
    simp only [Directory.step, Directory.hello]
    split
    · rename_i admitted
      split
      · exact first admitted
      · exact first admitted
    · unfold Directory.touch
      split
      · exact owned
      · exact owned
  | leave c =>
    have left : (d.leave blank c).owner = d.owner := owner_drop
    simp only [Directory.step, left, owned]
  | rehydrate => exact owned
  | restart => exact absurd rfl stays

/-- Until a restart the owned names are those that were owned and those of admitted greetings. -/
theorem owned_step {n : Name} {e : Event Conn Peer Group Name Secret Session}
    (stays : e ≠ .restart) :
    ((d.step blank key e).owner n).isSome = true ↔ (d.owner n).isSome = true ∨
      ∃ c p secret written kept, e = .hello c p n secret written kept ∧ d.admits n secret := by
  have idle {o o' : Name → Option Secret} (same : o' = o) {P : Prop} (silent : ¬ P) :
      (o' n).isSome = true ↔ (o n).isSome = true ∨ P := by
    rw [same]
    exact ⟨Or.inl, fun either => either.resolve_right silent⟩
  cases e with
  | idle => exact idle rfl (by simp)
  | accept c s => exact idle rfl (by simp)
  | touch c written =>
    refine idle ?_ (by simp)
    simp only [Directory.step, Directory.touch]
    split
    · rfl
    · rfl
  | hello c p m offered written kept =>
    simp only [Directory.step, Directory.hello]
    split
    · rename_i admitted
      have own : ((d.own m offered).owner n).isSome = true ↔ (d.owner n).isSome = true ∨ m = n := by
        by_cases same : n = m
        · subst same
          simp [Directory.own]
        · simp [Directory.own, same, Ne.symm same]
      have after : (∃ c' p' secret written' kept', Event.hello c p m offered written kept =
          (.hello c' p' n secret written' kept' : Event Conn Peer Group Name Secret Session) ∧
            d.admits n secret) ↔ m = n := by
        constructor
        · rintro ⟨_, _, _, _, _, same, -⟩
          exact (Event.hello.inj same).2.2.1
        · rintro rfl
          exact ⟨_, _, _, _, _, rfl, admitted⟩
      rw [after, ← own]
      split
      · rfl
      · rfl
    · rename_i refused
      refine idle ?_ ?_
      · unfold Directory.touch
        split
        · rfl
        · rfl
      · rintro ⟨_, _, _, _, _, same, admitted⟩
        obtain ⟨-, -, rfl, rfl, -, -⟩ := Event.hello.inj same
        exact refused admitted
  | leave c =>
    have left : (d.leave blank c).owner = d.owner := owner_drop
    exact idle left (by simp)
  | rehydrate => exact idle rfl (by simp)
  | restart => exact absurd rfl stays

theorem sits_leave : (d.leave blank c).sits p g ↔ d.sitsBeside c p g := by
  unfold Directory.leave
  rw [sits_vacate]
  simp only [Directory.sitsBeside, seat_drop]

theorem mem_dismiss {q : Peer} {h : Group} :
    q ∈ (d.dismiss p g).members h ↔ q ∈ d.members h ∧ ¬ (q = p ∧ h = g) := by
  unfold Directory.dismiss
  by_cases same : h = g
  · subst same
    simp
  · simp [same]

theorem mem_leave {q : Peer} {h : Group} (seat : d.seat c = some s) :
    q ∈ (d.leave blank c).members h ↔
      q ∈ d.members h ∧
        ((s.peer = blank.peer ∨ d.hasNamesake s) ∨ ¬ (q = s.peer ∧ h = s.group)) := by
  simp only [Directory.leave, Directory.vacate, Directory.drop, seat]
  by_cases keeps : s.peer = blank.peer ∨ d.hasNamesake s
  · simp [keeps]
  · simp only [keeps, ↓reduceIte, mem_dismiss, false_or]

theorem mem_leave_none {q : Peer} {h : Group} (free : d.seat c = none) :
    q ∈ (d.leave blank c).members h ↔ q ∈ d.members h := by
  simp [Directory.leave, Directory.vacate, Directory.drop, free]

theorem mem_hello {q : Peer} {n : Name} {secret : Secret} {kept : Bool}
    (admitted : d.admits n secret) :
    q ∈ (d.hello blank key c p n secret true kept).members g ↔
      (q = p ∧ g = key n secret) ∨ q ∈ d.members g := by
  simp only [Directory.hello, admitted, ↓reduceIte, Directory.enroll]
  by_cases named : g = key n secret
  · subst named
    simp [Directory.take, Directory.own]
  · simp [Directory.take, Directory.own, named]

theorem sits_hello {q : Peer} {n : Name} {secret : Secret} {kept : Bool}
    (admitted : d.admits n secret) :
    (d.hello blank key c p n secret true kept).sits q g ↔
      (p = q ∧ key n secret = g) ∨ d.sitsBeside c q g := by
  simp only [Directory.hello, admitted, ↓reduceIte]
  exact sits_take

theorem step_hello_unwritten {n : Name} {secret : Secret} {kept : Bool}
    (admitted : d.admits n secret) :
    d.step blank key (.hello c p n secret false kept) = d.own n secret := by
  simp [Directory.step, Directory.hello, admitted]

theorem step_hello_refused {n : Name} {secret : Secret} {written kept : Bool}
    (refused : ¬ d.admits n secret) :
    d.step blank key (.hello c p n secret written kept) = d.touch blank c kept := by
  simp [Directory.step, Directory.hello, refused]

end Seats

section Ghosts
variable (blank : Seat Peer Group Name Session) (key : Name → Secret → Group)
  (d : Directory Conn Peer Group Name Secret Session)

def NoGhosts : Prop := ∀ g p, p ∈ d.members g → d.sits p g

def GivesUp (c : Conn) (p : Peer) (g : Group) : Prop :=
  p ∉ d.members g ∨ d.sitsBeside c p g

def LeavesNoGhost : Event Conn Peer Group Name Secret Session → Prop
  | .hello c p n secret written _ =>
    d.admits n secret → written = true → ∀ s, d.seat c = some s →
      (s.peer = p ∧ s.group = key n secret) ∨ GivesUp d c s.peer s.group
  | .leave c => ∀ s, d.seat c = some s →
      (s.peer ≠ blank.peer ∧ ¬ d.hasNamesake s) ∨ GivesUp d c s.peer s.group
  | _ => True

variable {blank key d}

theorem noGhosts_touch {c : Conn} {written : Bool} (clean : NoGhosts d) :
    NoGhosts (d.touch blank c written) := by
  unfold Directory.touch
  split
  · intro g p member
    rw [sits_take]
    cases seat : d.seat c with
    | none => exact Or.inr ((sits_iff_beside_none seat).mp (clean g p member))
    | some s => simpa [seat] using (sits_iff_beside seat).mp (clean g p member)
  · exact clean

theorem noGhosts_hello (clean : NoGhosts d) {c : Conn} {p : Peer} {n : Name} {secret : Secret}
    {kept : Bool} (admitted : d.admits n secret) :
    NoGhosts (d.hello blank key c p n secret true kept) ↔
      ∀ s, d.seat c = some s →
        (s.peer = p ∧ s.group = key n secret) ∨ GivesUp d c s.peer s.group := by
  constructor
  · intro after s seat
    by_cases member : s.peer ∈ d.members s.group
    · rcases sits_hello admitted |>.mp (after _ _ ((mem_hello admitted).mpr (Or.inr member)))
        with same | beside
      · exact Or.inl ⟨same.1.symm, same.2.symm⟩
      · exact Or.inr (Or.inr beside)
    · exact Or.inr (Or.inl member)
  · intro condition g q member
    rw [sits_hello admitted]
    rcases (mem_hello admitted).mp member with ⟨rfl, rfl⟩ | old
    · exact Or.inl ⟨rfl, rfl⟩
    cases seat : d.seat c with
    | none => exact Or.inr ((sits_iff_beside_none seat).mp (clean g q old))
    | some s =>
      rcases (sits_iff_beside seat).mp (clean g q old) with ⟨rfl, rfl⟩ | beside
      · rcases condition s seat with same | absent | beside
        · exact Or.inl ⟨same.1.symm, same.2.symm⟩
        · exact absurd old absent
        · exact Or.inr beside
      · exact Or.inr beside

theorem noGhosts_leave (clean : NoGhosts d) {c : Conn} :
    NoGhosts (d.leave blank c) ↔
      ∀ s, d.seat c = some s →
        (s.peer ≠ blank.peer ∧ ¬ d.hasNamesake s) ∨ GivesUp d c s.peer s.group := by
  constructor
  · intro after s seat
    by_cases keeps : s.peer = blank.peer ∨ d.hasNamesake s
    · by_cases member : s.peer ∈ d.members s.group
      · have stays := (mem_leave seat).mpr ⟨member, Or.inl keeps⟩
        exact Or.inr (Or.inr (sits_leave.mp (after _ _ stays)))
      · exact Or.inr (Or.inl member)
    · exact Or.inl (not_or.mp keeps)
  · intro condition g p member
    rw [sits_leave]
    cases seat : d.seat c with
    | none => exact (sits_iff_beside_none seat).mp (clean g p ((mem_leave_none seat).mp member))
    | some s =>
      obtain ⟨old, reason⟩ := (mem_leave seat).mp member
      rcases (sits_iff_beside seat).mp (clean g p old) with ⟨rfl, rfl⟩ | beside
      · have keeps := reason.resolve_right (by simp)
        rcases condition s seat with ⟨known, alone⟩ | absent | beside
        · exact absurd keeps (not_or.mpr ⟨known, alone⟩)
        · exact absurd old absent
        · exact beside
      · exact beside

/-- A step from a directory without ghosts leaves none exactly under the condition. -/
theorem noGhosts_step_iff (clean : NoGhosts d) {e : Event Conn Peer Group Name Secret Session}
    (fresh : ∀ c s, e = .accept c s → d.seat c = none) :
    NoGhosts (d.step blank key e) ↔ LeavesNoGhost blank key d e := by
  cases e with
  | idle => exact iff_of_true clean trivial
  | accept c s =>
    refine iff_of_true ?_ trivial
    intro g p member
    obtain ⟨c', s', other, seated, here⟩ :=
      (sits_iff_beside_none (fresh c s rfl)).mp (clean g p member)
    refine ⟨c', s', ?_, here⟩
    simpa [Directory.step, Function.update_of_ne other] using seated
  | touch c written => exact iff_of_true (noGhosts_touch clean) trivial
  | hello c p n secret written kept =>
    by_cases admitted : d.admits n secret
    · cases written with
      | true =>
        exact (noGhosts_hello clean admitted).trans
          ⟨fun condition _ _ => condition, fun condition => condition admitted rfl⟩
      | false =>
        refine iff_of_true ?_ (by simp [LeavesNoGhost])
        rw [step_hello_unwritten admitted]
        exact clean
    · refine iff_of_true ?_ (by simp [LeavesNoGhost, admitted])
      rw [step_hello_refused admitted]
      exact noGhosts_touch clean
  | leave c => exact noGhosts_leave clean
  | rehydrate =>
    refine iff_of_true ?_ trivial
    rintro g p (member | seated)
    · exact clean g p member
    · exact seated.2
  | restart => exact iff_of_true (fun g p seated => seated.2) trivial

end Ghosts

section Evictions
variable (blank : Seat Peer Group Name Session) (key : Name → Secret → Group)
  (d : Directory Conn Peer Group Name Secret Session)

def NoEvictions : Prop := ∀ g p, p ≠ blank.peer → d.sits p g → p ∈ d.members g

def OneSessionEach : Prop :=
  ∀ c c' s s', d.seat c = some s → d.seat c' = some s' → s.session = s'.session → c = c'

variable {blank key d}

theorem noEvictions_touch {c : Conn} {written : Bool} (live : NoEvictions blank d) :
    NoEvictions blank (d.touch blank c written) := by
  unfold Directory.touch
  split
  · intro g p known sits
    rw [sits_take] at sits
    cases seat : d.seat c with
    | none =>
      rcases sits with ⟨blankPeer, -⟩ | ⟨c', s', -, seated, here⟩
      · simp only [seat, Option.getD_none] at blankPeer
        exact absurd blankPeer.symm known
      · exact live g p known ⟨c', s', seated, here⟩
    | some s =>
      simp only [seat, Option.getD_some] at sits
      exact live g p known ((sits_iff_beside seat).mpr sits)
  · exact live

theorem noEvictions_leave (live : NoEvictions blank d) (sessions : OneSessionEach d) {c : Conn} :
    NoEvictions blank (d.leave blank c) := by
  intro g p known sits
  obtain ⟨c', s', other, seated, rfl, rfl⟩ := sits_leave.mp sits
  have member : s'.peer ∈ d.members s'.group := live _ _ known ⟨c', s', seated, rfl, rfl⟩
  cases seat : d.seat c with
  | none => exact (mem_leave_none seat).mpr member
  | some s =>
    refine (mem_leave seat).mpr ⟨member, ?_⟩
    by_cases samePeer : s'.peer = s.peer
    · have namesake : d.hasNamesake s := by
        refine ⟨c', s', seated, samePeer, ?_⟩
        intro sameSession
        exact other (sessions c' c s' s seated seat sameSession)
      exact Or.inl (Or.inr namesake)
    · exact Or.inr (fun same => samePeer same.1)

/-- No step evicts a connected peer, as long as sessions tell connections apart. -/
theorem noEvictions_step (live : NoEvictions blank d) (sessions : OneSessionEach d)
    {e : Event Conn Peer Group Name Secret Session}
    (fresh : ∀ c s, e = .accept c (some s) → s.peer = blank.peer) :
    NoEvictions blank (d.step blank key e) := by
  cases e with
  | idle => exact live
  | accept c s =>
    cases s with
    | none =>
      rintro g p known sits
      obtain ⟨c', s', -, here⟩ := sits_vacate.mp sits
      exact live g p known ⟨c', s', here⟩
    | some s =>
      intro g p known sits
      rcases sits_take.mp sits with ⟨rfl, -⟩ | ⟨c', s', -, here⟩
      · exact absurd (fresh c s rfl) known
      · exact live g p known ⟨c', s', here⟩
  | touch c written => exact noEvictions_touch live
  | hello c p n secret written kept =>
    by_cases admitted : d.admits n secret
    · cases written with
      | true =>
        intro g q known sits
        rw [show d.step blank key (.hello c p n secret true kept) =
          d.hello blank key c p n secret true kept from rfl] at sits ⊢
        rw [mem_hello admitted]
        rcases (sits_hello admitted).mp sits with ⟨rfl, rfl⟩ | ⟨c', s', -, here⟩
        · exact Or.inl ⟨rfl, rfl⟩
        · exact Or.inr (live g q known ⟨c', s', here⟩)
      | false =>
        rw [step_hello_unwritten admitted]
        exact live
    · rw [step_hello_refused admitted]
      exact noEvictions_touch live
  | leave c => exact noEvictions_leave live sessions
  | rehydrate =>
    intro g p known sits
    exact Or.inl (live g p known sits)
  | restart =>
    intro g p known sits
    exact ⟨known, sits⟩

end Evictions

section Names
variable (blank : Seat Peer Group Name Session) (key : Name → Secret → Group)
  (d : Directory Conn Peer Group Name Secret Session)

def OneGroupPerName : Prop :=
  ∀ c c' s s', d.seat c = some s → d.seat c' = some s' → s.group ≠ blank.group →
    s'.group ≠ blank.group → s.name = s'.name → s.group = s'.group

def OwnersHold : Prop :=
  ∀ c s secret, d.seat c = some s → s.group ≠ blank.group → d.owner s.name = some secret →
    s.group = key s.name secret

def NamesAgree : Prop := OneGroupPerName blank d ∧ OwnersHold blank key d

/- A greeting that makes its secret the owner of a name finds no seat of the name elsewhere. -/
def FoundsName : Event Conn Peer Group Name Secret Session → Prop
  | .hello c _ n secret written _ => d.owner n = none →
    ∀ c' s, d.seat c' = some s → (written = true → c' ≠ c) → s.group ≠ blank.group →
      s.name = n → s.group = key n secret
  | _ => True

variable {blank key d}

/- A directory whose seats all stood before, up to seats of the blank group, and whose owners
   are no more, agrees if the old one did. -/
theorem namesAgree_of_fewer {d' : Directory Conn Peer Group Name Secret Session}
    (agree : NamesAgree blank key d)
    (seats : ∀ c s, d'.seat c = some s → s.group ≠ blank.group → d.seat c = some s)
    (owners : ∀ n secret, d'.owner n = some secret → d.owner n = some secret) :
    NamesAgree blank key d' := by
  constructor
  · intro c c' s s' seated seated' named named'
    exact agree.1 c c' s s' (seats c s seated named) (seats c' s' seated' named') named named'
  · intro c s secret seated named owned
    exact agree.2 c s secret (seats c s seated named) named (owners _ _ owned)

theorem namesAgree_update {c : Conn} {s : Option (Seat Peer Group Name Session)}
    (agree : NamesAgree blank key d)
    (unnamed : ∀ s', s = some s' → s'.group ≠ blank.group → d.seat c = some s') :
    NamesAgree blank key { d with seat := Function.update d.seat c s } := by
  refine namesAgree_of_fewer agree ?_ (fun _ _ owned => owned)
  intro c' s' seated named
  by_cases same : c' = c
  · subst same
    simp only [Function.update_self] at seated
    exact unnamed s' seated named
  · simpa [Function.update_of_ne same] using seated

theorem namesAgree_touch {c : Conn} {written : Bool} (agree : NamesAgree blank key d) :
    NamesAgree blank key (d.touch blank c written) := by
  unfold Directory.touch
  split
  · refine namesAgree_update agree ?_
    intro s' taken named
    cases seat : d.seat c with
    | none =>
      simp only [seat, Option.getD_none, Option.some.injEq] at taken
      exact absurd (congrArg Seat.group taken).symm named
    | some s => simpa [seat] using taken
  · exact agree

theorem group_of_admitted (agree : NamesAgree blank key d) {c c' : Conn} {p : Peer} {n : Name}
    {secret : Secret} {written kept : Bool} {s : Seat Peer Group Name Session}
    (admitted : d.admits n secret)
    (founds : FoundsName blank key d (.hello c p n secret written kept))
    (seated : d.seat c' = some s) (other : written = true → c' ≠ c)
    (named : s.group ≠ blank.group) (sameName : s.name = n) : s.group = key n secret := by
  cases owned : d.owner n with
  | none => exact founds owned c' s seated other named sameName
  | some secret' =>
    have same := admitted secret' owned
    subst sameName
    rw [agree.2 c' s secret' seated named owned, same]

theorem namesAgree_hello (agree : NamesAgree blank key d) {c : Conn} {p : Peer} {n : Name}
    {secret : Secret} {written kept : Bool} (admitted : d.admits n secret)
    (founds : FoundsName blank key d (.hello c p n secret written kept)) :
    NamesAgree blank key (d.hello blank key c p n secret written kept) := by
  have grouped {c' : Conn} {s : Seat Peer Group Name Session} (seated : d.seat c' = some s)
      (other : written = true → c' ≠ c) (named : s.group ≠ blank.group) (sameName : s.name = n) :
      s.group = key n secret := group_of_admitted agree admitted founds seated other named sameName
  cases written with
  | false =>
    have unwritten : d.hello blank key c p n secret false kept = d.own n secret :=
      step_hello_unwritten admitted
    rw [unwritten]
    refine ⟨agree.1, ?_⟩
    intro c' s secret' seated named owned
    by_cases sameName : s.name = n
    · simp only [Directory.own, sameName, Function.update_self, Option.some.injEq] at owned
      rw [← owned, sameName]
      exact grouped seated (by simp) named sameName
    · simp only [Directory.own, Function.update_of_ne sameName] at owned
      exact agree.2 c' s secret' seated named owned
  | true =>
    -- each seat is the new one, or an old one that the greeting left in place
    have origin : ∀ c' s, (d.hello blank key c p n secret true kept).seat c' = some s →
        (s.name = n ∧ s.group = key n secret) ∨ (c' ≠ c ∧ d.seat c' = some s) := by
      intro c' s seated
      simp only [Directory.hello, admitted, ↓reduceIte, Directory.enroll, Directory.take,
        Directory.own] at seated
      by_cases same : c' = c
      · subst same
        simp only [Function.update_self, Option.some.injEq] at seated
        exact Or.inl (by simp [← seated])
      · simp only [Function.update_of_ne same] at seated
        exact Or.inr ⟨same, seated⟩
    have group : ∀ c' s, (d.hello blank key c p n secret true kept).seat c' = some s →
        s.group ≠ blank.group → s.name = n → s.group = key n secret := by
      intro c' s seated named sameName
      rcases origin c' s seated with ⟨-, here⟩ | ⟨other, old⟩
      · exact here
      · exact grouped old (fun _ => other) named sameName
    constructor
    · intro c₁ c₂ s₁ s₂ seated₁ seated₂ named₁ named₂ sameName
      by_cases greeted : s₁.name = n
      · rw [group c₁ s₁ seated₁ named₁ greeted, group c₂ s₂ seated₂ named₂ (sameName ▸ greeted)]
      · rcases origin c₁ s₁ seated₁ with ⟨here, -⟩ | ⟨-, old₁⟩
        · exact absurd here greeted
        rcases origin c₂ s₂ seated₂ with ⟨here, -⟩ | ⟨-, old₂⟩
        · exact absurd (sameName.trans here) greeted
        exact agree.1 c₁ c₂ s₁ s₂ old₁ old₂ named₁ named₂ sameName
    · intro c' s secret' seated named owned
      simp only [Directory.hello, admitted, ↓reduceIte, Directory.enroll, Directory.take,
        Directory.own] at owned
      by_cases greeted : s.name = n
      · simp only [greeted, Function.update_self, Option.some.injEq] at owned
        rw [group c' s seated named greeted, ← owned, greeted]
      · simp only [Function.update_of_ne greeted] at owned
        rcases origin c' s seated with ⟨here, -⟩ | ⟨-, old⟩
        · exact absurd here greeted
        exact agree.2 c' s secret' old named owned

theorem namesAgree_step (agree : NamesAgree blank key d)
    {e : Event Conn Peer Group Name Secret Session} (founds : FoundsName blank key d e)
    (fresh : ∀ c s, e = .accept c (some s) → s.group = blank.group) :
    NamesAgree blank key (d.step blank key e) := by
  cases e with
  | idle => exact agree
  | accept c s =>
    refine namesAgree_update agree ?_
    rintro s' rfl named
    exact absurd (fresh c s' rfl) named
  | touch c written => exact namesAgree_touch agree
  | hello c p n secret written kept =>
    by_cases admitted : d.admits n secret
    · exact namesAgree_hello agree admitted founds
    · rw [step_hello_refused admitted]
      exact namesAgree_touch agree
  | leave c =>
    have gone : NamesAgree blank key (d.vacate c) := namesAgree_update agree (by simp)
    refine namesAgree_of_fewer gone ?_ ?_
    · intro c' s seated _
      simpa [Directory.step, Directory.leave, Directory.vacate, seat_drop] using seated
    · intro n secret owned
      simpa [Directory.step, Directory.leave, Directory.vacate, owner_drop] using owned
  | rehydrate => exact namesAgree_of_fewer agree (fun _ _ seated _ => seated) (fun _ _ owned => owned)
  | restart =>
    refine namesAgree_of_fewer agree (fun _ _ seated _ => seated) ?_
    intro n secret owned
    simp [Directory.step] at owned

end Names

section Introductions
variable {blank : Seat Peer Group Name Session} {key : Name → Secret → Group}
  {d : Directory Conn Peer Group Name Secret Session}
  {greeted : Conn → Peer → Name → Secret → Prop}

/- Every seat is as good as blank, or was taken with a greeting on its connection. -/
def Introduced (blank : Seat Peer Group Name Session) (key : Name → Secret → Group)
    (greeted : Conn → Peer → Name → Secret → Prop)
    (d : Directory Conn Peer Group Name Secret Session) : Prop :=
  ∀ c s, d.seat c = some s → (s.peer = blank.peer ∧ s.group = blank.group) ∨
    ∃ secret, greeted c s.peer s.name secret ∧ s.group = key s.name secret

theorem introduced_touch (introduced : Introduced blank key greeted d) (c : Conn)
    (written : Bool) : Introduced blank key greeted (d.touch blank c written) := by
  unfold Directory.touch
  split
  · intro c' s seated
    by_cases same : c' = c
    · subst same
      simp only [Directory.take, Function.update_self, Option.some.injEq] at seated
      subst seated
      cases before : d.seat c' with
      | none => exact Or.inl ⟨rfl, rfl⟩
      | some old => exact introduced c' old before
    · simp only [Directory.take, Function.update_of_ne same] at seated
      exact introduced c' s seated
  · exact introduced

/-- Seats stay introduced while the greetings that are recorded count as such. -/
theorem introduced_step (introduced : Introduced blank key greeted d)
    {e : Event Conn Peer Group Name Secret Session}
    (fresh : ∀ c s, e = .accept c (some s) → s.peer = blank.peer ∧ s.group = blank.group)
    (hello : ∀ c p n secret kept, e = .hello c p n secret true kept → d.admits n secret →
      greeted c p n secret) :
    Introduced blank key greeted (d.step blank key e) := by
  cases e with
  | idle => exact introduced
  | accept c seat =>
    intro c' s seated
    by_cases same : c' = c
    · subst same
      simp only [Directory.step, Function.update_self] at seated
      exact Or.inl (fresh c' s (by rw [seated]))
    · simp only [Directory.step, Function.update_of_ne same] at seated
      exact introduced c' s seated
  | touch c written => exact introduced_touch introduced c written
  | hello c p n secret written kept =>
    simp only [Directory.step, Directory.hello]
    split
    · rename_i admitted
      split
      · rename_i recorded
        intro c' s seated
        by_cases same : c' = c
        · subst same
          simp only [Directory.enroll, Directory.take, Directory.own, Function.update_self,
            Option.some.injEq] at seated
          subst seated
          exact Or.inr ⟨secret, hello c' p n secret kept (by rw [recorded]) admitted, rfl⟩
        · simp only [Directory.enroll, Directory.take, Directory.own,
            Function.update_of_ne same] at seated
          exact introduced c' s seated
      · exact introduced
    · exact introduced_touch introduced c kept
  | leave c =>
    intro c' s seated
    by_cases same : c' = c
    · subst same
      simp [Directory.step, Directory.leave, Directory.vacate] at seated
    · simp only [Directory.step, Directory.leave, Directory.vacate, Function.update_of_ne same,
        seat_drop] at seated
      exact introduced c' s seated
  | rehydrate => exact introduced
  | restart => exact introduced

end Introductions

end ConnectionDirectory
