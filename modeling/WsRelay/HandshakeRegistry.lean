import WsRelay.RoomSteps

/- The digest registry over a history of handshakes: the first accepted digest of a network
   name stays, so accepted handshakes of one name agree and their group keys tell the
   networks apart. -/
namespace RelayHandshakeRegistry
open RelayProtocol RelayPeerManager RelayRpcHandler RelayRoomSteps TransitionRuns PlainText

variable (x : Externals)

def handshake (registry : DigestRegistry) (payload : Bytes) : DigestRegistry :=
  (handleHandshake x payload registry).2

structure AnswersRequest (payload : Bytes) (registry : DigestRegistry) (req : HandshakeRequest)
    (outcome : HandshakeOutcome) : Prop where
  decoded : x.decodeHandshakeRequest payload = some req
  answered : (handleHandshake x payload registry).1 = some outcome

variable {x}

theorem answers_registered {payload : Bytes} {registry : DigestRegistry} {req : HandshakeRequest}
    {outcome : HandshakeOutcome} (accepted : AnswersRequest x payload registry req outcome) :
    (handshake x registry payload)[req.networkName]? = some (hexText req.networkSecretDigest) ∧
      outcome = handshakeOutcome x req (hexText req.networkSecretDigest) := by
  have answered := accepted.answered
  unfold handshake
  unfold handleHandshake at answered ⊢
  simp only [accepted.decoded] at answered ⊢
  by_cases magical : req.magic = magic
  · simp only [magical, ne_eq, not_true_eq_false, ↓reduceIte] at answered ⊢
    cases owned : registry[req.networkName]? with
    | none =>
      simp only [owned, Option.some.injEq] at answered
      exact ⟨Std.ExtTreeMap.getElem?_insert_self, answered.symm⟩
    | some existing =>
      by_cases agrees : existing = hexText req.networkSecretDigest
      · subst agrees
        simp only [owned, not_true_eq_false, ↓reduceIte, Option.some.injEq] at answered ⊢
        exact ⟨trivial, answered.symm⟩
      · simp [owned, agrees] at answered
  · simp [magical] at answered

theorem handshake_refused {payload : Bytes} {registry : DigestRegistry}
    (refused : (handleHandshake x payload registry).1 = none) :
    handshake x registry payload = registry := by
  unfold handshake
  unfold handleHandshake at refused ⊢
  cases decoded : x.decodeHandshakeRequest payload with
  | none => rfl
  | some req =>
    simp only [decoded] at refused ⊢
    by_cases magical : req.magic = magic
    · simp only [magical, ne_eq, not_true_eq_false, ↓reduceIte] at refused ⊢
      cases owned : registry[req.networkName]? with
      | none => simp [owned] at refused
      | some existing =>
        by_cases agrees : existing = hexText req.networkSecretDigest
        · simp [owned, agrees] at refused
        · simp [agrees]
    · simp [magical]

theorem handshake_keeps {registry : DigestRegistry} {name digest : String} (payload : Bytes)
    (known : registry[name]? = some digest) :
    (handshake x registry payload)[name]? = some digest := by
  unfold handshake handleHandshake
  cases x.decodeHandshakeRequest payload with
  | none => exact known
  | some req =>
    by_cases magical : req.magic = magic
    · simp only [magical, ne_eq, not_true_eq_false, ↓reduceIte]
      cases owned : registry[req.networkName]? with
      | none =>
        have other : req.networkName ≠ name := by
          intro same
          rw [same, known] at owned
          cases owned
        simpa [Std.ExtTreeMap.getElem?_insert, other] using known
      | some existing =>
        by_cases agrees : existing = hexText req.networkSecretDigest
        · simpa [agrees] using known
        · simpa [agrees] using known
    · simpa [magical] using known

theorem handshakes_keep {registry : DigestRegistry} {name digest : String}
    (known : registry[name]? = some digest) (payloads : List Bytes) :
    (run (handshake x) registry payloads)[name]? = some digest :=
  invariant_run (fun registry => registry[name]? = some digest)
    (fun _ payload _ known => handshake_keeps payload known) known (everyStep_true registry payloads)

variable (x)

def AcceptedIn (start : DigestRegistry) (payloads : List Bytes) (req : HandshakeRequest)
    (outcome : HandshakeOutcome) : Prop :=
  ∃ earlier payload later, payloads = earlier ++ payload :: later ∧
    AnswersRequest x payload (run (handshake x) start earlier) req outcome

variable {x}

theorem acceptedIn_registered {start : DigestRegistry} {payloads : List Bytes}
    {req : HandshakeRequest} {outcome : HandshakeOutcome}
    (accepted : AcceptedIn x start payloads req outcome) :
    (run (handshake x) start payloads)[req.networkName]? = some (hexText req.networkSecretDigest) ∧
      outcome.groupKey = groupKeyOf req.networkName (hexText req.networkSecretDigest) := by
  obtain ⟨earlier, payload, later, rfl, answered⟩ := accepted
  obtain ⟨registered, answer⟩ := answers_registered answered
  rw [run_append, run_cons]
  refine ⟨handshakes_keep registered later, ?_⟩
  rw [answer]
  simp only [handshakeOutcome]

variable (x)

structure SeparatesNetworks (start : DigestRegistry) (payloads : List Bytes) : Prop where
  only_grows : ∀ before after, payloads = before ++ after → ∀ name digest : String,
    (run (handshake x) start before)[name]? = some digest →
      (run (handshake x) start payloads)[name]? = some digest
  refusal_writes_nothing : ∀ before payload after, payloads = before ++ payload :: after →
    (handleHandshake x payload (run (handshake x) start before)).1 = none →
      (handleHandshake x payload (run (handshake x) start before)).2 =
        run (handshake x) start before
  one_digest : ∀ req outcome req' outcome', AcceptedIn x start payloads req outcome →
    AcceptedIn x start payloads req' outcome' → req.networkName = req'.networkName →
      req.networkSecretDigest = req'.networkSecretDigest
  one_group : ∀ req outcome req' outcome', AcceptedIn x start payloads req outcome →
    AcceptedIn x start payloads req' outcome' →
      (outcome.groupKey = outcome'.groupKey ↔ req.networkName = req'.networkName ∧
        req.networkSecretDigest = req'.networkSecretDigest)

/-- Every history of handshakes, from every registry, keeps the networks apart. -/
theorem handshakes_separate_networks (start : DigestRegistry) (payloads : List Bytes) :
    SeparatesNetworks x start payloads where
  only_grows := by
    intro before after split name digest known
    rw [split, run_append]
    exact handshakes_keep known after
  refusal_writes_nothing := by
    intro before payload after _ refused
    exact handshake_refused refused
  one_digest := by
    intro req outcome req' outcome' accepted accepted' sameName
    have registered := (acceptedIn_registered accepted).1
    have registered' := (acceptedIn_registered accepted').1
    rw [sameName, registered', Option.some.injEq] at registered
    exact (hexText_injective registered).symm
  one_group := by
    intro req outcome req' outcome' accepted accepted'
    rw [(acceptedIn_registered accepted).2, (acceptedIn_registered accepted').2]
    constructor
    · exact groupKeyOf_injective
    · intro same
      rw [same.1, same.2]

end RelayHandshakeRegistry
