import WsRelay.PeerCenterCache

/- clean_outdated over a history of reports, polls and cleanups. Ages are taken by a wrapping
   subtraction and compared with a wrapping product, and the digest is not taken again. -/
namespace RelayCenterExpiry
open RelayProtocol RelayPeerCenter RelayPeerCenterCache RelayWireFormats TransitionRuns

inductive CenterCall where
  | report (groupKey : GroupKey) (reportBytes : Bytes) (nowMs : Millis)
  | poll (groupKey : GroupKey) (requestBytes : Bytes)
  | clean (nowMs : Millis) (ttlSec : UInt64)

def PeerCenter.call (x : Externals) (pc : PeerCenter) : CenterCall → PeerCenter
  | .report groupKey reportBytes nowMs => (pc.reportPeers x groupKey reportBytes nowMs).2
  | .poll groupKey requestBytes => (pc.getGlobalPeerMap x groupKey requestBytes).2
  | .clean nowMs ttlSec => pc.cleanOutdated nowMs ttlSec

def reportTime (pc : PeerCenter) (groupKey : GroupKey) (p : PeerId) : Option Millis :=
  (pc.groups[groupKey]?).bind (·.peerReportTime[p]?)

def pairEntry (pc : PeerCenter) (groupKey : GroupKey) (pair : SrcDstPeerPair) :
    Option PeerCenterInfoEntry :=
  (pc.groups[groupKey]?).bind (·.globalPeerMap[pair]?)

def Fresh (nowMs : Millis) (ttlSec : UInt64) (t : Millis) : Prop :=
  nowMs.toNat - t.toNat < ttlSec.toNat * 1000

instance (nowMs : Millis) (ttlSec : UInt64) (t : Millis) : Decidable (Fresh nowMs ttlSec t) :=
  inferInstanceAs (Decidable (_ < _))

def keeps (nowMs : Millis) (ttlSec : UInt64) (t : Millis) : Bool := nowMs - t < ttlSec * 1000

/- The product fits, or the age is below what is left of it; a time ahead of the clock counts as
   2^64 less its distance, which is to be below the product too. -/
def Unwrapped (nowMs : Millis) (ttlSec : UInt64) (t : Millis) : Prop :=
  if t ≤ nowMs then
    ttlSec.toNat * 1000 < 2 ^ 64 ∨ nowMs.toNat - t.toNat < ttlSec.toNat * 1000 % 2 ^ 64
  else ttlSec = 0 ∨ 2 ^ 64 - (t.toNat - nowMs.toNat) < ttlSec.toNat * 1000 % 2 ^ 64

theorem keeps_eq (nowMs : Millis) (ttlSec : UInt64) (t : Millis) :
    keeps nowMs ttlSec t = true ↔
      (2 ^ 64 - t.toNat + nowMs.toNat) % 2 ^ 64 < ttlSec.toNat * 1000 % 2 ^ 64 := by
  rw [keeps, decide_eq_true_eq, UInt64.lt_iff_toNat_lt, UInt64.toNat_sub, UInt64.toNat_mul]
  rfl

theorem unwrapped_iff (nowMs : Millis) (ttlSec : UInt64) (t : Millis) :
    (keeps nowMs ttlSec t = true ↔ Fresh nowMs ttlSec t) ↔ Unwrapped nowMs ttlSec t := by
  have nowSmall := nowMs.toNat_lt
  have tSmall := t.toNat_lt
  have zero : ttlSec = 0 ↔ ttlSec.toNat = 0 := by
    rw [← UInt64.toNat_inj]
    rfl
  rw [keeps_eq, Fresh, Unwrapped]
  by_cases past : t ≤ nowMs
  · have order := UInt64.le_iff_toNat_le.mp past
    rw [if_pos past]
    omega
  · have order : ¬ t.toNat ≤ nowMs.toNat := fun le => past (UInt64.le_iff_toNat_le.mpr le)
    rw [if_neg past, zero]
    omega

section Clean
variable (pc : PeerCenter) (nowMs : Millis) (ttlSec : UInt64)

theorem groups_clean (groupKey : GroupKey) :
    (pc.cleanOutdated nowMs ttlSec).groups[groupKey]? =
      ((pc.groups[groupKey]?).map (·.cleanOutdated nowMs (ttlSec * 1000))).filter fun data =>
        !data.globalPeerMap.isEmpty || !data.peerReportTime.isEmpty := by
  simp only [PeerCenter.cleanOutdated, Std.ExtTreeMap.getElem?_filter',
    Std.ExtTreeMap.getElem?_map]

theorem field_clean {Key Value : Type} [Ord Key] [Std.TransOrd Key] [Std.LawfulEqOrd Key]
    (field : PeerCenterGroupData → Std.ExtTreeMap Key Value) (fresh : Key → Value → Bool)
    (cleaned : ∀ data : PeerCenterGroupData,
      field (data.cleanOutdated nowMs (ttlSec * 1000)) = (field data).filter fresh)
    (dropped : ∀ data : PeerCenterGroupData,
      data.globalPeerMap = ∅ ∧ data.peerReportTime = ∅ → field data = ∅)
    (groupKey : GroupKey) (k : Key) :
    ((pc.cleanOutdated nowMs ttlSec).groups[groupKey]?).bind (fun data => (field data)[k]?) =
      ((pc.groups[groupKey]?).bind fun data => (field data)[k]?).filter (fresh k) := by
  rw [groups_clean]
  cases pc.groups[groupKey]? with
  | none => rfl
  | some data =>
    have entry : (field (data.cleanOutdated nowMs (ttlSec * 1000)))[k]? =
        ((field data)[k]?).filter (fresh k) := by
      rw [cleaned, Std.ExtTreeMap.getElem?_filter']
    rw [Option.map_some, Option.bind_some, ← entry]
    cases held : (!(data.cleanOutdated nowMs (ttlSec * 1000)).globalPeerMap.isEmpty ||
        !(data.cleanOutdated nowMs (ttlSec * 1000)).peerReportTime.isEmpty) with
    | true => simp [Option.filter, held]
    | false =>
      simp only [Option.filter, held, Bool.false_eq_true, ↓reduceIte, Option.bind_none]
      simp only [Bool.or_eq_false_iff, Bool.not_eq_false', Std.ExtTreeMap.isEmpty_iff] at held
      rw [dropped _ held, Std.ExtTreeMap.getElem?_empty]

theorem reportTime_clean (groupKey : GroupKey) (p : PeerId) :
    reportTime (pc.cleanOutdated nowMs ttlSec) groupKey p =
      (reportTime pc groupKey p).filter (keeps nowMs ttlSec) :=
  field_clean pc nowMs ttlSec (·.peerReportTime) (fun _ t => keeps nowMs ttlSec t)
    (fun _ => rfl) (fun _ both => both.2) groupKey p

theorem pairEntry_clean (groupKey : GroupKey) (pair : SrcDstPeerPair) :
    pairEntry (pc.cleanOutdated nowMs ttlSec) groupKey pair =
      (pairEntry pc groupKey pair).filter fun entry => keeps nowMs ttlSec entry.updateTimeMs :=
  field_clean pc nowMs ttlSec (·.globalPeerMap)
    (fun _ entry => keeps nowMs ttlSec entry.updateTimeMs) (fun _ => rfl) (fun _ both => both.1)
    groupKey pair

theorem mem_groups_clean (groupKey : GroupKey) :
    groupKey ∈ (pc.cleanOutdated nowMs ttlSec).groups ↔
      (∃ p t, reportTime (pc.cleanOutdated nowMs ttlSec) groupKey p = some t) ∨
        ∃ pair entry, pairEntry (pc.cleanOutdated nowMs ttlSec) groupKey pair = some entry := by
  have present := groups_clean pc nowMs ttlSec groupKey
  rw [Std.ExtTreeMap.mem_iff_isSome_getElem?]
  unfold reportTime pairEntry
  cases kept : (pc.cleanOutdated nowMs ttlSec).groups[groupKey]? with
  | none => simp
  | some data =>
    rw [kept] at present
    have held := (Option.filter_eq_some_iff.mp present.symm).2
    simp only [Bool.or_eq_true, Bool.not_eq_true', Std.ExtTreeMap.isEmpty_eq_false_iff,
      Std.ExtTreeMap.eq_empty_iff_forall_not_mem, not_forall, not_not,
      Std.ExtTreeMap.mem_iff_isSome_getElem?, Option.isSome_iff_exists] at held
    simp only [Option.isSome_some, Option.bind_some, true_iff]
    rcases held with ⟨pair, entry, stored⟩ | ⟨p, t, stored⟩
    · exact Or.inr ⟨pair, entry, stored⟩
    · exact Or.inl ⟨p, t, stored⟩

end Clean

/-- What a cleanup is for: the fresh entries stay and no others, a group goes with its last entry,
    and the digest of a group that stays is the one of what it still holds. -/
structure CleansExactly (x : Externals) (pc : PeerCenter) (nowMs : Millis) (ttlSec : UInt64) :
    Prop where
  times : ∀ groupKey p t, reportTime (pc.cleanOutdated nowMs ttlSec) groupKey p = some t ↔
    reportTime pc groupKey p = some t ∧ Fresh nowMs ttlSec t
  pairs : ∀ groupKey pair entry,
    pairEntry (pc.cleanOutdated nowMs ttlSec) groupKey pair = some entry ↔
      pairEntry pc groupKey pair = some entry ∧ Fresh nowMs ttlSec entry.updateTimeMs
  groups : ∀ groupKey, groupKey ∈ (pc.cleanOutdated nowMs ttlSec).groups ↔
    (∃ p t, reportTime pc groupKey p = some t ∧ Fresh nowMs ttlSec t) ∨
      ∃ pair entry, pairEntry pc groupKey pair = some entry ∧
        Fresh nowMs ttlSec entry.updateTimeMs
  digests : ∀ (groupKey : GroupKey) (data : PeerCenterGroupData),
    (pc.cleanOutdated nowMs ttlSec).groups[groupKey]? = some data →
    data.digest = calcDigestInternal x data

def freshPairs (nowMs : Millis) (ttlSec : UInt64) (stored : PairStore) : PairStore :=
  stored.filter fun _ entry => Fresh nowMs ttlSec entry.updateTimeMs

/- The stored times are read without a wrap, and a group that keeps anything loses no pair, or
   only pairs without which the hash is the same. -/
structure CleansSafely (x : Externals) (pc : PeerCenter) (nowMs : Millis) (ttlSec : UInt64) :
    Prop where
  times : ∀ groupKey p t, reportTime pc groupKey p = some t → Unwrapped nowMs ttlSec t
  pairs : ∀ groupKey pair entry, pairEntry pc groupKey pair = some entry →
    Unwrapped nowMs ttlSec entry.updateTimeMs
  digests : ∀ (groupKey : GroupKey) (data : PeerCenterGroupData),
    pc.groups[groupKey]? = some data →
    ((∃ p t, reportTime pc groupKey p = some t ∧ Fresh nowMs ttlSec t) ∨
      ∃ pair entry, pairEntry pc groupKey pair = some entry ∧
        Fresh nowMs ttlSec entry.updateTimeMs) →
    (∀ pair entry, pairEntry pc groupKey pair = some entry →
      Fresh nowMs ttlSec entry.updateTimeMs) ∨
      x.defaultHash (digestInput (freshPairs nowMs ttlSec data.globalPeerMap)) =
        x.defaultHash (digestInput data.globalPeerMap)

/- A group that holds anything has received a report, and its digest is the current one. -/
def Truthful (x : Externals) (pc : PeerCenter) : Prop :=
  ∀ (groupKey : GroupKey) (data : PeerCenterGroupData), pc.groups[groupKey]? = some data →
    data.globalPeerMap ≠ ∅ ∨ data.peerReportTime ≠ ∅ → data.digest = calcDigestInternal x data

section Exact
variable {x : Externals} {pc : PeerCenter} {nowMs : Millis} {ttlSec : UInt64}

theorem truthful_new : Truthful x .new := by
  intro groupKey data stored
  simp [PeerCenter.new] at stored

theorem truthful_put (truthful : Truthful x pc) {groupKey : GroupKey} {data : PeerCenterGroupData}
    (current : data.globalPeerMap ≠ ∅ ∨ data.peerReportTime ≠ ∅ →
      data.digest = calcDigestInternal x data) : Truthful x (pc.put groupKey data) := by
  intro other stored found
  simp only [PeerCenter.put, Std.ExtTreeMap.getElem?_insert, Std.LawfulEqCmp.compare_eq_iff_eq]
    at found
  split at found
  · obtain rfl := Option.some.inj found
    exact current
  · exact truthful other stored found

theorem truthful_report (truthful : Truthful x pc) (groupKey : GroupKey) (reportBytes : Bytes)
    (now : Millis) : Truthful x (pc.reportPeers x groupKey reportBytes now).2 := by
  unfold PeerCenter.reportPeers
  cases x.decodeReportPeersRequest reportBytes with
  | none => exact truthful
  | some req => exact truthful_put truthful fun _ => rfl

/- A poll may leave an empty group behind. -/
theorem truthful_poll (truthful : Truthful x pc) (groupKey : GroupKey) (requestBytes : Bytes) :
    Truthful x (pc.getGlobalPeerMap x groupKey requestBytes).2 := by
  unfold PeerCenter.getGlobalPeerMap
  cases x.decodeGetGlobalPeerMapRequest requestBytes with
  | none => exact truthful
  | some req =>
    refine truthful_put truthful fun holds => ?_
    unfold PeerCenter.group at holds ⊢
    rw [Std.ExtTreeMap.getD_eq_getD_getElem?] at holds ⊢
    cases stored : pc.groups[groupKey]? with
    | none =>
      rw [stored] at holds
      simp at holds
    | some data =>
      rw [stored] at holds
      exact truthful groupKey data stored holds

theorem CleansExactly.truthful (exact : CleansExactly x pc nowMs ttlSec) :
    Truthful x (pc.cleanOutdated nowMs ttlSec) :=
  fun groupKey data stored _ => exact.digests groupKey data stored

theorem filter_iff {Value : Type} {keep : Value → Bool} {fresh : Value → Prop}
    (found : Option Value) :
    (∀ v, found.filter keep = some v ↔ found = some v ∧ fresh v) ↔
      ∀ v, found = some v → (keep v = true ↔ fresh v) := by
  cases found with
  | none => simp
  | some held =>
    simp only [Option.filter_eq_some_iff, Option.some.injEq]
    constructor
    · intro same v here
      have exact := same v
      simpa [here] using exact
    · intro same v
      constructor
      · intro kept
        exact ⟨kept.1, (same v kept.1).mp kept.2⟩
      · intro kept
        exact ⟨kept.1, (same v kept.1).mpr kept.2⟩

theorem times_iff : (∀ groupKey p t,
      reportTime (pc.cleanOutdated nowMs ttlSec) groupKey p = some t ↔
        reportTime pc groupKey p = some t ∧ Fresh nowMs ttlSec t) ↔
    ∀ groupKey p t, reportTime pc groupKey p = some t → Unwrapped nowMs ttlSec t := by
  simp only [reportTime_clean, filter_iff, unwrapped_iff]

theorem pairs_iff : (∀ groupKey pair entry,
      pairEntry (pc.cleanOutdated nowMs ttlSec) groupKey pair = some entry ↔
        pairEntry pc groupKey pair = some entry ∧ Fresh nowMs ttlSec entry.updateTimeMs) ↔
    ∀ groupKey pair entry, pairEntry pc groupKey pair = some entry →
      Unwrapped nowMs ttlSec entry.updateTimeMs := by
  simp only [pairEntry_clean, filter_iff, unwrapped_iff]

theorem clean_group {groupKey : GroupKey} {data : PeerCenterGroupData}
    (stored : pc.groups[groupKey]? = some data)
    (stays : groupKey ∈ (pc.cleanOutdated nowMs ttlSec).groups) :
    (pc.cleanOutdated nowMs ttlSec).groups[groupKey]? =
      some (data.cleanOutdated nowMs (ttlSec * 1000)) := by
  have present := groups_clean pc nowMs ttlSec groupKey
  rw [Std.ExtTreeMap.mem_iff_isSome_getElem?, present, stored] at stays
  rw [present, stored]
  simp only [Option.map_some, Option.isSome_filter, Option.any_some] at stays
  simp only [Option.map_some, Option.filter, stays, ↓reduceIte]

theorem keptPairs_eq {stored : PairStore}
    (unwrapped : ∀ (pair : SrcDstPeerPair) entry, stored[pair]? = some entry →
      Unwrapped nowMs ttlSec entry.updateTimeMs) :
    (stored.filter fun _ entry => keeps nowMs ttlSec entry.updateTimeMs) =
      freshPairs nowMs ttlSec stored := by
  apply Std.ExtTreeMap.ext_getElem?
  intro pair
  rw [freshPairs, Std.ExtTreeMap.getElem?_filter', Std.ExtTreeMap.getElem?_filter']
  cases held : stored[pair]? with
  | none => rfl
  | some entry =>
    have same := (unwrapped_iff nowMs ttlSec entry.updateTimeMs).mpr (unwrapped pair entry held)
    simp only [Option.filter, decide_eq_true_eq, same]

theorem freshPairs_all {stored : PairStore}
    (fresh : ∀ (pair : SrcDstPeerPair) entry, stored[pair]? = some entry →
      Fresh nowMs ttlSec entry.updateTimeMs) : freshPairs nowMs ttlSec stored = stored := by
  apply Std.ExtTreeMap.ext_getElem?
  intro pair
  rw [freshPairs, Std.ExtTreeMap.getElem?_filter']
  cases held : stored[pair]? with
  | none => rfl
  | some entry => simp [Option.filter, fresh pair entry held]

theorem pairEntry_of_group {groupKey : GroupKey} {data : PeerCenterGroupData}
    (stored : pc.groups[groupKey]? = some data) (pair : SrcDstPeerPair) :
    pairEntry pc groupKey pair = data.globalPeerMap[pair]? := by
  rw [pairEntry, stored, Option.bind_some]

theorem digest_clean_iff (truthful : Truthful x pc) {groupKey : GroupKey}
    {data : PeerCenterGroupData} (stored : pc.groups[groupKey]? = some data)
    (unwrapped : ∀ pair entry, pairEntry pc groupKey pair = some entry →
      Unwrapped nowMs ttlSec entry.updateTimeMs)
    (holds : data.globalPeerMap ≠ ∅ ∨ data.peerReportTime ≠ ∅) :
    (data.cleanOutdated nowMs (ttlSec * 1000)).digest =
        calcDigestInternal x (data.cleanOutdated nowMs (ttlSec * 1000)) ↔
      (∀ pair entry, pairEntry pc groupKey pair = some entry →
        Fresh nowMs ttlSec entry.updateTimeMs) ∨
      x.defaultHash (digestInput (freshPairs nowMs ttlSec data.globalPeerMap)) =
        x.defaultHash (digestInput data.globalPeerMap) := by
  simp only [pairEntry_of_group stored] at unwrapped ⊢
  have old : (data.cleanOutdated nowMs (ttlSec * 1000)).digest =
      x.defaultHash (digestInput data.globalPeerMap) := truthful groupKey data stored holds
  have new : calcDigestInternal x (data.cleanOutdated nowMs (ttlSec * 1000)) =
      x.defaultHash (digestInput (freshPairs nowMs ttlSec data.globalPeerMap)) := by
    rw [← keptPairs_eq unwrapped]
    rfl
  rw [old, new]
  constructor
  · intro same
    exact Or.inr same.symm
  · intro safe
    rcases safe with fresh | collide
    · rw [freshPairs_all fresh]
    · exact collide.symm

theorem holds_of_fresh {groupKey : GroupKey} {data : PeerCenterGroupData}
    (stored : pc.groups[groupKey]? = some data)
    (fresh : (∃ p t, reportTime pc groupKey p = some t ∧ Fresh nowMs ttlSec t) ∨
      ∃ pair entry, pairEntry pc groupKey pair = some entry ∧
        Fresh nowMs ttlSec entry.updateTimeMs) :
    data.globalPeerMap ≠ ∅ ∨ data.peerReportTime ≠ ∅ := by
  unfold reportTime pairEntry at fresh
  simp only [stored, Option.bind_some] at fresh
  rcases fresh with ⟨p, t, found, -⟩ | ⟨pair, entry, found, -⟩
  · right
    intro empty
    simp [empty] at found
  · left
    intro empty
    simp [empty] at found

/-- A cleanup of a state with true digests is exact if and only if it is safe. -/
theorem cleansExactly_iff (truthful : Truthful x pc) :
    CleansExactly x pc nowMs ttlSec ↔ CleansSafely x pc nowMs ttlSec := by
  constructor
  · intro exact
    have times := times_iff.mp exact.times
    have pairs := pairs_iff.mp exact.pairs
    refine ⟨times, pairs, ?_⟩
    intro groupKey data stored fresh
    have stays := (exact.groups groupKey).mpr fresh
    exact (digest_clean_iff truthful stored (pairs groupKey) (holds_of_fresh stored fresh)).mp
      (exact.digests groupKey _ (clean_group stored stays))
  · intro safe
    have times := times_iff.mpr safe.times
    have pairs := pairs_iff.mpr safe.pairs
    have groups (groupKey : GroupKey) : groupKey ∈ (pc.cleanOutdated nowMs ttlSec).groups ↔
        (∃ p t, reportTime pc groupKey p = some t ∧ Fresh nowMs ttlSec t) ∨
          ∃ pair entry, pairEntry pc groupKey pair = some entry ∧
            Fresh nowMs ttlSec entry.updateTimeMs := by
      rw [mem_groups_clean]
      simp only [times, pairs]
    refine ⟨times, pairs, groups, ?_⟩
    intro groupKey left kept
    have stays : groupKey ∈ (pc.cleanOutdated nowMs ttlSec).groups := by
      rw [Std.ExtTreeMap.mem_iff_isSome_getElem?, kept]
      rfl
    have fresh := (groups groupKey).mp stays
    cases stored : pc.groups[groupKey]? with
    | none => simp [reportTime, pairEntry, stored] at fresh
    | some data =>
      have whole := clean_group stored stays
      rw [kept] at whole
      obtain rfl := Option.some.inj whole
      exact (digest_clean_iff truthful stored (safe.pairs groupKey)
        (holds_of_fresh stored fresh)).mpr
        (safe.digests groupKey data stored fresh)

/-- A client that holds the digest of a group from before the cleanup is sent what is left, if the
    hash tells that from what was there. -/
def RefusesOldDigests (x : Externals) (pc : PeerCenter) (nowMs : Millis) (ttlSec : UInt64) : Prop :=
  ∀ (groupKey : GroupKey) (data left : PeerCenterGroupData), pc.groups[groupKey]? = some data →
    data.globalPeerMap ≠ ∅ ∨ data.peerReportTime ≠ ∅ →
    (pc.cleanOutdated nowMs ttlSec).groups[groupKey]? = some left →
    x.defaultHash (digestInput left.globalPeerMap) ≠
      x.defaultHash (digestInput data.globalPeerMap) →
    left.respond ⟨data.digest⟩ = ⟨regroup left.globalPeerMap, some left.digest⟩

theorem old_digest_refused (truthful : Truthful x pc) (exact : CleansExactly x pc nowMs ttlSec) :
    RefusesOldDigests x pc nowMs ttlSec := by
  intro groupKey data left stored holds kept told
  have old : data.digest = x.defaultHash (digestInput data.globalPeerMap) :=
    truthful groupKey data stored holds
  have new : left.digest = x.defaultHash (digestInput left.globalPeerMap) :=
    exact.digests groupKey left kept
  have differs : ¬ (data.digest = left.digest ∧ data.digest ≠ 0) := by
    intro same
    rw [old, new] at same
    exact told same.1.symm
  exact if_neg differs

end Exact

theorem calcDigest_clean (x : Externals) (data : PeerCenterGroupData) (nowMs : Millis)
    (ttlMs : UInt64) : calcDigestInternal x (data.cleanOutdated nowMs ttlMs) =
      x.defaultHash (((data.globalPeerMap.toList.filter fun binding =>
        nowMs - binding.2.updateTimeMs < ttlMs).map Prod.fst).flatMap pairBytes) := by
  rw [calcDigestInternal, PeerCenterGroupData.cleanOutdated,
    ← Std.ExtTreeMap.map_fst_toList_eq_keys, Std.ExtTreeMap.toList_filter]
  rfl

def ExactCall (x : Externals) (pc : PeerCenter) : CenterCall → Prop
  | .clean nowMs ttlSec => CleansExactly x pc nowMs ttlSec
  | _ => True

def SafeCall (x : Externals) (pc : PeerCenter) : CenterCall → Prop
  | .clean nowMs ttlSec => CleansSafely x pc nowMs ttlSec
  | _ => True

theorem truthful_call {x : Externals} {pc : PeerCenter} {c : CenterCall}
    (exact : ExactCall x pc c) (truthful : Truthful x pc) :
    Truthful x (PeerCenter.call x pc c) := by
  cases c with
  | report groupKey reportBytes nowMs => exact truthful_report truthful groupKey reportBytes nowMs
  | poll groupKey requestBytes => exact truthful_poll truthful groupKey requestBytes
  | clean nowMs ttlSec => exact CleansExactly.truthful exact

theorem exactCall_iff {x : Externals} {pc : PeerCenter} (truthful : Truthful x pc)
    (c : CenterCall) : ExactCall x pc c ↔ SafeCall x pc c := by
  cases c with
  | report groupKey reportBytes nowMs => rfl
  | poll groupKey requestBytes => rfl
  | clean nowMs ttlSec => exact cleansExactly_iff truthful

theorem safeCalls_iff (x : Externals) (calls : List CenterCall) :
    EveryStep (PeerCenter.call x) (ExactCall x) .new calls ↔
      EveryStep (PeerCenter.call x) (SafeCall x) .new calls :=
  everyStep_congr (Truthful x) (fun _ c truthful => exactCall_iff truthful c)
    (fun _ _ exact truthful => truthful_call exact truthful) truthful_new

/-- Every cleanup in a history of reports, polls and cleanups, with any clock readings, is exact
    if and only if every cleanup meets a state that it can clean safely. Then the old digest of a
    group is answered with what is left of it. -/
theorem cleanups_exact_iff (x : Externals) (calls : List CenterCall) :
    ((∀ before nowMs ttlSec after, calls = before ++ .clean nowMs ttlSec :: after →
        CleansExactly x (run (PeerCenter.call x) .new before) nowMs ttlSec) ↔
      EveryStep (PeerCenter.call x) (SafeCall x) .new calls) ∧
    (EveryStep (PeerCenter.call x) (SafeCall x) .new calls →
      ∀ before nowMs ttlSec after, calls = before ++ .clean nowMs ttlSec :: after →
        RefusesOldDigests x (run (PeerCenter.call x) .new before) nowMs ttlSec) := by
  refine ⟨?_, ?_⟩
  · rw [← safeCalls_iff, everyStep_iff_splits]
    constructor
    · intro exact before c after split
      cases c with
      | clean nowMs ttlSec => exact exact before nowMs ttlSec after split
      | report groupKey reportBytes nowMs => trivial
      | poll groupKey requestBytes => trivial
    · intro exact before nowMs ttlSec after split
      exact exact before (.clean nowMs ttlSec) after split
  · intro safe before nowMs ttlSec after split
    rw [← safeCalls_iff, split, everyStep_append] at safe
    have truthful : Truthful x (run (PeerCenter.call x) .new before) :=
      invariant_run (Truthful x) (fun _ _ exact truthful => truthful_call exact truthful)
        truthful_new safe.1
    exact old_digest_refused truthful safe.2.1

/- Peer 5 reports its connection to 6, and a hundred seconds later the one to 7. -/
def twoReports : List CenterCall :=
  let report (dst : PeerId) := reportPeersRequest.write
    ⟨5, some ⟨(∅ : PeerMap DirectConnectedPeerInfo).insert dst ⟨[10]⟩⟩⟩
  [.report "net:aa" (report 6) 1000, .report "net:aa" (report 7) 101000]

/- A clock behind the stored times; a product beyond 2^64; and a pair that expires alone. -/
theorem cleanup_faults :
    ¬ CleansExactly wire (run (PeerCenter.call wire) .new twoReports) 500 180 ∧
      ¬ CleansExactly wire (run (PeerCenter.call wire) .new twoReports) 101000
        18446744073709552 ∧
      ¬ CleansExactly wire (run (PeerCenter.call wire) .new twoReports) 150000 100 := by
  set pc := run (PeerCenter.call wire) .new twoReports with pcDef
  have reported : reportTime pc "net:aa" 5 = some 101000 := by decide
  have listed : pairEntry pc "net:aa" ⟨5, 6⟩ = some ⟨⟨[10]⟩, 1000⟩ := by decide
  refine ⟨?_, ?_, ?_⟩
  · intro exact
    have kept := (exact.times "net:aa" 5 101000).mpr ⟨reported, by decide⟩
    rw [reportTime_clean, reported] at kept
    exact absurd kept (by decide)
  · intro exact
    have kept := (exact.pairs "net:aa" ⟨5, 6⟩ _).mpr ⟨listed, by decide⟩
    rw [pairEntry_clean, listed] at kept
    exact absurd kept (by decide)
  · intro exact
    have stored : pc.groups["net:aa"]? = some (pc.group "net:aa") := by decide
    have stays := (exact.groups "net:aa").mpr (Or.inl ⟨5, 101000, reported, by decide⟩)
    have current := exact.digests "net:aa" _ (clean_group stored stays)
    rw [calcDigest_clean] at current
    exact absurd current (by decide)

end RelayCenterExpiry
