import WsRelay.PeerCenterCache

/- Reports of different peers write different pairs. Whatever their order, and in whatever order
   the hash map lists its pairs, the digest, the infos and the answers are the same. -/
namespace RelayCenterReports
open RelayProtocol RelayPeerCenter RelayPeerCenterCache RelayWireFormats TransitionRuns FoldMaps

abbrev Binding := SrcDstPeerPair × PeerCenterInfoEntry

structure IterationOrder where
  arrange : List Binding → List Binding
  permutes : ∀ bindings, (arrange bindings).Perm bindings

def digestIn (x : Externals) (order : IterationOrder) (stored : PairStore) : UInt64 :=
  let keys := (order.arrange stored.toList).map Prod.fst
  x.defaultHash ((keys.mergeSort fun a b => (compare a b).isLE).flatMap pairBytes)

def regroupIn (order : IterationOrder) (stored : PairStore) : GlobalPeerMap :=
  (order.arrange stored.toList).foldl addPair ∅

theorem digestIn_eq (x : Externals) (order : IterationOrder) (stored : PairStore) :
    digestIn x order stored = x.defaultHash (digestInput stored) := by
  rw [digestIn, mergeSort_enumeration (order.permutes stored.toList), digestInput]

theorem addPair_commutes (bySrc : GlobalPeerMap) (a b : Binding) (different : a.1 ≠ b.1) :
    addPair (addPair bySrc a) b = addPair (addPair bySrc b) a := by
  obtain ⟨⟨src, dst⟩, entry⟩ := a
  obtain ⟨⟨src', dst'⟩, entry'⟩ := b
  have apart : src = src' → dst ≠ dst' := by
    intro sameSrc sameDst
    exact different (by rw [sameSrc, sameDst])
  apply Std.ExtTreeMap.ext_getElem?
  intro p
  by_cases rows : src = src'
  · subst rows
    have columns := apart rfl
    by_cases here : src = p
    · subst here
      simp only [addPair, Std.ExtTreeMap.getElem?_insert_self, Option.map_some, Option.getD_some,
        Option.some.injEq, PeerInfoForGlobalMap.mk.injEq]
      apply Std.ExtTreeMap.ext_getElem?
      intro q
      simp only [Std.ExtTreeMap.getElem?_insert, Std.LawfulEqCmp.compare_eq_iff_eq]
      by_cases first : dst = q
      · have second : dst' ≠ q := fun same => columns (first.trans same.symm)
        simp [first, second]
      · simp [first]
    · simp [addPair, Std.ExtTreeMap.getElem?_insert, here]
  · have back : ¬ src' = src := fun same => rows same.symm
    simp only [addPair, Std.ExtTreeMap.getElem?_insert, Std.LawfulEqCmp.compare_eq_iff_eq, rows,
      back, ↓reduceIte]
    by_cases here : src = p
    · have other : ¬ src' = p := fun same => rows (here.trans same.symm)
      simp [here, other]
    · simp [here]

theorem regroupIn_eq (order : IterationOrder) (stored : PairStore) :
    regroupIn order stored = regroup stored := by
  rw [regroupIn, regroup_eq]
  exact foldl_enumeration addPair_commutes (order.permutes stored.toList) ∅

/- A report, with the order in which its digest loop meets the pairs. -/
structure Reporting where
  reportBytes : Bytes
  nowMs : Millis
  order : IterationOrder

def PeerCenter.reportIn (x : Externals) (groupKey : GroupKey) (pc : PeerCenter)
    (r : Reporting) : PeerCenter :=
  match x.decodeReportPeersRequest r.reportBytes with
  | none => pc
  | some req =>
    let data := (pc.group groupKey).report x req r.nowMs
    pc.put groupKey { data with digest := digestIn x r.order data.globalPeerMap }

theorem reportIn_eq (x : Externals) (groupKey : GroupKey) (pc : PeerCenter) (r : Reporting) :
    PeerCenter.reportIn x groupKey pc r =
      (pc.reportPeers x groupKey r.reportBytes r.nowMs).2 := by
  unfold PeerCenter.reportIn PeerCenter.reportPeers
  cases x.decodeReportPeersRequest r.reportBytes with
  | none => rfl
  | some req =>
    simp only [digestIn_eq]
    rfl

def PeerCenterGroupData.respondIn (order : IterationOrder) (data : PeerCenterGroupData)
    (req : GetGlobalPeerMapRequest) : GetGlobalPeerMapResponse :=
  if req.digest = data.digest ∧ req.digest ≠ 0 then { globalPeerMap := ∅, digest := none }
  else { globalPeerMap := regroupIn order data.globalPeerMap, digest := some data.digest }

theorem respondIn_eq (order : IterationOrder) (data : PeerCenterGroupData)
    (req : GetGlobalPeerMapRequest) :
    PeerCenterGroupData.respondIn order data req = data.respond req := by
  rw [PeerCenterGroupData.respondIn, PeerCenterGroupData.respond, regroupIn_eq]

def PeerCenter.answerIn (x : Externals) (groupKey : GroupKey) (pc : PeerCenter)
    (order : IterationOrder) (requestBytes : Bytes) : Option Bytes :=
  (x.decodeGetGlobalPeerMapRequest requestBytes).map fun req =>
    x.encodeGetGlobalPeerMapResponse
      (PeerCenterGroupData.respondIn order (pc.group groupKey) req)

theorem answerIn_eq (x : Externals) (groupKey : GroupKey) (pc : PeerCenter)
    (order : IterationOrder) (requestBytes : Bytes) :
    PeerCenter.answerIn x groupKey pc order requestBytes =
      (pc.getGlobalPeerMap x groupKey requestBytes).1 := by
  unfold PeerCenter.answerIn PeerCenter.getGlobalPeerMap
  cases x.decodeGetGlobalPeerMapRequest requestBytes with
  | none => rfl
  | some req => rw [Option.map_some, respondIn_eq]

abbrev PairInfos := Std.ExtTreeMap SrcDstPeerPair DirectConnectedPeerInfo

def infosOf (stored : PairStore) : PairInfos := stored.map fun _ entry => entry.info

theorem infosOf_getElem (stored : PairStore) (pair : SrcDstPeerPair) :
    (infosOf stored)[pair]? = (stored[pair]?).map (·.info) := Std.ExtTreeMap.getElem?_map

theorem digestInput_infos (stored : PairStore) :
    digestInput stored = (infosOf stored).keys.flatMap pairBytes := by
  rw [infosOf, Std.ExtTreeMap.keys_map, digestInput]

theorem regroup_infos {stored stored' : PairStore} (same : infosOf stored = infosOf stored') :
    regroup stored = regroup stored' := by
  have plain (m : PairStore) : regroup m = (infosOf m).toList.foldl
      (fun bySrc binding => addPair bySrc (binding.1, ⟨binding.2, 0⟩)) ∅ := by
    rw [regroup_eq, infosOf, Std.ExtTreeMap.toList_map, List.foldl_map]
    rfl
  rw [plain, plain, same]

theorem infosOf_mergeReport (stored : PairStore) (req : ReportPeersRequest) (nowMs : Millis)
    (src dst : PeerId) :
    (infosOf (mergeReport stored req nowMs))[(⟨src, dst⟩ : SrcDstPeerPair)]? =
      if req.myPeerId = src
      then ((directPeers req)[dst]?).or (infosOf stored)[(⟨src, dst⟩ : SrcDstPeerPair)]?
      else (infosOf stored)[(⟨src, dst⟩ : SrcDstPeerPair)]? := by
  have written := foldl_overwrite (fun _ => true)
    (fun item : PeerId × DirectConnectedPeerInfo => (⟨req.myPeerId, item.1⟩ : SrcDstPeerPair))
    (fun item => (⟨item.2, nowMs⟩ : PeerCenterInfoEntry)) (directPeers req).toList stored
    ⟨src, dst⟩
  simp only [↓reduceIte, Bool.true_and] at written
  have merged : (mergeReport stored req nowMs)[(⟨src, dst⟩ : SrcDstPeerPair)]? = _ := written
  rw [infosOf_getElem, infosOf_getElem, merged]
  by_cases own : req.myPeerId = src
  · subst own
    have column (item : PeerId × DirectConnectedPeerInfo) :
        ((⟨req.myPeerId, item.1⟩ : SrcDstPeerPair) == ⟨req.myPeerId, dst⟩) = (item.1 == dst) := by
      rw [Bool.eq_iff_iff, beq_iff_eq, beq_iff_eq, SrcDstPeerPair.mk.injEq]
      exact and_iff_right rfl
    simp only [column, ↓reduceIte]
    rw [← find_binding (directPeers req) dst]
    cases (directPeers req).toList.reverse.find? (·.1 == dst) with
    | none => rfl
    | some item => rfl
  · have elsewhere (item : PeerId × DirectConnectedPeerInfo) :
        ((⟨req.myPeerId, item.1⟩ : SrcDstPeerPair) == ⟨src, dst⟩) = false := by
      rw [beq_eq_false_iff_ne]
      intro same
      exact own (SrcDstPeerPair.mk.inj same).1
    have unlisted : (directPeers req).toList.reverse.find? (fun item =>
        (⟨req.myPeerId, item.1⟩ : SrcDstPeerPair) == ⟨src, dst⟩) = none := by
      rw [List.find?_eq_none]
      intro item _
      simp [elsewhere item]
    rw [unlisted, if_neg own]
    rfl

section Runs
variable (x : Externals) (groupKey : GroupKey)

def requestsOf (reports : List Reporting) : List (ReportPeersRequest × Millis) :=
  reports.filterMap fun r =>
    (x.decodeReportPeersRequest r.reportBytes).map fun req => (req, r.nowMs)

def requestsFrom (src : PeerId) (reports : List Reporting) : List ReportPeersRequest :=
  ((requestsOf x reports).map Prod.fst).filter (·.myPeerId = src)

def SameBySource (first second : List Reporting) : Prop :=
  ∀ src, requestsFrom x src first = requestsFrom x src second

def reportAll (data : PeerCenterGroupData) (requests : List (ReportPeersRequest × Millis)) :
    PeerCenterGroupData :=
  requests.foldl (fun data request => data.report x request.1 request.2) data

variable {x groupKey}

theorem sameBySource_nil {first second : List Reporting} (same : SameBySource x first second) :
    requestsOf x first = [] ↔ requestsOf x second = [] := by
  have none (reports : List Reporting) :
      requestsOf x reports = [] ↔ ∀ src, requestsFrom x src reports = [] := by
    constructor
    · intro empty src
      rw [requestsFrom, empty]
      rfl
    · intro empty
      rw [List.eq_nil_iff_forall_not_mem]
      intro request listed
      have own : request.1 ∈ requestsFrom x request.1.myPeerId reports :=
        List.mem_filter.mpr ⟨List.mem_map.mpr ⟨request, listed, rfl⟩, by simp⟩
      rw [empty] at own
      cases own
  rw [none, none]
  simp only [same _]

theorem group_run (pc : PeerCenter) (reports : List Reporting) :
    (run (PeerCenter.reportIn x groupKey) pc reports).group groupKey =
      reportAll x (pc.group groupKey) (requestsOf x reports) := by
  induction reports generalizing pc with
  | nil => rfl
  | cons r rest ih =>
    rw [run_cons, ih, reportIn_eq, PeerCenter.reportPeers]
    cases decoded : x.decodeReportPeersRequest r.reportBytes with
    | none => simp only [requestsOf, List.filterMap_cons, decoded, Option.map_none]
    | some req =>
      simp only [requestsOf, List.filterMap_cons, decoded, Option.map_some]
      rw [group_put]
      rfl

theorem reportAll_infos (data : PeerCenterGroupData)
    (requests : List (ReportPeersRequest × Millis)) (src dst : PeerId) :
    (infosOf (reportAll x data requests).globalPeerMap)[(⟨src, dst⟩ : SrcDstPeerPair)]? =
      ((requests.map Prod.fst).filter (·.myPeerId = src)).foldl
        (fun info req => ((directPeers req)[dst]?).or info)
        (infosOf data.globalPeerMap)[(⟨src, dst⟩ : SrcDstPeerPair)]? := by
  induction requests generalizing data with
  | nil => rfl
  | cons request rest ih =>
    obtain ⟨req, nowMs⟩ := request
    have next := ih (data.report x req nowMs)
    rw [report_globalPeerMap, infosOf_mergeReport] at next
    simp only [List.map_cons, List.filter_cons, decide_eq_true_eq]
    refine Eq.trans next ?_
    by_cases own : req.myPeerId = src
    · simp only [own, ↓reduceIte, List.foldl_cons]
    · simp only [own, ↓reduceIte]

theorem reportAll_digest (data : PeerCenterGroupData)
    {requests : List (ReportPeersRequest × Millis)} (readable : requests ≠ []) :
    (reportAll x data requests).digest =
      x.defaultHash (digestInput (reportAll x data requests).globalPeerMap) := by
  rcases List.eq_nil_or_concat requests with none | ⟨before, last, rfl⟩
  · exact absurd none readable
  · rw [List.concat_eq_append, reportAll, List.foldl_append]
    rfl

theorem infos_agree (groupKey : GroupKey) (pc : PeerCenter) {first second : List Reporting}
    (same : SameBySource x first second) :
    infosOf (reportAll x (pc.group groupKey) (requestsOf x first)).globalPeerMap =
      infosOf (reportAll x (pc.group groupKey) (requestsOf x second)).globalPeerMap := by
  apply Std.ExtTreeMap.ext_getElem?
  intro pair
  obtain ⟨src, dst⟩ := pair
  have requests := same src
  unfold requestsFrom at requests
  rw [reportAll_infos, reportAll_infos, requests]

theorem digests_agree (groupKey : GroupKey) (pc : PeerCenter) {first second : List Reporting}
    (same : SameBySource x first second) :
    (reportAll x (pc.group groupKey) (requestsOf x first)).digest =
      (reportAll x (pc.group groupKey) (requestsOf x second)).digest := by
  by_cases unread : requestsOf x first = []
  · rw [unread, (sameBySource_nil same).mp unread]
  · have unread' : requestsOf x second ≠ [] := fun none => unread ((sameBySource_nil same).mpr none)
    rw [reportAll_digest _ unread, reportAll_digest _ unread', digestInput_infos,
      digestInput_infos, infos_agree groupKey pc same]

/-- Two interleavings of the same reports leave the same digest and infos and answer every request
    alike, in whatever orders the hash map is iterated; a full answer holds the stored infos. -/
theorem reports_commute (x : Externals) (groupKey : GroupKey) (pc : PeerCenter)
    (first second : List Reporting) (same : SameBySource x first second) :
    let after := run (PeerCenter.reportIn x groupKey) pc first
    let after' := run (PeerCenter.reportIn x groupKey) pc second
    (after.group groupKey).digest = (after'.group groupKey).digest ∧
      (∀ src dst : PeerId,
        ((after.group groupKey).globalPeerMap[(⟨src, dst⟩ : SrcDstPeerPair)]?).map (·.info) =
          ((after'.group groupKey).globalPeerMap[(⟨src, dst⟩ : SrcDstPeerPair)]?).map (·.info)) ∧
      (∀ order order' requestBytes, PeerCenter.answerIn x groupKey after order requestBytes =
        PeerCenter.answerIn x groupKey after' order' requestBytes) ∧
      ∀ order req, (PeerCenterGroupData.respondIn order (after.group groupKey) req).digest.isSome →
        ∀ src dst info,
          infoIn (PeerCenterGroupData.respondIn order (after.group groupKey) req).globalPeerMap
              src dst = some info ↔
            ∃ entry, (after.group groupKey).globalPeerMap[(⟨src, dst⟩ : SrcDstPeerPair)]? =
              some entry ∧ entry.info = info := by
  intro after after'
  have infos := infos_agree groupKey pc same
  have digests := digests_agree groupKey pc same
  rw [← group_run, ← group_run] at infos digests
  refine ⟨digests, ?_, ?_, ?_⟩
  · intro src dst
    rw [← infosOf_getElem, ← infosOf_getElem, infos]
  · intro order order' requestBytes
    have responses (req : GetGlobalPeerMapRequest) :
        (after.group groupKey).respond req = (after'.group groupKey).respond req := by
      rw [PeerCenterGroupData.respond, PeerCenterGroupData.respond, digests, regroup_infos infos]
    unfold PeerCenter.answerIn
    simp only [respondIn_eq, responses]
  · intro order req full src dst info
    rw [respondIn_eq] at full ⊢
    unfold PeerCenterGroupData.respond at full ⊢
    split
    · next known =>
      rw [if_pos known] at full
      cases full
    · rw [infoIn_regroup, Option.map_eq_some_iff]

end Runs

/- Peers 5 and 6 report each other, at whatever times and in either order; the map is listed
   forwards by one server and backwards by the other. -/
def linkRequest (src dst : PeerId) : ReportPeersRequest :=
  ⟨src, some ⟨(∅ : PeerMap DirectConnectedPeerInfo).insert dst ⟨[10]⟩⟩⟩

def linkReport (src dst : PeerId) (nowMs : Millis) (order : IterationOrder) : Reporting :=
  ⟨reportPeersRequest.write (linkRequest src dst), nowMs, order⟩

def forwards : IterationOrder := ⟨id, fun _ => List.Perm.refl _⟩

def backwards : IterationOrder := ⟨List.reverse, List.reverse_perm⟩

def fiveThenSix : List Reporting := [linkReport 5 6 1000 forwards, linkReport 6 5 2000 forwards]

def sixThenFive : List Reporting := [linkReport 6 5 700 backwards, linkReport 5 6 900 backwards]

theorem swapped_sameBySource : SameBySource wire fiveThenSix sixThenFive := by
  have read (src dst : PeerId) :
      wire.decodeReportPeersRequest (reportPeersRequest.write (linkRequest src dst)) =
        some (linkRequest src dst) := PrefixCodec.Format.readAll_write _ _
  have first : (requestsOf wire fiveThenSix).map Prod.fst = [linkRequest 5 6, linkRequest 6 5] := by
    simp only [requestsOf, fiveThenSix, List.filterMap, read, Option.map_some, List.map_cons,
      linkReport, List.map_nil]
  have second : (requestsOf wire sixThenFive).map Prod.fst =
      [linkRequest 6 5, linkRequest 5 6] := by
    simp only [requestsOf, sixThenFive, List.filterMap, read, Option.map_some, List.map_cons,
      linkReport, List.map_nil]
  intro src
  rw [requestsFrom, requestsFrom, first, second]
  by_cases five : src = 5
  · subst five
    rfl
  · simp [linkRequest, List.filter_cons, Ne.symm five]

theorem swapped_reports_agree :
    PeerCenter.answerIn wire "net:aa"
        (run (PeerCenter.reportIn wire "net:aa") .new fiveThenSix) forwards
        (PrefixCodec.uint64.write 0) =
      PeerCenter.answerIn wire "net:aa"
        (run (PeerCenter.reportIn wire "net:aa") .new sixThenFive) backwards
        (PrefixCodec.uint64.write 0) :=
  (reports_commute wire "net:aa" .new fiveThenSix sixThenFive swapped_sameBySource).2.2.1
    forwards backwards (PrefixCodec.uint64.write 0)

end RelayCenterReports
