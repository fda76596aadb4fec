import WsRelay.WireFormats
import WsRelay.PacketHeaders
import WsRelay.Library.TaggedCache
import WsRelay.Library.PlainText

/- The peer center and its cached readers. The digest covers the pairs of the store only, so a
   reader that polls by digest may keep old infos of pairs that are still there. -/
namespace RelayPeerCenterCache
open RelayProtocol RelayPeerCenter RelayPacketHeaders RelayWireFormats TransitionRuns TaggedCache
open PlainText

abbrev PairStore := Std.ExtTreeMap SrcDstPeerPair PeerCenterInfoEntry

abbrev GlobalPeerMap := PeerMap PeerInfoForGlobalMap

def infoIn (m : GlobalPeerMap) (src dst : PeerId) : Option DirectConnectedPeerInfo :=
  (m[src]?).bind fun row => row.directPeers[dst]?

def pairsIn (m : GlobalPeerMap) : Set SrcDstPeerPair :=
  {pair | (infoIn m pair.src pair.dst).isSome = true}

/- One turn of the loop of get_global_peer_map. -/
def addPair (bySrc : GlobalPeerMap) (binding : SrcDstPeerPair × PeerCenterInfoEntry) :
    GlobalPeerMap :=
  let current : PeerMap DirectConnectedPeerInfo :=
    (bySrc[binding.1.src]?.map (·.directPeers)).getD ∅
  bySrc.insert binding.1.src ⟨current.insert binding.1.dst binding.2.info⟩

theorem regroup_eq (stored : PairStore) : regroup stored = stored.toList.foldl addPair ∅ := rfl

theorem infoIn_addPair (bySrc : GlobalPeerMap) (pair : SrcDstPeerPair)
    (entry : PeerCenterInfoEntry) (src dst : PeerId) :
    infoIn (addPair bySrc (pair, entry)) src dst =
      if pair = ⟨src, dst⟩ then some entry.info else infoIn bySrc src dst := by
  obtain ⟨a, b⟩ := pair
  simp only [infoIn, addPair, Std.ExtTreeMap.getElem?_insert, Std.LawfulEqCmp.compare_eq_iff_eq,
    SrcDstPeerPair.mk.injEq]
  by_cases row : a = src
  · subst row
    simp only [↓reduceIte, Option.bind_some, Std.ExtTreeMap.getElem?_insert,
      Std.LawfulEqCmp.compare_eq_iff_eq, true_and]
    by_cases column : b = dst
    · simp [column]
    · cases bySrc[a]? with
      | none => simp [column]
      | some old => simp [column]
  · simp [row]

theorem infoIn_fold {bindings : List (SrcDstPeerPair × PeerCenterInfoEntry)}
    (distinct : (bindings.map Prod.fst).Nodup) (bySrc : GlobalPeerMap) (src dst : PeerId)
    (info : DirectConnectedPeerInfo) :
    infoIn (bindings.foldl addPair bySrc) src dst = some info ↔
      (∃ entry, (⟨src, dst⟩, entry) ∈ bindings ∧ entry.info = info) ∨
        ((⟨src, dst⟩ ∉ bindings.map Prod.fst) ∧ infoIn bySrc src dst = some info) := by
  induction bindings generalizing bySrc with
  | nil => simp
  | cons binding rest ih =>
    obtain ⟨pair, entry⟩ := binding
    obtain ⟨fresh, restDistinct⟩ := List.nodup_cons.mp distinct
    rw [List.foldl_cons, ih restDistinct, infoIn_addPair]
    by_cases here : pair = ⟨src, dst⟩
    · subst here
      have absent (other : PeerCenterInfoEntry) : (⟨src, dst⟩, other) ∉ rest := by
        intro listed
        exact fresh (List.mem_map.mpr ⟨_, listed, rfl⟩)
      simp_all
    · simp [here, Ne.symm here]

/-- The map that is sent holds the info of every stored pair, and no other. -/
theorem infoIn_regroup (stored : PairStore) (src dst : PeerId) :
    infoIn (regroup stored) src dst = (stored[(⟨src, dst⟩ : SrcDstPeerPair)]?).map (·.info) := by
  have distinct : (stored.toList.map Prod.fst).Nodup := by
    rw [Std.ExtTreeMap.map_fst_toList_eq_keys]
    exact Std.ExtTreeMap.nodup_keys
  apply Option.ext
  intro info
  rw [regroup_eq, infoIn_fold distinct]
  simp only [Std.ExtTreeMap.mem_toList_iff_getElem?_eq_some, Option.map_eq_some_iff]
  constructor
  · intro found
    rcases found with held | ⟨-, nothing⟩
    · exact held
    · simp [infoIn] at nothing
  · intro held
    exact Or.inl held

theorem mem_pairsIn_regroup {stored : PairStore} {pair : SrcDstPeerPair} :
    pair ∈ pairsIn (regroup stored) ↔ pair ∈ stored := by
  simp only [pairsIn, Set.mem_ofPred_eq, infoIn_regroup, Option.isSome_map]
  exact Std.ExtTreeMap.mem_iff_isSome_getElem?.symm

def pairBytes (pair : SrcDstPeerPair) : Bytes := u32ToLeBytes pair.src ++ u32ToLeBytes pair.dst

theorem pairBytes_injective : Function.Injective pairBytes := by
  intro a b same
  obtain ⟨srcBytes, dstBytes⟩ := List.append_inj same rfl
  have sameSrc := u32ToLeBytes_injective srcBytes
  have sameDst := u32ToLeBytes_injective dstBytes
  cases a
  cases b
  rw [SrcDstPeerPair.mk.injEq]
  exact ⟨sameSrc, sameDst⟩

def digestInput (stored : PairStore) : Bytes := stored.keys.flatMap pairBytes

theorem digestInput_eq_iff (a b : PairStore) :
    digestInput a = digestInput b ↔ pairsIn (regroup a) = pairsIn (regroup b) := by
  have keysOf (m : PairStore) : (m.map fun _ _ => ()).keys = m.keys := Std.ExtTreeMap.keys_map
  constructor
  · intro same
    have keys : a.keys = b.keys :=
      records_injective (by omega : 0 < 8) (fun _ => rfl) pairBytes_injective same
    ext pair
    rw [mem_pairsIn_regroup, mem_pairsIn_regroup, ← Std.ExtTreeMap.mem_keys, keys,
      Std.ExtTreeMap.mem_keys]
  · intro same
    have units : (a.map fun _ _ => ()) = b.map fun _ _ => () := by
      apply Std.ExtTreeMap.ext_mem_unit
      intro pair
      rw [Std.ExtTreeMap.mem_map, Std.ExtTreeMap.mem_map, ← mem_pairsIn_regroup, same,
        mem_pairsIn_regroup]
    unfold digestInput
    rw [← keysOf a, units, keysOf b]

/- report_peers on the pairs: what is listed is added or renewed, nothing is taken away. -/
def directPeers (req : ReportPeersRequest) : PeerMap DirectConnectedPeerInfo :=
  (req.peerInfos.map (·.directPeers)).getD ∅

def mergeReport (stored : PairStore) (req : ReportPeersRequest) (nowMs : Millis) : PairStore :=
  (directPeers req).toList.foldl (fun stored (peerId, info) =>
    stored.insert ⟨req.myPeerId, peerId⟩ ⟨info, nowMs⟩) stored

theorem report_globalPeerMap (x : Externals) (data : PeerCenterGroupData)
    (req : ReportPeersRequest) (nowMs : Millis) :
    (data.report x req nowMs).globalPeerMap = mergeReport data.globalPeerMap req nowMs := rfl

theorem report_digest (x : Externals) (data : PeerCenterGroupData) (req : ReportPeersRequest)
    (nowMs : Millis) : (data.report x req nowMs).digest =
      x.defaultHash (digestInput (mergeReport data.globalPeerMap req nowMs)) := rfl

structure CachedReader where
  center : PeerCenter
  map : GlobalPeerMap
  digest : UInt64

inductive CenterEvent where
  | report (reportBytes : Bytes) (nowMs : Millis)
  | poll

def CachedReader.start : CachedReader := ⟨PeerCenter.new, ∅, 0⟩

def CachedReader.poll (groupKey : GroupKey) (s : CachedReader) : CachedReader :=
  let resp := (s.center.group groupKey).respond ⟨s.digest⟩
  let center := s.center.put groupKey (s.center.group groupKey)
  if resp = { globalPeerMap := ∅, digest := none } then { s with center }
  else { center, map := resp.globalPeerMap, digest := resp.digest.getD 0 }

def CachedReader.step (x : Externals) (groupKey : GroupKey) (s : CachedReader) :
    CenterEvent → CachedReader
  | .report reportBytes nowMs =>
    { s with center := (s.center.reportPeers x groupKey reportBytes nowMs).2 }
  | .poll => s.poll groupKey

theorem getGlobalPeerMap_eq {x : Externals} {requestBytes : Bytes} {req : GetGlobalPeerMapRequest}
    (decoded : x.decodeGetGlobalPeerMapRequest requestBytes = some req) (pc : PeerCenter)
    (groupKey : GroupKey) :
    pc.getGlobalPeerMap x groupKey requestBytes =
      (some (x.encodeGetGlobalPeerMapResponse ((pc.group groupKey).respond req)),
        pc.put groupKey (pc.group groupKey)) := by
  simp only [PeerCenter.getGlobalPeerMap, decoded]

section Reader
variable (x : Externals) (groupKey : GroupKey)

/- What the relay sends to everyone if it sends anything: the whole current map. -/
def Coherent (s : CachedReader) : Prop :=
  s.map = regroup (s.center.group groupKey).globalPeerMap

instance (s : CachedReader) : Decidable (Coherent groupKey s) :=
  inferInstanceAs (Decidable (_ = _))

/- The inputs that the reports of a run hand to the hasher. -/
def hashedInputs : CachedReader → List CenterEvent → List Bytes
  | _, [] => []
  | s, .report reportBytes nowMs :: rest =>
    let next := s.step x groupKey (.report reportBytes nowMs)
    ((x.decodeReportPeersRequest reportBytes).map fun _ =>
      digestInput (next.center.group groupKey).globalPeerMap).toList ++ hashedInputs next rest
  | s, .poll :: rest => hashedInputs (s.poll groupKey) rest

/- The 64-bit hash is injective on the inputs it is given. -/
def HashInjective (events : List CenterEvent) : Prop :=
  ∀ a ∈ hashedInputs x groupKey .start events, ∀ b ∈ hashedInputs x groupKey .start events,
    x.defaultHash a = x.defaultHash b → a = b

instance (events : List CenterEvent) : Decidable (HashInjective x groupKey events) :=
  inferInstanceAs (Decidable (∀ a ∈ _, ∀ b ∈ _, _))

/- In front of a poll: no digest is held, or the pairs have changed, or nothing has. -/
def PollTells (s : CachedReader) : CenterEvent → Prop
  | .report _ _ => True
  | .poll => s.digest = 0 ∨
      pairsIn s.map ≠ pairsIn (regroup (s.center.group groupKey).globalPeerMap) ∨
      Coherent groupKey s

def digestScheme :
    Scheme PairStore (Bytes × Millis) GlobalPeerMap Bytes (Set SrcDstPeerPair) UInt64 where
  update stored report := (x.decodeReportPeersRequest report.1).map fun req =>
    mergeReport stored req report.2
  view := regroup
  input := digestInput
  covered := pairsIn
  same_input := digestInput_eq_iff
  hash := x.defaultHash
  unset := 0

def copiesOf (s : CachedReader) : Copies PairStore GlobalPeerMap UInt64 where
  store := (s.center.group groupKey).globalPeerMap
  tag := (s.center.group groupKey).digest
  view := s.map
  held := s.digest

def cacheEvent : CenterEvent → Event (Bytes × Millis)
  | .report reportBytes nowMs => .update (reportBytes, nowMs)
  | .poll => .poll

theorem group_put (pc : PeerCenter) (data : PeerCenterGroupData) :
    (pc.put groupKey data).group groupKey = data := by
  simp [PeerCenter.group, PeerCenter.put]

theorem copiesOf_report (s : CachedReader) (reportBytes : Bytes) (nowMs : Millis) :
    copiesOf groupKey (s.step x groupKey (.report reportBytes nowMs)) =
      (digestScheme x).write (copiesOf groupKey s) (reportBytes, nowMs) := by
  simp only [CachedReader.step, PeerCenter.reportPeers, Scheme.write, digestScheme]
  cases x.decodeReportPeersRequest reportBytes with
  | none => rfl
  | some req =>
    simp only [copiesOf, group_put, Option.map_some, report_globalPeerMap, report_digest]

theorem copiesOf_poll (s : CachedReader) :
    copiesOf groupKey (s.poll groupKey) = (digestScheme x).refresh (copiesOf groupKey s) := by
  by_cases known : s.digest = (s.center.group groupKey).digest ∧ s.digest ≠ 0
  · have empty : (s.center.group groupKey).respond ⟨s.digest⟩ = ⟨∅, none⟩ := if_pos known
    have kept : s.poll groupKey =
        { s with center := s.center.put groupKey (s.center.group groupKey) } := by
      simp only [CachedReader.poll, empty, ↓reduceIte]
    have idle : (digestScheme x).refresh (copiesOf groupKey s) = copiesOf groupKey s := if_pos known
    rw [kept, idle, copiesOf, group_put]
    rfl
  · have full : (s.center.group groupKey).respond ⟨s.digest⟩ =
        ⟨regroup (s.center.group groupKey).globalPeerMap, some (s.center.group groupKey).digest⟩ :=
      if_neg known
    have replaced : s.poll groupKey =
        { center := s.center.put groupKey (s.center.group groupKey)
          map := regroup (s.center.group groupKey).globalPeerMap
          digest := (s.center.group groupKey).digest } := by
      simp [CachedReader.poll, full]
    have fetched : (digestScheme x).refresh (copiesOf groupKey s) =
        { copiesOf groupKey s with
          view := regroup (s.center.group groupKey).globalPeerMap
          held := (s.center.group groupKey).digest } := if_neg known
    rw [replaced, fetched, copiesOf, group_put]
    rfl

theorem copiesOf_step (s : CachedReader) (e : CenterEvent) :
    copiesOf groupKey (s.step x groupKey e) =
      (digestScheme x).step (copiesOf groupKey s) (cacheEvent e) := by
  cases e with
  | report reportBytes nowMs => exact copiesOf_report x groupKey s reportBytes nowMs
  | poll => exact copiesOf_poll x groupKey s

theorem hashedInputs_eq (s : CachedReader) (events : List CenterEvent) :
    hashedInputs x groupKey s events =
      (digestScheme x).hashed (copiesOf groupKey s) (events.map cacheEvent) := by
  induction events generalizing s with
  | nil => rfl
  | cons e rest ih =>
    cases e with
    | report reportBytes nowMs =>
      simp only [hashedInputs, List.map_cons, cacheEvent, Scheme.hashed]
      rw [ih, copiesOf_report]
      congr 1
      simp only [CachedReader.step, PeerCenter.reportPeers, digestScheme, copiesOf]
      cases x.decodeReportPeersRequest reportBytes with
      | none => rfl
      | some req =>
        simp only [group_put, Option.map_some, report_globalPeerMap]
    | poll =>
      simp only [hashedInputs, List.map_cons, cacheEvent, Scheme.hashed]
      rw [ih, copiesOf_poll x]

/-- The client's map is the current one after every poll, exactly if every poll of a held digest
    meets a store with other pairs than the client's map or with the same infos. -/
theorem polls_coherent_iff (events : List CenterEvent)
    (injective : HashInjective x groupKey events) :
    (∀ before after, events = before ++ .poll :: after →
        Coherent groupKey (run (CachedReader.step x groupKey) .start (before ++ [.poll]))) ↔
      EveryStep (CachedReader.step x groupKey) (PollTells groupKey) .start events := by
  have injectiveOn : ∀ i ∈ hashedInputs x groupKey .start events,
      ∀ j ∈ hashedInputs x groupKey .start events,
        (digestScheme x).hash i = (digestScheme x).hash j → i = j := injective
  have tagged : (digestScheme x).Tagged (hashedInputs x groupKey .start events)
      (copiesOf groupKey .start) := by
    have unset : (copiesOf groupKey .start).tag = 0 := by
      simp [copiesOf, CachedReader.start, PeerCenter.new, PeerCenter.group]
    exact ⟨Or.inl ⟨unset, rfl⟩, Or.inl rfl⟩
  have given : ∀ i ∈ (digestScheme x).hashed (copiesOf groupKey .start) (events.map cacheEvent),
      i ∈ hashedInputs x groupKey .start events := by
    intro i listed
    rw [hashedInputs_eq]
    exact listed
  have abstracted := polls_current_iff injectiveOn tagged given
  rw [everyStep_map (copiesOf groupKey) cacheEvent (copiesOf_step x groupKey),
    everyStep_map (copiesOf groupKey) cacheEvent (copiesOf_step x groupKey)] at abstracted
  have telling : EveryStep (CachedReader.step x groupKey)
      (fun s e => (digestScheme x).PollsTelling (copiesOf groupKey s) (cacheEvent e)) .start events ↔
        EveryStep (CachedReader.step x groupKey) (PollTells groupKey) .start events := by
    rw [everyStep_iff_splits, everyStep_iff_splits]
    refine forall_congr' fun before => forall_congr' fun e => ?_
    cases e <;> rfl
  rw [← telling, ← abstracted, everyStep_iff_splits]
  constructor
  · intro coherent before e after split
    cases e with
    | report reportBytes nowMs => trivial
    | poll =>
      have polled := coherent before after split
      rw [run_append] at polled
      show (digestScheme x).Current _
      rw [← copiesOf_poll x]
      exact polled
  · intro current before after split
    have polled : (digestScheme x).Current ((digestScheme x).refresh (copiesOf groupKey
      (run (CachedReader.step x groupKey) .start before))) := current before .poll after split
    rw [← copiesOf_poll x] at polled
    rw [run_append]
    exact polled

end Reader

/- Peer 5 reports its connection to 6 with a latency, and later with another one. -/
def latencyReport (latency : UInt8) : CenterEvent :=
  .report (reportPeersRequest.write
    ⟨5, some ⟨(∅ : PeerMap DirectConnectedPeerInfo).insert 6 ⟨[latency]⟩⟩⟩) 1000

theorem first_latency_coherent :
    Coherent "net:aa" (run (CachedReader.step wire "net:aa") .start [latencyReport 10, .poll]) :=
  (polls_coherent_iff wire "net:aa" [latencyReport 10, .poll] (by decide)).mpr
    ⟨trivial, Or.inl rfl, trivial⟩ [latencyReport 10] [] rfl

set_option maxRecDepth 8000 in
theorem changed_latency_is_missed :
    HashInjective wire "net:aa" [latencyReport 10, .poll, latencyReport 20, .poll] ∧
      ¬ Coherent "net:aa" (run (CachedReader.step wire "net:aa") .start
        ([latencyReport 10, .poll, latencyReport 20] ++ [.poll])) := by
  decide

end RelayPeerCenterCache
