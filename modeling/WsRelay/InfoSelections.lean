import WsRelay.ChangeBroadcast
import WsRelay.OwnRecords

/- What a build lists and what it remembers, for any starting record: the loop over the
   relevant peers as one selection, and the session and infos that the build leaves. -/
namespace RelayInfoSelections
open RelayProtocol RelayRouteState RelayRouteOps RelayConnBitmap RelayPeerInfoVersions
open RelayChangeBroadcast RelayResidue RelayOwnRecords

theorem clamped_positive (info : RoutePeerInfo) : 0 < clamped info := by
  have clampedEq : clamped info = if info.version ≤ 1 then 1 else info.version := rfl
  rw [clampedEq]
  split
  · decide
  · rename_i above
    have order := UInt32.lt_iff_toNat_lt.mp (UInt32.not_le.mp above)
    exact UInt32.lt_iff_toNat_lt.mpr (by simp only [UInt32.toNat_zero]; omega)

section Loop
variable (g : RouteGroupData) (nowMs : Millis) (full : Bool)

theorem selectInfo_remembers (acc : InfoSelection) (q p : PeerId) :
    (selectInfo nowMs g.myInfo full acc q).peerInfoVerMap[p]? =
      if q = p ∧ RouteGroupData.selects g nowMs full acc.peerInfos acc.peerInfoVerMap q = true
      then some (clamped (RouteGroupData.listedInfo g nowMs acc.peerInfos q))
      else acc.peerInfoVerMap[p]? := by
  rw [selectInfo_looks]
  by_cases chosen : RouteGroupData.selects g nowMs full acc.peerInfos acc.peerInfoVerMap q = true
  · by_cases same : q = p
    · subst same
      simp [chosen]
    · simp [chosen, Std.ExtTreeMap.getElem?_insert, same]
  · simp [chosen]

theorem selectInfo_lists (acc : InfoSelection) (q : PeerId) :
    (selectInfo nowMs g.myInfo full acc q).items = acc.items ++
      if RouteGroupData.selects g nowMs full acc.peerInfos acc.peerInfoVerMap q
      then [RouteGroupData.listedInfo g nowMs acc.peerInfos q] else [] := by
  rw [selectInfo_looks]
  by_cases chosen : RouteGroupData.selects g nowMs full acc.peerInfos acc.peerInfoVerMap q = true
  · simp [chosen]
  · simp [chosen]

theorem selects_selectInfo (acc : InfoSelection) {q p : PeerId} (other : q ≠ p) :
    RouteGroupData.selects g nowMs full (selectInfo nowMs g.myInfo full acc q).peerInfos
        (selectInfo nowMs g.myInfo full acc q).peerInfoVerMap p =
      RouteGroupData.selects g nowMs full acc.peerInfos acc.peerInfoVerMap p := by
  have remembered := selectInfo_remembers g nowMs full acc q p
  rw [if_neg (fun both => other both.1)] at remembered
  simp only [RouteGroupData.selects, listedInfo_selectInfo, Std.ExtTreeMap.getD_eq_getD_getElem?,
    remembered]

theorem selection_items {relevant : List PeerId} (distinct : relevant.Nodup)
    (acc : InfoSelection) :
    (relevant.foldl (selectInfo nowMs g.myInfo full) acc).items = acc.items ++
      (relevant.filter (RouteGroupData.selects g nowMs full acc.peerInfos acc.peerInfoVerMap)).map
        (RouteGroupData.listedInfo g nowMs acc.peerInfos) := by
  induction relevant generalizing acc with
  | nil => simp
  | cons q rest ih =>
    obtain ⟨fresh, later⟩ := List.nodup_cons.mp distinct
    have sameLater : rest.filter (RouteGroupData.selects g nowMs full
        (selectInfo nowMs g.myInfo full acc q).peerInfos
        (selectInfo nowMs g.myInfo full acc q).peerInfoVerMap) =
        rest.filter (RouteGroupData.selects g nowMs full acc.peerInfos acc.peerInfoVerMap) := by
      apply List.filter_congr
      intro p listed
      apply selects_selectInfo g nowMs full acc
      intro same
      exact fresh (same ▸ listed)
    rw [List.foldl_cons, ih later, sameLater, listedInfo_selectInfo, selectInfo_lists,
      List.filter_cons]
    split
    · simp
    · simp

theorem selectInfo_info (acc : InfoSelection) (q p : PeerId) :
    (selectInfo nowMs g.myInfo full acc q).peerInfos[p]? =
      if q = p ∧ q ≠ myPeerId then some (RouteGroupData.listedInfo g nowMs acc.peerInfos q)
      else acc.peerInfos[p]? := by
  rw [selectInfo_peerInfos]
  unfold RouteGroupData.listedInfo
  by_cases own : q = myPeerId
  · simp [own]
  by_cases stored : q ∈ acc.peerInfos
  · by_cases same : q = p
    · subst same
      simp [own, stored]
    · simp [stored, same]
  · by_cases same : q = p
    · subst same
      simp [own, stored]
    · simp [own, stored, same, Std.ExtTreeMap.getElem?_insert]

theorem selection_infos (relevant : List PeerId) (acc : InfoSelection) (p : PeerId) :
    (relevant.foldl (selectInfo nowMs g.myInfo full) acc).peerInfos[p]? =
      if p ∈ relevant ∧ p ≠ myPeerId then some (RouteGroupData.listedInfo g nowMs acc.peerInfos p)
      else acc.peerInfos[p]? := by
  induction relevant generalizing acc with
  | nil => simp
  | cons q rest ih =>
    rw [List.foldl_cons, ih, listedInfo_selectInfo, selectInfo_info]
    by_cases here : q = p
    · subst here
      by_cases own : q = myPeerId
      · simp [own]
      · simp [own]
    · simp [here, Ne.symm here]

theorem selection_remembers {relevant : List PeerId} (distinct : relevant.Nodup)
    (acc : InfoSelection) (p : PeerId) :
    (relevant.foldl (selectInfo nowMs g.myInfo full) acc).peerInfoVerMap[p]? =
      if p ∈ relevant ∧
        RouteGroupData.selects g nowMs full acc.peerInfos acc.peerInfoVerMap p = true
      then some (clamped (RouteGroupData.listedInfo g nowMs acc.peerInfos p))
      else acc.peerInfoVerMap[p]? := by
  induction relevant generalizing acc with
  | nil => simp
  | cons q rest ih =>
    obtain ⟨fresh, later⟩ := List.nodup_cons.mp distinct
    rw [List.foldl_cons, ih later, selectInfo_remembers, listedInfo_selectInfo]
    by_cases here : q = p
    · subst here
      simp [fresh]
    · rw [selects_selectInfo g nowMs full acc here]
      simp [here, Ne.symm here]

end Loop

/- The infos are full for a peer whose session id is not known. -/
def RouteGroupData.buildsFull (g : RouteGroupData) (target : PeerId) (full : Bool) : Bool :=
  full || (g.session target).dstSessionId.isNone

def RouteGroupData.selected (g : RouteGroupData) (nowMs : Millis) (target : PeerId)
    (full : Bool) : List PeerId :=
  (g.relevantPeers target).filter (RouteGroupData.selects g nowMs
    (RouteGroupData.buildsFull g target full) g.peerInfos (g.session target).peerInfoVerMap)

section Build
variable (g : RouteGroupData) (nowMs : Millis) (target : PeerId) (sid : SessionId)
  (initiator full : Bool)

theorem session_touched : (g.touchSession target sid nowMs).session target =
    { g.session target with mySessionId := some sid, lastTouchMs := nowMs } := by
  simp [RouteGroupData.touchSession, RouteGroupData.session]

theorem build_items :
    listedItems (g.buildSyncRouteInfoRequest nowMs target sid initiator full).1 =
      (RouteGroupData.selected g nowMs target full).map
        (RouteGroupData.listedInfo g nowMs g.peerInfos) := by
  have items : ((g.touchSession target sid nowMs).selectInfos nowMs target full).1 =
      (RouteGroupData.selected g nowMs target full).map
        (RouteGroupData.listedInfo g nowMs g.peerInfos) := by
    simp only [RouteGroupData.selectInfos, session_touched]
    exact selection_items g nowMs (RouteGroupData.buildsFull g target full)
      (relevantPeers_nodup g target) ⟨g.peerInfos, (g.session target).peerInfoVerMap, []⟩
  simp only [listedItems, RouteGroupData.buildSyncRouteInfoRequest, items]
  split
  · rename_i empty
    simpa using (List.isEmpty_iff.mp empty).symm
  · rfl

theorem build_storesInfos (p : PeerId) :
    (g.buildSyncRouteInfoRequest nowMs target sid initiator full).2.peerInfos[p]? =
      if p ∈ g.relevantPeers target ∧ p ≠ myPeerId
      then some (RouteGroupData.listedInfo g nowMs g.peerInfos p) else g.peerInfos[p]? := by
  obtain ⟨sessions, mapped⟩ := buildConnBitmap_frame
    ((g.touchSession target sid nowMs).selectInfos nowMs target full).2 (g.relevantPeers target)
    target
  simp only [RouteGroupData.buildSyncRouteInfoRequest, RouteGroupData.nextForeignVersion, mapped]
  exact selection_infos g nowMs _ (g.relevantPeers target) ⟨g.peerInfos, _, []⟩ p

theorem mapped_session (g : RouteGroupData) (relevant : List PeerId) (target : PeerId) :
    ∃ bitmaps sig, (g.buildConnBitmap relevant target).2.session target =
      { g.session target with connBitmapVerMap := bitmaps, lastConnBitmapSig := sig } := by
  unfold RouteGroupData.buildConnBitmap
  split
  · exact ⟨_, _, rfl⟩
  · simp only
    split
    · exact ⟨_, _, (session_insert ..).trans (if_pos rfl)⟩
    · exact ⟨_, _, (session_insert ..).trans (if_pos rfl)⟩

theorem selected_session :
    ((g.touchSession target sid nowMs).selectInfos nowMs target full).2.session target =
      { (g.touchSession target sid nowMs).session target with
        peerInfoVerMap := ((g.relevantPeers target).foldl
          (selectInfo nowMs g.myInfo (RouteGroupData.buildsFull g target full))
          ⟨g.peerInfos, (g.session target).peerInfoVerMap, []⟩).peerInfoVerMap } := by
  rw [RouteGroupData.session]
  simp only [RouteGroupData.selectInfos, session_insert, ↓reduceIte, session_touched]
  rfl

theorem build_session :
    ∃ bitmaps sig,
      (g.buildSyncRouteInfoRequest nowMs target sid initiator full).2.session target =
        { g.session target with
          mySessionId := some sid
          lastTouchMs := nowMs
          peerInfoVerMap := ((g.relevantPeers target).foldl
            (selectInfo nowMs g.myInfo (RouteGroupData.buildsFull g target full))
            ⟨g.peerInfos, (g.session target).peerInfoVerMap, []⟩).peerInfoVerMap
          connBitmapVerMap := bitmaps
          foreignNetVer := (g.session target).foreignNetVer + 1
          lastConnBitmapSig := sig } := by
  obtain ⟨bitmaps, sig, mapped⟩ := mapped_session
    ((g.touchSession target sid nowMs).selectInfos nowMs target full).2 (g.relevantPeers target)
    target
  refine ⟨bitmaps, sig, ?_⟩
  rw [selected_session, session_touched] at mapped
  rw [RouteGroupData.session]
  simp only [RouteGroupData.buildSyncRouteInfoRequest, RouteGroupData.nextForeignVersion,
    session_insert, ↓reduceIte, mapped]

theorem build_remembers (p : PeerId) :
    ((g.buildSyncRouteInfoRequest nowMs target sid initiator full).2.session
        target).peerInfoVerMap[p]? =
      if p ∈ RouteGroupData.selected g nowMs target full
      then some (clamped (RouteGroupData.listedInfo g nowMs g.peerInfos p))
      else (g.session target).peerInfoVerMap[p]? := by
  obtain ⟨bitmaps, sig, left⟩ := build_session g nowMs target sid initiator full
  have chosen := selection_remembers g nowMs (RouteGroupData.buildsFull g target full)
    (relevantPeers_nodup g target) ⟨g.peerInfos, (g.session target).peerInfoVerMap, []⟩ p
  rw [left]
  simp only [chosen, RouteGroupData.selected, List.mem_filter]

theorem mem_selected {p : PeerId} : p ∈ RouteGroupData.selected g nowMs target full ↔
    p ∈ g.relevantPeers target ∧ RouteGroupData.selects g nowMs
      (RouteGroupData.buildsFull g target full) g.peerInfos (g.session target).peerInfoVerMap p =
        true := List.mem_filter

end Build

def RouteGroupData.storedFor (g : RouteGroupData) (q : PeerId) : Option RoutePeerInfo :=
  if q = myPeerId then some g.myInfo else g.peerInfos[q]?

def RouteState.storedFor (st : RouteState) (key : GroupKey) (q : PeerId) : Option RoutePeerInfo :=
  (st.groups[key]?).bind (RouteGroupData.storedFor · q)

theorem storedFor_put (st : RouteState) (key : GroupKey) (g : RouteGroupData) (q : PeerId) :
    RouteState.storedFor (st.put key g) key q = RouteGroupData.storedFor g q := by
  simp [RouteState.storedFor, RouteState.put]

theorem build_storedFor (g : RouteGroupData) (nowMs : Millis) (target : PeerId) (sid : SessionId)
    (initiator full : Bool) (q : PeerId) :
    RouteGroupData.storedFor (g.buildSyncRouteInfoRequest nowMs target sid initiator full).2 q =
      if q ∈ g.relevantPeers target then some (RouteGroupData.listedInfo g nowMs g.peerInfos q)
      else RouteGroupData.storedFor g q := by
  have own : (g.buildSyncRouteInfoRequest nowMs target sid initiator full).2.myInfo = g.myInfo := by
    obtain ⟨infos, sessions, frame⟩ := build_frame g nowMs target sid initiator full
    rw [frame]
  unfold RouteGroupData.storedFor
  rw [own, build_storesInfos]
  by_cases server : q = myPeerId
  · simp [server, RouteGroupData.listedInfo]
  · simp [server]

end RelayInfoSelections
