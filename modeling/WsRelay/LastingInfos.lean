import WsRelay.LastingEdges

/- A reported info lasts. The checked writers let nothing older in and the item loop writes what
   the last report says, so once a member is reported on, every update of its group tells that
   report. -/
namespace RelayLastingInfos
open RelayProtocol RelayRouteState RelayPeerManager RelayRoomModel RelayRouteOps RelayRoomSteps
open RelayPeerInfoVersions RelayBitmapDelivery RelayResidue RelayRoomMoves RelayConnBitmap
open RelayChangeBroadcast RelayRestartVersions RelayFullUpdates RelayForwarding RelayPhases
open RelayHearsay RelayLastingEdges RelayWireFormats TransitionRuns OutputRuns

/- The last item about an id, up to the time of its arrival. -/
def LastSays (req : SyncRouteInfoRequest) (p : PeerId) (shown : RoutePeerInfo) : Prop :=
  ∀ item, lastItemAbout req p = some item → apartFromUpdate item = shown

/- Whoever is asked at an event says the same about this member. -/
structure Repeated (x : Externals) (key : GroupKey) (p : PeerId) (shown : RoutePeerInfo) (r : Relay)
    (e : Env × RoomEvent) : Prop where
  awake : e.2 ≠ .restart
  stays : p ∈ RouteState.members (routes (Relay.onEvent x r e)) key
  same : ∀ report ∈ heard x r e.2, report.groupKey = key →
    ∀ item ∈ listedItems report.request, item.peerId = p → apartFromUpdate item = shown

structure TellsOf (p : PeerId) (shown : RoutePeerInfo) (request : SyncRouteInfoRequest) : Prop where
  listed : ∃ item ∈ listedItems request, item.peerId = p
  only : ∀ item ∈ listedItems request, item.peerId = p → apartFromUpdate item = shown

def TellsInfo (p : PeerId) (shown : RoutePeerInfo) (key : GroupKey) (entry : Sent) : Prop :=
  ∀ target request topology, entry.origin = .routeUpdate key target request topology →
    TellsOf p shown request

section Calls
variable {x : Externals} {g : RouteGroupData} {st st' : RouteState} {c : RouteCall}
  {key : GroupKey} {p : PeerId} {shown : RoutePeerInfo}

def Shows (shown : RoutePeerInfo) (info : Option RoutePeerInfo) : Prop :=
  info.map apartFromUpdate = some shown

theorem shows_some {info : RoutePeerInfo} (same : apartFromUpdate info = shown) :
    Shows shown (some info) := by
  simp [Shows, same]

/- A call that neither takes the member away nor has news about it. -/
structure NoNews (x : Externals) (key : GroupKey) (p : PeerId) (shown : RoutePeerInfo)
    (c : RouteCall) : Prop where
  stays : ∀ nowMs, c.groupKey = key → c.op ≠ .removePeer p nowMs
  checked : ∀ bytes info, c.groupKey = key → c.op = .updatePeerInfo p bytes →
    x.decodeRoutePeerInfo bytes = some info →
      apartFromUpdate info = shown ∨ info.version ≤ shown.version
  items : ∀ sender bytes nowMs req, c.groupKey = key → c.op = .handleSync sender bytes nowMs →
    x.decodeSyncRouteInfoRequest bytes = some req → LastSays req p shown

theorem edit_shows (quiet : NoNews x key p shown c) (named : c.groupKey = key)
    (shows : Shows shown g.peerInfos[p]?) : Shows shown (c.op.edit x g).2.peerInfos[p]? := by
  obtain ⟨info, stored, same⟩ := Option.map_eq_some_iff.mp shows
  cases happens : c.op with
  | removePeer gone nowMs =>
    have other : gone ≠ p := by
      rintro rfl
      exact quiet.stays nowMs named happens
    simpa [RouteOp.edit, Std.ExtTreeMap.getElem?_erase, other] using shows
  | updatePeerInfo q bytes =>
    simp only [RouteOp.edit]
    split
    · exact shows
    · rename_i newer decoded
      by_cases here : q = p
      · subst here
        simp only [stored]
        split
        · rename_i above
          rw [Std.ExtTreeMap.getElem?_insert_self]
          rcases quiet.checked bytes newer named happens decoded with equal | older
          · exact shows_some equal
          · have version : info.version = shown.version := by
              rw [← same]
              rfl
            rw [version] at above
            exact absurd above (UInt32.not_lt.mpr older)
        · exact shows
      · have kept : (g.peerInfos.insert q newer)[p]? = g.peerInfos[p]? := by
          simp [Std.ExtTreeMap.getElem?_insert, here]
        split
        · simpa only [kept] using shows
        · simp only
          split
          · simpa only [kept] using shows
          · exact shows
  | handleSync sender bytes nowMs =>
    cases decoded : x.decodeSyncRouteInfoRequest bytes with
    | none => simpa only [RouteOp.edit, decoded] using shows
    | some req =>
      rw [handleSync_info decoded]
      split
      · cases last : lastItemAbout req p with
        | none => simpa [last] using shows
        | some item =>
          exact shows_some (quiet.items sender bytes nowMs req named happens decoded item last)
      · exact shows
  | setMyInfoField field value =>
    obtain ⟨myInfo, myInfoVersion, kept⟩ := setMyInfoField_frame g field value
    simp only [RouteOp.edit, kept]
    exact shows
  | updatePeerConnections q bytes =>
    obtain ⟨connections, kept⟩ := editPeerConnections_frame g x q bytes
    rw [kept]
    exact shows
  | build nowMs target sid initiator full =>
    rw [RouteOp.edit, build_keeps_info stored]
    exact shows_some same
  | addPeer q => exact shows
  | onRouteSessionAck q sid initiator nowMs => exact shows
  | bumpMyInfoVersion => exact shows
  | cleanup threshold nowMs => exact shows

theorem call_shows (quiet : NoNews x key p shown c) (shows : Shows shown (RouteState.info st key p)) :
    Shows shown (RouteState.info (RouteState.call x st c) key p) := by
  rw [info_call]
  split
  · rename_i named
    apply edit_shows quiet named
    rwa [ensureGroup_info]
  · exact shows

theorem call_stores {sender : PeerId} {bytes : Bytes} {nowMs : Millis} {req : SyncRouteInfoRequest}
    {item : RoutePeerInfo} (quiet : NoNews x key p shown c) (named : c.groupKey = key)
    (happens : c.op = .handleSync sender bytes nowMs)
    (decoded : x.decodeSyncRouteInfoRequest bytes = some req)
    (last : lastItemAbout req p = some item) (member : p ∈ RouteState.members st key) :
    Shows shown (RouteState.info (RouteState.call x st c) key p) := by
  rw [info_call, if_pos named, happens, handleSync_info decoded, ensureGroup_peers,
    if_pos (Or.inl member), last]
  exact shows_some (quiet.items sender bytes nowMs req named happens decoded item last)

theorem NoNews.member (quiet : NoNews x key p shown c) (member : p ∈ RouteState.members st key) :
    p ∈ RouteState.members (RouteState.call x st c) key := by
  rw [members_call]
  split
  · rename_i named
    cases happens : c.op with
    | addPeer joined => exact Std.ExtTreeSet.mem_insert.mpr (Or.inr member)
    | removePeer gone nowMs =>
      refine Std.ExtTreeSet.mem_erase.mpr ⟨?_, member⟩
      have other : gone ≠ p := by
        rintro rfl
        exact quiet.stays nowMs named happens
      simpa using other
    | _ => exact member
  · exact member

/-- Over the calls of an event the info is stored, if it was before or comes with one. -/
theorem callAll_shows (calls : List RouteCall) {st : RouteState}
    (quiet : ∀ c ∈ calls, NoNews x key p shown c) (member : p ∈ RouteState.members st key)
    (info : Shows shown (RouteState.info st key p) ∨ ∃ c ∈ calls, c.groupKey = key ∧
      ∃ sender bytes nowMs req item, c.op = .handleSync sender bytes nowMs ∧
        x.decodeSyncRouteInfoRequest bytes = some req ∧ lastItemAbout req p = some item) :
    p ∈ RouteState.members (RouteState.callAll x st calls) key ∧
      Shows shown (RouteState.info (RouteState.callAll x st calls) key p) := by
  induction calls generalizing st with
  | nil =>
    rcases info with shows | ⟨c, listed, -⟩
    · exact ⟨member, shows⟩
    · cases listed
  | cons c rest ih =>
    have here := quiet c (by simp)
    refine ih (fun later listed => quiet later (by simp [listed])) (here.member member) ?_
    rcases info with shows | ⟨d, listed, named, sender, bytes, nowMs, req, item, happens, decoded,
      last⟩
    · exact Or.inl (call_shows here shows)
    · rcases List.mem_cons.mp listed with rfl | later
      · exact Or.inl (call_stores here named happens decoded last member)
      · exact Or.inr ⟨d, later, named, sender, bytes, nowMs, req, item, happens, decoded, last⟩

end Calls

theorem lastItemAbout_mem {req : SyncRouteInfoRequest} {p : PeerId} {item : RoutePeerInfo}
    (last : lastItemAbout req p = some item) : item ∈ listedItems req ∧ item.peerId = p := by
  obtain ⟨infos, carried, found⟩ := Option.bind_eq_some_iff.mp last
  have listed := List.mem_reverse.mp (List.mem_of_find?_eq_some found)
  have about := List.find?_some found
  simp only [listedItems, carried, Option.map_some, Option.getD_some]
  exact ⟨listed, by simpa using about⟩

theorem lastItemAbout_of_mem {req : SyncRouteInfoRequest} {p : PeerId} {item : RoutePeerInfo}
    (listed : item ∈ listedItems req) (about : item.peerId = p) :
    ∃ last, lastItemAbout req p = some last := by
  cases carried : req.peerInfos with
  | none => simp [listedItems, carried] at listed
  | some infos =>
    simp only [listedItems, carried, Option.map_some, Option.getD_some] at listed
    simp only [lastItemAbout, carried, Option.bind_some]
    rw [← Option.isSome_iff_exists, List.find?_isSome]
    exact ⟨item, List.mem_reverse.mpr listed, by simpa using about⟩

section Runs
variable {x : Externals} {r : Relay} {st : RouteState} {key : GroupKey} {p : PeerId}
  {shown : RoutePeerInfo} {reports later : List Report}

theorem noNews_of_brings (decodes : ∀ m, x.decodeRoutePeerInfo (x.encodeRoutePeerInfo m) = some m)
    (positive : 1 ≤ shown.version) {c : RouteCall} (brings : Brings x later c)
    (stays : ∀ nowMs, c.groupKey = key → c.op ≠ .removePeer p nowMs)
    (same : ∀ report ∈ later, report.groupKey = key →
      ∀ item ∈ listedItems report.request, item.peerId = p → apartFromUpdate item = shown) :
    NoNews x key p shown c := by
  unfold Brings at brings
  refine ⟨stays, ?_, ?_⟩
  · intro bytes info named happens decoded
    rw [happens] at brings
    rcases brings with ⟨nowMs, rfl⟩ | ⟨report, listed, group, item, inside, about, rfl⟩
    · rw [decodes, Option.some.injEq] at decoded
      subst decoded
      exact Or.inr positive
    · rw [decodes, Option.some.injEq] at decoded
      subst decoded
      exact Or.inl (same report listed (group.trans named) item inside about)
  · intro sender bytes nowMs req named happens decoded item last
    rw [happens] at brings
    obtain ⟨report, listed, group, request⟩ := brings req decoded
    obtain ⟨inside, about⟩ := lastItemAbout_mem last
    rw [← request] at inside
    exact same report listed (group.trans named) item inside about

theorem build_tells (genuine : AllGenuine st) (foreign : p ≠ myPeerId)
    (member : p ∈ RouteState.members st key) (shows : Shows shown (RouteState.info st key p))
    (seed : GroupSeed) (nowMs : Millis) (target : PeerId) (sid : SessionId) (initiator : Bool) :
    TellsOf p shown (st.buildSyncRouteInfoRequest seed nowMs key target sid initiator true).1 := by
  set g := st.ensureGroup seed key with gDef
  have named : RouteGroupData.Genuine g := genuine.ensured seed key
  rw [← ensureGroup_peers st seed, ← gDef] at member
  rw [← ensureGroup_info st seed, ← gDef] at shows
  obtain ⟨info, stored, same⟩ := Option.map_eq_some_iff.mp shows
  have looked : RouteGroupData.listedInfo g nowMs g.peerInfos p = info := by
    simp [RouteGroupData.listedInfo, foreign, stored]
  have full : listedItems (st.buildSyncRouteInfoRequest seed nowMs key target sid initiator
      true).1 = (g.relevantPeers target).map (RouteGroupData.listedInfo g nowMs g.peerInfos) := by
    rw [← fullItems nowMs target sid initiator g]
    rfl
  refine ⟨?_, ?_⟩
  · rw [full]
    exact ⟨_, List.mem_map.mpr ⟨p, mem_relevantPeers.mpr (Or.inr (Or.inr member)), rfl⟩,
      listedInfo_named nowMs named p⟩
  · intro item listed about
    rw [full] at listed
    obtain ⟨q, -, rfl⟩ := List.mem_map.mp listed
    rw [listedInfo_named nowMs named q] at about
    rw [about, looked]
    exact same

/-- One event: the info is stored behind it, and its updates tell it. -/
theorem step_shows (decodes : ∀ m, x.decodeRoutePeerInfo (x.encodeRoutePeerInfo m) = some m)
    (positive : 1 ≤ shown.version) (foreign : p ≠ myPeerId) {e : Env × RoomEvent}
    (repeated : Repeated x key p shown r e) (knows : Knows reports (routes r))
    (member : p ∈ RouteState.members (routes r) key)
    (info : Shows shown (RouteState.info (routes r) key p) ∨ ∃ report ∈ heard x r e.2,
      report.groupKey = key ∧ ∃ item ∈ listedItems report.request, item.peerId = p) :
    (∃ reports, Knows reports (routes (Relay.onEvent x r e)) ∧
        Shows shown (RouteState.info (routes (Relay.onEvent x r e)) key p)) ∧
      ∀ entry ∈ sentSince r (Relay.onEvent x r e), TellsInfo p shown key entry := by
  obtain ⟨calls, mid, prepares, reached, told, -, built⟩ := onEvent_phases x r e
  have prepared := Knows.prepare decodes prepares (woken_knows knows e.2)
  rw [← reached] at prepared
  rw [woken_routes repeated.awake] at reached
  have quiet (c : RouteCall) (listed : c ∈ calls) : NoNews x key p shown c := by
    refine noNews_of_brings decodes positive (prepares.brings c listed) ?_ repeated.same
    intro nowMs named removes
    have left := prepares.leaves c listed p nowMs removes
    rw [named] at left
    exact left repeated.stays
  have behind : p ∈ RouteState.members (routes mid) key ∧
      Shows shown (RouteState.info (routes mid) key p) := by
    rw [reached]
    refine callAll_shows calls quiet member ?_
    rcases info with shows | ⟨report, reports, group, item, inside, about⟩
    · exact Or.inl shows
    · obtain ⟨c, listed, named, bytes, nowMs, happens, decoded⟩ := prepares.stores report reports
      obtain ⟨last, found⟩ := lastItemAbout_of_mem inside about
      exact Or.inr ⟨c, listed, named.trans group, _, bytes, nowMs, _, last, happens, decoded, found⟩
  have kept {st : RouteState} (builds : Reaches x IsBuild (routes mid) st) :
      Shows shown (RouteState.info st key p) := by
    obtain ⟨info, stored, same⟩ := Option.map_eq_some_iff.mp behind.2
    rw [reaches_build_info builds stored]
    exact shows_some same
  refine ⟨⟨_, prepared.announce told, kept told⟩, ?_⟩
  intro entry listed target request topology origin
  obtain ⟨st', seed, nowMs, sid, initiator, builds, rfl, -⟩ :=
    built entry listed key target request topology origin
  have members := members_reaches (builds.mono IsBuild.keepsMembers)
  refine build_tells (prepared.announce builds).genuine foreign ?_ (kept builds) seed nowMs target
    sid initiator
  rw [members]
  exact behind.1

end Runs

/-- Once a member is reported on, every update of the group tells what was reported, until a
    restart, the departure of the member or a report that says otherwise about it. -/
theorem reported_info_lasts {x : Externals}
    (decodes : ∀ m, x.decodeRoutePeerInfo (x.encodeRoutePeerInfo m) = some m) {key : GroupKey}
    {p : PeerId} {shown : RoutePeerInfo} (positive : 1 ≤ shown.version) (foreign : p ≠ myPeerId)
    {before during : List (Env × RoomEvent)} {e : Env × RoomEvent}
    (member : p ∈ RouteState.members (routes (Relay.run x Relay.initial before)) key)
    (reported : ∃ report ∈ heard x (Relay.run x Relay.initial before) e.2, report.groupKey = key ∧
      ∃ item ∈ listedItems report.request, item.peerId = p)
    (repeated : EveryStep (Relay.onEvent x) (Repeated x key p shown)
      (Relay.run x Relay.initial before) (e :: during)) :
    let start := Relay.run x Relay.initial before
    ∀ entry ∈ sentSince start (Relay.run x start (e :: during)), TellsInfo p shown key entry := by
  intro start
  have first := step_shows decodes positive foreign repeated.1 (run_knows decodes before) member
    (Or.inr reported)
  have rest := outputs_all (fun r => p ∈ RouteState.members (routes r) key ∧
      ∃ reports, Knows reports (routes r) ∧ Shows shown (RouteState.info (routes r) key p))
    (fun r e again inv => by
      obtain ⟨member, reports, knows, shows⟩ := inv
      have next := step_shows decodes positive foreign again knows member (Or.inl shows)
      exact ⟨⟨again.stays, next.1⟩, next.2⟩) ⟨repeated.1.stays, first.1⟩ repeated.2
  rw [sentSince_run]
  intro entry listed
  rcases List.mem_append.mp listed with now | later
  · exact first.2 entry now
  · exact rest entry later

/- Peer 5 tells its own info, and an alarm tells both peers again. -/
def ownReport : SyncRouteInfoRequest where
  myPeerId := 5
  mySessionId := 9
  isInitiator := true
  peerInfos := some ⟨[{ peerId := 5, hostname := some "five", version := 7 }]⟩
  connInfo := none
  foreignNetworkInfos := none

def ownNews : Env × RoomEvent := (quietEnv 2000 900, .message 0 (syncMessage 5 ownReport))

set_option maxRecDepth 16000 in
theorem own_news_lasts :
    let start := Relay.run wire Relay.initial twoNeighbours
    ∀ entry ∈ sentSince start (Relay.run wire start [ownNews, refresh]),
      TellsInfo 5 { peerId := 5, hostname := some "five", version := 7 } "net:aa" entry := by
  have said : (heard wire (Relay.run wire Relay.initial twoNeighbours) ownNews.2).map
      (fun report => (report.groupKey, listedItems report.request)) =
        [("net:aa", [{ peerId := 5, hostname := some "five", version := 7 }])] := by decide
  have first : Repeated wire "net:aa" 5 { peerId := 5, hostname := some "five", version := 7 }
      (Relay.run wire Relay.initial twoNeighbours) ownNews := by
    refine ⟨by simp [ownNews], by decide, ?_⟩
    intro report listed _ item inside _
    have pair := List.mem_map_of_mem (f := fun report : Report =>
      (report.groupKey, listedItems report.request)) listed
    rw [said, List.mem_singleton, Prod.mk.injEq] at pair
    rw [pair.2, List.mem_singleton] at inside
    rw [inside]
    rfl
  have second : Repeated wire "net:aa" 5 { peerId := 5, hostname := some "five", version := 7 }
      (Relay.onEvent wire (Relay.run wire Relay.initial twoNeighbours) ownNews) refresh := by
    refine ⟨by simp [refresh], by decide, ?_⟩
    intro report listed
    simp [refresh, heard] at listed
  have reported : ∃ report ∈ heard wire (Relay.run wire Relay.initial twoNeighbours) ownNews.2,
      report.groupKey = "net:aa" ∧ ∃ item ∈ listedItems report.request, item.peerId = 5 := by
    have pair : ("net:aa", [{ peerId := 5, hostname := some "five", version := 7 }]) ∈
        (heard wire (Relay.run wire Relay.initial twoNeighbours) ownNews.2).map
          (fun report => (report.groupKey, listedItems report.request)) := by
      rw [said]
      exact List.mem_singleton_self _
    obtain ⟨report, listed, same⟩ := List.mem_map.mp pair
    rw [Prod.mk.injEq] at same
    exact ⟨report, listed, same.1, _, by rw [same.2]; exact List.mem_singleton_self _, rfl⟩
  exact reported_info_lasts wire_roundTrips.peerInfo (by decide) (by decide) (by decide) reported
    ⟨first, second, trivial⟩

end RelayLastingInfos
