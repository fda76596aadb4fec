import WsRelay.SessionResync
import WsRelay.FullUpdates
import WsRelay.Library.VersionedMirrors

/- A receiver that follows the updates for one target. The server skips what it remembers to
   have told, by version numbers only. So the two agree as long as every info that comes into
   the list has a version above the remembered one, or has been told as it is. -/
namespace RelayIncrementalSync
open RelayProtocol RelayRouteState RelayRouteOps RelayConnBitmap RelayPeerInfoVersions
open RelayChangeBroadcast RelayResidue RelayOwnRecords RelayInfoSelections RelaySessionResync
open RelayRestartVersions RelayFullUpdates RelayWireFormats TransitionRuns VersionedMirrors FoldMaps

abbrev Receiver := PeerMap RoutePeerInfo

/- It keeps the last info of each id. -/
def receive (held : Receiver) (req : SyncRouteInfoRequest) : Receiver :=
  (listedItems req).foldl (fun held item => held.insert item.peerId item) held

structure Link where
  routes : RouteState
  receiver : Receiver

/- The update that a call makes for the target. -/
def updateFor (key : GroupKey) (t : PeerId) (st : RouteState) (c : RouteCall) :
    Option SyncRouteInfoRequest :=
  match c.op with
  | .build now target sid initiator full =>
    if c.groupKey = key ∧ target = t then
      some (st.buildSyncRouteInfoRequest c.seed now key t sid initiator full).1
    else none
  | _ => none

def Link.step (x : Externals) (key : GroupKey) (t : PeerId) (link : Link) (c : RouteCall) :
    Link where
  routes := RouteState.call x link.routes c
  receiver := ((updateFor key t link.routes c).map (receive link.receiver)).getD link.receiver

section Group
variable {x : Externals} {g g' : RouteGroupData} {t q : PeerId} {held : Receiver}

def RouteGroupData.content (g : RouteGroupData) (q : PeerId) : RoutePeerInfo :=
  apartFromUpdate (RouteGroupData.listedInfo g 0 g.peerInfos q)

def RouteGroupData.mirror (g : RouteGroupData) (t : PeerId) (held : Receiver) :
    Mirror PeerId RoutePeerInfo Version where
  told q := (g.session t).peerInfoVerMap.getD q 0
  held q := held[q]?.map apartFromUpdate

def RouteGroupData.relevant (g : RouteGroupData) (t : PeerId) : Set PeerId :=
  {q | q ∈ g.relevantPeers t}

def RouteGroupData.Covered (g : RouteGroupData) (t : PeerId) (held : Receiver) : Prop :=
  (RouteGroupData.mirror g t held).Covers clamped (RouteGroupData.relevant g t)
    (RouteGroupData.content g)

theorem listedInfo_content (now : Millis) :
    apartFromUpdate (RouteGroupData.listedInfo g now g.peerInfos q) =
      RouteGroupData.content g q := by
  unfold RouteGroupData.content RouteGroupData.listedInfo
  by_cases own : q = myPeerId
  · simp [own]
  · cases stored : g.peerInfos[q]? with
    | none => simp [own, apartFromUpdate, makeStubPeerInfo]
    | some info => simp [own]

theorem content_stored (foreign : q ≠ myPeerId) {info : RoutePeerInfo}
    (stored : g.peerInfos[q]? = some info) :
    RouteGroupData.content g q = apartFromUpdate info := by
  simp [RouteGroupData.content, RouteGroupData.listedInfo, foreign, stored]

theorem content_own : RouteGroupData.content g myPeerId = apartFromUpdate g.myInfo := by
  simp [RouteGroupData.content, RouteGroupData.listedInfo]

theorem content_congr (own : g'.myInfo = g.myInfo)
    (infos : q ≠ myPeerId → g'.peerInfos[q]? = g.peerInfos[q]?) :
    RouteGroupData.content g' q = RouteGroupData.content g q := by
  by_cases server : q = myPeerId
  · rw [server, content_own, content_own, own]
  · simp only [RouteGroupData.content, RouteGroupData.listedInfo, own, infos server]

theorem mem_relevant : q ∈ RouteGroupData.relevant g t ↔
    q = myPeerId ∨ q = t ∨ q ∈ g.peers := mem_relevantPeers

theorem content_insert (g : RouteGroupData) (p : PeerId) (info : RoutePeerInfo) :
    RouteGroupData.content { g with peerInfos := g.peerInfos.insert p info } q =
      if q = p ∧ q ≠ myPeerId then apartFromUpdate info else RouteGroupData.content g q := by
  by_cases here : q = p ∧ q ≠ myPeerId
  · rw [if_pos here]
    apply content_stored here.2
    simp [here.1]
  · rw [if_neg here]
    apply content_congr
    · rfl
    · intro foreign
      have other : p ≠ q := fun same => here ⟨same.symm, foreign⟩
      simp [Std.ExtTreeMap.getElem?_insert, other]

/- The infos that the operation writes, and the one that an id joins with. -/
def RouteOp.brings (x : Externals) (g : RouteGroupData) (q : PeerId) :
    RouteOp → Option RoutePeerInfo
  | .addPeer p => if q = p then some (RouteGroupData.listedInfo g 0 g.peerInfos p) else none
  | .updatePeerInfo p bytes =>
    if q = p ∧ q ≠ myPeerId then
      (x.decodeRoutePeerInfo bytes).filter fun info =>
        g.peerInfos[p]?.all fun old => old.version < info.version
    else none
  | .handleSync p bytes _ =>
    if q ≠ myPeerId ∧ (q ∈ g.peers ∨ q = p) then
      (x.decodeSyncRouteInfoRequest bytes).bind fun req => lastItemAbout req q
    else none
  | .bumpMyInfoVersion =>
    if q = myPeerId then some { g.myInfo with version := g.myInfoVersion + 1 } else none
  | .setMyInfoField field value =>
    match g.withMyInfoField field value with
    | .error _ => none
    | .ok info =>
      if q = myPeerId then some { info with version := g.myInfoVersion + 1 }
      else if q ∈ g.peerInfos then none
      -- the stub of an id without an info has the network length of the relay
      else some (makeStubPeerInfo 0 q (max info.networkLength 1))
  | _ => none

/- Whatever comes into the list has a version above the told one, or has been told as it is. -/
def RouteOp.Tells (x : Externals) (t : PeerId) (held : Receiver) (g : RouteGroupData)
    (op : RouteOp) : Prop :=
  ∀ q, q = myPeerId ∨ q = t ∨ q ∈ op.peersAfter g.peers →
    ∀ info, RouteOp.brings x g q op = some info →
      (RouteGroupData.mirror g t held).Announces clamped q (apartFromUpdate info)

def RouteOp.KeepsSession (x : Externals) (t : PeerId) (sid : SessionId) : RouteOp → Prop
  | .removePeer p _ => p ≠ t
  | .onRouteSessionAck p theirs _ _ => p = t → theirs = sid
  | .handleSync p bytes _ =>
    p = t → ∀ req, x.decodeSyncRouteInfoRequest bytes = some req → req.mySessionId = sid
  | _ => True

theorem build_content (now : Millis) (target : PeerId) (sid : SessionId) (initiator full : Bool) :
    RouteGroupData.content (g.buildSyncRouteInfoRequest now target sid initiator full).2 q =
      RouteGroupData.content g q := by
  by_cases listed : q ∈ g.relevantPeers target ∧ q ≠ myPeerId
  · have stored := build_storesInfos g now target sid initiator full q
    rw [if_pos listed] at stored
    rw [content_stored listed.2 stored, listedInfo_content]
  · apply content_congr
    · obtain ⟨infos, sessions, frame⟩ := build_frame g now target sid initiator full
      rw [frame]
    · intro _
      rw [build_storesInfos, if_neg listed]

/- The operation shows what it brings for the id, and otherwise what was shown before. -/
def RouteOp.ShowsBrought (x : Externals) (g : RouteGroupData) (q : PeerId) (op : RouteOp) : Prop :=
  RouteGroupData.content (op.edit x g).2 q =
    ((RouteOp.brings x g q op).map apartFromUpdate).getD (RouteGroupData.content g q)

theorem updatePeerInfo_content (p : PeerId) (bytes : Bytes) :
    RouteOp.ShowsBrought x g q (.updatePeerInfo p bytes) := by
  simp only [RouteOp.ShowsBrought, RouteOp.edit, RouteOp.brings]
  cases x.decodeRoutePeerInfo bytes with
  | none => simp
  | some info =>
    cases stored : g.peerInfos[p]? with
    | none =>
      simp only [content_insert]
      by_cases writes : q = p ∧ q ≠ myPeerId
      · rw [if_pos writes, if_pos writes]
        simp [Option.filter]
      · simp [writes]
    | some old =>
      by_cases newer : old.version < info.version
      · simp only [newer, ↓reduceIte, content_insert]
        by_cases writes : q = p ∧ q ≠ myPeerId
        · rw [if_pos writes, if_pos writes]
          simp [newer, Option.filter]
        · simp [writes]
      · simp [newer, Option.filter]

theorem setMyInfoField_content (field value : String) :
    RouteOp.ShowsBrought x g q (.setMyInfoField field value) := by
  simp only [RouteOp.ShowsBrought, RouteOp.edit, RouteOp.brings, RouteGroupData.setMyInfoField]
  cases g.withMyInfoField field value with
  | error message => rfl
  | ok info =>
    by_cases server : q = myPeerId
    · rw [server, content_own]
      simp [RouteGroupData.bumpMyInfoVersion]
    · by_cases stored : q ∈ g.peerInfos
      · simp [RouteGroupData.bumpMyInfoVersion, RouteGroupData.content,
          RouteGroupData.listedInfo, server, stored]
      · simp [RouteGroupData.bumpMyInfoVersion, RouteGroupData.content,
          RouteGroupData.listedInfo, server, stored]

theorem handleSync_content (p : PeerId) (bytes : Bytes) (now : Millis) :
    RouteOp.ShowsBrought x g q (.handleSync p bytes now) := by
  unfold RouteOp.ShowsBrought
  have own : (RouteOp.edit x g (.handleSync p bytes now)).2.myInfo = g.myInfo := by
    obtain ⟨infos, sessions, frame⟩ := editSync_frame g x p bytes now
    rw [frame]
  cases decoded : x.decodeSyncRouteInfoRequest bytes with
  | none => simp [RouteOp.edit, RouteOp.brings, decoded]
  | some req =>
    have stored := handleSync_info decoded g p now q
    by_cases writes : q ≠ myPeerId ∧ (q ∈ g.peers ∨ q = p)
    · rw [if_pos writes.2] at stored
      simp only [RouteOp.brings, decoded, Option.bind_some]
      rw [if_pos writes]
      cases about : lastItemAbout req q with
      | none =>
        rw [about] at stored
        exact content_congr own fun _ => stored
      | some item =>
        rw [about] at stored
        have listed : RouteGroupData.content (RouteOp.edit x g (.handleSync p bytes now)).2 q =
            apartFromUpdate (stamped now item) := content_stored writes.1 stored
        rw [listed]
        rfl
    · simp only [RouteOp.brings]
      rw [if_neg writes]
      apply content_congr own
      intro foreign
      rwa [if_neg (fun connected => writes ⟨foreign, connected⟩)] at stored

/-- Behind an operation an id is listed with what the operation brings, or as before. -/
theorem edit_content {op : RouteOp} {sid : SessionId} (keeps : RouteOp.KeepsSession x t sid op)
    (listed : q = myPeerId ∨ q = t ∨ q ∈ op.peersAfter g.peers) :
    RouteOp.ShowsBrought x g q op := by
  cases op with
  | addPeer p =>
    have same : RouteGroupData.content (RouteOp.edit x g (.addPeer p)).2 q =
        RouteGroupData.content g q := rfl
    rw [RouteOp.ShowsBrought, same]
    by_cases joins : q = p
    · subst joins
      simp [RouteOp.brings, RouteGroupData.content]
    · simp [RouteOp.brings, joins]
  | removePeer p now =>
    have stays : q ≠ myPeerId → p ≠ q := by
      intro foreign same
      rcases listed with own | target | member
      · exact foreign own
      · exact keeps (same.trans target)
      · simp [RouteOp.peersAfter, same] at member
    apply content_congr
    · rfl
    · intro foreign
      simp [RouteOp.edit, Std.ExtTreeMap.getElem?_erase, stays foreign]
  | updatePeerInfo p bytes => exact updatePeerInfo_content p bytes
  | onRouteSessionAck p theirs initiator now => rfl
  | bumpMyInfoVersion =>
    by_cases server : q = myPeerId
    · rw [RouteOp.ShowsBrought, server, content_own]
      simp [RouteOp.brings, RouteOp.edit, RouteGroupData.bumpMyInfoVersion]
    · simp [RouteOp.ShowsBrought, RouteOp.brings, RouteOp.edit,
        RouteGroupData.bumpMyInfoVersion, RouteGroupData.content, RouteGroupData.listedInfo, server]
  | setMyInfoField field value => exact setMyInfoField_content field value
  | updatePeerConnections p bytes =>
    obtain ⟨connections, frame⟩ := editPeerConnections_frame g x p bytes
    rw [RouteOp.ShowsBrought, frame]
    rfl
  | build now target serverSid initiator full =>
    exact build_content now target serverSid initiator full
  | handleSync p bytes now => exact handleSync_content p bytes now
  | cleanup threshold now => rfl

theorem edit_relevant (op : RouteOp) : q ∈ RouteGroupData.relevant (op.edit x g).2 t ↔
    q = myPeerId ∨ q = t ∨ q ∈ op.peersAfter g.peers := by
  rw [mem_relevant, (edit_peers_versions g x op).1]

theorem relevant_before {op : RouteOp} (listed : q = myPeerId ∨ q = t ∨ q ∈ op.peersAfter g.peers)
    (nothing : RouteOp.brings x g q op = none) : q ∈ RouteGroupData.relevant g t := by
  rw [mem_relevant]
  rcases listed with own | target | member
  · exact Or.inl own
  · exact Or.inr (Or.inl target)
  · right
    right
    cases op with
    | addPeer p =>
      by_cases joins : q = p
      · simp [RouteOp.brings, joins] at nothing
      · rcases Std.ExtTreeSet.mem_insert.mp member with same | old
        · exact absurd (Std.LawfulEqCmp.compare_eq_iff_eq.mp same).symm joins
        · exact old
    | removePeer p now => exact (Std.ExtTreeSet.mem_erase.mp member).2
    | _ => exact member

theorem keepsSession_cases {op : RouteOp} {sid : SessionId}
    (keeps : RouteOp.KeepsSession x t sid op) :
    RouteOp.records op ≠ some t ∨
      (∃ initiator now, op = .onRouteSessionAck t sid initiator now) ∨
      (∃ bytes now, op = .handleSync t bytes now ∧
        ∀ req, x.decodeSyncRouteInfoRequest bytes = some req → req.mySessionId = sid) ∨
      ∃ now serverSid initiator full, op = .build now t serverSid initiator full := by
  by_cases own : RouteOp.records op = some t
  · right
    cases op with
    | removePeer p now => exact absurd (Option.some.inj own) keeps
    | onRouteSessionAck p theirs initiator now =>
      obtain rfl := Option.some.inj own
      obtain rfl := keeps rfl
      exact Or.inl ⟨initiator, now, rfl⟩
    | handleSync p bytes now =>
      obtain rfl := Option.some.inj own
      exact Or.inr (Or.inl ⟨bytes, now, rfl, keeps rfl⟩)
    | build now p serverSid initiator full =>
      obtain rfl := Option.some.inj own
      exact Or.inr (Or.inr ⟨now, serverSid, initiator, full, rfl⟩)
    | _ => cases own
  · exact Or.inl own

theorem edit_memory_known {op : RouteOp} {sid : SessionId}
    (known : (g.session t).dstSessionId = some sid) (keeps : RouteOp.KeepsSession x t sid op)
    (quiet : ∀ now serverSid initiator full, op ≠ .build now t serverSid initiator full) :
    memoryOf ((op.edit x g).2.session t) = memoryOf (g.session t) := by
  rcases keepsSession_cases keeps with other | ⟨initiator, now, rfl⟩ | ⟨bytes, now, rfl, same⟩ |
    ⟨now, serverSid, initiator, full, rfl⟩
  · rw [edit_session x g other]
  · exact (ack_memory sid initiator now).trans (if_pos known)
  · cases decoded : x.decodeSyncRouteInfoRequest bytes with
    | none => simp only [RouteOp.edit, decoded]
    | some req => rw [sync_memory decoded now, if_pos (by rw [known, same req decoded])]
  · exact absurd rfl (quiet now serverSid initiator full)

theorem build_dst (now : Millis) (sid : SessionId) (initiator full : Bool) :
    ((g.buildSyncRouteInfoRequest now t sid initiator full).2.session t).dstSessionId =
      (g.session t).dstSessionId := by
  obtain ⟨bitmaps, sig, left⟩ := build_session g now t sid initiator full
  rw [left]

theorem ack_dst (sid : SessionId) (initiator : Bool) (now : Millis) :
    ((g.onRouteSessionAck t sid initiator now).session t).dstSessionId = some sid := by
  simp [RouteGroupData.onRouteSessionAck, RouteGroupData.session]

theorem sync_dst {bytes : Bytes} {req : SyncRouteInfoRequest}
    (decoded : x.decodeSyncRouteInfoRequest bytes = some req) (now : Millis) :
    ((RouteOp.edit x g (.handleSync t bytes now)).2.session t).dstSessionId =
      some req.mySessionId := by
  have touched : ((g.touchFrom t req now).session t).dstSessionId = some req.mySessionId := by
    simp [RouteGroupData.touchFrom, RouteGroupData.session]
  simp only [RouteOp.edit, decoded]
  split
  · exact touched
  · exact touched

theorem edit_dst {op : RouteOp} {sid : SessionId}
    (known : (g.session t).dstSessionId = some sid) (keeps : RouteOp.KeepsSession x t sid op) :
    ((op.edit x g).2.session t).dstSessionId = some sid := by
  rcases keepsSession_cases keeps with other | ⟨initiator, now, rfl⟩ | ⟨bytes, now, rfl, same⟩ |
    ⟨now, serverSid, initiator, full, rfl⟩
  · rw [edit_session x g other]
    exact known
  · exact ack_dst sid initiator now
  · cases decoded : x.decodeSyncRouteInfoRequest bytes with
    | none => simpa only [RouteOp.edit, decoded] using known
    | some req =>
      rw [← same req decoded]
      exact sync_dst decoded now
  · exact (build_dst now serverSid initiator full).trans known

/-- Everything but a build for the target keeps the list covered exactly if it tells what it
    brings. -/
theorem edit_covered_iff {op : RouteOp} {sid : SessionId}
    (known : (g.session t).dstSessionId = some sid) (keeps : RouteOp.KeepsSession x t sid op)
    (quiet : ∀ now serverSid initiator full, op ≠ .build now t serverSid initiator full)
    (covered : RouteGroupData.Covered g t held) :
    RouteGroupData.Covered (op.edit x g).2 t held ↔ RouteOp.Tells x t held g op := by
  have remembered := congrArg SessionMemory.peerInfoVerMap (edit_memory_known known keeps quiet)
  have same : RouteGroupData.mirror (op.edit x g).2 t held = RouteGroupData.mirror g t held := by
    unfold RouteGroupData.mirror
    have told : ((op.edit x g).2.session t).peerInfoVerMap = (g.session t).peerInfoVerMap :=
      remembered
    rw [told]
  unfold RouteGroupData.Covered
  rw [same, covers_written_iff {q | (RouteOp.brings x g q op).isSome} covered]
  · constructor
    · intro announced q listed info brought
      have told := announced q ((edit_relevant op).mpr listed) (Option.isSome_iff_exists.mpr
        ⟨info, brought⟩)
      rwa [edit_content keeps listed, brought] at told
    · intro tells q listed wrote
      obtain ⟨info, brought⟩ := Option.isSome_iff_exists.mp wrote
      have announced := (edit_relevant op).mp listed
      rw [edit_content keeps announced, brought]
      exact tells q announced info brought
  · intro q listed other
    have nothing : RouteOp.brings x g q op = none := Option.not_isSome_iff_eq_none.mp other
    have after := (edit_relevant op).mp listed
    refine ⟨relevant_before after nothing, ?_⟩
    rw [edit_content keeps after, nothing]
    rfl

theorem received_info {info : PeerId → RoutePeerInfo} (named : ∀ p, (info p).peerId = p)
    (ids : List PeerId) (held : Receiver) :
    ((ids.map info).foldl (fun held item => held.insert item.peerId item) held)[q]? =
      if q ∈ ids then some (info q) else held[q]? := by
  induction ids generalizing held with
  | nil => simp
  | cons p rest ih =>
    rw [List.map_cons, List.foldl_cons, ih, named]
    by_cases later : q ∈ rest
    · simp [later]
    · by_cases here : p = q
      · subst here
        simp
      · simp [later, Std.ExtTreeMap.getElem?_insert, here, Ne.symm here]

theorem build_mirror (genuine : RouteGroupData.Genuine g) (now : Millis) (sid : SessionId)
    (initiator full : Bool) :
    RouteGroupData.mirror (g.buildSyncRouteInfoRequest now t sid initiator full).2 t
        (receive held (g.buildSyncRouteInfoRequest now t sid initiator full).1) =
      (RouteGroupData.mirror g t held).tell clamped (RouteGroupData.selected g now t full)
        (RouteGroupData.content g) := by
  unfold RouteGroupData.mirror Mirror.tell
  congr 1
  · funext q
    rw [Std.ExtTreeMap.getD_eq_getD_getElem?, build_remembers]
    by_cases chosen : q ∈ RouteGroupData.selected g now t full
    · simp only [chosen, ↓reduceIte, Option.getD_some]
      rw [← listedInfo_content now]
      rfl
    · simp only [chosen, ↓reduceIte, Std.ExtTreeMap.getD_eq_getD_getElem?]
  · funext q
    rw [receive, build_items, received_info (listedInfo_named now genuine)]
    by_cases chosen : q ∈ RouteGroupData.selected g now t full
    · simp only [chosen, ↓reduceIte, Option.map_some, listedInfo_content]
    · simp only [chosen, ↓reduceIte]

theorem build_skips (now : Millis) (full : Bool) :
    ∀ q ∈ RouteGroupData.relevant g t, q ∉ RouteGroupData.selected g now t full →
      ¬ (RouteGroupData.mirror g t held).told q < clamped (RouteGroupData.content g q) := by
  intro q listed skipped newer
  apply skipped
  rw [mem_selected]
  refine ⟨listed, ?_⟩
  rw [← listedInfo_content now] at newer
  have above : (g.session t).peerInfoVerMap.getD q 0 <
      clamped (RouteGroupData.listedInfo g now g.peerInfos q) := newer
  simp [RouteGroupData.selects, above]

/- Without the full flag the build for a known session sends nothing else. -/
theorem build_chooses (now : Millis) {sid : SessionId}
    (known : (g.session t).dstSessionId = some sid) :
    ∀ q ∈ RouteGroupData.relevant g t, q ∈ RouteGroupData.selected g now t false ↔
      (RouteGroupData.mirror g t held).told q < clamped (RouteGroupData.content g q) := by
  intro q listed
  constructor
  · intro chosen
    have selects := ((mem_selected g now t false).mp chosen).2
    simp only [RouteGroupData.selects, RouteGroupData.buildsFull, known, Option.isNone_some,
      Bool.or_self, Bool.false_or, decide_eq_true_eq] at selects
    rw [← listedInfo_content now]
    exact selects
  · intro newer
    by_contra skipped
    exact build_skips now false q listed skipped newer

theorem build_relevant (now : Millis) (sid : SessionId) (initiator full : Bool) :
    RouteGroupData.relevant (g.buildSyncRouteInfoRequest now t sid initiator full).2 t =
      RouteGroupData.relevant g t := by
  obtain ⟨infos, sessions, frame⟩ := build_frame g now t sid initiator full
  ext q
  rw [mem_relevant, mem_relevant, frame]

theorem build_covered (genuine : RouteGroupData.Genuine g) (now : Millis)
    (sid : SessionId) (initiator full : Bool) (covered : RouteGroupData.Covered g t held) :
    RouteGroupData.Covered (g.buildSyncRouteInfoRequest now t sid initiator full).2 t
      (receive held (g.buildSyncRouteInfoRequest now t sid initiator full).1) := by
  have agrees := tell_agrees covered (build_skips now full)
  have content : RouteGroupData.content (g.buildSyncRouteInfoRequest now t sid initiator full).2 =
      RouteGroupData.content g := by
    funext q
    exact build_content now t sid initiator full
  unfold RouteGroupData.Covered
  rw [build_mirror genuine, build_relevant, content]
  exact agrees.covers

theorem covered_onGroup (op : RouteOp) :
    RouteGroupData.Covered (op.onGroup x g) t held ↔
      RouteGroupData.Covered (op.edit x g).2 t held := by
  unfold RouteOp.onGroup
  split
  · rfl
  · rfl

end Group

section Link
variable {x : Externals} {key : GroupKey} {t : PeerId} {sid : SessionId} {link : Link}
  {c : RouteCall}

/- A call stores infos under their own ids and leaves the target its session. -/
structure Fits (x : Externals) (key : GroupKey) (t : PeerId) (sid : SessionId) (c : RouteCall) :
    Prop where
  reads : ReadsNamed x c.op
  keeps : c.groupKey = key → RouteOp.KeepsSession x t sid c.op

structure Link.Ready (key : GroupKey) (t : PeerId) (sid : SessionId) (link : Link) : Prop where
  genuine : AllGenuine link.routes
  known : RouteState.dstSessionId link.routes key t = some sid

def Link.Covered (key : GroupKey) (t : PeerId) (link : Link) : Prop :=
  ∀ g, link.routes.groups[key]? = some g → RouteGroupData.Covered g t link.receiver

def Link.Tells (x : Externals) (key : GroupKey) (t : PeerId) (link : Link) (c : RouteCall) : Prop :=
  c.groupKey = key →
    RouteOp.Tells x t link.receiver (link.routes.ensureGroup c.seed key) c.op

theorem Link.Ready.stored (ready : Link.Ready key t sid link) :
    ∃ g, link.routes.groups[key]? = some g ∧ (g.session t).dstSessionId = some sid := by
  have known := ready.known
  unfold RouteState.dstSessionId Reading.read at known
  cases stored : link.routes.groups[key]? with
  | none =>
    rw [stored] at known
    cases known
  | some g =>
    rw [stored] at known
    exact ⟨g, rfl, known⟩

theorem Link.Ready.step (ready : Link.Ready key t sid link) (fits : Fits x key t sid c) :
    Link.Ready key t sid (Link.step x key t link c) := by
  constructor
  · exact call_genuine_of_reads fits.reads ready.genuine
  · refine (dstReading t).call_holds (P := fun dst => dst = some sid) ready.known ?_
    intro named known
    exact edit_dst known (fits.keeps named)

theorem call_stored {st : RouteState} {g : RouteGroupData} (stored : st.groups[key]? = some g)
    (named : c.groupKey = key) :
    (RouteState.call x st c).groups[key]? = some (c.op.onGroup x g) := by
  subst named
  rcases call_groups x st c with ⟨same, idle⟩ | put
  · rw [same, idle, stored]
  · rw [put, RelayTopologyVersions.ensureGroup_stored stored]
    simp [RouteState.put]

theorem step_other (different : c.groupKey ≠ key) :
    (Link.step x key t link c).routes.groups[key]? = link.routes.groups[key]? ∧
      (Link.step x key t link c).receiver = link.receiver := by
  constructor
  · rcases call_groups x link.routes c with ⟨same, -⟩ | put
    · exact congrArg (fun st : RouteState => st.groups[key]?) same
    · exact (congrArg (fun st : RouteState => st.groups[key]?) put).trans
        (groups_put_ne _ _ different)
  · have silent : updateFor key t link.routes c = none := by
      unfold updateFor
      split
      · exact if_neg fun both => different both.1
      · rfl
    simp only [Link.step, silent, Option.map_none, Option.getD_none]

theorem step_build {g : RouteGroupData} (stored : link.routes.groups[key]? = some g)
    (seed : GroupSeed) (now : Millis) (serverSid : SessionId) (initiator full : Bool) :
    let built := g.buildSyncRouteInfoRequest now t serverSid initiator full
    let after := Link.step x key t link ⟨key, seed, .build now t serverSid initiator full⟩
    after.routes = link.routes.put key built.2 ∧
      after.receiver = receive link.receiver built.1 := by
  have group : link.routes.ensureGroup seed key = g :=
    RelayTopologyVersions.ensureGroup_stored stored seed
  constructor
  · simp only [Link.step, RouteState.call, RouteState.buildSyncRouteInfoRequest, group]
  · simp only [Link.step, updateFor, and_self, ↓reduceIte, Option.map_some, Option.getD_some,
      RouteState.buildSyncRouteInfoRequest, group]

theorem step_silent (quiet : ∀ now serverSid initiator full,
    c.op ≠ .build now t serverSid initiator full) :
    (Link.step x key t link c).receiver = link.receiver := by
  have silent : updateFor key t link.routes c = none := by
    unfold updateFor
    split
    · rename_i now target serverSid initiator full opened
      apply if_neg
      intro both
      exact quiet now serverSid initiator full (by rw [opened, both.2])
    · rfl
  simp only [Link.step, silent, Option.map_none, Option.getD_none]

/-- A step keeps the list covered exactly if it tells what it brings in. -/
theorem covered_step_iff (ready : Link.Ready key t sid link) (fits : Fits x key t sid c)
    (covered : Link.Covered key t link) :
    Link.Covered key t (Link.step x key t link c) ↔ Link.Tells x key t link c := by
  by_cases named : c.groupKey = key
  · obtain ⟨g, stored, known⟩ := ready.stored
    have group : link.routes.ensureGroup c.seed key = g :=
      RelayTopologyVersions.ensureGroup_stored stored c.seed
    by_cases builds : ∃ now serverSid initiator full,
        c.op = .build now t serverSid initiator full
    · obtain ⟨now, serverSid, initiator, full, opened⟩ := builds
      obtain ⟨own, seed, op⟩ := c
      obtain rfl : own = key := named
      obtain rfl : op = .build now t serverSid initiator full := opened
      have built := step_build (x := x) (t := t) stored seed now serverSid initiator full
      have genuine := ready.genuine own g stored
      apply iff_of_true
      · intro after found
        rw [built.1] at found
        simp only [RouteState.put, Std.ExtTreeMap.getElem?_insert_self, Option.some.injEq] at found
        rw [← found, built.2]
        exact build_covered genuine now serverSid initiator full (covered g stored)
      · intro _ q _ info brought
        cases brought
    · have quiet : ∀ now serverSid initiator full,
          c.op ≠ .build now t serverSid initiator full := by
        intro now serverSid initiator full opened
        exact builds ⟨now, serverSid, initiator, full, opened⟩
      have exactly : RouteGroupData.Covered (c.op.edit x g).2 t link.receiver ↔
          RouteOp.Tells x t link.receiver g c.op :=
        edit_covered_iff known (fits.keeps named) quiet (covered g stored)
      have after : (Link.step x key t link c).routes.groups[key]? = some (c.op.onGroup x g) :=
        call_stored stored named
      unfold Link.Covered Link.Tells
      rw [after, step_silent quiet, group]
      simp only [Option.some.injEq, forall_eq', covered_onGroup, exactly, named, forall_const]
  · obtain ⟨group, receiver⟩ : (Link.step x key t link c).routes.groups[key]? =
        link.routes.groups[key]? ∧ (Link.step x key t link c).receiver = link.receiver :=
      step_other named
    apply iff_of_true
    · intro g stored
      rw [receiver]
      rw [group] at stored
      exact covered g stored
    · intro same
      exact absurd same named

/- The receiver holds what the server stores for the members, the relay and the target. -/
def Link.Agrees (key : GroupKey) (t : PeerId) (link : Link) : Prop :=
  ∀ q, q = myPeerId ∨ q = t ∨ q ∈ RouteState.members link.routes key →
    ∃ info, RouteState.storedFor link.routes key q = some info ∧
      link.receiver[q]?.map apartFromUpdate = some (apartFromUpdate info)

theorem build_agrees_iff {g : RouteGroupData} (ready : Link.Ready key t sid link)
    (stored : link.routes.groups[key]? = some g) (seed : GroupSeed) (now : Millis)
    (serverSid : SessionId) (initiator full : Bool) :
    Link.Agrees key t
        (Link.step x key t link ⟨key, seed, .build now t serverSid initiator full⟩) ↔
      ((RouteGroupData.mirror g t link.receiver).tell clamped
        (RouteGroupData.selected g now t full) (RouteGroupData.content g)).Agrees
          (RouteGroupData.relevant g t) (RouteGroupData.content g) := by
  set built := g.buildSyncRouteInfoRequest now t serverSid initiator full with builtDef
  obtain ⟨routes, receiver⟩ := step_build (x := x) (t := t) stored seed now serverSid initiator full
  have mirrored : RouteGroupData.mirror built.2 t (receive link.receiver built.1) =
      (RouteGroupData.mirror g t link.receiver).tell clamped (RouteGroupData.selected g now t full)
        (RouteGroupData.content g) :=
    build_mirror (ready.genuine key g stored) now serverSid initiator full
  have members : RouteState.members (link.routes.put key built.2) key = g.peers := by
    obtain ⟨infos, sessions, frame⟩ := build_frame g now t serverSid initiator full
    simp [RouteState.members, RouteState.put, builtDef, frame]
  unfold Link.Agrees Mirror.Agrees
  rw [routes, receiver, ← mirrored, members]
  apply forall_congr'
  intro q
  rw [mem_relevant]
  apply imp_congr_right
  intro listed
  have relevant : q ∈ g.relevantPeers t := mem_relevantPeers.mpr listed
  rw [storedFor_put, build_storedFor, if_pos relevant]
  simp only [Option.some.injEq, exists_eq_left', listedInfo_content]
  rfl

/-- A covered list is told in full by every build, and no other list by every build. -/
theorem builds_agree_iff (ready : Link.Ready key t sid link) :
    (∀ seed now serverSid initiator full, Link.Agrees key t
        (Link.step x key t link ⟨key, seed, .build now t serverSid initiator full⟩)) ↔
      Link.Covered key t link := by
  obtain ⟨g, stored, known⟩ := ready.stored
  have covered : Link.Covered key t link ↔ RouteGroupData.Covered g t link.receiver := by
    unfold Link.Covered
    rw [stored]
    simp only [Option.some.injEq, forall_eq']
  rw [covered]
  constructor
  · intro agrees
    have incremental := agrees ⟨⟨0, 0, 0, 0⟩, 0⟩ 0 0 false false
    rw [build_agrees_iff ready stored] at incremental
    exact (tell_agrees_iff (build_chooses 0 known)).mp incremental
  · intro covers seed now serverSid initiator full
    rw [build_agrees_iff ready stored]
    exact tell_agrees covers (build_skips now full)

end Link

section Session
variable {x : Externals} {key : GroupKey} {t : PeerId} {sid : SessionId} {first : RouteCall}

theorem learned_dst {st : RouteState} (learns : Learns x key t sid first) :
    RouteState.dstSessionId (RouteState.call x st first) key t = some sid := by
  obtain ⟨named, path⟩ := learns
  have called := (dstReading t).call x st first key
  rw [if_pos named] at called
  refine called.trans ?_
  rcases path with ⟨initiator, now, opened⟩ | ⟨bytes, now, req, opened, decoded, rfl⟩
  · rw [opened]
    exact ack_dst sid initiator now
  · rw [opened]
    exact sync_dst decoded now

theorem learned_reads (learns : Learns x key t sid first) : ReadsNamed x first.op := by
  intro p bytes stores
  rcases learns.2 with ⟨initiator, now, opened⟩ | ⟨answer, now, req, opened, -, -⟩
  · rw [opened] at stores
    cases stores
  · rw [opened] at stores
    cases stores

theorem learned_covered {st : RouteState} (learns : Learns x key t sid first)
    (unknown : RouteState.dstSessionId st key t ≠ some sid) :
    Link.Covered key t ⟨RouteState.call x st first, ∅⟩ := by
  intro g stored
  have memory : RouteState.memory (RouteState.call x st first) key t = blank := by
    rw [learned_memory learns, if_neg unknown]
  have read : RouteState.memory (RouteState.call x st first) key t = memoryOf (g.session t) := by
    simp only [RouteState.memory, Reading.read, stored]
    rfl
  have remembered : (g.session t).peerInfoVerMap = ∅ :=
    congrArg SessionMemory.peerInfoVerMap (read.symm.trans memory)
  apply covers_of_forgotten
  intro q _
  simp only [RouteGroupData.mirror, remembered]
  exact clamped_positive _

/- The server has just learned the session id, and the receiver has heard nothing. -/
def Link.opened (x : Externals) (before : List RouteCall) (first : RouteCall) : Link where
  routes := RouteState.call x (RouteState.callAll x RouteState.new before) first
  receiver := ∅

/- The receiver agrees with the server behind every build for the target, wherever in the run
   the build is made and whatever its flags are. -/
def Link.Follows (x : Externals) (key : GroupKey) (t : PeerId) (start : Link)
    (calls : List RouteCall) : Prop :=
  ∀ done rest, calls = done ++ rest → ∀ seed now serverSid initiator full,
    Link.Agrees key t (Link.step x key t (run (Link.step x key t) start done)
      ⟨key, seed, .build now t serverSid initiator full⟩)

def Link.BuildsAgree (x : Externals) (key : GroupKey) (t : PeerId) (start : Link)
    (calls : List RouteCall) : Prop :=
  ∀ done seed now serverSid initiator full rest,
    calls = done ++ ⟨key, seed, .build now t serverSid initiator full⟩ :: rest →
    Link.Agrees key t (run (Link.step x key t) start
      (done ++ [⟨key, seed, .build now t serverSid initiator full⟩]))

theorem Link.Follows.builds {start : Link} {calls : List RouteCall}
    (follows : Link.Follows x key t start calls) : Link.BuildsAgree x key t start calls := by
  intro done seed now serverSid initiator full rest split
  rw [run_append]
  exact follows done _ split seed now serverSid initiator full

theorem opened_ready {before : List RouteCall} (named : ∀ c ∈ before, ReadsNamed x c.op)
    (learns : Learns x key t sid first) :
    Link.Ready key t sid (Link.opened x before first) := by
  have new : AllGenuine RouteState.new := by
    intro key g stored
    simp [RouteState.new] at stored
  have genuine : AllGenuine (RouteState.callAll x RouteState.new before) :=
    invariant_run AllGenuine (fun _ _ reads kept => call_genuine_of_reads reads kept) new
      (everyStep_of_forall named)
  exact ⟨call_genuine_of_reads (learned_reads learns) genuine, learned_dst learns⟩

/-- Along a session of the target, the receiver follows the server exactly if whatever comes
    into the list is above the version that the session remembers, or has been told as it is. Then
    the two agree behind every build of the run. -/
theorem incremental_sync_agrees_iff {before calls : List RouteCall}
    (named : ∀ c ∈ before, ReadsNamed x c.op) (learns : Learns x key t sid first)
    (unknown : RouteState.dstSessionId (RouteState.callAll x RouteState.new before) key t ≠
      some sid)
    (fits : ∀ c ∈ calls, Fits x key t sid c) :
    (Link.Follows x key t (Link.opened x before first) calls ↔
      EveryStep (Link.step x key t) (Link.Tells x key t) (Link.opened x before first) calls) ∧
    (EveryStep (Link.step x key t) (Link.Tells x key t) (Link.opened x before first) calls →
      Link.BuildsAgree x key t (Link.opened x before first) calls) := by
  set start := Link.opened x before first with startDef
  have ready : Link.Ready key t sid start := opened_ready named learns
  have covered : Link.Covered key t start := learned_covered learns unknown
  have fitting : EveryStep (Link.step x key t) (fun _ c => Fits x key t sid c) start calls :=
    everyStep_of_forall fits
  have readyAt : ∀ done rest, calls = done ++ rest →
      Link.Ready key t sid (run (Link.step x key t) start done) := by
    intro done rest split
    rw [split, everyStep_append] at fitting
    exact invariant_run (Link.Ready key t sid) (fun _ _ fits ready => ready.step fits) ready
      fitting.1
  have known : EveryStep (Link.step x key t)
      (fun link c => Link.Ready key t sid link ∧ Fits x key t sid c) start calls := by
    rw [everyStep_iff_splits]
    intro done c rest split
    exact ⟨readyAt done (c :: rest) split, fits c (by simp [split])⟩
  have exactly : Link.Follows x key t start calls ↔
      EveryStep (Link.step x key t) (Link.Tells x key t) start calls := by
    rw [← invariant_iff_within covered
      (fun link c known covered => covered_step_iff known.1 known.2 covered) known]
    constructor
    · intro follows done rest split
      exact (builds_agree_iff (readyAt done rest split)).mp (follows done rest split)
    · intro covers done rest split
      exact (builds_agree_iff (readyAt done rest split)).mpr (covers done rest split)
  exact ⟨exactly, fun tells => (exactly.mpr tells).builds⟩

end Session

/- Calls for one group. Peer 5 opens a session, and peer 6 comes and goes. -/
def inGroup (op : RouteOp) : RouteCall := ⟨"net:aa", (quietEnv 1000 500).seed "net:aa", op⟩

def fifthAck : RouteCall := inGroup (.onRouteSessionAck 5 9 true 1000)

def buildForFifth : RouteCall := inGroup (.build 2000 5 77 false false)

def storesSixth (info : RoutePeerInfo) : RouteCall :=
  inGroup (.updatePeerInfo 6 (wire.encodeRoutePeerInfo info))

theorem fifthAck_learns : Learns wire "net:aa" 5 9 fifthAck := ⟨rfl, Or.inl ⟨true, 1000, rfl⟩⟩

theorem fits_plain {op : RouteOp} (noInfo : ∀ p bytes, op ≠ .updatePeerInfo p bytes)
    (keeps : RouteOp.KeepsSession wire 5 9 op) : Fits wire "net:aa" 5 9 (inGroup op) :=
  ⟨fun p bytes stores => absurd stores (noInfo p bytes), fun _ => keeps⟩

theorem fits_sixth {info : RoutePeerInfo} (own : info.peerId = 6) :
    Fits wire "net:aa" 5 9 (storesSixth info) := by
  constructor
  · intro p bytes stores read decoded
    obtain ⟨rfl, rfl⟩ := RouteOp.updatePeerInfo.inj stores
    rw [wire_roundTrips.peerInfo, Option.some.injEq] at decoded
    rw [← decoded]
    exact own
  · intro _
    trivial

theorem joined_member_is_told :
    Link.Follows wire "net:aa" 5 (Link.opened wire [] fifthAck)
      [inGroup (.addPeer 6), buildForFifth] := by
  have unknown : RouteState.dstSessionId (RouteState.callAll wire RouteState.new []) "net:aa" 5 ≠
      some 9 := by decide
  refine (incremental_sync_agrees_iff ?_ fifthAck_learns unknown ?_).1.mpr ?_
  · intro c listed
    cases listed
  · intro c listed
    rcases List.mem_pair.mp listed with rfl | rfl
    · exact fits_plain (by simp) trivial
    · exact fits_plain (by simp) trivial
  · refine ⟨?_, ?_, trivial⟩
    · intro _ q _ info brought
      by_cases joins : q = 6
      · subst joins
        obtain rfl := Option.some.inj brought
        left
        decide
      · simp [inGroup, RouteOp.brings, joins] at brought
    · intro _ q _ info brought
      cases brought

/- Peer 6 is told with version 5, leaves, and comes back with version 1. -/
def rejoining : List RouteCall :=
  [inGroup (.addPeer 6), storesSixth { peerId := 6, version := 5 }, buildForFifth,
    inGroup (.removePeer 6 3000), inGroup (.addPeer 6),
    storesSixth { peerId := 6, version := 1, hostname := "back" }]

set_option maxRecDepth 8000 in
/- The session still remembers version 5, and the receiver keeps the info of the first stay. -/
theorem lower_version_not_told :
    (Learns wire "net:aa" 5 9 fifthAck ∧ ∀ c ∈ rejoining, Fits wire "net:aa" 5 9 c) ∧
      ¬ Link.Follows wire "net:aa" 5 (Link.opened wire [] fifthAck) rejoining := by
  refine ⟨⟨fifthAck_learns, ?_⟩, ?_⟩
  · intro c listed
    simp only [rejoining, List.mem_cons, List.not_mem_nil, or_false] at listed
    rcases listed with rfl | rfl | rfl | rfl | rfl | rfl
    · exact fits_plain (by simp) trivial
    · exact fits_sixth rfl
    · exact fits_plain (by simp) trivial
    · exact fits_plain (by simp) (show (6 : PeerId) ≠ 5 by decide)
    · exact fits_plain (by simp) trivial
    · exact fits_sixth rfl
  · intro follows
    have agrees := follows rejoining [] (by simp) ((quietEnv 1000 500).seed "net:aa") 4000 77 false
      false
    set last := Link.step wire "net:aa" 5 (run (Link.step wire "net:aa" 5)
      (Link.opened wire [] fifthAck) rejoining)
      ⟨"net:aa", (quietEnv 1000 500).seed "net:aa", .build 4000 5 77 false false⟩
    have member : (6 : PeerId) ∈ RouteState.members last.routes "net:aa" := by decide
    have kept : last.receiver[(6 : PeerId)]?.map (fun info => info.version) = some 5 := by decide
    have stored : (RouteState.storedFor last.routes "net:aa" 6).map (fun info => info.version) =
        some 1 := by decide
    obtain ⟨info, holds, same⟩ := agrees 6 (Or.inr (Or.inr member))
    rw [holds] at stored
    cases had : last.receiver[(6 : PeerId)]? with
    | none =>
      rw [had] at kept
      cases kept
    | some heard =>
      rw [had] at kept same
      rw [Option.map_some, Option.some.injEq] at same
      have versions : (apartFromUpdate heard).version = (apartFromUpdate info).version :=
        congrArg (fun info : RoutePeerInfo => info.version) same
      have five : heard.version = 5 := Option.some.inj kept
      have one : info.version = 1 := Option.some.inj stored
      exact absurd (five.symm.trans (versions.trans one)) (by decide)

end RelayIncrementalSync
