import WsRelay.RouteOps
import WsRelay.Library.Announcements

/- The conn bitmap of a group: which bits a build sets, what the textual signature determines,
   and when a build withholds the bitmap. -/
namespace RelayConnBitmap
open RelayProtocol RelayRouteState RelayRouteOps PackedBits PlainText FoldMaps Announcements

variable {g : RouteGroupData} {target p q : PeerId}

theorem mem_relevantPeers :
    p ∈ g.relevantPeers target ↔ p = myPeerId ∨ p = target ∨ p ∈ g.peers := by
  simp only [RouteGroupData.relevantPeers, List.mem_insertionSort, List.mem_cons, List.mem_filter,
    Std.ExtTreeSet.mem_toList, RouteGroupData.allPeers, Std.ExtTreeSet.mem_insert,
    Std.LawfulEqCmp.compare_eq_iff_eq, decide_eq_true_eq]
  by_cases own : p = myPeerId
  · simp [own]
  · simp [own, Ne.symm own, @eq_comm _ target p]

theorem relevantPeers_nodup (g : RouteGroupData) (target : PeerId) :
    (g.relevantPeers target).Nodup := by
  unfold RouteGroupData.relevantPeers
  rw [(List.perm_insertionSort (· ≤ ·) _).nodup_iff, List.nodup_cons]
  refine ⟨by simp, List.Nodup.filter _ ?_⟩
  exact (g.allPeers target).distinct_toList.imp (by simp)

theorem relevantPeers_ne_nil (g : RouteGroupData) (target : PeerId) :
    g.relevantPeers target ≠ [] :=
  List.ne_nil_of_mem (mem_relevantPeers.mpr (Or.inl rfl))

theorem indexByPeer_eq_some {relevant : List PeerId} (distinct : relevant.Nodup) {i : Nat} :
    (indexByPeer relevant)[p]? = some i ↔ relevant[i]? = some p := by
  unfold indexByPeer
  rw [foldl_positions distinct 0 ∅ p i]
  simp

def Linked (connections : PeerMap PeerSet) (p q : PeerId) : Prop :=
  (∃ reported, connections[p]? = some reported ∧ q ∈ reported) ∨
    ∃ reported, connections[q]? = some reported ∧ p ∈ reported

section Cells
variable {relevant : List PeerId} {serverIdx i j : Nat} {connections : PeerMap PeerSet}

theorem mem_p2pCells (distinct : relevant.Nodup) :
    (i, j) ∈ p2pCells (indexByPeer relevant) serverIdx connections ↔
      i ≠ j ∧ i ≠ serverIdx ∧ j ≠ serverIdx ∧
        ∃ p q, relevant[i]? = some p ∧ relevant[j]? = some q ∧ Linked connections p q := by
  have entry : (i, j) ∈ p2pCells (indexByPeer relevant) serverIdx connections ↔
      ∃ src reported dst a b, connections[src]? = some reported ∧ dst ∈ reported ∧
        relevant[a]? = some src ∧ relevant[b]? = some dst ∧
        (a ≠ b ∧ a ≠ serverIdx ∧ b ≠ serverIdx) ∧ ((i, j) = (a, b) ∨ (i, j) = (b, a)) := by
    unfold p2pCells
    simp only [List.mem_flatMap, Prod.exists, Std.ExtTreeMap.mem_toList_iff_getElem?_eq_some]
    constructor
    · rintro ⟨src, reported, stored, listed⟩
      split at listed
      · cases listed
      · rename_i a atA
        obtain ⟨dst, member, marked⟩ := List.mem_flatMap.mp listed
        split at marked
        · cases marked
        · rename_i b atB
          split at marked
          · rename_i apart
            refine ⟨src, reported, dst, a, b, stored, Std.ExtTreeSet.mem_toList.mp member,
              (indexByPeer_eq_some distinct).mp atA, (indexByPeer_eq_some distinct).mp atB, apart, ?_⟩
            simpa using marked
          · cases marked
    · rintro ⟨src, reported, dst, a, b, stored, member, atA, atB, apart, cell⟩
      refine ⟨src, reported, stored, ?_⟩
      rw [(indexByPeer_eq_some distinct).mpr atA]
      refine List.mem_flatMap.mpr ⟨dst, Std.ExtTreeSet.mem_toList.mpr member, ?_⟩
      simp only [(indexByPeer_eq_some distinct).mpr atB]
      rw [if_pos apart]
      simpa using cell
  rw [entry]
  constructor
  · rintro ⟨src, reported, dst, a, b, stored, member, atA, atB, ⟨apart, aPeer, bPeer⟩, cell | cell⟩
    · obtain ⟨rfl, rfl⟩ := Prod.mk.inj cell
      exact ⟨apart, aPeer, bPeer, src, dst, atA, atB, Or.inl ⟨reported, stored, member⟩⟩
    · obtain ⟨rfl, rfl⟩ := Prod.mk.inj cell
      exact ⟨apart.symm, bPeer, aPeer, dst, src, atB, atA, Or.inr ⟨reported, stored, member⟩⟩
  · rintro ⟨apart, iPeer, jPeer, p, q, atI, atJ, ⟨reported, stored, member⟩ | ⟨reported, stored, member⟩⟩
    · exact ⟨p, reported, q, i, j, stored, member, atI, atJ, ⟨apart, iPeer, jPeer⟩, Or.inl rfl⟩
    · exact ⟨q, reported, p, j, i, stored, member, atJ, atI, ⟨apart.symm, jPeer, iPeer⟩, Or.inr rfl⟩

theorem mem_serverCells {n : Nat} (present : serverIdx < n) :
    (i, j) ∈ serverCells n serverIdx ↔
      i < n ∧ j < n ∧ i ≠ j ∧ (i = serverIdx ∨ j = serverIdx) := by
  simp only [serverCells, List.mem_flatMap, List.mem_filter, List.mem_range, decide_eq_true_eq,
    List.mem_cons, Prod.mk.injEq, List.not_mem_nil, or_false]
  constructor
  · rintro ⟨k, ⟨below, other⟩, ⟨rfl, rfl⟩ | ⟨rfl, rfl⟩⟩
    · exact ⟨present, below, Ne.symm other, Or.inl rfl⟩
    · exact ⟨below, present, other, Or.inr rfl⟩
  · rintro ⟨iSmall, jSmall, apart, rfl | rfl⟩
    · exact ⟨j, ⟨jSmall, apart.symm⟩, Or.inl ⟨rfl, rfl⟩⟩
    · exact ⟨i, ⟨iSmall, apart⟩, Or.inr ⟨rfl, rfl⟩⟩

theorem mem_diagonalCells {n : Nat} : (i, j) ∈ diagonalCells n ↔ i < n ∧ i = j := by
  simp only [diagonalCells, List.mem_map, List.mem_range, Prod.mk.injEq]
  constructor
  · rintro ⟨k, below, rfl, rfl⟩
    exact ⟨below, rfl⟩
  · rintro ⟨below, rfl⟩
    exact ⟨i, below, rfl, rfl⟩

/-- The cells of a build, in terms of the peers at the two positions. -/
theorem mem_connCells (distinct : relevant.Nodup) (served : myPeerId ∈ relevant) :
    (i, j) ∈ g.connCells relevant ↔ ∃ p q, relevant[i]? = some p ∧ relevant[j]? = some q ∧
      (p = q ∨ p = myPeerId ∨ q = myPeerId ∨ Linked g.peerConnections p q) := by
  obtain ⟨serverIdx, atServer⟩ := List.mem_iff_getElem?.mp served
  have server : (indexByPeer relevant)[myPeerId]? = some serverIdx :=
    (indexByPeer_eq_some distinct).mpr atServer
  have serverSmall := (List.getElem?_eq_some_iff.mp atServer).1
  have position {k : Nat} {p : PeerId} (atK : relevant[k]? = some p) {l : Nat} {q : PeerId}
      (atL : relevant[l]? = some q) : p = q ↔ k = l := by
    constructor
    · rintro rfl
      have first := (indexByPeer_eq_some distinct).mpr atK
      have second := (indexByPeer_eq_some distinct).mpr atL
      exact Option.some.inj (first.symm.trans second)
    · rintro rfl
      exact Option.some.inj (atK.symm.trans atL)
  simp only [RouteGroupData.connCells, server, List.mem_append, mem_diagonalCells,
    mem_serverCells serverSmall, mem_p2pCells distinct]
  constructor
  · rintro (⟨iSmall, rfl⟩ | ⟨iSmall, jSmall, apart, side⟩ | ⟨apart, iPeer, jPeer, p, q, atI, atJ, linked⟩)
    · exact ⟨_, _, List.getElem?_eq_getElem iSmall, List.getElem?_eq_getElem iSmall, Or.inl rfl⟩
    · have atI := List.getElem?_eq_getElem iSmall
      have atJ := List.getElem?_eq_getElem jSmall
      refine ⟨_, _, atI, atJ, ?_⟩
      rcases side with row | column
      · exact Or.inr (Or.inl ((position atI atServer).mpr row))
      · exact Or.inr (Or.inr (Or.inl ((position atJ atServer).mpr column)))
    · exact ⟨p, q, atI, atJ, Or.inr (Or.inr (Or.inr linked))⟩
  · rintro ⟨p, q, atI, atJ, edge⟩
    have iSmall := (List.getElem?_eq_some_iff.mp atI).1
    have jSmall := (List.getElem?_eq_some_iff.mp atJ).1
    rw [position atI atJ, position atI atServer, position atJ atServer] at edge
    by_cases apart : i = j
    · exact Or.inl ⟨iSmall, apart⟩
    by_cases side : i = serverIdx ∨ j = serverIdx
    · exact Or.inr (Or.inl ⟨iSmall, jSmall, apart, side⟩)
    obtain ⟨iPeer, jPeer⟩ := not_or.mp side
    rcases edge with same | row | column | linked
    · exact absurd same apart
    · exact absurd row iPeer
    · exact absurd column jPeer
    · exact Or.inr (Or.inr ⟨apart, iPeer, jPeer, p, q, atI, atJ, linked⟩)

end Cells

def neighbours (bitmap : RouteConnBitmap) (p : PeerId) : Set PeerId :=
  {q | ∃ i j, (bitmap.peerIds[i]?).map (·.peerId) = some p ∧
    (bitmap.peerIds[j]?).map (·.peerId) = some q ∧
    getBit bitmap.bitmap (i * bitmap.peerIds.length + j) = true}

theorem mem_neighbours {relevant : List PeerId} (distinct : relevant.Nodup)
    (served : myPeerId ∈ relevant) :
    q ∈ neighbours (g.connBitmap relevant) p ↔ p ∈ relevant ∧ q ∈ relevant ∧
      (p = q ∨ p = myPeerId ∨ q = myPeerId ∨ Linked g.peerConnections p q) := by
  have inside : ∀ cell ∈ g.connCells relevant,
      cell.1 < relevant.length ∧ cell.2 < relevant.length := by
    intro cell member
    obtain ⟨p, q, atI, atJ, -⟩ := (mem_connCells distinct served).mp member
    exact ⟨(List.getElem?_eq_some_iff.mp atI).1, (List.getElem?_eq_some_iff.mp atJ).1⟩
  have listedAt (i : Nat) : ((g.connBitmap relevant).peerIds[i]?).map (·.peerId) = relevant[i]? := by
    simp [RouteGroupData.connBitmap, Function.comp_def]
  have length : (g.connBitmap relevant).peerIds.length = relevant.length := by
    simp [RouteGroupData.connBitmap]
  simp only [neighbours, Set.mem_ofPred_eq, listedAt, length]
  constructor
  · rintro ⟨i, j, atI, atJ, bit⟩
    have iSmall := (List.getElem?_eq_some_iff.mp atI).1
    have jSmall := (List.getElem?_eq_some_iff.mp atJ).1
    obtain ⟨p', q', atI', atJ', edge⟩ :=
      (mem_connCells distinct served).mp ((getBit_cells inside iSmall jSmall).mp bit)
    rw [atI] at atI'
    rw [atJ] at atJ'
    cases atI'
    cases atJ'
    exact ⟨List.mem_of_getElem? atI, List.mem_of_getElem? atJ, edge⟩
  · rintro ⟨pListed, qListed, edge⟩
    obtain ⟨i, atI⟩ := List.mem_iff_getElem?.mp pListed
    obtain ⟨j, atJ⟩ := List.mem_iff_getElem?.mp qListed
    have iSmall := (List.getElem?_eq_some_iff.mp atI).1
    have jSmall := (List.getElem?_eq_some_iff.mp atJ).1
    refine ⟨i, j, atI, atJ, (getBit_cells inside iSmall jSmall).mpr ?_⟩
    exact (mem_connCells distinct served).mpr ⟨p, q, atI, atJ, edge⟩

theorem peerIdVersionText_injective : Function.Injective peerIdVersionText := by
  intro a b same
  have chars : a.peerId.toNat.repr.toList ++ ':' :: a.version.toNat.repr.toList =
      b.peerId.toNat.repr.toList ++ ':' :: b.version.toNat.repr.toList := by
    have := congrArg String.toList same
    simpa [peerIdVersionText] using this
  obtain ⟨peer, version⟩ := split_first_injective (decimal_no_char rfl _) (decimal_no_char rfl _) chars
  have samePeer := UInt32.toNat_inj.mp (decimal_injective (String.toList_inj.mp peer))
  have sameVersion := UInt32.toNat_inj.mp (decimal_injective (String.toList_inj.mp version))
  cases a
  cases b
  simp_all

theorem peerIdVersionText_no_comma (pv : PeerIdVersion) : ',' ∉ (peerIdVersionText pv).toList := by
  have digits (n : Nat) : ',' ∉ n.repr.toList := decimal_no_char rfl n
  have colon : ',' ∉ ":".toList := by decide
  simp only [peerIdVersionText, String.toList_append, List.mem_append, digits, colon, or_self,
    not_false_eq_true]

/-- Two bitmaps that list peers are equal when their signatures are. -/
theorem connBitmapSig_injective {a b : RouteConnBitmap} (aLists : a.peerIds ≠ [])
    (bLists : b.peerIds ≠ []) (same : connBitmapSig a = connBitmapSig b) : a = b := by
  have chars : (joined "," (a.peerIds.map peerIdVersionText)).toList ++ '|' ::
        (hexText a.bitmap).toList =
      (joined "," (b.peerIds.map peerIdVersionText)).toList ++ '|' ::
        (hexText b.bitmap).toList := by
    have := congrArg String.toList same
    simpa [connBitmapSig] using this
  obtain ⟨ids, bits⟩ := split_last_injective (hexText_no_bar _) (hexText_no_bar _) chars
  have commaFree (ids : List PeerIdVersion) :
      ∀ text ∈ ids.map peerIdVersionText, ',' ∉ text.toList := by
    intro text listed
    obtain ⟨pv, -, rfl⟩ := List.mem_map.mp listed
    exact peerIdVersionText_no_comma pv
  have texts : a.peerIds.map peerIdVersionText = b.peerIds.map peerIdVersionText :=
    joined_injective (commaFree _) (commaFree _) (by simpa using aLists) (by simpa using bLists)
      (String.toList_inj.mp ids)
  have samePeers := List.map_injective_iff.mpr peerIdVersionText_injective texts
  have sameBits := hexText_injective (String.toList_inj.mp bits)
  cases a
  cases b
  simp_all

theorem connBitmap_lists (g : RouteGroupData) {relevant : List PeerId} (some_relevant : relevant ≠ []) :
    (g.connBitmap relevant).peerIds ≠ [] := by
  simpa [RouteGroupData.connBitmap] using some_relevant

/- The recorded signature. A build announces the current topology to its target, whether it
   sends the bitmap or leaves it out; a new session id or a removal forgets. -/
def RouteGroupData.topology (g : RouteGroupData) (target : PeerId) : RouteConnBitmap :=
  g.connBitmap (g.relevantPeers target)

def RouteGroupData.signature (g : RouteGroupData) (target : PeerId) : Option String :=
  (g.session target).lastConnBitmapSig

theorem topology_lists (g : RouteGroupData) (target : PeerId) :
    (RouteGroupData.topology g target).peerIds ≠ [] :=
  connBitmap_lists g (relevantPeers_ne_nil g target)

theorem session_insert (sessions : PeerMap SessionState) (p q : PeerId) (s : SessionState) :
    (sessions.insert p s).getD q {} = if p = q then s else sessions.getD q {} := by
  rw [Std.ExtTreeMap.getD_insert]
  simp only [Std.LawfulEqCmp.compare_eq_iff_eq]

theorem buildConnBitmap_spec {relevant : List PeerId} (some_relevant : relevant ≠ [])
    (g : RouteGroupData) (target : PeerId) :
    (g.buildConnBitmap relevant target).1 =
      (if RouteGroupData.signature g target = some (connBitmapSig (g.connBitmap relevant)) then none
        else some (g.connBitmap relevant)) ∧
    ∀ q, RouteGroupData.signature (g.buildConnBitmap relevant target).2 q =
      if target = q then some (connBitmapSig (g.connBitmap relevant))
      else RouteGroupData.signature g q := by
  have nonempty : relevant.isEmpty = false := by simpa using some_relevant
  unfold RouteGroupData.buildConnBitmap
  simp only [nonempty, Bool.false_eq_true, ↓reduceIte]
  split
  · rename_i known
    refine ⟨(if_pos known).symm, ?_⟩
    intro q
    simp only [RouteGroupData.signature, RouteGroupData.session, session_insert]
    by_cases same : target = q
    · subst same
      simp only [↓reduceIte]
      exact known
    · simp only [same, ↓reduceIte]
  · rename_i news
    refine ⟨(if_neg news).symm, ?_⟩
    intro q
    simp only [RouteGroupData.signature, RouteGroupData.session, session_insert]
    by_cases same : target = q
    · simp only [same, ↓reduceIte]
    · simp only [same, ↓reduceIte]

theorem signature_rewritten {g g' : RouteGroupData} (target : PeerId)
    (rewritten : ∃ s, g'.sessions = g.sessions.insert target s ∧
      s.lastConnBitmapSig = RouteGroupData.signature g target) (q : PeerId) :
    RouteGroupData.signature g' q = RouteGroupData.signature g q := by
  obtain ⟨s, inserted, kept⟩ := rewritten
  unfold RouteGroupData.signature RouteGroupData.session at *
  rw [inserted, session_insert]
  by_cases same : target = q
  · subst same
    simpa only [↓reduceIte] using kept
  · simp only [same, ↓reduceIte]

theorem selected_connBitmap (g : RouteGroupData) (now : Millis) (target : PeerId)
    (sid : SessionId) (full : Bool) (relevant : List PeerId) :
    ((g.touchSession target sid now).selectInfos now target full).2.connBitmap relevant =
      g.connBitmap relevant := rfl

/-- A build leaves the bitmap out exactly if its signature is the recorded one, and records it
    in any case. -/
theorem build_spec (g : RouteGroupData) (now : Millis) (target : PeerId) (sid : SessionId)
    (initiator full : Bool) :
    (g.buildSyncRouteInfoRequest now target sid initiator full).1.connInfo =
      (if RouteGroupData.signature g target = some (connBitmapSig (RouteGroupData.topology g target))
        then none else some (.connBitmap (RouteGroupData.topology g target))) ∧
    ∀ q, RouteGroupData.signature
        (g.buildSyncRouteInfoRequest now target sid initiator full).2 q =
      if target = q then some (connBitmapSig (RouteGroupData.topology g target))
      else RouteGroupData.signature g q := by
  have touched (q : PeerId) : RouteGroupData.signature (g.touchSession target sid now) q =
      RouteGroupData.signature g q := signature_rewritten target
        ⟨{ g.session target with mySessionId := some sid, lastTouchMs := now }, rfl, rfl⟩ q
  set selected := ((g.touchSession target sid now).selectInfos now target full).2 with selectedDef
  have kept (q : PeerId) :
      RouteGroupData.signature selected q = RouteGroupData.signature g q := by
    rw [← touched q]
    refine signature_rewritten target ⟨_, rfl, ?_⟩ q
    rfl
  obtain ⟨sent, recorded⟩ := buildConnBitmap_spec (relevantPeers_ne_nil g target) selected target
  rw [selectedDef, selected_connBitmap, ← selectedDef] at sent recorded
  simp only [kept] at sent recorded
  constructor
  · simp only [RouteGroupData.buildSyncRouteInfoRequest, ← selectedDef, sent]
    exact apply_ite (Option.map ConnInfo.connBitmap) _ _ _
  · intro q
    have advanced : RouteGroupData.signature
        (g.buildSyncRouteInfoRequest now target sid initiator full).2 q =
          RouteGroupData.signature
            (selected.buildConnBitmap (g.relevantPeers target) target).2 q := by
      refine signature_rewritten target ⟨_, rfl, ?_⟩ q
      rfl
    rw [advanced, recorded]
    rfl

/- What one operation does to the record that the group keeps for a target. -/
def RouteOp.effect (x : Externals) (g : RouteGroupData) (target : PeerId) :
    RouteOp → Effect RouteConnBitmap
  | .removePeer p _ => if p = target then .forgets else .idle
  | .onRouteSessionAck p sid _ _ =>
    if p = target ∧ (g.session p).dstSessionId ≠ some sid then .forgets else .idle
  | .build _ p _ _ _ => if p = target then .announces (RouteGroupData.topology g p) else .idle
  | .handleSync p bytes _ =>
    match x.decodeSyncRouteInfoRequest bytes with
    | none => .idle
    | some req =>
      if p = target ∧ (g.session p).dstSessionId ≠ some req.mySessionId then .forgets else .idle
  | _ => .idle

theorem resetIfNew_signature (s : SessionState) (sid : SessionId) :
    (s.resetIfNew sid).lastConnBitmapSig =
      if s.dstSessionId ≠ some sid then none else s.lastConnBitmapSig := by
  unfold SessionState.resetIfNew
  split
  · rfl
  · rfl

theorem learned_signature {g g' : RouteGroupData} {p : PeerId} {sid : SessionId}
    {learned : SessionState} (stored : g'.sessions = g.sessions.insert p learned)
    (reset : learned.lastConnBitmapSig = if (g.session p).dstSessionId ≠ some sid then none
      else (g.session p).lastConnBitmapSig) (target : PeerId) :
    RouteGroupData.signature g' target =
      (if p = target ∧ (g.session p).dstSessionId ≠ some sid then Effect.forgets
        else .idle : Effect RouteConnBitmap).mark connBitmapSig
        (RouteGroupData.signature g target) := by
  unfold RouteGroupData.session at *
  simp only [RouteGroupData.signature, RouteGroupData.session, stored, session_insert]
  by_cases same : p = target
  · subst same
    simp only [↓reduceIte, true_and, reset]
    split
    · rfl
    · rfl
  · simp only [same, ↓reduceIte, false_and]
    rfl

theorem edit_signature (x : Externals) (g : RouteGroupData) (op : RouteOp) (target : PeerId) :
    RouteGroupData.signature (op.edit x g).2 target =
      (RouteOp.effect x g target op).mark connBitmapSig (RouteGroupData.signature g target) := by
  cases op with
  | addPeer p => rfl
  | removePeer p now =>
    simp only [RouteOp.edit, RouteOp.effect, RouteGroupData.signature, RouteGroupData.session,
      Std.ExtTreeMap.getD_erase, Std.LawfulEqCmp.compare_eq_iff_eq]
    split
    · rfl
    · rfl
  | updatePeerInfo p bytes =>
    obtain ⟨infos, kept⟩ := editPeerInfo_frame g x p bytes
    rw [kept]
    rfl
  | onRouteSessionAck p sid initiator now =>
    have acked : (g.onRouteSessionAck p sid initiator now).sessions = g.sessions.insert p
        { (g.session p).resetIfNew sid with
          dstSessionId := some sid, weAreInitiator := initiator, lastTouchMs := now } := rfl
    exact learned_signature acked (resetIfNew_signature (g.session p) sid) target
  | bumpMyInfoVersion => rfl
  | setMyInfoField field value =>
    obtain ⟨myInfo, myInfoVersion, kept⟩ := setMyInfoField_frame g field value
    simp only [RouteOp.edit, kept]
    rfl
  | updatePeerConnections p bytes =>
    obtain ⟨connections, kept⟩ := editPeerConnections_frame g x p bytes
    rw [kept]
    rfl
  | build now p sid initiator full =>
    simp only [RouteOp.edit, RouteOp.effect, (build_spec g now p sid initiator full).2]
    by_cases same : p = target
    · simp only [same, ↓reduceIte]
      rfl
    · simp only [same, ↓reduceIte]
      rfl
  | handleSync p bytes now =>
    simp only [RouteOp.edit, RouteOp.effect]
    cases decoded : x.decodeSyncRouteInfoRequest bytes with
    | none => rfl
    | some req =>
      have touched : ∃ learned, (g.touchFrom p req now).sessions = g.sessions.insert p learned ∧
          learned.lastConnBitmapSig = if (g.session p).dstSessionId ≠ some req.mySessionId
            then none else (g.session p).lastConnBitmapSig :=
        ⟨_, rfl, resetIfNew_signature { g.session p with lastTouchMs := now } req.mySessionId⟩
      obtain ⟨learned, stored, reset⟩ := touched
      have cleared := learned_signature stored reset target
      rw [← cleared]
      simp only
      split
      · rfl
      · rfl
  | cleanup threshold now => rfl

def signatureReading (target : PeerId) : Reading (Option String) where
  of := (RouteGroupData.signature · target)
  fresh := none
  new seed := by simp [newGroup, RouteGroupData.signature, RouteGroupData.session]
  bump _ := rfl

def RouteState.signature (st : RouteState) (key : GroupKey) (target : PeerId) : Option String :=
  (st.groups[key]?).bind (RouteGroupData.signature · target)

def RouteState.effect (x : Externals) (key : GroupKey) (target : PeerId) (st : RouteState)
    (c : RouteCall) : Effect RouteConnBitmap :=
  if c.groupKey = key then RouteOp.effect x (st.ensureGroup c.seed key) target c.op else .idle

theorem signatureReading_read (st : RouteState) (key : GroupKey) (target : PeerId) :
    (signatureReading target).read st key = RouteState.signature st key target :=
  Reading.read_eq_bind rfl st key

theorem ensureGroup_signature (st : RouteState) (seed : GroupSeed) (key : GroupKey)
    (target : PeerId) :
    RouteGroupData.signature (st.ensureGroup seed key) target =
      RouteState.signature st key target :=
  ((signatureReading target).ensureGroup st seed key).trans (signatureReading_read st key target)

/-- The recorded signatures of the route state follow the effects of its calls. -/
theorem call_signature (x : Externals) (key : GroupKey) (target : PeerId) (st : RouteState)
    (c : RouteCall) :
    RouteState.signature (RouteState.call x st c) key target =
      (RouteState.effect x key target st c).mark connBitmapSig
        (RouteState.signature st key target) := by
  have called := (signatureReading target).call x st c key
  rw [signatureReading_read, signatureReading_read] at called
  rw [called]
  unfold RouteState.effect
  split
  · have edited := edit_signature x (st.ensureGroup c.seed key) c.op target
    rw [ensureGroup_signature] at edited
    exact edited
  · rfl

def RouteState.topologyOf (st : RouteState) (seed : GroupSeed) (key : GroupKey) (target : PeerId) :
    RouteConnBitmap :=
  RouteGroupData.topology (st.ensureGroup seed key) target

def BuildsFor (key : GroupKey) (target : PeerId) (c : RouteCall) : Prop :=
  c.groupKey = key ∧ ∃ now sid initiator full, c.op = .build now target sid initiator full

theorem buildsFor_of_announces {x : Externals} {st : RouteState} {c : RouteCall} {key : GroupKey}
    {topology : RouteConnBitmap}
    (announced : RouteState.effect x key target st c = .announces topology) :
    BuildsFor key target c ∧ RouteState.topologyOf st c.seed key target = topology := by
  obtain ⟨group, seed, op⟩ := c
  unfold RouteState.effect at announced
  split at announced
  · rename_i named
    cases op with
    | build now p sid initiator full =>
      simp only [RouteOp.effect] at announced
      split at announced
      · rename_i same
        subst same
        cases announced
        exact ⟨⟨named, now, sid, initiator, full, rfl⟩, rfl⟩
      · cases announced
    | handleSync p bytes now =>
      simp only [RouteOp.effect] at announced
      split at announced
      · cases announced
      · split at announced
        · cases announced
        · cases announced
    | removePeer p now =>
      simp only [RouteOp.effect] at announced
      split at announced
      · cases announced
      · cases announced
    | onRouteSessionAck p sid initiator now =>
      simp only [RouteOp.effect] at announced
      split at announced
      · cases announced
      · cases announced
    | _ => cases announced
  · cases announced

end RelayConnBitmap
