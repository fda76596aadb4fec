import WsRelay.ConnMatrix
import WsRelay.WireFormats

/- The two encodings of a connection report: a bit matrix and a list of neighbour lists. Both
   decoders read the row of the sender, so one relation has one effect. -/
namespace RelayConnEncodings
open RelayProtocol RelayRouteState RelayRouteOps RelayConnBitmap RelayConnMatrix RelayWireFormats
open PackedBits

section Encodings
variable (ids : List PeerId) (adjacent : PeerId → PeerId → Prop)

/- Row after row, least significant bit first. The versions next to the ids are free. -/
structure EncodedAsBitmap (bitmap : RouteConnBitmap) : Prop where
  peers : bitmap.peerIds.map (·.peerId) = ids
  bits : ∀ {i j p q}, ids[i]? = some p → ids[j]? = some q →
    (getBit bitmap.bitmap (i * ids.length + j) = true ↔ adjacent p q)

structure EncodedAsPeerList (list : RouteConnPeerList) : Prop where
  entries : ∀ p ∈ ids, ∃ info ∈ list.peerConnInfos, info.peerId.map (·.peerId) = some p
  neighbours : ∀ info ∈ list.peerConnInfos, ∃ p ∈ ids, info.peerId.map (·.peerId) = some p ∧
    ∀ q, q ∈ info.connectedPeerIds ↔ q ∈ ids ∧ adjacent p q

end Encodings

section Encoders
variable (ids : List PeerId) (version : PeerId → Version) (adjacent : PeerId → PeerId → Bool)

def relationCells : List Cell :=
  (allCells ids.length).filter fun cell =>
    ((ids[cell.1]?).bind fun p => (ids[cell.2]?).map fun q => adjacent p q).getD false

def relationBitmap : RouteConnBitmap where
  peerIds := ids.map fun p => ⟨p, version p⟩
  bitmap := ((relationCells ids adjacent).map fun (row, col) => row * ids.length + col).foldl setBit
    (zeros ((ids.length * ids.length + 7) / 8))

def relationPeerList : RouteConnPeerList where
  peerConnInfos := ids.map fun p => ⟨some ⟨p, version p⟩, ids.filter (adjacent p)⟩

theorem mem_relationCells {i j : Nat} {p q : PeerId} (atI : ids[i]? = some p)
    (atJ : ids[j]? = some q) : (i, j) ∈ relationCells ids adjacent ↔ adjacent p q = true := by
  have iSmall := (List.getElem?_eq_some_iff.mp atI).1
  have jSmall := (List.getElem?_eq_some_iff.mp atJ).1
  have cell : (i, j) ∈ allCells ids.length := by
    simp [allCells, iSmall, jSmall]
  simp only [relationCells, List.mem_filter, cell, atI, atJ, true_and, Option.bind_some,
    Option.map_some, Option.getD_some]

theorem relationCells_inside : ∀ cell ∈ relationCells ids adjacent,
    cell.1 < ids.length ∧ cell.2 < ids.length := by
  intro cell member
  have inside := (List.mem_filter.mp member).1
  simp only [allCells, List.mem_flatMap, List.mem_map, List.mem_range] at inside
  obtain ⟨i, iSmall, j, jSmall, rfl⟩ := inside
  exact ⟨iSmall, jSmall⟩

theorem relationBitmap_encodes :
    EncodedAsBitmap ids (fun p q => adjacent p q = true) (relationBitmap ids version adjacent) where
  peers := by simp [relationBitmap, Function.comp_def]
  bits := by
    intro i j p q atI atJ
    have iSmall := (List.getElem?_eq_some_iff.mp atI).1
    have jSmall := (List.getElem?_eq_some_iff.mp atJ).1
    have marked := getBit_cells (relationCells_inside ids adjacent) iSmall jSmall
    exact marked.trans (mem_relationCells ids adjacent atI atJ)

theorem relationPeerList_encodes :
    EncodedAsPeerList ids (fun p q => adjacent p q = true)
      (relationPeerList ids version adjacent) where
  entries := by
    intro p listed
    exact ⟨_, List.mem_map.mpr ⟨p, listed, rfl⟩, rfl⟩
  neighbours := by
    intro info entry
    obtain ⟨p, listed, rfl⟩ := List.mem_map.mp entry
    refine ⟨p, listed, rfl, ?_⟩
    intro q
    exact List.mem_filter

end Encoders

theorem connBitmap_encodes (g : RouteGroupData) {relevant : List PeerId}
    (distinct : relevant.Nodup) (served : myPeerId ∈ relevant) :
    EncodedAsBitmap relevant (Shown g.peerConnections) (g.connBitmap relevant) where
  peers := by simp [RouteGroupData.connBitmap, Function.comp_def]
  bits := connBitmap_bit distinct served

def Lists (connInfo : ConnInfo) (p q : PeerId) : Prop :=
  match connInfo with
  | .connBitmap bitmap => ∃ i, bitmap.peerIds.findIdx? (·.peerId == p) = some i ∧
      q ∈ getConnectedPeersFromBitmap bitmap i
  | .connPeerList list => ∃ info,
      list.peerConnInfos.find? (fun info => info.peerId.map (·.peerId) == some p) = some info ∧
      q ∈ info.connectedPeerIds

theorem mem_p2pConnections (g : RouteGroupData) (p q : PeerId) (connInfo : ConnInfo) :
    q ∈ g.p2pConnections p connInfo ↔ Lists connInfo p q ∧ g.keepsReported p q = true := by
  cases connInfo with
  | connBitmap bitmap =>
    simp only [RouteGroupData.p2pConnections, Lists]
    cases bitmap.peerIds.findIdx? (·.peerId == p) with
    | none => simp
    | some i => simp [Std.ExtTreeSet.mem_filter]
  | connPeerList list =>
    simp only [RouteGroupData.p2pConnections, Lists]
    cases list.peerConnInfos.find? (fun info => info.peerId.map (·.peerId) == some p) with
    | none => simp
    | some info => simp

section Decoders
variable {ids : List PeerId} {adjacent : PeerId → PeerId → Prop}

theorem lists_bitmap {bitmap : RouteConnBitmap} (encoded : EncodedAsBitmap ids adjacent bitmap)
    (few : ids.length < 2 ^ 16) (p q : PeerId) :
    Lists (.connBitmap bitmap) p q ↔ p ∈ ids ∧ q ∈ ids ∧ adjacent p q := by
  have size : bitmap.peerIds.length = ids.length := by
    rw [← encoded.peers, List.length_map]
  have small : ids.length * ids.length < usizeSize := by
    calc ids.length * ids.length ≤ (2 ^ 16 - 1) * (2 ^ 16 - 1) :=
          Nat.mul_le_mul (by omega) (by omega)
      _ < usizeSize := by decide
  simp only [Lists]
  cases position : bitmap.peerIds.findIdx? (·.peerId == p) with
  | none =>
    have absent : p ∉ ids := by
      rw [← encoded.peers, List.mem_map]
      intro listed
      obtain ⟨entry, entered, named⟩ := listed
      have unnamed := List.findIdx?_eq_none_iff.mp position entry entered
      simp [named] at unnamed
    simp [absent]
  | some i =>
    obtain ⟨iSmall, named, -⟩ := List.findIdx?_eq_some_iff_getElem.mp position
    have atI : ids[i]? = some p := by
      rw [← encoded.peers, List.getElem?_map, List.getElem?_eq_getElem iSmall]
      simpa using named
    have reporter : p ∈ ids := List.mem_of_getElem? atI
    simp only [Option.some.injEq, exists_eq_left', reporter, true_and]
    rw [mem_getConnectedPeers iSmall (by rwa [size]), encoded.peers, size]
    constructor
    · intro found
      obtain ⟨j, atJ, bit⟩ := found
      exact ⟨List.mem_of_getElem? atJ, (encoded.bits atI atJ).mp bit⟩
    · intro linked
      obtain ⟨j, atJ⟩ := List.mem_iff_getElem?.mp linked.1
      exact ⟨j, atJ, (encoded.bits atI atJ).mpr linked.2⟩

theorem lists_peerList {list : RouteConnPeerList} (encoded : EncodedAsPeerList ids adjacent list)
    (p q : PeerId) : Lists (.connPeerList list) p q ↔ p ∈ ids ∧ q ∈ ids ∧ adjacent p q := by
  simp only [Lists]
  cases position : list.peerConnInfos.find? fun info => info.peerId.map (·.peerId) == some p with
  | none =>
    have absent : p ∉ ids := by
      intro listed
      obtain ⟨info, entry, named⟩ := encoded.entries p listed
      have unnamed := List.find?_eq_none.mp position info entry
      simp [named] at unnamed
    simp [absent]
  | some info =>
    have entry := List.mem_of_find?_eq_some position
    have named : info.peerId.map (·.peerId) = some p := by
      simpa using List.find?_some position
    obtain ⟨owner, listed, owned, neighbours⟩ := encoded.neighbours info entry
    rw [named] at owned
    obtain rfl := Option.some.inj owned
    simp only [Option.some.injEq, exists_eq_left', neighbours, listed, true_and]

theorem p2pConnections_agree {bitmap : RouteConnBitmap} {list : RouteConnPeerList}
    (asBitmap : EncodedAsBitmap ids adjacent bitmap) (asList : EncodedAsPeerList ids adjacent list)
    (few : ids.length < 2 ^ 16) (g : RouteGroupData) (p : PeerId) :
    g.p2pConnections p (.connBitmap bitmap) = g.p2pConnections p (.connPeerList list) := by
  apply Std.ExtTreeSet.ext_mem
  intro q
  rw [mem_p2pConnections, mem_p2pConnections, lists_bitmap asBitmap few, lists_peerList asList]

end Decoders

/-- A report has the same answer and the same effect in both encodings, from every state and
    every sender, listed or not. -/
theorem encodings_equivalent (x : Externals) (st : RouteState) (seed : GroupSeed)
    (groupKey : GroupKey) (fromPeerId : PeerId) {ids : List PeerId}
    {adjacent : PeerId → PeerId → Prop} {bitmap : RouteConnBitmap} {list : RouteConnPeerList}
    (asBitmap : EncodedAsBitmap ids adjacent bitmap) (asList : EncodedAsPeerList ids adjacent list)
    (few : ids.length < 2 ^ 16) {bitmapBytes listBytes : Bytes}
    {bitmapRequest listRequest : SyncRouteInfoRequest}
    (bitmapDecoded : x.decodeSyncRouteInfoRequest bitmapBytes = some bitmapRequest)
    (listDecoded : x.decodeSyncRouteInfoRequest listBytes = some listRequest)
    (carriesBitmap : bitmapRequest.connInfo = some (.connBitmap bitmap))
    (carriesList : listRequest.connInfo = some (.connPeerList list)) :
    st.updatePeerConnectionsFromConnInfo x seed groupKey fromPeerId bitmapBytes =
      st.updatePeerConnectionsFromConnInfo x seed groupKey fromPeerId listBytes := by
  simp only [RouteState.updatePeerConnectionsFromConnInfo, bitmapDecoded, listDecoded,
    RouteGroupData.updatePeerConnectionsFromConnInfo, carriesBitmap, carriesList,
    p2pConnections_agree asBitmap asList few]

/- Three members; peer 5 reports a link to peer 6 and none to peer 7. -/
def threeMembers : RouteState :=
  RouteState.callAll wire RouteState.new
    ([.addPeer 5, .addPeer 6, .addPeer 7].map fun op =>
      ⟨"net:aa", (quietEnv 1000 500).seed "net:aa", op⟩)

def linkReport (connInfo : ConnInfo) : SyncRouteInfoRequest where
  myPeerId := 5
  mySessionId := 9
  isInitiator := true
  peerInfos := none
  connInfo := some connInfo
  foreignNetworkInfos := none

def fiveToSix (p q : PeerId) : Bool := p == 5 && q == 6

theorem encodings_equivalent_five :
    threeMembers.updatePeerConnectionsFromConnInfo wire ((quietEnv 1500 500).seed "net:aa")
        "net:aa" 5 (wire.encodeSyncRouteInfoRequest
          (linkReport (.connBitmap (relationBitmap [5, 6, 7] (fun _ => 3) fiveToSix)))) =
      threeMembers.updatePeerConnectionsFromConnInfo wire ((quietEnv 1500 500).seed "net:aa")
        "net:aa" 5 (wire.encodeSyncRouteInfoRequest
          (linkReport (.connPeerList (relationPeerList [5, 6, 7] (fun _ => 0) fiveToSix)))) :=
  encodings_equivalent wire threeMembers ((quietEnv 1500 500).seed "net:aa") "net:aa" 5
    (relationBitmap_encodes [5, 6, 7] (fun _ => 3) fiveToSix)
    (relationPeerList_encodes [5, 6, 7] (fun _ => 0) fiveToSix) (by decide)
    (wire_roundTrips.sync _) (wire_roundTrips.sync _) rfl rfl

end RelayConnEncodings
