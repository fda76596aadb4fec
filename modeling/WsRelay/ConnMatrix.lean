import WsRelay.ConnBitmap

/- The conn bitmap as a matrix over the relevant peers: what its bytes hold, bit for bit, and
   what the reader of a row gets back from them. -/
namespace RelayConnMatrix
open RelayProtocol RelayRouteState RelayConnBitmap PackedBits FoldMaps

/- What a build shows between two relevant peers. -/
def Shown (connections : PeerMap PeerSet) (p q : PeerId) : Prop :=
  p = q ∨ p = myPeerId ∨ q = myPeerId ∨ Linked connections p q

theorem Shown.symm {connections : PeerMap PeerSet} {p q : PeerId} (edge : Shown connections p q) :
    Shown connections q p := by
  rcases edge with same | row | column | reported | reported
  · exact Or.inl same.symm
  · exact Or.inr (Or.inr (Or.inl row))
  · exact Or.inr (Or.inl column)
  · exact Or.inr (Or.inr (Or.inr (Or.inr reported)))
  · exact Or.inr (Or.inr (Or.inr (Or.inl reported)))

/-- A bitmap that holds the matrix of the recorded edges over these peers, and nothing else. -/
structure ExactMatrix (connections : PeerMap PeerSet) (relevant : List PeerId)
    (bitmap : RouteConnBitmap) : Prop where
  peers : bitmap.peerIds.map (·.peerId) = relevant
  size : bitmap.bitmap.length = relevant.length * relevant.length ⌈/⌉ 8
  padding : ∀ k, relevant.length * relevant.length ≤ k → getBit bitmap.bitmap k = false
  bits : ∀ {i j p q}, relevant[i]? = some p → relevant[j]? = some q →
    (getBit bitmap.bitmap (i * relevant.length + j) = true ↔
      i = j ∨ p = myPeerId ∨ q = myPeerId ∨ Linked connections p q)
  symmetric : ∀ {i j}, i < relevant.length → j < relevant.length →
    getBit bitmap.bitmap (i * relevant.length + j) =
      getBit bitmap.bitmap (j * relevant.length + i)
  reflexive : ∀ {i}, i < relevant.length →
    getBit bitmap.bitmap (i * relevant.length + i) = true
  rows : ∀ {i p}, relevant[i]? = some p → ∀ q,
    q ∈ getConnectedPeersFromBitmap bitmap i ↔ q ∈ relevant ∧
      (q = p ∨ q = myPeerId ∨ p = myPeerId ∨ Linked connections p q)

section Build
variable {g : RouteGroupData} {relevant : List PeerId}

theorem connCells_inside (distinct : relevant.Nodup) (served : myPeerId ∈ relevant) :
    ∀ cell ∈ g.connCells relevant, cell.1 < relevant.length ∧ cell.2 < relevant.length := by
  intro cell member
  obtain ⟨p, q, atRow, atColumn, -⟩ := (mem_connCells distinct served).mp member
  exact ⟨(List.getElem?_eq_some_iff.mp atRow).1, (List.getElem?_eq_some_iff.mp atColumn).1⟩

theorem connBitmap_bit (distinct : relevant.Nodup) (served : myPeerId ∈ relevant) {i j : Nat}
    {p q : PeerId} (atI : relevant[i]? = some p) (atJ : relevant[j]? = some q) :
    getBit (g.connBitmap relevant).bitmap (i * relevant.length + j) = true ↔
      Shown g.peerConnections p q := by
  have iSmall := (List.getElem?_eq_some_iff.mp atI).1
  have jSmall := (List.getElem?_eq_some_iff.mp atJ).1
  have marked := getBit_cells (connCells_inside (g := g) distinct served) iSmall jSmall
  rw [RouteGroupData.connBitmap, marked, mem_connCells distinct served]
  constructor
  · intro cell
    obtain ⟨p', q', atI', atJ', edge⟩ := cell
    rw [atI] at atI'
    rw [atJ] at atJ'
    cases atI'
    cases atJ'
    exact edge
  · intro edge
    exact ⟨p, q, atI, atJ, edge⟩

end Build

theorem mem_getConnectedPeers_wrapped (bitmap : RouteConnBitmap) (i : Nat) (q : PeerId) :
    q ∈ getConnectedPeersFromBitmap bitmap i ↔ ∃ j : Nat,
      (bitmap.peerIds.map (·.peerId))[j]? = some q ∧
        getBit bitmap.bitmap ((i * bitmap.peerIds.length + j) % usizeSize) = true := by
  have collected := mem_foldl_insert_if
    (fun item : PeerIdVersion × Nat =>
      getBit bitmap.bitmap ((i * bitmap.peerIds.length + item.2) % usizeSize))
    (fun item => item.1.peerId) bitmap.peerIds.zipIdx ∅ q
  refine collected.trans ?_
  simp only [Std.ExtTreeSet.not_mem_empty, or_false, Prod.exists, List.getElem?_map,
    Option.map_eq_some_iff]
  constructor
  · intro found
    obtain ⟨entry, j, listed, bit, named⟩ := found
    exact ⟨j, ⟨entry, List.mk_mem_zipIdx_iff_getElem?.mp listed, named⟩, bit⟩
  · intro found
    obtain ⟨j, ⟨entry, atJ, named⟩, bit⟩ := found
    exact ⟨entry, j, List.mk_mem_zipIdx_iff_getElem?.mpr atJ, bit, named⟩

/-- The reader of a row of a small matrix collects the ids at the set bits of that row. -/
theorem mem_getConnectedPeers {bitmap : RouteConnBitmap} {i : Nat} (inside : i < bitmap.peerIds.length)
    (small : bitmap.peerIds.length * bitmap.peerIds.length < usizeSize) (q : PeerId) :
    q ∈ getConnectedPeersFromBitmap bitmap i ↔ ∃ j : Nat,
      (bitmap.peerIds.map (·.peerId))[j]? = some q ∧
        getBit bitmap.bitmap (i * bitmap.peerIds.length + j) = true := by
  have unwrapped {j : Nat} (atJ : (bitmap.peerIds.map (·.peerId))[j]? = some q) :
      (i * bitmap.peerIds.length + j) % usizeSize = i * bitmap.peerIds.length + j := by
    have below := (List.getElem?_eq_some_iff.mp atJ).1
    rw [List.length_map] at below
    exact Nat.mod_eq_of_lt (Nat.lt_trans (cell_lt inside below) small)
  rw [mem_getConnectedPeers_wrapped]
  refine exists_congr fun j => and_congr_right fun atJ => ?_
  rw [unwrapped atJ]

theorem connBitmap_exact {relevant : List PeerId} (g : RouteGroupData) (distinct : relevant.Nodup)
    (served : myPeerId ∈ relevant) (small : relevant.length * relevant.length < usizeSize) :
    ExactMatrix g.peerConnections relevant (g.connBitmap relevant) := by
  have listed : (g.connBitmap relevant).peerIds.map (·.peerId) = relevant := by
    simp [RouteGroupData.connBitmap, Function.comp_def]
  have length : (g.connBitmap relevant).peerIds.length = relevant.length := by
    simp [RouteGroupData.connBitmap]
  constructor
  · exact listed
  · simp only [RouteGroupData.connBitmap, foldl_setBit_length, zeros_length,
      Nat.ceilDiv_eq_add_pred_div]
    rfl
  · intro k behind
    exact getBit_cells_padding (connCells_inside distinct served) behind
  · intro i j p q atI atJ
    rw [connBitmap_bit distinct served atI atJ, Shown]
    have position : p = q ↔ i = j := by
      constructor
      · intro same
        subst same
        exact Option.some.inj (((indexByPeer_eq_some distinct).mpr atI).symm.trans
          ((indexByPeer_eq_some distinct).mpr atJ))
      · intro same
        subst same
        exact Option.some.inj (atI.symm.trans atJ)
    rw [position]
  · intro i j iSmall jSmall
    have atI := List.getElem?_eq_getElem iSmall
    have atJ := List.getElem?_eq_getElem jSmall
    rw [Bool.eq_iff_iff, connBitmap_bit distinct served atI atJ,
      connBitmap_bit distinct served atJ atI]
    exact ⟨Shown.symm, Shown.symm⟩
  · intro i iSmall
    have atI := List.getElem?_eq_getElem iSmall
    exact (connBitmap_bit distinct served atI atI).mpr (Or.inl rfl)
  · intro i p atI q
    have iSmall := (List.getElem?_eq_some_iff.mp atI).1
    rw [mem_getConnectedPeers (by rwa [length]) (by rwa [length]), listed, length]
    constructor
    · intro found
      obtain ⟨j, atJ, bit⟩ := found
      have edge := (connBitmap_bit distinct served atI atJ).mp bit
      rw [Shown] at edge
      exact ⟨List.mem_of_getElem? atJ, by tauto⟩
    · intro row
      obtain ⟨member, edge⟩ := row
      obtain ⟨j, atJ⟩ := List.mem_iff_getElem?.mp member
      refine ⟨j, atJ, (connBitmap_bit distinct served atI atJ).mpr ?_⟩
      rw [Shown]
      tauto

/-- Every bitmap that a build returns is the exact matrix of its relevant peers, and reading a
    row of it gives back the peer, the relay and the recorded neighbours. -/
theorem buildConnBitmap_exact (g : RouteGroupData) (relevant : List PeerId) (target : PeerId)
    (bitmap : RouteConnBitmap) (distinct : relevant.Nodup) (served : myPeerId ∈ relevant)
    (small : relevant.length * relevant.length < 2 ^ 32)
    (built : (g.buildConnBitmap relevant target).1 = some bitmap) :
    ExactMatrix g.peerConnections relevant bitmap := by
  have lists : relevant ≠ [] := List.ne_nil_of_mem served
  rw [(buildConnBitmap_spec lists g target).1] at built
  obtain rfl : g.connBitmap relevant = bitmap :=
    Option.some.inj (Option.ite_none_left_eq_some.mp built).2
  exact connBitmap_exact g distinct served small

/- Four peers around the relay, of which 5 reported 6 and 9 reported a peer that left. -/
def flappedGroup : RouteGroupData :=
  { newGroup ⟨⟨0, 0, 0, 0⟩, 0⟩ with
    peers := {5, 6, 9}
    peerConnections := (∅ : PeerMap PeerSet) |>.insert 5 {6} |>.insert 9 {77} }

theorem flappedGroup_bitmap :
    ExactMatrix flappedGroup.peerConnections [5, 6, 9, myPeerId]
      { peerIds := [⟨5, 1⟩, ⟨6, 1⟩, ⟨9, 1⟩, ⟨myPeerId, 1⟩], bitmap := [0xbb, 0xfc] } :=
  buildConnBitmap_exact flappedGroup [5, 6, 9, myPeerId] 5 _ (by decide) (by decide) (by decide)
    (by decide)

/-- The bitmap that a request carries is the matrix of the members, the relay and the target. -/
theorem request_exact (g : RouteGroupData) {now : Millis} {target : PeerId} {sid : SessionId}
    {initiator full : Bool} {bitmap : RouteConnBitmap}
    (small : (g.relevantPeers target).length * (g.relevantPeers target).length < 2 ^ 32)
    (carried : (g.buildSyncRouteInfoRequest now target sid initiator full).1.connInfo =
      some (.connBitmap bitmap)) :
    ExactMatrix g.peerConnections (g.relevantPeers target) bitmap := by
  rw [(build_spec g now target sid initiator full).1] at carried
  have sent := (Option.ite_none_left_eq_some.mp carried).2
  simp only [Option.some.injEq, ConnInfo.connBitmap.injEq] at sent
  obtain rfl := sent
  exact connBitmap_exact g (relevantPeers_nodup g target)
    (mem_relevantPeers.mpr (Or.inl rfl)) small

end RelayConnMatrix
