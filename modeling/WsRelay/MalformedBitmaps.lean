import WsRelay.ConnMatrix

/- The reader of a bitmap row on a bitmap that a client made up. Every access is checked, but the
   index that is checked is computed in 32 bits, so a row behind 2^32 cells is read elsewhere. -/
namespace RelayMalformedBitmaps
open RelayProtocol RelayRouteState RelayConnMatrix PackedBits

/- The same reader, with an access to the bytes that fails behind their end. -/
def readBit (bytes : Bytes) (bitIdx : Nat) : Option Bool :=
  if bitIdx / 8 < bytes.length then (bytes[bitIdx / 8]?).map fun byte => byteBit byte (bitIdx % 8)
  else some false

def readRow (bitmap : RouteConnBitmap) (peerIdx : Nat) : Option PeerSet :=
  let n := bitmap.peerIds.length
  bitmap.peerIds.zipIdx.foldlM (fun connected (pidVer, idx) => do
    let bit ← readBit bitmap.bitmap ((peerIdx * n + idx) % usizeSize)
    pure (if bit then connected.insert pidVer.peerId else connected)) (∅ : PeerSet)

theorem readBit_eq (bytes : Bytes) (bitIdx : Nat) :
    readBit bytes bitIdx = some (getBit bytes bitIdx) := by
  unfold readBit getBit
  by_cases inside : bitIdx / 8 < bytes.length
  · simp [inside, List.getD_eq_getElem?_getD]
  · simp [inside]

theorem readRow_eq (bitmap : RouteConnBitmap) (peerIdx : Nat) :
    readRow bitmap peerIdx = some (getConnectedPeersFromBitmap bitmap peerIdx) := by
  unfold readRow getConnectedPeersFromBitmap
  simp only [readBit_eq]
  generalize (∅ : PeerSet) = connected
  induction bitmap.peerIds.zipIdx generalizing connected with
  | nil => rfl
  | cons item rest ih =>
    rw [List.foldlM_cons, List.foldl_cons]
    exact ih _

/- An entry with the id has its bit set, if entry j has its bit there. -/
def MarkedAt (bitmap : RouteConnBitmap) (bitOf : Nat → Nat) (q : PeerId) : Prop :=
  ∃ j, (bitmap.peerIds.map (·.peerId))[j]? = some q ∧ getBit bitmap.bitmap (bitOf j) = true

def exactBit (bitmap : RouteConnBitmap) (peerIdx j : Nat) : Nat :=
  peerIdx * bitmap.peerIds.length + j

def usizeBit (bitmap : RouteConnBitmap) (peerIdx j : Nat) : Nat :=
  exactBit bitmap peerIdx j % usizeSize

def ReadsExactly (bitmap : RouteConnBitmap) (peerIdx : Nat) : Prop :=
  ∀ q, q ∈ getConnectedPeersFromBitmap bitmap peerIdx ↔ MarkedAt bitmap (exactBit bitmap peerIdx) q

/- The entries behind 2^32 bits: the bit that is looked at instead is clear unless the id is
   marked anyway, and their own bit is clear unless the id is found anyway. -/
def HarmlessWraps (bitmap : RouteConnBitmap) (peerIdx : Nat) : Prop :=
  ∀ j q, (bitmap.peerIds.map (·.peerId))[j]? = some q → usizeSize ≤ exactBit bitmap peerIdx j →
    (getBit bitmap.bitmap (usizeBit bitmap peerIdx j) = true →
      MarkedAt bitmap (exactBit bitmap peerIdx) q) ∧
    (getBit bitmap.bitmap (exactBit bitmap peerIdx j) = true →
      MarkedAt bitmap (usizeBit bitmap peerIdx) q)

theorem usizeBit_small {bitmap : RouteConnBitmap} {peerIdx j : Nat}
    (small : exactBit bitmap peerIdx j < usizeSize) :
    usizeBit bitmap peerIdx j = exactBit bitmap peerIdx j := Nat.mod_eq_of_lt small

theorem readsExactly_iff (bitmap : RouteConnBitmap) (peerIdx : Nat) :
    ReadsExactly bitmap peerIdx ↔ HarmlessWraps bitmap peerIdx := by
  have collected (q : PeerId) : q ∈ getConnectedPeersFromBitmap bitmap peerIdx ↔
      MarkedAt bitmap (usizeBit bitmap peerIdx) q := mem_getConnectedPeers_wrapped bitmap peerIdx q
  unfold ReadsExactly
  simp only [collected]
  constructor
  · intro exact j q atJ _
    exact ⟨fun bit => (exact q).mp ⟨j, atJ, bit⟩, fun bit => (exact q).mpr ⟨j, atJ, bit⟩⟩
  · intro harmless q
    constructor
    · intro found
      obtain ⟨j, atJ, bit⟩ := found
      by_cases small : exactBit bitmap peerIdx j < usizeSize
      · rw [usizeBit_small small] at bit
        exact ⟨j, atJ, bit⟩
      · exact (harmless j q atJ (Nat.le_of_not_lt small)).1 bit
    · intro marked
      obtain ⟨j, atJ, bit⟩ := marked
      by_cases small : exactBit bitmap peerIdx j < usizeSize
      · refine ⟨j, atJ, ?_⟩
        rwa [usizeBit_small small]
      · exact (harmless j q atJ (Nat.le_of_not_lt small)).2 bit

/- Rows that end within 2^32 bits are read exactly whatever the bitmap holds, and no others. -/
theorem readsExactly_all_iff (n peerIdx : Nat) :
    (∀ bitmap : RouteConnBitmap, bitmap.peerIds.length = n → ReadsExactly bitmap peerIdx) ↔
      n = 0 ∨ peerIdx * n + n ≤ usizeSize := by
  constructor
  · intro exact
    by_contra large
    obtain ⟨nonempty, behind⟩ := not_or.mp large
    obtain ⟨m, rfl⟩ := Nat.exists_eq_succ_of_ne_zero nonempty
    -- the last entry alone has the id 1, and its wrapped bit is the only one that is set
    set place := (peerIdx * (m + 1) + m) % usizeSize with placeDef
    have below : place < usizeSize := Nat.mod_lt _ (by decide)
    set bitmap : RouteConnBitmap :=
      { peerIds := List.replicate m ⟨0, 0⟩ ++ [⟨1, 0⟩]
        bitmap := setBit (zeros (place / 8 + 1)) place } with bitmapDef
    have length : bitmap.peerIds.length = m + 1 := by simp [bitmapDef]
    have marks (k : Nat) : getBit bitmap.bitmap k = true ↔ place = k := by
      rw [bitmapDef, getBit_setBit (by simp; omega), getBit_zeros]
      simp
    have last : (bitmap.peerIds.map (·.peerId))[m]? = some 1 := by simp [bitmapDef]
    have found : (1 : PeerId) ∈ getConnectedPeersFromBitmap bitmap peerIdx := by
      rw [mem_getConnectedPeers_wrapped, length]
      exact ⟨m, last, (marks _).mpr placeDef⟩
    obtain ⟨j, atJ, bit⟩ := (exact bitmap length 1).mp found
    rw [marks, exactBit, length] at bit
    have final : j = m := by
      have inside := (List.getElem?_eq_some_iff.mp atJ).1
      rw [List.length_map, length] at inside
      by_contra other
      have early : j < m := by omega
      simp [bitmapDef, List.getElem?_append_left, early] at atJ
    subst final
    rw [Nat.succ_eq_add_one] at behind
    omega
  · intro small bitmap length
    rw [readsExactly_iff]
    intro j q atJ behind
    have inside := (List.getElem?_eq_some_iff.mp atJ).1
    rw [List.length_map, length] at inside
    rw [exactBit, length] at behind
    omega

/-- No access is out of range, and a row is read exactly if the wraps in it are harmless. Whatever
    the ids and the bits of so many entries are, that is the rows that end within 2^32 bits. -/
theorem row_exact_iff (bitmap : RouteConnBitmap) (peerIdx : Nat) :
    readRow bitmap peerIdx = some (getConnectedPeersFromBitmap bitmap peerIdx) ∧
      (ReadsExactly bitmap peerIdx ↔ HarmlessWraps bitmap peerIdx) ∧
      ((∀ other : RouteConnBitmap, other.peerIds.length = bitmap.peerIds.length →
          ReadsExactly other peerIdx) ↔
        bitmap.peerIds.length = 0 ∨
          peerIdx * bitmap.peerIds.length + bitmap.peerIds.length ≤ usizeSize) :=
  ⟨readRow_eq bitmap peerIdx, readsExactly_iff bitmap peerIdx,
    readsExactly_all_iff bitmap.peerIds.length peerIdx⟩

/- The id 6 as often as makes a row of 65537 entries with the sender 5 as the last. The bitmap
   ends long before the sender's row; its last bit is bit 65536. -/
def overlongBitmap : RouteConnBitmap where
  peerIds := List.replicate 65536 ⟨6, 0⟩ ++ [⟨5, 0⟩]
  bitmap := List.replicate 8192 0 ++ [1]

theorem padded_getD {Item : Type} (first last : Item) (count : Nat) :
    (List.replicate count first ++ [last]).getD count first = last := by
  simp

theorem padded_length {Item : Type} (first last : Item) (count : Nat) :
    (List.replicate count first ++ [last]).length = count + 1 := by
  simp

theorem overlong_row_misread : 65536 < overlongBitmap.peerIds.length ∧
    ¬ ReadsExactly overlongBitmap 65536 := by
  have length : overlongBitmap.peerIds.length = 65537 := padded_length _ _ 65536
  have bytes : overlongBitmap.bitmap.length = 8193 := padded_length 0 1 8192
  have last : overlongBitmap.bitmap.getD 8192 0 = 1 := padded_getD 0 1 8192
  refine ⟨by rw [length]; omega, ?_⟩
  intro exact
  have found : (6 : PeerId) ∈ getConnectedPeersFromBitmap overlongBitmap 65536 := by
    rw [mem_getConnectedPeers_wrapped, length]
    refine ⟨0, rfl, ?_⟩
    have wrapped : (65536 * 65537 + 0) % usizeSize = 8192 * 8 := by decide
    rw [wrapped, getBit, Nat.mul_div_cancel _ (by omega), bytes, last]
    decide
  obtain ⟨j, -, bit⟩ := (exact 6).mp found
  simp only [getBit, exactBit, length, bytes, Bool.and_eq_true, decide_eq_true_eq] at bit
  omega

end RelayMalformedBitmaps
