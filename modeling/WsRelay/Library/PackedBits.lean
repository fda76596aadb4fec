import Mathlib

/- A bit set packed into a byte list, least significant bit first. Positions are
   unbounded Nat; a position past the last byte reads as false. -/
namespace PackedBits

def byteBit (b : UInt8) (k : Nat) : Bool := (b >>> UInt8.ofNat k) &&& 1 == 1

def getBit (bytes : List UInt8) (i : Nat) : Bool :=
  decide (i / 8 < bytes.length) && byteBit (bytes.getD (i / 8) 0) (i % 8)

def setBit (bytes : List UInt8) (i : Nat) : List UInt8 :=
  bytes.modify (i / 8) (· ||| (1 <<< UInt8.ofNat (i % 8)))

def zeros (size : Nat) : List UInt8 := List.replicate size 0

theorem byteBit_eq_testBit (b : UInt8) {k : Nat} (small : k < 8) :
    byteBit b k = b.toNat.testBit k := by
  have shift : (UInt8.ofNat k).toNat = k := by simp; omega
  have value : ((b >>> UInt8.ofNat k) &&& 1).toNat = b.toNat >>> k % 2 := by
    rw [UInt8.toNat_and, UInt8.toNat_shiftRight, shift, Nat.mod_eq_of_lt small]
    simp
  rw [byteBit, Nat.testBit_eq_decide_div_mod_eq, Nat.shiftRight_eq_div_pow] at *
  rw [Bool.eq_iff_iff, beq_iff_eq, decide_eq_true_eq, ← UInt8.toNat_inj, value]
  rfl

theorem byteBit_or_one_shl (b : UInt8) {i j : Nat} (hi : i < 8) (hj : j < 8) :
    byteBit (b ||| (1 <<< UInt8.ofNat i)) j = (decide (i = j) || byteBit b j) := by
  have shift : (UInt8.ofNat i).toNat = i := by simp; omega
  have power : 2 ^ i < 256 := by
    calc 2 ^ i ≤ 2 ^ 7 := Nat.pow_le_pow_right (by omega) (by omega)
      _ < 256 := by omega
  have mask : ((1 : UInt8) <<< UInt8.ofNat i).toNat = 2 ^ i := by
    rw [UInt8.toNat_shiftLeft, shift, Nat.mod_eq_of_lt hi]
    simpa [Nat.shiftLeft_eq] using power
  rw [byteBit_eq_testBit _ hj, byteBit_eq_testBit _ hj, UInt8.toNat_or, Nat.testBit_or, mask,
    Nat.testBit_two_pow, Bool.or_comm]

@[simp] theorem setBit_length (bytes : List UInt8) (i : Nat) :
    (setBit bytes i).length = bytes.length := by
  simp [setBit]

@[simp] theorem zeros_length (size : Nat) : (zeros size).length = size := by
  simp [zeros]

theorem getBit_zeros (size i : Nat) : getBit (zeros size) i = false := by
  by_cases inside : i / 8 < size
  · simp [getBit, zeros, inside, List.getD_eq_getElem?_getD, byteBit]
  · simp [getBit, inside]

theorem getBit_setBit {bytes : List UInt8} {i : Nat} (inside : i < 8 * bytes.length) (j : Nat) :
    getBit (setBit bytes i) j = (decide (i = j) || getBit bytes j) := by
  have room : i / 8 < bytes.length := by omega
  by_cases sameByte : i / 8 = j / 8
  · have roomJ : j / 8 < bytes.length := by omega
    have samePosition : decide (i % 8 = j % 8) = decide (i = j) := by
      rw [Bool.eq_iff_iff, decide_eq_true_eq, decide_eq_true_eq]
      omega
    have byte : (setBit bytes i).getD (j / 8) 0 =
        bytes.getD (j / 8) 0 ||| (1 <<< UInt8.ofNat (i % 8)) := by
      simp [setBit, sameByte, roomJ, List.getD_eq_getElem?_getD]
    simp only [getBit, setBit_length, roomJ, byte]
    rw [byteBit_or_one_shl _ (by omega) (by omega), samePosition]
    simp
  · have byte : (setBit bytes i).getD (j / 8) 0 = bytes.getD (j / 8) 0 := by
      simp [setBit, sameByte, List.getD_eq_getElem?_getD]
    have different : i ≠ j := by
      rintro rfl
      exact sameByte rfl
    simp only [getBit, setBit_length, byte, different, decide_false, Bool.false_or]

/-- Marking a list of positions sets exactly these bits, in whatever order they come. -/
theorem getBit_foldl_setBit {positions : List Nat} {bytes : List UInt8}
    (inside : ∀ i ∈ positions, i < 8 * bytes.length) (j : Nat) :
    getBit (positions.foldl setBit bytes) j = (decide (j ∈ positions) || getBit bytes j) := by
  induction positions generalizing bytes with
  | nil => simp
  | cons i rest ih =>
    have first := inside i (by simp)
    have later : ∀ k ∈ rest, k < 8 * (setBit bytes i).length := by
      intro k hk
      rw [setBit_length]
      exact inside k (by simp [hk])
    rw [List.foldl_cons, ih later, getBit_setBit first]
    by_cases same : i = j
    · simp [same]
    · simp [same, Ne.symm same]

theorem cell_injective {n i j row col : Nat} (hj : j < n) (hcol : col < n)
    (same : row * n + col = i * n + j) : row = i ∧ col = j := by
  have rows : row = i := by
    have left := Nat.add_mul_div_right col row (show 0 < n by omega)
    have right := Nat.add_mul_div_right j i (show 0 < n by omega)
    rw [Nat.div_eq_of_lt hcol, Nat.add_comm col] at left
    rw [Nat.div_eq_of_lt hj, Nat.add_comm j, ← same] at right
    omega
  subst rows
  exact ⟨rfl, by omega⟩

theorem cell_lt {n i j : Nat} (hi : i < n) (hj : j < n) : i * n + j < n * n := by
  have rows : (i + 1) * n ≤ n * n := Nat.mul_le_mul_right n hi
  rw [Nat.add_mul] at rows
  omega

/-- Marking cells in an empty matrix sets exactly their bits. -/
theorem getBit_cells {n : Nat} {cells : List (Nat × Nat)}
    (inside : ∀ cell ∈ cells, cell.1 < n ∧ cell.2 < n) {i j : Nat} (hi : i < n) (hj : j < n) :
    getBit ((cells.map fun (row, col) => row * n + col).foldl setBit (zeros ((n * n + 7) / 8)))
      (i * n + j) = true ↔ (i, j) ∈ cells := by
  have room : ∀ k ∈ cells.map (fun (row, col) => row * n + col),
      k < 8 * (zeros ((n * n + 7) / 8)).length := by
    intro k listed
    obtain ⟨⟨row, col⟩, member, rfl⟩ := List.mem_map.mp listed
    obtain ⟨rowSmall, colSmall⟩ := inside (row, col) member
    have below : row * n + col < n * n := cell_lt rowSmall colSmall
    rw [zeros_length]
    simp only
    omega
  rw [getBit_foldl_setBit room, getBit_zeros, Bool.or_false, decide_eq_true_eq, List.mem_map]
  constructor
  · rintro ⟨⟨row, col⟩, member, same⟩
    obtain ⟨rfl, rfl⟩ := cell_injective hj (inside _ member).2 same
    exact member
  · intro member
    exact ⟨(i, j), member, rfl⟩

@[simp] theorem foldl_setBit_length (positions : List Nat) (bytes : List UInt8) :
    (positions.foldl setBit bytes).length = bytes.length := by
  induction positions generalizing bytes with
  | nil => rfl
  | cons i rest ih => rw [List.foldl_cons, ih, setBit_length]

/-- No bit behind the last cell is set, neither in the padding of the last byte nor past it. -/
theorem getBit_cells_padding {n : Nat} {cells : List (Nat × Nat)}
    (inside : ∀ cell ∈ cells, cell.1 < n ∧ cell.2 < n) {k : Nat} (behind : n * n ≤ k) :
    getBit ((cells.map fun (row, col) => row * n + col).foldl setBit (zeros ((n * n + 7) / 8)))
      k = false := by
  have below : ∀ position ∈ cells.map (fun (row, col) => row * n + col), position < n * n := by
    intro position listed
    obtain ⟨⟨row, col⟩, member, rfl⟩ := List.mem_map.mp listed
    obtain ⟨rowSmall, colSmall⟩ := inside (row, col) member
    exact cell_lt rowSmall colSmall
  have room : ∀ position ∈ cells.map (fun (row, col) => row * n + col),
      position < 8 * (zeros ((n * n + 7) / 8)).length := by
    intro position listed
    have small := below position listed
    rw [zeros_length]
    omega
  rw [getBit_foldl_setBit room, getBit_zeros, Bool.or_false, decide_eq_false_iff_not]
  intro listed
  have small := below k listed
  omega

end PackedBits
