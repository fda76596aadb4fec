import Mathlib.Data.Nat.Digits.Lemmas

/- The number that a list of bytes spells, the first byte least significant, and words that are
   put together from their bytes by shifts and ors. -/
namespace LittleEndian

def value (bytes : List UInt8) : Nat := Nat.ofDigits 256 (bytes.map UInt8.toNat)

@[simp] theorem value_nil : value [] = 0 := rfl

@[simp] theorem value_cons (byte : UInt8) (rest : List UInt8) :
    value (byte :: rest) = byte.toNat + 256 * value rest := by
  simp [value, Nat.ofDigits_cons]

theorem value_append (bytes more : List UInt8) :
    value (bytes ++ more) = value bytes + 256 ^ bytes.length * value more := by
  simp [value, Nat.ofDigits_append]

theorem value_zeros (bytes : List UInt8) (count : Nat) :
    value (bytes ++ List.replicate count 0) = value bytes := by
  simp [value, Nat.ofDigits_append_replicate_zero]

theorem digits_small (bytes : List UInt8) : ∀ d ∈ bytes.map UInt8.toNat, d < 256 := by
  intro d listed
  obtain ⟨byte, -, rfl⟩ := List.mem_map.mp listed
  exact byte.toNat_lt

theorem value_lt (bytes : List UInt8) : value bytes < 256 ^ bytes.length := by
  have bound := Nat.ofDigits_lt_base_pow_length (by omega : 1 < 256) (digits_small bytes)
  rwa [List.length_map] at bound

/-- Lists of one length are determined by their value. -/
theorem value_injective {bytes other : List UInt8} (lengths : bytes.length = other.length)
    (same : value bytes = value other) : bytes = other := by
  have digits := Nat.ofDigits_inj_of_len_eq (by omega : 1 < 256)
    (by simpa using lengths) (digits_small bytes) (digits_small other) same
  exact List.map_injective_iff.mpr (fun a b => UInt8.toNat_inj.mp) digits

theorem or_shifted {low : Nat} (high : Nat) {bits : Nat} (small : low < 2 ^ bits) :
    low ||| (high * 2 ^ bits) = low + high * 2 ^ bits := by
  rw [Nat.or_comm, Nat.mul_comm, ← Nat.two_pow_add_eq_or_of_lt small, Nat.add_comm]

end LittleEndian
