import WsRelay.Protocol
import WsRelay.Library.LittleEndian

/- Sixteen bytes and the seven fields of a packet header determine each other. -/
namespace RelayPacketHeaders
open RelayProtocol LittleEndian

theorem value_u32ToLeBytes (v : UInt32) : value (u32ToLeBytes v) = v.toNat := by
  have shift8 : (8 : UInt32).toNat % 32 = 8 := rfl
  have shift16 : (16 : UInt32).toNat % 32 = 16 := rfl
  have shift24 : (24 : UInt32).toNat % 32 = 24 := rfl
  have small := v.toNat_lt
  simp only [u32ToLeBytes, value_cons, value_nil, UInt32.toNat_toUInt8, UInt32.toNat_shiftRight,
    shift8, shift16, shift24, Nat.shiftRight_eq_div_pow]
  omega

theorem u32FromLeBytes_toNat (b0 b1 b2 b3 : UInt8) :
    (u32FromLeBytes b0 b1 b2 b3).toNat = value [b0, b1, b2, b3] := by
  have shift8 : (8 : UInt32).toNat % 32 = 8 := rfl
  have shift16 : (16 : UInt32).toNat % 32 = 16 := rfl
  have shift24 : (24 : UInt32).toNat % 32 = 24 := rfl
  have small0 := b0.toNat_lt
  have small1 := b1.toNat_lt
  have small2 := b2.toNat_lt
  have small3 := b3.toNat_lt
  simp only [u32FromLeBytes, UInt32.toNat_or, UInt32.toNat_shiftLeft, UInt8.toNat_toUInt32, shift8,
    shift16, shift24, Nat.shiftLeft_eq]
  rw [Nat.mod_eq_of_lt (by omega : b1.toNat * 2 ^ 8 < 2 ^ 32),
    Nat.mod_eq_of_lt (by omega : b2.toNat * 2 ^ 16 < 2 ^ 32),
    Nat.mod_eq_of_lt (by omega : b3.toNat * 2 ^ 24 < 2 ^ 32),
    or_shifted _ (by omega : b0.toNat < 2 ^ 8),
    or_shifted _ (by omega : b0.toNat + b1.toNat * 2 ^ 8 < 2 ^ 16),
    or_shifted _ (by omega : b0.toNat + b1.toNat * 2 ^ 8 + b2.toNat * 2 ^ 16 < 2 ^ 24)]
  simp only [value_cons, value_nil]
  omega

theorem u32FromLeBytes_toBytes (v : UInt32) :
    u32FromLeBytes v.toUInt8 (v >>> 8).toUInt8 (v >>> 16).toUInt8 (v >>> 24).toUInt8 = v := by
  rw [← UInt32.toNat_inj, u32FromLeBytes_toNat]
  exact value_u32ToLeBytes v

theorem u32ToLeBytes_fromBytes (b0 b1 b2 b3 : UInt8) :
    u32ToLeBytes (u32FromLeBytes b0 b1 b2 b3) = [b0, b1, b2, b3] := by
  refine value_injective (by rfl) ?_
  rw [value_u32ToLeBytes, u32FromLeBytes_toNat]

theorem u32ToLeBytes_injective : Function.Injective u32ToLeBytes := by
  intro v w same
  rw [← UInt32.toNat_inj, ← value_u32ToLeBytes, same, value_u32ToLeBytes]

theorem parseHeader_toBytes (h : PacketHeader) (rest : Bytes) :
    parseHeader (h.toBytes ++ rest) = some h := by
  simp only [parseHeader, PacketHeader.toBytes, u32ToLeBytes, List.cons_append, List.nil_append,
    PacketHeader.fromBytes, u32FromLeBytes_toBytes]

@[simp] theorem toBytes_length (h : PacketHeader) : h.toBytes.length = headerSize := rfl

theorem parseHeader_long {b : Bytes} (long : headerSize ≤ b.length) :
    ∃ h, parseHeader b = some h ∧ h.toBytes = b.take headerSize := by
  rcases b with _ | ⟨b0, _ | ⟨b1, _ | ⟨b2, _ | ⟨b3, _ | ⟨b4, _ | ⟨b5, _ | ⟨b6, _ | ⟨b7, _ | ⟨b8,
    _ | ⟨b9, _ | ⟨b10, _ | ⟨b11, _ | ⟨b12, _ | ⟨b13, _ | ⟨b14, _ | ⟨b15, rest⟩⟩⟩⟩⟩⟩⟩⟩⟩⟩⟩⟩⟩⟩⟩⟩
  case cons.cons.cons.cons.cons.cons.cons.cons.cons.cons.cons.cons.cons.cons.cons.cons =>
    refine ⟨_, rfl, ?_⟩
    simp only [PacketHeader.toBytes, u32ToLeBytes_fromBytes]
    rfl
  all_goals simp [headerSize] at long

theorem parseHeader_none_iff (b : Bytes) : parseHeader b = none ↔ b.length < headerSize := by
  constructor
  · intro failed
    by_contra long
    obtain ⟨h, parsed, -⟩ := parseHeader_long (Nat.le_of_not_lt long)
    rw [parsed] at failed
    cases failed
  · intro short
    cases parsed : parseHeader b with
    | none => rfl
    | some h =>
      unfold parseHeader PacketHeader.fromBytes at parsed
      split at parsed
      · simp [headerSize] at short
        omega
      · cases parsed

end RelayPacketHeaders
