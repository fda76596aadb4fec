import WsRelay.Crypto
import WsRelay.Library.SipHash

/- The hasher joins its parts and hashes the whole message. It agrees with a hasher that keeps at
   most seven bytes and absorbs every word as soon as it is complete. -/
namespace RelayStreamingHash
open RelayProtocol RelayRouteState RelayCrypto BlockStream LittleEndian SipHash

def leWord (bytes : Bytes) : UInt64 := UInt64.ofNat (value bytes)

theorem value_word {bytes : Bytes} (short : bytes.length ≤ 8) : value bytes < 2 ^ 64 := by
  calc value bytes < 256 ^ bytes.length := value_lt bytes
    _ ≤ 256 ^ 8 := Nat.pow_le_pow_right (by omega) short
    _ = 2 ^ 64 := by norm_num

theorem leWord_toNat {bytes : Bytes} (short : bytes.length ≤ 8) :
    (leWord bytes).toNat = value bytes := by
  rw [leWord, UInt64.toNat_ofNat']
  exact Nat.mod_eq_of_lt (value_word short)

theorem u64FromLeBytes_eq {bytes : Bytes} (short : bytes.length ≤ 8) :
    u64FromLeBytes bytes = leWord bytes := by
  induction bytes with
  | nil => rfl
  | cons byte rest ih =>
    have restShort : rest.length ≤ 7 := by
      rw [List.length_cons] at short
      omega
    have byteSmall : byte.toNat < 2 ^ 8 := byte.toNat_lt
    have restSmall : value rest * 2 ^ 8 < 2 ^ 64 := by
      have bound := value_word short
      rw [value_cons] at bound
      omega
    have folded : u64FromLeBytes (byte :: rest) = byte.toUInt64 ||| (u64FromLeBytes rest <<< 8) :=
      rfl
    have shifted : (leWord rest <<< 8).toNat = value rest * 2 ^ 8 := by
      rw [UInt64.toNat_shiftLeft, leWord_toNat (by omega)]
      show _ <<< 8 % 2 ^ 64 = _
      rw [Nat.shiftLeft_eq, Nat.mod_eq_of_lt restSmall]
    rw [← UInt64.toNat_inj, folded, ih (by omega), UInt64.toNat_or, shifted, leWord_toNat short,
      UInt8.toNat_toUInt64, or_shifted _ byteSmall, value_cons]
    omega

theorem readU64Le_eq (msg : Bytes) (offset : Nat) :
    readU64Le msg offset = leWord (blockAt 8 msg offset) := by
  have taken : (msg.drop offset).take (min (msg.length - offset) 8) = blockAt 8 msg offset := by
    rw [blockAt, Nat.min_comm, ← List.take_take, ← List.length_drop, List.take_length]
  unfold readU64Le
  dsimp only
  rw [taken, u64FromLeBytes_eq, leWord, value_zeros, leWord]
  rw [List.length_append, List.length_replicate, blockAt, List.length_take, List.length_drop]
  omega

theorem tail_fold (tail : Bytes) (short : tail.length ≤ 8) (b : UInt64) :
    (List.range tail.length).foldl
        (fun m i => m ||| ((tail.getD i 0).toUInt64 <<< UInt64.ofNat (8 * i))) b =
      b ||| leWord tail := by
  induction tail using List.reverseRecOn with
  | nil => simp [leWord]
  | append_singleton tail last ih =>
    have tailShort : tail.length < 8 := by simpa using short
    have prior : (List.range tail.length).foldl (fun m i =>
        m ||| (((tail ++ [last]).getD i 0).toUInt64 <<< UInt64.ofNat (8 * i))) b =
          b ||| leWord tail := by
      rw [← ih (by omega)]
      apply List.foldl_ext
      intro m i listed
      have inside : i < tail.length := List.mem_range.mp listed
      rw [List.getD_append _ _ _ _ inside]
    have final : (tail ++ [last]).getD tail.length 0 = last := by simp
    have joined : leWord tail ||| (last.toUInt64 <<< UInt64.ofNat (8 * tail.length)) =
        leWord (tail ++ [last]) := by
      have lastSmall : last.toNat * 2 ^ (8 * tail.length) < 2 ^ 64 := by
        calc last.toNat * 2 ^ (8 * tail.length)
            < 2 ^ 8 * 2 ^ (8 * tail.length) :=
              Nat.mul_lt_mul_of_pos_right last.toNat_lt (Nat.two_pow_pos _)
          _ = 2 ^ (8 + 8 * tail.length) := by rw [Nat.pow_add]
          _ ≤ 2 ^ 64 := Nat.pow_le_pow_right (by omega) (by omega)
      have power : 256 ^ tail.length = 2 ^ (8 * tail.length) := by
        rw [Nat.pow_mul]
      have tailSmall := value_lt tail
      rw [power] at tailSmall
      have position : (UInt64.ofNat (8 * tail.length)).toNat % 64 = 8 * tail.length := by
        rw [UInt64.toNat_ofNat']
        omega
      rw [← UInt64.toNat_inj, UInt64.toNat_or, UInt64.toNat_shiftLeft, position,
        leWord_toNat (by omega), leWord_toNat short, UInt8.toNat_toUInt64, Nat.shiftLeft_eq,
        Nat.mod_eq_of_lt lastSmall, or_shifted _ tailSmall, value_append, power, value_cons,
        value_nil, Nat.mul_zero, Nat.add_zero, Nat.mul_comm]
    rw [List.length_append, List.length_singleton, List.range_succ, List.foldl_append, prior,
      List.foldl_cons, List.foldl_nil, final, UInt64.or_assoc, joined]

theorem rotl64_toBitVec (v : UInt64) {bits : UInt64} (positive : 0 < bits) (small : bits < 64) :
    (rotl64 v bits).toBitVec = v.toBitVec.rotateLeft bits.toNat := by
  have low : 0 < bits.toNat := UInt64.lt_iff_toNat_lt.mp positive
  have high : bits.toNat < 64 := UInt64.lt_iff_toNat_lt.mp small
  have left : (bits.toBitVec % 64).toNat = bits.toNat := Nat.mod_eq_of_lt high
  have right : ((64 - bits).toBitVec % 64).toNat = 64 - bits.toNat := by
    have rest : (64 - bits).toNat = 64 - bits.toNat :=
      UInt64.toNat_sub_of_le 64 bits (UInt64.le_of_lt small)
    show (64 - bits).toNat % 64 = 64 - bits.toNat
    rw [rest]
    omega
  rw [BitVec.rotateLeft_def, Nat.mod_eq_of_lt high, rotl64, UInt64.toBitVec_or,
    UInt64.toBitVec_shiftLeft, UInt64.toBitVec_shiftRight, BitVec.shiftLeft_eq',
    BitVec.ushiftRight_eq', left, right]

def lanesOf (v : SipState) : Lanes :=
  ⟨v.v0.toBitVec, v.v1.toBitVec, v.v2.toBitVec, v.v3.toBitVec⟩

theorem lanesOf_round (v : SipState) : lanesOf (sipRound v) = (lanesOf v).round := by
  have rotated (lane : UInt64) : (rotl64 lane 13).toBitVec = lane.toBitVec.rotateLeft 13 ∧
      (rotl64 lane 16).toBitVec = lane.toBitVec.rotateLeft 16 ∧
      (rotl64 lane 17).toBitVec = lane.toBitVec.rotateLeft 17 ∧
      (rotl64 lane 21).toBitVec = lane.toBitVec.rotateLeft 21 ∧
      (rotl64 lane 32).toBitVec = lane.toBitVec.rotateLeft 32 :=
    ⟨rotl64_toBitVec lane (by decide) (by decide), rotl64_toBitVec lane (by decide) (by decide),
      rotl64_toBitVec lane (by decide) (by decide), rotl64_toBitVec lane (by decide) (by decide),
      rotl64_toBitVec lane (by decide) (by decide)⟩
  simp only [lanesOf, sipRound, Lanes.round, mix, UInt64.toBitVec_add, UInt64.toBitVec_xor, rotated]

theorem lanesOf_mixWord (v : SipState) (m : UInt64) :
    lanesOf (mixWord v m) = (lanesOf v).absorb 1 m.toBitVec := by
  have mixed := lanesOf_round { v with v3 := v.v3 ^^^ m }
  simp only [mixWord, Lanes.absorb, Lanes.rounds]
  have input : lanesOf { v with v3 := v.v3 ^^^ m } =
      { lanesOf v with v3 := (lanesOf v).v3 ^^^ m.toBitVec } := rfl
  rw [← input, ← mixed]
  rfl

theorem lanesOf_initialState (k0 k1 : UInt64) :
    lanesOf (initialState k0 k1) = Lanes.start k0.toBitVec k1.toBitVec := by
  have seeds : seedWord 0 = 0x736f6d6570736575 ∧ seedWord 1 = 0x646f72616e646f6d ∧
      seedWord 2 = 0x6c7967656e657261 ∧ seedWord 3 = 0x7465646279746573 := by decide
  obtain ⟨first, second, third, fourth⟩ := seeds
  simp only [Lanes.start, first, second, third, fourth, BitVec.xor_comm k0.toBitVec,
    BitVec.xor_comm k1.toBitVec]
  rfl

theorem finalize_toBitVec (v : SipState) (m : UInt64) :
    (finalize v m).toBitVec = ((lanesOf v).absorb 1 m.toBitVec).close 3 := by
  rw [← lanesOf_mixWord]
  set last := mixWord v m with lastDef
  have marked : lanesOf { last with v2 := last.v2 ^^^ 0xff } =
      { lanesOf last with v2 := (lanesOf last).v2 ^^^ 0xff } := rfl
  simp only [finalize, ← lastDef, Lanes.close, Lanes.rounds, ← marked, ← lanesOf_round]
  rfl

theorem leWord_toBitVec (bytes : Bytes) : (leWord bytes).toBitVec = word bytes := rfl

theorem lengthByte_eq (length : Nat) :
    (UInt64.ofNat length <<< 56).toBitVec = BitVec.ofNat 64 (length % 256) <<< 56 := by
  have shift : (56 : UInt64).toNat % 64 = 56 := rfl
  rw [← BitVec.toNat_inj, UInt64.toNat_toBitVec, UInt64.toNat_shiftLeft, UInt64.toNat_ofNat',
    shift, BitVec.toNat_shiftLeft, BitVec.toNat_ofNat, Nat.shiftLeft_eq, Nat.shiftLeft_eq]
  omega

/-- One write of a whole message and a finish of SipHash-1-3 compute siphash_1_3. -/
theorem siphash13_eq (msg : Bytes) (k0 k1 : UInt64) :
    (siphash13 msg k0 k1).toBitVec =
      ((Hasher.start k0.toBitVec k1.toBitVec).write 1 msg).finish 1 3 := by
  have full : msg.length - msg.length % 8 = 8 * (msg.length / 8) := by omega
  have words : lanesOf ((List.range' 0 (msg.length / 8) 8).foldl
      (fun v i => mixWord v (readU64Le msg i)) (initialState k0 k1)) =
        absorbBlocks 8 (absorbBytes 1) (Lanes.start k0.toBitVec k1.toBitVec) msg
          (msg.length / 8) := by
    have commutes (v : SipState) (block : Bytes) :
        absorbBytes 1 (lanesOf v) block = lanesOf (mixWord v (leWord block)) := by
      rw [lanesOf_mixWord, leWord_toBitVec, absorbBytes]
    rw [← lanesOf_initialState, absorbBlocks_map 8 _ commutes]
    simp only [readU64Le_eq]
    rfl
  have tailLength : (msg.drop (8 * (msg.length / 8))).length = msg.length % 8 := by
    rw [List.length_drop]
    omega
  have tail := tail_fold (msg.drop (8 * (msg.length / 8))) (by omega)
    (UInt64.ofNat msg.length <<< 56)
  rw [tailLength] at tail
  simp only [List.getD_eq_getElem?_getD, List.getElem?_drop] at tail
  unfold siphash13
  simp only [full, Nat.mul_div_cancel_left _ (by omega : 0 < 8), List.getD_eq_getElem?_getD]
  rw [finalize_toBitVec, words, tail, UInt64.toBitVec_or, lengthByte_eq, leWord_toBitVec,
    BitVec.or_comm, finish_message]

def messageOf (h : SipHashHasher) : Bytes := h.parts.flatten

theorem message_new : messageOf .new = [] := rfl

theorem message_write (h : SipHashHasher) (buf : Bytes) :
    messageOf (h.write buf) = messageOf h ++ buf := by
  unfold SipHashHasher.write messageOf
  cases buf with
  | nil => simp
  | cons byte rest => simp

theorem finish_eq (h : SipHashHasher) : h.finish = siphash13 (messageOf h) 0 0 := by
  have joined (start : Bytes) (parts : List Bytes) :
      parts.foldl (fun msg p => msg ++ p) start = start ++ parts.flatten := by
    induction parts generalizing start with
    | nil => simp
    | cons part rest ih => rw [List.foldl_cons, ih, List.flatten_cons, List.append_assoc]
  unfold SipHashHasher.finish messageOf
  split
  · next single =>
    obtain ⟨part, only⟩ := List.length_eq_one_iff.mp single
    simp [only]
  · rw [joined, List.nil_append]

inductive HasherCall where
  | write (buf : Bytes)
  | finish

/- A run of calls, with the answers of its finishes. -/
def hasherAnswers : SipHashHasher → List HasherCall → List UInt64
  | _, [] => []
  | h, .write buf :: rest => hasherAnswers (h.write buf) rest
  | h, .finish :: rest => h.finish :: hasherAnswers h rest

def streamAnswers : Hasher → List HasherCall → List Word
  | _, [] => []
  | s, .write buf :: rest => streamAnswers (s.write 1 buf) rest
  | s, .finish :: rest => s.finish 1 3 :: streamAnswers s rest

/- The streaming hasher that has been fed the hasher's message. -/
def Simulates (s : Hasher) (h : SipHashHasher) : Prop :=
  s = (Hasher.start 0 0).write 1 (messageOf h)

theorem simulates_write {s : Hasher} {h : SipHashHasher} (sim : Simulates s h) (buf : Bytes) :
    Simulates (s.write 1 buf) (h.write buf) := by
  unfold Simulates at sim ⊢
  rw [message_write, write_append, ← sim]

theorem simulates_finish {s : Hasher} {h : SipHashHasher} (sim : Simulates s h) :
    h.finish.toBitVec = s.finish 1 3 := by
  rw [finish_eq, siphash13_eq, sim]
  rfl

theorem simulates_answers {s : Hasher} {h : SipHashHasher} (sim : Simulates s h)
    (calls : List HasherCall) :
    (hasherAnswers h calls).map UInt64.toBitVec = streamAnswers s calls := by
  induction calls generalizing s h with
  | nil => rfl
  | cons call rest ih =>
    cases call with
    | write buf => exact ih (simulates_write sim buf)
    | finish =>
      simp only [hasherAnswers, streamAnswers, List.map_cons]
      rw [simulates_finish sim, ih sim]

theorem simulates_chunks {s : Hasher} {h : SipHashHasher} (sim : Simulates s h)
    (chunks : List Bytes) :
    Simulates (chunks.foldl (Hasher.write 1) s) (chunks.foldl SipHashHasher.write h) := by
  induction chunks generalizing s h with
  | nil => exact sim
  | cons chunk rest ih => exact ih (simulates_write sim chunk)

def writesOf : List HasherCall → List Bytes
  | [] => []
  | .write buf :: rest => buf :: writesOf rest
  | .finish :: rest => writesOf rest

theorem hasherAnswers_last (h : SipHashHasher) (calls : List HasherCall) :
    hasherAnswers h (calls ++ [.finish]) =
      hasherAnswers h calls ++ [((writesOf calls).foldl SipHashHasher.write h).finish] := by
  induction calls generalizing h with
  | nil => rfl
  | cons call rest ih =>
    cases call with
    | write buf => exact ih (h.write buf)
    | finish =>
      rw [List.cons_append, hasherAnswers, hasherAnswers, ih, writesOf, List.cons_append]

/-- The hasher is the streaming SipHash-1-3 with zero keys, for every split of the input; finishes
    in between answer for what has been written so far and change nothing. -/
theorem hasher_streams (chunks : List Bytes) (calls : List HasherCall) :
    (chunks.foldl SipHashHasher.write .new).finish.toBitVec =
        (chunks.foldl (Hasher.write 1) (.start 0 0)).finish 1 3 ∧
      (hasherAnswers .new calls).map UInt64.toBitVec = streamAnswers (.start 0 0) calls ∧
      (hasherAnswers .new (calls ++ [.finish])).getLast?.map UInt64.toBitVec =
        some (((writesOf calls).foldl (Hasher.write 1) (.start 0 0)).finish 1 3) := by
  have begun : Simulates (.start 0 0) .new := rfl
  refine ⟨simulates_finish (simulates_chunks begun chunks), simulates_answers begun calls, ?_⟩
  rw [hasherAnswers_last, List.getLast?_concat, Option.map_some,
    simulates_finish (simulates_chunks begun (writesOf calls))]

end RelayStreamingHash
