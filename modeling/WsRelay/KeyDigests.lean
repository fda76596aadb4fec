import WsRelay.StreamingHash

/- The published digest of a network and the key of its secret. Both loops hash on what they
   have put out so far, so both are a prefix of one sequence of shards. -/
namespace RelayKeyDigests
open RelayProtocol RelayCrypto RelayStreamingHash

/- The hashed message and the output behind a number of shards. -/
def shards (msg : Bytes) : Nat → Bytes × Bytes
  | 0 => (msg, [])
  | k + 1 =>
    let (hashed, out) := shards msg k
    let longer := out ++ u64ToBeBytes (siphash13 hashed 0 0)
    (hashed ++ longer, longer)

@[simp] theorem u64ToBeBytes_length (word : UInt64) : (u64ToBeBytes word).length = 8 := rfl

theorem shards_length (msg : Bytes) (k : Nat) : (shards msg k).2.length = 8 * k := by
  induction k with
  | zero => rfl
  | succ k ih =>
    simp only [shards, List.length_append, u64ToBeBytes_length]
    omega

theorem shards_take (msg : Bytes) {j k : Nat} (le : j ≤ k) :
    (shards msg k).2.take (8 * j) = (shards msg j).2 := by
  induction k with
  | zero =>
    have none : j = 0 := by omega
    subst none
    rfl
  | succ k ih =>
    by_cases last : j = k + 1
    · subst last
      exact List.take_of_length_le (by rw [shards_length])
    · simp only [shards]
      rw [List.take_append_of_le_length (by rw [shards_length]; omega)]
      exact ih (by omega)

theorem digestShard_fold (hasher : SipHashHasher) (k : Nat) :
    messageOf ((List.range k).foldl digestShard (hasher, [])).1 =
        (shards (messageOf hasher) k).1 ∧
      ((List.range k).foldl digestShard (hasher, [])).2 = (shards (messageOf hasher) k).2 := by
  induction k with
  | zero => exact ⟨rfl, rfl⟩
  | succ k ih =>
    obtain ⟨messages, outputs⟩ := ih
    have longer : ((List.range k).foldl digestShard (hasher, [])).2 ++
        u64ToBeBytes ((List.range k).foldl digestShard (hasher, [])).1.finish =
          (shards (messageOf hasher) (k + 1)).2 := by
      rw [outputs, finish_eq, messages]
      rfl
    have whole : (shards (messageOf hasher) (k + 1)).2.take ((k + 1) * 8) =
        (shards (messageOf hasher) (k + 1)).2 :=
      List.take_of_length_le (by rw [shards_length]; omega)
    rw [List.range_succ, List.foldl_append, List.foldl_cons, List.foldl_nil, digestShard]
    dsimp only
    rw [longer, message_write, messages, whole]
    exact ⟨rfl, rfl⟩

theorem asBytes_append (a b : String) : asBytes (a ++ b) = asBytes a ++ asBytes b := by
  simp [asBytes, String.toUTF8]

theorem generateDigestFromStr_eq (a b : String) {n : Nat} (positive : 0 < n) (words : 8 ∣ n) :
    generateDigestFromStr a b n = some (shards (asBytes (a ++ b)) (n / 8)).2 := by
  have accepted : 0 < n ∧ n % 8 = 0 := ⟨positive, Nat.mod_eq_zero_of_dvd words⟩
  simp only [generateDigestFromStr, if_pos accepted]
  rw [(digestShard_fold _ _).2, message_write, message_write, message_new, List.nil_append,
    asBytes_append]

theorem copyAt_halves {first second : Bytes} (firstLength : first.length = 8)
    (secondLength : second.length = 8) :
    copyAt (copyAt (List.replicate 16 0) 0 first) 8 second = first ++ second := by
  simp [copyAt, firstLength, secondLength, List.drop_append]

theorem copyAt_first {first : Bytes} (firstLength : first.length = 8) :
    (copyAt (List.replicate 16 0) 0 first).take 8 = first := by
  simp [copyAt, firstLength]

theorem key128_eq (secret : String) :
    (deriveKeys secret).key128 = (shards (asBytes secret) 2).2 := by
  have first : (SipHashHasher.new.write (asBytes secret)).finish =
      siphash13 (asBytes secret) 0 0 := by
    rw [finish_eq, message_write, message_new, List.nil_append]
  have second (buf : Bytes) : ((SipHashHasher.new.write (asBytes secret)).write buf).finish =
      siphash13 (asBytes secret ++ buf) 0 0 := by
    rw [finish_eq, message_write, message_write, message_new, List.nil_append]
  simp only [deriveKeys, shards, List.nil_append]
  rw [second, first, copyAt_first (u64ToBeBytes_length _),
    copyAt_halves (u64ToBeBytes_length _) (u64ToBeBytes_length _)]

/-- Digests of one concatenation are prefixes of each other, and from 16 bytes on they start
    with the 128-bit key of the concatenation; without a name that is the secret's key. -/
theorem digest_starts_with_key (a b : String) {n m : Nat} (positive : 0 < n) (words : 8 ∣ n)
    (moreWords : 8 ∣ m) (le : n ≤ m) :
    ∃ digest longer, generateDigestFromStr a b n = some digest ∧
      generateDigestFromStr a b m = some longer ∧
      digest.length = n ∧ digest = longer.take n ∧
      (∀ a' b', a' ++ b' = a ++ b → generateDigestFromStr a' b' n = some digest) ∧
      (16 ≤ n → digest.take 16 = (deriveKeys (a ++ b)).key128) ∧
      (16 ≤ n → a = "" → digest.take 16 = (deriveKeys b).key128) := by
  obtain ⟨k, rfl⟩ := words
  obtain ⟨l, rfl⟩ := moreWords
  have shorter : k ≤ l := by omega
  have quotient (count : Nat) : 8 * count / 8 = count := by omega
  have key (two : 16 ≤ 8 * k) :
      (shards (asBytes (a ++ b)) k).2.take 16 = (deriveKeys (a ++ b)).key128 := by
    rw [key128_eq]
    exact shards_take _ (by omega : 2 ≤ k)
  refine ⟨(shards (asBytes (a ++ b)) k).2, (shards (asBytes (a ++ b)) l).2, ?_, ?_, ?_, ?_, ?_,
    key, ?_⟩
  · rw [generateDigestFromStr_eq a b positive ⟨k, rfl⟩, quotient]
  · rw [generateDigestFromStr_eq a b (by omega) ⟨l, rfl⟩, quotient]
  · exact shards_length _ k
  · exact (shards_take _ shorter).symm
  · intro a' b' same
    rw [generateDigestFromStr_eq a' b' positive ⟨k, rfl⟩, quotient, same]
  · intro two unnamed
    rw [key two, unnamed, String.empty_append]

/- A digest of a name and a secret that is published in full. -/
theorem short_digest_starts_with_key :
    ∃ digest longer, generateDigestFromStr "" "secret" 16 = some digest ∧
      generateDigestFromStr "" "secret" 32 = some longer ∧
      digest.length = 16 ∧ digest = longer.take 16 ∧
      (∀ a' b', a' ++ b' = "" ++ "secret" → generateDigestFromStr a' b' 16 = some digest) ∧
      (16 ≤ 16 → digest.take 16 = (deriveKeys ("" ++ "secret")).key128) ∧
      (16 ≤ 16 → "" = "" → digest.take 16 = (deriveKeys "secret").key128) :=
  digest_starts_with_key "" "secret" (by decide) (by decide) (by decide) (by decide)

end RelayKeyDigests
