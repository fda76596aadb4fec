import WsRelay.KeyDigests
import WsRelay.Framing
import WsRelay.Library.SealedText

/- Packets under a key. What is sent carries its nonce behind the tag, so that the header and
   the key are all that a receiver needs; the flag is set by the settings, not by the key. -/
namespace RelaySealedPackets
open RelayProtocol RelayRouteState RelayRpcHandler RelayCrypto RelayKeyDigests RelayPacketHeaders
open RelayWireFormats SealedText

def createServerHeader (toPeerId : PeerId) (packetType : PacketType) (payloadLen : UInt32) :
    Bytes := createHeader myPeerId toPeerId packetType payloadLen

def wrapServerPacket (x : Externals) (toPeerId : PeerId) (packetType : PacketType)
    (payload : Bytes) (crypto : WsCrypto) : Option Bytes :=
  wrapPacket x myPeerId toPeerId packetType payload crypto

/- Packets wrapped with this draw of the nonce. -/
def sealingWith (x : Externals) (subtle : SubtleCrypto) (nonce : Bytes) : Externals :=
  { x with encryptAesGcm := fun payload key => (encryptAesGcm subtle nonce payload key).toOption }

def cipherOf (subtle : SubtleCrypto) : Cipher subtle.CryptoKey JsFailure where
  encrypt := subtle.encrypt
  decrypt := subtle.decrypt

/-- What the platform promises of AES-GCM: keys of 16 and of 32 bytes are imported, and with a
    nonce of 12 bytes and a tag of 16 it encrypts with authentication. -/
structure AesGcm (subtle : SubtleCrypto) : Prop where
  imports : ∀ key : Bytes, key.length = 16 ∨ key.length = 32 →
    ∃ cryptoKey, subtle.importKey key = .ok cryptoKey
  authenticates : (cipherOf subtle).Authenticates 12 16

/- The key that a packet of this type is encrypted with. -/
def sealingKey (crypto : WsCrypto) (type : PacketType) : Option Bytes :=
  if crypto.enabled && type ≠ .handShake then
    if !crypto.key128.isEmpty then some crypto.key128
    else if !crypto.key256.isEmpty then some crypto.key256
    else none
  else none

/- What a receiver finds in a frame. The flag also stands on a packet in the clear, when no
   key was set. -/
structure Readable (subtle : SubtleCrypto) (crypto : WsCrypto) (source target : PeerId)
    (type : PacketType) (payload frame : Bytes) : Prop where
  header : ∃ h, parseHeader frame = some h ∧ h.fromPeerId = source ∧ h.toPeerId = target ∧
    h.packetTypeEnum = type ∧ h.flags = (if crypto.enabled && type ≠ .handShake then 1 else 0) ∧
    h.len = UInt32.ofNat (frame.length - headerSize)
  locked : ∀ key, sealingKey crypto type = some key →
    decryptAesGcm subtle (frame.drop headerSize) key = .ok payload ∧
      frame.length = headerSize + payload.length + 28
  clear : sealingKey crypto type = none → frame.drop headerSize = payload

variable {subtle : SubtleCrypto} {x : Externals} {crypto : WsCrypto} {source target : PeerId}
variable {type : PacketType} {nonce payload key box text frame : Bytes}

theorem mapError_ok_iff {A E F : Type} {f : E → F} {result : Except E A} {a : A} :
    result.mapError f = .ok a ↔ result = .ok a := by
  cases result <;> simp [Except.mapError]

theorem encryptAesGcm_iff : encryptAesGcm subtle nonce payload key = .ok box ↔
    ∃ cryptoKey, subtle.importKey key = .ok cryptoKey ∧
      (cipherOf subtle).toBox cryptoKey nonce payload = .ok box := by
  unfold encryptAesGcm importAesGcmKey
  cases imported : subtle.importKey key with
  | error e => simp [Except.mapError, bind, Except.bind]
  | ok cryptoKey =>
    simp only [Except.mapError, bind, Except.bind, toBox_iff, cipherOf, Except.ok.injEq,
      exists_eq_left']
    cases encrypted : subtle.encrypt cryptoKey nonce payload with
    | error e => simp
    | ok shut => simp [pure, Except.pure]

theorem decryptAesGcm_short (short : box.length < 28) :
    decryptAesGcm subtle box key =
      .error ("encrypted payload too short: " ++ toString box.length) := by
  simp [decryptAesGcm, short, throw, throwThe, MonadExceptOf.throw, bind, Except.bind]

theorem decryptAesGcm_iff (long : 28 ≤ box.length) : decryptAesGcm subtle box key = .ok text ↔
    ∃ cryptoKey, subtle.importKey key = .ok cryptoKey ∧
      (cipherOf subtle).ofBox 12 cryptoKey box = .ok text := by
  have split : box.length - 28 + 16 = box.length - 12 := by omega
  have enough : ¬ box.length < 28 := by omega
  simp only [decryptAesGcm, enough, importAesGcmKey, split]
  cases imported : subtle.importKey key with
  | error e => simp [Except.mapError, bind, Except.bind]
  | ok cryptoKey =>
    simp only [↓reduceIte, Except.mapError, bind, Except.bind, Except.ok.injEq, exists_eq_left']
    exact mapError_ok_iff

theorem AesGcm.accepts_iff (lawful : AesGcm subtle) :
    decryptAesGcm subtle box key = .ok text ↔
      ∃ nonce : Bytes, nonce.length = 12 ∧ encryptAesGcm subtle nonce text key = .ok box := by
  by_cases long : 28 ≤ box.length
  · rw [decryptAesGcm_iff long]
    constructor
    · rintro ⟨cryptoKey, imported, opened⟩
      obtain ⟨nonce, sized, made⟩ := (lawful.authenticates.ofBox_iff (by omega)).mp opened
      exact ⟨nonce, sized, encryptAesGcm_iff.mpr ⟨cryptoKey, imported, made⟩⟩
    · rintro ⟨nonce, sized, encrypted⟩
      obtain ⟨cryptoKey, imported, made⟩ := encryptAesGcm_iff.mp encrypted
      exact ⟨cryptoKey, imported,
        (lawful.authenticates.ofBox_iff (by omega)).mpr ⟨nonce, sized, made⟩⟩
  · rw [decryptAesGcm_short (by omega)]
    constructor
    · intro refused
      cases refused
    · rintro ⟨nonce, sized, encrypted⟩
      obtain ⟨cryptoKey, -, made⟩ := encryptAesGcm_iff.mp encrypted
      have enough := lawful.authenticates.box_long sized made
      omega

theorem AesGcm.encrypted_length (lawful : AesGcm subtle) (sized : nonce.length = 12)
    (encrypted : encryptAesGcm subtle nonce payload key = .ok box) :
    box.length = payload.length + 28 := by
  obtain ⟨cryptoKey, -, made⟩ := encryptAesGcm_iff.mp encrypted
  exact lawful.authenticates.box_length sized made

theorem wrapPacket_eq (x : Externals) (source target : PeerId) (type : PacketType)
    (payload : Bytes) (crypto : WsCrypto) :
    wrapPacket x source target type payload crypto =
      ((sealingKey crypto type).elim (some payload) (x.encryptAesGcm payload)).map fun body =>
        PacketHeader.toBytes
          { fromPeerId := source, toPeerId := target, packetType := type.toU8
            flags := if crypto.enabled && type ≠ .handShake then 1 else 0
            forwardCounter := 1, reserved := 0, len := UInt32.ofNat body.length } ++ body := by
  simp only [wrapPacket, sealingKey, encryptBody]
  by_cases encrypted : (crypto.enabled && decide (type ≠ .handShake)) = true
  · simp only [encrypted, ↓reduceIte]
    split
    · rfl
    · split <;> rfl
  · simp only [encrypted]
    rfl

theorem wrapServerPacket_default (x : Externals) (target : PeerId) (type : PacketType)
    (payload : Bytes) : wrapServerPacket x target type payload {} =
      some (createServerHeader target type (UInt32.ofNat payload.length) ++ payload) := by
  rw [wrapServerPacket, wrapPacket_eq]
  rfl

theorem framed_length (h : PacketHeader) (body : Bytes) :
    (h.toBytes ++ body).length = headerSize + body.length := by
  rw [List.length_append, toBytes_length]

theorem AesGcm.wrapped (lawful : AesGcm subtle) (sized : nonce.length = 12)
    (sent : wrapPacket (sealingWith x subtle nonce) source target type payload crypto =
      some frame) : Readable subtle crypto source target type payload frame := by
  rw [wrapPacket_eq] at sent
  obtain ⟨body, made, rfl⟩ := Option.map_eq_some_iff.mp sent
  refine ⟨⟨_, parseHeader_toBytes _ body, rfl, rfl, packet_type_round_trip type, rfl, ?_⟩, ?_, ?_⟩
  · rw [framed_length, Nat.add_sub_cancel_left]
  · intro key chosen
    simp only [chosen, Option.elim_some, sealingWith] at made
    have encrypted : encryptAesGcm subtle nonce payload key = .ok body := by
      cases result : encryptAesGcm subtle nonce payload key with
      | error e => simp [result, Except.toOption] at made
      | ok box => simpa [result, Except.toOption] using made
    constructor
    · rw [List.drop_left' (toBytes_length _)]
      exact lawful.accepts_iff.mpr ⟨nonce, sized, encrypted⟩
    · rw [framed_length, lawful.encrypted_length sized encrypted, Nat.add_assoc]
  · intro unlocked
    simp only [unlocked, Option.elim_none, Option.some.injEq] at made
    rw [List.drop_left' (toBytes_length _), made]

theorem wrapPacket_none_iff :
    wrapPacket (sealingWith x subtle nonce) source target type payload crypto = none ↔
      ∃ key, sealingKey crypto type = some key ∧
        ∃ e, encryptAesGcm subtle nonce payload key = .error e := by
  rw [wrapPacket_eq, Option.map_eq_none_iff]
  cases chosen : sealingKey crypto type with
  | none => simp
  | some key =>
    simp only [Option.elim_some, sealingWith, Option.some.injEq, exists_eq_left']
    cases encryptAesGcm subtle nonce payload key <;> simp [Except.toOption]

theorem copyAt_length {dst slice : Bytes} {start : Nat} (fits : start + slice.length ≤ dst.length) :
    (copyAt dst start slice).length = dst.length := by
  simp only [copyAt, List.length_append, List.length_take, List.length_drop]
  omega

theorem key128_length (secret : String) : (deriveKeys secret).key128.length = 16 := by
  rw [key128_eq, shards_length]

theorem key256_fold (acc : SipHashHasher × Bytes) (sized : acc.2.length = 32) {k : Nat}
    (few : k ≤ 4) : ((List.range k).foldl key256Shard acc).2.length = 32 := by
  induction k with
  | zero => exact sized
  | succ k ih =>
    have before := ih (by omega)
    rw [List.range_succ, List.foldl_append, List.foldl_cons, List.foldl_nil, key256Shard]
    rw [copyAt_length (by rw [before, u64ToBeBytes_length]; omega), before]

theorem key256_length (secret : String) : (deriveKeys secret).key256.length = 32 :=
  key256_fold _ (by rfl) (Nat.le_refl 4)

def cryptoOf (keys : DerivedKeys) : WsCrypto :=
  { enabled := true, key128 := keys.key128, key256 := keys.key256 }

theorem derived_sealingKey (secret : String) (data : type ≠ .handShake) :
    sealingKey (cryptoOf (deriveKeys secret)) type = some (deriveKeys secret).key128 := by
  have nonempty : (deriveKeys secret).key128 ≠ [] :=
    List.ne_nil_of_length_pos (by rw [key128_length]; omega)
  simp [sealingKey, cryptoOf, data, nonempty]

/-- Under AES-GCM a receiver accepts exactly what was sealed under its key. A packet is lost
    only where encryption fails; every other one tells its peers, type, length and setting, and
    its body opens under the sealing key, or is the payload where there is none. The keys derived
    from a secret are imported, and the shorter one seals. -/
theorem sealed_packets_open (lawful : AesGcm subtle) :
    (∀ box key text, decryptAesGcm subtle box key = .ok text ↔
      ∃ nonce : Bytes, nonce.length = 12 ∧ encryptAesGcm subtle nonce text key = .ok box) ∧
    (∀ (x : Externals) (nonce : Bytes) source target type payload crypto, nonce.length = 12 →
      (wrapPacket (sealingWith x subtle nonce) source target type payload crypto = none ↔
        ∃ key, sealingKey crypto type = some key ∧
          ∃ e, encryptAesGcm subtle nonce payload key = .error e) ∧
      ∀ frame, wrapPacket (sealingWith x subtle nonce) source target type payload crypto =
        some frame → Readable subtle crypto source target type payload frame) ∧
    ∀ secret, (∃ k, importAesGcmKey subtle (deriveKeys secret).key128 = .ok k) ∧
      (∃ k, importAesGcmKey subtle (deriveKeys secret).key256 = .ok k) ∧
      ∀ type, type ≠ .handShake →
        sealingKey (cryptoOf (deriveKeys secret)) type = some (deriveKeys secret).key128 := by
  refine ⟨fun _ _ _ => lawful.accepts_iff, ?_, ?_⟩
  · intro x nonce source target type payload crypto sized
    exact ⟨wrapPacket_none_iff, fun frame sent => lawful.wrapped sized sent⟩
  · intro secret
    have imported {key : Bytes} (sized : key.length = 16 ∨ key.length = 32) :
        ∃ k, importAesGcmKey subtle key = .ok k := by
      obtain ⟨k, accepted⟩ := lawful.imports key sized
      exact ⟨k, mapError_ok_iff.mpr accepted⟩
    exact ⟨imported (Or.inl (key128_length secret)), imported (Or.inr (key256_length secret)),
      fun type data => derived_sealingKey secret data⟩

/- An instance: one mask and one tag for every key, those of AES-GCM for the key, the nonce and
   the sixteen bytes that are all zero. -/
def vectorMask : Bytes :=
  [0x03, 0x88, 0xda, 0xce, 0x60, 0xb6, 0xa3, 0x92, 0xf3, 0x28, 0xc2, 0xb9, 0x71, 0xb2, 0xfe, 0x78]

def vectorTag : Bytes :=
  [0xab, 0x6e, 0x47, 0xd4, 0x2c, 0xec, 0x13, 0xbd, 0xf5, 0x3a, 0x67, 0xb2, 0x12, 0x57, 0xbd, 0xdf]

def masked : Nat → Bytes → Bytes
  | _, [] => []
  | i, b :: rest => (b ^^^ vectorMask.getD (i % 16) 0) :: masked (i + 1) rest

theorem masked_twice (i : Nat) (bytes : Bytes) : masked i (masked i bytes) = bytes := by
  induction bytes generalizing i with
  | nil => rfl
  | cons b rest ih => simp only [masked, ih, UInt8.xor_assoc, UInt8.xor_self, UInt8.xor_zero]

theorem masked_length (i : Nat) (bytes : Bytes) : (masked i bytes).length = bytes.length := by
  induction bytes generalizing i with
  | nil => rfl
  | cons b rest ih => simp [masked, ih]

def vectorCrypto : SubtleCrypto where
  CryptoKey := Unit
  importKey key :=
    if key.length = 16 ∨ key.length = 32 then .ok () else .error (.rejected "DataError")
  encrypt _ _ data := .ok (masked 0 data ++ vectorTag)
  decrypt _ _ data :=
    if data.drop (data.length - 16) = vectorTag then .ok (masked 0 (data.take (data.length - 16)))
    else .error (.rejected "OperationError")

theorem vectorCrypto_lawful : AesGcm vectorCrypto where
  imports key sized := ⟨(), if_pos sized⟩
  authenticates := by
    constructor
    · intro key nonce text shut _
      simp only [cipherOf, vectorCrypto, Except.ok.injEq]
      constructor
      · intro opened
        split at opened
        · rename_i tagged
          have front := Except.ok.inj opened
          rw [← front, masked_twice, ← tagged, List.take_append_drop]
        · cases opened
      · rintro rfl
        have tag : (masked 0 text ++ vectorTag).length - 16 = (masked 0 text).length := by
          rw [List.length_append]
          exact Nat.add_sub_cancel _ 16
        rw [tag, List.drop_left, List.take_left, if_pos rfl, masked_twice]
    · intro key nonce text shut _ encrypted
      have whole := Except.ok.inj encrypted
      rw [← whole, List.length_append, masked_length]
      rfl

theorem zero_packet_opens :
    ∃ frame, wrapServerPacket (sealingWith wire vectorCrypto (List.replicate 12 0)) 7 .rpcReq
        (List.replicate 16 0) { enabled := true, key128 := List.replicate 16 0 } = some frame ∧
      frame.drop headerSize = vectorMask ++ vectorTag ++ List.replicate 12 0 ∧
      Readable vectorCrypto { enabled := true, key128 := List.replicate 16 0 } myPeerId 7 .rpcReq
        (List.replicate 16 0) frame := by
  refine ⟨_, rfl, by decide, ?_⟩
  exact ((sealed_packets_open vectorCrypto_lawful).2.1 wire _ myPeerId 7 .rpcReq _ _ rfl).2 _ rfl

end RelaySealedPackets
