import WsRelay.RouteState

/- SipHash-1-3, the hasher over it, and the digests and keys of a network secret. -/
namespace RelayCrypto
open RelayProtocol RelayRouteState

def rotl64 (x b : UInt64) : UInt64 := (x <<< b) ||| (x >>> (64 - b))

/- The array v of siphash_1_3. -/
structure SipState where
  v0 : UInt64
  v1 : UInt64
  v2 : UInt64
  v3 : UInt64
  deriving DecidableEq, Repr

def sipRound (v : SipState) : SipState :=
  let v0 := v.v0 + v.v1
  let v1 := rotl64 v.v1 13
  let v1 := v1 ^^^ v0
  let v0 := rotl64 v0 32
  let v2 := v.v2 + v.v3
  let v3 := rotl64 v.v3 16
  let v3 := v3 ^^^ v2
  let v0 := v0 + v3
  let v3 := rotl64 v3 21
  let v3 := v3 ^^^ v0
  let v2 := v2 + v1
  let v1 := rotl64 v1 17
  let v1 := v1 ^^^ v2
  let v2 := rotl64 v2 32
  ⟨v0, v1, v2, v3⟩

/- u64::from_le_bytes. -/
def u64FromLeBytes (bytes : Bytes) : UInt64 :=
  bytes.foldr (fun byte word => byte.toUInt64 ||| (word <<< 8)) 0

/- What is missing of the eight bytes is zero. -/
def readU64Le (msg : Bytes) (offset : Nat) : UInt64 :=
  let len := min (msg.length - offset) 8
  u64FromLeBytes ((msg.drop offset).take len ++ List.replicate (8 - len) 0)

/- One message word: xored into v3, one round, xored into v0. -/
def mixWord (v : SipState) (m : UInt64) : SipState :=
  let v := sipRound { v with v3 := v.v3 ^^^ m }
  { v with v0 := v.v0 ^^^ m }

def initialState (k0 k1 : UInt64) : SipState where
  v0 := 0x736f6d6570736575 ^^^ k0
  v1 := 0x646f72616e646f6d ^^^ k1
  v2 := 0x6c7967656e657261 ^^^ k0
  v3 := 0x7465646279746573 ^^^ k1

/- The last word is absorbed, then v2 is marked and three rounds close the state. -/
def finalize (v : SipState) (m : UInt64) : UInt64 :=
  let v := mixWord v m
  let v := sipRound (sipRound (sipRound { v with v2 := v.v2 ^^^ 0xff }))
  v.v0 ^^^ v.v1 ^^^ v.v2 ^^^ v.v3

def siphash13 (msg : Bytes) (k0 k1 : UInt64) : UInt64 :=
  let b := UInt64.ofNat msg.length <<< 56
  let fullLen := msg.length - msg.length % 8
  let v := (List.range' 0 (fullLen / 8) 8).foldl (fun v i => mixWord v (readU64Le msg i))
    (initialState k0 k1)
  let left := msg.length % 8
  let m := (List.range left).foldl
    (fun m i => m ||| ((msg.getD (fullLen + i) 0).toUInt64 <<< UInt64.ofNat (8 * i))) b
  finalize v m

/- The std hasher of the peers starts from the same state. -/
example : siphash13 [] 0 0 = 15130871412783076140 := by decide

structure SipHashHasher where
  parts : List Bytes := []
  total : Nat := 0
  deriving DecidableEq, Repr

def SipHashHasher.new : SipHashHasher := {}

def SipHashHasher.write (h : SipHashHasher) (buf : Bytes) : SipHashHasher :=
  if buf.isEmpty then h
  else { total := (h.total + buf.length) % usizeSize, parts := h.parts ++ [buf] }

/- The total is only the capacity of the joined message. -/
def SipHashHasher.finish (h : SipHashHasher) : UInt64 :=
  if h.parts.length = 1 then siphash13 (h.parts.headD []) 0 0
  else siphash13 (h.parts.foldl (fun msg p => msg ++ p) []) 0 0

def u64ToBeBytes (x : UInt64) : Bytes :=
  [((x >>> 56) &&& 0xff).toUInt8, ((x >>> 48) &&& 0xff).toUInt8, ((x >>> 40) &&& 0xff).toUInt8,
    ((x >>> 32) &&& 0xff).toUInt8, ((x >>> 24) &&& 0xff).toUInt8, ((x >>> 16) &&& 0xff).toUInt8,
    ((x >>> 8) &&& 0xff).toUInt8, (x &&& 0xff).toUInt8]

/- str::as_bytes. -/
def asBytes (s : String) : Bytes := s.toUTF8.data.toList

/- One shard: the hash so far is appended, and the whole digest so far is hashed on. -/
def digestShard (acc : SipHashHasher × Bytes) (i : Nat) : SipHashHasher × Bytes :=
  let digest := acc.2 ++ u64ToBeBytes acc.1.finish
  (acc.1.write (digest.take ((i + 1) * 8)), digest)

/- `none` is the failed assertion on the length. -/
def generateDigestFromStr (str1 str2 : String) (digestLen : Nat) : Option Bytes :=
  if 0 < digestLen ∧ digestLen % 8 = 0 then
    let hasher := (SipHashHasher.new.write (asBytes str1)).write (asBytes str2)
    some ((List.range (digestLen / 8)).foldl digestShard (hasher, [])).2
  else none

structure DerivedKeys where
  key128 : Bytes
  key256 : Bytes
  deriving DecidableEq, Repr

/- copy_from_slice into the slice of dst at an offset. -/
def copyAt (dst : Bytes) (start : Nat) (slice : Bytes) : Bytes :=
  dst.take start ++ slice ++ dst.drop (start + slice.length)

def key256Shard (acc : SipHashHasher × Bytes) (i : Nat) : SipHashHasher × Bytes :=
  let chunkStart := i * 8
  let hasher := if 0 < chunkStart then acc.1.write (acc.2.take chunkStart) else acc.1
  let hasher := hasher.write [UInt8.ofNat i]
  (hasher, copyAt acc.2 chunkStart (u64ToBeBytes hasher.finish))

def deriveKeys (networkSecret : String) : DerivedKeys :=
  let secret := asBytes networkSecret
  let hasher := SipHashHasher.new.write secret
  let first := u64ToBeBytes hasher.finish
  let key128 := copyAt (List.replicate 16 0) 0 first
  let hasher := hasher.write (key128.take 8)
  let second := u64ToBeBytes hasher.finish
  let key128 := copyAt key128 8 second
  let hasher256 := (SipHashHasher.new.write secret).write (asBytes "easytier-256bit-key")
  { key128
    key256 := ((List.range 4).foldl key256Shard (hasher256, List.replicate 32 0)).2 }

/- AES-GCM. The Web Crypto API is a parameter; each call of it may throw or reject. -/
inductive JsFailure where
  | thrown (value : String) : JsFailure
  | rejected (value : String) : JsFailure
  deriving DecidableEq, Repr

def JsFailure.text (call : String) : JsFailure → String
  | .thrown value => call ++ ": " ++ value
  | .rejected value => call ++ " await: " ++ value

/- The tag length is 128 bits in every call; the iv comes before the data. -/
structure SubtleCrypto where
  CryptoKey : Type
  importKey : Bytes → Except JsFailure CryptoKey
  encrypt : CryptoKey → Bytes → Bytes → Except JsFailure Bytes
  decrypt : CryptoKey → Bytes → Bytes → Except JsFailure Bytes

def importAesGcmKey (subtle : SubtleCrypto) (keyBytes : Bytes) : Except String subtle.CryptoKey :=
  (subtle.importKey keyBytes).mapError (·.text "import_key")

/- The nonce is the draw of get_random_bytes(12). -/
def encryptAesGcm (subtle : SubtleCrypto) (nonce payload key : Bytes) : Except String Bytes := do
  let cryptoKey ← importAesGcmKey subtle key
  let ciphertextWithTag ← (subtle.encrypt cryptoKey nonce payload).mapError (·.text "encrypt")
  return ciphertextWithTag ++ nonce

def decryptAesGcm (subtle : SubtleCrypto) (payload key : Bytes) : Except String Bytes := do
  if payload.length < 28 then
    throw ("encrypted payload too short: " ++ toString payload.length)
  let textLen := payload.length - 28
  let ciphertextWithTag := payload.take (textLen + 16)
  let nonce := payload.drop (textLen + 16)
  let cryptoKey ← importAesGcmKey subtle key
  (subtle.decrypt cryptoKey nonce ciphertextWithTag).mapError (·.text "decrypt")

end RelayCrypto
