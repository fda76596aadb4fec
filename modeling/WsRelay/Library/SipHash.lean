import Mathlib.Data.List.Induction
import WsRelay.Library.BlockStream
import WsRelay.Library.LittleEndian

/- SipHash-c-d as a stream. A hasher keeps at most seven bytes between two writes and absorbs
   each word as soon as it is complete. Lanes are bit vectors and rotate as such, and a word is
   the number that its bytes spell. -/
namespace SipHash
open BlockStream LittleEndian

abbrev Word := BitVec 64

structure Lanes where
  v0 : Word
  v1 : Word
  v2 : Word
  v3 : Word
  deriving DecidableEq

/- Add, rotate, xor: the sum, and the rotated second lane xored with it. -/
def mix (bits : Nat) (a b : Word) : Word × Word := (a + b, b.rotateLeft bits ^^^ (a + b))

def Lanes.round (v : Lanes) : Lanes :=
  let (a, b) := mix 13 v.v0 v.v1
  let (c, d) := mix 16 v.v2 v.v3
  let (a, d) := mix 21 (a.rotateLeft 32) d
  let (c, b) := mix 17 c b
  ⟨a, b, c.rotateLeft 32, d⟩

def Lanes.rounds : Nat → Lanes → Lanes
  | 0, v => v
  | count + 1, v => v.round.rounds count

/- The four words that the text spells, most significant byte first. -/
def seedText : String := "somepseudorandomlygeneratedbytes"

def seedWord (i : Nat) : Word :=
  BitVec.ofNat 64 (value ((((seedText.toList.drop (8 * i)).take 8).map fun c =>
    UInt8.ofNat c.toNat).reverse))

def Lanes.start (k0 k1 : Word) : Lanes :=
  ⟨k0 ^^^ seedWord 0, k1 ^^^ seedWord 1, k0 ^^^ seedWord 2, k1 ^^^ seedWord 3⟩

def Lanes.absorb (c : Nat) (v : Lanes) (word : Word) : Lanes :=
  let mixed := Lanes.rounds c { v with v3 := v.v3 ^^^ word }
  { mixed with v0 := mixed.v0 ^^^ word }

def Lanes.close (d : Nat) (v : Lanes) : Word :=
  let closed := Lanes.rounds d { v with v2 := v.v2 ^^^ 0xff }
  closed.v0 ^^^ closed.v1 ^^^ closed.v2 ^^^ closed.v3

def word (bytes : List UInt8) : Word := BitVec.ofNat 64 (value bytes)

structure Hasher where
  stream : Stream Lanes UInt8 8
  length : Nat

def Hasher.start (k0 k1 : Word) : Hasher := ⟨⟨Lanes.start k0 k1, [], by decide⟩, 0⟩

def absorbBytes (c : Nat) (v : Lanes) (bytes : List UInt8) : Lanes := v.absorb c (word bytes)

def Hasher.write (c : Nat) (h : Hasher) (chunk : List UInt8) : Hasher :=
  ⟨h.stream.feed (absorbBytes c) chunk, h.length + chunk.length⟩

/- The last word holds the rest of the bytes, and in its top byte the length modulo 256. -/
def Hasher.finish (c d : Nat) (h : Hasher) : Word :=
  (h.stream.state.absorb c
    (word h.stream.tail ||| (BitVec.ofNat 64 (h.length % 256) <<< 56))).close d

theorem write_append (c : Nat) (h : Hasher) (chunk rest : List UInt8) :
    h.write c (chunk ++ rest) = (h.write c chunk).write c rest := by
  simp only [Hasher.write, feed_append, List.length_append, Nat.add_assoc]

/-- What a hasher answers after a whole message: the complete words in order, then the last. -/
theorem finish_message (c d : Nat) (k0 k1 : Word) (message : List UInt8) :
    ((Hasher.start k0 k1).write c message).finish c d =
      ((absorbBlocks 8 (absorbBytes c) (Lanes.start k0 k1) message (message.length / 8)).absorb c
        (word (message.drop (8 * (message.length / 8))) |||
          (BitVec.ofNat 64 (message.length % 256) <<< 56))).close d := by
  obtain ⟨absorbed, kept⟩ := feed_eq 8 (absorbBytes c) (by omega) (Lanes.start k0 k1) message
  simp only [Hasher.finish, Hasher.write, Hasher.start, Nat.zero_add]
  rw [absorbed, kept]

end SipHash
