import Mathlib.Data.List.TakeDrop

/- Encryption that authenticates, and the box that carries its nonce behind the text. What
   opens a box is determined by its bytes; the cipher and its errors are arbitrary. -/
namespace SealedText

variable {Key Error : Type}

structure Cipher (Key Error : Type) where
  encrypt : Key → List UInt8 → List UInt8 → Except Error (List UInt8)
  decrypt : Key → List UInt8 → List UInt8 → Except Error (List UInt8)

/-- For nonces of the given size, decryption accepts exactly what encryption gives out, which
    is longer than the text by the tag. -/
structure Cipher.Authenticates (c : Cipher Key Error) (nonceSize tagSize : Nat) : Prop where
  opens : ∀ key nonce text shut, nonce.length = nonceSize →
    (c.decrypt key nonce shut = .ok text ↔ c.encrypt key nonce text = .ok shut)
  tagged : ∀ key nonce text shut, nonce.length = nonceSize →
    c.encrypt key nonce text = .ok shut → shut.length = text.length + tagSize

def Cipher.toBox (c : Cipher Key Error) (key : Key) (nonce text : List UInt8) :
    Except Error (List UInt8) := (c.encrypt key nonce text).map (· ++ nonce)

def Cipher.ofBox (c : Cipher Key Error) (nonceSize : Nat) (key : Key) (box : List UInt8) :
    Except Error (List UInt8) :=
  c.decrypt key (box.drop (box.length - nonceSize)) (box.take (box.length - nonceSize))

variable {c : Cipher Key Error} {nonceSize tagSize : Nat} {key : Key} {nonce text box : List UInt8}

theorem toBox_iff : c.toBox key nonce text = .ok box ↔
    ∃ shut, c.encrypt key nonce text = .ok shut ∧ shut ++ nonce = box := by
  unfold Cipher.toBox
  cases encrypted : c.encrypt key nonce text with
  | error e => simp [Except.map]
  | ok shut => simp [Except.map]

theorem Cipher.Authenticates.box_length (auth : c.Authenticates nonceSize tagSize)
    (sized : nonce.length = nonceSize) (made : c.toBox key nonce text = .ok box) :
    box.length = text.length + tagSize + nonceSize := by
  obtain ⟨shut, encrypted, rfl⟩ := toBox_iff.mp made
  rw [List.length_append, auth.tagged key nonce text shut sized encrypted, sized]

/-- A box opens to a text exactly when some nonce seals that text into it. -/
theorem Cipher.Authenticates.ofBox_iff (auth : c.Authenticates nonceSize tagSize)
    (long : nonceSize ≤ box.length) :
    c.ofBox nonceSize key box = .ok text ↔
      ∃ nonce, nonce.length = nonceSize ∧ c.toBox key nonce text = .ok box := by
  have behind : (box.drop (box.length - nonceSize)).length = nonceSize := by
    rw [List.length_drop]
    omega
  constructor
  · intro opened
    have encrypted := (auth.opens key _ text _ behind).mp opened
    exact ⟨_, behind, toBox_iff.mpr ⟨_, encrypted, List.take_append_drop _ box⟩⟩
  · rintro ⟨nonce, sized, made⟩
    obtain ⟨shut, encrypted, rfl⟩ := toBox_iff.mp made
    have front : (shut ++ nonce).length - nonceSize = shut.length := by
      rw [List.length_append]
      omega
    have opened := (auth.opens key nonce text shut sized).mpr encrypted
    rwa [Cipher.ofBox, front, List.drop_left, List.take_left]

theorem Cipher.Authenticates.box_long (auth : c.Authenticates nonceSize tagSize)
    (sized : nonce.length = nonceSize) (made : c.toBox key nonce text = .ok box) :
    tagSize + nonceSize ≤ box.length := by
  have whole := auth.box_length sized made
  omega

end SealedText
