import Mathlib

/- Self-delimiting byte formats. A format reads back what it wrote and hands on whatever
   stands behind; the law is a field, so every format below carries its own proof. -/
namespace PrefixCodec

structure Format (Value : Type) where
  write : Value → List UInt8
  read : List UInt8 → Option (Value × List UInt8)
  law : ∀ value behind, read (write value ++ behind) = some (value, behind)

variable {A B : Type}

/- A whole message: nothing may stand behind the value. -/
def Format.readAll (f : Format A) (bytes : List UInt8) : Option A :=
  match f.read bytes with
  | some (value, []) => some value
  | _ => none

@[simp] theorem Format.readAll_write (f : Format A) (value : A) :
    f.readAll (f.write value) = some value := by
  have whole := f.law value []
  rw [List.append_nil] at whole
  simp [Format.readAll, whole]

def byte : Format UInt8 where
  write b := [b]
  read
    | [] => none
    | b :: behind => some (b, behind)
  law _ _ := rfl

def Format.followedBy (f : Format A) (g : Format B) : Format (A × B) where
  write value := f.write value.1 ++ g.write value.2
  read bytes := (f.read bytes).bind fun (a, rest) =>
    (g.read rest).map fun (b, behind) => ((a, b), behind)
  law value behind := by
    rw [List.append_assoc, f.law]
    simp [g.law]

/-- A format of parts is one of the values they determine. -/
def Format.as (f : Format A) (build : A → B) (parts : B → A)
    (inverse : ∀ value, build (parts value) = value) : Format B where
  write value := f.write (parts value)
  read bytes := (f.read bytes).map fun (a, behind) => (build a, behind)
  law value behind := by simp [f.law, inverse]

def Format.orElse (f : Format A) (g : Format B) : Format (A ⊕ B) where
  write
    | .inl a => 0 :: f.write a
    | .inr b => 1 :: g.write b
  read
    | 0 :: rest => (f.read rest).map fun (a, behind) => (.inl a, behind)
    | 1 :: rest => (g.read rest).map fun (b, behind) => (.inr b, behind)
    | _ => none
  law value behind := by cases value <;> simp [f.law, g.law]

def nothing : Format Unit where
  write _ := []
  read bytes := some ((), bytes)
  law _ _ := rfl

def Format.optional (f : Format A) : Format (Option A) :=
  (nothing.orElse f).as Sum.getRight? (fun value => match value with
    | none => .inl ()
    | some a => .inr a) (by intro value; cases value <;> rfl)

/- A marker byte 1 announces an item, 0 ends the list. The fuel is the number of bytes left. -/
def writeItems (f : Format A) : List A → List UInt8
  | [] => [0]
  | a :: rest => 1 :: f.write a ++ writeItems f rest

def readItems (f : Format A) : Nat → List UInt8 → Option (List A × List UInt8)
  | _, 0 :: behind => some ([], behind)
  | fuel + 1, 1 :: rest => (f.read rest).bind fun (a, later) =>
      (readItems f fuel later).map fun (items, behind) => (a :: items, behind)
  | _, _ => none

theorem readItems_write (f : Format A) (items : List A) (behind : List UInt8) {fuel : Nat}
    (enough : items.length ≤ fuel) :
    readItems f fuel (writeItems f items ++ behind) = some (items, behind) := by
  induction items generalizing fuel with
  | nil => cases fuel <;> rfl
  | cons a rest ih =>
    cases fuel with
    | zero => simp at enough
    | succ fuel =>
      have room : rest.length ≤ fuel := by simpa using enough
      simp only [writeItems, List.cons_append, List.append_assoc, readItems, f.law,
        Option.bind_some, ih room, Option.map_some]

theorem length_le_writeItems (f : Format A) (items : List A) :
    items.length ≤ (writeItems f items).length := by
  induction items with
  | nil => simp
  | cons a rest ih =>
    simp only [writeItems, List.length_cons, List.cons_append, List.length_append]
    omega

def Format.list (f : Format A) : Format (List A) where
  write := writeItems f
  read bytes := readItems f bytes.length bytes
  law items behind := by
    apply readItems_write
    have shorter := length_le_writeItems f items
    rw [List.length_append]
    omega

/- Little-endian base 256 digits, as many as the width asks for. -/
def digits : Nat → Nat → List UInt8
  | 0, _ => []
  | width + 1, n => UInt8.ofNat n :: digits width (n / 256)

def readDigits : Nat → List UInt8 → Option (Nat × List UInt8)
  | 0, bytes => some (0, bytes)
  | _ + 1, [] => none
  | width + 1, b :: rest => (readDigits width rest).map fun (n, behind) => (b.toNat + 256 * n, behind)

theorem readDigits_digits {width n : Nat} (small : n < 256 ^ width) (behind : List UInt8) :
    readDigits width (digits width n ++ behind) = some (n, behind) := by
  induction width generalizing n with
  | zero =>
    have none : n = 0 := by simpa using small
    simp [readDigits, digits, none]
  | succ width ih =>
    have quotient : n / 256 < 256 ^ width := by
      rw [Nat.div_lt_iff_lt_mul (by omega), ← Nat.pow_succ]
      exact small
    have sum : n % 256 + 256 * (n / 256) = n := Nat.mod_add_div n 256
    simp [readDigits, digits, ih quotient, sum]

def word (width : Nat) : Format (Fin (256 ^ width)) where
  write n := digits width n
  read bytes := (readDigits width bytes).bind fun (n, behind) =>
    if small : n < 256 ^ width then some (⟨n, small⟩, behind) else none
  law n behind := by simp [readDigits_digits n.isLt]

def uint32 : Format UInt32 :=
  (word 4).as (fun n => UInt32.ofNat n.val) (fun v => ⟨v.toNat, v.toNat_lt⟩) (by intro v; simp)

def uint64 : Format UInt64 :=
  (word 8).as (fun n => UInt64.ofNat n.val) (fun v => ⟨v.toNat, v.toNat_lt⟩) (by intro v; simp)

def int32 : Format Int32 :=
  uint32.as (fun v => v.toInt32) (fun v => v.toUInt32) (by intro v; simp)

def int64 : Format Int64 :=
  uint64.as (fun v => v.toInt64) (fun v => v.toUInt64) (by intro v; simp)

def bool : Format Bool :=
  byte.as (fun b => b = 1) (fun value => if value then 1 else 0) (by decide)

def char : Format Char :=
  uint32.as (fun v => Char.ofNat v.toNat) (fun c => c.val) (by intro c; exact Char.ofNat_toNat c)

def text : Format String :=
  char.list.as String.ofList String.toList (by intro s; simp)

def bytes : Format (List UInt8) := byte.list

end PrefixCodec
