import Mathlib

/- Textual renderings: decimal numbers, lower-case hex and separated lists, with
   the facts that make them injective, and the parser of unsigned decimals. -/
namespace PlainText

def hexDigit (n : Nat) : Char := "0123456789abcdef".toList.getD n '0'

def hexChars (bytes : List UInt8) : List Char :=
  bytes.flatMap fun b => [hexDigit (b.toNat / 16), hexDigit (b.toNat % 16)]

def hexText (bytes : List UInt8) : String := String.ofList (hexChars bytes)

def joined (separator : String) (parts : List String) : String := separator.intercalate parts

def digitValue (c : Char) : Option Nat := if c.isDigit then some (c.toNat - '0'.toNat) else none

def digitsValue : List Char → Option Nat
  | [] => none
  | c :: cs => (c :: cs).foldl (fun total d =>
      total.bind fun v => (digitValue d).map fun k => 10 * v + k) (some 0)

/-- Unsigned decimal parsing: an optional plus sign, at least one digit, value below `limit`. -/
def parseUnsigned (limit : Nat) (text : String) : Option Nat :=
  let digits := match text.toList with
    | '+' :: rest => rest
    | chars => chars
  (digitsValue digits).filter (· < limit)

theorem decimal_injective {a b : Nat} (same : a.repr = b.repr) : a = b := by
  have digits : Nat.toDigits 10 a = Nat.toDigits 10 b := by
    rw [← Nat.toList_repr, ← Nat.toList_repr, same]
  have read := congrArg (fun chars => Nat.ofDigitChars 10 chars 0) digits
  simpa using read

theorem decimal_no_char {c : Char} (notDigit : c.isDigit = false) (n : Nat) :
    c ∉ n.repr.toList := by
  intro member
  rw [Nat.toList_repr] at member
  have digit := Nat.isDigit_of_mem_toDigits (by omega) (by omega) member
  simp [digit] at notDigit

theorem digits_fold {chars : List Char} (digits : ∀ c ∈ chars, c.isDigit = true) (init : Nat) :
    chars.foldl (fun total d => total.bind fun v => (digitValue d).map fun k => 10 * v + k)
      (some init) = some (Nat.ofDigitChars 10 chars init) := by
  induction chars generalizing init with
  | nil => simp
  | cons c rest ih =>
    have first : digitValue c = some (c.toNat - '0'.toNat) := by
      simp [digitValue, digits c (by simp)]
    rw [List.foldl_cons, Nat.ofDigitChars_cons, ← ih fun d listed => digits d (by simp [listed])]
    simp only [first, Option.bind_some, Option.map_some]

/-- The decimal text of a number below the limit is read back. -/
theorem parseUnsigned_repr {limit n : Nat} (below : n < limit) :
    parseUnsigned limit n.repr = some n := by
  have chars : n.repr.toList = Nat.toDigits 10 n := Nat.toList_repr
  have digits : ∀ c ∈ Nat.toDigits 10 n, c.isDigit = true := by
    intro c listed
    exact Nat.isDigit_of_mem_toDigits (by omega) (by omega) listed
  have whole := digits_fold digits 0
  rw [Nat.ofDigitChars_ten_toDigits] at whole
  unfold parseUnsigned
  rw [chars]
  cases split : Nat.toDigits 10 n with
  | nil => exact absurd split Nat.toDigits_ne_nil
  | cons c rest =>
    rw [split] at digits whole
    have digit := digits c (by simp)
    have plain : (match c :: rest with
        | '+' :: rest => rest
        | chars => chars) = c :: rest := by
      split
      · rename_i same
        cases same
        cases digit
      · rfl
    simp only [plain, digitsValue, whole]
    simp [Option.filter, below]

theorem hexDigit_injective : ∀ {a : Nat}, a < 16 → ∀ {b : Nat}, b < 16 →
    hexDigit a = hexDigit b → a = b := by
  decide

theorem hexDigit_ne_colon {a : Nat} (ha : a < 16) : hexDigit a ≠ ':' := by
  revert a
  decide

theorem hexDigit_ne_bar {a : Nat} (ha : a < 16) : hexDigit a ≠ '|' := by
  revert a
  decide

/-- Records of one width, written one after the other, can be read back. -/
theorem records_injective {A B : Type*} {record : A → List B} {width : Nat} (positive : 0 < width)
    (sized : ∀ a, (record a).length = width) (injective : Function.Injective record) :
    Function.Injective fun as : List A => as.flatMap record := by
  intro xs
  induction xs with
  | nil =>
    intro ys same
    cases ys with
    | nil => rfl
    | cons y ys =>
      have lengths := congrArg List.length same
      simp only [List.flatMap_nil, List.flatMap_cons, List.length_nil, List.length_append,
        sized] at lengths
      omega
  | cons x xs ih =>
    intro ys same
    cases ys with
    | nil =>
      have lengths := congrArg List.length same
      simp only [List.flatMap_nil, List.flatMap_cons, List.length_nil, List.length_append,
        sized] at lengths
      omega
    | cons y ys =>
      simp only [List.flatMap_cons] at same
      obtain ⟨first, rest⟩ := List.append_inj same ((sized x).trans (sized y).symm)
      rw [injective first, ih rest]

theorem hexChars_injective : Function.Injective hexChars := by
  apply records_injective (by omega : 0 < 2)
  · intro b
    rfl
  · intro a b same
    simp only [List.cons.injEq, and_true] at same
    obtain ⟨high, low⟩ := same
    have aSmall := a.toNat_lt
    have bSmall := b.toNat_lt
    have highEq := hexDigit_injective (by omega) (by omega) high
    have lowEq := hexDigit_injective (by omega) (by omega) low
    exact UInt8.toNat_inj.mp (by omega)

theorem hexText_injective : Function.Injective hexText := by
  intro xs ys same
  exact hexChars_injective (String.ofList_injective same)

theorem hexText_no_char {c : Char} (foreign : ∀ {a : Nat}, a < 16 → hexDigit a ≠ c)
    (bytes : List UInt8) : c ∉ (hexText bytes).toList := by
  rw [hexText, String.toList_ofList, hexChars, List.mem_flatMap]
  rintro ⟨b, -, member⟩
  have small := b.toNat_lt
  simp only [List.mem_cons, List.not_mem_nil, or_false] at member
  rcases member with high | low
  · exact foreign (by omega) high.symm
  · exact foreign (by omega) low.symm

theorem hexText_no_colon (bytes : List UInt8) : ':' ∉ (hexText bytes).toList :=
  hexText_no_char hexDigit_ne_colon bytes

theorem hexText_no_bar (bytes : List UInt8) : '|' ∉ (hexText bytes).toList :=
  hexText_no_char hexDigit_ne_bar bytes

theorem split_first_injective {c : Char} {a a' b b' : List Char} (free : c ∉ a) (free' : c ∉ a')
    (same : a ++ c :: b = a' ++ c :: b') : a = a' ∧ b = b' := by
  induction a generalizing a' with
  | nil =>
    cases a' with
    | nil => simpa using same
    | cons x rest =>
      simp only [List.nil_append, List.cons_append, List.cons.injEq] at same
      simp [same.1] at free'
  | cons x rest ih =>
    cases a' with
    | nil =>
      simp only [List.nil_append, List.cons_append, List.cons.injEq] at same
      simp [same.1] at free
    | cons y others =>
      simp only [List.cons_append, List.cons.injEq] at same
      simp only [List.mem_cons, not_or] at free free'
      obtain ⟨front, back⟩ := ih free.2 free'.2 same.2
      exact ⟨by rw [same.1, front], back⟩

theorem split_last_injective {c : Char} {a a' b b' : List Char} (free : c ∉ b) (free' : c ∉ b')
    (same : a ++ c :: b = a' ++ c :: b') : a = a' ∧ b = b' := by
  have reversed : b.reverse ++ c :: a.reverse = b'.reverse ++ c :: a'.reverse := by
    have := congrArg List.reverse same
    simpa using this
  obtain ⟨back, front⟩ := split_first_injective (by simpa using free) (by simpa using free') reversed
  exact ⟨List.reverse_injective front, List.reverse_injective back⟩

/-- A separated list can be read back when no part contains the separator and there
    is at least one part. -/
theorem joined_injective {c : Char} {xs ys : List String} (xsFree : ∀ x ∈ xs, c ∉ x.toList)
    (ysFree : ∀ y ∈ ys, c ∉ y.toList) (xsNonempty : xs ≠ []) (ysNonempty : ys ≠ [])
    (same : joined (String.ofList [c]) xs = joined (String.ofList [c]) ys) : xs = ys := by
  have chars : [c].intercalate (xs.map String.toList) = [c].intercalate (ys.map String.toList) := by
    have := congrArg String.toList same
    simpa [joined] using this
  have split := congrArg (List.splitOn c) chars
  rw [List.splitOn_intercalate c (by simpa using xsFree) (by simpa using xsNonempty),
    List.splitOn_intercalate c (by simpa using ysFree) (by simpa using ysNonempty)] at split
  exact List.map_injective_iff.mpr (fun _ _ => String.toList_inj.mp) split

end PlainText
