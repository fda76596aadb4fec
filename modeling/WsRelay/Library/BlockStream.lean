import Mathlib.Data.List.Induction

/- A stream of symbols cut into blocks of a fixed size. The stream absorbs a block as soon as it
   is complete and keeps the rest; a whole message can be absorbed by offsets instead. -/
namespace BlockStream

variable {σ α : Type} (size : Nat) (absorb : σ → List α → σ)

structure Stream (σ α : Type) (size : Nat) where
  state : σ
  tail : List α
  short : tail.length < size

def Stream.push {size : Nat} (absorb : σ → List α → σ) (s : Stream σ α size) (symbol : α) :
    Stream σ α size :=
  if room : (s.tail ++ [symbol]).length < size then ⟨s.state, s.tail ++ [symbol], room⟩
  else ⟨absorb s.state (s.tail ++ [symbol]), [], Nat.zero_lt_of_lt s.short⟩

def Stream.feed {size : Nat} (absorb : σ → List α → σ) (s : Stream σ α size) (chunk : List α) :
    Stream σ α size :=
  chunk.foldl (Stream.push absorb) s

theorem feed_append {size : Nat} (s : Stream σ α size) (chunk rest : List α) :
    s.feed absorb (chunk ++ rest) = (s.feed absorb chunk).feed absorb rest :=
  List.foldl_append

/- The block that starts at an offset. -/
def blockAt (message : List α) (offset : Nat) : List α := (message.drop offset).take size

def absorbBlocks (start : σ) (message : List α) (count : Nat) : σ :=
  (List.range' 0 count size).foldl (fun s offset => absorb s (blockAt size message offset)) start

theorem blockAt_append {message more : List α} {offset : Nat}
    (inside : offset + size ≤ message.length) :
    blockAt size (message ++ more) offset = blockAt size message offset := by
  unfold blockAt
  rw [List.drop_append_of_le_length (by omega), List.take_append_of_le_length]
  rw [List.length_drop]
  omega

theorem absorbBlocks_succ (start : σ) (message : List α) (count : Nat) :
    absorbBlocks size absorb start message (count + 1) =
      absorb (absorbBlocks size absorb start message count)
        (blockAt size message (size * count)) := by
  simp only [absorbBlocks, List.range'_concat, List.foldl_append, List.foldl_cons, List.foldl_nil,
    Nat.zero_add]

theorem absorbBlocks_append (start : σ) {message more : List α} {count : Nat}
    (inside : size * count ≤ message.length) :
    absorbBlocks size absorb start (message ++ more) count =
      absorbBlocks size absorb start message count := by
  induction count with
  | zero => rfl
  | succ count ih =>
    rw [Nat.mul_succ] at inside
    rw [absorbBlocks_succ, absorbBlocks_succ, ih (by omega), blockAt_append size inside]

theorem absorbBlocks_map {τ : Type} {absorb' : τ → List α → τ} {f : σ → τ}
    (commutes : ∀ s block, absorb' (f s) block = f (absorb s block)) (start : σ)
    (message : List α) (count : Nat) :
    absorbBlocks size absorb' (f start) message count =
      f (absorbBlocks size absorb start message count) := by
  induction count with
  | zero => rfl
  | succ count ih => rw [absorbBlocks_succ, absorbBlocks_succ, ih, commutes]

/-- Feeding a message absorbs its complete blocks in order and keeps what is behind them. -/
theorem feed_eq (positive : 0 < size) (start : σ) (message : List α) :
    (Stream.feed absorb ⟨start, [], positive⟩ message).state =
        absorbBlocks size absorb start message (message.length / size) ∧
      (Stream.feed absorb ⟨start, [], positive⟩ message).tail =
        message.drop (size * (message.length / size)) := by
  induction message using List.reverseRecOn with
  | nil => simp [Stream.feed, absorbBlocks]
  | append_singleton message symbol ih =>
    obtain ⟨states, tails⟩ := ih
    have covered : size * (message.length / size) ≤ message.length := Nat.mul_div_le _ _
    have within := Nat.mod_lt message.length positive
    have split := Nat.div_add_mod message.length size
    set count := message.length / size with countDef
    have tailNow : (Stream.feed absorb ⟨start, [], positive⟩ message).tail ++ [symbol] =
        (message ++ [symbol]).drop (size * count) := by
      rw [tails, List.drop_append_of_le_length covered]
    have tailLength : ((message ++ [symbol]).drop (size * count)).length =
        message.length % size + 1 := by
      rw [List.length_drop, List.length_append, List.length_singleton]
      omega
    rw [feed_append, List.length_append, List.length_singleton]
    show (Stream.push absorb _ symbol).state = _ ∧ (Stream.push absorb _ symbol).tail = _
    unfold Stream.push
    by_cases room : message.length % size + 1 < size
    · -- the block is still incomplete
      have same : (message.length + 1) / size = count := by
        rw [Nat.div_eq_iff positive]
        rw [← split, Nat.mul_comm]
        omega
      rw [dif_pos (by rw [tailNow, tailLength]; exact room), same]
      exact ⟨by rw [states, absorbBlocks_append size absorb start covered], tailNow⟩
    · -- the symbol completes block number `count`
      have next : (message.length + 1) / size = count + 1 := by
        rw [Nat.div_eq_iff positive]
        rw [← split, Nat.mul_comm, Nat.mul_succ]
        omega
      have blockLength : ((message ++ [symbol]).drop (size * count)).length = size := by
        rw [tailLength]
        omega
      rw [dif_neg (by rw [tailNow, tailLength]; exact room), next, absorbBlocks_succ,
        absorbBlocks_append size absorb start covered, ← states, tailNow]
      constructor
      · rw [blockAt, List.take_of_length_le (by omega)]
      · symm
        apply List.drop_eq_nil_of_le
        rw [List.length_append, List.length_singleton, Nat.mul_succ]
        omega

end BlockStream
