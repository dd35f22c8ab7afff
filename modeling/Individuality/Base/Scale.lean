import Individuality.Base.Fallible
import Mathlib.Tactic.SplitIfs
import Mathlib.Algebra.Group.Nat.Defs

/-
  The SCALE codec: integers of a fixed width, compact
  integers, options and sequences, and how long they are.

  Main declaration: `fixed`
-/

namespace Individuality.Scale

/- The low bytes of a number, the lowest first. -/
def fixed (width n : Nat) : List (BitVec 8) :=
  (List.range width).map fun i => BitVec.ofNat 8 (n >>> (8 * i))

@[simp] theorem length_fixed (width n : Nat) : (fixed width n).length = width := by
  simp [fixed]

--
-- Compact Integers
--

/- A 32-bit number with its mode in the lowest two bits. -/
def compact (n : Nat) : List (BitVec 8) :=
  if n < 2 ^ 6 then fixed 1 (4 * n)
  else if n < 2 ^ 14 then fixed 2 (4 * n + 1)
  else if n < 2 ^ 30 then fixed 4 (4 * n + 2)
  else 3 :: fixed 4 n

def compactSize (n : Nat) : Nat :=
  if n < 2 ^ 6 then 1
  else if n < 2 ^ 14 then 2
  else if n < 2 ^ 30 then 4
  else 5

@[simp] theorem length_compact (n : Nat) : (compact n).length = compactSize n := by
  unfold compact compactSize
  split_ifs <;> simp

theorem compactSize_pos (n : Nat) : 0 < compactSize n := by
  unfold compactSize
  split_ifs <;> decide

theorem compactSize_le (n : Nat) : compactSize n ≤ 5 := by
  unfold compactSize
  split_ifs <;> decide

theorem compactSize_mono {m n : Nat} (hLe : m ≤ n) :
    compactSize m ≤ compactSize n := by
  unfold compactSize
  split_ifs <;> omega

--
-- Options and Sequences
--

variable {α : Type}

def option (encode : α → List (BitVec 8)) :
    Option α → List (BitVec 8)
  | none => [0]
  | some a => 1 :: encode a

/-
  A sequence behind the number of its elements.  One that has
  more than a 32-bit number of them can not be encoded.
-/
def sequence? (encode : α → List (BitVec 8)) (xs : List α) : Option (List (BitVec 8)) :=
  if xs.length ≤ u32Max then
    some (compact xs.length ++ xs.flatMap encode)
  else
    none

theorem length_sequence? {encode : α → List (BitVec 8)} {xs : List α} {encoded : List (BitVec 8)}
    (hEncoded : sequence? encode xs = some encoded) :
    xs.length ≤ u32Max ∧ encoded.length = compactSize xs.length + (xs.flatMap encode).length := by
  unfold sequence? at hEncoded
  split_ifs at hEncoded with hFits
  rw [Option.some.injEq] at hEncoded
  rw [← hEncoded, List.length_append, length_compact]
  exact ⟨hFits, rfl⟩

/- Bytes are encoded as they are, behind their number. -/
def bytes? : List (BitVec 8) → Option (List (BitVec 8)) :=
  sequence? fun b => [b]

theorem length_bytes? {bytes encoded : List (BitVec 8)} (hEncoded : bytes? bytes = some encoded) :
    bytes.length ≤ u32Max ∧ encoded.length = compactSize bytes.length + bytes.length := by
  have hLength := length_sequence? hEncoded
  rw [List.flatMap_singleton'] at hLength
  exact hLength

end Individuality.Scale
