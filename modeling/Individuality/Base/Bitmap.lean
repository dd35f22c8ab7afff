import Mathlib.Data.Finset.Card
import Mathlib.Data.Finset.Range
import Mathlib.Data.List.Range
import Mathlib.Algebra.GroupWithZero.Nat

/-
  Bitmaps stored as bytes, the least significant bit first:
  reads, writes, and the number of bits that are set.

  Main declaration: `Bitmap`
-/

/- A string of bytes, read as bits. -/
abbrev Bitmap :=
  List (BitVec 8)

namespace Bitmap

--
-- Reads and Writes
--

/- Bit `k` of a byte is set. -/
def byteHas (bits : BitVec 8) (k : Nat) : Bool :=
  decide (bits &&& (1#8 <<< k) ≠ 0#8)

def isSet (bitmap : Bitmap) (i : Nat) : Bool :=
  (bitmap[i / 8]?).any fun bits => byteHas bits (i % 8)

/- Fill up with zero bytes, or cut, to a length in bytes. -/
def resize (bitmap : Bitmap) (bytes : Nat) : Bitmap :=
  bitmap.take bytes ++ List.replicate (bytes - bitmap.length) 0#8

/- Set a bit, if the bitmap is long enough to hold it. -/
def setBit (bitmap : Bitmap) (i : Nat) : Bitmap :=
  bitmap.modify (i / 8) fun bits => bits ||| (1#8 <<< (i % 8))

theorem byteHas_eq_getLsbD {k : Nat} (bits : BitVec 8) (hLt : k < 8) :
    byteHas bits k = bits.getLsbD k := by
  unfold byteHas
  rw [← BitVec.twoPow_eq, BitVec.and_twoPow]
  have hPow : BitVec.twoPow 8 k ≠ 0#8 := by
    intro hZero
    have hBit : (BitVec.twoPow 8 k).getLsbD k = false := by
      rw [hZero, BitVec.getLsbD_zero]
    simp [hLt] at hBit
  cases hBit : bits.getLsbD k <;> simp [hPow]

theorem byteHas_or {k l : Nat} (bits : BitVec 8) (hK : k < 8) (hL : l < 8) :
    byteHas (bits ||| (1#8 <<< l)) k = (byteHas bits k || decide (k = l)) := by
  rw [byteHas_eq_getLsbD _ hK, byteHas_eq_getLsbD _ hK, ← BitVec.twoPow_eq, BitVec.getLsbD_or,
    BitVec.getLsbD_twoPow]
  simp [hL, eq_comm]

@[simp] theorem byteHas_zero (k : Nat) : byteHas 0#8 k = false := by
  simp [byteHas]

@[simp] theorem isSet_nil (i : Nat) : isSet [] i = false := rfl

variable {i : Nat}

/- No bit is set behind the end of a bitmap. -/
theorem lt_of_isSet {bitmap : Bitmap} (hSet : bitmap.isSet i = true) :
    i < 8 * bitmap.length := by
  unfold isSet at hSet
  rw [Option.any_eq_true] at hSet
  rcases hSet with ⟨bits, hGet, _⟩
  have hLt := (List.getElem?_eq_some_iff.mp hGet).1
  omega

/- Widening keeps every bit. -/
theorem isSet_resize {bitmap : Bitmap} {bytes : Nat} (hLe : bitmap.length ≤ bytes) (i : Nat) :
    (bitmap.resize bytes).isSet i = bitmap.isSet i := by
  unfold resize
  rw [List.take_of_length_le hLe]
  unfold isSet
  by_cases hLt : i / 8 < bitmap.length
  · rw [List.getElem?_append_left hLt]
  · have hGe : bitmap.length ≤ i / 8 := Nat.le_of_not_lt hLt
    rw [List.getElem?_append_right hGe, List.getElem?_eq_none hGe, List.getElem?_replicate]
    by_cases hIn : i / 8 - bitmap.length < bytes - bitmap.length <;> simp [hIn]

theorem length_resize (bitmap : Bitmap) (bytes : Nat) :
    (bitmap.resize bytes).length = bytes := by
  simp [resize]
  omega

@[simp] theorem length_setBit (bitmap : Bitmap) (i : Nat) :
    (bitmap.setBit i).length = bitmap.length := by
  simp [setBit]

/- Setting a bit sets this bit and no other. -/
theorem isSet_setBit {bitmap : Bitmap} (hLt : i / 8 < bitmap.length) (j : Nat) :
    (bitmap.setBit i).isSet j = (bitmap.isSet j || decide (j = i)) := by
  unfold isSet setBit
  rw [List.getElem?_modify]
  by_cases hByte : i / 8 = j / 8
  · cases hGet : bitmap[j / 8]? with
    | none =>
      have hLe := List.getElem?_eq_none_iff.mp hGet
      omega
    | some bits =>
      have hEq : j % 8 = i % 8 ↔ j = i := by omega
      simp only [hByte, ↓reduceIte, Option.map_eq_map, Option.map_some, Option.any_some]
      rw [byteHas_or bits (Nat.mod_lt j (by omega)) (Nat.mod_lt i (by omega))]
      simp only [hEq]
  · have hNe : j ≠ i := by
      rintro rfl
      exact hByte rfl
    simp [hByte, hNe]

--
-- Counting
--

def countOnes (bits : BitVec 8) : Nat :=
  (List.range 8).countP (byteHas bits)

/- The number of bits that are set. -/
def ones (bitmap : Bitmap) : Nat :=
  (bitmap.map countOnes).sum

theorem ones_eq_countP (bitmap : Bitmap) : bitmap.ones
      = (List.range (8 * bitmap.length)).countP
          bitmap.isSet := by
  induction bitmap with
  | nil => rfl
  | cons bits rest ih =>
    have hHead : (List.range 8).countP (isSet (bits :: rest)) = countOnes bits := by
      apply List.countP_congr
      intro k hMem
      rw [List.mem_range] at hMem
      simp [isSet, Nat.div_eq_of_lt hMem, Nat.mod_eq_of_lt hMem]
    have hTail : (List.range (8 * rest.length)).countP (isSet (bits :: rest) ∘ (8 + ·))
          = ones rest := by
      rw [ih]
      apply List.countP_congr
      intro k _
      have hDiv : (8 + k) / 8 = k / 8 + 1 := by omega
      have hMod : (8 + k) % 8 = k % 8 := by omega
      simp [isSet, hDiv, hMod]
    have hLength : 8 * (bits :: rest).length = 8 + 8 * rest.length := by
      simp only [List.length_cons]
      omega
    rw [hLength, List.range_add, List.countP_append, List.countP_map, hHead, hTail]
    rfl

/- The bits that are set, as a set of indices. -/
def indices (bitmap : Bitmap) : Finset Nat :=
  (Finset.range (8 * bitmap.length)).filter fun i => bitmap.isSet i = true

theorem mem_indices_iff {bitmap : Bitmap} :
    i ∈ bitmap.indices ↔ bitmap.isSet i = true := by
  unfold indices
  rw [Finset.mem_filter, Finset.mem_range]
  exact ⟨And.right, fun hSet => ⟨lt_of_isSet hSet, hSet⟩⟩

theorem ones_eq_card (bitmap : Bitmap) : bitmap.ones = bitmap.indices.card := by
  rw [ones_eq_countP, List.countP_eq_length_filter]
  have hDecide : (fun i => decide (bitmap.isSet i = true)) = bitmap.isSet := by
    funext i
    simp
  change _ = (List.filter _ (List.range _)).length
  rw [hDecide]

variable {bitmap : Bitmap} {n : Nat}

/- Bits below a bound are at most as many as the bound. -/
theorem ones_le (hBelow : ∀ i, bitmap.isSet i = true → i < n) :
    bitmap.ones ≤ n := by
  rw [ones_eq_card]
  have hSubset : bitmap.indices ⊆ Finset.range n := by
    intro i hMem
    exact Finset.mem_range.mpr (hBelow i (mem_indices_iff.mp hMem))
  simpa using Finset.card_le_card hSubset

/- Only all bits below a bound are as many as the bound. -/
theorem isSet_of_le_ones (hBelow : ∀ i, bitmap.isSet i = true → i < n) (hLe : n ≤ bitmap.ones)
    (hLt : i < n) :
    bitmap.isSet i = true := by
  rw [ones_eq_card] at hLe
  have hSubset : bitmap.indices ⊆ Finset.range n := by
    intro j hMem
    exact Finset.mem_range.mpr (hBelow j (mem_indices_iff.mp hMem))
  have hAll : bitmap.indices = Finset.range n :=
    Finset.eq_of_subset_of_card_le hSubset (by simpa using hLe)
  rw [← mem_indices_iff, hAll]
  exact Finset.mem_range.mpr hLt

end Bitmap
