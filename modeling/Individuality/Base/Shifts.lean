import Mathlib.Data.Nat.Basic
import Mathlib.Tactic.SplitIfs
import Mathlib.Algebra.Group.Nat.Defs

/-
  Checked shifts of unsigned words.  A shift is refused only when it is at least as wide as the
  word, and it drops the bits that leave it; shifting back tells whether it did.

  Main declaration: `checkedShl`
-/

section Shifts

variable {w : Nat}

def checkedShl (a : BitVec w) (n : Nat) : Option (BitVec w) :=
  if n < w then some (a <<< n) else none

def checkedShr (a : BitVec w) (n : Nat) : Option (BitVec w) :=
  if n < w then some (a >>> n) else none

variable {n : Nat}

theorem checkedShl_eq_some_iff {a b : BitVec w} :
    checkedShl a n = some b ↔ n < w ∧ a <<< n = b := by
  unfold checkedShl
  split_ifs with hFits
  · simp [hFits]
  · simp [hFits]

theorem checkedShr_eq_some_iff {a b : BitVec w} :
    checkedShr a n = some b ↔ n < w ∧ a >>> n = b := by
  unfold checkedShr
  split_ifs with hFits
  · simp [hFits]
  · simp [hFits]

/- A right shift that is undone was an exact division. -/
theorem toNat_of_shr_shl {a b : BitVec w} (hShr : checkedShr a n = some b)
    (hBack : checkedShl b n = some a) :
    b.toNat * 2 ^ n = a.toNat := by
  have hHalf : b.toNat = a.toNat / 2 ^ n := by
    rw [← (checkedShr_eq_some_iff.mp hShr).2, BitVec.toNat_ushiftRight, Nat.shiftRight_eq_div_pow]
  have hLe : b.toNat * 2 ^ n ≤ a.toNat := by
    rw [hHalf]
    exact Nat.div_mul_le_self a.toNat (2 ^ n)
  have hWhole : b.toNat * 2 ^ n % 2 ^ w = a.toNat := by
    rw [← Nat.shiftLeft_eq, ← BitVec.toNat_shiftLeft, (checkedShl_eq_some_iff.mp hBack).2]
  rw [← hWhole]
  exact (Nat.mod_eq_of_lt (lt_of_le_of_lt hLe a.isLt)).symm

/- A left shift that is undone lost no bit. -/
theorem toNat_of_shl_shr {a b : BitVec w} (hShl : checkedShl a n = some b)
    (hBack : checkedShr b n = some a) :
    b.toNat = a.toNat * 2 ^ n := by
  have hShifted : b.toNat = a.toNat * 2 ^ n % 2 ^ w := by
    rw [← (checkedShl_eq_some_iff.mp hShl).2, BitVec.toNat_shiftLeft, Nat.shiftLeft_eq]
  have hHalf : b.toNat / 2 ^ n = a.toNat := by
    rw [← Nat.shiftRight_eq_div_pow, ← BitVec.toNat_ushiftRight,
      (checkedShr_eq_some_iff.mp hBack).2]
  apply le_antisymm
  · rw [hShifted]
    exact Nat.mod_le _ _
  · rw [← hHalf]
    exact Nat.div_mul_le_self b.toNat (2 ^ n)

/- The sizes of a word are powers of two. -/
theorem toNat_of_one_shl {b : BitVec w} (hShl : checkedShl 1 n = some b) :
    b.toNat = 2 ^ n := by
  rcases checkedShl_eq_some_iff.mp hShl with ⟨hFits, rfl⟩
  have hOne : (1 : BitVec w).toNat = 1 := by
    exact BitVec.toNat_one (by omega)
  rw [BitVec.toNat_shiftLeft, Nat.shiftLeft_eq, hOne, Nat.one_mul]
  exact Nat.mod_eq_of_lt (Nat.pow_lt_pow_right (by decide) hFits)

end Shifts
