import Individuality.Base.Storage
import Mathlib.Data.List.MinMax

/-
  Iteration over the keys of a map in the order of a hash, one
  key at a time, resumed after the key visited last.

  Main declaration: `StorageMap.isAfter`
-/

namespace StorageMap

variable {κ ν : Type}

/- A key that is iterated after the last one visited. -/
def isAfter (hash : κ → Nat) (last : Option κ) (k : κ) : Bool :=
  match last with
  | none => true
  | some l => decide (hash l < hash k)

/- The first key after the last one visited. -/
def nextKey (hash : κ → Nat) (m : StorageMap κ ν) (last : Option κ) : Option κ :=
  (m.keys.filter (isAfter hash last)).argmin hash

variable {hash : κ → Nat} {m : StorageMap κ ν} {last : Option κ}

@[simp] theorem isAfter_none (k : κ) : isAfter hash none k = true := rfl

@[simp] theorem isAfter_some {l k : κ} :
    isAfter hash (some l) k = true ↔ hash l < hash k :=
  decide_eq_true_iff

variable [DecidableEq κ]

/- The next key is the least one that is still to come. -/
theorem nextKey_spec {k : κ} (hNext : nextKey hash m last = some k) :
    m.get k ≠ none ∧ isAfter hash last k = true ∧ ∀ k', m.get k' ≠ none →
        isAfter hash last k' = true → hash k ≤ hash k' := by
  have hMem := List.argmin_mem hNext
  rw [List.mem_filter, mem_keys_iff] at hMem
  refine ⟨hMem.1, hMem.2, ?_⟩
  intro k' hGet hAfter
  have hMem' : k' ∈ m.keys.filter (isAfter hash last) :=
    List.mem_filter.mpr ⟨mem_keys_iff.mpr hGet, hAfter⟩
  exact List.le_of_mem_argmin hMem' hNext

/- Without a next key, every key has been visited. -/
theorem nextKey_eq_none_iff : nextKey hash m last = none
      ↔ ∀ k, m.get k ≠ none → isAfter hash last k = false := by
  unfold nextKey
  rw [List.argmin_eq_none, List.filter_eq_nil_iff]
  simp only [mem_keys_iff, Bool.not_eq_true]

theorem get_of_nextKey {k : κ} (hNext : nextKey hash m last = some k) :
    ∃ v, m.get k = some v :=
  Option.ne_none_iff_exists'.mp (nextKey_spec hNext).1

/-
  Once the next key is visited, the keys of the map that are
  still to come are the ones before without that key.
-/
theorem isAfter_nextKey_iff (hInj : Function.Injective hash) {k k' : κ}
    (hNext : nextKey hash m last = some k) (hGet : m.get k' ≠ none) :
    isAfter hash (some k) k' = true ↔ isAfter hash last k' = true ∧ k' ≠ k := by
  rcases nextKey_spec hNext with ⟨_, hAfter, hLeast⟩
  rw [isAfter_some]
  constructor
  · intro hLt
    refine ⟨?_, ?_⟩
    · cases last with
      | none => rfl
      | some l =>
        rw [isAfter_some] at hAfter ⊢
        omega
    · rintro rfl
      exact Nat.lt_irrefl _ hLt
  · rintro ⟨hAfter', hNe⟩
    have hLe := hLeast k' hGet hAfter'
    have hHash : hash k ≠ hash k' := by
      intro hEq
      exact hNe (hInj hEq).symm
    omega

/- What comes after a visited key came after the last one. -/
theorem isAfter_of_isAfter_nextKey {k k' : κ} (hNext : nextKey hash m last = some k)
    (hAfter : isAfter hash (some k) k' = true) :
    isAfter hash last k' = true := by
  have hKey := (nextKey_spec hNext).2.1
  cases last with
  | none => rfl
  | some l =>
    rw [isAfter_some] at hAfter hKey ⊢
    omega

end StorageMap
