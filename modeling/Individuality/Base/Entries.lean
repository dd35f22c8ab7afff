import Individuality.Base.DoubleMap
import Individuality.Base.Fallible

/-
  Entries that are written or removed as one step, the removal of everything under one first key,
  and totals that are checked as they are added up.

  Main declaration: `StorageMap.put`
-/

--
-- Optional Entries
--

/- How many entries there are at one place. -/
def Option.size {ν : Type} : Option ν → Nat
  | none => 0
  | some _ => 1

@[simp] theorem Option.size_none {ν : Type} : (none : Option ν).size = 0 := rfl

@[simp] theorem Option.size_some {ν : Type} (v : ν) : (some v).size = 1 := rfl

namespace StorageMap

variable {κ ν : Type} [DecidableEq κ]

/- Write an entry, or remove the one that is there. -/
def put (m : StorageMap κ ν) (k : κ) :
    Option ν → StorageMap κ ν
  | some v => m.insert k v
  | none => m.remove k

theorem get_put (m : StorageMap κ ν) (k : κ) (entry : Option ν) (k' : κ) :
    (m.put k entry).get k' = if k' = k then entry else m.get k' := by
  cases entry with
  | some v => exact get_insert m k v k'
  | none => exact get_remove m k k'

/- Writing exchanges the weight that was there. -/
theorem sum_put (m : StorageMap κ ν) (f : κ → ν → Nat) (k : κ) (entry : Option ν) :
    (m.put k entry).sum f + weightAt f k (m.get k) = m.sum f + weightAt f k entry := by
  cases entry with
  | some v => exact sum_insert m f k v
  | none => exact sum_remove m f k

/- Entries that weigh nothing add nothing. -/
theorem sum_eq_zero {m : StorageMap κ ν} {f : κ → ν → Nat}
    (hZero : ∀ k v, m.get k = some v → f k v = 0) :
    m.sum f = 0 := by
  have hSame : m.sum f = m.sum fun _ _ => 0 := sum_congr hZero
  rw [hSame]
  unfold sum
  simp

end StorageMap

namespace DoubleMap

variable {α κ ν : Type} [DecidableEq α] [DecidableEq κ]

theorem count_put (m : DoubleMap α κ ν) (a : α) (k : κ) (entry : Option ν) (a' : α) :
    count (m.put (a, k) entry) a' + (if a = a' then (m.get (a, k)).size else 0)
      = m.count a' + if a = a' then entry.size else 0 := by
  have hSum := StorageMap.sum_put m (fun k _ => if k.1 = a' then 1 else 0) (a, k) entry
  have hWeight : ∀ e : Option ν, StorageMap.weightAt
            (fun (k : α × κ) _ => if k.1 = a' then 1 else 0)
            (a, k) e
          = if a = a' then e.size else 0 := by
    intro e
    cases e <;> simp
  rw [hWeight, hWeight] at hSum
  exact hSum

--
-- Draining
--

/- Remove everything under a first key. -/
def drainPrefix (m : DoubleMap α κ ν) (a : α) :
    DoubleMap α κ ν where
  entries := m.entries.filter fun e => decide (e.1.1 ≠ a)
  nodupKeys := m.nodupKeys.sublist List.filter_sublist

theorem get_drainPrefix (m : DoubleMap α κ ν) (a : α) (k : α × κ) :
    (m.drainPrefix a).get k = if k.1 = a then none else m.get k := by
  apply Option.ext
  intro v
  rw [← StorageMap.mem_entries_iff]
  unfold drainPrefix
  rw [List.mem_filter, StorageMap.mem_entries_iff, decide_eq_true_eq]
  by_cases hKey : k.1 = a
  · rw [if_pos hKey]
    simp [hKey]
  · rw [if_neg hKey]
    simp [hKey]

omit [DecidableEq κ] in
/- What is drained and what is left weigh as much as before. -/
theorem sum_drainPrefix (m : DoubleMap α κ ν) (a : α) (f : α × κ → ν → Nat) :
    (m.drainPrefix a).sum f + ((m.entriesAt a).map fun e => f (a, e.1) e.2).sum = m.sum f := by
  change ((m.entries.filter fun e => decide (e.1.1 ≠ a)).map fun e => f e.1 e.2).sum
      + ((m.entries.filterMap fun e =>
          if e.1.1 = a then some (e.1.2, e.2) else none).map fun e => f (a, e.1) e.2).sum
      = (m.entries.map fun e => f e.1 e.2).sum
  induction m.entries with
  | nil => rfl
  | cons e rest ih =>
    rcases e with ⟨⟨b, k⟩, v⟩
    by_cases hKey : b = a
    · subst hKey
      simp only [ne_eq, not_true_eq_false, decide_false, Bool.false_eq_true, not_false_eq_true,
        List.filter_cons_of_neg, ↓reduceIte,
        List.filterMap_cons, List.map_cons,
        List.sum_cons] at ih ⊢
      omega
    · simp only [ne_eq, hKey, not_false_eq_true, decide_true, List.filter_cons_of_pos, ↓reduceIte,
        List.filterMap_cons, List.map_cons,
        List.sum_cons] at ih ⊢
      omega

end DoubleMap

--
-- Checked Totals
--

/- Add up, failing when the largest value is exceeded. -/
def checkedTotal (max start : Nat) (xs : List Nat) :
    Option Nat :=
  xs.foldlM (checkedAdd max) start

theorem checkedTotal_eq_some {max start total : Nat} {xs : List Nat}
    (hTotal : checkedTotal max start xs = some total) :
    total = start + xs.sum := by
  unfold checkedTotal at hTotal
  induction xs generalizing start with
  | nil =>
    simp only [List.foldlM_nil] at hTotal
    cases hTotal
    rfl
  | cons x xs ih =>
    rw [List.foldlM_cons, Option.bind_eq_bind, Option.bind_eq_some_iff] at hTotal
    rcases hTotal with ⟨next, hNext, hRest⟩
    have hAdd := (checkedAdd_eq_some_iff.mp hNext).2
    have hSum := ih hRest
    rw [List.sum_cons]
    omega

/- Nothing fails below the largest value. -/
theorem checkedTotal_of_le {max start : Nat} {xs : List Nat} (hLe : start + xs.sum ≤ max) :
    checkedTotal max start xs = some (start + xs.sum) := by
  unfold checkedTotal
  induction xs generalizing start with
  | nil => rfl
  | cons x xs ih =>
    rw [List.sum_cons] at hLe ⊢
    have hNext : checkedAdd max start x = some (start + x) :=
      checkedAdd_eq_some_iff.mpr ⟨by omega, rfl⟩
    rw [List.foldlM_cons, hNext]
    change xs.foldlM (checkedAdd max) (start + x) = _
    rw [ih (by omega), Nat.add_assoc]
