import Individuality.Base.Storage
import Mathlib.Order.Defs.LinearOrder
import Mathlib.Data.List.Sort

/-
  Storage maps with two keys: the entries under one first key, their iteration in the order of the
  second key, and their removal in batches.

  Main declaration: `DoubleMap`
-/

/- A finite map with two keys. -/
abbrev DoubleMap (α κ ν : Type) :=
  StorageMap (α × κ) ν

namespace DoubleMap

variable {α κ ν : Type} [DecidableEq α] [DecidableEq κ]

--
-- Entries under One Key
--

/- The number of entries under a first key. -/
def count (m : DoubleMap α κ ν) (a : α) : Nat :=
  m.sum fun k _ => if k.1 = a then 1 else 0

/- The entries under a first key, as they are stored. -/
def entriesAt (m : DoubleMap α κ ν) (a : α) : List (κ × ν) :=
  m.entries.filterMap fun e =>
    if e.1.1 = a then some (e.1.2, e.2) else none

/- There is nothing under a first key. -/
def NoneAt (m : DoubleMap α κ ν) (a : α) : Prop :=
  ∀ k, m.get (a, k) = none

variable {k : κ} {v : ν}

theorem mem_entriesAt_iff {m : DoubleMap α κ ν} {a : α} :
    (k, v) ∈ m.entriesAt a ↔ m.get (a, k) = some v := by
  rw [← StorageMap.mem_entries_iff]
  unfold entriesAt
  rw [List.mem_filterMap]
  constructor
  · rintro ⟨⟨⟨a', k'⟩, v'⟩, hMem, hSome⟩
    by_cases hKey : a' = a
    · rw [if_pos hKey] at hSome
      cases hSome
      rw [← hKey]
      exact hMem
    · rw [if_neg hKey] at hSome
      cases hSome
  · intro hMem
    exact ⟨_, hMem, if_pos rfl⟩

omit [DecidableEq κ] in
theorem length_entriesAt (m : DoubleMap α κ ν) (a : α) :
    (m.entriesAt a).length = m.count a := by
  unfold entriesAt count StorageMap.sum
  induction m.entries with
  | nil => rfl
  | cons e rest ih =>
    rw [List.filterMap_cons]
    by_cases hKey : e.1.1 = a
    · simp only [hKey, ↓reduceIte, List.length_cons, List.map_cons, List.sum_cons, ih]
      omega
    · simp only [hKey, ↓reduceIte, List.map_cons, List.sum_cons, ih]
      omega

omit [DecidableEq κ] in
theorem keys_entriesAt_nodup (m : DoubleMap α κ ν) (a : α) :
    ((m.entriesAt a).map Prod.fst).Nodup := by
  have hNodup : (m.entries.map Sigma.fst).Nodup := m.nodupKeys
  unfold entriesAt
  generalize m.entries = entries at hNodup ⊢
  induction entries with
  | nil => exact List.nodup_nil
  | cons e rest ih =>
    rw [List.map_cons, List.nodup_cons] at hNodup
    have hRest := ih hNodup.2
    rw [List.filterMap_cons]
    by_cases hKey : e.1.1 = a
    · rw [if_pos hKey]
      rw [List.map_cons, List.nodup_cons]
      refine ⟨?_, hRest⟩
      intro hMem
      rcases List.mem_map.mp hMem with ⟨⟨k, v⟩, hEntry, hEq⟩
      rcases List.mem_filterMap.mp hEntry with ⟨e', hMem', hSome⟩
      by_cases hKey' : e'.1.1 = a
      · rw [if_pos hKey'] at hSome
        cases hSome
        refine hNodup.1 (List.mem_map.mpr ⟨e', hMem', ?_⟩)
        exact Prod.ext (hKey'.trans hKey.symm) hEq
      · rw [if_neg hKey'] at hSome
        cases hSome
    · rw [if_neg hKey]
      exact hRest

omit [DecidableEq κ] in
@[simp] theorem count_empty (a : α) :
    count (StorageMap.empty : DoubleMap α κ ν) a = 0 := rfl

theorem count_insert_new {m : DoubleMap α κ ν} {a : α} (hGet : m.get (a, k) = none) (v : ν)
    (a' : α) :
    count (m.insert (a, k) v) a' = m.count a' + if a = a' then 1 else 0 := by
  unfold count
  rw [StorageMap.sum_insert_of_get_eq_none hGet]

/- An insertion adds at most one entry. -/
theorem count_insert_le (m : DoubleMap α κ ν) (a : α) (k : κ) (v : ν) :
    count (m.insert (a, k) v) a ≤ m.count a + 1 := by
  have hSum := StorageMap.sum_insert m (fun k _ => if k.1 = a then 1 else 0) (a, k) v
  unfold count
  simp only [↓reduceIte] at hSum
  omega

/- The removal of an entry takes it from the count. -/
theorem count_remove {m : DoubleMap α κ ν} {a : α} (hGet : m.get (a, k) = some v) (a' : α) :
    count (m.remove (a, k)) a' + (if a = a' then 1 else 0) = m.count a' := by
  have hSum := StorageMap.sum_remove m (fun k _ => if k.1 = a' then 1 else 0) (a, k)
  rw [hGet] at hSum
  exact hSum

theorem noneAt_of_count {m : DoubleMap α κ ν} {a : α} (hCount : m.count a = 0) :
    m.NoneAt a := by
  intro k
  cases hGet : m.get (a, k) with
  | none => rfl
  | some v =>
    have hLe := StorageMap.le_sum_of_get hGet fun k _ => if k.1 = a then 1 else 0
    unfold count at hCount
    simp only [↓reduceIte] at hLe
    omega

theorem count_of_noneAt {m : DoubleMap α κ ν} {a : α} (hNone : m.NoneAt a) :
    m.count a = 0 := by
  rw [← length_entriesAt, List.length_eq_zero_iff, List.eq_nil_iff_forall_not_mem]
  rintro ⟨k, v⟩ hMem
  rw [mem_entriesAt_iff, hNone k] at hMem
  cases hMem

/- Fewer entries under a key do not count more. -/
theorem count_le_of_forall {m m' : DoubleMap α κ ν} {a : α}
    (hSub : ∀ k v, m'.get (a, k) = some v → m.get (a, k) = some v) :
    m'.count a ≤ m.count a := by
  rw [← length_entriesAt, ← length_entriesAt]
  have hNodup : (m'.entriesAt a).Nodup := (keys_entriesAt_nodup m' a).of_map _
  refine (List.subperm_of_subset hNodup ?_).length_le
  rintro ⟨k, v⟩ hMem
  exact mem_entriesAt_iff.mpr (hSub k v (mem_entriesAt_iff.mp hMem))

--
-- Iteration
--

section Order

variable [LinearOrder κ]

/- The entries under a first key by their second key. -/
def iterPrefix (m : DoubleMap α κ ν) (a : α) : List (κ × ν) :=
  (m.entriesAt a).insertionSort fun x y => x.1 ≤ y.1

/- Only the entries that come after a key. -/
def iterPrefixFrom (m : DoubleMap α κ ν) (a : α) (start : κ) : List (κ × ν) :=
  (m.iterPrefix a).filter fun e => decide (start < e.1)

omit [DecidableEq κ] in
theorem iterPrefix_perm (m : DoubleMap α κ ν) (a : α) :
    (m.iterPrefix a).Perm (m.entriesAt a) :=
  List.perm_insertionSort _ _

omit [DecidableEq κ] in
theorem length_iterPrefix (m : DoubleMap α κ ν) (a : α) :
    (m.iterPrefix a).length = m.count a := by
  rw [(iterPrefix_perm m a).length_eq, length_entriesAt]

theorem mem_iterPrefix_iff {m : DoubleMap α κ ν} {a : α} :
    (k, v) ∈ m.iterPrefix a ↔ m.get (a, k) = some v := by
  rw [(iterPrefix_perm m a).mem_iff, mem_entriesAt_iff]

/- The iteration is in strictly ascending order. -/
omit [DecidableEq κ] in
theorem pairwise_iterPrefix (m : DoubleMap α κ ν) (a : α) :
    (m.iterPrefix a).Pairwise fun x y => x.1 < y.1 := by
  have hTotal : Std.Total fun x y : κ × ν => x.1 ≤ y.1 := ⟨fun x y => le_total x.1 y.1⟩
  have hTrans : IsTrans (κ × ν) fun x y => x.1 ≤ y.1 := ⟨fun x y z hXY hYZ => le_trans hXY hYZ⟩
  have hSorted : (m.iterPrefix a).Pairwise fun x y => x.1 ≤ y.1 := List.pairwise_insertionSort _ _
  have hNodup : (m.iterPrefix a).Pairwise fun x y => x.1 ≠ y.1 := by
    have hKeys : ((m.iterPrefix a).map Prod.fst).Nodup :=
      ((iterPrefix_perm m a).map Prod.fst).nodup_iff.mpr (keys_entriesAt_nodup m a)
    exact List.pairwise_map.mp hKeys
  refine (hSorted.and hNodup).imp ?_
  rintro x y ⟨hLe, hNe⟩
  exact lt_of_le_of_ne hLe hNe

end Order

--
-- Removal in Batches
--

/-
  What a removal under a prefix finds: the keys written in the current block, all of which it
  removes, and the keys of the backend in their order, up to the limit.
-/
structure Backend (κ : Type) where
  overlay : List κ
  backend : List κ

/- The keys that a removal leaves in place. -/
def Backend.keeps (b : Backend κ) (limit : Nat) (k : κ) : Bool :=
  decide (k ∈ b.backend.drop limit ∧ k ∉ b.overlay)

/- The keys under a prefix that a removal takes. -/
def clearedKeys (m : DoubleMap α κ ν) (a : α) (limit : Nat) (b : Backend κ) : List κ :=
  ((m.entriesAt a).map Prod.fst).filter fun k => !b.keeps limit k

/-
  Remove entries under a prefix.  The result has how many were
  removed, and whether the backend has no key past the limit.
-/
def clearPrefix (m : DoubleMap α κ ν) (a : α) (limit : Nat)
    (b : Backend κ) : DoubleMap α κ ν × Nat × Bool :=
  (((m.clearedKeys a limit b).map fun k => (a, k)).foldl (·.remove ·) m,
    (m.clearedKeys a limit b).length,
    decide (b.backend.length ≤ limit))

section Clear

variable
  {m : DoubleMap α κ ν}
  {a : α}
  {limit : Nat}
  {b : Backend κ}

theorem get_clearPrefix (a' : α) (k : κ) :
    (m.clearPrefix a limit b).1.get (a', k) =
      if a' = a ∧ b.keeps limit k = false then none
      else m.get (a', k) := by
  unfold clearPrefix
  dsimp only
  rw [StorageMap.get_foldl_remove]
  have hMem : (a', k) ∈ (m.clearedKeys a limit b).map (fun k => (a, k))
        ↔ a' = a ∧ b.keeps limit k = false ∧ m.get (a, k) ≠ none := by
    unfold clearedKeys
    simp only [List.mem_map, List.mem_filter, Prod.exists,
      exists_and_right, exists_eq_right, mem_entriesAt_iff,
      Bool.not_eq_true', Prod.mk.injEq]
    constructor
    · rintro ⟨k', ⟨⟨v, hGet⟩, hKeep⟩, rfl, rfl⟩
      exact ⟨rfl, hKeep, by rw [hGet]; simp⟩
    · rintro ⟨rfl, hKeep, hGet⟩
      exact ⟨k, ⟨Option.ne_none_iff_exists'.mp hGet, hKeep⟩, rfl, rfl⟩
  by_cases hKeep : a' = a ∧ b.keeps limit k = false
  · rw [if_pos hKeep]
    by_cases hGet : m.get (a', k) = none
    · rw [hGet]
      exact ite_self none
    · refine if_pos (hMem.mpr ⟨hKeep.1, hKeep.2, ?_⟩)
      rw [← hKeep.1]
      exact hGet
  · rw [if_neg hKeep]
    exact if_neg fun h => hKeep ⟨(hMem.mp h).1, (hMem.mp h).2.1⟩

/- Nothing under other keys is removed. -/
theorem get_clearPrefix_of_ne {a' : α} (hNe : a' ≠ a) (k : κ) :
    (m.clearPrefix a limit b).1.get (a', k) = m.get (a', k) := by
  rw [get_clearPrefix]
  exact if_neg fun h => hNe h.1

/- What is left was there before. -/
theorem get_of_clearPrefix {a' : α} (hGet : (m.clearPrefix a limit b).1.get (a', k) = some v) :
    m.get (a', k) = some v := by
  rw [get_clearPrefix] at hGet
  by_cases h : a' = a ∧ b.keeps limit k = false
  · rw [if_pos h] at hGet
    cases hGet
  · rw [if_neg h] at hGet
    exact hGet

/- Without a cursor, nothing under the prefix is left. -/
theorem clearPrefix_done (hDone : (m.clearPrefix a limit b).2.2 = true) :
    (m.clearPrefix a limit b).1.NoneAt a := by
  intro k
  have hLe : b.backend.length ≤ limit := by
    simpa [clearPrefix] using hDone
  rw [get_clearPrefix]
  refine if_pos ⟨rfl, ?_⟩
  unfold Backend.keeps
  rw [List.drop_eq_nil_of_le hLe]
  simp

end Clear

end DoubleMap
