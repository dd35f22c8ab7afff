import Mathlib.Data.List.AList
import Mathlib.Algebra.BigOperators.Group.List.Basic
import Mathlib.Algebra.GroupWithZero.Nat
import Mathlib.Algebra.Ring.Int.Defs

/-
  Finite storage maps, and sums of a weight over the entries of a map.

  Main declaration: `StorageMap`
-/

/- A finite map with at most one value for each key. -/
abbrev StorageMap (κ ν : Type) :=
  AList (fun _ : κ => ν)

namespace StorageMap

variable {κ ν : Type}

def empty : StorageMap κ ν := ∅

def isEmpty (m : StorageMap κ ν) : Bool :=
  m.entries.isEmpty

--
-- Reads and writes
--

section Access

variable [DecidableEq κ]

def get (m : StorageMap κ ν) (k : κ) : Option ν :=
  m.lookup k

/- The read of a map with a default for absent keys. -/
def getD (m : StorageMap κ ν) (k : κ) (d : ν) : ν :=
  (m.get k).getD d

def containsKey (m : StorageMap κ ν) (k : κ) : Bool :=
  (m.get k).isSome

def insert (m : StorageMap κ ν) (k : κ) (v : ν) : StorageMap κ ν :=
  AList.insert k v m

def remove (m : StorageMap κ ν) (k : κ) : StorageMap κ ν :=
  AList.erase k m

theorem entries_remove (m : StorageMap κ ν) (k : κ) :
    (m.remove k).entries = m.entries.kerase k :=
  rfl

@[simp] theorem get_empty (k : κ) : (empty : StorageMap κ ν).get k = none :=
  AList.lookup_empty k

theorem get_insert (m : StorageMap κ ν) (k : κ) (v : ν) (k' : κ) :
    (m.insert k v).get k' =
      if k' = k then some v else m.get k' := by
  by_cases h : k' = k
  · subst h
    simp [get, insert]
  · simp [get, insert, h]

@[simp] theorem get_insert_self (m : StorageMap κ ν) (k : κ) (v : ν) :
    (m.insert k v).get k = some v := by
  simp [get_insert]

variable {k : κ}

theorem get_insert_of_ne (m : StorageMap κ ν) {k' : κ} (v : ν) (hNe : k' ≠ k) :
    (m.insert k v).get k' = m.get k' := by
  simp [get_insert, hNe]

theorem get_remove (m : StorageMap κ ν) (k k' : κ) :
    (m.remove k).get k' =
      if k' = k then none else m.get k' := by
  by_cases h : k' = k
  · subst h
    simp [get, remove]
  · simp [get, remove, h]

@[simp] theorem get_remove_self (m : StorageMap κ ν) (k : κ) :
    (m.remove k).get k = none := by
  simp [get_remove]

theorem getD_insert (m : StorageMap κ ν) (k : κ) (v : ν) (k' : κ) (d : ν) :
    (m.insert k v).getD k' d =
      if k' = k then v else m.getD k' d := by
  by_cases h : k' = k <;> simp [getD, get_insert, h]

theorem getD_remove (m : StorageMap κ ν) (k k' : κ) (d : ν) :
    (m.remove k).getD k' d =
      if k' = k then d else m.getD k' d := by
  by_cases h : k' = k <;> simp [getD, get_remove, h]

@[simp] theorem getD_empty (k : κ) (d : ν) :
    (empty : StorageMap κ ν).getD k d = d := by
  simp [getD]

variable {m : StorageMap κ ν}

theorem containsKey_iff :
    m.containsKey k = true ↔ ∃ v, m.get k = some v :=
  Option.isSome_iff_exists

theorem containsKey_eq_false_iff :
    m.containsKey k = false ↔ m.get k = none := by
  simp [containsKey]

theorem mem_keys_iff :
    k ∈ m.keys ↔ m.get k ≠ none := by
  rw [← AList.mem_keys, ← AList.lookup_isSome, Option.isSome_iff_ne_none]
  rfl

/- Entries that are there are the ones that are found. -/
theorem mem_entries_iff {v : ν} :
    (⟨k, v⟩ : Sigma fun _ : κ => ν) ∈ m.entries ↔ m.get k = some v :=
  (AList.mem_lookup_iff (s := m)).symm

/- The removal of all keys in a list. -/
theorem get_foldl_remove (ks : List κ) (m : StorageMap κ ν) (k : κ) :
    (ks.foldl (·.remove ·) m).get k =
      if k ∈ ks then none else m.get k := by
  induction ks generalizing m with
  | nil => simp
  | cons k' ks ih =>
    rw [List.foldl_cons, ih, get_remove]
    by_cases hHead : k = k' <;> by_cases hTail : k ∈ ks <;> simp [hHead, hTail]

/- The insertion of a value at all keys in a list. -/
theorem get_foldl_insert (f : κ → ν) (ks : List κ) (m : StorageMap κ ν) (k : κ) :
    (ks.foldl (fun m k => m.insert k (f k)) m).get k =
      if k ∈ ks then some (f k) else m.get k := by
  induction ks generalizing m with
  | nil => simp
  | cons k' ks ih =>
    rw [List.foldl_cons, ih, get_insert]
    by_cases hHead : k = k' <;> by_cases hTail : k ∈ ks <;> simp [hHead, hTail]

/- A map with no entries has no value for any key. -/
theorem isEmpty_iff :
    m.isEmpty = true ↔ ∀ k, m.get k = none := by
  unfold isEmpty
  rw [List.isEmpty_iff]
  constructor
  · intro hNil k
    simp [get, AList.lookup, hNil]
  · intro hNone
    cases hEntries : m.entries with
    | nil => rfl
    | cons e rest =>
      rcases e with ⟨k, v⟩
      have hGet : m.get k = some v := by
        simp [get, AList.lookup, hEntries]
      simp [hNone] at hGet

theorem eq_empty_of_get (hNone : ∀ k, m.get k = none) :
    m = .empty :=
  AList.ext (List.isEmpty_iff.mp (isEmpty_iff.mpr hNone))

end Access

--
-- Sums over the entries
--

/- The weights of all entries, added up. -/
def sum (m : StorageMap κ ν) (f : κ → ν → Nat) : Nat :=
  (m.entries.map fun e => f e.1 e.2).sum

/- The weight of what is stored at one key. -/
def weightAt (f : κ → ν → Nat) (k : κ) : Option ν → Nat
  | none => 0
  | some v => f k v

@[simp] theorem weightAt_none (f : κ → ν → Nat) (k : κ) :
    weightAt f k none = 0 := rfl

@[simp] theorem weightAt_some (f : κ → ν → Nat) (k : κ) (v : ν) :
    weightAt f k (some v) = f k v := rfl

@[simp] theorem sum_empty (f : κ → ν → Nat) :
    (empty : StorageMap κ ν).sum f = 0 := rfl

section Sums

variable [DecidableEq κ]

private theorem sum_kerase (entries : List (Sigma fun _ : κ => ν)) (f : κ → ν → Nat) (k : κ) :
    ((entries.kerase k).map fun e => f e.1 e.2).sum + weightAt f k (entries.dlookup k)
      = (entries.map fun e => f e.1 e.2).sum := by
  induction entries with
  | nil => simp
  | cons e rest ih =>
    rcases e with ⟨k', v⟩
    by_cases h : k = k'
    · subst h
      simp [Nat.add_comm]
    · rw [List.kerase_cons_ne (by simpa using h),
        List.dlookup_cons_ne rest ⟨k', v⟩ h]
      simp only [List.map_cons, List.sum_cons]
      omega

/- Removing a key takes its weight out of the sum. -/
theorem sum_remove (m : StorageMap κ ν) (f : κ → ν → Nat) (k : κ) :
    (m.remove k).sum f + weightAt f k (m.get k) = m.sum f :=
  sum_kerase m.entries f k

/- Writing a key exchanges its old weight for the new one. -/
theorem sum_insert (m : StorageMap κ ν) (f : κ → ν → Nat) (k : κ) (v : ν) :
    (m.insert k v).sum f + weightAt f k (m.get k) = m.sum f + f k v := by
  have hInsert : (m.insert k v).sum f = f k v + (m.remove k).sum f := by
    simp [sum, insert, entries_remove, AList.insert, List.kinsert_def]
  have hRemove := sum_remove m f k
  omega

theorem sum_insert_of_get_eq_none {m : StorageMap κ ν} {k : κ} (hGet : m.get k = none)
    (f : κ → ν → Nat) (v : ν) :
    (m.insert k v).sum f = m.sum f + f k v := by
  have h := sum_insert m f k v
  simpa [hGet] using h

/- One entry weighs at most the whole map. -/
theorem le_sum_of_get {m : StorageMap κ ν} {k : κ} {v : ν} (hGet : m.get k = some v)
    (f : κ → ν → Nat) :
    f k v ≤ m.sum f := by
  have h := sum_remove m f k
  rw [hGet, weightAt_some] at h
  omega

private theorem mem_entries_get {m : StorageMap κ ν} {e : Sigma fun _ : κ => ν}
    (hMem : e ∈ m.entries) :
    m.get e.1 = some e.2 :=
  AList.mem_lookup_iff.mpr hMem

/- An empty map weighs nothing. -/
theorem sum_of_get_eq_none {m : StorageMap κ ν} (hNone : ∀ k, m.get k = none) (f : κ → ν → Nat) :
    m.sum f = 0 := by
  rw [eq_empty_of_get hNone]
  rfl

theorem sum_congr {m : StorageMap κ ν} {f g : κ → ν → Nat}
    (hEq : ∀ k v, m.get k = some v → f k v = g k v) :
    m.sum f = m.sum g := by
  unfold sum
  congr 1
  exact List.map_congr_left fun e hMem => hEq e.1 e.2 (mem_entries_get hMem)

/- Weights that agree away from one key change the sum only by the weight of that key. -/
theorem sum_reweigh (m : StorageMap κ ν) (f g : κ → ν → Nat) (k : κ)
    (hEq : ∀ k' v, k' ≠ k → m.get k' = some v → f k' v = g k' v) :
    m.sum f + weightAt g k (m.get k) = m.sum g + weightAt f k (m.get k) := by
  have hRest : (m.remove k).sum f = (m.remove k).sum g := by
    apply sum_congr
    intro k' v hGet
    rw [get_remove] at hGet
    by_cases h : k' = k
    · simp [h] at hGet
    · exact hEq k' v h (by simpa [h] using hGet)
  have hF := sum_remove m f k
  have hG := sum_remove m g k
  omega

end Sums

end StorageMap
