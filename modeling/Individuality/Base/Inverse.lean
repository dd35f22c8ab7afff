import Individuality.Base.Storage

/-
  Two storage maps that are inverse to each other: one finds the holder of a name, the other what is
  recorded for a holder, with all of its names.  And an index of the entries of a map, by keys of
  their own.

  Main declaration: `Inverse`
-/

--
-- Keys of a Map
--

namespace StorageMap

variable {κ ν : Type} [DecidableEq κ]

theorem containsKey_insert (m : StorageMap κ ν) (k : κ) (v : ν) (k' : κ) :
    (m.insert k v).containsKey k' = (decide (k' = k) || m.containsKey k') := by
  unfold containsKey
  rw [get_insert]
  by_cases h : k' = k <;> simp [h]

theorem containsKey_remove (m : StorageMap κ ν) (k k' : κ) :
    (m.remove k).containsKey k' = (!decide (k' = k) && m.containsKey k') := by
  unfold containsKey
  rw [get_remove]
  by_cases h : k' = k <;> simp [h]

theorem containsKey_of_get {m : StorageMap κ ν} {k : κ} {v : ν} (hGet : m.get k = some v) :
    m.containsKey k = true :=
  containsKey_iff.mpr ⟨v, hGet⟩

theorem get_remove_of_ne (m : StorageMap κ ν) {k k' : κ} (hNe : k' ≠ k) :
    (m.remove k).get k' = m.get k' := by
  rw [get_remove, if_neg hNe]

/- What is written at once need not be removed before. -/
theorem insert_remove (m : StorageMap κ ν) (k : κ) (v : ν) :
    (m.remove k).insert k v = m.insert k v := by
  apply AList.ext
  simp [insert, entries_remove, AList.insert, List.kinsert_def, List.kerase_of_notMem_keys
      (List.notMem_keys_kerase k m.nodupKeys)]

end StorageMap

--
-- Inverse Maps
--

section Inverse

variable {κ α ρ : Type} [DecidableEq κ] [DecidableEq α]

/- A name is held by the one whose record has it.  A record may have several names. -/
def Inverse (holders : StorageMap κ α) (records : StorageMap α ρ) (names : ρ → κ → Prop) : Prop :=
  ∀ k a, holders.get k = some a ↔ ∃ r, records.get a = some r ∧ names r k

namespace Inverse

variable {holders : StorageMap κ α} {records : StorageMap α ρ} {names : ρ → κ → Prop}
variable {k : κ} {a : α} {r old : ρ}

theorem empty (names : ρ → κ → Prop) :
    Inverse (StorageMap.empty : StorageMap κ α) StorageMap.empty names := by
  intro k a
  simp

theorem holder_of_name (hInverse : Inverse holders records names) (hGet : records.get a = some r)
    (hName : names r k) :
    holders.get k = some a :=
  (hInverse k a).mpr ⟨r, hGet, hName⟩

/- No two records have the same name. -/
theorem holder_unique (hInverse : Inverse holders records names) {a' : α} {r' : ρ}
    (hGet : records.get a = some r) (hName : names r k) (hGet' : records.get a' = some r')
    (hName' : names r' k) :
    a = a' := by
  have hHolder := hInverse.holder_of_name hGet hName
  rw [hInverse.holder_of_name hGet' hName'] at hHolder
  exact (Option.some.inj hHolder).symm

/- A record gets one more name, which nobody holds. -/
theorem addName (hInverse : Inverse holders records names) (hFree : holders.get k = none)
    (hGet : records.get a = some old) (hNames : ∀ k', names r k' ↔ k' = k ∨ names old k') :
    Inverse (holders.insert k a) (records.insert a r)
      names := by
  intro k' a'
  rw [StorageMap.get_insert, StorageMap.get_insert]
  by_cases hKey : k' = k <;> by_cases hHolder : a' = a
  · subst hKey hHolder
    simp [hNames]
  · subst hKey
    rw [if_pos rfl, if_neg hHolder, ← hInverse k' a', hFree]
    simp [Ne.symm hHolder]
  · subst hHolder
    rw [if_neg hKey, if_pos rfl, hInverse k' a']
    simp [hGet, hNames, hKey]
  · rw [if_neg hKey, if_neg hHolder]
    exact hInverse k' a'

/- A holder without a record claims one name. -/
theorem claim (hInverse : Inverse holders records names) (hFree : holders.get k = none)
    (hUnused : records.get a = none) (hNames : ∀ k', names r k' ↔ k' = k) :
    Inverse (holders.insert k a) (records.insert a r)
      names := by
  intro k' a'
  rw [StorageMap.get_insert, StorageMap.get_insert]
  by_cases hKey : k' = k <;> by_cases hHolder : a' = a
  · subst hKey hHolder
    simp [hNames]
  · subst hKey
    rw [if_pos rfl, if_neg hHolder, ← hInverse k' a', hFree]
    simp [Ne.symm hHolder]
  · subst hHolder
    rw [if_neg hKey, if_pos rfl, hInverse k' a']
    simp [hUnused, hNames, hKey]
  · rw [if_neg hKey, if_neg hHolder]
    exact hInverse k' a'

/- A record that keeps its names may change otherwise. -/
theorem rewrite (hInverse : Inverse holders records names) (hGet : records.get a = some old)
    (hNames : ∀ k', names r k' ↔ names old k') :
    Inverse holders (records.insert a r) names := by
  intro k' a'
  rw [StorageMap.get_insert, hInverse k' a']
  by_cases hHolder : a' = a
  · subst hHolder
    simp [hGet, hNames]
  · rw [if_neg hHolder]

/- A holder without names needs no record, and may get one. -/
theorem record (hInverse : Inverse holders records names) (hUnused : records.get a = none)
    (hNames : ∀ k', ¬names r k') :
    Inverse holders (records.insert a r) names := by
  intro k' a'
  rw [StorageMap.get_insert, hInverse k' a']
  by_cases hHolder : a' = a
  · subst hHolder
    simp [hUnused, hNames]
  · rw [if_neg hHolder]

/- The holder of one name gives it up with its record. -/
theorem release (hInverse : Inverse holders records names) (hGet : records.get a = some r)
    (hNames : ∀ k', names r k' ↔ k' = k) :
    Inverse (holders.remove k) (records.remove a) names := by
  intro k' a'
  rw [StorageMap.get_remove, StorageMap.get_remove]
  by_cases hKey : k' = k <;> by_cases hHolder : a' = a
  · simp [hKey, hHolder]
  · subst hKey
    rw [if_pos rfl, if_neg hHolder, ← hInverse k' a',
      hInverse.holder_of_name hGet ((hNames k').mpr rfl)]
    simp [Ne.symm hHolder]
  · subst hHolder
    rw [if_neg hKey, if_pos rfl, hInverse k' a']
    simp [hGet, hNames, hKey]
  · rw [if_neg hKey, if_neg hHolder]
    exact hInverse k' a'

/- One of the names of a record is given up. -/
theorem dropName (hInverse : Inverse holders records names) (hGet : records.get a = some old)
    (hNames : ∀ k', names r k' ↔ k' ≠ k ∧ names old k') (hOld : names old k) :
    Inverse (holders.remove k) (records.insert a r) names := by
  intro k' a'
  rw [StorageMap.get_remove, StorageMap.get_insert]
  by_cases hKey : k' = k <;> by_cases hHolder : a' = a
  · simp [hKey, hHolder, hNames]
  · subst hKey
    rw [if_pos rfl, if_neg hHolder, ← hInverse k' a', hInverse.holder_of_name hGet hOld]
    simp [Ne.symm hHolder]
  · subst hHolder
    rw [if_neg hKey, if_pos rfl, hInverse k' a']
    simp [hGet, hNames, hKey]
  · rw [if_neg hKey, if_neg hHolder]
    exact hInverse k' a'

/- A record goes with all of its names. -/
theorem clear (hInverse : Inverse holders records names) (hGet : records.get a = some r)
    {ks : List κ} (hNames : ∀ k', names r k' ↔ k' ∈ ks) :
    Inverse (ks.foldl (·.remove ·) holders) (records.remove a)
      names := by
  intro k' a'
  rw [StorageMap.get_foldl_remove, StorageMap.get_remove]
  by_cases hKey : k' ∈ ks <;> by_cases hHolder : a' = a
  · simp [hKey, hHolder]
  · rw [if_pos hKey, if_neg hHolder, ← hInverse k' a',
      hInverse.holder_of_name hGet ((hNames k').mpr hKey)]
    simp [Ne.symm hHolder]
  · subst hHolder
    rw [if_neg hKey, if_pos rfl, hInverse k' a']
    simp [hGet, hNames, hKey]
  · rw [if_neg hKey, if_neg hHolder]
    exact hInverse k' a'

/- A name goes from its holder to one without a record. -/
theorem move (hInverse : Inverse holders records names) {b : α} (hGet : records.get a = some old)
    (hOld : ∀ k', names old k' ↔ k' = k) (hUnused : records.get b = none)
    (hNames : ∀ k', names r k' ↔ k' = k) :
    Inverse (holders.insert k b) ((records.remove a).insert b r) names := by
  have hNe : b ≠ a := by
    rintro rfl
    rw [hGet] at hUnused
    cases hUnused
  rw [← StorageMap.insert_remove holders k b]
  apply (hInverse.release hGet hOld).claim
  · exact StorageMap.get_remove_self holders k
  · rw [StorageMap.get_remove_of_ne records hNe]
    exact hUnused
  · exact hNames

end Inverse

end Inverse

--
-- Reverse Indexes
--

section ReverseIndex

variable {ι κ ν : Type} [DecidableEq ι] [DecidableEq κ]

/-
  An index has the key of each entry, and no other.  Entries
  at different places have different keys.
-/
structure ReverseIndex (index : StorageMap ι Unit) (entries : StorageMap κ ν)
    (key : κ → ν → ι) : Prop where
  exact : ∀ i,
      index.containsKey i = true ↔ ∃ k v, entries.get k = some v ∧ key k v = i
  place : ∀ k v k' v', key k v = key k' v' → k = k'

namespace ReverseIndex

variable {index : StorageMap ι Unit} {entries : StorageMap κ ν} {key : κ → ν → ι} {k : κ} {v : ν}

theorem empty (hPlace : ∀ k v k' v', key k v = key k' v' → k = k') :
    ReverseIndex (StorageMap.empty : StorageMap ι Unit)
      (StorageMap.empty : StorageMap κ ν) key where
  exact := by simp [StorageMap.containsKey]
  place := hPlace

theorem add (hIndex : ReverseIndex index entries key) (hNew : entries.get k = none) (v : ν) :
    ReverseIndex (index.insert (key k v) ()) (entries.insert k v) key where
  exact := by
    intro i
    rw [StorageMap.containsKey_insert, Bool.or_eq_true, decide_eq_true_eq, hIndex.exact i]
    constructor
    · rintro (rfl | ⟨k', v', hGet, rfl⟩)
      · exact ⟨k, v, StorageMap.get_insert_self entries k v, rfl⟩
      · refine ⟨k', v', ?_, rfl⟩
        rw [StorageMap.get_insert_of_ne _ _ ?_]
        · exact hGet
        · rintro rfl
          rw [hNew] at hGet
          cases hGet
    · rintro ⟨k', v', hGet, rfl⟩
      rw [StorageMap.get_insert] at hGet
      by_cases hKey : k' = k
      · rw [if_pos hKey, Option.some.injEq] at hGet
        exact Or.inl (by rw [hKey, hGet])
      · rw [if_neg hKey] at hGet
        exact Or.inr ⟨k', v', hGet, rfl⟩
  place := hIndex.place

theorem drop (hIndex : ReverseIndex index entries key) (hGet : entries.get k = some v) :
    ReverseIndex (index.remove (key k v)) (entries.remove k) key where
  exact := by
    intro i
    rw [StorageMap.containsKey_remove, Bool.and_eq_true, Bool.not_eq_true', decide_eq_false_iff_not,
      hIndex.exact i]
    constructor
    · rintro ⟨hNe, k', v', hGet', rfl⟩
      refine ⟨k', v', ?_, rfl⟩
      rw [StorageMap.get_remove_of_ne _ ?_]
      · exact hGet'
      · rintro rfl
        rw [hGet, Option.some.injEq] at hGet'
        exact hNe (by rw [hGet'])
    · rintro ⟨k', v', hGet', rfl⟩
      rw [StorageMap.get_remove] at hGet'
      by_cases hKey : k' = k
      · rw [if_pos hKey] at hGet'
        cases hGet'
      · rw [if_neg hKey] at hGet'
        exact ⟨fun h => hKey (hIndex.place k' v' k v h), k', v', hGet', rfl⟩
  place := hIndex.place

end ReverseIndex

end ReverseIndex
