import Individuality.Coinage.Recyclers

/-
  The unloaded count of a ring that was not cleaned is the number of its aliases whose stored state
  is unloaded, over every run.

  Main declaration: `counts_exact`
-/

namespace Individuality.Coinage.Recyclers

variable {T : RecyclerConfig} {s s' : Recyclers T} {ring : RecyclerRing} {a : Alias}
variable {call : UnloadCall T} {collection : RecyclerCollection}

--
-- Counting
--

/- One for an alias of the ring that is unloaded. -/
def unloadedWeight (ring : RecyclerRing) (key : RecyclerRing × Alias) (state : AliasState) : Nat :=
  if key.1 = ring ∧ state = .unloaded then 1 else 0

def numUnloaded (s : Recyclers T) (ring : RecyclerRing) : Nat :=
  s.aliasStates.sum (unloadedWeight ring)

theorem length_unloadedAliases (s : Recyclers T) (ring : RecyclerRing) :
    (s.unloadedAliases ring).length = s.numUnloaded ring := by
  unfold unloadedAliases numUnloaded DoubleMap.entriesAt StorageMap.sum
  rw [List.length_map]
  induction s.aliasStates.entries with
  | nil => rfl
  | cons e entries ih =>
    rw [List.filterMap_cons, List.map_cons, List.sum_cons, ← ih]
    unfold unloadedWeight
    by_cases hRing : e.1.1 = ring
    · by_cases hState : e.2 = .unloaded
      · simp [hRing, hState, Nat.add_comm]
      · simp [hRing, hState]
    · simp [hRing]

theorem mem_unloadedAliases_iff {a : Alias} :
    a ∈ s.unloadedAliases ring ↔ s.aliasStates.get (ring, a) = some .unloaded := by
  unfold unloadedAliases
  rw [List.mem_map]
  constructor
  · rintro ⟨⟨a', state⟩, hMem, rfl⟩
    rw [List.mem_filter, DoubleMap.mem_entriesAt_iff, decide_eq_true_eq] at hMem
    exact hMem.1.trans (congrArg some hMem.2)
  · intro hGet
    refine ⟨(a, .unloaded), ?_, rfl⟩
    rw [List.mem_filter, DoubleMap.mem_entriesAt_iff, decide_eq_true_eq]
    exact ⟨hGet, rfl⟩

theorem nodup_unloadedAliases (s : Recyclers T) (ring : RecyclerRing) :
    (s.unloadedAliases ring).Nodup := by
  have hKeys := DoubleMap.keys_entriesAt_nodup s.aliasStates ring
  exact hKeys.sublist (List.Sublist.map _ List.filter_sublist)

/- The number depends only on the states of the ring. -/
theorem numUnloaded_congr
    (hSame : ∀ a, s'.aliasStates.get (ring, a) = s.aliasStates.get (ring, a)) :
    s'.numUnloaded ring = s.numUnloaded ring := by
  rw [← length_unloadedAliases, ← length_unloadedAliases]
  refine List.Perm.length_eq ?_
  rw [List.perm_ext_iff_of_nodup (nodup_unloadedAliases _ _) (nodup_unloadedAliases _ _)]
  intro a
  rw [mem_unloadedAliases_iff, mem_unloadedAliases_iff, hSame]

/- Aliases that are all on a list are no more than it has. -/
theorem numUnloaded_le {aliases : List Alias}
    (hAll : ∀ a, s.aliasStates.get (ring, a) = some .unloaded → a ∈ aliases) :
    s.numUnloaded ring ≤ aliases.length := by
  rw [← length_unloadedAliases]
  refine (List.subperm_of_subset (nodup_unloadedAliases s ring) ?_).length_le
  intro a hMem
  exact hAll a (mem_unloadedAliases_iff.mp hMem)

theorem hasAliasStates_eq_false_iff {ring : RecyclerRing} :
    s.hasAliasStates ring = false ↔ s.aliasStates.NoneAt ring := by
  unfold hasAliasStates
  rw [Bool.not_eq_false', List.isEmpty_iff]
  constructor
  · intro hEmpty a
    cases hGet : s.aliasStates.get (ring, a) with
    | none => rfl
    | some state =>
      have hMem := DoubleMap.mem_entriesAt_iff.mpr hGet
      rw [hEmpty] at hMem
      nomatch hMem
  · intro hNone
    rw [List.eq_nil_iff_forall_not_mem]
    rintro ⟨a, state⟩ hMem
    rw [DoubleMap.mem_entriesAt_iff, hNone a] at hMem
    nomatch hMem

/- A count is stored, or the ring has no state of an alias. -/
theorem unloadedCount_eq_some_iff {n : Nat} :
    s.unloadedCount ring = some n ↔ s.unloadedCounts.get ring = some n ∨
        s.unloadedCounts.get ring = none ∧ s.aliasStates.NoneAt ring ∧ n = 0 := by
  rw [← hasAliasStates_eq_false_iff]
  unfold unloadedCount
  cases hGet : s.unloadedCounts.get ring with
  | some count => simp
  | none =>
    cases hStates : s.hasAliasStates ring with
    | true => simp
    | false => simp [eq_comm]

/- The count is that of the stored states. -/
def Counted (s : Recyclers T) (ring : RecyclerRing) : Prop :=
  s.unloadedCount ring = some (s.numUnloaded ring)

/- It is only about the states and the count of the ring. -/
theorem Counted.congr (hCounted : s.Counted ring)
    (hCount : s'.unloadedCounts.get ring = s.unloadedCounts.get ring)
    (hSame : ∀ a, s'.aliasStates.get (ring, a) = s.aliasStates.get (ring, a)) :
    s'.Counted ring := by
  unfold Counted at hCounted ⊢
  rw [unloadedCount_eq_some_iff] at hCounted ⊢
  rw [hCount, numUnloaded_congr hSame]
  unfold DoubleMap.NoneAt at hCounted ⊢
  simp only [hSame]
  exact hCounted

/- A ring with an unloaded alias has its count stored. -/
theorem Counted.stored {state : AliasState} (hCounted : s.Counted ring)
    (hGet : s.aliasStates.get (ring, a) = some state) :
    s.unloadedCounts.get ring = some (s.numUnloaded ring) := by
  rcases unloadedCount_eq_some_iff.mp hCounted with
    hStored | ⟨_, hNone, _⟩
  · exact hStored
  · rw [hNone a] at hGet
    nomatch hGet

theorem counted_of_stored (hStored : s.unloadedCounts.get ring = some (s.numUnloaded ring)) :
    s.Counted ring :=
  unloadedCount_eq_some_iff.mpr (Or.inl hStored)

--
-- Marking
--

theorem markAliasUnloaded_aliasStates (s : Recyclers T) (ring : RecyclerRing) (a : Alias) :
    (s.markAliasUnloaded ring a).aliasStates = s.aliasStates.insert (ring, a) .unloaded := by
  unfold markAliasUnloaded
  dsimp only
  cases s.unloadedCount ring with
  | none => rfl
  | some count =>
    dsimp only
    split_ifs <;> rfl

/- Only the count of the ring is written. -/
theorem markAliasUnloaded_rest (s : Recyclers T) (ring : RecyclerRing) (a : Alias) :
    (s.markAliasUnloaded ring a).outside = s.outside ∧
      (s.markAliasUnloaded ring a).dusting = s.dusting ∧
      (s.markAliasUnloaded ring a).lastRemovedRingIndex = s.lastRemovedRingIndex ∧
      (s.markAliasUnloaded ring a).defensives = s.defensives ∧
      ∀ ring', ring' ≠ ring → (s.markAliasUnloaded ring a).unloadedCounts.get ring'
          = s.unloadedCounts.get ring' := by
  unfold markAliasUnloaded
  dsimp only
  cases s.unloadedCount ring with
  | none => exact ⟨rfl, rfl, rfl, rfl, fun _ _ => rfl⟩
  | some count =>
    dsimp only
    split_ifs
    · refine ⟨rfl, rfl, rfl, rfl, ?_⟩
      intro ring' hOther
      dsimp only
      rw [StorageMap.get_insert, if_neg hOther]
    · exact ⟨rfl, rfl, rfl, rfl, fun _ _ => rfl⟩

theorem numUnloaded_markAliasUnloaded (s : Recyclers T) (ring : RecyclerRing) (a : Alias) :
    (s.markAliasUnloaded ring a).numUnloaded ring = s.numUnloaded ring
        + if s.aliasStates.get (ring, a) = some .unloaded
          then 0 else 1 := by
  have hSum := StorageMap.sum_insert s.aliasStates (unloadedWeight ring) (ring, a) .unloaded
  unfold numUnloaded
  rw [markAliasUnloaded_aliasStates]
  cases hGet : s.aliasStates.get (ring, a) with
  | none =>
    rw [hGet, StorageMap.weightAt_none] at hSum
    simp only [unloadedWeight] at hSum ⊢
    simpa using hSum
  | some state =>
    rw [hGet, StorageMap.weightAt_some] at hSum
    cases state with
    | unloaded =>
      rw [if_pos rfl]
      omega
    | locked lock =>
      rw [if_neg (by simp)]
      simp only [unloadedWeight, true_and] at hSum ⊢
      simpa using hSum

theorem Counted.markAliasUnloaded {ring' : RecyclerRing} (hCounted : s.Counted ring')
    (hFits : (s.markAliasUnloaded ring a).numUnloaded ring ≤ u32Max) :
    (s.markAliasUnloaded ring a).Counted ring' := by
  by_cases hSame : ring' = ring
  · subst hSame
    apply counted_of_stored
    rw [numUnloaded_markAliasUnloaded] at hFits ⊢
    by_cases hState : s.aliasStates.get (ring', a) = some .unloaded
    · have hStored := hCounted.stored hState
      rw [if_pos hState, Nat.add_zero, ← hStored]
      unfold Recyclers.markAliasUnloaded
      rw [hCounted]
      dsimp only
      rw [if_neg (not_not_intro hState)]
    · rw [if_neg hState] at hFits ⊢
      unfold Recyclers.markAliasUnloaded
      rw [hCounted]
      dsimp only
      rw [if_pos hState, StorageMap.get_insert, if_pos rfl]
      unfold saturatingAdd
      rw [Nat.min_eq_left hFits]
  · have hRest := (markAliasUnloaded_rest s ring a).2.2.2.2
    refine hCounted.congr (hRest ring' hSame) ?_
    intro b
    rw [markAliasUnloaded_aliasStates, StorageMap.get_insert, if_neg]
    intro hKey
    exact hSame (Prod.ext_iff.mp hKey).1

--
-- Locking
--

/- What a mark that is turned into a lock leaves. -/
theorem markUnloadedAliasLocked_eq (hMarked : s.aliasStates.get (ring, a) = some .unloaded)
    (lock : LockInfo) :
    s.markUnloadedAliasLocked ring a lock
      = { s with
          aliasStates := s.aliasStates.insert (ring, a) (.locked lock)
          unloadedCounts :=
            match s.unloadedCounts.get ring with
            | some count =>
              s.unloadedCounts.insert ring (count - 1)
            | none => s.unloadedCounts } := by
  unfold markUnloadedAliasLocked
  dsimp only
  rw [if_neg (not_not_intro hMarked)]
  cases s.unloadedCounts.get ring <;> rfl

theorem Counted.markUnloadedAliasLocked {ring' : RecyclerRing} (hCounted : s.Counted ring')
    (hMarked : s.aliasStates.get (ring, a) = some .unloaded) (lock : LockInfo) :
    (s.markUnloadedAliasLocked ring a lock).Counted ring' := by
  rw [markUnloadedAliasLocked_eq hMarked]
  by_cases hSame : ring' = ring
  · subst hSame
    have hStored := hCounted.stored hMarked
    apply counted_of_stored
    rw [hStored]
    dsimp only
    rw [StorageMap.get_insert, if_pos rfl, Option.some.injEq]
    have hSum := StorageMap.sum_insert s.aliasStates
        (unloadedWeight ring') (ring', a) (.locked lock)
    rw [hMarked, StorageMap.weightAt_some] at hSum
    simp only [unloadedWeight] at hSum
    simp only [and_self, ↓reduceIte, reduceCtorEq, and_false, Nat.add_zero] at hSum
    unfold numUnloaded
    exact (Nat.eq_sub_of_add_eq hSum).symm
  · refine hCounted.congr ?_ ?_
    · dsimp only
      cases s.unloadedCounts.get ring with
      | none => rfl
      | some count =>
        dsimp only
        rw [StorageMap.get_insert, if_neg hSame]
    · intro b
      dsimp only
      rw [StorageMap.get_insert, if_neg]
      intro hKey
      exact hSame (Prod.ext_iff.mp hKey).1

--
-- The Invariant
--

/- The ring was cleaned: rings are cleaned in their order. -/
def RingCleaned (s : Recyclers T) (ring : RecyclerRing) : Prop :=
  ∃ last, s.lastRemovedRingIndex.get ring.collection = some last ∧ ring.index ≤ last

/- Some proof for the ring is verified with the alias. -/
def Provable (T : RecyclerConfig) (outside : T.Outside) (ring : RecyclerRing) (a : Alias) : Prop :=
  (∃ proof revision message, T.verifyMembership outside ring.collection proof ring.index
      revision message = some a) ∨
  ∃ revision items results, T.verifyMembershipsInRing outside ring.collection ring.index
        revision items = some results ∧
      a ∈ results

/- A ring has none but the given aliases. -/
def Provides (aliasesOf : RecyclerRing → List Alias) (outside : T.Outside) : Prop :=
  ∀ ring a, Provable T outside ring a → a ∈ aliasesOf ring

variable {aliasesOf : RecyclerRing → List Alias}

structure CountsExact (aliasesOf : RecyclerRing → List Alias) (s : Recyclers T) : Prop where
  counted : ∀ ring, ¬ s.RingCleaned ring → s.Counted ring
  dust : ∀ ring, s.dusting.containsKey ring = true → s.RingCleaned ring
  mem : ∀ ring a,
      s.aliasStates.get (ring, a) = some .unloaded → a ∈ aliasesOf ring
  provides : Provides aliasesOf s.outside
  inStep : s.defensives = 0

theorem countsExact_genesis (now : Nat) {outside : T.Outside}
    (hProvides : Provides aliasesOf outside) :
    CountsExact aliasesOf (genesis now outside : Recyclers T) where
  counted := by
    intro ring _
    rfl
  dust := by
    intro ring hDust
    nomatch hDust
  mem := by
    intro ring a hGet
    nomatch hGet
  provides := hProvides
  inStep := rfl

theorem CountsExact.markAliasUnloaded (hExact : s.CountsExact aliasesOf)
    (hFew : ∀ ring, (aliasesOf ring).length ≤ u32Max) (hMem : a ∈ aliasesOf ring) :
    (s.markAliasUnloaded ring a).CountsExact aliasesOf := by
  rcases markAliasUnloaded_rest s ring a with ⟨hOutside, hDusting, hRemoved, hInStep, _⟩
  have hAll : ∀ ring' b, (s.markAliasUnloaded ring a).aliasStates.get (ring', b) = some .unloaded →
          b ∈ aliasesOf ring' := by
    intro ring' b hGet
    rw [markAliasUnloaded_aliasStates, StorageMap.get_insert] at hGet
    by_cases hKey : (ring', b) = (ring, a)
    · cases hKey
      exact hMem
    · rw [if_neg hKey] at hGet
      exact hExact.mem ring' b hGet
  refine ⟨?_, ?_, hAll, ?_, hInStep.trans hExact.inStep⟩
  · intro ring' hNot
    have hNot' : ¬ s.RingCleaned ring' := by
      unfold RingCleaned at hNot ⊢
      rw [hRemoved] at hNot
      exact hNot
    refine (hExact.counted ring' hNot').markAliasUnloaded ?_
    exact (numUnloaded_le (hAll ring)).trans (hFew ring)
  · intro ring' hDust
    rw [hDusting] at hDust
    unfold RingCleaned
    rw [hRemoved]
    exact hExact.dust ring' hDust
  · rw [hOutside]
    exact hExact.provides

theorem CountsExact.markUnloadedAliasLocked (hExact : s.CountsExact aliasesOf)
    (hMarked : s.aliasStates.get (ring, a) = some .unloaded) (lock : LockInfo) :
    (s.markUnloadedAliasLocked ring a lock).CountsExact aliasesOf := by
  refine ⟨?_, ?_, ?_, ?_, ?_⟩
  · intro ring' hNot
    refine Counted.markUnloadedAliasLocked (hExact.counted ring' ?_) hMarked lock
    rw [markUnloadedAliasLocked_eq hMarked] at hNot
    exact hNot
  · intro ring' hDust
    rw [markUnloadedAliasLocked_eq hMarked] at hDust ⊢
    exact hExact.dust ring' hDust
  · intro ring' b hGet
    rw [markUnloadedAliasLocked_eq hMarked] at hGet
    dsimp only at hGet
    rw [StorageMap.get_insert] at hGet
    by_cases hKey : (ring', b) = (ring, a)
    · rw [if_pos hKey] at hGet
      nomatch hGet
    · rw [if_neg hKey] at hGet
      exact hExact.mem ring' b hGet
  · rw [markUnloadedAliasLocked_eq hMarked]
    exact hExact.provides
  · rw [markUnloadedAliasLocked_eq hMarked]
    exact hExact.inStep

/- What touches neither states nor counts keeps the rest. -/
theorem CountsExact.outside (hExact : s.CountsExact aliasesOf) (now : Nat) {outside : T.Outside}
    (hProvides : Provides aliasesOf outside) :
    ({ s with now := now, outside := outside } : Recyclers T).CountsExact aliasesOf :=
  ⟨fun ring hNot => hExact.counted ring hNot, hExact.dust,
    hExact.mem, hProvides, hExact.inStep⟩

--
-- Unloading
--

theorem CountsExact.unload {revision : RevisionIndex} {aliases : List Alias}
    {aliasProofs : List T.Proof} {provenMsg : T.Message} (hExact : s.CountsExact aliasesOf)
    (hFew : ∀ ring, (aliasesOf ring).length ≤ u32Max)
    (hUnload : s.unload ring revision aliases aliasProofs provenMsg = .ok s') :
    s'.CountsExact aliasesOf := by
  unfold Recyclers.unload at hUnload
  simp only [Except.bind_eq_ok, ensure_eq_ok_iff, okOr_eq_ok_iff] at hUnload
  rcases hUnload with ⟨_, _, _, _, _, _, results, hVerify, _, _, hLoop⟩
  refine List.foldlM_invariant (CountsExact aliasesOf) hLoop ?_ hExact
  intro s₁ proven s₂ hIn hStep hExact₁
  unfold unloadAlias at hStep
  simp only [Except.bind_eq_ok, ensure_eq_ok_iff, Except.pure_eq_ok] at hStep
  rcases hStep with ⟨_, _, _, _, rfl⟩
  refine hExact₁.markAliasUnloaded hFew (hExact.provides _ _ (Or.inr ?_))
  exact ⟨_, _, results, hVerify, (List.of_mem_zip hIn).1⟩

theorem CountsExact.processUnloadInputs {instanceId : InstanceId} {provenMsg : T.Message}
    {inputs : List UnloadRecyclerInput} {aliasProofs : List T.Proof} {skipFirstAlias : Bool}
    (hExact : s.CountsExact aliasesOf) (hFew : ∀ ring, (aliasesOf ring).length ≤ u32Max)
    (hProcess : processUnloadInputs instanceId provenMsg s inputs aliasProofs skipFirstAlias
        = .ok s') :
    s'.CountsExact aliasesOf := by
  induction inputs generalizing s aliasProofs skipFirstAlias with
  | nil =>
    unfold Recyclers.processUnloadInputs at hProcess
    simp only [Except.bind_eq_ok, Except.pure_eq_ok] at hProcess
    rcases hProcess with ⟨_, _, rfl⟩
    exact hExact
  | cons input inputs ih =>
    unfold Recyclers.processUnloadInputs at hProcess
    simp only [Except.bind_eq_ok] at hProcess
    rcases hProcess with ⟨_, _, s₁, hFirst, hRest⟩
    refine ih ?_ hRest
    unfold unloadInput at hFirst
    dsimp only at hFirst
    split_ifs at hFirst
    · exact hExact.unload hFew hFirst
    · cases hFirst
      exact hExact
    · exact hExact.unload hFew hFirst

theorem CountsExact.dispatchUnload {fee : UnloadFee} (hExact : s.CountsExact aliasesOf)
    (hFew : ∀ ring, (aliasesOf ring).length ≤ u32Max)
    (hDispatch : s.dispatchUnload call fee = .ok s') :
    s'.CountsExact aliasesOf := by
  unfold Recyclers.dispatchUnload at hDispatch
  simp only [Except.bind_eq_ok, Except.pure_eq_ok] at hDispatch
  rcases hDispatch with ⟨s₁, hProcess, _, _, rfl⟩
  cases fee with
  | prepaid => exact hExact.processUnloadInputs hFew hProcess
  | fromOutput feeRecyclerValue feeRecyclerIndex =>
    unfold processUnloadInputsWithFee at hProcess
    simp only [Except.bind_eq_ok] at hProcess
    rcases hProcess with ⟨_, _, _, _, _, _, _, _, hInputs⟩
    exact hExact.processUnloadInputs hFew hInputs

/- The alias of a validated call is provable for its ring. -/
theorem provable_of_validateFromOutput {token : FromOutputToken T}
    (hValidate : s.validateFromOutput token call = .ok a) :
    Provable T s.outside (FromOutputToken.ring token call) a := by
  unfold validateFromOutput validateAliasProof at hValidate
  simp only [Except.bind_eq_ok, ensure_eq_ok_iff, okOr_eq_ok_iff, Except.pure_eq_ok] at hValidate
  rcases hValidate with ⟨_, _, _, _, _, _, _, _, a', ⟨_, _, b, hVerify, _, _, rfl⟩,
      _, _, _, _, _, _, rfl⟩
  exact Or.inl ⟨_, _, _, hVerify⟩

theorem CountsExact.unloadFromOutput {token : FromOutputToken T} (hExact : s.CountsExact aliasesOf)
    (hFew : ∀ ring, (aliasesOf ring).length ≤ u32Max)
    (hUnload : s.unloadFromOutput token call = .ok s') :
    s'.CountsExact aliasesOf := by
  unfold Recyclers.unloadFromOutput at hUnload
  simp only [Except.bind_eq_ok, Except.pure_eq_ok] at hUnload
  rcases hUnload with ⟨a, hValidate, rfl⟩
  have hMarked := hExact.markAliasUnloaded hFew
      (hExact.provides _ _ (provable_of_validateFromOutput hValidate))
  have hPremark : (s.markAliasUnloaded (FromOutputToken.ring token call)
          a).aliasStates.get (FromOutputToken.ring token call, a)
        = some .unloaded := by
    rw [markAliasUnloaded_aliasStates, StorageMap.get_insert, if_pos rfl]
  split
  · rename_i s₁ hDispatch
    exact hMarked.dispatchUnload hFew hDispatch
  · exact hMarked.markUnloadedAliasLocked hPremark _

--
-- Cleaning
--

/- The next ring to clean was not cleaned yet. -/
theorem not_ringCleaned_next {nextRing : RingIndex}
    (hNext : s.nextRingToClean collection = some nextRing) :
    ¬ s.RingCleaned
      { instanceId := collection.1
        value := collection.2
        index := nextRing } := by
  rintro ⟨last, hLast, hLe⟩
  change s.lastRemovedRingIndex.get collection = _ at hLast
  change nextRing ≤ last at hLe
  unfold nextRingToClean at hNext
  rw [hLast] at hNext
  simp only [checkedAdd, Option.ite_none_right_eq_some, Option.some.injEq] at hNext
  have hGt : last < nextRing := lt_of_lt_of_eq (Nat.lt_succ_self last) hNext.2
  exact absurd hLe (Nat.not_le.mpr hGt)

/- Cleaning a ring adds it to those that were cleaned. -/
theorem ringCleaned_of_insert {nextRing : RingIndex}
    (hNext : s.nextRingToClean collection = some nextRing)
    (hRemoved : s'.lastRemovedRingIndex = s.lastRemovedRingIndex.insert collection nextRing)
    (hCleaned : s.RingCleaned ring ∨ ring
        = { instanceId := collection.1
            value := collection.2
            index := nextRing }) :
    s'.RingCleaned ring := by
  unfold RingCleaned
  rw [hRemoved, StorageMap.get_insert]
  by_cases hSame : ring.collection = collection
  · rw [if_pos hSame]
    refine ⟨nextRing, rfl, ?_⟩
    rcases hCleaned with ⟨last, hLast, hLe⟩ | rfl
    · unfold nextRingToClean at hNext
      rw [← hSame, hLast] at hNext
      simp only [checkedAdd, Option.ite_none_right_eq_some, Option.some.injEq] at hNext
      exact hLe.trans ((Nat.le_succ last).trans_eq hNext.2)
    · exact Nat.le_refl nextRing
  · rw [if_neg hSame]
    rcases hCleaned with hOld | rfl
    · exact hOld
    · exact absurd rfl hSame

/- A ring that was not cleaned goes with its exact count. -/
theorem CountsExact.cleanUnchecked (hExact : s.CountsExact aliasesOf)
    (hProvides : Provides aliasesOf s'.outside) (hClean : s.cleanUnchecked collection = .ok s') :
    s'.CountsExact aliasesOf := by
  unfold Recyclers.cleanUnchecked at hClean
  simp only [Except.bind_eq_ok, okOr_eq_ok_iff, Except.pure_eq_ok] at hClean
  rcases hClean with ⟨nextRing, hNext, status, _, archives, _, outside, _, rfl⟩
  have hCounted := hExact.counted _ (not_ringCleaned_next hNext)
  have hMatch : s.countMismatch
          { instanceId := collection.1
            value := collection.2
            index := nextRing }
        = false := by
    unfold countMismatch
    rcases unloadedCount_eq_some_iff.mp hCounted with
      hStored | ⟨hStored, _⟩
    · rw [hStored]
      dsimp only
      rw [length_unloadedAliases]
      simp
    · rw [hStored]
  refine ⟨?_, ?_, hExact.mem, hProvides, ?_⟩
  · intro ring hNot
    have hOld : ¬ s.RingCleaned ring := fun hCleaned =>
      hNot (ringCleaned_of_insert hNext rfl (Or.inl hCleaned))
    refine (hExact.counted ring hOld).congr ?_ fun a => rfl
    dsimp only
    rw [StorageMap.get_remove, if_neg]
    intro hSame
    exact hNot (ringCleaned_of_insert hNext rfl (Or.inr hSame))
  · intro ring hDust
    dsimp only at hDust
    split_ifs at hDust
    · rw [StorageMap.containsKey_iff, StorageMap.get_insert] at hDust
      apply ringCleaned_of_insert hNext rfl
      split_ifs at hDust with hSame
      · exact Or.inr hSame
      · exact Or.inl (hExact.dust ring (StorageMap.containsKey_iff.mpr hDust))
    · exact ringCleaned_of_insert hNext rfl (Or.inl (hExact.dust ring hDust))
  · dsimp only
    rw [hMatch]
    exact hExact.inStep

/- Dust is what a cleaned ring left, and none other. -/
theorem CountsExact.cleanDustUnchecked {first : RecyclerRing} {backend : DoubleMap.Backend Alias}
    (hExact : s.CountsExact aliasesOf) (hClean : s.cleanDustUnchecked first backend = .ok s') :
    s'.CountsExact aliasesOf := by
  unfold Recyclers.cleanDustUnchecked at hClean
  simp only [Except.bind_eq_ok, ensure_eq_ok_iff, Except.pure_eq_ok] at hClean
  rcases hClean with ⟨_, hDusting, rfl⟩
  have hFirst := hExact.dust first hDusting
  refine ⟨?_, ?_, ?_, hExact.provides, hExact.inStep⟩
  · intro ring hNot
    have hOther : ring ≠ first := by
      rintro rfl
      exact hNot hFirst
    refine (hExact.counted ring hNot).congr rfl ?_
    intro a
    exact DoubleMap.get_clearPrefix_of_ne hOther a
  · intro ring hDust
    dsimp only at hDust
    apply hExact.dust ring
    split_ifs at hDust
    · rw [StorageMap.containsKey_iff, StorageMap.get_remove] at hDust
      split_ifs at hDust
      · exact hDust.elim fun _ hNone => hNone.elim
      · exact StorageMap.containsKey_iff.mpr hDust
    · exact hDust
  · intro ring a hGet
    exact hExact.mem ring a (DoubleMap.get_of_clearPrefix hGet)

--
-- Runs
--

theorem CountsExact.perform {action : RecyclerAction T} (hExact : s.CountsExact aliasesOf)
    (hFew : ∀ ring, (aliasesOf ring).length ≤ u32Max) (hProvides : Provides aliasesOf s'.outside)
    (hPerform : s.perform action = .ok s') :
    s'.CountsExact aliasesOf := by
  cases action with
  | advance now =>
    cases hPerform
    exact hExact.outside now hProvides
  | changeOutside outside =>
    cases hPerform
    exact hExact.outside s.now hProvides
  | unloadPrepaid call =>
    change s.unloadPrepaid call = _ at hPerform
    unfold Recyclers.unloadPrepaid at hPerform
    simp only [Except.bind_eq_ok, Except.pure_eq_ok] at hPerform
    rcases hPerform with ⟨_, _, rfl⟩
    cases hDispatch : s.dispatchUnload call .prepaid with
    | error e => exact hExact
    | ok s₁ => exact hExact.dispatchUnload hFew hDispatch
  | unloadFromOutput token call =>
    exact hExact.unloadFromOutput hFew hPerform
  | cleanRecycler collection =>
    change s.cleanRecycler collection = _ at hPerform
    unfold Recyclers.cleanRecycler at hPerform
    simp only [Except.bind_eq_ok] at hPerform
    rcases hPerform with ⟨_, _, hClean⟩
    exact hExact.cleanUnchecked hProvides hClean
  | cleanRecyclerDust first backend =>
    exact hExact.cleanDustUnchecked hPerform

/-
  Where no ring has more aliases over the run than a `u32` counts, its unloaded count is, until it
  is cleaned, the number of its aliases whose stored state is unloaded, and no step of the run finds
  the two apart.
-/
theorem counts_exact (T : RecyclerConfig) (aliasesOf : RecyclerRing → List Alias)
    (hFew : ∀ ring, (aliasesOf ring).length ≤ u32Max)
    (now : Nat) (outside : T.Outside) (s : Recyclers T) (hStart : Provides aliasesOf outside)
    (hRun : RunUnder perform (fun _ _ s' => Provides aliasesOf s'.outside)
      (genesis now outside) s) :
    (∀ ring, ¬ s.RingCleaned ring → s.unloadedCount ring = some (s.unloadedAliases ring).length) ∧
      s.defensives = 0 := by
  have hExact := hRun.invariant (CountsExact aliasesOf) (fun _ _ _ hProvides hPerform hExact =>
        hExact.perform hFew hProvides hPerform)
      (countsExact_genesis now hStart)
  refine ⟨?_, hExact.inStep⟩
  intro ring hNot
  rw [length_unloadedAliases]
  exact hExact.counted ring hNot

--
-- A Run
--

def sampleAlias (member : Bool) : Alias :=
  Vector.replicate 32 (if member then 1 else 0)

/- Two members, whose proofs are themselves. -/
def sampleRecyclers : RecyclerConfig where
  Outside := Option Nat
  Proof := Bool
  Message := Unit
  Root := Unit
  Hash := Unit
  ringStatus := fun immutableSince _ _ =>
    some { total := 2, immutableSince := immutableSince }
  ringRevision := fun _ _ _ => some 0
  isRevisionValid := fun _ _ _ _ => true
  ringRoot := fun _ _ _ => some ()
  verifyMembership := fun _ _ member _ _ _ => some (sampleAlias member)
  verifyMembershipsInRing := fun _ _ _ _ items =>
    some (items.map fun item => sampleAlias item.1)
  removeRing := fun outside _ _ => some outside
  unloadedAliasesRoot := fun _ => some ()
  archiveCommitment := fun _ _ => ()
  minimumExponentForOutputUnloadFee := 0
  recyclerExpirationTime := 100
  coinFailureLockPeriod := 10

def sampleAliases (_ : RecyclerRing) : List Alias :=
  [sampleAlias true, sampleAlias false]

theorem provides_sampleAliases (outside : Option Nat) :
    Provides (T := sampleRecyclers) sampleAliases outside := by
  have hMember : ∀ member ring, sampleAlias member ∈ sampleAliases ring := by
    intro member ring
    cases member <;> simp [sampleAliases]
  rintro ring a (⟨_, _, _, hVerify⟩ | ⟨_, _, _, hVerify, hMem⟩)
  · rw [← Option.some.inj hVerify]
    exact hMember _ ring
  · rw [← Option.some.inj hVerify] at hMem
    rcases List.mem_map.mp hMem with ⟨item, _, rfl⟩
    exact hMember _ ring

def sampleCall (member completes : Bool) : UnloadCall sampleRecyclers where
  instanceId := 0
  inputs :=
    [{ value := 0
       index := 0
       revision := 0
       aliases := [sampleAlias member] }]
  aliasProofs := [member]
  provenMsg := ()
  admitted := true
  completes := completes

def sampleToken (retryCounter : Nat) : FromOutputToken sampleRecyclers where
  feeRecyclerValue := 0
  feeRecyclerIndex := 0
  feeRecyclerRevision := 0
  retryCounter := retryCounter
  intentMsg := ()

/- A failure, the retry of it and an unload besides. -/
def sampleUnloads : List (RecyclerAction sampleRecyclers) :=
  [.unloadFromOutput (sampleToken 0) (sampleCall true false), .advance 20,
    .unloadFromOutput (sampleToken 1) (sampleCall true true),
    .unloadPrepaid (sampleCall false true)]

def sampleRing : RecyclerRing where
  instanceId := 0
  value := 0
  index := 0

theorem counts_exact_sample : ∃ s : Recyclers sampleRecyclers,
      RunUnder perform (fun _ _ s' => Provides sampleAliases s'.outside) (genesis 0 none) s ∧
        s.unloadedCount sampleRing = some 2 ∧ (s.unloadedAliases sampleRing).length = 2 := by
  have hExecute : (execute perform (fun _ _ => true) (genesis 0 none)
          sampleUnloads).any (fun s =>
        s.unloadedCount sampleRing = some 2 ∧ s.lastRemovedRingIndex.get (0, 0) = none)
        = true := by
    decide +kernel
  rcases exists_run_of_execute (fun _ _ (s' : Recyclers sampleRecyclers) _ _ =>
        provides_sampleAliases s'.outside)
      hExecute with ⟨s, hRun, hTest⟩
  rcases of_decide_eq_true hTest with ⟨hCount, hFresh⟩
  have hNot : ¬ s.RingCleaned sampleRing := by
    rintro ⟨last, hLast, _⟩
    change s.lastRemovedRingIndex.get (0, 0) = _ at hLast
    rw [hFresh] at hLast
    nomatch hLast
  have hExact := (counts_exact sampleRecyclers sampleAliases
      (fun _ => by simp [sampleAliases, u32Max]) 0 none s (provides_sampleAliases none) hRun).1
      sampleRing hNot
  rw [hCount, Option.some.injEq] at hExact
  exact ⟨s, hRun, hCount, hExact.symm⟩

end Individuality.Coinage.Recyclers
