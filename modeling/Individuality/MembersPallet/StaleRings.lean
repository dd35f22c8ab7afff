import Individuality.MembersPallet.Residue

/-
  The stale marks of the rings: a ring with keys that its root does not cover yet is always marked,
  so that the repair of a missing mark has nothing to do.

  Main declaration: `PalletState.stale_rings_complete`
-/

namespace Individuality.MembersPallet

variable {T : Config} {s s' : CollectionStore T} {r : RingIndex}

open CollectionStore

--
-- The Invariant
--

/- The root of the ring does not cover all of its keys. -/
def NeedsBuild (s : CollectionStore T) (r : RingIndex) : Prop :=
  (s.ringStatus r).included < (s.ringStatus r).total

def StaleMarked (s : CollectionStore T) : Prop :=
  ∀ r, NeedsBuild s r → r ∈ s.staleRings

theorem staleMarked_empty :
    StaleMarked (CollectionStore.empty : CollectionStore T) :=
  fun _ hNeeds => absurd hNeeds (Nat.lt_irrefl 0)

theorem StaleMarked.frame (hMarked : StaleMarked s) (hStatus : s'.ringKeysStatus = s.ringKeysStatus)
    (hStale : s'.staleRings = s.staleRings) :
    StaleMarked s' := by
  intro r hNeeds
  rw [hStale]
  apply hMarked r
  unfold NeedsBuild ringStatus at hNeeds ⊢
  rw [← hStatus]
  exact hNeeds

/- A ring without a status needs no build. -/
theorem not_needsBuild_of_none (hNone : s.ringKeysStatus.get r = none) :
    ¬ NeedsBuild s r := by
  unfold NeedsBuild ringStatus StorageMap.getD
  rw [hNone]
  exact Nat.lt_irrefl 0

/-
  A new status of one ring keeps the marks of the others.
  The ring itself is marked when its new status asks for it.
-/
theorem StaleMarked.insertStatus {status : RingStatus} (hMarked : StaleMarked s)
    (hStatus : s'.ringKeysStatus = s.ringKeysStatus.insert r status)
    (hOther : ∀ r', r' ≠ r → r' ∈ s.staleRings → r' ∈ s'.staleRings)
    (hSelf : status.included < status.total → r ∈ s'.staleRings) :
    StaleMarked s' := by
  intro r' hNeeds
  unfold NeedsBuild ringStatus at hNeeds
  rw [hStatus, ringStatus_insert] at hNeeds
  by_cases hSame : r' = r
  · rw [if_pos hSame] at hNeeds
    rw [hSame]
    exact hSelf hNeeds
  · rw [if_neg hSame] at hNeeds
    exact hOther r' hSame (hMarked r' hNeeds)

/- Without its status a ring may lose its mark. -/
theorem StaleMarked.removeStatus (hMarked : StaleMarked s)
    (hStatus : s'.ringKeysStatus = s.ringKeysStatus.remove r)
    (hStale : s'.staleRings = s.staleRings.erase r) :
    StaleMarked s' := by
  intro r' hNeeds
  by_cases hSame : r' = r
  · have hNone : s'.ringKeysStatus.get r' = none := by
      rw [hStatus, StorageMap.get_remove, if_pos hSame]
    exact absurd hNeeds (not_needsBuild_of_none hNone)
  · rw [hStale]
    refine Finset.mem_erase.mpr ⟨hSame, hMarked r' ?_⟩
    unfold NeedsBuild ringStatus at hNeeds ⊢
    rw [hStatus, StorageMap.getD_remove, if_neg hSame] at hNeeds
    exact hNeeds

--
-- Additions
--

/- A ring that receives members is marked. -/
theorem StaleMarked.recordAdditions (top : AvailableRing T) (added : Nat) (filled : Bool)
    (hMarked : StaleMarked s) :
    StaleMarked (s.recordAdditions top added filled) :=
  hMarked.insertStatus rfl (fun _ _ hMem => Finset.mem_insert_of_mem hMem)
    (fun _ => Finset.mem_insert_self _ _)

theorem StaleMarked.onboardMembers {b : Bool} (hMarked : StaleMarked s)
    (hOnboard : s.onboardMembers true = .ok (b, s')) :
    StaleMarked s' := by
  rcases onboardMembers_eq_ok hOnboard with
    ⟨info, s₁, top, head, front, n, filled, f, _, hTop, _, _, _, hPlace, hRestore⟩
  have hAvailable := availableRing_frame hTop
  have hFilled : StaleMarked (f.close top.ringIndex) := by
    rcases placeKeys_frame hPlace with ⟨members, ringKeys, hStore, _⟩
    rcases close_frame f top.ringIndex with ⟨ringKeys', hClose, _⟩
    rw [hClose, hStore, hAvailable]
    exact hMarked.frame rfl rfl
  rcases restoreQueue_frame hRestore with ⟨newHead, queue, hEq⟩
  rw [hEq]
  exact (hFilled.recordAdditions top n filled).frame rfl rfl

theorem StaleMarked.doSelfInclude {key : T.Member} (hMarked : StaleMarked s)
    (hInclude : s.doSelfInclude key = .ok s') :
    StaleMarked s' := by
  rcases doSelfInclude_eq_ok hInclude with
    ⟨info, q, t, idx, s₂, top, keys, _, _, _, _, hTop, hKeys, hEq⟩
  have hAvailable := availableRing_frame hTop
  rcases removeFromQueuePage_frame s q idx with ⟨head, queue, hRemove⟩
  rw [hRemove] at hAvailable
  rw [hEq]
  apply StaleMarked.recordAdditions
  rw [hAvailable]
  exact hMarked.frame rfl rfl

--
-- Builds, Merges and Removals
--

theorem mem_ite_erase_of_ne {c : Prop} [Decidable c] {rings : Finset RingIndex} {r' : RingIndex}
    (hNe : r' ≠ r) (hMem : r' ∈ rings) :
    r' ∈ if c then rings.erase r else rings := by
  split_ifs
  · exact Finset.mem_erase.mpr ⟨hNe, hMem⟩
  · exact hMem

/-
  A build takes the mark away only when it covers every key. A partial build runs on a ring that
  needed one, and leaves its mark.
-/
theorem StaleMarked.buildRing {now : Nat} {ready : Bool} {toInclude : Nat} (hMarked : StaleMarked s)
    (hNeeds : NeedsBuild s r) (hBuild : s.buildRing now ready r toInclude = .ok s') :
    StaleMarked s' := by
  have hOld := hMarked r hNeeds
  unfold CollectionStore.buildRing at hBuild
  simp only [Except.bind_eq_ok, Except.pure_eq_ok] at hBuild
  rcases hBuild with ⟨_, _, ⟨next, i⟩, _, _, _, _, _, hEq⟩
  rw [← hEq]
  refine hMarked.insertStatus rfl ?_ ?_
  · intro r' hNe hMem
    exact mem_ite_erase_of_ne hNe hMem
  · intro hLt
    simp only [onRingRootChange]
    rw [if_neg (Nat.ne_of_lt hLt)]
    exact hOld

theorem StaleMarked.mergeRings {now : Nat} {b t : RingIndex} (hMarked : StaleMarked s)
    (hMerge : s.mergeRings now b t = .ok s') :
    StaleMarked s' := by
  unfold CollectionStore.mergeRings at hMerge
  simp only [Except.bind_eq_ok, ensure_eq_ok_iff, Except.pure_eq_ok] at hMerge
  rcases hMerge with ⟨_, _, _, _, _, _, _, ⟨hNe, _⟩, _, _, _, _, _, _, _, _, _,
      _, _, _, f, hFold, hEq⟩
  rcases moveToBase_foldlM_frame hFold with ⟨⟨members, hStore⟩, _⟩
  have hStored : StaleMarked f.store := by
    rw [hStore]
    exact hMarked.frame rfl rfl
  rcases deleteRoot_eq
      { f.store with
        ringKeys := f.store.ringKeys.insert (b, 0) f.keys
        ringKeysStatus := f.store.ringKeysStatus.insert b
            { s.ringStatus b with
              total := saturatingAdd u32Max (s.ringStatus b).total (s.ringPage t 0).length } }
      now t with
    ⟨_, _, _, hDelete, _⟩
  -- The base ring is marked before the target ring goes.
  have hBase :
      StaleMarked { f.store with
        ringKeysStatus := f.store.ringKeysStatus.insert b
            { s.ringStatus b with
              total := saturatingAdd u32Max (s.ringStatus b).total (s.ringPage t 0).length }
        staleRings := insert b f.store.staleRings } :=
    hStored.insertStatus rfl (fun _ _ hMem => Finset.mem_insert_of_mem hMem)
      (fun _ => Finset.mem_insert_self _ _)
  rw [← hEq, hDelete]
  exact hBase.removeStatus rfl rfl

theorem StaleMarked.removeSuspendedKeys (now : Nat) (r : RingIndex) (hMarked : StaleMarked s) :
    StaleMarked (s.removeSuspendedKeys now r) := by
  unfold CollectionStore.removeSuspendedKeys
  cases s.collection with
  | none => exact hMarked
  | some info =>
    rcases retainKeys r 0 (s.pending r) (s.page r 0) s.members .empty with ⟨fits, members, newKeys⟩
    by_cases hFits : fits = false
    · simp only [if_pos hFits]
      exact hMarked.frame rfl rfl
    · rcases resetRoot_eq (s.writeRetained r members newKeys) now info.ringSize r with
        ⟨root, oldRoots, hReset, _⟩
      simp only [if_neg hFits, hReset]
      refine hMarked.insertStatus rfl ?_ ?_
      · intro r' _ hMem
        dsimp only
        split_ifs
        · exact Finset.mem_insert_of_mem hMem
        · exact hMem
      · intro hLt
        dsimp only at hLt ⊢
        rw [if_pos hLt]
        exact Finset.mem_insert_self _ _

theorem StaleMarked.enqueue (now : Nat) (r : RingIndex) (hMarked : StaleMarked s) :
    StaleMarked (s.enqueueRingForDeletion now r) := by
  rcases deleteRoot_eq s now r with ⟨_, _, _, hDelete, _⟩
  unfold enqueueRingForDeletion
  rw [hDelete]
  simp only
  split_ifs
  · exact hMarked.removeStatus rfl rfl
  · exact hMarked.removeStatus rfl rfl

--
-- Every Operation
--

theorem not_ensureCanMarkRingStale (hMarked : StaleMarked s) (r : RingIndex) :
    s.ensureCanMarkRingStale r ≠ .ok () := by
  intro hMark
  unfold ensureCanMarkRingStale at hMark
  simp only [Except.bind_eq_ok, ensure_eq_ok_iff] at hMark
  rcases hMark with ⟨_, _, _, hUnmarked, hNeeds⟩
  exact hUnmarked (hMarked r hNeeds)

theorem StaleMarked.apply {call : TimedOp T} (hMarked : StaleMarked s)
    (hApply : s.apply call = .ok s') :
    StaleMarked s' := by
  rcases call with ⟨now, op⟩
  cases op with
  | createCollection owner size mode ringSize delay =>
    rcases createCollection_eq_ok hApply with ⟨_, _, _, _, rfl⟩
    exact hMarked.frame rfl rfl
  | addMembers keys =>
    rcases addMembers_frame hApply with ⟨_, _, _, rfl⟩
    exact hMarked.frame rfl rfl
  | removeRing r =>
    rcases removeRing_eq_ok hApply with ⟨_, _, ⟨_, hEq⟩ | ⟨_, hEq⟩⟩
    · rw [hEq]
      exact hMarked
    · rw [hEq]
      exact hMarked.enqueue now r
  | deleteCollection owner =>
    rcases deleteCollection_eq_ok hApply with ⟨_, _, rfl⟩
    exact hMarked.frame rfl rfl
  | removeMembers keys =>
    rcases queueMemberSuspensions_frame hApply with ⟨_, _, _, rfl⟩
    exact hMarked.frame rfl rfl
  | startRemovalSession =>
    rcases startRemovalSession_eq_ok hApply with ⟨_, rfl, _⟩
    exact hMarked.frame rfl rfl
  | endRemovalSession =>
    rcases endRemovalSession_eq_ok hApply with ⟨_, rfl, _⟩
    exact hMarked.frame rfl rfl
  | mergeRings b t => exact hMarked.mergeRings hApply
  | setOnboardingSize size =>
    rw [setOnboardingSize_eq_ok hApply]
    exact hMarked.frame rfl rfl
  | selfInclude signature message member callValidAt =>
    exact hMarked.doSelfInclude (selfInclude_eq_ok hApply)
  | buildRing ready r ringExponent revision toInclude =>
    rcases buildRingAuthorized_eq_ok hApply with ⟨_, hLe, hPos, hBuild⟩
    refine hMarked.buildRing ?_ hBuild
    unfold NeedsBuild
    omega
  | onboardMembers r head first =>
    rcases onboardMembersAuthorized_eq_ok hApply with ⟨b, hOnboard⟩
    exact hMarked.onboardMembers hOnboard
  | mergeQueuePages h h' =>
    rcases mergeQueuePages_frame (mergeQueuePagesAuthorized_eq_ok hApply).2.2.2 with ⟨_, _, _, rfl⟩
    exact hMarked.frame rfl rfl
  | removeSuspendedKeys r revision =>
    rw [(removeSuspendedKeysAuthorized_eq_ok hApply).2.2.2]
    exact hMarked.removeSuspendedKeys now r
  | deleteRingPage r p =>
    rcases deleteRingPageAuthorized_eq_ok hApply with ⟨_, rfl⟩
    exact hMarked.frame rfl rfl
  | enqueueRingDeletion r =>
    rw [(enqueueRingDeletionAuthorized_eq_ok hApply).2]
    exact hMarked.enqueue now r
  | deleteOnboardingQueuePage p =>
    rcases deleteOnboardingQueuePageAuthorized_eq_ok hApply with ⟨_, _, _, rfl⟩
    exact hMarked.frame rfl rfl
  | finalizeCollectionDeletion =>
    rcases finalizeCollectionDeletion_eq_ok hApply with ⟨_, _, _, rfl⟩
    exact hMarked.frame rfl rfl
  | removeOrphanedMembers =>
    rcases removeOrphanedMembers_eq_ok hApply with ⟨_, _, rfl⟩
    exact hMarked.frame rfl rfl
  | markRingStale r =>
    rw [markRingStale_eq_ok hApply]
    exact fun r' hNeeds => Finset.mem_insert_of_mem (hMarked r' hNeeds)
  | cleanUpOldRoots r limit =>
    rcases cleanUpOldRoots_eq_ok hApply with ⟨_, rfl⟩
    exact hMarked.frame rfl rfl

--
-- Runs
--

namespace PalletState

/-
  In every reachable state, every ring with keys that are not included is marked as stale, for every
  collection.  The checks of the repair call never pass.
-/
theorem stale_rings_complete (id : Identifier) (s : PalletState T)
    (hRun : RunUnder dispatch (fun _ _ _ => True) genesis s) :
    (∀ r, ((s.stores id).ringStatus r).included < ((s.stores id).ringStatus r).total →
        r ∈ (s.stores id).staleRings) ∧
      ∀ r, (s.stores id).ensureCanMarkRingStale r ≠ .ok () := by
  have hMarked : StaleMarked (s.stores id) :=
    store_invariant_of_run (fun _ store => StaleMarked store) hRun
      (fun _ _ _ _ _ hApply _ hOld => hOld.apply hApply)
      (fun _ => staleMarked_empty) id
  exact ⟨hMarked, not_ensureCanMarkRingStale hMarked⟩

/-
  A ring that needs a build, in a run of the sample: two
  members are onboarded and one of them is built in.
-/
theorem stale_rings_complete_sample : ∃ s : PalletState sampleConfig,
      (0 : RingIndex) ∈ (s.stores sampleIdentifier).staleRings
        ∧ (s.stores sampleIdentifier).ensureCanMarkRingStale 0 ≠ .ok () := by
  have hTest : (performAll (fun _ _ => true)
        [⟨0, .createCollection () 1 .flexible .r2e9 none⟩, ⟨0, .addMembers [10, 11]⟩,
          ⟨0, .onboardMembers 0 0 (some (10 : Nat))⟩,
          ⟨0, .buildRing true 0 .r2e9 none 1⟩]).any
        (fun s =>
          let status := (s.stores sampleIdentifier).ringStatus 0
          status.included < status.total) = true := by
    decide +kernel
  have hReached : ∃ s, RunUnder dispatch (fun _ _ _ => True) genesis s ∧ _ :=
    exists_run_of_execute (fun _ _ _ _ _ => trivial) hTest
  rcases hReached with ⟨s, hRun, hNeeds⟩
  have hComplete := stale_rings_complete sampleIdentifier s hRun
  rw [decide_eq_true_eq] at hNeeds
  exact ⟨s, hComplete.1 0 hNeeds, hComplete.2 0⟩

end PalletState

end Individuality.MembersPallet
