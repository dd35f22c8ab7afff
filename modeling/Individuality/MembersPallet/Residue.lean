import Individuality.MembersPallet.QueueOrder

/-
  Everything that is stored for a ring of a collection is found by the steps that delete the
  collection: while it is stored, the ring has a status, or its pages wait for their deletion.  When
  the deletion is finalized nothing is left.

  Main declaration: `PalletState.no_residue`
-/

namespace Individuality.MembersPallet

open Except (bind_eq_ok pure_eq_ok)
open StorageMap (getD_insert getD_remove get_insert get_remove)

variable {T : Config} {s' : CollectionStore T} {r r' : RingIndex} {keys : List T.Member}
variable {now : Nat} {call : TimedOp T}

open CollectionStore

--
-- Stored Blocks
--

/- No block of the map is stored without an element. -/
def NoEmptyBlock {κ α : Type} [DecidableEq κ] {n : Nat}
    (m : StorageMap κ (BoundedVec α n)) : Prop :=
  ∀ k v, m.get k = some v → v.toList ≠ []

namespace NoEmptyBlock

variable {κ α : Type} [DecidableEq κ] {n : Nat} {m : StorageMap κ (BoundedVec α n)}

theorem insert (hBlocks : NoEmptyBlock m) (k : κ) {v : BoundedVec α n} (hNe : v.toList ≠ []) :
    NoEmptyBlock (m.insert k v) := by
  intro k' v' hGet
  rw [get_insert] at hGet
  split_ifs at hGet
  · rw [Option.some.injEq] at hGet
    rw [← hGet]
    exact hNe
  · exact hBlocks k' v' hGet

theorem remove (hBlocks : NoEmptyBlock m) (k : κ) :
    NoEmptyBlock (m.remove k) := by
  intro k' v' hGet
  rw [get_remove] at hGet
  split_ifs at hGet
  exact hBlocks k' v' hGet

theorem get_eq_none (hBlocks : NoEmptyBlock m) {k : κ} (hNil : (m.getD k .empty).toList = []) :
    m.get k = none := by
  cases hGet : m.get k with
  | none => rfl
  | some v =>
    unfold StorageMap.getD at hNil
    rw [hGet] at hNil
    exact absurd hNil (hBlocks k v hGet)

end NoEmptyBlock

/- The stored pages, pending positions and stale rings. -/
structure Stored (s : CollectionStore T) : Prop where
  page : NoEmptyBlock s.ringKeys
  pending : NoEmptyBlock s.pendingSuspensions
  stale : ∀ r ∈ s.staleRings, s.ringKeysStatus.get r ≠ none

theorem stored_empty : Stored (CollectionStore.empty : CollectionStore T) where
  page := by
    intro e page hGet
    simp [CollectionStore.empty] at hGet
  pending := by
    intro r positions hGet
    simp [CollectionStore.empty] at hGet
  stale := by
    intro r hMem
    exact absurd hMem (Finset.notMem_empty r)

theorem Stored.frame {s : CollectionStore T} (hStored : Stored s) (hKeys : s'.ringKeys = s.ringKeys)
    (hPending : s'.pendingSuspensions = s.pendingSuspensions)
    (hStale : s'.staleRings = s.staleRings) (hStatus : s'.ringKeysStatus = s.ringKeysStatus) :
    Stored s' := by
  refine ⟨?_, ?_, ?_⟩
  · rw [hKeys]
    exact hStored.page
  · rw [hPending]
    exact hStored.pending
  · rw [hStale, hStatus]
    exact hStored.stale

theorem get_insert_ne_none {ν : Type} (m : StorageMap RingIndex ν) (r : RingIndex) (v : ν)
    (hRing : r' = r ∨ m.get r' ≠ none) :
    (m.insert r v).get r' ≠ none := by
  rw [get_insert]
  split_ifs with hIs
  · exact Option.some_ne_none v
  · rcases hRing with hSame | hOld
    · exact absurd hSame hIs
    · exact hOld

--
-- What the Operations Store
--

theorem Stored.suspendMember {s : CollectionStore T} {key : T.Member} (hStored : Stored s)
    (hSuspend : CollectionStore.suspendMember s key = .ok s') :
    Stored s' := by
  rcases suspendMember_cases hSuspend with ⟨r, p, i, indices, _, _, hIndices, hEq⟩
      | ⟨q, t, _, hEq⟩ | ⟨_, hEq⟩
  · have hNe : indices.toList ≠ [] := by
      rw [hIndices]
      apply List.ne_nil_of_mem
      rw [List.mem_orderedInsert]
      exact Or.inl rfl
    rw [hEq]
    exact ⟨hStored.page, hStored.pending.insert r hNe, hStored.stale⟩
  · rcases suspendQueued_frame s q key with ⟨queue, hQueue⟩
    rw [hEq, hQueue]
    exact hStored.frame rfl rfl rfl rfl
  · rw [hEq]
    exact hStored.frame rfl rfl rfl rfl

theorem placeKeys_stored {f f' : Filling T} (hBlocks : NoEmptyBlock f.store.ringKeys)
    (hPlace : placeKeys r f keys = .ok f') :
    NoEmptyBlock f'.store.ringKeys := by
  refine List.foldlM_invariant (fun f => NoEmptyBlock f.store.ringKeys) hPlace ?_ hBlocks
  intro f key f' _ hStep hOld
  rcases placeKey_eq_ok hStep with ⟨page, hPage, hEq⟩
  rw [hEq]
  split_ifs
  · apply hOld.insert
    rw [hPage]
    simp
  · exact hOld

theorem close_stored {f : Filling T} (r : RingIndex) (hBlocks : NoEmptyBlock f.store.ringKeys) :
    NoEmptyBlock (f.close r).ringKeys := by
  unfold Filling.close
  split_ifs with hEmpty
  · exact hBlocks
  · apply hBlocks.insert
    intro hNil
    exact hEmpty ((BoundedVec.isEmpty_iff _).mpr hNil)

/- A ring that takes members is stale and has a status. -/
theorem Stored.recordAdditions {s : CollectionStore T}
    (top : AvailableRing T) (added : Nat) (filled : Bool) (hStored : Stored s) :
    Stored (s.recordAdditions top added filled) := by
  refine ⟨hStored.page, hStored.pending, ?_⟩
  intro r hMem
  have hOld : r = top.ringIndex ∨ r ∈ s.staleRings := Finset.mem_insert.mp hMem
  apply get_insert_ne_none
  rcases hOld with hSame | hOld
  · exact Or.inl hSame
  · exact Or.inr (hStored.stale r hOld)

theorem Stored.onboardMembers {s : CollectionStore T} {b : Bool} (hStored : Stored s)
    (hOnboard : s.onboardMembers true = .ok (b, s')) :
    Stored s' := by
  rcases onboardMembers_eq_ok hOnboard with
    ⟨info, s₁, top, head, front, n, filled, f, _, hTop, _, _, _, hPlace, hRestore⟩
  have hAvailable := availableRing_frame hTop
  have hFilled : Stored (f.close top.ringIndex) := by
    rcases placeKeys_frame hPlace with ⟨members, ringKeys, hStore, _⟩
    rcases close_frame f top.ringIndex with ⟨ringKeys', hClose, _⟩
    refine ⟨?_, ?_, ?_⟩
    · apply close_stored top.ringIndex
      apply placeKeys_stored ?_ hPlace
      rw [hAvailable]
      exact hStored.page
    · rw [hClose, hStore, hAvailable]
      exact hStored.pending
    · rw [hClose, hStore, hAvailable]
      exact hStored.stale
  rcases restoreQueue_frame hRestore with ⟨newHead, queue, hEq⟩
  rw [hEq]
  exact (hFilled.recordAdditions top n filled).frame rfl rfl rfl rfl

theorem Stored.doSelfInclude {s : CollectionStore T} {key : T.Member} (hStored : Stored s)
    (hInclude : s.doSelfInclude key = .ok s') :
    Stored s' := by
  rcases doSelfInclude_eq_ok hInclude with
    ⟨info, q, t, idx, s₂, top, keys, _, _, _, _, hTop, hKeys, hEq⟩
  have hAvailable := availableRing_frame hTop
  rcases removeFromQueuePage_frame s q idx with ⟨head, queue, hRemove⟩
  rw [hRemove] at hAvailable
  rw [hEq]
  apply Stored.recordAdditions
  rw [hAvailable]
  refine ⟨?_, hStored.pending, hStored.stale⟩
  apply hStored.page.insert
  rw [hKeys]
  simp

variable {rings : Finset RingIndex}

theorem mem_of_mem_ite_erase {c : Prop} [Decidable c]
    (hMem : r' ∈ if c then rings.erase r else rings) :
    r' ∈ rings := by
  split_ifs at hMem
  · exact Finset.mem_of_mem_erase hMem
  · exact hMem

theorem mem_of_mem_ite_insert {c : Prop} [Decidable c]
    (hMem : r' ∈ if c then insert r rings else rings) :
    r' = r ∨ r' ∈ rings := by
  split_ifs at hMem
  · exact Finset.mem_insert.mp hMem
  · exact Or.inr hMem

theorem buildRing_staleRings {s : CollectionStore T} {ready : Bool} {toInclude : Nat}
    (hBuild : s.buildRing now ready r toInclude = .ok s') :
    ∀ r' ∈ s'.staleRings, r' ∈ s.staleRings := by
  intro r' hMem
  unfold buildRing at hBuild
  simp only [bind_eq_ok, pure_eq_ok] at hBuild
  rcases hBuild with ⟨_, _, ⟨next, i⟩, _, _, _, _, _, hEq⟩
  rw [← hEq] at hMem
  exact mem_of_mem_ite_erase hMem

theorem mergeRings_staleRings {s : CollectionStore T} {b t : RingIndex}
    (hMerge : s.mergeRings now b t = .ok s') :
    ∀ r ∈ s'.staleRings, r ≠ t ∧ (r = b ∨ r ∈ s.staleRings) := by
  intro r hMem
  unfold mergeRings at hMerge
  simp only [bind_eq_ok, pure_eq_ok] at hMerge
  rcases hMerge with ⟨_, _, _, _, _, _, _, _, _, _, _, _, _, _, _, _, _, _, _,
      _, f, hFold, hEq⟩
  rcases moveToBase_foldlM_frame hFold with ⟨⟨members, hStore⟩, _⟩
  rw [← hEq] at hMem
  have hErase := Finset.mem_erase.mp hMem
  refine ⟨hErase.1, ?_⟩
  have hInsert := Finset.mem_insert.mp hErase.2
  rcases hInsert with hSame | hOld
  · exact Or.inl hSame
  · right
    rcases deleteRoot_eq
        { f.store with
          ringKeys := f.store.ringKeys.insert (b, 0) f.keys
          ringKeysStatus := f.store.ringKeysStatus.insert b
              { s.ringStatus b with
                total := saturatingAdd u32Max (s.ringStatus b).total (s.ringPage t 0).length } }
        now t with
      ⟨_, _, _, hDelete, _⟩
    rw [hDelete, hStore] at hOld
    exact hOld

theorem Stored.mergeRings {s : CollectionStore T} {b t : RingIndex} (hStored : Stored s)
    (hMerge : s.mergeRings now b t = .ok s') :
    Stored s' := by
  have hStale := mergeRings_staleRings hMerge
  rcases mergeRings_eq_ok hMerge with ⟨info, f, root, oldRoots, changes, stale, _, _, _, _, _, _,
      hBase, _, _, _, _, _, hFold, _, _, hEq⟩
  have hKeys := (moveToBase_foldlM_frame hFold).2
  refine ⟨?_, ?_, ?_⟩
  · rw [hEq]
    apply NoEmptyBlock.remove
    apply hStored.page.insert
    rw [hKeys]
    intro hNil
    exact hBase (List.append_eq_nil_iff.mp hNil).1
  · rw [hEq]
    exact hStored.pending
  · intro r hMem
    rcases hStale r hMem with ⟨hNe, hFrom⟩
    have hStatus : s'.ringKeysStatus = (s.ringKeysStatus.insert b
              { s.ringStatus b with
                total := saturatingAdd u32Max (s.ringStatus b).total
                    (s.page t 0).length }).remove t := by
      rw [hEq]
    rw [hStatus, get_remove, if_neg hNe]
    apply get_insert_ne_none
    rcases hFrom with hSame | hOld
    · exact Or.inl hSame
    · exact Or.inr (hStored.stale r hOld)

theorem Stored.removeSuspendedKeys {s : CollectionStore T} (now : Nat) (r : RingIndex)
    (hStored : Stored s) :
    Stored (s.removeSuspendedKeys now r) := by
  unfold CollectionStore.removeSuspendedKeys
  cases s.collection with
  | none => exact hStored
  | some info =>
    rcases retainKeys r 0 (s.pending r) (s.page r 0) s.members .empty with ⟨fits, members, newKeys⟩
    by_cases hFits : fits = false
    · simp only [if_pos hFits]
      exact hStored.frame rfl rfl rfl rfl
    · rcases resetRoot_eq (s.writeRetained r members newKeys) now info.ringSize r with
        ⟨root, oldRoots, hReset, _⟩
      simp only [if_neg hFits, hReset]
      refine ⟨?_, hStored.pending.remove r, ?_⟩
      · simp only [writeRetained]
        split_ifs with hEmpty
        · exact hStored.page.remove (r, 0)
        · apply hStored.page.insert
          intro hNil
          exact hEmpty ((BoundedVec.isEmpty_iff _).mpr hNil)
      · intro r' hMem
        apply get_insert_ne_none
        rcases mem_of_mem_ite_insert hMem with hSame | hOld
        · exact Or.inl hSame
        · exact Or.inr (hStored.stale r' hOld)

theorem Stored.enqueue {s : CollectionStore T} (now : Nat) (r : RingIndex) (hStored : Stored s) :
    Stored (s.enqueueRingForDeletion now r) := by
  have hStale : ∀ r' ∈ (s.enqueueRingForDeletion now r).staleRings, r' ≠ r ∧ r' ∈ s.staleRings := by
    intro r' hMem
    rcases deleteRoot_eq s now r with ⟨_, _, _, hDelete, _⟩
    unfold enqueueRingForDeletion at hMem
    rw [hDelete] at hMem
    simp only at hMem
    split_ifs at hMem
    · exact Finset.mem_erase.mp hMem
    · exact Finset.mem_erase.mp hMem
  rcases enqueueRingForDeletion_eq s now r with ⟨root, oldRoots, changes, stale, _, _, hEq⟩
  refine ⟨?_, ?_, ?_⟩
  · rw [hEq]
    exact hStored.page
  · rw [hEq]
    exact hStored.pending.remove r
  · intro r' hMem
    rcases hStale r' hMem with ⟨hNe, hOld⟩
    rw [hEq]
    simp only [get_remove, if_neg hNe]
    exact hStored.stale r' hOld

theorem status_ne_none_of_total {s : CollectionStore T} (hTotal : 0 < (s.ringStatus r).total) :
    s.ringKeysStatus.get r ≠ none := by
  intro hNone
  unfold ringStatus StorageMap.getD at hTotal
  rw [hNone] at hTotal
  exact Nat.lt_irrefl 0 hTotal

theorem markRingStale_total {s : CollectionStore T} (hMark : s.markRingStaleAuthorized r = .ok s') :
    0 < (s.ringStatus r).total := by
  unfold markRingStaleAuthorized ensureCanMarkRingStale at hMark
  simp only [bind_eq_ok, ensure_eq_ok_iff] at hMark
  rcases hMark with ⟨_, ⟨_, _, _, _, hLt⟩, _⟩
  exact Nat.zero_lt_of_lt hLt

theorem Stored.apply {s : CollectionStore T} (hStored : Stored s) (hApply : s.apply call = .ok s') :
    Stored s' := by
  rcases call with ⟨now, op⟩
  cases op with
  | createCollection owner size mode ringSize delay =>
    rcases createCollection_eq_ok hApply with ⟨_, _, _, _, rfl⟩
    exact hStored.frame rfl rfl rfl rfl
  | addMembers keys =>
    rcases addMembers_frame hApply with ⟨_, _, _, rfl⟩
    exact hStored.frame rfl rfl rfl rfl
  | removeRing r =>
    rcases removeRing_eq_ok hApply with ⟨_, _, ⟨_, hEq⟩ | ⟨_, hEq⟩⟩
    · rw [hEq]
      exact hStored
    · rw [hEq]
      exact hStored.enqueue now r
  | deleteCollection owner =>
    rcases deleteCollection_eq_ok hApply with ⟨_, _, rfl⟩
    exact hStored.frame rfl rfl rfl rfl
  | removeMembers keys =>
    refine List.foldlM_invariant Stored (queueMemberSuspensions_eq_ok hApply).2 ?_ hStored
    intro x key y _ hStep hBefore
    exact hBefore.suspendMember hStep
  | startRemovalSession =>
    rcases startRemovalSession_eq_ok hApply with ⟨_, rfl, _⟩
    exact hStored.frame rfl rfl rfl rfl
  | endRemovalSession =>
    rcases endRemovalSession_eq_ok hApply with ⟨_, rfl, _⟩
    exact hStored.frame rfl rfl rfl rfl
  | mergeRings b t => exact hStored.mergeRings hApply
  | setOnboardingSize size =>
    rw [setOnboardingSize_eq_ok hApply]
    exact hStored.frame rfl rfl rfl rfl
  | selfInclude signature message member callValidAt =>
    exact hStored.doSelfInclude (selfInclude_eq_ok hApply)
  | buildRing ready r ringExponent revision toInclude =>
    have hBuild := (buildRingAuthorized_eq_ok hApply).2.2.2
    have hStale := buildRing_staleRings hBuild
    rcases buildRing_eq_ok hBuild with ⟨_, _, _, _, _, _, _, _, _, _, hEq⟩
    refine ⟨?_, ?_, ?_⟩
    · rw [hEq]
      exact hStored.page
    · rw [hEq]
      exact hStored.pending
    · intro r' hMem
      have hOld := hStored.stale r' (hStale r' hMem)
      rw [hEq]
      exact get_insert_ne_none _ _ _ (Or.inr hOld)
  | onboardMembers r head first =>
    rcases onboardMembersAuthorized_eq_ok hApply with ⟨b, hOnboard⟩
    exact hStored.onboardMembers hOnboard
  | mergeQueuePages h h' =>
    rcases mergeQueuePages_frame (mergeQueuePagesAuthorized_eq_ok hApply).2.2.2 with ⟨_, _, _, rfl⟩
    exact hStored.frame rfl rfl rfl rfl
  | removeSuspendedKeys r revision =>
    rw [(removeSuspendedKeysAuthorized_eq_ok hApply).2.2.2]
    exact hStored.removeSuspendedKeys now r
  | deleteRingPage r p =>
    rcases deleteRingPageAuthorized_eq_ok hApply with ⟨_, rfl⟩
    exact ⟨hStored.page.remove (r, p), hStored.pending, hStored.stale⟩
  | enqueueRingDeletion r =>
    rw [(enqueueRingDeletionAuthorized_eq_ok hApply).2]
    exact hStored.enqueue now r
  | deleteOnboardingQueuePage p =>
    rcases deleteOnboardingQueuePageAuthorized_eq_ok hApply with ⟨_, _, _, rfl⟩
    exact hStored.frame rfl rfl rfl rfl
  | finalizeCollectionDeletion =>
    rcases finalizeCollectionDeletion_eq_ok hApply with ⟨_, _, _, rfl⟩
    exact hStored.frame rfl rfl rfl rfl
  | removeOrphanedMembers =>
    rcases removeOrphanedMembers_eq_ok hApply with ⟨_, _, rfl⟩
    exact hStored.frame rfl rfl rfl rfl
  | markRingStale r =>
    have hTotal := markRingStale_total hApply
    rw [markRingStale_eq_ok hApply]
    refine ⟨hStored.page, hStored.pending, ?_⟩
    intro r' hMem
    rcases Finset.mem_insert.mp hMem with hSame | hOld
    · rw [hSame]
      exact status_ne_none_of_total hTotal
    · exact hStored.stale r' hOld
  | cleanUpOldRoots r limit =>
    rcases cleanUpOldRoots_eq_ok hApply with ⟨_, rfl⟩
    exact hStored.frame rfl rfl rfl rfl

--
-- What Is Stored for a Ring
--

/-
  A page with keys waits for its deletion or is counted by the total of its ring, and a ring with
  pending suspensions has a status.
-/
structure Attributed (s : CollectionStore T) : Prop where
  page : ∀ r p, s.page r p ≠ [] →
      (r, p) ∈ s.ringDeletionQueue
        ∨ p < pageCount T.flexibleRingCapacity
          (s.ringStatus r).total
  pending : ∀ r, s.pending r ≠ [] → s.ringKeysStatus.get r ≠ none

/-
  What an operation has to respect: no member is suspended whose ring has no status any more, and no
  later page of a ring is ignored by a removal of suspended keys.
-/
def KeepsAttribution (s : CollectionStore T) : Op T → Prop
  | .removeMembers keys =>
    ∀ key ∈ keys, ∀ r p i,
      s.members.get key = some (.included r p i) → s.ringKeysStatus.get r ≠ none
  | .removeSuspendedKeys r _ => SinglePage s r
  | _ => True

theorem attributed_empty :
    Attributed (CollectionStore.empty : CollectionStore T) where
  page := fun _ _ hPage => absurd rfl hPage
  pending := fun _ hPending => absurd rfl hPending

theorem KeepsAttribution.resets {s : CollectionStore T} {op : Op T}
    (hKeeps : KeepsAttribution s op) :
    ResetsSinglePage s op s.currentRingIndex := by
  intro info revision keys _ hOp _ _
  subst hOp
  exact hKeeps

/- A ring whose keys are paged is counted page by page. -/
theorem RingHolds.lt_pageCount {s : CollectionStore T} {p : PageIndex} (hHolds : RingHolds s r keys)
    (hPage : s.page r p ≠ []) :
    p < pageCount T.flexibleRingCapacity (s.ringStatus r).total := by
  rw [lt_pageCount_iff T.flexibleRingCapacity_pos, hHolds.total]
  by_contra hLe
  exact hPage (hHolds.paged.page_eq_nil (Nat.not_lt.mp hLe))

theorem pos_pageCount (T : Config) {total : Nat} (hPos : 0 < total) :
    0 < pageCount T.flexibleRingCapacity total := by
  rw [lt_pageCount_iff T.flexibleRingCapacity_pos, Nat.zero_mul]
  exact hPos

/- Only the rings of included members get pending positions. -/
theorem suspensions_pending {s : CollectionStore T}
    (hPending : ∀ r, s.pending r ≠ [] → s.ringKeysStatus.get r ≠ none)
    (hKeeps : ∀ key ∈ keys, ∀ r p i, s.members.get key = some (.included r p i) →
        s.ringKeysStatus.get r ≠ none)
    (hFold : keys.foldlM CollectionStore.suspendMember s = .ok s') :
    ∀ r, s'.pending r ≠ [] → s.ringKeysStatus.get r ≠ none := by
  have hAll : (∀ r, s'.pending r ≠ [] → s.ringKeysStatus.get r ≠ none) ∧ ∀ key r p i,
          s'.members.get key = some (.included r p i) →
            s.members.get key = some (.included r p i) := by
    refine List.foldlM_invariant (fun x : CollectionStore T =>
        (∀ r, x.pending r ≠ [] → s.ringKeysStatus.get r ≠ none) ∧ ∀ key r p i,
            x.members.get key = some (.included r p i) → s.members.get key = some (.included r p i))
      hFold ?_ ⟨hPending, fun _ _ _ _ hGet => hGet⟩
    rintro x key y hMem hStep ⟨hPend, hEntries⟩
    have hOthers : ∀ k r p i, (x.members.insert key .suspended).get k = some (.included r p i) →
            s.members.get k = some (.included r p i) := by
      intro k r p i hGet
      rw [get_insert] at hGet
      split_ifs at hGet
      · simp at hGet
      · exact hEntries k r p i hGet
    rcases suspendMember_cases hStep with ⟨r, p, i, indices, hGet, _, _, hEq⟩
        | ⟨q, t, _, hEq⟩ | ⟨_, hEq⟩
    · rw [hEq]
      refine ⟨?_, hOthers⟩
      intro r' hNe
      rw [pending, getD_insert] at hNe
      split_ifs at hNe with hRing
      · rw [hRing]
        exact hKeeps key hMem r p i (hEntries key r p i hGet)
      · exact hPend r' hNe
    · rcases suspendQueued_frame x q key with ⟨queue, hQueue⟩
      rw [hEq, hQueue]
      exact ⟨hPend, hOthers⟩
    · rw [hEq]
      exact ⟨hPend, hOthers⟩
  exact hAll.1

theorem RingEffect.attributed {s : CollectionStore T} {op : Op T} (hEffect : RingEffect s op s')
    (hSound : CurrentSound s)
    (hFlexible : s.collection.isSome = true → Flexible s → ∀ r, SinglePage s r)
    (hKeeps : KeepsAttribution s op) (hOld : Attributed s) :
    Attributed s' := by
  cases hEffect with
  | suspended keys pendingSuspensions queue members hMutating
      hFold =>
      refine ⟨hOld.page, ?_⟩
      intro r hPending
      exact suspensions_pending hOld.pending hKeeps hFold r hPending
  | added op s' info top hOp hNew hAddition =>
    have hLive : s.collection.isSome = true := by
      rw [hAddition.collection]
      rfl
    rcases Addition.holds hSound.life (hSound.current hLive) hSound.isOpen hAddition with
      ⟨keys, _, hTop, hHolds, _⟩
    rcases hAddition.writes with ⟨_, _, _, _, _, _, hOthers, hEq⟩
    refine ⟨?_, ?_⟩
    · intro r p hPage
      by_cases hRing : r = s.currentRingIndex
      · right
        rw [hRing] at hPage ⊢
        exact hHolds.lt_pageCount hPage
      · have hNe : r ≠ top.ringIndex := by
          rw [hTop]
          exact hRing
        rw [hEq] at hPage ⊢
        have hPage' : s.page r p ≠ [] := by
          intro hNil
          exact hPage ((hOthers r p hNe).trans hNil)
        simp only [ringStatus, ringStatus_insert, if_neg hNe]
        exact hOld.page r p hPage'
    · intro r hPending
      rw [hEq] at hPending ⊢
      exact get_insert_ne_none _ _ _ (Or.inr (hOld.pending r hPending))
  | built op info r toInclude i root stale oldRoots
      immutableSince hInfo hUnincluded hFrom hPush hFinish =>
      refine ⟨?_, ?_⟩
      · intro r' p hPage
        have hTotal := collectKeys_total s r toInclude (s.ringStatus r) toInclude []
        simp only [ringStatus] at hTotal
        simp only [ringStatus, ringStatus_insert]
        have hBefore := hOld.page r' p hPage
        simp only [ringStatus] at hBefore
        split_ifs with hRing
        · rw [hRing] at hBefore ⊢
          rw [hTotal]
          exact hBefore
        · exact hBefore
      · intro r' hPending
        exact get_insert_ne_none _ _ _ (Or.inr (hOld.pending r' hPending))
  | merged b t info f root oldRoots changes stale hInfo hMode
      hNe hBaseNe hTargetNe hBase hTarget hLengths hBasePending
      hTargetPending hKeys hFold hRoot hChanges =>
      have hSingle : ∀ r, SinglePage s r := by
        apply hFlexible
        · rw [hInfo]
          rfl
        · intro info' hInfo'
          rw [hInfo, Option.some.injEq] at hInfo'
          rw [← hInfo']
          exact hMode
      refine ⟨?_, ?_⟩
      · intro r p hPage
        simp only [CollectionStore.page, ringPage, getD_remove, getD_insert]
          at hPage
        split_ifs at hPage with hIsTarget hIsBase
        · exact absurd rfl hPage
        · right
          rw [Prod.mk.injEq] at hIsBase
          rw [hIsBase.1, hIsBase.2]
          simp only [ringStatus, getD_remove, if_neg hNe, getD_insert, if_true]
          apply pos_pageCount
          apply saturatingAdd_pos (by decide)
          exact List.length_pos_iff.mpr hTarget
        · have hZero : p = 0 := by
            by_contra hPos
            exact hPage (hSingle r p (Nat.pos_of_ne_zero hPos))
          rw [hZero] at hPage hIsTarget hIsBase ⊢
          have hNotTarget : r ≠ t := by
            intro hIs
            exact hIsTarget (by rw [hIs])
          have hNotBase : r ≠ b := by
            intro hIs
            exact hIsBase (by rw [hIs])
          simp only [ringStatus, getD_remove, getD_insert, if_neg hNotTarget, if_neg hNotBase]
          exact hOld.page r 0 hPage
      · intro r hPending
        have hNotTarget : r ≠ t := by
          intro hIs
          rw [hIs] at hPending
          exact hPending hTargetPending
        simp only [get_remove, if_neg hNotTarget]
        exact get_insert_ne_none _ _ _ (Or.inr (hOld.pending r hPending))
  | reset r revision info root oldRoots stale ringKeys hInfo
      hPending hRoot hKeys =>
      refine ⟨?_, ?_⟩
      · intro r' p hPage
        have hRead : ((ringKeys.getD (r', p) .empty : RingPage T).toList) ≠ [] := hPage
        rw [hKeys] at hRead
        simp only [ringStatus, ringStatus_insert]
        split_ifs at hRead with hIs
        · rw [Prod.mk.injEq] at hIs
          right
          rw [hIs.1, hIs.2, if_pos rfl]
          exact pos_pageCount T (List.length_pos_iff.mpr hRead)
        · by_cases hRing : r' = r
          · have hZero : p = 0 := by
              by_contra hPos
              rw [hRing] at hRead
              exact hRead (hKeeps p (Nat.pos_of_ne_zero hPos))
            rw [hRing, hZero] at hIs
            exact absurd rfl hIs
          · rw [if_neg hRing]
            exact hOld.page r' p hRead
      · intro r' hPend
        rw [pending, getD_remove] at hPend
        split_ifs at hPend with hRing
        · exact absurd rfl hPend
        · exact get_insert_ne_none _ _ _ (Or.inr (hOld.pending r' hPend))
  | enqueued op r root oldRoots changes stale hOp hRoot
      hChanges =>
      refine ⟨?_, ?_⟩
      · intro r' p hPage
        rw [Finset.mem_union, mem_ringPageEntries_iff]
        by_cases hRing : r' = r
        · left
          rcases hOld.page r' p hPage with hQueued | hCounted
          · exact Or.inl hQueued
          · rw [hRing] at hCounted
            exact Or.inr ⟨hRing, hCounted⟩
        · simp only [ringStatus, getD_remove, if_neg hRing]
          rcases hOld.page r' p hPage with hQueued | hCounted
          · exact Or.inl (Or.inl hQueued)
          · exact Or.inr hCounted
      · intro r' hPend
        rw [pending, getD_remove] at hPend
        split_ifs at hPend with hRing
        · exact absurd rfl hPend
        · simp only [get_remove, if_neg hRing]
          exact hOld.pending r' hPend
  | pageDeleted r p hMem =>
    refine ⟨?_, hOld.pending⟩
    intro r' p' hPage
    have hRemove := page_remove s (r, p) r' p'
    have hPage' : CollectionStore.page { s with ringKeys := s.ringKeys.remove (r, p) } r' p'
        ≠ [] := hPage
    rw [hRemove] at hPage'
    split_ifs at hPage' with hEq
    · exact absurd rfl hPage'
    · rcases hOld.page r' p' hPage' with hQueued | hCounted
      · left
        exact Finset.mem_erase.mpr ⟨hEq, hQueued⟩
      · exact Or.inr hCounted
  | _ => exact ⟨hOld.page, hOld.pending⟩

--
-- No Residue
--

/-
  Nothing is stored under the identifier of a collection but its retirement and its archived roots.
-/
structure NoResidue (s : CollectionStore T) : Prop where
  collection : s.collection = none
  suspendedCollection : s.suspendedCollection = none
  retired : s.retired = true
  root : ∀ r, s.root.get r = none
  currentRingIndex : s.currentRingIndex = 0
  onboardingSize : s.onboardingSize = 0
  ringKeys : ∀ r p, s.ringKeys.get (r, p) = none
  ringKeysStatus : ∀ r, s.ringKeysStatus.get r = none
  pendingSuspensions : ∀ r, s.pendingSuspensions.get r = none
  activeMembers : s.activeMembers = 0
  members : ∀ key, s.members.get key = none
  ringsState : s.ringsState = .appendOnly
  staleRings : s.staleRings = ∅
  queueHead : s.queueHead = 0
  queueTail : s.queueTail = 0
  onboardingQueue : ∀ q, s.onboardingQueue.get q = none
  ringDeletionQueue : s.ringDeletionQueue = ∅

/- The checks before a background task of the collection. -/
def Validates (s : CollectionStore T) : Op T → Prop
  | .buildRing _ r ringExponent revision toInclude =>
    s.ensureCanBuildRing r ringExponent revision toInclude = .ok ()
  | .onboardMembers r head first =>
    s.ensureCanOnboardMembers r head first = .ok ()
  | .mergeQueuePages h h' =>
    s.ensureCanMergeQueuePages h h' = .ok ()
  | .removeSuspendedKeys r revision =>
    s.ensureCanRemoveSuspendedKeys r revision = .ok ()
  | .deleteRingPage r p => (r, p) ∈ s.ringDeletionQueue
  | .enqueueRingDeletion r =>
    s.suspendedCollection.isSome = true ∧ s.ringKeysStatus.containsKey r = true
  | .deleteOnboardingQueuePage q =>
    s.ensureCanDeleteOnboardingQueuePage q = .ok ()
  | .finalizeCollectionDeletion =>
    s.ensureRingsAndQueueDeleted = .ok () ∧ s.members.isEmpty = true
  | .removeOrphanedMembers =>
    s.ensureRingsAndQueueDeleted = .ok () ∧ s.members.isEmpty = false
  | .markRingStale r => s.ensureCanMarkRingStale r = .ok ()
  | _ => False

namespace NoResidue

variable {s : CollectionStore T}

theorem pending (hNone : NoResidue s) (r : RingIndex) :
    s.pending r = [] := by
  unfold CollectionStore.pending StorageMap.getD
  rw [hNone.pendingSuspensions r]
  rfl

theorem ringStatus (hNone : NoResidue s) (r : RingIndex) :
    s.ringStatus r = {} := by
  unfold CollectionStore.ringStatus StorageMap.getD
  rw [hNone.ringKeysStatus r]
  rfl

theorem not_isSome (hNone : NoResidue s) :
    s.collection.isSome ≠ true := by
  rw [hNone.collection]
  exact Bool.false_ne_true

theorem not_suspended (hNone : NoResidue s) :
    s.suspendedCollection.isSome ≠ true := by
  rw [hNone.suspendedCollection]
  exact Bool.false_ne_true

theorem not_validates (hNone : NoResidue s) (op : Op T) :
    ¬ Validates s op := by
  intro hValid
  cases op with
  | buildRing ready r ringExponent revision toInclude =>
    unfold Validates ensureCanBuildRing at hValid
    simp only [bind_eq_ok, okOr_eq_ok_iff] at hValid
    rcases hValid with ⟨info, hInfo, _⟩
    rw [hNone.collection] at hInfo
    exact Option.some_ne_none info hInfo.symm
  | onboardMembers r head first =>
    unfold Validates ensureCanOnboardMembers at hValid
    simp only [bind_eq_ok, ensure_eq_ok_iff, canOnboardMembers, hNone.collection] at hValid
    simp at hValid
  | mergeQueuePages h h' =>
    unfold Validates ensureCanMergeQueuePages shouldMergeQueuePages at hValid
    simp [hNone.queueHead, hNone.queueTail] at hValid
  | removeSuspendedKeys r revision =>
    have hApply : s.removeSuspendedKeysAuthorized 0 r revision
          = .ok (s.removeSuspendedKeys 0 r) := by
      unfold Validates at hValid
      unfold removeSuspendedKeysAuthorized
      rw [hValid]
      rfl
    exact (removeSuspendedKeysAuthorized_eq_ok hApply).2.2.1 (hNone.pending r)
  | deleteRingPage r p =>
    unfold Validates at hValid
    rw [hNone.ringDeletionQueue] at hValid
    exact absurd hValid (Finset.notMem_empty _)
  | enqueueRingDeletion r =>
    exact hNone.not_suspended hValid.1
  | deleteOnboardingQueuePage q =>
    unfold Validates ensureCanDeleteOnboardingQueuePage at hValid
    simp only [bind_eq_ok, ensure_eq_ok_iff] at hValid
    rcases hValid with ⟨_, hSome, _⟩
    exact hNone.not_suspended hSome
  | finalizeCollectionDeletion =>
    exact hNone.not_suspended (ensureRingsAndQueueDeleted_eq_ok hValid.1).1
  | removeOrphanedMembers =>
    exact hNone.not_suspended (ensureRingsAndQueueDeleted_eq_ok hValid.1).1
  | markRingStale r =>
    have hApply : s.markRingStaleAuthorized r
          = .ok { s with
              staleRings := insert r s.staleRings } := by
      unfold Validates at hValid
      unfold markRingStaleAuthorized
      rw [hValid]
      rfl
    have hTotal := markRingStale_total hApply
    rw [hNone.ringStatus r] at hTotal
    exact Nat.lt_irrefl 0 hTotal
  | _ => exact hValid

/- Only archived roots are touched once nothing is left. -/
theorem apply (hNone : NoResidue s) (hApply : s.apply call = .ok s') :
    NoResidue s' := by
  have hNot : ∀ info, s.collection ≠ some info := by
    intro info hSome
    rw [hNone.collection] at hSome
    exact Option.some_ne_none info hSome.symm
  rcases call with ⟨now, op⟩
  cases op with
  | createCollection owner size mode ringSize delay =>
    have hRetired := (createCollection_eq_ok hApply).2.2.1
    rw [hNone.retired] at hRetired
    exact absurd hRetired (by decide)
  | addMembers keys =>
    exact absurd (addMembers_eq_ok hApply).1 hNone.not_isSome
  | removeRing r =>
    exact absurd (removeRing_eq_ok hApply).1 hNone.not_isSome
  | deleteCollection owner =>
    rcases deleteCollection_eq_ok hApply with ⟨info, hInfo, _⟩
    exact absurd hInfo (hNot info)
  | removeMembers keys =>
    have hMutating := (queueMemberSuspensions_eq_ok hApply).1
    rw [hNone.ringsState] at hMutating
    simp [RingMembersState.isMutating] at hMutating
  | startRemovalSession =>
    have hSame : s.startRemovalSession = .ok s := by
      unfold startRemovalSession
      rw [if_neg hNone.not_isSome]
    rw [← Except.ok.inj (hSame.symm.trans hApply)]
    exact hNone
  | endRemovalSession =>
    have hSame : s.endRemovalSession = .ok s := by
      unfold endRemovalSession
      rw [if_neg hNone.not_isSome]
    rw [← Except.ok.inj (hSame.symm.trans hApply)]
    exact hNone
  | mergeRings b t =>
    rcases mergeRings_eq_ok hApply with ⟨info, _, _, _, _, _, hInfo, _⟩
    exact absurd hInfo (hNot info)
  | setOnboardingSize size =>
    have hSet : s.setOnboardingSize size = .ok s' := hApply
    unfold setOnboardingSize at hSet
    simp only [bind_eq_ok, okOr_eq_ok_iff] at hSet
    rcases hSet with ⟨info, hInfo, _⟩
    exact absurd hInfo (hNot info)
  | selfInclude signature message member callValidAt =>
    rcases doSelfInclude_eq_ok (selfInclude_eq_ok hApply) with ⟨info, _, _, _, _, _, _, hInfo, _⟩
    exact absurd hInfo (hNot info)
  | buildRing ready r ringExponent revision toInclude =>
    rcases buildRing_eq_ok (buildRingAuthorized_eq_ok hApply).2.2.2 with
      ⟨info, _, _, _, _, _, _, hInfo, _⟩
    exact absurd hInfo (hNot info)
  | onboardMembers r head first =>
    rcases onboardMembersAuthorized_eq_ok hApply with ⟨b, hOnboard⟩
    rcases onboardMembers_eq_ok hOnboard with ⟨info, _, _, _, _, _, _, _, hInfo, _⟩
    exact absurd hInfo (hNot info)
  | mergeQueuePages h h' =>
    have hNe := (mergeQueuePagesAuthorized_eq_ok hApply).2.2.1
    rw [hNone.queueHead, hNone.queueTail] at hNe
    exact absurd rfl hNe
  | removeSuspendedKeys r revision =>
    exact absurd (hNone.pending r) (removeSuspendedKeysAuthorized_eq_ok hApply).2.2.1
  | deleteRingPage r p =>
    have hMem := (deleteRingPageAuthorized_eq_ok hApply).1
    rw [hNone.ringDeletionQueue] at hMem
    exact absurd hMem (Finset.notMem_empty _)
  | enqueueRingDeletion r =>
    exact absurd (enqueueRingDeletionAuthorized_eq_ok hApply).1 hNone.not_suspended
  | deleteOnboardingQueuePage p =>
    exact absurd (deleteOnboardingQueuePageAuthorized_eq_ok hApply).1 hNone.not_suspended
  | finalizeCollectionDeletion =>
    exact absurd (finalizeCollectionDeletion_eq_ok hApply).1 hNone.not_suspended
  | removeOrphanedMembers =>
    exact absurd (removeOrphanedMembers_eq_ok hApply).1 hNone.not_suspended
  | markRingStale r =>
    have hTotal := markRingStale_total hApply
    rw [hNone.ringStatus r] at hTotal
    exact absurd hTotal (Nat.lt_irrefl 0)
  | cleanUpOldRoots r limit =>
    rcases cleanUpOldRoots_eq_ok hApply with ⟨_, rfl⟩
    exact { hNone with }

end NoResidue

--
-- Finalizing a Deletion
--

/- The queue and the index are empty when it is finalized. -/
theorem finalizeCollectionDeletion_empty {s : CollectionStore T}
    (hFinalize : s.finalizeCollectionDeletionAuthorized = .ok s') :
    (∀ q, s.onboardingQueue.get q = none) ∧ ∀ key, s.members.get key = none := by
  unfold finalizeCollectionDeletionAuthorized at hFinalize
  simp only [bind_eq_ok, ensure_eq_ok_iff, StorageMap.isEmpty_iff] at hFinalize
  rcases hFinalize with ⟨_, hEnsure, _, hMembers, _⟩
  exact ⟨(ensureRingsAndQueueDeleted_eq_ok hEnsure).2.2.2, hMembers⟩

/- Everything that is stored is found by the deletion. -/
structure Disposable (s : CollectionStore T) : Prop where
  sound : CurrentSound s
  book : Bookkeeping s
  stored : Stored s
  attributed : Attributed s
  flexible : s.collection.isSome = true → Flexible s → ∀ r, SinglePage s r

theorem disposable_empty :
    Disposable (CollectionStore.empty : CollectionStore T) where
  sound := currentSound_empty
  book := bookkeeping_empty
  stored := stored_empty
  attributed := attributed_empty
  flexible := fun _ _ _ _ _ => rfl

theorem Disposable.apply {s : CollectionStore T} (hDisposable : Disposable s)
    (hKeeps : KeepsAttribution s call.op) (hApply : s.apply call = .ok s') :
    Disposable s' := by
  have hEffect := ringEffect_of_apply hApply
  have hSound := hEffect.currentSound hKeeps.resets hDisposable.sound
  exact {
    sound := hSound
    book := hEffect.bookkeeping hDisposable.sound.life hDisposable.book
    stored := hDisposable.stored.apply hApply
    attributed := hEffect.attributed hDisposable.sound
        hDisposable.flexible hKeeps hDisposable.attributed
    flexible := hEffect.flexible_pages hDisposable.sound hSound hDisposable.flexible }

/-
  Without a status and a page that waits, no ring has a root,
  keys, pending suspensions or a stale mark.
-/
theorem Disposable.finalize {s : CollectionStore T} (hDisposable : Disposable s)
    (hFinalize : s.finalizeCollectionDeletionAuthorized = .ok s') :
    NoResidue s' := by
  rcases finalizeCollectionDeletion_eq_ok hFinalize with ⟨hSuspended, hStatus, hDeletions, hEq⟩
  rcases finalizeCollectionDeletion_empty hFinalize with ⟨hQueue, hMembers⟩
  have hCollection : s.collection = none := by
    cases hInfo : s.collection with
    | none => rfl
    | some info =>
      have hNone := hDisposable.sound.life.live_not_suspended (by rw [hInfo]; rfl)
      rw [hNone] at hSuspended
      exact absurd hSuspended Bool.false_ne_true
  have hPage : ∀ r p, s.ringKeys.get (r, p) = none := by
    intro r p
    apply hDisposable.stored.page.get_eq_none
    by_contra hNe
    rcases hDisposable.attributed.page r p hNe with
      hQueued | hCounted
    · rw [hDeletions] at hQueued
      exact absurd hQueued (Finset.notMem_empty _)
    · rw [lt_pageCount_iff T.flexibleRingCapacity_pos, CollectionStore.ringStatus, StorageMap.getD,
        hStatus r] at hCounted
      exact Nat.not_lt_zero _ hCounted
  have hPending : ∀ r, s.pendingSuspensions.get r = none := by
    intro r
    apply hDisposable.stored.pending.get_eq_none
    by_contra hNe
    exact hDisposable.attributed.pending r hNe (hStatus r)
  have hStale : s.staleRings = ∅ := by
    rw [Finset.eq_empty_iff_forall_notMem]
    intro r hMem
    exact hDisposable.stored.stale r hMem (hStatus r)
  have hRoot : ∀ r, s.root.get r = none := by
    intro r
    by_contra hNe
    exact hDisposable.book.root_status r hNe (hStatus r)
  rw [hEq]
  exact {
    collection := hCollection
    suspendedCollection := rfl
    retired := hDisposable.sound.life.suspended_retired hSuspended
    root := hRoot
    currentRingIndex := rfl
    onboardingSize := rfl
    ringKeys := hPage
    ringKeysStatus := hStatus
    pendingSuspensions := hPending
    activeMembers := rfl
    members := hMembers
    ringsState := rfl
    staleRings := hStale
    queueHead := rfl
    queueTail := rfl
    onboardingQueue := hQueue
    ringDeletionQueue := hDeletions }

--
-- Runs
--

namespace PalletState

/- Every operation keeps the entries of rings attributed. -/
def AttributionKept (id : Identifier) (s : PalletState T) (o : PalletOp T)
    (_ : PalletState T) : Prop :=
  o.identifier = id → KeepsAttribution (s.stores id) o.call.op

theorem disposable_of_run {id : Identifier} {s : PalletState T}
    (hRun : RunUnder dispatch (AttributionKept id) genesis s) :
    Disposable (s.stores id) := by
  refine store_invariant_of_run (fun id' store => id' = id → Disposable store)
    hRun ?_ (fun _ _ => disposable_empty) id rfl
  intro s s' o store hAllowed hApply _ hOld hId
  apply (hOld hId).apply ?_ hApply
  rw [hId]
  exact hAllowed hId

def finalizeOf (id : Identifier) (now : Nat) : PalletOp T :=
  ⟨id, ⟨now, .finalizeCollectionDeletion⟩⟩

/-
  From the end of its deletion on nothing is stored for a collection, whatever is done later, and no
  task for it passes its checks.
-/
theorem no_residue (id : Identifier) (now : Nat) (s s₁ s₂ : PalletState T)
    (hRun : RunUnder dispatch (AttributionKept id) genesis s)
    (hFinalize : s.dispatch (finalizeOf id now) = .ok s₁)
    (hLater : RunUnder dispatch (fun _ _ _ => True) s₁ s₂) :
    NoResidue (s₂.stores id) ∧ ∀ op, ¬ Validates (s₂.stores id) op := by
  have hNone : NoResidue (s₁.stores id) := by
    rcases dispatch_eq_ok hFinalize with ⟨store, hApply, hStores⟩
    rw [hStores]
    simp only [finalizeOf, Function.update_self]
    exact (disposable_of_run hRun).finalize hApply
  have hKept : NoResidue (s₂.stores id) := by
    refine store_invariant_of_run (fun id' store => id' = id → NoResidue store) hLater ?_ ?_ id rfl
    · intro s s' o store _ hApply _ hOld hId
      exact (hOld hId).apply hApply
    · intro id' hId
      rw [hId]
      exact hNone
  exact ⟨hKept, hKept.not_validates⟩

--
-- Sample Runs
--

/- Members are suspended only while their ring has a status. -/
def attributing (s : PalletState sampleConfig) (o : PalletOp sampleConfig) : Bool :=
  let store := s.stores sampleIdentifier
  match o.call.op with
  | .removeMembers keys =>
    keys.all fun key =>
      match store.members.get key with
      | some (.included r _ _) =>
        store.ringKeysStatus.containsKey r
      | _ => true
  | .removeSuspendedKeys _ _ => false
  | _ => true

theorem attributionKept_of_attributing (s : PalletState sampleConfig) (o : PalletOp sampleConfig)
    (s' : PalletState sampleConfig) (hAttributing : attributing s o = true) :
    AttributionKept sampleIdentifier s o s' := by
  intro _
  rcases o with ⟨id, now, op⟩
  cases op with
  | removeMembers keys =>
    intro key hKey r p i hGet
    have hAll := List.all_eq_true.mp hAttributing key hKey
    simp only [hGet] at hAll
    rcases StorageMap.containsKey_iff.mp hAll with ⟨v, hSome⟩
    rw [hSome]
    exact Option.some_ne_none v
  | removeSuspendedKeys r revision =>
    simp [attributing] at hAttributing
  | _ => exact trivial

/-
  A collection is deleted while a removal session is open. The member is suspended before or after
  its ring is enqueued.
-/
def deletionOps (suspendBefore : Bool) : List (TimedOp sampleConfig) :=
  [⟨0, .createCollection () 1 .flexible .r2e9 none⟩, ⟨0, .addMembers [10, 11]⟩,
    ⟨0, .onboardMembers 0 0 (some (10 : Nat))⟩,
    ⟨0, .startRemovalSession⟩,
    ⟨0, .deleteCollection ()⟩]
  ++ (if suspendBefore then
        [⟨0, .removeMembers [(10 : Nat)]⟩, ⟨0, .enqueueRingDeletion 0⟩]
      else
        [⟨0, .enqueueRingDeletion 0⟩, ⟨0, .removeMembers [(10 : Nat)]⟩])
  ++ [⟨0, .deleteRingPage 0 0⟩, ⟨0, .removeOrphanedMembers⟩]

theorem no_residue_sample : ∃ s s₁ : PalletState sampleConfig,
      s.dispatch (finalizeOf sampleIdentifier 0) = .ok s₁ ∧ NoResidue (s₁.stores sampleIdentifier) ∧
        ∀ op, ¬ Validates (s₁.stores sampleIdentifier) op := by
  have hTest : (performAll attributing (deletionOps true)).any (fun s =>
        (s.dispatch (finalizeOf sampleIdentifier 0)).toOption.any fun _ => true) = true := by
    decide +kernel
  have hReached : ∃ s, RunUnder dispatch (AttributionKept sampleIdentifier) genesis s ∧ _ :=
    exists_run_of_execute (fun s o s' hAttributing _ =>
        attributionKept_of_attributing s o s' hAttributing)
      hTest
  rcases hReached with ⟨s, hRun, hStore⟩
  rcases Except.exists_ok_of_any hStore with ⟨s₁, hFinalize, _⟩
  exact ⟨s, s₁, hFinalize, no_residue sampleIdentifier 0 s s₁ s₁ hRun hFinalize
      Relation.ReflTransGen.refl⟩

/-
  A member is suspended after its ring was enqueued.  The pending suspension outlives the
  collection, and its removal passes its checks from then on.
-/
theorem residue_remains : ∃ s s₁ : PalletState sampleConfig,
      RunUnder dispatch (fun _ _ _ => True) genesis s ∧
        s.dispatch (finalizeOf sampleIdentifier 0) = .ok s₁ ∧
        ¬ NoResidue (s₁.stores sampleIdentifier) ∧
        Validates (s₁.stores sampleIdentifier) (.removeSuspendedKeys 0 none) := by
  have hTest : (performAll (fun _ _ => true) (deletionOps false)).any (fun s =>
          (s.dispatch (finalizeOf sampleIdentifier 0)).toOption.any fun s₁ =>
              let store := s₁.stores sampleIdentifier
              store.pending 0 = [0] ∧ (store.ensureCanRemoveSuspendedKeys 0 none).toOption.isSome)
        = true := by
    decide +kernel
  have hReached : ∃ s, RunUnder dispatch (fun _ _ _ => True) genesis s ∧ _ :=
    exists_run_of_execute (fun _ _ _ _ _ => trivial) hTest
  rcases hReached with ⟨s, hRun, hNext⟩
  rcases Except.exists_ok_of_any hNext with ⟨s₁, hFinalize, hLeft⟩
  rw [decide_eq_true_eq] at hLeft
  rcases hLeft with ⟨hPending, hValid⟩
  refine ⟨s, s₁, hRun, hFinalize, ?_, ?_⟩
  · intro hNone
    rw [hNone.pending 0] at hPending
    exact List.cons_ne_nil _ _ hPending.symm
  · cases hCheck : (s₁.stores sampleIdentifier).ensureCanRemoveSuspendedKeys
        0 none with
    | ok u => exact hCheck
    | error e =>
      rw [hCheck] at hValid
      exact absurd hValid Bool.false_ne_true

end PalletState

end Individuality.MembersPallet
