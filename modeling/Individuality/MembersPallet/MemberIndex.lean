import Individuality.MembersPallet.RingPositions

/-
  The entries of the members of a flexible collection agree with its queue, with the pages of its
  rings, with the suspensions that wait, and with the counts of its members.

  Main declaration: `PalletState.index_agreement`
-/

namespace Individuality.MembersPallet

open Except (ok_bind)

variable {T : Config} {s s' : CollectionStore T} {b : RingIndex} {n now : Nat}
variable {key : T.Member} {info : CollectionInfo T} {call : TimedOp T}

open CollectionStore

--
-- Every Operation Keeps Both Indices
--

structure Indexed (s : CollectionStore T) : Prop where
  queue : QueueIndexed s
  rings : RingIndexed s

theorem Indexed.frame (hIndexed : Indexed s) (hHead : s'.queueHead = s.queueHead)
    (hTail : s'.queueTail = s.queueTail) (hQueue : s'.onboardingQueue = s.onboardingQueue)
    (hKeys : s'.ringKeys = s.ringKeys) (hPending : s'.pendingSuspensions = s.pendingSuspensions)
    (hMembers : s'.members = s.members) :
    Indexed s' := by
  refine ⟨?_, ?_⟩
  · apply hIndexed.queue.frame hHead hTail hQueue
    intro key q
    unfold Queued
    rw [hMembers]
  · apply hIndexed.rings.frame
    · intro r
      unfold CollectionStore.page ringPage
      rw [hKeys]
    · intro r
      unfold pending
      rw [hPending]
    · intro key r p i
      rw [hMembers]

variable {new : List T.Member}

/- Placing included members leaves the queue alone. -/
theorem QueueIndexed.of_placed {r : RingIndex} {start : Nat} (hIndexed : QueueIndexed s)
    (hRecorded : Recorded s r) (hPlaced : Placed (T := T) s.members s'.members b start new)
    (hThere : ∀ key ∈ new, ∃ i, Occupies s r i key) (hHead : s'.queueHead = s.queueHead)
    (hTail : s'.queueTail = s.queueTail)
    (hQueue : s'.onboardingQueue = s.onboardingQueue) :
    QueueIndexed s' := by
  apply hIndexed.frame hHead hTail hQueue
  intro key q
  by_cases hMem : key ∈ new
  · rcases hThere key hMem with ⟨i, hHere⟩
    have hGet := hRecorded i key hHere
    have hNot : ¬ Queued s key q := by
      rintro ⟨t, hQueued⟩
      simp [hGet] at hQueued
    constructor
    · intro hQueued
      exact absurd hQueued (not_queued_of_placed hPlaced hMem q)
    · intro hQueued
      exact absurd hQueued hNot
  · unfold Queued
    rw [hPlaced.2 key hMem]

theorem pushToOnboardingQueue_members (hPush : s.pushToOnboardingQueue now key = .ok s') :
    ∃ q, s'.members = s.members.insert key (.onboarding q now) := by
  unfold pushToOnboardingQueue at hPush
  cases hKeys : (s.queueBlock s.queueTail).tryPush key with
  | some keys =>
    simp only [hKeys, Except.ok.injEq] at hPush
    rw [← hPush]
    exact ⟨_, rfl⟩
  | none =>
    simp only [hKeys, Except.bind_eq_ok, Except.pure_eq_ok] at hPush
    rcases hPush with ⟨_, _, keys, _, hEq⟩
    rw [← hEq]
    exact ⟨_, rfl⟩

/- A member that is added was in no ring. -/
theorem RingIndexed.addMember (hIndexed : RingIndexed s)
    (hAdd : CollectionStore.addMember now s key = .ok s') :
    RingIndexed s' := by
  rcases addMember_eq_ok hAdd with ⟨hFree, hPush⟩
  rcases pushToOnboardingQueue_members hPush with ⟨q, hMembers⟩
  rcases pushToOnboardingQueue_frame hPush with ⟨tail, queue, members, hEq⟩
  apply hIndexed.frame
  · intro r
    rw [hEq]
    rfl
  · intro r
    rw [hEq]
    rfl
  · intro k r p i
    rw [hMembers, StorageMap.get_insert]
    split_ifs with hKey
    · rw [hKey]
      rcases hFree with hNone | hSuspended
      · simp [hNone]
      · simp [hSuspended]
    · rfl

variable {keys : List T.Member}

theorem Indexed.addMembers (hIndexed : Indexed s) (hAdd : s.addMembers now keys = .ok s') :
    Indexed s' := by
  refine List.foldlM_invariant Indexed (addMembers_eq_ok hAdd).2 ?_ hIndexed
  intro x key y _ hStep hOld
  exact ⟨hOld.queue.addMember hStep, hOld.rings.addMember hStep⟩

theorem Indexed.queueMemberSuspensions (hIndexed : Indexed s)
    (hSuspend : s.queueMemberSuspensions keys = .ok s') :
    Indexed s' := by
  refine List.foldlM_invariant Indexed (queueMemberSuspensions_eq_ok hSuspend).2 ?_ hIndexed
  intro x key y _ hStep hOld
  exact ⟨hOld.queue.suspendMember hStep, hOld.rings.suspendMember hStep⟩

theorem Indexed.mergeQueuePages {h h' : PageIndex} (hIndexed : Indexed s)
    (hMerge : s.mergeQueuePagesAuthorized h h' = .ok s') :
    Indexed s' := by
  refine ⟨hIndexed.queue.mergeQueuePages hMerge, ?_⟩
  have hPages := (mergeQueuePagesAuthorized_eq_ok hMerge).2.2.2
  rcases mergeQueuePages_frame hPages with ⟨head, queue, members, hEq⟩
  apply hIndexed.rings.frame
  · intro r
    rw [hEq]
    rfl
  · intro r
    rw [hEq]
    rfl
  · intro key r p i
    rw [mergeQueuePages_members hPages]
    split_ifs
    · exact moveEntry_eq_included_iff h'
    · rfl

theorem QueueIndexed.mergeRings {t : RingIndex} (hIndexed : QueueIndexed s)
    (hRecorded : Recorded s t) (hMerge : s.mergeRings now b t = .ok s') :
    QueueIndexed s' := by
  rcases hRecorded.placed_of_merge hMerge with ⟨hPlaced, hThere⟩
  rcases mergeRings_eq_ok hMerge with ⟨info, f, root, oldRoots, changes, stale, _, _, _, _, _, _,
      _, _, _, _, _, _, _, _, _, hEq⟩
  apply hIndexed.of_placed hRecorded hPlaced hThere
  · rw [hEq]
  · rw [hEq]
  · rw [hEq]

theorem Indexed.mergeRings {t : RingIndex} (hIndexed : Indexed s)
    (hMerge : s.mergeRings now b t = .ok s') :
    Indexed s' :=
  ⟨hIndexed.queue.mergeRings (hIndexed.rings.recorded t) hMerge, hIndexed.rings.mergeRings hMerge⟩

theorem Indexed.removeSuspendedKeys (now : Nat) (r : RingIndex) (hIndexed : Indexed s)
    (hSorted : (s.pending r).Pairwise (· < ·)) (hInfo : s.collection = some info) :
    Indexed (s.removeSuspendedKeys now r) := by
  refine ⟨?_, hIndexed.rings.removeSuspendedKeys now r hSorted hInfo⟩
  have hRecorded := hIndexed.rings.recorded r
  have hPlaced := hRecorded.placed_of_removal now hSorted hInfo
  rcases removeSuspendedKeys_eq now r hInfo with ⟨root, oldRoots, stale, ringKeys, _, _, hEq⟩
  apply hIndexed.queue.of_placed hRecorded hPlaced
  · intro key hMem
    exact (mem_keptKeys_iff hSorted key).mp hMem
  · rw [hEq]
  · rw [hEq]
  · rw [hEq]

theorem Indexed.onboardMembers {b : Bool} (hIndexed : Indexed s)
    (hSound : RingsSound s s.currentRingIndex) (hFlexible : Flexible s)
    (hOnboard : s.onboardMembers true = .ok (b, s')) :
    Indexed s' := by
  rcases addition_of_onboardMembers hOnboard with ⟨info, top, hNew, hAddition⟩
  rcases hIndexed.queue.onboardBatch hOnboard with ⟨hNodup, hQueued⟩
  rcases Addition.append_page hSound.life hSound.ring hSound.isOpen hFlexible hNew hAddition with
    ⟨hTop, hPage, hPlaced⟩
  exact ⟨hIndexed.queue.onboardMembers hOnboard, hIndexed.rings.addition hTop hPage (hPlaced hNodup)
      hQueued hAddition⟩

theorem Indexed.doSelfInclude (hIndexed : Indexed s) (hSound : RingsSound s s.currentRingIndex)
    (hFlexible : Flexible s) (hInclude : s.doSelfInclude key = .ok s') :
    Indexed s' := by
  rcases addition_of_doSelfInclude hInclude with ⟨info, top, hAddition⟩
  rcases doSelfInclude_queue hInclude with ⟨q, t, _, _, _, hGet, _⟩
  rcases Addition.append_page hSound.life hSound.ring
      hSound.isOpen hFlexible (List.cons_ne_nil key [])
      hAddition with
    ⟨hTop, hPage, hPlaced⟩
  refine ⟨hIndexed.queue.doSelfInclude hInclude, ?_⟩
  apply hIndexed.rings.addition hTop hPage (hPlaced (List.nodup_singleton key)) ?_ hAddition
  intro k hMem
  rw [List.mem_singleton.mp hMem]
  exact ⟨q, t, hGet⟩

/- In a flexible collection that loses no ring, every operation keeps the indices. -/
theorem Indexed.apply (hIndexed : Indexed s) (hSound : ∀ r, RingsSound s r) (hFlexible : Flexible s)
    (hSuspended : s.suspendedCollection = none) (hQueue : s.ringDeletionQueue = ∅)
    (hNotRemove : ∀ r, call.op ≠ .removeRing r) (hApply : s.apply call = .ok s') :
    Indexed s' := by
  have hNotSuspended : s.suspendedCollection.isSome ≠ true := by
    rw [hSuspended]
    exact Bool.false_ne_true
  have hCurrent := hSound s.currentRingIndex
  rcases call with ⟨now, op⟩
  cases op with
  | createCollection owner size mode ringSize delay =>
    rcases createCollection_eq_ok hApply with ⟨_, _, _, _, rfl⟩
    exact hIndexed.frame rfl rfl rfl rfl rfl rfl
  | addMembers keys => exact hIndexed.addMembers hApply
  | removeRing r => exact absurd rfl (hNotRemove r)
  | deleteCollection owner =>
    rcases deleteCollection_eq_ok hApply with ⟨_, _, rfl⟩
    exact hIndexed.frame rfl rfl rfl rfl rfl rfl
  | removeMembers keys =>
    exact hIndexed.queueMemberSuspensions hApply
  | startRemovalSession =>
    rcases startRemovalSession_eq_ok hApply with ⟨_, rfl, _⟩
    exact hIndexed.frame rfl rfl rfl rfl rfl rfl
  | endRemovalSession =>
    rcases endRemovalSession_eq_ok hApply with ⟨_, rfl, _⟩
    exact hIndexed.frame rfl rfl rfl rfl rfl rfl
  | mergeRings b t => exact hIndexed.mergeRings hApply
  | setOnboardingSize size =>
    rw [setOnboardingSize_eq_ok hApply]
    exact hIndexed.frame rfl rfl rfl rfl rfl rfl
  | selfInclude signature message member callValidAt =>
    exact hIndexed.doSelfInclude hCurrent hFlexible (selfInclude_eq_ok hApply)
  | buildRing ready r ringExponent revision toInclude =>
    rcases buildRing_eq_ok (buildRingAuthorized_eq_ok hApply).2.2.2 with
      ⟨_, _, _, _, _, _, _, _, _, _, rfl⟩
    exact hIndexed.frame rfl rfl rfl rfl rfl rfl
  | onboardMembers r head first =>
    rcases onboardMembersAuthorized_eq_ok hApply with ⟨b, hOnboard⟩
    exact hIndexed.onboardMembers hCurrent hFlexible hOnboard
  | mergeQueuePages h h' =>
    exact hIndexed.mergeQueuePages hApply
  | removeSuspendedKeys r revision =>
    rcases removeSuspendedKeysAuthorized_eq_ok hApply with ⟨_, _, _, hEq⟩
    rw [hEq]
    cases hInfo : s.collection with
    | none =>
      unfold CollectionStore.removeSuspendedKeys
      rw [hInfo]
      exact hIndexed
    | some info =>
      exact hIndexed.removeSuspendedKeys now r (hCurrent.life.pending_sorted r) hInfo
  | deleteRingPage r p =>
    rcases deleteRingPageAuthorized_eq_ok hApply with ⟨hMem, _⟩
    rw [hQueue] at hMem
    exact absurd hMem (Finset.notMem_empty _)
  | enqueueRingDeletion r =>
    rcases enqueueRingDeletionAuthorized_eq_ok hApply with ⟨hSome, _⟩
    exact absurd hSome hNotSuspended
  | deleteOnboardingQueuePage p =>
    rcases deleteOnboardingQueuePageAuthorized_eq_ok hApply with ⟨hSome, _⟩
    exact absurd hSome hNotSuspended
  | finalizeCollectionDeletion =>
    rcases finalizeCollectionDeletion_eq_ok hApply with ⟨hSome, _⟩
    exact absurd hSome hNotSuspended
  | removeOrphanedMembers =>
    rcases removeOrphanedMembers_eq_ok hApply with ⟨hSome, _⟩
    exact absurd hSome hNotSuspended
  | markRingStale r =>
    rw [markRingStale_eq_ok hApply]
    exact hIndexed.frame rfl rfl rfl rfl rfl rfl
  | cleanUpOldRoots r limit =>
    rcases cleanUpOldRoots_eq_ok hApply with ⟨_, rfl⟩
    exact hIndexed.frame rfl rfl rfl rfl rfl rfl

--
-- The Agreement
--

/-
  What the members, the queue, the rings, the suspensions and
  the ring statuses of a collection say about each other.
-/
structure IndexAgreement (s : CollectionStore T) : Prop where
  onboarding : ∀ key q,
      (∃ t, s.members.get key = some (.onboarding q t)) ↔
        (s.queuePage q).count key = 1 ∧ ∀ q', q' ≠ q → key ∉ s.queuePage q'
  included : ∀ key r p i,
      s.members.get key = some (.included r p i) ↔
        p = 0 ∧ (s.page r 0)[i]? = some key ∧ i ∉ s.pending r
  elsewhere : ∀ key r p i,
      (s.page r p)[i]? = some key →
        s.members.get key ≠ some (.included r p i) → p = 0 ∧ i ∈ s.pending r
  pending : ∀ r, (s.pending r).Pairwise (· < ·) ∧
      ∀ i ∈ s.pending r, i < (s.page r 0).length
  total : ∀ r, (s.ringStatus r).total = (s.page r 0).length ∧
      ∀ p, 0 < p → s.page r p = []
  included_le : ∀ r, (s.ringStatus r).included ≤ (s.ringStatus r).total

theorem Indexed.agreement (hIndexed : Indexed s) (hSound : ∀ r, RingsSound s r)
    (hLive : s.collection.isSome = true) (hFlexible : Flexible s)
    (hQueue : s.ringDeletionQueue = ∅) :
    IndexAgreement s := by
  have hPages : ∀ r, (s.ringStatus r).total
      = (s.page r 0).length ∧ ∀ p, 0 < p → s.page r p = [] := by
    intro r
    exact (hSound r).ring.single_page hLive hFlexible hQueue
  refine ⟨?_, hIndexed.rings.included, ?_, ?_, hPages, ?_⟩
  · intro key q
    have hQueued := hIndexed.queue.queued key q
    unfold Queued at hQueued
    rw [← hQueued]
    constructor
    · intro hMem
      refine ⟨List.count_eq_one_of_mem (hIndexed.queue.nodup q) hMem, ?_⟩
      intro q' hNe hOther
      exact hNe (hIndexed.queue.page_unique hOther hMem)
    · rintro ⟨hCount, _⟩
      apply List.count_pos_iff.mp
      rw [hCount]
      exact Nat.one_pos
  · intro key r p i hGet hNot
    have hZero : p = 0 := by
      by_contra hNe
      rw [(hPages r).2 p (Nat.pos_of_ne_zero hNe)] at hGet
      simp at hGet
    refine ⟨hZero, ?_⟩
    by_contra hFree
    rw [hZero] at hGet hNot
    exact hNot ((hIndexed.rings.included key r 0 i).mpr ⟨rfl, hGet, hFree⟩)
  · intro r
    exact ⟨(hSound r).life.pending_sorted r, hIndexed.rings.pending_lt r⟩
  · intro r
    exact (hSound r).book.included_le r

--
-- The Invariant of a Flexible Collection
--

structure Agreed (s : CollectionStore T) : Prop where
  sound : ∀ r, RingsSound s r
  queue : s.ringDeletionQueue = ∅
  indexed : Indexed s

theorem agreed_empty : Agreed (CollectionStore.empty : CollectionStore T) where
  sound := ringsSound_empty
  queue := rfl
  indexed := ⟨queueIndexed_empty, ringIndexed_empty⟩

/- Only the removal of a ring queues pages for deletion. -/
theorem RingEffect.queue_empty {op : Op T} (hEffect : RingEffect s op s')
    (hSuspended : s.suspendedCollection = none) (hNotRemove : ∀ r, op ≠ .removeRing r)
    (hQueue : s.ringDeletionQueue = ∅) :
    s'.ringDeletionQueue = ∅ := by
  cases hEffect with
  | added op s' info top hOp hNew hAddition =>
    rcases hAddition.writes with ⟨_, _, _, _, _, _, _, rfl⟩
    exact hQueue
  | enqueued op r root oldRoots changes stale hOp =>
    rcases hOp with ⟨hIs, _⟩ | ⟨_, hSome⟩
    · exact absurd hIs (hNotRemove r)
    · simp [hSuspended] at hSome
  | pageDeleted r p hMem =>
    rw [hQueue] at hMem
    exact absurd hMem (Finset.notMem_empty _)
  | _ => exact hQueue

theorem agreed_of_apply (hAgreed : Agreed s) (hUsable : s.collection = none → s.retired = false)
    (hFlexible : Flexible s) (hNotRemove : ∀ r, call.op ≠ .removeRing r)
    (hApply : s.apply call = .ok s') :
    Agreed s' := by
  have hEffect := ringEffect_of_apply hApply
  have hLife := (hAgreed.sound 0).life
  have hSuspended := hLife.not_suspended hUsable
  refine ⟨?_, ?_, ?_⟩
  · intro r
    apply hEffect.ringsSound (fun _ => hFlexible) ?_ (hAgreed.sound r)
    intro _
    apply sparesDoomed_of_not_queued
    rintro ⟨e, hMem, _⟩
    rw [hAgreed.queue] at hMem
    exact absurd hMem (Finset.notMem_empty _)
  · exact hEffect.queue_empty hSuspended hNotRemove hAgreed.queue
  · exact hAgreed.indexed.apply hAgreed.sound hFlexible hSuspended hAgreed.queue hNotRemove hApply

--
-- Counting the Members
--

theorem addition_of_apply (hApply : s.apply call = .ok s') (hAdds : call.op.addsMembers = true) :
    ∃ info top, Addition s s' info top (membersToAdd s call.op) := by
  rcases call with ⟨now, op⟩
  cases op with
  | onboardMembers r head first =>
    rcases onboardMembersAuthorized_eq_ok hApply with ⟨b, hOnboard⟩
    rcases addition_of_onboardMembers hOnboard with ⟨info, top, _, hAddition⟩
    exact ⟨info, top, hAddition⟩
  | selfInclude signature message member callValidAt =>
    exact addition_of_doSelfInclude (selfInclude_eq_ok hApply)
  | _ => exact absurd hAdds Bool.false_ne_true

/- An addition adds its members to the sum of the totals. -/
theorem totalMembers_of_addition {top : AvailableRing T} (hSound : RingsSound s s.currentRingIndex)
    (hAddition : Addition s s' info top new) :
    totalMembers s' = totalMembers s + new.length := by
  rcases available_current hSound.life hSound.ring hSound.isOpen hAddition with
    ⟨keys, hHolds, hTop, _, _, hBound, _⟩
  have hStatus := availableRing_status s info.ringSize.ringCapacity
  rw [hAddition.available] at hStatus
  rcases hAddition.writes with ⟨filled, members, ringKeys, head, queue, stale, _, hEq⟩
  have hFits : saturatingAdd u32Max top.status.total new.length
        = (s.ringStatus s.currentRingIndex).total + new.length := by
    rw [hStatus]
    apply saturatingAdd_of_le
    rw [hHolds.total]
    exact Nat.le_trans hBound (by decide)
  have hSum := total_sum_insert s top.ringIndex
      { top.status with
        total := saturatingAdd u32Max top.status.total new.length }
  have hTotals : totalMembers s' + (s.ringStatus s.currentRingIndex).total = totalMembers s
          + saturatingAdd u32Max top.status.total
              new.length := by
    rw [hEq, ← hTop]
    exact hSum
  omega

theorem undisturbed_of_apply (hAgreed : Agreed s) (hActive : s.activeMembers = totalMembers s)
    (hCounted : totalMembers s' ≤ u32Max) (hApply : s.apply call = .ok s') :
    Undisturbed s call.op := by
  have hCurrent := hAgreed.sound s.currentRingIndex
  have hAdded : call.op.addsMembers = true → s.activeMembers + (membersToAdd s call.op).length
            ≤ u32Max ∧
          ∀ info, s.collection = some info → ¬ s.topRing.isFull info.ringSize.ringCapacity
              ∨ s.currentRingIndex = u32Max := by
    intro hAdds
    rcases addition_of_apply hApply hAdds with ⟨info, top, hAddition⟩
    rcases available_current hCurrent.life hCurrent.ring
        hCurrent.isOpen hAddition with ⟨keys, hHolds, _⟩
    refine ⟨?_, ?_⟩
    · rw [hActive, ← totalMembers_of_addition hCurrent hAddition]
      exact hCounted
    · intro info' hInfo
      rcases hCurrent.isOpen info' hInfo with hLt | hLast
      · left
        have hFill := (topRing_fill hHolds).2
        rw [hHolds.total] at hLt
        unfold AvailableRing.fill at hFill
        unfold AvailableRing.isFull
        omega
      · exact Or.inr hLast
  have hNotQueued : ∀ e, e ∉ s.ringDeletionQueue := by
    intro e
    rw [hAgreed.queue]
    exact Finset.notMem_empty e
  cases hOp : call.op with
  | mergeRings b t => exact ⟨hNotQueued _, hNotQueued _⟩
  | removeSuspendedKeys r revision =>
    intro hMem
    exact absurd hMem (hNotQueued _)
  | _ =>
    intro hAdds
    rw [hOp] at hAdded
    exact hAdded hAdds

namespace PalletState

/- No ring of the collection is removed. -/
def WithoutRemoval (id : Identifier) (_ : PalletState T) (o : PalletOp T)
    (_ : PalletState T) : Prop :=
  o.identifier = id → ∀ r, o.call.op ≠ .removeRing r

/- No ring of the collection is removed, and a `u32` can count the members of its rings. -/
def Countable (id : Identifier) (s : PalletState T) (o : PalletOp T) (s' : PalletState T) : Prop :=
  WithoutRemoval id s o s' ∧ totalMembers (s'.stores id) ≤ u32Max

theorem agreed_of_run {id : Identifier} {s : PalletState T}
    (hRun : RunUnder dispatch (WithoutRemoval id) genesis s)
    (hUsable : (s.stores id).collection = none → (s.stores id).retired = false)
    (hFlexible : Flexible (s.stores id)) :
    Agreed (s.stores id) := by
  refine store_invariant_of_run (fun id' store => id' = id →
      (store.collection = none → store.retired = false) → Flexible store → Agreed store)
    hRun ?_ (fun _ _ _ _ => agreed_empty) id rfl hUsable
    hFlexible
  intro s s' o store hAllowed hApply _ hOld hId hUsable' hFlexible'
  rcases (ringEffect_of_apply hApply).sound_before hUsable' hFlexible' with ⟨hUsable₀, hFlexible₀⟩
  exact agreed_of_apply (hOld hId hUsable₀ hFlexible₀) hUsable₀ hFlexible₀ (hAllowed hId) hApply

theorem accounted_of_countable {id : Identifier} {s : PalletState T}
    (hRun : RunUnder dispatch (Countable id) genesis s)
    (hUsable : (s.stores id).collection = none → (s.stores id).retired = false)
    (hFlexible : Flexible (s.stores id)) :
    Agreed (s.stores id) ∧ Accounted (s.stores id) := by
  refine store_invariant_of_run (fun id' store => id' = id →
      (store.collection = none → store.retired = false) →
        Flexible store → Agreed store ∧ Accounted store)
    hRun ?_ (fun _ _ _ _ => ⟨agreed_empty, accounted_empty⟩)
    id rfl hUsable hFlexible
  intro s s' o store hAllowed hApply hStores hOld hId hUsable' hFlexible'
  have hEffect := ringEffect_of_apply hApply
  rcases hEffect.sound_before hUsable' hFlexible' with ⟨hUsable₀, hFlexible₀⟩
  rcases hOld hId hUsable₀ hFlexible₀ with ⟨hAgreed, hAccounted⟩
  have hCounted : totalMembers store ≤ u32Max := by
    have hSum := hAllowed.2
    rw [hStores, ← hId, Function.update_self] at hSum
    exact hSum
  have hUndisturbed := undisturbed_of_apply hAgreed hAccounted.active hCounted hApply
  exact ⟨agreed_of_apply hAgreed hUsable₀ hFlexible₀ (hAllowed.1 hId) hApply,
    hEffect.accounted hUndisturbed hAccounted⟩

/-
  In every run that removes no ring of a flexible collection, its indices agree, and its active
  members are the sum of the ring totals as long as a `u32` can count them.
-/
theorem index_agreement (id : Identifier) (s : PalletState T) (info : CollectionInfo T)
    (hInfo : (s.stores id).collection = some info) (hMode : info.mode = .flexible) :
    (RunUnder dispatch (WithoutRemoval id) genesis s → IndexAgreement (s.stores id)) ∧
      (RunUnder dispatch (Countable id) genesis s →
        (s.stores id).activeMembers = totalMembers (s.stores id)) := by
  have hLive : (s.stores id).collection.isSome = true := by
    rw [hInfo]
    rfl
  have hUsable : (s.stores id).collection = none → (s.stores id).retired = false := by
    intro hNone
    simp [hNone] at hLive
  have hFlexible : Flexible (s.stores id) := by
    intro info' hInfo'
    rw [hInfo, Option.some.injEq] at hInfo'
    rw [← hInfo']
    exact hMode
  constructor
  · intro hRun
    have hAgreed := agreed_of_run hRun hUsable hFlexible
    exact hAgreed.indexed.agreement hAgreed.sound hLive hFlexible hAgreed.queue
  · intro hRun
    exact (accounted_of_countable hRun hUsable hFlexible).2.active

--
-- More Members than a `u32` Can Count
--

/- An empty page takes one key. -/
theorem exists_push {α : Type} {v : BoundedVec α n} (hRoom : v.toList.length < n) (a : α) :
    ∃ w : BoundedVec α n, v.tryPush a = some w := by
  apply BoundedVec.ofList?_isSome_iff.mpr
  rw [List.length_append, List.length_singleton]
  exact hRoom

/- A member on its queue page can include itself while the current ring has room. -/
theorem exists_doSelfInclude {member : T.Member} {q : PageIndex} {t : Nat}
    (hInfo : s.collection = some info) (hAppend : s.ringsState.isAppendOnly = true)
    (hGet : s.members.get member = some (.onboarding q t)) (hMem : member ∈ s.queuePage q)
    (hOpen : ¬ s.topRing.isFull info.ringSize.ringCapacity)
    (hRoom : s.topRing.keys.toList.length < T.flexibleRingCapacity) :
    ∃ s', s.doSelfInclude member = .ok s' := by
  rcases Option.ne_none_iff_exists'.mp (mt List.idxOf?_eq_none_iff.mp (not_not.mpr hMem)) with
    ⟨idx, hIdx⟩
  rcases removeFromQueuePage_frame s q idx with ⟨head, queue, hRemove⟩
  have hSame := availableRing_of_queue s head queue info.ringSize.ringCapacity
  have hTop : ((s.removeFromQueuePage q idx).availableRing
        info.ringSize.ringCapacity).2 = s.topRing := by
    rw [hRemove, hSame]
    unfold availableRing
    simp only [if_neg hOpen]
  rcases exists_push hRoom member with ⟨keys, hKeys⟩
  unfold CollectionStore.doSelfInclude
  simp only [hInfo, hGet, okOr_some, ok_bind, ensure_of hAppend, hIdx, hTop, hKeys]
  exact ⟨_, rfl⟩

/- The sample collection whose members include themselves. -/
def growInfo : CollectionInfo sampleConfig :=
  ⟨.external (), .flexible, .r2e9, some 0⟩

/- A page of the queue with one key. -/
def queuedAlone (n : Nat) : QueuePage sampleConfig :=
  ⟨[n], show 1 ≤ 255 by decide⟩

/- The members below `n` were added and have included themselves, one after the other. -/
structure Grown (n : Nat) (s : CollectionStore sampleConfig) : Prop where
  collection : s.collection = some growInfo
  appendOnly : s.ringsState.isAppendOnly = true
  head : s.queueHead = 0
  tail : s.queueTail = 0
  queue : s.queuePage 0 = []
  fresh : ∀ key : Nat, n ≤ key → s.members.get key = none
  index : ∃ c : Nat, s.currentRingIndex = c ∧
      c * 255 + (s.ringStatus s.currentRingIndex).total = n
  room : (s.ringStatus s.currentRingIndex).total < 255
  active : s.activeMembers = min n u32Max
  total : totalMembers s = n

theorem Grown.flexible {s : CollectionStore sampleConfig} (hGrown : Grown n s) :
    Flexible s := by
  intro info hInfo
  rw [hGrown.collection, Option.some.injEq] at hInfo
  rw [← hInfo]
  rfl

theorem Grown.usable {s : CollectionStore sampleConfig} (hGrown : Grown n s) :
    s.collection = none → s.retired = false := by
  intro hNone
  rw [hGrown.collection] at hNone
  exact absurd hNone (Option.some_ne_none growInfo)

/- The next member is added to the empty queue. -/
theorem Grown.addMember {s : CollectionStore sampleConfig} (hGrown : Grown n s) :
    s.addMembers 0 [n] = .ok (s.writeQueueTail 0 0 (queuedAlone n) n) := by
  have hPush : (s.queueBlock 0).tryPush n = some (queuedAlone n) := by
    rw [BoundedVec.tryPush_eq_some_iff]
    exact (congrArg (· ++ [n]) hGrown.queue).symm
  unfold addMembers CollectionStore.addMember pushToOnboardingQueue
  simp only [hGrown.collection, okOr_some, ok_bind, List.foldlM_cons, List.foldlM_nil,
    hGrown.fresh n (Nat.le_refl n), ensure_of, hGrown.tail,
    hPush]
  rfl

/- The member that was added can include itself. -/
theorem Grown.selfInclude {s s₁ : CollectionStore sampleConfig} (hGrown : Grown n s)
    (hAgreed : Agreed s₁) (hAdd : s₁ = s.writeQueueTail 0 0 (queuedAlone n) n) :
    ∃ s₂, s₁.doSelfInclude n = .ok s₂ ∧ s₁.selfInclude 0 () () n 0 = .ok s₂ := by
  have hLive : s₁.collection.isSome = true := by
    rw [hAdd]
    exact congrArg Option.isSome hGrown.collection
  have hInfo : s₁.collection = some growInfo := by
    rw [hAdd]
    exact hGrown.collection
  have hAppend : s₁.ringsState.isAppendOnly = true := by
    rw [hAdd]
    exact hGrown.appendOnly
  have hGet : s₁.members.get n = some (.onboarding 0 0) := by
    rw [hAdd]
    exact StorageMap.get_insert_self _ _ _
  have hMem : n ∈ s₁.queuePage 0 := by
    rw [hAdd, queuePage_writeQueueTail, if_pos rfl]
    exact List.mem_singleton_self n
  have hTotal : (s₁.ringStatus s₁.currentRingIndex).total < 255 := by
    rw [hAdd]
    exact hGrown.room
  have hSound := hAgreed.sound s₁.currentRingIndex
  rcases ringHolds_of_current hSound.life hLive hSound.ring with ⟨keys, hHolds⟩
  have hFill := (topRing_fill hHolds).2
  rw [← hHolds.total] at hFill
  have hRing : growInfo.ringSize.ringCapacity = 255 := rfl
  have hRoom : s₁.topRing.keys.length
          + s₁.topRing.pageIndex * sampleConfig.flexibleRingCapacity < 255 := by
    rw [← hFill] at hTotal
    exact hTotal
  have hOpen : ¬ s₁.topRing.isFull growInfo.ringSize.ringCapacity := by
    unfold AvailableRing.isFull
    rw [hRing]
    omega
  have hPage : s₁.topRing.keys.toList.length < sampleConfig.flexibleRingCapacity :=
    lt_of_le_of_lt (Nat.le_add_right _ _) hRoom
  rcases exists_doSelfInclude hInfo hAppend hGet hMem hOpen hPage with ⟨s₂, hInclude⟩
  refine ⟨s₂, hInclude, ?_⟩
  unfold CollectionStore.selfInclude
  simp only [hInfo, hGet, okOr_some, ok_bind, ensure_of hAppend]
  exact hInclude

/- The counts after one more member included itself. -/
theorem Grown.counts {s s₁ s₂ : CollectionStore sampleConfig} (hGrown : Grown n s)
    (hAgreed : Agreed s₁) (hFits : n ≤ u32Max) (hAdd : s₁ = s.writeQueueTail 0 0 (queuedAlone n) n)
    (hInclude : s₁.doSelfInclude n = .ok s₂) :
    s₂.collection = some growInfo ∧ s₂.ringsState.isAppendOnly = true ∧
      s₂.activeMembers = min (n + 1) u32Max ∧
      totalMembers s₂ = n + 1 ∧
      (∃ c : Nat, s₂.currentRingIndex = c ∧
        c * 255 + (s₂.ringStatus s₂.currentRingIndex).total = n + 1) ∧
      (s₂.ringStatus s₂.currentRingIndex).total < 255 := by
  have hInfo : s₁.collection = some growInfo := by
    rw [hAdd]
    exact hGrown.collection
  have hLive : s₁.collection.isSome = true := by
    rw [hInfo]
    rfl
  have hIndex : s₁.currentRingIndex = s.currentRingIndex := by
    rw [hAdd]
    rfl
  have hTotal : (s₁.ringStatus s₁.currentRingIndex).total
        = (s.ringStatus s.currentRingIndex).total := by
    rw [hAdd]
    rfl
  have hSum : totalMembers s₁ = n := by
    rw [hAdd]
    exact hGrown.total
  rcases hGrown.index with ⟨c, hIs, hOldIndex⟩
  have hOldRoom := hGrown.room
  have hSmall : 255 ≤ u32Max := by decide
  have hSound := hAgreed.sound s₁.currentRingIndex
  rcases addition_of_doSelfInclude hInclude with ⟨info, top, hAddition⟩
  have hSame : info = growInfo := by
    have hSome := hAddition.collection
    rw [hInfo, Option.some.injEq] at hSome
    exact hSome.symm
  subst hSame
  have hNewSum := totalMembers_of_addition hSound hAddition
  rcases available_current hSound.life hSound.ring hSound.isOpen hAddition with
    ⟨keys, hHolds, hTop, _, hFill, _⟩
  have hStatus := availableRing_status s₁ growInfo.ringSize.ringCapacity
  rw [hAddition.available] at hStatus
  have hRing : growInfo.ringSize.ringCapacity = 255 := rfl
  have hAdvance := hAddition.advance
  rw [hRing, hFill, hStatus, ← hHolds.total, hTotal, hTop,
    hIndex, List.length_singleton] at hAdvance
  rcases hAddition.writes with ⟨filled, members, ringKeys, head, queue, stale, _, hEq⟩
  have hNewStatus : ∀ r, s₂.ringStatus r =
        if r = s.currentRingIndex then
          { top.status with
            total := saturatingAdd u32Max top.status.total 1 }
        else s₁.ringStatus r := by
    intro r
    rw [hEq, ringStatus, ringStatus_insert, hTop, hIndex]
    rfl
  have hActive : s₂.activeMembers = saturatingAdd u32Max s.activeMembers 1 := by
    rw [hEq, hAdd]
    rfl
  refine ⟨?_, ?_, ?_, ?_, ?_⟩
  · rw [hEq]
    exact hInfo
  · rw [hEq, hAdd]
    exact hGrown.appendOnly
  · rw [hActive, hGrown.active, Nat.min_eq_left hFits]
    rfl
  · rw [hNewSum, hSum, List.length_singleton]
  · rcases hAdvance with ⟨hNext, hFull⟩ | ⟨hStay, hOpen⟩
    · have hStep : s₂.currentRingIndex = c + 1 := by
        rw [hNext, hIs]
        apply saturatingAdd_of_le
        omega
      have hEmpty : (s₁.ringStatus (c + 1)).total = 0 := by
        by_contra hNe
        have hLe := hSound.life.total_le hLive _ (Nat.pos_of_ne_zero hNe)
        rw [hIndex, hIs] at hLe
        exact Nat.not_succ_le_self _ hLe
      have hNe : c + 1 ≠ s.currentRingIndex := by
        rw [hIs]
        exact Nat.succ_ne_self c
      have hLast : (c + 1) * 255 = n + 1 := by
        rcases hFull with hFull | ⟨_, hFull⟩ <;> omega
      rw [hStep, hNewStatus, if_neg hNe, hEmpty]
      refine ⟨⟨c + 1, rfl, ?_⟩, Nat.succ_pos 254⟩
      rw [Nat.add_zero]
      exact hLast
    · rw [hStay, hNewStatus, if_pos rfl, hStatus, hTotal]
      have hCount : saturatingAdd u32Max (s.ringStatus s.currentRingIndex).total 1
            = (s.ringStatus s.currentRingIndex).total + 1 := by
        apply saturatingAdd_of_le
        omega
      simp only [hCount]
      exact ⟨⟨c, hIs, by omega⟩, by omega⟩

theorem Grown.grow {s : CollectionStore sampleConfig} (hGrown : Grown n s) (hAgreed : Agreed s)
    (hFits : n ≤ u32Max) :
    ∃ s₁ s₂, s.apply ⟨0, .addMembers [n]⟩ = .ok s₁ ∧ s₁.currentRingIndex = s.currentRingIndex ∧
        s₁.apply ⟨0, .selfInclude () () n 0⟩ = .ok s₂ ∧
        Grown (n + 1) s₂ := by
  have hAdd := hGrown.addMember
  rcases hAdded : s.writeQueueTail 0 0 (queuedAlone n) n with s₁
  have hApply : s.apply ⟨0, .addMembers [n]⟩ = .ok s₁ := by
    rw [← hAdded]
    exact hAdd
  have hAgreed₁ : Agreed s₁ := by
    apply agreed_of_apply hAgreed hGrown.usable hGrown.flexible ?_ hApply
    intro r hEq
    simp at hEq
  rcases hGrown.selfInclude hAgreed₁ hAdded.symm with ⟨s₂, hInclude, hSelf⟩
  rcases hGrown.counts hAgreed₁ hFits hAdded.symm hInclude
    with ⟨hInfo, hAppend, hActive, hSum, hIndex, hRoom⟩
  rcases doSelfInclude_queue hInclude with ⟨q, t, r, p, i, hGet, hMembers, hTail, hHead, hPages⟩
  have hOldGet : ∀ k : Nat, s₁.members.get k =
      if k = n then some (.onboarding 0 0)
      else s.members.get k := by
    intro k
    rw [← hAdded]
    exact StorageMap.get_insert _ _ _ _
  have hPage : q = 0 := by
    rw [hOldGet, if_pos rfl, Option.some.injEq, RingPosition.onboarding.injEq] at hGet
    exact hGet.1.symm
  subst hPage
  have hTail₁ : s₁.queueTail = 0 := by
    rw [← hAdded]
    rfl
  have hHead₁ : s₁.queueHead = 0 := by
    rw [← hAdded]
    exact hGrown.head
  refine ⟨s₁, s₂, hApply, ?_, hSelf, hInfo, hAppend, ?_, ?_, ?_, ?_, hIndex, hRoom, hActive, hSum⟩
  · rw [← hAdded]
    rfl
  · rw [hHead, hHead₁, hTail₁, if_neg]
    rintro ⟨_, _, hNe⟩
    exact hNe rfl
  · rw [hTail, hTail₁]
  · rw [hPages, if_pos rfl, ← hAdded, queuePage_writeQueueTail, if_pos rfl]
    exact List.erase_cons_head n []
  · intro key hLe
    have hNe : key ≠ n := by omega
    rw [hMembers, StorageMap.get_insert_of_ne _ _ hNe, hOldGet, if_neg hNe]
    exact hGrown.fresh key (by omega)

/-
  An operation that an ordinary run may perform: no removal of a ring, no deletion of the
  collection, and the ring index stays below the largest one.
-/
def Ordinary (id : Identifier) (s : PalletState T) (o : PalletOp T) (s' : PalletState T) : Prop :=
  WithoutRemoval id s o s' ∧ (o.identifier = id → ∀ owner, o.call.op ≠ .deleteCollection owner) ∧
    (s'.stores id).currentRingIndex < u32Max

theorem dispatch_of_apply {s : PalletState T} {o : PalletOp T} {store : CollectionStore T}
    {ids : OwnerMap T} (hApply : (s.stores o.identifier).apply o.call = .ok store)
    (hIds : s.updateIdentifiers o.identifier o.call.op = .ok ids) :
    ∃ s', s.dispatch o = .ok s' ∧ s'.stores o.identifier = store := by
  unfold dispatch
  rw [hApply, ok_bind, hIds, ok_bind]
  exact ⟨_, rfl, Function.update_self ..⟩

/- The index of a collection with `n` members is small. -/
theorem Grown.index_lt {s : CollectionStore sampleConfig} (hGrown : Grown n s)
    (hFits : n ≤ u32Max + 1) :
    s.currentRingIndex < u32Max := by
  rcases hGrown.index with ⟨c, hIs, hSum⟩
  have hSmall : 255 ≤ u32Max := by decide
  have hLt : c < u32Max := by omega
  rw [hIs]
  exact hLt

def growOp (op : Op sampleConfig) : PalletOp sampleConfig :=
  ⟨sampleIdentifier, ⟨0, op⟩⟩

/- The sample collection can be created, with no members. -/
theorem exists_grown_zero : ∃ s : PalletState sampleConfig,
      RunUnder dispatch (Ordinary sampleIdentifier) genesis s ∧
        Grown 0 (s.stores sampleIdentifier) := by
  have hApply : ((genesis : PalletState sampleConfig).stores sampleIdentifier).apply
        ⟨0, .createCollection () 0 .flexible .r2e9 (some 0)⟩
      = .ok { CollectionStore.empty with
          collection := some growInfo
          onboardingSize := 0
          ringsState := .appendOnly } := rfl
  rcases dispatch_of_apply (s := (genesis : PalletState sampleConfig))
      (o := growOp (.createCollection () 0 .flexible .r2e9 (some 0)))
      hApply rfl with ⟨s, hDispatch, hStore⟩
  have hIndex : (s.stores sampleIdentifier).currentRingIndex = 0 := by
    rw [show s.stores sampleIdentifier = _ from hStore]
    rfl
  refine ⟨s, RunUnder.single ?_ hDispatch, ?_⟩
  · refine ⟨?_, ?_, ?_⟩
    · intro _ r hEq
      simp [growOp] at hEq
    · intro _ owner hEq
      simp [growOp] at hEq
    · rw [hIndex]
      exact Nat.succ_pos _
  · rw [show s.stores sampleIdentifier = _ from hStore]
    refine ⟨rfl, rfl, rfl, rfl, rfl, fun _ _ => rfl,
      ⟨0, rfl, rfl⟩, Nat.succ_pos _, ?_, rfl⟩
    exact (Nat.zero_min _).symm

theorem exists_grown (n : Nat) (hFits : n ≤ u32Max + 1) :
    ∃ s : PalletState sampleConfig, RunUnder dispatch (Ordinary sampleIdentifier) genesis s ∧
        Grown n (s.stores sampleIdentifier) := by
  induction n with
  | zero => exact exists_grown_zero
  | succ n ih =>
    rcases ih (Nat.le_of_succ_le hFits) with ⟨s, hRun, hGrown⟩
    have hAgreed : Agreed (s.stores sampleIdentifier) :=
      agreed_of_run (hRun.weaken fun _ _ _ hOp => hOp.1) hGrown.usable hGrown.flexible
    have hLt := hGrown.index_lt (Nat.le_of_succ_le hFits)
    rcases hGrown.grow hAgreed (Nat.le_of_succ_le_succ hFits)
      with ⟨store₁, store₂, hAdd, hIndex, hInclude, hNext⟩
    rcases dispatch_of_apply (s := s) (o := growOp (.addMembers [n])) hAdd rfl with
      ⟨s₁, hDispatch₁, hStore₁⟩
    rw [← show s₁.stores sampleIdentifier = _ from hStore₁] at hInclude hIndex
    rcases dispatch_of_apply (s := s₁) (o := growOp (.selfInclude () () n 0)) hInclude rfl
      with ⟨s₂, hDispatch₂, hStore₂⟩
    have hOrdinary₁ : Ordinary sampleIdentifier s (growOp (.addMembers [n])) s₁ := by
      refine ⟨?_, ?_, ?_⟩
      · intro _ r hEq
        simp [growOp] at hEq
      · intro _ owner hEq
        simp [growOp] at hEq
      · rw [hIndex]
        exact hLt
    have hOrdinary₂ : Ordinary sampleIdentifier s₁ (growOp (.selfInclude () () n 0)) s₂ := by
      refine ⟨?_, ?_, ?_⟩
      · intro _ r hEq
        simp [growOp] at hEq
      · intro _ owner hEq
        simp [growOp] at hEq
      · rw [show s₂.stores sampleIdentifier = _ from hStore₂]
        exact hNext.index_lt hFits
    refine ⟨s₂, ?_, ?_⟩
    · exact (hRun.snoc hOrdinary₁ hDispatch₁).snoc hOrdinary₂ hDispatch₂
    · rw [show s₂.stores sampleIdentifier = _ from hStore₂]
      exact hNext

/-
  A run after which the rings of a flexible collection hold
  one member more than the active members can count.
-/
theorem active_members_saturate : ∃ s : PalletState sampleConfig,
      RunUnder dispatch (Ordinary sampleIdentifier) genesis s ∧
        (s.stores sampleIdentifier).collection = some growInfo ∧
        growInfo.mode = .flexible ∧
        (s.stores sampleIdentifier).activeMembers ≠ totalMembers (s.stores sampleIdentifier) := by
  rcases exists_grown (u32Max + 1) (Nat.le_refl _) with ⟨s, hRun, hGrown⟩
  refine ⟨s, hRun, hGrown.collection, rfl, ?_⟩
  rw [hGrown.active, hGrown.total, Nat.min_eq_right (Nat.le_succ u32Max)]
  exact (Nat.succ_ne_self u32Max).symm

/- Three members wait, two are included, one is suspended. -/
def agreementOps : List (TimedOp sampleConfig) :=
  [⟨0, .createCollection () 1 .flexible .r2e9 none⟩, ⟨0, .addMembers [10, 11, 12]⟩,
    ⟨0, .onboardMembers 0 0 (some (10 : Nat))⟩,
    ⟨0, .startRemovalSession⟩,
    ⟨0, .removeMembers [(11 : Nat)]⟩,
    ⟨0, .endRemovalSession⟩,
    ⟨0, .addMembers [11, 13]⟩]

/- The operation removes no ring, and all can be counted. -/
def countable (s : PalletState sampleConfig) (o : PalletOp sampleConfig) : Bool :=
  (match o.call.op with
    | .removeRing _ => false
    | _ => true)
    && match s.dispatch o with
      | .ok s' =>
        decide (totalMembers (s'.stores sampleIdentifier) ≤ u32Max)
      | .error _ => true

theorem countable_of_check (s : PalletState sampleConfig) (o : PalletOp sampleConfig)
    (s' : PalletState sampleConfig) (hCheck : countable s o = true)
    (hDispatch : s.dispatch o = .ok s') :
    Countable sampleIdentifier s o s' := by
  unfold countable at hCheck
  simp only [hDispatch, Bool.and_eq_true, decide_eq_true_eq] at hCheck
  refine ⟨?_, hCheck.2⟩
  intro _ r hEq
  rw [hEq] at hCheck
  exact absurd hCheck.1 Bool.false_ne_true

/- Member 11 is in the queue again, and two are included. -/
theorem index_agreement_sample : ∃ s : PalletState sampleConfig,
      (s.stores sampleIdentifier).queuePage 0 = [11, 13] ∧
        IndexAgreement (s.stores sampleIdentifier) ∧
        (s.stores sampleIdentifier).activeMembers = totalMembers (s.stores sampleIdentifier) := by
  have hExecute : (performAll countable agreementOps).any (fun s =>
          decide ((s.stores sampleIdentifier).queuePage 0 = [(11 : Nat), 13])
            && (s.stores sampleIdentifier).collection.any
              fun info => info.mode = .flexible) = true := by
    decide +kernel
  rcases exists_run_of_execute countable_of_check hExecute with ⟨s, hRun, hTest⟩
  simp only [Bool.and_eq_true, decide_eq_true_eq, Option.any_eq_true] at hTest
  rcases hTest with ⟨hQueue, info, hInfo, hMode⟩
  rcases index_agreement sampleIdentifier s info hInfo hMode with ⟨hAgree, hActive⟩
  exact ⟨s, hQueue, hAgree (hRun.weaken fun _ _ _ hOp => hOp.1), hActive hRun⟩

end PalletState

end Individuality.MembersPallet
