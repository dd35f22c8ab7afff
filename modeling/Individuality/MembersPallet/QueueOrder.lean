import Individuality.MembersPallet.SuspendedKeys

/-
  The pages of the onboarding queue, from its head to its tail, are one list of waiting members:
  members are added at its end and onboarded from its front.

  Main declaration: `PalletState.queue_is_list`
-/

namespace Individuality.MembersPallet

variable {T : Config} {s s' : CollectionStore T} {key : T.Member} {keys : List T.Member}

open CollectionStore

--
-- The Queue as One List
--

/- The waiting members, from the head page to the tail page. -/
def CollectionStore.queueList (s : CollectionStore T) : List T.Member :=
  cyclicJoin pageIndexCount s.queueHead s.queueTail s.queuePage

/-
  Every member waits once, on the one page that its entry
  names, and no page is longer than a page may be.
-/
structure WaitingList (s : CollectionStore T) : Prop where
  nodup : s.queueList.Nodup
  page_le : ∀ q, (s.queuePage q).length ≤ T.onboardingQueuePageSize
  inRange : ∀ q, s.queuePage q ≠ [] →
      InCyclicRange pageIndexCount s.queueHead s.queueTail q
  waiting :
    ∀ key, key ∈ s.queueList ↔ ∃ q t, s.members.get key = some (.onboarding q t)
  named : ∀ key q,
      key ∈ s.queuePage q ↔ ∃ t, s.members.get key = some (.onboarding q t)

/- The current ring has the keys `new` after those it had. -/
def RingGains (s s' : CollectionStore T) (new : List T.Member) : Prop :=
  (∃ keys, StoredKeys s s.currentRingIndex keys ∧ StoredKeys s' s.currentRingIndex (keys ++ new)) ∧
    ∀ r p, r ≠ s.currentRingIndex → s'.page r p = s.page r p

/- What an operation does to the list of waiting members. -/
def QueueStep (s s' : CollectionStore T) : Op T → Prop
  | .addMembers members =>
    s'.queueList = s.queueList ++ members
  | .onboardMembers _ _ _ =>
    s.onboardBatch ≠ [] ∧ s.queueList = s.onboardBatch ++ s'.queueList ∧
      RingGains s s' s.onboardBatch
  | .selfInclude _ _ member _ =>
    member ∈ s.queueList ∧ s'.queueList = s.queueList.erase member ∧ RingGains s s' [member]
  | .removeMembers suspensions =>
    s'.queueList = suspensions.foldl List.erase s.queueList
  | _ => s'.queueList = s.queueList

theorem queueList_congr (hHead : s'.queueHead = s.queueHead) (hTail : s'.queueTail = s.queueTail)
    (hQueue : s'.onboardingQueue = s.onboardingQueue) :
    s'.queueList = s.queueList := by
  have hPages : s'.queuePage = s.queuePage := by
    funext q
    unfold CollectionStore.queuePage queueBlock
    rw [hQueue]
  unfold CollectionStore.queueList
  rw [hHead, hTail, hPages]

theorem QueueIndexed.mem_queueList_iff (hIndexed : QueueIndexed s) (key : T.Member) :
    key ∈ s.queueList ↔ ∃ q, Queued s key q := by
  unfold CollectionStore.queueList
  rw [hIndexed.span.mem_cyclicJoin_iff]
  constructor
  · rintro ⟨q, hMem⟩
    exact ⟨q, (hIndexed.queued key q).mp hMem⟩
  · rintro ⟨q, hQueued⟩
    exact ⟨q, (hIndexed.queued key q).mpr hQueued⟩

theorem QueueIndexed.waitingList (hIndexed : QueueIndexed s) :
    WaitingList s where
  nodup := by
    apply hIndexed.span.cyclicJoin_nodup hIndexed.nodup
    intro key q q' hMem hMem'
    exact hIndexed.page_unique hMem hMem'
  page_le := by
    intro q
    exact (s.queueBlock q).length_le
  inRange := hIndexed.span.inRange
  waiting := hIndexed.mem_queueList_iff
  named := hIndexed.queued

--
-- Adding and Merging
--

theorem queueList_of_addMember {now : Nat} (hIndexed : QueueIndexed s)
    (hAdd : CollectionStore.addMember now s key = .ok s') :
    s'.queueList = s.queueList ++ [key] := by
  have hSpan := hIndexed.span
  have hPush := (addMember_eq_ok hAdd).2
  unfold pushToOnboardingQueue at hPush
  cases hKeys : (s.queueBlock s.queueTail).tryPush key with
  | some keys =>
    simp only [hKeys, Except.ok.injEq] at hPush
    rw [BoundedVec.tryPush_eq_some_iff] at hKeys
    rw [← hPush]
    apply cyclicJoin_append_last hSpan.first_lt hSpan.last_lt
    intro q
    rw [queuePage_writeQueueTail, hKeys]
    rfl
  | none =>
    simp only [hKeys, Except.bind_eq_ok, ensure_eq_ok_iff,
      okOr_eq_ok_iff, BoundedVec.ofList?_eq_some_iff,
      Except.pure_eq_ok] at hPush
    rcases hPush with ⟨_, hRoom, keys, hPage, hEq⟩
    rw [nextQueuePage_eq_cyclicNext] at hRoom hEq
    have hNil := hSpan.next_eq_nil hRoom
    rw [← hEq]
    have hJoin : cyclicJoin pageIndexCount s.queueHead (cyclicNext pageIndexCount s.queueTail)
            s.queuePage
          = s.queueList ++ s.queuePage (cyclicNext pageIndexCount s.queueTail) :=
      cyclicJoin_push hSpan.first_lt hSpan.last_lt hRoom
    rw [hNil, List.append_nil] at hJoin
    rw [← hJoin]
    apply cyclicJoin_append_last hSpan.first_lt (cyclicNext_lt (Nat.succ_pos _))
    intro q
    rw [queuePage_writeQueueTail, hPage]
    simp only [hNil, List.nil_append]

theorem queueList_of_addMembers {now : Nat} (hIndexed : QueueIndexed s)
    (hAdd : s.addMembers now keys = .ok s') :
    s'.queueList = s.queueList ++ keys := by
  have hFold := (addMembers_eq_ok hAdd).2
  clear hAdd
  induction keys generalizing s with
  | nil =>
    simp only [List.foldlM_nil, Except.pure_eq_ok] at hFold
    rw [hFold, List.append_nil]
  | cons key keys ih =>
    rw [List.foldlM_cons, Except.bind_eq_ok] at hFold
    rcases hFold with ⟨s₁, hFirst, hRest⟩
    rw [ih (hIndexed.addMember hFirst) hRest, queueList_of_addMember hIndexed hFirst,
      List.append_assoc]
    rfl

theorem queueList_of_mergeQueuePages {h h' : PageIndex} (hIndexed : QueueIndexed s)
    (hMerge : s.mergeQueuePagesAuthorized h h' = .ok s') :
    s'.queueList = s.queueList := by
  have hSpan := hIndexed.span
  rcases mergeQueuePagesAuthorized_eq_ok hMerge with ⟨rfl, hNext, hNe, hMerge⟩
  rcases mergeQueuePages_pages hMerge with ⟨hHead, hTail, hPages⟩
  rw [nextQueuePage_eq_cyclicNext] at hNext
  unfold CollectionStore.queueList
  rw [hHead, hTail, hNext]
  apply cyclicJoin_merge_first hSpan.first_lt hSpan.last_lt hNe
  intro q
  rw [hPages, hNext]
  rfl

--
-- Onboarding
--

variable {front : List T.Member}

/- The pages with the front of the queue on its own page. -/
theorem QueueIndexed.exists_front {openSlots : Nat} {head : PageIndex} (hIndexed : QueueIndexed s)
    (hFront : s.queueFront openSlots = (head, front)) :
    ∃ page : PageIndex → List T.Member, head < pageIndexCount ∧
        cyclicJoin pageIndexCount head s.queueTail page = s.queueList ∧
        page head = front ∧
        ∀ q, q ≠ head → page q =
            if q = s.queueHead then [] else s.queuePage q := by
  have hSpan := hIndexed.span
  rcases queueFront_cases s openSlots with ⟨_, hNe, hEq⟩ | hEq
  · rw [hEq, Prod.mk.injEq, nextQueuePage_eq_cyclicNext] at hFront
    rcases hFront with ⟨hHead, hKeys⟩
    subst hHead
    refine ⟨fun q =>
        if q = cyclicNext pageIndexCount s.queueHead then
          s.queuePage s.queueHead ++ s.queuePage (cyclicNext pageIndexCount s.queueHead)
        else if q = s.queueHead then []
        else s.queuePage q,
      cyclicNext_lt (Nat.succ_pos _), ?_, ?_, ?_⟩
    · apply cyclicJoin_merge_first hSpan.first_lt hSpan.last_lt hNe
      exact fun _ => rfl
    · simp only [if_true]
      exact hKeys
    · intro q hOther
      simp only [if_neg hOther]
  · rw [hEq, Prod.mk.injEq] at hFront
    rcases hFront with ⟨hHead, hKeys⟩
    subst hHead
    refine ⟨s.queuePage, hSpan.first_lt, rfl, hKeys, ?_⟩
    intro q hOther
    rw [if_neg hOther]

theorem QueueIndexed.queueList_of_restore {s₂ : CollectionStore T} {openSlots n : Nat}
    {head : PageIndex} (hIndexed : QueueIndexed s) (hFront : s.queueFront openSlots = (head, front))
    (hMin : n = min front.length openSlots) (hHead : s₂.queueHead = s.queueHead)
    (hTail : s₂.queueTail = s.queueTail) (hQueue : s₂.onboardingQueue = s.onboardingQueue)
    (hRestore : s₂.restoreQueue head (front.drop n) = .ok s') :
    s.queueList = front.take n ++ s'.queueList := by
  have hLast := hIndexed.span.last_lt
  have hFits := (queueFront_rest hFront hMin).1
  rcases hIndexed.exists_front hFront with ⟨page, hFirst, hJoin, hPage, hOther⟩
  rcases restoreQueue_pages hFits hRestore with ⟨hTail', hHead', hPages⟩
  have hPage₂ : s₂.queuePage = s.queuePage := by
    funext q
    unfold CollectionStore.queuePage queueBlock
    rw [hQueue]
  rw [hTail] at hTail' hHead'
  rw [hHead, hPage₂] at hPages
  have hReplace : ∀ q, s'.queuePage q = if q = head then front.drop n else page q := by
    intro q
    rw [hPages]
    split_ifs with hIs hOld
    · rfl
    · rw [hOther q hIs, if_pos hOld]
    · rw [hOther q hIs, if_neg hOld]
  have hSplit : page head = front.take n ++ front.drop n := by
    rw [hPage, List.take_append_drop]
  rcases cyclicJoin_replace_first hFirst hLast hSplit
      hReplace with
    ⟨rest, hBefore, hAfter⟩
  rw [← hJoin, hBefore, ← hAfter]
  congr 1
  unfold CollectionStore.queueList
  rw [hTail', hHead']
  split_ifs with hMove
  · rw [nextQueuePage_eq_cyclicNext]
    symm
    apply cyclicJoin_skip hFirst hLast ?_ hMove.2
    rw [hPages, if_pos rfl]
    exact hMove.1
  · rfl

theorem queueList_of_onboardMembers {b : Bool} (hIndexed : QueueIndexed s)
    (hOnboard : s.onboardMembers true = .ok (b, s')) :
    s.queueList = s.onboardBatch ++ s'.queueList := by
  rcases onboardMembers_eq_ok hOnboard with ⟨info, s₁, top, head, front, n, filled, f, _, hTop,
      hFront, hShould, hBatch, hPlace, hRestore⟩
  have hAvailable := availableRing_frame hTop
  subst hAvailable
  rcases close_frame f top.ringIndex with ⟨ringKeys', hClose, _⟩
  have hMin := (shouldOnboardMembers_eq_some hShould).2.2.1
  rcases placeKeys_frame hPlace with ⟨members, ringKeys, hStore, _⟩
  rw [hBatch]
  apply hIndexed.queueList_of_restore hFront hMin ?_ ?_ ?_ hRestore
  · rw [hClose, hStore]
    rfl
  · rw [hClose, hStore]
    rfl
  · rw [hClose, hStore]
    rfl

--
-- Taking One Member out
--

theorem queueList_of_doSelfInclude (hIndexed : QueueIndexed s)
    (hInclude : s.doSelfInclude key = .ok s') :
    key ∈ s.queueList ∧ s'.queueList = s.queueList.erase key := by
  have hSpan := hIndexed.span
  rcases doSelfInclude_queue hInclude with ⟨q, t, r, p, i, hGet, hMembers, hTail, hHead, hPages⟩
  have hMem := (hIndexed.queued key q).mpr ⟨t, hGet⟩
  refine ⟨(hIndexed.mem_queueList_iff key).mpr ⟨q, t, hGet⟩, ?_⟩
  have hErase := hSpan.cyclicJoin_erase (fun q' hMem' => hIndexed.page_unique hMem' hMem) hMem
      hPages
  unfold CollectionStore.queueList
  rw [← hErase, hTail, hHead]
  split_ifs with hMove
  · rw [nextQueuePage_eq_cyclicNext]
    apply cyclicJoin_skip hSpan.first_lt hSpan.last_lt ?_ hMove.2.2
    rw [hPages, if_pos hMove.2.1]
    exact hMove.1
  · rfl

/- A member that does not wait leaves no gap in the queue. -/
theorem queueList_of_suspendMember (hIndexed : QueueIndexed s)
    (hSuspend : CollectionStore.suspendMember s key = .ok s') :
    s'.queueList = s.queueList.erase key := by
  have hAbsent : (∀ q, ¬ Queued s key q) → s.queueList.erase key = s.queueList := by
    intro hFree
    apply List.erase_of_not_mem
    rw [hIndexed.mem_queueList_iff]
    rintro ⟨q, hQueued⟩
    exact hFree q hQueued
  rcases suspendMember_cases hSuspend with ⟨r, p, i, indices, hGet, _, _, hEq⟩ | ⟨q, t, hGet, hEq⟩
      | ⟨hGet, hEq⟩
  · rw [hAbsent]
    · rw [hEq]
      exact queueList_congr rfl rfl rfl
    · rintro q ⟨t, hQueued⟩
      simp [hGet] at hQueued
  · have hMem := (hIndexed.queued key q).mpr ⟨t, hGet⟩
    have hPages : ∀ q', s'.queuePage q' =
          if q' = q then (s.queuePage q).erase key
          else s.queuePage q' := by
      intro q'
      rw [hEq]
      exact suspendQueued_pages hMem q'
    have hErase := hIndexed.span.cyclicJoin_erase
        (fun q' hMem' => hIndexed.page_unique hMem' hMem) hMem
        hPages
    have hFrame : s'.queueHead = s.queueHead ∧ s'.queueTail = s.queueTail := by
      rcases suspendQueued_frame s q key with ⟨queue, hQueue⟩
      rw [hEq, hQueue]
      exact ⟨rfl, rfl⟩
    unfold CollectionStore.queueList
    rw [← hErase, hFrame.1, hFrame.2]
  · rw [hAbsent]
    · rw [hEq]
      exact queueList_congr rfl rfl rfl
    · rintro q ⟨t, hQueued⟩
      simp [hGet] at hQueued

theorem queueList_of_suspensions (hIndexed : QueueIndexed s)
    (hFold : keys.foldlM CollectionStore.suspendMember s = .ok s') :
    s'.queueList = keys.foldl List.erase s.queueList := by
  induction keys generalizing s with
  | nil =>
    simp only [List.foldlM_nil, Except.pure_eq_ok] at hFold
    rw [hFold]
    rfl
  | cons key keys ih =>
    rw [List.foldlM_cons, Except.bind_eq_ok] at hFold
    rcases hFold with ⟨s₁, hFirst, hRest⟩
    rw [ih (hIndexed.suspendMember hFirst) hRest, queueList_of_suspendMember hIndexed hFirst,
      List.foldl_cons]

--
-- Every Operation
--

theorem RingHolds.storedKeys {r : RingIndex} (hHolds : RingHolds s r keys) :
    StoredKeys s r keys := by
  refine ⟨keys.length, ?_⟩
  intro n hLe
  rw [hHolds.paged.flatMap_range]
  apply List.take_of_length_le
  exact le_trans hLe (Nat.le_mul_of_pos_right n T.flexibleRingCapacity_pos)

theorem Appended.ringGains {new : List T.Member} (hAppended : Appended s s' new) :
    RingGains s s' new :=
  ⟨⟨_, hAppended.before.storedKeys, hAppended.after.storedKeys⟩, hAppended.others⟩

theorem Tracked.queueStep {call : TimedOp T} (hTracked : Tracked s)
    (hLive : s.collection.isSome = true) (hApply : s.apply call = .ok s') :
    QueueStep s s' call.op := by
  have hIndexed := hTracked.queue
  have hNotSuspended : s.suspendedCollection.isSome ≠ true := by
    rw [hTracked.sound.life.live_not_suspended hLive]
    exact Bool.false_ne_true
  rcases call with ⟨now, op⟩
  cases op with
  | createCollection owner size mode ringSize delay =>
    rcases createCollection_eq_ok hApply with ⟨_, _, _, _, rfl⟩
    exact queueList_congr rfl rfl rfl
  | addMembers keys =>
    exact queueList_of_addMembers hIndexed hApply
  | removeRing r =>
    rcases removeRing_eq_ok hApply with ⟨_, _, ⟨_, hEq⟩ | ⟨_, hEq⟩⟩
    · rw [hEq]
      rfl
    · rcases enqueueRingForDeletion_eq s now r with ⟨root, oldRoots, changes, stale, _, _, hIs⟩
      rw [hEq, hIs]
      exact queueList_congr rfl rfl rfl
  | deleteCollection owner =>
    rcases deleteCollection_eq_ok hApply with ⟨_, _, rfl⟩
    exact queueList_congr rfl rfl rfl
  | removeMembers keys =>
    exact queueList_of_suspensions hIndexed (queueMemberSuspensions_eq_ok hApply).2
  | startRemovalSession =>
    rcases startRemovalSession_eq_ok hApply with ⟨_, rfl, _⟩
    exact queueList_congr rfl rfl rfl
  | endRemovalSession =>
    rcases endRemovalSession_eq_ok hApply with ⟨_, rfl, _⟩
    exact queueList_congr rfl rfl rfl
  | mergeRings b t =>
    rcases mergeRings_eq_ok hApply with
      ⟨_, _, _, _, _, _, _, _, _, _, _, _, _, _, _, _, _, _, _, _, _, hEq⟩
    rw [hEq]
    exact queueList_congr rfl rfl rfl
  | setOnboardingSize size =>
    rw [setOnboardingSize_eq_ok hApply]
    exact queueList_congr rfl rfl rfl
  | selfInclude signature message member callValidAt =>
    have hInclude := selfInclude_eq_ok hApply
    rcases queueList_of_doSelfInclude hIndexed hInclude with ⟨hMem, hErase⟩
    exact ⟨hMem, hErase, (appended_of_doSelfInclude hTracked.sound hInclude).ringGains⟩
  | buildRing ready r ringExponent revision toInclude =>
    rcases buildRing_eq_ok (buildRingAuthorized_eq_ok hApply).2.2.2 with
      ⟨_, _, _, _, _, _, _, _, _, _, rfl⟩
    exact queueList_congr rfl rfl rfl
  | onboardMembers r head first =>
    rcases onboardMembersAuthorized_eq_ok hApply with ⟨b, hOnboard⟩
    rcases addition_of_onboardMembers hOnboard with ⟨info, top, hNew, _⟩
    have hNodup := (hIndexed.onboardBatch hOnboard).1
    exact ⟨hNew, queueList_of_onboardMembers hIndexed hOnboard,
      (appended_of_onboardMembers hTracked.sound hNodup hOnboard).ringGains⟩
  | mergeQueuePages h h' =>
    exact queueList_of_mergeQueuePages hIndexed hApply
  | removeSuspendedKeys r revision =>
    rcases removeSuspendedKeysAuthorized_eq_ok hApply with ⟨_, _, _, hEq⟩
    rcases Option.isSome_iff_exists.mp hLive with ⟨info, hInfo⟩
    rcases removeSuspendedKeys_eq now r hInfo with ⟨root, oldRoots, stale, ringKeys, _, _, hIs⟩
    rw [hEq, hIs]
    exact queueList_congr rfl rfl rfl
  | deleteRingPage r p =>
    rcases deleteRingPageAuthorized_eq_ok hApply with ⟨_, rfl⟩
    exact queueList_congr rfl rfl rfl
  | enqueueRingDeletion r =>
    exact absurd (enqueueRingDeletionAuthorized_eq_ok hApply).1 hNotSuspended
  | deleteOnboardingQueuePage p =>
    exact absurd (deleteOnboardingQueuePageAuthorized_eq_ok hApply).1 hNotSuspended
  | finalizeCollectionDeletion =>
    exact absurd (finalizeCollectionDeletion_eq_ok hApply).1 hNotSuspended
  | removeOrphanedMembers =>
    exact absurd (removeOrphanedMembers_eq_ok hApply).1 hNotSuspended
  | markRingStale r =>
    rw [markRingStale_eq_ok hApply]
    exact queueList_congr rfl rfl rfl
  | cleanUpOldRoots r limit =>
    rcases cleanUpOldRoots_eq_ok hApply with ⟨_, rfl⟩
    exact queueList_congr rfl rfl rfl

namespace PalletState

/-
  In every run that respects the index of the members, the queue of a live collection is one list,
  and every operation does to it what it does to a list.
-/
theorem queue_is_list (id : Identifier) (s : PalletState T)
    (hRun : RunUnder dispatch (Respectful id) genesis s)
    (hLive : (s.stores id).collection.isSome = true) :
    WaitingList (s.stores id) ∧ ∀ call store, (s.stores id).apply call = .ok store →
        QueueStep (s.stores id) store call.op := by
  have hUsable : (s.stores id).collection = none → (s.stores id).retired = false := by
    intro hNone
    rw [hNone] at hLive
    exact absurd hLive Bool.false_ne_true
  have hTracked := tracked_of_run hRun hUsable
  refine ⟨hTracked.queue.waitingList, ?_⟩
  intro call store hApply
  exact hTracked.queueStep hLive hApply

--
-- Sample Runs
--

theorem respectful_of_sparing (s : PalletState sampleConfig) (o : PalletOp sampleConfig)
    (s' : PalletState sampleConfig) (hSparing : sparing s o = true) :
    Respectful sampleIdentifier s o s' := by
  intro hId
  exact (positionsKept_of_sparing s o s' hSparing hId).keepsTrack

/- Two members that were added again wait in the queue. -/
theorem queue_is_list_sample : ∃ s : PalletState sampleConfig,
      (s.stores sampleIdentifier).queueList = [11, 13] ∧ WaitingList (s.stores sampleIdentifier) ∧
        ∀ call store, (s.stores sampleIdentifier).apply call = .ok store →
            QueueStep (s.stores sampleIdentifier) store
              call.op := by
  have hTest : (performAll sparing agreementOps).any (fun s =>
        (s.stores sampleIdentifier).collection.isSome
          && decide ((s.stores sampleIdentifier).queueList = [(11 : Nat), 13])) = true := by
    decide +kernel
  have hReached : ∃ s, RunUnder dispatch (Respectful sampleIdentifier) genesis s ∧ _ :=
    exists_run_of_execute (fun s o s' hSparing _ => respectful_of_sparing s o s' hSparing) hTest
  rcases hReached with ⟨s, hRun, hStore⟩
  rw [Bool.and_eq_true, decide_eq_true_eq] at hStore
  exact ⟨s, hStore.2, queue_is_list sampleIdentifier s hRun hStore.1⟩

/-
  After a removal of suspended keys that did not count the second page of the current ring, a member
  is onboarded in front of the key on that page.
-/
theorem onboarded_out_of_order : ∃ (s : PalletState sampleConfig)
        (store : CollectionStore sampleConfig),
      RunUnder dispatch (fun _ _ _ => True) genesis s ∧
        (s.stores sampleIdentifier).collection.isSome = true ∧
        (s.stores sampleIdentifier).apply followOnboard = .ok store ∧
        ¬ QueueStep (s.stores sampleIdentifier) store
          followOnboard.op := by
  rcases exists_spill with ⟨s, s₁, s₂, store, hRun, _, hRemove, hAdd, hSpilled, hOnboard, hAfter⟩
  simp only [spilled, decide_eq_true_eq] at hSpilled
  rcases hSpilled with ⟨hLive, hCurrent, _, hBefore⟩
  refine ⟨s₂, store, ?_, hLive, hOnboard, ?_⟩
  · exact (hRun.snoc trivial hRemove).snoc trivial hAdd
  · rintro ⟨_, _, ⟨keys, hOld, hNew⟩, _⟩
    rw [hCurrent] at hOld hNew
    have hKey := hOld.getElem?_of_pages hBefore
    have hLt := (List.getElem?_eq_some_iff.mp hKey).1
    have hKey' := hNew.getElem?_of_pages hAfter
    rw [List.getElem?_append_left hLt, hKey] at hKey'
    exact absurd hKey' (by decide)

end PalletState

end Individuality.MembersPallet
