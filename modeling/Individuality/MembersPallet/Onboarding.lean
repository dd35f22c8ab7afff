import Individuality.MembersPallet.QueueOrder

/-
  The validation of an onboarding against the onboarding itself: as long as the current ring counts
  all of its keys, the one accepts exactly when the other succeeds.

  Main declaration: `PalletState.onboarding_validated`
-/

namespace Individuality.MembersPallet

open Except (ok_bind)

variable {T : Config} {s : CollectionStore T} {info : CollectionInfo T} {keys : List T.Member}

open CollectionStore

--
-- The Two Counts of the Waiting Members
--

/- Only the members that fit into the ring are counted. -/
theorem shouldOnboardMembers_congr (s : CollectionStore T) (r : RingIndex) (status : RingStatus)
    {openSlots available available' : Nat} (size maxRingSize : Nat)
    (hMin : min available openSlots = min available' openSlots) :
    s.shouldOnboardMembers r status openSlots available size maxRingSize
      = s.shouldOnboardMembers r status openSlots available' size maxRingSize := by
  unfold shouldOnboardMembers
  rw [hMin]

theorem length_queueFront (s : CollectionStore T) (openSlots : Nat) :
    (s.queueFront openSlots).2.length =
      if (s.queuePage s.queueHead).length < openSlots
          ∧ s.queueHead ≠ s.queueTail then
        (s.queuePage s.queueHead).length + (s.queuePage (nextQueuePage s.queueHead)).length
      else (s.queuePage s.queueHead).length := by
  by_cases hTwo : (s.queuePage s.queueHead).length < openSlots ∧ s.queueHead ≠ s.queueTail
  · unfold queueFront
    simp only [if_pos hTwo, List.length_append]
  · unfold queueFront
    simp only [if_neg hTwo]

/- The validation asks the question of the onboarding. -/
theorem canOnboardMembers_eq (hInfo : s.collection = some info) :
    s.canOnboardMembers s.currentRingIndex s.queueHead =
      (s.shouldOnboardMembers s.currentRingIndex (s.ringStatus s.currentRingIndex)
        (info.ringSize.ringCapacity - (s.ringStatus s.currentRingIndex).total)
        (s.queueFront (info.ringSize.ringCapacity - (s.ringStatus
            s.currentRingIndex).total)).2.length
        s.onboardingSize
        info.ringSize.ringCapacity).isSome := by
  have hCapacity := info.ringSize.ringCapacity_le
  have hMax : 16127 ≤ u32Max := by decide
  unfold canOnboardMembers
  simp only [hInfo, length_queueFront]
  apply congrArg
  apply shouldOnboardMembers_congr
  split_ifs
  · unfold saturatingAdd
    omega
  · rfl

--
-- Placing Members Succeeds
--

/- Known members are placed as long as the open page has room and the pages behind it are empty. -/
theorem exists_placeKeys {r : RingIndex} {f : Filling T}
    (hKnown : ∀ key ∈ keys, f.store.members.containsKey key = true)
    (hRoom : f.keys.length < T.flexibleRingCapacity)
    (hEmpty : ∀ p, f.pageIndex < p → f.store.page r p = [])
    (hIndex : f.pageIndex + keys.length ≤ u32Max) :
    ∃ f', placeKeys r f keys = .ok f' := by
  induction keys generalizing f with
  | nil => exact ⟨f, rfl⟩
  | cons key keys ih =>
    have hKey := hKnown key (List.mem_cons_self ..)
    have hPush : ∃ page : RingPage T, f.keys.tryPush key = some page :=
      BoundedVec.ofList?_isSome_iff.mpr (by
        rw [List.length_append, List.length_singleton]
        exact hRoom)
    rcases hPush with ⟨page, hPush⟩
    have hKept : ∀ key' ∈ keys, ∀ position, (f.store.members.insert key position).containsKey
            key' = true := by
      intro key' hMem position
      rcases StorageMap.containsKey_iff.mp (hKnown key' (List.mem_cons_of_mem _ hMem))
        with ⟨v, hGet⟩
      rw [StorageMap.containsKey_iff, StorageMap.get_insert]
      split_ifs
      · exact ⟨_, rfl⟩
      · exact ⟨v, hGet⟩
    have hBound : Nat.add f.pageIndex 1 + keys.length ≤ u32Max := by
      rw [List.length_cons] at hIndex
      calc
        Nat.add f.pageIndex 1 + keys.length
          = f.pageIndex + (keys.length + 1) := Nat.succ_add_eq_add_succ _ _
        _ ≤ u32Max := hIndex
    rw [placeKeys, List.foldlM_cons]
    unfold placeKey
    rw [ensure_of hKey, ok_bind, hPush, okOr_some, ok_bind]
    by_cases hFull : T.flexibleRingCapacity ≤ page.length
    · rw [if_pos hFull]
      have hNext : saturatingAdd u32Max f.pageIndex 1 = f.pageIndex + 1 := saturatingAdd_of_le
          (Nat.le_trans (Nat.le_add_right _ _) hBound)
      have hPage : ∀ p, f.pageIndex < p → CollectionStore.page
              { f.store with
                members := f.store.members.insert key (.included r f.pageIndex f.keys.length)
                ringKeys := f.store.ringKeys.insert (r, f.pageIndex) page } r p = [] := by
        intro p hLt
        have hNe : (r, p) ≠ (r, f.pageIndex) := by
          intro hEq
          rw [Prod.mk.injEq] at hEq
          exact absurd hEq.2 (Nat.ne_of_gt hLt)
        simp only [CollectionStore.page, ringPage, StorageMap.getD_insert, if_neg hNe]
        exact hEmpty p hLt
      refine ih ?_ ?_ ?_ ?_
      · exact fun key' hMem => hKept key' hMem _
      · have hNil := hPage (f.pageIndex + 1) (Nat.lt_succ_self _)
        rw [hNext]
        rw [BoundedVec.length_def]
        rw [CollectionStore.page] at hNil
        rw [hNil]
        exact T.flexibleRingCapacity_pos
      · intro p hLt
        rw [hNext] at hLt
        exact hPage p (Nat.lt_of_succ_lt hLt)
      · rw [hNext]
        exact hBound
    · rw [if_neg hFull]
      refine ih ?_ ?_ hEmpty ?_
      · exact fun key' hMem => hKept key' hMem _
      · exact Nat.lt_of_not_le hFull
      · exact Nat.le_trans (Nat.add_le_add_right (Nat.le_succ _) _) hBound

/- What is left of the front of the queue fits into a page. -/
theorem exists_restoreQueue {head : PageIndex} (hFits : keys.length ≤ T.onboardingQueuePageSize) :
    ∃ s', s.restoreQueue head keys = .ok s' := by
  unfold restoreQueue
  simp only [if_neg (Nat.not_lt.mpr hFits)]
  split_ifs with hNe
  · rcases (BoundedVec.ofList?_isSome_iff (n := T.onboardingQueuePageSize)).mpr hFits with
      ⟨page, hPage⟩
    rw [hPage, okOr_some, ok_bind]
    exact ⟨_, rfl⟩
  · exact ⟨_, rfl⟩
  · exact ⟨_, rfl⟩

--
-- Validation and Onboarding
--

/- A ring with room in its count is not found full. -/
theorem not_isFull_of_total {maxRingSize : Nat} (hHolds : RingHolds s s.currentRingIndex keys)
    (hRoom : (s.ringStatus s.currentRingIndex).total < maxRingSize) :
    ¬ s.topRing.isFull maxRingSize := by
  have hFill := (topRing_fill hHolds).2
  rw [hHolds.total] at hRoom
  unfold AvailableRing.isFull
  unfold AvailableRing.fill at hFill
  omega

/- The open page of a ring that counts its keys has room. -/
theorem RingHolds.room (hHolds : RingHolds s s.currentRingIndex keys) :
    s.topRing.keys.length < T.flexibleRingCapacity := by
  have hLast := hHolds.paged.length_last_page T.flexibleRingCapacity_pos
  rw [← (topRing_fill hHolds).1] at hLast
  have hKeys : s.topRing.keys.length = keys.length % T.flexibleRingCapacity := hLast
  rw [hKeys]
  exact Nat.mod_lt _ T.flexibleRingCapacity_pos

theorem Tracked.onboards (hTracked : Tracked s) (hInfo : s.collection = some info)
    (hCan : s.canOnboardMembers s.currentRingIndex s.queueHead = true) :
    ∃ s', s.onboardMembers true = .ok (true, s') := by
  have hLive : s.collection.isSome = true := by
    rw [hInfo]
    rfl
  have hSound := hTracked.sound
  rcases ringHolds_of_current hSound.life hLive (hSound.current hLive) with ⟨keys, hHolds⟩
  rcases topRing_fill hHolds with ⟨hIndex, hFill⟩
  rw [canOnboardMembers_eq hInfo, Option.isSome_iff_exists] at hCan
  rcases hCan with ⟨⟨n, filled⟩, hShould⟩
  rw [hHolds.total, ← hFill] at hShould
  rcases shouldOnboardMembers_eq_some hShould with ⟨_, _, hMin, hPos, _⟩
  have hNotFull : ¬ s.topRing.isFull info.ringSize.ringCapacity := by
    apply not_isFull_of_total hHolds
    rw [hHolds.total, ← hFill]
    omega
  have hTop : s.availableRing info.ringSize.ringCapacity = (s, s.topRing) := by
    unfold availableRing
    simp only [if_neg hNotFull]
  rcases hFront : s.queueFront (info.ringSize.ringCapacity - s.topRing.fill) with ⟨head, front⟩
  rw [hFront] at hShould hMin
  -- The batch is known, and the ring has room for it.
  have hKnown : ∀ key ∈ front.take n, s.members.containsKey key = true := by
    intro key hMem
    have hIn : key ∈ (s.queueFront (info.ringSize.ringCapacity - s.topRing.fill)).2 := by
      rw [hFront]
      exact List.mem_of_mem_take hMem
    rw [StorageMap.containsKey_iff]
    rcases page_of_mem_queueFront hIn with hPage | hPage
    · rcases (hTracked.queue.queued key _).mp hPage with ⟨t, hGet⟩
      exact ⟨_, hGet⟩
    · rcases (hTracked.queue.queued key _).mp hPage with ⟨t, hGet⟩
      exact ⟨_, hGet⟩
  have hEmpty : ∀ p, s.topRing.pageIndex < p → s.page s.topRing.ringIndex p = [] := by
    intro p hLt
    apply hHolds.paged.page_eq_nil
    rw [hIndex] at hLt
    have hDiv := Nat.div_add_mod' keys.length T.flexibleRingCapacity
    have hMod := Nat.mod_lt keys.length T.flexibleRingCapacity_pos
    calc
      keys.length ≤ (keys.length / T.flexibleRingCapacity + 1) * T.flexibleRingCapacity := by
          rw [Nat.succ_mul]
          omega
      _ ≤ p * T.flexibleRingCapacity := Nat.mul_le_mul_right _ hLt
  have hBound : s.topRing.pageIndex + (front.take n).length ≤ u32Max := by
    have hCapacity := info.ringSize.ringCapacity_le
    have hDiv := Nat.div_le_self keys.length T.flexibleRingCapacity
    have hMax : 2 * 16127 ≤ u32Max := by decide
    have hTotal := hHolds.bounded
    have hLast : RingExponent.r2e14.ringCapacity = 16127 := rfl
    calc
      s.topRing.pageIndex + (front.take n).length = keys.length / T.flexibleRingCapacity
          + (front.take n).length := by rw [hIndex]
      _ ≤ 16127 + 16127 := by
          rw [List.length_take]
          omega
      _ ≤ u32Max := hMax
  rcases exists_placeKeys (r := s.topRing.ringIndex) (f := ⟨s, s.topRing.pageIndex, s.topRing.keys⟩)
      hKnown hHolds.room hEmpty hBound with ⟨f, hPlace⟩
  have hRestored : ∃ s', ((f.close s.topRing.ringIndex).recordAdditions
        s.topRing n filled).restoreQueue head (front.drop n) = .ok s' :=
    exists_restoreQueue (queueFront_rest hFront hMin).1
  rcases hRestored with ⟨s', hRestore⟩
  refine ⟨s', ?_⟩
  unfold AvailableRing.fill at hFront hShould
  unfold onboardMembers
  simp only [hInfo, okOr_some, ok_bind, hTop, hFront]
  have hRing : s.topRing.ringIndex = s.currentRingIndex := rfl
  have hStatus : s.topRing.status = s.ringStatus s.currentRingIndex := rfl
  rw [hRing, hStatus, hShould]
  dsimp only
  rw [← hRing, hPlace, ok_bind, hRestore]
  rfl

theorem Tracked.canOnboard {s' : CollectionStore T} {b : Bool} (hTracked : Tracked s)
    (hOnboard : s.onboardMembers true = .ok (b, s')) :
    s.canOnboardMembers s.currentRingIndex s.queueHead = true := by
  have hSound := hTracked.sound
  rcases addition_of_onboardMembers hOnboard with ⟨info', top', _, hAddition⟩
  rcases onboardMembers_eq_ok hOnboard with
    ⟨info, s₁, top, head, front, n, filled, f, hInfo, hTop, hFront, hShould, _⟩
  have hLive : s.collection.isSome = true := by
    rw [hInfo]
    rfl
  have hSame : info' = info := by
    have hInfo' := hAddition.collection
    rw [hInfo, Option.some.injEq] at hInfo'
    exact hInfo'.symm
  subst hSame
  have hTop' : top' = top := by
    rw [← hAddition.available, hTop]
  subst hTop'
  rcases available_current hSound.life (hSound.current hLive) hSound.isOpen hAddition with
    ⟨keys, hHolds, hIndex, _, hFill, _⟩
  have hStatus := availableRing_status s info'.ringSize.ringCapacity
  rw [hTop] at hStatus
  have hStore : s₁ = s := by
    rw [availableRing_frame hTop, hIndex]
  rw [canOnboardMembers_eq hInfo, hHolds.total, ← hFill, ← hStatus]
  rw [hStore] at hFront hShould
  rw [hFront, ← hIndex, hShould]
  rfl

theorem Tracked.canOnboardMembers_iff (hTracked : Tracked s) (hLive : s.collection.isSome = true) :
    s.canOnboardMembers s.currentRingIndex s.queueHead = true
      ↔ ∃ s', s.onboardMembers true = .ok (true, s') := by
  rcases Option.isSome_iff_exists.mp hLive with ⟨info, hInfo⟩
  constructor
  · exact hTracked.onboards hInfo
  · rintro ⟨s', hOnboard⟩
    exact hTracked.canOnboard hOnboard

/- The current ring and its open page have room. -/
theorem Tracked.current_has_room (hTracked : Tracked s) (hInfo : s.collection = some info)
    (hIndex : s.currentRingIndex < u32Max) :
    s.topRing.keys.length < T.flexibleRingCapacity ∧
      ¬ s.topRing.isFull info.ringSize.ringCapacity := by
  have hSound := hTracked.sound
  have hLive : s.collection.isSome = true := by
    rw [hInfo]
    rfl
  rcases ringHolds_of_current hSound.life hLive (hSound.current hLive) with ⟨keys, hHolds⟩
  refine ⟨hHolds.room, not_isFull_of_total hHolds ?_⟩
  rcases hSound.isOpen info hInfo with hRoom | hLast
  · exact hRoom
  · exact absurd hLast (Nat.ne_of_lt hIndex)

--
-- Runs
--

namespace PalletState

/-
  In every run that respects the index of the members, an onboarding of a live collection passes its
  validation exactly when it succeeds, and the ring that is read for it is never found full before
  the ring indices are used up.
-/
theorem onboarding_validated (id : Identifier) (s : PalletState T) (info : CollectionInfo T)
    (hRun : RunUnder dispatch (Respectful id) genesis s)
    (hInfo : (s.stores id).collection = some info) :
    ((s.stores id).canOnboardMembers (s.stores id).currentRingIndex (s.stores id).queueHead = true
        ↔ ∃ store, (s.stores id).onboardMembers true = .ok (true, store)) ∧
      ((s.stores id).currentRingIndex < u32Max →
        (s.stores id).topRing.keys.length < T.flexibleRingCapacity ∧
          ¬ (s.stores id).topRing.isFull info.ringSize.ringCapacity) := by
  have hLive : (s.stores id).collection.isSome = true := by
    rw [hInfo]
    rfl
  have hTracked : Tracked (s.stores id) := by
    apply tracked_of_run hRun
    intro hNone
    rw [hNone] at hLive
    exact absurd hLive Bool.false_ne_true
  exact ⟨hTracked.canOnboardMembers_iff hLive, hTracked.current_has_room hInfo⟩

--
-- Sample Runs
--

/- Two queued members pass the validation and are onboarded. -/
theorem onboarding_validated_sample : ∃ (s : PalletState sampleConfig)
        (store : CollectionStore sampleConfig),
      (s.stores sampleIdentifier).onboardMembers true = .ok (true, store) ∧
        (s.stores sampleIdentifier).topRing.keys.length < sampleConfig.flexibleRingCapacity := by
  have hTest : (performAll sparing [⟨0, .createCollection () 1 .appendOnly .r2e10 none⟩,
          ⟨0, .addMembers [(10 : Nat), 11]⟩]).any
        (fun s =>
          let store := s.stores sampleIdentifier
          store.collection.isSome && store.canOnboardMembers store.currentRingIndex store.queueHead
            && store.currentRingIndex == 0) = true := by
    decide +kernel
  have hReached : ∃ s, RunUnder dispatch (Respectful sampleIdentifier) genesis s ∧ _ :=
    exists_run_of_execute (fun s o s' hSparing _ => respectful_of_sparing s o s' hSparing) hTest
  rcases hReached with ⟨s, hRun, hStore⟩
  simp only [Bool.and_eq_true, beq_iff_eq] at hStore
  rcases hStore with ⟨⟨hLive, hCan⟩, hIndex⟩
  rcases Option.isSome_iff_exists.mp hLive with ⟨info, hInfo⟩
  have hValid := onboarding_validated sampleIdentifier s info hRun hInfo
  rcases hValid.1.mp hCan with ⟨store, hOnboard⟩
  refine ⟨s, store, hOnboard, (hValid.2 ?_).1⟩
  rw [hIndex]
  decide

/-
  A removal counts only the first page of the current ring.
  The second page fills up before the count reaches it.
-/
def crowdedKeys : List Nat :=
  (List.range' 256 255).reverse ++ keptKeys

theorem crowdedKeys_nodup : crowdedKeys.Nodup := by
  rw [crowdedKeys, List.nodup_append]
  refine ⟨List.nodup_reverse.mpr List.nodup_range', keptKeys_nodup, ?_⟩
  intro a hLeft b hRight hSame
  rw [List.mem_reverse, List.mem_range'_1] at hLeft
  simp only [keptKeys, List.mem_append, List.mem_reverse, List.mem_range'_1,
    List.mem_cons, List.not_mem_nil, or_false] at hRight
  omega

/- As many members again are queued behind the removal. -/
def crowdedStore : CollectionStore sampleConfig :=
  { keptStore with
    members :=
      ⟨entriesAt (fun k => if 255 < k then .onboarding 0 0 else keptPosition k) crowdedKeys,
        nodupKeys_entriesAt crowdedKeys_nodup⟩
    onboardingQueue :=
      ⟨[⟨0, ⟨List.range' 256 255, show (List.range' 256 255).length ≤ 255 by simp⟩⟩],
        List.nodupKeys_singleton _⟩ }

theorem crowded_of_kept :
    (keptStore.apply ⟨0, .addMembers (List.range' 256 255)⟩).toOption.any
      (sameStore crowdedStore) = true := by
  decide +kernel

/- The validation accepts an onboarding that fails. -/
def blocked (store : CollectionStore sampleConfig) : Bool :=
  store.collection.isSome && store.canOnboardMembers store.currentRingIndex store.queueHead
    && !(store.onboardMembers true).toOption.isSome

theorem blocked_of_crowded :
    (crowdedStore.apply ⟨0, .onboardMembers 0 0 (some (256 : Nat))⟩).toOption.any
      (fun s₁ => (s₁.apply ⟨0, .addMembers [(511 : Nat)]⟩).toOption.any blocked) = true := by
  decide +kernel

/- The validation accepts an onboarding that fails, because the open page of the ring is full. -/
theorem onboarding_blocked : ∃ s : PalletState sampleConfig,
      RunUnder dispatch (fun _ _ _ => True) genesis s ∧
        (s.stores sampleIdentifier).collection.isSome = true ∧
        (s.stores sampleIdentifier).canOnboardMembers (s.stores sampleIdentifier).currentRingIndex
          (s.stores sampleIdentifier).queueHead = true ∧
        ∀ b store, (s.stores sampleIdentifier).onboardMembers true ≠ .ok (b, store) := by
  rcases exists_kept with ⟨_, s₀, hRun, _, hRemove, hKept⟩
  have hRun₀ := hRun.snoc trivial hRemove
  have hCrowded := crowded_of_kept
  rw [← hKept] at hCrowded
  rcases exists_next hRun₀ rfl hCrowded with ⟨s₁, hRun₁, hSame⟩
  have hBlocked := blocked_of_crowded
  rw [← eq_of_sameStore hSame] at hBlocked
  rcases exists_next hRun₁ rfl hBlocked with ⟨s₂, hRun₂, hBlocked₂⟩
  rcases exists_next hRun₂ rfl hBlocked₂ with ⟨s, hRun, hBlocked₃⟩
  simp only [blocked, Bool.and_eq_true, Bool.not_eq_true'] at hBlocked₃
  rcases hBlocked₃ with ⟨⟨hLive, hCan⟩, hFails⟩
  refine ⟨s, hRun, hLive, hCan, ?_⟩
  intro b store hOnboard
  rw [hOnboard] at hFails
  exact absurd hFails (by simp [Except.toOption])

end PalletState

end Individuality.MembersPallet
