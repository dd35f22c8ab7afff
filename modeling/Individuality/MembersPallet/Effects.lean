import Individuality.MembersPallet.Pallet
import Individuality.Base.Positions
import Individuality.Base.Paged

/-
  What a successful operation writes: one inversion lemma for each operation, with its guards and
  the storage items that may differ afterwards.

  Main declaration: `CollectionStore.addMembers_eq_ok`
-/

namespace Individuality.MembersPallet

open Except (bind_eq_ok pure_eq_ok)
open StorageMap (getD_insert get_insert_of_ne get_insert_self)
open BoundedVec (length_def toList_empty tryPush_eq_some_iff)

variable {T : Config} {s s' : CollectionStore T} {n now size : Nat} {key member : T.Member}
variable {new keys : List T.Member} {h h' : PageIndex}
variable {first second : QueuePage T} {b r : RingIndex} {f f' : CollectionStore.Filling T}

namespace CollectionStore

--
-- Queue Operations
--

theorem pushToOnboardingQueue_frame (hPush : s.pushToOnboardingQueue now key = .ok s') :
    ∃ tail queue members,
      s' = { s with
        queueTail := tail
        onboardingQueue := queue
        members := members } := by
  unfold pushToOnboardingQueue at hPush
  cases hKeys : (s.queueBlock s.queueTail).tryPush key with
  | some keys =>
    simp only [hKeys, Except.ok.injEq] at hPush
    exact ⟨_, _, _, hPush.symm⟩
  | none =>
    simp only [hKeys, bind_eq_ok, pure_eq_ok] at hPush
    rcases hPush with ⟨_, _, keys, _, hEq⟩
    exact ⟨_, _, _, hEq.symm⟩

/- A member that can be added is unknown or suspended. -/
theorem addMember_eq_ok (hAdd : addMember now s key = .ok s') :
    (s.members.get key = none ∨ s.members.get key = some .suspended) ∧
      s.pushToOnboardingQueue now key = .ok s' := by
  unfold addMember at hAdd
  cases hGet : s.members.get key with
  | none =>
    simp only [hGet, bind_eq_ok] at hAdd
    rcases hAdd with ⟨_, _, hPush⟩
    exact ⟨Or.inl rfl, hPush⟩
  | some position =>
    cases position with
    | suspended =>
      simp only [hGet] at hAdd
      exact ⟨Or.inr rfl, hAdd⟩
    | onboarding q t => simp [hGet] at hAdd
    | included r p i => simp [hGet] at hAdd

theorem addMembers_eq_ok (hAdd : s.addMembers now keys = .ok s') :
    s.collection.isSome = true ∧ keys.foldlM (addMember now) s = .ok s' := by
  unfold addMembers at hAdd
  rw [bind_eq_ok] at hAdd
  rcases hAdd with ⟨info, hInfo, hFold⟩
  rw [okOr_eq_ok_iff] at hInfo
  exact ⟨by simp [hInfo], hFold⟩

theorem addMembers_frame (hAdd : s.addMembers now keys = .ok s') :
    ∃ tail queue members,
      s' = { s with
        queueTail := tail
        onboardingQueue := queue
        members := members } := by
  refine List.foldlM_invariant (fun x => ∃ tail queue members,
      x = { s with
        queueTail := tail
        onboardingQueue := queue
        members := members })
    (addMembers_eq_ok hAdd).2 ?_ ⟨_, _, _, rfl⟩
  rintro x key y _ hStep ⟨tail, queue, members, rfl⟩
  rcases pushToOnboardingQueue_frame (addMember_eq_ok hStep).2 with ⟨tail', queue', members', rfl⟩
  exact ⟨tail', queue', members', rfl⟩

theorem mergeQueuePages_eq_ok (hMerge : s.mergeQueuePages h h' first second = .ok s') :
    ∃ s₁ keys, first.toList.foldlM (moveQueued h') s = .ok s₁ ∧
        keys.toList = first.toList ++ second.toList ∧
        s' = { s₁ with
          onboardingQueue := (s₁.onboardingQueue.remove h).insert h' keys
          queueHead := h' } := by
  unfold mergeQueuePages at hMerge
  simp only [bind_eq_ok, pure_eq_ok, okOr_eq_ok_iff, BoundedVec.tryExtend_eq_some_iff]
    at hMerge
  rcases hMerge with ⟨s₁, hFold, keys, hKeys, hEq⟩
  exact ⟨s₁, keys, hFold, hKeys, hEq.symm⟩

theorem moveQueued_frame (hMove : moveQueued h' s key = .ok s') :
    ∃ members, s' = { s with members := members } := by
  unfold moveQueued at hMove
  cases hGet : s.members.get key with
  | none => simp [hGet] at hMove
  | some position =>
    cases position <;>
      simp only [hGet, Except.ok.injEq] at hMove <;>
      exact ⟨_, hMove.symm⟩

theorem moveQueued_foldlM_frame (hMove : keys.foldlM (moveQueued h') s = .ok s') :
    ∃ members, s' = { s with members := members } := by
  refine List.foldlM_invariant (fun x => ∃ members, x = { s with members := members })
    hMove ?_ ⟨_, rfl⟩
  rintro x key y _ hStep ⟨members, rfl⟩
  rcases moveQueued_frame hStep with ⟨members', rfl⟩
  exact ⟨members', rfl⟩

theorem mergeQueuePages_frame (hMerge : s.mergeQueuePages h h' first second = .ok s') :
    ∃ head queue members,
      s' = { s with
        queueHead := head
        onboardingQueue := queue
        members := members } := by
  rcases mergeQueuePages_eq_ok hMerge with ⟨s₁, keys, hFold, _, rfl⟩
  rcases moveQueued_foldlM_frame hFold with ⟨members, rfl⟩
  exact ⟨_, _, _, rfl⟩

theorem shouldMergeQueuePages_eq_merge
    (hShould : s.shouldMergeQueuePages = .merge h h' first second) :
    h = s.queueHead ∧ h' = nextQueuePage s.queueHead ∧ s.queueHead ≠ s.queueTail := by
  unfold shouldMergeQueuePages at hShould
  split_ifs at hShould with hSuspended hSame
  simp only at hShould
  split_ifs at hShould
  simp only [QueueMergeAction.merge.injEq] at hShould
  exact ⟨hShould.1.symm, hShould.2.1.symm, hSame⟩

theorem mergeQueuePagesAuthorized_eq_ok (hMerge : s.mergeQueuePagesAuthorized h h' = .ok s') :
    h = s.queueHead ∧ h' = nextQueuePage s.queueHead ∧ s.queueHead ≠ s.queueTail ∧
      s.mergeQueuePages h h' (s.queueBlock h) (s.queueBlock h') = .ok s' := by
  unfold mergeQueuePagesAuthorized ensureCanMergeQueuePages at hMerge
  rw [bind_eq_ok] at hMerge
  rcases hMerge with ⟨_, hCan, hMerge⟩
  cases hShould : s.shouldMergeQueuePages with
  | noAction => simp [hShould] at hCan
  | merge a b first second =>
    simp only [hShould, ensure_eq_ok_iff] at hCan
    rcases hCan with ⟨rfl, rfl⟩
    rcases shouldMergeQueuePages_eq_merge hShould with ⟨hHead, hNext, hNe⟩
    exact ⟨hHead, hNext, hNe, hMerge⟩

--
-- Placing Members into the Available Ring
--

/- The available ring is the current one, or the next. -/
theorem availableRing_cases (s : CollectionStore T) (maxRingSize : Nat) :
    (¬ s.topRing.isFull maxRingSize ∧ s.availableRing maxRingSize = (s, s.topRing))
      ∨ (s.topRing.isFull maxRingSize ∧ s.availableRing maxRingSize =
          ({ s with
              currentRingIndex := saturatingAdd u32Max s.currentRingIndex 1 },
            { ringIndex :=
                saturatingAdd u32Max s.currentRingIndex 1
              pageIndex := 0
              keys := s.ringPage (saturatingAdd u32Max s.currentRingIndex 1) 0
              status := s.ringStatus s.currentRingIndex })) := by
  by_cases hFull : s.topRing.isFull maxRingSize
  · right
    refine ⟨hFull, ?_⟩
    simp only [availableRing, if_pos hFull]
    rfl
  · left
    refine ⟨hFull, ?_⟩
    simp only [availableRing, if_neg hFull]

/- Only the ring index can differ after the lookup. -/
theorem availableRing_frame {s₁ : CollectionStore T} {top : AvailableRing T} {maxRingSize : Nat}
    (hTop : s.availableRing maxRingSize = (s₁, top)) :
    s₁ = { s with currentRingIndex := top.ringIndex } := by
  rcases availableRing_cases s maxRingSize with ⟨_, hEq⟩ | ⟨_, hEq⟩
  · rw [hEq, Prod.mk.injEq] at hTop
    rcases hTop with ⟨rfl, rfl⟩
    rfl
  · rw [hEq, Prod.mk.injEq] at hTop
    rcases hTop with ⟨rfl, rfl⟩
    rfl

/- The open page of the available ring is read from storage. -/
theorem availableRing_keys (s : CollectionStore T) (maxRingSize : Nat) :
    (s.availableRing maxRingSize).2.keys = s.ringPage (s.availableRing maxRingSize).2.ringIndex
        (s.availableRing maxRingSize).2.pageIndex := by
  rcases availableRing_cases s maxRingSize with ⟨_, hEq⟩ | ⟨_, hEq⟩
  · rw [hEq]
    rfl
  · rw [hEq]

/- The available ring does not depend on the queue. -/
theorem availableRing_of_queue (s : CollectionStore T) (head : PageIndex)
    (queue : StorageMap PageIndex (QueuePage T)) (maxRingSize : Nat) :
    ({ s with
        queueHead := head
        onboardingQueue := queue }.availableRing maxRingSize).2
      = (s.availableRing maxRingSize).2 := by
  by_cases hFull : s.topRing.isFull maxRingSize
  · simp only [availableRing]
    rw [if_pos hFull, if_pos]
    · rfl
    · exact hFull
  · simp only [availableRing]
    rw [if_neg hFull, if_neg]
    · rfl
    · exact hFull

theorem placeKey_eq_ok (hPlace : placeKey r f key = .ok f') :
    ∃ keys : RingPage T, keys.toList = f.keys.toList ++ [key] ∧ f' =
        if T.flexibleRingCapacity ≤ keys.length then
          { store :=
              { f.store with
                members := f.store.members.insert key (.included r f.pageIndex f.keys.length)
                ringKeys := f.store.ringKeys.insert (r, f.pageIndex) keys }
            pageIndex := saturatingAdd u32Max f.pageIndex 1
            keys := (f.store.ringKeys.insert (r, f.pageIndex) keys).getD
                (r, saturatingAdd u32Max f.pageIndex 1)
                .empty }
        else
          { store :=
              { f.store with
                members := f.store.members.insert key (.included r f.pageIndex f.keys.length) }
            pageIndex := f.pageIndex
            keys := keys } := by
  unfold placeKey at hPlace
  rw [bind_eq_ok] at hPlace
  rcases hPlace with ⟨_, _, hPlace⟩
  rw [bind_eq_ok] at hPlace
  rcases hPlace with ⟨keys, hKeys, hPlace⟩
  rw [okOr_eq_ok_iff, tryPush_eq_some_iff] at hKeys
  refine ⟨keys, hKeys, ?_⟩
  by_cases hFull : T.flexibleRingCapacity ≤ keys.length
  · rw [if_pos hFull, pure_eq_ok] at hPlace
    rw [if_pos hFull, ← hPlace]
    rfl
  · rw [if_neg hFull, pure_eq_ok] at hPlace
    rw [if_neg hFull, ← hPlace]

/- Placing keys writes the members and pages of one ring. -/
theorem placeKeys_frame (hPlace : placeKeys r f keys = .ok f') :
    ∃ members ringKeys,
      f'.store = { f.store with
          members := members
          ringKeys := ringKeys } ∧
        ∀ r' p, r' ≠ r → f'.store.page r' p = f.store.page r' p := by
  refine List.foldlM_invariant (fun x => ∃ members ringKeys,
      x.store = { f.store with
          members := members
          ringKeys := ringKeys } ∧
        ∀ r' p, r' ≠ r → x.store.page r' p = f.store.page r' p)
    hPlace ?_ ⟨_, _, rfl, fun _ _ _ => rfl⟩
  rintro x key y _ hStep ⟨members, ringKeys, hStore, hOther⟩
  rcases placeKey_eq_ok hStep with ⟨page, _, rfl⟩
  split_ifs with hFull
  · refine ⟨_, _, by rw [hStore], ?_⟩
    intro r' p hNe
    rw [← hOther r' p hNe]
    simp [CollectionStore.page, ringPage, getD_insert, hNe]
  · exact ⟨_, _, by rw [hStore], hOther⟩

theorem close_frame (f : Filling T) (r : RingIndex) :
    ∃ ringKeys, f.close r = { f.store with ringKeys := ringKeys } ∧
        ∀ r' p, r' ≠ r → (f.close r).page r' p = f.store.page r' p := by
  unfold Filling.close
  split_ifs with hEmpty
  · exact ⟨_, rfl, fun _ _ _ => rfl⟩
  · refine ⟨_, rfl, ?_⟩
    intro r' p hNe
    simp [CollectionStore.page, ringPage, getD_insert, hNe]

/- The pages of a ring, with the open page as it is filled. -/
def Filling.pages (f : Filling T) (r : RingIndex) : PageIndex → List T.Member :=
  Function.update (f.store.page r) f.pageIndex f.keys.toList

/- The open page is stored as empty as long as it is empty. -/
def Filling.OpenAt (f : Filling T) (r : RingIndex) : Prop :=
  f.keys.toList = [] → f.store.page r f.pageIndex = []

/- The page index after `p`, as a `u32`. -/
def nextRingPage (p : PageIndex) : PageIndex :=
  saturatingAdd u32Max p 1

theorem placeKey_pages (hPlace : placeKey r f key = .ok f') :
    f.keys.toList.length < T.flexibleRingCapacity ∧ f'.OpenAt r ∧ f'.pages r =
        Function.update (f.pages r) f.pageIndex (f.pages r f.pageIndex ++ [key]) ∧
      f'.pageIndex =
        if T.flexibleRingCapacity
            ≤ (f.pages r f.pageIndex).length + 1 then
          nextRingPage f.pageIndex
        else f.pageIndex := by
  rcases placeKey_eq_ok hPlace with ⟨keys, hKeys, rfl⟩
  have hLength : keys.length = f.keys.toList.length + 1 := by
    rw [length_def, hKeys, List.length_append, List.length_singleton]
  have hOpenPage : f.pages r f.pageIndex = f.keys.toList := Function.update_self ..
  have hFits := keys.length_le
  rw [← length_def, hLength] at hFits
  refine ⟨hFits, ?_⟩
  rw [hOpenPage, ← hKeys, ← hLength]
  split_ifs with hFull
  · have hStore : CollectionStore.page
            { f.store with
              ringKeys := f.store.ringKeys.insert (r, f.pageIndex) keys }
            r
          = Function.update (f.store.page r) f.pageIndex
              keys.toList := by
      funext p
      simp only [CollectionStore.page, ringPage, getD_insert, Prod.mk.injEq, true_and,
        Function.update_apply]
      split_ifs <;> rfl
    refine ⟨fun hNil => hNil, ?_, rfl⟩
    unfold Filling.pages
    rw [Function.update_idem, ← hStore]
    exact Function.update_eq_self _ _
  · refine ⟨?_, ?_, rfl⟩
    · intro hNil
      rw [show keys.toList = [] from hNil] at hKeys
      simp at hKeys
    · unfold Filling.pages
      rw [Function.update_idem]
      rfl

/-
  Placing keys appends them one by one at the open page, and closing the filling writes that page.
-/
theorem placeKeys_pages (hPlace : placeKeys r f keys = .ok f') (hOpen : f.OpenAt r) :
    (f'.close r).page r = pushPages T.flexibleRingCapacity nextRingPage
        (f.pages r) f.pageIndex keys := by
  induction keys generalizing f with
  | nil =>
    simp only [placeKeys, List.foldlM_nil, pure_eq_ok] at hPlace
    subst hPlace
    unfold pushPages Filling.close Filling.pages
    split_ifs with hEmpty
    · have hNil := (BoundedVec.isEmpty_iff f.keys).mp hEmpty
      rw [hNil, ← hOpen hNil]
      exact (Function.update_eq_self _ _).symm
    · funext p
      simp only [CollectionStore.page, ringPage, getD_insert, Prod.mk.injEq, true_and,
        Function.update_apply]
      split_ifs <;> rfl
  | cons key keys ih =>
    rw [placeKeys, List.foldlM_cons, bind_eq_ok] at hPlace
    rcases hPlace with ⟨f₁, hFirst, hRest⟩
    rcases placeKey_pages hFirst with ⟨_, hOpen₁, hPages, hIndex⟩
    rw [ih hRest hOpen₁, hPages, hIndex]
    rfl

theorem placeKeys_fits (hPlace : placeKeys r f keys = .ok f') (hNe : keys ≠ []) :
    f.keys.toList.length < T.flexibleRingCapacity := by
  cases keys with
  | nil => exact absurd rfl hNe
  | cons key keys =>
    rw [placeKeys, List.foldlM_cons, bind_eq_ok] at hPlace
    rcases hPlace with ⟨f₁, hFirst, _⟩
    exact (placeKey_pages hFirst).1

/- The entries after `new` was placed into a ring from position `start` of its first page on. -/
def Placed (members members' : StorageMap T.Member RingPosition) (r : RingIndex) (start : Nat)
    (new : List T.Member) : Prop :=
  (∀ j key, new[j]? = some key → members'.get key = some (.included r 0 (start + j))) ∧
    ∀ key, key ∉ new → members'.get key = members.get key

theorem placed_nil (members : StorageMap T.Member RingPosition) (r : RingIndex) (start : Nat) :
    Placed (T := T) members members r start [] := by
  refine ⟨?_, fun _ _ => rfl⟩
  intro j key hGet
  simp at hGet

/- The first key is placed, and then the others. -/
theorem placed_cons {members members' : StorageMap T.Member RingPosition} {start : Nat}
    (hNotMem : key ∉ new)
    (hRest : Placed (T := T) (members.insert key (.included r 0 start)) members'
        r (start + 1) new) :
    Placed (T := T) members members' r start (key :: new) := by
  constructor
  · intro j k hGet
    cases j with
    | zero =>
      rw [List.getElem?_cons_zero, Option.some.injEq] at hGet
      rw [← hGet, hRest.2 key hNotMem]
      exact get_insert_self ..
    | succ j =>
      rw [List.getElem?_cons_succ] at hGet
      have hStart : start + (j + 1) = start + 1 + j := by
        omega
      rw [hStart]
      exact hRest.1 j k hGet
  · intro k hNot
    rw [List.mem_cons, not_or] at hNot
    rw [hRest.2 k hNot.2]
    exact get_insert_of_ne _ _ hNot.1

theorem placeKeys_members (hPlace : placeKeys r f new = .ok f') (hPage : f.pageIndex = 0)
    (hFits : f.keys.toList.length + new.length ≤ T.flexibleRingCapacity) (hNodup : new.Nodup) :
    Placed (T := T) f.store.members f'.store.members r f.keys.toList.length new := by
  induction new generalizing f with
  | nil =>
    simp only [placeKeys, List.foldlM_nil, pure_eq_ok] at hPlace
    subst hPlace
    exact placed_nil ..
  | cons key new ih =>
    rw [placeKeys, List.foldlM_cons, bind_eq_ok] at hPlace
    rcases hPlace with ⟨f₁, hFirst, hRest⟩
    rcases List.nodup_cons.mp hNodup with ⟨hNot, hNodup'⟩
    rw [List.length_cons] at hFits
    apply placed_cons hNot
    rcases placeKey_eq_ok hFirst with ⟨keys, hKeys, rfl⟩
    have hLength : keys.length = f.keys.toList.length + 1 := by
      rw [length_def, hKeys, List.length_append, List.length_singleton]
    by_cases hFull : T.flexibleRingCapacity ≤ keys.length
    · -- a full page is the last one that is written
      have hNil : new = [] := by
        apply List.length_eq_zero_iff.mp
        omega
      subst hNil
      rw [if_pos hFull] at hRest
      simp only [List.foldlM_nil, pure_eq_ok] at hRest
      subst hRest
      rw [hPage]
      exact placed_nil ..
    · rw [if_neg hFull] at hRest
      have hNext := ih hRest hPage (by
        rw [← length_def, hLength]
        omega) hNodup'
      rw [← length_def, hLength, hPage] at hNext
      exact hNext

/- Placing keys changes their entries only. -/
theorem placeKeys_included (hPlace : placeKeys r f new = .ok f') (key : T.Member) :
    (key ∈ new → ∃ p i, f'.store.members.get key = some (.included r p i)) ∧
      (key ∉ new → f'.store.members.get key = f.store.members.get key) := by
  induction new generalizing f with
  | nil =>
    simp only [placeKeys, List.foldlM_nil, pure_eq_ok] at hPlace
    subst hPlace
    exact ⟨fun hMem => absurd hMem List.not_mem_nil, fun _ => rfl⟩
  | cons first new ih =>
    rw [placeKeys, List.foldlM_cons, bind_eq_ok] at hPlace
    rcases hPlace with ⟨f₁, hFirst, hRest⟩
    rcases placeKey_eq_ok hFirst with ⟨keys, _, hStore⟩
    have hMembers : f₁.store.members = f.store.members.insert first
              (.included r f.pageIndex f.keys.length) := by
      rw [hStore]
      split_ifs <;> rfl
    rcases ih hRest with ⟨hNew, hOld⟩
    rw [hMembers] at hOld
    by_cases hRepeated : key ∈ new
    · refine ⟨fun _ => hNew hRepeated, fun hNot => ?_⟩
      exact absurd (List.mem_cons_of_mem first hRepeated) hNot
    · rw [hOld hRepeated, List.mem_cons]
      refine ⟨?_, ?_⟩
      · intro hMem
        rcases hMem with hIs | hMem
        · subst hIs
          exact ⟨_, _, get_insert_self _ _ _⟩
        · exact absurd hMem hRepeated
      · intro hNot
        apply get_insert_of_ne
        exact fun hIs => hNot (Or.inl hIs)

theorem restoreQueue_frame {head : PageIndex} (hRestore : s.restoreQueue head keys = .ok s') :
    ∃ newHead queue,
      s' = { s with
        queueHead := newHead
        onboardingQueue := queue } := by
  unfold restoreQueue at hRestore
  simp only at hRestore
  split at hRestore
  · simp only [bind_eq_ok, pure_eq_ok] at hRestore
    rcases hRestore with ⟨_, _, _, _, hEq⟩
    exact ⟨_, _, hEq.symm⟩
  · split at hRestore
    · simp only [bind_eq_ok, pure_eq_ok] at hRestore
      rcases hRestore with ⟨_, _, hEq⟩
      exact ⟨_, _, hEq.symm⟩
    · simp only [Except.ok.injEq] at hRestore
      exact ⟨_, _, hRestore.symm⟩

theorem shouldOnboardMembers_eq_some {status : RingStatus} {openSlots available maxRingSize : Nat}
    {filled : Bool}
    (hShould : s.shouldOnboardMembers r status openSlots available
        size maxRingSize = some (n, filled)) :
    s.ringsState.isAppendOnly = true ∧ s.pendingSuspensions.get r = none ∧
      n = min available openSlots ∧
      0 < n ∧
      filled = decide (openSlots = n) := by
  unfold shouldOnboardMembers at hShould
  split_ifs at hShould with hSuspended hMutating hPending
  simp only at hShould
  split_ifs at hShould with hZero hGo
  simp only [Option.some.injEq, Prod.mk.injEq] at hShould
  rcases hShould with ⟨rfl, rfl⟩
  refine ⟨by simpa using hMutating, ?_, rfl, by omega, rfl⟩
  exact StorageMap.containsKey_eq_false_iff.mp (by simpa using hPending)

/- The number of keys up to the place of the next addition. -/
def AvailableRing.fill (a : AvailableRing T) : Nat :=
  a.keys.length + a.pageIndex * T.flexibleRingCapacity

/- The members that an onboarding would place. -/
def onboardBatch (s : CollectionStore T) : List T.Member :=
  match s.collection with
  | none => []
  | some info =>
    let maxRingSize := info.ringSize.ringCapacity
    let (s₁, top) := s.availableRing maxRingSize
    let openSlots := maxRingSize - top.fill
    (s₁.queueFront openSlots).2.take openSlots

/-
  A successful onboarding places the first keys of the queue
  front into the available ring and puts the rest back.
-/
theorem onboardMembers_eq_ok {b : Bool} (hOnboard : s.onboardMembers true = .ok (b, s')) :
    ∃ info s₁ top head front n filled f, s.collection = some info ∧
        s.availableRing info.ringSize.ringCapacity = (s₁, top) ∧
        s₁.queueFront (info.ringSize.ringCapacity - top.fill) = (head, front) ∧
        s₁.shouldOnboardMembers top.ringIndex top.status (info.ringSize.ringCapacity - top.fill)
            front.length s₁.onboardingSize
            info.ringSize.ringCapacity
          = some (n, filled) ∧
        s.onboardBatch = front.take n ∧
        placeKeys top.ringIndex ⟨s₁, top.pageIndex, top.keys⟩ (front.take n) = .ok f ∧
        ((f.close top.ringIndex).recordAdditions top n
          filled).restoreQueue head (front.drop n) = .ok s' := by
  unfold onboardMembers at hOnboard
  rw [bind_eq_ok] at hOnboard
  rcases hOnboard with ⟨info, hInfo, hOnboard⟩
  rw [okOr_eq_ok_iff] at hInfo
  rcases hTop : s.availableRing info.ringSize.ringCapacity with ⟨s₁, top⟩
  simp only [hTop] at hOnboard
  rcases hFront : s₁.queueFront (info.ringSize.ringCapacity - top.fill) with ⟨head, front⟩
  have hFront' := hFront
  unfold AvailableRing.fill at hFront'
  simp only [hFront'] at hOnboard
  cases hShould : s₁.shouldOnboardMembers top.ringIndex
      top.status (info.ringSize.ringCapacity - top.fill)
      front.length s₁.onboardingSize
      info.ringSize.ringCapacity with
  | none =>
    unfold AvailableRing.fill at hShould
    simp [hShould] at hOnboard
  | some result =>
    rcases result with ⟨n, filled⟩
    have hShould' := hShould
    unfold AvailableRing.fill at hShould'
    simp only [hShould', bind_eq_ok] at hOnboard
    rcases hOnboard with ⟨f, hPlace, s₃, hRestore, hEq⟩
    simp only [pure_eq_ok, Prod.mk.injEq] at hEq
    have hMin := (shouldOnboardMembers_eq_some hShould).2.2.1
    have hBatch : s.onboardBatch = front.take n := by
      unfold onboardBatch
      simp only [hInfo, hTop]
      rw [hFront, hMin, Nat.min_comm, ← List.take_eq_take_min]
    exact ⟨info, s₁, top, head, front, n, filled, f, hInfo, hTop, hFront, hShould, hBatch, hPlace,
      hEq.2 ▸ hRestore⟩

theorem onboardMembersAuthorized_eq_ok {head : PageIndex} {first : Option T.Member}
    (hOnboard : s.onboardMembersAuthorized r head first = .ok s') :
    ∃ b, s.onboardMembers true = .ok (b, s') := by
  unfold onboardMembersAuthorized at hOnboard
  simp only [bind_eq_ok, pure_eq_ok] at hOnboard
  rcases hOnboard with ⟨_, _, ⟨b, s₁⟩, hOnboard, rfl⟩
  exact ⟨b, hOnboard⟩

/-
  The available ring `top` of a live collection took the members `new`: only its pages and status,
  the members and the front of the queue differ, and the counters.
-/
structure Addition (s s' : CollectionStore T) (info : CollectionInfo T) (top : AvailableRing T)
    (new : List T.Member) : Prop where
  collection : s.collection = some info
  available : (s.availableRing info.ringSize.ringCapacity).2 = top
  appendOnly : s.ringsState.isAppendOnly = true
  isOpen : top.keys.toList.length < T.flexibleRingCapacity
  slots : top.fill + new.length ≤ info.ringSize.ringCapacity ∨ new.length = 1
  pages : s'.page top.ringIndex
      = pushPages T.flexibleRingCapacity nextRingPage
          (s.page top.ringIndex) top.pageIndex new
  positions : top.pageIndex = 0 →
      top.keys.toList.length + new.length
          ≤ T.flexibleRingCapacity →
        new.Nodup →
          Placed (T := T) s.members s'.members top.ringIndex
            top.keys.toList.length new
  advance : s'.currentRingIndex = saturatingAdd u32Max top.ringIndex 1
        ∧ (info.ringSize.ringCapacity ≤ top.fill + new.length
          ∨ new.length = 1 ∧ info.ringSize.ringCapacity ≤ top.status.total + 1)
      ∨ s'.currentRingIndex = top.ringIndex
        ∧ (top.fill + new.length < info.ringSize.ringCapacity
          ∨ new.length = 1 ∧ top.status.total + 1 < info.ringSize.ringCapacity)
  writes : ∃ (filled : Bool) (members : MemberMap T)
        (ringKeys : StorageMap (RingIndex × PageIndex) (RingPage T))
        (head : PageIndex)
        (queue : StorageMap PageIndex (QueuePage T))
        (stale : Finset RingIndex),
      (∀ r p, r ≠ top.ringIndex →
        (ringKeys.getD (r, p) .empty : RingPage T).toList = s.page r p) ∧
      s' = { s with
        members := members
        ringKeys := ringKeys
        queueHead := head
        onboardingQueue := queue
        staleRings := stale
        activeMembers := saturatingAdd u32Max s.activeMembers new.length
        ringKeysStatus :=
          s.ringKeysStatus.insert top.ringIndex
            { top.status with
              total :=
                saturatingAdd u32Max top.status.total
                  new.length }
        currentRingIndex :=
          if filled then saturatingAdd u32Max top.ringIndex 1
          else top.ringIndex }

/- Moving on to the next ring is decided by the open slots. -/
theorem advance_of_filled {filled : Bool} {current next : RingIndex} {p q : Prop}
    (hFull : filled = true → q) (hOpen : filled = false → p) :
    (if filled then next else current) = next ∧ q
      ∨ (if filled then next else current) = current ∧ p := by
  cases filled with
  | false => exact Or.inr ⟨if_neg Bool.false_ne_true, hOpen rfl⟩
  | true => exact Or.inl ⟨if_pos rfl, hFull rfl⟩

theorem addition_of_onboardMembers {b : Bool} (hOnboard : s.onboardMembers true = .ok (b, s')) :
    ∃ info top, s.onboardBatch ≠ [] ∧ Addition s s' info top s.onboardBatch := by
  rcases onboardMembers_eq_ok hOnboard with ⟨info, s₁, top, head, front, n, filled, f, hInfo, hTop,
      hFront, hShould, hBatch, hPlace, hRestore⟩
  have hAvailable := availableRing_frame hTop
  have hTopEq : (s.availableRing info.ringSize.ringCapacity).2 = top := by
    rw [hTop]
  have hKeys := availableRing_keys s info.ringSize.ringCapacity
  rw [hTopEq] at hKeys
  rcases shouldOnboardMembers_eq_some hShould with ⟨hAppend, _, hMin, hPos, hFilled⟩
  have hTake : (front.take n).length = n := by
    rw [List.length_take]
    omega
  have hOpen : (⟨s₁, top.pageIndex, top.keys⟩ : Filling T).OpenAt
        top.ringIndex := by
    intro hNil
    rw [hAvailable]
    rw [hKeys] at hNil
    exact hNil
  have hPages := placeKeys_pages hPlace hOpen
  have hStart : (⟨s₁, top.pageIndex, top.keys⟩ : Filling T).pages top.ringIndex
        = s.page top.ringIndex := by
    unfold Filling.pages
    rw [hAvailable, hKeys]
    exact Function.update_eq_self _ _
  have hBatchNe : front.take n ≠ [] := by
    intro hNil
    rw [hNil, List.length_nil] at hTake
    omega
  have hFits := placeKeys_fits hPlace hBatchNe
  have hPlaced : top.pageIndex = 0 → top.keys.toList.length + (front.take n).length
            ≤ T.flexibleRingCapacity →
          (front.take n).Nodup → Placed (T := T) s₁.members f.store.members
              top.ringIndex top.keys.toList.length
              (front.take n) :=
    placeKeys_members hPlace
  subst hAvailable
  rcases placeKeys_frame hPlace with ⟨members, ringKeys, hStore, hOther⟩
  rcases close_frame f top.ringIndex with ⟨ringKeys', hClose, hOther'⟩
  rcases restoreQueue_frame hRestore with ⟨newHead, queue, rfl⟩
  rw [hBatch]
  rw [hStore] at hPlaced
  refine ⟨info, top, hBatchNe, hInfo, hTopEq, hAppend, hFits, ?_, ?_, ?_, ?_,
    filled, members, ringKeys', newHead, queue,
    insert top.ringIndex s.staleRings, ?_, ?_⟩
  · left
    omega
  · rw [← hStart, ← hPages]
    rfl
  · simp only [recordAdditions, hClose, hStore]
    exact hPlaced
  · have hIndex : (f.close top.ringIndex).currentRingIndex = top.ringIndex := by
      rw [hClose, hStore]
    simp only [recordAdditions, hIndex]
    apply advance_of_filled
    · intro hIs
      left
      rw [hFilled, decide_eq_true_eq] at hIs
      omega
    · intro hNot
      left
      rw [hFilled, decide_eq_false_iff_not] at hNot
      omega
  · intro r p hNe
    have hFirst := hOther r p hNe
    have hSecond := hOther' r p hNe
    rw [hFirst, hClose] at hSecond
    exact hSecond
  · simp only [recordAdditions, hClose, hStore, hTake]

theorem removeFromQueuePage_frame (s : CollectionStore T) (q : PageIndex) (idx : Nat) :
    ∃ head queue,
      s.removeFromQueuePage q idx = { s with
        queueHead := head
        onboardingQueue := queue } := by
  unfold removeFromQueuePage
  simp only
  split_ifs <;> exact ⟨_, _, rfl⟩

/-
  A successful self-inclusion takes the member out of its
  queue page and appends it to the available ring.
-/
theorem doSelfInclude_eq_ok (hInclude : s.doSelfInclude member = .ok s') :
    ∃ info q t idx s₂ top keys, s.collection = some info ∧ s.ringsState.isAppendOnly = true ∧
        s.members.get member = some (.onboarding q t) ∧
        (s.queuePage q).idxOf? member = some idx ∧
        (s.removeFromQueuePage q idx).availableRing info.ringSize.ringCapacity = (s₂, top) ∧
        keys.toList = top.keys.toList ++ [member] ∧
        s' =
          { s₂ with
            ringKeys := s₂.ringKeys.insert (top.ringIndex, top.pageIndex) keys
            members := s₂.members.insert member (.included top.ringIndex top.pageIndex
                top.keys.length) }.recordAdditions top 1
            (info.ringSize.ringCapacity ≤ saturatingAdd u32Max top.status.total 1) := by
  unfold doSelfInclude at hInclude
  rw [bind_eq_ok] at hInclude
  rcases hInclude with ⟨info, hInfo, hInclude⟩
  rw [okOr_eq_ok_iff] at hInfo
  rw [bind_eq_ok] at hInclude
  rcases hInclude with ⟨_, hAppend, hInclude⟩
  rw [ensure_eq_ok_iff] at hAppend
  rw [bind_eq_ok] at hInclude
  rcases hInclude with ⟨position, hPosition, hInclude⟩
  rw [okOr_eq_ok_iff] at hPosition
  cases position with
  | suspended => simp at hInclude
  | included r p i => simp at hInclude
  | onboarding q t =>
    simp only [bind_eq_ok, okOr_eq_ok_iff] at hInclude
    rcases hInclude with ⟨idx, hIdx, hInclude⟩
    rcases hTop : (s.removeFromQueuePage q idx).availableRing
        info.ringSize.ringCapacity with ⟨s₂, top⟩
    simp only [hTop, tryPush_eq_some_iff, pure_eq_ok] at hInclude
    rcases hInclude with ⟨keys, hKeys, hEq⟩
    exact ⟨info, q, t, idx, s₂, top, keys, hInfo, hAppend, hPosition, hIdx, hTop, hKeys, hEq.symm⟩

theorem addition_of_doSelfInclude (hInclude : s.doSelfInclude member = .ok s') :
    ∃ info top, Addition s s' info top [member] := by
  rcases doSelfInclude_eq_ok hInclude with
    ⟨info, q, t, idx, s₂, top, keys, hInfo, hAppend, _, _, hTop, hPush, rfl⟩
  have hAvailable := availableRing_frame hTop
  rcases removeFromQueuePage_frame s q idx with ⟨head, queue, hRemove⟩
  rw [hRemove] at hAvailable hTop
  have hSame := availableRing_of_queue s head queue info.ringSize.ringCapacity
  rw [hTop] at hSame
  have hKeys := availableRing_keys s info.ringSize.ringCapacity
  rw [← hSame] at hKeys
  subst hAvailable
  refine ⟨info, top, hInfo, hSame.symm, hAppend, ?_,
    Or.inr rfl, ?_, ?_, ?_, _, _, _, _, _, _, ?_, rfl⟩
  · have hLength := keys.length_le
    rw [hPush, List.length_append, List.length_singleton] at hLength
    exact hLength
  · rw [pushPages_singleton]
    funext p
    simp only [recordAdditions, CollectionStore.page, ringPage,
      getD_insert, Prod.mk.injEq, true_and,
      Function.update_apply]
    split_ifs with hEq
    · rw [hPush, hKeys]
      rfl
    · rfl
  · intro hPage _ _
    apply placed_cons List.not_mem_nil
    simp only [recordAdditions, hPage]
    exact placed_nil ..
  · have hCapacity := info.ringSize.ringCapacity_le
    apply advance_of_filled
    · intro hIs
      refine Or.inr ⟨rfl, ?_⟩
      rw [decide_eq_true_eq] at hIs
      exact Nat.le_trans hIs (saturatingAdd_le_add _ _ _)
    · intro hNot
      refine Or.inr ⟨rfl, ?_⟩
      rw [decide_eq_false_iff_not] at hNot
      unfold saturatingAdd u32Max at hNot
      omega
  · intro r p hNe
    simp [CollectionStore.page, ringPage, getD_insert, hNe]

theorem selfInclude_eq_ok {signature : T.Signature} {message : T.Message} {callValidAt : Nat}
    (hInclude : s.selfInclude now signature message member callValidAt = .ok s') :
    s.doSelfInclude member = .ok s' := by
  unfold selfInclude at hInclude
  simp only [bind_eq_ok] at hInclude
  rcases hInclude with ⟨_, _, _, _, info, _, delay, _, _, _, position, _, hInclude⟩
  cases position with
  | suspended => simp at hInclude
  | included r p i => simp at hInclude
  | onboarding q t =>
    simp only [bind_eq_ok] at hInclude
    rcases hInclude with ⟨_, _, _, _, hInclude⟩
    exact hInclude

--
-- Ring Roots
--

theorem shouldBuildRing_eq_some {limit : Nat} (hShould : s.shouldBuildRing r limit = some n) :
    s.pendingSuspensions.get r = none ∧ n = min ((s.ringStatus r).total - (s.ringStatus r).included)
        limit ∧
      0 < n := by
  unfold shouldBuildRing at hShould
  split_ifs at hShould with hSuspended hMutating hPending
  simp only at hShould
  split_ifs at hShould with hZero
  simp only [Option.some.injEq] at hShould
  subst hShould
  refine ⟨?_, rfl, by omega⟩
  exact StorageMap.containsKey_eq_false_iff.mp (by simpa using hPending)

/-
  A successful build pushes the collected keys onto the
  stored intermediate and reports the new root.
-/
theorem buildRing_eq_ok {ready : Bool} {toInclude : Nat}
    (hBuild : s.buildRing now ready r toInclude = .ok s') :
    ∃ info revision i i' stale oldRoots immutableSince, s.collection = some info ∧
        (s.root.get r = none ∧ revision = 0 ∧ i = T.startMembers info.ringSize
          ∨ ∃ existing, s.root.get r = some existing ∧ existing.revision + 1 ≤ u32Max
            ∧ revision = existing.revision + 1
            ∧ i = existing.intermediate) ∧
        T.pushMembers info.ringSize i
            (s.collectKeys r toInclude (s.ringStatus r) toInclude []).2 = some i' ∧
        s' = { s with
          staleRings := stale
          oldRoots := oldRoots
          ringKeysStatus := s.ringKeysStatus.insert r
              { (s.collectKeys r toInclude (s.ringStatus r)
                  toInclude []).1 with
                immutableSince := immutableSince }
          root := s.root.insert r
              { root := T.finishMembers i'
                revision := revision
                intermediate := i' }
          rootChanges := s.rootChanges ++ [(r, .built revision (T.finishMembers i'))] } := by
  unfold buildRing at hBuild
  rw [bind_eq_ok] at hBuild
  rcases hBuild with ⟨info, hInfo, hBuild⟩
  rw [okOr_eq_ok_iff] at hInfo
  rw [bind_eq_ok] at hBuild
  rcases hBuild with ⟨⟨revision, i⟩, hRevision, hBuild⟩
  rcases hCollect : s.collectKeys r toInclude (s.ringStatus r) toInclude [] with ⟨status, keys⟩
  simp only [hCollect, bind_eq_ok, okOr_eq_ok_iff, pure_eq_ok] at hBuild
  rcases hBuild with ⟨_, _, i', hPush, hEq⟩
  have hFrom : s.root.get r = none ∧ revision = 0 ∧ i = T.startMembers info.ringSize
        ∨ ∃ existing, s.root.get r = some existing ∧ existing.revision + 1 ≤ u32Max
          ∧ revision = existing.revision + 1
          ∧ i = existing.intermediate := by
    cases hRoot : s.root.get r with
    | none =>
      simp only [nextBuild, hRoot, Except.ok.injEq, Prod.mk.injEq] at hRevision
      exact Or.inl ⟨rfl, hRevision.1.symm, hRevision.2.symm⟩
    | some existing =>
      simp only [nextBuild, hRoot, bind_eq_ok, okOr_eq_ok_iff, pure_eq_ok, Prod.mk.injEq,
        checkedAdd_eq_some_iff] at hRevision
      rcases hRevision with ⟨_, ⟨hLe, rfl⟩, rfl, rfl⟩
      exact Or.inr ⟨existing, rfl, hLe, rfl, rfl⟩
  by_cases hImmutable : status.included = status.total ∧ info.mode = RingMode.appendOnly
      ∧ status.total = info.ringSize.ringCapacity
  · simp only [if_pos hImmutable, onRingRootChange] at hEq
    exact ⟨info, revision, i, i', _, _, some now, hInfo, hFrom, hPush, hEq.symm⟩
  · simp only [if_neg hImmutable, onRingRootChange] at hEq
    exact ⟨info, revision, i, i', _, _, status.immutableSince, hInfo, hFrom, hPush, hEq.symm⟩

variable {revision : Option RevisionIndex}

theorem buildRingAuthorized_eq_ok {ready : Bool} {ringExponent : RingExponent} {toInclude : Nat}
    (hBuild : s.buildRingAuthorized now ready r ringExponent revision toInclude = .ok s') :
    s.pendingSuspensions.get r = none ∧ toInclude ≤
        (s.ringStatus r).total - (s.ringStatus r).included ∧
      0 < toInclude ∧
      s.buildRing now ready r toInclude = .ok s' := by
  unfold buildRingAuthorized ensureCanBuildRing at hBuild
  simp only [bind_eq_ok, okOr_eq_ok_iff, ensure_eq_ok_iff] at hBuild
  rcases hBuild with ⟨_, ⟨_, _, _, _, _, _, n, hShould, hRange⟩, hBuild⟩
  rcases shouldBuildRing_eq_some hShould with ⟨hPending, hMin, _⟩
  exact ⟨hPending, by omega, by omega, hBuild⟩

/- Deleting a root removes it, and reports it if it existed. -/
theorem deleteRoot_eq (s : CollectionStore T) (now : Nat) (r : RingIndex) :
    ∃ root oldRoots changes,
      s.deleteRoot now r = { s with
          root := root
          oldRoots := oldRoots
          rootChanges := changes } ∧
        (∀ r', root.get r' =
          if r' = r then none else s.root.get r') ∧
        (s.root.get r = none ∧ changes = s.rootChanges ∨ s.root.get r ≠ none
            ∧ changes = s.rootChanges ++ [(r, .deleted)]) := by
  unfold deleteRoot archiveRoot
  cases hRoot : s.root.get r with
  | none =>
    refine ⟨s.root, s.oldRoots, s.rootChanges, rfl, ?_, Or.inl ⟨rfl, rfl⟩⟩
    intro r'
    split_ifs with hEq
    · rw [hEq, hRoot]
    · rfl
  | some existing =>
    exact ⟨s.root.remove r, _, _, rfl, StorageMap.get_remove s.root r, Or.inr ⟨by simp, rfl⟩⟩

--
-- Merging Rings
--

theorem moveToBase_eq_ok (hMove : moveToBase b f key = .ok f') :
    f'.store = { f.store with
        members := f.store.members.insert key (.included b 0 f.keys.length) } ∧
      f'.keys.toList = f.keys.toList ++ [key] := by
  unfold moveToBase at hMove
  rw [bind_eq_ok] at hMove
  rcases hMove with ⟨_, _, hMove⟩
  rw [bind_eq_ok] at hMove
  rcases hMove with ⟨keys, hKeys, hMove⟩
  rw [okOr_eq_ok_iff, tryPush_eq_some_iff] at hKeys
  rw [pure_eq_ok] at hMove
  subst hMove
  exact ⟨rfl, hKeys⟩

/- Moving keys to the base ring writes their members only. -/
theorem moveToBase_foldlM_frame (hMove : keys.foldlM (moveToBase b) f = .ok f') :
    (∃ members, f'.store = { f.store with members := members }) ∧
      f'.keys.toList = f.keys.toList ++ keys := by
  induction keys generalizing f with
  | nil =>
    simp only [List.foldlM_nil, pure_eq_ok] at hMove
    subst hMove
    exact ⟨⟨_, rfl⟩, by simp⟩
  | cons key keys ih =>
    rw [List.foldlM_cons, bind_eq_ok] at hMove
    rcases hMove with ⟨f₁, hFirst, hRest⟩
    rcases moveToBase_eq_ok hFirst with ⟨hStore, hKeys⟩
    rcases ih hRest with ⟨⟨members, hMembers⟩, hAll⟩
    refine ⟨⟨members, ?_⟩, ?_⟩
    · rw [hMembers, hStore]
    · rw [hAll, hKeys, List.append_assoc, List.singleton_append]

/-
  A successful merge appends the keys of the target ring to
  the base ring and removes the target ring.
-/
theorem mergeRings_eq_ok {t : RingIndex} (hMerge : s.mergeRings now b t = .ok s') :
    ∃ info f root oldRoots changes stale, s.collection = some info ∧ info.mode = .flexible ∧
        s.ringsState.isAppendOnly = true ∧
        b ≠ t ∧ b ≠ s.currentRingIndex ∧
        t ≠ s.currentRingIndex ∧
        s.page b 0 ≠ [] ∧ s.page t 0 ≠ [] ∧
        (s.page b 0).length < info.ringSize.ringCapacity / 2 ∧
        (s.page t 0).length < info.ringSize.ringCapacity / 2 ∧
        s.pending b = [] ∧ s.pending t = [] ∧
        (s.page t 0).foldlM (moveToBase b) ⟨s, 0, s.ringPage b 0⟩ = .ok f ∧
        (∀ r, root.get r =
          if r = t then none else s.root.get r) ∧
        (s.root.get t = none ∧ changes = s.rootChanges
          ∨ s.root.get t ≠ none ∧ changes = s.rootChanges ++ [(t, .deleted)]) ∧
        s' = { s with
          members := f.store.members
          ringKeys := (s.ringKeys.insert (b, 0) f.keys).remove (t, 0)
          ringKeysStatus := (s.ringKeysStatus.insert b
              { s.ringStatus b with
                total := saturatingAdd u32Max (s.ringStatus b).total (s.page t 0).length }).remove t
          root := root
          oldRoots := oldRoots
          rootChanges := changes
          staleRings := stale } := by
  unfold mergeRings at hMerge
  simp only [bind_eq_ok, okOr_eq_ok_iff, ensure_eq_ok_iff, pure_eq_ok] at hMerge
  rcases hMerge with ⟨info, hInfo, _, hMode, _, hAppend, _, hDistinct, _, hBase,
      _, hBaseLength, _, hBasePending, _, hTarget, _,
      hTargetLength, _, hTargetPending, f, hFold, hEq⟩
  rcases moveToBase_foldlM_frame hFold with ⟨⟨members, hStore⟩, _⟩
  rcases deleteRoot_eq
      { f.store with
        ringKeys := f.store.ringKeys.insert (b, 0) f.keys
        ringKeysStatus := f.store.ringKeysStatus.insert b
            { s.ringStatus b with
              total := saturatingAdd u32Max (s.ringStatus b).total (s.ringPage t 0).length } }
      now t with
    ⟨root, oldRoots, changes, hDelete, hRoot, hChanges⟩
  rw [hDelete, hStore] at hEq
  rw [hStore] at hRoot hChanges
  refine ⟨info, f, root, oldRoots, changes, (insert b s.staleRings).erase t, hInfo, hMode, hAppend,
    hDistinct.1, hDistinct.2.1, hDistinct.2.2, ?_, ?_,
    hBaseLength, hTargetLength, hBasePending, hTargetPending,
    hFold, hRoot, hChanges, ?_⟩
  · exact BoundedVec.isEmpty_eq_false_iff.mp hBase
  · exact BoundedVec.isEmpty_eq_false_iff.mp hTarget
  · rw [← hEq, hStore]
    rfl

--
-- Suspensions
--

theorem startRemovalSession_eq_ok (hStart : s.startRemovalSession = .ok s') :
    ∃ state, s' = { s with ringsState := state } ∧
        (s.collection = none → state = s.ringsState) := by
  unfold startRemovalSession at hStart
  split_ifs at hStart with hLive
  · simp only [bind_eq_ok, pure_eq_ok] at hStart
    rcases hStart with ⟨state, _, hEq⟩
    refine ⟨state, hEq.symm, ?_⟩
    intro hNone
    simp [hNone] at hLive
  · simp only [Except.ok.injEq] at hStart
    exact ⟨s.ringsState, hStart.symm, fun _ => rfl⟩

theorem endRemovalSession_eq_ok (hEnd : s.endRemovalSession = .ok s') :
    ∃ state, s' = { s with ringsState := state } ∧
        (s.ringsState.isAppendOnly = true → state = s.ringsState) := by
  unfold endRemovalSession at hEnd
  split_ifs at hEnd with hLive
  · simp only [bind_eq_ok, pure_eq_ok, okOr_eq_ok_iff] at hEnd
    rcases hEnd with ⟨state, hState, hEq⟩
    refine ⟨state, hEq.symm, ?_⟩
    intro hAppend
    cases hRings : s.ringsState with
    | appendOnly =>
      simp [hRings, RingMembersState.endMutationSession] at hState
    | mutating n =>
      simp [hRings, RingMembersState.isAppendOnly] at hAppend
  · simp only [Except.ok.injEq] at hEnd
    exact ⟨s.ringsState, hEnd.symm, fun _ => rfl⟩

/- A member that is suspended was included in a ring, queued, or suspended before. -/
theorem suspendMember_cases (hSuspend : suspendMember s key = .ok s') :
    (∃ r p i indices, s.members.get key = some (.included r p i) ∧ i ∉ s.pending r ∧
          indices.toList = (s.pending r).orderedInsert (· ≤ ·) i ∧
          s' = { s with
            pendingSuspensions := s.pendingSuspensions.insert r indices
            members := s.members.insert key .suspended })
      ∨ (∃ q t, s.members.get key = some (.onboarding q t) ∧ s' =
          { s.suspendQueued q key with
            members := s.members.insert key .suspended })
      ∨ (s.members.get key = some .suspended ∧
          s' = { s with
            members := s.members.insert key .suspended }) := by
  unfold suspendMember at hSuspend
  rw [bind_eq_ok] at hSuspend
  rcases hSuspend with ⟨position, hPosition, hSuspend⟩
  rw [okOr_eq_ok_iff] at hPosition
  cases position with
  | included r p i =>
    left
    simp only [suspendIncluded, bind_eq_ok, ensure_eq_ok_iff, okOr_eq_ok_iff,
      BoundedVec.ofList?_eq_some_iff, pure_eq_ok]
      at hSuspend
    rcases hSuspend with ⟨s₁, ⟨_, hNew, indices, hIndices, rfl⟩, hEq⟩
    exact ⟨r, p, i, indices, hPosition, hNew, hIndices, hEq.symm⟩
  | onboarding q t =>
    right
    left
    simp only [bind_eq_ok, pure_eq_ok] at hSuspend
    rcases hSuspend with ⟨s₁, rfl, hEq⟩
    refine ⟨q, t, hPosition, ?_⟩
    rw [← hEq]
    unfold suspendQueued
    split <;> rfl
  | suspended =>
    right
    right
    simp only [bind_eq_ok, pure_eq_ok] at hSuspend
    rcases hSuspend with ⟨s₁, rfl, hEq⟩
    exact ⟨hPosition, hEq.symm⟩

theorem suspendMember_frame (hSuspend : suspendMember s key = .ok s') :
    ∃ pendingSuspensions queue members,
      s' = { s with
        pendingSuspensions := pendingSuspensions
        onboardingQueue := queue
        members := members } := by
  rcases suspendMember_cases hSuspend with ⟨r, p, i, indices, _, _, _, rfl⟩ | ⟨q, t, _, rfl⟩
      | ⟨_, rfl⟩
  · exact ⟨_, _, _, rfl⟩
  · refine ⟨s.pendingSuspensions, (s.suspendQueued q key).onboardingQueue,
      s.members.insert key .suspended, ?_⟩
    unfold suspendQueued
    split <;> rfl
  · exact ⟨_, _, _, rfl⟩

theorem queueMemberSuspensions_eq_ok (hQueue : s.queueMemberSuspensions keys = .ok s') :
    s.ringsState.isMutating = true ∧ keys.foldlM suspendMember s = .ok s' := by
  unfold queueMemberSuspensions at hQueue
  rw [bind_eq_ok] at hQueue
  rcases hQueue with ⟨_, hMutating, hFold⟩
  exact ⟨ensure_eq_ok_iff.mp hMutating, hFold⟩

theorem queueMemberSuspensions_frame (hQueue : s.queueMemberSuspensions keys = .ok s') :
    ∃ pendingSuspensions queue members,
      s' = { s with
        pendingSuspensions := pendingSuspensions
        onboardingQueue := queue
        members := members } := by
  refine List.foldlM_invariant (fun x => ∃ pendingSuspensions queue members,
      x = { s with
        pendingSuspensions := pendingSuspensions
        onboardingQueue := queue
        members := members })
    (queueMemberSuspensions_eq_ok hQueue).2 ?_
    ⟨_, _, _, rfl⟩
  rintro x key y _ hStep ⟨pending, queue, members, rfl⟩
  rcases suspendMember_frame hStep with ⟨pending', queue', members', rfl⟩
  exact ⟨pending', queue', members', rfl⟩

/- The loop keeps the keys at positions that stay. -/
theorem retainKeys_newKeys (r : RingIndex) (i : Nat) (gone : List Nat) (keys : List T.Member)
    (members : MemberMap T) (acc : RingPage T)
    (hFits : acc.length + keys.length ≤ T.flexibleRingCapacity) :
    (retainKeys r i gone keys members acc).1 = true ∧
      (retainKeys r i gone keys members acc).2.2.toList
        = acc.toList ++ removePositions i gone keys := by
  induction keys generalizing i gone members acc with
  | nil => simp [retainKeys, removePositions]
  | cons key keys ih =>
    simp only [List.length_cons] at hFits
    unfold retainKeys removePositions
    by_cases hHead : gone.head? = some i
    · simp only [if_pos hHead]
      exact ih (i + 1) gone.tail members acc (by omega)
    · simp only [if_neg hHead]
      have hPush : ∃ acc' : RingPage T, acc.tryPush key = some acc' :=
        BoundedVec.ofList?_isSome_iff.mpr (by
          rw [List.length_append, List.length_singleton]
          rw [length_def] at hFits
          omega)
      rcases hPush with ⟨acc', hPush⟩
      simp only [hPush]
      rw [tryPush_eq_some_iff] at hPush
      have hLength : acc'.length = acc.length + 1 := by
        rw [length_def, hPush, List.length_append]
        rfl
      have hIh := ih (i + 1) gone (moveIncluded r members key acc.length) acc' (by omega)
      refine ⟨hIh.1, ?_⟩
      rw [hIh.2, hPush, List.append_assoc, List.singleton_append]

/- The keys that stay in a ring after its suspensions. -/
def keptKeys (s : CollectionStore T) (r : RingIndex) : List T.Member :=
  removePositions 0 (s.pending r) (s.page r 0)

theorem resetRoot_eq (s : CollectionStore T) (now : Nat) (ringSize : RingExponent) (r : RingIndex) :
    ∃ root oldRoots,
      s.resetRoot now ringSize r = { s with
          root := root
          oldRoots := oldRoots } ∧
        (∀ r', root.get r' =
          if r' = r then
            (s.root.get r).map fun old =>
              { root :=
                  T.finishMembers (T.startMembers ringSize)
                revision := saturatingAdd u32Max old.revision 1
                intermediate := T.startMembers ringSize }
          else s.root.get r') := by
  unfold resetRoot
  cases hRoot : s.root.get r with
  | none =>
    refine ⟨s.root, s.oldRoots, rfl, ?_⟩
    intro r'
    split_ifs with hEq
    · rw [hEq, hRoot, Option.map_none]
    · rfl
  | some existing =>
    exact ⟨_, _, rfl, fun r' => by
      rw [StorageMap.get_insert, Option.map_some]⟩

/-
  Removing the suspended keys of a ring of a live collection keeps the other keys, empties its root
  and clears its pending suspensions.
-/
theorem removeSuspendedKeys_eq {info : CollectionInfo T} (now : Nat) (r : RingIndex)
    (hInfo : s.collection = some info) :
    ∃ root oldRoots stale ringKeys, (∀ r', root.get r' =
        if r' = r then
          (s.root.get r).map fun old =>
            { root :=
                T.finishMembers (T.startMembers info.ringSize)
              revision := saturatingAdd u32Max old.revision 1
              intermediate := T.startMembers info.ringSize }
        else s.root.get r') ∧
      (∀ e, (ringKeys.getD e .empty : RingPage T).toList =
        if e = (r, 0) then s.keptKeys r
        else s.page e.1 e.2) ∧
      s.removeSuspendedKeys now r = { s with
        members := (retainKeys r 0 (s.pending r) (s.page r 0) s.members .empty).2.1
        ringKeysStatus := s.ringKeysStatus.insert r
            { s.ringStatus r with
              total := (s.keptKeys r).length
              included := 0 }
        activeMembers := s.activeMembers - ((s.ringStatus r).total - (s.keptKeys r).length)
        ringKeys := ringKeys
        root := root
        oldRoots := oldRoots
        staleRings := stale
        pendingSuspensions := s.pendingSuspensions.remove r } := by
  have hRetain := retainKeys_newKeys r 0 (s.pending r) (s.page r 0) s.members .empty (by
      have hLength := (s.ringPage r 0).length_le
      simp only [length_def, toList_empty, List.length_nil]
      unfold CollectionStore.page
      omega)
  rcases hLoop : retainKeys r 0 (s.pending r) (s.page r 0)
      s.members .empty with ⟨fits, members, newKeys⟩
  rw [hLoop] at hRetain
  simp only [toList_empty, List.nil_append] at hRetain
  rcases hRetain with ⟨rfl, hKeys⟩
  have hKeys' : newKeys.toList = s.keptKeys r := hKeys
  have hLength : newKeys.length = (s.keptKeys r).length := by
    rw [length_def, hKeys']
  rcases resetRoot_eq (s.writeRetained r members newKeys) now info.ringSize r with
    ⟨root, oldRoots, hReset, hRoot⟩
  refine ⟨root, oldRoots,
    if 0 < newKeys.length then insert r s.staleRings
    else s.staleRings,
    if newKeys.isEmpty then s.ringKeys.remove (r, 0)
    else s.ringKeys.insert (r, 0) newKeys, hRoot, ?_, ?_⟩
  swap
  · unfold removeSuspendedKeys
    simp only [hInfo, hLoop, hReset]
    simp [writeRetained, hLength, ← hInfo]
  intro e
  by_cases hEmpty : newKeys.isEmpty = true
  · have hNil : s.keptKeys r = [] := by
      rw [← hKeys']
      exact (BoundedVec.isEmpty_iff newKeys).mp hEmpty
    rw [if_pos hEmpty, StorageMap.getD_remove, hNil]
    split_ifs <;> rfl
  · rw [if_neg hEmpty, getD_insert]
    split_ifs
    · exact hKeys'
    · rfl

theorem removeSuspendedKeysAuthorized_eq_ok
    (hRemove : s.removeSuspendedKeysAuthorized now r revision = .ok s') :
    s.suspendedCollection.isSome = false ∧ s.ringsState.isAppendOnly = true ∧ s.pending r ≠ [] ∧
      s' = s.removeSuspendedKeys now r := by
  unfold removeSuspendedKeysAuthorized ensureCanRemoveSuspendedKeys at hRemove
  simp only [bind_eq_ok, ensure_eq_ok_iff, pure_eq_ok] at hRemove
  rcases hRemove with ⟨_, ⟨_, hShould, _⟩, hEq⟩
  unfold shouldRemoveSuspendedKeys at hShould
  split_ifs at hShould with hSuspended hAppend
  simp only [Bool.true_and, Bool.not_eq_eq_eq_not, Bool.not_true, Bool.not_eq_false] at hAppend
  exact ⟨by simpa using hSuspended, hAppend, by simpa using hShould, hEq.symm⟩

--
-- Deletion
--

theorem mem_ringPageEntries_iff {r' : RingIndex} {p : PageIndex} :
    (r', p) ∈ ringPageEntries r n ↔ r' = r ∧ p < n := by
  simp only [ringPageEntries, List.mem_toFinset, List.mem_map, List.mem_range, Prod.mk.injEq]
  constructor
  · rintro ⟨p', hLt, rfl, rfl⟩
    exact ⟨rfl, hLt⟩
  · rintro ⟨rfl, hLt⟩
    exact ⟨p, hLt, rfl, rfl⟩

/-
  Enqueueing a ring for deletion drops its root, status and
  pending suspensions, and queues the pages of its keys.
-/
theorem enqueueRingForDeletion_eq (s : CollectionStore T) (now : Nat) (r : RingIndex) :
    ∃ root oldRoots changes stale, (∀ r', root.get r' =
        if r' = r then none else s.root.get r') ∧
      (s.root.get r = none ∧ changes = s.rootChanges
        ∨ s.root.get r ≠ none ∧ changes = s.rootChanges ++ [(r, .deleted)]) ∧
      s.enqueueRingForDeletion now r = { s with
        root := root
        oldRoots := oldRoots
        rootChanges := changes
        staleRings := stale
        pendingSuspensions := s.pendingSuspensions.remove r
        ringKeysStatus := s.ringKeysStatus.remove r
        activeMembers := s.activeMembers - (s.ringStatus r).total
        ringDeletionQueue := s.ringDeletionQueue ∪ ringPageEntries r
            (pageCount T.flexibleRingCapacity (s.ringStatus r).total) } := by
  rcases deleteRoot_eq s now r with ⟨root, oldRoots, changes, hDelete, hRoot, hChanges⟩
  refine ⟨root, oldRoots, changes, s.staleRings.erase r, hRoot, hChanges, ?_⟩
  unfold enqueueRingForDeletion
  rw [hDelete]
  by_cases hZero : (s.ringKeysStatus.getD r {}).total = 0
  · simp [ringStatus, hZero, pageCount, ringPageEntries]
  · simp [ringStatus, hZero]

theorem removeRing_eq_ok (hRemove : s.removeRing now r = .ok s') :
    s.collection.isSome = true ∧ r ≠ s.currentRingIndex ∧ (s.ringQueued r ∧ s' = s
        ∨ ¬ s.ringQueued r ∧ s' = s.enqueueRingForDeletion now r) := by
  unfold removeRing at hRemove
  simp only [bind_eq_ok, ensure_eq_ok_iff] at hRemove
  rcases hRemove with ⟨_, hLive, _, hNe, hRemove⟩
  refine ⟨hLive, hNe, ?_⟩
  by_cases hQueued : s.ringQueued r
  · rw [if_pos hQueued, pure_eq_ok] at hRemove
    exact Or.inl ⟨hQueued, hRemove.symm⟩
  · rw [if_neg hQueued, pure_eq_ok] at hRemove
    exact Or.inr ⟨hQueued, hRemove.symm⟩

theorem enqueueRingDeletionAuthorized_eq_ok
    (hEnqueue : s.enqueueRingDeletionAuthorized now r = .ok s') :
    s.suspendedCollection.isSome = true ∧ s' = s.enqueueRingForDeletion now r := by
  unfold enqueueRingDeletionAuthorized at hEnqueue
  simp only [bind_eq_ok, ensure_eq_ok_iff, pure_eq_ok] at hEnqueue
  rcases hEnqueue with ⟨_, hSuspended, _, _, hEq⟩
  exact ⟨hSuspended, hEq.symm⟩

theorem deleteRingPageAuthorized_eq_ok {p : PageIndex}
    (hDelete : s.deleteRingPageAuthorized r p = .ok s') :
    (r, p) ∈ s.ringDeletionQueue ∧
      s' = { s with
        ringDeletionQueue := s.ringDeletionQueue.erase (r, p)
        members := forgetMembers r p 0 (s.page r p) s.members
        ringKeys := s.ringKeys.remove (r, p) } := by
  unfold deleteRingPageAuthorized at hDelete
  simp only [bind_eq_ok, ensure_eq_ok_iff, pure_eq_ok] at hDelete
  rcases hDelete with ⟨_, hMem, hEq⟩
  exact ⟨hMem, hEq.symm⟩

theorem deleteCollection_eq_ok {owner : T.Location} (hDelete : s.deleteCollection owner = .ok s') :
    ∃ info, s.collection = some info ∧
      s' = { s with
        collection := none
        suspendedCollection := some info
        retired := true } := by
  unfold deleteCollection at hDelete
  simp only [bind_eq_ok, okOr_eq_ok_iff, pure_eq_ok] at hDelete
  rcases hDelete with ⟨info, hInfo, _, _, _, _, hEq⟩
  exact ⟨info, hInfo, hEq.symm⟩

theorem ensureRingsAndQueueDeleted_eq_ok {u : Unit}
    (hEnsure : s.ensureRingsAndQueueDeleted = .ok u) :
    s.suspendedCollection.isSome = true ∧ (∀ r, s.ringKeysStatus.get r = none) ∧
      s.ringDeletionQueue = ∅ ∧
      (∀ q, s.onboardingQueue.get q = none) := by
  unfold ensureRingsAndQueueDeleted at hEnsure
  simp only [bind_eq_ok, ensure_eq_ok_iff, StorageMap.isEmpty_iff] at hEnsure
  rcases hEnsure with ⟨_, hSuspended, _, hStatus, _, hQueue, hPages⟩
  exact ⟨hSuspended, hStatus, hQueue, hPages⟩

theorem finalizeCollectionDeletion_eq_ok
    (hFinalize : s.finalizeCollectionDeletionAuthorized = .ok s') :
    s.suspendedCollection.isSome = true ∧ (∀ r, s.ringKeysStatus.get r = none) ∧
      s.ringDeletionQueue = ∅ ∧
      s' = { s with
        suspendedCollection := none
        currentRingIndex := 0
        onboardingSize := 0
        activeMembers := 0
        ringsState := .appendOnly
        queueHead := 0
        queueTail := 0 } := by
  unfold finalizeCollectionDeletionAuthorized at hFinalize
  simp only [bind_eq_ok, pure_eq_ok] at hFinalize
  rcases hFinalize with ⟨_, hEnsure, _, _, hEq⟩
  rcases ensureRingsAndQueueDeleted_eq_ok hEnsure with ⟨hSuspended, hStatus, hQueue, _⟩
  exact ⟨hSuspended, hStatus, hQueue, hEq.symm⟩

theorem removeOrphanedMembers_eq_ok (hRemove : s.removeOrphanedMembersAuthorized = .ok s') :
    s.suspendedCollection.isSome = true ∧ ∃ members, s' = { s with members := members } := by
  unfold removeOrphanedMembersAuthorized at hRemove
  simp only [bind_eq_ok, pure_eq_ok] at hRemove
  rcases hRemove with ⟨_, hEnsure, _, _, hEq⟩
  exact ⟨(ensureRingsAndQueueDeleted_eq_ok hEnsure).1, _, hEq.symm⟩

theorem deleteOnboardingQueuePageAuthorized_eq_ok {q : PageIndex}
    (hDelete : s.deleteOnboardingQueuePageAuthorized q = .ok s') :
    s.suspendedCollection.isSome = true ∧ ∃ queue members,
        s' = { s with
          onboardingQueue := queue
          members := members } := by
  unfold deleteOnboardingQueuePageAuthorized ensureCanDeleteOnboardingQueuePage at hDelete
  simp only [bind_eq_ok, ensure_eq_ok_iff, pure_eq_ok] at hDelete
  rcases hDelete with ⟨_, ⟨_, hSuspended, _⟩, hEq⟩
  exact ⟨hSuspended, _, _, hEq.symm⟩

theorem cleanOldRoots_frame (s : CollectionStore T) (now : Nat) (r : RingIndex) (limit : Nat) :
    ∃ oldRoots, cleanOldRoots now r limit s = { s with oldRoots := oldRoots } := by
  induction limit generalizing s with
  | zero => exact ⟨_, rfl⟩
  | succ limit ih =>
    unfold cleanOldRoots
    split
    · exact ⟨_, rfl⟩
    · split
      · rename_i revision _ _
        rcases ih { s with
            oldRoots := s.oldRoots.remove (r, revision) }
          with ⟨oldRoots, hEq⟩
        exact ⟨oldRoots, hEq⟩
      · exact ⟨_, rfl⟩

theorem cleanUpOldRoots_eq_ok {limit : Nat}
    (hClean : s.cleanUpOldRootsAuthorized now r limit = .ok s') :
    ∃ oldRoots, s' = { s with oldRoots := oldRoots } := by
  unfold cleanUpOldRootsAuthorized at hClean
  simp only [bind_eq_ok, pure_eq_ok] at hClean
  rcases hClean with ⟨_, _, _, _, hEq⟩
  rcases cleanOldRoots_frame s now r limit with ⟨oldRoots, hFrame⟩
  exact ⟨oldRoots, by rw [← hEq, hFrame]⟩

--
-- Configuration
--

theorem createCollection_eq_ok {owner : T.Location} {mode : RingMode} {ringSize : RingExponent}
    {delay : Option Nat} (hCreate : s.createCollection owner size mode ringSize delay = .ok s') :
    s.collection = none ∧ s.suspendedCollection = none ∧ s.retired = false ∧
      flexibleSizeAllowed T mode ringSize ∧
      s' = { s with
        collection := some ⟨.external owner, mode, ringSize, delay⟩
        onboardingSize := size
        ringsState := .appendOnly } := by
  unfold createCollection at hCreate
  simp only [bind_eq_ok, ensure_eq_ok_iff, pure_eq_ok] at hCreate
  rcases hCreate with ⟨_, ⟨hNone, hSuspended⟩, _, hRetired, _, hSize, _, _, hEq⟩
  exact ⟨by simpa using hNone, by simpa using hSuspended, hRetired, hSize, hEq.symm⟩

theorem setOnboardingSize_eq_ok (hSet : s.setOnboardingSize size = .ok s') :
    s' = { s with onboardingSize := size } := by
  unfold setOnboardingSize at hSet
  simp only [bind_eq_ok, pure_eq_ok] at hSet
  rcases hSet with ⟨_, _, _, _, hEq⟩
  exact hEq.symm

theorem markRingStale_eq_ok (hMark : s.markRingStaleAuthorized r = .ok s') :
    s' = { s with staleRings := insert r s.staleRings } := by
  unfold markRingStaleAuthorized at hMark
  simp only [bind_eq_ok, pure_eq_ok] at hMark
  rcases hMark with ⟨_, _, hEq⟩
  exact hEq.symm

end CollectionStore

end Individuality.MembersPallet
