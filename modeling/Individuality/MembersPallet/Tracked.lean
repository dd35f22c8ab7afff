import Individuality.MembersPallet.MemberIndex
import Individuality.MembersPallet.Placement

/-
  In both ring modes, and while rings are removed, the entries of the members of a ring with one
  page that does not wait for its deletion name the positions of their keys, and the entries of the
  queued members name their pages.

  Main declaration: `Recorded`
-/

namespace Individuality.MembersPallet

open StorageMap (getD_insert getD_remove get_insert_of_ne get_remove_self)

variable {T : Config} {s s' : CollectionStore T} {r : RingIndex} {key : T.Member} {now : Nat}
variable {p : PageIndex}

open CollectionStore

--
-- Entries That Name Positions
--

/-
  The index of the members: the queue is indexed, the rings with one page are on record, flexible
  rings have one page, and a ring that waits for its deletion waits with its first page.
-/
structure Tracked (s : CollectionStore T) : Prop where
  sound : CurrentSound s
  queue : QueueIndexed s
  recorded : ∀ r, SinglePage s r → (r, 0) ∉ s.ringDeletionQueue → Recorded s r
  flexible : s.collection.isSome = true → Flexible s → ∀ r, SinglePage s r
  doomed : ∀ r, s.ringQueued r → s.page r 0 ≠ [] → (r, 0) ∈ s.ringDeletionQueue

/-
  What an operation has to respect: the keys of the target of a merge are on record, and no later
  page of the current ring is ignored by a removal of suspended keys.
-/
def KeepsTrack (s : CollectionStore T) : Op T → Prop
  | .mergeRings _ t =>
    (t, 0) ∈ s.ringDeletionQueue → Recorded s t
  | .removeSuspendedKeys r _ =>
    r = s.currentRingIndex → SinglePage s r
  | _ => True

theorem tracked_empty : Tracked (CollectionStore.empty : CollectionStore T) where
  sound := currentSound_empty
  queue := queueIndexed_empty
  recorded := by
    intro r _ _ i key hHere
    have hGet := hHere.1
    have hNil : (CollectionStore.empty : CollectionStore T).page r 0 = [] := rfl
    simp [hNil] at hGet
  flexible := fun _ _ _ _ _ => rfl
  doomed := fun _ _ hPage => absurd rfl hPage

variable {op : Op T}

theorem KeepsTrack.resets (hKeeps : KeepsTrack s op) :
    ResetsSinglePage s op s.currentRingIndex := by
  intro info revision keys _ hOp _ _
  subst hOp
  exact hKeeps rfl

--
-- Pages and Deletions
--

theorem singlePage_congr (hPage : ∀ p, 0 < p → s'.page r p = s.page r p) :
    SinglePage s' r ↔ SinglePage s r := by
  unfold SinglePage
  constructor
  · intro hSingle p hPos
    rw [← hPage p hPos]
    exact hSingle p hPos
  · intro hSingle p hPos
    rw [hPage p hPos]
    exact hSingle p hPos

theorem page_remove (s : CollectionStore T) (e : RingIndex × PageIndex) (r : RingIndex)
    (p : PageIndex) :
    CollectionStore.page { s with ringKeys := s.ringKeys.remove e } r p
      = if (r, p) = e then [] else s.page r p := by
  simp only [CollectionStore.page, ringPage, getD_remove]
  split_ifs <;> rfl

/- Every effect keeps flexible rings on one page. -/
theorem RingEffect.flexible_pages (hEffect : RingEffect s op s') (hSound : CurrentSound s)
    (hSound' : CurrentSound s')
    (hPages : s.collection.isSome = true → Flexible s → ∀ r, SinglePage s r) :
    s'.collection.isSome = true → Flexible s' → ∀ r, SinglePage s' r := by
  cases hEffect with
  | created op info size hNone hSuspended hRetired hSize =>
    intro _ _ r p _
    exact (hSound.life.unused hNone hRetired).1 r p
  | dropped op info hInfo =>
    intro hLive
    simp at hLive
  | added op s' info top hOp hNew hAddition =>
    intro hLive hFlexible r p hPos
    rcases hAddition.writes with ⟨_, _, _, _, _, _, hOthers, hEq⟩
    have hLive₀ : s.collection.isSome = true := by
      rw [hAddition.collection]
      rfl
    have hFlexible₀ : Flexible s := by
      rw [hEq] at hFlexible
      exact hFlexible
    rcases Addition.holds hSound.life (hSound.current hLive₀) hSound.isOpen hAddition with
      ⟨keys, _, hTop, hHolds, _⟩
    by_cases hRing : r = top.ringIndex
    · rw [hRing, hTop]
      have hInfo : s'.collection = some info := by
        rw [hEq]
        exact hAddition.collection
      have hFits := hHolds.flexible info hInfo (hFlexible info hInfo)
      exact hHolds.singlePage hFits p hPos
    · have hOld := hPages hLive₀ hFlexible₀ r p hPos
      rw [hEq]
      exact (hOthers r p hRing).trans hOld
  | merged b t info f root oldRoots changes stale hInfo =>
    intro hLive hFlexible r p hPos
    have hOld := hPages hLive hFlexible r p hPos
    have hZero : p ≠ 0 := Nat.pos_iff_ne_zero.mp hPos
    simp only [CollectionStore.page, ringPage, getD_remove, getD_insert,
      Prod.mk.injEq, hZero, and_false, if_false]
    exact hOld
  | reset r' revision info root oldRoots stale ringKeys hInfo
      hPending hRoot hKeys =>
      intro hLive hFlexible r p hPos
      have hOld := hPages hLive hFlexible r p hPos
      refine (hKeys (r, p)).trans ?_
      rw [if_neg]
      · exact hOld
      · intro hEq
        rw [Prod.mk.injEq] at hEq
        exact Nat.ne_of_gt hPos hEq.2
  | pageDeleted r' p' hMem =>
    intro hLive hFlexible r p hPos
    have hOld := hPages hLive hFlexible r p hPos
    refine (page_remove s (r', p') r p).trans ?_
    split_ifs
    · rfl
    · exact hOld
  | _ => exact hPages

/- A ring that is queued waits with its first page. -/
theorem RingEffect.doomed_pages (hEffect : RingEffect s op s') (hSound : CurrentSound s)
    (hDoomed : ∀ r, s.ringQueued r → s.page r 0 ≠ [] → (r, 0) ∈ s.ringDeletionQueue) :
    ∀ r, s'.ringQueued r → s'.page r 0 ≠ [] → (r, 0) ∈ s'.ringDeletionQueue := by
  cases hEffect with
  | added op s' info top hOp hNew hAddition =>
    intro r hQueued hPage
    rcases hAddition.writes with ⟨_, _, _, _, _, _, hOthers, hEq⟩
    have hLive : s.collection.isSome = true := by
      rw [hAddition.collection]
      rfl
    rcases Addition.holds hSound.life (hSound.current hLive) hSound.isOpen hAddition with
      ⟨keys, hHolds, hTop, _, _⟩
    rw [hEq] at hQueued hPage ⊢
    by_cases hRing : r = top.ringIndex
    · rw [hRing, hTop] at hQueued
      exact absurd hQueued hHolds.notQueued
    · apply hDoomed r hQueued
      intro hNil
      exact hPage ((hOthers r 0 hRing).trans hNil)
  | merged b t info f root oldRoots changes stale hInfo hMode
      hNe hBaseNe hTargetNe hBase =>
      intro r hQueued hPage
      apply hDoomed r hQueued
      intro hNil
      apply hPage
      have hNotBase : r ≠ b := by
        intro hEq
        rw [hEq] at hNil
        exact hBase hNil
      simp only [CollectionStore.page, ringPage, getD_remove, getD_insert,
        Prod.mk.injEq, hNotBase, false_and, if_false]
      split_ifs
      · rfl
      · exact hNil
  | reset r' revision info root oldRoots stale ringKeys hInfo
      hPending hRoot hKeys =>
      intro r hQueued hPage
      apply hDoomed r hQueued
      intro hNil
      apply hPage
      refine (hKeys (r, 0)).trans ?_
      split_ifs with hEq
      · rw [Prod.mk.injEq] at hEq
        unfold keptKeys
        rw [← hEq.1, hNil]
        rfl
      · exact hNil
  | enqueued op r' root oldRoots changes stale hOp =>
    intro r hQueued hPage
    rw [Finset.mem_union, mem_ringPageEntries_iff]
    by_cases hRing : r = r'
    · subst hRing
      rcases hSound.life.page_counted r hPage with
        hMem | hTotal
      · exact Or.inl hMem
      · right
        refine ⟨rfl, (lt_pageCount_iff T.flexibleRingCapacity_pos).mpr ?_⟩
        rw [Nat.zero_mul]
        exact hTotal
    · left
      apply hDoomed r ?_ hPage
      rcases hQueued with ⟨e, hMem, hIs⟩
      rw [Finset.mem_union] at hMem
      rcases hMem with hMem | hMem
      · exact ⟨e, hMem, hIs⟩
      · rcases e with ⟨r₁, p₁⟩
        rw [mem_ringPageEntries_iff] at hMem
        exact absurd (hIs.symm.trans hMem.1) hRing
  | pageDeleted r' p' hMem =>
    intro r hQueued hPage
    have hRemove := page_remove s (r', p') r 0
    have hPage' : CollectionStore.page
          { s with
            ringKeys := s.ringKeys.remove (r', p') } r 0
        ≠ [] := hPage
    rw [hRemove] at hPage'
    split_ifs at hPage' with hEq
    · exact absurd rfl hPage'
    · apply Finset.mem_erase.mpr
      refine ⟨hEq, hDoomed r ?_ hPage'⟩
      rcases hQueued with ⟨e, hErase, hIs⟩
      exact ⟨e, Finset.mem_of_mem_erase hErase, hIs⟩
  | finalized hSuspended hStatus hQueue => exact hDoomed
  | _ => exact hDoomed

--
-- Entries That Change
--

/- Removing keys from a ring moves entries in that ring only. -/
theorem retainKeys_get (r : RingIndex) (i : Nat) (gone : List Nat) (keys : List T.Member)
    (members : MemberMap T) (acc : RingPage T) (key : T.Member) :
    (retainKeys r i gone keys members acc).2.1.get key = members.get key
      ∨ ∃ p j j', members.get key = some (.included r p j) ∧
          (retainKeys r i gone keys members acc).2.1.get key = some (.included r p j') := by
  have hMove : ∀ (members : MemberMap T) (k : T.Member) (n : Nat),
        (moveIncluded r members k n).get key = members.get key ∨ ∃ p j,
            members.get key = some (.included r p j) ∧ (moveIncluded r members k n).get key
                = some (.included r p n) := by
    intro members k n
    unfold moveIncluded
    cases hGet : members.get k with
    | none => exact Or.inl rfl
    | some position =>
      cases position with
      | onboarding q t => exact Or.inl rfl
      | suspended => exact Or.inl rfl
      | included r' p j =>
        by_cases hRing : r = r'
        · subst hRing
          simp only [ne_eq, not_true_eq_false, if_false]
          by_cases hKey : key = k
          · subst hKey
            exact Or.inr ⟨p, j, hGet, StorageMap.get_insert_self _ _ _⟩
          · exact Or.inl (get_insert_of_ne _ _ hKey)
        · simp only [ne_eq, hRing, not_false_eq_true, if_true, true_or]
  induction keys generalizing i gone members acc with
  | nil => exact Or.inl rfl
  | cons k keys ih =>
    unfold retainKeys
    by_cases hHead : gone.head? = some i
    · simp only [if_pos hHead]
      exact ih (i + 1) gone.tail members acc
    · simp only [if_neg hHead]
      have hFirst := hMove members k acc.length
      cases acc.tryPush k with
      | none =>
        rcases hFirst with hSame | ⟨p, j, hOld, hNew⟩
        · exact Or.inl hSame
        · exact Or.inr ⟨p, j, _, hOld, hNew⟩
      | some acc' =>
        have hRest := ih (i + 1) gone (moveIncluded r members k acc.length) acc'
        rcases hFirst with hSame | ⟨p, j, hOld, hNew⟩
        · rw [hSame] at hRest
          exact hRest
        · right
          rcases hRest with hKept | ⟨p', j', j₂, hMid, hLast⟩
          · exact ⟨p, j, _, hOld, hKept.trans hNew⟩
          · rw [hNew, Option.some.injEq, RingPosition.included.injEq] at hMid
            rw [← hMid.2.1] at hLast
            exact ⟨p, j, j₂, hOld, hLast⟩

/- Deleting a page forgets entries of that page only. -/
theorem forgetMembers_cases (r : RingIndex) (p : PageIndex) (i : Nat) (keys : List T.Member)
    (members : MemberMap T) (key : T.Member) :
    (forgetMembers r p i keys members).get key = members.get key
      ∨ ∃ j, members.get key = some (.included r p j) ∧
          (forgetMembers r p i keys members).get key = none := by
  induction keys generalizing i members with
  | nil => exact Or.inl rfl
  | cons k keys ih =>
    unfold forgetMembers
    by_cases hHere : members.get k = some (.included r p i)
    · rw [if_pos hHere]
      by_cases hKey : key = k
      · subst hKey
        right
        refine ⟨i, hHere, ?_⟩
        rcases ih (i + 1) (members.remove key) with
          hSame | ⟨j, hOld, _⟩
        · rw [hSame]
          exact get_remove_self _ _
        · rw [get_remove_self] at hOld
          simp at hOld
      · have hGet : (members.remove k).get key = members.get key := by
          rw [StorageMap.get_remove, if_neg hKey]
        have hRest := ih (i + 1) (members.remove k)
        rw [hGet] at hRest
        exact hRest
    · rw [if_neg hHere]
      exact ih (i + 1) members

theorem Recorded.frame (hRecorded : Recorded s r) (hPage : s'.page r 0 = s.page r 0)
    (hPending : s'.pending r = s.pending r)
    (hMembers : ∀ key i, s.members.get key = some (.included r 0 i) →
        s'.members.get key = some (.included r 0 i)) :
    Recorded s' r := by
  intro i key hHere
  apply hMembers
  apply hRecorded
  unfold Occupies at hHere ⊢
  rw [← hPage, ← hPending]
  exact hHere

/- A queued member is not on record in a ring. -/
theorem Queued.not_included {q : PageIndex} (hQueued : Queued s key q)
    (r : RingIndex) (p : PageIndex) (i : Nat) :
    s.members.get key ≠ some (.included r p i) := by
  rcases hQueued with ⟨t, hGet⟩
  rw [hGet]
  simp

/- The rings with one page that do not wait for deletion. -/
def RingsRecorded (s : CollectionStore T) : Prop :=
  ∀ r, SinglePage s r → (r, 0) ∉ s.ringDeletionQueue → Recorded s r

theorem RingsRecorded.frame (hRecorded : RingsRecorded s) (hPage : ∀ r p, s'.page r p = s.page r p)
    (hPending : ∀ r, s'.pending r = s.pending r)
    (hDeletions : s'.ringDeletionQueue = s.ringDeletionQueue)
    (hMembers : ∀ key r i, s.members.get key = some (.included r 0 i) →
        s'.members.get key = some (.included r 0 i)) :
    RingsRecorded s' := by
  intro r hSingle hNot
  rw [hDeletions] at hNot
  have hSingle₀ : SinglePage s r := (singlePage_congr fun p _ => hPage r p).mp hSingle
  exact (hRecorded r hSingle₀ hNot).frame (hPage r 0) (hPending r) fun key i => hMembers key r i

--
-- The Queue and the Suspensions
--

theorem RingsRecorded.addMember (hRecorded : RingsRecorded s)
    (hAdd : CollectionStore.addMember now s key = .ok s') :
    RingsRecorded s' := by
  rcases addMember_eq_ok hAdd with ⟨hFree, hPush⟩
  rcases pushToOnboardingQueue_members hPush with ⟨q, hMembers⟩
  rcases pushToOnboardingQueue_frame hPush with ⟨tail, queue, members, hEq⟩
  apply hRecorded.frame
  · intro r p
    rw [hEq]
    rfl
  · intro r
    rw [hEq]
    rfl
  · rw [hEq]
  · intro k r i hGet
    have hNe : k ≠ key := by
      intro hIs
      rw [hIs] at hGet
      rcases hFree with hNone | hSuspended
      · simp [hNone] at hGet
      · simp [hSuspended] at hGet
    rw [hMembers, get_insert_of_ne _ _ hNe]
    exact hGet

/- The suspended position is no longer occupied. -/
theorem RingsRecorded.suspendMember (hRecorded : RingsRecorded s)
    (hSuspend : CollectionStore.suspendMember s key = .ok s') :
    RingsRecorded s' := by
  have hOthers : (∀ r p i, s.members.get key ≠ some (.included r p i)) → ∀ k r i,
          s.members.get k = some (.included r 0 i) → (s.members.insert key .suspended).get k
              = some (.included r 0 i) := by
    intro hFree k r i hGet
    have hNe : k ≠ key := by
      intro hIs
      rw [hIs] at hGet
      exact hFree r 0 i hGet
    rw [get_insert_of_ne _ _ hNe]
    exact hGet
  rcases suspendMember_cases hSuspend with ⟨r, p, i, indices, hGet, hNew, hIndices, hEq⟩
      | ⟨q, t, hGet, hEq⟩ | ⟨hGet, hEq⟩
  · intro r' hSingle hNot j k hHere
    have hPending : s'.pending r' = if r' = r
            then (s.pending r).orderedInsert (· ≤ ·) i
            else s.pending r' := by
      rw [hEq]
      simp only [pending, getD_insert]
      split_ifs
      · exact hIndices
      · rfl
    rw [hEq] at hSingle hNot
    have hOld : Occupies s r' j k := by
      refine ⟨?_, ?_⟩
      · have hPage := hHere.1
        rw [hEq] at hPage
        exact hPage
      · intro hMem
        apply hHere.2
        rw [hPending]
        split_ifs with hRing
        · rw [hRing] at hMem
          rw [List.mem_orderedInsert]
          exact Or.inr hMem
        · exact hMem
    have hEntry := hRecorded r' hSingle hNot j k hOld
    have hNe : k ≠ key := by
      intro hIs
      rw [hIs, hGet, Option.some.injEq, RingPosition.included.injEq] at hEntry
      rcases hEntry with ⟨hRing, _, hPosition⟩
      apply hHere.2
      rw [hPending, if_pos hRing.symm, ← hPosition]
      rw [List.mem_orderedInsert]
      exact Or.inl rfl
    rw [hEq]
    exact (get_insert_of_ne _ _ hNe).trans hEntry
  · have hFree : ∀ r p i, s.members.get key ≠ some (.included r p i) :=
      Queued.not_included ⟨t, hGet⟩
    rcases suspendQueued_frame s q key with ⟨queue, hQueue⟩
    rw [hEq, hQueue]
    apply hRecorded.frame
    · exact fun _ _ => rfl
    · exact fun _ => rfl
    · rfl
    · exact hOthers hFree
  · rw [hEq]
    apply hRecorded.frame
    · exact fun _ _ => rfl
    · exact fun _ => rfl
    · rfl
    · apply hOthers
      intro r p i hNo
      simp [hGet] at hNo

--
-- Batches, Merges and Removals
--

variable {new : List T.Member}

theorem Appended.singlePage (hAppended : Appended s s' new) (hSingle : SinglePage s' r) :
    SinglePage s r := by
  intro p hPos
  rw [List.eq_nil_iff_forall_not_mem]
  intro k hMem
  rcases List.getElem?_of_mem hMem with ⟨j, hGet⟩
  have hGet' := hAppended.page_mono hGet
  rw [hSingle p hPos] at hGet'
  simp at hGet'

theorem RingsRecorded.append (hRecorded : RingsRecorded s) (hAppended : Appended s s' new)
    (hQueued : ∀ key ∈ new, ∃ q, Queued s key q) :
    RingsRecorded s' := by
  intro r hSingle hNot i key hHere
  rw [hAppended.deletions] at hNot
  have hPending : s'.pending r = s.pending r := by
    unfold pending
    rw [hAppended.pending]
  have hSingle₀ := hAppended.singlePage hSingle
  rcases hAppended.page_cases hHere.1 with hOld | hNew
  · have hNotPending := hHere.2
    rw [hPending] at hNotPending
    have hEntry := hRecorded r hSingle₀ hNot i key ⟨hOld, hNotPending⟩
    have hNotNew : key ∉ new := by
      intro hMem
      rcases hQueued key hMem with ⟨q, hQueued⟩
      exact hQueued.not_included r 0 i hEntry
    rw [hAppended.placed.2 key hNotNew]
    exact hEntry
  · exact hNew.2.2.2

theorem RingsRecorded.mergeQueuePages {h h' : PageIndex} (hRecorded : RingsRecorded s)
    (hMerge : s.mergeQueuePagesAuthorized h h' = .ok s') :
    RingsRecorded s' := by
  have hPages := (mergeQueuePagesAuthorized_eq_ok hMerge).2.2.2
  have hMembers := mergeQueuePages_members hPages
  rcases mergeQueuePages_frame hPages with ⟨head, queue, members, hEq⟩
  apply hRecorded.frame
  · intro r p
    rw [hEq]
    rfl
  · intro r
    rw [hEq]
    rfl
  · rw [hEq]
  · intro key r i hGet
    rw [hMembers]
    split_ifs
    · exact (moveEntry_eq_included_iff h').mpr hGet
    · exact hGet

/- The keys of both rings of a merge are on record. -/
theorem RingsRecorded.mergeRings {b t : RingIndex} (hRecorded : RingsRecorded s)
    (hTarget : Recorded s t) (hMerge : s.mergeRings now b t = .ok s') :
    RingsRecorded s' := by
  rcases hTarget.placed_of_merge hMerge with ⟨hPlaced, hThere⟩
  have hPage := mergeRings_page hMerge
  rcases mergeRings_eq_ok hMerge with ⟨info, f, root, oldRoots, changes, stale, _, _, _, hNe, _,
      _, _, _, _, _, hBasePending, hTargetPending, _, _, _, hEq⟩
  have hPending : ∀ r, s'.pending r = s.pending r := by
    intro r
    rw [hEq]
    rfl
  have hKept : ∀ r i key, r ≠ t → s.members.get key = some (.included r 0 i) →
          s'.members.get key = some (.included r 0 i) := by
    intro r i key hOther hGet
    have hNot : key ∉ s.page t 0 := by
      intro hMem
      rcases hThere key hMem with ⟨j, hHere⟩
      rw [hTarget j key hHere, Option.some.injEq, RingPosition.included.injEq] at hGet
      exact hOther hGet.1.symm
    rw [hPlaced.2 key hNot]
    exact hGet
  intro r hSingle hNot i key hHere
  have hNot₀ : (r, 0) ∉ s.ringDeletionQueue := by
    rw [hEq] at hNot
    exact hNot
  have hSingle₀ : SinglePage s r := by
    intro p hPos
    rw [← mergeRings_later_page hMerge r hPos]
    exact hSingle p hPos
  have hGet := hHere.1
  rw [hPage] at hGet
  by_cases hIsTarget : r = t
  · rw [if_pos hIsTarget] at hGet
    simp at hGet
  have hOld := hRecorded r hSingle₀ hNot₀
  rw [if_neg hIsTarget] at hGet
  by_cases hIsBase : r = b
  · subst hIsBase
    rw [if_pos rfl] at hGet
    by_cases hLt : i < (s.page r 0).length
    · rw [List.getElem?_append_left hLt] at hGet
      apply hKept r i key hIsTarget
      apply hOld i key
      refine ⟨hGet, ?_⟩
      rw [hBasePending]
      exact List.not_mem_nil
    · have hLe := Nat.not_lt.mp hLt
      rw [List.getElem?_append_right hLe] at hGet
      have hEntry := hPlaced.1 _ key hGet
      rw [Nat.add_sub_of_le hLe] at hEntry
      exact hEntry
  · rw [if_neg hIsBase] at hGet
    apply hKept r i key hIsTarget
    apply hOld i key
    refine ⟨hGet, ?_⟩
    rw [← hPending]
    exact hHere.2

variable {info : CollectionInfo T}

theorem RingsRecorded.removeSuspendedKeys (now : Nat) (r : RingIndex) (hRecorded : RingsRecorded s)
    (hSorted : (s.pending r).Pairwise (· < ·)) (hInfo : s.collection = some info) :
    RingsRecorded (s.removeSuspendedKeys now r) := by
  have hPage := removeSuspendedKeys_page now r hInfo
  have hPending := removeSuspendedKeys_pending now r hInfo
  rcases removeSuspendedKeys_eq now r hInfo with ⟨root, oldRoots, stale, ringKeys, _, _, hEq⟩
  intro r' hSingle hNot
  have hSingle₀ : SinglePage s r' := by
    intro p hPos
    have hNone := hSingle p hPos
    rw [hPage, if_neg] at hNone
    · exact hNone
    · intro hIs
      rw [Prod.mk.injEq] at hIs
      exact Nat.ne_of_gt hPos hIs.2
  have hNot₀ : (r', 0) ∉ s.ringDeletionQueue := by
    rw [hEq] at hNot
    exact hNot
  have hOld := hRecorded r' hSingle₀ hNot₀
  by_cases hRing : r' = r
  · subst hRing
    have hPlaced := hOld.placed_of_removal now hSorted hInfo
    intro i key hHere
    have hGet := hHere.1
    rw [hPage, if_pos rfl] at hGet
    have hEntry := hPlaced.1 i key hGet
    rw [Nat.zero_add] at hEntry
    exact hEntry
  · apply hOld.frame
    · rw [hPage, if_neg]
      intro hIs
      rw [Prod.mk.injEq] at hIs
      exact hRing hIs.1
    · rw [hPending, if_neg hRing]
    · intro key i hGet
      rw [hEq]
      rcases retainKeys_get r 0 (s.pending r) (s.page r 0) s.members .empty key with
        hSame | ⟨p, j, j', hMoved, _⟩
      · exact hSame.trans hGet
      · rw [hGet, Option.some.injEq, RingPosition.included.injEq] at hMoved
        exact absurd hMoved.1 hRing

--
-- Deletions
--

theorem RingsRecorded.enqueue (now : Nat) (r : RingIndex) (hRecorded : RingsRecorded s)
    (hLife : Lifecycle s) :
    RingsRecorded (s.enqueueRingForDeletion now r) := by
  rcases enqueueRingForDeletion_eq s now r with ⟨root, oldRoots, changes, stale, _, _, hEq⟩
  rw [hEq]
  intro r' hSingle hNot
  rw [Finset.mem_union, not_or, mem_ringPageEntries_iff] at hNot
  by_cases hRing : r' = r
  · subst hRing
    -- the ring would be queued if it had keys
    have hNone : s.page r' 0 = [] := by
      by_contra hPage
      rcases hLife.page_counted r' hPage with hMem | hTotal
      · exact hNot.1 hMem
      · apply hNot.2
        refine ⟨rfl, (lt_pageCount_iff T.flexibleRingCapacity_pos).mpr ?_⟩
        rw [Nat.zero_mul]
        exact hTotal
    intro i key hHere
    have hGet : (s.page r' 0)[i]? = some key := hHere.1
    rw [hNone] at hGet
    simp at hGet
  · have hOld := hRecorded r' hSingle hNot.1
    apply hOld.frame
    · rfl
    · rw [pending, getD_remove, if_neg hRing]
      rfl
    · exact fun _ _ hGet => hGet

theorem deleteRingPage_page (hDelete : s.deleteRingPageAuthorized r p = .ok s') (r' : RingIndex)
    (q : PageIndex) :
    s'.page r' q = if (r', q) = (r, p) then [] else s.page r' q := by
  rw [(deleteRingPageAuthorized_eq_ok hDelete).2]
  exact page_remove s (r, p) r' q

/- Nothing is left of a ring whose first page is dequeued. -/
theorem page_nil_of_deleteRingPage
    (hDoomed : ∀ r, s.ringQueued r → s.page r 0 ≠ [] → (r, 0) ∈ s.ringDeletionQueue)
    (hDelete : s.deleteRingPageAuthorized r p = .ok s') (hNot : (r, 0) ∉ s'.ringDeletionQueue) :
    s'.page r 0 = [] := by
  rcases deleteRingPageAuthorized_eq_ok hDelete with ⟨hMem, hEq⟩
  rw [hEq] at hNot
  rw [deleteRingPage_page hDelete]
  split_ifs with hIs
  · rfl
  · by_contra hSome
    have hQueued := hDoomed r ⟨_, hMem, rfl⟩ hSome
    exact hNot (Finset.mem_erase.mpr ⟨hIs, hQueued⟩)

/- The other rings are as before the deletion. -/
theorem deleteRingPage_other {s s' : CollectionStore T} {r r' : RingIndex} {p : PageIndex}
    (hDelete : s.deleteRingPageAuthorized r p = .ok s') (hRing : r' ≠ r) :
    (∀ q, s'.page r' q = s.page r' q) ∧
      ((r', 0) ∈ s.ringDeletionQueue → (r', 0) ∈ s'.ringDeletionQueue) := by
  have hNe : ∀ q, (r', q) ≠ (r, p) := by
    intro q hIs
    rw [Prod.mk.injEq] at hIs
    exact hRing hIs.1
  refine ⟨?_, ?_⟩
  · intro q
    rw [deleteRingPage_page hDelete, if_neg (hNe q)]
  · intro hQueued
    rw [(deleteRingPageAuthorized_eq_ok hDelete).2]
    exact Finset.mem_erase.mpr ⟨hNe 0, hQueued⟩

theorem RingsRecorded.deleteRingPage (hRecorded : RingsRecorded s)
    (hDoomed : ∀ r, s.ringQueued r → s.page r 0 ≠ [] → (r, 0) ∈ s.ringDeletionQueue)
    (hDelete : s.deleteRingPageAuthorized r p = .ok s') :
    RingsRecorded s' := by
  intro r' hSingle hNot
  by_cases hRing : r' = r
  · subst hRing
    have hNone := page_nil_of_deleteRingPage hDoomed hDelete hNot
    intro i key hHere
    have hGet := hHere.1
    rw [hNone] at hGet
    simp at hGet
  · rcases deleteRingPage_other hDelete hRing with ⟨hOther, hQueue⟩
    have hOld : Recorded s r' := by
      apply hRecorded r'
      · exact (singlePage_congr fun q _ => hOther q).mp hSingle
      · exact fun hQueued => hNot (hQueue hQueued)
    rcases deleteRingPageAuthorized_eq_ok hDelete with ⟨_, hEq⟩
    apply hOld.frame (hOther 0)
    · rw [hEq]
      rfl
    · intro key i hGet
      rw [hEq]
      rcases forgetMembers_cases r p 0 (s.page r p) s.members key with hSame | ⟨j, hForgot, _⟩
      · exact hSame.trans hGet
      · rw [hGet, Option.some.injEq, RingPosition.included.injEq] at hForgot
        exact absurd hForgot.1 hRing

--
-- The Queue of the Pallet
--

/- A removal moves entries of included members only. -/
theorem QueueIndexed.removeSuspendedKeys (now : Nat) (r : RingIndex) (hIndexed : QueueIndexed s)
    (hInfo : s.collection = some info) :
    QueueIndexed (s.removeSuspendedKeys now r) := by
  rcases removeSuspendedKeys_eq now r hInfo with ⟨root, oldRoots, stale, ringKeys, _, _, hEq⟩
  apply hIndexed.frame
  · rw [hEq]
  · rw [hEq]
  · rw [hEq]
  · intro key q
    unfold Queued
    rw [hEq]
    rcases retainKeys_get r 0 (s.pending r) (s.page r 0) s.members .empty key with
      hSame | ⟨p, j, j', hOld, hNew⟩
    · simp only [hSame]
    · simp only [hOld, hNew]
      simp

theorem QueueIndexed.deleteRingPage (hIndexed : QueueIndexed s)
    (hDelete : s.deleteRingPageAuthorized r p = .ok s') :
    QueueIndexed s' := by
  rcases deleteRingPageAuthorized_eq_ok hDelete with ⟨_, hEq⟩
  apply hIndexed.frame
  · rw [hEq]
  · rw [hEq]
  · rw [hEq]
  · intro key q
    unfold Queued
    rw [hEq]
    rcases forgetMembers_cases r p 0 (s.page r p) s.members key with hSame | ⟨j, hOld, hNew⟩
    · simp only [hSame]
    · simp only [hOld, hNew]
      simp

/- The queue and the rings on record, without their pages. -/
structure QueueTracked (s : CollectionStore T) : Prop where
  queue : QueueIndexed s
  recorded : RingsRecorded s

theorem QueueTracked.frame (hTracked : QueueTracked s) (hHead : s'.queueHead = s.queueHead)
    (hTail : s'.queueTail = s.queueTail) (hQueue : s'.onboardingQueue = s.onboardingQueue)
    (hKeys : s'.ringKeys = s.ringKeys) (hPending : s'.pendingSuspensions = s.pendingSuspensions)
    (hDeletions : s'.ringDeletionQueue = s.ringDeletionQueue) (hMembers : s'.members = s.members) :
    QueueTracked s' := by
  refine ⟨?_, ?_⟩
  · apply hTracked.queue.frame hHead hTail hQueue
    intro key q
    unfold Queued
    rw [hMembers]
  · apply hTracked.recorded.frame
    · intro r p
      unfold CollectionStore.page ringPage
      rw [hKeys]
    · intro r
      unfold pending
      rw [hPending]
    · exact hDeletions
    · intro key r i hGet
      rw [hMembers]
      exact hGet

/- The keys of the target of a merge are on record. -/
theorem Tracked.target_recorded {b t : RingIndex} (hTracked : Tracked s)
    (hDoomed : (t, 0) ∈ s.ringDeletionQueue → Recorded s t)
    (hMerge : s.mergeRings now b t = .ok s') :
    Recorded s t := by
  by_cases hQueued : (t, 0) ∈ s.ringDeletionQueue
  · exact hDoomed hQueued
  · rcases mergeRings_eq_ok hMerge with ⟨info, _, _, _, _, _, hInfo, hMode, _⟩
    apply hTracked.recorded t ?_ hQueued
    apply hTracked.flexible
    · rw [hInfo]
      rfl
    · intro info' hInfo'
      rw [hInfo, Option.some.injEq] at hInfo'
      rw [← hInfo']
      exact hMode

theorem Tracked.queueTracked {call : TimedOp T} (hTracked : Tracked s)
    (hSuspended : s.suspendedCollection = none) (hKeeps : KeepsTrack s call.op)
    (hApply : s.apply call = .ok s') :
    QueueTracked s' := by
  have hNotSuspended : s.suspendedCollection.isSome ≠ true := by
    rw [hSuspended]
    exact Bool.false_ne_true
  have hOld : QueueTracked s := ⟨hTracked.queue, hTracked.recorded⟩
  rcases call with ⟨now, op⟩
  cases op with
  | createCollection owner size mode ringSize delay =>
    rcases createCollection_eq_ok hApply with ⟨_, _, _, _, rfl⟩
    exact hOld.frame rfl rfl rfl rfl rfl rfl rfl
  | addMembers keys =>
    refine ⟨hOld.queue.addMembers hApply, ?_⟩
    refine List.foldlM_invariant RingsRecorded (addMembers_eq_ok hApply).2 ?_ hOld.recorded
    intro x key y _ hStep hBefore
    exact hBefore.addMember hStep
  | removeRing r =>
    rcases removeRing_eq_ok hApply with ⟨_, _, ⟨_, hEq⟩ | ⟨_, hEq⟩⟩
    · rw [hEq]
      exact hOld
    · refine ⟨?_, ?_⟩
      · rcases enqueueRingForDeletion_eq s now r with ⟨root, oldRoots, changes, stale, _, _, hIs⟩
        rw [hEq, hIs]
        exact hOld.queue.frame rfl rfl rfl fun _ _ => Iff.rfl
      · rw [hEq]
        exact hOld.recorded.enqueue now r hTracked.sound.life
  | deleteCollection owner =>
    rcases deleteCollection_eq_ok hApply with ⟨_, _, rfl⟩
    exact hOld.frame rfl rfl rfl rfl rfl rfl rfl
  | removeMembers keys =>
    have hFold := (queueMemberSuspensions_eq_ok hApply).2
    refine ⟨?_, ?_⟩
    · refine List.foldlM_invariant QueueIndexed hFold ?_ hOld.queue
      intro x key y _ hStep hBefore
      exact hBefore.suspendMember hStep
    · refine List.foldlM_invariant RingsRecorded hFold ?_ hOld.recorded
      intro x key y _ hStep hBefore
      exact hBefore.suspendMember hStep
  | startRemovalSession =>
    rcases startRemovalSession_eq_ok hApply with ⟨_, rfl, _⟩
    exact hOld.frame rfl rfl rfl rfl rfl rfl rfl
  | endRemovalSession =>
    rcases endRemovalSession_eq_ok hApply with ⟨_, rfl, _⟩
    exact hOld.frame rfl rfl rfl rfl rfl rfl rfl
  | mergeRings b t =>
    have hTarget := hTracked.target_recorded hKeeps hApply
    exact ⟨hOld.queue.mergeRings hTarget hApply, hOld.recorded.mergeRings hTarget hApply⟩
  | setOnboardingSize size =>
    rw [setOnboardingSize_eq_ok hApply]
    exact hOld.frame rfl rfl rfl rfl rfl rfl rfl
  | selfInclude signature message member callValidAt =>
    have hInclude := selfInclude_eq_ok hApply
    rcases doSelfInclude_queue hInclude with ⟨q, t, _, _, _, hGet, _⟩
    refine ⟨hOld.queue.doSelfInclude hInclude, ?_⟩
    apply hOld.recorded.append (appended_of_doSelfInclude hTracked.sound hInclude)
    intro key hMem
    rw [List.mem_singleton.mp hMem]
    exact ⟨q, t, hGet⟩
  | buildRing ready r ringExponent revision toInclude =>
    rcases buildRing_eq_ok (buildRingAuthorized_eq_ok hApply).2.2.2 with
      ⟨_, _, _, _, _, _, _, _, _, _, rfl⟩
    exact hOld.frame rfl rfl rfl rfl rfl rfl rfl
  | onboardMembers r head first =>
    rcases onboardMembersAuthorized_eq_ok hApply with ⟨b, hOnboard⟩
    rcases hOld.queue.onboardBatch hOnboard with ⟨hNodup, hQueued⟩
    refine ⟨hOld.queue.onboardMembers hOnboard, ?_⟩
    exact hOld.recorded.append (appended_of_onboardMembers hTracked.sound hNodup hOnboard) hQueued
  | mergeQueuePages h h' =>
    exact ⟨hOld.queue.mergeQueuePages hApply, hOld.recorded.mergeQueuePages hApply⟩
  | removeSuspendedKeys r revision =>
    rcases removeSuspendedKeysAuthorized_eq_ok hApply with ⟨_, _, _, hEq⟩
    rw [hEq]
    cases hInfo : s.collection with
    | none =>
      have hSame : s.removeSuspendedKeys now r = s := by
        rw [CollectionStore.removeSuspendedKeys, hInfo]
      rw [hSame]
      exact hOld
    | some info =>
      exact ⟨hOld.queue.removeSuspendedKeys now r hInfo, hOld.recorded.removeSuspendedKeys now r
          (hTracked.sound.life.pending_sorted r) hInfo⟩
  | deleteRingPage r p =>
    exact ⟨hOld.queue.deleteRingPage hApply, hOld.recorded.deleteRingPage hTracked.doomed hApply⟩
  | enqueueRingDeletion r =>
    exact absurd (enqueueRingDeletionAuthorized_eq_ok hApply).1 hNotSuspended
  | deleteOnboardingQueuePage p =>
    exact absurd (deleteOnboardingQueuePageAuthorized_eq_ok hApply).1 hNotSuspended
  | finalizeCollectionDeletion =>
    exact absurd (finalizeCollectionDeletion_eq_ok hApply).1 hNotSuspended
  | removeOrphanedMembers =>
    exact absurd (removeOrphanedMembers_eq_ok hApply).1 hNotSuspended
  | markRingStale r =>
    rw [markRingStale_eq_ok hApply]
    exact hOld.frame rfl rfl rfl rfl rfl rfl rfl
  | cleanUpOldRoots r limit =>
    rcases cleanUpOldRoots_eq_ok hApply with ⟨_, rfl⟩
    exact hOld.frame rfl rfl rfl rfl rfl rfl rfl

--
-- Runs
--

/- Every operation that respects the index keeps it. -/
theorem Tracked.apply {call : TimedOp T} (hTracked : Tracked s)
    (hSuspended : s.suspendedCollection = none) (hKeeps : KeepsTrack s call.op)
    (hApply : s.apply call = .ok s') :
    Tracked s' := by
  have hEffect := ringEffect_of_apply hApply
  have hSound := hEffect.currentSound hKeeps.resets hTracked.sound
  have hNew := hTracked.queueTracked hSuspended hKeeps hApply
  exact {
    sound := hSound
    queue := hNew.queue
    recorded := hNew.recorded
    flexible := hEffect.flexible_pages hTracked.sound hSound hTracked.flexible
    doomed := hEffect.doomed_pages hTracked.sound hTracked.doomed }

namespace PalletState

/- Every operation on the collection respects its index. -/
def Respectful (id : Identifier) (s : PalletState T) (o : PalletOp T) (_ : PalletState T) : Prop :=
  o.identifier = id → KeepsTrack (s.stores id) o.call.op

theorem tracked_of_run {id : Identifier} {s : PalletState T}
    (hRun : RunUnder dispatch (Respectful id) genesis s)
    (hUsable : (s.stores id).collection = none → (s.stores id).retired = false) :
    Tracked (s.stores id) := by
  refine store_invariant_of_run (fun id' store => id' = id →
      (store.collection = none → store.retired = false) → Tracked store)
    hRun ?_ (fun _ _ _ => tracked_empty) id rfl hUsable
  intro s s' o store hAllowed hApply _ hOld hId hUsable'
  have hUsable₀ := (ringEffect_of_apply hApply).usable_before hUsable'
  have hTracked := hOld hId hUsable₀
  have hSuspended := hTracked.sound.life.not_suspended hUsable₀
  apply hTracked.apply hSuspended ?_ hApply
  rw [hId]
  exact hAllowed hId

end PalletState

end Individuality.MembersPallet
