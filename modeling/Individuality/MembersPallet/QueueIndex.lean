import Individuality.MembersPallet.Effects

/-
  The entries of the members that wait in the onboarding queue name the page their key is on.

  Main declaration: `QueueIndexed`
-/

namespace Individuality.MembersPallet

open StorageMap (getD_insert getD_remove get_insert get_insert_of_ne)

variable {T : Config} {s s' : CollectionStore T} {key : T.Member} {h q h' head : PageIndex}
variable {now openSlots : Nat} {keys : List T.Member}

open CollectionStore

--
-- The Invariant
--

/- The entry of the key names page `q` of the queue. -/
def Queued (s : CollectionStore T) (key : T.Member) (q : PageIndex) : Prop :=
  ∃ t, s.members.get key = some (.onboarding q t)

structure QueueIndexed (s : CollectionStore T) : Prop where
  span : CyclicSpan pageIndexCount s.queueHead s.queueTail
      s.queuePage
  nodup : ∀ q, (s.queuePage q).Nodup
  queued : ∀ key q, key ∈ s.queuePage q ↔ Queued s key q

theorem queueIndexed_empty :
    QueueIndexed (CollectionStore.empty : CollectionStore T)
    where
  span := CyclicSpan.empty (Nat.succ_pos _)
  nodup := fun _ => List.nodup_nil
  queued := by
    intro key q
    constructor
    · intro hMem
      exact absurd hMem List.not_mem_nil
    · rintro ⟨t, hGet⟩
      simp [CollectionStore.empty] at hGet

theorem QueueIndexed.frame (hIndexed : QueueIndexed s) (hHead : s'.queueHead = s.queueHead)
    (hTail : s'.queueTail = s.queueTail) (hQueue : s'.onboardingQueue = s.onboardingQueue)
    (hQueued : ∀ key q, Queued s' key q ↔ Queued s key q) :
    QueueIndexed s' := by
  have hPage : s'.queuePage = s.queuePage := by
    funext q
    unfold CollectionStore.queuePage queueBlock
    rw [hQueue]
  refine ⟨?_, ?_, ?_⟩
  · rw [hHead, hTail, hPage]
    exact hIndexed.span
  · rw [hPage]
    exact hIndexed.nodup
  · intro key q
    rw [hPage, hQueued]
    exact hIndexed.queued key q

/- A key is on one page of the queue at most. -/
theorem QueueIndexed.page_unique {q' : PageIndex} (hIndexed : QueueIndexed s)
    (hMem : key ∈ s.queuePage q) (hMem' : key ∈ s.queuePage q') :
    q = q' := by
  rcases (hIndexed.queued key q).mp hMem with ⟨t, hGet⟩
  rcases (hIndexed.queued key q').mp hMem' with ⟨t', hGet'⟩
  rw [hGet, Option.some.injEq, RingPosition.onboarding.injEq] at hGet'
  exact hGet'.1

/- Keys leave the queue together with their entries; the other keys stay on their pages. -/
theorem QueueIndexed.take (hIndexed : QueueIndexed s) (gone : List T.Member)
    (hSpan : CyclicSpan pageIndexCount s'.queueHead s'.queueTail s'.queuePage)
    (hNodup : ∀ q, (s'.queuePage q).Nodup)
    (hPages : ∀ key q, key ∈ s'.queuePage q ↔ key ∈ s.queuePage q ∧ key ∉ gone)
    (hKept : ∀ key, key ∉ gone → s'.members.get key = s.members.get key)
    (hGone : ∀ key q, key ∈ gone → ¬ Queued s' key q) :
    QueueIndexed s' := by
  refine ⟨hSpan, hNodup, ?_⟩
  intro key q
  rw [hPages]
  by_cases hMem : key ∈ gone
  · simp [hMem, hGone key q hMem]
  · unfold Queued
    rw [hKept key hMem]
    simp only [hMem, not_false_eq_true, and_true]
    exact hIndexed.queued key q

--
-- Adding Members
--

theorem queuePage_writeQueueTail
    (s : CollectionStore T) (now : Nat) (tail : PageIndex) (keys : QueuePage T) (key : T.Member)
    (q : PageIndex) :
    (s.writeQueueTail now tail keys key).queuePage q
      = if q = tail then keys.toList else s.queuePage q := by
  unfold writeQueueTail CollectionStore.queuePage queueBlock
  rw [getD_insert]
  split_ifs <;> rfl

/- The key is appended to the page it is written to. -/
theorem queueIndexed_of_write {tail : PageIndex} {keys : QueuePage T} (hIndexed : QueueIndexed s)
    (hFree : ∀ q, ¬ Queued s key q) (hKeys : keys.toList = s.queuePage tail ++ [key])
    (hSpan : CyclicSpan pageIndexCount s.queueHead tail
        (s.writeQueueTail now tail keys key).queuePage) :
    QueueIndexed (s.writeQueueTail now tail keys key) := by
  have hNotMem : ∀ q, key ∉ s.queuePage q := by
    intro q hMem
    exact hFree q ((hIndexed.queued key q).mp hMem)
  refine ⟨hSpan, ?_, ?_⟩
  · intro q
    rw [queuePage_writeQueueTail]
    split_ifs with hEq
    · rw [hKeys, ← List.concat_eq_append]
      exact (hIndexed.nodup tail).concat (hNotMem tail)
    · exact hIndexed.nodup q
  · intro k q
    have hQueued : Queued (s.writeQueueTail now tail keys key) k q ↔
          if k = key then q = tail else Queued s k q := by
      unfold Queued writeQueueTail
      simp only [get_insert]
      split_ifs
      · simp [eq_comm]
      · rfl
    rw [hQueued, queuePage_writeQueueTail]
    by_cases hKey : k = key
    · subst hKey
      rw [if_pos rfl]
      split_ifs with hEq
      · simp [hKeys, hEq]
      · simp [hNotMem q, hEq]
    · rw [if_neg hKey, ← hIndexed.queued k q]
      split_ifs with hEq
      · rw [hKeys, hEq]
        simp [hKey]
      · rfl

theorem queueIndexed_of_push (hIndexed : QueueIndexed s) (hFree : ∀ q, ¬ Queued s key q)
    (hPush : s.pushToOnboardingQueue now key = .ok s') :
    QueueIndexed s' := by
  unfold pushToOnboardingQueue at hPush
  cases hTail : (s.queueBlock s.queueTail).tryPush key with
  | some keys =>
    simp only [hTail, Except.ok.injEq] at hPush
    rw [← hPush]
    rw [BoundedVec.tryPush_eq_some_iff] at hTail
    apply queueIndexed_of_write hIndexed hFree hTail
    apply hIndexed.span.of_pages
    intro q hNe
    by_cases hEq : q = s.queueTail
    · rw [hEq]
      exact Or.inr (inCyclicRange_last hIndexed.span.last_lt)
    · rw [queuePage_writeQueueTail, if_neg hEq] at hNe
      exact Or.inl hNe
  | none =>
    simp only [hTail, Except.bind_eq_ok, ensure_eq_ok_iff,
      okOr_eq_ok_iff, BoundedVec.ofList?_eq_some_iff,
      Except.pure_eq_ok] at hPush
    rcases hPush with ⟨_, hRoom, keys, hKeys, hEq⟩
    rw [nextQueuePage_eq_cyclicNext] at hRoom hEq
    have hEmpty := hIndexed.span.next_eq_nil hRoom
    rw [← hEq]
    apply queueIndexed_of_write hIndexed hFree
    · rw [hKeys, hEmpty, List.nil_append]
    · apply hIndexed.span.push hRoom
      intro q hNe
      by_cases hNext : q = cyclicNext pageIndexCount s.queueTail
      · exact Or.inr hNext
      · rw [queuePage_writeQueueTail, if_neg hNext] at hNe
        exact Or.inl hNe

/- A member that can be added is not in the queue. -/
theorem not_queued_of_addMember (hAdd : addMember now s key = .ok s') (q : PageIndex) :
    ¬ Queued s key q := by
  rintro ⟨t, hGet⟩
  rcases (addMember_eq_ok hAdd).1 with hNone | hSuspended
  · simp [hGet] at hNone
  · simp [hGet] at hSuspended

theorem QueueIndexed.addMember (hIndexed : QueueIndexed s)
    (hAdd : CollectionStore.addMember now s key = .ok s') :
    QueueIndexed s' :=
  queueIndexed_of_push hIndexed (not_queued_of_addMember hAdd) (addMember_eq_ok hAdd).2

theorem QueueIndexed.addMembers (hIndexed : QueueIndexed s)
    (hAdd : s.addMembers now keys = .ok s') :
    QueueIndexed s' := by
  refine List.foldlM_invariant QueueIndexed (addMembers_eq_ok hAdd).2 ?_ hIndexed
  intro x key y _ hStep hOld
  exact hOld.addMember hStep

--
-- Merging the Front Pages
--

/- Name another page in the entry of a queued key. -/
def moveEntry (h : PageIndex) : RingPosition → RingPosition
  | .onboarding _ t => .onboarding h t
  | position => position

theorem moveEntry_moveEntry (h : PageIndex) (position : RingPosition) :
    moveEntry h (moveEntry h position) = moveEntry h position := by
  cases position <;> rfl

theorem moveEntry_eq_included_iff (h : PageIndex)
    {position : Option RingPosition} {r : RingIndex} {p : PageIndex} {i : Nat} :
    position.map (moveEntry h) = some (.included r p i) ↔ position = some (.included r p i) := by
  cases position with
  | none => simp
  | some position => cases position <;> simp [moveEntry]

theorem moveQueued_members (hMove : moveQueued h s key = .ok s') (k : T.Member) :
    s'.members.get k = if k = key then (s.members.get k).map (moveEntry h)
        else s.members.get k := by
  unfold moveQueued at hMove
  cases hGet : s.members.get key with
  | none => simp [hGet] at hMove
  | some position =>
    cases position with
    | onboarding q t =>
      simp only [hGet, Except.ok.injEq] at hMove
      rw [← hMove]
      simp only [get_insert]
      split_ifs with hEq
      · rw [hEq, hGet]
        rfl
      · rfl
    | included r p i =>
      simp only [hGet, Except.ok.injEq] at hMove
      rw [← hMove]
      split_ifs with hEq
      · rw [hEq, hGet]
        rfl
      · rfl
    | suspended =>
      simp only [hGet, Except.ok.injEq] at hMove
      rw [← hMove]
      split_ifs with hEq
      · rw [hEq, hGet]
        rfl
      · rfl

theorem moveQueued_foldlM_members (hMove : keys.foldlM (moveQueued h) s = .ok s') (k : T.Member) :
    s'.members.get k = if k ∈ keys then (s.members.get k).map (moveEntry h)
        else s.members.get k := by
  induction keys generalizing s with
  | nil =>
    simp only [List.foldlM_nil, Except.pure_eq_ok] at hMove
    rw [← hMove, if_neg List.not_mem_nil]
  | cons key keys ih =>
    rw [List.foldlM_cons, Except.bind_eq_ok] at hMove
    rcases hMove with ⟨s₁, hFirst, hRest⟩
    rw [ih hRest, moveQueued_members hFirst]
    by_cases hKey : k = key
    · have hTwice : ((s.members.get k).map (moveEntry h)).map (moveEntry h)
            = (s.members.get k).map (moveEntry h) := by
        rw [Option.map_map]
        congr 1
        funext position
        exact moveEntry_moveEntry h position
      simp [hKey] at hTwice ⊢
      simp [hTwice]
    · simp [hKey]

/- The entries after a merge: moved, for the first page. -/
theorem mergeQueuePages_members {first second : QueuePage T}
    (hMerge : s.mergeQueuePages h h' first second = .ok s') (k : T.Member) :
    s'.members.get k = if k ∈ first.toList then
          (s.members.get k).map (moveEntry h')
        else s.members.get k := by
  rcases mergeQueuePages_eq_ok hMerge with ⟨s₁, keys, hFold, _, rfl⟩
  exact moveQueued_foldlM_members hFold k

theorem mergeQueuePages_pages {first second : QueuePage T}
    (hMerge : s.mergeQueuePages h h' first second = .ok s') :
    s'.queueHead = h' ∧ s'.queueTail = s.queueTail ∧ ∀ q, s'.queuePage q =
        if q = h' then first.toList ++ second.toList
        else if q = h then []
        else s.queuePage q := by
  rcases mergeQueuePages_eq_ok hMerge with ⟨s₁, keys, hFold, hKeys, rfl⟩
  rcases moveQueued_foldlM_frame hFold with ⟨members, rfl⟩
  refine ⟨rfl, rfl, ?_⟩
  intro q
  simp only [CollectionStore.queuePage, queueBlock, getD_insert, getD_remove]
  split_ifs
  · exact hKeys
  · rfl
  · rfl

theorem QueueIndexed.mergeQueuePages (hIndexed : QueueIndexed s)
    (hMerge : s.mergeQueuePagesAuthorized h h' = .ok s') :
    QueueIndexed s' := by
  rcases mergeQueuePagesAuthorized_eq_ok hMerge with ⟨rfl, hNext, hNe, hMerge⟩
  have hMembers := mergeQueuePages_members hMerge
  rcases mergeQueuePages_pages hMerge with ⟨hHead, hTail, hPages⟩
  rw [nextQueuePage_eq_cyclicNext] at hNext
  have hSpan := hIndexed.span
  have hDistinct : h' ≠ s.queueHead := by
    rw [hNext]
    exact cyclicNext_ne_self (by decide)
  have hSecond : InCyclicRange pageIndexCount s.queueHead s.queueTail
        h' := by
    rw [hNext]
    exact inCyclicRange_next_first hSpan.first_lt hSpan.last_lt hNe
  refine ⟨?_, ?_, ?_⟩
  · rw [hHead, hTail, hNext]
    apply CyclicSpan.next
    · apply hSpan.of_pages
      intro q hPage
      rw [hPages] at hPage
      split_ifs at hPage with hIs hOld
      · rw [hIs]
        exact Or.inr hSecond
      · exact absurd rfl hPage
      · exact Or.inl hPage
    · rw [hPages, if_neg hDistinct.symm, if_pos rfl]
    · exact hNe
  · intro q
    rw [hPages]
    split_ifs
    · apply (hIndexed.nodup s.queueHead).append (hIndexed.nodup h')
      intro key hFirst hOther
      exact hDistinct (hIndexed.page_unique hOther hFirst)
    · exact List.nodup_nil
    · exact hIndexed.nodup q
  · intro key q
    have hQueued : Queued s' key q ↔
          if key ∈ s.queuePage s.queueHead then q = h'
          else Queued s key q := by
      unfold Queued
      rw [hMembers]
      change (∃ t, (if key ∈ s.queuePage s.queueHead then _ else _) = _) ↔ _
      split_ifs with hMem
      · rcases (hIndexed.queued key _).mp hMem with ⟨t, hGet⟩
        simp [hGet, moveEntry, eq_comm]
      · rfl
    rw [hQueued, hPages]
    by_cases hMem : key ∈ s.queuePage s.queueHead
    · rw [if_pos hMem]
      split_ifs with hIs hOld
      · simp only [hIs, List.mem_append, iff_true]
        exact Or.inl hMem
      · simp [hIs]
      · simp only [hIs, iff_false]
        intro hOther
        exact hOld (hIndexed.page_unique hOther hMem)
    · rw [if_neg hMem, ← hIndexed.queued]
      split_ifs with hIs hOld
      · rw [List.mem_append, hIs]
        constructor
        · rintro (hFirst | hOther)
          · exact absurd hFirst hMem
          · exact hOther
        · exact Or.inr
      · rw [hOld]
        simp [hMem]
      · rfl

--
-- Onboarding
--

theorem queueFront_cases (s : CollectionStore T) (openSlots : Nat) :
    ((s.queuePage s.queueHead).length < openSlots ∧ s.queueHead ≠ s.queueTail ∧
        s.queueFront openSlots = (nextQueuePage s.queueHead, s.queuePage s.queueHead
            ++ s.queuePage (nextQueuePage s.queueHead)))
      ∨ s.queueFront openSlots = (s.queueHead, s.queuePage s.queueHead) := by
  by_cases hTwo : (s.queuePage s.queueHead).length < openSlots ∧ s.queueHead ≠ s.queueTail
  · left
    refine ⟨hTwo.1, hTwo.2, ?_⟩
    unfold queueFront
    simp only [if_pos hTwo]
  · right
    unfold queueFront
    simp only [if_neg hTwo]

theorem nextQueuePage_ne_self (q : PageIndex) : nextQueuePage q ≠ q := by
  rw [nextQueuePage_eq_cyclicNext]
  exact cyclicNext_ne_self (by decide)

theorem QueueIndexed.queueFront_nodup (hIndexed : QueueIndexed s) (openSlots : Nat) :
    (s.queueFront openSlots).2.Nodup := by
  rcases queueFront_cases s openSlots with ⟨_, _, hEq⟩ | hEq
  · rw [hEq]
    apply (hIndexed.nodup _).append (hIndexed.nodup _)
    intro key hFirst hSecond
    exact nextQueuePage_ne_self s.queueHead (hIndexed.page_unique hSecond hFirst)
  · rw [hEq]
    exact hIndexed.nodup _

theorem page_of_mem_queueFront (hMem : key ∈ (s.queueFront openSlots).2) :
    key ∈ s.queuePage s.queueHead ∨ key ∈ s.queuePage (s.queueFront openSlots).1 := by
  rcases queueFront_cases s openSlots with ⟨_, _, hEq⟩ | hEq
  · rw [hEq, List.mem_append] at hMem
    rw [hEq]
    exact hMem
  · rw [hEq] at hMem
    exact Or.inl hMem

/- The queue after the keys that were left over are put back. -/
theorem restoreQueue_pages (hFits : keys.length ≤ T.onboardingQueuePageSize)
    (hRestore : s.restoreQueue head keys = .ok s') :
    s'.queueTail = s.queueTail ∧ s'.queueHead = (if keys = [] ∧ head ≠ s.queueTail
          then nextQueuePage head else head) ∧
      ∀ q, s'.queuePage q =
        if q = head then keys
        else if q = s.queueHead then []
        else s.queuePage q := by
  unfold restoreQueue at hRestore
  simp only [if_neg (Nat.not_lt.mpr hFits)] at hRestore
  by_cases hNil : keys = []
  · simp only [hNil, ne_eq, not_true_eq_false, if_false, Except.ok.injEq] at hRestore
    rw [← hRestore]
    refine ⟨rfl, by simp [hNil], ?_⟩
    intro q
    simp only [CollectionStore.queuePage, queueBlock, getD_remove, hNil]
    split_ifs <;> rfl
  · simp only [ne_eq, hNil, not_false_eq_true, if_true, Except.bind_eq_ok, okOr_eq_ok_iff,
      BoundedVec.ofList?_eq_some_iff, Except.pure_eq_ok]
      at hRestore
    rcases hRestore with ⟨page, hPage, hEq⟩
    rw [← hEq]
    refine ⟨rfl, by simp [hNil], ?_⟩
    intro q
    simp only [CollectionStore.queuePage, queueBlock, getD_insert, getD_remove]
    split_ifs
    · exact hPage
    · rfl
    · rfl

variable {front : List T.Member}

/- The keys that are left over are from the page that the last onboarded key came from. -/
theorem queueFront_rest {n : Nat} (hFront : s.queueFront openSlots = (head, front))
    (hMin : n = min front.length openSlots) :
    (front.drop n).length ≤ T.onboardingQueuePageSize ∧
      (∀ key ∈ front.drop n, key ∈ s.queuePage head) ∧
      (∀ key ∈ front, key ∉ front.drop n → key ∈ front.take n) ∧
      (s.queueHead ≠ head → s.queueHead ≠ s.queueTail ∧ head = nextQueuePage s.queueHead ∧
          ∀ key ∈ s.queuePage s.queueHead, key ∈ front.take n) ∧
      ∀ key ∈ s.queuePage head, key ∈ front := by
  have hSplit : ∀ key ∈ front, key ∉ front.drop n → key ∈ front.take n := by
    intro key hMem hNot
    rw [← List.take_append_drop n front, List.mem_append] at hMem
    exact hMem.resolve_right hNot
  rcases queueFront_cases s openSlots with ⟨hLt, hNe, hEq⟩ | hEq
  · rw [hEq, Prod.mk.injEq] at hFront
    rcases hFront with ⟨rfl, rfl⟩
    rw [List.length_append] at hMin
    have hLe : (s.queuePage s.queueHead).length ≤ n := by
      omega
    have hPage := (s.queueBlock (nextQueuePage s.queueHead)).length_le
    rw [List.drop_append, List.drop_eq_nil_of_le hLe, List.nil_append]
    refine ⟨?_, ?_, ?_, ?_, ?_⟩
    · rw [List.length_drop]
      exact Nat.le_trans (Nat.sub_le _ _) hPage
    · intro key hMem
      exact List.mem_of_mem_drop hMem
    · rw [List.drop_append, List.drop_eq_nil_of_le hLe, List.nil_append] at hSplit
      exact hSplit
    · intro _
      refine ⟨hNe, rfl, ?_⟩
      intro key hMem
      rw [List.take_append, List.take_of_length_le hLe]
      exact List.mem_append_left _ hMem
    · intro key hMem
      exact List.mem_append_right _ hMem
  · rw [hEq, Prod.mk.injEq] at hFront
    rcases hFront with ⟨rfl, rfl⟩
    have hPage := (s.queueBlock s.queueHead).length_le
    refine ⟨?_, ?_, hSplit, ?_, ?_⟩
    · rw [List.length_drop]
      exact Nat.le_trans (Nat.sub_le _ _) hPage
    · intro key hMem
      exact List.mem_of_mem_drop hMem
    · intro hNe
      exact absurd rfl hNe
    · intro key hMem
      exact hMem

/- What is onboarded leaves the queue, the rest stays. -/
theorem QueueIndexed.restore {s₂ : CollectionStore T} {n : Nat} (hIndexed : QueueIndexed s)
    (hFront : s.queueFront openSlots = (head, front)) (hMin : n = min front.length openSlots)
    (hHead : s₂.queueHead = s.queueHead) (hTail : s₂.queueTail = s.queueTail)
    (hQueue : s₂.onboardingQueue = s.onboardingQueue)
    (hRestore : s₂.restoreQueue head (front.drop n) = .ok s')
    (hKept : ∀ key, key ∉ front.take n → s'.members.get key = s.members.get key)
    (hGone : ∀ key q, key ∈ front.take n → ¬ Queued s' key q) :
    QueueIndexed s' := by
  rcases queueFront_rest hFront hMin with ⟨hFits, hRest, hSplit, hTwo, hInFront⟩
  have hNodup := hIndexed.queueFront_nodup openSlots
  rw [hFront] at hNodup
  have hFrontPage : ∀ key ∈ front, key ∈ s.queuePage s.queueHead ∨ key ∈ s.queuePage head := by
    intro key hMem
    have hInFront : key ∈ (s.queueFront openSlots).2 := by
      rw [hFront]
      exact hMem
    have hPage := page_of_mem_queueFront hInFront
    rw [hFront] at hPage
    exact hPage
  rcases restoreQueue_pages hFits hRestore with ⟨hTail', hHead', hPages⟩
  have hPage₂ : s₂.queuePage = s.queuePage := by
    funext q
    unfold CollectionStore.queuePage queueBlock
    rw [hQueue]
  rw [hTail] at hTail' hHead'
  rw [hHead, hPage₂] at hPages
  have hSpan := hIndexed.span
  have hHeadRange : InCyclicRange pageIndexCount s.queueHead s.queueTail
        head := by
    by_cases hSame : s.queueHead = head
    · rw [← hSame]
      exact inCyclicRange_first hSpan.first_lt
    · rcases hTwo hSame with ⟨hNe, hNext, _⟩
      rw [hNext, nextQueuePage_eq_cyclicNext]
      exact inCyclicRange_next_first hSpan.first_lt hSpan.last_lt hNe
  have hOldSpan : CyclicSpan pageIndexCount s.queueHead s.queueTail
        s'.queuePage := by
    apply hSpan.of_pages
    intro q hPage
    rw [hPages] at hPage
    split_ifs at hPage with hIs hOld
    · rw [hIs]
      exact Or.inr hHeadRange
    · exact absurd rfl hPage
    · exact Or.inl hPage
  have hMidSpan : CyclicSpan pageIndexCount head s.queueTail
        s'.queuePage := by
    by_cases hSame : s.queueHead = head
    · rw [← hSame]
      exact hOldSpan
    · rcases hTwo hSame with ⟨hNe, hNext, _⟩
      rw [hNext, nextQueuePage_eq_cyclicNext]
      apply hOldSpan.next ?_ hNe
      rw [hPages, if_neg hSame, if_pos rfl]
  refine hIndexed.take _ ?_ ?_ ?_ hKept hGone
  · rw [hTail', hHead']
    split_ifs with hMove
    · rw [nextQueuePage_eq_cyclicNext]
      apply hMidSpan.next ?_ hMove.2
      rw [hPages, if_pos rfl]
      exact hMove.1
    · exact hMidSpan
  · intro q
    rw [hPages]
    split_ifs
    · exact hNodup.sublist (List.drop_sublist n front)
    · exact List.nodup_nil
    · exact hIndexed.nodup q
  · intro key q
    rw [hPages]
    split_ifs with hIs hOld
    · subst hIs
      constructor
      · intro hMem
        refine ⟨hRest key hMem, ?_⟩
        intro hTaken
        exact List.disjoint_take_drop hNodup (Nat.le_refl n) hTaken hMem
      · rintro ⟨hMem, hNot⟩
        by_contra hDropped
        exact hNot (hSplit key (hInFront key hMem) hDropped)
    · subst hOld
      have hAll := (hTwo hIs).2.2
      constructor
      · intro hMem
        exact absurd hMem List.not_mem_nil
      · rintro ⟨hMem, hNot⟩
        exact absurd (hAll key hMem) hNot
    · constructor
      · intro hMem
        refine ⟨hMem, ?_⟩
        intro hTaken
        rcases hFrontPage key (List.mem_of_mem_take hTaken) with hFirst | hSecond
        · exact hOld (hIndexed.page_unique hMem hFirst)
        · exact hIs (hIndexed.page_unique hMem hSecond)
      · exact fun hMem => hMem.1

/- The members of a batch wait in the queue, once each. -/
theorem QueueIndexed.onboardBatch {b : Bool} (hIndexed : QueueIndexed s)
    (hOnboard : s.onboardMembers true = .ok (b, s')) :
    s.onboardBatch.Nodup ∧ ∀ key ∈ s.onboardBatch, ∃ q, Queued s key q := by
  rcases onboardMembers_eq_ok hOnboard with
    ⟨info, s₁, top, head, front, n, filled, f, _, hTop, hFront, _, hBatch, _, _⟩
  have hAvailable := availableRing_frame hTop
  have hFront' : s.queueFront (info.ringSize.ringCapacity - top.fill) = (head, front) := by
    rw [← hFront, hAvailable]
    rfl
  have hNodup := hIndexed.queueFront_nodup (info.ringSize.ringCapacity - top.fill)
  rw [hFront'] at hNodup
  rw [hBatch]
  refine ⟨hNodup.sublist (List.take_sublist n front), ?_⟩
  intro key hMem
  have hInFront : key ∈ (s.queueFront (info.ringSize.ringCapacity - top.fill)).2 := by
    rw [hFront']
    exact List.mem_of_mem_take hMem
  rcases page_of_mem_queueFront hInFront with hFirst | hSecond
  · exact ⟨_, (hIndexed.queued key _).mp hFirst⟩
  · exact ⟨_, (hIndexed.queued key _).mp hSecond⟩

/- A placed member is included, and no longer queued. -/
theorem not_queued_of_placed {r : RingIndex} {start : Nat} {new : List T.Member}
    (hPlaced : Placed (T := T) s.members s'.members r start new) (hMem : key ∈ new)
    (q : PageIndex) :
    ¬ Queued s' key q := by
  rintro ⟨t, hGet⟩
  rcases List.getElem?_of_mem hMem with ⟨j, hKey⟩
  rw [hPlaced.1 j key hKey] at hGet
  simp at hGet

theorem QueueIndexed.onboardMembers {b : Bool} (hIndexed : QueueIndexed s)
    (hOnboard : s.onboardMembers true = .ok (b, s')) :
    QueueIndexed s' := by
  rcases onboardMembers_eq_ok hOnboard with ⟨info, s₁, top, head, front, n, filled, f, _, hTop,
      hFront, hShould, hBatch, hPlace, hRestore⟩
  have hAvailable := availableRing_frame hTop
  subst hAvailable
  rcases close_frame f top.ringIndex with ⟨ringKeys', hClose, _⟩
  have hMin := (shouldOnboardMembers_eq_some hShould).2.2.1
  have hMembers : s'.members = f.store.members := by
    rcases restoreQueue_frame hRestore with ⟨_, _, hEq⟩
    rw [hEq, hClose]
    rfl
  rcases placeKeys_frame hPlace with ⟨members, ringKeys, hStore, _⟩
  have hStore' : ((f.close top.ringIndex).recordAdditions top n filled).queueHead = s.queueHead ∧
        ((f.close top.ringIndex).recordAdditions top n filled).queueTail = s.queueTail ∧
        ((f.close top.ringIndex).recordAdditions top n
          filled).onboardingQueue = s.onboardingQueue := by
    rw [hClose, hStore]
    exact ⟨rfl, rfl, rfl⟩
  refine hIndexed.restore hFront hMin hStore'.1 hStore'.2.1 hStore'.2.2 hRestore ?_ ?_
  · intro key hNot
    rw [hMembers]
    exact (placeKeys_included hPlace key).2 hNot
  · rintro key q hMem ⟨t, hGet⟩
    rcases (placeKeys_included hPlace key).1 hMem with ⟨p, i, hIncluded⟩
    rw [hMembers, hIncluded] at hGet
    simp at hGet

--
-- Taking One Key out of a Page
--

theorem eraseIdx_of_idxOf? {α : Type} [DecidableEq α] {as : List α} {a : α} {idx : Nat}
    (hIdx : as.idxOf? a = some idx) :
    as.eraseIdx idx = as.erase a := by
  rw [List.erase_eq_eraseIdx, hIdx]

theorem QueueIndexed.takeKey (hIndexed : QueueIndexed s) (hQueued : Queued s key q)
    (hSpan : CyclicSpan pageIndexCount s'.queueHead s'.queueTail s'.queuePage)
    (hPages : ∀ q', s'.queuePage q' =
        if q' = q then (s.queuePage q).erase key
        else s.queuePage q')
    (hKept : ∀ k, k ≠ key → s'.members.get k = s.members.get k)
    (hGone : ∀ q, ¬ Queued s' key q) :
    QueueIndexed s' := by
  refine hIndexed.take [key] hSpan ?_ ?_ ?_ ?_
  · intro q'
    rw [hPages]
    split_ifs
    · exact (hIndexed.nodup q).erase key
    · exact hIndexed.nodup q'
  · intro k q'
    rw [hPages, List.mem_singleton]
    split_ifs with hEq
    · rw [(hIndexed.nodup q).mem_erase_iff, hEq]
      exact and_comm
    · constructor
      · intro hMem
        refine ⟨hMem, ?_⟩
        rintro rfl
        have hHere := (hIndexed.queued k q).mpr hQueued
        exact hEq (hIndexed.page_unique hMem hHere)
      · exact fun hMem => hMem.1
  · intro k hNot
    exact hKept k (List.mem_singleton.not.mp hNot)
  · intro k q' hMem
    rw [List.mem_singleton.mp hMem]
    exact hGone q'

theorem removeFromQueuePage_pages {idx : Nat} (hIdx : (s.queuePage q).idxOf? key = some idx) :
    (s.removeFromQueuePage q idx).queueTail = s.queueTail ∧
      (s.removeFromQueuePage q idx).queueHead = (if (s.queuePage q).erase key = []
            ∧ s.queueHead = q ∧ s.queueHead ≠ s.queueTail
          then nextQueuePage s.queueHead
          else s.queueHead) ∧
      ∀ q', (s.removeFromQueuePage q idx).queuePage q' =
        if q' = q then (s.queuePage q).erase key
        else s.queuePage q' := by
  have hErase := eraseIdx_of_idxOf? hIdx
  unfold removeFromQueuePage
  by_cases hEmpty : ((s.queueBlock q).eraseIdx idx).isEmpty = true
  · have hNil : (s.queuePage q).erase key = [] := by
      rw [← hErase]
      exact (BoundedVec.isEmpty_iff _).mp hEmpty
    simp only [if_pos hEmpty, hNil, true_and]
    refine ⟨?_, ?_⟩
    · split_ifs with hMove
      · rw [hMove.1]
      · rfl
    · intro q'
      simp only [CollectionStore.queuePage, queueBlock, getD_remove]
      split_ifs <;> rfl
  · have hNe : (s.queuePage q).erase key ≠ [] := by
      rw [← hErase]
      intro hNil
      exact hEmpty ((BoundedVec.isEmpty_iff _).mpr hNil)
    simp only [if_neg hEmpty, hNe, false_and, if_false]
    refine ⟨trivial, trivial, ?_⟩
    intro q'
    simp only [CollectionStore.queuePage, queueBlock, getD_insert]
    split_ifs
    · exact hErase
    · rfl

/- A self-inclusion takes one key out of its page. -/
theorem doSelfInclude_queue (hInclude : s.doSelfInclude key = .ok s') :
    ∃ q t r p i, s.members.get key = some (.onboarding q t) ∧
        s'.members = s.members.insert key (.included r p i) ∧
        s'.queueTail = s.queueTail ∧
        s'.queueHead = (if (s.queuePage q).erase key = []
              ∧ s.queueHead = q ∧ s.queueHead ≠ s.queueTail
            then nextQueuePage s.queueHead
            else s.queueHead) ∧
        ∀ q', s'.queuePage q' =
          if q' = q then (s.queuePage q).erase key
          else s.queuePage q' := by
  rcases doSelfInclude_eq_ok hInclude with
    ⟨info, q, t, idx, s₂, top, keys, _, _, hGet, hIdx, hTop, _, rfl⟩
  have hAvailable := availableRing_frame hTop
  subst hAvailable
  rcases removeFromQueuePage_pages hIdx with ⟨hTail, hHead, hPages⟩
  rcases removeFromQueuePage_frame s q idx with ⟨head, queue, hRemove⟩
  refine ⟨q, t, top.ringIndex, top.pageIndex, top.keys.length, hGet, ?_, hTail, hHead, hPages⟩
  simp only [recordAdditions, hRemove]

theorem QueueIndexed.doSelfInclude (hIndexed : QueueIndexed s)
    (hInclude : s.doSelfInclude key = .ok s') :
    QueueIndexed s' := by
  rcases doSelfInclude_queue hInclude with ⟨q, t, r, p, i, hGet, hMembers, hTail, hHead, hPages⟩
  have hSpan : CyclicSpan pageIndexCount s.queueHead s.queueTail
        s'.queuePage := by
    apply hIndexed.span.of_pages
    intro q' hNe
    left
    intro hNil
    apply hNe
    rw [hPages]
    split_ifs with hEq
    · rw [← hEq, hNil]
      rfl
    · exact hNil
  refine hIndexed.takeKey ⟨t, hGet⟩ ?_ hPages ?_ ?_
  · rw [hTail, hHead]
    split_ifs with hMove
    · rcases hMove with ⟨hNil, hIs, hNe⟩
      rw [nextQueuePage_eq_cyclicNext]
      apply hSpan.next ?_ hNe
      rw [hPages, if_pos hIs]
      exact hNil
    · exact hSpan
  · intro k hNe
    rw [hMembers]
    exact get_insert_of_ne _ _ hNe
  · rintro q' ⟨t', hGet'⟩
    rw [hMembers] at hGet'
    simp at hGet'

--
-- Suspensions
--

theorem suspendQueued_pages (hMem : key ∈ s.queuePage q) (q' : PageIndex) :
    (s.suspendQueued q key).queuePage q' =
      if q' = q then (s.queuePage q).erase key
      else s.queuePage q' := by
  unfold suspendQueued
  cases hIdx : (s.queuePage q).idxOf? key with
  | none =>
    rw [List.idxOf?_eq_none_iff] at hIdx
    exact absurd hMem hIdx
  | some idx =>
    simp only [CollectionStore.queuePage, queueBlock, getD_insert]
    split_ifs
    · exact eraseIdx_of_idxOf? hIdx
    · rfl

theorem suspendQueued_frame (s : CollectionStore T) (q : PageIndex) (key : T.Member) :
    ∃ queue, s.suspendQueued q key = { s with onboardingQueue := queue } := by
  unfold suspendQueued
  split
  · exact ⟨_, rfl⟩
  · exact ⟨_, rfl⟩

theorem QueueIndexed.suspendMember (hIndexed : QueueIndexed s)
    (hSuspend : CollectionStore.suspendMember s key = .ok s') :
    QueueIndexed s' := by
  have hOther : (∀ q, ¬ Queued s key q) → ∀ k q, (∃ t, (s.members.insert key .suspended).get k
            = some (.onboarding q t)) ↔ Queued s k q := by
    intro hFree k q
    simp only [get_insert]
    split_ifs with hEq
    · rw [hEq]
      simp [hFree q]
    · rfl
  rcases suspendMember_cases hSuspend with ⟨r, p, i, indices, hGet, _, _, rfl⟩ | ⟨q, t, hGet, hEq⟩
      | ⟨hGet, rfl⟩
  · refine hIndexed.frame rfl rfl rfl (hOther ?_)
    rintro q ⟨t, hQueued⟩
    simp [hGet] at hQueued
  · have hMem := (hIndexed.queued key q).mpr ⟨t, hGet⟩
    have hPages : ∀ q', s'.queuePage q' =
          if q' = q then (s.queuePage q).erase key
          else s.queuePage q' := by
      intro q'
      rw [hEq]
      exact suspendQueued_pages hMem q'
    have hFrame : s'.queueHead = s.queueHead ∧ s'.queueTail = s.queueTail ∧
          s'.members = s.members.insert key .suspended := by
      rcases suspendQueued_frame s q key with ⟨queue, hQueue⟩
      rw [hEq, hQueue]
      exact ⟨rfl, rfl, rfl⟩
    rcases hFrame with ⟨hHead, hTail, hMembers⟩
    refine hIndexed.takeKey ⟨t, hGet⟩ ?_ hPages ?_ ?_
    · rw [hHead, hTail]
      apply hIndexed.span.of_pages
      intro q' hNe
      left
      intro hNil
      apply hNe
      rw [hPages]
      split_ifs with hIs
      · rw [← hIs, hNil]
        rfl
      · exact hNil
    · intro k hNe
      rw [hMembers]
      exact get_insert_of_ne _ _ hNe
    · rintro q' ⟨t', hGet'⟩
      rw [hMembers] at hGet'
      simp at hGet'
  · refine hIndexed.frame rfl rfl rfl (hOther ?_)
    rintro q ⟨t, hQueued⟩
    simp [hGet] at hQueued

end Individuality.MembersPallet
