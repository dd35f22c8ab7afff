import Individuality.MembersPallet.QueueOrder

/-
  The pages of the onboarding queue behind its head.  They hold keys as long as no self-inclusion
  and no suspension takes the last key of such a page: only the head page may be empty then.

  Main declaration: `PalletState.next_page_filled`
-/

namespace Individuality.MembersPallet

variable {T : Config} {s s' : CollectionStore T} {key : T.Member}

open CollectionStore

--
-- Pages behind the First One
--

/- Every page after the first one, up to the last, is filled. -/
structure FilledBehind {α : Type} (m first last : Nat) (page : Nat → List α) : Prop where
  first_lt : first < m
  last_lt : last < m
  filled : ∀ q, InCyclicRange m first last q → q ≠ first → page q ≠ []

namespace FilledBehind

variable {α : Type} {m first last : Nat} {page page' : Nat → List α}

theorem single (hLt : first < m) : FilledBehind m first first page :=
  ⟨hLt, hLt, fun _ hRange hNe =>
    absurd ((inCyclicRange_self_iff hLt).mp hRange) hNe⟩

theorem of_pages (hFilled : FilledBehind m first last page)
    (hPages : ∀ q, InCyclicRange m first last q → q ≠ first → page q ≠ [] → page' q ≠ []) :
    FilledBehind m first last page' :=
  ⟨hFilled.first_lt, hFilled.last_lt, fun q hRange hNe =>
      hPages q hRange hNe (hFilled.filled q hRange hNe)⟩

/- The page after the first one becomes the first. -/
theorem next (hFilled : FilledBehind m first last page) (hNe : first ≠ last) :
    FilledBehind m (cyclicNext m first) last page := by
  have hPos : 0 < m := Nat.zero_lt_of_lt hFilled.first_lt
  refine ⟨cyclicNext_lt hPos, hFilled.last_lt, ?_⟩
  intro q hRange _
  rw [inCyclicRange_next_left_iff hFilled.first_lt hFilled.last_lt hNe] at hRange
  exact hFilled.filled q hRange.1 hRange.2

/- A new last page is written with an element on it. -/
theorem push (hFilled : FilledBehind m first last page) (hRoom : cyclicNext m last ≠ first)
    (hLast : page' (cyclicNext m last) ≠ []) (hPages : ∀ q, page q ≠ [] → page' q ≠ []) :
    FilledBehind m first (cyclicNext m last) page' := by
  have hPos : 0 < m := Nat.zero_lt_of_lt hFilled.first_lt
  refine ⟨hFilled.first_lt, cyclicNext_lt hPos, ?_⟩
  intro q hRange hNe
  rw [inCyclicRange_next_right_iff hFilled.first_lt hFilled.last_lt hRoom] at hRange
  rcases hRange with hOld | hIs
  · exact hPages q (hFilled.filled q hOld hNe)
  · rw [hIs]
    exact hLast

theorem next_ne_nil (hFilled : FilledBehind m first last page) (hNe : first ≠ last) (hTwo : 1 < m) :
    page (cyclicNext m first) ≠ [] :=
  hFilled.filled _ (inCyclicRange_next_first hFilled.first_lt hFilled.last_lt hNe)
    (cyclicNext_ne_self hTwo)

end FilledBehind

--
-- The Invariant
--

abbrev PagesFilled (s : CollectionStore T) : Prop :=
  FilledBehind pageIndexCount s.queueHead s.queueTail s.queuePage

theorem pagesFilled_empty :
    PagesFilled (CollectionStore.empty : CollectionStore T) :=
  FilledBehind.single (Nat.succ_pos _)

theorem PagesFilled.frame (hFilled : PagesFilled s) (hHead : s'.queueHead = s.queueHead)
    (hTail : s'.queueTail = s.queueTail) (hQueue : s'.onboardingQueue = s.onboardingQueue) :
    PagesFilled s' := by
  have hPage : s'.queuePage = s.queuePage := by
    funext q
    unfold CollectionStore.queuePage queueBlock
    rw [hQueue]
  unfold PagesFilled
  rw [hHead, hTail, hPage]
  exact hFilled

/-
  The operation takes the last key of no page behind the head: a member that includes itself is not
  alone on such a page, and a suspension leaves a key on it.
-/
def KeepsPagesFilled (s : CollectionStore T) : Op T → Prop
  | .selfInclude _ _ member _ =>
    ∀ q t, s.members.get member = some (.onboarding q t) →
      q ≠ s.queueHead → s.queuePage q ≠ [member]
  | .removeMembers keys =>
    ∀ q, q ≠ s.queueHead → s.queuePage q ≠ [] → ∃ key ∈ s.queuePage q, key ∉ keys
  | _ => True

--
-- Adding, Merging and Onboarding
--

theorem PagesFilled.addMember {now : Nat} (hFilled : PagesFilled s)
    (hAdd : CollectionStore.addMember now s key = .ok s') :
    PagesFilled s' := by
  have hPush := (addMember_eq_ok hAdd).2
  unfold pushToOnboardingQueue at hPush
  cases hTail : (s.queueBlock s.queueTail).tryPush key with
  | some keys =>
    simp only [hTail, Except.ok.injEq] at hPush
    rw [← hPush]
    rw [BoundedVec.tryPush_eq_some_iff] at hTail
    refine FilledBehind.of_pages hFilled ?_
    intro q _ _ hOld
    rw [queuePage_writeQueueTail]
    split_ifs
    · rw [hTail]
      exact List.concat_ne_nil _ _
    · exact hOld
  | none =>
    simp only [hTail, Except.bind_eq_ok, ensure_eq_ok_iff,
      okOr_eq_ok_iff, BoundedVec.ofList?_eq_some_iff,
      Except.pure_eq_ok] at hPush
    rcases hPush with ⟨_, hRoom, keys, hKeys, hEq⟩
    rw [nextQueuePage_eq_cyclicNext] at hRoom hEq
    rw [← hEq]
    refine FilledBehind.push hFilled hRoom ?_ ?_
    · rw [queuePage_writeQueueTail, if_pos rfl, hKeys]
      exact List.cons_ne_nil _ _
    · intro q hOld
      rw [queuePage_writeQueueTail]
      split_ifs
      · rw [hKeys]
        exact List.cons_ne_nil _ _
      · exact hOld

theorem PagesFilled.mergeQueuePages {h h' : PageIndex} (hFilled : PagesFilled s)
    (hMerge : s.mergeQueuePagesAuthorized h h' = .ok s') :
    PagesFilled s' := by
  rcases mergeQueuePagesAuthorized_eq_ok hMerge with ⟨rfl, hNext, hNe, hMerge⟩
  rcases mergeQueuePages_pages hMerge with ⟨hHead, hTail, hPages⟩
  rw [nextQueuePage_eq_cyclicNext] at hNext
  subst hNext
  unfold PagesFilled
  rw [hHead, hTail]
  refine (FilledBehind.next hFilled hNe).of_pages ?_
  intro q hRange hNotHead hOld
  rw [inCyclicRange_next_left_iff hFilled.first_lt hFilled.last_lt hNe] at hRange
  rw [hPages, if_neg hNotHead, if_neg hRange.2]
  exact hOld

/- The page that the front of the queue ends on. -/
theorem PagesFilled.front {openSlots : Nat} {head : PageIndex} {front : List T.Member}
    (hFilled : PagesFilled s) (hFront : s.queueFront openSlots = (head, front)) :
    FilledBehind pageIndexCount head s.queueTail s.queuePage ∧
      ∀ q, InCyclicRange pageIndexCount head s.queueTail q → q ≠ head → q ≠ s.queueHead := by
  rcases queueFront_cases s openSlots with ⟨_, hNe, hEq⟩ | hEq
  · rw [hEq, Prod.mk.injEq] at hFront
    rw [← hFront.1, nextQueuePage_eq_cyclicNext]
    refine ⟨FilledBehind.next hFilled hNe, ?_⟩
    intro q hRange _
    rw [inCyclicRange_next_left_iff hFilled.first_lt hFilled.last_lt hNe] at hRange
    exact hRange.2
  · rw [hEq, Prod.mk.injEq] at hFront
    rw [← hFront.1]
    exact ⟨hFilled, fun _ _ hNe => hNe⟩

theorem PagesFilled.onboardMembers {b : Bool} (hFilled : PagesFilled s)
    (hOnboard : s.onboardMembers true = .ok (b, s')) :
    PagesFilled s' := by
  rcases onboardMembers_eq_ok hOnboard with ⟨info, s₁, top, head, front, n, filled, f, _, hTop,
      hFront, hShould, _, hPlace, hRestore⟩
  have hAvailable := availableRing_frame hTop
  subst hAvailable
  have hMin := (shouldOnboardMembers_eq_some hShould).2.2.1
  have hFits := (queueFront_rest hFront hMin).1
  rcases close_frame f top.ringIndex with ⟨ringKeys', hClose, _⟩
  rcases placeKeys_frame hPlace with ⟨members, ringKeys, hStore, _⟩
  rcases restoreQueue_pages hFits hRestore with ⟨hTail, hHead, hPages⟩
  simp only [recordAdditions, hClose, hStore] at hTail hHead
  have hOther : ∀ q, q ≠ head → q ≠ s.queueHead → s'.queuePage q = s.queuePage q := by
    intro q hNe hNotOld
    rw [hPages q, if_neg hNe]
    simp only [recordAdditions, hClose, hStore, if_neg hNotOld]
    rfl
  have hFrom : PagesFilled s := hFilled
  rcases hFrom.front hFront with ⟨hBehind, hNotHead⟩
  have hAfter : FilledBehind pageIndexCount head s.queueTail
        s'.queuePage := by
    refine hBehind.of_pages ?_
    intro q hRange hNe hOld
    rw [hOther q hNe (hNotHead q hRange hNe)]
    exact hOld
  unfold PagesFilled
  rw [hTail, hHead]
  split_ifs with hMove
  · rw [nextQueuePage_eq_cyclicNext]
    exact hAfter.next hMove.2
  · exact hAfter

--
-- Taking Single Keys
--

/- A page is empty without a key when it held only that key. -/
theorem eq_singleton_of_erase {α : Type} [DecidableEq α] {as : List α} {a : α} (hNe : as ≠ [])
    (hErase : as.erase a = []) :
    as = [a] := by
  have hLength := List.length_erase (a := a) (l := as)
  by_cases hMem : a ∈ as
  · rw [hErase, if_pos hMem, List.length_nil] at hLength
    have hPos : 0 < as.length := List.length_pos_iff.mpr hNe
    rcases List.length_eq_one_iff.mp (show as.length = 1 by omega) with ⟨b, rfl⟩
    rw [List.mem_singleton.mp hMem]
  · rw [List.erase_of_not_mem hMem] at hErase
    exact absurd hErase hNe

theorem PagesFilled.doSelfInclude (hFilled : PagesFilled s)
    (hKeeps : ∀ q t, s.members.get key = some (.onboarding q t) →
        q ≠ s.queueHead → s.queuePage q ≠ [key])
    (hInclude : s.doSelfInclude key = .ok s') :
    PagesFilled s' := by
  rcases doSelfInclude_queue hInclude with ⟨q, t, r, p, i, hGet, _, hTail, hHead, hPages⟩
  have hAfter : FilledBehind pageIndexCount s.queueHead s.queueTail
        s'.queuePage := by
    refine FilledBehind.of_pages hFilled ?_
    intro q' _ hNe hOld
    rw [hPages]
    split_ifs with hIs
    · subst hIs
      exact fun hErase => hKeeps q' t hGet hNe (eq_singleton_of_erase hOld hErase)
    · exact hOld
  unfold PagesFilled
  rw [hTail, hHead]
  split_ifs with hMove
  · rw [nextQueuePage_eq_cyclicNext]
    exact hAfter.next hMove.2.2
  · exact hAfter

/- A suspension takes its own key from the queue at most. -/
theorem suspendMember_queue (hSuspend : suspendMember s key = .ok s') :
    s'.queueHead = s.queueHead ∧ s'.queueTail = s.queueTail ∧
      ∀ k q, k ≠ key → k ∈ s.queuePage q → k ∈ s'.queuePage q := by
  rcases suspendMember_cases hSuspend with ⟨_, _, _, _, _, _, _, rfl⟩ | ⟨q, t, _, hEq⟩ | ⟨_, rfl⟩
  · exact ⟨rfl, rfl, fun _ _ _ hMem => hMem⟩
  · rcases suspendQueued_frame s q key with ⟨queue, hQueue⟩
    refine ⟨?_, ?_, ?_⟩
    · rw [hEq, hQueue]
    · rw [hEq, hQueue]
    · intro k q' hNe hMem
      have hPage : s'.queuePage q' = (s.suspendQueued q key).queuePage q' := by
        rw [hEq]
        rfl
      rw [hPage]
      by_cases hHere : key ∈ s.queuePage q
      · rw [suspendQueued_pages hHere]
        split_ifs with hIs
        · rw [← hIs]
          exact (List.mem_erase_of_ne hNe).mpr hMem
        · exact hMem
      · have hNone : (s.queuePage q).idxOf? key = none := List.idxOf?_eq_none_iff.mpr hHere
        unfold suspendQueued
        rw [hNone]
        exact hMem
  · exact ⟨rfl, rfl, fun _ _ _ hMem => hMem⟩

theorem PagesFilled.queueMemberSuspensions {keys : List T.Member} (hFilled : PagesFilled s)
    (hKeeps : ∀ q, q ≠ s.queueHead → s.queuePage q ≠ [] → ∃ key ∈ s.queuePage q, key ∉ keys)
    (hQueue : s.queueMemberSuspensions keys = .ok s') :
    PagesFilled s' := by
  have hKept : s'.queueHead = s.queueHead ∧ s'.queueTail = s.queueTail ∧
        ∀ k q, k ∉ keys → k ∈ s.queuePage q → k ∈ s'.queuePage q := by
    refine List.foldlM_invariant (fun x => x.queueHead = s.queueHead ∧
        x.queueTail = s.queueTail ∧
        ∀ k q, k ∉ keys → k ∈ s.queuePage q → k ∈ x.queuePage q)
      (queueMemberSuspensions_eq_ok hQueue).2 ?_
      ⟨rfl, rfl, fun _ _ _ hMem => hMem⟩
    rintro x key y hKey hStep ⟨hHead, hTail, hPages⟩
    rcases suspendMember_queue hStep with ⟨hHead', hTail', hPages'⟩
    refine ⟨hHead'.trans hHead, hTail'.trans hTail, ?_⟩
    intro k q hNot hMem
    refine hPages' k q ?_ (hPages k q hNot hMem)
    rintro rfl
    exact hNot hKey
  rcases hKept with ⟨hHead, hTail, hPages⟩
  unfold PagesFilled
  rw [hHead, hTail]
  refine FilledBehind.of_pages hFilled ?_
  intro q _ hNe hOld
  rcases hKeeps q hNe hOld with ⟨key, hMem, hNot⟩
  exact List.ne_nil_of_mem (hPages key q hNot hMem)

--
-- Every Operation
--

theorem PagesFilled.apply {call : TimedOp T} (hSuspended : s.suspendedCollection = none)
    (hKeeps : KeepsPagesFilled s call.op) (hFilled : PagesFilled s)
    (hApply : s.apply call = .ok s') :
    PagesFilled s' := by
  have hLive : s.suspendedCollection.isSome = false := by
    rw [hSuspended]
    rfl
  rcases call with ⟨now, op⟩
  cases op with
  | createCollection owner size mode ringSize delay =>
    rcases createCollection_eq_ok hApply with ⟨_, _, _, _, rfl⟩
    exact hFilled.frame rfl rfl rfl
  | addMembers keys =>
    refine List.foldlM_invariant PagesFilled (addMembers_eq_ok hApply).2 ?_ hFilled
    intro x key y _ hStep hBefore
    exact PagesFilled.addMember hBefore hStep
  | removeRing r =>
    rcases removeRing_eq_ok hApply with ⟨_, _, ⟨_, rfl⟩ | ⟨_, rfl⟩⟩
    · exact hFilled
    · rcases enqueueRingForDeletion_eq s now r with ⟨_, _, _, _, _, _, hEq⟩
      rw [hEq]
      exact hFilled.frame rfl rfl rfl
  | deleteCollection owner =>
    rcases deleteCollection_eq_ok hApply with ⟨_, _, rfl⟩
    exact hFilled.frame rfl rfl rfl
  | removeMembers keys =>
    exact hFilled.queueMemberSuspensions hKeeps hApply
  | startRemovalSession =>
    rcases startRemovalSession_eq_ok hApply with ⟨_, rfl, _⟩
    exact hFilled.frame rfl rfl rfl
  | endRemovalSession =>
    rcases endRemovalSession_eq_ok hApply with ⟨_, rfl, _⟩
    exact hFilled.frame rfl rfl rfl
  | mergeRings b t =>
    rcases mergeRings_eq_ok hApply with
      ⟨_, _, _, _, _, _, _, _, _, _, _, _, _, _, _, _, _, _, _, _, _, rfl⟩
    exact hFilled.frame rfl rfl rfl
  | setOnboardingSize size =>
    rw [setOnboardingSize_eq_ok hApply]
    exact hFilled.frame rfl rfl rfl
  | selfInclude signature message member callValidAt =>
    exact hFilled.doSelfInclude hKeeps (selfInclude_eq_ok hApply)
  | buildRing ready r ringExponent revision toInclude =>
    rcases buildRing_eq_ok (buildRingAuthorized_eq_ok hApply).2.2.2 with
      ⟨_, _, _, _, _, _, _, _, _, _, rfl⟩
    exact hFilled.frame rfl rfl rfl
  | onboardMembers r head first =>
    rcases onboardMembersAuthorized_eq_ok hApply with ⟨b, hOnboard⟩
    exact hFilled.onboardMembers hOnboard
  | mergeQueuePages h h' =>
    exact hFilled.mergeQueuePages hApply
  | removeSuspendedKeys r revision =>
    rw [(removeSuspendedKeysAuthorized_eq_ok hApply).2.2.2]
    cases hInfo : s.collection with
    | none =>
      unfold removeSuspendedKeys
      rw [hInfo]
      exact hFilled
    | some info =>
      rcases removeSuspendedKeys_eq now r hInfo with ⟨_, _, _, _, _, _, hEq⟩
      rw [hEq]
      exact hFilled.frame rfl rfl rfl
  | deleteRingPage r p =>
    rcases deleteRingPageAuthorized_eq_ok hApply with ⟨_, rfl⟩
    exact hFilled.frame rfl rfl rfl
  | enqueueRingDeletion r =>
    have hSome := (enqueueRingDeletionAuthorized_eq_ok hApply).1
    rw [hLive] at hSome
    exact absurd hSome Bool.false_ne_true
  | deleteOnboardingQueuePage p =>
    have hSome := (deleteOnboardingQueuePageAuthorized_eq_ok hApply).1
    rw [hLive] at hSome
    exact absurd hSome Bool.false_ne_true
  | finalizeCollectionDeletion =>
    have hSome := (finalizeCollectionDeletion_eq_ok hApply).1
    rw [hLive] at hSome
    exact absurd hSome Bool.false_ne_true
  | removeOrphanedMembers =>
    rcases removeOrphanedMembers_eq_ok hApply with ⟨_, _, rfl⟩
    exact hFilled.frame rfl rfl rfl
  | markRingStale r =>
    rw [markRingStale_eq_ok hApply]
    exact hFilled.frame rfl rfl rfl
  | cleanUpOldRoots r limit =>
    rcases cleanUpOldRoots_eq_ok hApply with ⟨_, rfl⟩
    exact hFilled.frame rfl rfl rfl

--
-- Runs
--

namespace PalletState

/- No operation empties a page behind the head of a queue. -/
def PagesKeptFilled (id : Identifier) (s : PalletState T) (o : PalletOp T)
    (_ : PalletState T) : Prop :=
  o.identifier = id → KeepsPagesFilled (s.stores id) o.call.op

/-
  In a run without such an operation, the page after the head of the queue of a live collection
  holds a key whenever the queue spans more than one page.
-/
theorem next_page_filled (id : Identifier) (s : PalletState T)
    (hRun : RunUnder dispatch (PagesKeptFilled id) genesis s)
    (hLive : (s.stores id).collection.isSome = true)
    (hPages : (s.stores id).queueHead ≠ (s.stores id).queueTail) :
    (s.stores id).queuePage (nextQueuePage (s.stores id).queueHead) ≠ [] := by
  have hUsable : (s.stores id).collection = none → (s.stores id).retired = false := by
    intro hNone
    rw [hNone] at hLive
    exact absurd hLive Bool.false_ne_true
  have hFilled : PagesFilled (s.stores id) := by
    refine (store_invariant_of_run (fun id' store => Lifecycle store ∧
        (id' = id → (store.collection = none → store.retired = false) → PagesFilled store))
      hRun ?_
      (fun _ => ⟨lifecycle_empty, fun _ _ => pagesFilled_empty⟩)
      id).2 rfl hUsable
    rintro s s' o store hAllowed hApply _ ⟨hLife, hOld⟩
    have hEffect := ringEffect_of_apply hApply
    refine ⟨hEffect.lifecycle hLife, ?_⟩
    intro hId hUsable'
    have hUsable₀ := hEffect.usable_before hUsable'
    refine PagesFilled.apply (hLife.not_suspended hUsable₀) ?_ (hOld hId hUsable₀) hApply
    rw [hId]
    exact hAllowed hId
  rw [nextQueuePage_eq_cyclicNext]
  exact hFilled.next_ne_nil hPages (by decide)

--
-- Sample Runs
--

/- The members fill one page and put one key on the next. -/
def twoPageOps : List (TimedOp sampleConfig) :=
  [⟨0, .createCollection () 1 .flexible .r2e9 (some 0)⟩, ⟨0, .addMembers (List.range 256)⟩]

/- A self-inclusion leaves another key on its page. -/
def leavingKeys (s : PalletState sampleConfig) (o : PalletOp sampleConfig) : Bool :=
  let store := s.stores sampleIdentifier
  match o.call.op with
  | .selfInclude _ _ member _ =>
    match store.members.get member with
    | some (.onboarding q _) => store.queuePage q ≠ [member]
    | _ => true
  | .removeMembers _ => false
  | _ => true

theorem pagesKeptFilled_of_leavingKeys (s : PalletState sampleConfig) (o : PalletOp sampleConfig)
    (s' : PalletState sampleConfig) (hLeaving : leavingKeys s o = true) :
    PagesKeptFilled sampleIdentifier s o s' := by
  intro _
  rcases o with ⟨id, now, op⟩
  cases op with
  | selfInclude signature message member callValidAt =>
    intro q t hGet _
    simp only [leavingKeys, hGet, decide_eq_true_eq] at hLeaving
    exact hLeaving
  | removeMembers keys =>
    simp [leavingKeys] at hLeaving
  | _ => exact trivial

theorem next_page_filled_sample : ∃ s : PalletState sampleConfig,
      (s.stores sampleIdentifier).queueHead = 0 ∧ (s.stores sampleIdentifier).queueTail = 1 ∧
        (s.stores sampleIdentifier).queuePage (nextQueuePage 0) ≠ [] := by
  have hTest : (performAll leavingKeys (twoPageOps ++ [⟨0, .selfInclude () () (0 : Nat) 0⟩])).any
        (fun s =>
          let store := s.stores sampleIdentifier
          store.collection.isSome = true ∧ store.queueHead = 0 ∧ store.queueTail = 1)
        = true := by
    decide +kernel
  have hReached : ∃ s, RunUnder dispatch (PagesKeptFilled sampleIdentifier) genesis s ∧ _ :=
    exists_run_of_execute (fun s o s' hLeaving _ => pagesKeptFilled_of_leavingKeys s o s' hLeaving)
      hTest
  rcases hReached with ⟨s, hRun, hStore⟩
  rw [decide_eq_true_eq] at hStore
  rcases hStore with ⟨hLive, hHead, hTail⟩
  refine ⟨s, hHead, hTail, ?_⟩
  have hNext := next_page_filled sampleIdentifier s hRun hLive (by
      rw [hHead, hTail]
      exact Nat.zero_ne_one)
  rw [hHead] at hNext
  exact hNext

/-
  The only member on the second page includes itself.  The
  queue still ends on that page, which is empty now.
-/
theorem next_page_empty : ∃ s : PalletState sampleConfig,
      RunUnder dispatch (fun _ _ _ => True) genesis s ∧
        (s.stores sampleIdentifier).collection.isSome = true ∧
        (s.stores sampleIdentifier).queueHead = 0 ∧
        (s.stores sampleIdentifier).queueTail = 1 ∧
        (s.stores sampleIdentifier).queuePage (nextQueuePage 0) = [] := by
  have hTest : (performAll (fun _ _ => true)
        (twoPageOps ++ [⟨0, .selfInclude () () (255 : Nat) 0⟩])).any
        (fun s =>
          let store := s.stores sampleIdentifier
          store.collection.isSome = true ∧ store.queueHead = 0 ∧ store.queueTail = 1
            ∧ store.queuePage (nextQueuePage 0) = [])
        = true := by
    decide +kernel
  have hReached : ∃ s, RunUnder dispatch (fun _ _ _ => True) genesis s ∧ _ :=
    exists_run_of_execute (fun _ _ _ _ _ => trivial) hTest
  rcases hReached with ⟨s, hRun, hStore⟩
  rw [decide_eq_true_eq] at hStore
  exact ⟨s, hRun, hStore⟩

end PalletState

end Individuality.MembersPallet
