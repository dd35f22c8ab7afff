import Individuality.MembersPallet.QueueIndex
import Individuality.MembersPallet.RingRoots

/-
  Where a batch of members is placed: after the keys of the current ring, page by page, with the
  entries of the batch naming their pages and positions.

  Main declaration: `PlacedFrom`
-/

namespace Individuality.MembersPallet

variable {T : Config} {r : RingIndex} {key : T.Member} {new : List T.Member}
variable {s s' : CollectionStore T}

open CollectionStore

--
-- Placing Keys Page by Page
--

/- The keys `new` were placed in ring `r` from number `start` on, and no other entry changed. -/
def PlacedFrom (members members' : StorageMap T.Member RingPosition) (r : RingIndex) (start : Nat)
    (new : List T.Member) : Prop :=
  (∀ j key, new[j]? = some key → members'.get key = some (.included r
          ((start + j) / T.flexibleRingCapacity)
          ((start + j) % T.flexibleRingCapacity))) ∧
    ∀ key, key ∉ new → members'.get key = members.get key

theorem placedFrom_nil (members : StorageMap T.Member RingPosition) (r : RingIndex) (start : Nat) :
    PlacedFrom (T := T) members members r start [] := by
  refine ⟨?_, fun _ _ => rfl⟩
  intro j key hKey
  simp at hKey

theorem placedFrom_cons {members members' : StorageMap T.Member RingPosition} {start : Nat}
    (hNot : key ∉ new)
    (hRest : PlacedFrom (T := T) (members.insert key (.included r (start / T.flexibleRingCapacity)
            (start % T.flexibleRingCapacity)))
        members' r (start + 1) new) :
    PlacedFrom (T := T) members members' r start (key :: new) := by
  rcases hRest with ⟨hNew, hOld⟩
  refine ⟨?_, ?_⟩
  · intro j k hKey
    cases j with
    | zero =>
      rw [List.getElem?_cons_zero, Option.some.injEq] at hKey
      subst hKey
      rw [hOld key hNot]
      exact StorageMap.get_insert_self _ _ _
    | succ j =>
      rw [List.getElem?_cons_succ] at hKey
      have hGet := hNew j k hKey
      have hIndex : start + 1 + j = start + (j + 1) := by
        omega
      rw [hIndex] at hGet
      exact hGet
  · intro k hNotMem
    rw [List.mem_cons, not_or] at hNotMem
    rw [hOld k hNotMem.2]
    exact StorageMap.get_insert_of_ne _ _ hNotMem.1

/- The open page is the last page of the keys placed so far. -/
theorem placeKeys_placedFrom {f f' : Filling T} {keys : List T.Member}
    (hPlace : placeKeys r f new = .ok f') (hPaged : Paged T.flexibleRingCapacity (f.pages r) keys)
    (hIndex : f.pageIndex = keys.length / T.flexibleRingCapacity)
    (hBound : keys.length + new.length ≤ RingExponent.r2e14.ringCapacity) (hNodup : new.Nodup) :
    PlacedFrom (T := T) f.store.members f'.store.members r keys.length new := by
  induction new generalizing f keys with
  | nil =>
    simp only [placeKeys, List.foldlM_nil, Except.pure_eq_ok] at hPlace
    subst hPlace
    exact placedFrom_nil ..
  | cons key new ih =>
    have hPos := T.flexibleRingCapacity_pos
    rw [placeKeys, List.foldlM_cons, Except.bind_eq_ok] at hPlace
    rcases hPlace with ⟨f₁, hFirst, hRest⟩
    rcases List.nodup_cons.mp hNodup with ⟨hNot, hNodup'⟩
    rw [List.length_cons] at hBound
    rcases placeKey_pages hFirst with ⟨_, _, hPages, hNext⟩
    have hOpen : f.pages r f.pageIndex = f.keys.toList := Function.update_self ..
    have hLength : f.keys.length = keys.length % T.flexibleRingCapacity := by
      rw [BoundedVec.length_def, ← hOpen, hIndex]
      exact hPaged.length_last_page hPos
    have hMembers : f₁.store.members = f.store.members.insert key
              (.included r (keys.length / T.flexibleRingCapacity)
                (keys.length % T.flexibleRingCapacity)) := by
      rcases placeKey_eq_ok hFirst with ⟨_, _, hStore⟩
      rw [hStore, ← hIndex, ← hLength]
      split_ifs <;> rfl
    have hPaged₁ : Paged T.flexibleRingCapacity (f₁.pages r) (keys ++ [key]) := by
      rw [hPages, hIndex]
      exact hPaged.append_singleton hPos key
    have hIndex₁ : f₁.pageIndex = (keys ++ [key]).length / T.flexibleRingCapacity := by
      have hLe : keys.length / T.flexibleRingCapacity ≤ RingExponent.r2e14.ringCapacity :=
        Nat.le_trans (Nat.div_le_self _ _) (by omega)
      rw [List.length_append, List.length_singleton, succ_div_eq hPos, hNext, hOpen,
        ← BoundedVec.length_def, hLength, hIndex,
        nextRingPage_of_le hLe]
    have hTail := ih hRest hPaged₁ hIndex₁ (by
          rw [List.length_append, List.length_singleton]
          omega)
        hNodup'
    rw [hMembers, List.length_append, List.length_singleton] at hTail
    exact placedFrom_cons hNot hTail

--
-- Batches Appended to the Current Ring
--

/-
  A batch is appended to the keys of the current ring, and
  the entries of its members name their new positions.
-/
structure Appended (s s' : CollectionStore T) (new : List T.Member) : Prop where
  before : RingHolds s s.currentRingIndex
      (s.keysInOrder s.currentRingIndex)
  after : RingHolds s' s.currentRingIndex
      (s.keysInOrder s.currentRingIndex ++ new)
  placed : PlacedFrom (T := T) s.members s'.members
      s.currentRingIndex
      (s.keysInOrder s.currentRingIndex).length new
  others : ∀ r p, r ≠ s.currentRingIndex → s'.page r p = s.page r p
  pending : s'.pendingSuspensions = s.pendingSuspensions
  deletions : s'.ringDeletionQueue = s.ringDeletionQueue
  collection : s'.collection = s.collection

variable {info : CollectionInfo T} {top : AvailableRing T}

/- The open page when the available ring is being filled. -/
theorem available_paged {s₁ : CollectionStore T} (hSound : CurrentSound s)
    (hAddition : Addition s s' info top new)
    (hTop : s.availableRing info.ringSize.ringCapacity = (s₁, top)) :
    top.ringIndex = s.currentRingIndex ∧ top.pageIndex
        = (s.keysInOrder s.currentRingIndex).length / T.flexibleRingCapacity ∧
      (s.keysInOrder s.currentRingIndex).length + new.length ≤ RingExponent.r2e14.ringCapacity ∧
      Paged T.flexibleRingCapacity (Filling.pages ⟨s₁, top.pageIndex, top.keys⟩ s.currentRingIndex)
        (s.keysInOrder s.currentRingIndex) := by
  have hLive : s.collection.isSome = true := by
    rw [hAddition.collection]
    rfl
  rcases available_current hSound.life (hSound.current hLive) hSound.isOpen hAddition with
    ⟨keys, hHolds, hRing, hIndex, _, hBound, _⟩
  rw [hHolds.keysInOrder_eq]
  refine ⟨hRing, hIndex, hBound, ?_⟩
  have hKeys := availableRing_keys s info.ringSize.ringCapacity
  rw [hTop, hRing] at hKeys
  have hSame : Filling.pages ⟨s₁, top.pageIndex, top.keys⟩ s.currentRingIndex
        = s.page s.currentRingIndex := by
    have hStore := availableRing_frame hTop
    unfold Filling.pages
    rw [hStore, hKeys]
    exact Function.update_eq_self _ _
  rw [hSame]
  exact hHolds.paged

theorem appended_of_addition (hSound : CurrentSound s) (hAddition : Addition s s' info top new)
    (hPlaced : PlacedFrom (T := T) s.members s'.members s.currentRingIndex
        (s.keysInOrder s.currentRingIndex).length new) :
    Appended s s' new := by
  have hLive : s.collection.isSome = true := by
    rw [hAddition.collection]
    rfl
  rcases Addition.holds hSound.life (hSound.current hLive) hSound.isOpen hAddition with
    ⟨keys, hHolds, hRing, hAfter, _⟩
  have hKeys := hHolds.keysInOrder_eq
  rcases hAddition.writes with ⟨_, _, _, _, _, _, hPages, hEq⟩
  refine ⟨?_, ?_, hPlaced, ?_, ?_, ?_, ?_⟩
  · rw [hKeys]
    exact hHolds
  · rw [hKeys]
    exact hAfter
  · intro r p hOther
    rw [← hRing] at hOther
    rw [hEq]
    exact hPages r p hOther
  · rw [hEq]
  · rw [hEq]
  · rw [hEq]

theorem appended_of_onboardMembers {b : Bool} (hSound : CurrentSound s)
    (hNodup : s.onboardBatch.Nodup) (hOnboard : s.onboardMembers true = .ok (b, s')) :
    Appended s s' s.onboardBatch := by
  rcases addition_of_onboardMembers hOnboard with ⟨info, top, _, hAddition⟩
  apply appended_of_addition hSound hAddition
  rcases onboardMembers_eq_ok hOnboard with
    ⟨info', s₁, top', head, front, n, filled, f, hInfo, hTop,
      _, _, hBatch, hPlace, hRestore⟩
  have hSame : info' = info := by
    have hInfo' := hAddition.collection
    rw [hInfo, Option.some.injEq] at hInfo'
    exact hInfo'
  subst hSame
  have hTop' : top' = top := by
    rw [← hAddition.available, hTop]
  subst hTop'
  rcases available_paged hSound hAddition hTop with ⟨hRing, hIndex, hBound, hPaged⟩
  rw [hBatch] at hBound hNodup ⊢
  rw [hRing] at hPlace
  have hPlaced := placeKeys_placedFrom hPlace hPaged hIndex hBound hNodup
  have hStore := availableRing_frame hTop
  have hMembers : s'.members = f.store.members := by
    rcases restoreQueue_frame hRestore with ⟨_, _, hEq⟩
    rcases close_frame f top'.ringIndex with ⟨_, hClose, _⟩
    rw [hEq, hClose]
    rfl
  rw [hMembers]
  rw [hStore] at hPlaced
  exact hPlaced

theorem appended_of_doSelfInclude (hSound : CurrentSound s)
    (hInclude : s.doSelfInclude key = .ok s') :
    Appended s s' [key] := by
  rcases addition_of_doSelfInclude hInclude with ⟨info, top, hAddition⟩
  apply appended_of_addition hSound hAddition
  rcases doSelfInclude_eq_ok hInclude with
    ⟨info', q, t, idx, s₂, top', keys, hInfo, _, _, _, hTop, _, hEq⟩
  have hSame : info' = info := by
    have hInfo' := hAddition.collection
    rw [hInfo, Option.some.injEq] at hInfo'
    exact hInfo'
  subst hSame
  rcases removeFromQueuePage_frame s q idx with ⟨head, queue, hRemove⟩
  have hRead := availableRing_of_queue s head queue info'.ringSize.ringCapacity
  rw [← hRemove, hTop] at hRead
  have hTop' : s.availableRing info'.ringSize.ringCapacity
        = ((s.availableRing info'.ringSize.ringCapacity).1, top') := by
    rw [Prod.ext_iff]
    exact ⟨rfl, hRead.symm⟩
  have hIs : top' = top := by
    rw [← hAddition.available]
    exact hRead
  subst hIs
  rcases available_paged hSound hAddition hTop' with ⟨hRing, hIndex, _, hPaged⟩
  have hLength : top'.keys.length = (s.keysInOrder s.currentRingIndex).length
            % T.flexibleRingCapacity := by
    have hLast := hPaged.length_last_page T.flexibleRingCapacity_pos
    rw [← hIndex] at hLast
    rw [← hLast, BoundedVec.length_def]
    unfold Filling.pages
    rw [Function.update_self]
  have hMembers : s'.members = s.members.insert key
            (.included top'.ringIndex top'.pageIndex top'.keys.length) := by
    have hStore := availableRing_frame hTop
    rw [hEq, hStore, hRemove]
    rfl
  apply placedFrom_cons List.not_mem_nil
  rw [hMembers, hRing, hIndex, hLength]
  exact placedFrom_nil ..

/- What was on a page before the batch is still there. -/
theorem Appended.page_mono (hAppended : Appended s s' new) {p : PageIndex} {i : Nat}
    (hGet : (s.page r p)[i]? = some key) :
    (s'.page r p)[i]? = some key := by
  by_cases hRing : r = s.currentRingIndex
  · subst hRing
    rw [hAppended.before.paged.getElem?_page_eq_some_iff] at hGet
    rw [hAppended.after.paged.getElem?_page_eq_some_iff]
    have hLt := (List.getElem?_eq_some_iff.mp hGet.2).1
    rw [List.getElem?_append_left hLt]
    exact hGet
  · rw [hAppended.others r p hRing]
    exact hGet

/- What is new on a page is where its entry says. -/
theorem Appended.page_cases (hAppended : Appended s s' new) {p : PageIndex} {i : Nat}
    (hGet : (s'.page r p)[i]? = some key) :
    (s.page r p)[i]? = some key ∨ key ∈ new ∧ r = s.currentRingIndex ∧ (s.page r p).length ≤ i
        ∧ s'.members.get key = some (.included r p i) := by
  by_cases hRing : r = s.currentRingIndex
  · subst hRing
    have hPos := T.flexibleRingCapacity_pos
    rw [hAppended.after.paged.getElem?_page_eq_some_iff] at hGet
    rcases hGet with ⟨hIndex, hGet⟩
    by_cases hOld : p * T.flexibleRingCapacity + i < (s.keysInOrder s.currentRingIndex).length
    · left
      rw [hAppended.before.paged.getElem?_page_eq_some_iff]
      rw [List.getElem?_append_left hOld] at hGet
      exact ⟨hIndex, hGet⟩
    · right
      rw [List.getElem?_append_right (Nat.not_lt.mp hOld)] at hGet
      refine ⟨List.mem_of_getElem? hGet, rfl, ?_, ?_⟩
      · rw [hAppended.before.paged.length_page]
        refine le_trans (Nat.min_le_right _ _) ?_
        exact Nat.sub_le_iff_le_add'.mpr (Nat.not_lt.mp hOld)
      · have hEntry := hAppended.placed.1 _ key hGet
        have hNumber : (s.keysInOrder s.currentRingIndex).length
                + (p * T.flexibleRingCapacity + i - (s.keysInOrder s.currentRingIndex).length)
              = i + p * T.flexibleRingCapacity := by
          rw [Nat.add_sub_of_le (Nat.not_lt.mp hOld), Nat.add_comm]
        rw [hNumber, Nat.add_mul_div_right _ _ hPos,
          Nat.add_mul_mod_self_right, Nat.div_eq_of_lt hIndex,
          Nat.mod_eq_of_lt hIndex, Nat.zero_add] at hEntry
        exact hEntry
  · left
    rw [← hAppended.others r p hRing]
    exact hGet

/- A member of the batch is where its entry says. -/
theorem Appended.new_get (hAppended : Appended s s' new) (hMem : key ∈ new) :
    ∃ p i, s'.members.get key = some (.included s.currentRingIndex p i) ∧
        (s'.page s.currentRingIndex p)[i]? = some key ∧
        (s.page s.currentRingIndex p).length ≤ i := by
  have hPos := T.flexibleRingCapacity_pos
  rcases List.getElem?_of_mem hMem with ⟨j, hKey⟩
  refine ⟨_, _, hAppended.placed.1 j key hKey, ?_, ?_⟩
  · rw [hAppended.after.paged.getElem?_page_eq_some_iff,
      Nat.div_add_mod', List.getElem?_append_right (Nat.le_add_right _ _), Nat.add_sub_cancel_left]
    exact ⟨Nat.mod_lt _ hPos, hKey⟩
  · have hSplit := Nat.div_add_mod' ((s.keysInOrder s.currentRingIndex).length + j)
        T.flexibleRingCapacity
    rw [hAppended.before.paged.length_page]
    omega

end Individuality.MembersPallet
