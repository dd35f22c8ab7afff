import Individuality.MembersPallet.Removal

/-
  The keys that a ring holds.  As long as nothing is written to a page that waits for its deletion,
  the pages of a ring hold one list of keys in page order, and the status of the ring counts them.

  Main declaration: `RingHolds`
-/

namespace Individuality.MembersPallet

open StorageMap (getD_insert getD_remove)

variable {T : Config} {s s' : CollectionStore T} {r : RingIndex} {new keys : List T.Member}
variable {info : CollectionInfo T} {top : CollectionStore.AvailableRing T}

open CollectionStore

--
-- Append-Only Collections Are Never Mutated
--

/- No removal session is open and no suspension waits. -/
def Quiet (s : CollectionStore T) : Prop :=
  s.ringsState = .appendOnly ∧ ∀ r, s.pending r = []

structure QuietRings (s : CollectionStore T) : Prop where
  unused : s.collection = none → s.retired = false → Quiet s
  appendOnly : ∀ info, s.collection = some info → info.mode = .appendOnly → Quiet s

/- Removal sessions are opened on flexible collections only. -/
def FlexibleSession (s : CollectionStore T) (op : Op T) : Prop :=
  op = .startRemovalSession → ∀ info, s.collection = some info → info.mode = .flexible

theorem quietRings_empty : QuietRings (CollectionStore.empty : CollectionStore T)
    where
  unused := fun _ _ => ⟨rfl, fun _ => rfl⟩
  appendOnly := fun _ hInfo => by
    simp [CollectionStore.empty] at hInfo

theorem Quiet.of_remove (hQuiet : Quiet s) (r : RingIndex) :
    Quiet { s with
      pendingSuspensions := s.pendingSuspensions.remove r } := by
  refine ⟨hQuiet.1, ?_⟩
  intro r'
  simp only [pending, getD_remove]
  split_ifs
  · rfl
  · exact hQuiet.2 r'

variable {op : Op T}

theorem RingEffect.quietRings (hEffect : RingEffect s op s') (hLife : Lifecycle s)
    (hSession : FlexibleSession s op) (hQuiet : QuietRings s) :
    QuietRings s' := by
  cases hEffect with
  | created op info size hNone hSuspended hRetired hSize =>
    have hOld := hQuiet.unused hNone hRetired
    refine ⟨?_, fun _ _ _ => ⟨rfl, hOld.2⟩⟩
    intro hNo
    simp at hNo
  | dropped op info hInfo =>
    refine ⟨?_, ?_⟩
    · intro _ hRetired
      simp at hRetired
    · intro info' hInfo'
      simp at hInfo'
  | sessionStarted state hState =>
    refine ⟨?_, ?_⟩
    · intro hNone hRetired
      have hOld := hQuiet.unused hNone hRetired
      exact ⟨(hState hNone).trans hOld.1, hOld.2⟩
    · intro info hInfo hMode
      have hFlexible := hSession rfl info hInfo
      rw [hMode] at hFlexible
      exact absurd hFlexible (by decide)
  | sessionEnded state hState =>
    have hKept : Quiet s → Quiet { s with ringsState := state } := by
      intro hOld
      refine ⟨?_, hOld.2⟩
      rw [← hOld.1]
      exact hState (by rw [hOld.1]; rfl)
    exact ⟨fun hNone hRetired => hKept (hQuiet.unused hNone hRetired),
      fun info hInfo hMode => hKept (hQuiet.appendOnly info hInfo hMode)⟩
  | suspended keys pendingSuspensions queue members hMutating
      hFold =>
      have hNot : ¬ Quiet s := by
        intro hOld
        rw [hOld.1] at hMutating
        exact absurd hMutating (by decide)
      exact ⟨fun hNone hRetired => (hNot (hQuiet.unused hNone hRetired)).elim,
        fun info hInfo hMode => (hNot (hQuiet.appendOnly info hInfo hMode)).elim⟩
  | added op s' info top hOp hNew hAddition =>
    rcases hAddition.writes with ⟨_, _, _, _, _, _, _, rfl⟩
    exact ⟨hQuiet.unused, hQuiet.appendOnly⟩
  | reset r revision =>
    exact ⟨fun hNone hRetired => (hQuiet.unused hNone hRetired).of_remove r,
      fun info hInfo hMode => (hQuiet.appendOnly info hInfo hMode).of_remove r⟩
  | enqueued op r =>
    exact ⟨fun hNone hRetired => (hQuiet.unused hNone hRetired).of_remove r,
      fun info hInfo hMode => (hQuiet.appendOnly info hInfo hMode).of_remove r⟩
  | finalized hSuspended hStatus hQueue =>
    refine ⟨?_, ?_⟩
    · intro _ hRetired
      have hGone := hLife.suspended_retired hSuspended
      rw [show s.retired = false from hRetired] at hGone
      exact absurd hGone (by decide)
    · intro info hInfo
      have hLive : s.collection.isSome = true := by
        rw [show s.collection = some info from hInfo]
        rfl
      rw [hLife.live_not_suspended hLive] at hSuspended
      simp at hSuspended
  | _ => exact ⟨hQuiet.unused, hQuiet.appendOnly⟩

--
-- The Keys of One Ring
--

/- The pages of the ring hold `keys` in page order, and its status counts them. -/
structure RingHolds (s : CollectionStore T) (r : RingIndex) (keys : List T.Member) : Prop where
  paged : Paged T.flexibleRingCapacity (s.page r) keys
  total : (s.ringStatus r).total = keys.length
  bounded : keys.length ≤ RingExponent.r2e14.ringCapacity
  flexible : ∀ info, s.collection = some info →
      info.mode = .flexible → keys.length ≤ T.flexibleRingCapacity
  notQueued : ¬ s.ringQueued r

/- The ring is gone, and all of its pages wait for their deletion. -/
def RingDoomed (s : CollectionStore T) (r : RingIndex) : Prop :=
  RingGone r s ∧ ∀ p, s.page r p ≠ [] → (r, p) ∈ s.ringDeletionQueue

def RingSound (s : CollectionStore T) (r : RingIndex) : Prop :=
  RingDoomed s r ∨ ∃ keys, RingHolds s r keys

theorem capacity_le (T : Config) :
    T.flexibleRingCapacity ≤ RingExponent.r2e14.ringCapacity :=
  T.maxFlexibleRingExponent.ringCapacity_le

theorem RingHolds.frame (hHolds : RingHolds s r keys) (hPage : s'.page r = s.page r)
    (hTotal : (s'.ringStatus r).total = (s.ringStatus r).total)
    (hInfo : ∀ info, s'.collection = some info → s.collection = some info)
    (hQueue : s'.ringQueued r → s.ringQueued r) :
    RingHolds s' r keys where
  paged := by
    rw [hPage]
    exact hHolds.paged
  total := hTotal.trans hHolds.total
  bounded := hHolds.bounded
  flexible := fun info hSome => hHolds.flexible info (hInfo info hSome)
  notQueued := fun hQueued => hHolds.notQueued (hQueue hQueued)

theorem RingSound.frame (hSound : RingSound s r) (hPage : s'.page r = s.page r)
    (hTotal : (s'.ringStatus r).total = (s.ringStatus r).total)
    (hRoot : s.root.get r = none → s'.root.get r = none)
    (hInfo : ∀ info, s'.collection = some info → s.collection = some info)
    (hQueue : ∀ p, (r, p) ∈ s'.ringDeletionQueue ↔ (r, p) ∈ s.ringDeletionQueue) :
    RingSound s' r := by
  rcases hSound with ⟨⟨hNone, hZero⟩, hPages⟩ | ⟨keys, hHolds⟩
  · left
    refine ⟨⟨hRoot hNone, hTotal.trans hZero⟩, ?_⟩
    intro p hNe
    rw [hPage] at hNe
    exact (hQueue p).mpr (hPages p hNe)
  · right
    refine ⟨keys, hHolds.frame hPage hTotal hInfo ?_⟩
    rintro ⟨⟨r', p⟩, hMem, rfl⟩
    exact ⟨(r', p), (hQueue p).mp hMem, rfl⟩

/- A ring with no pages and no keys holds no keys. -/
theorem ringHolds_nil (hPages : ∀ p, s.page r p = []) (hTotal : (s.ringStatus r).total = 0)
    (hQueue : ¬ s.ringQueued r) :
    RingHolds s r [] where
  paged := by
    have hPage : s.page r = fun _ => [] := funext hPages
    rw [hPage]
    exact Paged.nil
  total := hTotal
  bounded := Nat.zero_le _
  flexible := fun _ _ _ => Nat.zero_le _
  notQueued := hQueue

/- Rings after the current one hold no keys. -/
theorem ringHolds_of_above (hLife : Lifecycle s) (hLive : s.collection.isSome = true)
    (hAbove : s.currentRingIndex < r) :
    RingHolds s r [] := by
  refine ringHolds_nil ?_ ?_ ?_
  · intro p
    by_contra hNe
    have hLe := hLife.page_le hLive r p hNe
    exact absurd hAbove (Nat.not_lt.mpr hLe)
  · by_contra hNe
    have hLe := hLife.total_le hLive r (Nat.pos_of_ne_zero hNe)
    exact absurd hAbove (Nat.not_lt.mpr hLe)
  · intro hQueued
    have hLt := hLife.queued_lt hLive r hQueued
    exact absurd hAbove (Nat.lt_asymm hLt)

/- The current ring is not waiting for its deletion. -/
theorem ringHolds_of_current (hLife : Lifecycle s) (hLive : s.collection.isSome = true)
    (hSound : RingSound s s.currentRingIndex) :
    ∃ keys, RingHolds s s.currentRingIndex keys := by
  have hQueue : ¬ s.ringQueued s.currentRingIndex := by
    intro hQueued
    exact absurd (hLife.queued_lt hLive _ hQueued) (Nat.lt_irrefl _)
  rcases hSound with ⟨hGone, hPages⟩ | hHolds
  · refine ⟨[], ringHolds_nil ?_ hGone.2 hQueue⟩
    intro p
    by_contra hNe
    exact hQueue ⟨_, hPages p hNe, rfl⟩
  · exact hHolds

/- The keys of a ring whose first page is not full. -/
theorem RingHolds.eq_page (hHolds : RingHolds s r keys)
    (hLt : (s.page r 0).length < T.flexibleRingCapacity) :
    keys = s.page r 0 := by
  have hLength := hHolds.paged.length_page 0
  have hFits : keys.length ≤ T.flexibleRingCapacity := by
    omega
  exact (hHolds.paged.page_zero_of_le hFits).symm

--
-- The Current Ring
--

/- The current ring has room, unless the ring indices are used up. -/
def CurrentOpen (s : CollectionStore T) : Prop :=
  ∀ info, s.collection = some info → (s.ringStatus s.currentRingIndex).total
        < info.ringSize.ringCapacity
      ∨ s.currentRingIndex = u32Max

theorem topRing_fill (hHolds : RingHolds s s.currentRingIndex keys) :
    s.topRing.pageIndex = keys.length / T.flexibleRingCapacity ∧ s.topRing.fill = keys.length := by
  have hIndex : s.topRing.pageIndex = keys.length / T.flexibleRingCapacity := by
    rw [← hHolds.total]
    rfl
  refine ⟨hIndex, ?_⟩
  have hLast := hHolds.paged.length_last_page T.flexibleRingCapacity_pos
  have hKeys : s.topRing.keys.length = keys.length % T.flexibleRingCapacity := by
    rw [← hLast, ← hIndex]
    rfl
  unfold AvailableRing.fill
  rw [hKeys, hIndex, Nat.add_comm]
  exact Nat.div_add_mod' _ _

/- Members are always placed into the current ring, after the keys it holds. -/
theorem available_current (hLife : Lifecycle s) (hSound : RingSound s s.currentRingIndex)
    (hOpen : CurrentOpen s) (hAddition : Addition s s' info top new) :
    ∃ keys, RingHolds s s.currentRingIndex keys ∧ top.ringIndex = s.currentRingIndex ∧
      top.pageIndex = keys.length / T.flexibleRingCapacity ∧
      top.fill = keys.length ∧
      keys.length + new.length ≤ RingExponent.r2e14.ringCapacity ∧
      (info.mode = .flexible → keys.length + new.length ≤ T.flexibleRingCapacity) := by
  have hInfo := hAddition.collection
  have hLive : s.collection.isSome = true := by
    rw [hInfo]
    rfl
  rcases ringHolds_of_current hLife hLive hSound with ⟨keys, hHolds⟩
  rcases topRing_fill hHolds with ⟨hIndex, hFill⟩
  have hAllowed := hLife.size_allowed info hInfo
  have hCapacity := info.ringSize.ringCapacity_le
  have hPage := capacity_le T
  have hSlots := hAddition.slots
  have hTop := hAddition.available
  refine ⟨keys, hHolds, ?_⟩
  rcases availableRing_cases s info.ringSize.ringCapacity with ⟨hNot, hEq⟩ | ⟨hFull, hEq⟩
  · rw [hEq] at hTop
    have hTopRing : s.topRing = top := hTop
    subst hTopRing
    have hRoom : keys.length + new.length ≤ info.ringSize.ringCapacity := by
      unfold AvailableRing.isFull at hNot
      unfold AvailableRing.fill at hFill hSlots
      rcases hSlots with hSlots | hOne <;> omega
    refine ⟨rfl, hIndex, hFill, Nat.le_trans hRoom hCapacity, ?_⟩
    intro hMode
    exact Nat.le_trans hRoom (hAllowed hMode).2
  · have hLast : s.currentRingIndex = u32Max := by
      rcases hOpen info hInfo with hLt | hLast
      · exfalso
        rw [hHolds.total] at hLt
        unfold AvailableRing.isFull at hFull
        unfold AvailableRing.fill at hFill
        omega
      · exact hLast
    have hSame : saturatingAdd u32Max s.currentRingIndex 1 = s.currentRingIndex := by
      rw [hLast]
      rfl
    rw [hEq] at hTop
    subst hTop
    have hFirst : (s.page s.currentRingIndex 0).length < T.flexibleRingCapacity := by
      have hIsOpen := hAddition.isOpen
      rw [hSame] at hIsOpen
      exact hIsOpen
    have hKeys := hHolds.eq_page hFirst
    have hLt : keys.length < T.flexibleRingCapacity := by
      rw [hKeys]
      exact hFirst
    have hTopFill : AvailableRing.fill
          { ringIndex :=
              saturatingAdd u32Max s.currentRingIndex 1
            pageIndex := 0
            keys := s.ringPage (saturatingAdd u32Max s.currentRingIndex 1) 0
            status := s.ringStatus s.currentRingIndex }
          = keys.length := by
      unfold AvailableRing.fill
      simp only [hSame, Nat.zero_mul, Nat.add_zero]
      rw [hKeys]
      rfl
    rw [hTopFill] at hSlots ⊢
    refine ⟨hSame, (Nat.div_eq_of_lt hLt).symm, rfl, ?_, ?_⟩
    · rcases hSlots with hSlots | hOne
      · exact Nat.le_trans hSlots hCapacity
      · omega
    · intro hMode
      rcases hSlots with hSlots | hOne
      · exact Nat.le_trans hSlots (hAllowed hMode).2
      · omega

theorem nextRingPage_of_le {p : PageIndex} (hLe : p ≤ RingExponent.r2e14.ringCapacity) :
    nextRingPage p = p + 1 := by
  apply saturatingAdd_of_le
  refine Nat.le_trans (Nat.succ_le_succ hLe) ?_
  decide

/- An addition appends to the keys of the current ring. -/
theorem Addition.holds (hLife : Lifecycle s) (hSound : RingSound s s.currentRingIndex)
    (hOpen : CurrentOpen s) (hAddition : Addition s s' info top new) :
    ∃ keys, RingHolds s s.currentRingIndex keys ∧ top.ringIndex = s.currentRingIndex ∧
      RingHolds s' s.currentRingIndex (keys ++ new) ∧
      (s'.ringStatus s.currentRingIndex).included = (s.ringStatus s.currentRingIndex).included := by
  rcases available_current hLife hSound hOpen hAddition with
    ⟨keys, hHolds, hTop, hIndex, _, hBound, hFlexible⟩
  have hStatus := availableRing_status s info.ringSize.ringCapacity
  rw [hAddition.available] at hStatus
  have hInfo := hAddition.collection
  have hPages := hAddition.pages
  rw [hTop, hIndex] at hPages
  have hPaged : Paged T.flexibleRingCapacity (s'.page s.currentRingIndex) (keys ++ new) := by
    rw [hPages]
    apply paged_pushPages hHolds.paged T.flexibleRingCapacity_pos
    intro p hLe
    exact nextRingPage_of_le (Nat.le_trans hLe hBound)
  rcases hAddition.writes with ⟨filled, members, ringKeys, head, queue, stale, _, hEq⟩
  have hMax : (s.ringStatus s.currentRingIndex).total + new.length ≤ u32Max := by
    rw [hHolds.total]
    exact Nat.le_trans hBound (by decide)
  have hNewStatus : s'.ringStatus s.currentRingIndex
        = { s.ringStatus s.currentRingIndex with
            total := (s.ringStatus s.currentRingIndex).total + new.length } := by
    rw [hEq, ringStatus, ringStatus_insert, hTop, if_pos rfl, hStatus, saturatingAdd_of_le hMax]
  refine ⟨keys, hHolds, hTop, ?_, ?_⟩
  · refine ⟨hPaged, ?_, ?_, ?_, ?_⟩
    · rw [hNewStatus, List.length_append, ← hHolds.total]
    · rw [List.length_append]
      exact hBound
    · intro info' hInfo' hMode
      rw [hEq] at hInfo'
      rw [show s.collection = some info' from hInfo', Option.some.injEq] at hInfo
      rw [List.length_append]
      exact hFlexible (hInfo ▸ hMode)
    · rw [hEq]
      exact hHolds.notQueued
  · rw [hNewStatus]

--
-- Every Effect Keeps the Keys in Order
--

/- All keys of the ring are on its first page. -/
def SinglePage (s : CollectionStore T) (r : RingIndex) : Prop :=
  ∀ p, 0 < p → s.page r p = []

theorem RingHolds.singlePage (hHolds : RingHolds s r keys)
    (hFits : keys.length ≤ T.flexibleRingCapacity) :
    SinglePage s r := by
  intro p hPos
  apply hHolds.paged.page_eq_nil
  calc
    keys.length ≤ T.flexibleRingCapacity := hFits
    _ ≤ p * T.flexibleRingCapacity := Nat.le_mul_of_pos_left _ hPos

/- Keys are removed from the ring only while it has one page. -/
def ResetsSinglePage (s : CollectionStore T) (op : Op T) (r : RingIndex) : Prop :=
  ∀ info revision keys, s.collection = some info → op = .removeSuspendedKeys r revision →
      s.pending r ≠ [] → RingHolds s r keys → SinglePage s r

theorem QuietRings.resets (hQuiet : QuietRings s) (op : Op T) (r : RingIndex) :
    ResetsSinglePage s op r := by
  intro info revision keys hInfo _ hPending hHolds
  cases hMode : info.mode with
  | flexible =>
    exact hHolds.singlePage (hHolds.flexible info hInfo hMode)
  | appendOnly =>
    exact absurd ((hQuiet.appendOnly info hInfo hMode).2 r) hPending

/- What the ring that is being populated rests on. -/
structure CurrentSound (s : CollectionStore T) : Prop where
  life : Lifecycle s
  current : s.collection.isSome = true → RingSound s s.currentRingIndex
  isOpen : CurrentOpen s

/- What the invariant of one ring rests on. -/
structure RingsSound (s : CollectionStore T) (r : RingIndex) : Prop where
  life : Lifecycle s
  book : Bookkeeping s
  quiet : QuietRings s
  current : s.collection.isSome = true → RingSound s s.currentRingIndex
  isOpen : CurrentOpen s
  ring : RingSound s r

theorem RingsSound.currentSound (hSound : RingsSound s r) :
    CurrentSound s :=
  ⟨hSound.life, hSound.current, hSound.isOpen⟩

theorem ringSound_of_addition (hSound : CurrentSound s) (hRing : RingSound s r)
    (hAddition : Addition s s' info top new) :
    RingSound s' r := by
  have hLive : s.collection.isSome = true := by
    rw [hAddition.collection]
    rfl
  rcases Addition.holds hSound.life (hSound.current hLive) hSound.isOpen hAddition with
    ⟨keys, _, hTop, hHolds, _⟩
  by_cases hCurrent : r = s.currentRingIndex
  · rw [hCurrent]
    exact Or.inr ⟨_, hHolds⟩
  · rcases hAddition.writes with ⟨filled, members, ringKeys, head, queue, stale, hPages, rfl⟩
    have hOther : r ≠ top.ringIndex := by
      rw [hTop]
      exact hCurrent
    apply hRing.frame
    · funext p
      exact hPages r p hOther
    · simp only [ringStatus, ringStatus_insert, if_neg hOther]
    · exact fun hNone => hNone
    · exact fun _ hInfo => hInfo
    · exact fun _ => Iff.rfl

/- The target's keys are appended to the keys of the base. -/
theorem ringHolds_merge {b : RingIndex} (hAllowed : flexibleSizeAllowed T info.mode info.ringSize)
    (hMode : info.mode = .flexible) (hHolds : RingHolds s b keys)
    (hLengths : keys.length + new.length < info.ringSize.ringCapacity)
    (hFirst : s'.page b 0 = keys ++ new) (hRest : ∀ p, 0 < p → s'.page b p = s.page b p)
    (hTotal : (s'.ringStatus b).total = saturatingAdd u32Max (s.ringStatus b).total new.length)
    (hQueue : ¬ s'.ringQueued b) :
    RingHolds s' b (keys ++ new) := by
  have hCapacity := (hAllowed hMode).2
  have hFits : (keys ++ new).length ≤ T.flexibleRingCapacity := by
    rw [List.length_append]
    exact Nat.le_trans (Nat.le_of_lt hLengths) hCapacity
  have hBound := Nat.le_trans hFits (capacity_le T)
  refine ⟨?_, ?_, hBound, fun _ _ _ => hFits, hQueue⟩
  · apply Paged.of_single_page hFits hFirst
    intro p hPos
    rw [hRest p hPos]
    apply hHolds.paged.page_eq_nil
    rw [List.length_append] at hFits
    calc
      keys.length ≤ T.flexibleRingCapacity := by omega
      _ ≤ p * T.flexibleRingCapacity := Nat.le_mul_of_pos_left _ hPos
  · rw [hTotal, hHolds.total, saturatingAdd_of_le]
    · rw [List.length_append]
    · rw [← List.length_append]
      exact Nat.le_trans hBound (by decide)

theorem RingEffect.ringSound (hEffect : RingEffect s op s') (hSound : CurrentSound s)
    (hRing : RingSound s r) (hReset : ResetsSinglePage s op r)
    (hSpares : s.collection.isSome = true → SparesDoomed r s op) :
    RingSound s' r := by
  cases hEffect with
  | created op info size hNone hSuspended hRetired hSize =>
    right
    rcases hSound.life.unused hNone hRetired with ⟨hPages, hTotals, hQueue⟩
    refine ⟨[], ringHolds_nil (hPages r) (hTotals r) ?_⟩
    rintro ⟨e, hMem, _⟩
    simp [hQueue] at hMem
  | dropped op info hInfo =>
    apply hRing.frame
    · rfl
    · rfl
    · exact fun hNone => hNone
    · intro info' hInfo'
      simp at hInfo'
    · exact fun _ => Iff.rfl
  | added op s' info top hOp hNew hAddition =>
    exact ringSound_of_addition hSound hRing hAddition
  | built op info r' toInclude i root stale oldRoots
      immutableSince hInfo hUnincluded =>
      have hTotal : ((s.ringKeysStatus.insert r'
              { (s.collectKeys r' toInclude (s.ringStatus r')
                  toInclude []).1 with
                immutableSince := immutableSince }).getD
            r {}).total = (s.ringStatus r).total := by
        rw [ringStatus_insert]
        split_ifs with hEq
        · rw [hEq]
          exact collectKeys_total s r' toInclude _ _ _
        · rfl
      rcases hRing with ⟨hGone, hPages⟩ | ⟨keys, hHolds⟩
      · have hOther : r ≠ r' := by
          intro hEq
          rw [← hEq, hGone.2] at hUnincluded
          omega
        refine Or.inl ⟨⟨?_, hTotal.trans hGone.2⟩, hPages⟩
        rw [StorageMap.get_insert_of_ne _ _ hOther]
        exact hGone.1
      · exact Or.inr ⟨keys, hHolds.frame rfl hTotal (fun _ hInfo => hInfo) (fun hQueued => hQueued)⟩
  | merged b t info f root oldRoots changes stale hInfo hMode
      hNe hBaseNe hTargetNe hBase hTarget hLengths
      hBasePending hTargetPending hKeys hFold hRoot =>
      have hLive : s.collection.isSome = true := by
        rw [hInfo]
        rfl
      have hAllowed := hSound.life.size_allowed info hInfo
      have hCapacity : info.ringSize.ringCapacity ≤ T.flexibleRingCapacity := (hAllowed hMode).2
      by_cases hIsBase : r = b
      · subst hIsBase
        rcases hRing with ⟨_, hPages⟩ | ⟨keys, hHolds⟩
        · exact absurd (hPages 0 hBase) (hSpares hLive rfl)
        · have hEq := hHolds.eq_page (by omega)
          refine Or.inr ⟨keys ++ s.page t 0, ringHolds_merge hAllowed hMode hHolds
              (hEq ▸ hLengths) ?_ ?_ ?_ hHolds.notQueued⟩
          · rw [hEq, ← hKeys]
            simp [CollectionStore.page, ringPage, getD_remove, getD_insert, hNe]
          · intro p hPos
            have hZero : p ≠ 0 := Nat.pos_iff_ne_zero.mp hPos
            simp [CollectionStore.page, ringPage, getD_remove, getD_insert, hZero]
          · simp [ringStatus, getD_remove, getD_insert, hNe]
      · by_cases hIsTarget : r = t
        · subst hIsTarget
          rcases hRing with ⟨hGone, hPages⟩ | ⟨keys, hHolds⟩
          · refine Or.inl ⟨⟨?_, ?_⟩, ?_⟩
            · rw [hRoot, if_pos rfl]
            · simp [ringStatus, getD_remove]
            · intro p hPage
              apply hPages p
              intro hNil
              apply hPage
              simp only [CollectionStore.page, ringPage, getD_remove, getD_insert,
                Prod.mk.injEq, hIsBase, false_and, if_false]
              split_ifs
              · rfl
              · exact hNil
          · have hEq := hHolds.eq_page (by omega)
            refine Or.inr ⟨[], ringHolds_nil ?_ ?_ hHolds.notQueued⟩
            · intro p
              simp only [CollectionStore.page, ringPage, getD_remove, getD_insert,
                Prod.mk.injEq, hIsBase, false_and, if_false,
                true_and]
              split_ifs with hZero
              · rfl
              · apply hHolds.paged.page_eq_nil
                calc
                  keys.length ≤ T.flexibleRingCapacity := by
                    rw [hEq]
                    omega
                  _ ≤ p * T.flexibleRingCapacity := Nat.le_mul_of_pos_left _
                      (Nat.pos_of_ne_zero hZero)
            · simp [ringStatus, getD_remove]
        · apply hRing.frame
          · funext p
            simp [CollectionStore.page, ringPage, getD_remove, getD_insert, hIsBase, hIsTarget]
          · simp [ringStatus, getD_remove, getD_insert, hIsBase, hIsTarget]
          · intro hNone
            rw [hRoot, if_neg hIsTarget]
            exact hNone
          · exact fun _ hInfo => hInfo
          · exact fun _ => Iff.rfl
  | reset r' revision info root oldRoots stale ringKeys hInfo
      hPending hRoot hPages =>
      have hLive : s.collection.isSome = true := by
        rw [hInfo]
        rfl
      by_cases hEq : r = r'
      · subst hEq
        have hRest : ∀ p, 0 < p → (ringKeys.getD (r, p) .empty : RingPage T).toList
                = s.page r p := by
          intro p hPos
          rw [hPages, if_neg]
          intro hZero
          rw [Prod.mk.injEq] at hZero
          exact absurd hZero.2 (Nat.ne_of_gt hPos)
        have hFirst : (ringKeys.getD (r, 0) .empty : RingPage T).toList = s.keptKeys r := by
          rw [hPages, if_pos rfl]
        rcases hRing with ⟨hGone, hDoomed⟩ | ⟨keys, hHolds⟩
        · have hKept : s.keptKeys r = [] := by
            apply keptKeys_eq_nil (hSound.life.pending_sorted r)
            intro i hLt
            have hMem := hDoomed 0 (List.length_pos_iff.mp (Nat.lt_of_le_of_lt (Nat.zero_le i) hLt))
            exact hSpares hLive rfl hMem i hLt
          refine Or.inl ⟨⟨?_, ?_⟩, ?_⟩
          · rw [hRoot, if_pos rfl, hGone.1, Option.map_none]
          · simp [ringStatus, ringStatus_insert, hKept]
          · intro p hPage
            rcases Nat.eq_zero_or_pos p with hZero | hPos
            · subst hZero
              exact absurd (hFirst.trans hKept) hPage
            · apply hDoomed p
              rw [← hRest p hPos]
              exact hPage
        · have hLength : (s.keptKeys r).length ≤ T.flexibleRingCapacity := by
            refine Nat.le_trans (length_removePositions_le 0 _ _) ?_
            exact (s.ringPage r 0).length_le
          right
          refine ⟨s.keptKeys r, ?_, ?_, ?_, ?_, ?_⟩
          · apply Paged.of_single_page hLength hFirst
            intro p hPos
            exact (hRest p hPos).trans (hReset info revision keys hInfo rfl hPending hHolds p hPos)
          · simp [ringStatus, ringStatus_insert]
          · exact Nat.le_trans hLength (capacity_le T)
          · exact fun _ _ _ => hLength
          · exact hHolds.notQueued
      · apply hRing.frame
        · funext p
          refine (hPages (r, p)).trans (if_neg ?_)
          intro hPair
          rw [Prod.mk.injEq] at hPair
          exact hEq hPair.1
        · simp [ringStatus, ringStatus_insert, hEq]
        · intro hNone
          rw [hRoot, if_neg hEq]
          exact hNone
        · exact fun _ hInfo => hInfo
        · exact fun _ => Iff.rfl
  | enqueued op r' root oldRoots changes stale hOp hRoot =>
    by_cases hEq : r = r'
    · subst hEq
      refine Or.inl ⟨⟨?_, ?_⟩, ?_⟩
      · rw [hRoot, if_pos rfl]
      · simp [ringStatus, getD_remove]
      · intro p hPage
        rw [Finset.mem_union]
        rcases hRing with ⟨_, hDoomed⟩ | ⟨keys, hHolds⟩
        · exact Or.inl (hDoomed p hPage)
        · right
          rw [mem_ringPageEntries_iff, hHolds.total]
          refine ⟨rfl, (lt_pageCount_iff T.flexibleRingCapacity_pos).mpr ?_⟩
          by_contra hPast
          exact hPage (hHolds.paged.page_eq_nil (Nat.not_lt.mp hPast))
    · apply hRing.frame
      · rfl
      · simp [ringStatus, getD_remove, hEq]
      · intro hNone
        rw [hRoot, if_neg hEq]
        exact hNone
      · exact fun _ hInfo => hInfo
      · intro p
        rw [Finset.mem_union, mem_ringPageEntries_iff]
        simp [hEq]
  | pageDeleted r' p hMem =>
    have hPage : ∀ p', CollectionStore.page
            { s with
              ringKeys := s.ringKeys.remove (r', p) } r p'
          = if (r, p') = (r', p) then [] else s.page r p' := by
      intro p'
      simp only [CollectionStore.page, ringPage, getD_remove]
      split_ifs <;> rfl
    by_cases hEq : r = r'
    · subst hEq
      rcases hRing with ⟨hGone, hDoomed⟩ | ⟨keys, hHolds⟩
      · refine Or.inl ⟨hGone, ?_⟩
        intro p' hNe
        have hSub := hPage p'
        by_cases hSame : (r, p') = (r, p)
        · rw [if_pos hSame] at hSub
          exact absurd hSub hNe
        · rw [if_neg hSame] at hSub
          apply Finset.mem_erase.mpr
          refine ⟨hSame, hDoomed p' ?_⟩
          rw [← hSub]
          exact hNe
      · exact (hHolds.notQueued ⟨_, hMem, rfl⟩).elim
    · apply hRing.frame
      · funext p'
        refine (hPage p').trans (if_neg ?_)
        intro hPair
        rw [Prod.mk.injEq] at hPair
        exact hEq hPair.1
      · rfl
      · exact fun hNone => hNone
      · exact fun _ hInfo => hInfo
      · intro p'
        rw [Finset.mem_erase]
        simp [hEq]
  | _ =>
    exact hRing.frame rfl rfl (fun hNone => hNone) (fun _ hInfo => hInfo) (fun _ => Iff.rfl)

/- A ring that does not wait for its deletion is spared. -/
theorem sparesDoomed_of_not_queued (op : Op T) (hQueue : ¬ s.ringQueued r) :
    SparesDoomed r s op := by
  have hNot : (r, 0) ∉ s.ringDeletionQueue := by
    intro hMem
    exact hQueue ⟨_, hMem, rfl⟩
  cases op with
  | mergeRings b t => exact fun _ => hNot
  | removeSuspendedKeys r' revision =>
    exact fun _ hMem => absurd hMem hNot
  | _ => trivial

/- A ring that is not before the current one is sound. -/
theorem CurrentSound.of_current_le {r' : RingIndex} (hSound : CurrentSound s)
    (hLive : s.collection.isSome = true) (hLe : s.currentRingIndex ≤ r') :
    RingSound s r' ∧ ¬ s.ringQueued r' := by
  have hQueue : ¬ s.ringQueued r' := by
    intro hQueued
    exact absurd (hSound.life.queued_lt hLive _ hQueued) (Nat.not_lt.mpr hLe)
  refine ⟨?_, hQueue⟩
  rcases Nat.lt_or_eq_of_le hLe with hAbove | hEq
  · exact Or.inr ⟨[], ringHolds_of_above hSound.life hLive hAbove⟩
  · rw [← hEq]
    exact hSound.current hLive

/- The current ring keeps room, or the next ring has room. -/
theorem currentOpen_of_addition (hSound : CurrentSound s) (hAddition : Addition s s' info top new) :
    RingSound s' s'.currentRingIndex ∧ CurrentOpen s' := by
  have hInfo := hAddition.collection
  have hLive : s.collection.isSome = true := by
    rw [hInfo]
    rfl
  rcases available_current hSound.life (hSound.current hLive) hSound.isOpen hAddition with
    ⟨keys, hHolds, hTop, _, hFill, _⟩
  rcases Addition.holds hSound.life (hSound.current hLive) hSound.isOpen hAddition with
    ⟨keys', hHolds', _, hAfter, _⟩
  have hSame : keys.length = keys'.length := by
    rw [← hHolds.total, hHolds'.total]
  have hStatus := availableRing_status s info.ringSize.ringCapacity
  rw [hAddition.available] at hStatus
  have hInfo' : s'.collection = s.collection := by
    rcases hAddition.writes with ⟨_, _, _, _, _, _, _, rfl⟩
    rfl
  rcases hAddition.advance with ⟨hNext, _⟩ | ⟨hStay, hRoom⟩
  · by_cases hLast : s.currentRingIndex = u32Max
    · have hIndex : s'.currentRingIndex = s.currentRingIndex := by
        rw [hNext, hTop, hLast]
        rfl
      rw [hIndex]
      refine ⟨Or.inr ⟨_, hAfter⟩, ?_⟩
      intro _ _
      exact Or.inr (hIndex.trans hLast)
    · have hLe := hSound.life.current_le
      have hIndex : s'.currentRingIndex = s.currentRingIndex + 1 := by
        rw [hNext, hTop]
        apply saturatingAdd_of_le
        exact Nat.succ_le_of_lt (Nat.lt_of_le_of_ne hLe hLast)
      rcases hSound.of_current_le hLive (Nat.le_succ s.currentRingIndex) with ⟨hAbove, _⟩
      have hNextSound := ringSound_of_addition hSound hAbove hAddition
      rw [hIndex]
      refine ⟨hNextSound, ?_⟩
      intro info' hSome
      left
      have hZero : (s.ringStatus (s.currentRingIndex + 1)).total = 0 :=
        (ringHolds_of_above hSound.life hLive (Nat.lt_succ_self _)).total
      have hNe : s.currentRingIndex + 1 ≠ top.ringIndex := by
        rw [hTop]
        exact Nat.succ_ne_self _
      have hFrame : (s'.ringStatus (s.currentRingIndex + 1)).total = 0 := by
        rcases hAddition.writes with ⟨_, _, _, _, _, _, _, hEq⟩
        rw [hEq, ringStatus, ringStatus_insert, if_neg hNe]
        exact hZero
      rw [hIndex, hFrame]
      exact info'.ringSize.ringCapacity_pos
  · have hIndex : s'.currentRingIndex = s.currentRingIndex := hStay.trans hTop
    rw [hIndex]
    refine ⟨Or.inr ⟨_, hAfter⟩, ?_⟩
    intro info' hSome
    left
    rw [hInfo', hInfo, Option.some.injEq] at hSome
    rw [hIndex, hAfter.total, List.length_append, ← hSome]
    rcases hRoom with hFits | ⟨hOne, hFits⟩
    · omega
    · rw [hStatus, hHolds.total] at hFits
      omega

theorem RingEffect.currentOpen (hEffect : RingEffect s op s') (hSound : CurrentSound s)
    (hCurrent : s.collection.isSome = true → RingSound s' s.currentRingIndex) :
    (s'.collection.isSome = true → RingSound s' s'.currentRingIndex) ∧ CurrentOpen s' := by
  cases hEffect with
  | created op info size hNone hSuspended hRetired hSize =>
    rcases hSound.life.unused hNone hRetired with ⟨hPages, hTotals, hQueue⟩
    refine ⟨?_, ?_⟩
    · intro _
      right
      refine ⟨[], ringHolds_nil (hPages _) (hTotals _) ?_⟩
      rintro ⟨e, hMem, _⟩
      simp [hQueue] at hMem
    intro info' hSome
    left
    have hZero := hTotals s.currentRingIndex
    refine lt_of_eq_of_lt hZero ?_
    exact info'.ringSize.ringCapacity_pos
  | dropped op info hInfo =>
    refine ⟨?_, ?_⟩
    · intro hSome
      simp at hSome
    · intro info' hSome
      simp at hSome
  | added op s' info top hOp hNew hAddition =>
    have hNew := currentOpen_of_addition hSound hAddition
    exact ⟨fun _ => hNew.1, hNew.2⟩
  | built op info r' toInclude i root stale oldRoots
      immutableSince hInfo hUnincluded =>
      refine ⟨hCurrent, ?_⟩
      intro info' hSome
      rcases hSound.isOpen info' hSome with hLt | hLast
      · left
        refine lt_of_eq_of_lt ?_ hLt
        simp only [ringStatus, ringStatus_insert]
        split_ifs with hEq
        · rw [hEq]
          exact collectKeys_total s r' toInclude _ _ _
        · rfl
      · exact Or.inr hLast
  | merged b t info f root oldRoots changes stale hInfo hMode
      hNe hBaseNe hTargetNe =>
      refine ⟨hCurrent, ?_⟩
      intro info' hSome
      rcases hSound.isOpen info' hSome with hLt | hLast
      · left
        refine lt_of_eq_of_lt ?_ hLt
        simp [ringStatus, getD_remove, getD_insert, Ne.symm hBaseNe, Ne.symm hTargetNe]
      · exact Or.inr hLast
  | reset r' revision info root oldRoots stale ringKeys hInfo
      hPending hRoot hPages =>
      have hLive : s.collection.isSome = true := by
        rw [hInfo]
        rfl
      refine ⟨hCurrent, ?_⟩
      intro info' hSome
      rcases hSound.isOpen info' hSome with hLt | hLast
      · left
        refine lt_of_le_of_lt ?_ hLt
        simp only [ringStatus, ringStatus_insert]
        split_ifs with hEq
        · rcases ringHolds_of_current hSound.life hLive (hSound.current hLive) with ⟨keys, hHolds⟩
          have hKept := length_removePositions_le 0 (s.pending r') (s.page r' 0)
          have hPage := hHolds.paged.length_page 0
          have hTotal := hHolds.total
          rw [hEq] at hPage hTotal
          unfold ringStatus at hTotal
          rw [hEq, hTotal]
          refine Nat.le_trans hKept ?_
          rw [hPage, Nat.zero_mul, Nat.sub_zero]
          exact Nat.min_le_right _ _
        · exact Nat.le_refl _
      · exact Or.inr hLast
  | enqueued op r' root oldRoots changes stale hOp hRoot =>
    refine ⟨hCurrent, ?_⟩
    intro info' hSome
    rcases hSound.isOpen info' hSome with hLt | hLast
    · left
      refine lt_of_le_of_lt ?_ hLt
      simp only [ringStatus, getD_remove]
      split_ifs
      · exact Nat.zero_le _
      · exact Nat.le_refl _
    · exact Or.inr hLast
  | finalized hSuspended hStatus hQueue =>
    have hNo : s.collection.isSome = true → False := by
      intro hLive
      rw [hSound.life.live_not_suspended hLive] at hSuspended
      simp at hSuspended
    refine ⟨fun hLive => (hNo hLive).elim, ?_⟩
    intro info hInfo
    apply (hNo ?_).elim
    rw [show s.collection = some info from hInfo]
    rfl
  | _ => exact ⟨hCurrent, hSound.isOpen⟩

/- Every effect keeps the ring that is being populated. -/
theorem RingEffect.currentSound (hEffect : RingEffect s op s')
    (hReset : ResetsSinglePage s op s.currentRingIndex) (hSound : CurrentSound s) :
    CurrentSound s' := by
  have hCurrent : s.collection.isSome = true → RingSound s' s.currentRingIndex := by
    intro hLive
    rcases hSound.of_current_le hLive (Nat.le_refl _) with ⟨hHere, hQueue⟩
    exact hEffect.ringSound hSound hHere hReset fun _ => sparesDoomed_of_not_queued op hQueue
  rcases hEffect.currentOpen hSound hCurrent with ⟨hNext, hOpen⟩
  exact ⟨hEffect.lifecycle hSound.life, hNext, hOpen⟩

/- Every effect keeps the invariant of one ring. -/
theorem RingEffect.ringsSound (hEffect : RingEffect s op s') (hSession : FlexibleSession s op)
    (hSpares : s.collection.isSome = true → SparesDoomed r s op) (hSound : RingsSound s r) :
    RingsSound s' r := by
  have hNext := hEffect.currentSound (hSound.quiet.resets op _) hSound.currentSound
  exact ⟨hNext.life, hEffect.bookkeeping hSound.life hSound.book,
    hEffect.quietRings hSound.life hSession hSound.quiet,
    hNext.current, hNext.isOpen,
    hEffect.ringSound hSound.currentSound hSound.ring (hSound.quiet.resets op r) hSpares⟩

theorem currentSound_empty :
    CurrentSound (CollectionStore.empty : CollectionStore T)
    where
  life := lifecycle_empty
  current := fun hSome => by
    simp [CollectionStore.empty] at hSome
  isOpen := fun _ hInfo => by
    simp [CollectionStore.empty] at hInfo

theorem ringsSound_empty (r : RingIndex) :
    RingsSound (CollectionStore.empty : CollectionStore T) r
    where
  life := lifecycle_empty
  book := bookkeeping_empty
  quiet := quietRings_empty
  current := currentSound_empty.current
  isOpen := currentSound_empty.isOpen
  ring := by
    right
    refine ⟨[], ringHolds_nil (fun _ => rfl) rfl ?_⟩
    rintro ⟨e, hMem, _⟩
    simp [CollectionStore.empty] at hMem

end Individuality.MembersPallet
