import Individuality.MembersSubscriber.GapScan

/-
  The purge of retired generations: it never removes a live entry, and what it has passed is empty.

  Main declaration: `SubscriberState.purge_safe_and_complete`
-/

namespace Individuality.MembersSubscriber

open NotifierSubscriber SubscriberState

variable {R : Type} (T : Config)

--
-- Operations on the Ring Data
--

/- The calls that write generations of ring roots. -/
inductive RingDataOp (R : Type) where
  | clearAllRingData
  | storeRingRoots (now : Nat) (batch : RingRootUpdatesBatch R)
  | purgeStaleRingRoots

def RingDataOp.perform (s : SubscriberState R) :
    RingDataOp R → Except Failure (SubscriberState R)
  | .clearAllRingData => .ok s.clearAllRingData
  | .storeRingRoots now batch =>
    .ok (s.storeRingRoots T now batch)
  | .purgeStaleRingRoots => s.purgeStaleRingRoots T

/- Nothing is stored of a generation. -/
def GenerationEmpty (s : SubscriberState R) (generation : Generation) : Prop :=
  ∀ identifier r, s.ringRoots.get (generation, identifier, r) = none

/-
  Where entries can be: in the live generation, and in those
  from the queued one on, when there is one.
-/
structure PurgeTracked (s : SubscriberState R) : Prop where
  above_empty : ∀ generation,
      s.currentGeneration < generation → GenerationEmpty s generation
  queued_lt : ∀ progress,
      s.queuedRingPurge = some progress →
        progress.generation < s.currentGeneration
  below_empty : ∀ progress,
      s.queuedRingPurge = some progress →
        ∀ generation,
          generation < progress.generation → GenerationEmpty s generation
  stale_empty : s.queuedRingPurge = none →
      ∀ generation,
        generation ≠ s.currentGeneration → GenerationEmpty s generation

theorem purgeTracked_genesis : PurgeTracked (genesis : SubscriberState R) where
  above_empty := fun _ _ _ _ => StorageMap.get_empty _
  queued_lt := fun _ hQueued => by cases hQueued
  below_empty := fun _ hQueued => by cases hQueued
  stale_empty := fun _ _ _ _ _ => StorageMap.get_empty _

--
-- Clearing
--

variable {s : SubscriberState R}

theorem PurgeTracked.clearAllRingData (hTracked : PurgeTracked s)
    (hLt : s.currentGeneration < u32Max) :
    PurgeTracked s.clearAllRingData := by
  have hNext : s.clearAllRingData.currentGeneration = s.currentGeneration + 1 :=
    saturatingAdd_of_le hLt
  cases hQueued : s.queuedRingPurge with
  | some progress =>
    have hSame : s.clearAllRingData.queuedRingPurge = some progress := by
      unfold SubscriberState.clearAllRingData
      rw [hQueued]
      rfl
    refine ⟨?_, ?_, ?_, ?_⟩
    · intro generation hAbove
      rw [hNext] at hAbove
      exact hTracked.above_empty generation (Nat.lt_of_succ_lt hAbove)
    · intro progress' hSome
      rw [hSame, Option.some.injEq] at hSome
      rw [hNext, ← hSome]
      exact Nat.lt_succ_of_lt (hTracked.queued_lt progress hQueued)
    · intro progress' hSome
      rw [hSame, Option.some.injEq] at hSome
      rw [← hSome]
      exact hTracked.below_empty progress hQueued
    · intro hNone
      rw [hSame] at hNone
      cases hNone
  | none =>
    have hFirst : s.clearAllRingData.queuedRingPurge = some ⟨s.currentGeneration, 0⟩ := by
      unfold SubscriberState.clearAllRingData
      rw [hQueued]
      rfl
    refine ⟨?_, ?_, ?_, ?_⟩
    · intro generation hAbove
      rw [hNext] at hAbove
      exact hTracked.above_empty generation (Nat.lt_of_succ_lt hAbove)
    · intro progress hSome
      rw [hFirst, Option.some.injEq] at hSome
      rw [hNext, ← hSome]
      exact Nat.lt_succ_self _
    · intro progress hSome generation hBelow
      rw [hFirst, Option.some.injEq] at hSome
      rw [← hSome] at hBelow
      exact hTracked.stale_empty hQueued generation (Nat.ne_of_lt hBelow)
    · intro hNone
      rw [hFirst] at hNone
      cases hNone

--
-- Storing
--

theorem PurgeTracked.storeRingRoots (hTracked : PurgeTracked s) (now : Nat)
    (batch : RingRootUpdatesBatch R) :
    PurgeTracked (s.storeRingRoots T now batch) := by
  have hEmpty : ∀ generation, generation ≠ s.currentGeneration → GenerationEmpty s generation →
          GenerationEmpty (s.storeRingRoots T now batch)
            generation := by
    intro generation hNe hOld identifier r
    rw [← hOld identifier r]
    exact foldl_storeUpdate_other T batch s.currentGeneration batch.updates _ (Or.inl hNe)
  refine ⟨?_, hTracked.queued_lt, ?_, ?_⟩
  · intro generation hAbove
    exact hEmpty generation (Nat.ne_of_gt hAbove) (hTracked.above_empty generation hAbove)
  · intro progress hQueued generation hBelow
    have hLt := Nat.lt_trans hBelow (hTracked.queued_lt progress hQueued)
    exact hEmpty generation (Nat.ne_of_lt hLt)
      (hTracked.below_empty progress hQueued generation hBelow)
  · intro hNone generation hNe
    exact hEmpty generation hNe (hTracked.stale_empty hNone generation hNe)

--
-- Purging
--

/- The roots that are left after one page of a purge. -/
def purgedRoots (ringRoots : RingRootMap R) (generation : Generation) : RingRootMap R :=
  ((generationKeys ringRoots generation).take T.purgePageSize).foldl (·.remove ·) ringRoots

variable {key : Generation × Identifier × RingIndex} {ringRoots : RingRootMap R}

variable {generation : Generation}

theorem mem_generationKeys :
    key ∈ generationKeys ringRoots generation ↔ ringRoots.get key ≠ none ∧ key.1 = generation := by
  unfold generationKeys
  rw [List.mem_filter, StorageMap.mem_keys_iff, decide_eq_true_eq]

theorem get_purgedRoots_of_ne (ringRoots : RingRootMap R) (hNe : key.1 ≠ generation) :
    (purgedRoots T ringRoots generation).get key = ringRoots.get key := by
  unfold purgedRoots
  rw [StorageMap.get_foldl_remove, if_neg]
  intro hMem
  exact hNe (mem_generationKeys.mp (List.mem_of_mem_take hMem)).2

theorem get_purgedRoots_of_none (generation : Generation) (hNone : ringRoots.get key = none) :
    (purgedRoots T ringRoots generation).get key = none := by
  unfold purgedRoots
  rw [StorageMap.get_foldl_remove, hNone]
  split_ifs
  · rfl
  · rfl

/- The state after one page of a purge. -/
def purged (s : SubscriberState R) (progress : RingPurgeProgress) : SubscriberState R :=
  { s with
    ringRoots := purgedRoots T s.ringRoots progress.generation
    queuedRingPurge :=
      if generationKeys
          (purgedRoots T s.ringRoots progress.generation)
          progress.generation ≠ [] then
        some ⟨progress.generation, saturatingAdd u32Max progress.page 1⟩
      else if saturatingAdd u32Max progress.generation 1
          < s.currentGeneration then
        some ⟨saturatingAdd u32Max progress.generation 1, 0⟩
      else
        none }

variable {s' : SubscriberState R}

theorem purgeStaleRingRoots_eq_ok :
    s.purgeStaleRingRoots T = .ok s' ↔ ∃ progress, s.queuedRingPurge = some progress
        ∧ progress.generation < s.currentGeneration
        ∧ s' = purged T s progress := by
  unfold SubscriberState.purgeStaleRingRoots authorizePurgeStaleRingRoots
  simp only [Except.bind_eq_ok, okOr_eq_ok_iff, ensure_eq_ok_iff, exists_const, Except.pure_eq_ok]
  constructor
  · rintro ⟨progress, ⟨progress', hQueued, hLt, hSame⟩, hEq⟩
    rw [hSame] at hQueued hLt
    exact ⟨progress, hQueued, hLt, hEq.symm⟩
  · rintro ⟨progress, hQueued, hLt, hEq⟩
    exact ⟨progress, ⟨progress, hQueued, hLt, rfl⟩, hEq.symm⟩

theorem PurgeTracked.purgeStaleRingRoots (hTracked : PurgeTracked s)
    (hMax : s.currentGeneration ≤ u32Max) (hPurge : s.purgeStaleRingRoots T = .ok s') :
    PurgeTracked s' := by
  rcases (purgeStaleRingRoots_eq_ok T).mp hPurge with ⟨progress, hQueued, hLt, hEq⟩
  unfold purged at hEq
  have hNext : saturatingAdd u32Max progress.generation 1 = progress.generation + 1 :=
    saturatingAdd_of_le (Nat.le_trans hLt hMax)
  have hKept : ∀ generation, GenerationEmpty s generation → GenerationEmpty s' generation := by
    intro generation hOld identifier r
    rw [hEq]
    exact get_purgedRoots_of_none T progress.generation (hOld identifier r)
  have hBelow : ∀ generation, generation < progress.generation → GenerationEmpty s' generation := by
    intro generation hSmall
    exact hKept generation (hTracked.below_empty progress hQueued generation hSmall)
  by_cases hKeys : generationKeys (purgedRoots T s.ringRoots progress.generation)
      progress.generation ≠ []
  · rw [if_pos hKeys] at hEq
    refine ⟨?_, ?_, ?_, ?_⟩
    · intro generation hAbove
      apply hKept generation
      apply hTracked.above_empty generation
      rw [hEq] at hAbove
      exact hAbove
    · intro progress' hSome
      rw [hEq] at hSome ⊢
      rw [← Option.some.inj hSome]
      exact hLt
    · intro progress' hSome generation hSmall
      apply hBelow generation
      rw [hEq] at hSome
      rw [← Option.some.inj hSome] at hSmall
      exact hSmall
    · intro hNone
      rw [hEq] at hNone
      cases hNone
  · rw [if_neg hKeys] at hEq
    rw [not_ne_iff] at hKeys
    have hPurged : GenerationEmpty s' progress.generation := by
      intro identifier r
      rw [hEq]
      by_contra hSome
      have hMem : (progress.generation, identifier, r) ∈ generationKeys
                (purgedRoots T s.ringRoots progress.generation)
                progress.generation :=
        mem_generationKeys.mpr ⟨hSome, rfl⟩
      rw [hKeys] at hMem
      cases hMem
    have hPassed : ∀ generation, generation < progress.generation + 1 →
            GenerationEmpty s' generation := by
      intro generation hSmall
      rcases Nat.lt_succ_iff_lt_or_eq.mp hSmall with
        hLess | hSame
      · exact hBelow generation hLess
      · rw [hSame]
        exact hPurged
    rw [hNext] at hEq
    by_cases hMore : progress.generation + 1 < s.currentGeneration
    · rw [if_pos hMore] at hEq
      refine ⟨?_, ?_, ?_, ?_⟩
      · intro generation hAbove
        apply hKept generation
        apply hTracked.above_empty generation
        rw [hEq] at hAbove
        exact hAbove
      · intro progress' hSome
        rw [hEq] at hSome ⊢
        rw [← Option.some.inj hSome]
        exact hMore
      · intro progress' hSome generation hSmall
        apply hPassed generation
        rw [hEq] at hSome
        rw [← Option.some.inj hSome] at hSmall
        exact hSmall
      · intro hNone
        rw [hEq] at hNone
        cases hNone
    · rw [if_neg hMore] at hEq
      refine ⟨?_, ?_, ?_, ?_⟩
      · intro generation hAbove
        apply hKept generation
        apply hTracked.above_empty generation
        rw [hEq] at hAbove
        exact hAbove
      · intro progress' hSome
        rw [hEq] at hSome
        cases hSome
      · intro progress' hSome
        rw [hEq] at hSome
        cases hSome
      · intro _ generation hNe
        rw [hEq] at hNe
        rcases Nat.lt_or_gt_of_ne hNe with hLess | hGreater
        · exact hPassed generation (Nat.lt_of_lt_of_le hLess (Nat.not_lt.mp hMore))
        · exact hKept generation (hTracked.above_empty generation hGreater)

--
-- Runs
--

/- Generations are retired while they can be told apart. -/
def GenerationsCounted (s : SubscriberState R) (op : RingDataOp R) (_ : SubscriberState R) : Prop :=
  op = .clearAllRingData → s.currentGeneration < u32Max

def PurgeInvariant (s : SubscriberState R) : Prop :=
  PurgeTracked s ∧ s.currentGeneration ≤ u32Max

theorem PurgeInvariant.perform {op : RingDataOp R} (hOld : PurgeInvariant s)
    (hCounted : GenerationsCounted s op s') (hPerform : op.perform T s = .ok s') :
    PurgeInvariant s' := by
  cases op with
  | clearAllRingData =>
    rw [← Except.ok.inj hPerform]
    exact ⟨hOld.1.clearAllRingData (hCounted rfl), saturatingAdd_le _ _ _⟩
  | storeRingRoots now batch =>
    rw [← Except.ok.inj hPerform]
    exact ⟨hOld.1.storeRingRoots T now batch, hOld.2⟩
  | purgeStaleRingRoots =>
    refine ⟨hOld.1.purgeStaleRingRoots T hOld.2 hPerform, ?_⟩
    rcases (purgeStaleRingRoots_eq_ok T).mp hPerform with ⟨progress, _, _, hEq⟩
    rw [hEq]
    exact hOld.2

namespace SubscriberState

/-
  While generations can be told apart, a purge leaves the live generation as it is, the queued
  generation is a retired one with nothing stored below it, and without a queued one only the live
  generation has entries.
-/
theorem purge_safe_and_complete (s : SubscriberState R)
    (hRun : RunUnder (fun s op => RingDataOp.perform T s op)
        GenerationsCounted genesis s) :
    (∀ s', s.purgeStaleRingRoots T = .ok s' →
        s'.currentGeneration = s.currentGeneration ∧ ∀ identifier r,
            s'.ringRoots.get (s.currentGeneration, identifier, r)
              = s.ringRoots.get (s.currentGeneration, identifier, r))
      ∧ (∀ progress, s.queuedRingPurge = some progress → progress.generation < s.currentGeneration
          ∧ ∀ generation identifier r, generation < progress.generation →
              s.ringRoots.get (generation, identifier, r) = none)
      ∧ (s.queuedRingPurge = none → ∀ generation identifier r, generation ≠ s.currentGeneration →
          s.ringRoots.get (generation, identifier, r) = none) := by
  have hInvariant : PurgeInvariant s := hRun.invariant PurgeInvariant
      (fun _ _ _ hCounted hPerform hOld => hOld.perform T hCounted hPerform)
      ⟨purgeTracked_genesis, Nat.zero_le _⟩
  have hTracked := hInvariant.1
  refine ⟨?_, ?_, ?_⟩
  · intro s' hPurge
    rcases (purgeStaleRingRoots_eq_ok T).mp hPurge with ⟨progress, _, hLt, hEq⟩
    rw [hEq]
    refine ⟨rfl, ?_⟩
    intro identifier r
    exact get_purgedRoots_of_ne T s.ringRoots (Nat.ne_of_gt hLt)
  · intro progress hQueued
    refine ⟨hTracked.queued_lt progress hQueued, ?_⟩
    intro generation identifier r hSmall
    exact hTracked.below_empty progress hQueued generation hSmall identifier r
  · intro hNone generation identifier r hNe
    exact hTracked.stale_empty hNone generation hNe identifier r

private theorem pagewiseRoots_pos : 0 < 3 :=
  Nat.zero_lt_succ 2

/- A subscriber that purges one entry at a time. -/
private abbrev pagewiseConfig : Config where
  maxMissingRootsPerCollection := 4
  maxDeletedRingsPerCollection := 4
  maxGapScanPerCall := 8
  gapScanCooldownSeconds := 10
  purgePageSize := 1
  maxCollections := 2
  replayCooldownSeconds := 0
  maxUpdatesPerBatch := 4
  replayAbandonThreshold := 3
  maxRecentRootsPerRing := 3
  oldRootRetentionDuration := 100
  maxRecentRootsPerRing_pos := pagewiseRoots_pos

private def twoRings : RingRootUpdatesBatch Nat where
  identifier := MembersPallet.sampleIdentifier
  sequence := 1
  sourceTime := 5
  updates := [⟨0, .built 0 7⟩, ⟨1, .built 0 8⟩]
  nextRingIndex := 2

private def clearsCounted (s : SubscriberState Nat) (_ : RingDataOp Nat) : Bool :=
  s.currentGeneration < u32Max

private theorem generationsCounted_of_clearsCounted
    (s : SubscriberState Nat) (op : RingDataOp Nat) (s' : SubscriberState Nat)
    (hCheck : clearsCounted s op = true) :
    GenerationsCounted s op s' :=
  fun _ => of_decide_eq_true hCheck

/- Two generations were retired, and the first of them is half purged. -/
theorem purge_safe_and_complete_sample : ∃ s,
      RunUnder (fun s op => RingDataOp.perform pagewiseConfig s op)
        GenerationsCounted (genesis : SubscriberState Nat) s
      ∧ s.currentGeneration = 2
      ∧ s.queuedRingPurge = some ⟨0, 1⟩
      ∧ ∀ s', s.purgeStaleRingRoots pagewiseConfig = .ok s' →
          s'.currentGeneration = s.currentGeneration := by
  have hExecute : ((execute (fun s op => RingDataOp.perform pagewiseConfig s op)
        clearsCounted genesis
        [.storeRingRoots 0 twoRings, .clearAllRingData,
          .storeRingRoots 1 twoRings, .clearAllRingData,
          .storeRingRoots 2 twoRings,
          .purgeStaleRingRoots]).any fun s =>
        s.currentGeneration = 2 ∧ s.queuedRingPurge = some ⟨0, 1⟩) = true := by
    decide +kernel
  have hReached := exists_run_of_execute
      (fun s op s' hCheck _ => generationsCounted_of_clearsCounted s op s' hCheck)
      hExecute
  rcases hReached with ⟨s, hRun, hTest⟩
  rw [decide_eq_true_eq] at hTest
  exact ⟨s, hRun, hTest.1, hTest.2, fun s' hPurge =>
    ((purge_safe_and_complete pagewiseConfig s hRun).1 s' hPurge).1⟩

/- Retire and purge, over and over. -/
private theorem exists_generation (n : Generation) (hLe : n ≤ u32Max) :
    RunUnder (fun s op => RingDataOp.perform pagewiseConfig s op)
      (fun _ _ _ => True) (genesis : SubscriberState Nat)
      { (genesis : SubscriberState Nat) with
        currentGeneration := n } := by
  induction n with
  | zero => exact Relation.ReflTransGen.refl
  | succ n ih =>
    have hClear : RingDataOp.clearAllRingData.perform pagewiseConfig
            { (genesis : SubscriberState Nat) with
              currentGeneration := n }
          = .ok
            { (genesis : SubscriberState Nat) with
              currentGeneration := n + 1
              queuedRingPurge := some ⟨n, 0⟩ } := by
      unfold RingDataOp.perform clearAllRingData
      dsimp only
      rw [saturatingAdd_of_le hLe]
      rfl
    have hPurge : RingDataOp.purgeStaleRingRoots.perform pagewiseConfig
            { (genesis : SubscriberState Nat) with
              currentGeneration := n + 1
              queuedRingPurge := some ⟨n, 0⟩ }
          = .ok
            { (genesis : SubscriberState Nat) with
              currentGeneration := n + 1 } := by
      apply (purgeStaleRingRoots_eq_ok pagewiseConfig).mpr
      refine ⟨⟨n, 0⟩, rfl, Nat.lt_succ_self n, ?_⟩
      unfold purged
      dsimp only
      rw [if_neg (fun hNe => hNe rfl), saturatingAdd_of_le hLe,
        if_neg (Nat.lt_irrefl (n + 1))]
      rfl
    exact ((ih (Nat.le_of_succ_le hLe)).snoc trivial hClear).snoc trivial hPurge

/- At the last generation a clear queues the live one. -/
theorem purge_safe_and_complete_fails : ∃ s,
      RunUnder (fun s op => RingDataOp.perform pagewiseConfig s op)
        (fun _ _ _ => True) (genesis : SubscriberState Nat) s
      ∧ s.currentGeneration = u32Max
      ∧ s.queuedRingPurge = some ⟨u32Max, 0⟩ := by
  have hClear : RingDataOp.clearAllRingData.perform pagewiseConfig
        { (genesis : SubscriberState Nat) with
          currentGeneration := u32Max }
      = .ok
        { (genesis : SubscriberState Nat) with
          currentGeneration := u32Max
          queuedRingPurge := some ⟨u32Max, 0⟩ } := rfl
  exact ⟨_, (exists_generation u32Max (Nat.le_refl _)).snoc trivial hClear, rfl, rfl⟩

end SubscriberState

end Individuality.MembersSubscriber
