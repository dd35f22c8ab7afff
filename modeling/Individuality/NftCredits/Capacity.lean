import Individuality.CreditTrees.Buffers

/-
  The capacity that the nft-credits pallet reports for a game,
  against the room that its buffers really have.

  Main declaration: `AwardingState.room`
-/

namespace Individuality

namespace NftCredits

open CreditTrees AwardingState

variable {C : AwardConfig} {s : AwardingState C} {gameIndex awardTime block : Nat}
variable {grant : Grant C} {buffer : PendingBuffer}

--
-- Room
--

/- The first block that no award may go to. -/
def AwardingState.bufferLimit (s : AwardingState C) : Nat :=
  saturatingAdd u32Max s.credits.number maxPendingCreditTrees

/- The room from a buffer on, below the limit. -/
def roomBelow (limit block : Nat) (buffer : PendingBuffer) : Nat :=
  awardsPerTree - buffer.awards + (limit - (block + 1)) * awardsPerTree

/- The number of awards of a game that still have a buffer. -/
def AwardingState.room (s : AwardingState C) (gameIndex : Nat) : Nat :=
  match
    s.creditAwardBuffer s.credits.number s.creditBufferCursor gameIndex
  with
  | none => 0
  | some (block, buffer) =>
    roomBelow s.bufferLimit block buffer

theorem room_of_chosen
    (hChosen : s.creditAwardBuffer s.credits.number s.creditBufferCursor gameIndex
        = some (block, buffer)) :
    s.room gameIndex = roomBelow s.bufferLimit block buffer := by
  unfold AwardingState.room
  rw [hChosen]

theorem room_of_none
    (hChosen : s.creditAwardBuffer s.credits.number s.creditBufferCursor gameIndex = none) :
    s.room gameIndex = 0 := by
  unfold AwardingState.room
  rw [hChosen]

theorem capacity_of_none
    (hChosen : s.creditAwardBuffer s.credits.number s.creditBufferCursor gameIndex = none) :
    s.remainingCreditCapacity gameIndex = 0 := by
  unfold remainingCreditCapacity
  dsimp only
  rw [hChosen]

/- The choice when there is a buffer under the cursor. -/
theorem creditAwardBuffer_of_get {pending : PendingBuffer}
    (hMax : max s.creditBufferCursor s.credits.number = block)
    (hGet : s.creditBuffers.get block = some pending) :
    s.creditAwardBuffer s.credits.number s.creditBufferCursor gameIndex
      = if pending.awards < awardsPerTree
            ∧ pending.gameIndex = gameIndex then
          if block < s.bufferLimit then some (block, pending)
          else none
        else
          if saturatingAdd u32Max block 1 < s.bufferLimit then
            some (saturatingAdd u32Max block 1,
                { gameIndex := gameIndex
                  timestamp := 0
                  awards := 0 })
          else none := by
  unfold creditAwardBuffer AwardingState.bufferLimit
  simp only [hMax, hGet]
  split_ifs <;> rfl

theorem chosen_lt_bufferLimit
    (hChosen : s.creditAwardBuffer s.credits.number s.creditBufferCursor gameIndex
        = some (block, buffer)) :
    block < s.bufferLimit := by
  unfold creditAwardBuffer at hChosen
  simp only [Option.ite_none_right_eq_some, Option.some.injEq] at hChosen
  rw [hChosen.2] at hChosen
  exact hChosen.1

variable {chunk : BoundedVec (NftClaimCreditAward C) awardsPerChunk}

/- A recorded award takes one unit of the room. -/
theorem room_recordAward (hOpens : Opens s gameIndex block buffer)
    (hLimit : block < s.bufferLimit) :
    (s.recordAward gameIndex grant awardTime block buffer chunk ).room gameIndex + 1
      = roomBelow s.bufferLimit block buffer := by
  have hRoom := hOpens.room
  have hTop : s.bufferLimit ≤ u32Max := saturatingAdd_le _ _ _
  have hNext : saturatingAdd u32Max buffer.awards 1 = buffer.awards + 1 := by
    apply saturatingAdd_of_le
    simp only [awardsPerTree, chunksPerTree, awardsPerChunk] at hRoom
    simp only [u32Max]
    omega
  have hBlock : saturatingAdd u32Max block 1 = block + 1 :=
    saturatingAdd_of_le (Nat.le_trans hLimit hTop)
  have hMax : max block s.credits.number = block := Nat.max_eq_left hOpens.le
  generalize hAfter : s.recordAward gameIndex grant awardTime block buffer chunk = after
  have hNumber : after.credits.number = s.credits.number := by
    rw [← hAfter]
    rfl
  have hCursor : after.creditBufferCursor = block := by
    rw [← hAfter]
    rfl
  have hSame : after.bufferLimit = s.bufferLimit := by
    unfold AwardingState.bufferLimit
    rw [hNumber]
  have hGet : after.creditBuffers.get block = some
          { buffer with
            timestamp :=
              if buffer.awards = 0 then awardTime
              else buffer.timestamp
            awards := buffer.awards + 1 } := by
    rw [← hAfter, ← hNext]
    exact StorageMap.get_insert_self _ _ _
  have hCursorMax : max after.creditBufferCursor after.credits.number = block := by
    rw [hCursor, hNumber, hMax]
  have hChoice : after.creditAwardBuffer after.credits.number after.creditBufferCursor gameIndex
        = _ :=
    creditAwardBuffer_of_get hCursorMax hGet
  rw [hSame, hBlock] at hChoice
  by_cases hFull : buffer.awards + 1 < awardsPerTree
  · -- the buffer still has room
    rw [if_pos ⟨hFull, hOpens.game⟩, if_pos hLimit] at hChoice
    rw [room_of_chosen hChoice, hSame]
    unfold roomBelow
    dsimp only
    omega
  · rw [if_neg fun h => hFull h.1] at hChoice
    have hRoomBelow : roomBelow s.bufferLimit block buffer
          = 1 + (s.bufferLimit - (block + 1)) * awardsPerTree := by
      unfold roomBelow
      omega
    rw [hRoomBelow]
    by_cases hMore : block + 1 < s.bufferLimit
    · -- the next block has a whole buffer
      rw [if_pos hMore] at hChoice
      have hLeft : s.bufferLimit - (block + 1) = s.bufferLimit - (block + 1 + 1) + 1 := by
        omega
      rw [room_of_chosen hChoice, hSame, hLeft, Nat.add_mul]
      unfold roomBelow
      dsimp only
      omega
    · -- there is no next block
      rw [if_neg hMore] at hChoice
      have hZero : s.bufferLimit - (block + 1) = 0 := by omega
      rw [room_of_none hChoice, hZero]
      omega

--
-- Fresh Awards
--

/- What an award is for, which it takes only once. -/
def Grant.slot (grant : Grant C) : C.Claimant × Nat :=
  (grant.award.claimant, grant.creditSlot)

/- Another slot stays as it was. -/
theorem slotIsAwarded_recordAward {other : Grant C} (hNe : other.slot ≠ grant.slot)
    (hFresh : s.slotIsAwarded gameIndex other = false) :
    (s.recordAward gameIndex grant awardTime block buffer chunk
        ).slotIsAwarded gameIndex other = false := by
  unfold slotIsAwarded at hFresh ⊢
  change (StorageMap.getD (s.awardedCredits.insert (gameIndex, grant.award.claimant)
        (StorageMap.getD s.awardedCredits (gameIndex, grant.award.claimant) 0
          ||| BitVec.twoPow _ grant.creditSlot))
      (gameIndex, other.award.claimant) 0).getLsbD other.creditSlot = false
  by_cases hClaimant : other.award.claimant = grant.award.claimant
  · have hSlot : grant.creditSlot ≠ other.creditSlot := by
      intro hEq
      apply hNe
      unfold Grant.slot
      rw [hClaimant, hEq]
    rw [hClaimant] at hFresh ⊢
    rw [StorageMap.getD_insert, if_pos rfl, BitVec.getLsbD_or, hFresh, BitVec.getLsbD_twoPow]
    simp [hSlot]
  · rw [StorageMap.getD_insert, if_neg, hFresh]
    intro hEq
    exact hClaimant (Prod.mk.inj hEq).2

/- A fresh award is recorded as long as there is room. -/
theorem Buffered.award_fresh (hBuffered : Buffered s) (awardTime : Nat)
    (hSlot : grant.creditSlot < awardedCreditsCapacity)
    (hFresh : s.slotIsAwarded gameIndex grant = false) :
    (s.room gameIndex = 0 ∧ s.awardNftClaimCredit gameIndex grant awardTime
          = (s.defensive .noBuffer, 0))
      ∨ ∃ after, s.awardNftClaimCredit gameIndex grant awardTime = (after, 1) ∧ Buffered after
          ∧ after.room gameIndex + 1 = s.room gameIndex
          ∧ after.credits = s.credits
          ∧ ∀ other : Grant C, other.slot ≠ grant.slot → s.slotIsAwarded gameIndex other = false →
              after.slotIsAwarded gameIndex other = false := by
  have hAwarded : ¬ s.slotIsAwarded gameIndex grant = true := by
    rw [hFresh]
    exact Bool.false_ne_true
  unfold awardNftClaimCredit
  rw [if_neg (not_not.mpr hSlot), if_neg hAwarded]
  cases hChosen : s.creditAwardBuffer s.credits.number s.creditBufferCursor
      gameIndex with
  | none => exact Or.inl ⟨room_of_none hChosen, rfl⟩
  | some chosen =>
    rcases chosen with ⟨block, buffer⟩
    have hOpens := hBuffered.opens hChosen
    rcases exists_push_of_stored (hBuffered.waiting block hOpens.le).1 hOpens.count grant.award
      with ⟨chunk, hPush⟩
    right
    dsimp only
    rw [hPush, room_of_chosen hChosen]
    exact ⟨_, rfl, hBuffered.recordAward hOpens hPush, room_recordAward hOpens
          (chosen_lt_bufferLimit hChosen),
        rfl, fun other => slotIsAwarded_recordAward⟩

/- Awards of one game, each with its time, in their order. -/
def AwardingState.awardAll (s : AwardingState C) (gameIndex : Nat)
    (awards : List (Grant C × Nat)) : AwardingState C :=
  awards.foldl (fun state award => (state.awardNftClaimCredit gameIndex award.1 award.2).1) s

/- The slots of some awards fit the mask, and none is taken. -/
structure FreshAwards (s : AwardingState C) (gameIndex : Nat)
    (awards : List (Grant C × Nat)) : Prop where
  fits : ∀ award ∈ awards, award.1.creditSlot < awardedCreditsCapacity
  fresh : ∀ award ∈ awards, s.slotIsAwarded gameIndex award.1 = false
  nodup : (awards.map fun award => award.1.slot).Nodup

/- Fresh awards are recorded as far as the room reaches. -/
theorem Buffered.awardAll (hBuffered : Buffered s) {before rest : List (Grant C × Nat)}
    (hFresh : FreshAwards s gameIndex (before ++ rest)) (hLe : before.length ≤ s.room gameIndex) :
    Buffered (s.awardAll gameIndex before)
      ∧ (s.awardAll gameIndex before).room gameIndex + before.length = s.room gameIndex
      ∧ (s.awardAll gameIndex before).credits = s.credits
      ∧ FreshAwards (s.awardAll gameIndex before) gameIndex
        rest := by
  induction before generalizing s with
  | nil => exact ⟨hBuffered, rfl, rfl, hFresh⟩
  | cons award before ih =>
    rw [List.cons_append] at hFresh
    rw [List.length_cons] at hLe
    have hHead := List.mem_cons_self (a := award) (l := before ++ rest)
    rcases hBuffered.award_fresh award.2 (hFresh.fits award hHead) (hFresh.fresh award hHead)
      with ⟨hRoom, _⟩ | ⟨after, hAward, hAfter, hRoom, hCredits, hOthers⟩
    · omega
    · have hNodup := hFresh.nodup
      rw [List.map_cons, List.nodup_cons] at hNodup
      have hRest : FreshAwards after gameIndex (before ++ rest) :=
        { fits := fun other hMem =>
            hFresh.fits other (List.mem_cons_of_mem _ hMem)
          fresh := fun other hMem =>
            hOthers other.1 (fun hEq =>
                hNodup.1 (List.mem_map.mpr ⟨other, hMem, hEq⟩))
              (hFresh.fresh other (List.mem_cons_of_mem _ hMem))
          nodup := hNodup.2 }
      rcases ih hAfter hRest (by omega) with ⟨hBuffered', hRoom', hCredits', hFresh'⟩
      have hStep : s.awardAll gameIndex (award :: before) = after.awardAll gameIndex before := by
        unfold AwardingState.awardAll
        rw [List.foldl_cons, hAward]
      rw [hStep, List.length_cons]
      exact ⟨hBuffered', by omega, hCredits'.trans hCredits, hFresh'⟩

--
-- Exactness
--

/-
  The capacity of a game is the number of fresh awards that
  are recorded, and the next one is dropped.
-/
structure CapacityExact (s : AwardingState C) (gameIndex : Nat) : Prop where
  recorded : ∀ before award,
      FreshAwards s gameIndex (before ++ [award]) →
      before.length < s.remainingCreditCapacity gameIndex →
        ((s.awardAll gameIndex before).awardNftClaimCredit
            gameIndex award.1 award.2).2 = 1
          ∧ (s.awardAll gameIndex (before ++ [award])).remainingCreditCapacity
                  gameIndex + 1
            = (s.awardAll gameIndex before).remainingCreditCapacity gameIndex
  dropped : ∀ before award,
      FreshAwards s gameIndex (before ++ [award]) →
      before.length = s.remainingCreditCapacity gameIndex →
        (s.awardAll gameIndex before).awardNftClaimCredit
            gameIndex award.1 award.2
          = ((s.awardAll gameIndex before).defensive .noBuffer, 0)

/- The reported capacity is at least the room. -/
theorem Buffered.room_eq_capacity (hBuffered : Buffered s) (hRange : InRange s) :
    s.room gameIndex = s.remainingCreditCapacity gameIndex := by
  cases hChosen : s.creditAwardBuffer s.credits.number s.creditBufferCursor
      gameIndex with
  | none => rw [room_of_none hChosen, capacity_of_none hChosen]
  | some chosen =>
    rcases chosen with ⟨block, buffer⟩
    have hLe := (hBuffered.opens hChosen).le
    have hLimit : s.bufferLimit = s.credits.number + maxPendingCreditTrees :=
      saturatingAdd_of_le hRange
    rw [room_of_chosen hChosen, remainingCreditCapacity_of_chosen hChosen, hLimit]
    unfold roomBelow roomAt
    congr 2
    omega

/- Near the last block the capacity is more than the room. -/
theorem Buffered.room_lt_capacity (hBuffered : Buffered s) (hRange : ¬ InRange s)
    (hChosen : s.creditAwardBuffer s.credits.number s.creditBufferCursor gameIndex
        = some (block, buffer)) :
    s.room gameIndex < s.remainingCreditCapacity gameIndex := by
  have hLe := (hBuffered.opens hChosen).le
  have hLt := chosen_lt_bufferLimit hChosen
  have hTop : s.bufferLimit ≤ u32Max := saturatingAdd_le _ _ _
  have hMore : s.bufferLimit - (block + 1) + 1
        ≤ maxPendingCreditTrees - (block - s.credits.number + 1) := by
    unfold InRange at hRange
    omega
  have hMul := Nat.mul_le_mul_right awardsPerTree hMore
  have hFull : 0 < awardsPerTree := by decide
  rw [Nat.add_mul] at hMul
  rw [room_of_chosen hChosen, remainingCreditCapacity_of_chosen hChosen]
  unfold roomBelow roomAt
  omega

theorem FreshAwards.of_append {awards rest : List (Grant C × Nat)}
    (hFresh : FreshAwards s gameIndex (awards ++ rest)) :
    FreshAwards s gameIndex awards where
  fits := fun award hMem => hFresh.fits award (List.mem_append_left _ hMem)
  fresh := fun award hMem => hFresh.fresh award (List.mem_append_left _ hMem)
  nodup := by
    have hNodup := hFresh.nodup
    rw [List.map_append] at hNodup
    exact hNodup.of_append_left

theorem Buffered.capacityExact (hBuffered : Buffered s) (hRange : InRange s) :
    CapacityExact s gameIndex where
  recorded := by
    intro before award hFresh hLt
    rw [← hBuffered.room_eq_capacity hRange] at hLt
    rcases hBuffered.awardAll hFresh (Nat.le_of_lt hLt) with ⟨hBefore, hRoom, hCredits, hLast⟩
    have hMem := List.mem_singleton_self award
    rcases hBefore.award_fresh award.2 (hLast.fits award hMem) (hLast.fresh award hMem)
      with ⟨hZero, _⟩ | ⟨after, hAward, hAfter, hNext, hSame, _⟩
    · omega
    · have hRangeBefore : InRange (s.awardAll gameIndex before) := by
        unfold InRange
        rw [hCredits]
        exact hRange
      have hRangeAfter : InRange after := by
        unfold InRange
        rw [hSame, hCredits]
        exact hRange
      have hStep : s.awardAll gameIndex (before ++ [award]) = after := by
        have hFold : s.awardAll gameIndex (before ++ [award])
              = ((s.awardAll gameIndex before).awardNftClaimCredit
                  gameIndex award.1 award.2).1 := by
          unfold AwardingState.awardAll
          rw [List.foldl_append]
          rfl
        rw [hFold, hAward]
      rw [hStep, hAward, ← hAfter.room_eq_capacity hRangeAfter,
        ← hBefore.room_eq_capacity hRangeBefore]
      exact ⟨rfl, hNext⟩
  dropped := by
    intro before award hFresh hEq
    rw [← hBuffered.room_eq_capacity hRange] at hEq
    rcases hBuffered.awardAll hFresh (Nat.le_of_eq hEq) with ⟨hBefore, hRoom, _, hLast⟩
    have hMem := List.mem_singleton_self award
    rcases hBefore.award_fresh award.2 (hLast.fits award hMem) (hLast.fresh award hMem)
      with ⟨_, hDropped⟩ | ⟨after, _, _, hNext, _⟩
    · exact hDropped
    · omega

/- Without any buffer the capacity is zero, and exact. -/
theorem Buffered.capacityExact_of_none (hBuffered : Buffered s)
    (hChosen : s.creditAwardBuffer s.credits.number s.creditBufferCursor gameIndex = none) :
    CapacityExact s gameIndex where
  recorded := by
    intro before award _ hLt
    rw [capacity_of_none hChosen] at hLt
    exact absurd hLt (Nat.not_lt_zero _)
  dropped := by
    intro before award hFresh hEq
    rw [capacity_of_none hChosen, List.length_eq_zero_iff] at hEq
    subst hEq
    have hMem : award ∈ [] ++ [award] := List.mem_singleton_self award
    rcases hBuffered.award_fresh award.2 (hFresh.fits award hMem) (hFresh.fresh award hMem)
      with ⟨_, hDropped⟩ | ⟨after, _, _, hNext, _⟩
    · exact hDropped
    · rw [room_of_none hChosen] at hNext
      omega

/- Near the last block the award that finds no buffer comes before the capacity is used up. -/
theorem Buffered.not_capacityExact (hBuffered : Buffered s) (hRange : ¬ InRange s)
    (hChosen : s.creditAwardBuffer s.credits.number s.creditBufferCursor gameIndex
        = some (block, buffer))
    {awards : List (Grant C × Nat)}
    (hFresh : FreshAwards s gameIndex awards)
    (hLength : awards.length = s.remainingCreditCapacity gameIndex) :
    ¬ CapacityExact s gameIndex := by
  intro hExact
  have hLt := hBuffered.room_lt_capacity hRange hChosen
  have hSplit : awards = awards.take (s.room gameIndex) ++ awards.drop (s.room gameIndex) :=
    (List.take_append_drop _ _).symm
  have hBefore : (awards.take (s.room gameIndex)).length = s.room gameIndex := by
    rw [List.length_take]
    omega
  cases hDrop : awards.drop (s.room gameIndex) with
  | nil =>
    have hNone := congrArg List.length hDrop
    rw [List.length_drop, List.length_nil] at hNone
    omega
  | cons award rest =>
    rw [hSplit, hDrop, List.append_cons] at hFresh
    generalize awards.take (s.room gameIndex) = before at hFresh hBefore
    rcases hBuffered.awardAll hFresh.of_append (Nat.le_of_eq hBefore) with ⟨hFull, hRoom, _, hLast⟩
    have hMem := List.mem_singleton_self award
    have hRecorded := (hExact.recorded before award hFresh.of_append (by omega)).1
    rcases hFull.award_fresh award.2 (hLast.fits award hMem) (hLast.fresh award hMem)
      with ⟨_, hDropped⟩ | ⟨after, _, _, hNext, _⟩
    · rw [hDropped] at hRecorded
      cases hRecorded
    · omega

/-
  The capacity of a game is exact, and so is the one of each other game after some awards within it.
-/
def CapacitiesExact (s : AwardingState C) (gameIndex : Nat) : Prop :=
  CapacityExact s gameIndex ∧ ∀ awards other, FreshAwards s gameIndex awards →
      awards.length ≤ s.remainingCreditCapacity gameIndex →
      other ≠ gameIndex → CapacityExact (s.awardAll gameIndex awards) other

/- No buffer is left for any game. -/
def NoBuffers (s : AwardingState C) : Prop :=
  ∀ gameIndex, s.creditAwardBuffer s.credits.number s.creditBufferCursor gameIndex = none

theorem Buffered.capacitiesExact (hBuffered : Buffered s) (hState : InRange s ∨ NoBuffers s) :
    CapacitiesExact s gameIndex := by
  rcases hState with hRange | hNone
  · refine ⟨hBuffered.capacityExact hRange, ?_⟩
    intro awards other hFresh hLe _
    rw [← hBuffered.room_eq_capacity hRange] at hLe
    have hAppend : FreshAwards s gameIndex (awards ++ []) := by
      rw [List.append_nil]
      exact hFresh
    have hAll := hBuffered.awardAll hAppend hLe
    refine hAll.1.capacityExact ?_
    unfold InRange
    rw [hAll.2.2.1]
    exact hRange
  · refine ⟨hBuffered.capacityExact_of_none (hNone _), ?_⟩
    intro awards other _ hLe _
    rw [capacity_of_none (hNone _), Nat.le_zero, List.length_eq_zero_iff] at hLe
    subst hLe
    exact hBuffered.capacityExact_of_none (hNone other)

/- There are as many fresh slots as the capacity counts. -/
def SlotsLeft (s : AwardingState C) : Prop :=
  ∀ gameIndex, ∃ awards, FreshAwards s gameIndex awards
      ∧ awards.length = s.remainingCreditCapacity gameIndex

theorem Buffered.of_capacitiesExact (hBuffered : Buffered s) (hSlots : SlotsLeft s)
    (hExact : CapacitiesExact s gameIndex) :
    InRange s ∨ NoBuffers s := by
  by_cases hRange : InRange s
  · exact Or.inl hRange
  · right
    have hEach : ∀ other, CapacityExact s other := by
      intro other
      by_cases hOther : other = gameIndex
      · rw [hOther]
        exact hExact.1
      · exact hExact.2 [] other ⟨fun _ hMem => (nomatch hMem),
              fun _ hMem => (nomatch hMem), List.nodup_nil⟩
            (Nat.zero_le _) hOther
    intro other
    cases hChosen : s.creditAwardBuffer s.credits.number s.creditBufferCursor
        other with
    | none => rfl
    | some chosen =>
      rcases hSlots other with ⟨awards, hFresh, hLength⟩
      exact absurd (hEach other) (hBuffered.not_capacityExact hRange hChosen hFresh hLength)

end NftCredits

namespace CreditTrees

open NftCredits AwardingState

--
-- Runs
--

/-
  In every state of the two chains the capacities are exact if all blocks that an award may go to
  have numbers, or if no buffer is left.  Otherwise they are not, as long as there are slots to find
  it out.
-/
theorem capacities_exact_iff
    {A : AwardChains} {allowed : AwardWorld A → AwardOp A → AwardWorld A → Prop} {w : AwardWorld A}
    (hRun : RunUnder AwardWorld.perform allowed (AwardWorld.genesis A) w) (gameIndex : Nat) :
    (InRange w.awarding ∨ NoBuffers w.awarding → CapacitiesExact w.awarding gameIndex)
      ∧ (SlotsLeft w.awarding → CapacitiesExact w.awarding gameIndex →
          InRange w.awarding ∨ NoBuffers w.awarding) :=
  ⟨fun hState =>
    (buffered_of_run hRun).capacitiesExact hState,
    fun hSlots hExact => (buffered_of_run hRun).of_capacitiesExact hSlots hExact⟩

/- The capacities after the awards of two games are exact. -/
theorem capacities_exact_iff_sample : ∃ w : AwardWorld sampleAwardChains,
      w.awarding.remainingCreditCapacity 2 = 16383 ∧ w.awarding.remainingCreditCapacity 1 = 14336
        ∧ CapacitiesExact w.awarding 2 := by
  have hExecute : (execute AwardWorld.perform inRangeCheck (AwardWorld.genesis sampleAwardChains)
        sampleAwardOps).any (fun w =>
            decide (w.awarding.remainingCreditCapacity 2 = 16383
                ∧ w.awarding.remainingCreditCapacity 1 = 14336
                ∧ InRange w.awarding)) = true := by
    decide +kernel
  rcases exists_run_of_execute inRangeCheck_spec hExecute with ⟨w, hRun, hTest⟩
  rw [decide_eq_true_eq] at hTest
  exact ⟨w, hTest.1, hTest.2.1, (capacities_exact_iff hRun 2).1 (Or.inl hTest.2.2)⟩

/- Awards to as many claimants, all in the first slot. -/
def eachClaimant (count : Nat) :
    List (Grant sampleAwardChains.awarding × Nat) :=
  (List.range count).map fun claimant => (sampleGrant claimant, 0)

theorem freshAwards_eachClaimant (n gameIndex count : Nat) :
    FreshAwards (blocksLater n).awarding gameIndex (eachClaimant count) := by
  have hGrant : ∀ award ∈ eachClaimant count, ∃ claimant, award.1 = sampleGrant claimant := by
    intro award hMem
    unfold eachClaimant at hMem
    rw [List.mem_map] at hMem
    rcases hMem with ⟨claimant, _, rfl⟩
    exact ⟨claimant, rfl⟩
  constructor
  · intro award hMem
    rcases hGrant award hMem with ⟨claimant, hEq⟩
    rw [hEq]
    change 0 < awardedCreditsCapacity
    decide
  · intro award hMem
    rcases hGrant award hMem with ⟨claimant, hEq⟩
    rw [hEq]
    have hEmpty : StorageMap.getD (blocksLater n).awarding.awardedCredits
            (gameIndex, (sampleGrant claimant).award.claimant) 0
          = 0 :=
      StorageMap.getD_empty _ _
    unfold slotIsAwarded
    rw [hEmpty]
    exact BitVec.getLsbD_zero
  · unfold eachClaimant
    rw [List.map_map]
    refine List.Nodup.map ?_ List.nodup_range
    intro a b hEq
    exact (Prod.mk.inj hEq).1

/- In the block before the last the capacity is that of eight buffers, and there is only one. -/
theorem capacity_not_exact : ∃ w : AwardWorld sampleAwardChains,
      RunUnder AwardWorld.perform (fun _ _ _ => True) (AwardWorld.genesis sampleAwardChains) w
        ∧ ¬ CapacitiesExact w.awarding 1 := by
  have hRun := run_blocksLater (n := u32Max - 1) (Nat.sub_le _ _)
  have hChosen : (blocksLater (u32Max - 1)).awarding.creditAwardBuffer (u32Max - 1) 0 1 = some
          (u32Max - 1, { gameIndex := 1, timestamp := 0, awards := 0 }) := by
    decide +kernel
  have hRange : ¬ InRange (blocksLater (u32Max - 1)).awarding := by
    decide +kernel
  have hNot := (buffered_of_run hRun).not_capacityExact hRange hChosen
      (freshAwards_eachClaimant (u32Max - 1) 1 _)
      (by unfold eachClaimant; rw [List.length_map, List.length_range])
  exact ⟨blocksLater (u32Max - 1), hRun, fun hExact => hNot hExact.1⟩

end CreditTrees

end Individuality
