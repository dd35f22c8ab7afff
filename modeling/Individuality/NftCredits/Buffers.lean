import Individuality.Base.Paged
import Individuality.CreditTrees.Delivery
import Individuality.NftCredits.Awards

/-
  What holds of the buffers of the nft-credits pallet, of the
  awards stored for them, and of the trees built from them.

  Main declaration: `AwardingState.Holds`
-/

namespace Individuality.NftCredits

open StorageMap (get_empty get_insert get_insert_of_ne get_insert_self get_remove)

open CreditTrees

variable {C : AwardConfig}

namespace AwardingState

/- The awards announced for a block, in their order. -/
def announcedAt (s : AwardingState C) (block : Nat) : List (Announcement C) :=
  s.announced.filter fun a => decide (a.block = block)

def awardsAt (s : AwardingState C) (block : Nat) : List (NftClaimCreditAward C) :=
  (s.announcedAt block).map (·.award)

/- The chunks of a block hold all awards announced for it. -/
def Stored (s : AwardingState C) (block : Nat) : Prop :=
  Paged awardsPerChunk (fun index => (s.chunk block index).toList) (s.awardsAt block)

end AwardingState

/- A buffer with some awards announced for its block. -/
structure Holds (announced : List (Announcement C)) (buffer : PendingBuffer) : Prop where
  count : buffer.awards = announced.length
  game : ∀ a ∈ announced, a.gameIndex = buffer.gameIndex
  date : ∀ a, announced.head? = some a → a.awardTime = buffer.timestamp

open AwardingState

/-
  The buffers reach from the current block up to the cursor, the awards of a block are in its chunks
  until they are swept, and each block before the current one has the tree over its awards.
-/
structure Buffered (s : AwardingState C) : Prop where
  pending : ∀ block buffer,
      s.creditBuffers.get block = some buffer →
        block < s.credits.number + maxPendingCreditTrees
          ∧ 0 < buffer.awards
          ∧ buffer.awards ≤ awardsPerTree
          ∧ Holds (s.announcedAt block) buffer
  contiguous : ((∀ block, s.creditBuffers.get block = none)
        ∧ s.creditBufferCursor ≤ s.credits.number)
      ∨ ∀ block,
        s.creditBuffers.get block ≠ none
          ↔ s.credits.number ≤ block ∧ block ≤ s.creditBufferCursor
  indexed : ∀ block i (a : Announcement C),
      (s.announcedAt block)[i]? = some a → a.leafIndex = i
  waiting : ∀ block,
      s.credits.number ≤ block →
        s.Stored block
          ∧ s.credits.recorded.get block = none
          ∧ (s.creditBuffers.get block = none → s.announcedAt block = [])
  built : ∀ block,
      block < s.credits.number →
        (s.announcedAt block = [] ∧ s.credits.recorded.get block = none)
          ∨ ∃ buffer,
            Holds (s.announcedAt block) buffer
              ∧ 0 < buffer.awards
              ∧ buffer.awards ≤ awardsPerTree
              ∧ s.credits.recorded.get block
                = some
                  (awardTree buffer.gameIndex buffer.timestamp (s.awardsAt block))
  retained : ∀ block,
      block < s.credits.number →
        s.Stored block
          ∨ ∀ index, StorageMap.get s.creditAwards (block, index) = none
  keys : ∀ block index,
      (StorageMap.get s.creditAwards (block, index) ≠ none
          ∨ StorageMap.get s.startedAwards (block, index) ≠ none) →
        index < chunksPerTree
  expiries : ∀ timestamp block,
      StorageMap.get s.awardExpiries (timestamp, block)
          = some () →
        block < s.credits.number

variable {s : AwardingState C}

theorem buffered_genesis : Buffered (AwardingState.genesis C) where
  pending := by
    intro block buffer hGet
    simp [AwardingState.genesis] at hGet
  contiguous := by
    left
    refine ⟨?_, Nat.le_refl 0⟩
    intro block
    exact get_empty block
  indexed := by
    intro block i a hGet
    simp [AwardingState.genesis, announcedAt] at hGet
  waiting := by
    intro block _
    refine ⟨?_, get_empty block, fun _ => rfl⟩
    intro index
    simp [AwardingState.genesis, chunk, awardsAt, announcedAt]
  built := by
    intro block hLt
    exact absurd hLt (Nat.not_lt_zero block)
  retained := by
    intro block hLt
    exact absurd hLt (Nat.not_lt_zero block)
  keys := by
    intro block index hGet
    simp [AwardingState.genesis] at hGet
  expiries := by
    intro timestamp block hGet
    simp [AwardingState.genesis] at hGet

/- A block with a buffer is not built yet. -/
theorem Buffered.le_of_get (hBuffered : Buffered s) {block : Nat}
    (hGet : s.creditBuffers.get block ≠ none) :
    s.credits.number ≤ block ∧ block ≤ s.creditBufferCursor := by
  rcases hBuffered.contiguous with ⟨hNone, _⟩ | hRange
  · exact absurd (hNone block) hGet
  · exact (hRange block).mp hGet

/- An announcement stands at its place. -/
theorem Buffered.place (hBuffered : Buffered s) {a : Announcement C} (hMem : a ∈ s.announced) :
    a ∈ s.announcedAt a.block ∧ (s.awardsAt a.block)[a.leafIndex]? = some a.award := by
  have hAt : a ∈ s.announcedAt a.block := by
    unfold announcedAt
    rw [List.mem_filter]
    exact ⟨hMem, decide_eq_true rfl⟩
  refine ⟨hAt, ?_⟩
  rcases List.mem_iff_getElem?.mp hAt with ⟨i, hGet⟩
  have hIndex := hBuffered.indexed a.block i a hGet
  unfold awardsAt
  rw [hIndex, List.getElem?_map, hGet]
  rfl

--
-- The Buffer of an Award
--

/- The buffer an award goes into: one with room that extends the buffers by at most one block. -/
structure Opens (s : AwardingState C) (gameIndex block : Nat) (buffer : PendingBuffer) : Prop where
  le : s.credits.number ≤ block
  lt : block < s.credits.number + maxPendingCreditTrees
  room : buffer.awards < awardsPerTree
  game : buffer.gameIndex = gameIndex
  range : ∀ b,
      (b = block ∨ s.creditBuffers.get b ≠ none)
        ↔ s.credits.number ≤ b ∧ b ≤ block
  count : buffer.awards = (s.announcedAt block).length
  same : ∀ a ∈ s.announcedAt block, a.gameIndex = buffer.gameIndex
  date : ∀ a, (s.announcedAt block).head? = some a → a.awardTime = buffer.timestamp

/- No buffer is past the one under the cursor. -/
theorem Buffered.cursor_lt (hBuffered : Buffered s)
    (hNone : s.creditBuffers.get (max s.creditBufferCursor s.credits.number) = none) :
    (∀ b, s.creditBuffers.get b = none) ∧ s.creditBufferCursor ≤ s.credits.number := by
  rcases hBuffered.contiguous with hEmpty | hRange
  · exact hEmpty
  · have hPast : s.creditBufferCursor < s.credits.number := by
      by_contra hLe
      have hMax : max s.creditBufferCursor s.credits.number = s.creditBufferCursor :=
        Nat.max_eq_left (Nat.le_of_not_lt hLe)
      rw [hMax] at hNone
      exact (hRange s.creditBufferCursor).mpr ⟨Nat.le_of_not_lt hLe, Nat.le_refl _⟩ hNone
    refine ⟨?_, Nat.le_of_lt hPast⟩
    intro b
    by_contra hGet
    have hBounds := (hRange b).mp hGet
    omega

/- A block without a buffer opens a fresh one. -/
theorem Buffered.opens_fresh (hBuffered : Buffered s) {gameIndex block : Nat}
    (hLe : s.credits.number ≤ block) (hLt : block < s.credits.number + maxPendingCreditTrees)
    (hNone : s.creditBuffers.get block = none)
    (hRange : ∀ b, (b = block ∨ s.creditBuffers.get b ≠ none) ↔ s.credits.number ≤ b ∧ b ≤ block) :
    Opens s gameIndex block { gameIndex := gameIndex, timestamp := 0, awards := 0 } := by
  have hAnnounced := (hBuffered.waiting block hLe).2.2 hNone
  constructor
  · exact hLe
  · exact hLt
  · change 0 < awardsPerTree
    decide
  · rfl
  · exact hRange
  · rw [hAnnounced]
    rfl
  · rw [hAnnounced]
    intro a hMem
    cases hMem
  · rw [hAnnounced]
    intro a hHead
    cases hHead

/- What the choice of a buffer says of the buffer. -/
theorem Buffered.opens (hBuffered : Buffered s) {gameIndex block : Nat} {buffer : PendingBuffer}
    (hChosen : s.creditAwardBuffer s.credits.number s.creditBufferCursor gameIndex
        = some (block, buffer)) :
    Opens s gameIndex block buffer := by
  have hLimit : saturatingAdd u32Max s.credits.number maxPendingCreditTrees
        ≤ s.credits.number + maxPendingCreditTrees :=
    saturatingAdd_le_add _ _ _
  have hTop : saturatingAdd u32Max s.credits.number maxPendingCreditTrees ≤ u32Max :=
    saturatingAdd_le _ _ _
  unfold creditAwardBuffer at hChosen
  cases hGet : s.creditBuffers.get
      (max s.creditBufferCursor s.credits.number) with
  | none =>
    simp only [hGet, Option.ite_none_right_eq_some, Option.some.injEq, Prod.mk.injEq] at hChosen
    rcases hChosen with ⟨hLt, rfl, rfl⟩
    have hEmpty := hBuffered.cursor_lt hGet
    refine hBuffered.opens_fresh (Nat.le_max_right _ _) (by omega) hGet ?_
    intro b
    rw [hEmpty.1 b]
    have hCursor := hEmpty.2
    simp only [ne_eq, not_true_eq_false, or_false]
    omega
  | some pending =>
    have hBounds := hBuffered.le_of_get (by rw [hGet]; simp)
    have hMax : max s.creditBufferCursor s.credits.number = s.creditBufferCursor := by
      omega
    have hRange : ∀ b, s.creditBuffers.get b ≠ none
            ↔ s.credits.number ≤ b ∧ b ≤ s.creditBufferCursor := by
      rcases hBuffered.contiguous with ⟨hNone, _⟩ | hRange
      · rw [hNone] at hGet
        cases hGet
      · exact hRange
    rw [hMax] at hGet hBounds
    simp only [hMax, hGet, Option.ite_none_right_eq_some] at hChosen
    rcases hChosen with ⟨hLt, hChosen⟩
    by_cases hRoom : pending.awards < awardsPerTree ∧ pending.gameIndex = gameIndex
    · rw [if_pos hRoom] at hLt hChosen
      simp only [Option.some.injEq, Prod.mk.injEq] at hChosen
      rcases hChosen with ⟨rfl, rfl⟩
      have hPending := hBuffered.pending _ _ hGet
      constructor
      · exact hBounds.1
      · exact hPending.1
      · exact hRoom.1
      · exact hRoom.2
      · intro b
        rw [← hRange b]
        constructor
        · rintro (rfl | hSome)
          · rw [hGet]
            simp
          · exact hSome
        · exact Or.inr
      · exact hPending.2.2.2.count
      · exact hPending.2.2.2.game
      · exact hPending.2.2.2.date
    · rw [if_neg hRoom] at hLt hChosen
      simp only [Option.some.injEq, Prod.mk.injEq] at hChosen
      rcases hChosen with ⟨rfl, rfl⟩
      -- The next block is not beyond the largest number.
      have hNext : saturatingAdd u32Max s.creditBufferCursor 1 = s.creditBufferCursor + 1 := by
        simp only [saturatingAdd] at hLt hTop ⊢
        omega
      rw [hNext] at hLt ⊢
      refine hBuffered.opens_fresh (by omega) (by omega) ?_ ?_
      · by_contra hSome
        have hPast := (hRange _).mp hSome
        omega
      · intro b
        rw [hRange b]
        omega

--
-- Recording an Award
--

section Record

variable {gameIndex awardTime block : Nat} {grant : Grant C} {buffer : PendingBuffer}
variable
  {chunk : BoundedVec (NftClaimCreditAward C) awardsPerChunk}

/- The announcement that an award makes. -/
def announcementOf (gameIndex awardTime block : Nat) (grant : Grant C)
    (buffer : PendingBuffer) : Announcement C :=
  { block := block
    leafIndex := buffer.awards
    gameIndex := gameIndex
    awardTime := awardTime
    award := grant.award }

theorem announcedAt_recordAward (b : Nat) :
    (s.recordAward gameIndex grant awardTime block buffer chunk ).announcedAt b = if b = block then
          s.announcedAt block ++ [announcementOf gameIndex awardTime block grant buffer]
        else s.announcedAt b := by
  unfold announcedAt recordAward announce
  dsimp only
  rw [List.filter_append]
  by_cases hBlock : b = block
  · subst hBlock
    simp [announcementOf, noteCreditBlock, markSlot, storeAward]
  · simp [hBlock, Ne.symm hBlock, noteCreditBlock, markSlot, storeAward]

theorem awardsAt_recordAward (b : Nat) :
    (s.recordAward gameIndex grant awardTime block buffer chunk ).awardsAt b
      = if b = block then s.awardsAt block ++ [grant.award] else s.awardsAt b := by
  unfold awardsAt
  rw [announcedAt_recordAward]
  split
  · rw [List.map_append]
    rfl
  · rfl

theorem chunk_recordAward (b index : Nat) :
    (s.recordAward gameIndex grant awardTime block buffer chunk ).chunk b index = if (b, index)
            = (block, buffer.awards / awardsPerChunk) then
          chunk
        else s.chunk b index :=
  StorageMap.getD_insert _ _ _ _ _

theorem length_awardsAt (b : Nat) :
    (s.awardsAt b).length = (s.announcedAt b).length :=
  List.length_map _

/- A buffer with room has room in its last chunk. -/
theorem exists_push_of_stored (hStored : s.Stored block)
    (hCount : buffer.awards = (s.announcedAt block).length) (award : NftClaimCreditAward C) :
    ∃ pushed, (s.chunk block (buffer.awards / awardsPerChunk)).tryPush award = some pushed := by
  unfold BoundedVec.tryPush
  rw [BoundedVec.ofList?_isSome_iff]
  have hLast := hStored.length_last_page (by decide)
  rw [length_awardsAt, ← hCount] at hLast
  have hMod : buffer.awards % awardsPerChunk < awardsPerChunk := Nat.mod_lt _ (by decide)
  rw [List.length_append, List.length_singleton, hLast]
  exact hMod

/- The pages of the block grow by the award. -/
theorem stored_recordAward (hStored : s.Stored block)
    (hCount : buffer.awards = (s.announcedAt block).length)
    (hPush : (s.chunk block (buffer.awards / awardsPerChunk)).tryPush grant.award = some chunk) :
    (s.recordAward gameIndex grant awardTime block buffer chunk ).Stored block := by
  rw [BoundedVec.tryPush_eq_some_iff] at hPush
  have hPaged := hStored.append_singleton (by decide) grant.award
  rw [length_awardsAt, ← hCount] at hPaged
  unfold Stored
  rw [awardsAt_recordAward, if_pos rfl]
  intro index
  rw [← hPaged index]
  dsimp only
  rw [chunk_recordAward]
  by_cases hIndex : index = buffer.awards / awardsPerChunk
  · rw [hIndex, if_pos rfl, Function.update_self, hPush]
  · rw [if_neg, Function.update_of_ne hIndex]
    rintro ⟨_, rfl⟩
    exact hIndex rfl

theorem stored_recordAward_of_ne {b : Nat} (hNe : b ≠ block) (hStored : s.Stored b) :
    (s.recordAward gameIndex grant awardTime block buffer chunk ).Stored b := by
  unfold Stored
  rw [awardsAt_recordAward, if_neg hNe]
  intro index
  rw [← hStored index]
  dsimp only
  rw [chunk_recordAward, if_neg]
  rintro ⟨rfl, _⟩
  exact hNe rfl

/- The buffer counts the award, and keeps its date. -/
theorem holds_recordAward (hOpens : Opens s gameIndex block buffer) :
    Holds ((s.recordAward gameIndex grant awardTime block buffer chunk).announcedAt block)
      { buffer with
        timestamp :=
          if buffer.awards = 0 then awardTime
          else buffer.timestamp
        awards := saturatingAdd u32Max buffer.awards 1 } := by
  have hRoom := hOpens.room
  have hNext : saturatingAdd u32Max buffer.awards 1 = buffer.awards + 1 := by
    apply saturatingAdd_of_le
    simp only [awardsPerTree, chunksPerTree, awardsPerChunk] at hRoom
    simp only [u32Max]
    omega
  rw [announcedAt_recordAward, if_pos rfl]
  constructor
  · dsimp only
    rw [hNext, List.length_append, ← hOpens.count]
    rfl
  · intro a hMem
    rw [List.mem_append, List.mem_singleton] at hMem
    rcases hMem with hOld | rfl
    · exact hOpens.same a hOld
    · exact hOpens.game.symm
  · intro a hHead
    cases hOld : s.announcedAt block with
    | nil =>
      rw [hOld] at hHead
      have hZero : buffer.awards = 0 := by
        rw [hOpens.count, hOld]
        rfl
      cases hHead
      exact (if_pos hZero).symm
    | cons first rest =>
      rw [hOld] at hHead
      have hPos : buffer.awards ≠ 0 := by
        rw [hOpens.count, hOld]
        exact Nat.succ_ne_zero _
      have hDate := hOpens.date first (by rw [hOld]; rfl)
      cases hHead
      rw [hDate]
      exact (if_neg hPos).symm

/- An award keeps what holds of the buffers. -/
theorem Buffered.recordAward (hBuffered : Buffered s) (hOpens : Opens s gameIndex block buffer)
    (hPush : (s.chunk block (buffer.awards / awardsPerChunk)).tryPush grant.award = some chunk) :
    Buffered (s.recordAward gameIndex grant awardTime block buffer chunk) where
  pending := by
    intro b found hGet
    change (s.creditBuffers.insert block _).get b = some found
      at hGet
    rw [get_insert] at hGet
    by_cases hBlock : b = block
    · rw [if_pos hBlock] at hGet
      cases hGet
      subst hBlock
      refine ⟨hOpens.lt, ?_, ?_, holds_recordAward hOpens⟩
      · exact saturatingAdd_pos (by decide) Nat.one_pos
      · exact Nat.le_trans (saturatingAdd_le_add _ _ _) hOpens.room
    · rw [if_neg hBlock] at hGet
      rw [announcedAt_recordAward, if_neg hBlock]
      exact hBuffered.pending b found hGet
  contiguous := by
    right
    intro b
    change (s.creditBuffers.insert block _).get b ≠ none ↔ s.credits.number ≤ b ∧ b ≤ block
    rw [← hOpens.range b, get_insert]
    by_cases hBlock : b = block
    · simp [hBlock]
    · simp [hBlock]
  indexed := by
    intro b i a hGet
    rw [announcedAt_recordAward] at hGet
    split at hGet
    · rw [List.getElem?_append] at hGet
      split at hGet
      · exact hBuffered.indexed block i a hGet
      · rename_i hLe
        rw [List.getElem?_singleton] at hGet
        split at hGet
        · cases hGet
          change buffer.awards = i
          rw [hOpens.count]
          omega
        · cases hGet
    · exact hBuffered.indexed b i a hGet
  waiting := by
    intro b hLe
    have hOld := hBuffered.waiting b hLe
    by_cases hBlock : b = block
    · subst hBlock
      refine ⟨stored_recordAward hOld.1 hOpens.count hPush, hOld.2.1, ?_⟩
      intro hNone
      change (s.creditBuffers.insert b _).get b = none at hNone
      rw [get_insert_self] at hNone
      cases hNone
    · refine ⟨stored_recordAward_of_ne hBlock hOld.1, hOld.2.1, ?_⟩
      intro hNone
      change (s.creditBuffers.insert block _).get b = none at hNone
      rw [get_insert_of_ne _ _ hBlock] at hNone
      rw [announcedAt_recordAward, if_neg hBlock]
      exact hOld.2.2 hNone
  built := by
    intro b hLt
    have hBlock : b ≠ block := by
      have hLe := hOpens.le
      rintro rfl
      exact Nat.not_lt_of_le hLe hLt
    rw [announcedAt_recordAward, awardsAt_recordAward, if_neg hBlock, if_neg hBlock]
    exact hBuffered.built b hLt
  retained := by
    intro b hLt
    have hBlock : b ≠ block := by
      have hLe := hOpens.le
      rintro rfl
      exact Nat.not_lt_of_le hLe hLt
    rcases hBuffered.retained b hLt with hStored | hGone
    · exact Or.inl (stored_recordAward_of_ne hBlock hStored)
    · right
      intro index
      change StorageMap.get (s.creditAwards.insert (block, buffer.awards / awardsPerChunk) chunk)
          (b, index) = none
      rw [get_insert_of_ne]
      · exact hGone index
      · rintro ⟨rfl, _⟩
        exact hBlock rfl
  keys := by
    intro b index hGet
    change StorageMap.get (s.creditAwards.insert (block, buffer.awards / awardsPerChunk) chunk)
          (b, index) ≠ none
        ∨ _ at hGet
    rw [get_insert] at hGet
    by_cases hKey : (b, index) = (block, buffer.awards / awardsPerChunk)
    · cases hKey
      have hRoom := hOpens.room
      exact Nat.div_lt_of_lt_mul (by rw [Nat.mul_comm]; exact hRoom)
    · rw [if_neg hKey] at hGet
      exact hBuffered.keys b index hGet
  expiries := hBuffered.expiries

--
-- Awards
--

/- What holds does not depend on the branches taken. -/
theorem Buffered.defensive (hBuffered : Buffered s) (branch : Defensive) :
    Buffered (s.defensive branch) where
  pending := hBuffered.pending
  contiguous := hBuffered.contiguous
  indexed := hBuffered.indexed
  waiting := hBuffered.waiting
  built := hBuffered.built
  retained := hBuffered.retained
  keys := hBuffered.keys
  expiries := hBuffered.expiries

/- An award keeps what holds, whichever branch it takes. -/
theorem Buffered.award (hBuffered : Buffered s) :
    Buffered (s.awardNftClaimCredit gameIndex grant awardTime).1 := by
  unfold awardNftClaimCredit
  split
  · exact hBuffered.defensive _
  · split
    · exact hBuffered
    · split
      · exact hBuffered.defensive _
      · rename_i block buffer hChosen
        split
        · exact hBuffered.defensive _
        · rename_i chunk hPush
          exact hBuffered.recordAward (hBuffered.opens hChosen) hPush

theorem Buffered.awardCredits (hBuffered : Buffered s) (grants : List (Grant C)) :
    Buffered (s.awardCredits gameIndex grants awardTime).1 := by
  unfold AwardingState.awardCredits
  generalize (0 : Nat) = recorded
  induction grants generalizing s recorded with
  | nil => exact hBuffered
  | cons grant grants ih =>
    rw [List.foldl_cons]
    exact ih hBuffered.award _

/- An award with a buffer to go into is recorded, or it was recorded before. -/
theorem Buffered.award_cases (hBuffered : Buffered s)
    (hSlot : grant.creditSlot < awardedCreditsCapacity)
    (hChosen : s.creditAwardBuffer s.credits.number s.creditBufferCursor gameIndex
        = some (block, buffer)) :
    s.awardNftClaimCredit gameIndex grant awardTime = (s, 0) ∨ ∃ chunk,
        (s.chunk block (buffer.awards / awardsPerChunk)).tryPush grant.award = some chunk
          ∧ s.awardNftClaimCredit gameIndex grant awardTime
            = (s.recordAward gameIndex grant awardTime block buffer chunk, 1) := by
  have hOpens := hBuffered.opens hChosen
  rcases exists_push_of_stored (hBuffered.waiting block hOpens.le).1 hOpens.count grant.award
    with ⟨chunk, hPush⟩
  unfold awardNftClaimCredit
  rw [if_neg (not_not.mpr hSlot)]
  by_cases hAwarded : s.slotIsAwarded gameIndex grant = true
  · exact Or.inl (if_pos hAwarded)
  · right
    refine ⟨chunk, hPush, ?_⟩
    rw [if_neg hAwarded, hChosen]
    dsimp only
    rw [hPush]

/- The room that the choice of a buffer leaves. -/
def roomAt (now block : Nat) (buffer : PendingBuffer) : Nat :=
  awardsPerTree - buffer.awards + (maxPendingCreditTrees - (block - now + 1)) * awardsPerTree

/- The capacity is the room of the buffer that is chosen. -/
theorem remainingCreditCapacity_of_chosen
    (hChosen : s.creditAwardBuffer s.credits.number s.creditBufferCursor gameIndex
        = some (block, buffer)) :
    s.remainingCreditCapacity gameIndex = roomAt s.credits.number block buffer := by
  unfold remainingCreditCapacity
  dsimp only
  rw [hChosen]
  dsimp only
  have hOpened : maxPendingCreditTrees - saturatingAdd u32Max (block - s.credits.number) 1
        = maxPendingCreditTrees - (block - s.credits.number + 1) := by
    simp only [saturatingAdd, maxPendingCreditTrees, u32Max]
    omega
  have hFurther : maxPendingCreditTrees - (block - s.credits.number + 1) ≤ 8 := Nat.sub_le _ _
  have hProduct : (maxPendingCreditTrees - (block - s.credits.number + 1)) * awardsPerTree
        ≤ 8 * awardsPerTree :=
    Nat.mul_le_mul_right _ hFurther
  have hFull : 8 * awardsPerTree + awardsPerTree ≤ u32Max := by
    decide
  unfold roomAt
  rw [hOpened, saturatingMul_of_le (by omega), saturatingAdd_of_le (by omega)]

theorem remainingCreditCapacity_of_none
    (hNone : s.creditAwardBuffer s.credits.number s.creditBufferCursor gameIndex = none) :
    s.remainingCreditCapacity gameIndex = 0 := by
  unfold remainingCreditCapacity
  dsimp only
  rw [hNone]

theorem chosen_of_capacity (hRoom : 0 < s.remainingCreditCapacity gameIndex) :
    ∃ block buffer, s.creditAwardBuffer s.credits.number s.creditBufferCursor gameIndex
        = some (block, buffer) := by
  unfold remainingCreditCapacity at hRoom
  dsimp only at hRoom
  cases hChosen : s.creditAwardBuffer s.credits.number s.creditBufferCursor
      gameIndex with
  | none =>
    rw [hChosen] at hRoom
    exact absurd hRoom (Nat.lt_irrefl 0)
  | some chosen => exact ⟨chosen.1, chosen.2, rfl⟩

/- All blocks that an award may go to have numbers. -/
def InRange (s : AwardingState C) : Prop :=
  s.credits.number + maxPendingCreditTrees ≤ u32Max

/- A recorded award takes one unit of the capacity. -/
theorem capacity_recordAward (hRange : InRange s) (hOpens : Opens s gameIndex block buffer) :
    (s.recordAward gameIndex grant awardTime block buffer chunk
        ).remainingCreditCapacity gameIndex + 1
      = roomAt s.credits.number block buffer := by
  have hRoom := hOpens.room
  have hLe := hOpens.le
  have hLt := hOpens.lt
  have hLimit : saturatingAdd u32Max s.credits.number maxPendingCreditTrees
        = s.credits.number + maxPendingCreditTrees :=
    saturatingAdd_of_le hRange
  have hNext : saturatingAdd u32Max buffer.awards 1 = buffer.awards + 1 := by
    apply saturatingAdd_of_le
    simp only [awardsPerTree, chunksPerTree, awardsPerChunk] at hRoom
    simp only [u32Max]
    omega
  have hBlock : saturatingAdd u32Max block 1 = block + 1 := by
    apply saturatingAdd_of_le
    unfold InRange at hRange
    omega
  have hMax : max block s.credits.number = block := Nat.max_eq_left hLe
  let after : PendingBuffer :=
    { buffer with
      timestamp :=
        if buffer.awards = 0 then awardTime
        else buffer.timestamp
      awards := buffer.awards + 1 }
  have hGet : (s.recordAward gameIndex grant awardTime block buffer
          chunk).creditBuffers.get block = some after := by
    refine (get_insert_self _ _ _).trans ?_
    rw [hNext]
  by_cases hFull : buffer.awards + 1 < awardsPerTree
  · have hChosen : (s.recordAward gameIndex grant awardTime block buffer
            chunk).creditAwardBuffer s.credits.number block gameIndex
          = some (block, after) := by
      have hFits : after.awards < awardsPerTree ∧ after.gameIndex = gameIndex :=
        ⟨hFull, hOpens.game⟩
      unfold creditAwardBuffer
      simp only [hMax, hGet, hLimit]
      simp only [if_pos hFits, if_pos hLt]
    rw [remainingCreditCapacity_of_chosen hChosen]
    change roomAt s.credits.number block after + 1 = _
    unfold roomAt
    dsimp only [after]
    omega
  · have hLast : buffer.awards + 1 = awardsPerTree := by
      omega
    let fresh : PendingBuffer := { gameIndex := gameIndex, timestamp := 0, awards := 0 }
    have hChosen : (s.recordAward gameIndex grant awardTime block buffer
            chunk).creditAwardBuffer s.credits.number block gameIndex
          = if block + 1
                < s.credits.number + maxPendingCreditTrees then
              some (block + 1, fresh)
            else none := by
      have hFits : ¬ (after.awards < awardsPerTree ∧ after.gameIndex = gameIndex) :=
        fun h => hFull h.1
      unfold creditAwardBuffer
      simp only [hMax, hGet, hLimit]
      simp only [if_neg hFits, hBlock]
      rfl
    have hRoomAt : roomAt s.credits.number block buffer
          = 1 + (maxPendingCreditTrees - (block - s.credits.number + 1)) * awardsPerTree := by
      unfold roomAt
      omega
    rw [hRoomAt]
    by_cases hMore : block + 1 < s.credits.number + maxPendingCreditTrees
    · rw [if_pos hMore] at hChosen
      rw [remainingCreditCapacity_of_chosen hChosen]
      change roomAt s.credits.number (block + 1) fresh + 1 = _
      have hLeft : maxPendingCreditTrees - (block - s.credits.number + 1) = maxPendingCreditTrees
                - (block + 1 - s.credits.number + 1) + 1 := by
        omega
      unfold roomAt
      dsimp only [fresh]
      rw [hLeft, Nat.add_mul]
      omega
    · rw [if_neg hMore] at hChosen
      have hZero : (s.recordAward gameIndex grant awardTime block buffer
              chunk).remainingCreditCapacity gameIndex = 0 :=
        remainingCreditCapacity_of_none hChosen
      have hLeft : maxPendingCreditTrees - (block - s.credits.number + 1) = 0 := by
        omega
      rw [hZero, hLeft]
      omega

/- Awards within the capacity take no defensive branch. -/
theorem Buffered.defensives_awardCredits (hBuffered : Buffered s) (hRange : InRange s)
    {grants : List (Grant C)} (hSlots : ∀ grant ∈ grants, grant.creditSlot < awardedCreditsCapacity)
    (hRoom : grants.length ≤ s.remainingCreditCapacity gameIndex) :
    (s.awardCredits gameIndex grants awardTime).1.defensives = s.defensives := by
  unfold AwardingState.awardCredits
  generalize (0 : Nat) = recorded
  induction grants generalizing s recorded with
  | nil => rfl
  | cons grant grants ih =>
    rw [List.foldl_cons]
    dsimp only
    have hRest : ∀ g ∈ grants, g.creditSlot < awardedCreditsCapacity :=
      fun g hMem => hSlots g (List.mem_cons_of_mem _ hMem)
    have hPos : 0 < s.remainingCreditCapacity gameIndex := Nat.lt_of_lt_of_le (Nat.succ_pos _) hRoom
    rcases chosen_of_capacity hPos with ⟨block, buffer, hChosen⟩
    rw [List.length_cons] at hRoom
    rcases hBuffered.award_cases (hSlots grant (List.mem_cons_self ..)) hChosen
      with hSame | ⟨chunk, hPush, hNext⟩
    · rw [hSame]
      exact ih hBuffered hRange hRest (by omega) _
    · rw [hNext]
      have hOpens := hBuffered.opens hChosen
      have hCapacity : (s.recordAward gameIndex grant awardTime block
              buffer chunk).remainingCreditCapacity gameIndex + 1
            = roomAt s.credits.number block buffer :=
        capacity_recordAward hRange hOpens
      rw [remainingCreditCapacity_of_chosen hChosen] at hRoom
      exact ih (hBuffered.recordAward hOpens hPush) hRange hRest (by omega) _

end Record

--
-- Building Trees
--

section Build

variable {block : Nat}

/- The chunks of a block read back as its awards. -/
theorem blockAwards_of_stored (hStored : s.Stored block) {count : Nat}
    (hCount : count = (s.announcedAt block).length) :
    s.blockAwards block count = s.awardsAt block := by
  unfold AwardingState.blockAwards
  refine (hStored.flatMap_range _).trans ?_
  apply List.take_of_length_le
  rw [length_awardsAt, ← hCount]
  simp only [awardsPerChunk]
  omega

theorem number_queueCreditTreeDelivery {D : Config} (s : CreditsState D) (block : Nat) :
    (s.queueCreditTreeDelivery block).number = s.number := by
  unfold CreditsState.queueCreditTreeDelivery
  split <;> rfl

/- A block without a buffer gets no tree. -/
theorem Buffered.startBlock (hBuffered : Buffered s)
    (hNone : s.creditBuffers.get s.credits.number = none) :
    Buffered s.startBlock where
  pending := by
    intro b buffer hGet
    have hPending := hBuffered.pending b buffer hGet
    refine ⟨?_, hPending.2⟩
    have hLt := hPending.1
    change b < s.credits.number + 1 + maxPendingCreditTrees
    omega
  contiguous := by
    rcases hBuffered.contiguous with ⟨hEmpty, hLe⟩ | hRange
    · exact Or.inl ⟨hEmpty, Nat.le_succ_of_le hLe⟩
    · left
      have hPast : ¬ s.credits.number ≤ s.creditBufferCursor := by
        intro hLe
        exact (hRange s.credits.number).mpr ⟨Nat.le_refl _, hLe⟩ hNone
      refine ⟨?_, ?_⟩
      · intro b
        by_contra hGet
        have hBounds := (hRange b).mp hGet
        omega
      · change s.creditBufferCursor ≤ s.credits.number + 1
        omega
  indexed := hBuffered.indexed
  waiting := by
    intro b hLe
    exact hBuffered.waiting b (Nat.le_of_succ_le hLe)
  built := by
    intro b hLt
    rcases Nat.lt_succ_iff_lt_or_eq.mp hLt with hOld | rfl
    · exact hBuffered.built b hOld
    · have hWaiting := hBuffered.waiting s.credits.number (Nat.le_refl _)
      exact Or.inl ⟨hWaiting.2.2 hNone, hWaiting.2.1⟩
  retained := by
    intro b hLt
    rcases Nat.lt_succ_iff_lt_or_eq.mp hLt with hOld | rfl
    · exact hBuffered.retained b hOld
    · exact Or.inl (hBuffered.waiting s.credits.number (Nat.le_refl _)).1
  keys := by
    intro b index hGet
    exact hBuffered.keys b index (Or.inl (hGet.elim id id))
  expiries := by
    intro timestamp b hGet
    exact Nat.lt_succ_of_lt (hBuffered.expiries timestamp b hGet)

/- A buffer that counts its awards gets the tree over them. -/
theorem buildTree_of_blockAwards {t : AwardingState C} {buffer : PendingBuffer}
    {awards : List (NftClaimCreditAward C)} (hAwards : t.blockAwards block buffer.awards = awards)
    (hLength : awards.length = buffer.awards) (hPos : 0 < buffer.awards) :
    t.buildTree block buffer
      = ((({ t with
            creditBuffers := t.creditBuffers.remove block }
          : AwardingState C).recordTree block (awardTree buffer.gameIndex buffer.timestamp awards)
        ).noteAwardExpiry block buffer.timestamp) := by
  have hTaken : ({ t with creditBuffers := t.creditBuffers.remove block }
        : AwardingState C).blockAwards block buffer.awards
        = awards :=
    hAwards
  have hSome : ¬ awards.length = 0 := by
    rw [hLength]
    exact Nat.ne_of_gt hPos
  unfold AwardingState.buildTree
  simp only [hTaken]
  rw [if_neg hSome, if_neg (not_not.mpr hLength)]

/- The state after a block whose buffer is turned into a tree. -/
def AwardingState.withTree (s : AwardingState C) (buffer : PendingBuffer) : AwardingState C :=
  let drained : AwardingState C :=
    { s.startBlock with
      creditBuffers := s.creditBuffers.remove s.credits.number }
  (drained.recordTree s.credits.number (awardTree buffer.gameIndex buffer.timestamp
      (s.awardsAt s.credits.number))).noteAwardExpiry s.credits.number buffer.timestamp

/- A block with a buffer gets the tree over its awards. -/
theorem Buffered.recordTree (hBuffered : Buffered s) {buffer : PendingBuffer}
    (hGet : s.creditBuffers.get s.credits.number = some buffer) :
    Buffered (s.withTree buffer) := by
  have hPending := hBuffered.pending _ _ hGet
  generalize hAfter : s.withTree buffer = after
  have hNumber : after.credits.number = s.credits.number + 1 := by
    rw [← hAfter]
    exact number_queueCreditTreeDelivery _ _
  have hRecorded : after.credits.recorded = s.credits.recorded.insert s.credits.number
          (awardTree buffer.gameIndex buffer.timestamp (s.awardsAt s.credits.number)) := by
    rw [← hAfter]
    exact recorded_queueCreditTreeDelivery _ _
  have hBuffers : after.creditBuffers = s.creditBuffers.remove s.credits.number := by
    rw [← hAfter]
    rfl
  have hCursor : after.creditBufferCursor = s.creditBufferCursor := by
    rw [← hAfter]
    rfl
  have hAnnounced : ∀ b, after.announcedAt b = s.announcedAt b := by
    rw [← hAfter]
    intro b
    rfl
  have hAwards : ∀ b, after.awardsAt b = s.awardsAt b := by
    rw [← hAfter]
    intro b
    rfl
  have hChunks : after.creditAwards = s.creditAwards := by
    rw [← hAfter]
    rfl
  have hStarted : after.startedAwards = s.creditAwards := by
    rw [← hAfter]
    rfl
  have hExpiries : after.awardExpiries = s.awardExpiries.insert
          (buffer.timestamp, s.credits.number) () := by
    rw [← hAfter]
    rfl
  have hStored : ∀ b, s.Stored b → after.Stored b := by
    rw [← hAfter]
    intro b hOld
    exact hOld
  constructor
  · intro b found hFound
    rw [hBuffers, get_remove] at hFound
    split at hFound
    · cases hFound
    · have hOld := hBuffered.pending b found hFound
      rw [hNumber, hAnnounced]
      exact ⟨by omega, hOld.2⟩
  · right
    intro b
    rw [hBuffers, hNumber, hCursor, get_remove]
    rcases hBuffered.contiguous with ⟨hEmpty, _⟩ | hRange
    · rw [hEmpty] at hGet
      cases hGet
    · have hOld := hRange b
      split
      · rename_i hBlock
        simp only [ne_eq, not_true_eq_false, false_iff]
        omega
      · rw [hOld]
        omega
  · intro b i a hAt
    rw [hAnnounced] at hAt
    exact hBuffered.indexed b i a hAt
  · intro b hLe
    rw [hNumber] at hLe
    have hOld := hBuffered.waiting b (Nat.le_of_succ_le hLe)
    have hNe : b ≠ s.credits.number := by omega
    refine ⟨hStored b hOld.1, ?_, ?_⟩
    · rw [hRecorded, get_insert_of_ne _ _ hNe]
      exact hOld.2.1
    · intro hNone
      rw [hBuffers, get_remove, if_neg hNe] at hNone
      rw [hAnnounced]
      exact hOld.2.2 hNone
  · intro b hLt
    rw [hNumber] at hLt
    rw [hAnnounced, hAwards, hRecorded, get_insert]
    by_cases hBlock : b = s.credits.number
    · right
      rw [if_pos hBlock, hBlock]
      exact ⟨buffer, hPending.2.2.2, hPending.2.1, hPending.2.2.1, rfl⟩
    · rw [if_neg hBlock]
      exact hBuffered.built b (by omega)
  · intro b hLt
    rw [hNumber] at hLt
    rw [hChunks]
    by_cases hBlock : b = s.credits.number
    · subst hBlock
      exact Or.inl (hStored _ (hBuffered.waiting s.credits.number (Nat.le_refl _)).1)
    · exact (hBuffered.retained b (by omega)).imp (hStored b) id
  · intro b index hKey
    rw [hChunks, hStarted] at hKey
    exact hBuffered.keys b index (Or.inl (hKey.elim id id))
  · intro timestamp b hDue
    rw [hExpiries, get_insert] at hDue
    rw [hNumber]
    split at hDue
    · rename_i hKey
      cases hKey
      exact Nat.lt_succ_self _
    · exact Nat.lt_succ_of_lt (hBuffered.expiries timestamp b hDue)

variable {s' : AwardingState C}

/- What a new block does, with or without a buffer. -/
theorem Buffered.onInitialize_cases (hBuffered : Buffered s) (hStep : s.onInitialize = .ok s') :
    (s.creditBuffers.get s.credits.number = none ∧ s' = s.startBlock)
      ∨ ∃ buffer, s.creditBuffers.get s.credits.number = some buffer ∧ s' = s.withTree buffer := by
  simp only [AwardingState.onInitialize, Except.bind_eq_ok,
    ensure_eq_ok_iff, exists_const, Except.pure_eq_ok] at hStep
  rcases hStep with ⟨_, rfl⟩
  unfold AwardingState.buildCreditTree
  rw [Nat.add_sub_cancel]
  have hSame : s.startBlock.creditBuffers.get s.credits.number
      = s.creditBuffers.get s.credits.number := rfl
  rw [hSame]
  cases hGet : s.creditBuffers.get s.credits.number with
  | none => exact Or.inl ⟨rfl, rfl⟩
  | some buffer =>
    right
    have hPending := hBuffered.pending _ _ hGet
    have hStored := (hBuffered.waiting s.credits.number (Nat.le_refl _)).1
    have hAwards : s.startBlock.blockAwards s.credits.number buffer.awards
          = s.awardsAt s.credits.number :=
      blockAwards_of_stored hStored hPending.2.2.2.count
    dsimp only
    rw [buildTree_of_blockAwards hAwards (by rw [length_awardsAt, hPending.2.2.2.count])
      hPending.2.1]
    exact ⟨buffer, rfl, rfl⟩

/- A new block keeps what holds, on no defensive branch. -/
theorem Buffered.onInitialize (hBuffered : Buffered s) (hStep : s.onInitialize = .ok s') :
    Buffered s' ∧ s'.defensives = s.defensives := by
  rcases hBuffered.onInitialize_cases hStep with ⟨hNone, rfl⟩ | ⟨buffer, hGet, rfl⟩
  · exact ⟨hBuffered.startBlock hNone, rfl⟩
  · exact ⟨hBuffered.recordTree hGet, rfl⟩

end Build

--
-- Sweeping Awards
--

section Sweep

variable {block : Nat}

/- The chunks of a block are not more than a tree has. -/
theorem Buffered.length_foundChunks (hBuffered : Buffered s) (block : Nat) :
    (s.foundChunks block).backend.length ≤ chunksPerTree := by
  unfold foundChunks
  dsimp only
  rw [List.length_insertionSort]
  have hNodup := DoubleMap.keys_entriesAt_nodup s.startedAwards block
  have hSub : ((s.startedAwards.entriesAt block).map Prod.fst) ⊆ List.range chunksPerTree := by
    intro index hMem
    rw [List.mem_map] at hMem
    rcases hMem with ⟨⟨key, chunk⟩, hEntry, rfl⟩
    rw [DoubleMap.mem_entriesAt_iff] at hEntry
    rw [List.mem_range]
    exact hBuffered.keys block key (Or.inr (by rw [hEntry]; simp))
  have hLength := (List.subperm_of_subset hNodup hSub).length_le
  rw [List.length_range] at hLength
  exact hLength

/- A sweep takes all chunks of a block. -/
theorem Buffered.clearAwards_eq (hBuffered : Buffered s) (block : Nat) :
    s.clearAwards block
        = { s with
            creditAwards := (s.creditAwards.clearPrefix block chunksPerTree
                (s.foundChunks block)).1 }
      ∧ ∀ b index, StorageMap.get (s.clearAwards block).creditAwards (b, index)
          = if b = block then none else StorageMap.get s.creditAwards (b, index) := by
  have hLength := hBuffered.length_foundChunks block
  have hDone : (s.creditAwards.clearPrefix block chunksPerTree (s.foundChunks block)).2.2 = true :=
    decide_eq_true hLength
  have hEq : s.clearAwards block
        = { s with
            creditAwards := (s.creditAwards.clearPrefix block chunksPerTree
                (s.foundChunks block)).1 } := by
    unfold clearAwards
    dsimp only
    rw [hDone]
    exact if_neg Bool.noConfusion
  refine ⟨hEq, ?_⟩
  intro b index
  rw [hEq]
  dsimp only
  by_cases hBlock : b = block
  · rw [if_pos hBlock, hBlock]
    exact DoubleMap.clearPrefix_done hDone index
  · rw [if_neg hBlock]
    exact DoubleMap.get_clearPrefix_of_ne hBlock index

theorem Buffered.clearAwards (hBuffered : Buffered s) (hLt : block < s.credits.number) :
    Buffered (s.clearAwards block) ∧ (s.clearAwards block).credits = s.credits
      ∧ (s.clearAwards block).defensives = s.defensives := by
  rcases hBuffered.clearAwards_eq block with ⟨hEq, hGet⟩
  have hStored : ∀ b, b ≠ block → s.Stored b → (s.clearAwards block).Stored b := by
    intro b hNe hOld index
    have hAwards : (s.clearAwards block).awardsAt b = s.awardsAt b := by
      rw [hEq]
      rfl
    have hChunk : (s.clearAwards block).chunk b index = s.chunk b index := by
      unfold chunk StorageMap.getD
      rw [hGet, if_neg hNe]
    dsimp only
    rw [hAwards, hChunk]
    exact hOld index
  have hGone : ∀ index, StorageMap.get (s.clearAwards block).creditAwards
          (block, index) = none := by
    intro index
    rw [hGet, if_pos rfl]
  have hKept : ∀ b index, StorageMap.get (s.clearAwards block).creditAwards (b, index) ≠ none →
          StorageMap.get s.creditAwards (b, index) ≠ none := by
    intro b index hSome
    rw [hGet] at hSome
    split at hSome
    · exact absurd rfl hSome
    · exact hSome
  have hNone : ∀ b, (∀ index, StorageMap.get s.creditAwards (b, index) = none) → ∀ index,
          StorageMap.get (s.clearAwards block).creditAwards (b, index) = none := by
    intro b hOld index
    by_contra hSome
    exact hKept b index hSome (hOld index)
  rw [hEq] at hStored hGone hKept hNone ⊢
  refine ⟨?_, rfl, rfl⟩
  constructor
  · exact hBuffered.pending
  · exact hBuffered.contiguous
  · exact hBuffered.indexed
  · intro b hLe
    have hOld := hBuffered.waiting b hLe
    have hNe : b ≠ block := by
      rintro rfl
      exact Nat.not_lt_of_le hLe hLt
    exact ⟨hStored b hNe hOld.1, hOld.2⟩
  · exact hBuffered.built
  · intro b hBefore
    by_cases hBlock : b = block
    · rw [hBlock]
      exact Or.inr hGone
    · exact (hBuffered.retained b hBefore).imp (hStored b hBlock) (hNone b)
  · intro b index hKey
    exact hBuffered.keys b index (hKey.imp (hKept b index) id)
  · exact hBuffered.expiries

/- A sweep keeps what holds, on no defensive branch. -/
theorem Buffered.doSweepExpiredAwards (hBuffered : Buffered s) :
    Buffered s.doSweepExpiredAwards ∧ s.doSweepExpiredAwards.defensives = s.defensives := by
  unfold AwardingState.doSweepExpiredAwards
  dsimp only
  have hBlocks : ∀ block, block ∈ (drainDueExpiries C.twox C.awardRetentionTtl
            s.credits.now C.maxAwardBlocksPerSweep s.awardExpiries).1 →
          block < s.credits.number := by
    intro block hMem
    rw [mem_drainDueExpiries_iff] at hMem
    rcases hMem with ⟨timestamp, hDue⟩
    exact hBuffered.expiries timestamp block (mem_dueExpiries hDue).1
  have hDrained : Buffered
        { s with
          awardExpiries := (drainDueExpiries C.twox C.awardRetentionTtl
              s.credits.now C.maxAwardBlocksPerSweep s.awardExpiries).2 } :=
    { pending := hBuffered.pending
      contiguous := hBuffered.contiguous
      indexed := hBuffered.indexed
      waiting := hBuffered.waiting
      built := hBuffered.built
      retained := hBuffered.retained
      keys := hBuffered.keys
      expiries := fun timestamp block hGet =>
        hBuffered.expiries timestamp block (get_of_get_drainDueExpiries hGet) }
  generalize (drainDueExpiries C.twox C.awardRetentionTtl s.credits.now
      C.maxAwardBlocksPerSweep s.awardExpiries).1 = blocks
    at hBlocks ⊢
  generalize hSwept :
    ({ s with
        awardExpiries := (drainDueExpiries C.twox C.awardRetentionTtl
            s.credits.now C.maxAwardBlocksPerSweep s.awardExpiries).2 } : AwardingState C) = swept
    at hDrained ⊢
  have hSame : swept.credits = s.credits ∧ swept.defensives = s.defensives := by
    rw [← hSwept]
    exact ⟨rfl, rfl⟩
  clear hSwept
  induction blocks generalizing swept with
  | nil => exact ⟨hDrained, hSame.2⟩
  | cons block blocks ih =>
    rw [List.foldl_cons]
    have hCleared := hDrained.clearAwards (by
        rw [hSame.1]
        exact hBlocks block (List.mem_cons_self ..))
    exact ih (fun b hMem => hBlocks b (List.mem_cons_of_mem _ hMem))
        (swept.clearAwards block) hCleared.1
        ⟨hCleared.2.1.trans hSame.1, hCleared.2.2.trans hSame.2⟩

end Sweep

--
-- Other Changes
--

/- Deliveries and removals of roots keep what holds. -/
theorem Buffered.of_credits (hBuffered : Buffered s) {credits : CreditsState C.config}
    (hNumber : credits.number = s.credits.number)
    (hRecorded : credits.recorded = s.credits.recorded) :
    Buffered { s with credits := credits } where
  pending := by
    dsimp only
    rw [hNumber]
    exact hBuffered.pending
  contiguous := by
    dsimp only
    rw [hNumber]
    exact hBuffered.contiguous
  indexed := hBuffered.indexed
  waiting := by
    dsimp only
    rw [hNumber, hRecorded]
    exact hBuffered.waiting
  built := by
    dsimp only
    rw [hNumber, hRecorded]
    exact hBuffered.built
  retained := by
    dsimp only
    rw [hNumber]
    exact hBuffered.retained
  keys := hBuffered.keys
  expiries := by
    dsimp only
    rw [hNumber]
    exact hBuffered.expiries

/- Which slots are awarded matters for no buffer. -/
theorem Buffered.of_awardedCredits (hBuffered : Buffered s)
    (awarded : DoubleMap Nat C.Claimant (BitVec awardedCreditsCapacity)) :
    Buffered { s with awardedCredits := awarded } where
  pending := hBuffered.pending
  contiguous := hBuffered.contiguous
  indexed := hBuffered.indexed
  waiting := hBuffered.waiting
  built := hBuffered.built
  retained := hBuffered.retained
  keys := hBuffered.keys
  expiries := hBuffered.expiries

end Individuality.NftCredits
