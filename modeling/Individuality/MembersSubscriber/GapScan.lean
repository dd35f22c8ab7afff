import Individuality.MembersSubscriber.Pallet
import Individuality.MembersPallet.Sample
import Individuality.Base.Runs
import Mathlib.Order.Interval.Finset.Nat

/-
  The gap scan of the subscriber misses nothing: an index that it has passed is stored, deleted,
  missing or given up.  The steps carry along which indices were given up.

  Main declaration: `Scanning.gap_scan_complete`
-/

namespace Individuality.MembersSubscriber

open StorageMap (get_insert get_remove mem_keys_iff)

open NotifierSubscriber SubscriberState

variable {R : Type} (T : Config)
variable {generation : Generation} {identifier : Identifier} {i r : RingIndex}
variable {stored : Finset RingIndex} {state : RingCollectionState}
variable {w : Storing R} {update : RingRootUpdate R}
variable {batch : RingRootUpdatesBatch R} {s : SubscriberState R}

--
-- Stored Rings
--

/- The rings of a collection stored in a generation. -/
def ringsIn (ringRoots : RingRootMap R) (generation : Generation)
    (identifier : Identifier) : Finset RingIndex :=
  ((ringRoots.keys.filter fun key =>
    key.1 = generation ∧ key.2.1 = identifier).map fun key => key.2.2).toFinset

def storedRings (s : SubscriberState R) (identifier : Identifier) : Finset RingIndex :=
  ringsIn s.ringRoots s.currentGeneration identifier

variable {ringRoots : RingRootMap R}

theorem mem_ringsIn {r : RingIndex} :
    r ∈ ringsIn ringRoots generation identifier ↔
      ringRoots.get (generation, identifier, r) ≠ none := by
  unfold ringsIn
  rw [List.mem_toFinset, List.mem_map]
  constructor
  · rintro ⟨⟨g, id, r'⟩, hMem, hRing⟩
    rw [List.mem_filter, mem_keys_iff] at hMem
    rcases hMem with ⟨hGet, hKey⟩
    simp only [decide_eq_true_eq] at hKey hRing
    rw [← hKey.1, ← hKey.2, ← hRing]
    exact hGet
  · intro hGet
    refine ⟨(generation, identifier, r), ?_, rfl⟩
    rw [List.mem_filter, mem_keys_iff]
    exact ⟨hGet, by simp⟩

theorem ringsIn_insert (ringRoots : RingRootMap R) (generation : Generation)
    (identifier : Identifier) (r : RingIndex) (roots : List (RingCommitmentRecord R)) :
    ringsIn (ringRoots.insert (generation, identifier, r) roots) generation identifier
      = insert r (ringsIn ringRoots generation identifier) := by
  ext r'
  rw [Finset.mem_insert, mem_ringsIn, mem_ringsIn, get_insert]
  by_cases hRing : r' = r
  · rw [hRing]
    simp
  · rw [if_neg (by simp [hRing])]
    simp [hRing]

theorem ringsIn_remove (ringRoots : RingRootMap R) (generation : Generation)
    (identifier : Identifier) (r : RingIndex) :
    ringsIn (ringRoots.remove (generation, identifier, r)) generation identifier
      = (ringsIn ringRoots generation identifier).erase r := by
  ext r'
  rw [Finset.mem_erase, mem_ringsIn, mem_ringsIn, get_remove]
  by_cases hRing : r' = r
  · rw [hRing]
    simp
  · rw [if_neg (by simp [hRing])]
    simp [hRing]

/- No ring is stored without a root. -/
def NoEmptyWindow (ringRoots : RingRootMap R) (generation : Generation) : Prop :=
  ∀ identifier r, ringRoots.get (generation, identifier, r) ≠ some []

theorem NoEmptyWindow.isEmpty_iff (hWindows : NoEmptyWindow ringRoots generation)
    (identifier : Identifier) (r : RingIndex) :
    (ringRoots.getD (generation, identifier, r) []).isEmpty = true
      ↔ r ∉ ringsIn ringRoots generation identifier := by
  rw [mem_ringsIn, List.isEmpty_iff, StorageMap.getD]
  cases hGet : ringRoots.get (generation, identifier, r) with
  | none => simp
  | some roots =>
    have hNe : roots ≠ [] := by
      intro hNil
      exact hWindows identifier r (by rw [hGet, hNil])
    simp [hNe]

--
-- Counting
--

/- The counter of the stored rings, and where the stored and the deleted rings lie. -/
structure RingsTracked (stored : Finset RingIndex) (state : RingCollectionState) : Prop where
  count : state.ringCount = stored.card
  disjoint : Disjoint stored state.deletedIndices
  stored_lt : ∀ r ∈ stored, r < state.nextRingIndex
  deleted_lt : ∀ r ∈ state.deletedIndices, r < state.nextRingIndex
  next_le : state.nextRingIndex ≤ u32Max

/- As many indices as there are below the bound are all. -/
theorem mem_or_mem_of_card_le {a b : Finset Nat} {n : Nat} (hDisjoint : Disjoint a b)
    (hA : ∀ i ∈ a, i < n) (hB : ∀ i ∈ b, i < n) (hCard : n ≤ a.card + b.card) {i : Nat}
    (hLt : i < n) :
    i ∈ a ∨ i ∈ b := by
  have hSubset : a ∪ b ⊆ Finset.range n := by
    intro j hMem
    rw [Finset.mem_range]
    rcases Finset.mem_union.mp hMem with hLeft | hRight
    · exact hA j hLeft
    · exact hB j hRight
  have hUnion : a ∪ b = Finset.range n := by
    apply Finset.eq_of_subset_of_card_le hSubset
    rw [Finset.card_range, Finset.card_union_of_disjoint hDisjoint]
    exact hCard
  rw [← Finset.mem_union, hUnion, Finset.mem_range]
  exact hLt

/- A collection that is accounted for has no gap. -/
theorem RingsTracked.no_gap (hTracked : RingsTracked stored state)
    (hCount : state.nextRingIndex ≤ state.ringCount + state.deletedIndices.card)
    (hLt : i < state.nextRingIndex) :
    i ∈ stored ∨ i ∈ state.deletedIndices := by
  rw [hTracked.count] at hCount
  exact mem_or_mem_of_card_le hTracked.disjoint hTracked.stored_lt hTracked.deleted_lt hCount hLt

theorem RingsTracked.no_gap_of_accountedFor (hTracked : RingsTracked stored state)
    (hAccounted : accountedFor state = true) (hLt : i < state.nextRingIndex) :
    i ∈ stored ∨ i ∈ state.deletedIndices := by
  unfold accountedFor at hAccounted
  rw [decide_eq_true_eq] at hAccounted
  exact hTracked.no_gap (Nat.le_trans hAccounted (saturatingAdd_le_add _ _ _)) hLt

/- The frontier only moves up to what it is told. -/
theorem RingsTracked.raise (hTracked : RingsTracked stored state) {next : RingIndex}
    (hLe : state.nextRingIndex ≤ next) (hMax : next ≤ u32Max) :
    RingsTracked stored { state with nextRingIndex := next } where
  count := hTracked.count
  disjoint := hTracked.disjoint
  stored_lt := fun r hMem => Nat.lt_of_lt_of_le (hTracked.stored_lt r hMem) hLe
  deleted_lt := fun r hMem => Nat.lt_of_lt_of_le (hTracked.deleted_lt r hMem) hLe
  next_le := hMax

theorem noteUpdate_next (state : RingCollectionState) (hLt : r < u32Max) :
    (state.noteUpdate r).nextRingIndex = max state.nextRingIndex (r + 1) := by
  unfold RingCollectionState.noteUpdate
  simp only
  rw [saturatingAdd_of_le (Nat.succ_le_of_lt hLt)]
  split_ifs with hLe
  · rw [Nat.max_eq_right (Nat.le_succ_of_le hLe)]
  · rw [Nat.max_eq_left (Nat.succ_le_of_lt (Nat.not_le.mp hLe))]

theorem RingsTracked.noteUpdate (hTracked : RingsTracked stored state) (hLt : r < u32Max) :
    RingsTracked stored (state.noteUpdate r) := by
  have hNext := noteUpdate_next state hLt
  have hRaised :
      RingsTracked stored { state with
        nextRingIndex := (state.noteUpdate r).nextRingIndex } := by
    apply hTracked.raise
    · rw [hNext]
      exact Nat.le_max_left _ _
    · rw [hNext]
      exact Nat.max_le.mpr ⟨hTracked.next_le, hLt⟩
  exact ⟨hRaised.count, hRaised.disjoint, hRaised.stored_lt, hRaised.deleted_lt, hRaised.next_le⟩

theorem lt_noteUpdate_next (state : RingCollectionState) (hLt : r < u32Max) :
    r < (state.noteUpdate r).nextRingIndex := by
  rw [noteUpdate_next state hLt]
  exact Nat.lt_of_lt_of_le (Nat.lt_succ_self r) (Nat.le_max_right _ _)

/- A ring is stored, and not among the deleted any more. -/
theorem RingsTracked.store (hTracked : RingsTracked stored state) (hLt : r < state.nextRingIndex)
    {count : Nat}
    (hCount : count =
        if r ∈ stored then state.ringCount
        else saturatingAdd u32Max state.ringCount 1) :
    RingsTracked (insert r stored) { state with
      ringCount := count
      deletedIndices := state.deletedIndices.erase r } := by
  have hStored : ∀ i ∈ insert r stored, i < state.nextRingIndex := by
    intro i hMem
    rcases Finset.mem_insert.mp hMem with hSame | hOld
    · rw [hSame]
      exact hLt
    · exact hTracked.stored_lt i hOld
  refine ⟨?_, ?_, hStored, ?_, hTracked.next_le⟩
  · simp only [hCount]
    by_cases hMem : r ∈ stored
    · rw [if_pos hMem, Finset.insert_eq_of_mem hMem, hTracked.count]
    · have hSubset : insert r stored ⊆ Finset.range state.nextRingIndex := by
        intro i hI
        exact Finset.mem_range.mpr (hStored i hI)
      have hCard := Finset.card_le_card hSubset
      rw [Finset.card_range, Finset.card_insert_of_notMem hMem] at hCard
      rw [if_neg hMem, Finset.card_insert_of_notMem hMem, hTracked.count, saturatingAdd_of_le]
      exact Nat.le_trans hCard hTracked.next_le
  · rw [Finset.disjoint_left]
    intro i hMem hDeleted
    rcases Finset.mem_insert.mp hMem with hSame | hOld
    · exact (Finset.mem_erase.mp hDeleted).1 hSame
    · exact Finset.disjoint_left.mp hTracked.disjoint hOld (Finset.mem_of_mem_erase hDeleted)
  · intro i hMem
    exact hTracked.deleted_lt i (Finset.mem_of_mem_erase hMem)

/- The deletion of an index is tracked. -/
def hasRoom (deletedIndices : Finset RingIndex) (r : RingIndex) : Bool :=
  deletedIndices.card < T.maxDeletedRingsPerCollection ∨ r ∈ deletedIndices

theorem mem_trackDeleted {deletedIndices : Finset RingIndex} {r i : RingIndex} :
    i ∈ trackDeleted T deletedIndices r ↔
      i ∈ deletedIndices ∨ i = r ∧ hasRoom T deletedIndices r = true := by
  unfold trackDeleted hasRoom
  rw [decide_eq_true_eq]
  split_ifs with hRoom
  · rw [Finset.mem_insert]
    tauto
  · tauto

theorem RingsTracked.delete (hTracked : RingsTracked stored state) (hLt : r < state.nextRingIndex)
    {count : Nat}
    (hCount : count =
        if r ∈ stored then state.ringCount - 1
        else state.ringCount) :
    RingsTracked (stored.erase r) { state with
      ringCount := count
      deletedIndices := trackDeleted T state.deletedIndices r } := by
  refine ⟨?_, ?_, ?_, ?_, hTracked.next_le⟩
  · simp only [hCount]
    by_cases hMem : r ∈ stored
    · rw [if_pos hMem, Finset.card_erase_of_mem hMem, hTracked.count]
    · rw [if_neg hMem, Finset.erase_eq_of_notMem hMem, hTracked.count]
  · rw [Finset.disjoint_left]
    intro i hMem hDeleted
    rcases Finset.mem_erase.mp hMem with ⟨hNe, hOld⟩
    rcases (mem_trackDeleted T).mp hDeleted with hIn | hSame
    · exact Finset.disjoint_left.mp hTracked.disjoint hOld hIn
    · exact hNe hSame.1
  · intro i hMem
    exact hTracked.stored_lt i (Finset.mem_of_mem_erase hMem)
  · intro i hMem
    rcases (mem_trackDeleted T).mp hMem with hIn | hSame
    · exact hTracked.deleted_lt i hIn
    · rw [hSame.1]
      exact hLt

--
-- One Update
--

theorem pushRecord_ne_nil (roots : List (RingCommitmentRecord R))
    (record : RingCommitmentRecord R) :
    pushRecord T roots record ≠ [] := by
  unfold pushRecord
  split_ifs <;> simp

/- The windows after an update, as the loop writes them. -/
theorem storeUpdate_ringRoots
    (batch : RingRootUpdatesBatch R) (generation : Generation) (w : Storing R)
    (update : RingRootUpdate R) :
    (storeUpdate T batch generation w update).ringRoots =
      match update.op with
      | .built revision root =>
        if (w.ringRoots.getD (generation, batch.identifier, update.ringIndex)
              []).any fun r => r.revision = revision then
          w.ringRoots
        else
          w.ringRoots.insert (generation, batch.identifier, update.ringIndex)
            (pushRecord T (w.ringRoots.getD (generation, batch.identifier, update.ringIndex) [])
              (recordOf batch revision root))
      | .deleted => w.ringRoots.remove
          (generation, batch.identifier, update.ringIndex) := by
  unfold storeUpdate
  cases update.op with
  | built revision root =>
    simp only
    by_cases hAny : ((w.ringRoots.getD (generation, batch.identifier, update.ringIndex)
        []).any fun r => r.revision = revision) = true
    · rw [if_pos hAny, if_pos hAny]
    · rw [if_neg hAny, if_neg hAny]
  | deleted => rfl

theorem storeUpdate_state (batch : RingRootUpdatesBatch R) (generation : Generation) (w : Storing R)
    (update : RingRootUpdate R) :
    (storeUpdate T batch generation w update).state =
      match update.op with
      | .built _ _ =>
        { w.state.noteUpdate update.ringIndex with
          ringCount :=
            if (w.ringRoots.getD (generation, batch.identifier,
                  update.ringIndex) []).isEmpty then
              saturatingAdd u32Max w.state.ringCount 1
            else w.state.ringCount
          deletedIndices := w.state.deletedIndices.erase update.ringIndex }
      | .deleted =>
        { w.state.noteUpdate update.ringIndex with
          ringCount :=
            if w.ringRoots.containsKey
                (generation, batch.identifier, update.ringIndex) then
              w.state.ringCount - 1
            else w.state.ringCount
          deletedIndices := trackDeleted T w.state.deletedIndices update.ringIndex } := by
  unfold storeUpdate
  cases update.op with
  | built revision root =>
    simp only
    by_cases hAny : ((w.ringRoots.getD (generation, batch.identifier, update.ringIndex)
        []).any fun r => r.revision = revision) = true
    · rw [if_pos hAny]
      rfl
    · rw [if_neg hAny]
      rfl
  | deleted => rfl

/- An update of a collection leaves the others alone. -/
theorem storeUpdate_other (batch : RingRootUpdatesBatch R) (generation : Generation) (w : Storing R)
    (update : RingRootUpdate R) {g : Generation}
    (hOther : g ≠ generation ∨ identifier ≠ batch.identifier ∨ r ≠ update.ringIndex) :
    (storeUpdate T batch generation w update).ringRoots.get (g, identifier, r)
      = w.ringRoots.get (g, identifier, r) := by
  have hNe : (g, identifier, r) ≠ (generation, batch.identifier, update.ringIndex) := by
    intro hEq
    simp only [Prod.mk.injEq] at hEq
    rcases hOther with hG | hId | hR
    · exact hG hEq.1
    · exact hId hEq.2.1
    · exact hR hEq.2.2
  rw [storeUpdate_ringRoots]
  cases update.op with
  | built revision root =>
    simp only
    split_ifs
    · rfl
    · exact StorageMap.get_insert_of_ne _ _ hNe
  | deleted =>
    simp only
    rw [get_remove, if_neg hNe]

theorem storeUpdate_noEmptyWindow (batch : RingRootUpdatesBatch R) (generation : Generation)
    (update : RingRootUpdate R) (hWindows : NoEmptyWindow w.ringRoots generation) :
    NoEmptyWindow (storeUpdate T batch generation w update).ringRoots
      generation := by
  intro identifier r
  rw [storeUpdate_ringRoots]
  cases update.op with
  | built revision root =>
    simp only
    split_ifs
    · exact hWindows identifier r
    · rw [get_insert]
      split_ifs
      · intro hNil
        exact pushRecord_ne_nil T _ _ (Option.some.inj hNil)
      · exact hWindows identifier r
  | deleted =>
    simp only
    rw [get_remove]
    split_ifs
    · simp
    · exact hWindows identifier r

/- Whether an update stores its ring or deletes it. -/
def storedAfter (stored : Finset RingIndex) (update : RingRootUpdate R) : Finset RingIndex :=
  match update.op with
  | .built _ _ => insert update.ringIndex stored
  | .deleted => stored.erase update.ringIndex

theorem ringsIn_storeUpdate (batch : RingRootUpdatesBatch R) (generation : Generation)
    (update : RingRootUpdate R) (hWindows : NoEmptyWindow w.ringRoots generation) :
    ringsIn (storeUpdate T batch generation w update).ringRoots generation batch.identifier
      = storedAfter (ringsIn w.ringRoots generation batch.identifier)
          update := by
  rw [storeUpdate_ringRoots]
  unfold storedAfter
  cases update.op with
  | built revision root =>
    simp only
    split_ifs with hAny
    · have hMem : update.ringIndex ∈ ringsIn w.ringRoots generation
              batch.identifier := by
        by_contra hNot
        rw [← hWindows.isEmpty_iff, List.isEmpty_iff] at hNot
        rw [hNot] at hAny
        exact absurd hAny (by simp)
      exact (Finset.insert_eq_of_mem hMem).symm
    · exact ringsIn_insert _ _ _ _ _
  | deleted => exact ringsIn_remove _ _ _ _

theorem storeUpdate_tracked (batch : RingRootUpdatesBatch R) (generation : Generation)
    (update : RingRootUpdate R) (hWindows : NoEmptyWindow w.ringRoots generation)
    (hLt : update.ringIndex < u32Max)
    (hTracked : RingsTracked (ringsIn w.ringRoots generation batch.identifier) w.state) :
    RingsTracked (ringsIn (storeUpdate T batch generation w update).ringRoots
        generation batch.identifier)
      (storeUpdate T batch generation w update).state := by
  have hNoted := hTracked.noteUpdate hLt
  have hBelow := lt_noteUpdate_next w.state hLt
  rw [ringsIn_storeUpdate T batch generation update hWindows, storeUpdate_state]
  unfold storedAfter
  cases update.op with
  | built revision root =>
    apply hNoted.store hBelow
    have hEmpty := hWindows.isEmpty_iff batch.identifier update.ringIndex
    by_cases hMem : update.ringIndex ∈ ringsIn w.ringRoots generation batch.identifier
    · rw [if_pos hMem, if_neg]
      · rfl
      · rw [hEmpty]
        exact not_not_intro hMem
    · rw [if_neg hMem, if_pos (hEmpty.mpr hMem)]
      rfl
  | deleted =>
    apply hNoted.delete T hBelow
    have hKey : w.ringRoots.containsKey (generation, batch.identifier, update.ringIndex) = true ↔
        update.ringIndex ∈ ringsIn w.ringRoots generation
            batch.identifier := by
      rw [mem_ringsIn, StorageMap.containsKey_iff, Option.ne_none_iff_exists']
    simp only [hKey]
    rfl

--
-- Lost Indices
--

/-
  The indices of a collection that are not looked for any more: those that the replay abandoned, and
  those whose deletion was not tracked because there was no room.
-/
structure Lost where
  abandoned : Finset RingIndex := ∅
  dropped : Finset RingIndex := ∅

/- An index is heard of again. -/
def Lost.forget (lost : Lost) (r : RingIndex) : Lost where
  abandoned := lost.abandoned.erase r
  dropped := lost.dropped.erase r

def lostUpdate (state : RingCollectionState) (update : RingRootUpdate R) (lost : Lost) : Lost :=
  match update.op with
  | .built _ _ => lost.forget update.ringIndex
  | .deleted =>
    if hasRoom T state.deletedIndices update.ringIndex then
      lost.forget update.ringIndex
    else
      { lost.forget update.ringIndex with
        dropped := insert update.ringIndex lost.dropped }

/- What became of an index that the scan has passed. -/
def AccountedAt (stored : Finset RingIndex) (state : RingCollectionState) (lost : Lost)
    (i : RingIndex) : Prop :=
  i ∈ stored ∨ i ∈ state.deletedIndices ∨ state.missingIndices.containsKey i = true
    ∨ i ∈ lost.abandoned ∨ i ∈ lost.dropped

def Accounted (stored : Finset RingIndex) (state : RingCollectionState) (lost : Lost) : Prop :=
  ∀ i, i < state.nextScanIndex → AccountedAt stored state lost i

variable {lost : Lost}

/- What is known of the other indices stays. -/
theorem accountedAt_storeUpdate_other (batch : RingRootUpdatesBatch R) (generation : Generation)
    (hNe : i ≠ update.ringIndex) (hOld : AccountedAt stored w.state lost i) :
    AccountedAt (storedAfter stored update) (storeUpdate T batch generation w update).state
      (lostUpdate T w.state update lost) i := by
  have hMissing : (w.state.missingIndices.remove update.ringIndex).containsKey i
        = w.state.missingIndices.containsKey i := by
    unfold StorageMap.containsKey
    rw [get_remove, if_neg hNe]
  rw [storeUpdate_state]
  unfold storedAfter lostUpdate
  unfold AccountedAt at hOld ⊢
  cases update.op with
  | built revision root =>
    simp only [RingCollectionState.noteUpdate, Lost.forget,
      hMissing, Finset.mem_insert, Finset.mem_erase]
    tauto
  | deleted =>
    simp only [RingCollectionState.noteUpdate, hMissing, Finset.mem_erase, mem_trackDeleted]
    split_ifs
    · simp only [Lost.forget, Finset.mem_erase]
      tauto
    · simp only [Lost.forget, Finset.mem_erase, Finset.mem_insert]
      tauto

theorem accountedAt_storeUpdate_self
    (batch : RingRootUpdatesBatch R) (generation : Generation) (w : Storing R)
    (update : RingRootUpdate R) (stored : Finset RingIndex) (lost : Lost) :
    AccountedAt (storedAfter stored update) (storeUpdate T batch generation w update).state
      (lostUpdate T w.state update lost) update.ringIndex := by
  rw [storeUpdate_state]
  unfold storedAfter lostUpdate AccountedAt
  cases update.op with
  | built revision root =>
    left
    exact Finset.mem_insert_self _ _
  | deleted =>
    by_cases hRoom : hasRoom T w.state.deletedIndices update.ringIndex = true
    · right
      left
      exact (mem_trackDeleted T).mpr (Or.inr ⟨rfl, hRoom⟩)
    · simp only [if_neg hRoom]
      right
      right
      right
      right
      exact Finset.mem_insert_self _ _

theorem accounted_storeUpdate (batch : RingRootUpdatesBatch R) (generation : Generation)
    (hOld : Accounted stored w.state lost) :
    Accounted (storedAfter stored update) (storeUpdate T batch generation w update).state
      (lostUpdate T w.state update lost) := by
  have hScan : (storeUpdate T batch generation w update).state.nextScanIndex
        = w.state.nextScanIndex := by
    rw [storeUpdate_state]
    cases update.op <;> rfl
  intro i hLt
  rw [hScan] at hLt
  by_cases hRing : i = update.ringIndex
  · rw [hRing]
    exact accountedAt_storeUpdate_self T batch generation w update stored lost
  · exact accountedAt_storeUpdate_other T batch generation hRing (hOld i hLt)

--
-- One Batch
--

/- The loop of `store_ring_roots`, with what it loses. -/
def storeTracked (batch : RingRootUpdatesBatch R) (generation : Generation) (w : Storing R × Lost)
    (update : RingRootUpdate R) : Storing R × Lost :=
  (storeUpdate T batch generation w.1 update, lostUpdate T w.1.state update w.2)

theorem foldl_storeTracked_fst (batch : RingRootUpdatesBatch R) (generation : Generation)
    (updates : List (RingRootUpdate R)) (w : Storing R × Lost) :
    (updates.foldl (storeTracked T batch generation) w).1
      = updates.foldl (storeUpdate T batch generation)
          w.1 := by
  induction updates generalizing w with
  | nil => rfl
  | cons update updates ih =>
    rw [List.foldl_cons, List.foldl_cons, ih]
    rfl

/- What the loop keeps for the collection of the batch. -/
structure Keeping (batch : RingRootUpdatesBatch R) (generation : Generation)
    (w : Storing R × Lost) : Prop where
  windows : NoEmptyWindow w.1.ringRoots generation
  tracked : RingsTracked
      (ringsIn w.1.ringRoots generation batch.identifier)
      w.1.state
  accounted : Accounted
      (ringsIn w.1.ringRoots generation batch.identifier)
      w.1.state w.2

theorem Keeping.storeTracked {w : Storing R × Lost} (hKeeping : Keeping batch generation w)
    (hLt : update.ringIndex < u32Max) :
    Keeping batch generation (storeTracked T batch generation w update) where
  windows := storeUpdate_noEmptyWindow T batch generation update hKeeping.windows
  tracked := storeUpdate_tracked T batch generation update hKeeping.windows hLt hKeeping.tracked
  accounted := by
    unfold MembersSubscriber.storeTracked
    rw [ringsIn_storeUpdate T batch generation update hKeeping.windows]
    exact accounted_storeUpdate T batch generation hKeeping.accounted

theorem Keeping.foldl (updates : List (RingRootUpdate R)) {w : Storing R × Lost}
    (hKeeping : Keeping batch generation w) (hLt : ∀ update ∈ updates, update.ringIndex < u32Max) :
    Keeping batch generation
      (updates.foldl (MembersSubscriber.storeTracked T batch generation) w) := by
  induction updates generalizing w with
  | nil => exact hKeeping
  | cons update updates ih =>
    apply ih
    · exact hKeeping.storeTracked T (hLt update (List.mem_cons_self ..))
    · intro u hMem
      exact hLt u (List.mem_cons_of_mem _ hMem)

/- The batch leaves the other collections alone. -/
theorem foldl_storeUpdate_other (batch : RingRootUpdatesBatch R) (generation : Generation)
    (updates : List (RingRootUpdate R)) (w : Storing R) {g : Generation}
    (hOther : g ≠ generation ∨ identifier ≠ batch.identifier) :
    (updates.foldl (storeUpdate T batch generation) w).ringRoots.get (g, identifier, r)
      = w.ringRoots.get (g, identifier, r) := by
  induction updates generalizing w with
  | nil => rfl
  | cons update updates ih =>
    rw [List.foldl_cons, ih]
    apply storeUpdate_other
    rcases hOther with hG | hId
    · exact Or.inl hG
    · exact Or.inr (Or.inl hId)

--
-- One Scan
--

/- The scan only records what it has passed. -/
theorem scanFrom_frame (present : RingIndex → Bool) (n : Nat) (idx : RingIndex)
    (state : RingCollectionState) :
    ∃ missing next,
      scanFrom T present n idx state = { state with
        missingIndices := missing
        nextScanIndex := next } := by
  induction n generalizing idx state with
  | zero => exact ⟨_, _, rfl⟩
  | succ n ih =>
    unfold scanFrom
    simp only
    split_ifs
    · rcases ih (idx + 1) { state with
          nextScanIndex := saturatingAdd u32Max idx 1 } with
        ⟨missing, next, hEq⟩
      exact ⟨missing, next, hEq⟩
    · rcases ih (idx + 1) { state with
          missingIndices := state.missingIndices.insert idx 0
          nextScanIndex := saturatingAdd u32Max idx 1 } with
        ⟨missing, next, hEq⟩
      exact ⟨missing, next, hEq⟩
    · exact ⟨_, _, rfl⟩

theorem scanFrom_accounted {present : RingIndex → Bool}
    (hPresent : ∀ i, present i = true → i ∈ stored) (n : Nat) {idx : RingIndex}
    (hScan : state.nextScanIndex = idx) (hMax : idx + n ≤ u32Max)
    (hOld : Accounted stored state lost) :
    Accounted stored (scanFrom T present n idx state) lost := by
  induction n generalizing idx state with
  | zero => exact hOld
  | succ n ih =>
    have hNext : saturatingAdd u32Max idx 1 = idx + 1 := by
      apply saturatingAdd_of_le
      exact Nat.le_trans (Nat.add_le_add_left (Nat.succ_pos n) idx) hMax
    have hMax' : idx + 1 + n ≤ u32Max := by
      rw [Nat.add_assoc, Nat.add_comm 1 n]
      exact hMax
    have hBelow : ∀ i, i < idx + 1 → i = idx ∨ i < state.nextScanIndex := by
      intro i hLt
      rw [hScan]
      exact (Nat.lt_succ_iff_lt_or_eq.mp hLt).symm
    unfold scanFrom
    simp only [hNext]
    split_ifs with hHere hRoom
    · refine ih ?_ hMax' ?_
      · rfl
      intro i hLt
      rcases hBelow i hLt with hIs | hLess
      · rw [hIs]
        rcases hHere with hStored | hDeleted
        · exact Or.inl (hPresent idx hStored)
        · exact Or.inr (Or.inl hDeleted)
      · exact hOld i hLess
    · refine ih ?_ hMax' ?_
      · rfl
      intro i hLt
      have hInsert : (state.missingIndices.insert idx 0).containsKey i = true ↔
            i = idx ∨ state.missingIndices.containsKey i = true := by
        unfold StorageMap.containsKey
        rw [get_insert]
        split_ifs with hIs <;> simp [hIs]
      unfold AccountedAt
      simp only [hInsert]
      rcases hBelow i hLt with hIs | hLess
      · tauto
      · have hAt := hOld i hLess
        unfold AccountedAt at hAt
        tauto
    · exact hOld

/- A step that only changes the missing indices of one collection and how far its scan got. -/
structure MissingChanged (s s' : SubscriberState R) (identifier : Identifier)
    (missing : StorageMap RingIndex Nat) (next : RingIndex) : Prop where
  ringRoots : s'.ringRoots = s.ringRoots
  generation : s'.currentGeneration = s.currentGeneration
  state : ∀ identifier', s'.collectionState identifier' =
      if identifier' = identifier then
        { s.collectionState identifier with
          missingIndices := missing
          nextScanIndex := next }
      else s.collectionState identifier'

theorem collectionState_insert (s : SubscriberState R) (ringRoots : RingRootMap R)
    (identifier : Identifier) (state : RingCollectionState) (identifier' : Identifier) :
    ({ s with
        ringRoots := ringRoots
        ringCollectionStates := s.ringCollectionStates.insert identifier
            state } : SubscriberState R).collectionState
        identifier'
      = if identifier' = identifier then state else s.collectionState identifier' :=
  StorageMap.getD_insert _ _ _ _ _

theorem missingChanged_insert (s : SubscriberState R) (identifier : Identifier)
    (missing : StorageMap RingIndex Nat) (next : RingIndex) :
    MissingChanged s
      { s with
        ringCollectionStates := s.ringCollectionStates.insert identifier
            { s.collectionState identifier with
              missingIndices := missing
              nextScanIndex := next } }
      identifier missing next where
  ringRoots := rfl
  generation := rfl
  state := fun _ => collectionState_insert _ _ _ _ _

theorem detect_missingChanged (s : SubscriberState R) (identifier : Identifier) :
    ∃ missing next, MissingChanged s (s.detectMissingRingsInCollection T identifier)
        identifier missing next := by
  unfold detectMissingRingsInCollection
  simp only
  split_ifs
  · exact ⟨_, _, missingChanged_insert _ _ _ _⟩
  · rcases scanFrom_frame T _ _ _ _ with ⟨missing, next, hEq⟩
    rw [hEq]
    exact ⟨_, _, missingChanged_insert _ _ _ _⟩

theorem detect_accounted
    (hTracked : RingsTracked (storedRings s identifier) (s.collectionState identifier))
    (hOld : Accounted (storedRings s identifier) (s.collectionState identifier) lost) :
    Accounted (storedRings s identifier) ((s.detectMissingRingsInCollection T
        identifier).collectionState identifier) lost := by
  unfold detectMissingRingsInCollection
  rw [collectionState_insert, if_pos rfl]
  simp only
  by_cases hAll : accountedFor (s.collectionState identifier) = true
  · rw [if_pos hAll]
    intro i hLt
    rcases hTracked.no_gap_of_accountedFor hAll hLt with
      hStored | hDeleted
    · exact Or.inl hStored
    · exact Or.inr (Or.inl hDeleted)
  · rw [if_neg hAll]
    by_cases hLe : (s.collectionState identifier).nextScanIndex
        ≤ (s.collectionState identifier).nextRingIndex
    · apply scanFrom_accounted T ?_ _ rfl ?_ hOld
      · intro i hPresent
        rw [storedRings, mem_ringsIn]
        rcases StorageMap.containsKey_iff.mp hPresent with ⟨roots, hGet⟩
        rw [hGet]
        exact Option.some_ne_none roots
      · have hBound : ∀ a b next : Nat, next ≤ u32Max → a ≤ next →
              a + (min next b - a) ≤ u32Max := by
          intro a b next hMax hA
          omega
        exact hBound _ _ _ hTracked.next_le hLe
    · have hShort : ∀ a b next : Nat, ¬ a ≤ next → min next b - a = 0 := by
        intro a b next hNot
        omega
      rw [hShort _ _ _ hLe]
      exact hOld

--
-- One Replay
--

def lostReplay (missingIndices : StorageMap RingIndex Nat) (idx : RingIndex) (lost : Lost) : Lost :=
  match missingIndices.get idx with
  | none => lost
  | some attempts =>
    if T.replayAbandonThreshold
        ≤ saturatingAdd u32Max attempts 1 then
      { lost with abandoned := insert idx lost.abandoned }
    else
      lost

/- The loop over the replayed indices, with what it loses. -/
def replayTracked (w : (StorageMap RingIndex Nat × List RingIndex) × Lost) (idx : RingIndex) :
    (StorageMap RingIndex Nat × List RingIndex) × Lost :=
  (attemptReplay T w.1 idx, lostReplay T w.1.1 idx w.2)

theorem foldl_replayTracked_fst (indices : List RingIndex)
    (w : (StorageMap RingIndex Nat × List RingIndex) × Lost) :
    (indices.foldl (replayTracked T) w).1 = indices.foldl (attemptReplay T) w.1 := by
  induction indices generalizing w with
  | nil => rfl
  | cons idx indices ih =>
    rw [List.foldl_cons, List.foldl_cons, ih]
    rfl

theorem accounted_attemptReplay {w : (StorageMap RingIndex Nat × List RingIndex) × Lost}
    (idx : RingIndex) (hOld : Accounted stored { state with missingIndices := w.1.1 } w.2) :
    Accounted stored
      { state with
        missingIndices := (replayTracked T w idx).1.1 }
      (replayTracked T w idx).2 := by
  intro i hLt
  have hAt := hOld i hLt
  unfold AccountedAt at hAt ⊢
  unfold replayTracked attemptReplay lostReplay
  cases hGet : w.1.1.get idx with
  | none => exact hAt
  | some attempts =>
    simp only
    split_ifs
    · have hRemove : i = idx ∨ (w.1.1.remove idx).containsKey i = w.1.1.containsKey i := by
        unfold StorageMap.containsKey
        rw [get_remove]
        split_ifs with hIs
        · exact Or.inl hIs
        · exact Or.inr rfl
      simp only [Finset.mem_insert]
      rcases hRemove with hIs | hSame
      · tauto
      · rw [hSame]
        tauto
    · have hInsert : w.1.1.containsKey i = true →
            (w.1.1.insert idx (saturatingAdd u32Max attempts 1)).containsKey i = true := by
        unfold StorageMap.containsKey
        rw [get_insert]
        split_ifs
        · intro _
          rfl
        · exact id
      tauto

theorem accounted_replay (indices : List RingIndex)
    {w : (StorageMap RingIndex Nat × List RingIndex) × Lost}
    (hOld : Accounted stored { state with missingIndices := w.1.1 } w.2) :
    Accounted stored
      { state with
        missingIndices := (indices.foldl (replayTracked T) w).1.1 }
      (indices.foldl (replayTracked T) w).2 := by
  induction indices generalizing w with
  | nil => exact hOld
  | cons idx indices ih =>
    exact ih (accounted_attemptReplay T idx hOld)

--
-- Runs
--

/- The steps that change what is known of the rings. -/
inductive ScanOp (R : Type) where
  | store (now : Nat) (batch : RingRootUpdatesBatch R)
  | detect (now : Nat) (identifier : Identifier)
  | replay (chain : Chain) (identifier : Identifier) (indices : List RingIndex)

/- The pallet, and the indices it lost of each collection. -/
structure Scanning (R : Type) where
  pallet : SubscriberState R
  lost : Identifier → Lost

/- Nothing is known of any collection, and no ring is stored in the live generation. -/
def Fresh (s : SubscriberState R) : Prop :=
  (∀ identifier, s.collectionState identifier = {}) ∧
    ∀ identifier r, s.currentRingRoots identifier r = none

namespace Scanning

def start (s : SubscriberState R) : Scanning R where
  pallet := s
  lost := fun _ => {}

def step (w : Scanning R) :
    ScanOp R → Except Failure (Scanning R)
  | .store now batch =>
    let state := w.pallet.collectionState batch.identifier
    let stored := batch.updates.foldl (storeTracked T batch w.pallet.currentGeneration)
        ({ ringRoots := w.pallet.ringRoots
           state := { state with
            nextRingIndex :=
              max state.nextRingIndex batch.nextRingIndex } },
          w.lost batch.identifier)
    .ok
      { pallet := w.pallet.storeRingRoots T now batch
        lost := Function.update w.lost batch.identifier stored.2 }
  | .detect now identifier => do
    let s ← w.pallet.detectMissingRings T now identifier
    return { w with pallet := s }
  | .replay chain identifier indices => do
    let state := w.pallet.collectionState identifier
    let result ← w.pallet.replayMissingRoots T chain.now chain.accepts
        chain.selfParaId identifier indices
    let replayed := (indicesSet indices).foldl (replayTracked T)
        ((state.missingIndices, []), w.lost identifier)
    return {
      pallet := result.1
      lost := Function.update w.lost identifier replayed.2 }

/- Indices and frontiers fit into 32 bits. -/
def IndicesBounded (_ : Scanning R) (op : ScanOp R) (_ : Scanning R) : Prop :=
  ∀ now batch, op = .store now batch → batch.nextRingIndex ≤ u32Max
      ∧ ∀ update ∈ batch.updates, update.ringIndex < u32Max

structure GapFree (w : Scanning R) : Prop where
  windows : NoEmptyWindow w.pallet.ringRoots w.pallet.currentGeneration
  tracked : ∀ identifier,
      RingsTracked (storedRings w.pallet identifier)
        (w.pallet.collectionState identifier)
  accounted : ∀ identifier,
      Accounted (storedRings w.pallet identifier)
        (w.pallet.collectionState identifier)
        (w.lost identifier)

theorem gapFree_start (hFresh : Fresh s) :
    GapFree (start s) := by
  have hStored : ∀ identifier, storedRings s identifier = ∅ := by
    intro identifier
    rw [Finset.eq_empty_iff_forall_notMem]
    intro r hMem
    rw [storedRings, mem_ringsIn] at hMem
    exact hMem (hFresh.2 identifier r)
  refine ⟨?_, ?_, ?_⟩
  · intro identifier r hNil
    have hNone : s.ringRoots.get (s.currentGeneration, identifier, r)
        = none := hFresh.2 identifier r
    have hSome : s.ringRoots.get (s.currentGeneration, identifier, r) = some [] := hNil
    rw [hNone] at hSome
    exact absurd hSome (by simp)
  · intro identifier
    simp only [start, hStored, hFresh.1]
    refine ⟨rfl, Finset.disjoint_empty_left _, ?_, ?_, Nat.zero_le _⟩
    · intro r hMem
      exact absurd hMem (Finset.notMem_empty r)
    · intro r hMem
      exact absurd hMem (Finset.notMem_empty r)
  · intro identifier i hLt
    simp only [start, hFresh.1] at hLt
    exact absurd hLt (Nat.not_lt_zero i)

variable {missing : StorageMap RingIndex Nat}

/- A step that leaves the stored rings of all collections. -/
theorem GapFree.of_missingChanged {w : Scanning R} (hFree : GapFree w) {next : RingIndex}
    (hChanged : MissingChanged w.pallet s identifier missing next)
    (hAccounted : Accounted (storedRings w.pallet identifier) (s.collectionState identifier) lost) :
    GapFree
      { pallet := s
        lost := Function.update w.lost identifier lost } := by
  rcases hChanged with ⟨hRoots, hGeneration, hState⟩
  have hStored : ∀ identifier', storedRings s identifier' = storedRings w.pallet identifier' := by
    intro identifier'
    unfold storedRings
    rw [hRoots, hGeneration]
  refine ⟨?_, ?_, ?_⟩
  · simp only [hRoots, hGeneration]
    exact hFree.windows
  · intro identifier'
    simp only [hStored, hState]
    split_ifs with hSame
    · rw [hSame]
      have hOld := hFree.tracked identifier
      exact ⟨hOld.count, hOld.disjoint, hOld.stored_lt, hOld.deleted_lt, hOld.next_le⟩
    · exact hFree.tracked identifier'
  · intro identifier'
    by_cases hSame : identifier' = identifier
    · simp only [hSame, hStored, Function.update_self]
      exact hAccounted
    · simp only [hStored, hState, if_neg hSame, Function.update_of_ne hSame]
      exact hFree.accounted identifier'

theorem GapFree.store {w : Scanning R} (hFree : GapFree w) (hNext : batch.nextRingIndex ≤ u32Max)
    (hLt : ∀ update ∈ batch.updates, update.ringIndex < u32Max) {now : Nat} {w' : Scanning R}
    (hStep : step T w (.store now batch) = .ok w') :
    GapFree w' := by
  have hStart : Keeping batch w.pallet.currentGeneration
        ({ ringRoots := w.pallet.ringRoots
           state :=
            { w.pallet.collectionState batch.identifier with
              nextRingIndex :=
                max (w.pallet.collectionState batch.identifier).nextRingIndex
                  batch.nextRingIndex } },
          w.lost batch.identifier) := by
    have hTracked := hFree.tracked batch.identifier
    refine ⟨hFree.windows, ?_, ?_⟩
    · apply hTracked.raise (Nat.le_max_left _ _)
      exact Nat.max_le.mpr ⟨hTracked.next_le, hNext⟩
    · exact hFree.accounted batch.identifier
  have hKeeping := hStart.foldl T batch.updates hLt
  have hFst := foldl_storeTracked_fst T batch w.pallet.currentGeneration batch.updates
  rcases hKeeping with ⟨hWindows, hTracked, hAccounted⟩
  rw [hFst] at hWindows hTracked hAccounted
  rw [← Except.ok.inj hStep]
  have hOther : ∀ identifier, identifier ≠ batch.identifier →
        storedRings (w.pallet.storeRingRoots T now batch) identifier
          = storedRings w.pallet identifier := by
    intro identifier hNe
    ext r
    unfold storedRings
    rw [mem_ringsIn, mem_ringsIn]
    unfold storeRingRoots
    simp only
    rw [foldl_storeUpdate_other T batch _ _ _ (Or.inr hNe)]
  refine ⟨hWindows, ?_, ?_⟩
  · intro identifier
    by_cases hSame : identifier = batch.identifier
    · rw [hSame]
      unfold storeRingRoots
      rw [collectionState_insert, if_pos rfl]
      exact ⟨hTracked.count, hTracked.disjoint, hTracked.stored_lt, hTracked.deleted_lt,
        hTracked.next_le⟩
    · rw [hOther identifier hSame]
      unfold storeRingRoots
      rw [collectionState_insert, if_neg hSame]
      exact hFree.tracked identifier
  · intro identifier
    by_cases hSame : identifier = batch.identifier
    · rw [hSame]
      simp only [Function.update_self]
      unfold storeRingRoots
      rw [collectionState_insert, if_pos rfl]
      exact hAccounted
    · rw [hOther identifier hSame]
      simp only [Function.update_of_ne hSame]
      unfold storeRingRoots
      rw [collectionState_insert, if_neg hSame]
      exact hFree.accounted identifier

theorem GapFree.detect {w w' : Scanning R} (hFree : GapFree w) {now : Nat}
    (hStep : step T w (.detect now identifier) = .ok w') :
    GapFree w' := by
  unfold step detectMissingRings at hStep
  simp only [Except.bind_eq_ok, Except.pure_eq_ok] at hStep
  rcases hStep with ⟨s, ⟨_, _, hDetect⟩, hEq⟩
  rcases detect_missingChanged T w.pallet identifier with ⟨missing, next, hChanged⟩
  have hNew := detect_accounted T (hFree.tracked identifier) (hFree.accounted identifier)
  rw [hDetect] at hChanged hNew
  have hKept := hFree.of_missingChanged hChanged hNew
  rw [Function.update_eq_self] at hKept
  rw [← hEq]
  exact hKept

theorem foldl_attemptReplay_of_isEmpty (indices : List RingIndex) (toSend : List RingIndex)
    (hEmpty : missing.isEmpty = true) :
    indices.foldl (attemptReplay T) (missing, toSend) = (missing, toSend) := by
  induction indices with
  | nil => rfl
  | cons idx indices ih =>
    have hNone := StorageMap.isEmpty_iff.mp hEmpty idx
    rw [List.foldl_cons]
    unfold attemptReplay
    simp only [hNone]
    exact ih

/- A replay only changes the missing indices. -/
theorem processCollectionReplay_missingChanged
    (s : SubscriberState R) (accepts : NotifierCall → Bool)
    (selfParaId : ParaId) (identifier : Identifier) (indices : List RingIndex) :
    MissingChanged s (s.processCollectionReplay T accepts selfParaId identifier indices).1
      identifier
      (indices.foldl (attemptReplay T) ((s.collectionState identifier).missingIndices, [])).1
      (s.collectionState identifier).nextScanIndex := by
  unfold processCollectionReplay
  simp only
  by_cases hNothing : indices = [] ∨ (s.collectionState identifier).missingIndices.isEmpty = true
  · rw [if_pos hNothing]
    refine ⟨rfl, rfl, ?_⟩
    intro identifier'
    have hSame : (indices.foldl (attemptReplay T)
          ((s.collectionState identifier).missingIndices, [])).1
          = (s.collectionState identifier).missingIndices := by
      rcases hNothing with hNil | hEmpty
      · rw [hNil]
        rfl
      · rw [foldl_attemptReplay_of_isEmpty T indices [] hEmpty]
    rw [hSame]
    split_ifs with hId
    · rw [hId]
    · rfl
  · rw [if_neg hNothing]
    exact missingChanged_insert _ _ _ _

variable {indices : List RingIndex}

theorem replayMissingRoots_eq_ok {chain : Chain} {result : SubscriberState R × List NotifierCall}
    (hReplay : s.replayMissingRoots T chain.now chain.accepts
        chain.selfParaId identifier indices = .ok result) :
    ∃ processing, result.1 =
        { (s.processCollectionReplay T chain.accepts
            chain.selfParaId identifier
            (indicesSet indices)).1 with
          processingState := processing } := by
  unfold replayMissingRoots at hReplay
  simp only [Except.bind_eq_ok, Except.pure_eq_ok] at hReplay
  rcases hReplay with ⟨_, _, hEq⟩
  rw [← hEq]
  by_cases hNil : (s.processCollectionReplay T chain.accepts
      chain.selfParaId identifier (indicesSet indices)).2 = []
  · simp only [if_pos hNil]
    exact ⟨_, rfl⟩
  · simp only [if_neg hNil]
    exact ⟨_, rfl⟩

theorem GapFree.replay {w w' : Scanning R} (hFree : GapFree w) {chain : Chain}
    (hStep : step T w (.replay chain identifier indices) = .ok w') :
    GapFree w' := by
  unfold step at hStep
  simp only [Except.bind_eq_ok, Except.pure_eq_ok] at hStep
  rcases hStep with ⟨result, hReplay, hEq⟩
  rcases replayMissingRoots_eq_ok T hReplay with ⟨processing, hResult⟩
  have hReplayed := processCollectionReplay_missingChanged T w.pallet
      chain.accepts chain.selfParaId identifier
      (indicesSet indices)
  have hChanged : MissingChanged w.pallet result.1 identifier
        ((indicesSet indices).foldl (attemptReplay T) ((w.pallet.collectionState
            identifier).missingIndices, [])).1
        (w.pallet.collectionState identifier).nextScanIndex := by
    rw [hResult]
    exact ⟨hReplayed.ringRoots, hReplayed.generation, hReplayed.state⟩
  rw [← hEq]
  apply hFree.of_missingChanged hChanged
  have hAccounted := accounted_replay T (indicesSet indices) (w := (((w.pallet.collectionState
        identifier).missingIndices, []), w.lost identifier))
      (hFree.accounted identifier)
  rw [foldl_replayTracked_fst] at hAccounted
  rw [hChanged.state, if_pos rfl]
  exact hAccounted

/- Every step keeps the rings tracked and the scan complete. -/
theorem GapFree.step {w w' : Scanning R} (hFree : GapFree w) {op : ScanOp R}
    (hBounded : IndicesBounded w op w') (hStep : Scanning.step T w op = .ok w') :
    GapFree w' := by
  cases op with
  | store now batch =>
    rcases hBounded now batch rfl with ⟨hNext, hLt⟩
    exact hFree.store T hNext hLt hStep
  | detect now identifier => exact hFree.detect T hStep
  | replay chain identifier indices =>
    exact hFree.replay T hStep

/-
  Whatever batches arrive and however far the scan got, the counter counts the stored rings, a
  collection that is accounted for has no gap, and every index the scan passed is stored, deleted,
  missing or lost.
-/
theorem gap_scan_complete (s : SubscriberState R) (hFresh : Fresh s) (w : Scanning R)
    (hRun : RunUnder (step T) IndicesBounded (start s) w) (identifier : Identifier) :
    let stored := storedRings w.pallet identifier
    let state := w.pallet.collectionState identifier
    state.ringCount = stored.card ∧ Disjoint stored state.deletedIndices ∧
      (∀ r, r ∈ stored ∨ r ∈ state.deletedIndices → r < state.nextRingIndex) ∧
      (state.nextRingIndex ≤ state.ringCount + state.deletedIndices.card →
        ∀ r, r < state.nextRingIndex → r ∈ stored ∨ r ∈ state.deletedIndices) ∧
      ∀ r, r < state.nextScanIndex → r ∈ stored ∨ r ∈ state.deletedIndices
          ∨ state.missingIndices.containsKey r = true
          ∨ r ∈ (w.lost identifier).abandoned
          ∨ r ∈ (w.lost identifier).dropped := by
  have hFree : GapFree w := hRun.invariant GapFree
      (fun _ _ _ hBounded hStep hOld => hOld.step T hBounded hStep)
      (gapFree_start hFresh)
  have hTracked := hFree.tracked identifier
  refine ⟨hTracked.count, hTracked.disjoint, ?_, ?_, hFree.accounted identifier⟩
  · rintro r (hStored | hDeleted)
    · exact hTracked.stored_lt r hStored
    · exact hTracked.deleted_lt r hDeleted
  · intro hCount r hLt
    exact hTracked.no_gap hCount hLt

/- A subscriber that gives up on an index at once. -/
private abbrev hastyConfig : Config where
  maxMissingRootsPerCollection := 4
  maxDeletedRingsPerCollection := 1
  maxGapScanPerCall := 8
  gapScanCooldownSeconds := 10
  purgePageSize := 4
  maxCollections := 2
  replayCooldownSeconds := 0
  maxUpdatesPerBatch := 4
  replayAbandonThreshold := 1
  maxRecentRootsPerRing := 3
  oldRootRetentionDuration := 100
  maxRecentRootsPerRing_pos := by decide

private def hastyBatch (updates : List (RingRootUpdate Nat)) :
    RingRootUpdatesBatch Nat where
  identifier := MembersPallet.sampleIdentifier
  sequence := 1
  sourceTime := 5
  updates := updates
  nextRingIndex := 5

/-
  Of five rings the first is built, the fourth and then the fifth are deleted, where only one
  deletion is recorded.  The scan finds two missing, one of which is abandoned.
-/
private def hastyOps : List (ScanOp Nat) :=
  [.store 0 (hastyBatch [⟨0, .built 0 7⟩]), .store 0 (hastyBatch [⟨4, .deleted⟩]),
    .store 1 (hastyBatch [⟨4, .built 2 9⟩, ⟨3, .deleted⟩]),
    .store 1 (hastyBatch [⟨4, .deleted⟩, ⟨3, .built 1 8⟩]),
    .detect 20 MembersPallet.sampleIdentifier,
    .replay ⟨30, 1, fun _ => true⟩ MembersPallet.sampleIdentifier [2]]

private def boundedOp : ScanOp Nat → Bool
  | .store _ batch =>
    batch.nextRingIndex ≤ u32Max ∧ ∀ update ∈ batch.updates, update.ringIndex < u32Max
  | _ => true

private theorem indicesBounded_of_boundedOp (w : Scanning Nat) (op : ScanOp Nat) (w' : Scanning Nat)
    (hOp : boundedOp op = true) :
    IndicesBounded w op w' := by
  intro now batch hEq
  rw [hEq] at hOp
  exact of_decide_eq_true hOp

private def hastyStart : SubscriberState Nat :=
  { (genesis : SubscriberState Nat) with
    subscription := .active 1 }

theorem gap_scan_complete_sample : ∃ w,
      RunUnder (step hastyConfig) IndicesBounded (start hastyStart) w
      ∧ (w.pallet.collectionState MembersPallet.sampleIdentifier).nextScanIndex = 5
      ∧ 2 ∈ (w.lost MembersPallet.sampleIdentifier).abandoned
      ∧ (w.pallet.collectionState MembersPallet.sampleIdentifier).ringCount
        = (storedRings w.pallet MembersPallet.sampleIdentifier).card := by
  have hExecute : ((execute (step hastyConfig) (fun _ op => boundedOp op)
        (start hastyStart) hastyOps).any fun w =>
        (w.pallet.collectionState MembersPallet.sampleIdentifier).nextScanIndex = 5
          ∧ 2 ∈ (w.lost MembersPallet.sampleIdentifier).abandoned)
        = true := by
    decide +kernel
  have hReached := exists_run_of_execute
      (fun w op w' hOp _ => indicesBounded_of_boundedOp w op w' hOp)
      hExecute
  rcases hReached with ⟨w, hRun, hTest⟩
  rw [decide_eq_true_eq] at hTest
  exact ⟨w, hRun, hTest.1, hTest.2, (gap_scan_complete hastyConfig hastyStart
      ⟨fun _ => rfl, fun _ _ => rfl⟩ w hRun
      MembersPallet.sampleIdentifier).1⟩

end Scanning

end Individuality.MembersSubscriber
