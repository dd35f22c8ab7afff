import Individuality.Scarcity.Supplies

/-
  Deposits and metadata are recorded for live instances only,
  and the metadata of every live instance is counted.

  Main declaration: `Live`
-/

namespace Individuality.Scarcity

open StorageMap (get_insert get_remove get_remove_of_ne)

variable {A B T : Type} {C : Config A B T}

/- An instance that some purse holds. -/
def Live (s : ScarcityState C) (instance_ : Nat) : Prop :=
  ∃ purse, s.instances.get instance_ = some purse

/- What is recorded for instances. -/
structure Attached (s : ScarcityState C) : Prop where
  deposit : ∀ instance_ deposit,
      s.instanceDeposits.get instance_ = some deposit → Live s instance_
  metadata :
    ∀ place entry, s.instanceMetadata.get place = some entry → Live s place.1
  counted : ∀ instance_, Live s instance_ →
      s.instanceMetadataCount.get instance_
        = some (s.instanceMetadata.count instance_)
  count : ∀ instance_ count,
      s.instanceMetadataCount.get instance_ = some count → Live s instance_

namespace Attached

variable {s s' : ScarcityState C}

theorem genesis (prices : Prices C.balanceMax) (bank : B) :
    Attached (ScarcityState.genesis C prices bank) where
  deposit := by
    intro _ _ hGet
    cases hGet
  metadata := by
    intro _ _ hGet
    cases hGet
  counted := by
    rintro _ ⟨_, hGet⟩
    cases hGet
  count := by
    intro _ _ hGet
    cases hGet

/- Another purse may hold an instance. -/
theorem of_live (hAttached : Attached s) (instances : StorageMap Nat A)
    (hLive : ∀ instance_, (∃ purse, instances.get instance_ = some purse) ↔ Live s instance_) :
    Attached { s with instances := instances } where
  deposit := fun instance_ deposit hGet =>
    (hLive instance_).mpr (hAttached.deposit _ deposit hGet)
  metadata := fun place entry hGet =>
    (hLive place.1).mpr (hAttached.metadata place entry hGet)
  counted := fun instance_ hGet =>
    hAttached.counted instance_ ((hLive instance_).mp hGet)
  count := fun instance_ count hGet =>
    (hLive instance_).mpr (hAttached.count _ count hGet)

theorem detail [DecidableEq A] (hAttached : Attached s) (hDetail : s.Detail s') :
    Attached s' := by
  cases hDetail with
  | collectionMetadata => exact { hAttached with }
  | itemMetadata => exact { hAttached with }
  | @instanceMetadata instance_ count _ purse _ _ _ _ key entry
      hPurse _ _ _ hCount =>
      have hLive : Live s instance_ := ⟨purse, hPurse⟩
      have hOld := hAttached.counted instance_ hLive
      have hGetD : s.instanceMetadataCount.getD instance_ 0
            = s.instanceMetadata.count instance_ := by
        unfold StorageMap.getD
        rw [hOld]
        rfl
      rw [hGetD] at hCount ⊢
      have hCounts : ∀ i, (if count = s.instanceMetadata.count instance_ then
                s.instanceMetadataCount
              else
                s.instanceMetadataCount.insert instance_ count).get i
              = if i = instance_ then some count else s.instanceMetadataCount.get i := by
        intro i
        by_cases hSame : count = s.instanceMetadata.count instance_
        · rw [if_pos hSame]
          by_cases hHere : i = instance_
          · rw [if_pos hHere, hHere, hOld, hSame]
          · rw [if_neg hHere]
        · rw [if_neg hSame]
          exact get_insert _ _ _ _
      constructor
      case deposit => exact hAttached.deposit
      case metadata =>
        intro place found hFound
        rcases Catalogue.home_of_put hFound with hHere | hOld
        · rw [hHere]
          exact ⟨purse, hPurse⟩
        · exact hAttached.metadata place found hOld
      case counted =>
        intro i hLive'
        change StorageMap.get (ite _ _ _) i = _
        rw [hCounts]
        by_cases hHere : i = instance_
        · rw [if_pos hHere, hHere]
          exact congrArg some (Catalogue.count_of_put hCount)
        · rw [if_neg hHere, hAttached.counted i hLive']
          exact congrArg some (Catalogue.count_of_put_of_ne _ key entry hHere).symm
      case count =>
        intro i found hFound
        change StorageMap.get (ite _ _ _) i = _ at hFound
        rw [hCounts] at hFound
        by_cases hHere : i = instance_
        · rw [hHere]
          exact ⟨purse, hPurse⟩
        · rw [if_neg hHere] at hFound
          exact hAttached.count i found hFound

variable [DecidableEq A]

/- A new instance has its deposit, and no metadata yet. -/
theorem minted (hAttached : Attached s) (hPurses : Purses s) (to_ : A) (withDeposit : Bool)
    (price : Nat) :
    Attached { s with
      instances := s.instances.insert s.nextInstanceId to_
      instanceMetadataCount := s.instanceMetadataCount.insert s.nextInstanceId 0
      instanceDeposits :=
        if withDeposit then
          s.instanceDeposits.insert s.nextInstanceId price
        else s.instanceDeposits } := by
  have hUnheld := hPurses.unheld_next
  have hKept : ∀ i, Live s i → ∃ purse,
          (s.instances.insert s.nextInstanceId to_).get i = some purse := by
    intro i hLive
    rw [get_insert]
    split_ifs
    · exact ⟨to_, rfl⟩
    · exact hLive
  have hHere : ∃ purse, (s.instances.insert s.nextInstanceId to_).get s.nextInstanceId
          = some purse :=
    ⟨to_, StorageMap.get_insert_self _ _ _⟩
  constructor
  case deposit =>
    intro i found hFound
    cases withDeposit with
    | true =>
      change (s.instanceDeposits.insert s.nextInstanceId price).get i = _ at hFound
      rw [get_insert] at hFound
      by_cases hNext : i = s.nextInstanceId
      · rw [hNext]
        exact hHere
      · rw [if_neg hNext] at hFound
        exact hKept i (hAttached.deposit i found hFound)
    | false => exact hKept i (hAttached.deposit i found hFound)
  case metadata =>
    intro place entry hFound
    exact hKept place.1 (hAttached.metadata place entry hFound)
  case counted =>
    rintro i ⟨purse, hGet⟩
    rw [get_insert] at hGet
    rw [get_insert]
    by_cases hNext : i = s.nextInstanceId
    · rw [if_pos hNext, hNext]
      have hNone : s.instanceMetadata.NoneAt s.nextInstanceId := by
        intro key
        cases hEntry : s.instanceMetadata.get (s.nextInstanceId, key) with
        | none => rfl
        | some entry =>
          rcases hAttached.metadata _ entry hEntry with ⟨purse, hPurse⟩
          rw [hUnheld] at hPurse
          cases hPurse
      exact congrArg some (DoubleMap.count_of_noneAt hNone).symm
    · rw [if_neg hNext] at hGet ⊢
      exact hAttached.counted i ⟨purse, hGet⟩
  case count =>
    intro i found hFound
    rw [get_insert] at hFound
    by_cases hNext : i = s.nextInstanceId
    · rw [hNext]
      exact hHere
    · rw [if_neg hNext] at hFound
      exact hKept i (hAttached.count i found hFound)

omit [DecidableEq A] in
/- A burn leaves nothing of an instance. -/
theorem burned (hAttached : Attached s) (instance_ : Nat) :
    Attached { s with
      instances := s.instances.remove instance_
      instanceMetadataCount := s.instanceMetadataCount.remove instance_
      instanceDeposits := s.instanceDeposits.remove instance_
      instanceMetadata := s.instanceMetadata.drainPrefix instance_ } := by
  have hKept : ∀ i, i ≠ instance_ → Live s i →
        ∃ purse, (s.instances.remove instance_).get i = some purse := by
    intro i hNe hLive
    rw [get_remove_of_ne _ hNe]
    exact hLive
  constructor
  case deposit =>
    intro i found hFound
    rw [get_remove] at hFound
    by_cases hHere : i = instance_
    · rw [if_pos hHere] at hFound
      cases hFound
    · rw [if_neg hHere] at hFound
      exact hKept i hHere (hAttached.deposit i found hFound)
  case metadata =>
    intro place entry hFound
    rw [DoubleMap.get_drainPrefix] at hFound
    by_cases hHere : place.1 = instance_
    · rw [if_pos hHere] at hFound
      cases hFound
    · rw [if_neg hHere] at hFound
      exact hKept place.1 hHere (hAttached.metadata place entry hFound)
  case counted =>
    rintro i ⟨purse, hGet⟩
    rw [get_remove] at hGet
    by_cases hHere : i = instance_
    · rw [if_pos hHere] at hGet
      cases hGet
    · rw [if_neg hHere] at hGet
      rw [get_remove_of_ne _ hHere, hAttached.counted i ⟨purse, hGet⟩]
      apply congrArg some
      apply Nat.le_antisymm
      · apply DoubleMap.count_le_of_forall
        intro key entry hEntry
        rw [DoubleMap.get_drainPrefix, if_neg hHere]
        exact hEntry
      · apply DoubleMap.count_le_of_forall
        intro key entry hEntry
        rw [DoubleMap.get_drainPrefix, if_neg hHere] at hEntry
        exact hEntry
  case count =>
    intro i found hFound
    rw [get_remove] at hFound
    by_cases hHere : i = instance_
    · rw [if_pos hHere] at hFound
      cases hFound
    · rw [if_neg hHere] at hFound
      exact hKept i hHere (hAttached.count i found hFound)

theorem change (hAttached : Attached s) (hPurses : Purses s) {op : Op C}
    (hChange : s.Change op s') :
    Attached s' := by
  cases hChange with
  | detail hDetail => exact hAttached.detail hDetail
  | @minted _ _ price _ _ _ _ _ to_ withDeposit =>
    exact { hAttached.minted hPurses to_ withDeposit price with }
  | @moved purse to_ nft _ hHeld =>
    have hLive : ∀ i, (∃ purse, (s.instances.insert nft.instance_ to_).get i = some purse)
            ↔ Live s i := by
      intro i
      rw [get_insert]
      by_cases hHere : i = nft.instance_
      · rw [if_pos hHere, hHere]
        exact ⟨fun _ => ⟨purse, hPurses.live_of_held hHeld⟩, fun _ => ⟨to_, rfl⟩⟩
      · rw [if_neg hHere]
        exact Iff.rfl
    exact { hAttached.of_live _ hLive with }
  | @burned _ nft =>
    exact { hAttached.burned nft.instance_ with }
  | _ => exact { hAttached with }

end Attached

end Individuality.Scarcity
