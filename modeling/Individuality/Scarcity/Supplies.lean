import Individuality.Scarcity.Catalogue

/-
  Item definitions count the instances that are live and those that were ever minted, and no
  instance outlives its definition.

  Main declaration: `heldOf`
-/

namespace Individuality.Scarcity

open StorageMap (get_insert get_remove get_remove_of_ne sum_eq_zero sum_insert_of_get_eq_none
  sum_remove weightAt_some)

variable {A B T : Type} {C : Config A B T}

/- How many instances of a definition are in purses. -/
def heldOf (s : ScarcityState C) (place : Nat × Nat) : Nat :=
  s.nftsByOwner.sum fun _ nft =>
    if nft.definition = place then 1 else 0

/- How many instances of a definition were ever minted. -/
def mintedOf (s : ScarcityState C) (place : Nat × Nat) : Nat :=
  s.minted.sum fun _ definition =>
    if definition = place then 1 else 0

/- What the definitions count, and what they are there for. -/
structure Supplies [DecidableEq A] (s : ScarcityState C) : Prop where
  live : ∀ place definition,
      s.itemDefs.get place = some definition →
        definition.liveSupply = heldOf s place
  ever : ∀ place definition,
      s.itemDefs.get place = some definition →
        definition.supply = mintedOf s place
  home : ∀ purse nft, s.nftsByOwner.get purse = some nft →
      ∃ definition, s.itemDefs.get nft.definition = some definition
  used : ∀ instance_ place,
      s.minted.get instance_ = some place →
        place.1 < s.nextCollectionId
          ∧ ∀ info,
            s.collections.get place.1 = some info → place.2 < info.nextItemIndex

namespace Supplies

variable [DecidableEq A] {s s' : ScarcityState C} {collection : Nat}
variable {info info' : CollectionInfo A T} {place : Nat × Nat}
variable {definition definition' : ItemDefinition} {purse to_ : A} {nft nft' : Nft}

theorem genesis (prices : Prices C.balanceMax) (bank : B) :
    Supplies (ScarcityState.genesis C prices bank) := by
  constructor <;>
    · intro _ _ hGet
      cases hGet

/- A collection keeps its next item. -/
theorem keepInfo (hSupplies : Supplies s) (info' : CollectionInfo A T)
    (hInfo : s.collections.get collection = some info)
    (hIndex : info'.nextItemIndex = info.nextItemIndex) :
    Supplies { s with
      collections := s.collections.insert collection info' } := by
  refine { hSupplies with used := ?_ }
  intro instance_ at_ hMinted
  rcases hSupplies.used instance_ at_ hMinted with ⟨hBelow, hIndexes⟩
  refine ⟨hBelow, ?_⟩
  intro found hFound
  rw [get_insert] at hFound
  by_cases hSame : at_.1 = collection
  · rw [if_pos hSame] at hFound
    cases hFound
    rw [hIndex]
    exact hIndexes info (hSame ▸ hInfo)
  · rw [if_neg hSame] at hFound
    exact hIndexes found hFound

/- A definition keeps its supplies. -/
theorem keepDefinition (hSupplies : Supplies s) (definition' : ItemDefinition)
    (hDefinition : s.itemDefs.get place = some definition)
    (hLive : definition'.liveSupply = definition.liveSupply)
    (hEver : definition'.supply = definition.supply) :
    Supplies { s with
      itemDefs := s.itemDefs.insert place definition' } := by
  refine
    { live := ?_, ever := ?_, home := ?_
      used := hSupplies.used }
  · intro at_ found hFound
    rw [get_insert] at hFound
    by_cases hSame : at_ = place
    · rw [if_pos hSame] at hFound
      cases hFound
      rw [hLive, hSame]
      exact hSupplies.live place definition hDefinition
    · rw [if_neg hSame] at hFound
      exact hSupplies.live at_ found hFound
  · intro at_ found hFound
    rw [get_insert] at hFound
    by_cases hSame : at_ = place
    · rw [if_pos hSame] at hFound
      cases hFound
      rw [hEver, hSame]
      exact hSupplies.ever place definition hDefinition
    · rw [if_neg hSame] at hFound
      exact hSupplies.ever at_ found hFound
  · intro at_ held hHeld
    rw [get_insert]
    by_cases hSame : held.definition = place
    · exact ⟨definition', if_pos hSame⟩
    · rw [if_neg hSame]
      exact hSupplies.home at_ held hHeld

theorem detail (hSupplies : Supplies s) (hDetail : s.Detail s') :
    Supplies s' := by
  cases hDetail with
  | @collectionMetadata _ count deposit info ticket _ _ _ hInfo =>
    have hKept := hSupplies.keepInfo
        { info.repaid deposit ticket with
          metadataCount := count }
        hInfo rfl
    exact { hKept with }
  | @itemMetadata _ _ count deposit info definition ticket _ _ _
      hInfo hDefinition =>
      have hKept := (hSupplies.keepInfo (info.repaid deposit ticket) hInfo rfl).keepDefinition
          { definition with metadataCount := count }
          hDefinition rfl rfl
      exact { hKept with }
  | @instanceMetadata _ _ deposit _ _ info ticket _ _ _ _ _ _
      hInfo =>
      have hKept := hSupplies.keepInfo (info.repaid deposit ticket) hInfo rfl
      exact { hKept with }

--
-- Definitions
--

theorem created (hSupplies : Supplies s) (info : CollectionInfo A T) :
    Supplies { s with
      nextCollectionId := s.nextCollectionId + 1
      collections := s.collections.insert s.nextCollectionId info } := by
  refine { hSupplies with used := ?_ }
  intro instance_ at_ hMinted
  rcases hSupplies.used instance_ at_ hMinted with ⟨hBelow, hIndexes⟩
  refine ⟨Nat.lt_succ_of_lt hBelow, ?_⟩
  intro found hFound
  rw [get_insert, if_neg (Nat.ne_of_lt hBelow)] at hFound
  exact hIndexes found hFound

/- Nothing was minted from a definition that is new. -/
theorem itemDefined (hSupplies : Supplies s) (hCatalogue : Catalogue s)
    (info' : CollectionInfo A T) (definition' : ItemDefinition)
    (hInfo : s.collections.get collection = some info)
    (hIndex : info'.nextItemIndex = info.nextItemIndex + 1) (hLive : definition'.liveSupply = 0)
    (hEver : definition'.supply = 0) :
    Supplies { s with
      collections := s.collections.insert collection info'
      itemDefs := s.itemDefs.insert (collection, info.nextItemIndex) definition' } := by
  have hNew := hCatalogue.nextItem_unused hInfo
  refine { live := ?_, ever := ?_, home := ?_, used := ?_ }
  · intro at_ found hFound
    rw [get_insert] at hFound
    by_cases hSame : at_ = (collection, info.nextItemIndex)
    · rw [if_pos hSame] at hFound
      cases hFound
      rw [hLive, hSame]
      symm
      apply sum_eq_zero
      intro at_ held hHeld
      rcases hSupplies.home at_ held hHeld with ⟨definition, hDefinition⟩
      apply if_neg
      intro hHome
      rw [hHome, hNew] at hDefinition
      cases hDefinition
    · rw [if_neg hSame] at hFound
      exact hSupplies.live at_ found hFound
  · intro at_ found hFound
    rw [get_insert] at hFound
    by_cases hSame : at_ = (collection, info.nextItemIndex)
    · rw [if_pos hSame] at hFound
      cases hFound
      rw [hEver, hSame]
      symm
      apply sum_eq_zero
      intro instance_ minted hMinted
      apply if_neg
      rintro rfl
      exact absurd ((hSupplies.used instance_ _ hMinted).2 info hInfo) (Nat.lt_irrefl _)
    · rw [if_neg hSame] at hFound
      exact hSupplies.ever at_ found hFound
  · intro at_ held hHeld
    rw [get_insert]
    split_ifs
    · exact ⟨definition', rfl⟩
    · exact hSupplies.home at_ held hHeld
  · intro instance_ at_ hMinted
    rcases hSupplies.used instance_ at_ hMinted with ⟨hBelow, hIndexes⟩
    refine ⟨hBelow, ?_⟩
    intro found hFound
    rw [get_insert] at hFound
    by_cases hSame : at_.1 = collection
    · rw [if_pos hSame] at hFound
      cases hFound
      have hLt := hIndexes info (hSame ▸ hInfo)
      omega
    · rw [if_neg hSame] at hFound
      exact hIndexes found hFound

/- A definition without live instances is removed. -/
theorem itemDeleted (hSupplies : Supplies s) (hDefinition : s.itemDefs.get place = some definition)
    (hLive : definition.liveSupply = 0) :
    Supplies { s with
      itemDefs := s.itemDefs.remove place } := by
  refine
    { live := ?_, ever := ?_, home := ?_
      used := hSupplies.used }
  · intro at_ found hFound
    rw [get_remove] at hFound
    split_ifs at hFound
    exact hSupplies.live at_ found hFound
  · intro at_ found hFound
    rw [get_remove] at hFound
    split_ifs at hFound
    exact hSupplies.ever at_ found hFound
  · intro at_ held hHeld
    rw [get_remove_of_ne]
    · exact hSupplies.home at_ held hHeld
    · intro hSame
      have hOne : (if held.definition = place then 1 else 0) ≤ heldOf s place :=
        StorageMap.le_sum_of_get (m := s.nftsByOwner) hHeld
          fun _ nft => if nft.definition = place then 1 else 0
      have hNone := hSupplies.live place definition hDefinition
      rw [if_pos hSame] at hOne
      omega

theorem collectionDeleted (hSupplies : Supplies s) (collection : Nat) :
    Supplies { s with
      collections := s.collections.remove collection } := by
  refine { hSupplies with used := ?_ }
  intro instance_ at_ hMinted
  rcases hSupplies.used instance_ at_ hMinted with ⟨hBelow, hIndexes⟩
  refine ⟨hBelow, ?_⟩
  intro found hFound
  rw [get_remove] at hFound
  split_ifs at hFound
  exact hIndexes found hFound

--
-- Instances
--

/- A mint counts in its definition. -/
theorem minted (hSupplies : Supplies s) (hCatalogue : Catalogue s) (hPurses : Purses s) (nft : Nft)
    (hDefinition : s.itemDefs.get nft.definition = some definition)
    (hFree : s.nftsByOwner.get to_ = none) :
    Supplies { s with
      itemDefs := s.itemDefs.insert nft.definition
          { definition with
            supply := definition.supply + 1
            liveSupply := definition.liveSupply + 1 }
      nftsByOwner := s.nftsByOwner.insert to_ nft
      minted := s.minted.insert s.nextInstanceId nft.definition } := by
  have hMinted := hPurses.unminted_next
  refine { live := ?_, ever := ?_, home := ?_, used := ?_ }
  · intro at_ found hFound
    unfold heldOf
    rw [sum_insert_of_get_eq_none hFree]
    rw [get_insert] at hFound
    by_cases hSame : at_ = nft.definition
    · rw [if_pos hSame] at hFound
      cases hFound
      subst hSame
      rw [if_pos rfl]
      exact congrArg (· + 1) (hSupplies.live _ definition hDefinition)
    · rw [if_neg hSame] at hFound
      rw [if_neg (Ne.symm hSame)]
      exact hSupplies.live at_ found hFound
  · intro at_ found hFound
    unfold mintedOf
    rw [sum_insert_of_get_eq_none hMinted]
    rw [get_insert] at hFound
    by_cases hSame : at_ = nft.definition
    · rw [if_pos hSame] at hFound
      cases hFound
      subst hSame
      rw [if_pos rfl]
      exact congrArg (· + 1) (hSupplies.ever _ definition hDefinition)
    · rw [if_neg hSame] at hFound
      rw [if_neg (Ne.symm hSame)]
      exact hSupplies.ever at_ found hFound
  · intro at_ held hGet
    rw [get_insert] at hGet
    rw [get_insert]
    by_cases hSame : held.definition = nft.definition
    · exact ⟨_, if_pos hSame⟩
    · rw [if_neg hSame]
      by_cases hTo : at_ = to_
      · rw [if_pos hTo] at hGet
        cases hGet
        exact absurd rfl hSame
      · rw [if_neg hTo] at hGet
        exact hSupplies.home at_ held hGet
  · intro instance_ at_ hGet
    rw [get_insert] at hGet
    by_cases hNext : instance_ = s.nextInstanceId
    · rw [if_pos hNext] at hGet
      cases hGet
      rcases hCatalogue.itemHome _ definition hDefinition with ⟨old, hOld, hBelow⟩
      refine ⟨hCatalogue.below _ old hOld, ?_⟩
      intro found hFound
      rw [hOld] at hFound
      cases hFound
      exact hBelow
    · rw [if_neg hNext] at hGet
      exact hSupplies.used instance_ at_ hGet

/- A move takes nothing from any definition. -/
theorem moved (hSupplies : Supplies s) (nft' : Nft) (kind : MoveKind)
    (hHeld : s.nftsByOwner.get purse = some nft) (hSelf : to_ ≠ purse)
    (hFree : s.nftsByOwner.get to_ = none) (hDefinition : nft'.definition = nft.definition) :
    Supplies ((s.leave purse).settleAt to_ nft' kind) := by
  have hVacant : (s.nftsByOwner.remove purse).get to_ = none := by
    rw [get_remove_of_ne _ hSelf]
    exact hFree
  have hSame : ∀ at_, heldOf ((s.leave purse).settleAt to_ nft' kind) at_ = heldOf s at_ := by
    intro at_
    have hRemove := sum_remove s.nftsByOwner (fun _ nft => if nft.definition = at_ then 1 else 0)
        purse
    rw [hHeld, weightAt_some] at hRemove
    unfold heldOf
    change ((s.nftsByOwner.remove purse).insert to_ nft').sum _ = _
    rw [sum_insert_of_get_eq_none hVacant, hDefinition]
    exact hRemove
  refine
    { live := ?_, ever := hSupplies.ever, home := ?_
      used := hSupplies.used }
  · intro at_ found hFound
    rw [hSame]
    exact hSupplies.live at_ found hFound
  · intro at_ held hGet
    change ((s.nftsByOwner.remove purse).insert to_ nft').get at_ = _ at hGet
    rw [get_insert, get_remove] at hGet
    by_cases hTo : at_ = to_
    · rw [if_pos hTo] at hGet
      cases hGet
      rw [hDefinition]
      exact hSupplies.home purse nft hHeld
    · rw [if_neg hTo] at hGet
      split_ifs at hGet
      exact hSupplies.home at_ held hGet

/- A burn is taken from its definition. -/
theorem burned (hSupplies : Supplies s) (info' : CollectionInfo A T) (bank : B)
    (hHeld : s.nftsByOwner.get purse = some nft)
    (hDefinition : s.itemDefs.get nft.definition = some definition)
    (hInfo : s.collections.get nft.collection = some info)
    (hIndex : info'.nextItemIndex = info.nextItemIndex) :
    Supplies ((s.leave purse).burnt nft definition info' bank) := by
  have hRemove := fun at_ =>
      sum_remove s.nftsByOwner (fun _ nft => if nft.definition = at_ then 1 else 0) purse
  simp only [hHeld, weightAt_some] at hRemove
  have hUsed := (hSupplies.keepInfo info' hInfo hIndex).used
  refine { live := ?_, ever := ?_, home := ?_, used := hUsed }
  · intro at_ found hFound
    change StorageMap.get (s.itemDefs.insert nft.definition _) at_ = _ at hFound
    change
      _ = (s.nftsByOwner.remove purse).sum fun _ nft =>
        if nft.definition = at_ then 1 else 0
    have hLess := hRemove at_
    rw [get_insert] at hFound
    by_cases hSame : at_ = nft.definition
    · rw [if_pos hSame] at hFound
      cases hFound
      subst hSame
      rw [if_pos rfl] at hLess
      have hLive := hSupplies.live _ definition hDefinition
      change definition.liveSupply - 1 = _
      rw [hLive]
      exact (Nat.eq_sub_of_add_eq hLess).symm
    · rw [if_neg hSame] at hFound
      rw [if_neg (Ne.symm hSame)] at hLess
      rw [hSupplies.live at_ found hFound]
      exact hLess.symm
  · intro at_ found hFound
    change StorageMap.get (s.itemDefs.insert nft.definition _) at_ = _ at hFound
    rw [get_insert] at hFound
    by_cases hSame : at_ = nft.definition
    · rw [if_pos hSame] at hFound
      cases hFound
      rw [hSame]
      exact hSupplies.ever _ definition hDefinition
    · rw [if_neg hSame] at hFound
      exact hSupplies.ever at_ found hFound
  · intro at_ held hGet
    change (s.nftsByOwner.remove purse).get at_ = _ at hGet
    change ∃ found, StorageMap.get (s.itemDefs.insert nft.definition _) held.definition = some found
    rw [get_remove] at hGet
    rw [get_insert]
    split_ifs at hGet
    split_ifs
    · exact ⟨_, rfl⟩
    · exact hSupplies.home at_ held hGet

theorem refused (hSupplies : Supplies s) (nft' : Nft) (hHeld : s.nftsByOwner.get purse = some nft)
    (hDefinition : nft'.definition = nft.definition) :
    Supplies { s with
      nftsByOwner := s.nftsByOwner.insert purse nft' } := by
  refine
    { live := ?_, ever := hSupplies.ever, home := ?_
      used := hSupplies.used }
  · intro at_ found hFound
    have hInsert := StorageMap.sum_insert s.nftsByOwner
        (fun _ nft => if nft.definition = at_ then 1 else 0)
        purse nft'
    rw [hHeld, weightAt_some, hDefinition] at hInsert
    rw [hSupplies.live at_ found hFound]
    exact (Nat.add_right_cancel hInsert).symm
  · intro at_ held hGet
    rw [get_insert] at hGet
    by_cases hAt : at_ = purse
    · rw [if_pos hAt] at hGet
      cases hGet
      rw [hDefinition]
      exact hSupplies.home purse nft hHeld
    · rw [if_neg hAt] at hGet
      exact hSupplies.home at_ held hGet

theorem change (hSupplies : Supplies s) (hCatalogue : Catalogue s) (hPurses : Purses s) {op : Op C}
    (hChange : s.Change op s') :
    Supplies s' := by
  cases hChange with
  | detail hDetail => exact hSupplies.detail hDetail
  | @nominated _ info pendingOwner hInfo =>
    have hKept := hSupplies.keepInfo { info with pendingOwner := pendingOwner } hInfo rfl
    exact { hKept with }
  | created owner => exact { hSupplies.created _ with }
  | @ownerChanged _ info ticket _ _ newOwner hInfo =>
    have hKept := hSupplies.keepInfo
        { info with
          owner := newOwner
          pendingOwner := none
          consideration := ticket }
        hInfo rfl
    exact { hKept with }
  | @itemDefined _ price deposit info ticket _ transferability
      hInfo =>
      have hDefined := hSupplies.itemDefined hCatalogue
          { info.repaid deposit ticket with
            nextItemIndex := info.nextItemIndex + 1
            itemCount := info.itemCount + 1 }
          { supply := 0
            liveSupply := 0
            metadataCount := 0
            deposit := price
            transferability := transferability }
          hInfo rfl rfl rfl
      exact { hDefined with }
  | @minted collection item _ deposit info definition ticket _ _
      _ hInfo hDefinition hFree =>
      have hMinted := (hSupplies.minted hCatalogue hPurses
          { instance_ := s.nextInstanceId
            collection := collection
            item := item
            mintedAt := s.now
            lastMoved := s.now
            stateNonce := 0
            moves := 0 }
          hDefinition hFree).keepInfo (info.repaid deposit ticket) hInfo rfl
      exact { hMinted with }
  | @moved _ _ nft kind hHeld hSelf hFree =>
    have hMoved := hSupplies.moved
        { nft with
          lastMoved := s.now
          stateNonce := nft.stateNonce + 1
          moves := kind.movesAfter nft.moves }
        kind hHeld hSelf hFree rfl
    exact { hMoved with }
  | @burned _ _ _ info deposit ticket bank _ hHeld hDefinition _
      hInfo =>
      have hBurned := hSupplies.burned (info.repaid deposit ticket) bank hHeld hDefinition hInfo rfl
      exact { hBurned with }
  | @refused _ _ nft hAuthorized =>
    have hRefused := hSupplies.refused
        { nft with
          stateNonce := saturatingAdd u64Max nft.stateNonce 1 }
        hAuthorized.held rfl
    exact { hRefused with }
  | @itemDeleted _ _ deposit info _ ticket _ hInfo hDefinition
      hLive =>
      have hDeleted := (hSupplies.itemDeleted hDefinition hLive).keepInfo
          { info.repaid deposit ticket with
            itemCount := info.itemCount - 1 }
          hInfo rfl
      exact { hDeleted with }
  | @collectionDeleted collection =>
    exact { hSupplies.collectionDeleted collection with }
  | _ => exact { hSupplies with }

end Supplies

end Individuality.Scarcity
