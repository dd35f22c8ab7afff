import Individuality.Scarcity.Purses

/-
  Collections and item definitions count what is stored under them, and every record has a parent.

  Main declaration: `Catalogue`
-/

namespace Individuality.Scarcity

open StorageMap (get_insert get_put get_remove get_remove_of_ne)
open DoubleMap (count_of_noneAt count_put noneAt_of_count)

variable {A B T : Type} {C : Config A B T}

/- The catalogue: all but the instances and their deposits. -/
structure Catalogue (s : ScarcityState C) : Prop where
  below : ∀ collection info,
      s.collections.get collection = some info → collection < s.nextCollectionId
  itemCount : ∀ collection info,
      s.collections.get collection = some info →
        info.itemCount = s.itemDefs.count collection
  metadataCount : ∀ collection info,
      s.collections.get collection = some info →
        info.metadataCount = s.collectionMetadata.count collection
  itemHome : ∀ place definition,
      s.itemDefs.get place = some definition →
        ∃ info,
          s.collections.get place.1 = some info ∧ place.2 < info.nextItemIndex
  itemMetadataCount : ∀ place definition,
      s.itemDefs.get place = some definition →
        definition.metadataCount = s.itemMetadata.count place
  metadataHome : ∀ place entry,
      s.collectionMetadata.get place = some entry →
        ∃ info, s.collections.get place.1 = some info
  itemMetadataHome : ∀ place entry,
      s.itemMetadata.get place = some entry →
        ∃ definition, s.itemDefs.get place.1 = some definition

namespace Catalogue

variable {s s' : ScarcityState C} {collection : Nat} {info info' : CollectionInfo A T}
variable {place : Nat × Nat} {definition definition' : ItemDefinition}

theorem genesis (prices : Prices C.balanceMax) (bank : B) :
    Catalogue (ScarcityState.genesis C prices bank) := by
  constructor <;>
    · intro _ _ hGet
      cases hGet

/- A collection keeps its items, and its metadata is counted anew. -/
theorem withInfo (hCatalogue : Catalogue s) (info' : CollectionInfo A T)
    (metadata : DoubleMap Nat C.MetadataKey (MetadataEntry C))
    (hInfo : s.collections.get collection = some info)
    (hIndex : info'.nextItemIndex = info.nextItemIndex) (hItems : info'.itemCount = info.itemCount)
    (hMetadata : info'.metadataCount = metadata.count collection)
    (hOther : ∀ c, c ≠ collection → metadata.count c = s.collectionMetadata.count c)
    (hHome : ∀ at_ entry, metadata.get at_ = some entry →
        at_.1 = collection ∨ s.collectionMetadata.get at_ = some entry) :
    Catalogue { s with
      collections := s.collections.insert collection info'
      collectionMetadata := metadata } := by
  have hThere : ∀ {c old}, s.collections.get c = some old → ∃ found,
            (s.collections.insert collection info').get c = some found
              ∧ found.nextItemIndex = old.nextItemIndex := by
    intro c old hOld
    rw [get_insert]
    by_cases hSame : c = collection
    · subst hSame
      rw [hInfo] at hOld
      cases hOld
      exact ⟨info', if_pos rfl, hIndex⟩
    · exact ⟨old, (if_neg hSame).trans hOld, rfl⟩
  constructor
  case below =>
    intro c found hFound
    rw [get_insert] at hFound
    by_cases hSame : c = collection
    · rw [hSame]
      exact hCatalogue.below collection info hInfo
    · rw [if_neg hSame] at hFound
      exact hCatalogue.below c found hFound
  case itemCount =>
    intro c found hFound
    rw [get_insert] at hFound
    by_cases hSame : c = collection
    · rw [if_pos hSame] at hFound
      cases hFound
      rw [hSame, hItems]
      exact hCatalogue.itemCount collection info hInfo
    · rw [if_neg hSame] at hFound
      exact hCatalogue.itemCount c found hFound
  case metadataCount =>
    intro c found hFound
    rw [get_insert] at hFound
    by_cases hSame : c = collection
    · rw [if_pos hSame] at hFound
      cases hFound
      rw [hSame]
      exact hMetadata
    · rw [if_neg hSame] at hFound
      rw [hCatalogue.metadataCount c found hFound]
      exact (hOther c hSame).symm
  case itemHome =>
    intro at_ found hFound
    rcases hCatalogue.itemHome at_ found hFound with ⟨old, hOld, hBelow⟩
    rcases hThere hOld with ⟨new, hNew, hSame⟩
    exact ⟨new, hNew, hSame ▸ hBelow⟩
  case itemMetadataCount => exact hCatalogue.itemMetadataCount
  case metadataHome =>
    intro at_ entry hEntry
    rcases hHome at_ entry hEntry with hSame | hOld
    · rw [hSame]
      exact ⟨info', StorageMap.get_insert_self _ _ _⟩
    · rcases hCatalogue.metadataHome at_ entry hOld with ⟨old, hOld⟩
      rcases hThere hOld with ⟨new, hNew, _⟩
      exact ⟨new, hNew⟩
  case itemMetadataHome => exact hCatalogue.itemMetadataHome

/- A collection changes in nothing that the catalogue counts. -/
theorem keepInfo (hCatalogue : Catalogue s) (info' : CollectionInfo A T)
    (hInfo : s.collections.get collection = some info)
    (hIndex : info'.nextItemIndex = info.nextItemIndex) (hItems : info'.itemCount = info.itemCount)
    (hMetadata : info'.metadataCount = info.metadataCount) :
    Catalogue { s with
      collections := s.collections.insert collection info' } :=
  hCatalogue.withInfo info' s.collectionMetadata hInfo hIndex hItems
    (hMetadata.trans (hCatalogue.metadataCount collection info hInfo))
    (fun _ _ => rfl) (fun _ _ => Or.inr)

theorem count_insert_of_some (hDefinition : s.itemDefs.get place = some definition) (c : Nat) :
    DoubleMap.count (s.itemDefs.insert place definition') c = s.itemDefs.count c := by
  have hCount := count_put s.itemDefs place.1 place.2 (some definition') c
  rw [hDefinition] at hCount
  exact Nat.add_right_cancel hCount

/- An item definition has its metadata counted anew. -/
theorem withDefinition (hCatalogue : Catalogue s) (definition' : ItemDefinition)
    (metadata : DoubleMap (Nat × Nat) C.MetadataKey (MetadataEntry C))
    (hDefinition : s.itemDefs.get place = some definition)
    (hMetadata : definition'.metadataCount = metadata.count place)
    (hOther : ∀ at_, at_ ≠ place → metadata.count at_ = s.itemMetadata.count at_)
    (hHome : ∀ at_ entry, metadata.get at_ = some entry →
        at_.1 = place ∨ s.itemMetadata.get at_ = some entry) :
    Catalogue { s with
      itemDefs := s.itemDefs.insert place definition'
      itemMetadata := metadata } := by
  constructor
  case below => exact hCatalogue.below
  case itemCount =>
    intro c found hFound
    rw [hCatalogue.itemCount c found hFound]
    exact (count_insert_of_some hDefinition c).symm
  case metadataCount => exact hCatalogue.metadataCount
  case itemHome =>
    intro at_ found hFound
    rw [get_insert] at hFound
    by_cases hSame : at_ = place
    · rw [hSame]
      exact hCatalogue.itemHome place definition hDefinition
    · rw [if_neg hSame] at hFound
      exact hCatalogue.itemHome at_ found hFound
  case itemMetadataCount =>
    intro at_ found hFound
    rw [get_insert] at hFound
    by_cases hSame : at_ = place
    · rw [if_pos hSame] at hFound
      cases hFound
      rw [hSame]
      exact hMetadata
    · rw [if_neg hSame] at hFound
      rw [hCatalogue.itemMetadataCount at_ found hFound]
      exact (hOther at_ hSame).symm
  case metadataHome => exact hCatalogue.metadataHome
  case itemMetadataHome =>
    intro at_ entry hEntry
    rw [get_insert]
    by_cases hSame : at_.1 = place
    · exact ⟨definition', if_pos hSame⟩
    · rcases hHome at_ entry hEntry with hHere | hOld
      · exact absurd hHere hSame
      · rcases hCatalogue.itemMetadataHome at_ entry hOld with ⟨old, hOld⟩
        exact ⟨old, (if_neg hSame).trans hOld⟩

theorem keepDefinition (hCatalogue : Catalogue s) (definition' : ItemDefinition)
    (hDefinition : s.itemDefs.get place = some definition)
    (hMetadata : definition'.metadataCount = definition.metadataCount) :
    Catalogue { s with
      itemDefs := s.itemDefs.insert place definition' } :=
  hCatalogue.withDefinition definition' s.itemMetadata hDefinition
    (hMetadata.trans (hCatalogue.itemMetadataCount place definition hDefinition))
    (fun _ _ => rfl) (fun _ _ => Or.inr)

--
-- Metadata
--

/- What is written at one key is counted there. -/
theorem count_of_put {α : Type} [DecidableEq α]
    {m : DoubleMap α C.MetadataKey (MetadataEntry C)} {a : α} {key : C.MetadataKey}
    {entry : Option (MetadataEntry C)} {count : Nat}
    (hCount : count + (m.get (a, key)).size = m.count a + entry.size) :
    count = DoubleMap.count (m.put (a, key) entry) a := by
  have hPut := count_put m a key entry a
  rw [if_pos rfl, if_pos rfl] at hPut
  omega

theorem count_of_put_of_ne {α : Type} [DecidableEq α]
    (m : DoubleMap α C.MetadataKey (MetadataEntry C)) {a a' : α} (key : C.MetadataKey)
    (entry : Option (MetadataEntry C)) (hNe : a' ≠ a) :
    DoubleMap.count (m.put (a, key) entry) a' = m.count a' := by
  have hPut := count_put m a key entry a'
  rw [if_neg (Ne.symm hNe), if_neg (Ne.symm hNe)] at hPut
  exact hPut

theorem home_of_put {α : Type} [DecidableEq α]
    {m : DoubleMap α C.MetadataKey (MetadataEntry C)} {a : α} {key : C.MetadataKey}
    {entry : Option (MetadataEntry C)} {at_ : α × C.MetadataKey} {found : MetadataEntry C}
    (hFound : (m.put (a, key) entry).get at_ = some found) :
    at_.1 = a ∨ m.get at_ = some found := by
  rw [get_put] at hFound
  by_cases hSame : at_ = (a, key)
  · exact Or.inl (congrArg Prod.fst hSame)
  · rw [if_neg hSame] at hFound
    exact Or.inr hFound

theorem detail [DecidableEq A] (hCatalogue : Catalogue s) (hDetail : s.Detail s') :
    Catalogue s' := by
  cases hDetail with
  | @collectionMetadata collection count deposit info ticket bank
      key entry hInfo hCount =>
      rw [hCatalogue.metadataCount collection info hInfo] at hCount
      have hWith := hCatalogue.withInfo
          { info.repaid deposit ticket with
            metadataCount := count }
          (s.collectionMetadata.put (collection, key) entry)
          hInfo rfl rfl (count_of_put hCount)
          (fun _ => count_of_put_of_ne _ key entry)
          (fun _ _ => home_of_put)
      exact { hWith with }
  | @itemMetadata collection item count deposit info definition
      ticket bank key entry hInfo hDefinition hCount =>
      rw [hCatalogue.itemMetadataCount _ definition hDefinition] at hCount
      have hKept := hCatalogue.keepInfo (info.repaid deposit ticket) hInfo rfl rfl rfl
      have hWith := hKept.withDefinition { definition with metadataCount := count }
          (s.itemMetadata.put ((collection, item), key) entry)
          hDefinition (count_of_put hCount)
          (fun _ => count_of_put_of_ne _ key entry)
          (fun _ _ => home_of_put)
      exact { hWith with }
  | @instanceMetadata instance_ count deposit purse nft info
      ticket bank key entry hPurse hHeld hNft hInfo =>
      have hKept := hCatalogue.keepInfo (info.repaid deposit ticket) hInfo rfl rfl rfl
      exact { hKept with }

--
-- Changes
--

/- Nothing is stored under the next collection. -/
theorem next_unused (hCatalogue : Catalogue s) :
    s.collections.get s.nextCollectionId = none := by
  cases hGet : s.collections.get s.nextCollectionId with
  | none => rfl
  | some info =>
    exact absurd (hCatalogue.below _ info hGet) (Nat.lt_irrefl _)

theorem noneAt_of_unused (hCatalogue : Catalogue s)
    (hUnused : s.collections.get collection = none) :
    s.itemDefs.NoneAt collection ∧ s.collectionMetadata.NoneAt collection := by
  constructor
  · intro item
    cases hGet : s.itemDefs.get (collection, item) with
    | none => rfl
    | some definition =>
      rcases hCatalogue.itemHome _ definition hGet with ⟨info, hInfo, _⟩
      rw [hUnused] at hInfo
      cases hInfo
  · intro key
    cases hGet : s.collectionMetadata.get (collection, key) with
    | none => rfl
    | some entry =>
      rcases hCatalogue.metadataHome _ entry hGet with ⟨info, hInfo⟩
      rw [hUnused] at hInfo
      cases hInfo

/- The next item of a collection has no definition. -/
theorem nextItem_unused (hCatalogue : Catalogue s)
    (hInfo : s.collections.get collection = some info) :
    s.itemDefs.get (collection, info.nextItemIndex) = none := by
  cases hGet : s.itemDefs.get (collection, info.nextItemIndex) with
  | none => rfl
  | some definition =>
    rcases hCatalogue.itemHome _ definition hGet with ⟨found, hFound, hBelow⟩
    rw [hInfo] at hFound
    cases hFound
    exact absurd hBelow (Nat.lt_irrefl _)

theorem itemMetadata_of_undefined (hCatalogue : Catalogue s) (hNone : s.itemDefs.get place = none) :
    s.itemMetadata.NoneAt place := by
  intro key
  cases hGet : s.itemMetadata.get (place, key) with
  | none => rfl
  | some entry =>
    rcases hCatalogue.itemMetadataHome _ entry hGet with ⟨definition, hDefinition⟩
    rw [hNone] at hDefinition
    cases hDefinition

/- A collection begins empty. -/
theorem created (hCatalogue : Catalogue s) (info : CollectionInfo A T) (hItems : info.itemCount = 0)
    (hMetadata : info.metadataCount = 0) :
    Catalogue { s with
      nextCollectionId := s.nextCollectionId + 1
      collections := s.collections.insert s.nextCollectionId info } := by
  have hUnused := hCatalogue.next_unused
  have hNone := hCatalogue.noneAt_of_unused hUnused
  have hKept : ∀ {c old}, s.collections.get c = some old →
          (s.collections.insert s.nextCollectionId info).get c = some old := by
    intro c old hOld
    rw [StorageMap.get_insert_of_ne]
    · exact hOld
    · rintro rfl
      rw [hUnused] at hOld
      cases hOld
  constructor
  case below =>
    intro c found hFound
    change c < s.nextCollectionId + 1
    rw [get_insert] at hFound
    by_cases hSame : c = s.nextCollectionId
    · omega
    · rw [if_neg hSame] at hFound
      exact Nat.lt_succ_of_lt (hCatalogue.below c found hFound)
  case itemCount =>
    intro c found hFound
    rw [get_insert] at hFound
    by_cases hSame : c = s.nextCollectionId
    · rw [if_pos hSame] at hFound
      cases hFound
      rw [hSame, hItems]
      exact (count_of_noneAt hNone.1).symm
    · rw [if_neg hSame] at hFound
      exact hCatalogue.itemCount c found hFound
  case metadataCount =>
    intro c found hFound
    rw [get_insert] at hFound
    by_cases hSame : c = s.nextCollectionId
    · rw [if_pos hSame] at hFound
      cases hFound
      rw [hSame, hMetadata]
      exact (count_of_noneAt hNone.2).symm
    · rw [if_neg hSame] at hFound
      exact hCatalogue.metadataCount c found hFound
  case itemHome =>
    intro at_ found hFound
    rcases hCatalogue.itemHome at_ found hFound with ⟨old, hOld, hBelow⟩
    exact ⟨old, hKept hOld, hBelow⟩
  case itemMetadataCount => exact hCatalogue.itemMetadataCount
  case metadataHome =>
    intro at_ entry hEntry
    rcases hCatalogue.metadataHome at_ entry hEntry with ⟨old, hOld⟩
    exact ⟨old, hKept hOld⟩
  case itemMetadataHome => exact hCatalogue.itemMetadataHome

/- A collection defines its next item. -/
theorem itemDefined (hCatalogue : Catalogue s)
    (info' : CollectionInfo A T) (definition' : ItemDefinition)
    (hInfo : s.collections.get collection = some info)
    (hIndex : info'.nextItemIndex = info.nextItemIndex + 1)
    (hItems : info'.itemCount = info.itemCount + 1)
    (hMetadata : info'.metadataCount = info.metadataCount)
    (hEmpty : definition'.metadataCount = 0) :
    Catalogue { s with
      collections := s.collections.insert collection info'
      itemDefs := s.itemDefs.insert (collection, info.nextItemIndex) definition' } := by
  have hNew := hCatalogue.nextItem_unused hInfo
  have hCount := DoubleMap.count_insert_new hNew definition'
  constructor
  case below =>
    intro c found hFound
    rw [get_insert] at hFound
    by_cases hSame : c = collection
    · rw [hSame]
      exact hCatalogue.below collection info hInfo
    · rw [if_neg hSame] at hFound
      exact hCatalogue.below c found hFound
  case itemCount =>
    intro c found hFound
    rw [hCount]
    rw [get_insert] at hFound
    by_cases hSame : c = collection
    · rw [if_pos hSame] at hFound
      cases hFound
      rw [if_pos hSame.symm, hSame, hItems, hCatalogue.itemCount collection info hInfo]
    · rw [if_neg hSame] at hFound
      rw [if_neg (Ne.symm hSame)]
      exact hCatalogue.itemCount c found hFound
  case metadataCount =>
    intro c found hFound
    rw [get_insert] at hFound
    by_cases hSame : c = collection
    · rw [if_pos hSame] at hFound
      cases hFound
      rw [hSame, hMetadata]
      exact hCatalogue.metadataCount collection info hInfo
    · rw [if_neg hSame] at hFound
      exact hCatalogue.metadataCount c found hFound
  case itemHome =>
    intro at_ found hFound
    rw [get_insert]
    rw [get_insert] at hFound
    by_cases hPlace : at_ = (collection, info.nextItemIndex)
    · subst hPlace
      refine ⟨info', if_pos rfl, ?_⟩
      rw [hIndex]
      exact Nat.lt_succ_self _
    · rw [if_neg hPlace] at hFound
      rcases hCatalogue.itemHome at_ found hFound with ⟨old, hOld, hBelow⟩
      by_cases hSame : at_.1 = collection
      · rw [hSame, hInfo] at hOld
        cases hOld
        refine ⟨info', if_pos hSame, ?_⟩
        omega
      · exact ⟨old, (if_neg hSame).trans hOld, hBelow⟩
  case itemMetadataCount =>
    intro at_ found hFound
    rw [get_insert] at hFound
    by_cases hPlace : at_ = (collection, info.nextItemIndex)
    · rw [if_pos hPlace] at hFound
      cases hFound
      rw [hPlace, hEmpty]
      exact (count_of_noneAt (hCatalogue.itemMetadata_of_undefined hNew)).symm
    · rw [if_neg hPlace] at hFound
      exact hCatalogue.itemMetadataCount at_ found hFound
  case metadataHome =>
    intro at_ entry hEntry
    rw [get_insert]
    rcases hCatalogue.metadataHome at_ entry hEntry with ⟨old, hOld⟩
    by_cases hSame : at_.1 = collection
    · exact ⟨info', if_pos hSame⟩
    · exact ⟨old, (if_neg hSame).trans hOld⟩
  case itemMetadataHome =>
    intro at_ entry hEntry
    rw [get_insert]
    rcases hCatalogue.itemMetadataHome at_ entry hEntry with ⟨old, hOld⟩
    by_cases hSame : at_.1 = (collection, info.nextItemIndex)
    · exact ⟨definition', if_pos hSame⟩
    · exact ⟨old, (if_neg hSame).trans hOld⟩

/- A definition without metadata is removed. -/
theorem itemDeleted (hCatalogue : Catalogue s) {item : Nat} (info' : CollectionInfo A T)
    (hInfo : s.collections.get collection = some info)
    (hDefinition : s.itemDefs.get (collection, item) = some definition)
    (hEmpty : definition.metadataCount = 0) (hIndex : info'.nextItemIndex = info.nextItemIndex)
    (hItems : info'.itemCount = info.itemCount - 1)
    (hMetadata : info'.metadataCount = info.metadataCount) :
    Catalogue { s with
      collections := s.collections.insert collection info'
      itemDefs := s.itemDefs.remove (collection, item) } := by
  have hCount := DoubleMap.count_remove hDefinition
  have hNone : s.itemMetadata.NoneAt (collection, item) := by
    apply noneAt_of_count
    rw [← hEmpty]
    exact (hCatalogue.itemMetadataCount _ definition hDefinition).symm
  have hThere : ∀ {c old}, s.collections.get c = some old → ∃ found,
            (s.collections.insert collection info').get c = some found
              ∧ found.nextItemIndex = old.nextItemIndex := by
    intro c old hOld
    rw [get_insert]
    by_cases hSame : c = collection
    · subst hSame
      rw [hInfo] at hOld
      cases hOld
      exact ⟨info', if_pos rfl, hIndex⟩
    · exact ⟨old, (if_neg hSame).trans hOld, rfl⟩
  constructor
  case below =>
    intro c found hFound
    rw [get_insert] at hFound
    by_cases hSame : c = collection
    · rw [hSame]
      exact hCatalogue.below collection info hInfo
    · rw [if_neg hSame] at hFound
      exact hCatalogue.below c found hFound
  case itemCount =>
    intro c found hFound
    have hRemove := hCount c
    rw [get_insert] at hFound
    by_cases hSame : c = collection
    · rw [if_pos hSame] at hFound
      cases hFound
      subst hSame
      rw [if_pos rfl] at hRemove
      rw [hItems, hCatalogue.itemCount c info hInfo]
      exact (Nat.eq_sub_of_add_eq hRemove).symm
    · rw [if_neg hSame] at hFound
      rw [if_neg (Ne.symm hSame)] at hRemove
      rw [hCatalogue.itemCount c found hFound]
      exact hRemove.symm
  case metadataCount =>
    intro c found hFound
    rw [get_insert] at hFound
    by_cases hSame : c = collection
    · rw [if_pos hSame] at hFound
      cases hFound
      rw [hSame, hMetadata]
      exact hCatalogue.metadataCount collection info hInfo
    · rw [if_neg hSame] at hFound
      exact hCatalogue.metadataCount c found hFound
  case itemHome =>
    intro at_ found hFound
    rw [get_remove] at hFound
    split_ifs at hFound
    rcases hCatalogue.itemHome at_ found hFound with ⟨old, hOld, hBelow⟩
    rcases hThere hOld with ⟨new, hNew, hSame⟩
    exact ⟨new, hNew, hSame ▸ hBelow⟩
  case itemMetadataCount =>
    intro at_ found hFound
    rw [get_remove] at hFound
    split_ifs at hFound
    exact hCatalogue.itemMetadataCount at_ found hFound
  case metadataHome =>
    intro at_ entry hEntry
    rcases hCatalogue.metadataHome at_ entry hEntry with ⟨old, hOld⟩
    rcases hThere hOld with ⟨new, hNew, _⟩
    exact ⟨new, hNew⟩
  case itemMetadataHome =>
    intro at_ entry hEntry
    rcases hCatalogue.itemMetadataHome at_ entry hEntry with ⟨old, hOld⟩
    refine ⟨old, ?_⟩
    change StorageMap.get (s.itemDefs.remove _) at_.1 = _
    rw [get_remove_of_ne]
    · exact hOld
    · intro hSame
      have hNothing := hNone at_.2
      rw [← hSame, hEntry] at hNothing
      cases hNothing

/- An empty collection is removed. -/
theorem collectionDeleted (hCatalogue : Catalogue s)
    (hInfo : s.collections.get collection = some info) (hItems : info.itemCount = 0)
    (hMetadata : info.metadataCount = 0) :
    Catalogue { s with
      collections := s.collections.remove collection } := by
  have hNoItems : s.itemDefs.NoneAt collection := by
    apply noneAt_of_count
    rw [← hItems]
    exact (hCatalogue.itemCount collection info hInfo).symm
  have hNoMetadata : s.collectionMetadata.NoneAt collection := by
    apply noneAt_of_count
    rw [← hMetadata]
    exact (hCatalogue.metadataCount collection info hInfo).symm
  constructor
  case below =>
    intro c found hFound
    rw [get_remove] at hFound
    split_ifs at hFound
    exact hCatalogue.below c found hFound
  case itemCount =>
    intro c found hFound
    rw [get_remove] at hFound
    split_ifs at hFound
    exact hCatalogue.itemCount c found hFound
  case metadataCount =>
    intro c found hFound
    rw [get_remove] at hFound
    split_ifs at hFound
    exact hCatalogue.metadataCount c found hFound
  case itemHome =>
    intro at_ found hFound
    rcases hCatalogue.itemHome at_ found hFound with ⟨old, hOld, hBelow⟩
    refine ⟨old, ?_, hBelow⟩
    rw [get_remove_of_ne]
    · exact hOld
    · rintro rfl
      rw [hNoItems at_.2] at hFound
      cases hFound
  case itemMetadataCount => exact hCatalogue.itemMetadataCount
  case metadataHome =>
    intro at_ entry hEntry
    rcases hCatalogue.metadataHome at_ entry hEntry with ⟨old, hOld⟩
    refine ⟨old, ?_⟩
    rw [get_remove_of_ne]
    · exact hOld
    · rintro rfl
      rw [hNoMetadata at_.2] at hEntry
      cases hEntry
  case itemMetadataHome => exact hCatalogue.itemMetadataHome

theorem change [DecidableEq A] (hCatalogue : Catalogue s) {op : Op C} (hChange : s.Change op s') :
    Catalogue s' := by
  cases hChange with
  | detail hDetail => exact hCatalogue.detail hDetail
  | @nominated _ info pendingOwner hInfo =>
    have hKept := hCatalogue.keepInfo { info with pendingOwner := pendingOwner } hInfo rfl rfl rfl
    exact { hKept with }
  | @created deposit ticket bank owner =>
    exact { hCatalogue.created _ rfl rfl with }
  | @ownerChanged _ info ticket _ _ newOwner hInfo =>
    have hKept := hCatalogue.keepInfo
        { info with
          owner := newOwner
          pendingOwner := none
          consideration := ticket }
        hInfo rfl rfl rfl
    exact { hKept with }
  | @itemDefined _ price deposit info ticket _ transferability
      hInfo =>
      have hDefined := hCatalogue.itemDefined
          { info.repaid deposit ticket with
            nextItemIndex := info.nextItemIndex + 1
            itemCount := info.itemCount + 1 }
          { supply := 0
            liveSupply := 0
            metadataCount := 0
            deposit := price
            transferability := transferability }
          hInfo rfl rfl rfl rfl
      exact { hDefined with }
  | @minted _ _ _ deposit info definition ticket _ _ _ hInfo
      hDefinition =>
      have hKept := (hCatalogue.keepInfo (info.repaid deposit ticket) hInfo
          rfl rfl rfl).keepDefinition
            { definition with
              supply := definition.supply + 1
              liveSupply := definition.liveSupply + 1 }
            hDefinition rfl
      exact { hKept with }
  | @burned _ _ definition info deposit ticket _ _ _ hDefinition
      _ hInfo =>
      have hKept := (hCatalogue.keepInfo (info.repaid deposit ticket) hInfo
          rfl rfl rfl).keepDefinition
            { definition with
              liveSupply := definition.liveSupply - 1 }
            hDefinition rfl
      exact { hKept with }
  | @itemDeleted _ _ deposit info _ ticket _ hInfo hDefinition _
      hCount =>
      have hDeleted := hCatalogue.itemDeleted
          { info.repaid deposit ticket with
            itemCount := info.itemCount - 1 }
          hInfo hDefinition hCount rfl rfl rfl
      exact { hDeleted with }
  | collectionDeleted hInfo hItems hMetadata =>
    exact
      { hCatalogue.collectionDeleted hInfo hItems hMetadata
        with }
  | _ => exact { hCatalogue with }

end Catalogue

end Individuality.Scarcity
