import Individuality.Scarcity.Deposits
import Individuality.Scarcity.Sample

/-
  The catalogue, the purses and the deposits of the scarcity pallet agree with each other in every
  reachable state, and an empty collection can be deleted for its whole deposit.

  Main declaration: `ledger_kept`
-/

namespace Individuality.Scarcity

open Except (ok_bind)

variable {A B T : Type} [DecidableEq A] {C : Config A B T}

/- All that holds between transactions. -/
structure Sound (s : ScarcityState C) : Prop where
  purses : Purses s
  catalogue : Catalogue s
  supplies : Supplies s
  attached : Attached s
  ledger : Ledger s
  tickets : Tickets s

namespace Sound

variable {s s' : ScarcityState C}

theorem genesis (prices : Prices C.balanceMax) {bank : B}
    (hNothing : ∀ owner, C.held bank owner = 0) :
    Sound (ScarcityState.genesis C prices bank) where
  purses := .genesis prices bank
  catalogue := .genesis prices bank
  supplies := .genesis prices bank
  attached := .genesis prices bank
  ledger := .genesis prices bank
  tickets := .genesis prices hNothing

theorem change (hSound : Sound s) (hExact : C.Exact) {op : Op C} (hAllowed : Allowed s op s')
    (hChange : s.Change op s') :
    Sound s' where
  purses := hSound.purses.change hChange
  catalogue := hSound.catalogue.change hChange
  supplies := hSound.supplies.change hSound.catalogue hSound.purses hChange
  attached := hSound.attached.change hSound.purses hChange
  ledger := hSound.ledger.change hSound.catalogue hSound.purses
      hSound.supplies hSound.attached hChange
  tickets := hSound.tickets.change hExact hSound.catalogue hAllowed hChange

theorem detail (hSound : Sound s) (hExact : C.Exact) (hDetail : s.Detail s') :
    Sound s' where
  purses := hSound.purses.detail hDetail
  catalogue := hSound.catalogue.detail hDetail
  supplies := hSound.supplies.detail hDetail
  attached := hSound.attached.detail hDetail
  ledger := hSound.ledger.detail hSound.purses hDetail
  tickets := hSound.tickets.detail hExact hDetail

theorem perform (hSound : Sound s) (hExact : C.Exact) {op : Op C} (hAllowed : Allowed s op s')
    (hPerform : s.perform op = .ok s') :
    Sound s' := by
  rcases ScarcityState.change_of_perform hPerform with ⟨s₁, hChange, hDetails⟩
  have hFirst : Sound s₁ := hSound.change hExact hAllowed hChange
  clear hAllowed hPerform hChange
  induction hDetails with
  | refl => exact hFirst
  | tail _ hDetail ih => exact ih.detail hExact hDetail

end Sound

variable {prices : Prices C.balanceMax}

/- Every reachable state is sound. -/
theorem sound_of_run (hExact : C.Exact) {bank : B} (hNothing : ∀ owner, C.held bank owner = 0)
    {s : ScarcityState C} (hRun : Run prices bank s) :
    Sound s :=
  hRun.invariant Sound (fun _ _ _ hAllowed hNext hSound => hSound.perform hExact hAllowed hNext)
    (.genesis prices hNothing)

--
-- Live Instances
--

/- The collection of the instance that a purse holds. -/
def collectionOf (s : ScarcityState C) (instance_ : Nat) : Option Nat :=
  ((s.instances.get instance_).bind s.nftsByOwner.get).map (·.collection)

section Sound

variable {s : ScarcityState C}

theorem collectionOf_live (hPurses : Purses s) {instance_ : Nat} (hLive : Live s instance_) :
    collectionOf s instance_ = mintedIn s instance_ := by
  rcases hLive with ⟨purse, hGet⟩
  rcases (hPurses.holders _ _).mp hGet with ⟨nft, hHeld, hNamed⟩
  unfold Named at hNamed
  unfold collectionOf mintedIn
  rw [hGet, Option.bind_some, hHeld, ← hNamed, hPurses.home purse nft hHeld]
  rfl

/- Deposits are recorded by the collections of live instances. -/
theorem recorded_collectionOf (hPurses : Purses s) (hAttached : Attached s) (c : Nat) :
    recordedBy (collectionOf s) s c = recordedBy (mintedIn s) s c := by
  have hMint : mintDeposits (collectionOf s) s c = mintDeposits (mintedIn s) s c := by
    apply StorageMap.sum_congr
    intro i deposit hGet
    simp only [collectionOf_live hPurses (hAttached.deposit i deposit hGet)]
  have hInstance : instanceEntryDeposits (collectionOf s) s c
        = instanceEntryDeposits (mintedIn s) s c := by
    apply StorageMap.sum_congr
    intro place entry hGet
    simp only [collectionOf_live hPurses (hAttached.metadata place entry hGet)]
  unfold recordedBy
  rw [hMint, hInstance]

--
-- Deletion
--

theorem entriesAt_of_noneAt {α κ ν : Type} [DecidableEq α] [DecidableEq κ]
    {m : DoubleMap α κ ν} {a : α} (hNone : m.NoneAt a) :
    (m.entriesAt a).isEmpty = true := by
  have hCount := DoubleMap.count_of_noneAt hNone
  rw [← DoubleMap.length_entriesAt] at hCount
  exact List.isEmpty_iff_length_eq_zero.mpr hCount

variable {info : CollectionInfo A T}

/- One ticket is not worth more than what is on hold. -/
theorem covered (hTickets : Tickets s) {collection : Nat}
    (hInfo : s.collections.get collection = some info) :
    C.worth info.consideration ≤ C.held s.bank info.owner := by
  have hLe := StorageMap.le_sum_of_get hInfo fun _ found =>
      if found.owner = info.owner then found.ownerDeposit else 0
  rw [if_pos rfl] at hLe
  rw [hTickets.held, hTickets.worth collection info hInfo]
  exact hLe

/- The owner of an empty collection can delete it, and what was on hold for it is released. -/
theorem deleteCollection_of_empty (hExact : C.Exact) (hSound : Sound s) {collection : Nat}
    (hInfo : s.collections.get collection = some info) (hItems : s.itemDefs.NoneAt collection)
    (hMetadata : s.collectionMetadata.NoneAt collection) :
    ∃ s', s.doDeleteCollection info.owner collection = .ok s' ∧ s'.collections.get collection = none
        ∧ C.held s'.bank info.owner + C.worth info.consideration = C.held s.bank info.owner
        ∧ C.worth info.consideration = info.ownerDeposit
        ∧ ∀ other, other ≠ info.owner → C.held s'.bank other = C.held s.bank other := by
  have hEmpty := Ledger.recorded_of_empty hSound.catalogue hSound.purses
      hSound.supplies hSound.attached hItems hMetadata
  have hDeposit := hSound.ledger.exact collection info hInfo
  rw [hEmpty, Nat.add_zero] at hDeposit
  have hItemCount := hSound.catalogue.itemCount collection info hInfo
  rw [DoubleMap.count_of_noneAt hItems] at hItemCount
  have hMetadataCount := hSound.catalogue.metadataCount collection info hInfo
  rw [DoubleMap.count_of_noneAt hMetadata] at hMetadataCount
  rcases hExact.drops (covered hSound.tickets hInfo) with ⟨bank, hDrop⟩
  have hRefund := hExact.drop hDrop
  refine
    ⟨{ s with
        bank := bank
        collections := s.collections.remove collection },
      ?_, StorageMap.get_remove_self _ _, hRefund.1,
      hSound.tickets.worth collection info hInfo, hRefund.2⟩
  unfold ScarcityState.doDeleteCollection ScarcityState.ownedCollection
  rw [hInfo, okOr_some, ok_bind, ensure_of rfl, ok_bind]
  change (do
    ensure (info.itemCount = 0) Error.collectionItemsNotEmpty
    ensure (info.metadataCount = 0) Error.collectionMetadataNotEmpty
    ensure (s.itemDefs.entriesAt collection |>.isEmpty) Error.deletionInvariant
    ensure (s.collectionMetadata.entriesAt collection |>.isEmpty) Error.deletionInvariant
    ensure (info.ownerDeposit = info.collectionDeposit) Error.deletionInvariant
    let bank ← okOr (C.dropTicket s.bank info.consideration info.owner) Error.consideration
    return { s with
      bank := bank
      collections := s.collections.remove collection }) = _
  rw [ensure_of hItemCount, ok_bind, ensure_of hMetadataCount, ok_bind,
    ensure_of (entriesAt_of_noneAt hItems), ok_bind,
    ensure_of (entriesAt_of_noneAt hMetadata), ok_bind,
    ensure_of hDeposit, ok_bind, hDrop, okOr_some]
  rfl

end Sound

--
-- The Ledger
--

/-
  In every reachable state the indexes of the purses are inverse, ids are below their counters,
  counts are exact, records have their parents, locks are on occupied purses, and deposits add up,
  such that an empty collection can be deleted for its whole deposit.
-/
theorem ledger_kept (hExact : C.Exact) {bank : B} (hNothing : ∀ owner, C.held bank owner = 0)
    {s : ScarcityState C} (hRun : Run prices bank s) :
    (∀ instance_ purse, s.instances.get instance_ = some purse
          ↔ ∃ nft, s.nftsByOwner.get purse = some nft ∧ nft.instance_ = instance_)
      ∧ (∀ instance_, Live s instance_ → instance_ < s.nextInstanceId)
      ∧ (∀ collection info, s.collections.get collection = some info →
          collection < s.nextCollectionId ∧ info.itemCount = s.itemDefs.count collection
            ∧ info.metadataCount = s.collectionMetadata.count collection
            ∧ info.ownerDeposit = info.collectionDeposit + recordedBy (collectionOf s) s collection)
      ∧ (∀ place definition, s.itemDefs.get place = some definition → (∃ info,
            s.collections.get place.1 = some info ∧ place.2 < info.nextItemIndex)
          ∧ definition.liveSupply = heldOf s place
          ∧ definition.supply = mintedOf s place
          ∧ definition.metadataCount = s.itemMetadata.count place)
      ∧ (∀ purse nft, s.nftsByOwner.get purse = some nft → (∃ definition,
            s.itemDefs.get nft.definition = some definition)
          ∧ s.instanceMetadataCount.get nft.instance_
            = some (s.instanceMetadata.count nft.instance_))
      ∧ (∀ place entry, s.collectionMetadata.get place = some entry →
          ∃ info, s.collections.get place.1 = some info)
      ∧ (∀ place entry, s.itemMetadata.get place = some entry →
          ∃ definition, s.itemDefs.get place.1 = some definition)
      ∧ (∀ place entry, s.instanceMetadata.get place = some entry → Live s place.1)
      ∧ (∀ instance_ deposit, s.instanceDeposits.get instance_ = some deposit → Live s instance_)
      ∧ (∀ instance_ count, s.instanceMetadataCount.get instance_ = some count → Live s instance_)
      ∧ (∀ purse lock, s.locked.get purse = some lock → ∃ nft, s.nftsByOwner.get purse = some nft)
      ∧ (∀ collection info, s.collections.get collection = some info →
          s.itemDefs.NoneAt collection →
          s.collectionMetadata.NoneAt collection → ∃ s',
              s.doDeleteCollection info.owner collection = .ok s'
                ∧ s'.collections.get collection = none
                ∧ C.held s'.bank info.owner + C.worth info.consideration = C.held s.bank info.owner
                ∧ C.worth info.consideration = info.ownerDeposit
                ∧ ∀ other, other ≠ info.owner → C.held s'.bank other = C.held s.bank other) := by
  have hSound := sound_of_run hExact hNothing hRun
  have hLive : ∀ {purse nft}, s.nftsByOwner.get purse = some nft → Live s nft.instance_ :=
    fun hHeld => ⟨_, hSound.purses.live_of_held hHeld⟩
  refine ⟨hSound.purses.holders, ?_, ?_, ?_, ?_, hSound.catalogue.metadataHome,
      hSound.catalogue.itemMetadataHome,
      hSound.attached.metadata, hSound.attached.deposit,
      hSound.attached.count, hSound.purses.lockedHeld, ?_⟩
  · rintro instance_ ⟨purse, hGet⟩
    rcases (hSound.purses.holders _ _).mp hGet with ⟨nft, hHeld, hNamed⟩
    have hBelow := hSound.purses.below_of_held hHeld
    unfold Named at hNamed
    omega
  · intro collection info hInfo
    refine ⟨hSound.catalogue.below collection info hInfo,
        hSound.catalogue.itemCount collection info hInfo,
        hSound.catalogue.metadataCount collection info hInfo, ?_⟩
    rw [recorded_collectionOf hSound.purses hSound.attached]
    exact hSound.ledger.exact collection info hInfo
  · intro place definition hDefinition
    exact ⟨hSound.catalogue.itemHome place definition hDefinition,
        hSound.supplies.live place definition hDefinition,
        hSound.supplies.ever place definition hDefinition,
        hSound.catalogue.itemMetadataCount place definition hDefinition⟩
  · intro purse nft hHeld
    exact ⟨hSound.supplies.home purse nft hHeld,
        hSound.attached.counted nft.instance_ (hLive hHeld)⟩
  · intro collection info hInfo hItems hMetadata
    exact deleteCollection_of_empty hExact hSound hInfo hItems hMetadata

/- A collection with one item and one instance, all paid for. -/
theorem ledger_kept_sample : ∃ s : ScarcityState sampleConfig,
      Run samplePrices noBank s ∧ ∃ info, s.collections.get 0 = some info ∧ info.ownerDeposit = 25
          ∧ info.ownerDeposit = info.collectionDeposit + recordedBy (collectionOf s) s 0 := by
  have hPerform : (performOps sampleMint).any
          (fun s => (s.collections.get 0).any (·.ownerDeposit = 25))
        = true := by
    decide +kernel
  rcases exists_run_of_performOps hPerform with ⟨s, hRun, hTest⟩
  rw [Option.any_eq_true] at hTest
  rcases hTest with ⟨info, hInfo, hDeposit⟩
  have hKept := ledger_kept exact_sampleConfig nothing_onHold hRun
  exact ⟨s, hRun, info, hInfo, of_decide_eq_true hDeposit, (hKept.2.2.1 0 info hInfo).2.2.2⟩

/- A minted instance that is burned still counts as supply. -/
theorem supply_not_stored : ∃ s : ScarcityState sampleConfig,
      Run samplePrices noBank s ∧ ∃ definition,
          s.itemDefs.get (0, 0) = some definition ∧ definition.supply = 1
            ∧ heldOf s (0, 0) = 0 := by
  have hPerform : (performOps (sampleMint ++ [asNft 5 0 0 .burn true])).any (fun s =>
            (s.itemDefs.get (0, 0)).any (·.supply = 1) && heldOf s (0, 0) = 0)
        = true := by
    decide +kernel
  rcases exists_run_of_performOps hPerform with ⟨s, hRun, hTest⟩
  rw [Bool.and_eq_true, Option.any_eq_true, decide_eq_true_eq] at hTest
  rcases hTest with ⟨⟨definition, hGet, hSupply⟩, hHeld⟩
  exact ⟨s, hRun, definition, hGet, of_decide_eq_true hSupply, hHeld⟩

end Individuality.Scarcity
