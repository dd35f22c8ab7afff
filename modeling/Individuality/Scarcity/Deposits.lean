import Individuality.Scarcity.Attached

/-
  The deposit of a collection is the sum of what is recorded
  for its parts, and its ticket is worth that deposit.

  Main declaration: `recordedBy`
-/

namespace Individuality.Scarcity

open StorageMap (get_insert get_remove sum_congr sum_eq_zero sum_insert sum_insert_of_get_eq_none
  sum_put sum_remove weightAt_some)

variable {A B T : Type} {C : Config A B T}

--
-- Recorded Deposits
--

def itemDeposits (s : ScarcityState C) (c : Nat) : Nat :=
  s.itemDefs.sum fun place definition =>
    if place.1 = c then definition.deposit else 0

def collectionEntryDeposits (s : ScarcityState C) (c : Nat) : Nat :=
  s.collectionMetadata.sum fun place entry =>
    if place.1 = c then entry.deposit else 0

def itemEntryDeposits (s : ScarcityState C) (c : Nat) : Nat :=
  s.itemMetadata.sum fun place entry =>
    if place.1.1 = c then entry.deposit else 0

def mintDeposits (home : Nat → Option Nat) (s : ScarcityState C) (c : Nat) : Nat :=
  s.instanceDeposits.sum fun instance_ deposit =>
    if home instance_ = some c then deposit else 0

def instanceEntryDeposits (home : Nat → Option Nat) (s : ScarcityState C) (c : Nat) : Nat :=
  s.instanceMetadata.sum fun place entry =>
    if home place.1 = some c then entry.deposit else 0

/- The deposits for all that a collection has, where `home` is the collection of an instance. -/
def recordedBy (home : Nat → Option Nat) (s : ScarcityState C) (c : Nat) : Nat :=
  itemDeposits s c + collectionEntryDeposits s c + itemEntryDeposits s c + mintDeposits home s c
    + instanceEntryDeposits home s c

/- The collection that an instance was minted in. -/
def mintedIn (s : ScarcityState C) (instance_ : Nat) : Option Nat :=
  (s.minted.get instance_).map Prod.fst

/- The deposits are those of the parts. -/
structure Ledger (s : ScarcityState C) : Prop where
  exact : ∀ collection info,
      s.collections.get collection = some info →
        info.ownerDeposit
          = info.collectionDeposit + recordedBy (mintedIn s) s collection
  bounded : ∀ collection info,
      s.collections.get collection = some info →
        info.ownerDeposit ≤ C.balanceMax

namespace Ledger

variable {s s' : ScarcityState C} {collection : Nat} {info info' : CollectionInfo A T}

theorem genesis (prices : Prices C.balanceMax) (bank : B) :
    Ledger (ScarcityState.genesis C prices bank) := by
  constructor <;>
    · intro _ _ hGet
      cases hGet

/-
  The deposit of one collection follows what is recorded for
  it, and nothing is recorded for another collection.
-/
theorem repay (hLedger : Ledger s) {bank bank' : B} {ticket ticket' : T} {owner : A} {old new : Nat}
    (hInfo : s.collections.get collection = some info)
    (hCollections : s'.collections = s.collections.insert collection info')
    (hBase : info'.collectionDeposit = info.collectionDeposit)
    (hPaid : Redeposited C owner bank ticket info.ownerDeposit old new
        bank' ticket' info'.ownerDeposit)
    (hRecorded : ∀ c, recordedBy (mintedIn s') s' c + (if collection = c then old else 0)
        = recordedBy (mintedIn s) s c + if collection = c then new else 0) :
    Ledger s' where
  exact := by
    intro c found hFound
    rw [hCollections, get_insert] at hFound
    have hThere := hRecorded c
    by_cases hSame : c = collection
    · rw [if_pos hSame] at hFound
      cases hFound
      rw [if_pos hSame.symm, if_pos hSame.symm] at hThere
      have hOld := hLedger.exact collection info hInfo
      have hExact := hPaid.exact
      rw [hBase]
      rw [← hSame] at hOld
      omega
    · rw [if_neg hSame] at hFound
      rw [if_neg (Ne.symm hSame), if_neg (Ne.symm hSame)] at hThere
      have hOld := hLedger.exact c found hFound
      omega
  bounded := by
    intro c found hFound
    rw [hCollections, get_insert] at hFound
    by_cases hSame : c = collection
    · rw [if_pos hSame] at hFound
      cases hFound
      exact hPaid.bounded (hLedger.bounded collection info hInfo)
    · rw [if_neg hSame] at hFound
      exact hLedger.bounded c found hFound

/- A collection changes in nothing that its deposit is for. -/
theorem keepInfo (hLedger : Ledger s) (info' : CollectionInfo A T)
    (hInfo : s.collections.get collection = some info)
    (hDeposit : info'.ownerDeposit = info.ownerDeposit)
    (hBase : info'.collectionDeposit = info.collectionDeposit) :
    Ledger { s with
      collections := s.collections.insert collection info' } := by
  constructor
  case exact =>
    intro c found hFound
    rw [get_insert] at hFound
    by_cases hSame : c = collection
    · rw [if_pos hSame] at hFound
      cases hFound
      rw [hDeposit, hBase, hSame]
      exact hLedger.exact collection info hInfo
    · rw [if_neg hSame] at hFound
      exact hLedger.exact c found hFound
  case bounded =>
    intro c found hFound
    rw [get_insert] at hFound
    by_cases hSame : c = collection
    · rw [if_pos hSame] at hFound
      cases hFound
      rw [hDeposit]
      exact hLedger.bounded collection info hInfo
    · rw [if_neg hSame] at hFound
      exact hLedger.bounded c found hFound

--
-- Metadata
--

theorem sum_put_entry {κ : Type} [DecidableEq κ] (m : StorageMap κ (MetadataEntry C))
    (here : κ → Prop) [DecidablePred here] (k : κ) (entry : Option (MetadataEntry C)) :
    (m.put k entry).sum (fun k e => if here k then e.deposit else 0)
        + (if here k then entryDeposit (m.get k) else 0)
      = m.sum (fun k e => if here k then e.deposit else 0)
        + if here k then entryDeposit entry else 0 := by
  have hWeight : ∀ e : Option (MetadataEntry C), StorageMap.weightAt
            (fun k e => if here k then e.deposit else 0) k e
          = if here k then entryDeposit e else 0 := by
    intro e
    cases e with
    | none => simp [entryDeposit]
    | some e => rfl
  have hSum := sum_put m (fun k e => if here k then e.deposit else 0) k entry
  rw [hWeight, hWeight] at hSum
  exact hSum

theorem itemDeposits_insert {place : Nat × Nat} {definition : ItemDefinition}
    (definition' : ItemDefinition) (hDefinition : s.itemDefs.get place = some definition)
    (hDeposit : definition'.deposit = definition.deposit) (c : Nat) :
    (s.itemDefs.insert place definition').sum (fun place definition =>
          if place.1 = c then definition.deposit else 0)
      = itemDeposits s c := by
  have hSum := sum_insert s.itemDefs (fun place definition =>
        if place.1 = c then definition.deposit else 0)
      place definition'
  rw [hDefinition, weightAt_some, hDeposit] at hSum
  exact Nat.add_right_cancel hSum

theorem detail [DecidableEq A] (hLedger : Ledger s) (hPurses : Purses s) (hDetail : s.Detail s') :
    Ledger s' := by
  cases hDetail with
  | @collectionMetadata collection _ _ info _ _ key entry hInfo _
      hPaid =>
      refine hLedger.repay hInfo rfl rfl hPaid ?_
      intro c
      change recordedBy (mintedIn s) _ c + _ = _
      have hPut := sum_put_entry s.collectionMetadata (fun k => k.1 = c) (collection, key) entry
      simp only [recordedBy, itemDeposits, collectionEntryDeposits, itemEntryDeposits,
        mintDeposits, instanceEntryDeposits] at hPut ⊢
      omega
  | @itemMetadata collection item count _ info definition _ _
      key entry hInfo hDefinition _ hPaid =>
      refine hLedger.repay hInfo rfl rfl hPaid ?_
      intro c
      change recordedBy (mintedIn s) _ c + _ = _
      have hPut := sum_put_entry s.itemMetadata (fun k => k.1.1 = c) ((collection, item), key) entry
      have hItems := itemDeposits_insert { definition with metadataCount := count } hDefinition
          rfl c
      simp only [recordedBy, itemDeposits, collectionEntryDeposits, itemEntryDeposits,
        mintDeposits, instanceEntryDeposits] at hPut hItems ⊢
      omega
  | @instanceMetadata instance_ _ _ purse nft info _ _ key entry
      hPurse hHeld hNft hInfo _ hPaid =>
      refine hLedger.repay hInfo rfl rfl hPaid ?_
      intro c
      change recordedBy (mintedIn s) _ c + _ = _
      have hPut := sum_put_entry s.instanceMetadata
          (fun k => mintedIn s k.1 = some c) (instance_, key)
          entry
      have hHome : mintedIn s instance_ = some nft.collection := by
        unfold mintedIn
        rw [← hNft, hPurses.home purse nft hHeld]
        rfl
      simp only [hHome, Option.some.injEq] at hPut
      simp only [recordedBy, itemDeposits, collectionEntryDeposits, itemEntryDeposits,
        mintDeposits, instanceEntryDeposits] at hPut ⊢
      omega

--
-- Changes
--

variable [DecidableEq A]

/- The collection of a live instance has its definition. -/
theorem definition_of_live (hPurses : Purses s) (hSupplies : Supplies s) {instance_ c : Nat}
    (hLive : Live s instance_) (hHome : mintedIn s instance_ = some c) :
    ∃ item definition, s.itemDefs.get (c, item) = some definition := by
  rcases hLive with ⟨purse, hGet⟩
  rcases (hPurses.holders _ _).mp hGet with ⟨nft, hHeld, hNamed⟩
  unfold Named at hNamed
  unfold mintedIn at hHome
  rw [← hNamed, hPurses.home purse nft hHeld] at hHome
  cases hHome
  rcases hSupplies.home purse nft hHeld with ⟨definition, hDefinition⟩
  exact ⟨nft.item, definition, hDefinition⟩

/- Nothing is recorded for a collection without anything. -/
theorem recorded_of_empty (hCatalogue : Catalogue s) (hPurses : Purses s) (hSupplies : Supplies s)
    (hAttached : Attached s) {c : Nat} (hItems : s.itemDefs.NoneAt c)
    (hMetadata : s.collectionMetadata.NoneAt c) :
    recordedBy (mintedIn s) s c = 0 := by
  have hNoDefinition : ∀ instance_, Live s instance_ → mintedIn s instance_ ≠ some c := by
    intro instance_ hLive hHome
    rcases definition_of_live hPurses hSupplies hLive hHome with ⟨item, definition, hDefinition⟩
    rw [hItems item] at hDefinition
    cases hDefinition
  have hItem : itemDeposits s c = 0 := by
    apply sum_eq_zero
    rintro place definition hGet
    apply if_neg
    rintro rfl
    have hNone := hItems place.2
    rw [hGet] at hNone
    cases hNone
  have hCollection : collectionEntryDeposits s c = 0 := by
    apply sum_eq_zero
    rintro place entry hGet
    apply if_neg
    rintro rfl
    have hNone := hMetadata place.2
    rw [hGet] at hNone
    cases hNone
  have hItemEntry : itemEntryDeposits s c = 0 := by
    apply sum_eq_zero
    rintro place entry hGet
    apply if_neg
    rintro rfl
    rcases hCatalogue.itemMetadataHome place entry hGet with ⟨definition, hDefinition⟩
    have hNone := hItems place.1.2
    rw [hDefinition] at hNone
    cases hNone
  have hMint : mintDeposits (mintedIn s) s c = 0 := by
    apply sum_eq_zero
    intro instance_ deposit hGet
    exact if_neg (hNoDefinition instance_ (hAttached.deposit instance_ deposit hGet))
  have hInstance : instanceEntryDeposits (mintedIn s) s c = 0 := by
    apply sum_eq_zero
    intro place entry hGet
    exact if_neg (hNoDefinition place.1 (hAttached.metadata place entry hGet))
  unfold recordedBy
  omega

/- What is recorded before a mint keeps its place. -/
theorem recorded_minted (hPurses : Purses s) (hAttached : Attached s) (place : Nat × Nat)
    (c : Nat) :
    recordedBy (fun i => ((s.minted.insert s.nextInstanceId place).get i).map
            Prod.fst)
        s c
      = recordedBy (mintedIn s) s c := by
  have hKept : ∀ i, Live s i → ((s.minted.insert s.nextInstanceId place).get i).map Prod.fst
          = mintedIn s i := by
    rintro i ⟨purse, hGet⟩
    rw [StorageMap.get_insert_of_ne]
    · rfl
    · rintro rfl
      rw [hPurses.unheld_next] at hGet
      cases hGet
  have hMint : mintDeposits (fun i =>
            ((s.minted.insert s.nextInstanceId place).get i).map Prod.fst)
          s c
        = mintDeposits (mintedIn s) s c := by
    apply sum_congr
    intro i deposit hGet
    dsimp only
    simp only [hKept i (hAttached.deposit i deposit hGet)]
  have hInstance : instanceEntryDeposits (fun i =>
            ((s.minted.insert s.nextInstanceId place).get i).map Prod.fst)
          s c
        = instanceEntryDeposits (mintedIn s) s c := by
    apply sum_congr
    intro at_ entry hGet
    dsimp only
    simp only [hKept at_.1 (hAttached.metadata at_ entry hGet)]
  unfold recordedBy
  rw [hMint, hInstance]

/- A burn takes the deposits of one instance. -/
theorem recorded_burned (hPurses : Purses s) {purse : A} {nft : Nft}
    (hHeld : s.nftsByOwner.get purse = some nft) (c : Nat) :
    mintDeposits (mintedIn s)
          { s with
            instanceDeposits := s.instanceDeposits.remove nft.instance_ } c
        + instanceEntryDeposits (mintedIn s)
          { s with
            instanceMetadata := s.instanceMetadata.drainPrefix nft.instance_ } c
        + (if nft.collection = c then
            s.depositsOf nft.instance_
          else 0)
      = mintDeposits (mintedIn s) s c + instanceEntryDeposits (mintedIn s) s c := by
  have hHome : mintedIn s nft.instance_ = some nft.collection := by
    unfold mintedIn
    rw [hPurses.home purse nft hHeld]
    rfl
  have hRemove := sum_remove s.instanceDeposits (fun i deposit =>
        if mintedIn s i = some c then deposit else 0)
      nft.instance_
  have hDrain := DoubleMap.sum_drainPrefix s.instanceMetadata nft.instance_ (fun at_ entry =>
      if mintedIn s at_.1 = some c then entry.deposit else 0)
  have hWeight : StorageMap.weightAt (fun i deposit =>
            if mintedIn s i = some c then deposit else 0)
          nft.instance_ (s.instanceDeposits.get nft.instance_)
        = if nft.collection = c then
            s.instanceDeposits.getD nft.instance_ 0
          else 0 := by
    unfold StorageMap.getD
    cases s.instanceDeposits.get nft.instance_ with
    | none => simp
    | some deposit =>
      simp only [weightAt_some, hHome, Option.some.injEq, Option.getD_some]
  rw [hWeight] at hRemove
  simp only [hHome, Option.some.injEq] at hDrain
  unfold mintDeposits instanceEntryDeposits ScarcityState.depositsOf
  by_cases hHere : nft.collection = c
  · simp only [if_pos hHere] at hRemove hDrain ⊢
    omega
  · simp only [if_neg hHere, List.map_const', List.sum_replicate, nsmul_zero] at hRemove hDrain ⊢
    omega

theorem change (hLedger : Ledger s) (hCatalogue : Catalogue s) (hPurses : Purses s)
    (hSupplies : Supplies s) (hAttached : Attached s) {op : Op C} (hChange : s.Change op s') :
    Ledger s' := by
  cases hChange with
  | detail hDetail => exact hLedger.detail hPurses hDetail
  | @nominated _ info pendingOwner hInfo =>
    have hKept := hLedger.keepInfo { info with pendingOwner := pendingOwner } hInfo rfl rfl
    exact { hKept with }
  | @ownerChanged _ info ticket _ _ newOwner hInfo =>
    have hKept := hLedger.keepInfo
        { info with
          owner := newOwner
          pendingOwner := none
          consideration := ticket }
        hInfo rfl rfl
    exact { hKept with }
  | @created deposit ticket bank owner hMax =>
    have hUnused := hCatalogue.next_unused
    have hNone := hCatalogue.noneAt_of_unused hUnused
    have hEmpty := recorded_of_empty hCatalogue hPurses hSupplies hAttached hNone.1 hNone.2
    constructor
    case exact =>
      intro c found hFound
      change found.ownerDeposit = found.collectionDeposit + recordedBy (mintedIn s) s c
      rw [get_insert] at hFound
      by_cases hNext : c = s.nextCollectionId
      · rw [if_pos hNext] at hFound
        cases hFound
        rw [hNext, hEmpty]
        rfl
      · rw [if_neg hNext] at hFound
        exact hLedger.exact c found hFound
    case bounded =>
      intro c found hFound
      rw [get_insert] at hFound
      by_cases hNext : c = s.nextCollectionId
      · rw [if_pos hNext] at hFound
        cases hFound
        exact hMax
      · rw [if_neg hNext] at hFound
        exact hLedger.bounded c found hFound
  | @itemDefined collection price deposit info ticket bank
      transferability hInfo hPaid =>
      refine hLedger.repay hInfo rfl rfl hPaid ?_
      intro c
      change recordedBy (mintedIn s) _ c + _ = _
      have hInsert := sum_insert_of_get_eq_none (hCatalogue.nextItem_unused hInfo)
          (fun place definition =>
            if place.1 = c then definition.deposit else 0)
          { supply := 0
            liveSupply := 0
            metadataCount := 0
            deposit := price
            transferability := transferability }
      simp only [recordedBy, itemDeposits, collectionEntryDeposits, itemEntryDeposits,
        mintDeposits, instanceEntryDeposits, ite_self]
        at hInsert ⊢
      omega
  | @minted collection item price deposit info definition _ _ to_
      withDeposit hInfo hDefinition _ hPaid =>
      refine hLedger.repay hInfo rfl rfl hPaid ?_
      intro c
      rw [← recorded_minted hPurses hAttached (collection, item)]
      change recordedBy (fun i =>
                ((s.minted.insert s.nextInstanceId (collection, item)).get i).map Prod.fst)
              _ c
            + _
          = _
      have hItems := itemDeposits_insert
          { definition with
            supply := definition.supply + 1
            liveSupply := definition.liveSupply + 1 }
          hDefinition rfl c
      have hFresh : s.instanceDeposits.get s.nextInstanceId = none := by
        cases hGet : s.instanceDeposits.get s.nextInstanceId with
        | none => rfl
        | some old =>
          rcases hAttached.deposit _ old hGet with ⟨purse, hPurse⟩
          rw [hPurses.unheld_next] at hPurse
          cases hPurse
      have hInsert := sum_insert_of_get_eq_none hFresh (fun i deposit =>
            if ((s.minted.insert s.nextInstanceId
                  (collection, item)).get i).map Prod.fst
                = some c then deposit
            else 0)
          price
      have hHere : ((s.minted.insert s.nextInstanceId (collection, item)).get s.nextInstanceId).map
                Prod.fst
            = some collection := by
        rw [StorageMap.get_insert_self]
        rfl
      simp only [hHere, Option.some.injEq] at hInsert
      cases withDeposit <;>
        simp only [recordedBy, itemDeposits, collectionEntryDeposits, itemEntryDeposits,
          mintDeposits, instanceEntryDeposits, ite_self,
          ↓reduceIte, Bool.false_eq_true] at hInsert hItems ⊢ <;>
        omega
  | @burned purse nft definition info _ _ _ _ hHeld hDefinition _
      hInfo hPaid =>
      refine hLedger.repay hInfo rfl rfl hPaid ?_
      intro c
      change recordedBy (mintedIn s) _ c + _ = _
      have hBurned := recorded_burned hPurses hHeld c
      have hItems := itemDeposits_insert
          { definition with
            liveSupply := definition.liveSupply - 1 }
          hDefinition rfl c
      simp only [recordedBy, itemDeposits, collectionEntryDeposits, itemEntryDeposits,
        mintDeposits, instanceEntryDeposits, ite_self,
        ScarcityState.burnt, ScarcityState.leave, Nft.definition]
        at hBurned hItems ⊢
      omega
  | @itemDeleted collection item _ info definition _ _ hInfo
      hDefinition _ _ _ hPaid =>
      refine hLedger.repay hInfo rfl rfl hPaid ?_
      intro c
      change recordedBy (mintedIn s) _ c + _ = _
      have hRemove := sum_remove s.itemDefs (fun place definition =>
            if place.1 = c then definition.deposit else 0)
          (collection, item)
      rw [hDefinition, weightAt_some] at hRemove
      simp only [recordedBy, itemDeposits, collectionEntryDeposits, itemEntryDeposits,
        mintDeposits, instanceEntryDeposits, ite_self]
        at hRemove ⊢
      omega
  | @collectionDeleted collection =>
    constructor
    case exact =>
      intro c found hFound
      rw [get_remove] at hFound
      split_ifs at hFound
      exact hLedger.exact c found hFound
    case bounded =>
      intro c found hFound
      rw [get_remove] at hFound
      split_ifs at hFound
      exact hLedger.bounded c found hFound
  | _ => exact { hLedger with }

end Ledger

--
-- Tickets
--

/- What an account owes for its collections. -/
def owedBy [DecidableEq A] (s : ScarcityState C) (owner : A) : Nat :=
  s.collections.sum fun _ info =>
    if info.owner = owner then info.ownerDeposit else 0

/- Every ticket is worth the deposit of its collection, and an account has on hold what it owes. -/
structure Tickets [DecidableEq A] (s : ScarcityState C) : Prop where
  worth : ∀ collection info,
      s.collections.get collection = some info →
        C.worth info.consideration = info.ownerDeposit
  held : ∀ owner, C.held s.bank owner = owedBy s owner

namespace Tickets

variable [DecidableEq A] {s s' : ScarcityState C} {collection : Nat}
variable {info info' : CollectionInfo A T}

theorem genesis (prices : Prices C.balanceMax) {bank : B}
    (hNothing : ∀ owner, C.held bank owner = 0) :
    Tickets (ScarcityState.genesis C prices bank) where
  worth := by
    intro _ _ hGet
    cases hGet
  held := hNothing

/- The owner of a collection is charged or refunded. -/
theorem repay (hTickets : Tickets s) (hExact : C.Exact) {old new : Nat}
    (hInfo : s.collections.get collection = some info)
    (hCollections : s'.collections = s.collections.insert collection info')
    (hOwner : info'.owner = info.owner)
    (hPaid : Redeposited C info.owner s.bank info.consideration
        info.ownerDeposit old new s'.bank info'.consideration
        info'.ownerDeposit) :
    Tickets s' := by
  have hWorth := hTickets.worth collection info hInfo
  have hChanged : C.worth info'.consideration = info'.ownerDeposit
        ∧ C.held s'.bank info.owner + info.ownerDeposit
          = C.held s.bank info.owner + info'.ownerDeposit
        ∧ ∀ other, other ≠ info.owner → C.held s'.bank other = C.held s.bank other := by
    rcases hPaid.update with
      hUpdate | ⟨hTicket, hBank, hDeposit⟩
    · rw [← hWorth]
      exact hExact.update hUpdate
    · rw [hTicket, hBank, hDeposit]
      exact ⟨hWorth, rfl, fun _ _ => rfl⟩
  constructor
  case worth =>
    intro c found hFound
    rw [hCollections, get_insert] at hFound
    by_cases hSame : c = collection
    · rw [if_pos hSame] at hFound
      cases hFound
      exact hChanged.1
    · rw [if_neg hSame] at hFound
      exact hTickets.worth c found hFound
  case held =>
    intro owner
    have hSum := sum_insert s.collections (fun _ info =>
          if info.owner = owner then info.ownerDeposit else 0)
        collection info'
    have hOld := hTickets.held owner
    rw [hInfo, weightAt_some, hOwner] at hSum
    unfold owedBy at hOld ⊢
    rw [hCollections]
    by_cases hHere : info.owner = owner
    · rw [if_pos hHere, if_pos hHere] at hSum
      have hBank := hChanged.2.1
      rw [hHere] at hBank
      omega
    · rw [if_neg hHere, if_neg hHere] at hSum
      have hBank := hChanged.2.2 owner (Ne.symm hHere)
      omega

theorem detail (hTickets : Tickets s) (hExact : C.Exact) (hDetail : s.Detail s') :
    Tickets s' := by
  cases hDetail with
  | collectionMetadata key entry hInfo hCount hPaid =>
    exact hTickets.repay hExact hInfo rfl rfl hPaid
  | itemMetadata key entry hInfo hDefinition hCount hPaid =>
    exact hTickets.repay hExact hInfo rfl rfl hPaid
  | instanceMetadata key entry _ _ _ hInfo hCount hPaid =>
    exact hTickets.repay hExact hInfo rfl rfl hPaid

/- A new collection is charged for. -/
theorem created (hTickets : Tickets s) (hExact : C.Exact) (info : CollectionInfo A T)
    (hUnused : s.collections.get collection = none) {bank : B}
    (hTicket : C.newTicket s.bank info.owner info.ownerDeposit = some (info.consideration, bank)) :
    Tickets { s with
      bank := bank
      collections := s.collections.insert collection info } := by
  rcases hExact.new hTicket with ⟨hWorth, hCharged, hOther⟩
  constructor
  case worth =>
    intro c found hFound
    rw [get_insert] at hFound
    by_cases hSame : c = collection
    · rw [if_pos hSame] at hFound
      cases hFound
      exact hWorth
    · rw [if_neg hSame] at hFound
      exact hTickets.worth c found hFound
  case held =>
    intro owner
    have hOld := hTickets.held owner
    unfold owedBy at hOld ⊢
    rw [sum_insert_of_get_eq_none hUnused]
    by_cases hHere : info.owner = owner
    · rw [if_pos hHere, ← hOld, ← hHere]
      exact hCharged
    · rw [if_neg hHere, Nat.add_zero, ← hOld]
      exact hOther owner (Ne.symm hHere)

/- A deleted collection is refunded. -/
theorem deleted (hTickets : Tickets s) (hExact : C.Exact)
    (hInfo : s.collections.get collection = some info) {bank : B}
    (hDrop : C.dropTicket s.bank info.consideration info.owner = some bank) :
    Tickets { s with
      bank := bank
      collections := s.collections.remove collection } := by
  rcases hExact.drop hDrop with ⟨hRefunded, hOther⟩
  rw [hTickets.worth collection info hInfo] at hRefunded
  constructor
  case worth =>
    intro c found hFound
    rw [get_remove] at hFound
    split_ifs at hFound
    exact hTickets.worth c found hFound
  case held =>
    intro owner
    have hSum := sum_remove s.collections (fun _ info =>
          if info.owner = owner then info.ownerDeposit else 0)
        collection
    have hOld := hTickets.held owner
    rw [hInfo, weightAt_some] at hSum
    unfold owedBy at hOld ⊢
    change C.held bank owner = _
    by_cases hHere : info.owner = owner
    · rw [if_pos hHere] at hSum
      rw [hHere] at hRefunded
      dsimp only
      omega
    · rw [if_neg hHere] at hSum
      have hBank := hOther owner (Ne.symm hHere)
      dsimp only
      omega

/- A collection keeps its owner, its deposit and its ticket. -/
theorem keepInfo (hTickets : Tickets s) (info' : CollectionInfo A T)
    (hInfo : s.collections.get collection = some info) (hOwner : info'.owner = info.owner)
    (hDeposit : info'.ownerDeposit = info.ownerDeposit)
    (hTicket : info'.consideration = info.consideration) :
    Tickets { s with
      collections := s.collections.insert collection info' } := by
  constructor
  case worth =>
    intro c found hFound
    rw [get_insert] at hFound
    by_cases hSame : c = collection
    · rw [if_pos hSame] at hFound
      cases hFound
      rw [hTicket, hDeposit]
      exact hTickets.worth collection info hInfo
    · rw [if_neg hSame] at hFound
      exact hTickets.worth c found hFound
  case held =>
    intro owner
    have hSum := sum_insert s.collections (fun _ info =>
          if info.owner = owner then info.ownerDeposit else 0)
        collection info'
    rw [hInfo, weightAt_some, hOwner, hDeposit] at hSum
    have hOld := hTickets.held owner
    unfold owedBy at hOld ⊢
    rw [Nat.add_right_cancel hSum]
    exact hOld

/- The new owner is charged, and the old one is refunded. -/
theorem ownerChanged (hTickets : Tickets s) (hExact : C.Exact)
    (newOwner : A) (info' : CollectionInfo A T) {ticket : T} {charged bank : B}
    (hInfo : s.collections.get collection = some info)
    (hNew : C.newTicket s.bank newOwner info.ownerDeposit = some (ticket, charged))
    (hDrop : C.dropTicket charged info.consideration info.owner = some bank)
    (hOwner : info'.owner = newOwner) (hDeposit : info'.ownerDeposit = info.ownerDeposit)
    (hTicket : info'.consideration = ticket) :
    Tickets { s with
      bank := bank
      collections := s.collections.insert collection info' } := by
  rcases hExact.new hNew with ⟨hWorth, hCharged, hUncharged⟩
  rcases hExact.drop hDrop with ⟨hRefunded, hOther⟩
  rw [hTickets.worth collection info hInfo] at hRefunded
  constructor
  case worth =>
    intro c found hFound
    rw [get_insert] at hFound
    by_cases hSame : c = collection
    · rw [if_pos hSame] at hFound
      cases hFound
      rw [hTicket, hDeposit]
      exact hWorth
    · rw [if_neg hSame] at hFound
      exact hTickets.worth c found hFound
  case held =>
    intro owner
    have hSum := sum_insert s.collections (fun _ info =>
          if info.owner = owner then info.ownerDeposit else 0)
        collection info'
    rw [hInfo, weightAt_some, hOwner, hDeposit] at hSum
    have hOld := hTickets.held owner
    unfold owedBy at hOld ⊢
    dsimp only
    have hCharge : C.held charged owner = C.held s.bank owner
            + if newOwner = owner then info.ownerDeposit else 0 := by
      by_cases hHere : newOwner = owner
      · rw [if_pos hHere, ← hHere]
        exact hCharged
      · rw [if_neg hHere]
        exact hUncharged owner (Ne.symm hHere)
    have hRefund : C.held bank owner + (if info.owner = owner then info.ownerDeposit else 0)
          = C.held charged owner := by
      by_cases hHere : info.owner = owner
      · rw [if_pos hHere, ← hHere]
        exact hRefunded
      · rw [if_neg hHere]
        exact hOther owner (Ne.symm hHere)
    omega

/- New balances leave what is on hold for the pallet. -/
theorem change (hTickets : Tickets s) (hExact : C.Exact) (hCatalogue : Catalogue s) {op : Op C}
    (hBank : ∀ bank, op = .setBank bank → ∀ owner, C.held bank owner = C.held s.bank owner)
    (hChange : s.Change op s') :
    Tickets s' := by
  cases hChange with
  | environment now prices bank _ hSame =>
    refine { worth := hTickets.worth, held := ?_ }
    intro owner
    rcases hSame with rfl | hOp
    · exact hTickets.held owner
    · exact (hBank bank hOp owner).trans (hTickets.held owner)
  | detail hDetail => exact hTickets.detail hExact hDetail
  | @nominated _ info pendingOwner hInfo =>
    have hKept := hTickets.keepInfo { info with pendingOwner := pendingOwner } hInfo rfl rfl rfl
    exact { hKept with }
  | @created deposit ticket bank owner _ hTicket =>
    have hCreated := hTickets.created hExact
        { owner := owner
          pendingOwner := none
          nextItemIndex := 0
          itemCount := 0
          metadataCount := 0
          collectionDeposit := deposit
          ownerDeposit := deposit
          consideration := ticket }
        hCatalogue.next_unused hTicket
    exact { hCreated with }
  | @ownerChanged _ info ticket _ _ newOwner hInfo hNew hDrop =>
    have hOwner := hTickets.ownerChanged hExact newOwner
        { info with
          owner := newOwner
          pendingOwner := none
          consideration := ticket }
        hInfo hNew hDrop rfl rfl rfl
    exact { hOwner with }
  | itemDefined _ hInfo hPaid =>
    exact hTickets.repay hExact hInfo rfl rfl hPaid
  | minted _ _ hInfo _ _ hPaid =>
    exact hTickets.repay hExact hInfo rfl rfl hPaid
  | burned _ _ _ _ hInfo hPaid =>
    exact hTickets.repay hExact hInfo rfl rfl hPaid
  | itemDeleted hInfo _ _ _ _ hPaid =>
    exact hTickets.repay hExact hInfo rfl rfl hPaid
  | collectionDeleted hInfo _ _ hDrop =>
    exact { hTickets.deleted hExact hInfo hDrop with }
  | _ => exact { hTickets with }

end Tickets

end Individuality.Scarcity
