import Individuality.Scarcity.Types
import Individuality.Base.Runs

/-
  The calls of the scarcity pallet, and the transactions of the extension that takes an instance out
  of its purse, dispatches a transfer or a burn of it, and puts it back if that fails.

  Main declaration: `changeEntry`
-/

namespace Individuality.Scarcity

variable {A B T : Type} {C : Config A B T}

--
-- Deposits
--

/- The ticket of a collection follows its deposit. -/
def updateOwnerDeposit (C : Config A B T) (bank : B) (info : CollectionInfo A T)
    (ownerDeposit : Nat) :
    Except Error (CollectionInfo A T × B) := do
  let (consideration, bank) ← okOr (C.updateTicket bank info.consideration info.owner ownerDeposit)
      Error.consideration
  return ({ info with
    ownerDeposit := ownerDeposit
    consideration := consideration }, bank)

def increaseOwnerDeposit (C : Config A B T) (bank : B) (info : CollectionInfo A T) (amount : Nat) :
    Except Error (CollectionInfo A T × B) := do
  let total ← okOr (checkedAdd C.balanceMax info.ownerDeposit amount) Error.overflow
  updateOwnerDeposit C bank info total

def decreaseOwnerDeposit (C : Config A B T) (bank : B) (info : CollectionInfo A T) (amount : Nat) :
    Except Error (CollectionInfo A T × B) := do
  ensure (amount ≤ info.ownerDeposit) Error.underflow
  updateOwnerDeposit C bank info (info.ownerDeposit - amount)

def replaceOwnerDeposit (C : Config A B T) (bank : B) (info : CollectionInfo A T) (old new : Nat) :
    Except Error (CollectionInfo A T × B) := do
  ensure (old ≤ info.ownerDeposit) Error.underflow
  let total ← okOr (checkedAdd C.balanceMax (info.ownerDeposit - old) new) Error.overflow
  updateOwnerDeposit C bank info total

/- The new owner is charged before the old one is refunded. -/
def changeCollectionOwner (C : Config A B T) (bank : B) (info : CollectionInfo A T) (newOwner : A) :
    Except Error (CollectionInfo A T × B) := do
  let (consideration, bank) ← okOr (C.newTicket bank newOwner info.ownerDeposit) Error.consideration
  let bank ← okOr (C.dropTicket bank info.consideration info.owner) Error.consideration
  return ({ info with
    owner := newOwner
    pendingOwner := none
    consideration := consideration }, bank)

def metadataFootprint (C : Config A B T) (key : C.MetadataKey)
    (value : C.MetadataValue) : Footprint where
  count := 1
  size := saturatingAdd u64Max (saturatingAdd u64Max key.val.length value.val.length) C.balanceLen

/- Four entries stand for an instance with a deposit. -/
def instanceFootprint (C : Config A B T) (to_ : A) : Footprint where
  count := 4
  size := saturatingAdd u64Max (saturatingAdd u64Max (saturatingAdd u64Max (saturatingAdd u64Max 42
            (saturatingMul u64Max (C.accountLen to_) 2))
          (saturatingMul u64Max 8 3))
        C.balanceLen)
      4

--
-- Metadata
--

/-
  What a write of metadata changes in any scope: the entry, the
  number of entries, and the deposit of the collection.
-/
structure EntryChange (C : Config A B T) where
  entry : Option (MetadataEntry C)
  count : Nat
  info : CollectionInfo A T
  bank : B

/-
  Set or remove one entry of a scope.  `limit` and `full` are the limit of the scope and its error,
  and a value costs `price`.
-/
def changeEntry (C : Config A B T)
    (limit : Nat) (full : Error) (price : C.MetadataValue → Nat) (bank : B)
    (info : CollectionInfo A T) (count : Nat) :
    Option (MetadataEntry C) → Option C.MetadataValue → Except Error (EntryChange C)
  | some entry, some value => do
    let deposit := price value
    let (info, bank) ← replaceOwnerDeposit C bank info entry.deposit deposit
    return {
      entry := some { value := value, deposit := deposit }
      count := count
      info := info
      bank := bank }
  | none, some value => do
    ensure (count < limit) full
    let count ← okOr (checkedAdd u32Max count 1) Error.overflow
    let deposit := price value
    let (info, bank) ← increaseOwnerDeposit C bank info deposit
    return {
      entry := some { value := value, deposit := deposit }
      count := count
      info := info
      bank := bank }
  | some entry, none => do
    ensure (1 ≤ count) Error.underflow
    let (info, bank) ← decreaseOwnerDeposit C bank info entry.deposit
    return {
      entry := none
      count := count - 1
      info := info
      bank := bank }
  | none, none =>
    .ok {
      entry := none
      count := count
      info := info
      bank := bank }

/- Only values that are written are validated. -/
def ensureMetadataPolicy (C : Config A B T) (key : C.MetadataKey)
    (value : Option C.MetadataValue) : Except Error Unit :=
  match value with
  | some value =>
    ensure (C.metadataPolicy key value = true) Error.metadataPolicy
  | none => .ok ()

namespace ScarcityState

variable [DecidableEq A]

/- The collection that an account may administer. -/
def ownedCollection (s : ScarcityState C) (owner : A)
    (collection : Nat) : Except Error (CollectionInfo A T) := do
  let info ← okOr (s.collections.get collection) Error.unknownCollection
  ensure (info.owner = owner) Error.noPermission
  return info

def metadataPrice (s : ScarcityState C) (key : C.MetadataKey) (value : C.MetadataValue) : Nat :=
  s.prices.metadataDeposit.convert (metadataFootprint C key value)

def doSetCollectionMetadata
    (s : ScarcityState C) (owner : A) (collection : Nat) (key : C.MetadataKey)
    (value : Option C.MetadataValue) :
    Except Error (ScarcityState C) := do
  let info ← s.ownedCollection owner collection
  ensureMetadataPolicy C key value
  let change ← changeEntry C C.maxCollectionMetadata
      Error.tooManyCollectionMetadata (s.metadataPrice key)
      s.bank info info.metadataCount
      (s.collectionMetadata.get (collection, key)) value
  return { s with
    bank := change.bank
    collections := s.collections.insert collection
        { change.info with metadataCount := change.count }
    collectionMetadata := s.collectionMetadata.put (collection, key) change.entry }

def doSetItemMetadata (s : ScarcityState C) (owner : A) (collection item : Nat)
    (key : C.MetadataKey) (value : Option C.MetadataValue) :
    Except Error (ScarcityState C) := do
  let info ← s.ownedCollection owner collection
  let definition ← okOr (s.itemDefs.get (collection, item)) Error.unknownItem
  ensureMetadataPolicy C key value
  let change ← changeEntry C C.maxItemMetadata
      Error.tooManyItemMetadata (s.metadataPrice key) s.bank info
      definition.metadataCount
      (s.itemMetadata.get ((collection, item), key)) value
  return { s with
    bank := change.bank
    collections := s.collections.insert collection change.info
    itemDefs := s.itemDefs.insert (collection, item)
        { definition with metadataCount := change.count }
    itemMetadata := s.itemMetadata.put ((collection, item), key) change.entry }

/- The purse that holds an instance, with what it holds. -/
def heldInstance (s : ScarcityState C) (instance_ : Nat) : Except Error (A × Nft) := do
  let purse ← okOr (s.instances.get instance_) Error.unknownInstance
  let nft ← okOr (s.nftsByOwner.get purse) Error.unknownInstance
  ensure (nft.instance_ = instance_) Error.unknownInstance
  return (purse, nft)

/- Metadata of an instance may be written without a deposit. -/
def doSetInstanceMetadata (s : ScarcityState C) (owner : A) (instance_ : Nat)
    (key : C.MetadataKey) (value : Option C.MetadataValue)
    (withDeposit : Bool) : Except Error (ScarcityState C) := do
  let (_, nft) ← s.heldInstance instance_
  let info ← s.ownedCollection owner nft.collection
  ensureMetadataPolicy C key value
  let count := s.instanceMetadataCount.getD instance_ 0
  let change ← changeEntry C C.maxInstanceMetadata Error.tooManyInstanceMetadata (fun value =>
        if withDeposit then s.metadataPrice key value else 0)
      s.bank info count
      (s.instanceMetadata.get (instance_, key)) value
  return { s with
    bank := change.bank
    collections := s.collections.insert nft.collection change.info
    instanceMetadata := s.instanceMetadata.put (instance_, key) change.entry
    instanceMetadataCount :=
      if change.count = count then s.instanceMetadataCount
      else
        s.instanceMetadataCount.insert instance_ change.count }

--
-- Collections and Items
--

def doCreateCollection (s : ScarcityState C) (owner : A) : Except Error (ScarcityState C) := do
  let collection := s.nextCollectionId
  let nextCollection ← okOr (checkedAdd u32Max collection 1) Error.tooManyCollections
  let collectionDeposit := s.prices.collectionDeposit.convert
      { count := 1, size := C.collectionInfoLen }
  let (consideration, bank) ← okOr (C.newTicket s.bank owner collectionDeposit) Error.consideration
  return { s with
    bank := bank
    nextCollectionId := nextCollection
    collections := s.collections.insert collection
        { owner := owner
          pendingOwner := none
          nextItemIndex := 0
          itemCount := 0
          metadataCount := 0
          collectionDeposit := collectionDeposit
          ownerDeposit := collectionDeposit
          consideration := consideration } }

/- An item definition without its metadata. -/
def defineBareItem (s : ScarcityState C) (owner : A) (collection : Nat)
    (transferability : Transferability) :
    Except Error (Nat × ScarcityState C) := do
  let info ← s.ownedCollection owner collection
  let item := info.nextItemIndex
  let nextItemIndex ← okOr (checkedAdd u32Max item 1) Error.tooManyItems
  let itemCount ← okOr (checkedAdd u32Max info.itemCount 1) Error.tooManyItems
  let deposit := s.prices.itemDeposit.convert { count := 1, size := C.itemDefinitionLen }
  let (info, bank) ← increaseOwnerDeposit C s.bank
      { info with
        nextItemIndex := nextItemIndex
        itemCount := itemCount }
      deposit
  return (item, { s with
    bank := bank
    collections := s.collections.insert collection info
    itemDefs := s.itemDefs.insert (collection, item)
        { supply := 0
          liveSupply := 0
          metadataCount := 0
          deposit := deposit
          transferability := transferability } })

def doDefineItem (s : ScarcityState C) (owner : A) (collection : Nat)
    (transferability : Transferability) (metadata : List (C.MetadataKey × C.MetadataValue)) :
    Except Error (ScarcityState C) := do
  let (item, s) ← s.defineBareItem owner collection transferability
  metadata.foldlM (fun s pair =>
      s.doSetItemMetadata owner collection item pair.1 (some pair.2))
    s

def nominateCollectionOwner (s : ScarcityState C) (owner : A) (collection : Nat)
    (pendingOwner : Option A) :
    Except Error (ScarcityState C) := do
  let info ← s.ownedCollection owner collection
  ensure (pendingOwner ≠ some info.owner) Error.alreadyCollectionOwner
  return { s with
    collections := s.collections.insert collection { info with pendingOwner := pendingOwner } }

def claimCollectionOwnership (s : ScarcityState C) (newOwner : A)
    (collection : Nat) : Except Error (ScarcityState C) := do
  let info ← okOr (s.collections.get collection) Error.unknownCollection
  ensure (info.pendingOwner = some newOwner) Error.notPendingCollectionOwner
  let (info, bank) ← changeCollectionOwner C s.bank info newOwner
  return { s with
    bank := bank
    collections := s.collections.insert collection info }

def doDeleteItem (s : ScarcityState C) (owner : A) (collection item : Nat) :
    Except Error (ScarcityState C) := do
  let info ← s.ownedCollection owner collection
  let definition ← okOr (s.itemDefs.get (collection, item)) Error.unknownItem
  ensure (definition.liveSupply = 0) Error.itemInUse
  ensure (definition.metadataCount = 0) Error.itemMetadataNotEmpty
  ensure (s.itemMetadata.entriesAt (collection, item) |>.isEmpty) Error.deletionInvariant
  ensure (1 ≤ info.itemCount) Error.underflow
  let (info, bank) ← decreaseOwnerDeposit C s.bank { info with itemCount := info.itemCount - 1 }
      definition.deposit
  return { s with
    bank := bank
    collections := s.collections.insert collection info
    itemDefs := s.itemDefs.remove (collection, item) }

def doDeleteCollection (s : ScarcityState C) (owner : A)
    (collection : Nat) : Except Error (ScarcityState C) := do
  let info ← s.ownedCollection owner collection
  ensure (info.itemCount = 0) Error.collectionItemsNotEmpty
  ensure (info.metadataCount = 0) Error.collectionMetadataNotEmpty
  ensure (s.itemDefs.entriesAt collection |>.isEmpty) Error.deletionInvariant
  ensure (s.collectionMetadata.entriesAt collection |>.isEmpty) Error.deletionInvariant
  ensure (info.ownerDeposit = info.collectionDeposit) Error.deletionInvariant
  let bank ← okOr (C.dropTicket s.bank info.consideration info.owner) Error.consideration
  return { s with
    bank := bank
    collections := s.collections.remove collection }

--
-- Minting
--

/- Only a mint with a deposit is charged for. -/
def chargeInstance (s : ScarcityState C) (info : CollectionInfo A T) (deposit : Nat)
    (withDeposit : Bool) :
    Except Error (CollectionInfo A T × B) :=
  if withDeposit then
    increaseOwnerDeposit C s.bank info deposit
  else .ok (info, s.bank)

/- An instance without its metadata. -/
def mintBare (s : ScarcityState C) (collection item : Nat) (to_ : A) (withDeposit : Bool) :
    Except Error (A × Nat × ScarcityState C) := do
  let info ← okOr (s.collections.get collection) Error.unknownCollection
  let definition ← okOr (s.itemDefs.get (collection, item)) Error.unknownItem
  ensure (s.nftsByOwner.containsKey to_ = false) Error.addressOccupied
  let instance_ := s.nextInstanceId
  let nextInstance ← okOr (checkedAdd u64Max instance_ 1) Error.tooManyInstances
  let nextSupply ← okOr (checkedAdd u32Max definition.supply 1) Error.supplyOverflow
  let nextLiveSupply ← okOr (checkedAdd u32Max definition.liveSupply 1) Error.supplyOverflow
  let deposit := s.prices.instanceDeposit.convert (instanceFootprint C to_)
  let (info, bank) ← s.chargeInstance info deposit withDeposit
  return (info.owner, instance_, { s with
    bank := bank
    nextInstanceId := nextInstance
    collections := s.collections.insert collection info
    itemDefs := s.itemDefs.insert (collection, item)
        { definition with
          supply := nextSupply
          liveSupply := nextLiveSupply }
    nftsByOwner := s.nftsByOwner.insert to_
        { instance_ := instance_
          collection := collection
          item := item
          mintedAt := s.now
          lastMoved := s.now
          stateNonce := 0
          moves := 0 }
    instances := s.instances.insert instance_ to_
    instanceMetadataCount := s.instanceMetadataCount.insert instance_ 0
    instanceDeposits :=
      if withDeposit then
        s.instanceDeposits.insert instance_ deposit
      else s.instanceDeposits
    minted := s.minted.insert instance_ (collection, item) })

def doMintInner (s : ScarcityState C) (collection item : Nat) (to_ : A)
    (metadata : List (C.MetadataKey × C.MetadataValue))
    (withDeposit : Bool) : Except Error (ScarcityState C) := do
  ensure (metadata.length ≤ C.maxInstanceMetadata) Error.tooManyInstanceMetadata
  let (owner, instance_, s) ← s.mintBare collection item to_ withDeposit
  metadata.foldlM (fun s pair =>
      s.doSetInstanceMetadata owner instance_ pair.1 (some pair.2) withDeposit)
    s

def doMint (s : ScarcityState C) (owner : A) (collection item : Nat) (to_ : A)
    (metadata : List (C.MetadataKey × C.MetadataValue)) :
    Except Error (ScarcityState C) := do
  let _ ← s.ownedCollection owner collection
  s.doMintInner collection item to_ metadata true

def mintWithoutDeposit (s : ScarcityState C) (collection item : Nat) (to_ : A)
    (metadata : List (C.MetadataKey × C.MetadataValue)) :
    Except Error (ScarcityState C) := do
  ensure (s.collections.containsKey collection = true) Error.unknownCollection
  s.doMintInner collection item to_ metadata false

--
-- Moves and Burns
--

def transferabilityOf (s : ScarcityState C) (nft : Nft) : Option Transferability :=
  (s.itemDefs.get (nft.collection, nft.item)).map (·.transferability)

def ensureTransferable (s : ScarcityState C) (nft : Nft) : Except Error Unit := do
  let transferability ← okOr (s.transferabilityOf nft) Error.unknownItem
  ensure (transferability = .transferable) Error.soulbound

/- An instance is put into an empty purse. -/
def settleAt (s : ScarcityState C) (to_ : A) (nft : Nft) (kind : MoveKind) : ScarcityState C :=
  { s with
    nftsByOwner := s.nftsByOwner.insert to_ nft
    instances := s.instances.insert nft.instance_ to_
    moved := (nft.instance_, kind) :: s.moved }

/- A purse is emptied, and its lock goes, too. -/
def leave (s : ScarcityState C) (purse : A) : ScarcityState C :=
  { s with
    nftsByOwner := s.nftsByOwner.remove purse
    locked := s.locked.remove purse }

/- The instance was already taken out of the purse. -/
def transfer (s : ScarcityState C) (owner : A) (nft : Nft)
    (to_ : A) : Except Error (ScarcityState C) := do
  ensure (to_ ≠ owner) Error.selfTransfer
  ensure (s.nftsByOwner.containsKey to_ = false) Error.addressOccupied
  s.ensureTransferable nft
  let stateNonce ← okOr (checkedAdd u64Max nft.stateNonce 1) Error.stateNonceOverflow
  return s.settleAt to_
    { nft with
      lastMoved := s.now
      stateNonce := stateNonce
      moves := saturatingAdd 65535 nft.moves 1 }
    .feeless

def doBurn (s : ScarcityState C) (nft : Nft) : Except Error (ScarcityState C) := do
  let deposit ← okOr (checkedTotal C.balanceMax (s.instanceDeposits.getD nft.instance_ 0)
        ((s.instanceMetadata.entriesAt nft.instance_).map fun e => e.2.deposit))
      Error.overflow
  let definition ← okOr (s.itemDefs.get (nft.collection, nft.item)) Error.unknownItem
  ensure (1 ≤ definition.liveSupply) Error.underflow
  let info ← okOr (s.collections.get nft.collection) Error.unknownCollection
  let (info, bank) ← decreaseOwnerDeposit C s.bank info deposit
  return { s with
    bank := bank
    collections := s.collections.insert nft.collection info
    itemDefs := s.itemDefs.insert (nft.collection, nft.item)
        { definition with
          liveSupply := definition.liveSupply - 1 }
    instances := s.instances.remove nft.instance_
    instanceMetadataCount := s.instanceMetadataCount.remove nft.instance_
    instanceDeposits := s.instanceDeposits.remove nft.instance_
    instanceMetadata := s.instanceMetadata.drainPrefix nft.instance_ }

def doForceBurn (s : ScarcityState C) (owner : A)
    (instance_ : Nat) : Except Error (ScarcityState C) := do
  let (purse, nft) ← s.heldInstance instance_
  let _ ← s.ownedCollection owner nft.collection
  (s.leave purse).doBurn nft

def doForceTransfer (s : ScarcityState C) (owner : A) (instance_ : Nat)
    (to_ : A) : Except Error (ScarcityState C) := do
  let (purse, nft) ← s.heldInstance instance_
  let _ ← s.ownedCollection owner nft.collection
  ensure (to_ ≠ purse) Error.selfTransfer
  ensure (s.nftsByOwner.containsKey to_ = false) Error.addressOccupied
  let stateNonce ← okOr (checkedAdd u64Max nft.stateNonce 1) Error.stateNonceOverflow
  return (s.leave purse).settleAt to_
    { nft with
      lastMoved := s.now
      stateNonce := stateNonce
      moves := 0 }
    .forced

def doTransferByHolder (s : ScarcityState C) (holder : A) (instance_ : Nat)
    (to_ : A) : Except Error (ScarcityState C) := do
  let nft ← okOr (s.nftsByOwner.get holder) Error.unknownInstance
  ensure (nft.instance_ = instance_) Error.unknownInstance
  ensure (to_ ≠ holder) Error.selfTransfer
  ensure (s.nftsByOwner.containsKey to_ = false) Error.addressOccupied
  s.ensureTransferable nft
  let stateNonce ← okOr (checkedAdd u64Max nft.stateNonce 1) Error.stateNonceOverflow
  return (s.leave holder).settleAt to_
    { nft with
      lastMoved := s.now
      stateNonce := stateNonce
      moves := 0 }
    .paid

end ScarcityState

--
-- Calls
--

/- Who a call is dispatched for. -/
inductive Origin (A : Type) where
  | none_
  | signed (who : A)
  | nft (owner : A) (nft : Nft)

inductive Call (C : Config A B T) where
  | createCollection
  | defineItem
      (collection : Nat)
      (transferability : Transferability)
      (metadata : List (C.MetadataKey × C.MetadataValue))
  | mint (collection item : Nat) (to_ : A) (metadata : List (C.MetadataKey × C.MetadataValue))
  | transfer (to_ : A)
  | burn
  | nominateCollectionOwner
      (collection : Nat)
      (pendingOwner : Option A)
  | setCollectionMetadata (collection : Nat) (key : C.MetadataKey) (value : Option C.MetadataValue)
  | setItemMetadata
      (collection item : Nat)
      (key : C.MetadataKey)
      (value : Option C.MetadataValue)
  | claimCollectionOwnership (collection : Nat)
  | setInstanceMetadata
      (instance_ : Nat)
      (key : C.MetadataKey)
      (value : Option C.MetadataValue)
  | forceBurn (instance_ : Nat)
  | deleteItem (collection item : Nat)
  | deleteCollection (collection : Nat)
  | forceTransfer (instance_ : Nat) (to_ : A)
  | transferByHolder (instance_ : Nat) (to_ : A)

def Origin.ensureSigned (origin : Origin A) : Except Error A :=
  match origin with
  | .signed who => .ok who
  | _ => .error Error.badOrigin

def Origin.ensureNft (origin : Origin A) :
    Except Error (A × Nft) :=
  match origin with
  | .nft owner held => .ok (owner, held)
  | _ => .error Error.badOrigin

namespace ScarcityState

variable [DecidableEq A]

def callBySigner (s : ScarcityState C) (who : A) : Call C → Except Error (ScarcityState C)
  | .createCollection => s.doCreateCollection who
  | .defineItem collection transferability metadata =>
    s.doDefineItem who collection transferability metadata
  | .mint collection item to_ metadata =>
    s.doMint who collection item to_ metadata
  | .transfer _ => .error Error.badOrigin
  | .burn => .error Error.badOrigin
  | .nominateCollectionOwner collection pendingOwner =>
    s.nominateCollectionOwner who collection pendingOwner
  | .setCollectionMetadata collection key value =>
    s.doSetCollectionMetadata who collection key value
  | .setItemMetadata collection item key value =>
    s.doSetItemMetadata who collection item key value
  | .claimCollectionOwnership collection =>
    s.claimCollectionOwnership who collection
  | .setInstanceMetadata instance_ key value =>
    s.doSetInstanceMetadata who instance_ key value true
  | .forceBurn instance_ => s.doForceBurn who instance_
  | .deleteItem collection item =>
    s.doDeleteItem who collection item
  | .deleteCollection collection =>
    s.doDeleteCollection who collection
  | .forceTransfer instance_ to_ =>
    s.doForceTransfer who instance_ to_
  | .transferByHolder instance_ to_ =>
    s.doTransferByHolder who instance_ to_

/- The purse calls need an instance as their origin, and all others a signer. -/
def dispatch (s : ScarcityState C) (origin : Origin A)
    (call : Call C) : Except Error (ScarcityState C) :=
  match call with
  | .transfer to_ => do
    let (owner, nft) ← origin.ensureNft
    s.transfer owner nft to_
  | .burn => do
    let (_, nft) ← origin.ensureNft
    s.doBurn nft
  | call => do
    let who ← origin.ensureSigned
    s.callBySigner who call

end ScarcityState

--
-- The Extension
--

/- The instance and the state that a signer authorizes. -/
structure AsNft where
  instance_ : Nat
  stateNonce : Nat
  deriving DecidableEq, Repr

/-
  A transaction with the authorization in its extension.  Other
  filters of the runtime may keep the call from its dispatch.
-/
structure Transaction (C : Config A B T) where
  signer : Option A
  authorization : Option AsNft
  call : Call C
  admitted : Bool

/- What validation hands to preparation. -/
inductive Val (A : Type) where
  | notUsing
  | usingNft (owner : A) (instance_ stateNonce : Nat)

def Transaction.origin (tx : Transaction C) : Origin A :=
  match tx.signer with
  | some who => .signed who
  | none => .none_

/- The transfer or burn of an authorized transaction. -/
def Call.transferTo : Call C → Option (Option A)
  | .transfer to_ => some (some to_)
  | .burn => some none
  | _ => none

namespace ScarcityState

variable [DecidableEq A]

/- What is checked for the destination of a transfer. -/
def validateTransfer (s : ScarcityState C) (owner : A) (nft : Nft)
    (to_ : A) : Except CustomInvalidity Unit := do
  ensure (to_ ≠ owner) CustomInvalidity.transferToSelf
  ensure (s.nftsByOwner.containsKey to_ = false) CustomInvalidity.destinationOccupied
  let transferability ← okOr (s.transferabilityOf nft) CustomInvalidity.unknownItem
  ensure (transferability = .transferable) CustomInvalidity.soulbound
  ensure (nft.moves < C.maximumMoves) CustomInvalidity.movesExhausted

/- The lock of a purse is over. -/
def Unlocked (s : ScarcityState C) (purse : A) : Prop :=
  ∀ lock, s.locked.get purse = some lock → lock.until_ ≤ s.now

instance (s : ScarcityState C) (purse : A) :
    Decidable (s.Unlocked purse) :=
  decidable_of_iff ((s.locked.get purse).all fun lock =>
      decide (lock.until_ ≤ s.now)) (by
    unfold Unlocked
    cases s.locked.get purse <;> simp)

/- The purse of a signer holds what was authorized. -/
def validateNft (s : ScarcityState C) (authorization : AsNft)
    (owner : A) : Except CustomInvalidity Nft := do
  ensure (s.Unlocked owner) CustomInvalidity.nftTemporarilyLocked
  let nft ← okOr (s.nftsByOwner.get owner) CustomInvalidity.noNft
  ensure (nft.instance_ = authorization.instance_ ∧ nft.stateNonce = authorization.stateNonce)
    CustomInvalidity.nftStateMismatch
  return nft

/- Only a transfer has a destination. -/
def validateDestination (s : ScarcityState C) (owner : A)
    (nft : Nft) : Option A → Except CustomInvalidity Unit
  | some to_ => s.validateTransfer owner nft to_
  | none => .ok ()

def validate (s : ScarcityState C) (tx : Transaction C) : Except CustomInvalidity (Val A) :=
  match tx.call.transferTo, tx.authorization with
  | some transferTo, some authorization => do
    let owner ← okOr tx.signer CustomInvalidity.originToAsNftMustBeSigned
    let nft ← s.validateNft authorization owner
    s.validateDestination owner nft transferTo
    return .usingNft owner authorization.instance_ authorization.stateNonce
  | _, _ => .ok .notUsing

/- The instance leaves its purse before the dispatch. -/
def prepare (s : ScarcityState C) (owner : A) (instance_ stateNonce : Nat) :
    Except CustomInvalidity (Nft × ScarcityState C) := do
  let nft ← okOr (s.nftsByOwner.get owner) CustomInvalidity.noNft
  ensure (nft.instance_ = instance_ ∧ nft.stateNonce = stateNonce) CustomInvalidity.nftStateMismatch
  return (nft, { s with
    nftsByOwner := s.nftsByOwner.remove owner
    dispatched := (instance_, stateNonce) :: s.dispatched })

def failedDispatchLock (s : ScarcityState C) (previous : Option LockInfo) : LockInfo :=
  let retries :=
    match previous with
    | some lock => saturatingAdd u8Max lock.retries 1
    | none => 1
  let multiplier := min (2 ^ min (retries - 1) 63) u64Max
  { retries := retries
    until_ := saturatingAdd u64Max s.now (saturatingMul u64Max multiplier C.lockPeriod) }

/- A failed dispatch restores the instance behind a lock. -/
def postDispatch (prepared : ScarcityState C) (owner : A) (nft : Nft)
    (result : Except Error (ScarcityState C)) :
    ScarcityState C :=
  match result with
  | .ok s => { s with locked := s.locked.remove owner }
  | .error _ =>
    { prepared with
      nftsByOwner := prepared.nftsByOwner.insert owner
          { nft with
            stateNonce := saturatingAdd u64Max nft.stateNonce 1 }
      locked := prepared.locked.insert owner (prepared.failedDispatchLock
          (prepared.locked.get owner)) }

/- Calls that another filter rejects are not dispatched. -/
def dispatchAdmitted (s : ScarcityState C) (origin : Origin A)
    (tx : Transaction C) : Except Error (ScarcityState C) := do
  ensure (tx.admitted = true) Error.callFiltered
  s.dispatch origin tx.call

end ScarcityState

--
-- Steps
--

/- Why a step of the chain does not happen. -/
inductive Refusal where
  | invalid (reason : CustomInvalidity)
  | failed (error : Error)

def invalid {α : Type} : Except CustomInvalidity α →
    Except Refusal α
  | .ok a => .ok a
  | .error reason => .error (.invalid reason)

def failed {α : Type} : Except Error α → Except Refusal α
  | .ok a => .ok a
  | .error error => .error (.failed error)

/-
  The steps of a chain with the pallet: transactions, mints by another pallet of the runtime, the
  clock, new prices, and new balances.
-/
inductive Op (C : Config A B T) where
  | transaction (tx : Transaction C)
  | mintWithoutDeposit
      (collection item : Nat)
      (to_ : A)
      (metadata : List (C.MetadataKey × C.MetadataValue))
  | setTime (millis : Nat)
  | setPrices (prices : Prices C.balanceMax)
  | setBank (bank : B)

namespace ScarcityState

variable [DecidableEq A]

/- An authorized transaction, from its preparation on. -/
def performAsNft (s : ScarcityState C) (tx : Transaction C) (owner : A)
    (instance_ stateNonce : Nat) :
    Except Refusal (ScarcityState C) := do
  let (nft, prepared) ← invalid (s.prepare owner instance_ stateNonce)
  return prepared.postDispatch owner nft (prepared.dispatchAdmitted (.nft owner nft) tx)

def perform (s : ScarcityState C) :
    Op C → Except Refusal (ScarcityState C)
  | .transaction tx => do
    match ← invalid (s.validate tx) with
    | .notUsing => failed (s.dispatchAdmitted tx.origin tx)
    | .usingNft owner instance_ stateNonce =>
      s.performAsNft tx owner instance_ stateNonce
  | .mintWithoutDeposit collection item to_ metadata =>
    failed (s.mintWithoutDeposit collection item to_ metadata)
  | .setTime millis => do
    failed (ensure (millis ≤ u64Max ∧ s.now ≤ millis / 1000) Error.clockOutOfRange)
    return { s with now := millis / 1000 }
  | .setPrices prices => .ok { s with prices := prices }
  | .setBank bank => .ok { s with bank := bank }

end ScarcityState

section Runs

variable [DecidableEq A]

/- New balances do not touch what is on hold for the pallet. -/
def Allowed (s : ScarcityState C) (op : Op C) (_ : ScarcityState C) : Prop :=
  ∀ bank, op = .setBank bank → ∀ owner, C.held bank owner = C.held s.bank owner

/- A run of the chain from its genesis. -/
abbrev Run (prices : Prices C.balanceMax) (bank : B) (s : ScarcityState C) : Prop :=
  RunUnder ScarcityState.perform Allowed (ScarcityState.genesis C prices bank) s

end Runs

end Individuality.Scarcity
