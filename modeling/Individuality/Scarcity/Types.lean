import Individuality.Base.Entries
import Individuality.Base.Inverse

/-
  The data of the scarcity pallet: collections with their deposits, item definitions, instances in
  purses, and metadata in three scopes.

  Main declaration: `Config`
-/

namespace Individuality.Scarcity

--
-- Configuration
--

/- How many records of how many bytes are priced. -/
structure Footprint where
  count : Nat
  size : Nat
  deriving DecidableEq, Repr

abbrev MetadataBytes (maxLen : Nat) :=
  { bytes : List (BitVec 8) // bytes.length ≤ maxLen }

/-
  The parameters of the pallet.  A ticket of `T` stands for a deposit of an account `A`, and `B` are
  the balances and holds behind the tickets.  `held` is what an account has on hold for this pallet.
-/
structure Config (A B T : Type) where
  maxKeyLen : Nat
  maxValueLen : Nat
  maxCollectionMetadata : Nat
  maxItemMetadata : Nat
  maxInstanceMetadata : Nat
  lockPeriod : Nat
  lockPeriod_pos : 0 < lockPeriod
  maximumMoves : Nat
  maximumMoves_le : maximumMoves ≤ 65535
  balanceMax : Nat
  balanceLen : Nat
  collectionInfoLen : Nat
  itemDefinitionLen : Nat
  accountLen : A → Nat
  metadataPolicy : MetadataBytes maxKeyLen → MetadataBytes maxValueLen → Bool
  newTicket : B → A → Nat → Option (T × B)
  updateTicket : B → T → A → Nat → Option (T × B)
  dropTicket : B → T → A → Option B
  worth : T → Nat
  held : B → A → Nat

namespace Config

variable {A B T : Type}

abbrev MetadataKey (C : Config A B T) :=
  MetadataBytes C.maxKeyLen

abbrev MetadataValue (C : Config A B T) :=
  MetadataBytes C.maxValueLen

end Config

/- A conversion of footprints into balances. -/
structure Converter (balanceMax : Nat) where
  convert : Footprint → Nat
  convert_le : ∀ f, convert f ≤ balanceMax

/- The prices of what is stored. -/
structure Prices (balanceMax : Nat) where
  collectionDeposit : Converter balanceMax
  itemDeposit : Converter balanceMax
  instanceDeposit : Converter balanceMax
  metadataDeposit : Converter balanceMax

--
-- Records
--

section Records

variable {A B T : Type}

/- A stored value and the deposit for it. -/
structure MetadataEntry (C : Config A B T) where
  value : C.MetadataValue
  deposit : Nat

structure CollectionInfo (A T : Type) where
  owner : A
  pendingOwner : Option A
  nextItemIndex : Nat
  itemCount : Nat
  metadataCount : Nat
  collectionDeposit : Nat
  ownerDeposit : Nat
  consideration : T

inductive Transferability where
  | transferable
  | soulbound
  deriving DecidableEq, Repr

structure ItemDefinition where
  supply : Nat
  liveSupply : Nat
  metadataCount : Nat
  deposit : Nat
  transferability : Transferability
  deriving DecidableEq, Repr

structure Nft where
  instance_ : Nat
  collection : Nat
  item : Nat
  mintedAt : Nat
  lastMoved : Nat
  stateNonce : Nat
  moves : Nat
  deriving DecidableEq, Repr

/- The definition that an instance was minted from. -/
def Nft.definition (nft : Nft) : Nat × Nat :=
  (nft.collection, nft.item)

structure LockInfo where
  retries : Nat
  until_ : Nat
  deriving DecidableEq, Repr

/- On whose authority an instance is moved. -/
inductive MoveKind where
  | feeless
  | paid
  | forced
  deriving DecidableEq, Repr

end Records

--
-- State
--

/-
  The storage of the pallet with the time in seconds, the prices, and the balances behind the
  tickets.  The last three fields record the definition of every instance ever minted, the moves of
  every instance, latest first, and what the authorized dispatches named.
-/
structure ScarcityState {A B T : Type} (C : Config A B T) where
  now : Nat
  prices : Prices C.balanceMax
  bank : B
  nextCollectionId : Nat
  collections : StorageMap Nat (CollectionInfo A T)
  itemDefs : DoubleMap Nat Nat ItemDefinition
  collectionMetadata : DoubleMap Nat C.MetadataKey (MetadataEntry C)
  itemMetadata : DoubleMap (Nat × Nat) C.MetadataKey (MetadataEntry C)
  nextInstanceId : Nat
  nftsByOwner : StorageMap A Nft
  instances : StorageMap Nat A
  instanceDeposits : StorageMap Nat Nat
  instanceMetadataCount : StorageMap Nat Nat
  instanceMetadata : DoubleMap Nat C.MetadataKey (MetadataEntry C)
  locked : StorageMap A LockInfo
  minted : StorageMap Nat (Nat × Nat)
  moved : List (Nat × MoveKind)
  dispatched : List (Nat × Nat)

def ScarcityState.genesis {A B T : Type} (C : Config A B T) (prices : Prices C.balanceMax)
    (bank : B) : ScarcityState C where
  now := 0
  prices := prices
  bank := bank
  nextCollectionId := 0
  collections := .empty
  itemDefs := .empty
  collectionMetadata := .empty
  itemMetadata := .empty
  nextInstanceId := 0
  nftsByOwner := .empty
  instances := .empty
  instanceDeposits := .empty
  instanceMetadataCount := .empty
  instanceMetadata := .empty
  locked := .empty
  minted := .empty
  moved := []
  dispatched := []

inductive Error where
  | tooManyCollections
  | unknownCollection
  | noPermission
  | alreadyCollectionOwner
  | notPendingCollectionOwner
  | tooManyItems
  | unknownItem
  | itemInUse
  | itemMetadataNotEmpty
  | collectionItemsNotEmpty
  | collectionMetadataNotEmpty
  | deletionInvariant
  | addressOccupied
  | tooManyInstances
  | supplyOverflow
  | unknownInstance
  | tooManyInstanceMetadata
  | selfTransfer
  | stateNonceOverflow
  | soulbound
  | tooManyCollectionMetadata
  | tooManyItemMetadata
  | overflow
  | underflow
  | badOrigin
  | consideration
  | metadataPolicy
  | callFiltered
  | clockOutOfRange
  deriving DecidableEq, Repr

/- Why a transaction with the extension is not valid. -/
inductive CustomInvalidity where
  | originToAsNftMustBeSigned
  | nftTemporarilyLocked
  | noNft
  | transferToSelf
  | destinationOccupied
  | nftStateMismatch
  | soulbound
  | unknownItem
  | movesExhausted
  deriving DecidableEq, Repr

--
-- Exact Considerations
--

/-
  Tickets hold exactly what they are worth.  Only charging can
  fail: a ticket that is covered can be lowered and dropped.
-/
structure Config.Exact {A B T : Type} (C : Config A B T) : Prop where
  new : ∀ {bank who amount ticket bank'},
      C.newTicket bank who amount = some (ticket, bank') →
        C.worth ticket = amount
          ∧ C.held bank' who = C.held bank who + amount
          ∧ ∀ other, other ≠ who → C.held bank' other = C.held bank other
  update : ∀ {bank ticket who amount ticket' bank'},
      C.updateTicket bank ticket who amount
          = some (ticket', bank') →
        C.worth ticket' = amount
          ∧ C.held bank' who + C.worth ticket = C.held bank who + amount
          ∧ ∀ other, other ≠ who → C.held bank' other = C.held bank other
  drop : ∀ {bank ticket who bank'},
      C.dropTicket bank ticket who = some bank' →
        C.held bank' who + C.worth ticket = C.held bank who
          ∧ ∀ other, other ≠ who → C.held bank' other = C.held bank other
  lowers : ∀ {bank ticket who amount},
      amount ≤ C.worth ticket →
      C.worth ticket ≤ C.held bank who →
        ∃ result, C.updateTicket bank ticket who amount = some result
  drops : ∀ {bank ticket who},
      C.worth ticket ≤ C.held bank who →
        ∃ bank', C.dropTicket bank ticket who = some bank'

end Individuality.Scarcity
