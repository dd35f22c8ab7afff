import Individuality.Base.DoubleMap
import Individuality.Base.Fallible

/-
  The storage of the airdrop pallet, the fungible assets of its pot, and the chain around it.

  Main declaration: `Status`
-/

namespace Individuality.Airdrop

--
-- Identifiers and Slots
--

/- 32 bytes: an event identifier, an alias, or entropy. -/
abbrev Bytes32 := BitVec 256

abbrev EventId := Bytes32

/- A 256-bit number, stored with its high bytes first. -/
abbrev BigEndianU256 := Fin (2 ^ 256)

def BigEndianU256.ofBytes (bytes : Bytes32) : BigEndianU256 :=
  bytes.toFin

/- A fraction in millionths. -/
structure Permill where
  parts : Nat
  parts_le : parts ≤ 1000000
  deriving DecidableEq, Repr

def Permill.mulFloor (p : Permill) (n : Nat) : Nat :=
  n * p.parts / 1000000

theorem Permill.mulFloor_le (p : Permill) (n : Nat) : p.mulFloor n ≤ n := by
  unfold mulFloor
  have hMul : n * p.parts ≤ n * 1000000 := Nat.mul_le_mul_left n p.parts_le
  omega

--
-- Events
--

def maxProductNameLength : Nat := 32

abbrev ProductName := BoundedVec UInt8 maxProductNameLength

/- Lower-case letters, digits and inner hyphens. -/
def isDnsLabel (bytes : List UInt8) : Bool :=
  bytes.head?.any (· != 45) && bytes.getLast?.any (· != 45)
    && bytes.all fun b => (97 ≤ b && b ≤ 122) || (48 ≤ b && b ≤ 57) || b == 45

def isProductName (name : ProductName) : Bool :=
  isDnsLabel name.toList

structure AirdropPrize (AssetId : Type) where
  assetId : AssetId
  assetAmount : Nat
  maxWinners : Nat
  winnerCap : Permill
  deriving DecidableEq

structure EventInfo (AssetId : Type) where
  productName : ProductName
  prize : AirdropPrize AssetId
  registrationStarts : Nat
  drawTime : Nat
  endTime : Nat

inductive Status where
  | scheduled
  | registering (totalParticipants : Nat)
  | awaitingEntropy (totalParticipants effectiveWinners lastMoment : Nat)
  | drawWinners
      (totalParticipants effectiveWinners winnersAdded : Nat)
      (fromWinnerKey : BigEndianU256)
  | claiming (totalParticipants effectiveWinners claimed : Nat)
  | clearingRegistrations
      (totalParticipants effectiveWinners claimed : Nat)
      (cleanedRegistrations : Nat)
  | clearingWinners (totalParticipants effectiveWinners claimed : Nat) (cleanedWinners : Nat)
  | finalizing (effectiveWinners claimed : Nat)
  deriving DecidableEq

structure ActiveEvent (AccountId AssetId : Type) where
  id : EventId
  info : EventInfo AssetId
  status : Status
  source : Option AccountId

inductive RegistrationEntry (AccountId : Type) where
  | alias_ (value : Bytes32)
  | account (accountId : AccountId)
  deriving DecidableEq

/- The timestamp of the next action on an event. -/
def nextActionScheduledAt {AssetId : Type} (status : Status) (info : EventInfo AssetId) : Nat :=
  match status with
  | .scheduled => info.registrationStarts
  | .registering _ => info.drawTime
  | .awaitingEntropy _ _ _ => info.drawTime
  | .drawWinners _ _ _ _ => info.drawTime
  | .claiming _ _ _ => info.endTime
  | .clearingRegistrations _ _ _ _ => info.endTime
  | .clearingWinners _ _ _ _ => info.endTime
  | .finalizing _ _ => info.endTime

--
-- Configuration
--

/-
  The accounts and assets, the pot, the largest balance, and
  the material of proofs with the state that verifies it.
-/
structure Config where
  AccountId : Type
  AssetId : Type
  Proof : Type
  Signature : Type
  [decEqAccountId : DecidableEq AccountId]
  [decEqAssetId : DecidableEq AssetId]
  airdropPotId : AccountId
  maxBalance : Nat

attribute [instance] Config.decEqAccountId
attribute [instance] Config.decEqAssetId

abbrev Config.Entry (T : Config) : Type :=
  RegistrationEntry T.AccountId

abbrev Config.Event (T : Config) : Type :=
  ActiveEvent T.AccountId T.AssetId

abbrev Config.Info (T : Config) : Type :=
  EventInfo T.AssetId

/- Bounds on the batches of the life cycle. -/
structure Limits where
  clearLimit : Nat
  drawLimit : Nat
  clearLimit_pos : 0 < clearLimit
  drawLimit_pos : 0 < drawLimit
  deriving DecidableEq

/- Where a transaction comes from. -/
inductive TransactionSource where
  | inBlock
  | local_
  | external
  deriving DecidableEq, Repr

/-
  What an operation finds outside of the pallet: the bounds on batches, the time, the randomness
  with its moment, the minimum balances of assets, the transfers and holds that are let through, and
  the verification of participants.
-/
structure Chain (T : Config) where
  limits : Limits
  now : Nat
  randomness : Option (Bytes32 × Nat)
  currentMoment : Nat
  minimumBalance : T.AssetId → Nat
  transferAccepted : T.AssetId → T.AccountId → T.AccountId → Nat → Bool
  holdAccepted : T.AssetId → Nat → Bool
  verifyMembership :
    T.Proof → Nat → Nat → ProductName × EventId → T.Entry → Option Bytes32
  accountIdToPublic : T.AccountId → Option Bytes32
  verifyAndExtractEntropy : Bytes32 → EventId → T.Signature → Option Bytes32

--
-- Storage
--

structure AirdropState (T : Config) where
  events : StorageMap EventId T.Event
  actionSchedule : StorageMap (Nat × EventId) Unit
  registrations : DoubleMap EventId BigEndianU256 T.Entry
  winners : DoubleMap EventId T.Entry BigEndianU256
  eventEntropy : StorageMap EventId BigEndianU256
  supportedAssets : StorageMap T.AssetId Nat

def AirdropState.genesis {T : Config} : AirdropState T where
  events := .empty
  actionSchedule := .empty
  registrations := .empty
  winners := .empty
  eventEntropy := .empty
  supportedAssets := .empty

/- Free balances of all accounts, and what the airdrop reason holds on the pot. -/
structure Funds (T : Config) where
  free : StorageMap (T.AssetId × T.AccountId) Nat
  held : StorageMap T.AssetId Nat

/- A movement of prize funds, recorded for its event. -/
inductive Movement where
  | scheduled (amount : Nat)
  | claimed (amount : Nat)
  | refunded (amount : Nat)
  deriving DecidableEq, Repr

/- A defensive assertion of the source that does not hold. -/
inductive Defensive where
  | iteratorExhausted
  | releaseMatchesPrize
  deriving DecidableEq, Repr

/-
  The pallet with the funds, the history of movements with the
  last one first, and the assertions that failed.
-/
structure World (T : Config) where
  state : AirdropState T
  funds : Funds T
  journal : List (EventId × Movement)
  failures : List Defensive

def World.genesis {T : Config} : World T where
  state := .genesis
  funds := ⟨.empty, .empty⟩
  journal := []
  failures := []

/- Errors of calls, and of transactions that are invalid. -/
inductive Error where
  | prizeBelowMinBalance
  | noWinnersConfigured
  | tooManyWinners
  | invalidEventTimes
  | duplicateEventId
  | noScheduledEvent
  | unknownEvent
  | wrongStatus
  | notAcceptingRegistrations
  | notClaiming
  | claimingWindowClosed
  | entropySlotTaken
  | invalidVrfProof
  | unsupportedAccountKey
  | invalidMembershipProof
  | noSuchWinner
  | participantOverflow
  | prizeAllocationOverflow
  | assetNotEnabled
  | assetAlreadyEnabled
  | entropyNotReady
  | invalidProductName
  | transactionNotLocal
  | notYetDue
  | fungibles
  deriving DecidableEq, Repr

end Individuality.Airdrop
