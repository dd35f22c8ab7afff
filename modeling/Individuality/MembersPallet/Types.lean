import Individuality.Base.Storage
import Individuality.Base.Fallible
import Mathlib.Data.Finset.Basic

/-
  The data model of the members pallet: collections of member
  keys, their rings, and the storage kept for one collection.

  Main declaration: `RingExponent.ringCapacity`
-/

namespace Individuality

--
-- Indices and Identifiers
--

abbrev RingIndex := Nat

abbrev PageIndex := Nat

abbrev RevisionIndex := Nat

/- A collection identifier, 32 bytes. -/
abbrev Identifier := Vector UInt8 32

/- A contextual alias, 32 bytes. -/
abbrev Alias := Vector UInt8 32

/- The context a membership proof is bound to, 32 bytes. -/
abbrev Context := Vector UInt8 32

namespace MembersPallet

--
-- Ring Sizes and Modes
--

inductive RingExponent where
  | r2e9
  | r2e10
  | r2e14
  deriving DecidableEq, Repr

namespace RingExponent

def exponent : RingExponent → Nat
  | r2e9 => 9
  | r2e10 => 10
  | r2e14 => 14

/- The maximum number of members in a ring. -/
def ringCapacity : RingExponent → Nat
  | r2e9 => 255
  | r2e10 => 767
  | r2e14 => 16127

theorem ringCapacity_pos (e : RingExponent) : 0 < e.ringCapacity := by
  cases e <;> decide

theorem ringCapacity_le (e : RingExponent) : e.ringCapacity ≤ 16127 := by
  cases e <;> decide

end RingExponent

inductive RingMode where
  | flexible
  | appendOnly
  deriving DecidableEq, Repr

/- The number of keys of a ring and how many are baked in. -/
structure RingStatus where
  total : Nat := 0
  included : Nat := 0
  immutableSince : Option Nat := none
  deriving DecidableEq, Repr

/-
  Where a member's key is: in a page of the onboarding
  queue, at a position of a ring page, or nowhere.
-/
inductive RingPosition where
  | onboarding (queuePage : PageIndex) (queuedAt : Nat)
  | included
      (ringIndex : RingIndex)
      (ringPage : PageIndex)
      (ringPosition : Nat)
  | suspended
  deriving DecidableEq, Repr

/-
  The mutation mode of the rings: append-only, or mutating with the number of open removal sessions.
-/
inductive RingMembersState where
  | appendOnly
  | mutating (sessions : Nat)
  deriving DecidableEq, Repr

namespace RingMembersState

def isAppendOnly : RingMembersState → Bool
  | appendOnly => true
  | mutating _ => false

def isMutating : RingMembersState → Bool
  | appendOnly => false
  | mutating _ => true

/- The session counter is a `u8`. -/
def startMutationSession :
    RingMembersState → Option RingMembersState
  | appendOnly => some (mutating 1)
  | mutating n => (checkedAdd u8Max n 1).map mutating

def endMutationSession :
    RingMembersState → Option RingMembersState
  | appendOnly => none
  | mutating 1 => some appendOnly
  | mutating n => some (mutating (n - 1))

end RingMembersState

--
-- Failures
--

inductive Error where
  | notMember
  | noRoot
  | invalidProof
  | tooManyMembers
  | keyAlreadyInUse
  | keyNotFound
  | couldNotPush
  | invalidRing
  | suspensionsPending
  | ringAboveMergeThreshold
  | invalidSuspensions
  | noRemovalSession
  | couldNotStartRemovalSession
  | removalSessionInProgress
  | keyAlreadySuspended
  | invalidOnboardingSize
  | invalidMemberKey
  | collectionNotFound
  | collectionAlreadyExists
  | identifierRetired
  | tooManyCollections
  | invalidRingSizeForFlexible
  | prematureOnboarding
  | collectionMarkedForDeletion
  | notCollectionOwner
  | notOnboarding
  | collectionNotFlexible
  deriving DecidableEq, Repr

/- Why the validation of a transaction refuses it. -/
inductive InvalidTransaction where
  | stale
  | future
  | badProof
  | custom (code : Nat)
  deriving DecidableEq, Repr

/-
  How an operation can fail: with an error of the pallet, an arithmetic overflow, a refusal by the
  validation, or a failed `expect`.
-/
inductive Failure where
  | error (e : Error)
  | overflow
  | invalid (reason : InvalidTransaction)
  | panic
  deriving DecidableEq, Repr

instance : Coe Error Failure := ⟨Failure.error⟩

instance : Coe InvalidTransaction Failure :=
  ⟨Failure.invalid⟩

--
-- Configuration
--

/-
  The types, the ring cryptography and the constants that the pallet is configured with.
  `hashOrder` is the order in which a map keyed by member keys is iterated.  The last fields are
  checked by `integrity_test`.
-/
structure Config where
  Member : Type
  Members : Type
  Intermediate : Type
  Proof : Type
  Signature : Type
  Message : Type
  Account : Type
  Location : Type
  [decEqMember : DecidableEq Member]
  [decEqMembers : DecidableEq Members]
  [decEqAccount : DecidableEq Account]
  [decEqLocation : DecidableEq Location]
  startMembers : RingExponent → Intermediate
  pushMembers : RingExponent → Intermediate → List Member → Option Intermediate
  finishMembers : Intermediate → Members
  isMemberValid : Member → Bool
  verifySignature : Signature → Message → Member → Bool
  validate : RingExponent → Proof → Members → Context → Message → Option Alias
  maxCollections : Nat
  onboardingQueuePageSize : Nat
  maxFlexibleRingExponent : RingExponent
  ringBuildingMemberLimit : Nat
  oldRootRetentionDuration : Nat
  hashOrder : List Member → List Member
  hashOrder_perm : ∀ keys, (hashOrder keys).Perm keys
  onboardingQueuePageSize_pos : 0 < onboardingQueuePageSize
  onboardingQueuePageSize_le : onboardingQueuePageSize ≤ u32Max
  ringBuildingMemberLimit_le :
    ringBuildingMemberLimit ≤ maxFlexibleRingExponent.ringCapacity

attribute [instance] Config.decEqMember
attribute [instance] Config.decEqMembers
attribute [instance] Config.decEqAccount
attribute [instance] Config.decEqLocation

/- The capacity of the largest flexible ring, which is also the size of a page of ring keys. -/
def Config.flexibleRingCapacity (T : Config) : Nat :=
  T.maxFlexibleRingExponent.ringCapacity

theorem Config.flexibleRingCapacity_pos (T : Config) : 0 < T.flexibleRingCapacity :=
  T.maxFlexibleRingExponent.ringCapacity_pos

--
-- Storage of One Collection
--

inductive CollectionOwner (Account Location : Type) where
  | external (location : Location)
  | ofAccount (account : Account)
  deriving DecidableEq, Repr

section Store

variable (T : Config)

abbrev OwnerOf := CollectionOwner T.Account T.Location

structure CollectionInfo where
  owner : OwnerOf T
  mode : RingMode
  ringSize : RingExponent
  selfInclusionDelay : Option Nat

structure RingRoot where
  root : T.Members
  revision : RevisionIndex
  intermediate : T.Intermediate

structure OldRoot where
  root : T.Members
  archivedAt : Nat

/- The operation reported with a changed ring root. -/
inductive RingRootOp where
  | built (revision : RevisionIndex) (root : T.Members)
  | deleted

abbrev RingPage := BoundedVec T.Member T.flexibleRingCapacity

abbrev QueuePage :=
  BoundedVec T.Member T.onboardingQueuePageSize

/-
  Every storage item of the pallet, read at one collection identifier.  The field `rootChanges`
  records the calls of `OnRingRootChange::on_ring_root_change` in order.
-/
structure CollectionStore where
  collection : Option (CollectionInfo T)
  suspendedCollection : Option (CollectionInfo T)
  retired : Bool
  root : StorageMap RingIndex (RingRoot T)
  oldRoots : StorageMap (RingIndex × RevisionIndex) (OldRoot T)
  currentRingIndex : RingIndex
  onboardingSize : Nat
  ringKeys : StorageMap (RingIndex × PageIndex) (RingPage T)
  ringKeysStatus : StorageMap RingIndex RingStatus
  pendingSuspensions : StorageMap RingIndex
      (BoundedVec Nat T.flexibleRingCapacity)
  activeMembers : Nat
  members : StorageMap T.Member RingPosition
  ringsState : RingMembersState
  staleRings : Finset RingIndex
  queueHead : PageIndex
  queueTail : PageIndex
  onboardingQueue : StorageMap PageIndex (QueuePage T)
  ringDeletionQueue : Finset (RingIndex × PageIndex)
  rootChanges : List (RingIndex × RingRootOp T)

end Store

variable {T : Config}

namespace CollectionStore

/- The storage of an identifier that was never used. -/
def empty : CollectionStore T where
  collection := none
  suspendedCollection := none
  retired := false
  root := .empty
  oldRoots := .empty
  currentRingIndex := 0
  onboardingSize := 0
  ringKeys := .empty
  ringKeysStatus := .empty
  pendingSuspensions := .empty
  activeMembers := 0
  members := .empty
  ringsState := .appendOnly
  staleRings := ∅
  queueHead := 0
  queueTail := 0
  onboardingQueue := .empty
  ringDeletionQueue := ∅
  rootChanges := []

def ringPage (s : CollectionStore T) (r : RingIndex) (p : PageIndex) : RingPage T :=
  s.ringKeys.getD (r, p) .empty

/- The keys on a page of a ring. -/
def page (s : CollectionStore T) (r : RingIndex) (p : PageIndex) : List T.Member :=
  (s.ringPage r p).toList

def ringStatus (s : CollectionStore T) (r : RingIndex) : RingStatus :=
  s.ringKeysStatus.getD r {}

/- The positions in a ring that wait for their removal. -/
def pending (s : CollectionStore T) (r : RingIndex) : List Nat :=
  (s.pendingSuspensions.getD r .empty).toList

def queueBlock (s : CollectionStore T) (q : PageIndex) : QueuePage T :=
  s.onboardingQueue.getD q .empty

/- The keys on a page of the onboarding queue. -/
def queuePage (s : CollectionStore T) (q : PageIndex) : List T.Member :=
  (s.queueBlock q).toList

def ringRevision (s : CollectionStore T) (r : RingIndex) : Option RevisionIndex :=
  (s.root.get r).map (·.revision)

/- Call `OnRingRootChange::on_ring_root_change`. -/
def onRingRootChange (s : CollectionStore T) (r : RingIndex)
    (op : RingRootOp T) : CollectionStore T :=
  { s with rootChanges := s.rootChanges ++ [(r, op)] }

end CollectionStore

end MembersPallet

end Individuality
