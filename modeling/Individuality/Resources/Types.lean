import Individuality.PeopleMulti.Accounts

/-
  The data of the resources pallet: consumers with their names and reservations, and the allowances
  that are claimed with anonymous aliases.

  Main declaration: `StatementAllowance`
-/

namespace Individuality.Resources

open PeopleMulti (Bytes32 TransactionSource)

--
-- Allowances
--

/- How many statements an account may store, and how large. -/
@[ext]
structure StatementAllowance where
  maxCount : Nat
  maxSize : Nat
  deriving DecidableEq, Repr

namespace StatementAllowance

def zero : StatementAllowance :=
  { maxCount := 0, maxSize := 0 }

def add (a b : StatementAllowance) : StatementAllowance :=
  { maxCount := a.maxCount + b.maxCount
    maxSize := a.maxSize + b.maxSize }

def saturatingSub (a b : StatementAllowance) : StatementAllowance :=
  { maxCount := a.maxCount - b.maxCount
    maxSize := a.maxSize - b.maxSize }

/- An allowance, `n` times. -/
def times (n : Nat) (a : StatementAllowance) :
    StatementAllowance :=
  { maxCount := n * a.maxCount
    maxSize := n * a.maxSize }

end StatementAllowance

--
-- Configuration
--

/- The constants of the pallet, and the order in which a map with hashed keys is iterated. -/
structure Config where
  minUsernameLength : Nat
  personAuthDuration : Nat
  minPersonAuthUpdateInterval : Nat
  maxReservationQueueLength : Nat
  accountsApiAllowance : StatementAllowance
  notificationAllowance : StatementAllowance
  litePersonStatementLimit : StatementAllowance
  personStatementLimit : StatementAllowance
  longTermStoragePeriodDuration : Nat
  longTermStorageGraceWindow : Nat
  hashOrder : List Bytes32 → List Bytes32
  hashOrder_perm : ∀ keys, (hashOrder keys).Perm keys
  longTermStoragePeriodDuration_pos : 0 < longTermStoragePeriodDuration
  longTermStoragePeriodDuration_le : longTermStoragePeriodDuration ≤ u32Max
  longTermStorageGraceWindow_lt :
    longTermStorageGraceWindow < longTermStoragePeriodDuration

/-
  The parameters that may change at any time.  The integrity
  test compares the slots of lite people with those of people.
-/
structure Parameters where
  stmtStoreSlotsPerPeriod : Nat
  liteStmtStoreSlotsPerPeriod : Nat
  stmtStoreCleanupLimit : Nat
  stmtStoreReplacementCooldown : Nat
  stmtStoreGraceWindow : Nat
  notificationSlotsPerPeriod : Nat
  liteNotificationSlotsPerPeriod : Nat
  longTermStorageClaimsPerPeriod : Nat
  longTermStorageCleanupLimit : Nat
  liteNotificationSlotsPerPeriod_le :
    liteNotificationSlotsPerPeriod ≤ notificationSlotsPerPeriod

def secondsPerDay : Nat := 86400

--
-- Consumers
--

/- The bytes of a name. -/
abbrev Username := List UInt8

inductive Credibility where
  | lite
  | person (alias_ : Bytes32) (lastUpdate : Nat) (demoted : Bool)
  deriving DecidableEq, Repr

/- `K` are the keys that consumers communicate with. -/
structure ConsumerInfo (K : Type) where
  identifierKey : K
  fullUsername : Option Username
  liteUsername : Username
  credibility : Credibility

inductive PersonalUsernameChoice where
  | standalone (username : Username)
  | reservation (username : Username)

structure ReservationQueueEntry (A : Type) where
  account : A
  joinedAt : Nat
  deriving DecidableEq

--
-- Anonymous Allowances
--

structure NotificationReference where
  period : Nat
  seq : Nat
  deriving DecidableEq, Repr

structure NotificationRegistration (A : Type) where
  accountId : A
  reference : NotificationReference

structure StmtStoreAllowanceEntry (A : Type) where
  accountId : A
  seq : Nat
  since : Nat

inductive MembershipCollection where
  | people
  | litePeople
  deriving DecidableEq, Repr

/- What a proof is made for. -/
inductive Context where
  | notification (reference : NotificationReference)
  | stmtStoreSlot (period seq : Nat)
  | longTermStorage (period counter : Nat)
  deriving DecidableEq, Repr

--
-- State
--

/-
  The storage of the pallet, with the clock in seconds and the statement allowances and sufficient
  references it gave.  The last field records every claim of long-term storage.
-/
structure ResourceState (C : Config) (K A : Type) where
  now : Nat
  consumers : StorageMap A (ConsumerInfo K)
  statementStoreAllowances : StorageMap (Nat × Bytes32) (StmtStoreAllowanceEntry A)
  stmtStoreAllowanceByAccount : StorageMap (A × Nat × Nat × Bytes32) Unit
  notificationRegistrationByAlias : StorageMap Bytes32 (NotificationRegistration A)
  notificationAliasByAccount : StorageMap A Bytes32
  spentLongTermStorageAliases : StorageMap (Nat × Bytes32) Unit
  usernameOwnerOf : StorageMap Username A
  accountOfAlias : StorageMap Bytes32 A
  usernameReservationDuration : Nat
  usernameReservationQueue : StorageMap Username
      (BoundedVec (ReservationQueueEntry A) C.maxReservationQueueLength)
  reservationOf : StorageMap A Username
  allowances : StorageMap A StatementAllowance
  sufficients : StorageMap A Nat
  storageClaims : List (Nat × Bytes32)

def ResourceState.genesis (C : Config) (K A : Type) : ResourceState C K A where
  now := 0
  consumers := .empty
  statementStoreAllowances := .empty
  stmtStoreAllowanceByAccount := .empty
  notificationRegistrationByAlias := .empty
  notificationAliasByAccount := .empty
  spentLongTermStorageAliases := .empty
  usernameOwnerOf := .empty
  accountOfAlias := .empty
  usernameReservationDuration := 0
  usernameReservationQueue := .empty
  reservationOf := .empty
  allowances := .empty
  sufficients := .empty
  storageClaims := []

inductive Error where
  | invalidUsername
  | usernameTaken
  | alreadyRegistered
  | invalidProofOfOwnership
  | notRegistered
  | notFullPerson
  | touchNotReady
  | noReservation
  | notReservationHolder
  | usernameReservationTaken
  | reservationFresh
  | noLinkedIdentity
  | alreadyLinked
  | personAuthNotExpired
  | alreadyDemoted
  | queueFull
  | notInQueue
  | alreadyHasReservation
  | invalidNotificationSequence
  | invalidNotificationPeriod
  | notificationRegistrationNotExpired
  | notificationRegistrationAlreadyExists
  | stmtStoreReplacementTooEarly
  | longTermStorageCleanupLimitExceeded
  | badSigner
  | badOrigin
  | badProof
  | invalidCall
  | invalidStmtStorePeriod
  | invalidStmtStoreSequence
  | invalidExpiredStmtStoreCleanup
  | invalidLongTermStoragePeriod
  | longTermStorageAliasAlreadySpent
  | invalidLongTermStorageCounter
  | longTermStoragePeriodNotExpired
  | nothingToClear
  | clockDecreased
  deriving DecidableEq, Repr

/-
  The parameters in force, and the checks of membership and of
  signatures over the alias of a person.
-/
structure Service (A P S : Type) extends Parameters where
  verifyMembership :
    MembershipCollection → P → Nat → Nat → Context → Bytes32 → Option Bytes32
  verifySignature : S → Bytes32 → A → Bool

end Individuality.Resources
