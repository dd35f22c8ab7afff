import Individuality.Resources.Pallet
import Individuality.PeopleMulti.Accounts

/-
  The data of the people-lite pallet: lite people, the aliases
  of their accounts, and the throttle of paid registrations.

  Main declaration: `LiteConsumerRegistrationParams`
-/

namespace Individuality.PeopleLite

open PeopleMulti
  (Bytes32 ContextualAlias RevisedContextualAlias)
open Resources (Username ResourceState)

--
-- Lite People
--

/- How somebody was recognized as a lite person. -/
inductive RecognitionMethod (A : Type) where
  | uniqueDevice (verifier : A)
  | fee

structure LitePersonInfo (M A : Type) where
  ringVrfKey : M
  method : RecognitionMethod A

/- Paid registrations accepted in one throttled period. -/
structure PaidRegistrationWindow where
  period : Nat
  registrations : Nat
  deriving DecidableEq, Repr

/- A request to become a consumer, too.  `G` are signatures of accounts. -/
structure LiteConsumerRegistrationParams (K A G : Type) where
  signature : G
  account : A
  identifierKey : K
  username : Username
  reservedUsername : Option Username

/- What is signed for a registration. -/
inductive Payload (K M A : Type) where
  | registration (candidate : A) (ringVrfKey : M)
  | consumer
      (account verifier : A)
      (identifierKey : K)
      (stem : Username)
      (reservedUsername : Option Username)

/- The digits of a username are not signed. -/
def LiteConsumerRegistrationParams.signingPayload {K M A G : Type}
    (params : LiteConsumerRegistrationParams K A G) (verifier : A) : Payload K M A :=
  .consumer params.account verifier params.identifierKey
    (params.username.take (params.username.idxOf Resources.separator))
    params.reservedUsername

--
-- State
--

/-
  The storage of the pallet, with the keys in the collection of lite people and the sufficient
  references that the pallet holds.  The last field records the period of each paid registration
  that started at the threshold or above it.
-/
structure LiteState (M A : Type) where
  litePeople : StorageMap A (LitePersonInfo M A)
  aliasToAccount : StorageMap ContextualAlias A
  accountToAlias : StorageMap A RevisedContextualAlias
  paidRegistrations : PaidRegistrationWindow
  litePeopleCollectionCreated : Bool
  attestationAllowance : StorageMap A Nat
  collection : StorageMap M Unit
  sufficients : StorageMap A Nat
  paidStarts : List Nat

def LiteState.genesis (M A : Type) : LiteState M A where
  litePeople := .empty
  aliasToAccount := .empty
  accountToAlias := .empty
  paidRegistrations := { period := 0, registrations := 0 }
  litePeopleCollectionCreated := false
  attestationAllowance := .empty
  collection := .empty
  sufficients := .empty
  paidStarts := []

/- The pallet beside the one where consumers are registered. -/
structure World (C : Resources.Config) (K M A : Type) where
  block : Nat
  lite : LiteState M A
  resources : ResourceState C K A

def World.genesis (C : Resources.Config) (K M A : Type) : World C K M A where
  block := 0
  lite := .genesis M A
  resources := .genesis C K A

inductive Error where
  | noAttestationAllowance
  | invalidAttestationSignature
  | invalidProofOfOwnership
  | alreadyRegistered
  | keyAlreadyInUse
  | accountInUse
  | aliasAccountAlreadySet
  | aliasAccountNotSet
  | callBlockOutOfRange
  | invalidAliasContext
  | litePeopleCollectionNotCreated
  | invalidConsumerRegistrationAccount
  | paidRegistrationLimitReached
  | tooManyLitePeople
  | notLitePerson
  | staleAlias
  | invalidProof
  | aliasMismatch
  | noAliasBinding
  | badSigner
  | badOrigin
  | badProof
  | badNonce
  | invalidCall
  | future
  | stale
  | collectionCreated
  | membersRefused
  | transferFailed
  | notExternal
  | clockDecreased
  | resources (e : Resources.Error)
  deriving DecidableEq, Repr

/- The parameters of the pallet, which are of type `u32`. -/
@[ext]
structure Parameters where
  maxLitePeople : Nat
  paidRegistrationThreshold : Nat
  paidRegistrationPeriod : Nat
  paidRegistrationsPerPeriod : Nat
  paidRegistrationsPerPeriod_le : paidRegistrationsPerPeriod ≤ u32Max

/-
  The parameters in force, the collection of lite people, the fee and its payment, the contexts of
  accounts, and the checks of nonces, of signatures and of proofs.
-/
structure Service (K M A G P S : Type) extends Parameters where
  acceptsMembers : M → Bool
  registrationFee : Nat
  transferToPot : A → Nat → Bool
  accountContexts : Bytes32 → Bool
  ringRevision : Nat → Option Nat
  validNonce : A → Nat → Bool
  verifyMembership :
    P → Nat → Nat → Bytes32 → PeopleMulti.Message A → Option Bytes32
  verifySignature : S → Payload K M A → M → Bool
  verifyAccountSignature : G → Payload K M A → A → Bool

end Individuality.PeopleLite
