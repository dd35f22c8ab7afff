import Individuality.PeopleLite.Types

/-
  The calls of the people-lite pallet, its extension, and the
  runs of this pallet and the one for consumers.

  Main declaration: `LiteState.throttlePaidRegistration`
-/

namespace Individuality.PeopleLite

open PeopleMulti
  (Bytes32 ContextualAlias RevisedContextualAlias)
open Resources (Username ResourceState)

def accountSetupBlockTolerance : Nat := 600

namespace LiteState

variable {K M A G P S : Type} [DecidableEq M] [DecidableEq A]

--
-- Registration
--

def incSufficients (s : LiteState M A) (account : A) : LiteState M A :=
  { s with
    sufficients := s.sufficients.insert account (saturatingAdd u32Max
        (s.sufficients.getD account 0) 1) }

def decSufficients (s : LiteState M A) (account : A) : LiteState M A :=
  { s with
    sufficients := s.sufficients.insert account (s.sufficients.getD account 0 - 1) }

/- The number of lite people. -/
def count (s : LiteState M A) : Nat :=
  s.litePeople.keys.length

def insertLitePerson (service : Service K M A G P S) (s : LiteState M A) (candidate : A)
    (info : LitePersonInfo M A) :
    Except Error (LiteState M A) := do
  ensure (s.collection.containsKey info.ringVrfKey = false
      ∧ service.acceptsMembers info.ringVrfKey = true)
    Error.membersRefused
  let inserted : LiteState M A :=
    { s with
      litePeople := s.litePeople.insert candidate info
      collection := s.collection.insert info.ringVrfKey () }
  return inserted.incSufficients candidate

def ensureBelowLitePeopleCap (params : Parameters) (s : LiteState M A) : Except Error Nat := do
  ensure (s.count < params.maxLitePeople) Error.tooManyLitePeople
  return s.count

/- A period of no length disables the throttle. -/
def throttlePaidRegistration (params : Parameters) (s : LiteState M A)
    (now count : Nat) : Except Error (LiteState M A) :=
  if params.paidRegistrationPeriod = 0
      ∨ count < params.paidRegistrationThreshold then
    .ok s
  else do
    let start := now / params.paidRegistrationPeriod
    let period := min start u32Max
    let window :=
      if s.paidRegistrations.period ≠ period then
        { period := period, registrations := 0 }
      else s.paidRegistrations
    ensure (window.registrations < params.paidRegistrationsPerPeriod)
      Error.paidRegistrationLimitReached
    return { s with
      paidRegistrations :=
        { window with
          registrations := saturatingAdd u32Max window.registrations 1 }
      paidStarts := s.paidStarts ++ [start] }

/- What both kinds of registration check first. -/
def ensureNewCandidate (s : LiteState M A) (candidate : A)
    (ringVrfKey : M) : Except Error Unit := do
  ensure (s.litePeople.containsKey candidate = false) Error.alreadyRegistered
  ensure (s.accountToAlias.containsKey candidate = false) Error.accountInUse
  ensure (s.collection.containsKey ringVrfKey = false) Error.keyAlreadyInUse

def ensureLiteCollectionCreated (s : LiteState M A) : Except Error Unit :=
  ensure (s.litePeopleCollectionCreated = true) Error.litePeopleCollectionNotCreated

/- An attestation is used up. -/
def spendAttestation (s : LiteState M A) (verifier : A) : Except Error (LiteState M A) := do
  let allowance := s.attestationAllowance.getD verifier 0
  ensure (1 ≤ allowance) Error.noAttestationAllowance
  let available := allowance - 1
  return { s with
    attestationAllowance :=
      if 0 < available then
        s.attestationAllowance.insert verifier available
      else s.attestationAllowance.remove verifier }

--
-- Aliases of Accounts
--

/- The reference for an alias goes to its new account. -/
def moveReference (s : LiteState M A) (oldAccount : Option A)
    (account : A) : Except Error (LiteState M A) :=
  match oldAccount with
  | none => do
    ensure (s.accountToAlias.containsKey account = false) Error.accountInUse
    return s.incSufficients account
  | some old =>
    if old ≠ account then do
      ensure (s.accountToAlias.containsKey account = false) Error.accountInUse
      let released : LiteState M A :=
        { s.decSufficients old with
          accountToAlias := s.accountToAlias.remove old }
      return released.incSufficients account
    else .ok s

def setAliasAccount (service : Service K M A G P S) (s : LiteState M A) (block : Nat)
    (revCa : RevisedContextualAlias) (account : A)
    (validAtBlock : Nat) : Except Error (LiteState M A) := do
  ensure (validAtBlock ≤ block ∧ block ≤ saturatingAdd u32Max validAtBlock
            accountSetupBlockTolerance)
    Error.callBlockOutOfRange
  ensure (service.accountContexts revCa.ca.context = true) Error.invalidAliasContext
  ensure (s.litePeople.containsKey account = false) Error.alreadyRegistered
  let oldAccount := s.aliasToAccount.get revCa.ca
  let oldRevCa := oldAccount.bind s.accountToAlias.get
  let needsRevision := oldRevCa.any fun old =>
      decide (old.ring ≠ revCa.ring ∨ old.revision < revCa.revision)
  ensure (oldAccount ≠ some account ∨ needsRevision = true) Error.aliasAccountAlreadySet
  let s ← s.moveReference oldAccount account
  return { s with
    accountToAlias := s.accountToAlias.insert account revCa
    aliasToAccount := s.aliasToAccount.insert revCa.ca account }

def unsetAliasAccount (s : LiteState M A)
    (ca : ContextualAlias) : Except Error (LiteState M A) := do
  let account ← okOr (s.aliasToAccount.get ca) Error.aliasAccountNotSet
  let taken : LiteState M A :=
    { s with
      aliasToAccount := s.aliasToAccount.remove ca
      accountToAlias := s.accountToAlias.remove account }
  return taken.decSufficients account

end LiteState

--
-- Calls
--

/- Who a call is dispatched for. -/
inductive Origin (A : Type) where
  | none_
  | signed (who : A)
  | litePerson (who : A)
  | liteAlias (revCa : RevisedContextualAlias)

/- The calls of the pallet, alone or in batches, and others. -/
inductive Call (K M A G S : Type) where
  | attest (candidate : A) (candidateSignature : G) (ringVrfKey : M) (proofOfOwnership : S)
      (consumerRegistration : Option (LiteConsumerRegistrationParams K A G))
  | registerWithFee
      (ringVrfKey : M)
      (proofOfOwnership : S)
      (consumerRegistration : Option (LiteConsumerRegistrationParams K A G))
  | dispatchAsSigner (call : Call K M A G S)
  | setAliasAccount (account : A) (validAtBlock : Nat)
  | unsetAliasAccount
  | registerLitePerson
      (identifierKey : K)
      (username : Username)
      (reservedUsername : Option Username)
  | batchAll (first rest : Call K M A G S)
  | other

/- How the extension finds the lite person or the alias. -/
inductive PeopleLiteAuthData (P : Type) where
  | asLitePerson (nonce : Nat)
  | asLiteAliasWithAccount (nonce : Nat)
  | asLiteAliasWithProof (proof : P) (ringIndex revision : Nat) (context : Bytes32)
  | asLiteAliasWithAccountRevised
      (nonce : Nat)
      (proof : P)
      (ringIndex revision : Nat)
      (context : Bytes32)

structure Transaction (K M A G P S : Type) where
  signer : Option A
  auth : Option (PeopleLiteAuthData P)
  implication : Bytes32
  call : Call K M A G S

/- The origin of a transaction before the extension. -/
def Transaction.origin {K M A G P S : Type} (tx : Transaction K M A G P S) : Origin A :=
  match tx.signer with
  | some who => .signed who
  | none => .none_

namespace World

variable {C : Resources.Config} {K M A G P S R T : Type} [DecidableEq M] [DecidableEq A]

/- Register a consumer with the other pallet. -/
def registerConsumer (w : World C K M A) (account : A) (identifierKey : K) (username : Username)
    (reservedUsername : Option Username) :
    Except Error (World C K M A) :=
  match
    w.resources.registerLiteConsumerInner account identifierKey username reservedUsername with
  | .ok resources => .ok { w with resources := resources }
  | .error e => .error (Error.resources e)

def registerLiteConsumer (service : Service K M A G P S) (w : World C K M A)
    (params : LiteConsumerRegistrationParams K A G)
    (verifier : A) : Except Error (World C K M A) := do
  ensure (service.verifyAccountSignature params.signature
        (params.signingPayload verifier) params.account
      = true)
    Error.invalidAttestationSignature
  w.registerConsumer params.account params.identifierKey params.username params.reservedUsername

def attest (service : Service K M A G P S) (w : World C K M A) (verifier candidate : A)
    (candidateSignature : G) (ringVrfKey : M) (proofOfOwnership : S)
    (consumerRegistration : Option (LiteConsumerRegistrationParams K A G)) :
    Except Error (World C K M A) := do
  w.lite.ensureNewCandidate candidate ringVrfKey
  let spent ← w.lite.spendAttestation verifier
  spent.ensureLiteCollectionCreated
  let _ ← LiteState.ensureBelowLitePeopleCap service.toParameters spent
  ensure (service.verifySignature proofOfOwnership (.registration candidate ringVrfKey) ringVrfKey
      = true)
    Error.invalidProofOfOwnership
  ensure (service.verifyAccountSignature candidateSignature
        (.registration candidate ringVrfKey) candidate
      = true)
    Error.invalidAttestationSignature
  let lite ← LiteState.insertLitePerson service spent candidate
      { ringVrfKey := ringVrfKey
        method := .uniqueDevice verifier }
  let attested : World C K M A := { w with lite := lite }
  match consumerRegistration with
  | none => return attested
  | some params =>
    attested.registerLiteConsumer service params verifier

def registerWithFee (service : Service K M A G P S) (w : World C K M A) (candidate : A)
    (ringVrfKey : M) (proofOfOwnership : S)
    (consumerRegistration : Option (LiteConsumerRegistrationParams K A G)) :
    Except Error (World C K M A) := do
  w.lite.ensureNewCandidate candidate ringVrfKey
  ensure (consumerRegistration.all (fun params => decide (params.account = candidate))
      = true)
    Error.invalidConsumerRegistrationAccount
  w.lite.ensureLiteCollectionCreated
  let count ← LiteState.ensureBelowLitePeopleCap service.toParameters w.lite
  let throttled ← LiteState.throttlePaidRegistration service.toParameters w.lite
      w.resources.now count
  ensure (service.verifySignature proofOfOwnership (.registration candidate ringVrfKey) ringVrfKey
      = true)
    Error.invalidProofOfOwnership
  ensure (service.transferToPot candidate service.registrationFee = true) Error.transferFailed
  let lite ← LiteState.insertLitePerson service throttled candidate
      { ringVrfKey := ringVrfKey, method := .fee }
  let registered : World C K M A := { w with lite := lite }
  match consumerRegistration with
  | none => return registered
  | some params =>
    registered.registerLiteConsumer service params candidate

/- Dispatch a call for an origin. -/
def dispatchCall (service : Service K M A G P S) :
    World C K M A → Origin A → Call K M A G S → Except Error (World C K M A)
  | w, .signed verifier, .attest candidate candidateSignature
      ringVrfKey proofOfOwnership consumerRegistration =>
      w.attest service verifier candidate candidateSignature
        ringVrfKey proofOfOwnership consumerRegistration
  | w, .signed candidate, .registerWithFee ringVrfKey
      proofOfOwnership consumerRegistration =>
      w.registerWithFee service candidate ringVrfKey proofOfOwnership consumerRegistration
  | w, .litePerson who, .dispatchAsSigner call =>
    dispatchCall service w (.signed who) call
  | w, .liteAlias revCa, .setAliasAccount account
      validAtBlock => do
      let lite ← w.lite.setAliasAccount service w.block revCa account validAtBlock
      return { w with lite := lite }
  | w, .liteAlias revCa, .unsetAliasAccount => do
    let lite ← w.lite.unsetAliasAccount revCa.ca
    return { w with lite := lite }
  | w, .litePerson who, .registerLitePerson identifierKey
      username reservedUsername =>
      w.registerConsumer who identifierKey username reservedUsername
  | w, origin, .batchAll first rest => do
    let w' ← dispatchCall service w origin first
    dispatchCall service w' origin rest
  | w, _, .other => .ok w
  | _, _, _ => .error Error.badOrigin

--
-- The Extension
--

/- What validation hands over to the preparation. -/
inductive Val (A : Type) where
  | none_
  | asLitePerson (who : A) (nonce : Nat)
  | asLiteAliasWithAccount (who : A) (nonce : Nat)
  | asLiteAliasWithProof
  | asLiteAliasWithAccountRevised (who : A) (nonce : Nat) (revCa : RevisedContextualAlias)

/- The alias that a proof of membership shows. -/
def provenAlias (service : Service K M A G P S) (proof : P) (ringIndex revision : Nat)
    (context : Bytes32) (message : PeopleMulti.Message A)
    (e : Error) : Except Error RevisedContextualAlias := do
  let alias_ ← okOr (service.verifyMembership proof ringIndex revision context message) e
  return (
    { revision := revision
      ring := ringIndex
      ca := { alias_ := alias_, context := context } })

/- Check a transaction, and find the origin of its call. -/
def validate (service : Service K M A G P S) (w : World C K M A) (tx : Transaction K M A G P S) :
    Except Error (Val A × Origin A) :=
  match tx.auth, tx.signer with
  | some (.asLitePerson nonce), some who => do
    ensure (w.lite.litePeople.containsKey who = true) Error.notLitePerson
    ensure (service.validNonce who nonce = true) Error.badNonce
    return (.asLitePerson who nonce, .litePerson who)
  | some (.asLiteAliasWithAccount nonce), some who => do
    let revCa ← okOr (w.lite.accountToAlias.get who) Error.noAliasBinding
    let ringRevision ← okOr (service.ringRevision revCa.ring) Error.staleAlias
    ensure (ringRevision = revCa.revision) Error.staleAlias
    ensure (service.validNonce who nonce = true) Error.badNonce
    return (.asLiteAliasWithAccount who nonce, .liteAlias revCa)
  | some (.asLiteAliasWithProof proof ringIndex revision context), none =>
      match tx.call with
      | .setAliasAccount account validAtBlock => do
        ensure (service.accountContexts context = true) Error.invalidCall
        ensure (validAtBlock ≤ w.block) Error.future
        ensure (w.block ≤ saturatingAdd u32Max validAtBlock accountSetupBlockTolerance) Error.stale
        let revCa ← provenAlias service proof ringIndex revision context
            (.implication tx.implication) Error.badProof
        ensure ((w.lite.accountToAlias.get account).any (fun stored => stored.supersedes revCa)
            = false)
          Error.stale
        return (.asLiteAliasWithProof, .liteAlias revCa)
      | _ => .error Error.invalidCall
  | some (.asLiteAliasWithAccountRevised nonce proof ringIndex
      revision context), some who => do
      let oldRevCa ← okOr (w.lite.accountToAlias.get who) Error.noAliasBinding
      ensure (service.accountContexts context = true) Error.invalidCall
      let revCa ← provenAlias service proof ringIndex revision context
          (.revise tx.implication who nonce) Error.invalidProof
      ensure (revCa.ca.alias_ = oldRevCa.ca.alias_ ∧ revCa.ca.context = oldRevCa.ca.context)
        Error.aliasMismatch
      ensure (service.validNonce who nonce = true) Error.badNonce
      return ( (.asLiteAliasWithAccountRevised who nonce revCa, .liteAlias revCa))
  | none, _ => .ok (.none_, tx.origin)
  | _, _ => .error Error.badSigner

/- A new revision is stored before the call. -/
def prepare (w : World C K M A) (val : Val A) : World C K M A :=
  match val with
  | .asLiteAliasWithAccountRevised who _ revCa =>
    { w with
      lite :=
        { w.lite with
          accountToAlias := w.lite.accountToAlias.insert who revCa } }
  | _ => w

/- A failed call leaves what its preparation has stored. -/
def applyTransaction (service : Service K M A G P S) (w : World C K M A)
    (tx : Transaction K M A G P S) :
    Except Error (World C K M A) := do
  let validated ← validate service w tx
  let prepared := w.prepare validated.1
  match dispatchCall service prepared validated.2 tx.call with
  | .ok w' => return w'
  | .error _ => return prepared

end World

--
-- Operations
--

/-
  Transactions, what the manager of attestations and a node may do, the progress of time, and
  operations of the other pallet alone.
-/
inductive Op (K M A G P S R T : Type) where
  | setClock (now block : Nat)
  | increaseAttestationAllowance (account : A) (count : Nat)
  | clearAttestationAllowance (account : A)
  | createLitePeopleCollection
  | transaction (tx : Transaction K M A G P S)
  | resources
      (step : Resources.Service A R T × Resources.Op K A R T)

/- Consumers are registered through the calls above only. -/
def isExternal {K A R T : Type} :
    Resources.Op K A R T → Bool
  | .registerLiteConsumer _ _ _ _ => false
  | .setClock _ => false
  | _ => true

namespace World

variable {C : Resources.Config} {K M A G P S R T : Type} [DecidableEq M] [DecidableEq A]

/- What the other pallet returns, in the world. -/
def withResources (w : World C K M A) (result : Except Resources.Error (ResourceState C K A)) :
    Except Error (World C K M A) :=
  match result with
  | .ok resources => .ok { w with resources := resources }
  | .error e => .error (Error.resources e)

/- One operation, with the service as it finds it. -/
def perform (w : World C K M A) (step : Service K M A G P S × Op K M A G P S R T) :
    Except Error (World C K M A) :=
  match step.2 with
  | .setClock now block => do
    ensure (w.block ≤ block) Error.clockDecreased
    let w' ← w.withResources (w.resources.setClock now)
    return { w' with block := block }
  | .increaseAttestationAllowance account count =>
    .ok { w with
      lite :=
        { w.lite with
          attestationAllowance := w.lite.attestationAllowance.insert account
              (saturatingAdd u32Max (w.lite.attestationAllowance.getD account 0) count) } }
  | .clearAttestationAllowance account =>
    .ok { w with
      lite :=
        { w.lite with
          attestationAllowance := w.lite.attestationAllowance.remove account } }
  | .createLitePeopleCollection => do
    ensure (w.lite.litePeopleCollectionCreated = false) Error.collectionCreated
    return { w with
      lite := { w.lite with litePeopleCollectionCreated := true } }
  | .transaction tx => w.applyTransaction step.1 tx
  | .resources inner => do
    ensure (isExternal inner.2 = true) Error.notExternal
    w.withResources (w.resources.perform inner)

end World

end Individuality.PeopleLite
