import Individuality.PeopleMulti.References
import Individuality.Base.Runs

/-
  The accounts that stand for an alias or for a personal id, and the transaction extension that
  turns the signer of a transaction into the person behind it.

  Main declaration: `RevisedContextualAlias`
-/

namespace Individuality.PeopleMulti

--
-- Aliases
--

/- 32 bytes: an alias or a context. -/
abbrev Bytes32 := BitVec 256

structure ContextualAlias where
  alias_ : Bytes32
  context : Bytes32
  deriving DecidableEq, Repr

structure RevisedContextualAlias where
  revision : Nat
  ring : Nat
  ca : ContextualAlias
  deriving DecidableEq, Repr

/- At least as recent, for the same alias and ring. -/
def RevisedContextualAlias.supersedes (self other : RevisedContextualAlias) : Bool :=
  decide (self.ca = other.ca ∧ self.ring = other.ring ∧ self.revision ≥ other.revision)

/- The registry of people with the maps between aliases and accounts. -/
structure Accounts (M A : Type) where
  people : PeopleState M A
  aliasToAccount : StorageMap ContextualAlias A
  accountToAlias : StorageMap A RevisedContextualAlias

def Accounts.genesis {M A : Type} : Accounts M A where
  people := .genesis
  aliasToAccount := .empty
  accountToAlias := .empty

--
-- Transactions
--

/- What is signed or proven by a transaction. -/
inductive Message (A : Type) where
  | implication (hash : Bytes32)
  | revise (hash : Bytes32) (who : A) (nonce : Nat)

/- How the extension finds the person: `P` are proofs of membership and `S` signatures of a key. -/
inductive AsPersonInfo (P S : Type) where
  | personalAliasWithAccount (nonce : Nat)
  | personalAliasWithProof
      (proof : P)
      (ringIndex revision : Nat)
      (context : Bytes32)
  | personalIdentityWithProof (signature : S) (index : Nat)
  | personalIdentityWithAccount (nonce : Nat)
  | personalAliasWithAccountRevised (nonce : Nat) (proof : P) (ringIndex revision : Nat)
      (context : Bytes32)

/- Who a call is dispatched for. -/
inductive Origin (A : Type) where
  | none_
  | signed (who : A)
  | personalAlias (revCa : RevisedContextualAlias)
  | personalIdentity (id : Nat)
  deriving DecidableEq

/- The calls on accounts, alone or in batches, and others. -/
inductive Call (A : Type) where
  | underAlias (call : Call A)
  | setAliasAccount (account : A) (callValidAt : Nat)
  | unsetAliasAccount
  | setPersonalIdAccount (account : A) (callValidAt : Nat)
  | unsetPersonalIdAccount
  | batchAll (first rest : Call A)
  | other

structure Transaction (A P S : Type) where
  signer : Option A
  info : Option (AsPersonInfo P S)
  implication : Bytes32
  call : Call A

/- The origin of a transaction before the extension. -/
def Transaction.origin {A P S : Type} (tx : Transaction A P S) : Origin A :=
  match tx.signer with
  | some who => .signed who
  | none => .none_

inductive AccountError where
  | badSigner
  | badProof
  | invalidCall
  | future
  | stale
  | badNonce
  | badOrigin
  | invalidContext
  | aliasAccountAlreadySet
  | aliasNotStale
  | aliasMismatch
  | noStaleAliases
  | emptyAliases
  | people (e : Error)
  deriving DecidableEq, Repr

/-
  The chain, with the contexts that accounts may have, the revisions of rings, the checks of nonces,
  and the checks of proofs and signatures.
-/
structure Service (M A P S : Type) extends Chain M A where
  accountContexts : Bytes32 → Bool
  ringRevision : Nat → Option Nat
  validNonce : A → Nat → Bool
  verifyMembership : P → Nat → Nat → Bytes32 → Message A → Option Bytes32
  verifySignature : S → Message A → M → Bool

inductive TransactionSource where
  | inBlock
  | local_
  | external
  deriving DecidableEq, Repr

def maxBulkCleanup : Nat := 100

namespace Accounts

variable {M A P S : Type} [DecidableEq M] [DecidableEq A]

/- A result of the registry, as one of the accounts. -/
def fromPeople {α : Type} (result : Except Error α) :
    Except AccountError α :=
  result.mapError AccountError.people

omit [DecidableEq M] [DecidableEq A] in
@[simp] theorem fromPeople_eq_ok_iff {α : Type} {result : Except Error α} {a : α} :
    fromPeople result = .ok a ↔ result = .ok a := by
  cases result <;> simp [fromPeople, Except.mapError]

/- The chain as the registry sees it beside the aliases. -/
def chainOf (chain : Service M A P S) (w : Accounts M A) : Chain M A :=
  { chain.toChain with
    accountToAlias := fun a => w.accountToAlias.containsKey a }

--
-- Aliases of Accounts
--

/- Forget the alias of an account with its reference. -/
def releaseAccount (w : Accounts M A) (account : A) : Accounts M A :=
  { w with
    people := w.people.decSufficients account
    accountToAlias := w.accountToAlias.remove account }

/- Remove an alias together with its account. -/
def dropAlias (w : Accounts M A) (ca : ContextualAlias) (account : A) : Accounts M A :=
  { w.releaseAccount account with
    aliasToAccount := w.aliasToAccount.remove ca }

/- The reference for an alias goes from its old account to the new one, which may not be in use. -/
def moveReference (w : Accounts M A) (oldAccount : Option A)
    (account : A) : Except AccountError (Accounts M A) :=
  if oldAccount = some account then .ok w
  else do
    ensure (w.accountToAlias.containsKey account = false) (AccountError.people .accountInUse)
    let released :=
      match oldAccount with
      | some old => w.releaseAccount old
      | none => w
    return (
      { released with
        people := released.people.incSufficients account })

def setAliasAccount (chain : Service M A P S) (w : Accounts M A)
    (revCa : RevisedContextualAlias) (account : A) (callValidAt : Nat) :
    Except AccountError (Accounts M A) := do
  ensure (callValidAt ≤ chain.block ∧ chain.block ≤ saturatingAdd u32Max callValidAt
            PeopleState.accountSetupTimeTolerance)
    (AccountError.people .timeOutOfRange)
  ensure (chain.accountContexts revCa.ca.context = true) AccountError.invalidContext
  ensure (w.people.accountToPersonalId.containsKey account = false)
    (AccountError.people .accountInUse)
  let oldAccount := w.aliasToAccount.get revCa.ca
  let oldRevCa := oldAccount.bind w.accountToAlias.get
  let needsRevision := oldRevCa.any fun old =>
      decide (old.ring ≠ revCa.ring ∨ old.revision < revCa.revision)
  ensure (oldAccount ≠ some account ∨ needsRevision = true) AccountError.aliasAccountAlreadySet
  let w' ← w.moveReference oldAccount account
  return (
    { w' with
      accountToAlias := w'.accountToAlias.insert account revCa
      aliasToAccount := w'.aliasToAccount.insert revCa.ca account })

def unsetAliasAccount (w : Accounts M A) (ca : ContextualAlias) :
    Except AccountError (Accounts M A) := do
  let account ← okOr (w.aliasToAccount.get ca) (AccountError.people .invalidAccount)
  return w.dropAlias ca account

def cleanUpAlias (w : Accounts M A) (ca : ContextualAlias) :
    Except AccountError (Accounts M A) := do
  let account ← okOr (w.aliasToAccount.get ca) (AccountError.people .invalidAccount)
  let revCa ← okOr (w.accountToAlias.get account) (AccountError.people .invalidAccount)
  ensure (revCa.ca = ca) AccountError.aliasMismatch
  return w.dropAlias ca account

--
-- Stale Aliases
--

def ensureAliasIsStale (chain : Service M A P S) (revCa : RevisedContextualAlias) :
    Except AccountError Unit :=
  ensure (chain.accountContexts revCa.ca.context = false ∨ chain.ringRevision revCa.ring = none)
    AccountError.aliasNotStale

/- Every alias has its account, and is stale. -/
def authorizeCleanUpStaleAliases
    (chain : Service M A P S) (w : Accounts M A) (source : TransactionSource)
    (aliases : BoundedVec ContextualAlias maxBulkCleanup) :
    Except AccountError Unit := do
  ensure (source = .local_ ∨ source = .inBlock) AccountError.badSigner
  ensure (aliases.isEmpty = false) AccountError.emptyAliases
  aliases.toList.forM fun ca => do
    let account ← okOr (w.aliasToAccount.get ca) (AccountError.people .invalidAccount)
    let revCa ← okOr (w.accountToAlias.get account) (AccountError.people .invalidAccount)
    ensure (revCa.ca = ca) AccountError.aliasMismatch
    ensureAliasIsStale chain revCa

/- Remove an alias, or skip it, and count the removed ones. -/
def cleanUpOne (s : Accounts M A × Nat) (ca : ContextualAlias) : Accounts M A × Nat :=
  match s.1.cleanUpAlias ca with
  | .ok w => (w, s.2 + 1)
  | .error _ => s

def cleanUpStaleAliases (w : Accounts M A) (aliases : BoundedVec ContextualAlias maxBulkCleanup) :
    Except AccountError (Accounts M A) := do
  let cleaned := aliases.toList.foldl cleanUpOne (w, 0)
  ensure (cleaned.2 > 0) AccountError.noStaleAliases
  return cleaned.1

--
-- Calls
--

/- Dispatch a call for an origin. -/
def dispatchCall (chain : Service M A P S) :
    Accounts M A → Origin A → Call A → Except AccountError (Accounts M A)
  | w, .signed account, .underAlias call => do
    let revCa ← okOr (w.accountToAlias.get account) (AccountError.people .invalidAccount)
    ensure (chain.accountContexts revCa.ca.context = true) AccountError.invalidContext
    let ringRevision ← okOr (chain.ringRevision revCa.ring) (AccountError.people .invalidAccount)
    ensure (revCa.revision = ringRevision) AccountError.badOrigin
    dispatchCall chain w (.personalAlias revCa) call
  | w, .personalAlias revCa, .setAliasAccount account
      callValidAt =>
      setAliasAccount chain w revCa account callValidAt
  | w, .personalAlias revCa, .unsetAliasAccount =>
    w.unsetAliasAccount revCa.ca
  | w, .personalIdentity id, .setPersonalIdAccount account
      callValidAt => do
      let people ← fromPeople
          (w.people.setPersonalIdAccount (chainOf chain w) id account callValidAt)
      return { w with people := people }
  | w, .personalIdentity id, .unsetPersonalIdAccount => do
    let people ← fromPeople (w.people.unsetPersonalIdAccount id)
    return { w with people := people }
  | w, origin, .batchAll first rest => do
    let w' ← dispatchCall chain w origin first
    dispatchCall chain w' origin rest
  | w, _, .other => .ok w
  | _, _, _ => .error AccountError.badOrigin

--
-- The Extension
--

/- What validation hands over to the preparation. -/
inductive Val (A : Type) where
  | notUsing
  | usingProof
  | usingAccount (who : A) (nonce : Nat)
  | usingAccountWithRevisionUpdate
      (who : A)
      (nonce : Nat)
      (revCa : RevisedContextualAlias)

/- A call of setup is valid from a block, for some time. -/
def ensureInTime (chain : Service M A P S) (callValidAt : Nat) : Except AccountError Unit := do
  ensure (callValidAt ≤ chain.block) AccountError.future
  ensure (chain.block ≤ saturatingAdd u32Max callValidAt PeopleState.accountSetupTimeTolerance)
    AccountError.stale

/- The alias that a proof of membership shows. -/
def provenAlias (chain : Service M A P S) (proof : P) (ringIndex revision : Nat) (context : Bytes32)
    (message : Message A) :
    Except AccountError RevisedContextualAlias := do
  let alias_ ← okOr (chain.verifyMembership proof ringIndex revision context message)
      AccountError.badProof
  return (
    { revision := revision
      ring := ringIndex
      ca := { alias_ := alias_, context := context } })

/- Check a transaction, and find the origin of its call. -/
def validate (chain : Service M A P S) (w : Accounts M A) (tx : Transaction A P S) :
    Except AccountError (Val A × Origin A) :=
  match tx.info, tx.signer with
  | some (.personalAliasWithAccount nonce), some who => do
    let revCa ← okOr (w.accountToAlias.get who) AccountError.badSigner
    ensure (chain.accountContexts revCa.ca.context = true) AccountError.badSigner
    let ringRevision ← okOr (chain.ringRevision revCa.ring) AccountError.badSigner
    ensure (ringRevision = revCa.revision) AccountError.badSigner
    ensure (chain.validNonce who nonce = true) AccountError.badNonce
    return (.usingAccount who nonce, .personalAlias revCa)
  | some (.personalAliasWithAccountRevised nonce proof ringIndex
      revision context), some who => do
      let oldRevCa ← okOr (w.accountToAlias.get who) AccountError.badSigner
      let revCa ← provenAlias chain proof ringIndex revision context
          (.revise tx.implication who nonce)
      ensure (revCa.ca.alias_ = oldRevCa.ca.alias_) AccountError.badSigner
      ensure (context = oldRevCa.ca.context) AccountError.badSigner
      ensure (chain.accountContexts context = true) AccountError.badSigner
      ensure (chain.validNonce who nonce = true) AccountError.badNonce
      return ( (.usingAccountWithRevisionUpdate who nonce revCa, .personalAlias revCa))
  | some (.personalIdentityWithAccount nonce), some who => do
    let id ← okOr (w.people.accountToPersonalId.get who) AccountError.badSigner
    ensure (chain.validNonce who nonce = true) AccountError.badNonce
    return (.usingAccount who nonce, .personalIdentity id)
  | some (.personalAliasWithProof proof ringIndex revision context), none =>
      match tx.call with
      | .setAliasAccount account callValidAt => do
        ensure (chain.accountContexts context = true) AccountError.invalidCall
        ensureInTime chain callValidAt
        let revCa ← provenAlias chain proof ringIndex revision context (.implication tx.implication)
        ensure ((w.accountToAlias.get account).any (fun stored => stored.supersedes revCa)
            = false)
          AccountError.stale
        return (.usingProof, .personalAlias revCa)
      | _ => .error AccountError.invalidCall
  | some (.personalIdentityWithProof signature index), none =>
    match tx.call with
    | .setPersonalIdAccount account callValidAt => do
      ensureInTime chain callValidAt
      let record ← okOr (w.people.people.get index) AccountError.badSigner
      ensure (chain.verifySignature signature (.implication tx.implication) record.key = true)
        AccountError.badProof
      ensure (record.account ≠ some account) AccountError.stale
      return (.usingProof, .personalIdentity index)
    | _ => .error AccountError.invalidCall
  | none, _ => .ok (.notUsing, tx.origin)
  | _, _ => .error AccountError.badSigner

/- A new revision is stored before the call. -/
def prepare (w : Accounts M A) (val : Val A) : Accounts M A :=
  match val with
  | .usingAccountWithRevisionUpdate who _ revCa =>
    { w with
      accountToAlias := w.accountToAlias.insert who revCa }
  | _ => w

/- A failed call leaves what its preparation has stored. -/
def applyTransaction (chain : Service M A P S) (w : Accounts M A) (tx : Transaction A P S) :
    Except AccountError (Accounts M A) := do
  let validated ← validate chain w tx
  let prepared := w.prepare validated.1
  match dispatchCall chain prepared validated.2 tx.call with
  | .ok w' => return w'
  | .error _ => return prepared

end Accounts

--
-- Operations
--

/-
  Transactions with the extension, calls with an origin from
  elsewhere, clean-ups, and the recognition of people.
-/
inductive AccountOp (M A P S : Type) where
  | transaction (tx : Transaction A P S)
  | direct (origin : Origin A) (call : Call A)
  | cleanUpStaleAliases (source : TransactionSource)
      (aliases : BoundedVec ContextualAlias maxBulkCleanup)
  | cleanUpAlias (ca : ContextualAlias)
  | reserveNewId
  | cancelIdReservation (id : Nat)
  | renewIdReservation (id : Nat)
  | recognizePersonhood (who : Nat) (key : Option M)
  | forceRecognizePersonhood (people : List M)
  | suspendPersonhood (suspensions : List Nat)

/- How many ids an operation reserves. -/
def AccountOp.reservedIds {M A P S : Type} :
    AccountOp M A P S → Nat
  | .reserveNewId => 1
  | .forceRecognizePersonhood people => people.length
  | _ => 0

namespace Accounts

variable {M A P S : Type} [DecidableEq M] [DecidableEq A]

/- An operation of the registry alone. -/
def withPeople (w : Accounts M A) (result : Except Error (PeopleState M A)) :
    Except AccountError (Accounts M A) := do
  let people ← fromPeople result
  return { w with people := people }

/- One operation, with the service as it finds it. -/
def perform (w : Accounts M A) (step : Service M A P S × AccountOp M A P S) :
    Except AccountError (Accounts M A) :=
  match step.2 with
  | .transaction tx => applyTransaction step.1 w tx
  | .direct origin call => dispatchCall step.1 w origin call
  | .cleanUpStaleAliases source aliases => do
    authorizeCleanUpStaleAliases step.1 w source aliases
    w.cleanUpStaleAliases aliases
  | .cleanUpAlias ca => w.cleanUpAlias ca
  | .reserveNewId =>
    .ok { w with people := w.people.reserveNewId.2 }
  | .cancelIdReservation id =>
    w.withPeople (w.people.cancelIdReservation id)
  | .renewIdReservation id =>
    w.withPeople (w.people.renewIdReservation id)
  | .recognizePersonhood who key =>
    w.withPeople (w.people.recognizePersonhood (chainOf step.1 w) who key)
  | .forceRecognizePersonhood people =>
    w.withPeople (w.people.forceRecognizePersonhood (chainOf step.1 w) people)
  | .suspendPersonhood suspensions =>
    w.withPeople (w.people.suspendPersonhood (chainOf step.1 w) suspensions)

end Accounts

end Individuality.PeopleMulti
