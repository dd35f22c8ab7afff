import Individuality.PeopleMulti.Accounts

/-
  The alias-accounts pallet: accounts that stand for an alias in a ring, and the sweeps that retire
  them once their revision no longer verifies.

  Main declaration: `AliasAccountInfo`
-/

namespace Individuality.AliasAccounts

open PeopleMulti
  (Bytes32 ContextualAlias RevisedContextualAlias TransactionSource)

--
-- Configuration
--

/- The constants of the pallet, in seconds and items. -/
structure Config where
  proofValidityWindow : Nat
  mappingRetention : Nat
  maxStaleAliasBatch : Nat

/- `pop:polkadot.network/people`, filled up with spaces. -/
def peopleIdentifier : Bytes32 :=
  0x706f703a706f6c6b61646f742e6e6574776f726b2f70656f706c652020202020

/- `pop:polkadot.network/people-lite` -/
def peopleLiteIdentifier : Bytes32 :=
  0x706f703a706f6c6b61646f742e6e6574776f726b2f70656f706c652d6c697465

inductive Error where
  | invalidCollection
  | accountInUse
  | invalidAccount
  | aliasAccountAlreadySet
  | timeOutOfRange
  | aliasFeeUnset
  | reproveMismatch
  | staleRevision
  | badProof
  | burnFailed
  | transactionNotLocal
  | emptyBatch
  | unsortedBatch
  | wrongStaleState
  | timestampDecreased
  deriving DecidableEq, Repr

--
-- State
--

/- What is stored for an account that stands for an alias. -/
structure AliasAccountInfo where
  collection : Bytes32
  revision : Nat
  ring : Nat
  ca : ContextualAlias
  deriving DecidableEq, Repr

def AliasAccountInfo.fromValidated (collection : Bytes32)
    (rca : RevisedContextualAlias) : AliasAccountInfo :=
  { collection := collection
    revision := rca.revision
    ring := rca.ring
    ca := rca.ca }

/-
  The storage of the pallet, with the sufficient references it
  holds and the timestamp of the chain in milliseconds.
-/
structure AliasState (A : Type) where
  timestamp : Nat
  aliasToAccount : StorageMap (Bytes32 × ContextualAlias) A
  accountToAlias : StorageMap A AliasAccountInfo
  staleSince : StorageMap A Nat
  sufficients : StorageMap A Nat

def AliasState.genesis {A : Type} : AliasState A where
  timestamp := 0
  aliasToAccount := .empty
  accountToAlias := .empty
  staleSince := .empty
  sufficients := .empty

/- What a proof is bound to: an account and a time. -/
structure ProofMessage (A : Type) where
  account : A
  proofValidAt : Nat

/- The answers of the member service, the fee, and whether the fee can be burned from an account. -/
structure Service (A P : Type) where
  isRevisionValid : Bytes32 → Nat → Nat → Bool
  verifyMembership :
    Bytes32 → P → Nat → Nat → Bytes32 → ProofMessage A → Option ContextualAlias
  latestRootSourceTime : Bytes32 → Nat → Option Nat
  aliasFee : Option Nat
  burnFrom : A → Nat → Bool

/- Whether the stored revision of a mapping still verifies. -/
def Service.verifies {A P : Type} (chain : Service A P) (info : AliasAccountInfo) : Bool :=
  chain.isRevisionValid info.collection info.ring info.revision

/- Which sweep applies to a mapping. -/
inductive StaleAliasAction where
  | report
  | retire
  | clearReport
  deriving DecidableEq, Repr

namespace AliasState

variable {C : Config} {A P : Type} [LinearOrder A]

/- `UnixTime::now` in seconds. -/
def now (s : AliasState A) : Nat :=
  s.timestamp / 1000

--
-- References of Accounts
--

def incSufficients (s : AliasState A) (account : A) : AliasState A :=
  { s with
    sufficients := s.sufficients.insert account
        (saturatingAdd u32Max (s.sufficients.getD account 0) 1) }

/- An account without references stays without them. -/
def decSufficients (s : AliasState A) (account : A) : AliasState A :=
  { s with
    sufficients := s.sufficients.insert account (s.sufficients.getD account 0 - 1) }

/- Take an account out, with its stamp and its reference. -/
def forgetAccount (s : AliasState A) (account : A) : AliasState A :=
  { s.decSufficients account with
    accountToAlias := s.accountToAlias.remove account
    staleSince := s.staleSince.remove account }

/- Remove both directions of the mapping of an account. -/
def dropMapping (s : AliasState A) (account : A) (info : AliasAccountInfo) : AliasState A :=
  { s.forgetAccount account with
    aliasToAccount := s.aliasToAccount.remove (info.collection, info.ca) }

--
-- Proofs
--

def ensureValidCollection (collection : Bytes32) : Except Error Unit :=
  ensure (collection = peopleLiteIdentifier ∨ collection = peopleIdentifier) Error.invalidCollection

def verifyProof (chain : Service A P) (proof : P) (collection : Bytes32)
    (ringIndex revision : Nat) (context : Bytes32) (message : ProofMessage A) :
    Except Error RevisedContextualAlias := do
  ensureValidCollection collection
  ensure (chain.isRevisionValid collection ringIndex revision = true) Error.staleRevision
  let ca ← okOr (chain.verifyMembership collection proof ringIndex revision context message)
      Error.badProof
  return { revision := revision, ring := ringIndex, ca := ca }

/- A proof is valid from a time on, for some time. -/
def ensureInWindow (C : Config) (s : AliasState A) (proofValidAt : Nat) : Except Error Unit :=
  ensure (proofValidAt ≤ s.now ∧ s.now ≤ saturatingAdd u64Max proofValidAt C.proofValidityWindow)
    Error.timeOutOfRange

--
-- Calls of Accounts
--

def unsetAliasAccount (s : AliasState A) (who : A) : Except Error (AliasState A) := do
  let info ← okOr (s.accountToAlias.get who) Error.invalidAccount
  return s.dropMapping who info

/- Store the mapping of an account, which voids any report of it. -/
def writeMapping (s : AliasState A) (who : A) (info : AliasAccountInfo) : AliasState A :=
  { s with
    accountToAlias := s.accountToAlias.insert who info
    staleSince := s.staleSince.remove who }

/- The alias goes from its old account to a new one. -/
def moveReference (s : AliasState A) (oldAccount : Option A) (who : A) : AliasState A :=
  let released :=
    match oldAccount with
    | some old => s.forgetAccount old
    | none => s
  released.incSufficients who

def setAliasAccount (C : Config) (chain : Service A P) (s : AliasState A) (who : A) (proof : P)
    (collection : Bytes32) (ringIndex ringRevision : Nat) (context : Bytes32)
    (proofValidAt : Nat) : Except Error (AliasState A) := do
  let fee ← okOr chain.aliasFee Error.aliasFeeUnset
  ensureInWindow C s proofValidAt
  let validated ← verifyProof chain proof collection ringIndex ringRevision
      context { account := who, proofValidAt := proofValidAt }
  let info := AliasAccountInfo.fromValidated collection validated
  let oldAccount := s.aliasToAccount.get (collection, info.ca)
  ensure (oldAccount ≠ some who ∨ s.accountToAlias.get who ≠ some info) Error.aliasAccountAlreadySet
  ensure (oldAccount = some who ∨ s.accountToAlias.containsKey who = false) Error.accountInUse
  ensure (chain.burnFrom who fee = true) Error.burnFailed
  let moved :=
    if oldAccount = some who then s
    else s.moveReference oldAccount who
  return { moved.writeMapping who info with
    aliasToAccount := moved.aliasToAccount.insert (collection, info.ca) who }

/- Only the revision and the ring of the mapping change. -/
def reproveAliasAccount (C : Config) (chain : Service A P) (s : AliasState A) (who : A) (proof : P)
    (ringIndex ringRevision : Nat) (proofValidAt : Nat) : Except Error (AliasState A) := do
  ensureInWindow C s proofValidAt
  let old ← okOr (s.accountToAlias.get who) Error.invalidAccount
  let validated ← verifyProof chain proof old.collection ringIndex ringRevision old.ca.context
      { account := who, proofValidAt := proofValidAt }
  ensure (validated.ca.alias_ = old.ca.alias_) Error.reproveMismatch
  ensure (validated.ring ≠ old.ring ∨ old.revision < validated.revision)
    Error.aliasAccountAlreadySet
  return s.writeMapping who
    { collection := old.collection
      revision := validated.revision
      ring := validated.ring
      ca := old.ca }

--
-- Sweeps
--

/- The sweep that applies to the mapping of an account. -/
def staleAliasAction (C : Config) (chain : Service A P) (s : AliasState A)
    (account : A) : Option StaleAliasAction := do
  let info ← s.accountToAlias.get account
  if chain.verifies info then
    if (s.staleSince.get account).isSome then
      some .clearReport
    else none
  else
    match s.staleSince.get account with
    | none => some .report
    | some staleSince =>
      if saturatingAdd u64Max staleSince C.mappingRetention
          ≤ s.now
      then some .retire
      else none

/- The batch is ascending, so it names no account twice. -/
def authorizeSweep (chain : Service A P) (s : AliasState A) (source : TransactionSource)
    (accounts : BoundedVec A C.maxStaleAliasBatch)
    (action : StaleAliasAction) : Except Error Unit := do
  ensure (source = .inBlock ∨ source = .local_) Error.transactionNotLocal
  ensure (accounts.isEmpty = false) Error.emptyBatch
  ensure (accounts.toList.IsChain (· < ·)) Error.unsortedBatch
  ensure (∀ account ∈ accounts.toList, staleAliasAction C chain s account = some action)
    Error.wrongStaleState

/-
  Stamp a mapping with the time of the newest root of its ring
  where it is known, and with the current time otherwise.
-/
def reportOne (chain : Service A P) (s : AliasState A) (account : A) : AliasState A :=
  match s.accountToAlias.get account with
  | none => s
  | some info =>
    let staleSince := (chain.latestRootSourceTime info.collection info.ring
        ).elim s.now fun sourceTime => min sourceTime s.now
    { s with
      staleSince := s.staleSince.insert account staleSince }

def retireOne (s : AliasState A) (account : A) : AliasState A :=
  match s.accountToAlias.get account with
  | none => s
  | some info => s.dropMapping account info

def clearReportOne (s : AliasState A) (account : A) : AliasState A :=
  match s.accountToAlias.get account with
  | none => s
  | some _ =>
    { s with staleSince := s.staleSince.remove account }

/- What a sweep does with one account of its batch. -/
def sweepOne (chain : Service A P) :
    StaleAliasAction → AliasState A → A → AliasState A
  | .report => reportOne chain
  | .retire => retireOne
  | .clearReport => clearReportOne

def sweep (chain : Service A P) (s : AliasState A) (source : TransactionSource)
    (accounts : BoundedVec A C.maxStaleAliasBatch) (action : StaleAliasAction) :
    Except Error (AliasState A) := do
  authorizeSweep chain s source accounts action
  return accounts.toList.foldl (sweepOne chain action) s

def reportStaleAliases (chain : Service A P) (s : AliasState A) (source : TransactionSource)
    (accounts : BoundedVec A C.maxStaleAliasBatch) :
    Except Error (AliasState A) :=
  sweep chain s source accounts .report

def retireStaleAliases (chain : Service A P) (s : AliasState A) (source : TransactionSource)
    (accounts : BoundedVec A C.maxStaleAliasBatch) :
    Except Error (AliasState A) :=
  sweep chain s source accounts .retire

def clearStaleAliasReports (chain : Service A P) (s : AliasState A) (source : TransactionSource)
    (accounts : BoundedVec A C.maxStaleAliasBatch) :
    Except Error (AliasState A) :=
  sweep chain s source accounts .clearReport

/- The timestamp of the chain is a `u64` that only grows. -/
def setTimestamp (s : AliasState A) (moment : Nat) : Except Error (AliasState A) := do
  ensure (s.timestamp ≤ moment ∧ moment ≤ u64Max) Error.timestampDecreased
  return { s with timestamp := moment }

end AliasState

--
-- Operations
--

/- The calls of the pallet, and the progress of time. -/
inductive Op (C : Config) (A P : Type) where
  | setTimestamp (moment : Nat)
  | unsetAliasAccount (who : A)
  | setAliasAccount (who : A) (proof : P) (collection : Bytes32) (ringIndex ringRevision : Nat)
      (context : Bytes32) (proofValidAt : Nat)
  | reproveAliasAccount
      (who : A)
      (proof : P)
      (ringIndex ringRevision : Nat)
      (proofValidAt : Nat)
  | reportStaleAliases (source : TransactionSource) (accounts : BoundedVec A C.maxStaleAliasBatch)
  | retireStaleAliases
      (source : TransactionSource)
      (accounts : BoundedVec A C.maxStaleAliasBatch)
  | clearStaleAliasReports (source : TransactionSource)
      (accounts : BoundedVec A C.maxStaleAliasBatch)

/- One operation, with the service as it finds it. -/
def AliasState.perform {C : Config} {A P : Type} [LinearOrder A] (s : AliasState A)
    (step : Service A P × Op C A P) :
    Except Error (AliasState A) :=
  match step.2 with
  | .setTimestamp moment => s.setTimestamp moment
  | .unsetAliasAccount who => s.unsetAliasAccount who
  | .setAliasAccount who proof collection ringIndex ringRevision
      context proofValidAt =>
      setAliasAccount C step.1 s who proof collection ringIndex ringRevision context proofValidAt
  | .reproveAliasAccount who proof ringIndex ringRevision
      proofValidAt =>
      reproveAliasAccount C step.1 s who proof ringIndex ringRevision proofValidAt
  | .reportStaleAliases source accounts =>
    reportStaleAliases step.1 s source accounts
  | .retireStaleAliases source accounts =>
    retireStaleAliases step.1 s source accounts
  | .clearStaleAliasReports source accounts =>
    clearStaleAliasReports step.1 s source accounts

end Individuality.AliasAccounts
