import Individuality.Base.DoubleMap
import Individuality.Base.Runs
import Individuality.Coinage.Types
import Individuality.MembersPallet.Types

/-
  The recyclers of the coinage pallet: rings of members that each unload once, by an alias.  An
  unload that pays its fee out of its output marks its first alias before the dispatch, and a
  dispatch that fails turns the mark into a lock.

  Main declaration: `Recyclers.markAliasUnloaded`
-/

namespace Individuality.Coinage

--
-- Rings and Aliases
--

/- A recycler collection: an instance and a denomination. -/
abbrev RecyclerCollection := InstanceId × Denomination

structure RecyclerRing where
  instanceId : InstanceId
  value : Denomination
  index : RingIndex
  deriving DecidableEq

def RecyclerRing.collection (ring : RecyclerRing) : RecyclerCollection :=
  (ring.instanceId, ring.value)

/- A lock after a failed dispatch. -/
structure LockInfo where
  retries : Nat
  lockedUntil : Nat
  deriving DecidableEq

inductive AliasState where
  | locked (lock : LockInfo)
  | unloaded
  deriving DecidableEq

structure RingStatus where
  total : Nat
  immutableSince : Option Nat
  deriving DecidableEq

/- What a removed ring leaves for those who did not unload. -/
structure ArchivedRecycler (Hash : Type) where
  commitment : Hash
  remaining : Nat

/-
  The member service with its proofs, the commitments of the
  archives and the constants of the recyclers.
-/
structure RecyclerConfig where
  Outside : Type
  Proof : Type
  Message : Type
  Root : Type
  Hash : Type
  ringStatus : Outside → RecyclerCollection → RingIndex → Option RingStatus
  ringRevision : Outside → RecyclerCollection → RingIndex → Option RevisionIndex
  isRevisionValid : Outside → RecyclerCollection → RingIndex → RevisionIndex → Bool
  ringRoot : Outside → RecyclerCollection → RingIndex → Option Root
  verifyMembership : Outside → RecyclerCollection → Proof → RingIndex →
      RevisionIndex → Message → Option Alias
  verifyMembershipsInRing : Outside → RecyclerCollection → RingIndex →
      RevisionIndex → List (Proof × Message) → Option (List Alias)
  removeRing : Outside → RecyclerCollection → RingIndex → Option Outside
  unloadedAliasesRoot : List Alias → Option Hash
  archiveCommitment : Hash → Root → Hash
  minimumExponentForOutputUnloadFee : Denomination
  recyclerExpirationTime : Nat
  coinFailureLockPeriod : Nat

def dustCleanupBatchSize : Nat := 1000

structure UnloadRecyclerInput where
  value : Denomination
  index : RingIndex
  revision : RevisionIndex
  aliases : List Alias

inductive UnloadFee where
  | prepaid
  | fromOutput
      (feeRecyclerValue : Denomination)
      (feeRecyclerIndex : RingIndex)
  deriving DecidableEq

inductive RecyclerError where
  | proofAndAliasMismatch
  | invalidRecyclerRevision
  | recyclerAlreadyUnloaded
  | aliasTemporarilyLocked
  | invalidAliasProof
  | emptyInputs
  | recyclerMismatch
  | aliasNotPremarked
  | internalError
  | emptyAliasProofs
  | feeCoinBelowMinimum
  | firstCallAliasMismatch
  | invalidTransaction
  | stale
  | future
  deriving DecidableEq, Repr

/-
  The storage of the recyclers, with the clock, the member service and, for the record, how often a
  step went out of step with the count.
-/
structure Recyclers (T : RecyclerConfig) where
  now : Nat
  outside : T.Outside
  aliasStates : DoubleMap RecyclerRing Alias AliasState
  unloadedCounts : StorageMap RecyclerRing Nat
  dusting : StorageMap RecyclerRing Unit
  lastRemovedRingIndex : StorageMap RecyclerCollection RingIndex
  archives : StorageMap RecyclerRing (ArchivedRecycler T.Hash)
  defensives : Nat

namespace Recyclers

variable {T : RecyclerConfig}

def genesis (now : Nat) (outside : T.Outside) :
    Recyclers T where
  now := now
  outside := outside
  aliasStates := .empty
  unloadedCounts := .empty
  dusting := .empty
  lastRemovedRingIndex := .empty
  archives := .empty
  defensives := 0

--
-- Marking
--

def hasAliasStates (s : Recyclers T) (ring : RecyclerRing) : Bool :=
  !(s.aliasStates.entriesAt ring).isEmpty

/- A ring without a state of an alias has had no unload. -/
def unloadedCount (s : Recyclers T) (ring : RecyclerRing) : Option Nat :=
  match s.unloadedCounts.get ring with
  | some count => some count
  | none => if s.hasAliasStates ring then none else some 0

def markAliasUnloaded (s : Recyclers T) (ring : RecyclerRing) (a : Alias) : Recyclers T :=
  -- Read before the write, which makes the ring look used.
  let count := s.unloadedCount ring
  let previous := s.aliasStates.get (ring, a)
  let s :=
    { s with
      aliasStates := s.aliasStates.insert (ring, a) .unloaded }
  match count with
  | some count =>
    if previous ≠ some .unloaded then
      { s with
        unloadedCounts := s.unloadedCounts.insert ring (saturatingAdd u32Max count 1) }
    else s
  | none => s

def markUnloadedAliasLocked (s : Recyclers T) (ring : RecyclerRing) (a : Alias)
    (lock : LockInfo) : Recyclers T :=
  let previous := s.aliasStates.get (ring, a)
  let s :=
    { s with
      aliasStates := s.aliasStates.insert (ring, a) (.locked lock) }
  if previous ≠ some .unloaded then
    { s with defensives := s.defensives + 1 }
  else
    match s.unloadedCounts.get ring with
    | some count =>
      { s with
        unloadedCounts := s.unloadedCounts.insert ring (count - 1) }
    | none => s

--
-- Unloading
--

def validateRecyclerRevision (s : Recyclers T) (ring : RecyclerRing)
    (revision : RevisionIndex) : Bool :=
  match T.ringStatus s.outside ring.collection ring.index with
  | none => false
  | some status =>
    let expired :=
      match status.immutableSince with
      | some immutableSince =>
        decide (saturatingAdd u64Max immutableSince T.recyclerExpirationTime ≤ s.now)
      | none => false
    !expired && (T.ringRevision s.outside ring.collection ring.index).isSome
      && T.isRevisionValid s.outside ring.collection ring.index revision

def ensureAliasAvailable (s : Recyclers T) (ring : RecyclerRing)
    (a : Alias) : Except RecyclerError Unit :=
  match s.aliasStates.get (ring, a) with
  | some .unloaded => .error .recyclerAlreadyUnloaded
  | some (.locked lock) =>
    if s.now < lock.lockedUntil then
      .error .aliasTemporarilyLocked
    else .ok ()
  | none => .ok ()

/- One proof of a batch: its alias is the expected one. -/
def unloadAlias (ring : RecyclerRing) (s : Recyclers T) (proven : Alias × Alias) :
    Except RecyclerError (Recyclers T) := do
  ensure (proven.1 = proven.2) RecyclerError.proofAndAliasMismatch
  s.ensureAliasAvailable ring proven.1
  return s.markAliasUnloaded ring proven.1

def unload (s : Recyclers T) (ring : RecyclerRing) (revision : RevisionIndex)
    (aliases : List Alias) (aliasProofs : List T.Proof) (provenMsg : T.Message) :
    Except RecyclerError (Recyclers T) := do
  ensure (aliases.length = aliasProofs.length) RecyclerError.proofAndAliasMismatch
  ensure (s.validateRecyclerRevision ring revision = true) RecyclerError.invalidRecyclerRevision
  ensure aliases.Nodup RecyclerError.recyclerAlreadyUnloaded
  let results ← okOr (T.verifyMembershipsInRing s.outside ring.collection ring.index revision
        (aliasProofs.map fun proof => (proof, provenMsg)))
      RecyclerError.invalidAliasProof
  ensure (results.length = aliases.length) RecyclerError.proofAndAliasMismatch
  (results.zip aliases).foldlM (unloadAlias ring) s

/- One proof, without marking its alias. -/
def validateAliasProof (s : Recyclers T) (ring : RecyclerRing) (revision : RevisionIndex)
    (aliasProof : T.Proof) (provenMsg : T.Message) : Except RecyclerError Alias := do
  ensure (s.validateRecyclerRevision ring revision = true) RecyclerError.invalidRecyclerRevision
  let a ← okOr (T.verifyMembership s.outside ring.collection aliasProof
        ring.index revision provenMsg)
      RecyclerError.invalidAliasProof
  s.ensureAliasAvailable ring a
  return a

/- One input; its first alias may have been marked before. -/
def unloadInput (s : Recyclers T) (instanceId : InstanceId) (provenMsg : T.Message)
    (input : UnloadRecyclerInput) (currentProofs : List T.Proof) (skipFirst : Bool) :
    Except RecyclerError (Recyclers T) :=
  let ring : RecyclerRing :=
    { instanceId := instanceId
      value := input.value
      index := input.index }
  if skipFirst then
    if 1 < input.aliases.length then
      s.unload ring input.revision (input.aliases.drop 1) (currentProofs.drop 1) provenMsg
    else .ok s
  else
    s.unload ring input.revision input.aliases currentProofs provenMsg

/-
  The proofs lie one after the other in the order of the
  inputs, and only the first input may skip an alias.
-/
def processUnloadInputs (instanceId : InstanceId) (provenMsg : T.Message) :
    Recyclers T → List UnloadRecyclerInput → List T.Proof →
      Bool → Except RecyclerError (Recyclers T)
  | s, [], aliasProofs, _ => do
    ensure (aliasProofs.isEmpty = true) RecyclerError.proofAndAliasMismatch
    return s
  | s, input :: inputs, aliasProofs, skipFirstAlias => do
    let count := input.aliases.length
    ensure (count ≤ aliasProofs.length) RecyclerError.proofAndAliasMismatch
    let s ← s.unloadInput instanceId provenMsg input (aliasProofs.take count) skipFirstAlias
    processUnloadInputs instanceId provenMsg s inputs (aliasProofs.drop count) false

def processUnloadInputsWithFee (s : Recyclers T) (instanceId : InstanceId)
    (inputs : List UnloadRecyclerInput) (aliasProofs : List T.Proof) (provenMsg : T.Message) :
    UnloadFee → Except RecyclerError (Recyclers T)
  | .prepaid =>
    processUnloadInputs instanceId provenMsg s inputs aliasProofs false
  | .fromOutput feeRecyclerValue feeRecyclerIndex => do
    let firstInput ← okOr inputs.head? RecyclerError.emptyInputs
    ensure (firstInput.value = feeRecyclerValue ∧ firstInput.index = feeRecyclerIndex)
      RecyclerError.recyclerMismatch
    let firstAlias ← okOr firstInput.aliases.head? RecyclerError.emptyInputs
    ensure (s.aliasStates.get
        ({ instanceId := instanceId
           value := feeRecyclerValue
           index := feeRecyclerIndex }, firstAlias)
        = some .unloaded)
      RecyclerError.aliasNotPremarked
    processUnloadInputs instanceId provenMsg s inputs aliasProofs true

--
-- Cleaning
--

def nextRingToClean (s : Recyclers T) (collection : RecyclerCollection) : Option RingIndex :=
  match s.lastRemovedRingIndex.get collection with
  | some i => checkedAdd u32Max i 1
  | none => some 0

/- Seconds as the `u32` that the expiry is checked with. -/
def wrapU32 (n : Nat) : Nat := n % (u32Max + 1)

def ensureCanClean (s : Recyclers T) (collection : RecyclerCollection) :
    Except RecyclerError Unit := do
  let nextRing ← okOr (s.nextRingToClean collection) RecyclerError.stale
  let status ← okOr (T.ringStatus s.outside collection nextRing) RecyclerError.future
  let immutableSince ← okOr status.immutableSince RecyclerError.future
  ensure (saturatingAdd u32Max (wrapU32 immutableSince) T.recyclerExpirationTime ≤ wrapU32 s.now)
    RecyclerError.future

/- The aliases of a ring whose stored state is unloaded. -/
def unloadedAliases (s : Recyclers T) (ring : RecyclerRing) : List Alias :=
  ((s.aliasStates.entriesAt ring).filter fun e => e.2 = .unloaded).map Prod.fst

/- The archive of a ring that still holds coins. -/
def archive (s : Recyclers T) (ring : RecyclerRing) (remaining : Nat) :
    Except RecyclerError (StorageMap RecyclerRing (ArchivedRecycler T.Hash)) :=
  if 0 < remaining then do
    let recyclerRoot ← okOr (T.ringRoot s.outside ring.collection ring.index)
        RecyclerError.internalError
    let unloadedRoot ← okOr (T.unloadedAliasesRoot (s.unloadedAliases ring))
        RecyclerError.internalError
    return s.archives.insert ring
      { commitment :=
          T.archiveCommitment unloadedRoot recyclerRoot
        remaining := remaining }
  else .ok s.archives

/- The count that goes does not match what is counted. -/
def countMismatch (s : Recyclers T) (ring : RecyclerRing) : Bool :=
  match s.unloadedCounts.get ring with
  | some counted =>
    decide (counted ≠ (s.unloadedAliases ring).length)
  | none => false

def cleanUnchecked (s : Recyclers T) (collection : RecyclerCollection) :
    Except RecyclerError (Recyclers T) := do
  let nextRing ← okOr (s.nextRingToClean collection) RecyclerError.internalError
  let ring : RecyclerRing :=
    { instanceId := collection.1
      value := collection.2
      index := nextRing }
  let status ← okOr (T.ringStatus s.outside collection nextRing) RecyclerError.internalError
  let remaining := status.total - (s.unloadedAliases ring).length
  let archives ← s.archive ring remaining
  let outside ← okOr (T.removeRing s.outside collection nextRing) RecyclerError.internalError
  return { s with
    outside := outside
    unloadedCounts := s.unloadedCounts.remove ring
    archives := archives
    dusting :=
      if s.hasAliasStates ring then s.dusting.insert ring ()
      else s.dusting
    lastRemovedRingIndex := s.lastRemovedRingIndex.insert collection nextRing
    defensives :=
      if s.countMismatch ring then s.defensives + 1
      else s.defensives }

/- Whichever ring the iteration of the dust finds first. -/
def cleanDustUnchecked (s : Recyclers T) (first : RecyclerRing)
    (backend : DoubleMap.Backend Alias) :
    Except RecyclerError (Recyclers T) := do
  ensure (s.dusting.containsKey first = true) RecyclerError.stale
  let cleared := s.aliasStates.clearPrefix first dustCleanupBatchSize backend
  return { s with
    aliasStates := cleared.1
    dusting :=
      if cleared.2.2 then s.dusting.remove first
      else s.dusting }

end Recyclers

--
-- Transactions
--

/-
  An unload call under an unload token: its inputs and proofs,
  and whether what else it validates and does passes.
-/
structure UnloadCall (T : RecyclerConfig) where
  instanceId : InstanceId
  inputs : List UnloadRecyclerInput
  aliasProofs : List T.Proof
  provenMsg : T.Message
  admitted : Bool
  completes : Bool

/- What pays for an unload out of its output. -/
structure FromOutputToken (T : RecyclerConfig) where
  feeRecyclerValue : Denomination
  feeRecyclerIndex : RingIndex
  feeRecyclerRevision : RevisionIndex
  retryCounter : Nat
  intentMsg : T.Message

inductive RecyclerAction (T : RecyclerConfig) where
  | advance (now : Nat)
  | changeOutside (outside : T.Outside)
  | unloadPrepaid (call : UnloadCall T)
  | unloadFromOutput
      (token : FromOutputToken T)
      (call : UnloadCall T)
  | cleanRecycler (collection : RecyclerCollection)
  | cleanRecyclerDust
      (first : RecyclerRing)
      (backend : DoubleMap.Backend Alias)

namespace Recyclers

variable {T : RecyclerConfig}

def FromOutputToken.ring (token : FromOutputToken T) (call : UnloadCall T) : RecyclerRing where
  instanceId := call.instanceId
  value := token.feeRecyclerValue
  index := token.feeRecyclerIndex

def nextFailedDispatchRetry (previous : LockInfo) : Nat :=
  saturatingAdd u8Max previous.retries 1

def failedDispatchLockWithRetries (s : Recyclers T) (retries : Nat) : LockInfo where
  retries := retries
  lockedUntil := saturatingAdd u64Max s.now
      (saturatingMul u64Max (min (2 ^ retries) u64Max) T.coinFailureLockPeriod)

/- The retry that is next for an alias. -/
def expectedRetryCounter (s : Recyclers T) (ring : RecyclerRing) (a : Alias) : Nat :=
  match s.aliasStates.get (ring, a) with
  | some (.locked lock) => nextFailedDispatchRetry lock
  | _ => 0

def firstAliasInFromOutputUnloadCall (call : UnloadCall T) : Option Alias :=
  match call.inputs with
  | [] => none
  | input :: _ => input.aliases.head?

/- The checks of the extension, which finds the first alias. -/
def validateFromOutput (s : Recyclers T) (token : FromOutputToken T)
    (call : UnloadCall T) : Except RecyclerError Alias := do
  ensure (call.admitted = true) RecyclerError.invalidTransaction
  let firstAliasProof ← okOr call.aliasProofs.head? RecyclerError.emptyAliasProofs
  let ring := FromOutputToken.ring token call
  ensure (s.validateRecyclerRevision ring token.feeRecyclerRevision = true)
    RecyclerError.invalidRecyclerRevision
  ensure (T.minimumExponentForOutputUnloadFee ≤ token.feeRecyclerValue)
    RecyclerError.feeCoinBelowMinimum
  let firstAlias ← s.validateAliasProof ring token.feeRecyclerRevision
      firstAliasProof token.intentMsg
  ensure (token.retryCounter = s.expectedRetryCounter ring firstAlias)
    RecyclerError.aliasTemporarilyLocked
  let callFirstAlias ← okOr (firstAliasInFromOutputUnloadCall call) RecyclerError.invalidTransaction
  ensure (callFirstAlias = firstAlias) RecyclerError.firstCallAliasMismatch
  return firstAlias

/- The unload, and what the call does besides. -/
def dispatchUnload (s : Recyclers T) (call : UnloadCall T) (fee : UnloadFee) :
    Except RecyclerError (Recyclers T) := do
  let s ← s.processUnloadInputsWithFee call.instanceId call.inputs
      call.aliasProofs call.provenMsg fee
  ensure (call.completes = true) RecyclerError.internalError
  return s

/- A dispatch that fails is rolled back to before it. -/
def unloadPrepaid (s : Recyclers T) (call : UnloadCall T) :
    Except RecyclerError (Recyclers T) := do
  ensure (call.admitted = true) RecyclerError.invalidTransaction
  return (s.dispatchUnload call .prepaid).toOption.getD s

/-
  The first alias is marked before the dispatch; when that
  fails, what it did is rolled back and the mark is locked.
-/
def unloadFromOutput (s : Recyclers T) (token : FromOutputToken T) (call : UnloadCall T) :
    Except RecyclerError (Recyclers T) := do
  let firstAlias ← s.validateFromOutput token call
  let ring := FromOutputToken.ring token call
  let s := s.markAliasUnloaded ring firstAlias
  return match
      s.dispatchUnload call (.fromOutput token.feeRecyclerValue token.feeRecyclerIndex) with
    | .ok s => s
    | .error _ =>
      s.markUnloadedAliasLocked ring firstAlias (s.failedDispatchLockWithRetries token.retryCounter)

def cleanRecycler (s : Recyclers T) (collection : RecyclerCollection) :
    Except RecyclerError (Recyclers T) := do
  s.ensureCanClean collection
  s.cleanUnchecked collection

def perform (s : Recyclers T) :
    RecyclerAction T → Except RecyclerError (Recyclers T)
  | .advance now => .ok { s with now := now }
  | .changeOutside outside => .ok { s with outside := outside }
  | .unloadPrepaid call => s.unloadPrepaid call
  | .unloadFromOutput token call => s.unloadFromOutput token call
  | .cleanRecycler collection => s.cleanRecycler collection
  | .cleanRecyclerDust first backend =>
    s.cleanDustUnchecked first backend

end Recyclers

end Individuality.Coinage
