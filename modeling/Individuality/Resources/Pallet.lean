import Individuality.Resources.Types
import Individuality.Base.DoubleMap

/-
  The calls of the resources pallet and the transactions with its extension.

  Main declaration: `validateUsername`
-/

namespace Individuality.Resources

open PeopleMulti (Bytes32 TransactionSource)

--
-- Names
--

def isAsciiLowercase (byte : UInt8) : Bool :=
  decide (97 ≤ byte ∧ byte ≤ 122)

def isAsciiDigit (byte : UInt8) : Bool :=
  decide (48 ≤ byte ∧ byte ≤ 57)

/- `.` -/
def separator : UInt8 := 46

/- `-` -/
def hyphen : UInt8 := 45

def minLiteUsernameDigits : Nat := 2

/- Not empty, of `[a-z0-9-]`, without a hyphen at an end. -/
def isDnsLabel (bytes : List UInt8) : Bool :=
  decide (bytes ≠ [] ∧ bytes.head? ≠ some hyphen ∧ bytes.getLast? ≠ some hyphen)
    && bytes.all fun byte =>
      isAsciiLowercase byte || isAsciiDigit byte
        || decide (byte = hyphen)

/- A DNS label, one `.`, and at least two digits. -/
def isLitePersonLabel (bytes : List UInt8) : Bool :=
  let dotIndex := bytes.idxOf separator
  let suffix := bytes.drop (dotIndex + 1)
  decide (minLiteUsernameDigits + 2 ≤ bytes.length ∧ bytes.count separator = 1)
    && isDnsLabel (bytes.take dotIndex)
    && decide (minLiteUsernameDigits ≤ suffix.length)
    && suffix.all isAsciiDigit

def validateUsername (C : Config) (username : Username) (person : Bool) : Except Error Unit :=
  if person then do
    ensure (C.minUsernameLength ≤ username.length) Error.invalidUsername
    ensure (username.all isAsciiLowercase = true) Error.invalidUsername
  else do
    ensure (isLitePersonLabel username = true) Error.invalidUsername
    let separatorIndex ← okOr (username.idxOf? separator) Error.invalidUsername
    ensure (C.minUsernameLength ≤ separatorIndex) Error.invalidUsername
    ensure ((username.take separatorIndex).all isAsciiLowercase = true) Error.invalidUsername

namespace ResourceState

variable {C : Config} {K A P S : Type} [DecidableEq A]

--
-- Allowances
--

/- What the statement store allows an account. -/
def allowance (s : ResourceState C K A) (account : A) : StatementAllowance :=
  s.allowances.getD account .zero

def increaseAllowanceBy (s : ResourceState C K A) (account : A)
    (by_ : StatementAllowance) : ResourceState C K A :=
  { s with
    allowances := s.allowances.insert account ((s.allowance account).add by_) }

def decreaseAllowanceBy (s : ResourceState C K A) (account : A)
    (by_ : StatementAllowance) : ResourceState C K A :=
  { s with
    allowances := s.allowances.insert account ((s.allowance account).saturatingSub by_) }

/- What a person may store beyond a lite person. -/
def personExtra (C : Config) : StatementAllowance :=
  C.personStatementLimit.saturatingSub C.litePersonStatementLimit

--
-- Reservations
--

def pushUsernameReservation (s : ResourceState C K A) (account : A) (username : Username) :
    Except Error (ResourceState C K A) := do
  let queue ← okOr ((s.usernameReservationQueue.getD username .empty).tryPush
        { account := account, joinedAt := s.now })
      Error.queueFull
  return { s with
    usernameReservationQueue := s.usernameReservationQueue.insert username queue
    reservationOf := s.reservationOf.insert account username }

/- An empty queue is not stored. -/
def removeUsernameReservation (s : ResourceState C K A) (username : Username)
    (pos : Nat) : Except Error (ResourceState C K A) := do
  let queue ← okOr (s.usernameReservationQueue.get username) Error.notInQueue
  let entry ← okOr queue.toList[pos]? Error.notInQueue
  let rest := queue.eraseIdx pos
  return { s with
    usernameReservationQueue :=
      if rest.isEmpty then
        s.usernameReservationQueue.remove username
      else s.usernameReservationQueue.insert username rest
    reservationOf := s.reservationOf.remove entry.account }

/- The position of an account in a queue. -/
def positionIn (queue : List (ReservationQueueEntry A)) (account : A) : Option Nat :=
  queue.findIdx? fun e => decide (e.account = account)

def validateReservationExpiry (s : ResourceState C K A) (username : Username)
    (account : A) : Except Error Nat := do
  let queue ← okOr (s.usernameReservationQueue.get username) Error.noReservation
  let pos ← okOr (positionIn queue.toList account) Error.notInQueue
  let entry ← okOr queue.toList[pos]? Error.notInQueue
  ensure (saturatingAdd u64Max entry.joinedAt s.usernameReservationDuration < s.now)
    Error.reservationFresh
  return pos

def removeExpiredUsernameReservation (s : ResourceState C K A) (username : Username)
    (account : A) : Except Error (ResourceState C K A) := do
  let _ ← s.validateReservationExpiry username account
  let queue ← okOr (s.usernameReservationQueue.get username) Error.noReservation
  let pos ← okOr (positionIn queue.toList account) Error.notInQueue
  s.removeUsernameReservation username pos

--
-- Registration
--

/- Join the queue of a name that nobody owns. -/
def reserveUsername (s : ResourceState C K A) (account : A) (username reservedUsername : Username) :
    Except Error (ResourceState C K A) := do
  ensure (reservedUsername ≠ username) Error.invalidUsername
  ensure (s.usernameOwnerOf.containsKey reservedUsername = false) Error.usernameReservationTaken
  ensure (s.reservationOf.containsKey account = false) Error.alreadyHasReservation
  validateUsername C reservedUsername true
  s.pushUsernameReservation account reservedUsername

def registerLiteConsumerInner (s : ResourceState C K A) (account : A) (identifierKey : K)
    (username : Username) (reservedUsername : Option Username) :
    Except Error (ResourceState C K A) := do
  ensure (s.consumers.containsKey account = false) Error.alreadyRegistered
  ensure (s.usernameOwnerOf.containsKey username = false) Error.usernameTaken
  validateUsername C username false
  let s ←
    match reservedUsername with
    | some reserved => s.reserveUsername account username reserved
    | none => pure s
  let registered : ResourceState C K A :=
    { s with
      usernameOwnerOf := s.usernameOwnerOf.insert username account
      consumers := s.consumers.insert account
          { identifierKey := identifierKey
            fullUsername := none
            liteUsername := username
            credibility := .lite }
      sufficients := s.sufficients.insert account (saturatingAdd u32Max
          (s.sufficients.getD account 0) 1) }
  return registered.increaseAllowanceBy account C.litePersonStatementLimit

def registerPersonInner (service : Service A P S) (s : ResourceState C K A) (alias_ : Bytes32)
    (linked : A) (proof : S) (username : Username) :
    Except Error (ResourceState C K A) := do
  ensure (service.verifySignature proof alias_ linked = true) Error.invalidProofOfOwnership
  let info ← okOr (s.consumers.get linked) Error.noLinkedIdentity
  ensure (info.fullUsername = none) Error.alreadyLinked
  let upgraded : ResourceState C K A :=
    { s with
      usernameOwnerOf := s.usernameOwnerOf.insert username linked
      accountOfAlias := s.accountOfAlias.insert alias_ linked
      consumers := s.consumers.insert linked
          { info with
            fullUsername := some username
            credibility := .person alias_ s.now false } }
  return upgraded.increaseAllowanceBy linked (personExtra C)

/- Leave the queue of a reservation, if there is one. -/
def leaveReservation (s : ResourceState C K A) (account : A) : Except Error (ResourceState C K A) :=
  match s.reservationOf.get account with
  | none => .ok s
  | some reservation => do
    let queue ← okOr (s.usernameReservationQueue.get reservation) Error.notInQueue
    let pos ← okOr (positionIn queue.toList account) Error.notInQueue
    s.removeUsernameReservation reservation pos

def registerPersonStandalone (service : Service A P S) (s : ResourceState C K A) (alias_ : Bytes32)
    (linked : A) (proof : S) (username : Username) :
    Except Error (ResourceState C K A) := do
  ensure (s.accountOfAlias.containsKey alias_ = false) Error.alreadyRegistered
  ensure (s.usernameOwnerOf.containsKey username = false) Error.usernameTaken
  ensure (s.usernameReservationQueue.containsKey username = false) Error.usernameTaken
  let s ← s.leaveReservation linked
  validateUsername C username true
  s.registerPersonInner service alias_ linked proof username

/- The front of the queue claims the name for itself. -/
def registerPersonReservation (service : Service A P S) (s : ResourceState C K A) (alias_ : Bytes32)
    (linked : A) (proof : S) (reservedUsername : Username) :
    Except Error (ResourceState C K A) := do
  ensure (s.accountOfAlias.containsKey alias_ = false) Error.alreadyRegistered
  let queue ← okOr (s.usernameReservationQueue.get reservedUsername) Error.noReservation
  let front ← okOr queue.toList.head? Error.noReservation
  ensure (front.account = linked) Error.notReservationHolder
  let cleared : ResourceState C K A :=
    { s with
      reservationOf := (queue.toList.map (·.account)).foldl (·.remove ·) s.reservationOf
      usernameReservationQueue := s.usernameReservationQueue.remove reservedUsername }
  cleared.registerPersonInner service alias_ linked proof reservedUsername

def registerPerson (service : Service A P S) (s : ResourceState C K A) (alias_ : Bytes32)
    (linked : A) (proof : S) :
    PersonalUsernameChoice → Except Error (ResourceState C K A)
  | .standalone username =>
    s.registerPersonStandalone service alias_ linked proof username
  | .reservation reserved =>
    s.registerPersonReservation service alias_ linked proof reserved

--
-- Authorization of People
--

def touchPersonAuthorization (s : ResourceState C K A)
    (alias_ : Bytes32) : Except Error (ResourceState C K A) := do
  let account ← okOr (s.accountOfAlias.get alias_) Error.notRegistered
  let info ← okOr (s.consumers.get account) Error.notRegistered
  match info.credibility with
  | .lite => .error Error.notFullPerson
  | .person _ lastUpdate wasDemoted => do
    ensure (saturatingAdd u64Max lastUpdate C.minPersonAuthUpdateInterval < s.now)
      Error.touchNotReady
    let touched : ResourceState C K A :=
      { s with
        consumers := s.consumers.insert account
            { info with
              credibility := .person alias_ s.now false } }
    return (
      if wasDemoted then
        touched.increaseAllowanceBy account (personExtra C)
      else touched)

def validateDemotion (s : ResourceState C K A) (account : A) : Except Error (ConsumerInfo K) := do
  let info ← okOr (s.consumers.get account) Error.notRegistered
  match info.credibility with
  | .lite => .error Error.notFullPerson
  | .person _ lastUpdate demoted => do
    ensure (saturatingAdd u64Max lastUpdate C.personAuthDuration < s.now) Error.personAuthNotExpired
    ensure (demoted = false) Error.alreadyDemoted
    return info

def demoteAuthExpired (s : ResourceState C K A)
    (account : A) : Except Error (ResourceState C K A) := do
  let info ← s.validateDemotion account
  match info.credibility with
  | .lite => return s
  | .person alias_ lastUpdate _ =>
    let cut := s.decreaseAllowanceBy account (personExtra C)
    return { cut with
      consumers := cut.consumers.insert account
          { info with
            credibility := .person alias_ lastUpdate true } }

def updateIdentifierKey (s : ResourceState C K A) (who : A)
    (identifierKey : K) : Except Error (ResourceState C K A) := do
  let info ← okOr (s.consumers.get who) Error.notRegistered
  return { s with
    consumers := s.consumers.insert who { info with identifierKey := identifierKey } }

--
-- Periods
--

/- The number of the day. -/
def stmtStorePeriodFromTimestamp (nowSecs : Nat) : Nat :=
  min (nowSecs / secondsPerDay) u32Max

/- When the allowances of a day may be revoked. -/
def periodExpiry (params : Parameters) (period : Nat) : Nat :=
  saturatingAdd u64Max (saturatingMul u64Max (saturatingAdd u32Max period 1) secondsPerDay)
    params.stmtStoreGraceWindow

def isStmtStorePeriodClearable (params : Parameters) (s : ResourceState C K A)
    (period : Nat) : Prop :=
  periodExpiry params period < s.now

instance
    (params : Parameters) (s : ResourceState C K A)
    (period : Nat) :
    Decidable (isStmtStorePeriodClearable params s period) :=
  inferInstanceAs (Decidable (_ < _))

/- By the integrity test, notifications are per day, too. -/
def notificationExpirationTime (params : Parameters) (period : Nat) : Nat :=
  periodExpiry params period

/- Cut to a `u32`. -/
def longTermStoragePeriodFromTimestamp (C : Config) (nowSecs : Nat) : Nat :=
  nowSecs / C.longTermStoragePeriodDuration % 2 ^ 32

def isAcceptedLongTermStoragePeriod (s : ResourceState C K A) (period : Nat) : Prop :=
  period = longTermStoragePeriodFromTimestamp C s.now ∨ period =
      longTermStoragePeriodFromTimestamp C (s.now - C.longTermStorageGraceWindow)

instance (s : ResourceState C K A) (period : Nat) :
    Decidable (s.isAcceptedLongTermStoragePeriod period) :=
  inferInstanceAs (Decidable (_ ∨ _))

def isLongTermStoragePeriodClearable (s : ResourceState C K A) (period : Nat) : Prop :=
  saturatingAdd u64Max (saturatingMul u64Max (period + 1) C.longTermStoragePeriodDuration)
      C.longTermStorageGraceWindow
    < s.now

instance (s : ResourceState C K A) (period : Nat) :
    Decidable (s.isLongTermStoragePeriodClearable period) :=
  inferInstanceAs (Decidable (_ < _))

--
-- Notifications
--

def validateNotificationPeriod (s : ResourceState C K A) (period : Nat) : Except Error Unit :=
  ensure (period = stmtStorePeriodFromTimestamp s.now) Error.invalidNotificationPeriod

def validateNotificationSeq (seq limit : Nat) : Except Error Unit :=
  ensure (seq ≤ limit) Error.invalidNotificationSequence

def validateNotificationRegistration (s : ResourceState C K A) (alias_ : Bytes32)
    (account : A) : Except Error Unit := do
  ensure (s.notificationRegistrationByAlias.containsKey alias_ = false)
    Error.notificationRegistrationAlreadyExists
  ensure (s.notificationAliasByAccount.containsKey account = false)
    Error.notificationRegistrationAlreadyExists

def setNotificationStatementAccountForSequence (service : Service A P S) (s : ResourceState C K A)
    (alias_ : Bytes32) (reference : NotificationReference)
    (account : A) : Except Error (ResourceState C K A) := do
  s.validateNotificationPeriod reference.period
  validateNotificationSeq reference.seq service.notificationSlotsPerPeriod
  s.validateNotificationRegistration alias_ account
  let granted := s.increaseAllowanceBy account C.notificationAllowance
  return { granted with
    notificationRegistrationByAlias := granted.notificationRegistrationByAlias.insert alias_
        { accountId := account, reference := reference }
    notificationAliasByAccount := granted.notificationAliasByAccount.insert account alias_ }

def validateClearNotificationSequence (params : Parameters) (s : ResourceState C K A) (account : A)
    (seq : Nat) : Except Error Bytes32 := do
  let alias_ ← okOr (s.notificationAliasByAccount.get account) Error.invalidNotificationSequence
  let registration ← okOr (s.notificationRegistrationByAlias.get alias_)
      Error.invalidNotificationSequence
  ensure (registration.accountId = account) Error.invalidNotificationSequence
  ensure (registration.reference.seq = seq) Error.invalidNotificationSequence
  ensure (notificationExpirationTime params registration.reference.period < s.now)
    Error.notificationRegistrationNotExpired
  return alias_

/- Clean-ups come from a node itself. -/
def ensureLocalSource (source : TransactionSource) : Except Error Unit :=
  ensure (source = .local_ ∨ source = .inBlock) Error.badSigner

def clearExpiredNotificationSequence
    (params : Parameters) (s : ResourceState C K A) (source : TransactionSource) (account : A)
    (seq : Nat) : Except Error (ResourceState C K A) := do
  ensureLocalSource source
  let _ ← s.validateClearNotificationSequence params account seq
  let alias_ ← okOr (s.notificationAliasByAccount.get account) Error.invalidNotificationSequence
  let cleared : ResourceState C K A :=
    { s with
      notificationRegistrationByAlias := s.notificationRegistrationByAlias.remove alias_
      notificationAliasByAccount := s.notificationAliasByAccount.remove account }
  return cleared.decreaseAllowanceBy account C.notificationAllowance

--
-- Statement Store Slots
--

/- Take an allowance back, with its reverse lookup. -/
def revokeSlot (s : ResourceState C K A) (period : Nat) (alias_ : Bytes32)
    (entry : StmtStoreAllowanceEntry A) : ResourceState C K A :=
  let cut := s.decreaseAllowanceBy entry.accountId C.accountsApiAllowance
  { cut with
    stmtStoreAllowanceByAccount := cut.stmtStoreAllowanceByAccount.remove
        (entry.accountId, period, entry.seq, alias_) }

def setStatementStoreAccount (service : Service A P S) (s : ResourceState C K A) (alias_ : Bytes32)
    (period seq : Nat) (target : A) : Except Error (ResourceState C K A) := do
  let s ←
    match s.statementStoreAllowances.get (period, alias_) with
    | none => pure s
    | some existing => do
      ensure (saturatingAdd u64Max existing.since service.stmtStoreReplacementCooldown < s.now)
        Error.stmtStoreReplacementTooEarly
      pure (s.revokeSlot period alias_ existing)
  let granted := s.increaseAllowanceBy target C.accountsApiAllowance
  return { granted with
    statementStoreAllowances := granted.statementStoreAllowances.insert (period, alias_)
        { accountId := target, seq := seq, since := s.now }
    stmtStoreAllowanceByAccount := granted.stmtStoreAllowanceByAccount.insert
        (target, period, seq, alias_) () }

/- The aliases stored under a period, as they are iterated. -/
def aliasesAt {ν : Type} (C : Config) (m : StorageMap (Nat × Bytes32) ν)
    (period : Nat) : List Bytes32 :=
  C.hashOrder ((DoubleMap.entriesAt m period).map Prod.fst)

/- The first entry of a map that is iterated by period. -/
def firstKey {ν : Type} (C : Config) (m : StorageMap (Nat × Bytes32) ν) :
    Option (Nat × Bytes32) := do
  let period ← (m.keys.map Prod.fst).min?
  let alias_ ← (aliasesAt C m period).head?
  return (period, alias_)

/- Drain one entry of a period. -/
def drainSlot (period : Nat) (s : ResourceState C K A) (alias_ : Bytes32) : ResourceState C K A :=
  match s.statementStoreAllowances.get (period, alias_) with
  | none => s
  | some entry =>
    { s.revokeSlot period alias_ entry with
      statementStoreAllowances := s.statementStoreAllowances.remove (period, alias_) }

def clearExpiredStmtStoreAllowances
    (params : Parameters) (s : ResourceState C K A) (source : TransactionSource) (period : Nat)
    (firstEntry : Bytes32) :
    Except Error (ResourceState C K A) := do
  ensureLocalSource source
  ensure (isStmtStorePeriodClearable params s period) Error.invalidExpiredStmtStoreCleanup
  ensure (firstKey C s.statementStoreAllowances = some (period, firstEntry))
    Error.invalidExpiredStmtStoreCleanup
  return ((aliasesAt C s.statementStoreAllowances period).take
      params.stmtStoreCleanupLimit).foldl (drainSlot period) s

--
-- Long-Term Storage
--

/- The alias is spent whether or not the allocation succeeds. -/
def claimLongTermStorage (s : ResourceState C K A) (alias_ : Bytes32)
    (period : Nat) : ResourceState C K A :=
  { s with
    spentLongTermStorageAliases := s.spentLongTermStorageAliases.insert (period, alias_) ()
    storageClaims := s.storageClaims ++ [(period, alias_)] }

def clearExpiredLongTermStorageAliases (params : Parameters) (s : ResourceState C K A)
    (period limit : Nat) :
    Except Error (ResourceState C K A) := do
  ensure (s.isLongTermStoragePeriodClearable period) Error.longTermStoragePeriodNotExpired
  ensure (aliasesAt C s.spentLongTermStorageAliases period ≠ []) Error.nothingToClear
  ensure (limit ≤ params.longTermStorageCleanupLimit) Error.longTermStorageCleanupLimitExceeded
  return { s with
    spentLongTermStorageAliases := (((aliasesAt C s.spentLongTermStorageAliases period).take
          limit).map fun alias_ => (period, alias_)).foldl
        (·.remove ·) s.spentLongTermStorageAliases }

end ResourceState

--
-- Transactions with the Extension
--

/- The proof of a claim, for one of the two collections. -/
inductive AsResourcesInfo (P : Type) where
  | registerNotificationWithProof (proof : P) (ringIndex revision : Nat)
  | registerNotificationForCollection
      (proof : P)
      (ringIndex revision : Nat)
      (collection : MembershipCollection)
  | registerStatementStoreAllowance (proof : P) (ringIndex revision : Nat)
      (collection : MembershipCollection)
  | claimLongTermStorage
      (proof : P)
      (ringIndex revision : Nat)
      (collection : MembershipCollection)

/- The calls that need an origin of the extension. -/
inductive ClaimCall (A : Type) where
  | setNotificationStatementAccountForSequence (reference : NotificationReference) (account : A)
  | setStatementStoreAccount (period seq : Nat) (target : A)
  | claimLongTermStorage (period counter : Nat) (account : A)
  | other

inductive Origin where
  | none_
  | notificationAlias (alias_ : Bytes32)
  | stmtStoreAlias (alias_ : Bytes32)
  | longTermStorageClaim
      (alias_ : Bytes32)
      (collection : MembershipCollection)
  deriving DecidableEq, Repr

/- `signed` tells that the transaction has a signer. -/
structure Transaction (A P : Type) where
  signed : Bool
  info : AsResourcesInfo P
  implication : Bytes32
  call : ClaimCall A

namespace ResourceState

variable {C : Config} {K A P S : Type} [DecidableEq A]

def validateNotification (service : Service A P S) (s : ResourceState C K A) (tx : Transaction A P)
    (proof : P) (ringIndex revision : Nat) (collection : MembershipCollection) :
    Except Error Origin := do
  ensure (tx.signed = false) Error.badSigner
  match tx.call with
  | .setNotificationStatementAccountForSequence reference
      account => do
      s.validateNotificationPeriod reference.period
      validateNotificationSeq reference.seq (match collection with
        | .people => service.notificationSlotsPerPeriod
        | .litePeople => service.liteNotificationSlotsPerPeriod)
      let alias_ ← okOr (service.verifyMembership collection proof ringIndex
            revision (.notification reference) tx.implication)
          Error.badProof
      s.validateNotificationRegistration alias_ account
      return .notificationAlias alias_
  | _ => .error Error.invalidCall

def validateStmtStoreSlot (service : Service A P S) (s : ResourceState C K A) (tx : Transaction A P)
    (proof : P) (ringIndex revision : Nat) (collection : MembershipCollection) :
    Except Error Origin := do
  ensure (tx.signed = false) Error.badSigner
  match tx.call with
  | .setStatementStoreAccount period seq _ => do
    ensure (period = stmtStorePeriodFromTimestamp s.now) Error.invalidStmtStorePeriod
    ensure (seq <
        match collection with
        | .people => service.stmtStoreSlotsPerPeriod
        | .litePeople => service.liteStmtStoreSlotsPerPeriod)
      Error.invalidStmtStoreSequence
    let alias_ ← okOr (service.verifyMembership collection proof ringIndex
          revision (.stmtStoreSlot period seq) tx.implication)
        Error.badProof
    ensure ((s.statementStoreAllowances.get (period, alias_)).all fun existing =>
          decide (saturatingAdd u64Max existing.since service.stmtStoreReplacementCooldown < s.now))
      Error.stmtStoreReplacementTooEarly
    return .stmtStoreAlias alias_
  | _ => .error Error.invalidCall

def validateLongTermStorageClaim
    (service : Service A P S) (s : ResourceState C K A) (tx : Transaction A P)
    (proof : P) (ringIndex revision : Nat) (collection : MembershipCollection) :
    Except Error Origin := do
  ensure (tx.signed = false) Error.badSigner
  match tx.call with
  | .claimLongTermStorage period counter _ => do
    ensure (s.isAcceptedLongTermStoragePeriod period) Error.invalidLongTermStoragePeriod
    ensure (counter < service.longTermStorageClaimsPerPeriod) Error.invalidLongTermStorageCounter
    let alias_ ← okOr (service.verifyMembership collection proof ringIndex
          revision (.longTermStorage period counter)
          tx.implication)
        Error.badProof
    ensure (s.spentLongTermStorageAliases.containsKey (period, alias_) = false)
      Error.longTermStorageAliasAlreadySpent
    return .longTermStorageClaim alias_ collection
  | _ => .error Error.invalidCall

def validateTransaction (service : Service A P S) (s : ResourceState C K A)
    (tx : Transaction A P) : Except Error Origin :=
  match tx.info with
  | .registerNotificationWithProof proof ringIndex revision =>
    validateNotification service s tx proof ringIndex revision .people
  | .registerNotificationForCollection proof ringIndex revision
      collection =>
      validateNotification service s tx proof ringIndex revision collection
  | .registerStatementStoreAllowance proof ringIndex revision
      collection =>
      validateStmtStoreSlot service s tx proof ringIndex revision collection
  | .claimLongTermStorage proof ringIndex revision collection =>
    validateLongTermStorageClaim service s tx proof ringIndex revision collection

/- Each of the calls wants its own origin. -/
def dispatchClaim (service : Service A P S) (s : ResourceState C K A) :
    Origin → ClaimCall A → Except Error (ResourceState C K A)
  | .notificationAlias alias_,
      .setNotificationStatementAccountForSequence reference account =>
      s.setNotificationStatementAccountForSequence service alias_ reference account
  | .stmtStoreAlias alias_,
      .setStatementStoreAccount period seq target =>
      s.setStatementStoreAccount service alias_ period seq target
  | .longTermStorageClaim alias_ _,
      .claimLongTermStorage period _ _ =>
      .ok (s.claimLongTermStorage alias_ period)
  | _, .other => .ok s
  | _, _ => .error Error.badOrigin

/- A call that fails changes nothing. -/
def applyTransaction (service : Service A P S) (s : ResourceState C K A) (tx : Transaction A P) :
    Except Error (ResourceState C K A) := do
  let origin ← validateTransaction service s tx
  match dispatchClaim service s origin tx.call with
  | .ok s' => return s'
  | .error _ => return s

end ResourceState

--
-- Operations
--

/-
  The calls of the pallet, the transactions with its extension and the progress of time.  Lite
  people and people are known by their account and by their alias.
-/
inductive Op (K A P S : Type) where
  | setClock (now : Nat)
  | registerLiteConsumer
      (account : A)
      (identifierKey : K)
      (username : Username)
      (reservedUsername : Option Username)
  | registerPerson (alias_ : Bytes32) (linked : A) (proof : S) (choice : PersonalUsernameChoice)
  | touchPersonAuthorization (alias_ : Bytes32)
  | removeExpiredUsernameReservation (username : Username) (account : A)
  | updateIdentifierKey (who : A) (identifierKey : K)
  | setUsernameReservationDuration (duration : Nat)
  | demoteAuthExpired (account : A)
  | clearExpiredNotificationSequence (source : TransactionSource) (account : A) (seq : Nat)
  | clearExpiredStmtStoreAllowances
      (source : TransactionSource)
      (period : Nat)
      (firstEntry : Bytes32)
  | clearExpiredLongTermStorageAliases (period limit : Nat)
  | transaction (tx : Transaction A P)

namespace ResourceState

variable {C : Config} {K A P S : Type} [DecidableEq A]

/- The clock is a `u64` that does not go back. -/
def setClock (s : ResourceState C K A) (now : Nat) : Except Error (ResourceState C K A) := do
  ensure (s.now ≤ now ∧ now ≤ u64Max) Error.clockDecreased
  return { s with now := now }

/- One operation, with the service as it finds it. -/
def perform (s : ResourceState C K A) (step : Service A P S × Op K A P S) :
    Except Error (ResourceState C K A) :=
  match step.2 with
  | .setClock now => s.setClock now
  | .registerLiteConsumer account identifierKey username
      reservedUsername =>
      s.registerLiteConsumerInner account identifierKey username reservedUsername
  | .registerPerson alias_ linked proof choice =>
    s.registerPerson step.1 alias_ linked proof choice
  | .touchPersonAuthorization alias_ =>
    s.touchPersonAuthorization alias_
  | .removeExpiredUsernameReservation username account =>
    s.removeExpiredUsernameReservation username account
  | .updateIdentifierKey who identifierKey =>
    s.updateIdentifierKey who identifierKey
  | .setUsernameReservationDuration duration =>
    .ok { s with usernameReservationDuration := duration }
  | .demoteAuthExpired account => s.demoteAuthExpired account
  | .clearExpiredNotificationSequence source account seq =>
    s.clearExpiredNotificationSequence step.1.toParameters source account seq
  | .clearExpiredStmtStoreAllowances source period firstEntry =>
    s.clearExpiredStmtStoreAllowances step.1.toParameters source period firstEntry
  | .clearExpiredLongTermStorageAliases period limit =>
    s.clearExpiredLongTermStorageAliases step.1.toParameters period limit
  | .transaction tx => s.applyTransaction step.1 tx

end ResourceState

end Individuality.Resources
