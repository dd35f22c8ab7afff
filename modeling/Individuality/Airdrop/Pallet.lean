import Individuality.Airdrop.Types

/-
  The operations of the airdrop pallet: the life cycle of an event from its schedule to its
  clean-up, participation and claims.

  Main declaration: `Funds.hold`
-/

namespace Individuality.Airdrop

variable {T : Config}

--
-- Fungible Assets
--

inductive Precision where
  | exact
  | bestEffort
  deriving DecidableEq, Repr

namespace Funds

/- What the airdrop reason holds of an asset. -/
def heldOf (f : Funds T) (assetId : T.AssetId) : Nat :=
  f.held.getD assetId 0

def freeOf (f : Funds T) (assetId : T.AssetId) (who : T.AccountId) : Nat :=
  f.free.getD (assetId, who) 0

/- Move free funds of the pot under the hold. -/
def hold (chain : Chain T) (f : Funds T) (assetId : T.AssetId)
    (amount : Nat) : Except Error (Funds T) := do
  ensure (amount ≤ f.freeOf assetId T.airdropPotId ∧ chain.holdAccepted assetId amount = true)
    Error.fungibles
  return (
    { free :=
        f.free.insert (assetId, T.airdropPotId) (f.freeOf assetId T.airdropPotId - amount)
      held := f.held.insert assetId (f.heldOf assetId + amount) })

/- Move held funds back to the free ones of the pot, and return how much was moved. -/
def release (f : Funds T) (assetId : T.AssetId) (amount : Nat) (precision : Precision) :
    Except Error (Nat × Funds T) := do
  let released := min amount (f.heldOf assetId)
  ensure (precision = .bestEffort ∨ released = amount) Error.fungibles
  return ( (released,
      { free :=
          f.free.insert (assetId, T.airdropPotId) (f.freeOf assetId T.airdropPotId + released)
        held := f.held.insert assetId (f.heldOf assetId - released) }))

def transfer (chain : Chain T) (f : Funds T) (assetId : T.AssetId) (source dest : T.AccountId)
    (amount : Nat) : Except Error (Funds T) := do
  ensure (amount ≤ f.freeOf assetId source
      ∧ chain.transferAccepted assetId source dest amount = true)
    Error.fungibles
  let taken : Funds T :=
    { f with
      free := f.free.insert (assetId, source) (f.freeOf assetId source - amount) }
  return (
    { taken with
      free := taken.free.insert (assetId, dest) (taken.freeOf assetId dest + amount) })

end Funds

--
-- Transitions of an Event
--

namespace AirdropState

/- Give an event a new status, and move its entry of the schedule if the timestamp changes. -/
def transition (s : AirdropState T) (event : T.Event)
    (newStatus : Status) : AirdropState T × T.Event :=
  let oldTimestamp := nextActionScheduledAt event.status event.info
  let newTimestamp := nextActionScheduledAt newStatus event.info
  let event' := { event with status := newStatus }
  if oldTimestamp ≠ newTimestamp then
    ({ s with
        actionSchedule := (s.actionSchedule.remove (oldTimestamp, event.id)).insert
            (newTimestamp, event.id) () },
      event')
  else (s, event')

def insertEvent (s : AirdropState T) (eventId : EventId) (event : T.Event) : AirdropState T :=
  { s with events := s.events.insert eventId event }

/- A transition whose event is stored. -/
def moveTo (s : AirdropState T) (eventId : EventId) (event : T.Event)
    (newStatus : Status) : AirdropState T :=
  let moved := s.transition event newStatus
  moved.1.insertEvent eventId moved.2

end AirdropState

namespace World

def withState (w : World T) (s : AirdropState T) : World T :=
  { w with state := s }

/-
  Release what is held for a number of slots of a prize, and refund it to the source that funded it.
  Failures are only logged by the source.
-/
def releaseRemainingPrizes (chain : Chain T) (w : World T) (eventId : EventId)
    (source : Option T.AccountId) (prize : AirdropPrize T.AssetId) (count : Nat) : World T :=
  if count = 0 then w
  else
    let toRelease := saturatingMul T.maxBalance prize.assetAmount count
    match w.funds.release prize.assetId toRelease
        .bestEffort with
    | .error _ => w
    | .ok (released, funds) =>
      let w' : World T :=
        { w with
          funds := funds
          journal := (eventId, .refunded released) :: w.journal }
      if released = 0 then w'
      else
        match source with
        | none => w'
        | some who =>
          match
              funds.transfer chain prize.assetId T.airdropPotId who released with
          | .error _ => w'
          | .ok funds' => { w' with funds := funds' }

/- Release the whole prize and forget the event. -/
def refundAndDropEvent (chain : Chain T) (w : World T) (event : T.Event) : World T :=
  let w' := w.releaseRemainingPrizes chain event.id event.source
      event.info.prize event.info.prize.maxWinners
  let timestamp := nextActionScheduledAt event.status event.info
  w'.withState
    { w'.state with
      actionSchedule := w'.state.actionSchedule.remove (timestamp, event.id)
      events := w'.state.events.remove event.id }

--
-- Scheduling
--

def maxWinnersLimit : Nat := 10000

def checkedMul (max a b : Nat) : Option Nat :=
  if a * b ≤ max then some (a * b) else none

def doSchedule (chain : Chain T) (w : World T) (eventId : EventId) (info : T.Info)
    (source : Option T.AccountId) :
    Except Error (World T) := do
  ensure (isProductName info.productName = true) Error.invalidProductName
  ensure (info.prize.maxWinners > 0) Error.noWinnersConfigured
  ensure (info.prize.maxWinners ≤ maxWinnersLimit) Error.tooManyWinners
  ensure (info.registrationStarts < info.drawTime ∧ info.drawTime < info.endTime)
    Error.invalidEventTimes
  ensure (w.state.supportedAssets.containsKey info.prize.assetId = true) Error.assetNotEnabled
  ensure (info.prize.assetAmount ≥ chain.minimumBalance info.prize.assetId)
    Error.prizeBelowMinBalance
  ensure (w.state.events.containsKey eventId = false) Error.duplicateEventId
  let toHold ← okOr (checkedMul T.maxBalance info.prize.assetAmount info.prize.maxWinners)
      Error.prizeAllocationOverflow
  let funds ← w.funds.hold chain info.prize.assetId toHold
  let nextTimestamp := info.registrationStarts
  return (
    { w with
      funds := funds
      journal := (eventId, .scheduled toHold) :: w.journal
      state :=
        { w.state with
          events := w.state.events.insert eventId
              { id := eventId
                info := info
                status := .scheduled
                source := source }
          actionSchedule := w.state.actionSchedule.insert (nextTimestamp, eventId) () } })

/- The schedule of another pallet, which brings the funds. -/
def schedule (chain : Chain T) (w : World T) (source : T.AccountId) (eventId : EventId)
    (info : T.Info) : Except Error (World T) := do
  let toTransfer ← okOr (checkedMul T.maxBalance info.prize.assetAmount info.prize.maxWinners)
      Error.prizeAllocationOverflow
  let funds ← w.funds.transfer chain info.prize.assetId source T.airdropPotId toTransfer
  doSchedule chain { w with funds := funds } eventId info (some source)

def doRemoveScheduled (chain : Chain T) (w : World T)
    (eventId : EventId) : Except Error (World T) := do
  let event ← okOr (w.state.events.get eventId) Error.noScheduledEvent
  ensure (event.status = .scheduled) Error.wrongStatus
  return w.refundAndDropEvent chain event

/- Cancel an event in any state. -/
def doCancel (chain : Chain T) (w : World T) (eventId : EventId) : World T :=
  match w.state.events.get eventId with
  | none => w
  | some event =>
    match event.status with
    | .scheduled => w.refundAndDropEvent chain event
    | .clearingRegistrations _ _ _ _ => w
    | .clearingWinners _ _ _ _ => w
    | .finalizing _ _ => w
    | .registering totalParticipants =>
      -- registration never closed: nothing is released yet
      let w' := w.releaseRemainingPrizes chain eventId event.source
          event.info.prize event.info.prize.maxWinners
      w'.withState (w'.state.moveTo eventId event (.clearingRegistrations totalParticipants 0 0 0))
    | .awaitingEntropy totalParticipants effectiveWinners _ =>
      w.withState (w.state.moveTo eventId event (.clearingRegistrations totalParticipants
          effectiveWinners 0 0))
    | .drawWinners totalParticipants effectiveWinners _ _ =>
      w.withState (w.state.moveTo eventId event (.clearingRegistrations totalParticipants
          effectiveWinners 0 0))
    | .claiming totalParticipants effectiveWinners claimed =>
      w.withState (w.state.moveTo eventId event (.clearingRegistrations totalParticipants
          effectiveWinners claimed 0))

--
-- Assets
--

def enableAsset (chain : Chain T) (w : World T) (assetId : T.AssetId)
    (source : T.AccountId) : Except Error (World T) := do
  ensure (w.state.supportedAssets.containsKey assetId = false) Error.assetAlreadyEnabled
  let minBalance := chain.minimumBalance assetId
  let funds ← w.funds.transfer chain assetId source T.airdropPotId minBalance
  return (
    { w with
      funds := funds
      state :=
        { w.state with
          supportedAssets := w.state.supportedAssets.insert assetId minBalance } })

def disableAsset (chain : Chain T) (w : World T) (assetId : T.AssetId)
    (beneficiary : T.AccountId) : Except Error (World T) := do
  let funded ← okOr (w.state.supportedAssets.get assetId) Error.assetNotEnabled
  let funds ← w.funds.transfer chain assetId T.airdropPotId beneficiary funded
  return (
    { w with
      funds := funds
      state :=
        { w.state with
          supportedAssets := w.state.supportedAssets.remove assetId } })

--
-- Authorization
--

def ensureLocal (source : TransactionSource) :
    Except Error Unit :=
  ensure (source = .inBlock ∨ source = .local_) Error.transactionNotLocal

/-
  A call on an event is authorized by a check of its status
  and, where it is timed, once its action is due.
-/
def authorize (chain : Chain T) (w : World T) (source : TransactionSource)
    (eventId : EventId) (permits : Status → Bool) (timed : Bool) : Except Error Unit := do
  ensureLocal source
  let event ← okOr (w.state.events.get eventId) Error.unknownEvent
  ensure (permits event.status = true) Error.wrongStatus
  ensure (timed = true → nextActionScheduledAt event.status event.info ≤ chain.now) Error.notYetDue

def authorizeStartRegistration (chain : Chain T) (w : World T) (source : TransactionSource)
    (eventId : EventId) : Except Error Unit :=
  authorize chain w source eventId (fun | .scheduled => true | _ => false) true

def authorizeCloseRegistration (chain : Chain T) (w : World T) (source : TransactionSource)
    (eventId : EventId) : Except Error Unit :=
  authorize chain w source eventId (fun | .registering _ => true | _ => false) true

/- Randomness that is fresher than a moment. -/
def freshEntropy (chain : Chain T) (lastMoment : Nat) : Option Bytes32 :=
  match chain.randomness with
  | some (entropy, moment) =>
    if moment > lastMoment then some entropy else none
  | none => none

def authorizeCaptureEntropy (chain : Chain T) (w : World T) (source : TransactionSource)
    (eventId : EventId) : Except Error Unit := do
  ensureLocal source
  let event ← okOr (w.state.events.get eventId) Error.unknownEvent
  match event.status with
  | .awaitingEntropy _ _ lastMoment =>
    ensure ((freshEntropy chain lastMoment).isSome = true) Error.entropyNotReady
  | _ => .error Error.wrongStatus

def authorizeDrawWinners (chain : Chain T) (w : World T) (source : TransactionSource)
    (eventId : EventId) : Except Error Unit :=
  authorize chain w source eventId (fun | .drawWinners _ _ _ _ => true | _ => false) false

def authorizeCloseDrawing (chain : Chain T) (w : World T) (source : TransactionSource)
    (eventId : EventId) : Except Error Unit :=
  authorize chain w source eventId (fun
      | .drawWinners _ effectiveWinners winnersAdded _ =>
        decide (winnersAdded = effectiveWinners)
      | _ => false)
    false

def authorizeCloseClaiming (chain : Chain T) (w : World T) (source : TransactionSource)
    (eventId : EventId) : Except Error Unit :=
  authorize chain w source eventId (fun | .claiming _ _ _ => true | _ => false) true

def authorizeCleanUpRegistrations (chain : Chain T) (w : World T) (source : TransactionSource)
    (eventId : EventId) : Except Error Unit :=
  authorize chain w source eventId (fun | .clearingRegistrations _ _ _ _ => true | _ => false) false

def authorizeCleanUpWinners (chain : Chain T) (w : World T) (source : TransactionSource)
    (eventId : EventId) : Except Error Unit :=
  authorize chain w source eventId (fun | .clearingWinners _ _ _ _ => true | _ => false) false

def authorizeFinalize (chain : Chain T) (w : World T) (source : TransactionSource)
    (eventId : EventId) : Except Error Unit :=
  authorize chain w source eventId (fun | .finalizing _ _ => true | _ => false) false

--
-- The Life Cycle
--

def startRegistration (w : World T) (eventId : EventId) : Except Error (World T) := do
  let event ← okOr (w.state.events.get eventId) Error.unknownEvent
  return w.withState (w.state.moveTo eventId event (.registering 0))

/-
  Close the registration, release what is held for slots that will not win, and wait for randomness.
-/
def closeRegistration (chain : Chain T) (w : World T)
    (eventId : EventId) : Except Error (World T) := do
  let event ← okOr (w.state.events.get eventId) Error.unknownEvent
  match event.status with
  | .registering totalParticipants =>
    if totalParticipants = 0 then
      return w.refundAndDropEvent chain event
    else
      let prize := event.info.prize
      let capped := prize.winnerCap.mulFloor totalParticipants
      let effectiveWinners := max (min prize.maxWinners capped) 1
      let unusedWinnerSlots := prize.maxWinners - effectiveWinners
      let w' :=
        if unusedWinnerSlots > 0 then
          w.releaseRemainingPrizes chain eventId event.source prize unusedWinnerSlots
        else w
      return w'.withState (w'.state.moveTo eventId event
          (.awaitingEntropy totalParticipants effectiveWinners chain.currentMoment))
  | _ => .error Error.wrongStatus

def captureEntropy (chain : Chain T) (w : World T)
    (eventId : EventId) : Except Error (World T) := do
  let event ← okOr (w.state.events.get eventId) Error.unknownEvent
  match event.status with
  | .awaitingEntropy totalParticipants effectiveWinners
      lastMoment =>
      let entropy ← okOr (freshEntropy chain lastMoment) Error.entropyNotReady
      let target := BigEndianU256.ofBytes entropy
      let s : AirdropState T :=
        { w.state with
          eventEntropy := w.state.eventEntropy.insert eventId target }
      return w.withState (s.moveTo eventId event
          (.drawWinners totalParticipants effectiveWinners 0 target))
  | _ => .error Error.wrongStatus

/- Store winners, and return the key of the last one. -/
def addWinners (eventId : EventId) (winners : DoubleMap EventId T.Entry BigEndianU256)
    (fromWinnerKey : BigEndianU256) :
    List (BigEndianU256 × T.Entry) → DoubleMap EventId T.Entry BigEndianU256 × BigEndianU256
  | [] => (winners, fromWinnerKey)
  | (nextWinner, registration) :: rest =>
    addWinners eventId (winners.insert (eventId, registration) nextWinner) nextWinner rest

/- The registrations that the next batch makes winners. -/
def drawnBatch (w : World T) (eventId : EventId) (fromWinnerKey : BigEndianU256)
    (cappedRemaining : Nat) :
    List (BigEndianU256 × T.Entry) :=
  (w.state.registrations.iterPrefixFrom eventId fromWinnerKey
      ++ w.state.registrations.iterPrefix eventId).take
    cappedRemaining

def drawWinners (chain : Chain T) (w : World T) (eventId : EventId) : Except Error (World T) := do
  let event ← okOr (w.state.events.get eventId) Error.unknownEvent
  match event.status with
  | .drawWinners totalParticipants effectiveWinners winnersAdded
      fromWinnerKey =>
      let remaining := effectiveWinners - winnersAdded
      let cappedRemaining := min remaining chain.limits.drawLimit
      let batch := w.drawnBatch eventId fromWinnerKey cappedRemaining
      let newWinnersAdded := batch.length
      let added := addWinners eventId w.state.winners fromWinnerKey batch
      let failures :=
        if newWinnersAdded = cappedRemaining then w.failures
        else .iteratorExhausted :: w.failures
      let event' :=
        { event with
          status := .drawWinners totalParticipants effectiveWinners
              (saturatingAdd u32Max winnersAdded newWinnersAdded)
              added.2 }
      return (
        { w with
          failures := failures
          state := { w.state with winners := added.1 }.insertEvent eventId event' })
  | _ => .error Error.wrongStatus

def closeDrawing (w : World T) (eventId : EventId) : Except Error (World T) := do
  let event ← okOr (w.state.events.get eventId) Error.unknownEvent
  match event.status with
  | .drawWinners totalParticipants effectiveWinners _ _ =>
    return w.withState (w.state.moveTo eventId event
        (.claiming totalParticipants effectiveWinners 0))
  | _ => .error Error.wrongStatus

def closeClaiming (w : World T) (eventId : EventId) : Except Error (World T) := do
  let event ← okOr (w.state.events.get eventId) Error.unknownEvent
  match event.status with
  | .claiming totalParticipants effectiveWinners claimed =>
    return w.withState (w.state.moveTo eventId event (.clearingRegistrations totalParticipants
        effectiveWinners claimed 0))
  | _ => .error Error.wrongStatus

/- Clear a batch of registrations, then of winners. -/
def cleanUpRegistrationsInner (w : World T) (eventId : EventId) (clearCount : Nat)
    (backend : DoubleMap.Backend BigEndianU256) :
    Except Error (World T) := do
  let event ← okOr (w.state.events.get eventId) Error.unknownEvent
  match event.status with
  | .clearingRegistrations totalParticipants effectiveWinners
      claimed cleanedRegistrations =>
      let res := w.state.registrations.clearPrefix eventId clearCount backend
      let s : AirdropState T := { w.state with registrations := res.1 }
      if res.2.2 then
        return w.withState (s.moveTo eventId event
            (.clearingWinners totalParticipants effectiveWinners claimed 0))
      else
        return w.withState (s.insertEvent eventId
            { event with
              status := .clearingRegistrations totalParticipants effectiveWinners claimed
                  (saturatingAdd u32Max cleanedRegistrations res.2.1) })
  | _ => .error Error.wrongStatus

def cleanUpWinnersInner (w : World T) (eventId : EventId) (clearCount : Nat)
    (backend : DoubleMap.Backend T.Entry) :
    Except Error (World T) := do
  let event ← okOr (w.state.events.get eventId) Error.unknownEvent
  match event.status with
  | .clearingWinners totalParticipants effectiveWinners claimed
      cleanedWinners =>
      let res := w.state.winners.clearPrefix eventId clearCount backend
      let s : AirdropState T := { w.state with winners := res.1 }
      if res.2.2 then
        return w.withState (s.moveTo eventId event (.finalizing effectiveWinners claimed))
      else
        return w.withState (s.insertEvent eventId
            { event with
              status := .clearingWinners totalParticipants effectiveWinners claimed
                  (saturatingAdd u32Max cleanedWinners res.2.1) })
  | _ => .error Error.wrongStatus

/- Release what was not claimed and forget the event. -/
def finalize (chain : Chain T) (w : World T) (eventId : EventId) : Except Error (World T) := do
  let event ← okOr (w.state.events.get eventId) Error.unknownEvent
  match event.status with
  | .finalizing effectiveWinners claimed =>
    let unclaimed := effectiveWinners - claimed
    let w' :=
      if unclaimed > 0 then
        w.releaseRemainingPrizes chain eventId event.source event.info.prize unclaimed
      else w
    let timestamp := nextActionScheduledAt event.status event.info
    return w'.withState
      { w'.state with
        actionSchedule := w'.state.actionSchedule.remove (timestamp, eventId)
        eventEntropy := w'.state.eventEntropy.remove eventId
        events := w'.state.events.remove eventId }
  | _ => .error Error.wrongStatus

--
-- Participation
--

def registerSlotIn (w : World T) (eventId : EventId) (event : T.Event) (slot : BigEndianU256)
    (entry : T.Entry) : Except Error (World T) :=
  match event.status with
  | .registering totalParticipants => do
    ensure (w.state.registrations.containsKey (eventId, slot) = false) Error.entropySlotTaken
    let total ← okOr (checkedAdd u32Max totalParticipants 1) Error.participantOverflow
    let s : AirdropState T :=
      { w.state with
        registrations := w.state.registrations.insert (eventId, slot) entry }
    return w.withState (s.insertEvent eventId { event with status := .registering total })
  | _ => .error Error.notAcceptingRegistrations

def registerSlot (w : World T) (eventId : EventId) (slot : BigEndianU256)
    (entry : T.Entry) : Except Error (World T) := do
  let event ← okOr (w.state.events.get eventId) Error.unknownEvent
  w.registerSlotIn eventId event slot entry

def doParticipateWithAlias (chain : Chain T) (w : World T) (eventId : EventId)
    (participantOrigin : T.Entry) (proof : T.Proof)
    (ringIndex revision : Nat) : Except Error (World T) := do
  let event ← okOr (w.state.events.get eventId) Error.unknownEvent
  match event.status with
  | .registering _ =>
    let eventAlias ← okOr (chain.verifyMembership proof ringIndex revision
          (event.info.productName, eventId) participantOrigin)
        Error.invalidMembershipProof
    w.registerSlotIn eventId event (BigEndianU256.ofBytes eventAlias) participantOrigin
  | _ => .error Error.notAcceptingRegistrations

def doParticipateWithAccount (chain : Chain T) (w : World T) (accountId : T.AccountId)
    (eventId : EventId) (signature : T.Signature) : Except Error (World T) := do
  let key ← okOr (chain.accountIdToPublic accountId) Error.unsupportedAccountKey
  let entropy ← okOr (chain.verifyAndExtractEntropy key eventId signature) Error.invalidVrfProof
  w.registerSlot eventId (BigEndianU256.ofBytes entropy) (.account accountId)

def doClaim (chain : Chain T) (w : World T) (eventId : EventId) (registrant : T.Entry)
    (beneficiary : T.AccountId) : Except Error (World T) := do
  let event ← okOr (w.state.events.get eventId) Error.unknownEvent
  match event.status with
  | .claiming totalParticipants effectiveWinners claimed =>
    let prize := event.info.prize
    ensure (chain.now < event.info.endTime) Error.claimingWindowClosed
    ensure (w.state.supportedAssets.containsKey prize.assetId = true) Error.assetNotEnabled
    let _slot ← okOr (w.state.winners.get (eventId, registrant)) Error.noSuchWinner
    let released ← w.funds.release prize.assetId prize.assetAmount .exact
    let failures :=
      if released.1 = prize.assetAmount then w.failures
      else .releaseMatchesPrize :: w.failures
    let funds ← released.2.transfer chain prize.assetId T.airdropPotId beneficiary prize.assetAmount
    let s : AirdropState T :=
      { w.state with
        winners := w.state.winners.remove (eventId, registrant) }
    return (
      { state :=
          s.insertEvent eventId
            { event with
              status := .claiming totalParticipants effectiveWinners
                  (saturatingAdd u32Max claimed 1) }
        funds := funds
        journal := (eventId, .claimed prize.assetAmount) :: w.journal
        failures := failures })
  | _ => .error Error.notClaiming

end World

--
-- Calls
--

/-
  Calls of the manager, calls submitted by the off-chain worker, the interface for other pallets,
  and a change of a free balance by anyone else.
-/
inductive Op (T : Config) where
  | scheduleEvent (eventId : EventId) (info : T.Info)
  | removeScheduledEvent (eventId : EventId)
  | enableAsset (assetId : T.AssetId) (source : T.AccountId)
  | disableAsset
      (assetId : T.AssetId)
      (beneficiary : T.AccountId)
  | startRegistrationAuthorized (source : TransactionSource) (eventId : EventId)
  | closeRegistrationAuthorized
      (source : TransactionSource)
      (eventId : EventId)
  | captureEntropyAuthorized (source : TransactionSource) (eventId : EventId)
  | drawWinnersAuthorized
      (source : TransactionSource)
      (eventId : EventId)
  | closeDrawingAuthorized (source : TransactionSource) (eventId : EventId)
  | closeClaimingAuthorized
      (source : TransactionSource)
      (eventId : EventId)
  | cleanUpRegistrationsAuthorized (source : TransactionSource) (eventId : EventId)
      (backend : DoubleMap.Backend BigEndianU256)
  | cleanUpWinnersAuthorized
      (source : TransactionSource)
      (eventId : EventId)
      (backend : DoubleMap.Backend T.Entry)
  | finalizeAuthorized (source : TransactionSource) (eventId : EventId)
  | schedule
      (source : T.AccountId)
      (eventId : EventId)
      (info : T.Info)
  | removeScheduled (eventId : EventId)
  | cancel (eventId : EventId)
  | participateWithAlias (eventId : EventId) (participantOrigin : T.Entry) (proof : T.Proof)
      (ringIndex revision : Nat)
  | participateWithAccount
      (accountId : T.AccountId)
      (eventId : EventId)
      (signature : T.Signature)
  | participateWithSlot (eventId : EventId) (slot : BigEndianU256) (entry : T.Entry)
  | claim
      (eventId : EventId)
      (registrant : T.Entry)
      (beneficiary : T.AccountId)
  | setFree (assetId : T.AssetId) (who : T.AccountId) (amount : Nat)

/- One operation, with the chain as it finds it. -/
def World.dispatch (w : World T) (call : Chain T × Op T) : Except Error (World T) :=
  let chain := call.1
  match call.2 with
  | .scheduleEvent eventId info =>
    w.doSchedule chain eventId info none
  | .removeScheduledEvent eventId =>
    w.doRemoveScheduled chain eventId
  | .enableAsset assetId source =>
    w.enableAsset chain assetId source
  | .disableAsset assetId beneficiary =>
    w.disableAsset chain assetId beneficiary
  | .startRegistrationAuthorized source eventId => do
    w.authorizeStartRegistration chain source eventId
    w.startRegistration eventId
  | .closeRegistrationAuthorized source eventId => do
    w.authorizeCloseRegistration chain source eventId
    w.closeRegistration chain eventId
  | .captureEntropyAuthorized source eventId => do
    w.authorizeCaptureEntropy chain source eventId
    w.captureEntropy chain eventId
  | .drawWinnersAuthorized source eventId => do
    w.authorizeDrawWinners chain source eventId
    w.drawWinners chain eventId
  | .closeDrawingAuthorized source eventId => do
    w.authorizeCloseDrawing chain source eventId
    w.closeDrawing eventId
  | .closeClaimingAuthorized source eventId => do
    w.authorizeCloseClaiming chain source eventId
    w.closeClaiming eventId
  | .cleanUpRegistrationsAuthorized source eventId backend => do
    w.authorizeCleanUpRegistrations chain source eventId
    w.cleanUpRegistrationsInner eventId chain.limits.clearLimit backend
  | .cleanUpWinnersAuthorized source eventId backend => do
    w.authorizeCleanUpWinners chain source eventId
    w.cleanUpWinnersInner eventId chain.limits.clearLimit backend
  | .finalizeAuthorized source eventId => do
    w.authorizeFinalize chain source eventId
    w.finalize chain eventId
  | .schedule source eventId info =>
    w.schedule chain source eventId info
  | .removeScheduled eventId =>
    -- the result is ignored
    match w.doRemoveScheduled chain eventId with
    | .error _ => .ok w
    | .ok w' => .ok w'
  | .cancel eventId => .ok (w.doCancel chain eventId)
  | .participateWithAlias eventId participantOrigin proof
      ringIndex revision =>
      w.doParticipateWithAlias chain eventId participantOrigin proof ringIndex revision
  | .participateWithAccount accountId eventId signature =>
    w.doParticipateWithAccount chain accountId eventId signature
  | .participateWithSlot eventId slot entry =>
    w.registerSlot eventId slot entry
  | .claim eventId registrant beneficiary =>
    w.doClaim chain eventId registrant beneficiary
  | .setFree assetId who amount =>
    .ok
      { w with
        funds :=
          { w.funds with
            free := w.funds.free.insert (assetId, who) amount } }

end Individuality.Airdrop
