import Individuality.Score.Types

/-
  The operations of the score pallet: schedules and rounds of payouts, cashing out and redeeming
  credit, registering, and the reports of attendance.

  Main declaration: `Pot.hold`
-/

namespace Individuality.Score

open PeopleMulti (PeopleState Chain)

--
-- Funds of the Pot
--

inductive Precision where
  | exact
  | bestEffort
  deriving DecidableEq, Repr

namespace Pot

def held (pot : Pot) : HoldReason → Nat
  | .payout => pot.payout
  | .credit => pot.credit

def setHeld (pot : Pot) (amount : Nat) : HoldReason → Pot
  | .payout => { pot with payout := amount }
  | .credit => { pot with credit := amount }

/- Move free funds under a hold. -/
def hold (pot : Pot) (reason : HoldReason) (amount : Nat) : Except Error Pot := do
  ensure (amount ≤ pot.free) Error.fundsUnavailable
  return ( { pot with free := pot.free - amount }.setHeld (pot.held reason + amount) reason)

/- Move held funds back to the free ones, and return how much was moved. -/
def release (pot : Pot) (reason : HoldReason) (amount : Nat)
    (precision : Precision) : Except Error (Nat × Pot) := do
  let released := min amount (pot.held reason)
  ensure (precision = .bestEffort ∨ released = amount) Error.fundsUnavailable
  return ( (released, { pot with free := pot.free + released }.setHeld
      (pot.held reason - released) reason))

/- Pay free funds out, which may be to the pot itself. -/
def transfer (pot : Pot) (toPot accepted : Bool) (amount : Nat) : Except Error Pot := do
  ensure (amount ≤ pot.free ∧ accepted) Error.fundsUnavailable
  return (
    if toPot then pot else { pot with free := pot.free - amount })

end Pot

/- A result of the registry, as one of this pallet. -/
def fromPeople {α : Type} (result : Except PeopleMulti.Error α) :
    Except Error α :=
  result.mapError Error.people

@[simp] theorem fromPeople_eq_ok_iff {α : Type} {result : Except PeopleMulti.Error α} {a : α} :
    fromPeople result = .ok a ↔ result = .ok a := by
  cases result <;> simp [fromPeople, Except.mapError]

variable {T : Config}

--
-- Validation of Schedules
--

/-
  Walk over the tiers with the population and the score of
  the tier before, and return the last population.
-/
def checkPersonhoodTiers :
    Nat → Nat → List PersonhoodThresholdTier → Except Error Nat
  | prevPop, _, [] => .ok prevPop
  | prevPop, prevScore, tier :: tiers => do
    ensure (tier.scoreThreshold > 0) Error.personhoodScoreThresholdZero
    ensure (tier.scoreThreshold ≤ maxPersonhoodThreshold) Error.personhoodScoreThresholdTooLarge
    ensure (tier.populationSizeThreshold ≥ prevPop) Error.personhoodScheduleNotSorted
    ensure (tier.scoreThreshold ≥ prevScore) Error.personhoodScheduleNotMonotonic
    checkPersonhoodTiers tier.populationSizeThreshold tier.scoreThreshold tiers

def validatePersonhoodThresholdTiers (tiers : PersonhoodThresholdTiers) : Except Error Unit := do
  ensure (¬tiers.isEmpty) Error.personhoodScheduleEmpty
  let lastPop ← checkPersonhoodTiers 0 0 tiers.toList
  ensure (lastPop = u32Max) Error.personhoodScheduleNotTotal

def checkAbsenceTiers :
    Nat → List AbsenceGraceTier → Except Error Unit
  | _, [] => .ok ()
  | prevThreshold, tier :: tiers => do
    ensure (tier.window ≤ 8) Error.windowTooLarge
    ensure (tier.allowedMisses < tier.window ∨ (tier.window = 0 ∧ tier.allowedMisses = 0))
      Error.allowedMissesTooLarge
    ensure (tier.populationSizeThreshold ≥ prevThreshold) Error.absenceScheduleNotSorted
    checkAbsenceTiers tier.populationSizeThreshold tiers

def validateAbsenceGraceTiers (tiers : AbsenceGraceTiers) : Except Error Unit :=
  checkAbsenceTiers 0 tiers.toList

--
-- Rounds
--

namespace ScoreState

def validateTransitionRound (s : ScoreState T) (block roundIndex : Nat) : Bool :=
  roundIndex = s.currentRoundIndex && (s.roundPlanning.any (fun r => decide (r.finishAt ≤ block))
      || (s.roundPlanning.isNone && s.roundSchedules.toList.head?.any
          fun schedule => decide (0 < schedule.remaining)))

/- Move a planned round to payout.  An index past the largest one wraps around. -/
def finishRound (s : ScoreState T) : ScoreState T :=
  match s.roundPlanning with
  | none => s
  | some currentRound =>
    let points := s.currentRoundPoints
    let credit := currentRound.credit
    let pointPrice := credit / points
    let remainder := credit - saturatingMul u128Max pointPrice points
    let payout : RoundPayout :=
      { remainingBalance := credit
        pointPrice := pointPrice
        remainder := remainder
        totalPoints := points }
    { s with
      roundPlanning := none
      currentRoundPoints := 0
      roundPayouts := s.roundPayouts.insert s.currentRoundIndex payout
      currentRoundIndex := (s.currentRoundIndex + 1) % (u32Max + 1) }

/- Plan the current round from the first schedule. -/
def planRound (s : ScoreState T) (block : Nat) : ScoreState T :=
  match s.roundSchedules.toList.head? with
  | none => s
  | some schedule =>
    let first : PayoutSchedule := { schedule with remaining := schedule.remaining - 1 }
    let schedules := s.roundSchedules.set 0 first
    { s with
      roundPlanning := some
          { finishAt :=
              saturatingAdd u32Max block first.duration
            credit := first.amountPerRound }
      roundSchedules :=
        if first.remaining = 0 then schedules.eraseIdx 0
        else schedules }

/- Who has points in a round, in the order of draining. -/
def roundKeys (s : ScoreState T) (roundIndex : Nat) : List T.Who :=
  T.hashOrder ((s.roundsPointsForParticipant.keys.filter fun k => k.1 = roundIndex).map Prod.snd)

/- Add points to a participant for the current round. -/
def awardParticipantPayoutPoints (s : ScoreState T) (who : T.Who) (points : Nat) : ScoreState T :=
  if points = 0 then
    s
  else
    match checkedAdd u32Max s.currentRoundPoints points with
    | some newRoundPoints =>
      let roundKey := (s.currentRoundIndex, who)
      { s with
        roundsPointsForParticipant := s.roundsPointsForParticipant.insert roundKey
            (saturatingAdd u32Max (s.roundsPointsForParticipant.getD roundKey 0) points)
        currentRoundPoints := newRoundPoints }
    | none => s

end ScoreState

/- What a participant is owed for points in a round. -/
def RoundPayout.credited (round : RoundPayout) (points : Nat) : Nat :=
  let baseReward := saturatingMul u128Max round.pointPrice points
  let remainderPortion := saturatingMul u128Max round.remainder points / round.totalPoints
  saturatingAdd u128Max baseReward remainderPortion

/- Drain one entry of a round.  A participant that has left is skipped. -/
def drainEntry (round : RoundPayout) (roundIndex : Nat) (acc : ScoreState T × Nat)
    (who : T.Who) : ScoreState T × Nat :=
  let points := acc.1.roundsPointsForParticipant.getD (roundIndex, who) 0
  let drained : ScoreState T :=
    { acc.1 with
      roundsPointsForParticipant := acc.1.roundsPointsForParticipant.remove (roundIndex, who) }
  match drained.participants.get who with
  | none => (drained, acc.2)
  | some score =>
    let credited := round.credited points
    let score : Participant :=
      { score with
        credit := saturatingAdd u128Max score.credit credited }
    ({ drained with
        participants := drained.participants.insert who score },
      saturatingAdd u128Max acc.2 credited)

namespace World

--
-- Payout Rounds
--

/- The treasury pays into the pot. -/
def fund (w : World T) (amount : Nat) :
    Except Error (World T) := do
  ensure (w.pot.total + amount ≤ u128Max) Error.fundsUnavailable
  return { w with
    pot := { w.pot with free := w.pot.free + amount } }

def schedulePayoutRounds (w : World T) (amount count duration : Nat) : Except Error (World T) := do
  let pot ← w.pot.hold .payout (saturatingMul u128Max amount count)
  let schedule : PayoutSchedule :=
    { remaining := count
      amountPerRound := amount
      duration := duration }
  let schedules ← okOr (w.score.roundSchedules.tryPush schedule) Error.tooManySchedules
  return { w with
    score := { w.score with roundSchedules := schedules }
    pot := pot }

def removePayoutSchedule (w : World T) (index : Nat) : Except Error (World T) := do
  let schedule ← okOr w.score.roundSchedules.toList[index]? Error.noSchedule
  let amountToRelease := saturatingMul u128Max schedule.amountPerRound schedule.remaining
  let released ← w.pot.release .payout amountToRelease .bestEffort
  return { w with
    score :=
      { w.score with
        roundSchedules := w.score.roundSchedules.eraseIdx index }
    pot := released.2 }

def transitionRound (chain : Chain T.Member T.Account) (w : World T)
    (roundIndex : Nat) : Except Error (World T) := do
  ensure (w.score.validateTransitionRound chain.block roundIndex) Error.roundOnGoingOrNoSchedule
  return { w with
    score := w.score.finishRound.planRound chain.block }

/-
  The storage layer of an operation on a paying round, which
  is reverted when a movement of funds fails.
-/
def operateLayer (w : World T) (roundIndex limit : Nat)
    (round : RoundPayout) : Except Error (World T) := do
  let keys := w.score.roundKeys roundIndex
  let drained := (keys.take limit).foldl (drainEntry round roundIndex) (w.score, 0)
  let creditedInOp := drained.2
  let released ← w.pot.release .payout creditedInOp .exact
  let pot ← released.2.hold .credit released.1
  let remainingBalance := round.remainingBalance - creditedInOp
  -- `next` finds no more entry within the limit
  if keys.length < limit then
    let recycled ← pot.release .payout remainingBalance .exact
    return { w with
      score :=
        { drained.1 with
          roundPayouts := drained.1.roundPayouts.remove roundIndex }
      pot := recycled.2 }
  else
    let round : RoundPayout := { round with remainingBalance := remainingBalance }
    return { w with
      score :=
        { drained.1 with
          roundPayouts := drained.1.roundPayouts.insert roundIndex round }
      pot := pot }

/- Remove a paying round and release what is left of it. -/
def recycleRoundPayout (w : World T) (roundIndex : Nat) : World T :=
  match w.score.roundPayouts.get roundIndex with
  | none => w
  | some round =>
    let removed : World T :=
      { w with
        score :=
          { w.score with
            roundPayouts := w.score.roundPayouts.remove roundIndex } }
    if round.remainingBalance = 0 then
      removed
    else
      match
        w.pot.release .payout round.remainingBalance .bestEffort
      with
      | .ok released => { removed with pot := released.2 }
      | .error _ => removed

def operatePayoutRound (w : World T) (roundIndex limit : Nat) : Except Error (World T) := do
  let round ← okOr (w.score.roundPayouts.get roundIndex) Error.noRound
  match w.operateLayer roundIndex limit round with
  | .ok w' => return w'
  | .error _ => return w.recycleRoundPayout roundIndex

--
-- Credit
--

/- The participant records with one of them overwritten. -/
def setParticipant (w : World T) (who : T.Who) (score : Participant) : World T :=
  { w with
    score :=
      { w.score with
        participants := w.score.participants.insert who score } }

def cashOut (w : World T) (account : T.Account) : Except Error (World T) := do
  let who : T.Who := .account account
  let score ← okOr (w.score.participants.get who) Error.noScore
  ensure (¬score.hasEverReachedPersonhood) Error.hasReachedPersonhood
  ensure (¬score.cashedOut) Error.cashOutCooldown
  let reduction := saturatingAdd u8Max score.score 1 / 2
  let score : Participant :=
    { score with
      score := score.score - reduction
      streak := score.streak.resetAttendance
      cashedOut := true }
  let awarded : World T :=
    { w with
      score := w.score.awardParticipantPayoutPoints who reduction }
  return awarded.setParticipant who score

def redeemCredit (w : World T) (who : T.Who) (destination : T.Account)
    (accepted : Bool) : Except Error (World T) := do
  let score ← okOr (w.score.participants.get who) Error.noScore
  ensure (score.credit ≠ 0) Error.noReward
  let released ← w.pot.release .credit score.credit .exact
  let pot ← released.2.transfer (destination = T.potId) accepted released.1
  let score : Participant := { score with credit := 0 }
  return { w.setParticipant who score with pot := pot }

--
-- Recognition
--

/-
  Register as a person, or resume personhood.  A key comes
  with a proof of ownership, which is right or wrong.
-/
def register (chain : Chain T.Member T.Account) (w : World T) (account : T.Account)
    (key : Option (T.Member × Bool)) : Except Error (World T) := do
  let who : T.Who := .account account
  let score ← okOr (w.score.participants.get who) Error.noScore
  ensure (score.reachedPersonhood ∨ w.score.personhoodThreshold ≤ score.score)
    Error.hasNotReachedPersonhood
  match score.recognition with
  | .suspended id =>
    ensure (key = none) Error.keyMustNotBeProvided
    let people ← fromPeople (w.people.recognizePersonhood chain id none)
    return ({ w with people := people } : World T).setParticipant who
      { score with
        recognition := .recognized id
        reachedPersonhood := true
        hasEverReachedPersonhood := true }
  | .notRecognized =>
    let key ← okOr key Error.keyMustBeProvided
    ensure key.2 Error.invalidProofOfOwnership
    let reserved := w.people.reserveNewId
    let people ← fromPeople (reserved.2.recognizePersonhood chain reserved.1 (some key.1))
    return ({ w with people := people } : World T).setParticipant who
      { score with
        recognition := .recognized reserved.1
        reachedPersonhood := true
        hasEverReachedPersonhood := true }
  | .externallyRecognized => throw Error.recognized
  | .recognized _ => throw Error.recognized

def setAbsenceGraceSchedule (w : World T)
    (schedule : AbsenceGraceTiers) : Except Error (World T) := do
  validateAbsenceGraceTiers schedule
  return { w with
    score := { w.score with absenceGraceSchedule := schedule } }

def setPersonhoodThresholdSchedule (w : World T) (schedule : PersonhoodThresholdTiers) :
    Except Error (World T) := do
  validatePersonhoodThresholdTiers schedule
  return { w with
    score := { w.score with personhoodThresholdSchedule := schedule } }

--
-- Onboarding
--

def onboardForRecognition (w : World T) (account : T.Account) : Except Error (World T) := do
  let who : T.Who := .account account
  ensure (¬w.score.participants.containsKey who) Error.alreadyParticipating
  let referenced : World T := { w with people := w.people.incSufficients account }
  return referenced.setParticipant who
    { score := 0
      reachedPersonhood := false
      hasEverReachedPersonhood := false
      recognition := .notRecognized }

def onboardExternallyRecognized (w : World T) (alias_ : T.Alias) : Except Error (World T) := do
  let who : T.Who := .person alias_
  ensure (¬w.score.participants.containsKey who) Error.alreadyParticipating
  return w.setParticipant who
    { score := w.score.personhoodThreshold
      reachedPersonhood := true
      hasEverReachedPersonhood := true
      recognition := .externallyRecognized }

/- Suspend a person in a session of its own. -/
def suspendInSession (chain : Chain T.Member T.Account) (w : World T)
    (id : Nat) : Except Error (World T) := do
  fromPeople (PeopleState.startPeopleSetMutationSession chain)
  let people ← fromPeople (w.people.suspendPersonhood chain [id])
  fromPeople (PeopleState.endPeopleSetMutationSession chain)
  return { w with people := people }

/-
  Remove the record of a participant.  Its credit goes back to
  the pot, and a failure of that is only logged.
-/
def takeParticipant (w : World T) (who : T.Who) : World T :=
  match w.score.participants.get who with
  | none => w
  | some score =>
    let removed : World T :=
      { w with
        score :=
          { w.score with
            participants := w.score.participants.remove who } }
    if score.credit = 0 then
      removed
    else
      match w.pot.release .credit score.credit .exact with
      | .ok released => { removed with pot := released.2 }
      | .error _ => removed

def dropReference (w : World T) : T.Who → World T
  | .account account =>
    { w with people := w.people.decSufficients account }
  | .person _ => w

/- Suspend the person that a recognized participant is. -/
def suspendRecognized (chain : Chain T.Member T.Account) (w : World T)
    (who : T.Who) : Except Error (World T) :=
  match
    (w.score.participants.get who).map Participant.recognition
  with
  | some (.recognized id) => suspendInSession chain w id
  | _ => .ok w

def offboard (chain : Chain T.Member T.Account) (w : World T)
    (who : T.Who) : Except Error (World T) := do
  let w ← suspendRecognized chain w who
  return (w.takeParticipant who).dropReference who

--
-- Attendance
--

def calculatePersonhoodThreshold (s : ScoreState T) (activeCount : Nat) : Nat :=
  ((s.personhoodThresholdSchedule.toList.find? fun t =>
      decide (activeCount ≤ t.populationSizeThreshold)).map
    (·.scoreThreshold)).getD maxPersonhoodThreshold

/- The allowed misses and the window.  Above all tiers the last one counts. -/
def calculateAbsenceGraceRatio (s : ScoreState T) (activeCount : Nat) : Nat × Nat :=
  let tiers := s.absenceGraceSchedule.toList
  let found := tiers.find? fun t => decide (activeCount ≤ t.populationSizeThreshold)
  match found.or tiers.getLast? with
  | some tier => (tier.allowedMisses, tier.window)
  | none => (0, 0)

def updateThresholds (w : World T) (activeCount : Nat) : World T :=
  { w with
    score :=
      { w.score with
        personhoodThreshold := calculatePersonhoodThreshold w.score activeCount
        absenceGraceRatio := calculateAbsenceGraceRatio w.score activeCount } }

/- The thresholds are updated even when the session cannot be started. -/
def startAttendanceReportSession (chain : Chain T.Member T.Account)
    (w : World T) : World T × Except Error Unit :=
  (w.updateThresholds chain.activeCount,
    fromPeople (PeopleState.startPeopleSetMutationSession chain))

def endAttendanceReportSession (chain : Chain T.Member T.Account) : Except Error Unit :=
  fromPeople (PeopleState.endPeopleSetMutationSession chain)

/- The score and the streak after a game. -/
def attend (score : Participant) (threshold : Nat) (attended : Bool)
    (gameIndex : Nat) : Participant :=
  let external := score.recognition.isExternallyRecognized
  let current := if external then threshold else score.score
  let history := score.attendanceHistory.storeAttendance attended
  if attended then
    let streak := score.streak.addAttendance 1
    { score with
      lastAttendedGame := some gameIndex
      attendedGamesWhileRecognized :=
        if score.recognition.isRecognizedByScore then
          saturatingAdd u32Max score.attendedGamesWhileRecognized 1
        else
          score.attendedGamesWhileRecognized
      streak := streak
      score := min (saturatingAdd u8Max current streak.attendance) maxPersonhoodThreshold
      attendanceHistory := history }
  else
    let streak := score.streak.addAbsence 1
    { score with
      streak := streak
      score := if external then current else current - streak.absence
      attendanceHistory := history }

/- Whether an absence costs personhood.  Without a window any absence does. -/
def losesPersonhood (score : Participant) (threshold : Nat) (graceRatio : Nat × Nat) : Bool :=
  let window := graceRatio.2
  let misses := score.attendanceHistory.missesInWindow window
  let exceeded := decide (window = 0 ∨ graceRatio.1 < misses)
  match score.recognition with
  | .externallyRecognized => false
  | .suspended _ => false
  | .recognized _ => exceeded
  | .notRecognized => exceeded || decide (score.score < threshold)

/-
  Suspend a recognized participant.  When that fails the
  participant stays recognized and keeps personhood.
-/
def suspendParticipant (chain : Chain T.Member T.Account) (people : PeopleState T.Member T.Account)
    (score : Participant) :
    Bool × Participant × PeopleState T.Member T.Account :=
  match score.recognition with
  | .recognized id =>
    match people.suspendPersonhood chain [id] with
    | .ok people =>
      (true, { score with recognition := .suspended id }, people)
    | .error _ => (false, score, people)
  | _ => (true, score, people)

def setAttendance (chain : Chain T.Member T.Account) (w : World T) (who : T.Who) (attended : Bool)
    (gameIndex : Nat) : Except Error (World T) := do
  let old ← okOr (w.score.participants.get who) Error.noScore
  let threshold := w.score.personhoodThreshold
  let score := attend old threshold attended gameIndex
  let acquirePersonhood := !score.reachedPersonhood && decide (threshold ≤ score.score)
  let suspendPersonhood := !attended && score.reachedPersonhood
      && losesPersonhood score threshold w.score.absenceGraceRatio
  let suspension :=
    if suspendPersonhood then
      suspendParticipant chain w.people score
    else
      (false, score, w.people)
  let reachedPersonhood :=
    if acquirePersonhood then true
    else if suspension.1 then false
    else score.reachedPersonhood
  let score : Participant :=
    { suspension.2.1 with
      reachedPersonhood := reachedPersonhood
      hasEverReachedPersonhood := score.hasEverReachedPersonhood || reachedPersonhood
      cashedOut := false }
  return { w.setParticipant who score with people := suspension.2.2 }

def forceSetAttendance (chain : Chain T.Member T.Account) (w : World T) (who : T.Who)
    (attended : Bool) (gameIndex : Nat) : Except Error (World T) := do
  let started := startAttendanceReportSession chain w
  started.2
  let w ← setAttendance chain started.1 who attended gameIndex
  endAttendanceReportSession chain
  return w

end World

--
-- Calls
--

/-
  What may happen to the pot, the score pallet and the registry.  The last operations are those of
  the registry itself, and those of others that recognize new people.
-/
inductive Op (T : Config) where
  | fund (amount : Nat)
  | schedulePayoutRounds (amount count duration : Nat)
  | removePayoutSchedule (index : Nat)
  | transitionRound (roundIndex : Nat)
  | operatePayoutRound (roundIndex limit : Nat)
  | cashOut (account : T.Account)
  | redeemCredit (who : T.Who) (destination : T.Account) (accepted : Bool)
  | register
      (account : T.Account)
      (key : Option (T.Member × Bool))
  | setAbsenceGraceSchedule (schedule : AbsenceGraceTiers)
  | setPersonhoodThresholdSchedule
      (schedule : PersonhoodThresholdTiers)
  | forceSetAttendance (who : T.Who) (attended : Bool) (gameIndex : Nat)
  | onboardForRecognition (account : T.Account)
  | onboardExternallyRecognized (alias_ : T.Alias)
  | offboard (who : T.Who)
  | startAttendanceReportSession
  | endAttendanceReportSession
  | setAttendance (who : T.Who) (attended : Bool) (gameIndex : Nat)
  | reserveNewId
  | cancelIdReservation (id : Nat)
  | renewIdReservation (id : Nat)
  | recognizeNewPerson (id : Nat) (key : T.Member)
  | forceRecognizePersonhood (people : List T.Member)
  | setPersonalIdAccount (id : Nat) (account : T.Account) (callValidAt : Nat)
  | unsetPersonalIdAccount (id : Nat)

/- The functions that only the pallet of games calls. -/
def Op.isInternal : Op T → Bool
  | .onboardForRecognition _ => true
  | .onboardExternallyRecognized _ => true
  | .offboard _ => true
  | .startAttendanceReportSession => true
  | .endAttendanceReportSession => true
  | .setAttendance _ _ _ => true
  | _ => false

/- An operation of the registry alone. -/
def World.withPeople (w : World T)
    (result : Except PeopleMulti.Error (PeopleState T.Member T.Account)) :
    Except Error (World T) := do
  let people ← fromPeople result
  return { w with people := people }

/- One operation, with the chain as it finds it. -/
def World.dispatch (w : World T) (call : Chain T.Member T.Account × Op T) :
    Except Error (World T) :=
  match call.2 with
  | .fund amount => w.fund amount
  | .schedulePayoutRounds amount count duration =>
    w.schedulePayoutRounds amount count duration
  | .removePayoutSchedule index => w.removePayoutSchedule index
  | .transitionRound roundIndex =>
    World.transitionRound call.1 w roundIndex
  | .operatePayoutRound roundIndex limit =>
    w.operatePayoutRound roundIndex limit
  | .cashOut account => w.cashOut account
  | .redeemCredit who destination accepted =>
    w.redeemCredit who destination accepted
  | .register account key => World.register call.1 w account key
  | .setAbsenceGraceSchedule schedule =>
    w.setAbsenceGraceSchedule schedule
  | .setPersonhoodThresholdSchedule schedule =>
    w.setPersonhoodThresholdSchedule schedule
  | .forceSetAttendance who attended gameIndex =>
    World.forceSetAttendance call.1 w who attended gameIndex
  | .onboardForRecognition account =>
    w.onboardForRecognition account
  | .onboardExternallyRecognized alias_ =>
    w.onboardExternallyRecognized alias_
  | .offboard who => World.offboard call.1 w who
  | .startAttendanceReportSession =>
    .ok (World.startAttendanceReportSession call.1 w).1
  | .endAttendanceReportSession => do
    World.endAttendanceReportSession call.1
    return w
  | .setAttendance who attended gameIndex =>
    World.setAttendance call.1 w who attended gameIndex
  | .reserveNewId =>
    .ok { w with people := w.people.reserveNewId.2 }
  | .cancelIdReservation id =>
    w.withPeople (w.people.cancelIdReservation id)
  | .renewIdReservation id =>
    w.withPeople (w.people.renewIdReservation id)
  | .recognizeNewPerson id key =>
    w.withPeople (w.people.recognizePersonhood call.1 id (some key))
  | .forceRecognizePersonhood people =>
    w.withPeople (w.people.forceRecognizePersonhood call.1 people)
  | .setPersonalIdAccount id account callValidAt =>
    w.withPeople (w.people.setPersonalIdAccount call.1 id account callValidAt)
  | .unsetPersonalIdAccount id =>
    w.withPeople (w.people.unsetPersonalIdAccount id)

end Individuality.Score
