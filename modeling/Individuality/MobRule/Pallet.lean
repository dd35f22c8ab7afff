import Individuality.MobRule.Types
import Individuality.Base.Runs

/-
  The operations of the mob-rule pallet: cases and votes, the
  claims of voters, and the rounds of payouts.

  Main declaration: `MobState.vote`
-/

namespace Individuality.MobRule

open Score (Pot)

/- A result of the pot, as one of this pallet. -/
def fromPot {α : Type} (result : Except Score.Error α) :
    Except Error α :=
  result.mapError Error.pot

@[simp] theorem fromPot_eq_ok_iff {α : Type} {result : Except Score.Error α} {a : α} :
    fromPot result = .ok a ↔ result = .ok a := by
  cases result <;> simp [fromPot, Except.mapError]

variable {T : Config}

namespace MobState

--
-- Voting
--

/- A new case gets the next index. -/
def judgeStatement (chain : Chain) (w : MobState T) (details : T.Details) : MobState T :=
  { w with
    caseCount := saturatingAdd u32Max w.caseCount 1
    openCases := w.openCases.insert w.caseCount
        { since := chain.now, details := details, tally := {} } }

/-
  The verdict that a case ripens with now: enough votes and
  time, and a result that is definitive or passing.
-/
def ripeVerdict (chain : Chain) (case_ : OpenCase T) : Option Judgement :=
  let secs := chain.now - case_.since
  let result := case_.tally.collapsed T.percent chain.activeCount
  if result.turnout ≥ T.minTurnoutPercentage
      ∧ result.voterCount ≥ T.minTurnoutNominal
      ∧ secs > T.minCaseDuration
      ∧ (result.definitive = true ∨ result.isPassing T.maxVotingDuration secs = true) then
    some result.verdict
  else none

/- Store a case that was taken, ripe if it may be. -/
def storeCase (chain : Chain) (w : MobState T) (caseIndex : Nat)
    (case_ : OpenCase T) : MobState T :=
  match ripeVerdict chain case_ with
  | some verdict =>
    { w with
      openCases := w.openCases.remove caseIndex
      ripeCases := w.ripeCases.insert caseIndex { details := case_.details, verdict := verdict } }
  | none =>
    { w with
      openCases := w.openCases.insert caseIndex case_ }

/- The tally without an old opinion, and the votes cast. -/
def withdrawOpinion (tally : VoteTally)
    (credit : MobCredit) : Option Judgement → VoteTally × MobCredit
  | some oldOpinion => (tally.discount oldOpinion, credit)
  | none =>
    (tally,
      { credit with
        voted := saturatingAdd u32Max credit.voted 1 })

def vote (chain : Chain) (w : MobState T) (voter : T.Alias) (caseIndex : Nat)
    (opinion : Judgement) : Except Error (MobState T) := do
  ensure (opinion ≠ .contempt ∨ w.votingPenalties.containsKey voter = false) Error.underPenalty
  let case_ ← okOr (w.openCases.get caseIndex) Error.notOpen
  let withdrawn := withdrawOpinion case_.tally (w.credits.getD voter {})
      (w.votes.get (caseIndex, voter))
  let case' : OpenCase T := { case_ with tally := withdrawn.1.count opinion }
  let voted : MobState T :=
    { w with
      votes := w.votes.insert (caseIndex, voter) opinion
      credits := w.credits.insert voter withdrawn.2 }
  return voted.storeCase chain caseIndex case'

def touchCase (chain : Chain) (w : MobState T) (caseIndex : Nat) : Except Error (MobState T) := do
  let case_ ← okOr (w.openCases.get caseIndex) Error.notOpen
  return w.storeCase chain caseIndex case_

--
-- Stages of Cases
--

def validateTimeoutCase (chain : Chain) (w : MobState T)
    (caseIndex : Nat) : Except Error (OpenCase T) := do
  let case_ ← okOr (w.openCases.get caseIndex) Error.notOpen
  let activeSince ← okOr w.activeSince Error.caseExpirationDisabled
  ensure (chain.now - max case_.since activeSince ≥ T.maxVotingDuration) Error.recent
  return case_

def forceRipenCase (chain : Chain) (w : MobState T)
    (caseIndex : Nat) : Except Error (MobState T) := do
  let case_ ← validateTimeoutCase chain w caseIndex
  let result := case_.tally.collapsed T.percent chain.activeCount
  return { w with
    openCases := w.openCases.remove caseIndex
    ripeCases := w.ripeCases.insert caseIndex
        { details := case_.details, verdict := result.verdict } }

/- The callback itself acts on other pallets only. -/
def dispatchCallback (caseIndex : Nat) (details : T.Details) (verdict : Judgement)
    (maxCallbackWeight : Weight) : Except Error Unit :=
  match T.callbackWeight caseIndex details verdict with
  | none => .ok ()
  | some weight =>
    ensure (weight.allLte maxCallbackWeight = true) Error.callbackWeightTooLow

def closeCase (chain : Chain) (w : MobState T) (caseIndex : Nat) (maxCallbackWeight : Weight) :
    Except Error (MobState T) := do
  let case_ ← okOr (w.ripeCases.get caseIndex) Error.notRipe
  dispatchCallback caseIndex case_.details case_.verdict maxCallbackWeight
  return { w with
    ripeCases := w.ripeCases.remove caseIndex
    doneCases := w.doneCases.insert caseIndex { since := chain.now, verdict := case_.verdict } }

def intervene (chain : Chain) (w : MobState T) (caseIndex : Nat) (verdict : Judgement)
    (maxCallbackWeight : Weight) :
    Except Error (MobState T) := do
  let case_ ← okOr (w.openCases.get caseIndex) Error.notOpen
  dispatchCallback caseIndex case_.details verdict maxCallbackWeight
  return { w with
    openCases := w.openCases.remove caseIndex
    doneCases := w.doneCases.insert caseIndex { since := chain.now, verdict := verdict } }

def reapCase (chain : Chain) (w : MobState T) (caseIndex : Nat) : Except Error (MobState T) := do
  let case_ ← okOr (w.doneCases.get caseIndex) Error.notDone
  ensure (chain.now > saturatingAdd u64Max case_.since T.maxVoteClaimDuration) Error.recent
  return { w with
    doneCases := w.doneCases.remove caseIndex }

--
-- Claims and Cleaning
--

/- The round whose points are being accumulated. -/
def currentRound (w : MobState T) : Nat :=
  w.payoutDistribution.elim 0 fun distribution =>
    saturatingAdd u32Max distribution.round 1

/- A wrong vote in contempt is punished. -/
def punish (chain : Chain) (w : MobState T) (voter : T.Alias) (vote : Judgement) : MobState T :=
  if vote = .contempt then
    { w with
      votingPenalties := w.votingPenalties.insert voter chain.block }
  else w

/- Take one vote on a case that is done, and count it. -/
def claimOne (chain : Chain) (voter : T.Alias) (acc : MobState T × Nat)
    (caseIndex : Nat) : Except Error (MobState T × Nat) := do
  let vote ← okOr (acc.1.votes.get (caseIndex, voter)) Error.noSuchVote
  let case_ ← okOr (acc.1.doneCases.get caseIndex) Error.notDone
  let taken : MobState T :=
    { acc.1 with
      votes := acc.1.votes.remove (caseIndex, voter) }
  return (
    if case_.verdict.agrees vote then
      (taken, saturatingAdd u32Max acc.2 1)
    else (taken.punish chain voter vote, acc.2))

def doClaimVotes (chain : Chain) (w : MobState T) (voter : T.Alias)
    (caseIndices : List Nat) : Except Error (MobState T) := do
  ensure (caseIndices.length ≤ T.maxVotesClaimable) Error.tooManyClaims
  let credit := w.credits.getD voter {}
  let round := w.currentRound
  let claimed ← caseIndices.foldlM (claimOne chain voter) (w, 0)
  let points := claimed.1.votingPoints.getD (round, voter) 0
  return { claimed.1 with
    votingPoints := claimed.1.votingPoints.insert (round, voter)
        (saturatingAdd u32Max points claimed.2)
    accumulatedPoints := saturatingAdd u64Max claimed.1.accumulatedPoints claimed.2
    credits := claimed.1.credits.insert voter
        { credit with
          cleaned := saturatingAdd u32Max credit.cleaned caseIndices.length
          correct := saturatingAdd u32Max credit.correct claimed.2 } }

/- A done case keeps its votes until they could be claimed. -/
def validateCleanVote (chain : Chain) (w : MobState T) (caseIndex : Nat)
    (voter : T.Alias) : Except Error Judgement := do
  ensure (w.openCases.containsKey caseIndex = false ∧ w.ripeCases.containsKey caseIndex = false)
    Error.notDone
  ensure ((w.doneCases.get caseIndex).all fun case_ =>
      decide (chain.now > saturatingAdd u64Max T.votesOpenForClaimsDuration case_.since))
    Error.recent
  okOr (w.votes.get (caseIndex, voter)) Error.noSuchVote

def cleanVoteInner (chain : Chain) (w : MobState T) (caseIndex : Nat)
    (voter : T.Alias) : Except Error (MobState T) := do
  let vote ← validateCleanVote chain w caseIndex voter
  let credit := w.credits.getD voter {}
  let cleaned : MobCredit :=
    { credit with
      cleaned := saturatingAdd u32Max credit.cleaned 1 }
  let removed : MobState T := { w with votes := w.votes.remove (caseIndex, voter) }
  let verdict := (w.doneCases.get caseIndex).map DoneCase.verdict
  let judged : MobState T × MobCredit :=
    match verdict with
    | some verdict =>
      if verdict.agrees vote then
        (removed,
          { cleaned with
            correct := saturatingAdd u32Max cleaned.correct 1 })
      else (removed.punish chain voter vote, cleaned)
    | none => (removed, cleaned)
  return { judged.1 with
    credits := judged.1.credits.insert voter judged.2 }

def clearVotingPenalty (chain : Chain) (w : MobState T)
    (voter : T.Alias) : Except Error (MobState T) := do
  let start ← okOr (w.votingPenalties.get voter) Error.noPenalty
  ensure (saturatingAdd u32Max start T.votingPenaltyDuration ≤ chain.block) Error.early
  return { w with
    votingPenalties := w.votingPenalties.remove voter }

--
-- Payouts
--

/- Funds reach the pot from elsewhere. -/
def fund (w : MobState T) (amount : Nat) : Except Error (MobState T) := do
  ensure (w.pot.total + amount ≤ u128Max) Error.fundsUnavailable
  return { w with
    pot := { w.pot with free := w.pot.free + amount } }

def payoutRewards (w : MobState T) (voter : T.Alias)
    (toPot accepted : Bool) : Except Error (MobState T) := do
  let credit := w.credits.getD voter {}
  ensure (credit.credit ≠ 0) Error.noCredit
  let released ← fromPot (w.pot.release .credit credit.credit .exact)
  let pot ← fromPot (released.2.transfer toPot accepted released.1)
  return { w with
    pot := pot
    credits := w.credits.insert voter { credit with credit := 0 } }

/- The pot, with what the last round has left over released. -/
def recycle (pot : Pot) :
    Option CreditDistribution → Except Error Pot
  | some distribution => do
    let released ← fromPot (pot.release .payout distribution.remainingBalance .bestEffort)
    return released.2
  | none => .ok pot

/- The schedules after the first one has started a round. -/
def useSchedule (schedules : BoundedVec PayoutSchedule T.maxPayoutRoundSchedules)
    (schedule : PayoutSchedule) :
    BoundedVec PayoutSchedule T.maxPayoutRoundSchedules :=
  if schedule.remaining - 1 = 0 then schedules.eraseIdx 0
  else
    schedules.set 0 { schedule with remaining := schedule.remaining - 1 }

def startPayoutRound (chain : Chain) (w : MobState T) : Except Error (MobState T) := do
  ensure (w.accumulatedPoints > 0) Error.noPoints
  let schedule ← okOr w.roundSchedules.toList.head? Error.noSchedule
  ensure (w.payoutDistribution.all fun distribution =>
      decide (saturatingAdd u32Max distribution.start schedule.period ≤ chain.block))
    Error.recent
  let pot ← recycle w.pot w.payoutDistribution
  return { w with
    pot := pot
    payoutDistribution := some
        { round := w.currentRound
          initialBalance := schedule.amountPerRound
          remainingBalance := schedule.amountPerRound
          totalPoints := w.accumulatedPoints
          start := chain.block }
    accumulatedPoints := 0
    roundSchedules := useSchedule w.roundSchedules schedule
    claimedOfRound := 0 }

def schedulePayoutRounds (w : MobState T) (amount count period : Nat) :
    Except Error (MobState T) := do
  let pot ← fromPot (w.pot.hold .payout (saturatingMul u128Max amount count))
  let schedules ← okOr (w.roundSchedules.tryPush
        { remaining := count
          amountPerRound := amount
          period := period })
      Error.tooManySchedules
  return { w with pot := pot, roundSchedules := schedules }

def removePayoutSchedule (w : MobState T) (index : Nat) : Except Error (MobState T) := do
  let schedule ← okOr (w.roundSchedules.toList[index]?) Error.noSchedule
  let released ← fromPot (w.pot.release .payout (saturatingMul u128Max schedule.amountPerRound
        schedule.remaining)
      .bestEffort)
  return { w with
    pot := released.2
    roundSchedules := w.roundSchedules.eraseIdx index }

/- What points are worth in the round that is paid. -/
def claimable (T : Config) (distribution : CreditDistribution) (points : Nat) : Nat :=
  T.perbill points distribution.totalPoints * distribution.initialBalance / billion

def claimCredit (w : MobState T) (voter : T.Alias) : Except Error (MobState T) := do
  let distribution ← okOr w.payoutDistribution Error.noReward
  let credit := w.credits.getD voter {}
  let points := w.votingPoints.getD (distribution.round, voter) 0
  ensure (points > 0) Error.noPoints
  let released ← fromPot (w.pot.release .payout (claimable T distribution points) .bestEffort)
  let pot ← fromPot (released.2.hold .credit released.1)
  let total ← okOr (checkedAdd u128Max credit.credit released.1) Error.arithmeticOverflow
  return { w with
    pot := pot
    votingPoints := w.votingPoints.remove (distribution.round, voter)
    payoutDistribution := some
        { distribution with
          remainingBalance := distribution.remainingBalance - released.1 }
    credits := w.credits.insert voter { credit with credit := total }
    claimedOfRound := w.claimedOfRound + released.1 }

def cleanPoints (w : MobState T) (round : Nat) (voter : T.Alias) : Except Error (MobState T) := do
  let distribution ← okOr w.payoutDistribution Error.noPayout
  ensure (round < distribution.round) Error.noPayout
  ensure (w.votingPoints.containsKey (round, voter) = true) Error.noPoints
  return { w with
    votingPoints := w.votingPoints.remove (round, voter) }

--
-- Hooks
--

/- Voting is enabled and disabled, while the weight suffices. -/
def doOnPoll (chain : Chain) (w : MobState T) (baseFits changeFits : Bool) : MobState T :=
  if baseFits && changeFits then
    match w.activeSince with
    | none =>
      if chain.activeCount ≥ T.minimumVoterThreshold then
        { w with activeSince := some chain.now }
      else w
    | some _ =>
      if chain.activeCount < T.minimumVoterThreshold then
        { w with activeSince := none }
      else w
  else w

end MobState

--
-- Operations
--

/-
  The calls of the pallet, the statements of other pallets, funds that reach the pot, and the hook
  of each block. Cleaning a vote is the same for signed and authorized calls.
-/
inductive Op (T : Config) where
  | judgeStatement (details : T.Details)
  | vote
      (voter : T.Alias)
      (caseIndex : Nat)
      (opinion : Judgement)
  | touchCase (caseIndex : Nat)
  | forceRipenCase (caseIndex : Nat)
  | closeCase (caseIndex : Nat) (maxCallbackWeight : Weight)
  | intervene
      (caseIndex : Nat)
      (verdict : Judgement)
      (maxCallbackWeight : Weight)
  | reapCase (caseIndex : Nat)
  | claimVotes (voter : T.Alias) (caseIndices : List Nat)
  | cleanVote (caseIndex : Nat) (voter : T.Alias)
  | clearVotingPenalty (voter : T.Alias)
  | fund (amount : Nat)
  | payoutRewards (voter : T.Alias) (toPot accepted : Bool)
  | startPayoutRound
  | schedulePayoutRounds (amount count period : Nat)
  | removePayoutSchedule (index : Nat)
  | claimCredit (voter : T.Alias)
  | cleanPoints (round : Nat) (voter : T.Alias)
  | onPoll (baseFits changeFits : Bool)

def MobState.perform (w : MobState T) (step : Chain × Op T) : Except Error (MobState T) :=
  match step.2 with
  | .judgeStatement details =>
    .ok (judgeStatement step.1 w details)
  | .vote voter caseIndex opinion =>
    vote step.1 w voter caseIndex opinion
  | .touchCase caseIndex => touchCase step.1 w caseIndex
  | .forceRipenCase caseIndex =>
    forceRipenCase step.1 w caseIndex
  | .closeCase caseIndex maxCallbackWeight =>
    closeCase step.1 w caseIndex maxCallbackWeight
  | .intervene caseIndex verdict maxCallbackWeight =>
    intervene step.1 w caseIndex verdict maxCallbackWeight
  | .reapCase caseIndex => reapCase step.1 w caseIndex
  | .claimVotes voter caseIndices =>
    doClaimVotes step.1 w voter caseIndices
  | .cleanVote caseIndex voter =>
    cleanVoteInner step.1 w caseIndex voter
  | .clearVotingPenalty voter =>
    clearVotingPenalty step.1 w voter
  | .fund amount => w.fund amount
  | .payoutRewards voter toPot accepted =>
    w.payoutRewards voter toPot accepted
  | .startPayoutRound => startPayoutRound step.1 w
  | .schedulePayoutRounds amount count period =>
    w.schedulePayoutRounds amount count period
  | .removePayoutSchedule index => w.removePayoutSchedule index
  | .claimCredit voter => w.claimCredit voter
  | .cleanPoints round voter => w.cleanPoints round voter
  | .onPoll baseFits changeFits =>
    .ok (doOnPoll step.1 w baseFits changeFits)

end Individuality.MobRule
