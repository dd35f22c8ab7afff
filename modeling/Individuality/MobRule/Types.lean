import Individuality.Base.DoubleMap
import Individuality.Score.Pallet

/-
  The storage of the mob-rule pallet: the cases in their stages, the votes with the records of
  voters, and the rounds in which correct votes are paid.

  Main declaration: `Judgement`
-/

namespace Individuality.MobRule

open Score (Pot)

--
-- Judgements
--

inductive Truth where
  | true_
  | false_
  deriving DecidableEq, Repr

inductive Judgement where
  | truth (t : Truth)
  | contempt
  deriving DecidableEq, Repr

def Judgement.matchesIntent : Judgement → Judgement → Bool
  | .truth .true_, .truth .true_ => true
  | .truth .false_, .truth .false_ => true
  | .contempt, .contempt => true
  | _, _ => false

/- A vote against a contemptuous case is correct as well. -/
def Judgement.agrees (verdict vote : Judgement) : Bool :=
  verdict.matchesIntent vote
    || decide (verdict = .contempt ∧ vote = .truth .false_)

--
-- Tallies
--

structure VoteTally where
  aye : Nat := 0
  nay : Nat := 0
  contempt : Nat := 0
  deriving DecidableEq, Repr

structure VoteCountResult where
  verdict : Judgement
  ayeWeight : Nat
  nayWeight : Nat
  turnout : Nat
  voterCount : Nat
  definitive : Bool

namespace VoteTally

def count (tally : VoteTally) : Judgement → VoteTally
  | .truth .true_ =>
    { tally with aye := saturatingAdd u32Max tally.aye 1 }
  | .truth .false_ =>
    { tally with nay := saturatingAdd u32Max tally.nay 1 }
  | .contempt =>
    { tally with
      contempt := saturatingAdd u32Max tally.contempt 1 }

def discount (tally : VoteTally) : Judgement → VoteTally
  | .truth .true_ => { tally with aye := tally.aye - 1 }
  | .truth .false_ => { tally with nay := tally.nay - 1 }
  | .contempt => { tally with contempt := tally.contempt - 1 }

/- The votes of one kind. -/
def of (tally : VoteTally) : Judgement → Nat
  | .truth .true_ => tally.aye
  | .truth .false_ => tally.nay
  | .contempt => tally.contempt

/-
  Count the votes, where `percent` is the turnout among the
  active voters.  Contempt votes weigh as much as nay votes.
-/
def collapsed (percent : Nat → Nat → Nat) (tally : VoteTally)
    (activeVoters : Nat) : VoteCountResult :=
  let voteCount := saturatingAdd u32Max (saturatingAdd u32Max tally.aye tally.nay) tally.contempt
  if voteCount = 0 then
    { verdict := .truth .false_
      ayeWeight := 0
      nayWeight := 0
      turnout := 0
      voterCount := 0
      definitive := false }
  else
    let nayWeight := saturatingAdd u32Max tally.nay tally.contempt
    let remainingVoters := activeVoters - voteCount
    let passes := decide (tally.aye > nayWeight)
    let lead :=
      if passes then tally.aye - nayWeight
      else nayWeight - tally.aye
    { verdict :=
        if passes then .truth .true_
        else if tally.contempt ≥ tally.nay then .contempt
        else .truth .false_
      ayeWeight := tally.aye
      nayWeight := nayWeight
      turnout := percent voteCount activeVoters
      voterCount := voteCount
      definitive := decide (remainingVoters = 0)
          || decide (lead > remainingVoters) }

end VoteTally

/- The required approval falls with time, from everybody to a simple majority. -/
def VoteCountResult.isPassing (result : VoteCountResult) (maxDuration elapsed : Nat) : Bool :=
  let remaining := maxDuration - elapsed
  let totalVoteWeight := saturatingAdd u32Max result.ayeWeight result.nayWeight
  decide (saturatingMul u64Max (saturatingMul u64Max maxDuration result.ayeWeight) 2
      > saturatingMul u64Max (saturatingAdd u64Max maxDuration remaining) totalVoteWeight)

--
-- Configuration
--

structure Weight where
  refTime : Nat
  proofSize : Nat
  deriving DecidableEq, Repr

def Weight.allLte (self other : Weight) : Bool :=
  decide (self.refTime ≤ other.refTime ∧ self.proofSize ≤ other.proofSize)

/- The parts that make up a whole. -/
def billion : Nat := 1000000000

/-
  The constants of the pallet.  `percent` and `perbill` tell what part the first number is of the
  second one, and parts are rounded down.  A callback that does not decode has no weight.
-/
structure Config where
  Alias : Type
  Details : Type
  [decEqAlias : DecidableEq Alias]
  maxVoteClaimDuration : Nat
  minCaseDuration : Nat
  maxVotingDuration : Nat
  minTurnoutNominal : Nat
  minTurnoutPercentage : Nat
  maxPayoutRoundSchedules : Nat
  votingPenaltyDuration : Nat
  maxVotesClaimable : Nat
  votesOpenForClaimsDuration : Nat
  minimumVoterThreshold : Nat
  claims_le : votesOpenForClaimsDuration ≤ maxVoteClaimDuration
  percent : Nat → Nat → Nat
  perbill : Nat → Nat → Nat
  perbill_roundsDown :
    ∀ part whole, part ≤ whole → perbill part whole * whole ≤ part * billion
  callbackWeight : Nat → Details → Judgement → Option Weight

attribute [instance] Config.decEqAlias

/- What a call reads of the rest of the chain. -/
structure Chain where
  now : Nat
  block : Nat
  activeCount : Nat
  now_le : now ≤ u64Max

--
-- Storage
--

structure OpenCase (T : Config) where
  since : Nat
  details : T.Details
  tally : VoteTally

structure RipeCase (T : Config) where
  details : T.Details
  verdict : Judgement

structure DoneCase where
  since : Nat
  verdict : Judgement
  deriving DecidableEq, Repr

structure MobCredit where
  voted : Nat := 0
  cleaned : Nat := 0
  correct : Nat := 0
  credit : Nat := 0
  deriving DecidableEq, Repr

structure CreditDistribution where
  round : Nat
  initialBalance : Nat
  remainingBalance : Nat
  totalPoints : Nat
  start : Nat
  deriving DecidableEq, Repr

structure PayoutSchedule where
  remaining : Nat
  amountPerRound : Nat
  period : Nat
  deriving DecidableEq, Repr

/-
  The storage of the pallet with the account of the pot.  What was claimed of the current
  distribution is not stored by the pallet: it is only kept to speak of the round as a whole.
-/
structure MobState (T : Config) where
  credits : StorageMap T.Alias MobCredit
  votingPenalties : StorageMap T.Alias Nat
  votingPoints : DoubleMap Nat T.Alias Nat
  votes : DoubleMap Nat T.Alias Judgement
  caseCount : Nat
  openCases : StorageMap Nat (OpenCase T)
  ripeCases : StorageMap Nat (RipeCase T)
  doneCases : StorageMap Nat DoneCase
  accumulatedPoints : Nat
  payoutDistribution : Option CreditDistribution
  roundSchedules : BoundedVec PayoutSchedule T.maxPayoutRoundSchedules
  activeSince : Option Nat
  pot : Pot
  claimedOfRound : Nat

def MobState.genesis {T : Config} : MobState T where
  credits := .empty
  votingPenalties := .empty
  votingPoints := .empty
  votes := .empty
  caseCount := 0
  openCases := .empty
  ripeCases := .empty
  doneCases := .empty
  accumulatedPoints := 0
  payoutDistribution := none
  roundSchedules := .empty
  activeSince := none
  pot := {}
  claimedOfRound := 0

inductive Error where
  | noSuchVote
  | notOpen
  | notRipe
  | notDone
  | recent
  | noCredit
  | noReward
  | noPoints
  | tooManyClaims
  | noPayout
  | arithmeticOverflow
  | tooManySchedules
  | noSchedule
  | noPenalty
  | early
  | underPenalty
  | caseExpirationDisabled
  | callbackWeightTooLow
  | fundsUnavailable
  | pot (e : Score.Error)
  deriving DecidableEq, Repr

end Individuality.MobRule
