import Individuality.PeopleMulti.Pallet
import Mathlib.Data.BitVec

/-
  The storage of the score pallet: participants with their
  score and credit, the payout rounds, and the pot.

  Main declaration: `AttendanceHistory.missesInWindow`
-/

namespace Individuality.Score

--
-- Attendance
--

/- One bit for each of the last games, the newest first. -/
abbrev AttendanceHistory := BitVec 8

namespace AttendanceHistory

/- New participants count as having attended before. -/
def default : AttendanceHistory := 255#8

def storeAttendance (history : AttendanceHistory) (attended : Bool) : AttendanceHistory :=
  history <<< 1 ||| (BitVec.ofBool attended).zeroExtend 8

/- The missed games among the last `window` ones. -/
def missesInWindow (history : AttendanceHistory) (window : Nat) : Nat :=
  let window := min window 8
  window - (List.range window).countP fun i => history.getLsbD i

end AttendanceHistory

inductive Streak where
  | attended (count : Nat)
  | absent (count : Nat)
  deriving DecidableEq, Repr

namespace Streak

def default : Streak := attended 0

def addAttendance (amount : Nat) : Streak → Streak
  | attended count => attended (saturatingAdd u8Max count amount)
  | absent _ => attended amount

def addAbsence (amount : Nat) : Streak → Streak
  | absent count => absent (saturatingAdd u8Max count amount)
  | attended _ => absent amount

def attendance : Streak → Nat
  | attended count => count
  | absent _ => 0

def absence : Streak → Nat
  | absent count => count
  | attended _ => 0

/- Nothing happens in a streak of absences. -/
def resetAttendance : Streak → Streak
  | attended _ => attended 0
  | absent count => absent count

end Streak

--
-- Schedules of Thresholds
--

/- The largest personhood threshold and score. -/
def maxPersonhoodThreshold : Nat := 21

def maxPersonhoodThresholdTiers : Nat := 16

structure PersonhoodThresholdTier where
  populationSizeThreshold : Nat
  scoreThreshold : Nat
  deriving DecidableEq, Repr

abbrev PersonhoodThresholdTiers :=
  BoundedVec PersonhoodThresholdTier maxPersonhoodThresholdTiers

structure AbsenceGraceTier where
  populationSizeThreshold : Nat
  window : Nat
  allowedMisses : Nat
  deriving DecidableEq, Repr

abbrev AbsenceGraceTiers :=
  BoundedVec AbsenceGraceTier 8

def defaultPersonhoodThresholdTiers : PersonhoodThresholdTiers :=
  ⟨[⟨5000, 1⟩, ⟨10000, 3⟩, ⟨20000, 6⟩, ⟨35000, 10⟩,
    ⟨50000, 15⟩, ⟨u32Max, maxPersonhoodThreshold⟩], by decide⟩

def defaultAbsenceGraceTiers : AbsenceGraceTiers :=
  ⟨[⟨5000, 6, 5⟩, ⟨10000, 5, 4⟩, ⟨20000, 4, 3⟩, ⟨35000, 3, 2⟩,
    ⟨50000, 2, 1⟩, ⟨u32Max, 6, 1⟩], by decide⟩

--
-- Participants
--

/- The recognition of a participant in the registry. -/
inductive Recognition where
  | externallyRecognized
  | notRecognized
  | suspended (id : Nat)
  | recognized (id : Nat)
  deriving DecidableEq, Repr

namespace Recognition

def isExternallyRecognized : Recognition → Bool
  | externallyRecognized => true
  | _ => false

def isRecognizedByScore : Recognition → Bool
  | recognized _ => true
  | _ => false

/- The personal id that a participant holds. -/
def personalId : Recognition → Option Nat
  | suspended id => some id
  | recognized id => some id
  | _ => none

end Recognition

structure Participant where
  score : Nat
  streak : Streak := .default
  attendanceHistory : AttendanceHistory := .default
  credit : Nat := 0
  cashedOut : Bool := false
  reachedPersonhood : Bool
  hasEverReachedPersonhood : Bool
  recognition : Recognition
  lastAttendedGame : Option Nat := none
  attendedGamesWhileRecognized : Nat := 0

/- An account, or a person known by an alias. -/
inductive AccountOrPerson (A P : Type) where
  | account (who : A)
  | person (alias_ : P)
  deriving DecidableEq, Repr

--
-- Payout Rounds
--

structure PayoutSchedule where
  remaining : Nat
  amountPerRound : Nat
  duration : Nat
  deriving DecidableEq, Repr

structure RoundInfo where
  finishAt : Nat
  credit : Nat
  deriving DecidableEq, Repr

structure RoundPayout where
  remainingBalance : Nat
  pointPrice : Nat
  remainder : Nat
  totalPoints : Nat
  deriving DecidableEq, Repr

--
-- The Pot
--

inductive HoldReason where
  | payout
  | credit
  deriving DecidableEq, Repr

/- The account of the pallet, split by what holds the funds. -/
structure Pot where
  free : Nat := 0
  payout : Nat := 0
  credit : Nat := 0
  deriving DecidableEq, Repr

def Pot.total (pot : Pot) : Nat :=
  pot.free + pot.payout + pot.credit

--
-- Storage
--

/-
  The accounts, aliases and keys, the account of the pot and the bound on schedules.  `hashOrder` is
  the order in which the entries of one round are drained.
-/
structure Config where
  Account : Type
  Alias : Type
  Member : Type
  [decEqAccount : DecidableEq Account]
  [decEqAlias : DecidableEq Alias]
  [decEqMember : DecidableEq Member]
  potId : Account
  maxPayoutRoundSchedules : Nat
  hashOrder :
    List (AccountOrPerson Account Alias) → List (AccountOrPerson Account Alias)
  hashOrder_perm : ∀ keys, (hashOrder keys).Perm keys

attribute [instance] Config.decEqAccount
attribute [instance] Config.decEqAlias
attribute [instance] Config.decEqMember

abbrev Config.Who (T : Config) : Type :=
  AccountOrPerson T.Account T.Alias

structure ScoreState (T : Config) where
  participants : StorageMap T.Who Participant
  personhoodThreshold : Nat
  personhoodThresholdSchedule : PersonhoodThresholdTiers
  absenceGraceSchedule : AbsenceGraceTiers
  absenceGraceRatio : Nat × Nat
  currentRoundPoints : Nat
  currentRoundIndex : Nat
  roundsPointsForParticipant : StorageMap (Nat × T.Who) Nat
  roundPayouts : StorageMap Nat RoundPayout
  roundPlanning : Option RoundInfo
  roundSchedules : BoundedVec PayoutSchedule T.maxPayoutRoundSchedules

def ScoreState.genesis {T : Config} : ScoreState T where
  participants := .empty
  personhoodThreshold := 0
  personhoodThresholdSchedule := defaultPersonhoodThresholdTiers
  absenceGraceSchedule := defaultAbsenceGraceTiers
  absenceGraceRatio := (0, 0)
  currentRoundPoints := 0
  currentRoundIndex := 0
  roundsPointsForParticipant := .empty
  roundPayouts := .empty
  roundPlanning := none
  roundSchedules := .empty

/- The score pallet with its pot and the registry of people. -/
structure World (T : Config) where
  score : ScoreState T
  people : PeopleMulti.PeopleState T.Member T.Account
  pot : Pot

def World.genesis {T : Config} : World T where
  score := .genesis
  people := .genesis
  pot := {}

inductive Error where
  | hasNotReachedPersonhood
  | noReward
  | noScore
  | noSchedule
  | tooManySchedules
  | recognized
  | cashOutCooldown
  | roundOnGoingOrNoSchedule
  | noRound
  | alreadyParticipating
  | keyMustBeProvided
  | keyMustNotBeProvided
  | hasReachedPersonhood
  | invalidProofOfOwnership
  | windowTooLarge
  | allowedMissesTooLarge
  | absenceScheduleNotSorted
  | personhoodScheduleEmpty
  | personhoodScoreThresholdZero
  | personhoodScoreThresholdTooLarge
  | personhoodScheduleNotSorted
  | personhoodScheduleNotMonotonic
  | personhoodScheduleNotTotal
  | fundsUnavailable
  | people (e : PeopleMulti.Error)
  deriving DecidableEq, Repr

end Individuality.Score
