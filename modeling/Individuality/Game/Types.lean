import Individuality.Base.Iteration
import Individuality.MembersPallet.Types
import Individuality.Score.Pallet

/-
  The storage of the game pallet: players, archived players, the game with its phases, the maps of a
  shuffle, and what the pallet has with other pallets.

  Main declaration: `Player`
-/

namespace Individuality.Game

open MembersPallet (RingMembersState)
open Score (AccountOrPerson)

--
-- Players
--

/- Why a player can play, with the ticket of a deposit. -/
inductive PlayerCredibility where
  | invited
  | recognized
  | deposit (ticket : Nat)
  deriving DecidableEq, Repr

inductive PlayerDisposition where
  | keep
  | archiveKickable
  | archiveUnkickable
  deriving DecidableEq, Repr

structure EarlyAttendanceEnactment where
  attendance : Bool
  disposition : PlayerDisposition
  deriving DecidableEq, Repr

inductive AttendanceStatus where
  | attended
  | notAttended
  | pending
  deriving DecidableEq, Repr

structure Player where
  firstGame : Nat
  registered : Bool
  sentReport : Bool := false
  earlyAttendanceEnactment : Option EarlyAttendanceEnactment := none
  yesPerson : Nat := 0
  noNotPerson : Nat := 0
  expectedMaxVoteWeight : Nat := 0
  voteWeight : Nat := 0
  credibility : PlayerCredibility
  deriving DecidableEq, Repr

inductive ArchivedPlayer where
  | kickable (firstGame archivedSince : Nat)
  | unkickable (firstGame : Nat)
  deriving DecidableEq, Repr

def ArchivedPlayer.firstGame : ArchivedPlayer → Nat
  | kickable firstGame _ => firstGame
  | unkickable firstGame => firstGame

inductive Report where
  | person
  | notPerson
  deriving DecidableEq, Repr

--
-- The Game
--

inductive ShuffleRetrievePhase where
  | recognized
  | notRecognized (recognizedCount : Nat)
  deriving DecidableEq, Repr

section States

variable (W : Type)

inductive ShuffleStep where
  | insert (lastIteration : Option W)
  | retrieve
      (nextPlayerIndex : Nat)
      (phase : ShuffleRetrievePhase)
  | computeWeights (lastIteration : Option W) (playerCount recognizedCount : Nat)
  | awaitSession (playerCount : Nat)
  deriving DecidableEq, Repr

inductive PlayerProcessStep where
  | processPlayers (lastIteration : Option W) (playerCount : Nat)
  | clearIndices
  deriving DecidableEq, Repr

inductive CancellingStep where
  | drainShuffle
  | drainPlayers (lastIteration : Option W)
  deriving DecidableEq, Repr

inductive GameState where
  | registration (nextPlayerIndex : Nat)
  | shuffle (step : ShuffleStep W)
  | reporting (playerCount : Nat)
  | playerProcess (step : PlayerProcessStep W)
  | cancelling (step : CancellingStep W)
  deriving DecidableEq, Repr

structure GameInfo where
  index : Nat
  registrationEnds : Nat
  shuffleDeadline : Nat
  gameDate : Nat
  reportEnds : Nat
  state : GameState W
  maxGroupSize : Nat
  rounds : Nat
  pendingAttendance : Nat
  airdropsScheduled : Nat
  deriving DecidableEq, Repr

end States

--
-- Groups
--

structure GroupsSetting where
  fullGroupSize : Nat
  playerCount : Nat

namespace GroupsSetting

def numberOfGroup (setting : GroupsSetting) : Nat :=
  if setting.fullGroupSize = 0 then
    setting.playerCount
  else
    let div := setting.playerCount / setting.fullGroupSize
    if setting.playerCount % setting.fullGroupSize = 0 then div
    else saturatingAdd u32Max div 1

/- Every group holds at most one player less than a full one. -/
def acceptablePlayerCount (setting : GroupsSetting) : Bool :=
  setting.playerCount ≠ 0 && saturatingMul u32Max (setting.fullGroupSize - 1)
      setting.numberOfGroup ≤ setting.playerCount

/- Without groups the remainder fails, and the group is 0. -/
def groupIndexFromPlayerIndex (setting : GroupsSetting) (shuffledPosition : Nat) : Nat :=
  if setting.numberOfGroup = 0 then 0
  else shuffledPosition % setting.numberOfGroup

def groupMembers (setting : GroupsSetting) (groupIndex : Nat) : List Nat :=
  ((List.range setting.fullGroupSize).map fun i =>
    saturatingAdd u32Max groupIndex (saturatingMul u32Max i setting.numberOfGroup)).filter
        (· < setting.playerCount)

end GroupsSetting

--
-- Schedules
--

structure PhaseDurationValues where
  registration : Nat
  shuffle : Nat
  postShuffleMargin : Nat
  reporting : Nat
  playerProcess : Nat
  deriving DecidableEq, Repr

/- A game to come, with the number of its airdrops. -/
structure GameSchedule where
  gamePlayTime : Nat
  rounds : Nat
  maxGroupSize : Nat
  airdrops : Nat
  deriving DecidableEq, Repr

/- The times of a game that is played at a given time. -/
namespace GameTimes

def registrationEnd (phases : PhaseDurationValues) (gamePlayTime : Nat) : Nat :=
  gamePlayTime - phases.shuffle - phases.postShuffleMargin

def registrationStart (phases : PhaseDurationValues) (gamePlayTime : Nat) : Nat :=
  registrationEnd phases gamePlayTime - phases.registration

def shuffleDeadline (phases : PhaseDurationValues) (gamePlayTime : Nat) : Nat :=
  gamePlayTime - phases.postShuffleMargin

def reportingEnd (phases : PhaseDurationValues) (gamePlayTime : Nat) : Nat :=
  saturatingAdd u32Max gamePlayTime phases.reporting

def playerProcessEnd (phases : PhaseDurationValues) (gamePlayTime : Nat) : Nat :=
  saturatingAdd u32Max (reportingEnd phases gamePlayTime) phases.playerProcess

end GameTimes

--
-- Statement Allowances
--

structure StatementAllowance where
  maxCount : Nat
  maxSize : Nat
  deriving DecidableEq, Repr

namespace StatementAllowance

def zero : StatementAllowance := ⟨0, 0⟩

def add (a b : StatementAllowance) : StatementAllowance :=
  ⟨a.maxCount + b.maxCount, a.maxSize + b.maxSize⟩

def sub (a b : StatementAllowance) : StatementAllowance :=
  ⟨a.maxCount - b.maxCount, a.maxSize - b.maxSize⟩

@[simp] theorem zero_add (a : StatementAllowance) : zero.add a = a := by
  simp [zero, add]

@[simp] theorem sub_self (a : StatementAllowance) : a.sub a = zero := by
  simp [zero, sub]

end StatementAllowance

--
-- Play Deposits
--

/-
  The tickets that were created for accounts, and the ones
  that were dropped or burned, each time one was.
-/
structure DepositLog (A : Type) where
  created : List (A × Nat)
  settled : List (A × Nat)

namespace DepositLog

variable {A : Type}

def empty : DepositLog A where
  created := []
  settled := []

def create (log : DepositLog A) (account : A) (ticket : Nat) : DepositLog A :=
  { log with created := (account, ticket) :: log.created }

def settle (log : DepositLog A) (account : A) (ticket : Nat) : DepositLog A :=
  { log with settled := (account, ticket) :: log.settled }

/- How many equal tickets of an account are outstanding. -/
def outstanding [DecidableEq A] (log : DepositLog A) (account : A) (ticket : Nat) : Nat :=
  log.created.count (account, ticket) - log.settled.count (account, ticket)

end DepositLog

--
-- Sessions
--

/-
  The sessions in which people may be removed: the semaphore of the rings, how many sessions others
  hold, and how many the game has opened and closed.
-/
structure Sessions where
  rings : RingMembersState
  others : Nat
  opened : Nat
  closed : Nat

namespace Sessions

def empty : Sessions where
  rings := .appendOnly
  others := 0
  opened := 0
  closed := 0

def canStart (sessions : Sessions) : Bool :=
  sessions.rings.startMutationSession.isSome

/- The game opens a session. -/
def start (sessions : Sessions) : Option Sessions :=
  sessions.rings.startMutationSession.map fun rings =>
    { sessions with rings := rings, opened := sessions.opened + 1 }

/- The game closes a session. -/
def close (sessions : Sessions) : Option Sessions :=
  sessions.rings.endMutationSession.map fun rings =>
    { sessions with rings := rings, closed := sessions.closed + 1 }

def otherStart (sessions : Sessions) : Option Sessions :=
  sessions.rings.startMutationSession.map fun rings =>
    { sessions with rings := rings, others := sessions.others + 1 }

def otherClose (sessions : Sessions) : Option Sessions :=
  sessions.rings.endMutationSession.map fun rings =>
    { sessions with rings := rings, others := sessions.others - 1 }

end Sessions

--
-- Storage
--

/-
  `hashedKey` is the order in which players are iterated, and `positionKey` the position in a
  shuffle that the hash of the parent block, the player and the round give.  Neither hash has a
  collision.
-/
structure Config extends Score.Config where
  maxRounds : Nat
  maxGroupSize : Nat
  minGroupSize : Nat
  maxGameSchedules : Nat
  maxAttendanceHistoryDepth : Nat
  nonPlayingKickoutTime : Nat
  minStepPhaseDuration : Nat
  defaultPhaseDurations : PhaseDurationValues
  playerStatementLimit : StatementAllowance
  peopleVoteWeight : Nat
  candidateVoteWeight : Nat
  hashedKey : AccountOrPerson Account Alias → Nat
  hashedKey_injective : Function.Injective hashedKey
  positionKey : Nat → AccountOrPerson Account Alias → Nat → Nat
  positionKey_injective : ∀ parentHash parentHash' who who' round,
      positionKey parentHash who round
          = positionKey parentHash' who' round →
        who = who'
  minGroupSize_ge : 2 ≤ minGroupSize
  minGroupSize_lt : minGroupSize < maxGroupSize
  peopleVotes_le :
    saturatingMul u32Max maxRounds (maxGroupSize - 1) * peopleVoteWeight ≤ u8Max
  candidateVotes_le : saturatingMul u32Max maxRounds (maxGroupSize - 1)
      * candidateVoteWeight ≤ u8Max

structure GameStorage (T : Config) where
  storedPhaseDurations : Option PhaseDurationValues
  archivedPlayers : StorageMap T.Who ArchivedPlayer
  players : StorageMap T.Who Player
  gameIndex : Nat
  game : Option (GameInfo T.Who)
  playerAttendanceHistory :
    StorageMap T.Who (BoundedVec Nat T.maxAttendanceHistoryDepth)
  gameParticipantCount : StorageMap Nat Nat
  indexToPlayer : StorageMap (Nat × Nat) T.Who
  playerToIndex : StorageMap T.Who (List Nat)
  shuffleRecognized : StorageMap (Nat × Nat) T.Who
  shuffleNotRecognized : StorageMap (Nat × Nat) T.Who
  gameSchedules : BoundedVec GameSchedule T.maxGameSchedules
  liteInvites : StorageMap T.Alias T.Account
  aliasToStmtAccount : StorageMap T.Alias T.Account
  stmtAccountToAlias : StorageMap T.Account T.Alias

def GameStorage.genesis {T : Config} : GameStorage T where
  storedPhaseDurations := none
  archivedPlayers := .empty
  players := .empty
  gameIndex := 0
  game := none
  playerAttendanceHistory := .empty
  gameParticipantCount := .empty
  indexToPlayer := .empty
  playerToIndex := .empty
  shuffleRecognized := .empty
  shuffleNotRecognized := .empty
  gameSchedules := .empty
  liteInvites := .empty
  aliasToStmtAccount := .empty
  stmtAccountToAlias := .empty

/- A call that sets an attendance, and whether it succeeds. -/
structure AttendanceCall (W : Type) where
  who : W
  attendance : Bool
  gameIndex : Nat
  isOk : Bool
  deriving DecidableEq, Repr

/-
  The game pallet with the score pallet, the allowances in the statement store, the deposits and the
  sessions.  The calls that set an attendance are logged.
-/
structure World (T : Config) where
  score : Score.World T.toConfig
  store : GameStorage T
  allowances : StorageMap T.Account StatementAllowance
  deposits : DepositLog T.Account
  sessions : Sessions
  attendanceLog : List (AttendanceCall T.Who)

def World.genesis {T : Config} : World T where
  score := .genesis
  store := .genesis
  allowances := .empty
  deposits := .empty
  sessions := .empty
  attendanceLog := []

/-
  What a call reads of the rest of the chain.  The time is in milliseconds.  Signatures, airdrops
  and credits are accepted or refused by others.  `newDeposit` is the ticket of a deposit that an
  account can pay, and `dropDeposit` whether the ticket of an account can be dropped.
-/
structure Env (T : Config) where
  chain : PeopleMulti.Chain T.Member T.Account
  now : Nat
  parentHash : Nat
  signatureValid : Bool
  newDeposit : T.Account → Option Nat
  dropDeposit : T.Account → Nat → Bool
  airdropAccepted : Bool
  airdropsScheduled : Nat
  creditCapacity : Nat
  creditsAwarded : T.Who → Nat
  creditsCleared : Bool

/- A time in seconds, as one of the clock. -/
def fromSecs (secs : Nat) : Nat := secs * 1000

inductive Error where
  | gameOngoing
  | noRegistration
  | outdatedGameSetup
  | invalidGameSetup
  | invalidReport
  | noGame
  | noReporting
  | notRegistered
  | alreadyRegistered
  | reportAlreadySent
  | early
  | notKickablePlayer
  | noArchivedPlayer
  | useInviteButAlreadyPlaying
  | anotherAccountInvited
  | tooManyGameSchedules
  | noSuchGameScheduled
  | invalidStatementAccountSignature
  | statementAccountAlreadyInUse
  | internalErrorInvalidState
  | invalidGameState
  | noPlayer
  | cannotOffboardWhileRegisteredForGame
  | invalidAirdropVrfVariantForAccount
  | invalidAirdropVrfVariantForRecognition
  | invalidAirdropVrfCount
  | creditCapacityExhausted
  | phaseTooShort
  | airdropRefused
  | depositRefused
  | stepNotDue
  | notACall
  | session
  | score (e : Score.Error)
  deriving DecidableEq, Repr

end Individuality.Game
