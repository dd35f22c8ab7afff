import Individuality.Game.Types

/-
  The writes that the operations of the game pallet share, and the schedules of games.

  Main declaration: `World.mutatePlayer`
-/

namespace Individuality.Game

variable {T : Config}

namespace World

--
-- Writes
--

def withStore (w : World T) (store : GameStorage T) : World T :=
  { w with store := store }

def putGame (w : World T) (game : GameInfo T.Who) : World T :=
  w.withStore { w.store with game := some game }

def setState (w : World T) (game : GameInfo T.Who) (state : GameState T.Who) : World T :=
  w.putGame { game with state := state }

def setPlayer (w : World T) (who : T.Who) (player : Player) : World T :=
  w.withStore { w.store with players := w.store.players.insert who player }

/- Change the record of a player that there is. -/
def mutatePlayer (w : World T) (who : T.Who) (f : Player → Player) : World T :=
  match w.store.players.get who with
  | some player => w.setPlayer who (f player)
  | none => w

def increaseAllowanceBy (w : World T) (account : T.Account) : World T :=
  { w with
    allowances := w.allowances.insert account ((w.allowances.getD account .zero).add
        T.playerStatementLimit) }

def decreaseAllowanceBy (w : World T) (account : T.Account) : World T :=
  { w with
    allowances := w.allowances.insert account ((w.allowances.getD account .zero).sub
        T.playerStatementLimit) }

/- The chain as the score pallet finds it during a call. -/
def chain (env : Env T) (w : World T) :
    PeopleMulti.Chain T.Member T.Account :=
  { env.chain with
    startRemovalSession := w.sessions.canStart
    endRemovalSession := true }

/- A call of the score pallet, as one of this pallet. -/
def fromScore (w : World T) (result : Except Score.Error (Score.World T.toConfig)) :
    Except Error (World T) :=
  match result with
  | .ok score => .ok { w with score := score }
  | .error e => .error (.score e)

--
-- Schedules
--

def configuredPhases (w : World T) : PhaseDurationValues :=
  w.store.storedPhaseDurations.getD T.defaultPhaseDurations

def isRegistration (game : GameInfo T.Who) : Bool :=
  match game.state with
  | .registration _ => true
  | _ => false

def setGamePhases (w : World T) (phases : PhaseDurationValues) : Except Error (World T) := do
  ensure (T.minStepPhaseDuration ≤ phases.shuffle ∧ T.minStepPhaseDuration ≤ phases.playerProcess)
    Error.phaseTooShort
  ensure (w.store.game.all isRegistration) Error.invalidGameState
  return w.withStore { w.store with storedPhaseDurations := some phases }

/- The checks of a setup that do not depend on the time. -/
def checkSetup (schedule : GameSchedule) : Except Error Unit := do
  ensure (0 < schedule.rounds) Error.invalidGameSetup
  ensure (schedule.rounds ≤ T.maxRounds) Error.invalidGameSetup
  ensure (T.minGroupSize < schedule.maxGroupSize) Error.invalidGameSetup
  ensure (schedule.maxGroupSize ≤ T.maxGroupSize) Error.invalidGameSetup

/- Walk over new schedules with the time at which the game before has ended. -/
def checkSchedules (T : Config) (phases : PhaseDurationValues) :
    Nat → List GameSchedule → Except Error Unit
  | _, [] => .ok ()
  | lastGameEndTime, schedule :: schedules => do
    ensure (lastGameEndTime ≤ fromSecs (GameTimes.registrationStart phases schedule.gamePlayTime))
      Error.invalidGameSetup
    checkSetup (T := T) schedule
    checkSchedules T phases (fromSecs (GameTimes.playerProcessEnd phases schedule.gamePlayTime))
      schedules

def scheduleGames (env : Env T) (w : World T) (gamesSchedules : List GameSchedule) :
    Except Error (World T) := do
  let schedules ← okOr (w.store.gameSchedules.tryExtend gamesSchedules) Error.tooManyGameSchedules
  let phases := w.configuredPhases
  let lastGameEndTime :=
    match w.store.gameSchedules.toList.getLast?, w.store.game with
    | some schedule, _ =>
      fromSecs (GameTimes.playerProcessEnd phases schedule.gamePlayTime)
    | none, some game =>
      fromSecs (GameTimes.playerProcessEnd phases game.gameDate)
    | none, none => env.now
  checkSchedules T phases lastGameEndTime gamesSchedules
  return w.withStore { w.store with gameSchedules := schedules }

def removeScheduledGame (w : World T) (gamePlayTime : Nat) : Except Error (World T) := do
  let index ← okOr (w.store.gameSchedules.toList.findIdx? fun schedule =>
        decide (schedule.gamePlayTime = gamePlayTime))
      Error.noSuchGameScheduled
  return w.withStore
    { w.store with
      gameSchedules := w.store.gameSchedules.eraseIdx index }

--
-- Starting a Game
--

/- Create a game.  Its airdrops are scheduled up to the first one that is refused. -/
def newGame (env : Env T) (w : World T) (schedule : GameSchedule) : Except Error (World T) := do
  ensure (w.store.game = none) Error.gameOngoing
  let phases := w.configuredPhases
  let gamePlayTime := schedule.gamePlayTime
  let registrationEnds := GameTimes.registrationEnd phases gamePlayTime
  let reportEnds := GameTimes.reportingEnd phases gamePlayTime
  ensure (env.now < fromSecs (GameTimes.registrationStart phases gamePlayTime))
    Error.outdatedGameSetup
  ensure (registrationEnds < gamePlayTime) Error.invalidGameSetup
  ensure (gamePlayTime < reportEnds) Error.invalidGameSetup
  checkSetup (T := T) schedule
  let index := saturatingAdd u32Max w.store.gameIndex 1
  let game : GameInfo T.Who :=
    { index := index
      registrationEnds := registrationEnds
      gameDate := gamePlayTime
      shuffleDeadline := GameTimes.shuffleDeadline phases gamePlayTime
      reportEnds := reportEnds
      state := .registration 0
      maxGroupSize := schedule.maxGroupSize
      rounds := schedule.rounds
      pendingAttendance := 0
      airdropsScheduled := min env.airdropsScheduled schedule.airdrops }
  return w.withStore { w.store with gameIndex := index, game := some game }

/- The schedule is removed whether the game starts or not. -/
def startNextGame (env : Env T) (w : World T) : World T :=
  match w.store.gameSchedules.toList.head? with
  | none => w
  | some schedule =>
    let started := (w.newGame env schedule).toOption.getD w
    started.withStore
      { started.store with
        gameSchedules := w.store.gameSchedules.eraseIdx 0 }

end World

end Individuality.Game
