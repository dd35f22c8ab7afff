import Individuality.Game.Attendance

/-
  The cancelling of a game, the steps that are due, and the calls of the game pallet together with
  those of the score pallet.

  Main declaration: `World.cancelGame`
-/

namespace Individuality.Game

variable {T : Config}

namespace World

--
-- Cancelling
--

def isShuffle (game : GameInfo T.Who) : Bool :=
  match game.state with
  | .shuffle _ => true
  | _ => false

def cancelGame (w : World T) : Except Error (World T) := do
  let game ← okOr w.store.game Error.noGame
  ensure (isRegistration game ∨ isShuffle game) Error.invalidGameState
  return w.setState game (.cancelling .drainShuffle)

/- Remove a player from the maps of indices. -/
def clearIndices (w : World T) (who : T.Who) (rounds : Nat) : World T :=
  match w.store.playerToIndex.get who with
  | none => w
  | some indices =>
    w.withStore
      { w.store with
        playerToIndex := w.store.playerToIndex.remove who
        indexToPlayer := clearSome w.store.indexToPlayer ((List.range rounds).zip indices) }

/- Reset one player, or end the cancelling after the last. -/
def processCancellingStepPlayer (w : World T) (game : GameInfo T.Who)
    (lastIteration : Option T.Who) : World T × Bool :=
  match w.store.players.nextKey T.hashedKey lastIteration with
  | none => (w.withStore { w.store with game := none }, false)
  | some who =>
    let reset := w.mutatePlayer who fun player => Player.reset player player.credibility
    ((reset.clearIndices who game.rounds).setState game (.cancelling (.drainPlayers (some who))),
      true)

/- The keys of both shuffle maps that one step clears. -/
abbrev ShuffleChunk := List (Nat × Nat) × List (Nat × Nat)

def processCancellingStepShuffle (w : World T) (game : GameInfo T.Who)
    (chunk : ShuffleChunk) : World T :=
  let shuffleRecognized := clearSome w.store.shuffleRecognized chunk.1
  let shuffleNotRecognized := clearSome w.store.shuffleNotRecognized chunk.2
  let cleared := w.withStore
      { w.store with
        shuffleRecognized := shuffleRecognized
        shuffleNotRecognized := shuffleNotRecognized }
  if shuffleRecognized.isEmpty && shuffleNotRecognized.isEmpty then
    cleared.setState game (.cancelling (.drainPlayers none))
  else
    cleared

/- One step of the cancelling, and whether the call goes on. -/
def processCancellingStep (w : World T) (chunk : ShuffleChunk) : World T × Bool :=
  match w.store.game with
  | none => (w, false)
  | some game =>
    match game.state with
    | .cancelling .drainShuffle =>
      (w.processCancellingStepShuffle game chunk, true)
    | .cancelling (.drainPlayers lastIteration) =>
      w.processCancellingStepPlayer game lastIteration
    | _ => (w, false)

/-
  Cancel within a budget of steps.  Which entries of the shuffle each of them clears is left open.
-/
def processCancelling :
    List ShuffleChunk → World T → World T
  | [], w => w
  | chunk :: chunks, w =>
    let stepped := w.processCancellingStep chunk
    if stepped.2 then processCancelling chunks stepped.1
    else stepped.1

--
-- Due Steps
--

inductive NextStep where
  | startGame
  | endRegistration
  | advanceShuffle
  | endReporting
  | processPlayers
  | advanceCancelling
  deriving DecidableEq, Repr

def nextStep (env : Env T) (w : World T) : Option NextStep :=
  match w.store.game with
  | none =>
    if w.store.gameSchedules.isEmpty then none
    else some .startGame
  | some game =>
    match game.state with
    | .registration _ =>
      if fromSecs game.registrationEnds ≤ env.now then
        some .endRegistration
      else
        none
    | .shuffle _ => some .advanceShuffle
    | .reporting _ =>
      if
        fromSecs game.reportEnds ≤ env.now ∨ game.pendingAttendance = 0
      then
        some .endReporting
      else
        none
    | .playerProcess _ => some .processPlayers
    | .cancelling _ => some .advanceCancelling

/- A step must be due, and be for the current game. -/
def authorizeStep (env : Env T) (w : World T) (expected : NextStep)
    (gameIndex : Option Nat) : Except Error Unit := do
  ensure (gameIndex.all (· = w.store.gameIndex)) Error.stepNotDue
  ensure (w.nextStep env = some expected) Error.stepNotDue

/- The player processing, in the step that it is in. -/
def processPlayers (env : Env T) (w : World T) (budget : Nat) (indices : List (Nat × Nat))
    (players : List T.Who) : World T :=
  match w.store.game with
  | none => w
  | some game =>
    match game.state with
    | .playerProcess (.processPlayers _ _) =>
      playerProcessStep1 env budget env.creditCapacity w
    | .playerProcess .clearIndices =>
      w.playerProcessStep2 env indices players
    | _ => w

--
-- Sessions of Others
--

def otherSession (w : World T) (sessions : Option Sessions) : Except Error (World T) := do
  let sessions ← okOr sessions Error.session
  return { w with sessions := sessions }

end World

--
-- Calls
--

/-
  The calls of the game pallet and its steps, the calls of the score pallet and of the registry, and
  the sessions of other pallets.
-/
inductive Op (T : Config) where
  | setGamePhases (phases : PhaseDurationValues)
  | scheduleGames (gamesSchedules : List GameSchedule)
  | removeScheduledGame (gamePlayTime : Nat)
  | startGame
  | signUpWithInvite (who : T.Account) (airdrops : Option AirdropVrfs)
  | signUpWithAccount
      (who : T.Account)
      (airdrops : Option AirdropVrfs)
  | signUpWithAlias (who : T.Alias) (statementAccount : T.Account) (airdrops : Option AirdropVrfs)
  | signUpWithAccountLiteInvite
      (lite : T.Alias)
      (account : T.Account)
      (airdrops : Option AirdropVrfs)
  | endRegistration (gameIndex : Nat)
  | advanceShuffle (gameIndex budget : Nat)
  | report (who : T.Who) (fullReport : List (List Report))
  | endReporting (gameIndex : Nat)
  | processPlayers (gameIndex budget : Nat) (indices : List (Nat × Nat)) (players : List T.Who)
  | cancelGame
  | advanceCancelling (gameIndex : Nat) (chunks : List World.ShuffleChunk)
  | offboard (who : T.Who)
  | kickout (player : T.Account)
  | score (call : Score.Op T.toConfig)
  | startOtherSession
  | endOtherSession

def World.dispatch (w : World T) (call : Env T × Op T) : Except Error (World T) :=
  let env := call.1
  match call.2 with
  | .setGamePhases phases => w.setGamePhases phases
  | .scheduleGames gamesSchedules =>
    w.scheduleGames env gamesSchedules
  | .removeScheduledGame gamePlayTime =>
    w.removeScheduledGame gamePlayTime
  | .startGame => do
    w.authorizeStep env .startGame none
    return w.startNextGame env
  | .signUpWithInvite who airdrops =>
    w.signUpInner env (.account who true airdrops)
  | .signUpWithAccount who airdrops =>
    w.signUpInner env (.account who false airdrops)
  | .signUpWithAlias who statementAccount airdrops =>
    w.signUpInner env (.alias_ who statementAccount airdrops)
  | .signUpWithAccountLiteInvite lite account airdrops =>
    w.signUpWithAccountLiteInvite env lite account airdrops
  | .endRegistration gameIndex => do
    w.authorizeStep env .endRegistration (some gameIndex)
    return w.endRegistrationInner
  | .advanceShuffle gameIndex budget => do
    w.authorizeStep env .advanceShuffle (some gameIndex)
    return w.shuffles env budget
  | .report who fullReport => w.report env who fullReport
  | .endReporting gameIndex => do
    w.authorizeStep env .endReporting (some gameIndex)
    return w.endReportingInner env
  | .processPlayers gameIndex budget indices players => do
    w.authorizeStep env .processPlayers (some gameIndex)
    return w.processPlayers env budget indices players
  | .cancelGame => w.cancelGame
  | .advanceCancelling gameIndex chunks => do
    w.authorizeStep env .advanceCancelling (some gameIndex)
    return w.processCancelling chunks
  | .offboard who => w.offboard env who
  | .kickout player => w.kickout env player
  | .score op => do
    ensure (op.isInternal = false) Error.notACall
    w.fromScore (w.score.dispatch (w.chain env, op))
  | .startOtherSession => w.otherSession w.sessions.otherStart
  | .endOtherSession => w.otherSession w.sessions.otherClose

end Individuality.Game
