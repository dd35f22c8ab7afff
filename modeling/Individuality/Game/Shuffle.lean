import Individuality.Game.SignUp

/-
  The shuffle of a game: registered players are inserted under the keys of their positions,
  retrieved in that order round by round, and their expected votes are computed.

  Main declaration: `World.endRegistrationInner`
-/

namespace Individuality.Game

variable {T : Config}

namespace World

--
-- The End of Registration
--

def endRegistrationInner (w : World T) : World T :=
  match w.store.game with
  | none => w
  | some game =>
    match game.state with
    | .registration nextPlayerIndex =>
      let groupSetting : GroupsSetting :=
        { fullGroupSize := game.maxGroupSize
          playerCount := nextPlayerIndex }
      if groupSetting.acceptablePlayerCount then
        w.setState game (.shuffle (.insert none))
      else
        w.setState game (.cancelling .drainShuffle)
    | _ => w

--
-- Inserting
--

def reachedPersonhood (w : World T) (who : T.Who) : Bool :=
  (w.score.score.participants.get who).any Score.Participant.reachedPersonhood

/- The vote weight of a person or of a candidate. -/
def voteWeightOf (T : Config) (recognized : Bool) : Nat :=
  if recognized then T.peopleVoteWeight
  else T.candidateVoteWeight

/- Insert a player into one round of the shuffle. -/
def insertRound (env : Env T) (recognized : Bool) (who : T.Who) (w : World T)
    (round : Nat) : World T :=
  let key := (round, T.positionKey env.parentHash who round)
  if recognized then
    w.withStore
      { w.store with
        shuffleRecognized := w.store.shuffleRecognized.insert key who }
  else
    w.withStore
      { w.store with
        shuffleNotRecognized := w.store.shuffleNotRecognized.insert key who }

def shuffleStepInsert (env : Env T) (w : World T) (game : GameInfo T.Who)
    (lastIteration : Option T.Who) : World T :=
  match w.store.players.nextKey T.hashedKey lastIteration with
  | none => w.setState game (.shuffle (.retrieve 0 .recognized))
  | some who =>
    let state : GameState T.Who := .shuffle (.insert (some who))
    if (w.store.players.get who).any Player.registered then
      let recognized := w.reachedPersonhood who
      let weighed := w.mutatePlayer who fun player =>
          { player with voteWeight := voteWeightOf T recognized }
      let inserted := (List.range game.rounds).foldl (insertRound env recognized who) weighed
      inserted.setState
        { game with
          pendingAttendance := saturatingAdd u32Max game.pendingAttendance 1 }
        state
    else
      w.setState game state

--
-- Retrieving
--

/- The position keys drained last, one for each round. -/
abbrev ResumeCursors := List (Option Nat)

/- The map of one population. -/
def shuffleMap (w : World T) (phase : ShuffleRetrievePhase) :
    StorageMap (Nat × Nat) T.Who :=
  match phase with
  | .recognized => w.store.shuffleRecognized
  | .notRecognized _ => w.store.shuffleNotRecognized

def removeFromShuffle (w : World T) (phase : ShuffleRetrievePhase) (key : Nat × Nat) : World T :=
  match phase with
  | .recognized =>
    w.withStore
      { w.store with
        shuffleRecognized := w.store.shuffleRecognized.remove key }
  | .notRecognized _ =>
    w.withStore
      { w.store with
        shuffleNotRecognized := w.store.shuffleNotRecognized.remove key }

/- The least key of a round after the one drained last, in the map of a population. -/
def nextPosition (m : StorageMap (Nat × Nat) T.Who) (round : Nat)
    (lastKey : Option Nat) : Option Nat :=
  ((m.keys.filter fun key =>
    decide (key.1 = round) && StorageMap.isAfter id lastKey key.2).map Prod.snd).argmin id

/- Give a player its index in a round. -/
def setIndex (w : World T) (rounds round playerIndex : Nat) (who : T.Who) : World T :=
  let indices := (w.store.playerToIndex.get who).getD (List.replicate rounds 0)
  w.withStore
    { w.store with
      playerToIndex := w.store.playerToIndex.insert who (indices.set round playerIndex)
      indexToPlayer := w.store.indexToPlayer.insert (round, playerIndex) who }

/-
  Drain the next player of one round and give it the index.
  There is no result when the round has no more players.
-/
def retrieveRound (phase : ShuffleRetrievePhase) (rounds playerIndex : Nat)
    (acc : World T × ResumeCursors) (round : Nat) : Option (World T × ResumeCursors) :=
  let lastKey := (acc.2[round]?).join
  match nextPosition (acc.1.shuffleMap phase) round lastKey with
  | none => none
  | some position =>
    match (acc.1.shuffleMap phase).get (round, position) with
    | none => none
    | some who =>
      some ((acc.1.removeFromShuffle phase (round, position)
          ).setIndex rounds round playerIndex who,
          acc.2.set round (some position))

/-
  Retrieve one player in each round, up to the first round that is drained.  That ends the phase,
  whatever the rounds before it have retrieved.
-/
def retrieveRounds (phase : ShuffleRetrievePhase) (rounds playerIndex : Nat) :
    List Nat → World T × ResumeCursors → (World T × ResumeCursors) × Bool
  | [], acc => (acc, true)
  | round :: rest, acc =>
    match retrieveRound phase rounds playerIndex acc round with
    | none => (acc, false)
    | some acc => retrieveRounds phase rounds playerIndex rest acc

def resetCursors (cursors : ResumeCursors) : ResumeCursors :=
  cursors.map fun _ => none

def shuffleStepRetrieve (acc : World T × ResumeCursors) (game : GameInfo T.Who)
    (nextPlayerIndex : Nat) (phase : ShuffleRetrievePhase) : World T × ResumeCursors :=
  let retrieved := retrieveRounds phase game.rounds nextPlayerIndex (List.range game.rounds) acc
  let w := retrieved.1.1
  if retrieved.2 then
    (w.setState game (.shuffle (.retrieve (saturatingAdd u32Max nextPlayerIndex 1) phase)),
      retrieved.1.2)
  else
    (w.setState game (.shuffle (match phase with
        | .recognized =>
          .retrieve nextPlayerIndex (.notRecognized nextPlayerIndex)
        | .notRecognized recognizedCount =>
          .computeWeights none nextPlayerIndex recognizedCount)),
      resetCursors retrieved.1.2)

--
-- Expected Votes
--

/- The votes that one player can receive in one round. -/
def roundWeight (T : Config) (setting : GroupsSetting) (recognizedCount playerIndex : Nat) : Nat :=
  (((setting.groupMembers (setting.groupIndexFromPlayerIndex playerIndex)).filter
    (· ≠ playerIndex)).map fun memberIndex =>
      voteWeightOf T (decide (memberIndex < recognizedCount))).sum

def maxU16 : Nat := 65535

def totalWeight (T : Config)
    (setting : GroupsSetting) (recognizedCount : Nat) (roundIndices : List Nat)
    (rounds : Nat) : Nat :=
  (((roundIndices.take rounds).map (roundWeight T setting recognizedCount)).sum)

def shuffleStepComputeWeights (w : World T) (game : GameInfo T.Who) (lastIteration : Option T.Who)
    (playerCount recognizedCount : Nat) : World T :=
  match w.store.playerToIndex.nextKey T.hashedKey lastIteration with
  | none => w.setState game (.shuffle (.awaitSession playerCount))
  | some who =>
    let setting : GroupsSetting :=
      { fullGroupSize := game.maxGroupSize
        playerCount := playerCount }
    let total := totalWeight T setting recognizedCount
        (w.store.playerToIndex.getD who []) game.rounds
    (w.mutatePlayer who fun player =>
        { player with
          expectedMaxVoteWeight := min total maxU16 }).setState
      game
      (.shuffle (.computeWeights (some who) playerCount recognizedCount))

--
-- The Shuffle
--

/- The session starts when the semaphore allows it.  Otherwise the shuffle goes on waiting. -/
def startSession (env : Env T) (w : World T) (game : GameInfo T.Who)
    (playerCount : Nat) : World T :=
  match w.sessions.start with
  | none => w
  | some sessions =>
    let started := Score.World.startAttendanceReportSession (w.chain env) w.score
    match started.2 with
    | .error _ => { w with score := started.1 }
    | .ok _ =>
      ({ w with
          score := started.1
          sessions := sessions } : World T).setState game
        (.reporting playerCount)

/-
  One step of the shuffle, and whether the call goes on.  The game is written back after every step
  and not only at the end, as no step reads it from storage.
-/
def shuffleStep (env : Env T) (acc : World T × ResumeCursors) :
    (World T × ResumeCursors) × Bool :=
  match acc.1.store.game with
  | none => (acc, false)
  | some game =>
    match game.state with
    | .shuffle (.insert lastIteration) =>
      ((acc.1.shuffleStepInsert env game lastIteration, acc.2), true)
    | .shuffle (.retrieve nextPlayerIndex phase) =>
      (shuffleStepRetrieve acc game nextPlayerIndex phase, true)
    | .shuffle
        (.computeWeights lastIteration playerCount recognizedCount) =>
        ((acc.1.shuffleStepComputeWeights game lastIteration playerCount recognizedCount, acc.2),
          true)
    | .shuffle (.awaitSession playerCount) =>
      ((acc.1.startSession env game playerCount, acc.2), false)
    | _ => (acc, false)

/- As many steps as the budget allows. -/
def shuffleSteps (env : Env T) :
    Nat → World T × ResumeCursors → World T × ResumeCursors
  | 0, acc => acc
  | budget + 1, acc =>
    let stepped := shuffleStep env acc
    if stepped.2 then shuffleSteps env budget stepped.1
    else stepped.1

/-
  Shuffle within a budget.  After the deadline the game is
  cancelled.  The cursors live for one call only.
-/
def shuffles (env : Env T) (w : World T) (budget : Nat) : World T :=
  match w.store.game with
  | none => w
  | some game =>
    match game.state with
    | .shuffle _ =>
      if fromSecs game.shuffleDeadline < env.now then
        w.setState game (.cancelling .drainShuffle)
      else
        (shuffleSteps env budget (w, List.replicate game.rounds none)).1
    | _ => w

end World

end Individuality.Game
