import Individuality.Game.Shuffle

/-
  The reports of a game, and the processing of its players.

  Main declaration: `determineAttendance`
-/

namespace Individuality.Game

variable {T : Config}

--
-- Attendance
--

/- What is known of an attendance from a part of the votes. -/
def determineAttendance (player : Player) : AttendanceStatus :=
  if !player.registered then
    .notAttended
  else
    let yes := player.yesPerson
    let no := player.noNotPerson
    let received := yes + no
    let remaining := player.expectedMaxVoteWeight - received
    let bestCaseYes := yes + remaining
    if bestCaseYes - 1 < no then
      .notAttended
    else
      let worstCaseNo := no + remaining
      if player.sentReport && decide (worstCaseNo ≤ yes - 1) then
        .attended
      else
        .pending

/- The attendance once all reports are in. -/
def finalAttendance (player : Player) : Bool :=
  player.registered && player.sentReport && decide (player.noNotPerson ≤ player.yesPerson - 1)

/- The oldest game leaves a full history. -/
def noteGame {depth : Nat} (history : BoundedVec Nat depth)
    (gameIndex : Nat) : BoundedVec Nat depth :=
  (history.tryPush gameIndex).getD
    (((history.eraseIdx 0).tryPush gameIndex).getD (history.eraseIdx 0))

def dispositionOf (externallyRecognized zeroScore attendance : Bool) :
    PlayerDisposition :=
  if externallyRecognized && (zeroScore || !attendance) then
    .archiveUnkickable
  else if zeroScore then
    .archiveKickable
  else
    .keep

namespace World

def noteAttendance (w : World T) (gameIndex : Nat) (who : T.Who) : World T :=
  w.withStore
    { w.store with
      playerAttendanceHistory := w.store.playerAttendanceHistory.insert who
          (noteGame (w.store.playerAttendanceHistory.getD who .empty) gameIndex)
      gameParticipantCount := w.store.gameParticipantCount.insert gameIndex (saturatingAdd u32Max
          (w.store.gameParticipantCount.getD gameIndex 0) 1) }

/-
  Set the attendance of a player in the score pallet.  A failure there, which nothing is expected to
  cause, counts as neither recognized by others nor without score.
-/
def applyAttendance (env : Env T) (w : World T) (who : T.Who) (attendance registered : Bool)
    (game : GameInfo T.Who) :
    World T × EarlyAttendanceEnactment :=
  let result := Score.World.setAttendance (w.chain env) w.score who attendance game.index
  let call : AttendanceCall T.Who :=
    { who := who
      attendance := attendance
      gameIndex := game.index
      isOk := result.toOption.isSome }
  let scored : World T :=
    { w with
      score := result.toOption.getD w.score
      attendanceLog := w.attendanceLog ++ [call] }
  let noted :=
    if attendance then scored.noteAttendance game.index who
    else scored
  let participant := result.toOption.bind fun score => score.score.participants.get who
  let externallyRecognized := participant.any fun p => p.recognition.isExternallyRecognized
  let zeroScore := participant.any fun p => decide (p.score = 0)
  let game :=
    if registered then
      { game with pendingAttendance := game.pendingAttendance - 1 }
    else
      game
  (noted.putGame game,
    { attendance := attendance
      disposition := dispositionOf externallyRecognized zeroScore attendance })

/- The attendance of a player whose status is known. -/
def enactAttendance (env : Env T) (w : World T) (who : T.Who) (player : Player)
    (game : GameInfo T.Who) (attendance : Bool) : World T :=
  match game.state with
  | .reporting _ =>
    let applied := w.applyAttendance env who attendance player.registered game
    applied.1.mutatePlayer who fun player =>
      { player with earlyAttendanceEnactment := some applied.2 }
  | _ => w

def tryEarlyAttendanceEnactment (env : Env T) (w : World T) (who : T.Who) : World T :=
  match w.store.players.get who, w.store.game with
  | some player, some game =>
    if player.earlyAttendanceEnactment.isSome then
      w
    else
      match determineAttendance player with
      | .attended => w.enactAttendance env who player game true
      | .notAttended =>
        w.enactAttendance env who player game false
      | .pending => w
  | _, _ => w

--
-- Reports
--

/- Count one vote for a player. -/
def countVote (weight : Nat) (report : Report) (player : Player) : Player :=
  match report with
  | .person =>
    { player with
      yesPerson := saturatingAdd u8Max player.yesPerson weight }
  | .notPerson =>
    { player with
      noNotPerson := saturatingAdd u8Max player.noNotPerson weight }

/-
  One entry of a report: the vote on one member of the group.
  The players reported so far are carried along.
-/
def reportMember (weight round : Nat) (acc : World T × List T.Who) (entry : Nat × Report) :
    Except Error (World T × List T.Who) := do
  let reported ← okOr (acc.1.store.indexToPlayer.get (round, entry.1))
      Error.internalErrorInvalidState
  let player ← okOr (acc.1.store.players.get reported) Error.internalErrorInvalidState
  return ( acc.1.setPlayer reported (countVote weight entry.2 player),
    if reported ∈ acc.2 then acc.2 else acc.2 ++ [reported])

/- One round of a report, which must have one entry for each other member of the group. -/
def reportRound (weight : Nat) (setting : GroupsSetting) (reporterIndices : List Nat)
    (fullReport : List (List Report)) (acc : World T × List T.Who)
    (round : Nat) : Except Error (World T × List T.Who) := do
  let reports ← okOr fullReport[round]? Error.invalidReport
  let reporterIndex ← okOr reporterIndices[round]? Error.internalErrorInvalidState
  let members := setting.groupMembers (setting.groupIndexFromPlayerIndex reporterIndex)
  ensure (reporterIndex ∈ members) Error.internalErrorInvalidState
  let others := members.filter (· ≠ reporterIndex)
  ensure (others.length = reports.length) Error.invalidReport
  (others.zip reports).foldlM (reportMember weight round) acc

def report (env : Env T) (w : World T) (who : T.Who) (fullReport : List (List Report)) :
    Except Error (World T) := do
  let game ← okOr w.store.game Error.noGame
  ensure (env.now < fromSecs game.reportEnds) Error.noReporting
  match game.state with
  | .reporting playerCount => do
    ensure (fullReport.length = game.rounds) Error.invalidReport
    let personVotes := fullReport.flatten.count .person
    ensure (personVotes ≤ env.creditCapacity) Error.creditCapacityExhausted
    let player ← okOr (w.store.players.get who) Error.notRegistered
    ensure (¬player.sentReport) Error.reportAlreadySent
    let w := w.setPlayer who { player with sentReport := true }
    let reporterIndices ← okOr (w.store.playerToIndex.get who) Error.notRegistered
    let setting : GroupsSetting :=
      { fullGroupSize := game.maxGroupSize
        playerCount := playerCount }
    let reported ← (List.range game.rounds).foldlM
        (reportRound player.voteWeight setting reporterIndices fullReport)
        (w, [])
    return (reported.2 ++ [who]).foldl (tryEarlyAttendanceEnactment env) reported.1
  | _ => throw Error.noReporting

--
-- Processing Players
--

def endReportingInner (env : Env T) (w : World T) : World T :=
  match w.store.game with
  | none => w
  | some game =>
    match game.state with
    | .reporting playerCount =>
      if
        fromSecs game.reportEnds ≤ env.now ∨ game.pendingAttendance = 0
      then
        w.setState game (.playerProcess (.processPlayers none playerCount))
      else
        w
    | _ => w

/- A player between two games. -/
def Player.reset (player : Player) (credibility : PlayerCredibility) : Player :=
  { firstGame := player.firstGame
    registered := false
    credibility := credibility }

/- The deposit of a player that is archived is burned. -/
def burnDeposit (w : World T) (who : T.Who) (credibility : PlayerCredibility) : World T :=
  match credibility, who with
  | .deposit ticket, .account account =>
    { w with deposits := w.deposits.settle account ticket }
  | _, _ => w

def archivePlayer (w : World T) (who : T.Who) (player : Player)
    (archived : ArchivedPlayer) : World T :=
  let w := (w.burnDeposit who player.credibility).revokeAllowance who
  w.withStore
    { w.store with
      players := w.store.players.remove who
      archivedPlayers := w.store.archivedPlayers.insert who archived }

/-
  A player that has reached personhood gets its deposit back and is recognized from then on, also
  where the ticket cannot be dropped.
-/
def settleCredibility (env : Env T) (w : World T) (who : T.Who) (credibility : PlayerCredibility) :
    World T × PlayerCredibility :=
  match credibility with
  | .deposit ticket =>
    if w.reachedPersonhood who then
      match who with
      | .account account =>
        ({ w with
            deposits :=
              if env.dropDeposit account ticket then
                w.deposits.settle account ticket
              else w.deposits },
          .recognized)
      | .person _ => (w, .recognized)
    else
      (w, credibility)
  | _ => (w, credibility)

def keepPlayer (env : Env T) (w : World T) (who : T.Who) (player : Player) : World T :=
  let settled := w.settleCredibility env who player.credibility
  settled.1.setPlayer who (Player.reset player settled.2)

def disposePlayer (env : Env T) (w : World T) (who : T.Who) (player : Player)
    (disposition : PlayerDisposition) : World T :=
  match disposition with
  | .archiveKickable =>
    w.archivePlayer who player (.kickable player.firstGame env.chain.block)
  | .archiveUnkickable =>
    w.archivePlayer who player (.unkickable player.firstGame)
  | .keep => w.keepPlayer env who player

/- Process one player.  An attendance that was enacted early is not applied again. -/
def processPlayerAttendanceOutcome (env : Env T) (w : World T) (game : GameInfo T.Who) (who : T.Who)
    (player : Player) : World T :=
  let applied :=
    match player.earlyAttendanceEnactment with
    | some cached => (w, cached)
    | none =>
      w.applyAttendance env who (finalAttendance player) player.registered game
  applied.1.disposePlayer env who player applied.2.disposition

/- The credits that were awarded to one processed player. -/
def creditsOf (env : Env T) (who : T.Who) (player : Player) :
    Nat :=
  let attendance := (player.earlyAttendanceEnactment.map EarlyAttendanceEnactment.attendance).getD
      (finalAttendance player)
  if attendance then env.creditsAwarded who else 0

/- The most credits that one player can earn. -/
def maxAttestations (rounds maxGroupSize : Nat) : Nat :=
  saturatingMul u32Max rounds (maxGroupSize - 1)

/- Remember the last player of the processing. -/
def setLastProcessed (w : World T) (who : T.Who) (playerCount : Nat) : World T :=
  match w.store.game with
  | some game =>
    w.setState game (.playerProcess (.processPlayers (some who) playerCount))
  | none => w

/- All players are processed, so the session is closed.  A failure to close it is ignored. -/
def finishProcessing (w : World T) : World T :=
  let closed : World T := { w with sessions := w.sessions.close.getD w.sessions }
  match w.store.game with
  | some game => closed.setState game (.playerProcess .clearIndices)
  | none => closed

/-
  Process players while the budget lasts and the buffers have
  room for the credits of one more player.
-/
def playerProcessStep1 (env : Env T) :
    Nat → Nat → World T → World T
  | budget, creditCapacity, w =>
    match w.store.game with
    | none => w
    | some game =>
      match game.state with
      | .playerProcess
          (.processPlayers lastIteration playerCount) =>
          match
            w.store.players.nextKey T.hashedKey lastIteration
          with
          | none => w.finishProcessing
          | some who =>
            match w.store.players.get who, budget with
            | some player, budget + 1 =>
              if
                creditCapacity < maxAttestations game.rounds game.maxGroupSize
              then
                w
              else
                playerProcessStep1 env budget (creditCapacity - creditsOf env who player)
                  ((w.processPlayerAttendanceOutcome env game who player).setLastProcessed who
                      playerCount)
            | _, _ => w
      | _ => w

/- A bounded part of a map is cleared. -/
def clearSome {κ ν : Type} [DecidableEq κ] (m : StorageMap κ ν) (keys : List κ) : StorageMap κ ν :=
  keys.foldl (·.remove ·) m

/-
  Clear parts of the index maps.  Which entries one call finds within its budget is left open.  The
  game ends once nothing is left of them and of the awarded credits.
-/
def playerProcessStep2 (env : Env T) (w : World T) (indices : List (Nat × Nat))
    (players : List T.Who) : World T :=
  let indexToPlayer := clearSome w.store.indexToPlayer indices
  let playerToIndex := clearSome w.store.playerToIndex players
  let done := indexToPlayer.isEmpty && playerToIndex.isEmpty && env.creditsCleared
  w.withStore
    { w.store with
      indexToPlayer := indexToPlayer
      playerToIndex := playerToIndex
      game := if done then none else w.store.game }

end World

end Individuality.Game
