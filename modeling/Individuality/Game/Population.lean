import Individuality.Game.Pallet
import Individuality.Score.Participants

/-
  Who plays with which credibility, and who is archived.  Most operations leave this population, the
  statement accounts and the deposits as they are.

  Main declaration: `World.playing`
-/

namespace Individuality.Game

open Except (bind_eq_ok pure_eq_ok)

open Score (SameParticipants)

variable {T : Config} {who : T.Who} {round : Nat}

namespace World

/- The credibility of an identity that plays. -/
def playing (w : World T) (who : T.Who) :
    Option PlayerCredibility :=
  (w.store.players.get who).map Player.credibility

def archived (w : World T) (who : T.Who) : Bool :=
  w.store.archivedPlayers.containsKey who

/- Whether the score pallet has a record of an identity. -/
def participates (w : World T) (who : T.Who) : Bool :=
  w.score.participates who

theorem playing_of_get {w : World T} {player : Player}
    (hGet : w.store.players.get who = some player) :
    w.playing who = some player.credibility := by
  unfold playing
  rw [hGet]
  rfl

theorem playing_eq_none_iff {w : World T} {who : T.Who} :
    w.playing who = none ↔ w.store.players.get who = none :=
  Option.map_eq_none_iff

end World

--
-- The Same Population
--

/- Every player has a record of its score. -/
def World.PlayersParticipate (w : World T) : Prop :=
  ∀ who, w.playing who ≠ none → w.participates who = true

/- No call that sets an attendance has failed. -/
def World.AttendanceOk (w : World T) : Prop :=
  ∀ call ∈ w.attendanceLog, call.isOk = true

/-
  The population and what belongs to it are the same.  While
  the players participate, no attendance fails to be set.
-/
structure SamePopulation (w w' : World T) : Prop where
  playing : ∀ who, w'.playing who = w.playing who
  archivedPlayers : w'.store.archivedPlayers = w.store.archivedPlayers
  aliasToStmtAccount : w'.store.aliasToStmtAccount = w.store.aliasToStmtAccount
  stmtAccountToAlias : w'.store.stmtAccountToAlias = w.store.stmtAccountToAlias
  allowances : w'.allowances = w.allowances
  deposits : w'.deposits = w.deposits
  participants : SameParticipants w.score w'.score
  attendanceOk : w.PlayersParticipate → w.AttendanceOk → w'.AttendanceOk

namespace SamePopulation

variable {w w' w'' : World T} {env : Env T}

theorem refl (w : World T) : SamePopulation w w :=
  ⟨fun _ => rfl, rfl, rfl, rfl, rfl, rfl, SameParticipants.refl _, fun _ hOk => hOk⟩

/- Players that participate go on doing so. -/
theorem playersParticipate (hSame : SamePopulation w w') (hParticipate : w.PlayersParticipate) :
    w'.PlayersParticipate := by
  intro who hPlaying
  rw [hSame.playing] at hPlaying
  unfold World.participates
  rw [hSame.participants.participates]
  exact hParticipate who hPlaying

theorem trans (hFirst : SamePopulation w w') (hSecond : SamePopulation w' w'') :
    SamePopulation w w'' where
  playing := by
    intro who
    rw [hSecond.playing, hFirst.playing]
  archivedPlayers := hSecond.archivedPlayers.trans hFirst.archivedPlayers
  aliasToStmtAccount := hSecond.aliasToStmtAccount.trans hFirst.aliasToStmtAccount
  stmtAccountToAlias := hSecond.stmtAccountToAlias.trans hFirst.stmtAccountToAlias
  allowances := hSecond.allowances.trans hFirst.allowances
  deposits := hSecond.deposits.trans hFirst.deposits
  participants := hFirst.participants.trans hSecond.participants
  attendanceOk := fun hParticipate hOk =>
    hSecond.attendanceOk (hFirst.playersParticipate hParticipate)
      (hFirst.attendanceOk hParticipate hOk)

/- A write of the storage that concerns something else. -/
theorem of_store {store : GameStorage T} (hPlayers : store.players = w.store.players)
    (hArchived : store.archivedPlayers = w.store.archivedPlayers)
    (hAlias : store.aliasToStmtAccount = w.store.aliasToStmtAccount)
    (hStmt : store.stmtAccountToAlias = w.store.stmtAccountToAlias) :
    SamePopulation w (w.withStore store) where
  playing := by
    intro who
    unfold World.playing
    exact congrArg (fun players : StorageMap T.Who Player =>
        (players.get who).map Player.credibility) hPlayers
  archivedPlayers := hArchived
  aliasToStmtAccount := hAlias
  stmtAccountToAlias := hStmt
  allowances := rfl
  deposits := rfl
  participants := SameParticipants.refl _
  attendanceOk := fun _ hOk => hOk

theorem putGame (w : World T) (game : GameInfo T.Who) :
    SamePopulation w (w.putGame game) :=
  of_store rfl rfl rfl rfl

theorem setState (w : World T) (game : GameInfo T.Who) (state : GameState T.Who) :
    SamePopulation w (w.setState game state) :=
  of_store rfl rfl rfl rfl

/- A player is overwritten and keeps its credibility. -/
theorem setPlayer {player : Player} (hPlaying : w.playing who = some player.credibility) :
    SamePopulation w (w.setPlayer who player) where
  playing := by
    intro who'
    unfold World.playing World.setPlayer World.withStore
    dsimp only
    rw [StorageMap.get_insert]
    by_cases hWho : who' = who
    · rw [if_pos hWho, hWho]
      exact hPlaying.symm
    · rw [if_neg hWho]
  archivedPlayers := rfl
  aliasToStmtAccount := rfl
  stmtAccountToAlias := rfl
  allowances := rfl
  deposits := rfl
  participants := SameParticipants.refl _
  attendanceOk := fun _ hOk => hOk

theorem mutatePlayer (w : World T) (who : T.Who) {f : Player → Player}
    (hKeeps : ∀ player, (f player).credibility = player.credibility) :
    SamePopulation w (w.mutatePlayer who f) := by
  unfold World.mutatePlayer
  cases hGet : w.store.players.get who with
  | none => exact refl w
  | some player =>
    apply setPlayer
    rw [hKeeps]
    exact World.playing_of_get hGet

/- The score pallet alone has changed. -/
theorem of_score (hStore : w'.store = w.store) (hAllowances : w'.allowances = w.allowances)
    (hDeposits : w'.deposits = w.deposits) (hScore : SameParticipants w.score w'.score)
    (hLog : w'.attendanceLog = w.attendanceLog) :
    SamePopulation w w' where
  playing := by
    intro who
    unfold World.playing
    rw [hStore]
  archivedPlayers := by rw [hStore]
  aliasToStmtAccount := by rw [hStore]
  stmtAccountToAlias := by rw [hStore]
  allowances := hAllowances
  deposits := hDeposits
  participants := hScore
  attendanceOk := by
    intro _ hOk
    unfold World.AttendanceOk
    rw [hLog]
    exact hOk

--
-- Schedules
--

theorem startNextGame (w : World T) : SamePopulation w (w.startNextGame env) := by
  unfold World.startNextGame
  cases w.store.gameSchedules.toList.head? with
  | none => exact refl w
  | some schedule =>
    have hNew : SamePopulation w ((w.newGame env schedule).toOption.getD w) := by
      cases hResult : w.newGame env schedule with
      | error e => exact refl w
      | ok w' =>
        unfold World.newGame at hResult
        simp only [bind_eq_ok, pure_eq_ok] at hResult
        rcases hResult with ⟨_, _, _, _, _, _, _, _, _, _, rfl⟩
        exact of_store rfl rfl rfl rfl
    exact hNew.trans (of_store rfl rfl rfl rfl)

--
-- The Shuffle
--

theorem endRegistrationInner (w : World T) :
    SamePopulation w w.endRegistrationInner := by
  unfold World.endRegistrationInner
  cases w.store.game with
  | none => exact refl w
  | some game =>
    dsimp only
    cases game.state with
    | registration nextPlayerIndex =>
      dsimp only
      split_ifs <;> exact setState w game _
    | _ => exact refl w

theorem insertRounds (recognized : Bool) (who : T.Who) (rounds : List Nat) (w : World T) :
    SamePopulation w (rounds.foldl (World.insertRound env recognized who) w) := by
  induction rounds generalizing w with
  | nil => exact refl w
  | cons round rounds ih =>
    refine trans ?_ (ih _)
    unfold World.insertRound
    cases recognized <;> exact of_store rfl rfl rfl rfl

theorem shuffleStepInsert (w : World T) (game : GameInfo T.Who) (lastIteration : Option T.Who) :
    SamePopulation w (w.shuffleStepInsert env game lastIteration) := by
  unfold World.shuffleStepInsert
  cases w.store.players.nextKey T.hashedKey lastIteration with
  | none => exact setState w game _
  | some who =>
    dsimp only
    split_ifs
    · refine trans ?_ (setState _ _ _)
      refine trans ?_ (insertRounds _ who _ _)
      exact mutatePlayer w who fun _ => rfl
    · exact setState w game _

theorem retrieveRound {phase : ShuffleRetrievePhase} {rounds playerIndex : Nat}
    {acc acc' : World T × World.ResumeCursors}
    (hRetrieve : World.retrieveRound phase rounds playerIndex acc round = some acc') :
    SamePopulation acc.1 acc'.1 := by
  unfold World.retrieveRound at hRetrieve
  dsimp only at hRetrieve
  cases hNext : World.nextPosition (acc.1.shuffleMap phase) round
      (acc.2[round]?).join with
  | none =>
    rw [hNext] at hRetrieve
    cases hRetrieve
  | some position =>
    rw [hNext] at hRetrieve
    dsimp only at hRetrieve
    cases hGet : (acc.1.shuffleMap phase).get (round, position) with
    | none =>
      rw [hGet] at hRetrieve
      cases hRetrieve
    | some who =>
      rw [hGet] at hRetrieve
      obtain rfl := Option.some.inj hRetrieve
      have hRemoved : SamePopulation acc.1 (acc.1.removeFromShuffle phase (round, position)) := by
        unfold World.removeFromShuffle
        cases phase <;> exact of_store rfl rfl rfl rfl
      exact trans hRemoved (of_store rfl rfl rfl rfl)

theorem retrieveRounds (phase : ShuffleRetrievePhase) (rounds playerIndex : Nat) (rest : List Nat)
    (acc : World T × World.ResumeCursors) :
    SamePopulation acc.1 (World.retrieveRounds phase rounds playerIndex rest acc).1.1 := by
  induction rest generalizing acc with
  | nil => exact refl acc.1
  | cons round rest ih =>
    unfold World.retrieveRounds
    cases hRetrieve : World.retrieveRound phase rounds playerIndex acc round with
    | none => exact refl acc.1
    | some acc' => exact (retrieveRound hRetrieve).trans (ih acc')

theorem shuffleStepRetrieve (acc : World T × World.ResumeCursors) (game : GameInfo T.Who)
    (nextPlayerIndex : Nat) (phase : ShuffleRetrievePhase) :
    SamePopulation acc.1 (World.shuffleStepRetrieve acc game nextPlayerIndex phase).1 := by
  have hRetrieved := retrieveRounds phase game.rounds nextPlayerIndex (List.range game.rounds) acc
  unfold World.shuffleStepRetrieve
  dsimp only
  split_ifs <;> exact hRetrieved.trans (setState _ _ _)

theorem shuffleStepComputeWeights
    (w : World T) (game : GameInfo T.Who) (lastIteration : Option T.Who)
    (playerCount recognizedCount : Nat) :
    SamePopulation w (w.shuffleStepComputeWeights game lastIteration playerCount
        recognizedCount) := by
  unfold World.shuffleStepComputeWeights
  cases w.store.playerToIndex.nextKey T.hashedKey
      lastIteration with
  | none => exact setState w game _
  | some who =>
    dsimp only
    refine trans ?_ (setState _ _ _)
    exact mutatePlayer w who fun _ => rfl

theorem startSession (w : World T) (game : GameInfo T.Who) (playerCount : Nat) :
    SamePopulation w (w.startSession env game playerCount) := by
  unfold World.startSession
  cases w.sessions.start with
  | none => exact refl w
  | some sessions =>
    have hThresholds : SameParticipants w.score
          (Score.World.startAttendanceReportSession (w.chain env) w.score).1 :=
      SameParticipants.of_eq rfl rfl
    dsimp only
    cases (Score.World.startAttendanceReportSession (w.chain env) w.score).2 with
    | error e => exact of_score rfl rfl rfl hThresholds rfl
    | ok u =>
      refine trans ?_ (setState _ game _)
      exact of_score rfl rfl rfl hThresholds rfl

theorem shuffleStep (acc : World T × World.ResumeCursors) :
    SamePopulation acc.1 (World.shuffleStep env acc).1.1 := by
  unfold World.shuffleStep
  cases acc.1.store.game with
  | none => exact refl acc.1
  | some game =>
    dsimp only
    cases game.state with
    | shuffle step =>
      cases step with
      | insert lastIteration =>
        exact shuffleStepInsert acc.1 game lastIteration
      | retrieve nextPlayerIndex phase =>
        exact shuffleStepRetrieve acc game nextPlayerIndex phase
      | computeWeights lastIteration playerCount
          recognizedCount =>
          exact shuffleStepComputeWeights acc.1 game lastIteration playerCount recognizedCount
      | awaitSession playerCount =>
        exact startSession acc.1 game playerCount
    | _ => exact refl acc.1

theorem shuffleSteps (budget : Nat) (acc : World T × World.ResumeCursors) :
    SamePopulation acc.1 (World.shuffleSteps env budget acc).1 := by
  induction budget generalizing acc with
  | zero => exact refl acc.1
  | succ budget ih =>
    unfold World.shuffleSteps
    dsimp only
    split_ifs
    · exact (shuffleStep acc).trans (ih _)
    · exact shuffleStep acc

theorem shuffles (w : World T) (budget : Nat) :
    SamePopulation w (w.shuffles env budget) := by
  unfold World.shuffles
  cases w.store.game with
  | none => exact refl w
  | some game =>
    dsimp only
    cases game.state with
    | shuffle step =>
      dsimp only
      split_ifs
      · exact setState w game _
      · exact shuffleSteps budget (w, List.replicate game.rounds none)
    | _ => exact refl w

--
-- Reports
--

/- The attendance of a player is set, which is logged. -/
theorem applyAttendance (hPlaying : w.playing who ≠ none) (attendance registered : Bool)
    (game : GameInfo T.Who) :
    SamePopulation w (w.applyAttendance env who attendance registered game).1 := by
  have hScored : SamePopulation w
        { w with
          score := (Score.World.setAttendance (w.chain env) w.score who
              attendance game.index).toOption.getD w.score
          attendanceLog := w.attendanceLog ++
              [{ who := who
                 attendance := attendance
                 gameIndex := game.index
                 isOk := (Score.World.setAttendance (w.chain env) w.score who attendance
                      game.index).toOption.isSome }] } := by
    refine ⟨fun _ => rfl, rfl, rfl, rfl, rfl, rfl, ?_, ?_⟩
    · cases hSet : Score.World.setAttendance (w.chain env) w.score who
          attendance game.index with
      | ok score => exact SameParticipants.setAttendance hSet
      | error e => exact SameParticipants.refl _
    · intro hParticipate hOk call hMem
      rcases Score.World.setAttendance_isOk (hParticipate who hPlaying) attendance game.index with
        ⟨score, hSet⟩
      rcases List.mem_append.mp hMem with hOld | hNew
      · exact hOk call hOld
      · rw [List.mem_singleton.mp hNew, hSet]
        rfl
  unfold World.applyAttendance
  dsimp only
  refine trans ?_ (putGame _ _)
  split_ifs
  · exact trans hScored (of_store rfl rfl rfl rfl)
  · exact hScored

theorem enactAttendance (hPlaying : w.playing who ≠ none) (player : Player) (game : GameInfo T.Who)
    (attendance : Bool) :
    SamePopulation w (w.enactAttendance env who player game attendance) := by
  unfold World.enactAttendance
  cases game.state with
  | reporting playerCount =>
    exact (applyAttendance hPlaying attendance player.registered
        game).trans (mutatePlayer _ _ fun _ => rfl)
  | _ => exact refl w

theorem tryEarlyAttendanceEnactment (w : World T) (who : T.Who) :
    SamePopulation w (w.tryEarlyAttendanceEnactment env who) := by
  unfold World.tryEarlyAttendanceEnactment
  cases hGet : w.store.players.get who with
  | none => exact refl w
  | some player =>
    have hPlaying : w.playing who ≠ none := by
      rw [World.playing_of_get hGet]
      exact Option.some_ne_none _
    cases w.store.game with
    | none => exact refl w
    | some game =>
      dsimp only
      split_ifs
      · exact refl w
      · cases determineAttendance player with
        | attended =>
          exact enactAttendance hPlaying player game _
        | notAttended =>
          exact enactAttendance hPlaying player game _
        | pending => exact refl w

theorem enactAll (who : List T.Who) (w : World T) :
    SamePopulation w (who.foldl (World.tryEarlyAttendanceEnactment env) w) := by
  induction who generalizing w with
  | nil => exact refl w
  | cons who rest ih =>
    exact (tryEarlyAttendanceEnactment w who).trans (ih _)

theorem reportMember {weight : Nat} {acc acc' : World T × List T.Who} {entry : Nat × Report}
    (hReport : World.reportMember weight round acc entry = .ok acc') :
    SamePopulation acc.1 acc'.1 := by
  unfold World.reportMember at hReport
  simp only [bind_eq_ok, okOr_eq_ok_iff, pure_eq_ok] at hReport
  rcases hReport with ⟨reported, _, player, hGet, rfl⟩
  apply setPlayer
  rw [World.playing_of_get hGet]
  cases entry.2 <;> rfl

variable {fullReport : List (List Report)}

theorem reportRound {weight : Nat} {setting : GroupsSetting} {reporterIndices : List Nat}
    {acc acc' : World T × List T.Who}
    (hReport : World.reportRound weight setting reporterIndices fullReport acc round = .ok acc') :
    SamePopulation acc.1 acc'.1 := by
  unfold World.reportRound at hReport
  simp only [bind_eq_ok, okOr_eq_ok_iff, ensure_eq_ok_iff, exists_const] at hReport
  rcases hReport with ⟨_, _, _, _, _, _, hFold⟩
  refine List.foldlM_invariant (fun acc₁ : World T × List T.Who =>
      SamePopulation acc.1 acc₁.1) hFold ?_ (refl acc.1)
  intro acc₁ entry acc₂ _ hStep hSame
  exact hSame.trans (reportMember hStep)

theorem report (hReport : w.report env who fullReport = .ok w') :
    SamePopulation w w' := by
  unfold World.report at hReport
  simp only [bind_eq_ok, okOr_eq_ok_iff, ensure_eq_ok_iff, exists_const] at hReport
  rcases hReport with ⟨game, _, _, hRest⟩
  cases hState : game.state with
  | reporting playerCount =>
    rw [hState] at hRest
    simp only [bind_eq_ok, okOr_eq_ok_iff, ensure_eq_ok_iff, exists_const, pure_eq_ok]
      at hRest
    rcases hRest with ⟨_, _, player, hGet, _, indices, _, reported, hFold, rfl⟩
    have hPlaying := World.playing_of_get hGet
    have hSent : SamePopulation w (w.setPlayer who { player with sentReport := true }) :=
      setPlayer hPlaying
    have hVotes : SamePopulation (w.setPlayer who { player with sentReport := true })
          reported.1 := by
      refine List.foldlM_invariant (fun acc : World T × List T.Who =>
            SamePopulation (w.setPlayer who { player with sentReport := true }) acc.1)
          hFold ?_ (refl _)
      intro acc round acc' _ hStep hSame
      exact hSame.trans (reportRound hStep)
    exact (hSent.trans hVotes).trans (enactAll _ _)
  | _ =>
    rw [hState] at hRest
    cases hRest

theorem endReportingInner (w : World T) :
    SamePopulation w (w.endReportingInner env) := by
  unfold World.endReportingInner
  cases w.store.game with
  | none => exact refl w
  | some game =>
    dsimp only
    cases game.state with
    | reporting playerCount =>
      dsimp only
      split_ifs
      · exact setState w game _
      · exact refl w
    | _ => exact refl w

--
-- The End of a Game
--

theorem playerProcessStep2 (w : World T) (indices : List (Nat × Nat)) (players : List T.Who) :
    SamePopulation w (w.playerProcessStep2 env indices players) :=
  of_store rfl rfl rfl rfl

theorem setLastProcessed (w : World T) (who : T.Who) (playerCount : Nat) :
    SamePopulation w (w.setLastProcessed who playerCount) := by
  unfold World.setLastProcessed
  cases w.store.game with
  | none => exact refl w
  | some game => exact setState w game _

theorem finishProcessing (w : World T) : SamePopulation w w.finishProcessing := by
  unfold World.finishProcessing
  cases w.store.game with
  | none =>
    exact of_score rfl rfl rfl (SameParticipants.refl _) rfl
  | some game =>
    dsimp only
    refine trans ?_ (setState _ game _)
    exact of_score rfl rfl rfl (SameParticipants.refl _) rfl

theorem clearIndices (w : World T) (who : T.Who) (rounds : Nat) :
    SamePopulation w (w.clearIndices who rounds) := by
  unfold World.clearIndices
  cases w.store.playerToIndex.get who with
  | none => exact refl w
  | some indices => exact of_store rfl rfl rfl rfl

theorem processCancellingStep (w : World T) (chunk : World.ShuffleChunk) :
    SamePopulation w (w.processCancellingStep chunk).1 := by
  unfold World.processCancellingStep
  cases w.store.game with
  | none => exact refl w
  | some game =>
    dsimp only
    cases game.state with
    | cancelling step =>
      cases step with
      | drainShuffle =>
        unfold World.processCancellingStepShuffle
        dsimp only
        split_ifs
        · refine trans ?_ (setState _ game _)
          exact of_store rfl rfl rfl rfl
        · exact of_store rfl rfl rfl rfl
      | drainPlayers lastIteration =>
        unfold World.processCancellingStepPlayer
        dsimp only
        cases w.store.players.nextKey T.hashedKey
            lastIteration with
        | none => exact of_store rfl rfl rfl rfl
        | some who =>
          dsimp only
          refine trans ?_ (setState _ game _)
          refine trans ?_ (clearIndices _ who _)
          exact mutatePlayer w who fun _ => rfl
    | _ => exact refl w

theorem processCancelling (chunks : List World.ShuffleChunk) (w : World T) :
    SamePopulation w (w.processCancelling chunks) := by
  induction chunks generalizing w with
  | nil => exact refl w
  | cons chunk chunks ih =>
    unfold World.processCancelling
    dsimp only
    split_ifs
    · exact (processCancellingStep w chunk).trans (ih _)
    · exact processCancellingStep w chunk

end SamePopulation

end Individuality.Game
