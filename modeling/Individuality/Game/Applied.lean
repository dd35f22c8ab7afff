import Individuality.Game.Attended
import Individuality.Game.Opening

/-
  Each player that is in a game when its reporting starts has
  its attendance set once, and to what the final votes decide.

  Main declaration: `World.attendance_applied_once`
-/

namespace Individuality.Game

variable
  {T : Config}
  {w w' : World T}
  {env : Env T}
  {game : GameInfo T.Who}
  {players₀ : StorageMap T.Who Player}
  {log : List (AttendanceCall T.Who)}
  {gameIndex : Nat}
variable {last : Option T.Who} {who : T.Who} {player : Player} {seen : Seen T}

--
-- Processing One Player
--

/- The attendance that the final votes of a player decide. -/
def finalOf (players : StorageMap T.Who Player) (who : T.Who) : List Bool :=
  match players.get who with
  | none => []
  | some player => [finalAttendance player]

/- The final attendance of who is visited, early ones else. -/
def settledOf (players : StorageMap T.Who Player) (last : Option T.Who) (who : T.Who) : List Bool :=
  if StorageMap.isAfter T.hashedKey last who then
    enactedOf players who
  else
    finalOf players who

/- What was enacted early is what the final votes decide. -/
def EarlyFinal (players : StorageMap T.Who Player) : Prop :=
  ∀ who player, players.get who = some player → ∀ enactment,
      player.earlyAttendanceEnactment = some enactment →
        finalAttendance player = enactment.attendance

/-
  The players that an iteration has not visited are as they
  were, and the attendances are set of those it has.
-/
structure Settled (players₀ : StorageMap T.Who Player) (log : List (AttendanceCall T.Who))
    (gameIndex : Nat) (last : Option T.Who) (w : World T) : Prop where
  kept : ∀ who,
      StorageMap.isAfter T.hashedKey last who = true →
        w.store.players.get who = players₀.get who
  logged : Logged log gameIndex (settledOf players₀ last) w

/- How a player is disposed of sets no attendance. -/
theorem disposePlayer_log (env : Env T) (w : World T) (who : T.Who) (player : Player)
    (disposition : PlayerDisposition) :
    (w.disposePlayer env who player disposition).attendanceLog = w.attendanceLog := by
  have hArchive : ∀ archived, (w.archivePlayer who player archived).attendanceLog
          = w.attendanceLog := fun archived =>
    ((SameTable.burnDeposit w who player.credibility).trans
      (SameTable.revokeAllowance _ who)).attendanceLog
  cases disposition with
  | archiveKickable => exact hArchive _
  | archiveUnkickable => exact hArchive _
  | keep =>
    exact (SameTable.settleCredibility env w who player.credibility).attendanceLog

theorem processPlayerAttendanceOutcome_log
    (env : Env T) (w : World T) (game : GameInfo T.Who) (who : T.Who) (player : Player) :
    (∃ enactment, player.earlyAttendanceEnactment = some enactment
          ∧ (w.processPlayerAttendanceOutcome env game who player).attendanceLog = w.attendanceLog)
      ∨ (player.earlyAttendanceEnactment = none ∧ ∃ call : AttendanceCall T.Who,
          (w.processPlayerAttendanceOutcome env game who
              player).attendanceLog = w.attendanceLog ++ [call]
            ∧ call.who = who
            ∧ call.attendance = finalAttendance player
            ∧ call.gameIndex = game.index) := by
  unfold World.processPlayerAttendanceOutcome
  cases player.earlyAttendanceEnactment with
  | some enactment =>
    left
    exact ⟨enactment, rfl, disposePlayer_log env w who player _⟩
  | none =>
    right
    rcases applyAttendance_spec env w who (finalAttendance player) player.registered game with
      ⟨call, hLog, hWho, hAttendance, hIndex, _, _⟩
    refine ⟨rfl, call, ?_, hWho, hAttendance, hIndex⟩
    exact (disposePlayer_log env _ who player _).trans hLog

/- One more player is processed. -/
theorem Settled.processPlayer {playerCount : Nat} (hFinal : EarlyFinal players₀)
    (hOld : Settled players₀ log game.index last w) (hGame : w.store.game = some game)
    (hNext : w.store.players.nextKey T.hashedKey last = some who)
    (hGet : w.store.players.get who = some player) :
    Settled players₀ log game.index (some who) ((w.processPlayerAttendanceOutcome env game who
        player).setLastProcessed who playerCount) := by
  rcases processPlayerAttendanceOutcome_table env hGame who player with ⟨hProcessed, hFrame⟩
  have hLog := processPlayerAttendanceOutcome_log env w game who player
  generalize w.processPlayerAttendanceOutcome env game who player = v
    at hProcessed hFrame hLog
  rcases Option.map_eq_some_iff.mp hFrame with ⟨game', hGame', _⟩
  unfold World.setLastProcessed
  rw [hGame']
  dsimp only
  have hAfter := (StorageMap.nextKey_spec hNext).2.1
  have hKey := hOld.kept who hAfter
  rw [hGet] at hKey
  have hOther : ∀ who', who' ≠ who →
        settledOf players₀ (some who) who' = settledOf players₀ last who' := by
    intro who' hNe
    unfold settledOf
    by_cases hBefore : StorageMap.isAfter T.hashedKey last who' = true
    · have hSame := hOld.kept who' hBefore
      rw [if_pos hBefore]
      cases hPlayer : players₀.get who' with
      | none =>
        unfold enactedOf finalOf
        rw [hPlayer]
        exact ite_self _
      | some player' =>
        have hSome : w.store.players.get who' ≠ none := by
          rw [hSame, hPlayer]
          exact Option.some_ne_none _
        rw [if_pos ((StorageMap.isAfter_nextKey_iff T.hashedKey_injective
            hNext hSome).mpr ⟨hBefore, hNe⟩)]
    · rw [if_neg hBefore, if_neg fun hNow =>
          hBefore (StorageMap.isAfter_of_isAfter_nextKey hNext hNow)]
  have hNow : settledOf players₀ (some who) who = [finalAttendance player] := by
    unfold settledOf finalOf
    rw [if_neg (by simp), ← hKey]
  have hThen : settledOf players₀ last who = (player.earlyAttendanceEnactment.map
            EarlyAttendanceEnactment.attendance).toList := by
    unfold settledOf enactedOf
    rw [if_pos hAfter, ← hKey]
  refine ⟨?_, ?_⟩
  · intro who' hLater
    have hNe : who' ≠ who := by
      rintro rfl
      rw [StorageMap.isAfter_some] at hLater
      exact Nat.lt_irrefl _ hLater
    change v.store.players.get who' = players₀.get who'
    rw [hProcessed.others who' hNe]
    exact hOld.kept who' (StorageMap.isAfter_of_isAfter_nextKey hNext hLater)
  · rcases hLog with ⟨enactment, hEarly, hSame⟩
        | ⟨hNone, call, hAdd, hWho, hAttendance, hIndex⟩
    · refine hOld.logged.congr hSame ?_
      intro who'
      by_cases hIs : who' = who
      · rw [hIs, hNow, hThen, hEarly, hFinal who player hKey.symm enactment hEarly]
        rfl
      · exact hOther who' hIs
    · refine Logged.append hOld.logged hAdd hIndex ?_
      intro who'
      by_cases hIs : who' = who
      · rw [hIs, hNow, hThen, hNone, if_pos hWho, hAttendance]
        rfl
      · rw [hOther who' hIs, if_neg fun hEq => hIs (hEq.symm.trans hWho),
          List.append_nil]

/- Once all are visited, all attendances are final. -/
theorem Settled.finished (hOld : Settled players₀ log gameIndex last w)
    (hNext : w.store.players.nextKey T.hashedKey last = none)
    (hLog : w'.attendanceLog = w.attendanceLog) :
    Logged log gameIndex (finalOf players₀) w' := by
  refine hOld.logged.congr hLog ?_
  intro who
  unfold settledOf
  split_ifs with hAfter
  · have hSame := hOld.kept who hAfter
    have hNone : w.store.players.get who = none := by
      by_contra hSome
      rw [StorageMap.nextKey_eq_none_iff.mp hNext who hSome] at hAfter
      cases hAfter
    unfold finalOf enactedOf
    rw [← hSame, hNone]
  · rfl

--
-- Processing All Players
--

/- What holds from the end of the reporting on, with the players there were then. -/
def Tallied (players₀ : StorageMap T.Who Player) (log : List (AttendanceCall T.Who))
    (gameIndex : Nat) (w : World T) : Prop :=
  match w.store.game with
  | none => Logged log gameIndex (finalOf players₀) w
  | some game =>
    game.index = gameIndex ∧ match game.state with
        | .playerProcess (.processPlayers last _) =>
          Settled players₀ log gameIndex last w
        | .playerProcess .clearIndices =>
          Logged log gameIndex (finalOf players₀) w
        | _ => False

theorem Tallied.of_same (hOld : Tallied players₀ log gameIndex w) (hSame : SameTally w w') :
    Tallied players₀ log gameIndex w' := by
  have hPlayers := congrArg Board.players hSame.board
  change w'.store.players = w.store.players at hPlayers
  have hLogged : ∀ attendances, Logged log gameIndex attendances w →
          Logged log gameIndex attendances w' :=
    fun _ hLogged => hLogged.congr hSame.attendanceLog fun _ => rfl
  unfold Tallied at hOld ⊢
  rw [hSame.game]
  cases hGame : w.store.game with
  | none =>
    rw [hGame] at hOld
    exact hLogged _ hOld
  | some game =>
    rw [hGame] at hOld
    refine ⟨hOld.1, ?_⟩
    have hState := hOld.2
    cases hGameState : game.state with
    | playerProcess step =>
      rw [hGameState] at hState
      cases step with
      | processPlayers last n =>
        refine ⟨?_, hLogged _ hState.logged⟩
        rw [hPlayers]
        exact hState.kept
      | clearIndices => exact hLogged _ hState
    | _ =>
      rw [hGameState] at hState
      exact hState

/- Once all attendances are final, so they stay. -/
theorem Logged.tallied_none (hLogged : Logged log gameIndex (finalOf players₀) w)
    (hGame : w.store.game = none) :
    Tallied players₀ log gameIndex w := by
  unfold Tallied
  rw [hGame]
  exact hLogged

theorem Logged.tallied_clear (hLogged : Logged log gameIndex (finalOf players₀) w)
    (hGame : w.store.game = some game) (hState : game.state = .playerProcess .clearIndices)
    (hIndex : game.index = gameIndex) :
    Tallied players₀ log gameIndex w := by
  unfold Tallied
  rw [hGame]
  dsimp only
  rw [hState]
  exact ⟨hIndex, hLogged⟩

theorem Tallied.finishProcessing {playerCount : Nat} (hOld : Tallied players₀ log gameIndex w)
    (hGame : w.store.game = some game)
    (hState : game.state = .playerProcess (.processPlayers last playerCount))
    (hNext : w.store.players.nextKey T.hashedKey last = none) :
    Tallied players₀ log gameIndex w.finishProcessing := by
  unfold Tallied at hOld
  rw [hGame] at hOld
  dsimp only at hOld
  rw [hState] at hOld
  unfold World.finishProcessing
  dsimp only
  rw [hGame]
  exact ⟨hOld.1, hOld.2.finished hNext rfl⟩

theorem Tallied.processPlayer {playerCount : Nat} (hFinal : EarlyFinal players₀)
    (hOld : Tallied players₀ log gameIndex w) (hGame : w.store.game = some game)
    (hState : game.state = .playerProcess (.processPlayers last playerCount))
    (hNext : w.store.players.nextKey T.hashedKey last = some who)
    (hGet : w.store.players.get who = some player) :
    Tallied players₀ log gameIndex ((w.processPlayerAttendanceOutcome env game who
        player).setLastProcessed who playerCount) := by
  unfold Tallied at hOld
  rw [hGame] at hOld
  dsimp only at hOld
  rw [hState] at hOld
  rcases hOld with ⟨rfl, hSettled⟩
  have hNow : Settled players₀ log game.index (some who)
        ((w.processPlayerAttendanceOutcome env game who player).setLastProcessed who playerCount) :=
    hSettled.processPlayer hFinal hGame hNext hGet
  rcases processPlayerAttendanceOutcome_table env hGame who player with ⟨_, hFrame⟩
  rcases Option.map_eq_some_iff.mp hFrame with ⟨game', hGame', hEq⟩
  have hIndex : game'.index = game.index := congrArg
      (fun frame : GameState T.Who × Nat × Nat × Nat => frame.2.2.2) hEq
  unfold World.setLastProcessed at hNow ⊢
  rw [hGame'] at hNow ⊢
  exact ⟨hIndex, hNow⟩

theorem Tallied.playerProcessStep1 (budget creditCapacity : Nat) (hFinal : EarlyFinal players₀)
    (hOld : Tallied players₀ log gameIndex w) :
    Tallied players₀ log gameIndex (World.playerProcessStep1 env budget creditCapacity w) := by
  induction budget generalizing w creditCapacity with
  | zero =>
    unfold World.playerProcessStep1
    split
    · exact hOld
    · rename_i game hGame
      split
      · rename_i last playerCount hState
        split
        · rename_i hNext
          exact hOld.finishProcessing hGame hState hNext
        · split <;> first | exact hOld | contradiction
      · exact hOld
  | succ budget ih =>
    unfold World.playerProcessStep1
    split
    · exact hOld
    · rename_i game hGame
      split
      · rename_i last playerCount hState
        split
        · rename_i hNext
          exact hOld.finishProcessing hGame hState hNext
        · rename_i who hNext
          split
          · rename_i player _ hGet hBudget
            split
            · exact hOld
            · obtain rfl := Nat.succ.inj hBudget
              exact ih _ (hOld.processPlayer hFinal hGame hState hNext hGet)
          · exact hOld
      · exact hOld

theorem Tallied.processPlayers (budget : Nat) (indices : List (Nat × Nat)) (players : List T.Who)
    (hFinal : EarlyFinal players₀) (hOld : Tallied players₀ log gameIndex w) :
    Tallied players₀ log gameIndex (w.processPlayers env budget indices players) := by
  unfold World.processPlayers
  split
  · exact hOld
  · rename_i game hGame
    split
    · exact hOld.playerProcessStep1 budget _ hFinal
    · rename_i hState
      unfold Tallied at hOld
      rw [hGame] at hOld
      dsimp only at hOld
      rw [hState] at hOld
      have hLogged : Logged log gameIndex (finalOf players₀)
            (w.playerProcessStep2 env indices players) :=
        hOld.2.congr rfl fun _ => rfl
      have hGame' : (w.playerProcessStep2 env indices players).store.game = none
            ∨ (w.playerProcessStep2 env indices players).store.game = some game := by
        unfold World.playerProcessStep2
        dsimp only
        split_ifs
        · exact Or.inl rfl
        · exact Or.inr hGame
      rcases hGame' with hNone | hSome
      · exact hLogged.tallied_none hNone
      · exact hLogged.tallied_clear hSome hState hOld.1
    · exact hOld

--
-- Calls
--

/- Few calls go on with a game that is running. -/
theorem dispatch_running {op : Op T} (hGame : w.store.game = some game)
    (hRunning : game.state.isRunning = true) (hDispatch : w.dispatch (env, op) = .ok w') :
    SameTally w w' ∨ (∃ who fullReport, w.report env who fullReport = .ok w')
      ∨ w' = w.endReportingInner env
      ∨ ∃ budget indices players, w' = w.processPlayers env budget indices players := by
  have hNot : World.isRegistration game = false ∧ World.isShuffle game = false
        ∧ ∀ step, game.state ≠ .cancelling step := by
    unfold World.isRegistration World.isShuffle
    cases hState : game.state with
    | reporting n =>
      exact ⟨rfl, rfl, fun _ hEq => by cases hEq⟩
    | playerProcess step =>
      exact ⟨rfl, rfl, fun _ hEq => by cases hEq⟩
    | _ =>
      rw [hState] at hRunning
      cases hRunning
  rcases hNot with ⟨hRegistration, hShuffle, hCancelling⟩
  have hSame : SameTally w w := ⟨rfl, rfl, rfl⟩
  cases gameEffect_of_dispatch hDispatch with
  | scheduled | otherStarted | otherClosed =>
    exact Or.inl ⟨rfl, rfl, rfl⟩
  | started =>
    left
    unfold World.startNextGame
    split
    · exact hSame
    · rename_i schedule _
      dsimp only
      cases hNew : w.newGame env schedule with
      | error e => exact ⟨rfl, rfl, rfl⟩
      | ok w₁ =>
        rw [(newGame_spec hNew).1] at hGame
        cases hGame
  | signedUp _ _ w₁ _ hSignUp =>
    rcases (signUpInner_table hSignUp).signUp with ⟨game₁, _, _, _, hGame₁, hIs, _⟩
    obtain rfl := Option.some.inj (hGame.symm.trans hGame₁)
    rw [hRegistration] at hIs
    cases hIs
  | endedRegistration =>
    left
    unfold World.endRegistrationInner
    rw [hGame]
    dsimp only
    split
    · rename_i n hState
      unfold World.isRegistration at hRegistration
      rw [hState] at hRegistration
      cases hRegistration
    · exact hSame
  | shuffled =>
    left
    unfold World.shuffles
    rw [hGame]
    dsimp only
    split
    · rename_i step hState
      unfold World.isShuffle at hShuffle
      rw [hState] at hShuffle
      cases hShuffle
    · exact hSame
  | reported who fullReport _ hReport =>
    exact Or.inr (Or.inl ⟨who, fullReport, hReport⟩)
  | endedReporting => exact Or.inr (Or.inr (Or.inl rfl))
  | processed _ budget indices players =>
    exact Or.inr (Or.inr (Or.inr ⟨budget, indices, players, rfl⟩))
  | cancelled game₁ hGame₁ hAllowed =>
    obtain rfl := Option.some.inj (hGame.symm.trans hGame₁)
    rw [hRegistration, hShuffle] at hAllowed
    rcases hAllowed with hNo | hNo <;> cases hNo
  | drained _ chunks =>
    left
    cases chunks with
    | nil => exact hSame
    | cons chunk chunks =>
      unfold World.processCancelling World.processCancellingStep
      rw [hGame]
      dsimp only
      cases hState : game.state with
      | cancelling step =>
        exact absurd hState (hCancelling step)
      | _ => exact hSame
  | offboarded _ _ hOffboard =>
    have hAllowed := (offboard_table hOffboard).1
    rw [hGame, Option.all_some, hRegistration] at hAllowed
    cases hAllowed
  | kickedOut _ _ hKickout =>
    exact Or.inl (SameTally.of_table (kickout_table hKickout))
  | scored _ _ _ hScore =>
    exact Or.inl (SameTally.of_table (SameTable.fromScore hScore))

/- What has happened since the reporting started. -/
structure InReport (wBegin : World T) (gameIndex : Nat) (w : World T) : Prop where
  reported : ∃ game playerCount,
      w.store.game = some game
        ∧ game.state = .reporting playerCount
        ∧ game.index = gameIndex
        ∧ Reported wBegin.attendanceLog gameIndex game.rounds
            (settingOf game playerCount) w
  players : ∀ who,
      (w.store.players.get who).map Player.seat
        = (wBegin.store.players.get who).map Player.seat

variable {wBegin : World T}

theorem InReport.of_same (hOld : InReport wBegin gameIndex w) (hSame : SameTally w w') :
    InReport wBegin gameIndex w' := by
  rcases hOld.reported with ⟨game, playerCount, hGame, hState, hIndex, hReported⟩
  have hPlayers := congrArg Board.players hSame.board
  change w'.store.players = w.store.players at hPlayers
  refine ⟨⟨game, playerCount, hSame.game.trans hGame, hState, hIndex, hReported.of_same hSame⟩, ?_⟩
  rw [hPlayers]
  exact hOld.players

theorem InReport.report {fullReport : List (List Report)} (hOld : InReport wBegin gameIndex w)
    (hPhase : w.InPhase seen) (hReport : w.report env who fullReport = .ok w') :
    InReport wBegin gameIndex w' := by
  rcases hOld.reported with ⟨game, playerCount, hGame, hState, rfl, hReported⟩
  rcases hPhase.of_game hGame with ⟨hSetup, hStatePhase⟩
  rw [hState] at hStatePhase
  rcases hStatePhase with ⟨lineup, hDrawn, _⟩
  have hSeats := (SameSeats.report hReport).1
  have hFrame := hSeats.game
  rw [hGame, Option.map_some, Option.map_eq_some_iff] at hFrame
  rcases hFrame with ⟨game', hGame', hEq⟩
  rcases Prod.mk.inj hEq with ⟨hState', hRest⟩
  rcases Prod.mk.inj hRest with ⟨hRounds, hLast⟩
  rcases Prod.mk.inj hLast with ⟨hSize, hIndex⟩
  have hSetting : settingOf game' playerCount = settingOf game playerCount := by
    unfold settingOf
    rw [hSize]
  refine ⟨⟨game', playerCount, hGame', hState'.trans hState, hIndex, ?_⟩, ?_⟩
  · rw [hRounds, hSetting]
    exact hReported.report hSetup hGame hState hDrawn hReport
  · exact fun who' => (hSeats.players who').trans (hOld.players who')

/- The reporting ends: from now on players are processed. -/
theorem InReport.endReporting (hOld : InReport wBegin gameIndex w) :
    InReport wBegin gameIndex (w.endReportingInner env)
      ∨ (w.endReportingInner env).store.game ≠ none
          ∧ Tallied w.store.players wBegin.attendanceLog gameIndex (w.endReportingInner env) := by
  rcases hOld.reported with ⟨game, playerCount, hGame, hState, hIndex, hReported⟩
  unfold World.endReportingInner
  rw [hGame]
  dsimp only
  rw [hState]
  dsimp only
  split_ifs
  · right
    exact ⟨Option.some_ne_none _, hIndex, fun _ _ => rfl,
        hReported.logged.congr rfl fun _ => rfl⟩
  · exact Or.inl hOld

theorem InReport.earlyFinal (hOld : InReport wBegin gameIndex w) :
    EarlyFinal w.store.players := by
  rcases hOld.reported with ⟨_, _, _, _, _, hReported⟩
  intro who player hGet enactment hEarly
  exact (hReported.fair who player hGet).finalAttendance_eq hEarly

variable {call : Env T × Op T}

theorem InReport.dispatch (hOld : InReport wBegin gameIndex w) (hPhase : w.InPhase seen)
    (hDispatch : w.dispatch call = .ok w') :
    InReport wBegin gameIndex w' ∨ w'.store.game ≠ none
        ∧ Tallied w.store.players wBegin.attendanceLog gameIndex
            w' := by
  rcases call with ⟨env, op⟩
  rcases hOld.reported with ⟨game, _, hGame, hState, _, _⟩
  have hRunning : game.state.isRunning = true := by
    rw [hState]
    rfl
  rcases dispatch_running hGame hRunning hDispatch with
    hSame | ⟨who, fullReport, hReport⟩ | rfl
      | ⟨budget, indices, players, rfl⟩
  · exact Or.inl (hOld.of_same hSame)
  · exact Or.inl (hOld.report hPhase hReport)
  · exact hOld.endReporting
  · left
    unfold World.processPlayers
    rw [hGame]
    dsimp only
    rw [hState]
    exact hOld

theorem Tallied.dispatch (hFinal : EarlyFinal players₀) (hOld : Tallied players₀ log gameIndex w)
    (hGame : w.store.game = some game) (hDispatch : w.dispatch call = .ok w') :
    Tallied players₀ log gameIndex w' := by
  rcases call with ⟨env, op⟩
  have hState : ∃ step, game.state = .playerProcess step := by
    unfold Tallied at hOld
    rw [hGame] at hOld
    have hMatch := hOld.2
    cases hGameState : game.state with
    | playerProcess step => exact ⟨step, rfl⟩
    | _ =>
      rw [hGameState] at hMatch
      exact hMatch.elim
  rcases hState with ⟨step, hState⟩
  have hRunning : game.state.isRunning = true := by
    rw [hState]
    rfl
  rcases dispatch_running hGame hRunning hDispatch with
    hSame | ⟨who, fullReport, hReport⟩ | rfl
      | ⟨budget, indices, players, rfl⟩
  · exact hOld.of_same hSame
  · rcases (SameSeats.report hReport).2 with ⟨game₁, _, hGame₁, hReporting⟩
    obtain rfl := Option.some.inj (hGame.symm.trans hGame₁)
    rw [hState] at hReporting
    cases hReporting
  · unfold World.endReportingInner
    rw [hGame]
    dsimp only
    rw [hState]
    exact hOld
  · exact hOld.processPlayers budget indices players hFinal

--
-- Tallies
--

/-
  Whether a player attended a game by a tally of its votes: it takes part, has reported, and more
  votes are for it than against it, or there are none.
-/
def attendedBy (registered sentReport : Bool) (yes no : Nat) : Bool :=
  registered && sentReport && decide (no < yes ∨ yes = 0 ∧ no = 0)

theorem finalAttendance_eq_attendedBy (player : Player) :
    finalAttendance player = attendedBy player.registered player.sentReport
        player.yesPerson player.noNotPerson :=
  finalAttendance_iff player

/- What is decided no votes that are out can change. -/
theorem Decided.attendedBy_eq {out yes no : Nat} {attendance sentReport : Bool}
    (hDecided : Decided out player attendance)
    (hSent : player.sentReport = true → sentReport = true) (hOut : yes + no ≤ out) :
    attendedBy player.registered sentReport (player.yesPerson + yes) (player.noNotPerson + no)
      = attendance := by
  unfold attendedBy
  cases attendance with
  | true =>
    rcases hDecided with ⟨hRegistered, hIs, hVotes⟩
    rw [hRegistered, hSent hIs, Bool.true_and, Bool.true_and, decide_eq_true_eq]
    omega
  | false =>
    rcases hDecided with hRegistered | hVotes
    · rw [hRegistered]
      rfl
    · have hNot : decide (player.noNotPerson + no < player.yesPerson + yes
              ∨ player.yesPerson + yes = 0 ∧ player.noNotPerson + no = 0) = false :=
        decide_eq_false (by omega)
      rw [hNot, Bool.and_false]

--
-- Whole Games
--

/- A game is going on in the state after a step. -/
def GameGoesOn (_ : World T) (_ : Env T × Op T) (w' : World T) : Prop :=
  w'.store.game ≠ none

/- On a run the reporting ends with the step from a state. -/
structure ReportingEnds (wBegin wEnd wLast : World T) : Prop where
  before : RunUnder World.dispatch GameGoesOn wBegin wEnd
  reporting : wEnd.isReporting = true
  after : ∃ call wNext,
      wEnd.dispatch call = .ok wNext
        ∧ wNext.isReporting = false
        ∧ RunUnder World.dispatch GameGoesOn wNext wLast

theorem InReport.isReporting (hOld : InReport wBegin gameIndex w) :
    w.isReporting = true := by
  rcases hOld.reported with ⟨game, _, hGame, hState, _, _⟩
  unfold World.isReporting
  rw [hGame, Option.any_some, hState]

theorem Tallied.isReporting (hOld : Tallied players₀ log gameIndex w) :
    w.isReporting = false := by
  unfold Tallied at hOld
  unfold World.isReporting
  cases hGame : w.store.game with
  | none => rfl
  | some game =>
    rw [hGame] at hOld
    have hMatch := hOld.2
    rw [Option.any_some]
    cases hState : game.state with
    | reporting n =>
      rw [hState] at hMatch
      exact hMatch.elim
    | _ => rfl

/- Where a run that starts with the reporting may be. -/
theorem reporting_run {wLast : World T} (hSeen : ∀ who hash recognized, seen who hash recognized)
    (hPlay : RunUnder World.dispatch GameGoesOn wBegin wLast) (hPhase : wBegin.InPhase seen)
    (hBegin : InReport wBegin gameIndex wBegin) :
    wLast.InPhase seen ∧ wLast.store.game ≠ none ∧ (InReport wBegin gameIndex wLast ∨ ∃ wEnd,
        ReportingEnds wBegin wEnd wLast ∧ InReport wBegin gameIndex wEnd
          ∧ Tallied wEnd.store.players wBegin.attendanceLog gameIndex wLast) := by
  induction hPlay with
  | refl =>
    refine ⟨hPhase, ?_, Or.inl hBegin⟩
    rcases hBegin.reported with ⟨game, _, hGame, _, _, _⟩
    rw [hGame]
    exact Option.some_ne_none _
  | @tail v w hBefore hLast ih =>
    rcases hLast with ⟨call, hGoesOn, hDispatch⟩
    rcases ih with ⟨hPhase, hGame, hCases⟩
    refine ⟨hPhase.dispatch (fun _ _ _ _ _ => hSeen _ _ _) hDispatch, hGoesOn, ?_⟩
    rcases hCases with hReport | ⟨wEnd, hEnds, hReport, hTallied⟩
    · rcases hReport.dispatch hPhase hDispatch with
        hStays | ⟨_, hTallied⟩
      · exact Or.inl hStays
      · right
        exact ⟨v, ⟨hBefore, hReport.isReporting, call, w, hDispatch,
              hTallied.isReporting, Relation.ReflTransGen.refl⟩,
            hReport, hTallied⟩
    · right
      rcases Option.ne_none_iff_exists'.mp hGame with ⟨game, hSome⟩
      rcases hEnds.after with ⟨call', wNext, hNext, hNot, hRest⟩
      exact ⟨wEnd, ⟨hEnds.before, hEnds.reporting, call', wNext, hNext,
            hNot, hRest.snoc hGoesOn hDispatch⟩,
          hReport,
          hTallied.dispatch hReport.earlyFinal hSome hDispatch⟩

/-
  Wherever the reporting ends on the way to a state, its tally
  is the one that the players are processed by from then on.
-/
theorem ReportingEnds.tallied {wEnd wLast : World T} (hEnds : ReportingEnds wBegin wEnd wLast)
    (hSeen : ∀ who hash recognized, seen who hash recognized) (hPhase : wBegin.InPhase seen)
    (hBegin : InReport wBegin gameIndex wBegin) :
    InReport wBegin gameIndex wEnd ∧ Tallied wEnd.store.players
        wBegin.attendanceLog gameIndex wLast := by
  rcases reporting_run hSeen hEnds.before hPhase hBegin with ⟨hPhaseEnd, _, hCases⟩
  have hReport : InReport wBegin gameIndex wEnd := by
    rcases hCases with hReport | ⟨_, _, _, hTallied⟩
    · exact hReport
    · exact absurd hEnds.reporting (Bool.eq_false_iff.mp hTallied.isReporting)
  refine ⟨hReport, ?_⟩
  rcases hEnds.after with ⟨call, wNext, hNext, hNot, hRest⟩
  have hStart : wNext.store.game ≠ none ∧ Tallied wEnd.store.players
        wBegin.attendanceLog gameIndex wNext := by
    rcases hReport.dispatch hPhaseEnd hNext with hStays | hTallied
    · exact absurd hStays.isReporting (Bool.eq_false_iff.mp hNot)
    · exact hTallied
  refine (hRest.invariant (fun w => w.store.game ≠ none ∧ Tallied wEnd.store.players
      wBegin.attendanceLog gameIndex w) ?_ hStart).2
  rintro v call w hGoesOn hDispatch ⟨hSome, hTallied⟩
  rcases Option.ne_none_iff_exists'.mp hSome with ⟨game, hGame⟩
  exact ⟨hGoesOn, hTallied.dispatch hReport.earlyFinal hGame hDispatch⟩

/- The record of a player stays while the game is reported on. -/
theorem InReport.get_player (hOld : InReport wBegin gameIndex w)
    (hGet : wBegin.store.players.get who = some player) :
    ∃ player', w.store.players.get who = some player' := by
  have hPlayers := hOld.players who
  rw [hGet, Option.map_some, Option.map_eq_some_iff] at hPlayers
  rcases hPlayers with ⟨player', hGet', _⟩
  exact ⟨player', hGet'⟩

/-
  One attendance is set for a player, and to what its record at the end of the reporting decides.
  If it was enacted early, then no votes that are still out could change it.
-/
structure AppliedOnce (gameIndex : Nat) (calls : List (AttendanceCall T.Who))
    (wEnd : World T) (who : T.Who) (player : Player) (applied : AttendanceCall T.Who) : Prop where
  get : wEnd.store.players.get who = some player
  once : calls.filter (fun call => decide (call.who = who)) = [applied]
  gameIndex_eq : applied.gameIndex = gameIndex
  attendance_eq : applied.attendance
      = attendedBy player.registered player.sentReport
          player.yesPerson player.noNotPerson
  early : ∀ enactment,
      player.earlyAttendanceEnactment = some enactment →
        enactment.attendance = applied.attendance
  decided : player.earlyAttendanceEnactment ≠ none →
      ∀ game playerCount sentReport yes no,
        wEnd.store.game = some game →
        game.state = .reporting playerCount →
        (player.sentReport = true → sentReport = true) →
        yes + no
            ≤ wEnd.outOf (settingOf game playerCount) game.rounds
                who →
          attendedBy player.registered sentReport
              (player.yesPerson + yes) (player.noNotPerson + no)
            = applied.attendance

theorem InReport.appliedOnce {calls : List (AttendanceCall T.Who)}
    (hReport : InReport wBegin gameIndex w) (hGet : w.store.players.get who = some player)
    (hIndex : ∀ call ∈ calls, call.gameIndex = gameIndex)
    (hAll : attendancesOf calls who = finalOf w.store.players who) :
    ∃ applied, AppliedOnce gameIndex calls w who player applied := by
  unfold attendancesOf finalOf at hAll
  rw [hGet] at hAll
  dsimp only at hAll
  rw [List.map_eq_singleton_iff] at hAll
  rcases hAll with ⟨applied, hOnce, hAttendance⟩
  have hIn : applied ∈ calls.filter fun call => decide (call.who = who) := by
    rw [hOnce]
    exact List.mem_singleton_self applied
  have hEarly : ∀ enactment, player.earlyAttendanceEnactment = some enactment →
          enactment.attendance = applied.attendance := by
    intro enactment hEnacted
    rw [hAttendance]
    exact (hReport.earlyFinal who player hGet enactment hEnacted).symm
  refine ⟨applied, hGet, hOnce, hIndex applied (List.mem_filter.mp hIn).1, ?_, hEarly, ?_⟩
  · rw [hAttendance]
    exact finalAttendance_eq_attendedBy player
  · intro hSome game playerCount sentReport yes no hGame hState hSent hOut
    rcases Option.ne_none_iff_exists'.mp hSome with ⟨enactment, hEnacted⟩
    rcases hReport.reported with ⟨game₁, playerCount₁, hGame₁, hState₁, _, hReported⟩
    obtain rfl := Option.some.inj (hGame.symm.trans hGame₁)
    obtain rfl := GameState.reporting.inj (hState.symm.trans hState₁)
    have hDecided := (hReported.fair who player hGet).early enactment hEnacted
    rw [← hEarly enactment hEnacted]
    exact hDecided.attendedBy_eq hSent hOut

namespace World

variable {game' : GameInfo T.Who} {playerCount : Nat}

/- The reporting starts with no attendance set yet. -/
theorem inReport_of_entry {wOpen wStart : World T}
    (hRun : RunUnder dispatch (fun _ _ _ => True) genesis wOpen)
    (hOpen : wOpen.store.game = some game) (hNot : game.state.isRunning = false)
    (hBefore : RunUnder dispatch BeforeReporting wOpen wStart)
    (hEnter : wStart.dispatch call = .ok wBegin) (hGame' : wBegin.store.game = some game')
    (hState' : game'.state = .reporting playerCount) :
    InReport wBegin game'.index wBegin ∧ wBegin.attendanceLog = wOpen.attendanceLog := by
  rcases opening_run hBefore hOpen hNot with ⟨hLog, gameStart, hGame, hStart⟩
  have hStep := Opening.dispatch hGame hStart hEnter
  refine ⟨?_, hStep.attendanceLog.trans hLog⟩
  rcases hStep.game game' hGame' with hHalted | hEnters
  · rw [hState'] at hHalted
    cases hHalted
  · rcases hEnters.1 with ⟨step, hState⟩
    have hReached : RunUnder dispatch (fun _ _ _ => True) genesis wStart :=
      hRun.trans (hBefore.weaken fun _ _ _ _ => trivial)
    rcases hReached.exists_trace with ⟨steps, hTrace⟩
    rcases drawn_of_entry hTrace hEnter hGame hState hGame' hState' with
      ⟨hSetup, hQuiet, lineup, hDrawn, _, hWeighed⟩
    exact ⟨⟨game', playerCount, hGame', hState', rfl,
        Reported.of_entry hSetup hQuiet hDrawn hWeighed⟩,
        fun _ => rfl⟩

/-
  A game goes from its registration to the reporting and to its end.  By then one attendance was set
  of each player that there was when the reporting started, and it is what the votes of all reports
  decide, as they stood in whichever state the reporting ended in.
-/
theorem attendance_applied_once {wOpen wStart wLast wDone : World T} {lastCall : Env T × Op T}
    {registered : Nat} (hRun : RunUnder dispatch (fun _ _ _ => True) genesis wOpen)
    (hOpen : wOpen.store.game = some game) (hState : game.state = .registration registered)
    (hBefore : RunUnder dispatch BeforeReporting wOpen wStart)
    (hEnter : wStart.dispatch call = .ok wBegin) (hGame' : wBegin.store.game = some game')
    (hState' : game'.state = .reporting playerCount)
    (hPlay : RunUnder dispatch GameGoesOn wBegin wLast) (hEnd : wLast.dispatch lastCall = .ok wDone)
    (hKilled : wDone.store.game = none) :
    (∃ wEnd, ReportingEnds wBegin wEnd wLast) ∧ ∃ calls,
        wDone.attendanceLog = wOpen.attendanceLog ++ calls
          ∧ ∀ wEnd, ReportingEnds wBegin wEnd wLast → ∀ who player₀,
              wBegin.store.players.get who = some player₀ → ∃ player applied,
                AppliedOnce game'.index calls wEnd who player applied := by
  have hNot : game.state.isRunning = false := by
    rw [hState]
    rfl
  rcases inReport_of_entry hRun hOpen hNot hBefore hEnter hGame'
      hState' with
    ⟨hBegin, hLog⟩
  have hStart : RunUnder dispatch (fun _ _ _ => True) genesis wStart :=
    hRun.trans (hBefore.weaken fun _ _ _ _ => trivial)
  have hReached : RunUnder dispatch (fun _ _ _ => True) genesis wBegin := hStart.snoc trivial hEnter
  rcases hReached.exists_trace with ⟨steps, hTrace⟩
  have hPhase : wBegin.InPhase fun _ _ _ => True :=
    (inPhase_seenInRun hTrace).mono fun _ _ _ _ _ => trivial
  rcases reporting_run (fun _ _ _ => trivial) hPlay hPhase hBegin with ⟨hPhaseLast, hGoesOn, hCases⟩
  have hExists : ∃ wEnd, ReportingEnds wBegin wEnd wLast := by
    rcases hCases with hReport | ⟨wEnd, hEnds, _⟩
    · rcases hReport.dispatch hPhaseLast hEnd with
        hStays | ⟨hSome, _⟩
      · rcases hStays.reported with ⟨_, _, hSome, _⟩
        rw [hKilled] at hSome
        cases hSome
      · exact absurd hKilled hSome
    · exact ⟨wEnd, hEnds⟩
  rcases Option.ne_none_iff_exists'.mp hGoesOn with ⟨gameLast, hGameLast⟩
  /- the calls of the game, by the tally of any of its ends -/
  have hCalls : ∀ wEnd, ReportingEnds wBegin wEnd wLast → InReport wBegin game'.index wEnd
          ∧ Logged wBegin.attendanceLog game'.index (finalOf wEnd.store.players) wDone := by
    intro wEnd hEnds
    rcases hEnds.tallied (fun _ _ _ => trivial) hPhase hBegin with ⟨hReport, hTallied⟩
    have hDone := hTallied.dispatch hReport.earlyFinal hGameLast hEnd
    unfold Tallied at hDone
    rw [hKilled] at hDone
    exact ⟨hReport, hDone⟩
  rcases hExists with ⟨wFirst, hFirst⟩
  rcases (hCalls wFirst hFirst).2.calls with ⟨calls, hAdded, _, _⟩
  refine ⟨⟨wFirst, hFirst⟩, calls, ?_, ?_⟩
  · rw [hAdded, hLog]
  · intro wEnd hEnds who player₀ hGet₀
    rcases hCalls wEnd hEnds with ⟨hReport, hLogged⟩
    rcases hLogged.calls with ⟨calls', hAdded', hIndex, hAll⟩
    obtain rfl := List.append_cancel_left (hAdded.symm.trans hAdded')
    rcases hReport.get_player hGet₀ with ⟨player, hGet⟩
    rcases hReport.appliedOnce hGet hIndex (hAll who) with ⟨applied, hApplied⟩
    exact ⟨player, applied, hApplied⟩

/- The checks of the runs before and after the reporting starts. -/
def beforeReporting (w : World T) (call : Env T × Op T) : Bool :=
  (w.dispatch call).toOption.all fun w' => w'.store.game.isSome && !w'.isReporting

def gameGoesOn (w : World T) (call : Env T × Op T) : Bool :=
  (w.dispatch call).toOption.all fun w' => w'.store.game.isSome

theorem beforeReporting_spec (hCheck : beforeReporting w call = true)
    (hDispatch : w.dispatch call = .ok w') :
    BeforeReporting w call w' := by
  unfold beforeReporting at hCheck
  rw [hDispatch] at hCheck
  simp only [Except.toOption, Option.all_some, Bool.and_eq_true, Bool.not_eq_true'] at hCheck
  exact ⟨Option.isSome_iff_ne_none.mp hCheck.1, hCheck.2⟩

theorem gameGoesOn_spec (hCheck : gameGoesOn w call = true) (hDispatch : w.dispatch call = .ok w') :
    GameGoesOn w call w' := by
  unfold gameGoesOn at hCheck
  rw [hDispatch] at hCheck
  exact Option.isSome_iff_ne_none.mp hCheck

theorem ok_of_any {test : World T → Bool} (hAny : (w.dispatch call).toOption.any test = true) :
    ∃ w', w.dispatch call = .ok w' ∧ test w' = true := by
  cases hDispatch : w.dispatch call with
  | error e =>
    rw [hDispatch] at hAny
    cases hAny
  | ok w' =>
    rw [hDispatch] at hAny
    exact ⟨w', rfl, hAny⟩

/- Calls at the given times. -/
def sampleCalls (calls : List (Nat × Op sampleConfig)) :
    List (Env sampleConfig × Op sampleConfig) :=
  calls.map fun call => (sampleEnv call.1, call.2)

/- Two players that report each other in both rounds. -/
def sampleReports : List (Nat × Op sampleConfig) :=
  [(101, .report (.account 1) [[.person], [.person]]),
    (102, .report (.account 3) [[.person], [.person]])]

/- A player that was reported on attended, once. -/
theorem attendance_applied_once_sample :
    ∃ (wEnd wDone : World sampleConfig) (player : Player)
      (applied : AttendanceCall sampleConfig.Who),
      wDone.store.game = none ∧ AppliedOnce 1 wDone.attendanceLog wEnd (.account 1) player applied
        ∧ applied.attendance = true := by
  have hExecute : (performAll (fun _ _ => true) (sampleGame.take 2)).any (fun wOpen =>
          decide (wOpen.attendanceLog = []
              ∧ ∃ game ∈ wOpen.store.game, game.state = .registration 0)
          && (execute dispatch beforeReporting wOpen (sampleCalls ((sampleGame.take 5).drop 2))).any
            fun wStart =>
              (wStart.dispatch (sampleEnv 91, .advanceShuffle 1 20)).toOption.any
              fun wBegin =>
                decide (∃ game' ∈ wBegin.store.game, game'.state = .reporting 2 ∧ game'.index = 1)
                && (wBegin.store.players.get (.account 1)).isSome
                && (execute dispatch gameGoesOn wBegin (sampleCalls
                      (sampleReports ++ sampleEnd.take 2))).any
                  fun wLast =>
                    (wLast.dispatch (sampleEnv 112, .processPlayers 1 9
                        [(0, 0), (0, 1), (1, 0), (1, 1)]
                        [.account 1, .account 3])).toOption.any
                    fun wDone =>
                      decide (wDone.store.game = none)
                      && wDone.attendanceLog.all AttendanceCall.attendance) = true := by
    decide +kernel
  rcases exists_run_of_execute (fun _ _ _ _ _ => trivial) hExecute with ⟨wOpen, hRun, hTest⟩
  rw [Bool.and_eq_true, decide_eq_true_eq] at hTest
  rcases hTest with ⟨⟨hEmpty, game, hOpen, hState⟩, hTest⟩
  rcases exists_run_of_execute (fun (w : World sampleConfig) _ w' hCheck hDispatch =>
        (beforeReporting_spec hCheck hDispatch : BeforeReporting w _ w')) hTest with
    ⟨wStart, hBefore, hTest⟩
  rcases ok_of_any hTest with ⟨wBegin, hEnter, hTest⟩
  rw [Bool.and_eq_true, Bool.and_eq_true, decide_eq_true_eq] at hTest
  rcases hTest with ⟨⟨⟨game', hGame', hState', hIndex⟩, hPlayer⟩, hTest⟩
  rcases exists_run_of_execute (fun (w : World sampleConfig) _ w' hCheck hDispatch =>
        (gameGoesOn_spec hCheck hDispatch : GameGoesOn w _ w')) hTest with
    ⟨wLast, hPlay, hTest⟩
  rcases ok_of_any hTest with ⟨wDone, hEnd, hTest⟩
  rw [Bool.and_eq_true, decide_eq_true_eq] at hTest
  rcases Option.isSome_iff_exists.mp hPlayer with ⟨player₀, hGet₀⟩
  rcases attendance_applied_once hRun hOpen hState hBefore hEnter hGame'
      hState' hPlay hEnd hTest.1 with
    ⟨⟨wEnd, hEnds⟩, calls, hLog, hApplied⟩
  rcases hApplied wEnd hEnds (.account 1) player₀ hGet₀ with ⟨player, applied, hOnce⟩
  rw [hEmpty, List.nil_append] at hLog
  rw [← hLog, hIndex] at hOnce
  have hIn : applied ∈ wDone.attendanceLog.filter fun call => decide (call.who = .account 1) := by
    rw [hOnce.once]
    exact List.mem_singleton_self applied
  exact ⟨wEnd, wDone, player, applied, hTest.1, hOnce, List.all_eq_true.mp hTest.2 applied
      (List.mem_filter.mp hIn).1⟩

end World

end Individuality.Game
