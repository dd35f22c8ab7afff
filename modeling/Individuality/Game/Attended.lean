import Individuality.Game.Tally

/-
  The calls that set attendances while a game is reported on:
  those of the early enactments, which are decided.

  Main declaration: `attendancesOf`
-/

namespace Individuality.Game

variable
  {T : Config}
  {w w' : World T}
  {env : Env T}
  {game : GameInfo T.Who}

--
-- Calls
--

/- The attendances that were set for an identity. -/
def attendancesOf (calls : List (AttendanceCall T.Who)) (who : T.Who) : List Bool :=
  (calls.filter fun call => decide (call.who = who)).map AttendanceCall.attendance

theorem attendancesOf_append (calls : List (AttendanceCall T.Who)) (call : AttendanceCall T.Who)
    (who : T.Who) :
    attendancesOf (calls ++ [call]) who = attendancesOf calls who
        ++ if call.who = who then [call.attendance] else [] := by
  unfold attendancesOf
  rw [List.filter_append, List.map_append]
  by_cases hWho : call.who = who
  · simp [hWho]
  · simp [hWho]

/- The attendance that was enacted early for a player. -/
def enactedOf (players : StorageMap T.Who Player) (who : T.Who) : List Bool :=
  match players.get who with
  | none => []
  | some player =>
    (player.earlyAttendanceEnactment.map EarlyAttendanceEnactment.attendance).toList

/- The calls of a game follow a log.  They are about that game, and set the given attendances. -/
structure Logged (log : List (AttendanceCall T.Who))
    (gameIndex : Nat) (attendances : T.Who → List Bool) (w : World T) : Prop where
  calls : ∃ calls,
      w.attendanceLog = log ++ calls
        ∧ (∀ call ∈ calls, call.gameIndex = gameIndex)
        ∧ ∀ who, attendancesOf calls who = attendances who

variable
  {log : List (AttendanceCall T.Who)}
  {gameIndex : Nat}
  {attendances attendances' : T.Who → List Bool}

theorem Logged.congr (hLogged : Logged log gameIndex attendances w)
    (hLog : w'.attendanceLog = w.attendanceLog)
    (hSame : ∀ who, attendances' who = attendances who) :
    Logged log gameIndex attendances' w' := by
  rcases hLogged.calls with ⟨calls, hCalls, hIndex, hAll⟩
  refine ⟨calls, hLog.trans hCalls, hIndex, ?_⟩
  intro who
  rw [hSame]
  exact hAll who

/- One more attendance is set. -/
theorem Logged.append {call : AttendanceCall T.Who} (hLogged : Logged log gameIndex attendances w)
    (hLog : w'.attendanceLog = w.attendanceLog ++ [call]) (hIndex : call.gameIndex = gameIndex)
    (hSame : ∀ who, attendances' who = attendances who
        ++ if call.who = who then [call.attendance] else []) :
    Logged log gameIndex attendances' w' := by
  rcases hLogged.calls with ⟨calls, hCalls, hOld, hAll⟩
  refine ⟨calls ++ [call], ?_, ?_, ?_⟩
  · rw [hLog, hCalls, List.append_assoc]
  · intro call' hMem
    rcases List.mem_append.mp hMem with hIn | hNew
    · exact hOld call' hIn
    · rw [List.mem_singleton.mp hNew]
      exact hIndex
  · intro who
    rw [attendancesOf_append, hAll, hSame]

/- What setting an attendance writes. -/
theorem applyAttendance_spec
    (env : Env T) (w : World T) (who : T.Who) (attendance registered : Bool)
    (game : GameInfo T.Who) :
    ∃ call : AttendanceCall T.Who, (w.applyAttendance env who attendance registered
          game).1.attendanceLog = w.attendanceLog ++ [call]
        ∧ call.who = who
        ∧ call.attendance = attendance
        ∧ call.gameIndex = game.index
        ∧ (w.applyAttendance env who attendance registered game).2.attendance = attendance
        ∧ (w.applyAttendance env who attendance registered game).1.board = w.board := by
  refine
    ⟨{ who := who
       attendance := attendance
       gameIndex := game.index
       isOk := (Score.World.setAttendance (w.chain env) w.score who
          attendance game.index).toOption.isSome },
      ?_, rfl, rfl, rfl, rfl, ?_⟩
  · unfold World.applyAttendance
    dsimp only
    split_ifs <;> rfl
  · unfold World.applyAttendance
    dsimp only
    split_ifs <;> rfl

--
-- Reports
--

/-
  While a game is reported on, the players are fair, and the
  calls are those of the early enactments.
-/
structure Reported (log : List (AttendanceCall T.Who))
    (gameIndex rounds : Nat) (setting : GroupsSetting) (w : World T) : Prop where
  fair : AllFair (w.outOf setting rounds) w.store.players
  logged : Logged log gameIndex (enactedOf w.store.players) w

variable {rounds : Nat} {setting : GroupsSetting}

theorem SameVoting.of_board (hBoard : w'.board = w.board) :
    SameVoting w w' where
  indexToPlayer := congrArg Board.indexToPlayer hBoard
  playerToIndex := congrArg Board.playerToIndex hBoard
  voting := by
    intro who
    have hPlayers := congrArg Board.players hBoard
    change w'.store.players = w.store.players at hPlayers
    rw [hPlayers]

/- Neither the board nor the game nor the calls change. -/
structure SameTally (w w' : World T) : Prop where
  board : w'.board = w.board
  game : w'.store.game = w.store.game
  attendanceLog : w'.attendanceLog = w.attendanceLog

theorem SameTally.of_table (hSame : SameTable w w') :
    SameTally w w' :=
  ⟨hSame.board, hSame.game, hSame.attendanceLog⟩

theorem Reported.of_same (hOld : Reported log gameIndex rounds setting w) (hSame : SameTally w w') :
    Reported log gameIndex rounds setting w' := by
  have hPlayers := congrArg Board.players hSame.board
  change w'.store.players = w.store.players at hPlayers
  have hVoting := SameVoting.of_board hSame.board
  refine ⟨?_, ?_⟩
  · rw [hPlayers]
    exact hOld.fair.mono fun who => (hVoting.outOf _ _ who).le
  · rw [hPlayers]
    exact hOld.logged.congr hSame.attendanceLog fun _ => rfl

/- An attendance that is decided may be enacted. -/
theorem Reported.enactAttendance {who : T.Who} {player : Player} {attendance : Bool}
    (hOld : Reported log game.index rounds setting w) (hGet : w.store.players.get who = some player)
    (hNone : player.earlyAttendanceEnactment = none)
    (hDecided : Decided (w.outOf setting rounds who) player attendance) :
    Reported log game.index rounds setting (w.enactAttendance env who player game attendance) := by
  unfold World.enactAttendance
  split
  · rcases applyAttendance_spec env w who attendance player.registered
        game with
      ⟨call, hLog, hWho, hAttendance, hIndex, hResult, hBoard⟩
    generalize w.applyAttendance env who attendance player.registered game
        = applied at hLog hResult hBoard
    have hPlayers := congrArg Board.players hBoard
    change applied.1.store.players = w.store.players at hPlayers
    have hMutate : (applied.1.mutatePlayer who fun player =>
            { player with
              earlyAttendanceEnactment := some applied.2 })
          = applied.1.setPlayer who
              { player with
                earlyAttendanceEnactment := some applied.2 } := by
      unfold World.mutatePlayer
      rw [hPlayers, hGet]
    rw [hMutate]
    have hGet' : applied.1.store.players.get who = some player := by
      rw [hPlayers]
      exact hGet
    have hVoting : SameVoting w (applied.1.setPlayer who
            { player with
              earlyAttendanceEnactment := some applied.2 }) :=
      (SameVoting.of_board hBoard).trans (SameVoting.setPlayer hGet' rfl)
    refine ⟨?_, ?_⟩
    · change AllFair _ (applied.1.store.players.insert who
          { player with
            earlyAttendanceEnactment := some applied.2 })
      rw [hPlayers]
      refine AllFair.insert hOld.fair (fun who' _ => (hVoting.outOf _ _ who').le) ?_
      rw [hVoting.outOf]
      refine (hOld.fair who player hGet).enact ?_
      rw [hResult]
      exact hDecided
    · refine Logged.append hOld.logged hLog hIndex ?_
      intro who'
      unfold enactedOf
      change (match
          (applied.1.store.players.insert who
            { player with
              earlyAttendanceEnactment := some applied.2 }).get
                who' with
          | none => []
          | some player => _) = _
      rw [hPlayers, StorageMap.get_insert]
      by_cases hSame : who' = who
      · subst hSame
        rw [if_pos rfl, hGet, if_pos hWho]
        simp [hNone, hResult, hAttendance]
      · rw [if_neg hSame, if_neg (fun hEq =>
          hSame (hEq.symm.trans hWho)), List.append_nil]
  · exact hOld

theorem Reported.tryEarlyAttendanceEnactment
    (hGame : w.store.game.map GameInfo.index = some gameIndex)
    (hOld : Reported log gameIndex rounds setting w) (who : T.Who) :
    Reported log gameIndex rounds setting (w.tryEarlyAttendanceEnactment env who) := by
  rcases Option.map_eq_some_iff.mp hGame with ⟨game, hSome, rfl⟩
  unfold World.tryEarlyAttendanceEnactment
  rw [hSome]
  cases hGet : w.store.players.get who with
  | none => exact hOld
  | some player =>
    dsimp only
    split_ifs with hEarly
    · exact hOld
    · have hNone : player.earlyAttendanceEnactment = none := by
        rw [Bool.not_eq_true, Option.isSome_eq_false_iff, Option.isNone_iff_eq_none] at hEarly
        exact hEarly
      have hFair := hOld.fair who player hGet
      cases hStatus : determineAttendance player with
      | attended =>
        exact hOld.enactAttendance hGet hNone (hFair.decided_attended hStatus)
      | notAttended =>
        exact hOld.enactAttendance hGet hNone (hFair.decided_notAttended hStatus)
      | pending => exact hOld

theorem Reported.enactAll (whos : List T.Who)
    (hGame : w.store.game.map GameInfo.index = some gameIndex)
    (hOld : Reported log gameIndex rounds setting w) :
    Reported log gameIndex rounds setting
      (whos.foldl (World.tryEarlyAttendanceEnactment env) w) := by
  induction whos generalizing w with
  | nil => exact hOld
  | cons who whos ih =>
    have hSeats : SameSeats w (w.tryEarlyAttendanceEnactment env who) :=
      SameSeats.tryEarlyAttendanceEnactment w who
    have hFrame := hSeats.game
    refine ih ?_ (hOld.tryEarlyAttendanceEnactment hGame who)
    have hIndex := congrArg (Option.map fun frame : GameState T.Who × Nat × Nat × Nat =>
        frame.2.2.2) hFrame
    rw [Option.map_map, Option.map_map] at hIndex
    exact hIndex.trans hGame

variable {fullReport : List (List Report)}

/- The rounds of a report set no attendance. -/
theorem reportRounds_log {weight : Nat} {reporterIndices : List Nat}
    {acc acc' : World T × List T.Who} {rows : List Nat}
    (hReport : rows.foldlM (World.reportRound weight setting reporterIndices
        fullReport) acc = .ok acc') :
    acc'.1.attendanceLog = acc.1.attendanceLog ∧ acc'.1.store.game = acc.1.store.game
      ∧ ∀ who, enactedOf acc'.1.store.players who = enactedOf acc.1.store.players who := by
  have hMember : ∀ (round : Nat) (entry : Nat × Report) (acc₁ acc₂ : World T × List T.Who),
        World.reportMember weight round acc₁ entry = .ok acc₂ →
          acc₂.1.attendanceLog = acc₁.1.attendanceLog ∧ acc₂.1.store.game = acc₁.1.store.game
            ∧ ∀ who, enactedOf acc₂.1.store.players who = enactedOf acc₁.1.store.players who := by
    intro round entry acc₁ acc₂ hStep
    unfold World.reportMember at hStep
    simp only [Except.bind_eq_ok, okOr_eq_ok_iff, Except.pure_eq_ok] at hStep
    rcases hStep with ⟨reported, _, player, hGet, rfl⟩
    refine ⟨rfl, rfl, ?_⟩
    intro who
    unfold enactedOf
    change (match
        (acc₁.1.store.players.insert reported _).get who with
        | none => []
        | some player => _) = _
    rw [StorageMap.get_insert]
    split_ifs with hSame
    · subst hSame
      rw [hGet]
      cases entry.2 <;> rfl
    · rfl
  refine List.foldlM_invariant (fun acc₁ : World T × List T.Who =>
        acc₁.1.attendanceLog = acc.1.attendanceLog ∧ acc₁.1.store.game = acc.1.store.game ∧ ∀ who,
            enactedOf acc₁.1.store.players who = enactedOf acc.1.store.players who)
      hReport ?_ ⟨rfl, rfl, fun _ => rfl⟩
  intro acc₁ round acc₂ _ hRound hOld
  unfold World.reportRound at hRound
  simp only [Except.bind_eq_ok, okOr_eq_ok_iff, ensure_eq_ok_iff, exists_const] at hRound
  rcases hRound with ⟨_, _, _, _, _, _, hFold⟩
  refine List.foldlM_invariant (fun acc₃ : World T × List T.Who =>
        acc₃.1.attendanceLog = acc.1.attendanceLog ∧ acc₃.1.store.game = acc.1.store.game ∧ ∀ who,
            enactedOf acc₃.1.store.players who = enactedOf acc.1.store.players who)
      hFold ?_ hOld
  intro acc₃ entry acc₄ _ hStep hSame
  rcases hMember round entry acc₃ acc₄ hStep with ⟨hLog, hGame, hEnacted⟩
  exact ⟨hLog.trans hSame.1, hGame.trans hSame.2.1, fun who => (hEnacted who).trans (hSame.2.2 who)⟩

/- A report keeps the players fair. -/
theorem Reported.report {seen : Seen T} {lineup : Lineup T} {playerCount : Nat} {who : T.Who}
    (hSetup : SetupOk T game) (hGame : w.store.game = some game)
    (hState : game.state = .reporting playerCount)
    (hDrawn : Drawn seen lineup game.rounds playerCount w.board)
    (hOld : Reported log game.index game.rounds (settingOf game playerCount) w)
    (hReport : w.report env who fullReport = .ok w') :
    Reported log game.index game.rounds (settingOf game playerCount) w' := by
  unfold World.report at hReport
  rw [hGame] at hReport
  simp only [Except.bind_eq_ok, okOr_eq_ok_iff,
    ensure_eq_ok_iff, exists_const, Option.some.injEq] at hReport
  rcases hReport with ⟨game', rfl, _, hRest⟩
  rw [hState] at hRest
  simp only [Except.bind_eq_ok, okOr_eq_ok_iff,
    ensure_eq_ok_iff, exists_const, Except.pure_eq_ok] at hRest
  rcases hRest with ⟨_, _, player, hGet, hSent, indices, hIndices, reported, hFold, rfl⟩
  rw [Bool.not_eq_true] at hSent
  have hMarked := AllFair.sent hSetup hDrawn hOld.fair hGet hSent hIndices
  have hDrawn' : Drawn seen lineup game.rounds playerCount
        (w.setPlayer who { player with sentReport := true }).board :=
    { lined := hDrawn.lined.mutate hGet rfl rfl rfl
      empty := hDrawn.empty
      seated := hDrawn.seated
      playerCount_eq := hDrawn.playerCount_eq }
  rcases AllFair.reportRounds hDrawn' hSetup hFold (SameVoting.refl _) hMarked with ⟨hVoting, hFair⟩
  rcases reportRounds_log hFold with ⟨hLog, hSame, hEnacted⟩
  refine Reported.enactAll _ ?_ ⟨?_, ?_⟩
  · rw [hSame]
    change w.store.game.map GameInfo.index = some game.index
    rw [hGame, Option.map_some]
  · exact hFair.mono fun who' => (hVoting.outOf _ _ who').le
  · refine hOld.logged.congr hLog ?_
    intro who'
    rw [hEnacted]
    unfold enactedOf
    change (match
        (w.store.players.insert who { player with sentReport := true }).get who' with
        | none => []
        | some player => _) = _
    rw [StorageMap.get_insert]
    split_ifs with hIs
    · subst hIs
      rw [hGet]
    · rfl

/- A game enters its reporting with all votes out, which are the expected ones. -/
theorem Reported.of_entry {seen : Seen T} {lineup : Lineup T} {playerCount : Nat}
    (hSetup : SetupOk T game) (hQuiet : w.board.AllQuiet)
    (hDrawn : Drawn seen lineup game.rounds playerCount w.board)
    (hWeighed : Weighed lineup game playerCount (fun _ => True) w.board) :
    Reported w.attendanceLog gameIndex game.rounds (settingOf game playerCount) w := by
  have hCount : playerCount ≤ u32Max := by
    rw [hDrawn.playerCount_eq]
    exact Nat.min_le_right _ _
  have hUnsent : ∀ round index, index < playerCount → w.unsentWeight round index
          ≤ World.voteWeightOf T (decide (index < min lineup.people.length u32Max)) := by
    intro round index hIndex
    unfold World.unsentWeight
    cases hGet : w.store.indexToPlayer.get (round, index) with
    | none => exact Nat.zero_le _
    | some who =>
      rw [Option.bind_some]
      cases hPlayer : w.store.players.get who with
      | none => exact Nat.zero_le _
      | some player =>
        have hRow := hDrawn.row_of_index hIndex hGet
        have hWeight := hDrawn.lined.voteWeight_row hRow hPlayer
        have hSame : decide (index < min lineup.people.length u32Max)
              = decide (index < lineup.people.length) := by
          rw [decide_eq_decide]
          omega
        rw [Option.elim_some, hWeight, hSame]
        split_ifs
        · exact Nat.zero_le _
        · exact Nat.le_refl _
  refine ⟨?_, ⟨[], ?_, ?_, ?_⟩⟩
  · intro who player hGet
    have hPlayer := hQuiet who player hGet
    have hOut : w.outOf (settingOf game playerCount) game.rounds who ≤ u8Max
          ∧ w.outOf (settingOf game playerCount) game.rounds who
            ≤ player.expectedMaxVoteWeight := by
      unfold World.outOf
      cases hIndices : w.store.playerToIndex.get who with
      | none => exact ⟨Nat.zero_le _, Nat.zero_le _⟩
      | some indices =>
        dsimp only
        have hExpected := hWeighed who indices player trivial hIndices hGet
        rw [totalWeight_eq_sum (hDrawn.seated.length_eq who indices hIndices)]
          at hExpected
        have hGuarded : ((List.range game.rounds).map fun round =>
                w.roundOut (settingOf game playerCount) round (indices.getD round 0)).sum
              ≤ ((List.range game.rounds).map fun round =>
                  if indices.getD round 0 < playerCount then
                    ((GroupsSetting.otherMembers
                        { fullGroupSize := game.maxGroupSize
                          playerCount := playerCount }
                        (indices.getD round 0)).map fun index =>
                      World.voteWeightOf T (decide (index < min lineup.people.length u32Max))).sum
                  else
                    0).sum := by
          refine sum_map_le_sum_map _ ?_
          intro round _
          unfold World.roundOut
          change (if indices.getD round 0 < playerCount then _ else _) ≤ _
          split_ifs
          · refine sum_map_le_sum_map _ ?_
            intro index hMem
            exact hUnsent round index (GroupsSetting.lt_of_mem_otherMembers hMem)
          · exact Nat.le_refl _
        have hByte := hGuarded.trans
            (groupSum_le (fun round => indices.getD round 0) hSetup hCount (by
                intro round index
                unfold World.voteWeightOf
                split_ifs
                · exact Or.inl (Nat.le_refl _)
                · exact Or.inr (Nat.le_refl _)))
        refine ⟨hByte, ?_⟩
        rw [hExpected]
        refine Nat.le_min.mpr ⟨hGuarded.trans ?_, ?_⟩
        · refine sum_map_le_sum_map _ ?_
          intro round _
          split_ifs
          · exact Nat.le_refl _
          · exact Nat.zero_le _
        · have hSmall : u8Max ≤ World.maxU16 := by decide
          exact hByte.trans hSmall
    refine ⟨?_, ?_, ?_⟩
    · rw [hPlayer.yesPerson, hPlayer.noNotPerson]
      have hLe := hOut.1
      omega
    · rw [hPlayer.yesPerson, hPlayer.noNotPerson]
      have hLe := hOut.2
      omega
    · intro enactment hEarly
      rw [hPlayer.early] at hEarly
      cases hEarly
  · exact (List.append_nil _).symm
  · intro call hMem
    cases hMem
  · intro who
    unfold enactedOf
    cases hGet : w.store.players.get who with
    | none => rfl
    | some player =>
      dsimp only
      rw [(hQuiet who player hGet).early]
      rfl

end Individuality.Game
