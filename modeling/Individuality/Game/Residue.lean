import Individuality.Game.Effects
import Individuality.Game.Sample
import Individuality.Game.Shuffled
import Individuality.Game.Table

/-
  Every call keeps what holds in the phases of a game, and the sessions of the game are balanced.  A
  game that is over, or was cancelled, leaves nothing behind.

  Main declaration: `ShufflePhase.indexSound`
-/

namespace Individuality.Game

open StorageMap (get_empty get_remove)

variable
  {T : Config}
  {seen : Seen T}
  {w w' : World T}
  {env : Env T}
  {game : GameInfo T.Who}
variable {b : Board T} {who : T.Who} {rounds : Nat} {last : Option T.Who}

theorem World.InPhase.of_same (hPhase : w.InPhase seen) (hSame : SameTable w w') :
    w'.InPhase seen := by
  unfold World.InPhase at hPhase ⊢
  rw [hSame.board, hSame.game]
  exact hPhase

/- The phase of the current game. -/
theorem World.InPhase.of_game (hPhase : w.InPhase seen) (hGame : w.store.game = some game) :
    SetupOk T game ∧ StatePhase seen game w.board game.state := by
  unfold World.InPhase at hPhase
  rw [hGame] at hPhase
  exact hPhase

theorem SetupOk.setState (hSetup : SetupOk T game) (state : GameState T.Who) :
    SetupOk T { game with state := state } :=
  ⟨hSetup.1, hSetup.2, hSetup.3, hSetup.4⟩

--
-- Starting a Game
--

variable {schedule : GameSchedule}

theorem checkSetup_spec (hCheck : World.checkSetup (T := T) schedule = .ok ()) :
    0 < schedule.rounds ∧ schedule.rounds ≤ T.maxRounds ∧ T.minGroupSize < schedule.maxGroupSize
      ∧ schedule.maxGroupSize ≤ T.maxGroupSize := by
  unfold World.checkSetup at hCheck
  simp only [Except.bind_eq_ok, ensure_eq_ok_iff, exists_const] at hCheck
  exact hCheck

theorem newGame_spec (hNew : w.newGame env schedule = .ok w') :
    w.store.game = none ∧ w'.board = w.board ∧ w'.sessions = w.sessions
      ∧ ∃ game, w'.store.game = some game ∧ SetupOk T game ∧ game.state = .registration 0
          ∧ game.pendingAttendance = 0 := by
  unfold World.newGame at hNew
  simp only [Except.bind_eq_ok, ensure_eq_ok_iff, exists_const, Except.pure_eq_ok] at hNew
  rcases hNew with ⟨hNone, _, _, _, _, hSetup, rfl⟩
  rcases checkSetup_spec hSetup with ⟨hPos, hRounds, hMin, hMax⟩
  exact ⟨hNone, rfl, rfl, _, rfl, ⟨hPos, hRounds, hMin, hMax⟩, rfl, rfl⟩

theorem startNextGame_inPhase (hPhase : w.InPhase seen) :
    (w.startNextGame env).InPhase seen := by
  unfold World.startNextGame
  cases w.store.gameSchedules.toList.head? with
  | none => exact hPhase
  | some schedule =>
    dsimp only
    cases hNew : w.newGame env schedule with
    | error e => exact hPhase.of_same ⟨rfl, rfl, rfl, rfl⟩
    | ok w' =>
      rcases newGame_spec hNew with ⟨hNone, hBoard, _, game, hGame, hSetup, hState, hPending⟩
      refine World.InPhase.of_same (w := w') ?_ ⟨rfl, rfl, rfl, rfl⟩
      unfold World.InPhase at hPhase ⊢
      rw [hNone] at hPhase
      rcases hPhase with ⟨hIdle, hIndices, hShuffle⟩
      rw [hGame, hBoard]
      refine ⟨hSetup, ?_⟩
      rw [hState]
      exact ⟨Board.AllQuiet.of_idle hIdle, hIndices, hShuffle, hPending⟩

--
-- Signing Up and Leaving
--

/- What a game in its registration has. -/
theorem registration_phase (hPhase : StatePhase seen game w.board game.state)
    (hRegistration : World.isRegistration game = true) :
    w.board.AllQuiet ∧ w.board.IndicesEmpty
      ∧ w.board.ShuffleEmpty ∧ game.pendingAttendance = 0 := by
  unfold World.isRegistration at hRegistration
  cases hState : game.state with
  | registration n =>
    rw [hState] at hPhase
    exact hPhase
  | _ =>
    rw [hState] at hRegistration
    cases hRegistration

theorem signUp_inPhase (hPhase : w.InPhase seen) (hTable : SignUpTable w w') :
    w'.InPhase seen := by
  rcases hTable.signUp with ⟨game, n, who, player, hGame, hRegistration, _, hQuiet, hGame', hBoard⟩
  rcases hPhase.of_game hGame with ⟨hSetup, hState⟩
  rcases registration_phase hState hRegistration with ⟨hAll, hIndices, hShuffle, hPending⟩
  unfold World.InPhase
  rw [hGame', hBoard]
  refine ⟨hSetup.setState _, ?_, ⟨hIndices.1, hIndices.2⟩, hShuffle, hPending⟩
  refine Board.AllPlayers.insert (b := w.board) rfl ?_ hQuiet
  exact fun who' player' _ hGet => hAll who' player' hGet

/- Fewer players keep what holds of all. -/
theorem Board.AllPlayers.remove {P : T.Who → Player → Prop} (hAll : b.AllPlayers P) (who : T.Who) :
    ({ b with players := b.players.remove who } : Board T).AllPlayers P := by
  intro who' player hGet
  dsimp only at hGet
  rw [get_remove] at hGet
  split_ifs at hGet
  exact hAll who' player hGet

theorem offboard_inPhase (hPhase : w.InPhase seen) (hOffboard : w.offboard env who = .ok w') :
    w'.InPhase seen := by
  rcases offboard_table hOffboard with ⟨hAllowed, hBoard, hGame', _⟩
  unfold World.InPhase at hPhase ⊢
  rw [hGame', hBoard]
  cases hGame : w.store.game with
  | none =>
    rw [hGame] at hPhase
    rcases hPhase with ⟨hIdle, hIndices, hShuffle⟩
    exact ⟨Board.AllPlayers.remove hIdle who, ⟨hIndices.1, hIndices.2⟩, hShuffle⟩
  | some game =>
    rw [hGame] at hPhase hAllowed
    rcases hPhase with ⟨hSetup, hState⟩
    rcases registration_phase hState hAllowed with ⟨hAll, hIndices, hShuffle, hPending⟩
    refine ⟨hSetup, ?_⟩
    cases hGameState : game.state with
    | registration n =>
      exact ⟨Board.AllPlayers.remove hAll who, ⟨hIndices.1, hIndices.2⟩, hShuffle, hPending⟩
    | _ =>
      rw [Option.all_some] at hAllowed
      unfold World.isRegistration at hAllowed
      rw [hGameState] at hAllowed
      cases hAllowed

--
-- Cancelling
--

theorem Board.IndicesEmpty.indexSound (hIndices : b.IndicesEmpty) (rounds : Nat) :
    IndexSound rounds b where
  of_index := by
    intro r j who hGet
    rw [hIndices.indexToPlayer] at hGet
    cases hGet
  registered := fun who hGet => absurd (hIndices.playerToIndex who) hGet

/- The players that have been drawn are registered. -/
theorem IndexSound.of_seated {lineup : Lineup T} {drawn : Nat → Nat}
    (hLined : Lined seen (fun _ => True) lineup b)
    (hSeated : Seated rounds u32Max lineup.row drawn b.indexToPlayer b.playerToIndex) :
    IndexSound rounds b where
  of_index := fun r j who hGet =>
    ⟨(hSeated.of_index r j who hGet).1, hSeated.player_of_index hGet⟩
  registered := by
    intro who hGet
    rcases hSeated.of_player who hGet with ⟨r, _, i, _, hRow⟩
    have hMem := Lineup.mem_row.mp (List.mem_of_getElem? hRow)
    exact ((hLined.mem_iff who).mp hMem).1

theorem ShufflePhase.indexSound {step : ShuffleStep T.Who}
    (hPhase : ShufflePhase seen game b step) :
    IndexSound game.rounds b := by
  cases step with
  | insert last => exact hPhase.1.indexSound game.rounds
  | retrieve next phase =>
    rcases hPhase with ⟨lineup, _, _, hLined, _, hDrawing, _⟩
    exact .of_seated hLined hDrawing.seated
  | computeWeights last playerCount recognizedCount =>
    rcases hPhase with ⟨lineup, hDrawn, _⟩
    exact .of_seated hDrawn.lined hDrawn.seated
  | awaitSession playerCount =>
    rcases hPhase with ⟨lineup, hDrawn, _⟩
    exact .of_seated hDrawn.lined hDrawn.seated

theorem shuffles_inPhase (hPhase : w.InPhase seen)
    (hSeen : ∀ who, w.Awaits who → seen who env.parentHash (w.reachedPersonhood who))
    (budget : Nat) :
    (w.shuffles env budget).InPhase seen := by
  unfold World.shuffles
  cases hGame : w.store.game with
  | none => exact hPhase
  | some game =>
    dsimp only
    cases hState : game.state with
    | shuffle step =>
      dsimp only
      split_ifs
      · rcases hPhase.of_game hGame with ⟨hSetup, hStatePhase⟩
        rw [hState] at hStatePhase
        exact ⟨hSetup.setState _, hStatePhase.1, hStatePhase.2.indexSound⟩
      · refine shuffleSteps_inPhase budget hPhase ?_ hSeen
        refine .of_none ?_
        intro r
        dsimp only
        rw [List.getElem?_replicate]
        split_ifs <;> rfl
    | _ => exact hPhase

theorem endRegistrationInner_inPhase (hPhase : w.InPhase seen) :
    w.endRegistrationInner.InPhase seen := by
  unfold World.endRegistrationInner
  cases hGame : w.store.game with
  | none => exact hPhase
  | some game =>
    dsimp only
    cases hState : game.state with
    | registration n =>
      rcases hPhase.of_game hGame with ⟨hSetup, hStatePhase⟩
      rw [hState] at hStatePhase
      rcases hStatePhase with ⟨hQuiet, hIndices, hShuffle, hPending⟩
      dsimp only
      split_ifs
      · refine ⟨hSetup.setState _, hQuiet, hIndices,
            ⟨fun _ => 0, [], []⟩, ⟨List.nodup_nil, ?_, ?_, ?_⟩,
            ?_, hPending⟩
        · intro who
          constructor
          · intro hMem
            cases hMem
          · exact fun hBoth => absurd hBoth.2 (not_visited_none who)
        · intro recognized who hMem
          cases recognized <;> cases hMem
        · intro recognized who hMem
          cases recognized <;> cases hMem
        · intro recognized
          refine Holds.of_empty (hShuffle recognized) ?_
          intro r
          cases recognized <;> rfl
      · exact ⟨hSetup.setState _, hQuiet, hIndices.indexSound game.rounds⟩
    | _ => exact hPhase

theorem cancelGame_inPhase (hPhase : w.InPhase seen) (hCancel : w.cancelGame = .ok w') :
    w'.InPhase seen := by
  unfold World.cancelGame at hCancel
  simp only [Except.bind_eq_ok, okOr_eq_ok_iff, ensure_eq_ok_iff,
    exists_const, Except.pure_eq_ok] at hCancel
  rcases hCancel with ⟨game, hGame, hAllowed, rfl⟩
  rcases hPhase.of_game hGame with ⟨hSetup, hState⟩
  refine ⟨hSetup.setState _, ?_⟩
  rcases hAllowed with hRegistration | hShuffle
  · rcases registration_phase hState hRegistration with ⟨hQuiet, hIndices, _, _⟩
    exact ⟨hQuiet, hIndices.indexSound game.rounds⟩
  · unfold World.isShuffle at hShuffle
    cases hGameState : game.state with
    | shuffle step =>
      rw [hGameState] at hState
      exact ⟨hState.1, hState.2.indexSound⟩
    | _ =>
      rw [hGameState] at hShuffle
      cases hShuffle

/- The indices of one player are removed with all they have. -/
theorem IndexSound.clear {b' : Board T} (hSound : IndexSound rounds b)
    (hPlayers : ∀ who', who' ≠ who → b'.players.get who' = b.players.get who')
    (hPlayer : ∀ who', b'.playerToIndex.get who'
        = if who' = who then none else b.playerToIndex.get who')
    (hIndex : ∀ k, b'.indexToPlayer.get k = if
          ∃ indices, b.playerToIndex.get who = some indices
              ∧ k.1 < rounds ∧ indices[k.1]? = some k.2
        then none
        else b.indexToPlayer.get k) :
    IndexSound rounds b' where
  of_index := by
    intro r j who' hGet
    rw [hIndex] at hGet
    split_ifs at hGet with hGone
    rcases hSound.of_index r j who' hGet with ⟨hRound, indices, hIndices, hJ⟩
    refine ⟨hRound, indices, ?_, hJ⟩
    rw [hPlayer, if_neg]
    · exact hIndices
    · rintro rfl
      exact hGone ⟨indices, hIndices, hRound, hJ⟩
  registered := by
    intro who' hGet
    rw [hPlayer] at hGet
    split_ifs at hGet with hSame
    · exact absurd rfl hGet
    · unfold Board.IsRegistered
      rw [hPlayers who' hSame]
      exact hSound.registered who' hGet

theorem mem_zip_range {indices : List Nat} {k : Nat × Nat} :
    k ∈ (List.range rounds).zip indices ↔ k.1 < rounds ∧ indices[k.1]? = some k.2 := by
  rw [List.mem_iff_getElem?]
  constructor
  · rintro ⟨i, hGet⟩
    rw [List.getElem?_zip_eq_some] at hGet
    rcases hGet with ⟨hRange, hIndex⟩
    rw [List.getElem?_eq_some_iff] at hRange
    rcases hRange with ⟨hLt, hEq⟩
    rw [List.getElem_range] at hEq
    rw [List.length_range] at hLt
    subst hEq
    exact ⟨hLt, hIndex⟩
  · rintro ⟨hLt, hIndex⟩
    refine ⟨k.1, ?_⟩
    rw [List.getElem?_zip_eq_some]
    exact ⟨List.getElem?_range hLt, hIndex⟩

/- What one step of draining the players does to the maps. -/
theorem clearIndices_table (who : T.Who) (rounds : Nat) :
    (w.clearIndices who rounds).board.players = w.board.players
      ∧ (w.clearIndices who rounds).board.shuffle = w.board.shuffle
      ∧ (w.clearIndices who rounds).sessions = w.sessions
      ∧ (∀ who', (w.clearIndices who rounds).board.playerToIndex.get who' = if who' = who then none
          else w.board.playerToIndex.get who')
      ∧ ∀ k, (w.clearIndices who rounds).board.indexToPlayer.get k = if
            ∃ indices, w.board.playerToIndex.get who = some indices
                ∧ k.1 < rounds ∧ indices[k.1]? = some k.2
          then none
          else w.board.indexToPlayer.get k := by
  unfold World.clearIndices
  cases hGet : w.store.playerToIndex.get who with
  | none =>
    refine ⟨rfl, rfl, rfl, ?_, ?_⟩
    · intro who'
      split_ifs with hSame
      · subst hSame
        exact hGet
      · rfl
    · intro k
      rw [if_neg]
      rintro ⟨indices, hSome, _⟩
      change w.store.playerToIndex.get who = some indices at hSome
      rw [hGet] at hSome
      cases hSome
  | some indices =>
    refine ⟨rfl, rfl, rfl, ?_, ?_⟩
    · exact fun who' => get_remove _ _ _
    · intro k
      change (World.clearSome w.store.indexToPlayer ((List.range rounds).zip indices)).get k = _
      unfold World.clearSome
      rw [StorageMap.get_foldl_remove]
      have hIff : k ∈ (List.range rounds).zip indices ↔ ∃ indices',
              w.board.playerToIndex.get who = some indices'
                ∧ k.1 < rounds ∧ indices'[k.1]? = some k.2 := by
        rw [mem_zip_range]
        constructor
        · exact fun hBoth => ⟨indices, hGet, hBoth⟩
        · rintro ⟨indices', hSome, hBoth⟩
          change w.store.playerToIndex.get who = some indices' at hSome
          rw [hGet] at hSome
          obtain rfl := Option.some.inj hSome
          exact hBoth
      by_cases hMem : k ∈ (List.range rounds).zip indices
      · rw [if_pos hMem, if_pos (hIff.mp hMem)]
      · rw [if_neg hMem, if_neg (fun hSome => hMem (hIff.mpr hSome))]
        rfl

theorem processCancellingStepPlayer_inPhase (hPhase : w.InPhase seen)
    (hGame : w.store.game = some game) (hState : game.state = .cancelling (.drainPlayers last)) :
    (w.processCancellingStepPlayer game last).1.InPhase seen := by
  rcases hPhase.of_game hGame with ⟨hSetup, hStatePhase⟩
  rw [hState] at hStatePhase
  rcases hStatePhase with ⟨hQuiet, hSound, hShuffle, hVisited⟩
  unfold World.processCancellingStepPlayer
  cases hNext : w.store.players.nextKey T.hashedKey last with
  | none =>
    -- everybody is reset, so nobody has an index
    have hAll := StorageMap.nextKey_eq_none_iff.mp hNext
    have hIdle : w.board.AllIdle := by
      intro who player hGet
      refine ⟨hQuiet who player hGet, ?_⟩
      refine hVisited who player hGet (hAll who ?_)
      change w.store.players.get who = some player at hGet
      rw [hGet]
      exact Option.some_ne_none _
    have hPlayers : ∀ who, w.board.playerToIndex.get who = none := by
      intro who
      by_contra hSome
      rcases hSound.registered who hSome with ⟨player, hGet, hRegistered⟩
      rw [(hIdle who player hGet).registered] at hRegistered
      cases hRegistered
    refine ⟨hIdle, ⟨?_, hPlayers⟩, hShuffle⟩
    intro k
    rw [Option.eq_none_iff_forall_ne_some]
    intro who hGet
    rcases hSound.of_index k.1 k.2 who hGet with ⟨_, indices, hIndices, _⟩
    rw [hPlayers] at hIndices
    cases hIndices
  | some who =>
    rcases StorageMap.get_of_nextKey hNext with ⟨player, hGet⟩
    dsimp only
    have hMutate : (w.mutatePlayer who fun player =>
            World.Player.reset player player.credibility)
          = w.setPlayer who (World.Player.reset player player.credibility) := by
      unfold World.mutatePlayer
      rw [hGet]
    rw [hMutate]
    have hIdle := World.Player.isIdle_reset player player.credibility
    rcases clearIndices_table (w := w.setPlayer who (World.Player.reset player player.credibility))
        who game.rounds with
      ⟨hPlayers, hShuffle', _, hPlayer, hIndex⟩
    generalize (w.setPlayer who (World.Player.reset player
            player.credibility)).clearIndices who game.rounds
        = cleared at hPlayers hShuffle' hPlayer hIndex
    unfold World.InPhase
    change Phase seen cleared.board (some _)
    refine ⟨hSetup.setState _, ?_, ?_, ?_, ?_⟩
    · refine Board.AllPlayers.insert (b := w.board) hPlayers ?_ hIdle.toIsQuiet
      exact fun who' player' _ hGet' => hQuiet who' player' hGet'
    · refine hSound.clear ?_ hPlayer hIndex
      intro who' hNe
      rw [hPlayers]
      exact StorageMap.get_insert_of_ne _ _ hNe
    · intro recognized k
      rw [hShuffle']
      exact hShuffle recognized k
    · refine Board.AllPlayers.insert (b := w.board) hPlayers ?_ fun _ => hIdle.registered
      intro who' player' hNe hGet' hNow
      have hSome : w.store.players.get who' ≠ none := by
        change w.store.players.get who' = some player' at hGet'
        rw [hGet']
        exact Option.some_ne_none _
      rcases (visited_nextKey hNext hSome).mp hNow with
        hOld | hEq
      · exact hVisited who' player' hGet' hOld
      · exact absurd hEq hNe

theorem processCancellingStepShuffle_inPhase (hPhase : w.InPhase seen)
    (hGame : w.store.game = some game) (hState : game.state = .cancelling .drainShuffle)
    (chunk : World.ShuffleChunk) :
    (w.processCancellingStepShuffle game chunk).InPhase seen := by
  rcases hPhase.of_game hGame with ⟨hSetup, hStatePhase⟩
  rw [hState] at hStatePhase
  rcases hStatePhase with ⟨hQuiet, hSound⟩
  have hSound' : ∀ b : Board T, b.players = w.board.players →
        b.indexToPlayer = w.board.indexToPlayer →
        b.playerToIndex = w.board.playerToIndex → IndexSound game.rounds b := by
    intro b hPlayers hIndex hPlayer
    refine ⟨?_, ?_⟩
    · rw [hIndex, hPlayer]
      exact hSound.of_index
    · unfold Board.IsRegistered
      rw [hPlayer, hPlayers]
      exact hSound.registered
  unfold World.processCancellingStepShuffle
  dsimp only
  split_ifs with hEmpty
  · rw [Bool.and_eq_true, StorageMap.isEmpty_iff, StorageMap.isEmpty_iff] at hEmpty
    refine ⟨hSetup.setState _, hQuiet, hSound' _ rfl rfl rfl, ?_, ?_⟩
    · intro recognized k
      cases recognized with
      | true => exact hEmpty.1 k
      | false => exact hEmpty.2 k
    · exact fun who _ _ hNot => absurd hNot (not_visited_none who)
  · unfold World.InPhase
    change Phase seen _ w.store.game
    rw [hGame]
    refine ⟨hSetup, ?_⟩
    rw [hState]
    exact ⟨hQuiet, hSound' _ rfl rfl rfl⟩

theorem processCancelling_inPhase (chunks : List World.ShuffleChunk) (hPhase : w.InPhase seen) :
    (w.processCancelling chunks).InPhase seen := by
  induction chunks generalizing w with
  | nil => exact hPhase
  | cons chunk chunks ih =>
    have hStep : (w.processCancellingStep chunk).1.InPhase seen := by
      unfold World.processCancellingStep
      cases hGame : w.store.game with
      | none => exact hPhase
      | some game =>
        dsimp only
        cases hState : game.state with
        | cancelling step =>
          cases step with
          | drainShuffle =>
            exact processCancellingStepShuffle_inPhase hPhase hGame hState chunk
          | drainPlayers last =>
            exact processCancellingStepPlayer_inPhase hPhase hGame hState
        | _ => exact hPhase
    unfold World.processCancelling
    dsimp only
    split_ifs
    · exact ih hStep
    · exact hStep

--
-- Reporting and Processing
--

/- Reports leave the lineup and the expected votes. -/
theorem report_inPhase {fullReport : List (List Report)} (hPhase : w.InPhase seen)
    (hReport : w.report env who fullReport = .ok w') :
    w'.InPhase seen := by
  rcases SameSeats.report hReport with ⟨hSeats, game, playerCount, hGame, hState⟩
  rcases hPhase.of_game hGame with ⟨hSetup, hStatePhase⟩
  rw [hState] at hStatePhase
  rcases hStatePhase with ⟨lineup, hDrawn, hWeighed⟩
  have hFrame := hSeats.game
  rw [hGame, Option.map_some, Option.map_eq_some_iff] at hFrame
  rcases hFrame with ⟨game', hGame', hFrame⟩
  rcases Prod.mk.inj hFrame with ⟨hState', hRest⟩
  rcases Prod.mk.inj hRest with ⟨hRounds, hLast⟩
  have hSize := (Prod.mk.inj hLast).1
  have hSeat : ∀ who player', w'.store.players.get who = some player' → ∃ player,
          w.store.players.get who = some player ∧ player'.registered = player.registered
            ∧ player'.voteWeight = player.voteWeight
            ∧ player'.expectedMaxVoteWeight = player.expectedMaxVoteWeight := by
    intro who player' hGet
    have hMap := hSeats.players who
    rw [hGet, Option.map_some] at hMap
    rcases Option.map_eq_some_iff.mp hMap.symm with ⟨player, hOld, hEq⟩
    rcases Prod.mk.inj hEq with ⟨hRegistered, hVotes⟩
    rcases Prod.mk.inj hVotes with ⟨hWeight, hExpected⟩
    exact ⟨player, hOld, hRegistered.symm, hWeight.symm, hExpected.symm⟩
  have hRegistered : ∀ who, w'.board.IsRegistered who ↔ w.board.IsRegistered who := by
    intro who
    constructor
    · rintro ⟨player', hGet, hIs⟩
      rcases hSeat who player' hGet with ⟨player, hOld, hEq, _⟩
      exact ⟨player, hOld, hEq ▸ hIs⟩
    · rintro ⟨player, hOld, hIs⟩
      have hMap := hSeats.players who
      change w.store.players.get who = some player at hOld
      rw [hOld, Option.map_some, Option.map_eq_some_iff] at hMap
      rcases hMap with ⟨player', hGet, hEq⟩
      exact ⟨player', hGet, (Prod.mk.inj hEq).1.trans hIs⟩
  unfold World.InPhase
  rw [hGame']
  refine ⟨⟨hRounds ▸ hSetup.1, hRounds ▸ hSetup.2, hSize ▸ hSetup.3, hSize ▸ hSetup.4⟩, ?_⟩
  rw [hState', hState]
  refine ⟨lineup, ⟨⟨?_, ?_, ?_, ?_⟩, ?_, ?_, ?_⟩, ?_⟩
  · exact hDrawn.lined.nodup
  · intro who'
    rw [hRegistered]
    exact hDrawn.lined.mem_iff who'
  · intro recognized who' hMem player' hGet
    rcases hSeat who' player' hGet with ⟨player, hOld, _, hEq, _⟩
    rw [hEq]
    exact hDrawn.lined.voteWeight recognized who' hMem player hOld
  · exact hDrawn.lined.seen
  · unfold Board.ShuffleEmpty
    rw [hSeats.shuffle]
    exact hDrawn.empty
  · rw [hRounds, hSeats.indexToPlayer, hSeats.playerToIndex]
    exact hDrawn.seated
  · exact hDrawn.playerCount_eq
  · intro who' indices player' hVisited hIndices hGet
    rw [hSeats.playerToIndex] at hIndices
    rcases hSeat who' player' hGet with ⟨player, hOld, _, _, hEq⟩
    rw [hEq, hRounds, hSize]
    exact hWeighed who' indices player hVisited hIndices hOld

theorem endReportingInner_inPhase (hPhase : w.InPhase seen) :
    (w.endReportingInner env).InPhase seen := by
  unfold World.endReportingInner
  cases hGame : w.store.game with
  | none => exact hPhase
  | some game =>
    dsimp only
    cases hState : game.state with
    | reporting playerCount =>
      dsimp only
      split_ifs
      · rcases hPhase.of_game hGame with ⟨hSetup, hStatePhase⟩
        rw [hState] at hStatePhase
        rcases hStatePhase with ⟨lineup, hDrawn, _⟩
        exact ⟨hSetup.setState _, hDrawn.empty, fun who _ _ hNot =>
            absurd hNot (not_visited_none who)⟩
      · exact hPhase
    | _ => exact hPhase

/- All players are processed. -/
theorem finishProcessing_inPhase {playerCount : Nat} (hPhase : w.InPhase seen)
    (hGame : w.store.game = some game)
    (hState : game.state = .playerProcess (.processPlayers last playerCount))
    (hNext : w.store.players.nextKey T.hashedKey last = none) :
    w.finishProcessing.InPhase seen := by
  rcases hPhase.of_game hGame with ⟨hSetup, hStatePhase⟩
  rw [hState] at hStatePhase
  rcases hStatePhase with ⟨hShuffle, hVisited⟩
  unfold World.finishProcessing
  dsimp only
  rw [hGame]
  refine ⟨hSetup.setState _, hShuffle, ?_⟩
  intro who player hGet
  refine hVisited who player hGet ?_
  refine StorageMap.nextKey_eq_none_iff.mp hNext who ?_
  change w.store.players.get who = some player at hGet
  rw [hGet]
  exact Option.some_ne_none _

/- One player is processed. -/
theorem processPlayer_inPhase {playerCount : Nat} {player : Player} (hPhase : w.InPhase seen)
    (hGame : w.store.game = some game)
    (hState : game.state = .playerProcess (.processPlayers last playerCount))
    (hNext : w.store.players.nextKey T.hashedKey last = some who) :
    ((w.processPlayerAttendanceOutcome env game who
        player).setLastProcessed who playerCount).InPhase seen := by
  rcases hPhase.of_game hGame with ⟨hSetup, hStatePhase⟩
  rw [hState] at hStatePhase
  rcases hStatePhase with ⟨hShuffle, hVisited⟩
  rcases processPlayerAttendanceOutcome_table env hGame who
      player with
    ⟨hProcessed, hFrame⟩
  generalize w.processPlayerAttendanceOutcome env game who player = v
    at hProcessed hFrame
  rcases Option.map_eq_some_iff.mp hFrame with ⟨game', hGame', hEq⟩
  rcases Prod.mk.inj hEq with ⟨_, hRest⟩
  rcases Prod.mk.inj hRest with ⟨hRounds, hLast⟩
  have hSize := (Prod.mk.inj hLast).1
  unfold World.setLastProcessed
  rw [hGame']
  refine ⟨⟨?_, ?_, ?_, ?_⟩, ?_, ?_⟩
  · exact hRounds ▸ hSetup.1
  · exact hRounds ▸ hSetup.2
  · exact hSize ▸ hSetup.3
  · exact hSize ▸ hSetup.4
  · intro recognized k
    change (v.board.shuffle recognized).get k = none
    rw [hProcessed.shuffle]
    exact hShuffle recognized k
  · intro who' player' hGet hNow
    change v.store.players.get who' = some player' at hGet
    by_cases hSame : who' = who
    · subst hSame
      exact hProcessed.idle player' hGet
    · rw [hProcessed.others who' hSame] at hGet
      have hSome : w.store.players.get who' ≠ none := by
        rw [hGet]
        exact Option.some_ne_none _
      rcases (visited_nextKey hNext hSome).mp hNow with hOld | hIs
      · exact hVisited who' player' hGet hOld
      · exact absurd hIs hSame

theorem playerProcessStep1_inPhase (budget creditCapacity : Nat) (hPhase : w.InPhase seen) :
    (World.playerProcessStep1 env budget creditCapacity w).InPhase
      seen := by
  induction budget generalizing w creditCapacity with
  | zero =>
    unfold World.playerProcessStep1
    split
    · exact hPhase
    · rename_i game hGame
      split
      · rename_i last playerCount hState
        split
        · rename_i hNext
          exact finishProcessing_inPhase hPhase hGame hState hNext
        · split <;> first | exact hPhase | contradiction
      · exact hPhase
  | succ budget ih =>
    unfold World.playerProcessStep1
    split
    · exact hPhase
    · rename_i game hGame
      split
      · rename_i last playerCount hState
        split
        · rename_i hNext
          exact finishProcessing_inPhase hPhase hGame hState hNext
        · rename_i who hNext
          split
          · rename_i hBudget
            split
            · exact hPhase
            · obtain rfl := Nat.succ.inj hBudget
              exact ih _ (processPlayer_inPhase hPhase hGame hState hNext)
          · exact hPhase
      · exact hPhase

theorem playerProcessStep2_inPhase (hPhase : w.InPhase seen) (hGame : w.store.game = some game)
    (hState : game.state = .playerProcess .clearIndices) (indices : List (Nat × Nat))
    (players : List T.Who) :
    (w.playerProcessStep2 env indices players).InPhase seen := by
  rcases hPhase.of_game hGame with ⟨hSetup, hStatePhase⟩
  rw [hState] at hStatePhase
  rcases hStatePhase with ⟨hShuffle, hIdle⟩
  unfold World.playerProcessStep2
  dsimp only
  split_ifs with hDone
  · rw [Bool.and_eq_true, Bool.and_eq_true, StorageMap.isEmpty_iff, StorageMap.isEmpty_iff] at hDone
    exact ⟨hIdle, ⟨hDone.1.1, hDone.1.2⟩, hShuffle⟩
  · unfold World.InPhase
    change Phase seen _ w.store.game
    rw [hGame]
    refine ⟨hSetup, ?_⟩
    rw [hState]
    exact ⟨hShuffle, hIdle⟩

theorem processPlayers_inPhase (hPhase : w.InPhase seen) (budget : Nat) (indices : List (Nat × Nat))
    (players : List T.Who) :
    (w.processPlayers env budget indices players).InPhase seen := by
  unfold World.processPlayers
  split
  · exact hPhase
  · rename_i game hGame
    split
    · exact playerProcessStep1_inPhase budget _ hPhase
    · rename_i hState
      exact playerProcessStep2_inPhase hPhase hGame hState indices players
    · exact hPhase

--
-- Calls
--

/- Every call keeps the phase. -/
theorem World.InPhase.dispatch {op : Op T} (hPhase : w.InPhase seen)
    (hSeen : ∀ gameIndex budget, op = .advanceShuffle gameIndex budget → ∀ who, w.Awaits who →
        seen who env.parentHash (w.reachedPersonhood who))
    (hDispatch : w.dispatch (env, op) = .ok w') :
    w'.InPhase seen := by
  cases gameEffect_of_dispatch hDispatch with
  | scheduled => exact hPhase.of_same ⟨rfl, rfl, rfl, rfl⟩
  | started => exact startNextGame_inPhase hPhase
  | signedUp _ _ w₁ _ hSignUp =>
    have hSigned := signUp_inPhase hPhase (signUpInner_table hSignUp)
    exact hSigned.of_same ⟨rfl, rfl, rfl, rfl⟩
  | endedRegistration => exact endRegistrationInner_inPhase hPhase
  | shuffled gameIndex budget =>
    exact shuffles_inPhase hPhase (hSeen gameIndex budget rfl) budget
  | reported _ _ _ hReport => exact report_inPhase hPhase hReport
  | endedReporting => exact endReportingInner_inPhase hPhase
  | processed _ budget indices players =>
    exact processPlayers_inPhase hPhase budget indices players
  | cancelled => exact cancelGame_inPhase hPhase hDispatch
  | drained _ chunks => exact processCancelling_inPhase chunks hPhase
  | offboarded _ _ hOffboard => exact offboard_inPhase hPhase hOffboard
  | kickedOut _ _ hKickout => exact hPhase.of_same (kickout_table hKickout)
  | scored _ _ _ hScore => exact hPhase.of_same (SameTable.fromScore hScore)
  | otherStarted | otherClosed => exact hPhase

theorem World.InPhase.genesis :
    (World.genesis : World T).InPhase seen := by
  refine ⟨?_, ⟨?_, ?_⟩, ?_⟩
  · intro who player hGet
    change (StorageMap.empty : StorageMap T.Who Player).get who = some player at hGet
    rw [get_empty] at hGet
    cases hGet
  · exact fun k => get_empty k
  · exact fun who => get_empty who
  · intro recognized k
    cases recognized <;> exact get_empty k

end Individuality.Game
