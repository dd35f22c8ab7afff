import Individuality.Base.Traces
import Individuality.Game.Cleanup
import Individuality.Game.Groups

/-
  When a game enters its reporting, the index maps are bijections in every round, with the people
  first and each population in the order of its positions.

  Main declaration: `World.shuffle_bijection`
-/

namespace Individuality.Game

variable {T : Config} {who : T.Who} {lineup : Lineup T} {round : Nat} {step : ShuffleStep T.Who}

--
-- Insertions of a Run
--

/-
  The call of the run that inserted a player last had the given parent hash, and found the player
  recognized or not: the shuffle awaited the player before that call and has not since.
-/
def World.SeenInRun (steps : List (TraceStep (World T) (Env T × Op T))) : Seen T :=
  fun who hash recognized =>
    Since (fun x => (∃ gameIndex budget, x.op.2 = .advanceShuffle gameIndex budget)
        ∧ x.pre.Awaits who ∧ ¬x.post.Awaits who
        ∧ x.op.1.parentHash = hash
        ∧ x.pre.reachedPersonhood who = recognized)
      (fun x => x.post.Awaits who) steps

/- What is known of the insertions after one more step. -/
def World.SeenNext (steps : List (TraceStep (World T) (Env T × Op T))) (w : World T)
    (call : Env T × Op T) : Seen T :=
  fun who hash recognized =>
    World.SeenInRun steps who hash recognized
      ∨ (∃ gameIndex budget, call.2 = .advanceShuffle gameIndex budget)
        ∧ w.Awaits who ∧ call.1.parentHash = hash
        ∧ w.reachedPersonhood who = recognized

variable {call : Env T × Op T}

theorem World.SeenNext.snoc {steps : List (TraceStep (World T) (Env T × Op T))}
    {w w' : World T} {hash : Nat} {recognized : Bool}
    (hSeen : World.SeenNext steps w call who hash recognized) (hNot : ¬w'.Awaits who) :
    World.SeenInRun (steps ++ [⟨w, call, w'⟩]) who hash recognized := by
  rcases hSeen with hOld | ⟨hCall, hAwaits, hHash, hRecognized⟩
  · exact Since.snoc hOld hNot
  · exact Since.last ⟨hCall, hAwaits, hNot, hHash, hRecognized⟩

/- The phase of a state that is reached, with its insertions. -/
theorem World.inPhase_seenInRun {steps : List (TraceStep (World T) (Env T × Op T))} {w : World T}
    (hTrace : Trace World.dispatch (fun _ _ _ => True) .genesis steps w) :
    w.InPhase (World.SeenInRun steps) := by
  induction hTrace with
  | nil => exact World.InPhase.genesis
  | @snoc steps v w call _ _ hDispatch ih =>
    have hNext : w.InPhase (World.SeenNext steps v call) := by
      refine (ih.mono fun _ _ _ _ hSeen => Or.inl hSeen).dispatch ?_ hDispatch
      intro gameIndex budget hOp who hAwaits
      exact Or.inr ⟨⟨gameIndex, budget, hOp⟩, hAwaits, rfl, rfl⟩
    exact hNext.mono fun _ _ _ hNot hSeen => hSeen.snoc hNot

--
-- Shuffled Games
--

def World.registeredPlayers (w : World T) : List T.Who :=
  w.store.players.keys.filter fun who =>
    (w.store.players.get who).any Player.registered

theorem World.mem_registeredPlayers {w : World T} {who : T.Who} :
    who ∈ w.registeredPlayers ↔ w.board.IsRegistered who := by
  unfold registeredPlayers
  rw [List.mem_filter, StorageMap.mem_keys_iff, Option.any_eq_true]
  constructor
  · exact fun hBoth => hBoth.2
  · rintro ⟨player, hGet, hRegistered⟩
    change w.store.players.get who = some player at hGet
    refine ⟨?_, player, hGet, hRegistered⟩
    rw [hGet]
    exact Option.some_ne_none _

theorem World.registeredPlayers_nodup (w : World T) :
    w.registeredPlayers.Nodup :=
  (AList.keys_nodup w.store.players).filter _

/-
  A game is shuffled by a lineup: the registered players have
  been inserted, and both index maps are the rows.
-/
structure Shuffled (seen : Seen T) (lineup : Lineup T) (game : GameInfo T.Who) (playerCount : Nat)
    (w : World T) : Prop where
  seen : ∀ recognized, ∀ who ∈ lineup.part recognized,
      seen who (lineup.hash who) recognized
  registered : lineup.inserted.Perm w.registeredPlayers
  playerCount_eq : playerCount = w.registeredPlayers.length
  pending_eq : game.pendingAttendance = playerCount
  index_eq : ∀ round, round < game.rounds → ∀ index,
      w.store.indexToPlayer.get (round, index) = (lineup.row round)[index]?
  index_lt : ∀ round, round < game.rounds → ∀ index,
      (∃ who, w.store.indexToPlayer.get (round, index) = some who)
        ↔ index < playerCount
  index_registered : ∀ round, round < game.rounds → ∀ index who,
      w.store.indexToPlayer.get (round, index) = some who →
        who ∈ w.registeredPlayers
  index_unique : ∀ round, round < game.rounds → ∀ who ∈ w.registeredPlayers,
      ∃! index, w.store.indexToPlayer.get (round, index) = some who
  recognized_iff : ∀ round, round < game.rounds → ∀ index who,
      w.store.indexToPlayer.get (round, index) = some who →
        (who ∈ lineup.people ↔ index < lineup.people.length)
  ascending : ∀ round, round < game.rounds → ∀ i j who who',
      w.store.indexToPlayer.get (round, i) = some who →
      w.store.indexToPlayer.get (round, j) = some who' →
      i < j →
      (who ∈ lineup.people ↔ who' ∈ lineup.people) →
        lineup.pos who round < lineup.pos who' round
  inverse : ∀ round, round < game.rounds → ∀ index who,
      (∃ indices, w.store.playerToIndex.get who = some indices
            ∧ indices[round]? = some index)
        ↔ w.store.indexToPlayer.get (round, index) = some who
  voteWeight : ∀ recognized, ∀ who ∈ lineup.part recognized, ∀ player,
      w.store.players.get who = some player →
        player.voteWeight = World.voteWeightOf T recognized
  expected : ∀ who player indices,
      w.store.players.get who = some player →
      w.store.playerToIndex.get who = some indices →
        player.expectedMaxVoteWeight
          = w.groupVotes
              { fullGroupSize := game.maxGroupSize
                playerCount := playerCount }
              game.rounds indices

/- Two indices in a row of one population are ordered. -/
theorem Lineup.pos_lt {i j : Nat} {who' : T.Who} (hNodup : lineup.inserted.Nodup)
    (hI : (lineup.row round)[i]? = some who) (hJ : (lineup.row round)[j]? = some who') (hLt : i < j)
    (hSame : i < lineup.people.length ↔ j < lineup.people.length) :
    lineup.pos who round < lineup.pos who' round := by
  have hLength : (lineup.partRow true round).length = lineup.people.length :=
    Lineup.length_partRow true round
  have hPart : ∀ (recognized : Bool) (i j : Nat), i < j →
        (lineup.partRow recognized round)[i]? = some who →
        (lineup.partRow recognized round)[j]? = some who' →
          lineup.pos who round < lineup.pos who' round := by
    intro recognized i j hLt hI hJ
    have hPairwise := Lineup.pairwise_partRow hNodup recognized round
    rw [List.pairwise_iff_getElem] at hPairwise
    rcases List.getElem?_eq_some_iff.mp hI with ⟨hLtI, rfl⟩
    rcases List.getElem?_eq_some_iff.mp hJ with ⟨hLtJ, rfl⟩
    exact hPairwise i j hLtI hLtJ hLt
  unfold Lineup.row at hI hJ
  by_cases hPeople : i < lineup.people.length
  · have hPeople' := hSame.mp hPeople
    rw [List.getElem?_append_left (by omega)] at hI hJ
    exact hPart true i j hLt hI hJ
  · have hPeople' := mt hSame.mpr hPeople
    rw [List.getElem?_append_right (by omega)] at hI hJ
    exact hPart false _ _ (by omega) hI hJ

/- The row tells the population. -/
theorem Lineup.mem_people_iff {i : Nat} (hNodup : lineup.inserted.Nodup)
    (hI : (lineup.row round)[i]? = some who) :
    who ∈ lineup.people ↔ i < lineup.people.length := by
  have hLength : (lineup.partRow true round).length = lineup.people.length :=
    Lineup.length_partRow true round
  unfold Lineup.row at hI
  by_cases hPeople : i < lineup.people.length
  · rw [List.getElem?_append_left (by omega)] at hI
    have hMem : who ∈ lineup.part true := Lineup.mem_partRow.mp (List.mem_of_getElem? hI)
    exact ⟨fun _ => hPeople, fun _ => hMem⟩
  · rw [List.getElem?_append_right (by omega)] at hI
    have hMem : who ∈ lineup.part false := Lineup.mem_partRow.mp (List.mem_of_getElem? hI)
    refine ⟨fun hIn => ?_, fun hLt => absurd hLt hPeople⟩
    exact absurd rfl ((List.nodup_append.mp hNodup).2.2 who hIn who hMem)

/- A lineup whose players are all drawn has shuffled the game. -/
theorem Shuffled.of_drawn {seen : Seen T} {game : GameInfo T.Who} {playerCount : Nat} {w : World T}
    (hSetup : SetupOk T game) (hDrawn : Drawn seen lineup game.rounds playerCount w.board)
    (hPending : game.pendingAttendance = min lineup.inserted.length u32Max)
    (hWeighed : Weighed lineup game playerCount (fun _ => True) w.board)
    (hCount : w.registeredPlayers.length ≤ u32Max) :
    Shuffled seen lineup game playerCount w := by
  have hNodup := hDrawn.lined.nodup
  have hPerm : lineup.inserted.Perm w.registeredPlayers := by
    rw [List.perm_ext_iff_of_nodup hNodup w.registeredPlayers_nodup]
    intro who
    rw [World.mem_registeredPlayers, hDrawn.lined.mem_iff]
    exact ⟨fun hBoth => hBoth.1, fun hIs => ⟨hIs, trivial⟩⟩
  have hLength := hPerm.length_eq
  rw [← hLength] at hCount
  have hPlayers := hDrawn.playerCount_length hCount
  have hIndex : ∀ round, round < game.rounds → ∀ index, w.store.indexToPlayer.get (round, index)
          = (lineup.row round)[index]? := by
    intro round hRound index
    apply Option.ext
    intro who
    exact hDrawn.get_indexToPlayer_iff hCount hRound
  have hRowNodup := Lineup.row_nodup hNodup
  refine ⟨hDrawn.lined.seen, hPerm, hPlayers.trans hLength, ?_,
    hIndex, ?_, ?_, ?_, ?_, ?_, ?_, hDrawn.lined.voteWeight, ?_⟩
  · rw [hPending, hPlayers]
    exact Nat.min_eq_left hCount
  · intro round hRound index
    have hRowLength : (lineup.row round).length = lineup.inserted.length := Lineup.length_row round
    rw [hIndex round hRound, hPlayers, ← hRowLength]
    constructor
    · rintro ⟨who, hGet⟩
      exact (List.getElem?_eq_some_iff.mp hGet).1
    · exact fun hLt => ⟨_, List.getElem?_eq_getElem hLt⟩
  · intro round hRound index who hGet
    rw [hIndex round hRound] at hGet
    rw [← hPerm.mem_iff, ← Lineup.mem_row]
    exact List.mem_of_getElem? hGet
  · intro round hRound who hMem
    have hIn : who ∈ lineup.row round := Lineup.mem_row.mpr (hPerm.mem_iff.mpr hMem)
    rcases List.getElem?_of_mem hIn with ⟨index, hGet⟩
    refine ⟨index, ?_, ?_⟩
    · exact (hIndex round hRound index).trans hGet
    · intro index' hGet'
      rw [hIndex round hRound] at hGet'
      have hLt := (List.getElem?_eq_some_iff.mp hGet').1
      exact (List.getElem?_inj hLt (hRowNodup round)).mp (hGet'.trans hGet.symm)
  · intro round hRound index who hGet
    rw [hIndex round hRound] at hGet
    exact Lineup.mem_people_iff hNodup hGet
  · intro round hRound i j who who' hI hJ hLt hSame
    rw [hIndex round hRound] at hI hJ
    refine Lineup.pos_lt hNodup hI hJ hLt ?_
    rw [← Lineup.mem_people_iff hNodup hI, ← Lineup.mem_people_iff hNodup hJ]
    exact hSame
  · intro round hRound index who
    exact hDrawn.playerToIndex_iff hCount hRound
  · intro who player indices hGet hIndices
    exact (hDrawn.expected_eq hCount hSetup hWeighed hIndices hGet).1

/- Rows depend on the populations and on the positions only. -/
theorem Lineup.row_congr {lineup' : Lineup T} (hNodup : lineup.inserted.Nodup)
    (hNodup' : lineup'.inserted.Nodup)
    (hPart : ∀ recognized who, who ∈ lineup'.part recognized ↔ who ∈ lineup.part recognized)
    (hPos : ∀ who ∈ lineup.inserted, lineup'.pos who round = lineup.pos who round) :
    lineup'.row round = lineup.row round := by
  have hRow : ∀ recognized, lineup'.partRow recognized round = lineup.partRow recognized round := by
    intro recognized
    have hSorted' : (lineup'.partRow recognized round).Pairwise fun a b =>
          lineup.pos a round < lineup.pos b round := by
      refine (Lineup.pairwise_partRow hNodup' recognized round).imp_of_mem ?_
      intro a b hA hB hLt
      rw [Lineup.mem_partRow, hPart] at hA hB
      rw [hPos a (Lineup.mem_inserted_of_part hA), hPos b (Lineup.mem_inserted_of_part hB)] at hLt
      exact hLt
    have hPerm : (lineup'.part recognized).Perm (lineup.part recognized) := by
      rw [List.perm_ext_iff_of_nodup (Lineup.part_nodup hNodup' recognized)
        (Lineup.part_nodup hNodup recognized)]
      exact hPart recognized
    refine List.Perm.eq_of_pairwise ?_ hSorted' (Lineup.pairwise_partRow hNodup recognized round)
        (((sortBy_perm _ _).trans hPerm).trans (sortBy_perm _ _).symm)
    intro a b _ _ hLt hGt
    exact absurd hGt (Nat.lt_asymm hLt)
  unfold Lineup.row
  rw [hRow, hRow]

--
-- Entering the Reporting
--

variable
  {seen : Seen T}
  {w w' : World T}
  {env : Env T}
  {game game' : GameInfo T.Who}
  {playerCount : Nat}

/- The session starts the reporting, and nothing else does. -/
theorem startSession_reporting {count : Nat} (hGame : w.store.game = some game)
    (hState : game.state = .shuffle step)
    (hGame' : (w.startSession env game count).store.game = some game')
    (hState' : game'.state = .reporting playerCount) :
    playerCount = count ∧ (w.startSession env game count).board = w.board
      ∧ game' = { game with state := .reporting count } := by
  have hStays : w.store.game ≠ some game' := by
    intro hSame
    obtain rfl := Option.some.inj (hGame.symm.trans hSame)
    rw [hState] at hState'
    cases hState'
  revert hGame'
  unfold World.startSession
  cases w.sessions.start with
  | none => exact fun hSame => absurd hSame hStays
  | some sessions =>
    dsimp only
    cases (Score.World.startAttendanceReportSession (w.chain env) w.score).2 with
    | error e => exact fun hSame => absurd hSame hStays
    | ok u =>
      intro hSame
      obtain rfl := Option.some.inj hSame
      obtain rfl := GameState.reporting.inj hState'
      exact ⟨rfl, rfl, rfl⟩

/- The steps of a shuffle enter the reporting from the state in which it awaits its session. -/
theorem shuffleSteps_reporting (budget : Nat) {acc : World T × World.ResumeCursors}
    (hPhase : acc.1.InPhase seen) (hCursors : CursorsSound acc)
    (hSeen : ∀ who, acc.1.Awaits who → seen who env.parentHash (acc.1.reachedPersonhood who))
    (hGame : acc.1.store.game = some game) (hState : game.state = .shuffle step)
    (hGame' : (World.shuffleSteps env budget acc).1.store.game = some game')
    (hState' : game'.state = .reporting playerCount) :
    ∃ (v : World T) (game₁ : GameInfo T.Who), v.InPhase seen ∧ v.store.game = some game₁
        ∧ game₁.state = .shuffle (.awaitSession playerCount)
        ∧ (World.shuffleSteps env budget acc).1.board = v.board
        ∧ game' = { game₁ with state := .reporting playerCount } := by
  induction budget generalizing acc game step with
  | zero =>
    change acc.1.store.game = some game' at hGame'
    obtain rfl := Option.some.inj (hGame.symm.trans hGame')
    rw [hState] at hState'
    cases hState'
  | succ budget ih =>
    have hStep := shuffleStep_inPhase hPhase hCursors hSeen
    unfold World.shuffleSteps at hGame' ⊢
    dsimp only at hGame' ⊢
    split_ifs at hGame' ⊢ with hGoes
    · rcases shuffleStep_goes hGoes with ⟨hRest, _, _, game₂, step₂, _, _, hGame₂, hState₂⟩
      refine ih hStep.1 hStep.2 ?_ hGame₂ hState₂ hGame'
      intro who hAwaits
      unfold World.reachedPersonhood
      rw [hRest.score]
      exact hSeen who (shuffleStep_awaits hGoes hAwaits)
    · refine ⟨acc.1, game, hPhase, hGame, ?_⟩
      unfold World.shuffleStep at hGoes hGame' ⊢
      rw [hGame] at hGoes hGame' ⊢
      dsimp only at hGoes hGame' ⊢
      rw [hState] at hGoes hGame' ⊢
      cases step with
      | insert last => exact absurd rfl hGoes
      | retrieve next phase => exact absurd rfl hGoes
      | computeWeights last count recognizedCount =>
        exact absurd rfl hGoes
      | awaitSession count =>
        rcases startSession_reporting hGame hState hGame' hState' with ⟨rfl, hBoard, hEq⟩
        exact ⟨rfl, hBoard, hEq⟩

/- A game in its shuffle is changed by a few calls only. -/
theorem game_of_shuffle {op : Op T} (hGame : w.store.game = some game)
    (hState : game.state = .shuffle step)
    (hOp : ∀ gameIndex budget, op ≠ .advanceShuffle gameIndex budget)
    (hDispatch : w.dispatch (env, op) = .ok w') :
    w'.store.game = some game ∨ w'.store.game
        = some { game with state := .cancelling .drainShuffle } := by
  have hNot : World.isRegistration game = false := by
    unfold World.isRegistration
    rw [hState]
  cases gameEffect_of_dispatch hDispatch with
  | scheduled | otherStarted | otherClosed => exact Or.inl hGame
  | started =>
    left
    unfold World.startNextGame
    split
    · exact hGame
    · rename_i schedule _
      dsimp only
      cases hNew : w.newGame env schedule with
      | error e => exact hGame
      | ok w₁ =>
        rw [(newGame_spec hNew).1] at hGame
        cases hGame
  | signedUp _ _ w₁ _ hSignUp =>
    rcases (signUpInner_table hSignUp).signUp with ⟨game₁, _, _, _, hGame₁, hRegistration, _⟩
    obtain rfl := Option.some.inj (hGame.symm.trans hGame₁)
    rw [hNot] at hRegistration
    cases hRegistration
  | endedRegistration =>
    left
    unfold World.endRegistrationInner
    rw [hGame]
    dsimp only
    rw [hState]
    exact hGame
  | shuffled gameIndex budget => exact absurd rfl (hOp gameIndex budget)
  | reported _ _ _ hReport =>
    rcases (SameSeats.report hReport).2 with ⟨game₁, playerCount, hGame₁, hReporting⟩
    obtain rfl := Option.some.inj (hGame.symm.trans hGame₁)
    rw [hState] at hReporting
    cases hReporting
  | endedReporting =>
    left
    unfold World.endReportingInner
    rw [hGame]
    dsimp only
    rw [hState]
    exact hGame
  | processed =>
    left
    unfold World.processPlayers
    rw [hGame]
    dsimp only
    rw [hState]
    exact hGame
  | cancelled game₁ hGame₁ =>
    obtain rfl := Option.some.inj (hGame.symm.trans hGame₁)
    exact Or.inr rfl
  | drained _ chunks =>
    left
    cases chunks with
    | nil => exact hGame
    | cons chunk chunks =>
      unfold World.processCancelling World.processCancellingStep
      rw [hGame]
      dsimp only
      rw [hState]
      exact hGame
  | offboarded _ _ hOffboard =>
    have hAllowed := (offboard_table hOffboard).1
    rw [hGame, Option.all_some, hNot] at hAllowed
    cases hAllowed
  | kickedOut _ _ hKickout =>
    exact Or.inl ((kickout_table hKickout).game.trans hGame)
  | scored _ _ _ hScore =>
    exact Or.inl ((SameTable.fromScore hScore).game.trans hGame)

namespace World

variable {steps : List (TraceStep (World T) (Env T × Op T))}

/- All players are drawn when a game enters its reporting. -/
theorem drawn_of_entry (hTrace : Trace dispatch (fun _ _ _ => True) genesis steps w)
    (hDispatch : w.dispatch call = .ok w') (hGame : w.store.game = some game)
    (hState : game.state = .shuffle step) (hGame' : w'.store.game = some game')
    (hState' : game'.state = .reporting playerCount) :
    SetupOk T game' ∧ w'.board.AllQuiet ∧ ∃ lineup,
        Drawn (SeenInRun (steps ++ [⟨w, call, w'⟩])) lineup game'.rounds playerCount w'.board
          ∧ game'.pendingAttendance = min lineup.inserted.length u32Max
          ∧ Weighed lineup game' playerCount (fun _ => True)
              w'.board := by
  rcases call with ⟨env, op⟩
  by_cases hOp : ∃ gameIndex budget, op = .advanceShuffle gameIndex budget
  · rcases hOp with ⟨gameIndex, budget, rfl⟩
    have hSeen : ∀ who, w.Awaits who → SeenNext steps w (env, .advanceShuffle gameIndex budget) who
            env.parentHash (w.reachedPersonhood who) :=
      fun who hAwaits =>
        Or.inr ⟨⟨gameIndex, budget, rfl⟩, hAwaits, rfl, rfl⟩
    have hPhase : w.InPhase (SeenNext steps w (env, .advanceShuffle gameIndex budget)) :=
      (inPhase_seenInRun hTrace).mono fun _ _ _ _ hOld => Or.inl hOld
    -- nobody is awaited once the reporting is on
    have hNot : ∀ who, ¬w'.Awaits who := by
      rintro who ⟨game₁, _, hGame₁, hState₁, _⟩
      obtain rfl := Option.some.inj (hGame'.symm.trans hGame₁)
      rw [hState'] at hState₁
      cases hState₁
    unfold dispatch at hDispatch
    simp only [Except.bind_eq_ok, Except.pure_eq_ok] at hDispatch
    rcases hDispatch with ⟨_, _, hShuffles⟩
    unfold shuffles at hShuffles
    rw [hGame] at hShuffles
    dsimp only at hShuffles
    rw [hState] at hShuffles
    dsimp only at hShuffles
    split_ifs at hShuffles with hLate
    · rw [← hShuffles] at hGame'
      obtain rfl := Option.some.inj hGame'
      cases hState'
    · rw [← hShuffles] at hGame'
      have hCursors : CursorsSound (w, List.replicate game.rounds none) := by
        refine .of_none ?_
        intro r
        dsimp only
        rw [List.getElem?_replicate]
        split_ifs <;> rfl
      rcases shuffleSteps_reporting budget hPhase hCursors hSeen hGame hState hGame' hState' with
        ⟨v, game₁, hPhase₁, hGame₁, hState₁, hBoard, rfl⟩
      rw [hShuffles] at hBoard
      rcases hPhase₁.of_game hGame₁ with ⟨hSetup, hStatePhase⟩
      rw [hState₁] at hStatePhase
      rcases hStatePhase with ⟨hQuiet, lineup, hDrawn, hPending, hWeighed⟩
      rw [← hBoard] at hQuiet hDrawn hWeighed
      exact ⟨hSetup.setState _, hQuiet, lineup,
        hDrawn.mono fun who _ _ hSeen => hSeen.snoc (hNot who), hPending, hWeighed⟩
  · have hOther := game_of_shuffle hGame hState
        (fun gameIndex budget hEq => hOp ⟨gameIndex, budget, hEq⟩)
        hDispatch
    rcases hOther with hSame | hCancelled
    · obtain rfl := Option.some.inj (hGame'.symm.trans hSame)
      rw [hState] at hState'
      cases hState'
    · obtain rfl := Option.some.inj (hGame'.symm.trans hCancelled)
      cases hState'

/- A game that enters its reporting is shuffled. -/
theorem shuffled_of_entry (hTrace : Trace dispatch (fun _ _ _ => True) genesis steps w)
    (hDispatch : w.dispatch call = .ok w') (hGame : w.store.game = some game)
    (hState : game.state = .shuffle step) (hGame' : w'.store.game = some game')
    (hState' : game'.state = .reporting playerCount)
    (hCount : w'.registeredPlayers.length ≤ u32Max) :
    ∃ lineup, Shuffled (SeenInRun (steps ++ [⟨w, call, w'⟩])) lineup game' playerCount w' := by
  rcases drawn_of_entry hTrace hDispatch hGame hState hGame' hState' with
    ⟨hSetup, _, lineup, hDrawn, hPending, hWeighed⟩
  exact ⟨lineup, Shuffled.of_drawn hSetup hDrawn hPending hWeighed hCount⟩

/-
  A game with at most `u32Max` registered players enters its reporting with a shuffle of them, which
  any other shuffle with the same populations and positions agrees with, however both were split
  over calls.
-/
theorem shuffle_bijection {step : ShuffleStep T.Who}
    (hTrace : Trace dispatch (fun _ _ _ => True) genesis steps w)
    (hDispatch : w.dispatch call = .ok w') (hGame : w.store.game = some game)
    (hState : game.state = .shuffle step) (hGame' : w'.store.game = some game')
    (hState' : game'.state = .reporting playerCount)
    (hCount : w'.registeredPlayers.length ≤ u32Max) :
    ∃ lineup, Shuffled (SeenInRun (steps ++ [⟨w, call, w'⟩])) lineup game' playerCount w'
        ∧ ∀ seen₂ lineup₂ (game₂ : GameInfo T.Who) playerCount₂ (w₂ : World T),
          Shuffled seen₂ lineup₂ game₂ playerCount₂ w₂ →
          (∀ recognized who, who ∈ lineup₂.part recognized ↔ who ∈ lineup.part recognized) →
          (∀ who ∈ lineup.inserted, ∀ round, lineup₂.pos who round = lineup.pos who round) →
            ∀ round, round < game'.rounds → round < game₂.rounds → ∀ index,
                w₂.store.indexToPlayer.get (round, index)
                  = w'.store.indexToPlayer.get (round, index) := by
  rcases shuffled_of_entry hTrace hDispatch hGame hState hGame' hState'
      hCount with
    ⟨lineup, hShuffled⟩
  refine ⟨lineup, hShuffled, ?_⟩
  intro seen₂ lineup₂ game₂ playerCount₂ w₂ hShuffled₂ hPart hPos round hRound hRound₂ index
  have hNodup : lineup.inserted.Nodup :=
    hShuffled.registered.nodup_iff.mpr w'.registeredPlayers_nodup
  have hNodup₂ : lineup₂.inserted.Nodup :=
    hShuffled₂.registered.nodup_iff.mpr w₂.registeredPlayers_nodup
  have hRow := Lineup.row_congr hNodup hNodup₂ hPart fun who hMem => hPos who hMem round
  rw [hShuffled₂.index_eq round hRound₂, hShuffled.index_eq round hRound, hRow]

/- Two players are shuffled in two rounds. -/
theorem shuffle_bijection_sample :
    ∃ (steps : List (TraceStep (World sampleConfig) (Env sampleConfig × Op sampleConfig)))
      (w' : World sampleConfig) (game' : GameInfo sampleConfig.Who)
      (lineup : Lineup sampleConfig),
      w'.store.game = some game' ∧ game'.state = .reporting 2
        ∧ Shuffled (SeenInRun steps) lineup game' 2 w' := by
  have hExecute : (performAll (fun _ _ => true) (sampleGame.take 5)).any (fun w =>
          decide (∃ game ∈ w.store.game, isShuffle game = true ∧ ∃ w' ∈ (w.dispatch
                  (sampleEnv 91, .advanceShuffle 1 20)).toOption,
              (∃ game' ∈ w'.store.game, game'.state = .reporting 2)
                ∧ w'.registeredPlayers.length ≤ u32Max))
        = true := by
    decide +kernel
  rcases exists_run_of_execute (fun _ _ _ _ _ => trivial) hExecute with ⟨w, hRun, hTest⟩
  rw [decide_eq_true_eq] at hTest
  rcases hTest with ⟨game, hGame, hShuffle, w', hDispatch, ⟨game', hGame', hState'⟩, hCount⟩
  have hOk : w.dispatch (sampleEnv 91, .advanceShuffle 1 20) = .ok w' := by
    cases hResult : w.dispatch (sampleEnv 91, .advanceShuffle 1 20) with
    | error e =>
      rw [hResult] at hDispatch
      cases hDispatch
    | ok w'' =>
      rw [hResult] at hDispatch
      obtain rfl := Option.some.inj hDispatch
      rfl
  unfold isShuffle at hShuffle
  split at hShuffle
  · rename_i step hState
    rcases hRun.exists_trace with ⟨steps, hTrace⟩
    rcases shuffle_bijection hTrace hOk hGame hState hGame' hState' hCount
      with ⟨lineup, hShuffled, _⟩
    exact ⟨_, w', game', lineup, hGame', hState', hShuffled⟩
  · cases hShuffle

end World

end Individuality.Game
