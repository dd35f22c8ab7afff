import Individuality.Game.Phases

/-
  The steps of a shuffle keep what holds in its phases, however they are split over calls.

  Main declaration: `Lineup.add`
-/

namespace Individuality.Game

open StorageMap (get_insert get_insert_of_ne get_insert_self get_of_nextKey)

variable {T : Config} {who' : T.Who} {visited : T.Who → Prop} {b : Board T}
variable {last : Option T.Who} {phase : ShuffleRetrievePhase} {playerCount : Nat}

--
-- Adding to a Lineup
--

namespace Lineup

/- A player joins a population. -/
def add (lineup : Lineup T) (who : T.Who) (hash : Nat) (recognized : Bool) : Lineup T where
  hash := Function.update lineup.hash who hash
  people :=
    if recognized then lineup.people ++ [who] else lineup.people
  candidates :=
    if recognized then lineup.candidates
    else lineup.candidates ++ [who]

variable
  {lineup : Lineup T}
  {who : T.Who}
  {hash : Nat}
  {recognized : Bool}

theorem part_add_self :
    (lineup.add who hash recognized).part recognized = lineup.part recognized ++ [who] := by
  cases recognized <;> rfl

theorem part_add_of_ne {other : Bool} (hNe : other ≠ recognized) :
    (lineup.add who hash recognized).part other = lineup.part other := by
  cases recognized <;> cases other <;>
    first | rfl | exact absurd rfl hNe

theorem inserted_add_perm :
    (lineup.add who hash recognized).inserted.Perm (who :: lineup.inserted) := by
  unfold inserted add
  cases recognized with
  | true =>
    simp only [if_true, List.append_assoc]
    exact List.perm_middle
  | false =>
    simp only [Bool.false_eq_true, if_false]
    rw [← List.append_assoc]
    exact List.perm_append_singleton _ _

theorem pos_add_self (round : Nat) :
    (lineup.add who hash recognized).pos who round = T.positionKey hash who round := by
  unfold pos add
  dsimp only
  rw [Function.update_self]

theorem pos_add_of_ne (hNe : who' ≠ who) (round : Nat) :
    (lineup.add who hash recognized).pos who' round = lineup.pos who' round := by
  unfold pos add
  dsimp only
  rw [Function.update_of_ne hNe]

theorem hash_add_self :
    (lineup.add who hash recognized).hash who = hash :=
  Function.update_self _ _ _

theorem hash_add_of_ne (hNe : who' ≠ who) :
    (lineup.add who hash recognized).hash who' = lineup.hash who' :=
  Function.update_of_ne hNe _ _

end Lineup

variable
  {seen : Seen T}
  {lineup : Lineup T}
  {w : World T}
  {env : Env T}
  {game : GameInfo T.Who}

/- A registered player that is visited joins the lineup. -/
theorem Lined.add {visited' : T.Who → Prop} {who : T.Who} {player : Player}
    {hash : Nat} {recognized : Bool} (hLined : Lined seen visited lineup b)
    (hGet : b.players.get who = some player) (hRegistered : player.registered = true)
    (hNew : ¬visited who)
    (hVisited : ∀ who', b.players.get who' ≠ none → (visited' who' ↔ visited who' ∨ who' = who))
    (hSeen : seen who hash recognized) :
    Lined seen visited' (lineup.add who hash recognized)
      { b with
        players := b.players.insert who
            { player with
              voteWeight := World.voteWeightOf T recognized } } := by
  have hOut : who ∉ lineup.inserted := fun hMem =>
    hNew ((hLined.mem_iff who).mp hMem).2
  have hRegisteredIff : ∀ who',
        ({ b with
            players := b.players.insert who
                { player with
                  voteWeight := World.voteWeightOf T recognized } } :
          Board T).IsRegistered who'
          ↔ b.IsRegistered who' := by
    intro who'
    unfold Board.IsRegistered
    dsimp only
    by_cases hSame : who' = who
    · subst hSame
      rw [get_insert_self, hGet]
      simp
    · rw [get_insert_of_ne _ _ hSame]
  have hPart : ∀ tag who', who' ∈ (lineup.add who hash recognized).part tag →
        (who' = who ∧ tag = recognized) ∨ (who' ≠ who ∧ who' ∈ lineup.part tag) := by
    intro tag who' hMem
    have hOld : who' ∈ lineup.part tag → who' ≠ who := by
      rintro hIn rfl
      exact hOut (Lineup.mem_inserted_of_part hIn)
    by_cases hTag : tag = recognized
    · subst hTag
      rw [Lineup.part_add_self, List.mem_append, List.mem_singleton] at hMem
      rcases hMem with hIn | rfl
      · exact .inr ⟨hOld hIn, hIn⟩
      · exact .inl ⟨rfl, rfl⟩
    · rw [Lineup.part_add_of_ne hTag] at hMem
      exact .inr ⟨hOld hMem, hMem⟩
  refine ⟨?_, ?_, ?_, ?_⟩
  · rw [Lineup.inserted_add_perm.nodup_iff, List.nodup_cons]
    exact ⟨hOut, hLined.nodup⟩
  · intro who'
    rw [Lineup.inserted_add_perm.mem_iff, List.mem_cons, hRegisteredIff, hLined.mem_iff]
    constructor
    · rintro (rfl | ⟨hReg, hOld⟩)
      · refine ⟨⟨player, hGet, hRegistered⟩, ?_⟩
        exact (hVisited who' (by rw [hGet]; exact Option.some_ne_none _)).mpr (.inr rfl)
      · refine ⟨hReg, ?_⟩
        rcases hReg with ⟨player', hGet', _⟩
        exact (hVisited who' (by rw [hGet']; exact Option.some_ne_none _)).mpr (.inl hOld)
    · rintro ⟨hReg, hNow⟩
      have hSome : b.players.get who' ≠ none := by
        rcases hReg with ⟨player', hGet', _⟩
        rw [hGet']
        exact Option.some_ne_none _
      rcases (hVisited who' hSome).mp hNow with hOld | rfl
      · exact .inr ⟨hReg, hOld⟩
      · exact .inl rfl
  · intro tag who' hMem player' hGet'
    dsimp only at hGet'
    rcases hPart tag who' hMem with ⟨rfl, rfl⟩ | ⟨hNe, hIn⟩
    · rw [get_insert_self] at hGet'
      obtain rfl := Option.some.inj hGet'
      rfl
    · rw [get_insert_of_ne _ _ hNe] at hGet'
      exact hLined.voteWeight tag who' hIn player' hGet'
  · intro tag who' hMem
    rcases hPart tag who' hMem with ⟨rfl, rfl⟩ | ⟨hNe, hIn⟩
    · rw [Lineup.hash_add_self]
      exact hSeen
    · rw [Lineup.hash_add_of_ne hNe]
      exact hLined.seen tag who' hIn

/- The lineup depends on the players and on who was visited. -/
theorem Lined.congr {visited' : T.Who → Prop} {b' : Board T} (hLined : Lined seen visited lineup b)
    (hPlayers : b'.players = b.players)
    (hVisited : ∀ who, b.IsRegistered who → (visited' who ↔ visited who)) :
    Lined seen visited' lineup b' where
  nodup := hLined.nodup
  mem_iff := by
    intro who
    rw [hLined.mem_iff]
    unfold Board.IsRegistered
    rw [hPlayers]
    constructor
    · rintro ⟨hReg, hOld⟩
      exact ⟨hReg, (hVisited who hReg).mpr hOld⟩
    · rintro ⟨hReg, hNew⟩
      exact ⟨hReg, (hVisited who hReg).mp hNew⟩
  voteWeight := by
    intro recognized who hMem player hGet
    rw [hPlayers] at hGet
    exact hLined.voteWeight recognized who hMem player hGet
  seen := hLined.seen

/- Visiting a key adds it to the visited ones. -/
theorem visited_nextKey {ν : Type} {m : StorageMap T.Who ν} {who : T.Who}
    (hNext : m.nextKey T.hashedKey last = some who) (hGet : m.get who' ≠ none) :
    Visited T (some who) who' ↔ Visited T last who' ∨ who' = who := by
  have hIff := StorageMap.isAfter_nextKey_iff T.hashedKey_injective hNext hGet
  unfold Visited
  rw [← Bool.not_eq_true, ← Bool.not_eq_true, hIff]
  tauto

theorem not_visited_nextKey {ν : Type} {m : StorageMap T.Who ν} {who : T.Who}
    (hNext : m.nextKey T.hashedKey last = some who) :
    ¬Visited T last who := by
  unfold Visited
  rw [(StorageMap.nextKey_spec hNext).2.1]
  exact Bool.noConfusion

theorem not_visited_none (who : T.Who) : ¬Visited T none who :=
  Bool.noConfusion

--
-- Inserting
--

/- The players of all rounds are inserted in one map. -/
theorem board_insertRounds (env : Env T) (recognized : Bool) (who : T.Who) (rounds : List Nat)
    (w : World T) :
    (rounds.foldl (World.insertRound env recognized who) w).board = w.board.setShuffle recognized
            ((rounds.map fun r => (r, T.positionKey env.parentHash who r)).foldl
              (fun m k => m.insert k who)
              (w.board.shuffle recognized))
      ∧ (rounds.foldl (World.insertRound env recognized who) w).store.game = w.store.game := by
  induction rounds generalizing w with
  | nil =>
    refine ⟨?_, rfl⟩
    refine congrArg (Board.mk _ _ _) ?_
    exact (Function.update_eq_self _ _).symm
  | cons round rounds ih =>
    have hStep : (World.insertRound env recognized who w round).board
          = w.board.setShuffle recognized ((w.board.shuffle recognized).insert
              (round, T.positionKey env.parentHash who round)
              who) := by
      cases recognized with
      | true =>
        refine congrArg (Board.mk _ _ _) ?_
        funext tag
        cases tag <;> rfl
      | false =>
        refine congrArg (Board.mk _ _ _) ?_
        funext tag
        cases tag <;> rfl
    have hGame : (World.insertRound env recognized who w round).store.game = w.store.game := by
      cases recognized <;> rfl
    rw [List.foldl_cons, (ih _).1, (ih _).2, hStep, hGame]
    refine ⟨?_, rfl⟩
    unfold Board.setShuffle
    simp only [Function.update_self, Function.update_idem, List.map_cons, List.foldl_cons]

theorem shuffleStepInsert_inPhase (hPhase : w.InPhase seen) (hGame : w.store.game = some game)
    (hState : game.state = .shuffle (.insert last))
    (hSeen : ∀ who, w.Awaits who → seen who env.parentHash (w.reachedPersonhood who)) :
    (w.shuffleStepInsert env game last).InPhase seen := by
  unfold World.InPhase at hPhase
  rw [hGame] at hPhase
  rcases hPhase with ⟨hSetup, hStatePhase⟩
  rw [hState] at hStatePhase
  rcases hStatePhase with ⟨hQuiet, hIndices, lineup, hLined, hHolds, hPending⟩
  unfold World.shuffleStepInsert
  cases hNext : w.store.players.nextKey T.hashedKey last with
  | none =>
    -- all players are visited, and nobody is drawn yet
    have hVisited := StorageMap.nextKey_eq_none_iff.mp hNext
    refine ⟨⟨hSetup.1, hSetup.2, hSetup.3, hSetup.4⟩, hQuiet, ?_⟩
    refine ⟨lineup, 0, 0, ?_, hPending, ⟨?_, ?_⟩, rfl, ?_⟩
    · refine hLined.congr rfl ?_
      rintro who ⟨player, hGet, _⟩
      refine ⟨fun _ => hVisited who ?_, fun _ => trivial⟩
      change w.store.players.get who = some player at hGet
      rw [hGet]
      exact Option.some_ne_none _
    · intro recognized
      refine (hHolds recognized).congr ?_ fun _ _ _ _ => rfl
      intro r _ who
      cases recognized <;>
        simp [drawnCounts]
    · exact Seated.of_empty hIndices.indexToPlayer hIndices.playerToIndex
    · exact ⟨Nat.zero_le _, rfl⟩
  | some who =>
    rcases get_of_nextKey hNext with ⟨player, hGet⟩
    have hNew := not_visited_nextKey hNext
    dsimp only
    rw [hGet, Option.any_some]
    split_ifs with hRegistered
    · have hVote : (w.mutatePlayer who fun player =>
            { player with
              voteWeight := World.voteWeightOf T (w.reachedPersonhood who) })
            = w.setPlayer who
                { player with
                  voteWeight := World.voteWeightOf T (w.reachedPersonhood who) } := by
        unfold World.mutatePlayer
        rw [hGet]
      rw [hVote]
      have hInserted := board_insertRounds env (w.reachedPersonhood who)
          who (List.range game.rounds)
          (w.setPlayer who
            { player with
              voteWeight := World.voteWeightOf T (w.reachedPersonhood who) })
      have hAdded := hLined.add hGet hRegistered hNew
          (fun who' hSome => visited_nextKey hNext hSome)
          (hSeen who ⟨game, _, hGame, hState, hNew⟩)
      unfold World.InPhase
      change Phase seen ((List.range game.rounds).foldl
            (World.insertRound env (w.reachedPersonhood who) who)
            _).board
          (some _)
      rw [hInserted.1]
      refine ⟨⟨hSetup.1, hSetup.2, hSetup.3, hSetup.4⟩, ?_,
          ⟨hIndices.1, hIndices.2⟩, lineup.add who env.parentHash
            (w.reachedPersonhood who), ?_, ?_, ?_⟩
      · refine Board.AllPlayers.insert (b := w.board) rfl ?_ ?_
        · exact fun who' player' _ hGet' => hQuiet who' player' hGet'
        · have hOld := hQuiet who player hGet
          exact ⟨hOld.1, hOld.2, hOld.3, hOld.4⟩
      · exact hAdded.congr rfl fun _ _ => Iff.rfl
      · intro tag
        have hOut : ∀ who' ∈ lineup.part tag, who' ≠ who := by
          rintro who' hIn rfl
          exact hNew ((hLined.mem_iff who').mp (Lineup.mem_inserted_of_part hIn)).2
        have hMoved : Holds (w.board.shuffle tag)
              (lineup.add who env.parentHash (w.reachedPersonhood who)).pos
              game.rounds fun _ => lineup.part tag :=
          (hHolds tag).congr (fun _ _ _ => Iff.rfl)
            fun r _ who' hIn => Lineup.pos_add_of_ne (hOut who' hIn) r
        unfold Board.setShuffle
        dsimp only
        by_cases hTag : tag = w.reachedPersonhood who
        · subst hTag
          rw [Function.update_self, Lineup.part_add_self]
          have hAll := hMoved.insertAll (a := who) fun r who' _ hPos => Lineup.pos_inj hPos
          have hKeys : (List.range game.rounds).map (fun r =>
                    (r, (lineup.add who env.parentHash (w.reachedPersonhood who)).pos who r))
                = (List.range game.rounds).map fun r =>
                    (r, T.positionKey env.parentHash who r) :=
            List.map_congr_left fun r _ => by
              rw [Lineup.pos_add_self]
          rw [hKeys] at hAll
          exact hAll
        · rw [Function.update_of_ne hTag, Lineup.part_add_of_ne hTag]
          exact hMoved
      · change saturatingAdd u32Max game.pendingAttendance 1 = _
        rw [hPending, Lineup.inserted_add_perm.length_eq, List.length_cons]
        exact saturatingAdd_min _ _ _
    · refine ⟨⟨hSetup.1, hSetup.2, hSetup.3, hSetup.4⟩, hQuiet,
          hIndices, lineup, ?_, hHolds, hPending⟩
      refine hLined.congr rfl ?_
      rintro who' ⟨player', hGet', hRegistered'⟩
      change w.store.players.get who' = some player' at hGet'
      rw [visited_nextKey hNext (by rw [hGet']; exact Option.some_ne_none _)]
      constructor
      · rintro (hOld | rfl)
        · exact hOld
        · rw [hGet] at hGet'
          obtain rfl := Option.some.inj hGet'
          exact absurd hRegistered' hRegistered
      · exact .inl

--
-- Retrieving
--

/- The cursors fit the map that is drained. -/
def CursorsSound (acc : World T × World.ResumeCursors) : Prop :=
  ∀ game, acc.1.store.game = some game →
    match game.state with
    | .shuffle (.retrieve _ phase) =>
      CursorsBefore (acc.1.shuffleMap phase) acc.2
    | _ => ∀ r : Nat, (acc.2[r]?).join = none

theorem resetCursors_getElem (cursors : World.ResumeCursors) (r : Nat) :
    ((World.resetCursors cursors)[r]?).join = none := by
  unfold World.resetCursors
  rw [List.getElem?_map]
  cases cursors[r]? <;> rfl

variable {acc : World T × World.ResumeCursors}

/- Without cursors every round starts over. -/
theorem CursorsSound.of_none (hNone : ∀ r : Nat, (acc.2[r]?).join = none) :
    CursorsSound acc := by
  intro game _
  split
  · exact CursorsBefore.of_none hNone
  · exact hNone

/- The number of a population that has been drawn. -/
theorem drawnCounts_phase {peopleDrawn candidatesDrawn : Nat}
    (hRetrieve : RetrievePhase lineup peopleDrawn candidatesDrawn phase) (round : Nat) :
    IsTurn lineup phase.isRecognized (drawnCounts peopleDrawn candidatesDrawn) round
      ∧ drawnCounts peopleDrawn candidatesDrawn phase.isRecognized round
        ≤ (lineup.part phase.isRecognized).length := by
  cases phase with
  | recognized => exact ⟨hRetrieve.2, hRetrieve.1⟩
  | notRecognized count => exact ⟨hRetrieve.1, hRetrieve.2.1⟩

/- One more player is drawn in every round. -/
theorem RetrievePhase.next {peopleDrawn candidatesDrawn : Nat}
    (hRetrieve : RetrievePhase lineup peopleDrawn candidatesDrawn phase)
    (hLeft : drawnCounts peopleDrawn candidatesDrawn phase.isRecognized 0
        < (lineup.part phase.isRecognized).length) :
    ∃ peopleDrawn' candidatesDrawn', RetrievePhase lineup peopleDrawn' candidatesDrawn' phase
        ∧ peopleDrawn' + candidatesDrawn' = peopleDrawn + candidatesDrawn + 1
        ∧ ∀ recognized round, drawnCounts peopleDrawn' candidatesDrawn' recognized round
            = if recognized = phase.isRecognized then
                drawnCounts peopleDrawn candidatesDrawn recognized round + 1
              else
                drawnCounts peopleDrawn candidatesDrawn recognized
                  round := by
  cases phase with
  | recognized =>
    refine ⟨peopleDrawn + 1, candidatesDrawn, ⟨hLeft, hRetrieve.2⟩, by omega, ?_⟩
    intro recognized round
    cases recognized <;> rfl
  | notRecognized count =>
    refine ⟨peopleDrawn, candidatesDrawn + 1, ⟨hRetrieve.1, hLeft, hRetrieve.2.2⟩, by omega, ?_⟩
    intro recognized round
    cases recognized <;> rfl

/- Everybody is drawn, so the maps of the shuffle are empty. -/
theorem Drawing.drawn {rounds : Nat}
    (hDrawing : Drawing lineup rounds (drawnCounts lineup.people.length lineup.candidates.length) b)
    (hLined : Lined seen (fun _ => True) lineup b) :
    Drawn seen lineup rounds (min lineup.inserted.length u32Max) b where
  lined := hLined
  empty := by
    intro recognized k
    refine (hDrawing.holds recognized).get_eq_none ?_ k
    intro r _
    apply List.drop_eq_nil_of_le
    rw [Lineup.length_partRow]
    cases recognized <;> exact Nat.le_refl _
  seated := by
    refine hDrawing.seated.congr ?_
    intro r _
    exact List.length_append
  playerCount_eq := rfl

theorem shuffleStepRetrieve_inPhase {next : Nat} (hPhase : acc.1.InPhase seen)
    (hGame : acc.1.store.game = some game) (hState : game.state = .shuffle (.retrieve next phase))
    (hCursors : CursorsSound acc) :
    (World.shuffleStepRetrieve acc game next phase).1.InPhase seen
      ∧ CursorsSound (World.shuffleStepRetrieve acc game next phase) := by
  have hBefore := hCursors game hGame
  rw [hState] at hBefore
  dsimp only at hBefore
  unfold World.InPhase at hPhase
  rw [hGame] at hPhase
  rcases hPhase with ⟨hSetup, hStatePhase⟩
  rw [hState] at hStatePhase
  rcases hStatePhase with ⟨hQuiet, lineup, peopleDrawn, candidatesDrawn, hLined, hPending,
      hDrawing, hNext, hRetrieve⟩
  have hSetup' : ∀ state, SetupOk T { game with state := state } :=
    fun _ => ⟨hSetup.1, hSetup.2, hSetup.3, hSetup.4⟩
  by_cases hLeft : drawnCounts peopleDrawn candidatesDrawn phase.isRecognized 0
      < (lineup.part phase.isRecognized).length
  · -- one player is drawn in each round
    have hReady : ∀ round ∈ List.range game.rounds, round < game.rounds
            ∧ IsTurn lineup phase.isRecognized (drawnCounts peopleDrawn candidatesDrawn) round
            ∧ drawnCounts peopleDrawn candidatesDrawn phase.isRecognized round
              < (lineup.part phase.isRecognized).length
            ∧ next = min (drawnCounts peopleDrawn candidatesDrawn true round
                  + drawnCounts peopleDrawn candidatesDrawn false round)
                u32Max := fun round hMem =>
      ⟨List.mem_range.mp hMem, (drawnCounts_phase hRetrieve round).1, hLeft, hNext⟩
    rcases hDrawing.retrieveRounds hLined.nodup List.nodup_range hReady
        hBefore with
      ⟨acc', drawn', hSteps, hDrawing', hBefore', hPlayers, hGame', hDrawn'⟩
    rcases hRetrieve.next hLeft with ⟨peopleDrawn', candidatesDrawn', hRetrieve', hSum, hCounts⟩
    have hStep : World.shuffleStepRetrieve acc game next phase = (acc'.1.setState game (.shuffle
                (.retrieve (saturatingAdd u32Max next 1) phase)),
              acc'.2) := by
      unfold World.shuffleStepRetrieve
      dsimp only
      rw [hSteps, if_pos rfl]
    rw [hStep]
    refine ⟨⟨hSetup' _, ?_, ?_⟩, ?_⟩
    · intro who player hGet
      change acc'.1.store.players.get who = some player at hGet
      rw [hPlayers] at hGet
      exact hQuiet who player hGet
    · refine ⟨lineup, peopleDrawn', candidatesDrawn',
          hLined.congr hPlayers fun _ _ => Iff.rfl, hPending, ?_, ?_,
          hRetrieve'⟩
      · refine hDrawing'.congr ?_
        intro recognized r hRound
        rw [hDrawn', hCounts]
        simp [List.mem_range.mpr hRound]
      · rw [hSum, hNext]
        exact saturatingAdd_min _ _ _
    · intro game₁ hGame₁
      obtain rfl := Option.some.inj hGame₁
      exact hBefore'
  · -- the population is drained
    have hAll : (lineup.part phase.isRecognized).length ≤ drawnCounts peopleDrawn candidatesDrawn
              phase.isRecognized 0 :=
      Nat.not_lt.mp hLeft
    have hRounds : List.range game.rounds = 0 :: (List.range (game.rounds - 1)).map Nat.succ := by
      rw [← List.range_succ_eq_map]
      congr 1
      have hPos := hSetup.rounds_pos
      omega
    have hSteps : World.retrieveRounds phase game.rounds next (List.range game.rounds) acc
          = (acc, false) := by
      rw [hRounds]
      unfold World.retrieveRounds
      rw [hDrawing.retrieveRound_eq_none hAll]
    unfold World.shuffleStepRetrieve
    dsimp only
    rw [hSteps, if_neg (Bool.false_ne_true)]
    refine ⟨?_, ?_⟩
    · refine ⟨hSetup' _, hQuiet, ?_⟩
      cases phase with
      | recognized =>
        have hPeople : peopleDrawn = lineup.people.length := Nat.le_antisymm hRetrieve.1 hAll
        have hNone := hRetrieve.2
        refine ⟨lineup, peopleDrawn, candidatesDrawn, hLined, hPending,
            hDrawing, hNext, hPeople, ?_, ?_⟩
        · rw [hNone]
          exact Nat.zero_le _
        · rw [hNext, hPeople, hNone, Nat.add_zero]
      | notRecognized count =>
        rcases hRetrieve with ⟨hPeople, hLe, hCount⟩
        have hCandidates : candidatesDrawn = lineup.candidates.length := Nat.le_antisymm hLe hAll
        subst hPeople hCandidates
        refine ⟨lineup, ?_, hPending, hCount, ?_⟩
        · rw [hNext]
          have hDone := hDrawing.drawn hLined
          unfold Lineup.inserted at hDone
          rw [List.length_append] at hDone
          refine ⟨hDone.1, hDone.2, hDone.3, ?_⟩
          unfold Lineup.inserted
          rw [List.length_append]
        · exact fun who _ _ hNot => absurd hNot (not_visited_none who)
    · intro game₁ hGame₁
      obtain rfl := Option.some.inj hGame₁
      cases phase with
      | recognized =>
        exact .of_none (resetCursors_getElem acc.2)
      | notRecognized count => exact resetCursors_getElem acc.2

--
-- Expected Votes
--

/- Players of a lineup keep it when other fields change. -/
theorem Lined.mutate {b' : Board T} {who : T.Who} {player player' : Player}
    (hLined : Lined seen visited lineup b) (hGet : b.players.get who = some player)
    (hPlayers : b'.players = b.players.insert who player')
    (hRegistered : player'.registered = player.registered)
    (hWeight : player'.voteWeight = player.voteWeight) :
    Lined seen visited lineup b' where
  nodup := hLined.nodup
  mem_iff := by
    intro who'
    rw [hLined.mem_iff]
    unfold Board.IsRegistered
    rw [hPlayers, get_insert]
    by_cases hSame : who' = who
    · subst hSame
      rw [if_pos rfl, hGet]
      simp [hRegistered]
    · rw [if_neg hSame]
  voteWeight := by
    intro recognized who' hMem player₁ hGet'
    rw [hPlayers, get_insert] at hGet'
    split_ifs at hGet' with hSame
    · obtain rfl := Option.some.inj hGet'
      subst hSame
      rw [hWeight]
      exact hLined.voteWeight recognized who' hMem player hGet
    · exact hLined.voteWeight recognized who' hMem player₁ hGet'
  seen := hLined.seen

/- A drawn player is one of the registered players. -/
theorem Drawn.isRegistered {rounds : Nat} {who : T.Who}
    (hDrawn : Drawn seen lineup rounds playerCount b) (hGet : b.playerToIndex.get who ≠ none) :
    b.IsRegistered who := by
  rcases hDrawn.seated.of_player who hGet with ⟨r, _, i, _, hRow⟩
  have hMem := Lineup.mem_row.mp (List.mem_of_getElem? hRow)
  exact ((hDrawn.lined.mem_iff who).mp hMem).1

theorem shuffleStepComputeWeights_inPhase {recognizedCount : Nat} (hPhase : w.InPhase seen)
    (hGame : w.store.game = some game)
    (hState : game.state = .shuffle (.computeWeights last playerCount recognizedCount)) :
    (w.shuffleStepComputeWeights game last playerCount recognizedCount).InPhase seen := by
  unfold World.InPhase at hPhase
  rw [hGame] at hPhase
  rcases hPhase with ⟨hSetup, hStatePhase⟩
  rw [hState] at hStatePhase
  rcases hStatePhase with ⟨hQuiet, lineup, hDrawn, hPending, hCount, hWeighed⟩
  have hSetup' : ∀ state, SetupOk T { game with state := state } :=
    fun _ => ⟨hSetup.1, hSetup.2, hSetup.3, hSetup.4⟩
  unfold World.shuffleStepComputeWeights
  cases hNext : w.store.playerToIndex.nextKey T.hashedKey last with
  | none =>
    have hVisited := StorageMap.nextKey_eq_none_iff.mp hNext
    refine ⟨hSetup' _, hQuiet, lineup, hDrawn, hPending, ?_⟩
    intro who indices player _ hIndices hGet
    refine hWeighed who indices player ?_ hIndices hGet
    apply hVisited
    change w.store.playerToIndex.get who = some indices at hIndices
    rw [hIndices]
    exact Option.some_ne_none _
  | some who =>
    rcases get_of_nextKey hNext with ⟨indices, hIndices⟩
    rcases hDrawn.isRegistered (show w.board.playerToIndex.get who ≠ none by
          change w.store.playerToIndex.get who ≠ none
          rw [hIndices]
          exact Option.some_ne_none _) with
      ⟨player, hGet, hRegistered⟩
    change w.store.players.get who = some player at hGet
    dsimp only
    have hMutate : ∀ f, w.mutatePlayer who f = w.setPlayer who (f player) := by
      intro f
      unfold World.mutatePlayer
      rw [hGet]
    rw [hMutate]
    refine ⟨hSetup' _, ?_, lineup, ⟨?_, hDrawn.empty, hDrawn.seated,
        hDrawn.playerCount_eq⟩, hPending, hCount, ?_⟩
    · refine Board.AllPlayers.insert (b := w.board) rfl ?_ ?_
      · exact fun who' player' _ hGet' => hQuiet who' player' hGet'
      · have hOld := hQuiet who player hGet
        exact ⟨hOld.1, hOld.2, hOld.3, hOld.4⟩
    · exact hDrawn.lined.mutate hGet rfl rfl rfl
    · intro who' indices' player' hVisited hIndices' hGet'
      change w.store.playerToIndex.get who' = some indices'
        at hIndices'
      change (w.store.players.insert who _).get who' = some player'
        at hGet'
      rw [get_insert] at hGet'
      split_ifs at hGet' with hSame
      · subst hSame
        obtain rfl := Option.some.inj hGet'
        dsimp only
        unfold StorageMap.getD
        rw [hIndices', Option.getD_some, hCount]
      · have hSome : w.store.playerToIndex.get who' ≠ none := by
          rw [hIndices']
          exact Option.some_ne_none _
        rcases (visited_nextKey hNext hSome).mp hVisited with
          hOld | hEq
        · exact hWeighed who' indices' player' hOld hIndices' hGet'
        · exact absurd hEq hSame

--
-- The Session
--

theorem startSession_inPhase (hPhase : w.InPhase seen) (hGame : w.store.game = some game)
    (hState : game.state = .shuffle (.awaitSession playerCount)) :
    (w.startSession env game playerCount).InPhase seen := by
  unfold World.startSession
  cases w.sessions.start with
  | none => exact hPhase
  | some sessions =>
    dsimp only
    cases (Score.World.startAttendanceReportSession (w.chain env) w.score).2 with
    | error e => exact hPhase
    | ok u =>
      unfold World.InPhase at hPhase
      rw [hGame] at hPhase
      rcases hPhase with ⟨hSetup, hStatePhase⟩
      rw [hState] at hStatePhase
      rcases hStatePhase with ⟨_, lineup, hDrawn, _, hWeighed⟩
      exact ⟨⟨hSetup.1, hSetup.2, hSetup.3, hSetup.4⟩, lineup, hDrawn, hWeighed⟩

--
-- The Steps of a Call
--

/- The rest of the world, without the storage of the game. -/
structure SameRest (w w' : World T) : Prop where
  score : w'.score = w.score
  sessions : w'.sessions = w.sessions
  attendanceLog : w'.attendanceLog = w.attendanceLog

theorem SameRest.insertRounds (env : Env T) (recognized : Bool) (who : T.Who) (rounds : List Nat)
    (w : World T) :
    SameRest w (rounds.foldl (World.insertRound env recognized who) w) := by
  induction rounds generalizing w with
  | nil => exact ⟨rfl, rfl, rfl⟩
  | cons round rounds ih =>
    have hRest := ih (World.insertRound env recognized who w round)
    rw [List.foldl_cons]
    cases recognized <;>
      exact ⟨hRest.score, hRest.sessions, hRest.attendanceLog⟩

theorem SameRest.mutatePlayer (who : T.Who) (f : Player → Player) :
    SameRest w (w.mutatePlayer who f) := by
  unfold World.mutatePlayer
  cases w.store.players.get who <;> exact ⟨rfl, rfl, rfl⟩

theorem SameRest.retrieveRounds (phase : ShuffleRetrievePhase) (rounds next : Nat) (rows : List Nat)
    (acc : World T × World.ResumeCursors) :
    SameRest acc.1 (World.retrieveRounds phase rounds next rows acc).1.1 := by
  induction rows generalizing acc with
  | nil => exact ⟨rfl, rfl, rfl⟩
  | cons round rest ih =>
    unfold World.retrieveRounds
    cases hRetrieve : World.retrieveRound phase rounds next acc round with
    | none => exact ⟨rfl, rfl, rfl⟩
    | some acc' =>
      have hRest := ih acc'
      unfold World.retrieveRound at hRetrieve
      dsimp only at hRetrieve
      split at hRetrieve
      · cases hRetrieve
      · split at hRetrieve
        · cases hRetrieve
        · obtain rfl := Option.some.inj hRetrieve
          cases phase <;>
            exact ⟨hRest.score, hRest.sessions, hRest.attendanceLog⟩

/-
  While the steps go on, only the storage of the game changes, and the game stays in the shuffle.
-/
theorem shuffleStep_goes (hGoes : (World.shuffleStep env acc).2 = true) :
    SameRest acc.1 (World.shuffleStep env acc).1.1 ∧ ∃ game step game' step',
        acc.1.store.game = some game ∧ game.state = .shuffle step
          ∧ (World.shuffleStep env acc).1.1.store.game = some game'
          ∧ game'.state = .shuffle step' := by
  unfold World.shuffleStep at hGoes ⊢
  cases hGame : acc.1.store.game with
  | none =>
    rw [hGame] at hGoes
    cases hGoes
  | some game =>
    rw [hGame] at hGoes
    dsimp only at hGoes ⊢
    split at hGoes
    · rename_i last hState
      dsimp only
      unfold World.shuffleStepInsert
      cases acc.1.store.players.nextKey T.hashedKey last with
      | none =>
        exact ⟨⟨rfl, rfl, rfl⟩, game, _, _, _, rfl, hState, rfl, rfl⟩
      | some who =>
        dsimp only
        split_ifs
        · have hRounds := SameRest.insertRounds env (acc.1.reachedPersonhood who) who
              (List.range game.rounds)
              (acc.1.mutatePlayer who fun player =>
                { player with
                  voteWeight := World.voteWeightOf T (acc.1.reachedPersonhood who) })
          have hMutate := SameRest.mutatePlayer (w := acc.1) who fun player =>
              { player with
                voteWeight := World.voteWeightOf T (acc.1.reachedPersonhood who) }
          exact ⟨⟨hRounds.score.trans hMutate.score, hRounds.sessions.trans hMutate.sessions,
              hRounds.attendanceLog.trans hMutate.attendanceLog⟩,
              game, _, _, _, rfl, hState, rfl, rfl⟩
        · exact ⟨⟨rfl, rfl, rfl⟩, game, _, _, _, rfl, hState, rfl, rfl⟩
    · rename_i next phase hState
      dsimp only
      unfold World.shuffleStepRetrieve
      have hRest := SameRest.retrieveRounds phase game.rounds next (List.range game.rounds) acc
      dsimp only
      split_ifs
      · exact ⟨⟨hRest.score, hRest.sessions, hRest.attendanceLog⟩,
            game, _, _, _, rfl, hState, rfl, rfl⟩
      · cases phase with
        | recognized =>
          exact ⟨⟨hRest.score, hRest.sessions, hRest.attendanceLog⟩,
              game, _, _, _, rfl, hState, rfl, rfl⟩
        | notRecognized count =>
          exact ⟨⟨hRest.score, hRest.sessions, hRest.attendanceLog⟩,
              game, _, _, _, rfl, hState, rfl, rfl⟩
    · rename_i last playerCount recognizedCount hState
      dsimp only
      unfold World.shuffleStepComputeWeights
      cases acc.1.store.playerToIndex.nextKey T.hashedKey
          last with
      | none =>
        exact ⟨⟨rfl, rfl, rfl⟩, game, _, _, _, rfl, hState, rfl, rfl⟩
      | some who =>
        dsimp only
        refine ⟨⟨?_, ?_, ?_⟩, game, _, _, _, rfl, hState, rfl, rfl⟩
        · exact (SameRest.mutatePlayer who _).score
        · exact (SameRest.mutatePlayer who _).sessions
        · exact (SameRest.mutatePlayer who _).attendanceLog
    · cases hGoes
    · cases hGoes

/- Whoever is awaited after a step was awaited before it. -/
theorem shuffleStep_awaits (hGoes : (World.shuffleStep env acc).2 = true)
    (hAwaits : (World.shuffleStep env acc).1.1.Awaits who) :
    acc.1.Awaits who := by
  rcases hAwaits with ⟨game', step', hGame', hState', hAwaited⟩
  have hOnly : ∀ step, game'.state = .shuffle step → Awaited who step := by
    intro step hState
    obtain rfl := GameState.shuffle.inj (hState'.symm.trans hState)
    exact hAwaited
  rcases shuffleStep_goes hGoes with ⟨_, game, step, _, _, hGame, hState, _, _⟩
  unfold World.shuffleStep at hGoes hGame'
  rw [hGame] at hGoes hGame'
  dsimp only at hGoes hGame'
  rw [hState] at hGoes hGame'
  cases step with
  | insert last =>
    refine ⟨game, _, hGame, hState, ?_⟩
    dsimp only at hGame'
    unfold World.shuffleStepInsert at hGame'
    cases hNext : acc.1.store.players.nextKey T.hashedKey last with
    | none =>
      rw [hNext] at hGame'
      obtain rfl := Option.some.inj hGame'
      exact (hOnly _ rfl).elim
    | some next =>
      rw [hNext] at hGame'
      have hInsert : game'.state = .shuffle (.insert (some next)) := by
        dsimp only at hGame'
        split_ifs at hGame' <;> obtain rfl := Option.some.inj hGame' <;> rfl
      have hAfter := hOnly _ hInsert
      unfold Awaited Visited at hAfter ⊢
      dsimp only at hAfter ⊢
      rw [Bool.not_eq_false] at hAfter ⊢
      exact StorageMap.isAfter_of_isAfter_nextKey hNext hAfter
  | retrieve next phase =>
    dsimp only at hGame'
    unfold World.shuffleStepRetrieve at hGame'
    dsimp only at hGame'
    split_ifs at hGame'
    · obtain rfl := Option.some.inj hGame'
      exact (hOnly _ rfl).elim
    · cases phase <;> obtain rfl := Option.some.inj hGame' <;>
        exact (hOnly _ rfl).elim
  | computeWeights last playerCount recognizedCount =>
    dsimp only at hGame'
    unfold World.shuffleStepComputeWeights at hGame'
    split at hGame' <;> obtain rfl := Option.some.inj hGame' <;> exact (hOnly _ rfl).elim
  | awaitSession playerCount => cases hGoes

/- One step keeps the phase, and the cursors a cache of it. -/
theorem shuffleStep_inPhase (hPhase : acc.1.InPhase seen) (hCursors : CursorsSound acc)
    (hSeen : ∀ who, acc.1.Awaits who → seen who env.parentHash (acc.1.reachedPersonhood who)) :
    (World.shuffleStep env acc).1.1.InPhase seen ∧ CursorsSound (World.shuffleStep env acc).1 := by
  unfold World.shuffleStep
  cases hGame : acc.1.store.game with
  | none => exact ⟨hPhase, hCursors⟩
  | some game =>
    dsimp only
    have hOld := hCursors game hGame
    cases hState : game.state with
    | shuffle step =>
      rw [hState] at hOld
      cases step with
      | insert last =>
        exact ⟨shuffleStepInsert_inPhase hPhase hGame hState hSeen, .of_none hOld⟩
      | retrieve next phase =>
        exact shuffleStepRetrieve_inPhase hPhase hGame hState hCursors
      | computeWeights last playerCount recognizedCount =>
        exact ⟨shuffleStepComputeWeights_inPhase hPhase hGame hState, .of_none hOld⟩
      | awaitSession playerCount =>
        exact ⟨startSession_inPhase hPhase hGame hState, .of_none hOld⟩
    | _ => exact ⟨hPhase, hCursors⟩

theorem shuffleSteps_inPhase (budget : Nat) (hPhase : acc.1.InPhase seen)
    (hCursors : CursorsSound acc)
    (hSeen : ∀ who, acc.1.Awaits who → seen who env.parentHash (acc.1.reachedPersonhood who)) :
    (World.shuffleSteps env budget acc).1.InPhase seen := by
  induction budget generalizing acc with
  | zero => exact hPhase
  | succ budget ih =>
    have hStep := shuffleStep_inPhase hPhase hCursors hSeen
    unfold World.shuffleSteps
    dsimp only
    split_ifs with hGoes
    · refine ih hStep.1 hStep.2 ?_
      intro who hAwaits
      unfold World.reachedPersonhood
      rw [(shuffleStep_goes hGoes).1.score]
      exact hSeen who (shuffleStep_awaits hGoes hAwaits)
    · exact hStep.1

end Individuality.Game
