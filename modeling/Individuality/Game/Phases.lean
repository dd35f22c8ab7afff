import Individuality.Game.Lineup

/-
  What holds of the players and of the maps of a shuffle in
  each phase of a game, and without a game.

  Main declaration: `Player.IsIdle`
-/

namespace Individuality.Game

variable {T : Config}

--
-- Players
--

/- A player about whom nothing has been reported. -/
structure Player.IsQuiet (player : Player) : Prop where
  sentReport : player.sentReport = false
  early : player.earlyAttendanceEnactment = none
  yesPerson : player.yesPerson = 0
  noNotPerson : player.noNotPerson = 0

/- A player that is in no game. -/
structure Player.IsIdle (player : Player) : Prop
    extends player.IsQuiet where
  registered : player.registered = false

theorem World.Player.isIdle_reset (player : Player) (credibility : PlayerCredibility) :
    (World.Player.reset player credibility).IsIdle :=
  ⟨⟨rfl, rfl, rfl, rfl⟩, rfl⟩

namespace Board

def AllPlayers (b : Board T) (P : T.Who → Player → Prop) : Prop :=
  ∀ who player, b.players.get who = some player → P who player

def AllQuiet (b : Board T) : Prop :=
  b.AllPlayers fun _ player => player.IsQuiet

def AllIdle (b : Board T) : Prop :=
  b.AllPlayers fun _ player => player.IsIdle

def IsRegistered (b : Board T) (who : T.Who) : Prop :=
  ∃ player, b.players.get who = some player ∧ player.registered = true

structure IndicesEmpty (b : Board T) : Prop where
  indexToPlayer : ∀ k, b.indexToPlayer.get k = none
  playerToIndex : ∀ who, b.playerToIndex.get who = none

def ShuffleEmpty (b : Board T) : Prop :=
  ∀ recognized k, (b.shuffle recognized).get k = none

theorem AllQuiet.of_idle {b : Board T} (hIdle : b.AllIdle) :
    b.AllQuiet :=
  fun who player hGet => (hIdle who player hGet).toIsQuiet

/- Writing one player keeps what holds of all. -/
theorem AllPlayers.insert
    {b b' : Board T} {P : T.Who → Player → Prop} {who : T.Who} {player : Player}
    (hPlayers : b'.players = b.players.insert who player)
    (hAll : ∀ who' player', who' ≠ who → b.players.get who' = some player' → P who' player')
    (hPlayer : P who player) :
    b'.AllPlayers P := by
  intro who' player' hGet
  rw [hPlayers, StorageMap.get_insert] at hGet
  split_ifs at hGet with hSame
  · obtain rfl := Option.some.inj hGet
    exact hSame ▸ hPlayer
  · exact hAll who' player' hSame hGet

end Board

--
-- The Shuffle
--

/-
  What is to be known of an insertion: the player, the hash of
  the parent block, and whether it counted as recognized.
-/
abbrev Seen (T : Config) := T.Who → Nat → Bool → Prop

/-
  A lineup has the registered players that were visited, in
  the populations that their vote weights are snapshots of.
-/
structure Lined (seen : Seen T) (visited : T.Who → Prop) (lineup : Lineup T)
    (b : Board T) : Prop where
  nodup : lineup.inserted.Nodup
  mem_iff : ∀ who, who ∈ lineup.inserted ↔ b.IsRegistered who ∧ visited who
  voteWeight : ∀ recognized, ∀ who ∈ lineup.part recognized, ∀ player,
      b.players.get who = some player →
        player.voteWeight = World.voteWeightOf T recognized
  seen : ∀ recognized, ∀ who ∈ lineup.part recognized,
      seen who (lineup.hash who) recognized

/- All players of a lineup are drawn. -/
structure Drawn (seen : Seen T) (lineup : Lineup T) (rounds playerCount : Nat)
    (b : Board T) : Prop where
  lined : Lined seen (fun _ => True) lineup b
  empty : b.ShuffleEmpty
  seated : Seated rounds u32Max lineup.row
      (fun _ => lineup.inserted.length)
      b.indexToPlayer b.playerToIndex
  playerCount_eq : playerCount = min lineup.inserted.length u32Max

/- The expected votes of the visited players. -/
def Weighed (lineup : Lineup T) (game : GameInfo T.Who) (playerCount : Nat) (visited : T.Who → Prop)
    (b : Board T) : Prop :=
  ∀ who indices player, visited who → b.playerToIndex.get who = some indices →
    b.players.get who = some player → player.expectedMaxVoteWeight = min (World.totalWeight T
          { fullGroupSize := game.maxGroupSize
            playerCount := playerCount }
          (min lineup.people.length u32Max) indices game.rounds)
        World.maxU16

/- How many are drawn of each population. -/
def drawnCounts (peopleDrawn candidatesDrawn : Nat) (recognized : Bool) (_ : Nat) : Nat :=
  if recognized then peopleDrawn else candidatesDrawn

/- What has been drawn when a phase of the retrieval is on. -/
def RetrievePhase (lineup : Lineup T) (peopleDrawn candidatesDrawn : Nat) :
    ShuffleRetrievePhase → Prop
  | .recognized =>
    peopleDrawn ≤ lineup.people.length ∧ candidatesDrawn = 0
  | .notRecognized recognizedCount =>
    peopleDrawn = lineup.people.length ∧ candidatesDrawn ≤ lineup.candidates.length
      ∧ recognizedCount = min lineup.people.length u32Max

/- The keys of a map that an iteration has visited. -/
def Visited (T : Config) (last : Option T.Who) (who : T.Who) :
    Prop :=
  StorageMap.isAfter T.hashedKey last who = false

def ShufflePhase (seen : Seen T) (game : GameInfo T.Who) (b : Board T) : ShuffleStep T.Who → Prop
  | .insert last =>
    b.IndicesEmpty ∧ ∃ lineup, Lined seen (Visited T last) lineup b
        ∧ (∀ recognized, Holds (b.shuffle recognized) lineup.pos
            game.rounds fun _ => lineup.part recognized)
        ∧ game.pendingAttendance = min lineup.inserted.length u32Max
  | .retrieve nextPlayerIndex phase =>
    ∃ lineup peopleDrawn candidatesDrawn, Lined seen (fun _ => True) lineup b
        ∧ game.pendingAttendance = min lineup.inserted.length u32Max
        ∧ Drawing lineup game.rounds (drawnCounts peopleDrawn candidatesDrawn) b
        ∧ nextPlayerIndex = min (peopleDrawn + candidatesDrawn) u32Max
        ∧ RetrievePhase lineup peopleDrawn candidatesDrawn phase
  | .computeWeights last playerCount recognizedCount =>
    ∃ lineup, Drawn seen lineup game.rounds playerCount b
        ∧ game.pendingAttendance = min lineup.inserted.length u32Max
        ∧ recognizedCount = min lineup.people.length u32Max
        ∧ Weighed lineup game playerCount (Visited T last) b
  | .awaitSession playerCount =>
    ∃ lineup, Drawn seen lineup game.rounds playerCount b
        ∧ game.pendingAttendance = min lineup.inserted.length u32Max
        ∧ Weighed lineup game playerCount (fun _ => True) b

--
-- The Phases
--

/- Indices belong to players that are registered. -/
structure IndexSound (rounds : Nat) (b : Board T) : Prop where
  of_index : ∀ r j who, b.indexToPlayer.get (r, j) = some who →
      r < rounds
        ∧ ∃ indices,
            b.playerToIndex.get who = some indices ∧ indices[r]? = some j
  registered : ∀ who, b.playerToIndex.get who ≠ none → b.IsRegistered who

/- The bounds of a game that was set up. -/
structure SetupOk (T : Config) (game : GameInfo T.Who) : Prop where
  rounds_pos : 0 < game.rounds
  rounds_le : game.rounds ≤ T.maxRounds
  minGroupSize_lt : T.minGroupSize < game.maxGroupSize
  maxGroupSize_le : game.maxGroupSize ≤ T.maxGroupSize

def StatePhase (seen : Seen T) (game : GameInfo T.Who) (b : Board T) : GameState T.Who → Prop
  | .registration _ =>
    b.AllQuiet ∧ b.IndicesEmpty ∧ b.ShuffleEmpty ∧ game.pendingAttendance = 0
  | .shuffle step => b.AllQuiet ∧ ShufflePhase seen game b step
  | .reporting playerCount =>
    ∃ lineup, Drawn seen lineup game.rounds playerCount b
        ∧ Weighed lineup game playerCount (fun _ => True) b
  | .playerProcess (.processPlayers last _) =>
    b.ShuffleEmpty ∧ b.AllPlayers fun who player => Visited T last who → player.IsIdle
  | .playerProcess .clearIndices => b.ShuffleEmpty ∧ b.AllIdle
  | .cancelling .drainShuffle =>
    b.AllQuiet ∧ IndexSound game.rounds b
  | .cancelling (.drainPlayers last) =>
    b.AllQuiet ∧ IndexSound game.rounds b ∧ b.ShuffleEmpty ∧ b.AllPlayers fun who player =>
        Visited T last who → player.registered = false

def Phase (seen : Seen T) (b : Board T) : Option (GameInfo T.Who) → Prop
  | none => b.AllIdle ∧ b.IndicesEmpty ∧ b.ShuffleEmpty
  | some game => SetupOk T game ∧ StatePhase seen game b game.state

/- The phase invariant of a state. -/
def World.InPhase (seen : Seen T) (w : World T) : Prop :=
  Phase seen w.board w.store.game

/- The insertion has not come to the player yet. -/
def Awaited (who : T.Who) : ShuffleStep T.Who → Prop
  | .insert last => ¬Visited T last who
  | _ => False

def World.Awaits (w : World T) (who : T.Who) : Prop :=
  ∃ game step, w.store.game = some game ∧ game.state = .shuffle step ∧ Awaited who step

--
-- Knowing More
--

section Mono

variable
  {seen seen' : Seen T}
  {lineup : Lineup T}
  {visited : T.Who → Prop}
  {game : GameInfo T.Who}
  {b : Board T}

theorem Lined.mono
    (hSeen : ∀ who hash recognized, visited who →
        seen who hash recognized → seen' who hash recognized)
    (hLined : Lined seen visited lineup b) :
    Lined seen' visited lineup b where
  nodup := hLined.nodup
  mem_iff := hLined.mem_iff
  voteWeight := hLined.voteWeight
  seen := fun recognized who hMem =>
    hSeen _ _ _ ((hLined.mem_iff who).mp (Lineup.mem_inserted_of_part hMem)).2
      (hLined.seen recognized who hMem)

theorem Drawn.mono {rounds playerCount : Nat}
    (hSeen : ∀ who hash recognized, seen who hash recognized → seen' who hash recognized)
    (hDrawn : Drawn seen lineup rounds playerCount b) :
    Drawn seen' lineup rounds playerCount b where
  lined := hDrawn.lined.mono fun _ _ _ _ => hSeen _ _ _
  empty := hDrawn.empty
  seated := hDrawn.seated
  playerCount_eq := hDrawn.playerCount_eq

theorem ShufflePhase.mono {step : ShuffleStep T.Who}
    (hSeen : ∀ who hash recognized,
        ¬Awaited who step → seen who hash recognized → seen' who hash recognized)
    (hPhase : ShufflePhase seen game b step) :
    ShufflePhase seen' game b step := by
  cases step with
  | insert last =>
    rcases hPhase with ⟨hEmpty, lineup, hLined, hRest⟩
    exact ⟨hEmpty, lineup, hLined.mono fun _ _ _ hVisited =>
      hSeen _ _ _ (not_not_intro hVisited), hRest⟩
  | retrieve next phase =>
    rcases hPhase with ⟨lineup, p, c, hLined, hRest⟩
    exact ⟨lineup, p, c, hLined.mono fun _ _ _ _ =>
      hSeen _ _ _ not_false, hRest⟩
  | computeWeights last playerCount recognizedCount =>
    rcases hPhase with ⟨lineup, hDrawn, hRest⟩
    exact ⟨lineup, hDrawn.mono fun _ _ _ =>
      hSeen _ _ _ not_false, hRest⟩
  | awaitSession playerCount =>
    rcases hPhase with ⟨lineup, hDrawn, hRest⟩
    exact ⟨lineup, hDrawn.mono fun _ _ _ =>
      hSeen _ _ _ not_false, hRest⟩

/- More may be known of the players that are not awaited. -/
theorem World.InPhase.mono {w : World T}
    (hSeen : ∀ who hash recognized, ¬w.Awaits who →
        seen who hash recognized → seen' who hash recognized)
    (hPhase : w.InPhase seen) :
    w.InPhase seen' := by
  unfold World.InPhase at hPhase ⊢
  cases hGame : w.store.game with
  | none =>
    rw [hGame] at hPhase
    exact hPhase
  | some game =>
    rw [hGame] at hPhase
    refine ⟨hPhase.1, ?_⟩
    have hState := hPhase.2
    cases hGameState : game.state with
    | shuffle step =>
      rw [hGameState] at hState
      refine ⟨hState.1, hState.2.mono fun who hash recognized hNot => ?_⟩
      apply hSeen who hash recognized
      rintro ⟨game', step', hGame', hState', hAwaited⟩
      obtain rfl := Option.some.inj (hGame.symm.trans hGame')
      obtain rfl := GameState.shuffle.inj (hGameState.symm.trans hState')
      exact hNot hAwaited
    | reporting playerCount =>
      rw [hGameState] at hState
      rcases hState with ⟨lineup, hDrawn, hWeighed⟩
      refine ⟨lineup, hDrawn.mono fun who hash recognized => ?_, hWeighed⟩
      apply hSeen who hash recognized
      rintro ⟨game', step, hGame', hState', _⟩
      obtain rfl := Option.some.inj (hGame.symm.trans hGame')
      rw [hGameState] at hState'
      cases hState'
    | registration n =>
      rw [hGameState] at hState
      exact hState
    | playerProcess step =>
      rw [hGameState] at hState
      cases step with
      | processPlayers last n => exact hState
      | clearIndices => exact hState
    | cancelling step =>
      rw [hGameState] at hState
      cases step with
      | drainShuffle => exact hState
      | drainPlayers last => exact hState

end Mono

end Individuality.Game
