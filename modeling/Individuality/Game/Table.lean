import Individuality.Game.Membership
import Individuality.Game.Phases

/-
  What the operations of the game change of the board, of the game and of the sessions.

  Main declaration: `SameTable`
-/

namespace Individuality.Game

open Except (bind_eq_ok pure_eq_ok)

variable {T : Config} {who : T.Who} {game : GameInfo T.Who}

--
-- The Same Table
--

structure SameTable (w w' : World T) : Prop where
  board : w'.board = w.board
  game : w'.store.game = w.store.game
  sessions : w'.sessions = w.sessions
  attendanceLog : w'.attendanceLog = w.attendanceLog

namespace SameTable

variable {w w' w'' : World T} {env : Env T}

theorem refl (w : World T) : SameTable w w :=
  ⟨rfl, rfl, rfl, rfl⟩

theorem trans (hFirst : SameTable w w') (hSecond : SameTable w' w'') :
    SameTable w w'' :=
  ⟨hSecond.board.trans hFirst.board, hSecond.game.trans hFirst.game,
    hSecond.sessions.trans hFirst.sessions,
    hSecond.attendanceLog.trans hFirst.attendanceLog⟩

theorem fromScore {result : Except Score.Error (Score.World T.toConfig)}
    (hOk : w.fromScore result = .ok w') :
    SameTable w w' := by
  rcases World.fromScore_eq_ok_iff.mp hOk with ⟨score, _, rfl⟩
  exact ⟨rfl, rfl, rfl, rfl⟩

theorem releaseStatementAccount (w : World T) (alias_ : T.Alias) :
    SameTable w (w.releaseStatementAccount alias_) := by
  unfold World.releaseStatementAccount
  cases w.store.aliasToStmtAccount.get alias_ with
  | none => exact refl w
  | some account => exact ⟨rfl, rfl, rfl, rfl⟩

theorem setStatementAccount {alias_ : T.Alias} {statementAccount : T.Account}
    (hSet : w.setStatementAccount alias_ statementAccount = .ok w') :
    SameTable w w' := by
  unfold World.setStatementAccount at hSet
  split_ifs at hSet
  · obtain rfl := Except.ok.inj hSet
    exact refl w
  · simp only [bind_eq_ok, pure_eq_ok] at hSet
    rcases hSet with ⟨_, _, rfl⟩
    exact (releaseStatementAccount w alias_).trans ⟨rfl, rfl, rfl, rfl⟩

theorem takeStatementAccount (w : World T) (who : T.Who) :
    SameTable w (w.takeStatementAccount who).1 := by
  unfold World.takeStatementAccount
  cases who with
  | account account => exact refl w
  | person alias_ =>
    dsimp only
    cases w.store.aliasToStmtAccount.get alias_ with
    | none => exact refl w
    | some account => exact ⟨rfl, rfl, rfl, rfl⟩

theorem revokeAllowance (w : World T) (who : T.Who) :
    SameTable w (w.revokeAllowance who) := by
  unfold World.revokeAllowance
  dsimp only
  cases (w.takeStatementAccount who).2 with
  | none => exact takeStatementAccount w who
  | some account =>
    exact (takeStatementAccount w who).trans ⟨rfl, rfl, rfl, rfl⟩

theorem onboardIfNew {known : Bool} (hOnboard : w.onboardIfNew who known = .ok w') :
    SameTable w w' := by
  unfold World.onboardIfNew at hOnboard
  split_ifs at hOnboard
  · obtain rfl := Except.ok.inj hOnboard
    exact refl w
  · unfold World.onboard at hOnboard
    cases who with
    | account account => exact fromScore hOnboard
    | person alias_ => exact fromScore hOnboard

theorem playCredibility {maybePlayer : Option Player} {maybeArchived : Option ArchivedPlayer}
    {newInvited : Bool} {played : (Nat × PlayerCredibility) × World T}
    (hPlayed : w.playCredibility env game who maybePlayer maybeArchived newInvited = .ok played) :
    SameTable w played.2 := by
  unfold World.playCredibility at hPlayed
  dsimp only at hPlayed
  split at hPlayed
  · obtain rfl := Except.ok.inj hPlayed
    exact refl w
  · split_ifs at hPlayed
    · obtain rfl := Except.ok.inj hPlayed
      exact refl w
    · split at hPlayed
      · obtain rfl := Except.ok.inj hPlayed
        exact refl w
      · split at hPlayed
        · cases hPlayed
        · obtain rfl := Except.ok.inj hPlayed
          exact ⟨rfl, rfl, rfl, rfl⟩

theorem grantAllowance (w : World T) (who : T.Who) (alreadyPlaying : Bool) :
    SameTable w (w.grantAllowance who alreadyPlaying) := by
  unfold World.grantAllowance
  cases who with
  | account account =>
    dsimp only
    split_ifs
    · exact refl w
    · exact ⟨rfl, rfl, rfl, rfl⟩
  | person alias_ => exact refl w

theorem dropDeposit {player : Option Player} (hDrop : w.dropDeposit env who player = .ok w') :
    SameTable w w' := by
  unfold World.dropDeposit at hDrop
  split at hDrop
  · split_ifs at hDrop
    obtain rfl := Except.ok.inj hDrop
    exact ⟨rfl, rfl, rfl, rfl⟩
  · obtain rfl := Except.ok.inj hDrop
    exact refl w

theorem burnDeposit (w : World T) (who : T.Who) (credibility : PlayerCredibility) :
    SameTable w (w.burnDeposit who credibility) := by
  unfold World.burnDeposit
  split
  · exact ⟨rfl, rfl, rfl, rfl⟩
  · exact refl w

theorem settleCredibility (env : Env T) (w : World T) (who : T.Who)
    (credibility : PlayerCredibility) :
    SameTable w (w.settleCredibility env who credibility).1 := by
  unfold World.settleCredibility
  split
  · split_ifs
    · split
      · exact ⟨rfl, rfl, rfl, rfl⟩
      · exact refl w
    · exact refl w
  · exact refl w

end SameTable

--
-- Signing Up and Leaving
--

variable {w w' : World T} {env : Env T}

/-
  A sign-up writes a fresh record of a registered player, and
  the game goes on with the registration.
-/
structure SignUpTable (w w' : World T) : Prop where
  signUp : ∃ game n who player,
      w.store.game = some game
        ∧ World.isRegistration game = true
        ∧ player.registered = true
        ∧ player.IsQuiet
        ∧ w'.store.game
          = some { game with state := .registration n }
        ∧ w'.board
          = { w.board with
              players := w.board.players.insert who player }
  sessions : w'.sessions = w.sessions

theorem requireOpenGame_spec (hOpen : w.requireOpenGame env = .ok game) :
    w.store.game = some game ∧ World.isRegistration game = true := by
  unfold World.requireOpenGame at hOpen
  simp only [bind_eq_ok, okOr_eq_ok_iff, ensure_eq_ok_iff, exists_const, pure_eq_ok] at hOpen
  rcases hOpen with ⟨game', hGame, _, hRegistration, rfl⟩
  exact ⟨hGame, hRegistration⟩

theorem signUpPlayer_table {newInvited : Bool} {airdrops : Option AirdropVrfs}
    (hGame : w.store.game = some game) (hRegistration : World.isRegistration game = true)
    (hSignUp : w.signUpPlayer env game who newInvited airdrops = .ok w') :
    SignUpTable w w' := by
  unfold World.signUpPlayer at hSignUp
  simp only [bind_eq_ok, pure_eq_ok] at hSignUp
  rcases hSignUp with ⟨maybePlayer, _, w₁, hOnboard, played, hPlayed, _, _, rfl⟩
  have hOnboarded := SameTable.onboardIfNew hOnboard
  have hSame := hOnboarded.trans (SameTable.playCredibility hPlayed)
  have hGranted := SameTable.grantAllowance (played.2.setPlayer who
        { firstGame := played.1.1
          registered := true
          credibility := played.1.2 })
      who maybePlayer.isSome
  refine ⟨⟨game, _, who,
      { firstGame := played.1.1
        registered := true
        credibility := played.1.2 },
      hGame, hRegistration, rfl, ⟨rfl, rfl, rfl, rfl⟩, rfl, ?_⟩,
      ?_⟩
  · change (World.grantAllowance _ _ _).board = _
    rw [hGranted.board]
    have hPlayers := congrArg Board.players hSame.board
    have hIndex := congrArg Board.indexToPlayer hSame.board
    have hPlayer := congrArg Board.playerToIndex hSame.board
    have hShuffle := congrArg Board.shuffle hSame.board
    change (⟨played.2.board.players.insert who _,
        played.2.board.indexToPlayer, played.2.board.playerToIndex,
        played.2.board.shuffle⟩ : Board T) = _
    rw [hPlayers, hIndex, hPlayer, hShuffle]
    rfl
  · change (World.grantAllowance _ _ _).sessions = _
    rw [hGranted.sessions]
    exact hSame.sessions

theorem SignUpTable.of_same {w₁ : World T} (hSame : SameTable w w₁) (hTable : SignUpTable w₁ w') :
    SignUpTable w w' := by
  rcases hTable.signUp with ⟨game, n, who, player, hGame, hRegistration, hRegistered,
      hQuiet, hGame', hBoard⟩
  refine ⟨⟨game, n, who, player, hSame.game ▸ hGame, hRegistration,
      hRegistered, hQuiet, hGame', ?_⟩,
      hTable.sessions.trans hSame.sessions⟩
  rw [hBoard, hSame.board]

theorem signUpInner_table {args : World.SignUpArgs T} (hSignUp : w.signUpInner env args = .ok w') :
    SignUpTable w w' := by
  unfold World.signUpInner at hSignUp
  rw [bind_eq_ok] at hSignUp
  rcases hSignUp with ⟨game, hOpen, hRest⟩
  rcases requireOpenGame_spec hOpen with ⟨hGame, hRegistration⟩
  cases args with
  | account who newInvited airdrops =>
    simp only [bind_eq_ok, ensure_eq_ok_iff, exists_const] at hRest
    exact signUpPlayer_table hGame hRegistration hRest.2
  | alias_ who statementAccount airdrops =>
    simp only [bind_eq_ok, ensure_eq_ok_iff, exists_const] at hRest
    rcases hRest with ⟨_, w₁, hSet, hPlayer⟩
    have hSame := SameTable.setStatementAccount hSet
    refine SignUpTable.of_same hSame ?_
    exact signUpPlayer_table (hSame.game.trans hGame) hRegistration hPlayer

/- A player leaves while no game is on, or before it begins. -/
theorem offboard_table (hOffboard : w.offboard env who = .ok w') :
    w.store.game.all World.isRegistration = true ∧ w'.board
        = { w.board with players := w.board.players.remove who }
      ∧ w'.store.game = w.store.game
      ∧ w'.sessions = w.sessions := by
  unfold World.offboard at hOffboard
  simp only [bind_eq_ok, ensure_eq_ok_iff, exists_const] at hOffboard
  rcases hOffboard with ⟨hGame, _, _, w₁, hDrop, hScore⟩
  have hDropped := SameTable.dropDeposit hDrop
  have hLast := SameTable.fromScore hScore
  have hLeft : SameTable w₁ (if (w.store.players.get who).isSome = true then
          w₁.revokeAllowance who
        else (w₁.takeStatementAccount who).1) := by
    split_ifs
    · exact SameTable.revokeAllowance w₁ who
    · exact SameTable.takeStatementAccount w₁ who
  have hAll := (hDropped.trans hLeft).trans hLast
  exact ⟨hGame, hAll.board, hAll.game, hAll.sessions⟩

theorem kickout_table {account : T.Account} (hKickout : w.kickout env account = .ok w') :
    SameTable w w' := by
  unfold World.kickout at hKickout
  dsimp only at hKickout
  rw [bind_eq_ok] at hKickout
  rcases hKickout with ⟨archived, _, hRest⟩
  cases archived with
  | unkickable firstGame => cases hRest
  | kickable firstGame archivedSince =>
    simp only [bind_eq_ok, ensure_eq_ok_iff, exists_const] at hRest
    have hSame := SameTable.fromScore hRest.2
    exact ⟨hSame.board, hSame.game, hSame.sessions, hSame.attendanceLog⟩

--
-- Reports
--

/- What reports do not change of a player. -/
def Player.seat (player : Player) : Bool × Nat × Nat :=
  (player.registered, player.voteWeight, player.expectedMaxVoteWeight)

/- What reports do not change of a game. -/
def GameInfo.frame {W : Type} (game : GameInfo W) :
    GameState W × Nat × Nat × Nat :=
  (game.state, game.rounds, game.maxGroupSize, game.index)

structure SameSeats (w w' : World T) : Prop where
  players : ∀ who,
      (w'.store.players.get who).map Player.seat
        = (w.store.players.get who).map Player.seat
  indexToPlayer : w'.board.indexToPlayer = w.board.indexToPlayer
  playerToIndex : w'.board.playerToIndex = w.board.playerToIndex
  shuffle : w'.board.shuffle = w.board.shuffle
  game : w'.store.game.map GameInfo.frame = w.store.game.map GameInfo.frame
  sessions : w'.sessions = w.sessions

namespace SameSeats

variable {w'' : World T}

theorem refl (w : World T) : SameSeats w w :=
  ⟨fun _ => rfl, rfl, rfl, rfl, rfl, rfl⟩

theorem trans (hFirst : SameSeats w w') (hSecond : SameSeats w' w'') :
    SameSeats w w'' where
  players := fun who => (hSecond.players who).trans (hFirst.players who)
  indexToPlayer := hSecond.indexToPlayer.trans hFirst.indexToPlayer
  playerToIndex := hSecond.playerToIndex.trans hFirst.playerToIndex
  shuffle := hSecond.shuffle.trans hFirst.shuffle
  game := hSecond.game.trans hFirst.game
  sessions := hSecond.sessions.trans hFirst.sessions

theorem setPlayer {player player' : Player} (hGet : w.store.players.get who = some player)
    (hSeat : player'.seat = player.seat) :
    SameSeats w (w.setPlayer who player') where
  players := by
    intro who'
    change ((w.store.players.insert who player').get who').map _ = _
    rw [StorageMap.get_insert]
    split_ifs with hSame
    · subst hSame
      rw [hGet, Option.map_some, Option.map_some, hSeat]
    · rfl
  indexToPlayer := rfl
  playerToIndex := rfl
  shuffle := rfl
  game := rfl
  sessions := rfl

/- An attendance is set for a player of the current game. -/
theorem applyAttendance (env : Env T) (hGame : w.store.game = some game) (who : T.Who)
    (attendance registered : Bool) :
    SameSeats w (w.applyAttendance env who attendance registered game).1 where
  players := by
    intro who'
    unfold World.applyAttendance
    dsimp only
    split_ifs <;> rfl
  indexToPlayer := by
    unfold World.applyAttendance
    dsimp only
    split_ifs <;> rfl
  playerToIndex := by
    unfold World.applyAttendance
    dsimp only
    split_ifs <;> rfl
  shuffle := by
    unfold World.applyAttendance
    dsimp only
    split_ifs <;> rfl
  game := by
    rw [hGame]
    unfold World.applyAttendance
    dsimp only
    split_ifs <;> rfl
  sessions := by
    unfold World.applyAttendance
    dsimp only
    split_ifs <;> rfl

theorem mutatePlayer {f : Player → Player} (who : T.Who)
    (hSeat : ∀ player, (f player).seat = player.seat) :
    SameSeats w (w.mutatePlayer who f) := by
  unfold World.mutatePlayer
  cases hGet : w.store.players.get who with
  | none => exact refl w
  | some player => exact setPlayer hGet (hSeat player)

theorem tryEarlyAttendanceEnactment (w : World T) (who : T.Who) :
    SameSeats w (w.tryEarlyAttendanceEnactment env who) := by
  have hEnact : ∀ player game attendance, w.store.game = some game → SameSeats w
          (w.enactAttendance env who player game attendance) := by
    intro player game attendance hGame
    unfold World.enactAttendance
    split
    · exact (applyAttendance env hGame who attendance _).trans (mutatePlayer who fun _ => rfl)
    · exact refl w
  unfold World.tryEarlyAttendanceEnactment
  cases w.store.players.get who with
  | none => exact refl w
  | some player =>
    cases hGame : w.store.game with
    | none => exact refl w
    | some game =>
      dsimp only
      split_ifs
      · exact refl w
      · cases determineAttendance player with
        | attended => exact hEnact player game true hGame
        | notAttended => exact hEnact player game false hGame
        | pending => exact refl w

theorem enactAll (who : List T.Who) (w : World T) :
    SameSeats w (who.foldl (World.tryEarlyAttendanceEnactment env) w) := by
  induction who generalizing w with
  | nil => exact refl w
  | cons who rest ih =>
    exact (tryEarlyAttendanceEnactment w who).trans (ih _)

theorem reportMember {weight round : Nat} {acc acc' : World T × List T.Who} {entry : Nat × Report}
    (hReport : World.reportMember weight round acc entry = .ok acc') :
    SameSeats acc.1 acc'.1 := by
  unfold World.reportMember at hReport
  simp only [bind_eq_ok, okOr_eq_ok_iff, pure_eq_ok] at hReport
  rcases hReport with ⟨reported, _, player, hGet, rfl⟩
  apply setPlayer hGet
  cases entry.2 <;> rfl

variable {fullReport : List (List Report)}

theorem reportRound {weight round : Nat} {setting : GroupsSetting} {reporterIndices : List Nat}
    {acc acc' : World T × List T.Who}
    (hReport : World.reportRound weight setting reporterIndices fullReport acc round = .ok acc') :
    SameSeats acc.1 acc'.1 := by
  unfold World.reportRound at hReport
  simp only [bind_eq_ok, okOr_eq_ok_iff, ensure_eq_ok_iff, exists_const] at hReport
  rcases hReport with ⟨_, _, _, _, _, _, hFold⟩
  refine List.foldlM_invariant (fun acc₁ : World T × List T.Who => SameSeats acc.1 acc₁.1)
      hFold ?_ (refl acc.1)
  intro acc₁ entry acc₂ _ hStep hSame
  exact hSame.trans (reportMember hStep)

/- A report leaves the seats of a game that is reported on. -/
theorem report (hReport : w.report env who fullReport = .ok w') :
    SameSeats w w' ∧ ∃ game playerCount,
        w.store.game = some game ∧ game.state = .reporting playerCount := by
  unfold World.report at hReport
  simp only [bind_eq_ok, okOr_eq_ok_iff, ensure_eq_ok_iff, exists_const] at hReport
  rcases hReport with ⟨game, hGame, _, hRest⟩
  cases hState : game.state with
  | reporting playerCount =>
    rw [hState] at hRest
    simp only [bind_eq_ok, okOr_eq_ok_iff, ensure_eq_ok_iff, exists_const, pure_eq_ok]
      at hRest
    rcases hRest with ⟨_, _, player, hGet, _, indices, _, reported, hFold, rfl⟩
    have hVotes : SameSeats (w.setPlayer who { player with sentReport := true })
          reported.1 := by
      refine List.foldlM_invariant (fun acc : World T × List T.Who =>
            SameSeats (w.setPlayer who { player with sentReport := true }) acc.1)
          hFold ?_ (refl _)
      intro acc round acc' _ hStep hSame
      exact hSame.trans (reportRound hStep)
    have hSent : SameSeats w (w.setPlayer who { player with sentReport := true }) :=
      setPlayer hGet rfl
    exact ⟨(hSent.trans hVotes).trans (enactAll _ _), game, playerCount, hGame, hState⟩
  | _ =>
    rw [hState] at hRest
    cases hRest

end SameSeats

--
-- Processing Players
--

/- One player is processed: it is idle or archived. -/
structure Processed (who : T.Who) (w w' : World T) : Prop where
  others : ∀ who', who' ≠ who → w'.store.players.get who' = w.store.players.get who'
  idle : ∀ player, w'.store.players.get who = some player → player.IsIdle
  shuffle : w'.board.shuffle = w.board.shuffle
  sessions : w'.sessions = w.sessions

theorem disposePlayer_table (env : Env T) (who : T.Who) (player : Player)
    (disposition : PlayerDisposition) :
    Processed who w (w.disposePlayer env who player disposition)
      ∧ (w.disposePlayer env who player disposition).store.game = w.store.game := by
  have hArchive : ∀ archived, Processed who w (w.archivePlayer who player archived)
          ∧ (w.archivePlayer who player archived).store.game = w.store.game := by
    intro archived
    have hSame := (SameTable.burnDeposit w who player.credibility).trans
        (SameTable.revokeAllowance _ who)
    have hPlayers := congrArg Board.players hSame.board
    have hGet : ∀ who', (w.archivePlayer who player archived).store.players.get who'
            = if who' = who then none else w.store.players.get who' := by
      intro who'
      change (StorageMap.remove ((w.burnDeposit who player.credibility).revokeAllowance
          who).board.players who).get who' = _
      rw [hPlayers, StorageMap.get_remove]
      rfl
    have hShuffle := congrArg Board.shuffle hSame.board
    refine ⟨⟨?_, ?_, hShuffle, hSame.sessions⟩, hSame.game⟩
    · intro who' hNe
      rw [hGet, if_neg hNe]
    · intro player' hGet'
      rw [hGet, if_pos rfl] at hGet'
      cases hGet'
  unfold World.disposePlayer
  cases disposition with
  | archiveKickable => exact hArchive _
  | archiveUnkickable => exact hArchive _
  | keep =>
    unfold World.keepPlayer
    dsimp only
    have hSame := SameTable.settleCredibility env w who player.credibility
    have hPlayers := congrArg Board.players hSame.board
    have hShuffle := congrArg Board.shuffle hSame.board
    refine ⟨⟨?_, ?_, hShuffle, hSame.sessions⟩, hSame.game⟩
    · intro who' hNe
      change (StorageMap.insert (w.settleCredibility env who
            player.credibility).1.board.players who _).get who'
          = _
      rw [hPlayers, StorageMap.get_insert_of_ne _ _ hNe]
      rfl
    · intro player' hGet'
      change (StorageMap.insert (w.settleCredibility env who
            player.credibility).1.board.players who _).get who
          = some player' at hGet'
      rw [StorageMap.get_insert_self] at hGet'
      obtain rfl := Option.some.inj hGet'
      exact World.Player.isIdle_reset player _

theorem processPlayerAttendanceOutcome_table (env : Env T) (hGame : w.store.game = some game)
    (who : T.Who) (player : Player) :
    Processed who w (w.processPlayerAttendanceOutcome env game who player)
      ∧ (w.processPlayerAttendanceOutcome env game who player).store.game.map GameInfo.frame
        = some game.frame := by
  unfold World.processPlayerAttendanceOutcome
  cases player.earlyAttendanceEnactment with
  | some cached =>
    have hDisposed := disposePlayer_table (w := w) env who player cached.disposition
    dsimp only
    refine ⟨hDisposed.1, ?_⟩
    rw [hDisposed.2, hGame]
    rfl
  | none =>
    dsimp only
    have hSeats := SameSeats.applyAttendance env hGame who
        (finalAttendance player) player.registered
    have hPlayers : (w.applyAttendance env who (finalAttendance player)
            player.registered game).1.store.players
          = w.store.players := by
      unfold World.applyAttendance
      dsimp only
      split_ifs <;> rfl
    have hDisposed := disposePlayer_table env who player
        (w.applyAttendance env who (finalAttendance player) player.registered game).2.disposition
        (w := (w.applyAttendance env who (finalAttendance player) player.registered game).1)
    refine ⟨⟨?_, hDisposed.1.idle, hDisposed.1.shuffle.trans hSeats.shuffle,
        hDisposed.1.sessions.trans hSeats.sessions⟩, ?_⟩
    · intro who' hNe
      rw [hDisposed.1.others who' hNe, hPlayers]
    · rw [hDisposed.2, hSeats.game, hGame]
      rfl

end Individuality.Game
