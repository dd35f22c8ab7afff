import Individuality.Game.Residue

/-
  The sessions of the game are balanced, as long as nobody ends the session of another.  Together
  with the phases this says that a game leaves nothing behind.

  Main declaration: `World.nothing_left`
-/

namespace Individuality.Game

open MembersPallet (RingMembersState)

variable
  {T : Config}
  {w w' : World T}
  {env : Env T}
  {game : GameInfo T.Who}

--
-- Sessions
--

/- The states in which a game has a session open. -/
def GameState.holdsSession {W : Type} : GameState W → Bool
  | .reporting _ => true
  | .playerProcess (.processPlayers _ _) => true
  | _ => false

def World.holdsSession (w : World T) : Bool :=
  w.store.game.any fun game => game.state.holdsSession

/- How many sessions the semaphore of the rings counts. -/
def openSessions : RingMembersState → Nat
  | .appendOnly => 0
  | .mutating n => n

/-
  The game has closed all sessions it opened, but for one while it reports or processes players.
  The semaphore counts that one and those of others.
-/
structure Balanced (w : World T) : Prop where
  opened : w.sessions.opened = w.sessions.closed + w.holdsSession.toNat
  rings : openSessions w.sessions.rings = w.sessions.others + w.holdsSession.toNat
  rings_ne : w.sessions.rings ≠ .mutating 0

theorem holdsSession_of_game (hGame : w.store.game = some game) :
    w.holdsSession = game.state.holdsSession := by
  unfold World.holdsSession
  rw [hGame, Option.any_some]

theorem startMutationSession_spec {rings rings' : RingMembersState}
    (hStart : rings.startMutationSession = some rings') :
    openSessions rings' = openSessions rings + 1 ∧ rings' ≠ .mutating 0 := by
  cases rings with
  | appendOnly =>
    obtain rfl := Option.some.inj hStart
    exact ⟨rfl, by simp⟩
  | mutating n =>
    rcases Option.map_eq_some_iff.mp hStart with ⟨m, hAdd, rfl⟩
    rw [checkedAdd_eq_some_iff] at hAdd
    refine ⟨hAdd.2, ?_⟩
    intro hZero
    have hM := RingMembersState.mutating.inj hZero
    omega

theorem endMutationSession_spec {rings : RingMembersState} (hNe : rings ≠ .mutating 0)
    (hOpen : 0 < openSessions rings) :
    ∃ rings', rings.endMutationSession = some rings' ∧ openSessions rings' + 1 = openSessions rings
        ∧ rings' ≠ .mutating 0 := by
  cases rings with
  | appendOnly => exact absurd hOpen (Nat.lt_irrefl 0)
  | mutating n =>
    match n, hNe with
    | 0, hNe => exact absurd rfl hNe
    | 1, _ => exact ⟨.appendOnly, rfl, rfl, by simp⟩
    | n + 2, _ => exact ⟨.mutating (n + 1), rfl, rfl, by simp⟩

namespace Balanced

/- Neither the sessions nor who holds one have changed. -/
theorem of_eq (hOld : Balanced w) (hSessions : w'.sessions = w.sessions)
    (hHolds : w'.holdsSession = w.holdsSession) :
    Balanced w' := by
  refine ⟨?_, ?_, ?_⟩
  · rw [hSessions, hHolds]
    exact hOld.opened
  · rw [hSessions, hHolds]
    exact hOld.rings
  · rw [hSessions]
    exact hOld.rings_ne

theorem of_same (hOld : Balanced w) (hSame : SameTable w w') :
    Balanced w' := by
  refine hOld.of_eq hSame.sessions ?_
  unfold World.holdsSession
  rw [hSame.game]

/- The game goes to a state that holds the same session. -/
theorem setState {state : GameState T.Who} (hOld : Balanced w) (hGame : w.store.game = some game)
    (hHolds : state.holdsSession = game.state.holdsSession) :
    Balanced (w.setState game state) := by
  refine hOld.of_eq rfl ?_
  rw [holdsSession_of_game hGame]
  exact hHolds

--
-- The Shuffle
--

variable {playerCount : Nat}

theorem startSession (hOld : Balanced w) (hGame : w.store.game = some game)
    (hState : game.state = .shuffle (.awaitSession playerCount)) :
    Balanced (w.startSession env game playerCount) := by
  have hHolds : w.holdsSession = false := by
    rw [holdsSession_of_game hGame, hState]
    rfl
  unfold World.startSession
  cases hStart : w.sessions.start with
  | none => exact hOld
  | some sessions =>
    dsimp only
    cases (Score.World.startAttendanceReportSession (w.chain env) w.score).2 with
    | error e => exact hOld.of_same ⟨rfl, rfl, rfl, rfl⟩
    | ok u =>
      rcases Option.map_eq_some_iff.mp hStart with ⟨rings, hRings, rfl⟩
      rcases startMutationSession_spec hRings with ⟨hCount, hNe⟩
      have hOpened := hOld.opened
      have hOldRings := hOld.rings
      rw [hHolds] at hOpened hOldRings
      refine ⟨?_, ?_, hNe⟩
      · exact congrArg (· + 1) hOpened
      · exact hCount.trans (congrArg (· + 1) hOldRings)

variable {acc : World T × World.ResumeCursors}

theorem shuffleStep (hOld : Balanced acc.1) :
    Balanced (World.shuffleStep env acc).1.1 := by
  by_cases hGoes : (World.shuffleStep env acc).2 = true
  · rcases shuffleStep_goes hGoes with
      ⟨hRest, game, step, game', step', hGame, hState, hGame', hState'⟩
    refine hOld.of_eq hRest.sessions ?_
    rw [holdsSession_of_game hGame, holdsSession_of_game hGame', hState, hState']
    rfl
  · unfold World.shuffleStep at hGoes ⊢
    split
    · exact hOld
    · rename_i game hGame
      rw [hGame] at hGoes
      dsimp only at hGoes ⊢
      split at hGoes
      · exact absurd rfl hGoes
      · exact absurd rfl hGoes
      · exact absurd rfl hGoes
      · rename_i playerCount hState
        exact hOld.startSession hGame hState
      · exact hOld

theorem shuffleSteps (budget : Nat) (hOld : Balanced acc.1) :
    Balanced (World.shuffleSteps env budget acc).1 := by
  induction budget generalizing acc with
  | zero => exact hOld
  | succ budget ih =>
    unfold World.shuffleSteps
    dsimp only
    split_ifs
    · exact ih hOld.shuffleStep
    · exact hOld.shuffleStep

theorem shuffles (budget : Nat) (hOld : Balanced w) :
    Balanced (w.shuffles env budget) := by
  unfold World.shuffles
  split
  · exact hOld
  · rename_i game hGame
    split
    · rename_i step hState
      split_ifs
      · refine hOld.setState hGame ?_
        rw [hState]
        rfl
      · exact shuffleSteps budget hOld
    · exact hOld

--
-- Processing Players
--

variable {last : Option T.Who}

theorem finishProcessing (hOld : Balanced w) (hGame : w.store.game = some game)
    (hState : game.state = .playerProcess (.processPlayers last playerCount)) :
    Balanced w.finishProcessing := by
  have hHolds : w.holdsSession = true := by
    rw [holdsSession_of_game hGame, hState]
    rfl
  have hOpened := hOld.opened
  have hRings := hOld.rings
  rw [hHolds] at hOpened hRings
  have hPos : 0 < openSessions w.sessions.rings := by
    rw [hRings]
    exact Nat.succ_pos _
  rcases endMutationSession_spec hOld.rings_ne hPos with ⟨rings, hEnd, hCount, hNe⟩
  unfold World.finishProcessing Sessions.close
  rw [hEnd]
  dsimp only
  rw [hGame]
  refine ⟨hOpened, ?_, hNe⟩
  rw [hRings] at hCount
  exact Nat.succ.inj hCount

theorem processPlayer {who : T.Who} {player : Player} (hOld : Balanced w)
    (hGame : w.store.game = some game)
    (hState : game.state = .playerProcess (.processPlayers last playerCount)) :
    Balanced ((w.processPlayerAttendanceOutcome env game who
        player).setLastProcessed who playerCount) := by
  rcases processPlayerAttendanceOutcome_table env hGame who
      player with
    ⟨hProcessed, hFrame⟩
  rcases Option.map_eq_some_iff.mp hFrame with ⟨game', hGame', _⟩
  unfold World.setLastProcessed
  rw [hGame']
  refine hOld.of_eq hProcessed.sessions ?_
  rw [holdsSession_of_game hGame, hState]
  rfl

theorem playerProcessStep1 (budget creditCapacity : Nat) (hOld : Balanced w) :
    Balanced (World.playerProcessStep1 env budget creditCapacity w) := by
  induction budget generalizing w creditCapacity with
  | zero =>
    unfold World.playerProcessStep1
    split
    · exact hOld
    · rename_i game hGame
      split
      · rename_i last playerCount hState
        split
        · exact hOld.finishProcessing hGame hState
        · split <;> first | exact hOld | contradiction
      · exact hOld
  | succ budget ih =>
    unfold World.playerProcessStep1
    split
    · exact hOld
    · rename_i game hGame
      split
      · rename_i last playerCount hState
        split
        · exact hOld.finishProcessing hGame hState
        · split
          · rename_i hBudget
            split
            · exact hOld
            · obtain rfl := Nat.succ.inj hBudget
              exact ih _ (hOld.processPlayer hGame hState)
          · exact hOld
      · exact hOld

theorem processPlayers (hOld : Balanced w) (budget : Nat) (indices : List (Nat × Nat))
    (players : List T.Who) :
    Balanced (w.processPlayers env budget indices players) := by
  unfold World.processPlayers
  split
  · exact hOld
  · rename_i game hGame
    split
    · exact playerProcessStep1 budget _ hOld
    · rename_i hState
      unfold World.playerProcessStep2
      dsimp only
      refine hOld.of_eq rfl ?_
      rw [holdsSession_of_game hGame, hState]
      split_ifs
      · rfl
      · exact (holdsSession_of_game hGame).trans (by rw [hState])
    · exact hOld

--
-- Cancelling
--

theorem processCancellingStep (hOld : Balanced w) (chunk : World.ShuffleChunk) :
    Balanced (w.processCancellingStep chunk).1 := by
  unfold World.processCancellingStep
  split
  · exact hOld
  · rename_i game hGame
    have hKeep : ∀ w' : World T, game.state.holdsSession = false →
          w'.sessions = w.sessions → w'.holdsSession = false → Balanced w' := by
      intro w' hHolds hSessions hHolds'
      refine hOld.of_eq hSessions ?_
      rw [hHolds', holdsSession_of_game hGame, hHolds]
    split
    · rename_i hState
      unfold World.processCancellingStepShuffle
      dsimp only
      have hHolds : game.state.holdsSession = false := by
        rw [hState]
        rfl
      split_ifs
      · exact hKeep _ hHolds rfl rfl
      · refine hKeep _ hHolds rfl ?_
        exact (holdsSession_of_game hGame).trans hHolds
    · rename_i last hState
      unfold World.processCancellingStepPlayer
      have hHolds : game.state.holdsSession = false := by
        rw [hState]
        rfl
      split
      · exact hKeep _ hHolds rfl rfl
      · rename_i who hNext
        refine hKeep _ hHolds ?_ rfl
        exact (clearIndices_table who game.rounds).2.2.1.trans
            (SameRest.mutatePlayer who _).sessions
    · exact hOld

theorem processCancelling (chunks : List World.ShuffleChunk) (hOld : Balanced w) :
    Balanced (w.processCancelling chunks) := by
  induction chunks generalizing w with
  | nil => exact hOld
  | cons chunk chunks ih =>
    unfold World.processCancelling
    dsimp only
    split_ifs
    · exact ih (hOld.processCancellingStep chunk)
    · exact hOld.processCancellingStep chunk

--
-- Calls
--

theorem startNextGame (hOld : Balanced w) :
    Balanced (w.startNextGame env) := by
  unfold World.startNextGame
  split
  · exact hOld
  · rename_i schedule _
    dsimp only
    cases hNew : w.newGame env schedule with
    | error e => exact hOld.of_same ⟨rfl, rfl, rfl, rfl⟩
    | ok w' =>
      rcases newGame_spec hNew with ⟨hNone, _, hSessions, game, hGame, _, hState, _⟩
      refine hOld.of_eq hSessions ?_
      refine (holdsSession_of_game hGame).trans ?_
      unfold World.holdsSession
      rw [hState, hNone]
      rfl

theorem signUp (hOld : Balanced w) (hTable : SignUpTable w w') :
    Balanced w' := by
  rcases hTable.signUp with ⟨game, n, who, player, hGame, hRegistration, _, _, hGame', _⟩
  refine hOld.of_eq hTable.sessions ?_
  rw [holdsSession_of_game hGame, holdsSession_of_game hGame']
  unfold World.isRegistration at hRegistration
  cases hState : game.state with
  | registration n => rfl
  | _ =>
    rw [hState] at hRegistration
    cases hRegistration

theorem endRegistrationInner (hOld : Balanced w) :
    Balanced w.endRegistrationInner := by
  unfold World.endRegistrationInner
  split
  · exact hOld
  · rename_i game hGame
    split
    · rename_i n hState
      dsimp only
      split_ifs
      · exact hOld.setState hGame (by rw [hState]; rfl)
      · exact hOld.setState hGame (by rw [hState]; rfl)
    · exact hOld

theorem endReportingInner (hOld : Balanced w) :
    Balanced (w.endReportingInner env) := by
  unfold World.endReportingInner
  split
  · exact hOld
  · rename_i game hGame
    split
    · rename_i playerCount hState
      split_ifs
      · exact hOld.setState hGame (by rw [hState]; rfl)
      · exact hOld
    · exact hOld

theorem report {who : T.Who} {fullReport : List (List Report)} (hOld : Balanced w)
    (hReport : w.report env who fullReport = .ok w') :
    Balanced w' := by
  have hSeats := (SameSeats.report hReport).1
  refine hOld.of_eq hSeats.sessions ?_
  have hFrame := hSeats.game
  unfold World.holdsSession
  cases hGame : w.store.game with
  | none =>
    rw [hGame, Option.map_none, Option.map_eq_none_iff] at hFrame
    rw [hFrame]
  | some game =>
    rw [hGame, Option.map_some, Option.map_eq_some_iff] at hFrame
    rcases hFrame with ⟨game', hGame', hEq⟩
    rw [hGame', Option.any_some, Option.any_some]
    exact congrArg GameState.holdsSession (Prod.mk.inj hEq).1

theorem cancelGame (hOld : Balanced w) (hCancel : w.cancelGame = .ok w') :
    Balanced w' := by
  unfold World.cancelGame at hCancel
  simp only [Except.bind_eq_ok, okOr_eq_ok_iff, ensure_eq_ok_iff,
    exists_const, Except.pure_eq_ok] at hCancel
  rcases hCancel with ⟨game, hGame, hAllowed, rfl⟩
  refine hOld.setState hGame ?_
  unfold World.isRegistration World.isShuffle at hAllowed
  cases hState : game.state with
  | registration n => rfl
  | shuffle step => rfl
  | cancelling step => rfl
  | _ =>
    rw [hState] at hAllowed
    rcases hAllowed with hNo | hNo <;> cases hNo

end Balanced

/- Others end sessions that others have started. -/
def OthersClose (w : World T) (call : Env T × Op T) (_ : World T) : Prop :=
  match call.2 with
  | .endOtherSession => 0 < w.sessions.others
  | _ => True

namespace Balanced

theorem dispatch {call : Env T × Op T} (hOld : Balanced w) (hClose : OthersClose w call w')
    (hDispatch : w.dispatch call = .ok w') :
    Balanced w' := by
  rcases call with ⟨env, op⟩
  cases gameEffect_of_dispatch hDispatch with
  | scheduled => exact hOld.of_same ⟨rfl, rfl, rfl, rfl⟩
  | started => exact hOld.startNextGame
  | signedUp _ _ w₁ _ hSignUp =>
    have hSigned := hOld.signUp (signUpInner_table hSignUp)
    exact hSigned.of_same ⟨rfl, rfl, rfl, rfl⟩
  | endedRegistration => exact hOld.endRegistrationInner
  | shuffled _ budget => exact shuffles budget hOld
  | reported _ _ _ hReport => exact hOld.report hReport
  | endedReporting => exact hOld.endReportingInner
  | processed _ budget indices players =>
    exact hOld.processPlayers budget indices players
  | cancelled => exact hOld.cancelGame hDispatch
  | drained _ chunks => exact processCancelling chunks hOld
  | offboarded _ _ hOffboard =>
    rcases offboard_table hOffboard with ⟨_, _, hGame, hSessions⟩
    refine hOld.of_eq hSessions ?_
    unfold World.holdsSession
    rw [hGame]
  | kickedOut _ _ hKickout => exact hOld.of_same (kickout_table hKickout)
  | scored _ _ _ hScore => exact hOld.of_same (SameTable.fromScore hScore)
  | otherStarted sessions hStart =>
    unfold Sessions.otherStart at hStart
    rw [Option.map_eq_some_iff] at hStart
    rcases hStart with ⟨rings, hStart, rfl⟩
    rcases startMutationSession_spec hStart with ⟨hCount, hNe⟩
    refine ⟨hOld.opened, ?_, hNe⟩
    have hRings := hOld.rings
    change openSessions rings = w.sessions.others + 1 + w.holdsSession.toNat
    omega
  | otherClosed sessions hEnd =>
    have hOthers : 0 < w.sessions.others := hClose
    have hRings := hOld.rings
    unfold Sessions.otherClose at hEnd
    rw [Option.map_eq_some_iff] at hEnd
    rcases hEnd with ⟨rings, hEnd, rfl⟩
    rcases endMutationSession_spec hOld.rings_ne (by omega) with ⟨rings', hEnd', hCount, hNe⟩
    obtain rfl := Option.some.inj (hEnd.symm.trans hEnd')
    refine ⟨hOld.opened, ?_, hNe⟩
    change openSessions rings = w.sessions.others - 1 + w.holdsSession.toNat
    omega

theorem genesis : Balanced (World.genesis : World T) :=
  ⟨rfl, rfl, by simp [World.genesis, Sessions.empty]⟩

end Balanced

--
-- Nothing Is Left
--

namespace World

/-
  Without a game the maps of the shuffle and of the indices are empty, and no player has anything of
  a game.  Sessions are opened and closed in pairs, but for the one of a game that reports or
  processes players, where others end none but their own.
-/
theorem nothing_left (w : World T) :
    (RunUnder dispatch (fun _ _ _ => True) genesis w → w.store.game = none →
        w.store.indexToPlayer.isEmpty = true ∧ w.store.playerToIndex.isEmpty = true
          ∧ w.store.shuffleRecognized.isEmpty = true
          ∧ w.store.shuffleNotRecognized.isEmpty = true
          ∧ ∀ who player, w.store.players.get who = some player →
              player.registered = false ∧ player.sentReport = false
                ∧ player.earlyAttendanceEnactment = none
                ∧ player.yesPerson = 0
                ∧ player.noNotPerson = 0)
      ∧ (RunUnder dispatch OthersClose genesis w →
        (w.store.game = none → w.sessions.opened = w.sessions.closed)
          ∧ w.sessions.opened = w.sessions.closed + w.holdsSession.toNat
          ∧ openSessions w.sessions.rings = w.sessions.others + w.holdsSession.toNat) := by
  constructor
  · intro hRun hNone
    have hPhase : w.InPhase fun _ _ _ => True :=
      hRun.invariant (fun w => w.InPhase fun _ _ _ => True) (fun _ _ _ _ hDispatch hOld =>
          hOld.dispatch (fun _ _ _ _ _ => trivial) hDispatch)
        InPhase.genesis
    unfold InPhase at hPhase
    rw [hNone] at hPhase
    rcases hPhase with ⟨hIdle, hIndices, hShuffle⟩
    refine ⟨StorageMap.isEmpty_iff.mpr hIndices.indexToPlayer,
        StorageMap.isEmpty_iff.mpr hIndices.playerToIndex,
        StorageMap.isEmpty_iff.mpr (hShuffle true),
        StorageMap.isEmpty_iff.mpr (hShuffle false), ?_⟩
    intro who player hGet
    have hPlayer := hIdle who player hGet
    exact ⟨hPlayer.registered, hPlayer.sentReport, hPlayer.early,
        hPlayer.yesPerson, hPlayer.noNotPerson⟩
  · intro hRun
    have hBalanced : Balanced w := hRun.invariant Balanced
        (fun _ _ _ hClose hDispatch hOld => hOld.dispatch hClose hDispatch)
        Balanced.genesis
    refine ⟨fun hNone => ?_, hBalanced.opened, hBalanced.rings⟩
    have hOpened := hBalanced.opened
    unfold holdsSession at hOpened
    rw [hNone] at hOpened
    exact hOpened

/- The check of a run in which others close their sessions. -/
def othersClose (w : World T) (call : Env T × Op T) : Bool :=
  match call.2 with
  | .endOtherSession => decide (0 < w.sessions.others)
  | _ => true

theorem othersClose_spec {call : Env T × Op T} (hCheck : othersClose w call = true) :
    OthersClose w call w' := by
  rcases call with ⟨env, op⟩
  cases op with
  | endOtherSession =>
    unfold othersClose at hCheck
    rw [decide_eq_true_eq] at hCheck
    exact hCheck
  | _ => trivial

/- A game of two players that is played to its end. -/
def sampleGame : List (Nat × Op sampleConfig) :=
  [(10, .scheduleGames [sampleSchedule]), (20, .startGame), (30, .signUpWithAccount 1 none),
    (32, .signUpWithAccount 3 none),
    (90, .endRegistration 1),
    (91, .advanceShuffle 1 20)]

def sampleEnd : List (Nat × Op sampleConfig) :=
  [(110, .endReporting 1), (111, .processPlayers 1 9 [] []), (112,
      .processPlayers 1 9 [(0, 0), (0, 1), (1, 0), (1, 1)] [.account 1, .account 3])]

/- After the game nothing is left. -/
theorem nothing_left_sample : ∃ w : World sampleConfig,
      RunUnder dispatch OthersClose genesis w ∧ w.sessions.closed = 1
        ∧ w.sessions.opened = w.sessions.closed
        ∧ w.store.indexToPlayer.isEmpty = true := by
  have hExecute : (performAll othersClose (sampleGame ++ sampleEnd)).any (fun w =>
          decide (w.store.game = none ∧ w.sessions.closed = 1))
        = true := by
    decide +kernel
  have hReached := exists_run_of_execute
      (fun w call w' hCheck _ => (othersClose_spec hCheck : OthersClose w call w'))
      hExecute
  rcases hReached with ⟨w, hRun, hTest⟩
  rw [decide_eq_true_eq] at hTest
  rcases nothing_left w with ⟨hMaps, hSessions⟩
  exact ⟨w, hRun, hTest.2, (hSessions hRun).1 hTest.1,
    (hMaps (hRun.weaken fun _ _ _ _ => trivial) hTest.1).1⟩

/- Another pallet ends the session that the game has opened. The game then finds none to close. -/
theorem nothing_left_fails : ∃ w : World sampleConfig,
      RunUnder dispatch (fun _ _ _ => True) genesis w ∧ w.store.game = none ∧ w.sessions.opened = 1
        ∧ w.sessions.closed = 0 := by
  have hExecute : (performAll (fun _ _ => true)
        (sampleGame ++ (92, .endOtherSession) :: sampleEnd)).any
        (fun w =>
          decide (w.store.game = none ∧ w.sessions.opened = 1 ∧ w.sessions.closed = 0)) = true := by
    decide +kernel
  rcases exists_run_of_execute (fun _ _ _ _ _ => trivial) hExecute with ⟨w, hRun, hTest⟩
  rw [decide_eq_true_eq] at hTest
  exact ⟨w, hRun, hTest⟩

end World

end Individuality.Game
