import Individuality.Game.Cleanup

/-
  Until the reporting of a game starts, no attendance is set, and it is the shuffle that starts it.

  Main declaration: `GameState.isRunning`
-/

namespace Individuality.Game

variable
  {T : Config}
  {w w' : World T}
  {env : Env T}
  {game : GameInfo T.Who}

/- A game that is reported on or whose players are processed. -/
def GameState.isRunning {W : Type} : GameState W → Bool
  | .reporting _ => true
  | .playerProcess _ => true
  | _ => false

/- One step of a game that is not yet running. -/
structure Opening (game : GameInfo T.Who) (w w' : World T) : Prop where
  attendanceLog : w'.attendanceLog = w.attendanceLog
  game : ∀ game', w'.store.game = some game' →
      game'.state.isRunning = false
        ∨ (∃ step, game.state = .shuffle step)
          ∧ ∃ playerCount, game'.state = .reporting playerCount

namespace Opening

theorem of_same (hGame : w.store.game = some game) (hNot : game.state.isRunning = false)
    (hSame : w'.store.game = w.store.game) (hLog : w'.attendanceLog = w.attendanceLog) :
    Opening game w w' := by
  refine ⟨hLog, ?_⟩
  intro game' hGame'
  rw [hSame, hGame] at hGame'
  obtain rfl := Option.some.inj hGame'
  exact Or.inl hNot

variable {state : GameState T.Who}

/- The game goes to a state in which it is not running. -/
theorem of_setState (hNot : state.isRunning = false) :
    Opening game w (w.setState game state) := by
  refine ⟨rfl, ?_⟩
  intro game' hGame'
  obtain rfl := Option.some.inj hGame'
  exact Or.inl hNot

--
-- The Shuffle
--

variable {step : ShuffleStep T.Who}

theorem startSession {playerCount : Nat} (hGame : w.store.game = some game)
    (hState : game.state = .shuffle step) :
    Opening game w (w.startSession env game playerCount) := by
  have hNot : game.state.isRunning = false := by
    rw [hState]
    rfl
  unfold World.startSession
  cases w.sessions.start with
  | none => exact of_same hGame hNot rfl rfl
  | some sessions =>
    dsimp only
    cases (Score.World.startAttendanceReportSession (w.chain env) w.score).2 with
    | error e => exact of_same hGame hNot rfl rfl
    | ok u =>
      refine ⟨rfl, ?_⟩
      intro game' hGame'
      obtain rfl := Option.some.inj hGame'
      exact Or.inr ⟨⟨step, hState⟩, playerCount, rfl⟩

theorem shuffleStep {acc : World T × World.ResumeCursors} (hGame : acc.1.store.game = some game)
    (hState : game.state = .shuffle step) :
    Opening game acc.1 (World.shuffleStep env acc).1.1 := by
  have hNot : game.state.isRunning = false := by
    rw [hState]
    rfl
  by_cases hGoes : (World.shuffleStep env acc).2 = true
  · rcases shuffleStep_goes hGoes with ⟨hRest, _, _, game₁, step₁, _, _, hGame₁, hState₁⟩
    refine ⟨hRest.attendanceLog, ?_⟩
    intro game' hGame'
    obtain rfl := Option.some.inj (hGame₁.symm.trans hGame')
    rw [hState₁]
    exact Or.inl rfl
  · unfold World.shuffleStep at hGoes ⊢
    rw [hGame] at hGoes ⊢
    dsimp only at hGoes ⊢
    rw [hState] at hGoes ⊢
    cases step with
    | insert last => exact absurd rfl hGoes
    | retrieve next phase => exact absurd rfl hGoes
    | computeWeights last count recognizedCount =>
      exact absurd rfl hGoes
    | awaitSession count => exact startSession hGame hState

theorem shuffleSteps (budget : Nat) (acc : World T × World.ResumeCursors)
    (hGame : acc.1.store.game = some game) (hState : game.state = .shuffle step) :
    Opening game acc.1 (World.shuffleSteps env budget acc).1 := by
  induction budget generalizing acc game step with
  | zero =>
    refine of_same hGame ?_ rfl rfl
    rw [hState]
    rfl
  | succ budget ih =>
    have hStep : Opening game acc.1 (World.shuffleStep env acc).1.1 := shuffleStep hGame hState
    unfold World.shuffleSteps
    dsimp only
    split_ifs with hGoes
    · rcases shuffleStep_goes hGoes with ⟨hRest, _, _, game₁, step₁, _, _, hGame₁, hState₁⟩
      have hLater := ih _ hGame₁ hState₁
      refine ⟨hLater.attendanceLog.trans hRest.attendanceLog, ?_⟩
      intro game' hGame'
      rcases hLater.game game' hGame' with hNot | hEnters
      · exact Or.inl hNot
      · exact Or.inr ⟨⟨step, hState⟩, hEnters.2⟩
    · exact hStep

theorem shuffles (budget : Nat) (hGame : w.store.game = some game)
    (hNot : game.state.isRunning = false) :
    Opening game w (w.shuffles env budget) := by
  unfold World.shuffles
  rw [hGame]
  dsimp only
  cases hState : game.state with
  | shuffle step =>
    dsimp only
    split_ifs
    · exact of_setState rfl
    · exact shuffleSteps budget (w, _) hGame hState
  | _ => exact of_same hGame hNot rfl rfl

--
-- Cancelling
--

/- No game is running. -/
def IsHalted (w : World T) : Prop :=
  ∀ game, w.store.game = some game → game.state.isRunning = false

theorem isHalted_setState (hNot : state.isRunning = false) :
    IsHalted (w.setState game state) := by
  intro game' hGame'
  obtain rfl := Option.some.inj hGame'
  exact hNot

theorem processCancellingStep (hHalted : IsHalted w) (chunk : World.ShuffleChunk) :
    IsHalted (w.processCancellingStep chunk).1
      ∧ (w.processCancellingStep chunk).1.attendanceLog = w.attendanceLog := by
  unfold World.processCancellingStep
  split
  · exact ⟨hHalted, rfl⟩
  · split
    · unfold World.processCancellingStepShuffle
      dsimp only
      split_ifs
      · exact ⟨isHalted_setState rfl, rfl⟩
      · exact ⟨hHalted, rfl⟩
    · unfold World.processCancellingStepPlayer
      split
      · refine ⟨?_, rfl⟩
        intro game' hGame'
        cases hGame'
      · rename_i who _
        refine ⟨isHalted_setState rfl, ?_⟩
        have hMutate := SameRest.mutatePlayer (w := w) who fun player =>
            World.Player.reset player player.credibility
        refine Eq.trans ?_ hMutate.attendanceLog
        dsimp only
        unfold World.clearIndices
        split <;> rfl
    · exact ⟨hHalted, rfl⟩

theorem processCancelling (chunks : List World.ShuffleChunk) (hHalted : IsHalted w) :
    IsHalted (w.processCancelling chunks)
      ∧ (w.processCancelling chunks).attendanceLog = w.attendanceLog := by
  induction chunks generalizing w with
  | nil => exact ⟨hHalted, rfl⟩
  | cons chunk chunks ih =>
    have hStep := processCancellingStep hHalted chunk
    unfold World.processCancelling
    dsimp only
    split_ifs
    · have hLater := ih hStep.1
      exact ⟨hLater.1, hLater.2.trans hStep.2⟩
    · exact hStep

--
-- Signing Up
--

theorem signUpInner {args : World.SignUpArgs T} (hSignUp : w.signUpInner env args = .ok w') :
    IsHalted w' ∧ w'.attendanceLog = w.attendanceLog := by
  rcases (signUpInner_table hSignUp).signUp with ⟨game₁, n, _, _, _, _, _, _, hGame', _⟩
  refine ⟨?_, ?_⟩
  · intro game' hSome
    obtain rfl := Option.some.inj (hGame'.symm.trans hSome)
    rfl
  · unfold World.signUpInner at hSignUp
    rw [Except.bind_eq_ok] at hSignUp
    rcases hSignUp with ⟨_, _, hRest⟩
    cases args with
    | account who newInvited airdrops =>
      simp only [Except.bind_eq_ok, ensure_eq_ok_iff, exists_const] at hRest
      exact (World.signUpPlayer_spec hRest.2).attendanceLog
    | alias_ who statementAccount airdrops =>
      simp only [Except.bind_eq_ok, ensure_eq_ok_iff, exists_const] at hRest
      rcases hRest with ⟨_, w₁, hSet, hPlayer⟩
      have hSame := SamePlayers.setStatementAccount hSet
      exact (World.signUpPlayer_spec hPlayer).attendanceLog.trans hSame.attendanceLog

--
-- Calls
--

theorem of_halted (hHalted : IsHalted w' ∧ w'.attendanceLog = w.attendanceLog) :
    Opening game w w' :=
  ⟨hHalted.2, fun game' hGame' => Or.inl (hHalted.1 game' hGame')⟩

theorem dispatch {call : Env T × Op T} (hGame : w.store.game = some game)
    (hNot : game.state.isRunning = false) (hDispatch : w.dispatch call = .ok w') :
    Opening game w w' := by
  rcases call with ⟨env, op⟩
  have hSame : Opening game w w := of_same hGame hNot rfl rfl
  have hHalted : IsHalted w := by
    intro game₁ hGame₁
    obtain rfl := Option.some.inj (hGame.symm.trans hGame₁)
    exact hNot
  cases gameEffect_of_dispatch hDispatch with
  | scheduled => exact of_same hGame hNot rfl rfl
  | started =>
    unfold World.startNextGame
    split
    · exact hSame
    · rename_i schedule _
      dsimp only
      cases hNew : w.newGame env schedule with
      | error e => exact of_same hGame hNot rfl rfl
      | ok w₁ =>
        rw [(newGame_spec hNew).1] at hGame
        cases hGame
  | signedUp _ _ w₁ _ hSignUp =>
    have hSigned := signUpInner hSignUp
    exact of_halted ⟨hSigned.1, hSigned.2⟩
  | endedRegistration =>
    unfold World.endRegistrationInner
    rw [hGame]
    dsimp only
    split
    · split_ifs
      · exact of_setState rfl
      · exact of_setState rfl
    · exact hSame
  | shuffled _ budget => exact shuffles budget hGame hNot
  | reported _ _ _ hReport =>
    rcases (SameSeats.report hReport).2 with ⟨game₁, playerCount, hGame₁, hReporting⟩
    obtain rfl := Option.some.inj (hGame.symm.trans hGame₁)
    rw [hReporting] at hNot
    cases hNot
  | endedReporting =>
    unfold World.endReportingInner
    rw [hGame]
    dsimp only
    split
    · rename_i playerCount hState
      rw [hState] at hNot
      cases hNot
    · exact hSame
  | processed =>
    unfold World.processPlayers
    rw [hGame]
    dsimp only
    split
    · rename_i hState
      rw [hState] at hNot
      cases hNot
    · rename_i hState
      rw [hState] at hNot
      cases hNot
    · exact hSame
  | cancelled => exact of_halted ⟨isHalted_setState rfl, rfl⟩
  | drained _ chunks => exact of_halted (processCancelling chunks hHalted)
  | offboarded _ _ hOffboard =>
    exact of_same hGame hNot (offboard_table hOffboard).2.2.1
        (World.offboard_spec hOffboard).attendanceLog
  | kickedOut _ _ hKickout =>
    have hTable := kickout_table hKickout
    exact of_same hGame hNot hTable.game hTable.attendanceLog
  | scored _ _ _ hScore =>
    have hTable := SameTable.fromScore hScore
    exact of_same hGame hNot hTable.game hTable.attendanceLog
  | otherStarted | otherClosed => exact of_same hGame hNot rfl rfl

end Opening

--
-- Runs
--

def World.isReporting (w : World T) : Bool :=
  w.store.game.any fun game =>
    match game.state with
    | .reporting _ => true
    | _ => false

/- A game is going on, but not yet reported on. -/
def BeforeReporting (_ : World T) (_ : Env T × Op T) (w' : World T) : Prop :=
  w'.store.game ≠ none ∧ w'.isReporting = false

/- Nothing is set on the way from a registration. -/
theorem opening_run (hRun : RunUnder World.dispatch BeforeReporting w w')
    (hGame : w.store.game = some game) (hNot : game.state.isRunning = false) :
    w'.attendanceLog = w.attendanceLog ∧ ∃ game',
        w'.store.game = some game' ∧ game'.state.isRunning = false := by
  induction hRun with
  | refl => exact ⟨rfl, game, hGame, hNot⟩
  | @tail u v _ hLast ih =>
    rcases hLast with ⟨call, hBefore, hDispatch⟩
    rcases ih with ⟨hLog, game₁, hGame₁, hNot₁⟩
    have hStep := Opening.dispatch hGame₁ hNot₁ hDispatch
    rcases Option.ne_none_iff_exists'.mp hBefore.1 with ⟨game', hGame'⟩
    refine ⟨hStep.attendanceLog.trans hLog, game', hGame', ?_⟩
    rcases hStep.game game' hGame' with hHalted | hEnters
    · exact hHalted
    · rcases hEnters.2 with ⟨playerCount, hState⟩
      have hIs := hBefore.2
      unfold World.isReporting at hIs
      rw [hGame', Option.any_some, hState] at hIs
      cases hIs

end Individuality.Game
