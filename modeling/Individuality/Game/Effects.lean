import Individuality.Game.Pallet

/-
  What a call of the game pallet can do.  Every invariant of
  the pallet is proved by cases on these effects.

  Main declaration: `GameEffect`
-/

namespace Individuality.Game

open Except (bind_eq_ok pure_eq_ok)

variable {T : Config}

/- A call that succeeded, by what it did. -/
inductive GameEffect (w : World T) (env : Env T) :
    Op T → World T → Prop
  | scheduled (op : Op T) (phases : Option PhaseDurationValues)
      (schedules : BoundedVec GameSchedule T.maxGameSchedules) :
      GameEffect w env op
        (w.withStore
          { w.store with
            storedPhaseDurations := phases
            gameSchedules := schedules })
  | started : GameEffect w env .startGame (w.startNextGame env)
  | signedUp (op : Op T) (args : World.SignUpArgs T) (w₁ : World T)
      (liteInvites : StorageMap T.Alias T.Account) (hSignUp : w.signUpInner env args = .ok w₁) :
      GameEffect w env op
        (w₁.withStore { w₁.store with liteInvites := liteInvites })
  | endedRegistration (gameIndex : Nat) :
      GameEffect w env (.endRegistration gameIndex) w.endRegistrationInner
  | shuffled (gameIndex budget : Nat) :
      GameEffect w env (.advanceShuffle gameIndex budget)
        (w.shuffles env budget)
  | reported (who : T.Who) (fullReport : List (List Report)) (w' : World T)
      (hReport : w.report env who fullReport = .ok w') :
      GameEffect w env (.report who fullReport) w'
  | endedReporting (gameIndex : Nat) :
      GameEffect w env (.endReporting gameIndex) (w.endReportingInner env)
  | processed (gameIndex budget : Nat) (indices : List (Nat × Nat)) (players : List T.Who) :
      GameEffect w env (.processPlayers gameIndex budget indices players)
        (w.processPlayers env budget indices players)
  | cancelled (game : GameInfo T.Who) (hGame : w.store.game = some game)
      (hState : World.isRegistration game ∨ World.isShuffle game) :
      GameEffect w env .cancelGame
        (w.setState game (.cancelling .drainShuffle))
  | drained (gameIndex : Nat) (chunks : List World.ShuffleChunk) :
      GameEffect w env (.advanceCancelling gameIndex chunks)
        (w.processCancelling chunks)
  | offboarded (who : T.Who) (w' : World T) (hOffboard : w.offboard env who = .ok w') :
      GameEffect w env (.offboard who) w'
  | kickedOut (player : T.Account) (w' : World T) (hKickout : w.kickout env player = .ok w') :
      GameEffect w env (.kickout player) w'
  | scored (op : Score.Op T.toConfig) (w' : World T) (hCall : op.isInternal = false)
      (hScore : w.fromScore (w.score.dispatch (w.chain env, op)) = .ok w') :
      GameEffect w env (.score op) w'
  | otherStarted (sessions : Sessions) (hStart : w.sessions.otherStart = some sessions) :
      GameEffect w env .startOtherSession { w with sessions := sessions }
  | otherClosed (sessions : Sessions) (hClose : w.sessions.otherClose = some sessions) :
      GameEffect w env .endOtherSession { w with sessions := sessions }

variable {w w' : World T} {env : Env T}

theorem otherSession_eq_ok {sessions : Option Sessions} (hCall : w.otherSession sessions = .ok w') :
    ∃ sessions', sessions = some sessions' ∧ w' = { w with sessions := sessions' } := by
  unfold World.otherSession at hCall
  simp only [bind_eq_ok, okOr_eq_ok_iff, pure_eq_ok] at hCall
  rcases hCall with ⟨sessions', hSome, rfl⟩
  exact ⟨sessions', hSome, rfl⟩

/- Every successful call has one of these effects. -/
theorem gameEffect_of_dispatch {op : Op T} (hDispatch : w.dispatch (env, op) = .ok w') :
    GameEffect w env op w' := by
  unfold World.dispatch at hDispatch
  cases op with
  | setGamePhases phases =>
    unfold World.setGamePhases at hDispatch
    simp only [bind_eq_ok, pure_eq_ok] at hDispatch
    rcases hDispatch with ⟨_, _, _, _, rfl⟩
    exact .scheduled _ _ w.store.gameSchedules
  | scheduleGames gamesSchedules =>
    unfold World.scheduleGames at hDispatch
    simp only [bind_eq_ok, pure_eq_ok] at hDispatch
    rcases hDispatch with ⟨schedules, _, _, _, rfl⟩
    exact .scheduled _ w.store.storedPhaseDurations schedules
  | removeScheduledGame gamePlayTime =>
    unfold World.removeScheduledGame at hDispatch
    simp only [bind_eq_ok, pure_eq_ok] at hDispatch
    rcases hDispatch with ⟨_, _, rfl⟩
    exact .scheduled _ w.store.storedPhaseDurations _
  | startGame =>
    simp only [bind_eq_ok, pure_eq_ok] at hDispatch
    rcases hDispatch with ⟨_, _, rfl⟩
    exact .started
  | signUpWithInvite | signUpWithAccount | signUpWithAlias =>
    exact .signedUp _ _ w' w'.store.liteInvites hDispatch
  | signUpWithAccountLiteInvite lite account airdrops =>
    unfold World.signUpWithAccountLiteInvite at hDispatch
    simp only [bind_eq_ok, pure_eq_ok] at hDispatch
    rcases hDispatch with ⟨_, _, w₁, hSignUp, rfl⟩
    exact .signedUp _ _ w₁ _ hSignUp
  | endRegistration gameIndex =>
    simp only [bind_eq_ok, pure_eq_ok] at hDispatch
    rcases hDispatch with ⟨_, _, rfl⟩
    exact .endedRegistration gameIndex
  | advanceShuffle gameIndex budget =>
    simp only [bind_eq_ok, pure_eq_ok] at hDispatch
    rcases hDispatch with ⟨_, _, rfl⟩
    exact .shuffled gameIndex budget
  | report who fullReport => exact .reported who fullReport w' hDispatch
  | endReporting gameIndex =>
    simp only [bind_eq_ok, pure_eq_ok] at hDispatch
    rcases hDispatch with ⟨_, _, rfl⟩
    exact .endedReporting gameIndex
  | processPlayers gameIndex budget indices players =>
    simp only [bind_eq_ok, pure_eq_ok] at hDispatch
    rcases hDispatch with ⟨_, _, rfl⟩
    exact .processed gameIndex budget indices players
  | cancelGame =>
    unfold World.cancelGame at hDispatch
    simp only [bind_eq_ok, okOr_eq_ok_iff, ensure_eq_ok_iff, exists_const, pure_eq_ok] at hDispatch
    rcases hDispatch with ⟨game, hGame, hState, rfl⟩
    exact .cancelled game hGame hState
  | advanceCancelling gameIndex chunks =>
    simp only [bind_eq_ok, pure_eq_ok] at hDispatch
    rcases hDispatch with ⟨_, _, rfl⟩
    exact .drained gameIndex chunks
  | offboard who => exact .offboarded who w' hDispatch
  | kickout player => exact .kickedOut player w' hDispatch
  | score op =>
    simp only [bind_eq_ok, ensure_eq_ok_iff, exists_const] at hDispatch
    exact .scored op w' hDispatch.1 hDispatch.2
  | startOtherSession =>
    rcases otherSession_eq_ok hDispatch with ⟨sessions, hStart, rfl⟩
    exact .otherStarted sessions hStart
  | endOtherSession =>
    rcases otherSession_eq_ok hDispatch with ⟨sessions, hClose, rfl⟩
    exact .otherClosed sessions hClose

end Individuality.Game
