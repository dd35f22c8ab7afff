import Individuality.Game.Agreement

/-
  The statement accounts that are looked up when players leave for good: those that offboard, and
  those that are archived when they are processed.

  Main declaration: `World.lookup_succeeds_iff`
-/

namespace Individuality.Game

variable {T : Config}

--
-- Lookups
--

/- A player, in the state in which it is processed. -/
structure Turn (T : Config) where
  world : World T
  game : GameInfo T.Who
  who : T.Who
  player : Player

namespace World

/- Where offboarding looks the statement account up. -/
def offboardingState (env : Env T) (w : World T) (who : T.Who) : Except Error (World T) :=
  (w.withStore
    { w.store with
      archivedPlayers := w.store.archivedPlayers.remove who
      players := w.store.players.remove who }).dropDeposit env who (w.store.players.get who)

/- The players that one call processes, as the loop meets them. -/
def turnsOfStep1 (env : Env T) :
    Nat → Nat → World T → List (Turn T)
  | budget, creditCapacity, w =>
    match w.store.game with
    | none => []
    | some game =>
      match game.state with
      | .playerProcess
          (.processPlayers lastIteration playerCount) =>
          match
            w.store.players.nextKey T.hashedKey lastIteration
          with
          | none => []
          | some who =>
            match w.store.players.get who, budget with
            | some player, budget + 1 =>
              if
                creditCapacity < maxAttestations game.rounds game.maxGroupSize
              then
                []
              else
                ⟨w, game, who, player⟩ :: turnsOfStep1 env budget
                    (creditCapacity - creditsOf env who player)
                    ((w.processPlayerAttendanceOutcome env game who player).setLastProcessed who
                        playerCount)
            | _, _ => []
      | _ => []

end World

/- Where archiving looks the statement account up. -/
def Turn.archivingState (env : Env T) (turn : Turn T) : World T :=
  let applied :=
    match turn.player.earlyAttendanceEnactment with
    | some cached => (turn.world, cached)
    | none =>
      turn.world.applyAttendance env turn.who (finalAttendance turn.player)
        turn.player.registered turn.game
  applied.1.burnDeposit turn.who turn.player.credibility

namespace World

variable {w w' : World T} {env : Env T}

/- An offboarding that is accepted gets as far as the lookup. -/
theorem exists_offboardingState {who : T.Who} (hOffboard : w.offboard env who = .ok w') :
    ∃ v, w.offboardingState env who = .ok v := by
  unfold offboard at hOffboard
  simp only [Except.bind_eq_ok] at hOffboard
  rcases hOffboard with ⟨_, _, _, _, _, _, v, hState, _⟩
  exact ⟨v, hState⟩

theorem takeStatementAccount_congr
    (hSame : w'.store.aliasToStmtAccount = w.store.aliasToStmtAccount) (who : T.Who) :
    (w'.takeStatementAccount who).2 = (w.takeStatementAccount who).2 := by
  unfold takeStatementAccount
  cases who with
  | account account => rfl
  | person alias_ =>
    dsimp only
    rw [hSame]
    cases w.store.aliasToStmtAccount.get alias_ <;> rfl

/- An alias has a statement account exactly while it plays. -/
theorem takeStatementAccount_ne_none_iff (hStatements : Statements none w) (who : T.Who) :
    (w.takeStatementAccount who).2 ≠ none ↔ (∃ account, who = .account account)
        ∨ w.store.players.containsKey who = true := by
  cases who with
  | account account =>
    exact iff_of_true (Option.some_ne_none _) (Or.inl ⟨account, rfl⟩)
  | person alias_ =>
    have hAlias := hStatements.alias_iff alias_
    have hPlays : w.playing (.person alias_) ≠ none
          ↔ w.store.players.containsKey (.person alias_) = true := by
      unfold playing StorageMap.containsKey
      rw [← Option.isSome_iff_ne_none, Option.isSome_map]
    rw [hPlays] at hAlias
    have hLookup : (w.takeStatementAccount (.person alias_)).2 ≠ none
          ↔ w.store.aliasToStmtAccount.get alias_ ≠ none := by
      unfold takeStatementAccount
      cases hGet : w.store.aliasToStmtAccount.get alias_ with
      | none => simp only [hGet, ne_eq, not_true]
      | some stmtAccount =>
        simp only [hGet, ne_eq, reduceCtorEq, not_false_eq_true]
    rw [hLookup, hAlias]
    simp

theorem archivingState_aliasToStmtAccount {turn : Turn T}
    (hGet : turn.world.store.players.get turn.who = some turn.player) :
    (turn.archivingState env).store.aliasToStmtAccount = turn.world.store.aliasToStmtAccount := by
  have hPlays : turn.world.playing turn.who ≠ none := by
    rw [playing_of_get hGet]
    exact Option.some_ne_none _
  have hBurn : ∀ v : World T,
        (v.burnDeposit turn.who turn.player.credibility).store.aliasToStmtAccount
          = v.store.aliasToStmtAccount := by
    intro v
    unfold burnDeposit
    split <;> rfl
  unfold Turn.archivingState
  rw [hBurn]
  cases turn.player.earlyAttendanceEnactment with
  | some cached => rfl
  | none =>
    exact (SamePopulation.applyAttendance hPlays _ _ _ ).aliasToStmtAccount

/- Each turn of the loop starts in a state that is kept. -/
theorem invariant_of_mem_turns {budget creditCapacity : Nat} (hOld : MembershipInvariant False w)
    {turn : Turn T} (hMem : turn ∈ turnsOfStep1 env budget creditCapacity w) :
    MembershipInvariant False turn.world
      ∧ turn.world.store.players.get turn.who = some turn.player := by
  induction budget generalizing w creditCapacity with
  | zero =>
    unfold turnsOfStep1 at hMem
    split at hMem
    · cases hMem
    · split at hMem
      · split at hMem
        · cases hMem
        · split at hMem <;> first | cases hMem | contradiction
      · cases hMem
  | succ budget ih =>
    unfold turnsOfStep1 at hMem
    split at hMem
    · cases hMem
    · split at hMem
      · split at hMem
        · cases hMem
        · split at hMem
          · rename_i hGet hBudget
            split at hMem
            · cases hMem
            · obtain rfl := Nat.succ.inj hBudget
              rw [List.mem_cons] at hMem
              rcases hMem with rfl | hLater
              · exact ⟨hOld, hGet⟩
              · exact ih ((hOld.processPlayerAttendanceOutcome False.elim hGet _).1.of_same
                      (SamePopulation.setLastProcessed _ _ _))
                    hLater
          · cases hMem
      · cases hMem

/-
  Offboarding finds a statement account exactly for accounts and for aliases that play, and
  archiving always finds one. No alias has a deposit.
-/
theorem lookup_succeeds_iff (w : World T) (hRun : RunUnder dispatch (fun _ _ _ => True) genesis w) :
    (∀ env who w', w.offboard env who = .ok w' → ∃ v, w.offboardingState env who = .ok v
            ∧ ((v.takeStatementAccount who).2 ≠ none ↔ (∃ account, who = .account account)
                ∨ w.store.players.containsKey who = true))
      ∧ (∀ alias_ player ticket, w.store.players.get (.person alias_) = some player →
          player.credibility ≠ .deposit ticket)
      ∧ ∀ env budget creditCapacity, ∀ turn ∈ turnsOfStep1 env budget creditCapacity w,
          ((turn.archivingState env).takeStatementAccount turn.who).2 ≠ none
            ∧ ∀ alias_ ticket, turn.who = .person alias_ →
                turn.player.credibility ≠ .deposit ticket := by
  have hInv := membershipInvariant w hRun
  have hNoDeposit : ∀ {v : World T}, MembershipInvariant False v → ∀ {alias_ player ticket},
          v.store.players.get (.person alias_) = some player →
            player.credibility ≠ .deposit ticket := by
    intro v hOld alias_ player ticket hGet hDeposit
    apply hOld.deposited.person alias_ ticket
    rw [playing_of_get hGet, hDeposit]
  refine ⟨?_, fun alias_ player ticket hGet => hNoDeposit hInv hGet, ?_⟩
  · intro env who w' hOffboard
    rcases exists_offboardingState hOffboard with ⟨v, hState⟩
    refine ⟨v, hState, ?_⟩
    have hSame := (dropDeposit_spec hState).1
    rw [takeStatementAccount_congr (w := w) hSame.aliasToStmtAccount]
    exact takeStatementAccount_ne_none_iff hInv.statements who
  · intro env budget creditCapacity turn hMem
    rcases invariant_of_mem_turns hInv hMem with ⟨hOld, hGet⟩
    refine ⟨?_, ?_⟩
    · rw [takeStatementAccount_congr (archivingState_aliasToStmtAccount hGet)]
      exact (takeStatementAccount_ne_none_iff hOld.statements _).mpr
          (Or.inr (StorageMap.containsKey_iff.mpr ⟨_, hGet⟩))
    · intro alias_ ticket hWho
      rw [hWho] at hGet
      exact hNoDeposit hOld hGet

/- A game of an alias and an account, in which nobody reports. -/
def silentGame : List (Nat × Op sampleConfig) :=
  [(10, .scheduleGames [sampleSchedule]), (20, .startGame), (30, .signUpWithAlias 2 7 none),
    (32, .signUpWithAccount 1 none),
    (90, .endRegistration 1),
    (91, .advanceShuffle 1 20),
    (110, .endReporting 1)]

def silentEnd : List (Nat × Op sampleConfig) :=
  [(111, .processPlayers 1 9 [] []), (112, .processPlayers 1 9 [(0, 0), (0, 1), (1, 0), (1, 1)]
      [.account 1, .person 2])]

/- The alias is archived, with the statement account it has. -/
theorem lookup_succeeds_silent : ∃ w : World sampleConfig,
      RunUnder dispatch (fun _ _ _ => True) genesis w
        ∧ ∃ turn ∈ turnsOfStep1 (sampleEnv 111) 9 1000 w, turn.who = .person 2
            ∧ ((turn.archivingState (sampleEnv 111)).takeStatementAccount turn.who).2 ≠ none := by
  have hExecute : (performAll (fun _ _ => true) silentGame).any (fun w =>
          (turnsOfStep1 (sampleEnv 111) 9 1000 w).any
            fun turn => decide (turn.who = .person 2)) = true := by
    decide +kernel
  rcases exists_run_of_execute (fun _ _ _ _ _ => trivial) hExecute with ⟨w, hRun, hTest⟩
  rw [List.any_eq_true] at hTest
  rcases hTest with ⟨turn, hMem, hWho⟩
  exact ⟨w, hRun, turn, hMem, of_decide_eq_true hWho,
      ((lookup_succeeds_iff w hRun).2.2 (sampleEnv 111) 9 1000 turn hMem).1⟩

/- The archived alias leaves, and has no statement account. -/
theorem lookup_fails_archived : ∃ w w' v : World sampleConfig,
      RunUnder dispatch (fun _ _ _ => True) genesis w
        ∧ w.store.archivedPlayers.containsKey (.person 2) = true
        ∧ w.offboard (sampleEnv 130) (.person 2) = .ok w'
        ∧ w.offboardingState (sampleEnv 130) (.person 2) = .ok v
        ∧ (v.takeStatementAccount (.person 2)).2 = none := by
  have hExecute : (performAll (fun _ _ => true) (silentGame ++ silentEnd)).any (fun w =>
          w.store.archivedPlayers.containsKey (.person 2)
            && (w.offboard (sampleEnv 130) (.person 2)).toOption.isSome
            && (w.offboardingState (sampleEnv 130) (.person 2)).toOption.any
              fun v => (v.takeStatementAccount (.person 2)).2.isNone)
        = true := by
    decide +kernel
  rcases exists_run_of_execute (fun _ _ _ _ _ => trivial) hExecute with ⟨w, hRun, hTest⟩
  simp only [Bool.and_eq_true] at hTest
  rcases hTest with ⟨⟨hArchived, hOffboard⟩, hLookup⟩
  cases hOk : w.offboard (sampleEnv 130) (.person 2) with
  | error e =>
    rw [hOk] at hOffboard
    cases hOffboard
  | ok w' =>
    cases hState : w.offboardingState (sampleEnv 130) (.person 2) with
    | error e =>
      rw [hState] at hLookup
      cases hLookup
    | ok v =>
      rw [hState] at hLookup
      exact ⟨w, w', v, hRun, hArchived, hOk, hState, Option.isNone_iff_eq_none.mp hLookup⟩

end World

end Individuality.Game
