import Individuality.Game.Effects
import Individuality.Game.Enrolment
import Individuality.Game.PlayDeposits
import Individuality.Game.Sample
import Individuality.Game.Statements

/-
  Over all runs of the game and the score pallet, the players
  agree with the participants, their statement accounts with
  the allowances, and their credibility with the deposits.

  Main declarations:
    * `World.players_agree`
    * `World.statement_allowances`
    * `World.deposits_held`
-/

namespace Individuality.Game

open Except (bind_eq_error bind_eq_ok)

variable {T : Config}

structure MembershipInvariant (kept : Prop) (w : World T) : Prop where
  enrolled : Enrolled w
  statements : Statements none w
  deposited : Deposited kept w

namespace MembershipInvariant

variable {kept : Prop} {w w' : World T} {env : Env T}

theorem genesis : MembershipInvariant kept (World.genesis : World T) :=
  ⟨Enrolled.genesis, Statements.genesis, Deposited.genesis⟩

theorem of_same (hOld : MembershipInvariant kept w) (hSame : SamePopulation w w') :
    MembershipInvariant kept w' :=
  ⟨hOld.enrolled.of_same hSame, hOld.statements.of_same hSame, hOld.deposited.of_same hSame⟩

--
-- Processing
--

theorem disposePlayer {who : T.Who} {player : Player} (hOld : MembershipInvariant kept w)
    (hDrops : kept → w.Droppable env) (hPlaying : w.playing who = some player.credibility)
    (disposition : PlayerDisposition) :
    MembershipInvariant kept (w.disposePlayer env who player disposition) := by
  rcases World.disposePlayer_cases hPlaying env disposition with
    hSame | ⟨ticket, hRecognizes⟩ | hArchives
  · exact hOld.of_same hSame
  · exact ⟨hOld.enrolled.recognizes hRecognizes, hOld.statements.recognizes hRecognizes,
        hOld.deposited.recognizes hDrops hRecognizes⟩
  · have hPlays : w.playing who ≠ none := by
      rw [hPlaying]
      exact Option.some_ne_none _
    exact ⟨hOld.enrolled.archives hPlays hArchives, hOld.statements.archives hPlays hArchives,
        hOld.deposited.stops hArchives.playing hArchives.deposits⟩

theorem processPlayerAttendanceOutcome {who : T.Who} {player : Player}
    (hOld : MembershipInvariant kept w) (hDrops : kept → w.Droppable env)
    (hGet : w.store.players.get who = some player) (game : GameInfo T.Who) :
    MembershipInvariant kept (w.processPlayerAttendanceOutcome env game who player) ∧ (kept →
        (w.processPlayerAttendanceOutcome env game who player).Droppable env) := by
  have hPlaying := World.playing_of_get hGet
  unfold World.processPlayerAttendanceOutcome
  cases player.earlyAttendanceEnactment with
  | some cached =>
    exact ⟨hOld.disposePlayer hDrops hPlaying _,
      fun hKept => (hDrops hKept).disposePlayer hPlaying _⟩
  | none =>
    have hPlays : w.playing who ≠ none := by
      rw [hPlaying]
      exact Option.some_ne_none _
    have hApplied : SamePopulation w (w.applyAttendance env who (finalAttendance player)
            player.registered game).1 :=
      SamePopulation.applyAttendance hPlays _ _ _
    have hPlaying' := (hApplied.playing who).trans hPlaying
    have hDrops' := fun hKept => (hDrops hKept).of_same hApplied
    exact ⟨(hOld.of_same hApplied).disposePlayer hDrops' hPlaying' _,
      fun hKept => (hDrops' hKept).disposePlayer hPlaying' _⟩

/- Any number of players is processed in one call. -/
theorem playerProcessStep1 (budget creditCapacity : Nat) (hOld : MembershipInvariant kept w)
    (hDrops : kept → w.Droppable env) :
    MembershipInvariant kept (World.playerProcessStep1 env budget creditCapacity w) := by
  induction budget generalizing w creditCapacity with
  | zero =>
    unfold World.playerProcessStep1
    split
    · exact hOld
    · split
      · split
        · exact hOld.of_same (SamePopulation.finishProcessing w)
        · split <;> first | exact hOld | contradiction
      · exact hOld
  | succ budget ih =>
    unfold World.playerProcessStep1
    split
    · exact hOld
    · split
      · split
        · exact hOld.of_same (SamePopulation.finishProcessing w)
        · split
          · rename_i hGet hBudget
            split
            · exact hOld
            · obtain rfl := Nat.succ.inj hBudget
              rcases hOld.processPlayerAttendanceOutcome hDrops hGet _ with ⟨hProcessed, hDrops'⟩
              exact ih _ (hProcessed.of_same (SamePopulation.setLastProcessed _ _ _)) fun hKept =>
                  (hDrops' hKept).of_same (SamePopulation.setLastProcessed _ _ _)
          · exact hOld
      · exact hOld

theorem processPlayers (hOld : MembershipInvariant kept w) (hDrops : kept → w.Droppable env)
    (budget : Nat) (indices : List (Nat × Nat)) (players : List T.Who) :
    MembershipInvariant kept (w.processPlayers env budget indices players) := by
  unfold World.processPlayers
  split
  · exact hOld
  · split
    · exact hOld.playerProcessStep1 budget env.creditCapacity hDrops
    · exact hOld.of_same (SamePopulation.playerProcessStep2 w indices players)
    · exact hOld

--
-- Signing Up
--

theorem signUpInner {args : World.SignUpArgs T} (hOld : MembershipInvariant kept w)
    (hSignUp : w.signUpInner env args = .ok w') :
    MembershipInvariant kept w' := by
  unfold World.signUpInner at hSignUp
  rw [bind_eq_ok] at hSignUp
  rcases hSignUp with ⟨game, _, hRest⟩
  cases args with
  | account who newInvited airdrops =>
    simp only [bind_eq_ok, ensure_eq_ok_iff, exists_const, Bool.not_eq_true] at hRest
    rcases hRest with ⟨hFree, hPlayer⟩
    have hSignsUp := World.signUpPlayer_spec hPlayer
    exact ⟨hOld.enrolled.signsUp hSignsUp, hOld.statements.signsUp_account
          (StorageMap.containsKey_eq_false_iff.mp hFree)
          hSignsUp,
        hOld.deposited.signsUp hSignsUp⟩
  | alias_ who statementAccount airdrops =>
    simp only [bind_eq_ok, ensure_eq_ok_iff, exists_const] at hRest
    rcases hRest with ⟨_, w₁, hSet, hPlayer⟩
    have hSame := SamePlayers.setStatementAccount hSet
    have hSignsUp := World.signUpPlayer_spec hPlayer
    exact ⟨(hOld.enrolled.of_samePlayers hSame).signsUp hSignsUp,
        (hOld.statements.setStatementAccount hSet).signsUp_person hSignsUp,
        (hOld.deposited.of_samePlayers hSame).signsUp hSignsUp⟩

--
-- Runs
--

theorem dispatch {call : Env T × Op T} (hOld : MembershipInvariant kept w)
    (hDrops : kept → w.Droppable call.1) (hDispatch : w.dispatch call = .ok w') :
    MembershipInvariant kept w' := by
  rcases call with ⟨env, op⟩
  cases gameEffect_of_dispatch hDispatch with
  | scheduled =>
    exact hOld.of_same (SamePopulation.of_store rfl rfl rfl rfl)
  | started => exact hOld.of_same (SamePopulation.startNextGame w)
  | signedUp _ _ w₁ _ hSignUp =>
    exact (hOld.signUpInner hSignUp).of_same (SamePopulation.of_store rfl rfl rfl rfl)
  | endedRegistration =>
    exact hOld.of_same (SamePopulation.endRegistrationInner w)
  | shuffled _ budget =>
    exact hOld.of_same (SamePopulation.shuffles w budget)
  | reported _ _ _ hReport =>
    exact hOld.of_same (SamePopulation.report hReport)
  | endedReporting =>
    exact hOld.of_same (SamePopulation.endReportingInner w)
  | processed _ budget indices players =>
    exact hOld.processPlayers hDrops budget indices players
  | cancelled game =>
    exact hOld.of_same (SamePopulation.setState w game _)
  | drained _ chunks =>
    exact hOld.of_same (SamePopulation.processCancelling chunks w)
  | offboarded _ _ hOffboard =>
    have hLeaves := World.offboard_spec hOffboard
    exact ⟨hOld.enrolled.leaves hLeaves, hOld.statements.leaves hLeaves,
        hOld.deposited.stops hLeaves.playing hLeaves.deposits⟩
  | kickedOut _ _ hKickout =>
    exact ⟨hOld.enrolled.kickout hKickout, hOld.statements.kickout hKickout,
        hOld.deposited.kickout hKickout⟩
  | scored _ _ hCall hScore =>
    rcases World.fromScore_eq_ok_iff.mp hScore with ⟨score, hOk, rfl⟩
    exact hOld.of_same (SamePopulation.of_score rfl rfl rfl
        (Score.SameParticipants.dispatch hCall hOk) rfl)
  | otherStarted | otherClosed =>
    exact hOld.of_same (SamePopulation.of_score rfl rfl rfl (Score.SameParticipants.refl _) rfl)

end MembershipInvariant

--
-- Players and Participants
--

namespace World

variable {w : World T} {env : Env T} {airdrops : Option AirdropVrfs}

/- Registering for airdrops does not fail in the score pallet. -/
theorem registerForAirdrop_ne_score {who : T.Who} {airdropsScheduled : Nat} (e : Score.Error) :
    w.registerForAirdrop env airdrops who airdropsScheduled ≠ .error (.score e) := by
  intro hError
  unfold registerForAirdrop at hError
  cases airdrops with
  | none => cases hError
  | some airdrops =>
    dsimp only at hError
    rw [bind_eq_error] at hError
    rcases hError with hShape | ⟨_, _, hRefused⟩
    · unfold checkAirdropShape at hShape
      rw [bind_eq_error, ensure_eq_error_iff] at hShape
      rcases hShape with ⟨_, hEq⟩ | ⟨_, _, hVariant⟩
      · cases hEq
      · cases airdrops with
        | account count =>
          simp only [bind_eq_error, ensure_eq_error_iff] at hVariant
          rcases hVariant with ⟨_, hEq⟩ | ⟨_, _, _, hEq⟩ <;> cases hEq
        | alias_ count =>
          rw [ensure_eq_error_iff] at hVariant
          cases hVariant.2
    · rw [ensure_eq_error_iff] at hRefused
      cases hRefused.2

/- Onboarding is the only part of a sign-up that could fail in the score pallet, and it does not. -/
theorem signUpPlayer_ne_score {game : GameInfo T.Who} {who : T.Who} {newInvited : Bool}
    (hEnrolled : Enrolled w) (e : Score.Error) :
    w.signUpPlayer env game who newInvited airdrops ≠ .error (.score e) := by
  intro hError
  unfold signUpPlayer at hError
  dsimp only at hError
  rw [bind_eq_error] at hError
  rcases hError with hCheck | ⟨maybePlayer, hCheck, hError⟩
  · unfold checkSignUpEligibility at hCheck
    simp only [bind_eq_error, ensure_eq_error_iff] at hCheck
    rcases hCheck with ⟨_, hEq⟩ | ⟨_, _, ⟨_, hEq⟩ | ⟨_, _, hEq⟩⟩ <;> cases hEq
  · obtain rfl := checkSignUpEligibility_spec hCheck
    rw [bind_eq_error] at hError
    rcases hError with hOnboard | ⟨w₂, _, hError⟩
    · unfold onboardIfNew at hOnboard
      split_ifs at hOnboard with hKnown
      rw [Bool.not_eq_true, Bool.or_eq_false_iff,
        Option.isSome_eq_false_iff, Option.isSome_eq_false_iff,
        Option.isNone_iff_eq_none, Option.isNone_iff_eq_none]
        at hKnown
      rcases hEnrolled.onboard_isOk (playing_eq_none_iff.mpr hKnown.2)
          (StorageMap.containsKey_eq_false_iff.mpr hKnown.1) with
        ⟨w', hOk⟩
      rcases onboard_spec hOk with ⟨score, rfl⟩
      -- the archive entry taken out does not matter to the pallet
      have hOk' : (w.withStore
            { w.store with
              archivedPlayers := w.store.archivedPlayers.remove who }).onboard who
            = .ok { w.withStore
                { w.store with
                  archivedPlayers := w.store.archivedPlayers.remove who } with
                score := score } :=
        onboard_of_score (v := w) rfl hOk
      rw [hOk'] at hOnboard
      cases hOnboard
    · rw [bind_eq_error] at hError
      rcases hError with hPlayed | ⟨played, _, hError⟩
      · unfold playCredibility at hPlayed
        split at hPlayed
        · cases hPlayed
        · split_ifs at hPlayed
          split at hPlayed
          · cases hPlayed
          · split at hPlayed <;> cases hPlayed
      · rw [bind_eq_error] at hError
        rcases hError with hAirdrop | ⟨_, _, hDone⟩
        · exact registerForAirdrop_ne_score e hAirdrop
        · cases hDone

theorem signUpInner_ne_score {args : SignUpArgs T} (hEnrolled : Enrolled w) (e : Score.Error) :
    w.signUpInner env args ≠ .error (.score e) := by
  intro hError
  unfold signUpInner at hError
  rw [bind_eq_error] at hError
  rcases hError with hOpen | ⟨game, _, hError⟩
  · unfold requireOpenGame at hOpen
    simp only [bind_eq_error, okOr_eq_error_iff, ensure_eq_error_iff] at hOpen
    rcases hOpen with ⟨_, hEq⟩ | ⟨_, _, ⟨_, hEq⟩ | ⟨_, _, ⟨_, hEq⟩ | ⟨_, _, hEq⟩⟩⟩ <;> cases hEq
  · cases args with
    | account who newInvited airdrops =>
      dsimp only at hError
      rw [bind_eq_error, ensure_eq_error_iff] at hError
      rcases hError with ⟨_, hEq⟩ | ⟨_, _, hPlayer⟩
      · cases hEq
      · exact signUpPlayer_ne_score hEnrolled e hPlayer
    | alias_ who statementAccount airdrops =>
      dsimp only at hError
      rw [bind_eq_error, ensure_eq_error_iff] at hError
      rcases hError with ⟨_, hEq⟩ | ⟨_, _, hError⟩
      · cases hEq
      · rw [bind_eq_error] at hError
        rcases hError with hSet | ⟨w₁, hSet, hPlayer⟩
        · unfold setStatementAccount at hSet
          split_ifs at hSet
          rw [bind_eq_error, ensure_eq_error_iff] at hSet
          rcases hSet with ⟨_, hEq⟩ | ⟨_, _, hDone⟩
          · cases hEq
          · cases hDone
        · exact signUpPlayer_ne_score (hEnrolled.of_samePlayers
              (SamePlayers.setStatementAccount hSet)) e hPlayer

theorem membershipInvariant (w : World T) (hRun : RunUnder dispatch (fun _ _ _ => True) genesis w) :
    MembershipInvariant False w :=
  hRun.invariant (MembershipInvariant False)
    (fun _ _ _ _ hDispatch hOld => hOld.dispatch False.elim hDispatch)
    MembershipInvariant.genesis

/-
  Whoever participates is in exactly one of the two maps of the game, and whoever is in one of them
  participates.  No attendance fails to be set, and no sign-up fails in the score pallet.  The
  references of an account are the link to a personal id and, while it participates, one more.
-/
theorem players_agree (w : World T) (hRun : RunUnder dispatch (fun _ _ _ => True) genesis w) :
    (∀ who, w.store.players.containsKey who = true →
          w.store.archivedPlayers.containsKey who = false)
      ∧ (∀ who, w.score.score.participants.containsKey who = (w.store.players.containsKey who
          || w.store.archivedPlayers.containsKey who))
      ∧ (∀ call ∈ w.attendanceLog, call.isOk = true)
      ∧ (∀ env args e, w.signUpInner env args ≠ .error (.score e))
      ∧ ∀ account, w.score.people.sufficients.getD account 0
          = (if w.score.people.accountToPersonalId.containsKey
                account then 1 else 0)
            + (if w.score.score.participants.containsKey
                (.account account) then 1 else 0) := by
  have hEnrolled := (membershipInvariant w hRun).enrolled
  have hPlays : ∀ who, w.store.players.containsKey who = true ↔ w.playing who ≠ none := by
    intro who
    unfold StorageMap.containsKey playing
    rw [Option.isSome_iff_ne_none, ne_eq, ne_eq, Option.map_eq_none_iff]
  refine ⟨?_, ?_, hEnrolled.attendanceOk, ?_, ?_⟩
  · intro who hPlayer
    exact hEnrolled.exclusive who ((hPlays who).mp hPlayer)
  · intro who
    rw [Bool.eq_iff_iff, Bool.or_eq_true, hPlays]
    exact hEnrolled.participates who
  · intro env args e
    exact signUpInner_ne_score hEnrolled e
  · exact hEnrolled.references.count

/- Of three players one leaves after a cancelled game. -/
theorem players_agree_sample : ∃ w : World sampleConfig,
      RunUnder dispatch (fun _ _ _ => True) genesis w
        ∧ w.store.players.containsKey (.account 1) = true
        ∧ w.store.players.containsKey (.account 3) = false
        ∧ w.store.archivedPlayers.containsKey (.account 1) = false := by
  have hExecute : (performAll (fun _ _ => true) [(10, .scheduleGames [sampleSchedule]),
          (20, .startGame),
          (30, .signUpWithAccount 1 none),
          (31, .signUpWithAlias 2 7 none),
          (32, .signUpWithAccount 3 none),
          (40, .cancelGame),
          (50, .advanceCancelling 1 (List.replicate 5 ([], []))),
          (60, .offboard (.account 3))]).any
        (fun w =>
          decide (w.store.players.containsKey (.account 1) = true
              ∧ w.store.players.containsKey (.account 3) = false)) = true := by
    decide +kernel
  rcases exists_run_of_execute (fun _ _ _ _ _ => trivial) hExecute with ⟨w, hRun, hTest⟩
  rw [decide_eq_true_eq] at hTest
  exact ⟨w, hRun, hTest.1, hTest.2, (players_agree w hRun).1 _ hTest.1⟩

--
-- Statement Accounts
--

/-
  The maps of statement accounts are mutually inverse, an alias has one exactly while it plays, no
  statement account is a player, and the allowance is that of one player or nothing.
-/
theorem statement_allowances (w : World T)
    (hRun : RunUnder dispatch (fun _ _ _ => True) genesis w) :
    (∀ alias_ account, w.store.aliasToStmtAccount.get alias_ = some account
          ↔ w.store.stmtAccountToAlias.get account = some alias_)
      ∧ (∀ alias_, w.store.aliasToStmtAccount.containsKey alias_
          = w.store.players.containsKey (.person alias_))
      ∧ (∀ account, w.store.stmtAccountToAlias.containsKey account = true →
          w.store.players.containsKey (.account account) = false
            ∧ w.store.archivedPlayers.containsKey (.account account) = false)
      ∧ ∀ account, w.allowances.getD account .zero =
          if
            w.store.players.containsKey (.account account)
              || (w.store.stmtAccountToAlias.get account).any fun alias_ =>
                  w.store.players.containsKey (.person alias_)
          then
            T.playerStatementLimit
          else
            .zero := by
  have hStatements := (membershipInvariant w hRun).statements
  have hSome : ∀ who, w.store.players.containsKey who = (w.playing who).isSome := by
    intro who
    unfold StorageMap.containsKey playing
    rw [Option.isSome_map]
  have hAlias : ∀ alias_, w.store.aliasToStmtAccount.containsKey alias_
          = w.store.players.containsKey (.person alias_) := by
    intro alias_
    unfold StorageMap.containsKey
    rw [Bool.eq_iff_iff, Option.isSome_iff_ne_none, hStatements.alias_iff]
    change _ ↔ w.store.players.containsKey (.person alias_) = true
    rw [hSome, Option.isSome_iff_ne_none]
    simp
  refine ⟨hStatements.inverse, hAlias, ?_, ?_⟩
  · intro account hStmt
    have hApart := hStatements.apart account (Option.isSome_iff_ne_none.mp hStmt)
    rw [hSome, hApart.1]
    exact ⟨rfl, hApart.2⟩
  · intro account
    rw [hStatements.allowance]
    unfold usesStatements
    rw [hSome]
    unfold StorageMap.containsKey
    -- the alias of a statement account plays
    have hAny : ((w.store.stmtAccountToAlias.get account).any fun alias_ =>
            (w.store.players.get (.person alias_)).isSome)
          = (w.store.stmtAccountToAlias.get account).isSome := by
      cases hGet : w.store.stmtAccountToAlias.get account with
      | none => rfl
      | some alias_ =>
        have hPlays := hAlias alias_
        unfold StorageMap.containsKey at hPlays
        rw [(hStatements.inverse _ _).mpr hGet] at hPlays
        exact hPlays.symm
    rw [hAny]

/- An alias plays with the statement account 7. -/
theorem statement_allowances_sample : ∃ w : World sampleConfig,
      RunUnder dispatch (fun _ _ _ => True) genesis w ∧ w.allowances.getD 7 .zero = ⟨10, 100⟩
        ∧ w.store.aliasToStmtAccount.get 2 = some 7
        ∧ w.store.stmtAccountToAlias.get 7 = some 2 := by
  have hExecute : (performAll (fun _ _ => true) [(10, .scheduleGames [sampleSchedule,
              { sampleSchedule with gamePlayTime := 200 }]),
          (20, .startGame),
          (30, .signUpWithAlias 2 8 none),
          (31, .signUpWithAccount 1 none),
          (40, .cancelGame),
          (50, .advanceCancelling 1 (List.replicate 4 ([], []))),
          (60, .startGame),
          (70, .signUpWithAlias 2 7 none)]).any
        (fun w =>
          decide (w.allowances.getD 7 .zero = ⟨10, 100⟩
              ∧ w.store.aliasToStmtAccount.get 2 = some 7)) = true := by
    decide +kernel
  rcases exists_run_of_execute (fun _ _ _ _ _ => trivial) hExecute with ⟨w, hRun, hTest⟩
  rw [decide_eq_true_eq] at hTest
  exact ⟨w, hRun, hTest.1, hTest.2, ((statement_allowances w hRun).1 2 7).mp hTest.2⟩

--
-- Deposits
--

/- A ticket that was created for an account, and not dropped or burned since, can be dropped. -/
def DropsDeposits (w : World T) (call : Env T × Op T) (_ : World T) : Prop :=
  ∀ account ticket, 0 < w.deposits.outstanding account ticket →
    call.1.dropDeposit account ticket = true

/-
  Where outstanding tickets can be dropped, those of an account are the one that it plays with.  No
  ticket is ever dropped or burned that was not created, none twice, and no alias plays with one.
-/
theorem deposits_held :
    (∀ w : World T, RunUnder dispatch (fun _ _ _ => True) genesis w →
        (∀ account ticket, w.deposits.settled.count (account, ticket)
            ≤ w.deposits.created.count (account, ticket))
          ∧ ∀ alias_ player ticket, w.store.players.get (.person alias_) = some player →
              player.credibility ≠ .deposit ticket)
      ∧ ∀ w : World T, RunUnder dispatch DropsDeposits genesis w →
        ∀ account ticket, w.deposits.outstanding account ticket =
          if
            (w.store.players.get (.account account)).any fun player =>
              player.credibility = .deposit ticket
          then 1 else 0 := by
  constructor
  · intro w hRun
    have hDeposited := (membershipInvariant w hRun).deposited
    refine ⟨fun account ticket => ?_, fun alias_ player ticket hGet hDeposit => ?_⟩
    · rcases hDeposited.count account ticket with ⟨lost, hCount, _⟩
      omega
    · apply hDeposited.person alias_ ticket
      rw [playing_of_get hGet, hDeposit]
  · intro w hRun account ticket
    have hInv : MembershipInvariant True w := by
      refine hRun.invariant (MembershipInvariant True) ?_ MembershipInvariant.genesis
      intro w call w' hDrops hDispatch hOld
      refine hOld.dispatch (fun _ account ticket hHolds => ?_) hDispatch
      exact hDrops account ticket (hOld.deposited.outstanding_pos hHolds)
    rcases hInv.deposited.count account ticket with ⟨lost, hCount, hNone⟩
    have hHeld : w.playing (.account account) = some (.deposit ticket)
        ↔ ((w.store.players.get (.account account)).any fun player =>
            player.credibility = .deposit ticket) = true := by
      unfold playing
      cases w.store.players.get (.account account) <;> simp
    unfold heldTickets at hCount
    unfold DepositLog.outstanding
    rw [hCount, hNone trivial, if_congr hHeld rfl rfl]
    omega

/- Whatever ticket was created can be dropped. -/
def dropsDeposits (w : World sampleConfig) (call : Env sampleConfig × Op sampleConfig) : Bool :=
  w.deposits.created.all fun entry => call.1.dropDeposit entry.1 entry.2

theorem dropsDeposits_spec (w : World sampleConfig) (call : Env sampleConfig × Op sampleConfig)
    (w' : World sampleConfig) (hCheck : dropsDeposits w call = true) :
    DropsDeposits w call w' := by
  intro account ticket hPos
  refine List.all_eq_true.mp hCheck (account, ticket) ?_
  rw [← List.count_pos_iff]
  unfold DepositLog.outstanding at hPos
  omega

/- One of two tickets is given back. -/
theorem deposits_held_sample : ∃ w : World sampleConfig,
      RunUnder dispatch DropsDeposits genesis w ∧ w.deposits.created = [(3, 2), (1, 2)]
        ∧ w.deposits.settled = [(3, 2)]
        ∧ (w.store.players.get (.account 1)).any fun player =>
            player.credibility = .deposit 2 := by
  have hExecute : (performAll dropsDeposits [(10, .scheduleGames [sampleSchedule]),
          (20, .startGame),
          (30, .signUpWithAccount 1 none),
          (31, .signUpWithAccount 3 none),
          (40, .cancelGame),
          (50, .advanceCancelling 1 (List.replicate 4 ([], []))),
          (60, .offboard (.account 3))]).any
        (fun w =>
          decide (w.deposits.created = [(3, 2), (1, 2)]
              ∧ w.deposits.settled = [(3, 2)])) = true := by
    decide +kernel
  rcases exists_run_of_execute
      (fun w call w' hCheck _ => dropsDeposits_spec w call w' hCheck) hExecute with
    ⟨w, hRun, hTest⟩
  rw [decide_eq_true_eq] at hTest
  refine ⟨w, hRun, hTest.1, hTest.2, ?_⟩
  have hHeld := deposits_held.2 w hRun 1 2
  unfold DepositLog.outstanding at hHeld
  rw [hTest.1, hTest.2] at hHeld
  by_contra hNot
  rw [if_neg hNot] at hHeld
  exact absurd hHeld (by decide)

end World

end Individuality.Game
