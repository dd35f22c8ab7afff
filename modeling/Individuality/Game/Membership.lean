import Individuality.Game.Population

/-
  What signing up, leaving and the processing of a player do to the population.

  Main declaration: `SamePlayers`
-/

namespace Individuality.Game

open Except (bind_eq_ok pure_eq_ok)
open StorageMap (get_insert get_remove)

variable {T : Config} {who : T.Who} {v : World T} {player : Player}

--
-- Statement Accounts
--

/- Only statement accounts and allowances have changed. -/
structure SamePlayers (w w' : World T) : Prop where
  players : w'.store.players = w.store.players
  archivedPlayers : w'.store.archivedPlayers = w.store.archivedPlayers
  score : w'.score = w.score
  deposits : w'.deposits = w.deposits
  attendanceLog : w'.attendanceLog = w.attendanceLog

namespace SamePlayers

variable {w w' w'' : World T}

theorem refl (w : World T) : SamePlayers w w :=
  ⟨rfl, rfl, rfl, rfl, rfl⟩

theorem trans (hFirst : SamePlayers w w') (hSecond : SamePlayers w' w'') :
    SamePlayers w w'' where
  players := hSecond.players.trans hFirst.players
  archivedPlayers := hSecond.archivedPlayers.trans hFirst.archivedPlayers
  score := hSecond.score.trans hFirst.score
  deposits := hSecond.deposits.trans hFirst.deposits
  attendanceLog := hSecond.attendanceLog.trans hFirst.attendanceLog

theorem playing (hSame : SamePlayers w w') (who : T.Who) :
    w'.playing who = w.playing who := by
  unfold World.playing
  rw [hSame.players]

theorem archived (hSame : SamePlayers w w') (who : T.Who) :
    w'.archived who = w.archived who := by
  unfold World.archived
  rw [hSame.archivedPlayers]

theorem releaseStatementAccount (w : World T) (alias_ : T.Alias) :
    SamePlayers w (w.releaseStatementAccount alias_) := by
  unfold World.releaseStatementAccount
  cases w.store.aliasToStmtAccount.get alias_ <;>
    exact ⟨rfl, rfl, rfl, rfl, rfl⟩

theorem setStatementAccount {alias_ : T.Alias} {account : T.Account}
    (hSet : w.setStatementAccount alias_ account = .ok w') :
    SamePlayers w w' := by
  unfold World.setStatementAccount at hSet
  split_ifs at hSet
  · obtain rfl := Except.ok.inj hSet
    exact refl w
  · simp only [bind_eq_ok, ensure_eq_ok_iff, exists_const, pure_eq_ok] at hSet
    rcases hSet with ⟨_, rfl⟩
    exact (releaseStatementAccount w alias_).trans ⟨rfl, rfl, rfl, rfl, rfl⟩

theorem takeStatementAccount (w : World T) (who : T.Who) :
    SamePlayers w (w.takeStatementAccount who).1 := by
  unfold World.takeStatementAccount
  cases who with
  | account account => exact refl w
  | person alias_ =>
    dsimp only
    cases w.store.aliasToStmtAccount.get alias_ <;>
      exact ⟨rfl, rfl, rfl, rfl, rfl⟩

theorem revokeAllowance (w : World T) (who : T.Who) :
    SamePlayers w (w.revokeAllowance who) := by
  have hTaken := takeStatementAccount w who
  unfold World.revokeAllowance
  dsimp only
  cases (w.takeStatementAccount who).2 with
  | none => exact hTaken
  | some stmtAccount =>
    exact hTaken.trans ⟨rfl, rfl, rfl, rfl, rfl⟩

end SamePlayers

/- Statement accounts and allowances are the same. -/
structure SameStatements (w w' : World T) : Prop where
  aliasToStmtAccount : w'.store.aliasToStmtAccount = w.store.aliasToStmtAccount
  stmtAccountToAlias : w'.store.stmtAccountToAlias = w.store.stmtAccountToAlias
  allowances : w'.allowances = w.allowances

namespace SameStatements

variable {w w' : World T}

/- What is taken depends on statement accounts only. -/
theorem takeStatementAccount_snd (hSame : SameStatements w w') (who : T.Who) :
    (w'.takeStatementAccount who).2 = (w.takeStatementAccount who).2 := by
  unfold World.takeStatementAccount
  cases who with
  | account account => rfl
  | person alias_ =>
    dsimp only
    rw [hSame.aliasToStmtAccount]
    cases w.store.aliasToStmtAccount.get alias_ <;> rfl

theorem takeStatementAccount (hSame : SameStatements w w') (who : T.Who) :
    SameStatements (w.takeStatementAccount who).1 (w'.takeStatementAccount who).1 := by
  unfold World.takeStatementAccount
  cases who with
  | account account => exact hSame
  | person alias_ =>
    dsimp only
    rw [hSame.aliasToStmtAccount]
    cases w.store.aliasToStmtAccount.get alias_ with
    | none => exact hSame
    | some stmtAccount =>
      exact ⟨rfl, congrArg (StorageMap.remove · stmtAccount) hSame.stmtAccountToAlias,
          hSame.allowances⟩

/- Revoking reads and writes statement accounts and allowances only. -/
theorem revokeAllowance (hSame : SameStatements w w') (who : T.Who) :
    SameStatements (w.revokeAllowance who) (w'.revokeAllowance who) := by
  have hTaken := hSame.takeStatementAccount who
  unfold World.revokeAllowance
  dsimp only
  rw [hSame.takeStatementAccount_snd who]
  cases (w.takeStatementAccount who).2 with
  | none => exact hTaken
  | some stmtAccount =>
    refine ⟨hTaken.aliasToStmtAccount, hTaken.stmtAccountToAlias, ?_⟩
    dsimp only [World.decreaseAllowanceBy]
    rw [hTaken.allowances]

end SameStatements

--
-- Signing Up
--

/- The deposits after an identity gets its credibility. -/
inductive Credited (w : World T) (who : T.Who)
    (credibility : PlayerCredibility) : DepositLog T.Account → Prop
  | kept
      (hPlaying : w.playing who = some credibility) :
      Credited w who credibility w.deposits
  | free (hNew : w.playing who = none) (hFree : ∀ ticket, credibility ≠ .deposit ticket) :
      Credited w who credibility w.deposits
  | paid (account : T.Account) (ticket : Nat) (hNew : w.playing who = none)
      (hWho : who = .account account) (hPaid : credibility = .deposit ticket) :
      Credited w who credibility (w.deposits.create account ticket)

/- The score pallet after an identity has signed up. -/
inductive Onboarded (w : World T) (who : T.Who) : Score.World T.toConfig → Prop
  | known
      (hKnown : w.playing who ≠ none ∨ w.archived who = true) :
      Onboarded w who w.score
  | new (w' : World T) (hPlaying : w.playing who = none) (hArchived : w.archived who = false)
      (hOnboard : w.onboard who = .ok w') :
      Onboarded w who w'.score

/- What the sign-up of an identity changes. -/
structure SignsUp (w w' : World T) (who : T.Who) : Prop where
  credited : ∃ credibility,
      Credited w who credibility w'.deposits
        ∧ ∀ who',
            w'.playing who' =
              if who' = who then some credibility
              else w.playing who'
  archived : ∀ who',
      w'.archived who' =
        if who' = who then false else w.archived who'
  statements : SameStatements
      (w.grantAllowance who (w.playing who).isSome) w'
  onboarded : Onboarded w who w'.score
  attendanceLog : w'.attendanceLog = w.attendanceLog

namespace World

variable {w w' : World T} {env : Env T}

theorem fromScore_eq_ok_iff {result : Except Score.Error (Score.World T.toConfig)} :
    w.fromScore result = .ok w' ↔ ∃ score, result = .ok score ∧ w' = { w with score := score } := by
  unfold fromScore
  cases result with
  | ok score => simp [eq_comm]
  | error e => simp

theorem onboard_spec (hOnboard : w.onboard who = .ok w') :
    ∃ score, w' = { w with score := score } := by
  unfold onboard at hOnboard
  cases who with
  | account account =>
    rcases fromScore_eq_ok_iff.mp hOnboard with ⟨score, _, rfl⟩
    exact ⟨score, rfl⟩
  | person alias_ =>
    rcases fromScore_eq_ok_iff.mp hOnboard with ⟨score, _, rfl⟩
    exact ⟨score, rfl⟩

/- Onboarding reads nothing but the score pallet. -/
theorem onboard_of_score {score : Score.World T.toConfig} (hSame : v.score = w.score)
    (hOnboard : v.onboard who = .ok { v with score := score }) :
    w.onboard who = .ok { w with score := score } := by
  unfold onboard at hOnboard ⊢
  cases who with
  | account account =>
    rcases fromScore_eq_ok_iff.mp hOnboard with ⟨score', hOk, hEq⟩
    have hScore : score = score' := congrArg World.score hEq
    rw [hSame] at hOk
    exact fromScore_eq_ok_iff.mpr ⟨score, hScore ▸ hOk, rfl⟩
  | person alias_ =>
    rcases fromScore_eq_ok_iff.mp hOnboard with ⟨score', hOk, hEq⟩
    have hScore : score = score' := congrArg World.score hEq
    rw [hSame] at hOk
    exact fromScore_eq_ok_iff.mpr ⟨score, hScore ▸ hOk, rfl⟩

theorem checkSignUpEligibility_spec {kind : SignUpKind} {maybePlayer : Option Player}
    (hCheck : w.checkSignUpEligibility who kind = .ok maybePlayer) :
    maybePlayer = w.store.players.get who := by
  unfold checkSignUpEligibility at hCheck
  simp only [bind_eq_ok, ensure_eq_ok_iff, exists_const, pure_eq_ok] at hCheck
  exact hCheck.2.2.symm

variable {game : GameInfo T.Who}

/- Where the credibility of a player comes from. -/
theorem playCredibility_spec {maybeArchived : Option ArchivedPlayer} {newInvited : Bool}
    {played : (Nat × PlayerCredibility) × World T}
    (hPlayed : w.playCredibility env game who (w.store.players.get who)
        maybeArchived newInvited = .ok played) :
    Credited w who played.1.2 played.2.deposits
      ∧ played.2 = { w with deposits := played.2.deposits } := by
  unfold playCredibility at hPlayed
  cases hGet : w.store.players.get who with
  | some player =>
    rw [hGet] at hPlayed
    obtain rfl := Except.ok.inj hPlayed
    exact ⟨.kept (playing_of_get hGet), rfl⟩
  | none =>
    have hNew : w.playing who = none := playing_eq_none_iff.mpr hGet
    rw [hGet] at hPlayed
    dsimp only at hPlayed
    cases newInvited with
    | true =>
      obtain rfl := Except.ok.inj hPlayed
      refine ⟨.free hNew ?_, rfl⟩
      intro ticket hEq
      cases hEq
    | false =>
      cases who with
      | person alias_ =>
        obtain rfl := Except.ok.inj hPlayed
        refine ⟨.free hNew ?_, rfl⟩
        intro ticket hEq
        cases hEq
      | account account =>
        simp only [Bool.false_eq_true, if_false] at hPlayed
        cases hTicket : env.newDeposit account with
        | none =>
          rw [hTicket] at hPlayed
          cases hPlayed
        | some ticket =>
          rw [hTicket] at hPlayed
          obtain rfl := Except.ok.inj hPlayed
          exact ⟨.paid account ticket hNew rfl rfl, rfl⟩

theorem grantAllowance_same (w : World T) (who : T.Who) (alreadyPlaying : Bool) :
    SamePlayers w (w.grantAllowance who alreadyPlaying) := by
  unfold grantAllowance
  cases who with
  | account account =>
    dsimp only
    split_ifs
    · exact SamePlayers.refl w
    · exact ⟨rfl, rfl, rfl, rfl, rfl⟩
  | person alias_ => exact SamePlayers.refl w

/- The allowance is granted whatever else has changed. -/
theorem grantAllowance_statements (hSame : SameStatements w v) (who : T.Who)
    (alreadyPlaying : Bool) :
    SameStatements (w.grantAllowance who alreadyPlaying) (v.grantAllowance who alreadyPlaying) := by
  unfold grantAllowance
  cases who with
  | person alias_ => exact hSame
  | account account =>
    dsimp only
    split_ifs
    · exact hSame
    · refine ⟨hSame.aliasToStmtAccount, hSame.stmtAccountToAlias, ?_⟩
      dsimp only [increaseAllowanceBy]
      rw [hSame.allowances]

theorem signUpPlayer_spec {newInvited : Bool} {airdrops : Option AirdropVrfs}
    (hSignUp : w.signUpPlayer env game who newInvited airdrops = .ok w') :
    SignsUp w w' who := by
  unfold signUpPlayer at hSignUp
  simp only [bind_eq_ok, pure_eq_ok] at hSignUp
  rcases hSignUp with ⟨maybePlayer, hCheck, w₂, hOnboard, played, hPlayed, _, _, rfl⟩
  obtain rfl := checkSignUpEligibility_spec hCheck
  -- `w₁` is the world in which the archived record is taken
  generalize hTaken : w.withStore
      { w.store with
        archivedPlayers := w.store.archivedPlayers.remove who }
      = w₁ at hOnboard
  have hPlaying₁ : ∀ who', w₁.playing who' = w.playing who' := by
    intro who'
    rw [← hTaken]
    rfl
  have hScore : ∃ score, w₂ = { w₁ with score := score } ∧ Onboarded w who score := by
    unfold onboardIfNew at hOnboard
    by_cases hKnown : ((w.store.archivedPlayers.get who).isSome
        || (w.store.players.get who).isSome) = true
    · rw [if_pos hKnown] at hOnboard
      obtain rfl := Except.ok.inj hOnboard
      refine ⟨w₁.score, rfl, ?_⟩
      rw [← hTaken]
      apply Onboarded.known
      rw [Bool.or_eq_true] at hKnown
      rcases hKnown with hArchived | hPlays
      · exact Or.inr hArchived
      · refine Or.inl fun hNone => ?_
        rw [playing_eq_none_iff.mp hNone] at hPlays
        cases hPlays
    · rw [if_neg hKnown] at hOnboard
      rcases onboard_spec hOnboard with ⟨score, rfl⟩
      rw [Bool.or_eq_true, not_or, Bool.not_eq_true, Bool.not_eq_true, Option.isSome_eq_false_iff,
        Option.isSome_eq_false_iff, Option.isNone_iff_eq_none,
        Option.isNone_iff_eq_none] at hKnown
      refine ⟨score, rfl, ?_⟩
      refine .new { w with score := score } (playing_eq_none_iff.mpr hKnown.2)
          (StorageMap.containsKey_eq_false_iff.mpr hKnown.1)
          (onboard_of_score ?_ hOnboard)
      rw [← hTaken]
      rfl
  rcases hScore with ⟨score, rfl, hOnboarded⟩
  have hMaybe : ({ w₁ with score := score } : World T).store.players.get who
        = w.store.players.get who := by
    rw [← hTaken]
    rfl
  rw [← hMaybe] at hPlayed
  rcases playCredibility_spec hPlayed with ⟨hCredited, hSame⟩
  rcases played with ⟨⟨firstGame, credibility⟩, w₃⟩
  dsimp only at hCredited hSame
  -- nothing but the deposits has changed since the onboarding
  have hGranted := (w₃.setPlayer who
      { firstGame := firstGame
        registered := true
        credibility := credibility }).grantAllowance_same who (w.store.players.get who).isSome
  refine ⟨⟨credibility, ?_, ?_⟩, ?_, ?_, ?_, ?_⟩
  · have hDeposits : ∀ deposits, Credited ({ w₁ with score := score } : World T) who
              credibility deposits →
            Credited w who credibility deposits := by
      intro deposits hCredited
      have hDep : w₁.deposits = w.deposits := by
        rw [← hTaken]
        rfl
      cases hCredited with
      | kept hPlaying =>
        dsimp only
        rw [hDep]
        exact .kept ((hPlaying₁ who).symm.trans hPlaying)
      | free hNew hFree =>
        dsimp only
        rw [hDep]
        exact .free ((hPlaying₁ who).symm.trans hNew) hFree
      | paid account ticket hNew hWho hPaid =>
        dsimp only
        rw [hDep]
        exact .paid account ticket ((hPlaying₁ who).symm.trans hNew) hWho hPaid
    exact Eq.subst (motive := fun deposits =>
        Credited w who credibility deposits)
        hGranted.deposits.symm (hDeposits _ hCredited)
  · intro who'
    have hStore : w₃.store = w₁.store := by rw [hSame]
    change (World.playing _ who') = _
    have hGrantedPlaying := hGranted.playing who'
    refine Eq.trans ?_ (hGrantedPlaying.trans ?_)
    · rfl
    · unfold World.playing setPlayer withStore
      dsimp only
      rw [get_insert]
      by_cases hWho : who' = who
      · rw [if_pos hWho, if_pos hWho]
        rfl
      · rw [if_neg hWho, if_neg hWho, hStore]
        exact hPlaying₁ who'
  · intro who'
    have hArchived := hGranted.archived who'
    refine Eq.trans ?_ (hArchived.trans ?_)
    · rfl
    · have hStore : w₃.store = w₁.store := by rw [hSame]
      change w₃.store.archivedPlayers.containsKey who' = _
      rw [hStore, ← hTaken]
      unfold World.archived StorageMap.containsKey
      dsimp only [withStore]
      rw [get_remove]
      by_cases hWho : who' = who
      · rw [if_pos hWho, if_pos hWho]
        rfl
      · rw [if_neg hWho, if_neg hWho]
  · have hBefore : SameStatements w (w₃.setPlayer who
            { firstGame := firstGame
              registered := true
              credibility := credibility }) := by
      have hStore : w₃.store = w₁.store := by rw [hSame]
      have hAllow : w₃.allowances = w₁.allowances := by rw [hSame]
      refine ⟨?_, ?_, ?_⟩
      · change w₃.store.aliasToStmtAccount = _
        rw [hStore, ← hTaken]
        rfl
      · change w₃.store.stmtAccountToAlias = _
        rw [hStore, ← hTaken]
        rfl
      · change w₃.allowances = _
        rw [hAllow, ← hTaken]
        rfl
    have hSome : (w.playing who).isSome = (w.store.players.get who).isSome := by
      unfold World.playing
      exact Option.isSome_map ..
    rw [hSome]
    have hAfter := grantAllowance_statements hBefore who (w.store.players.get who).isSome
    exact ⟨hAfter.aliasToStmtAccount, hAfter.stmtAccountToAlias, hAfter.allowances⟩
  · have hFinal : w₃.score = score := by rw [hSame]
    change Onboarded w who (World.score _)
    have hGrantedScore := hGranted.score
    have hEq : ((w₃.setPlayer who
          { firstGame := firstGame
            registered := true
            credibility := credibility }).grantAllowance who
              (w.store.players.get who).isSome).score = score := by
      rw [hGrantedScore]
      exact hFinal
    have hGoal : Onboarded w who ((w₃.setPlayer who
          { firstGame := firstGame
            registered := true
            credibility := credibility }).grantAllowance who
              (w.store.players.get who).isSome).score := by
      rw [hEq]
      exact hOnboarded
    exact hGoal
  · have hLog : w₃.attendanceLog = w₁.attendanceLog := by
      rw [hSame]
    refine Eq.trans ?_ (hGranted.attendanceLog.trans ?_)
    · rfl
    · change w₃.attendanceLog = _
      rw [hLog, ← hTaken]
      rfl

--
-- Processing a Player
--

end World

/- The deposits after the ticket of an identity is given up. -/
def settledDeposits (deposits : DepositLog T.Account) (who : T.Who)
    (credibility : Option PlayerCredibility) :
    DepositLog T.Account :=
  match credibility, who with
  | some (.deposit ticket), .account account =>
    deposits.settle account ticket
  | _, _ => deposits

/- A player becomes an archived player. -/
structure Archives (w w' : World T) (who : T.Who) : Prop where
  playing : ∀ who',
      w'.playing who' =
        if who' = who then none else w.playing who'
  archived : ∀ who', w'.archived who' = (decide (who' = who) || w.archived who')
  statements : SameStatements (w.revokeAllowance who) w'
  deposits : w'.deposits = settledDeposits w.deposits who (w.playing who)
  score : w'.score = w.score
  attendanceLog : w'.attendanceLog = w.attendanceLog

/- A player that has reached personhood is recognized. -/
structure Recognizes (env : Env T) (w w' : World T) (who : T.Who) (ticket : Nat) : Prop where
  before : w.playing who = some (.deposit ticket)
  playing : ∀ who',
      w'.playing who' =
        if who' = who then some .recognized else w.playing who'
  archivedPlayers : w'.store.archivedPlayers = w.store.archivedPlayers
  statements : SameStatements w w'
  deposits : ∀ account,
      who = .account account →
        w'.deposits =
          if env.dropDeposit account ticket then
            w.deposits.settle account ticket
          else w.deposits
  score : w'.score = w.score
  attendanceLog : w'.attendanceLog = w.attendanceLog

namespace World

theorem playing_remove (w : World T) (who who' : T.Who) :
    ((w.store.players.remove who).get who').map Player.credibility
      = if who' = who then none else w.playing who' := by
  rw [get_remove]
  by_cases hWho : who' = who
  · rw [if_pos hWho, if_pos hWho]
    rfl
  · rw [if_neg hWho, if_neg hWho]
    rfl

theorem archivePlayer_spec {w : World T} (hPlaying : w.playing who = some player.credibility)
    (archived : ArchivedPlayer) :
    Archives w (w.archivePlayer who player archived) who := by
  have hBurned : SameStatements w (w.burnDeposit who player.credibility)
        ∧ (w.burnDeposit who player.credibility).store = w.store
        ∧ (w.burnDeposit who player.credibility).score = w.score
        ∧ (w.burnDeposit who player.credibility).attendanceLog = w.attendanceLog
        ∧ (w.burnDeposit who player.credibility).deposits
          = settledDeposits w.deposits who (w.playing who) := by
    unfold burnDeposit settledDeposits
    rw [hPlaying]
    cases player.credibility with
    | deposit ticket =>
      cases who <;> exact ⟨⟨rfl, rfl, rfl⟩, rfl, rfl, rfl, rfl⟩
    | _ => exact ⟨⟨rfl, rfl, rfl⟩, rfl, rfl, rfl, rfl⟩
  rcases hBurned with ⟨hStatements, hStore, hScore, hLog, hDeposits⟩
  have hRevoked := SamePlayers.revokeAllowance (w.burnDeposit who player.credibility) who
  refine ⟨?_, ?_, ?_, ?_, ?_, ?_⟩
  · intro who'
    change ((StorageMap.remove _ who).get who').map _ = _
    rw [hRevoked.players, hStore]
    exact w.playing_remove who who'
  · intro who'
    change (StorageMap.insert _ who archived).containsKey who' = _
    rw [hRevoked.archivedPlayers, hStore]
    unfold World.archived StorageMap.containsKey
    rw [get_insert]
    by_cases hWho : who' = who <;> simp [hWho]
  · have hAfter := hStatements.revokeAllowance who
    exact ⟨hAfter.aliasToStmtAccount, hAfter.stmtAccountToAlias, hAfter.allowances⟩
  · exact hRevoked.deposits.trans hDeposits
  · exact hRevoked.score.trans hScore
  · exact hRevoked.attendanceLog.trans hLog

/- A player is kept with its credibility, or recognized. -/
theorem keepPlayer_cases {w : World T} (env : Env T)
    (hPlaying : w.playing who = some player.credibility) :
    SamePopulation w (w.keepPlayer env who player)
      ∨ ∃ ticket, Recognizes env w (w.keepPlayer env who player) who ticket := by
  unfold keepPlayer settleCredibility
  cases hCredibility : player.credibility with
  | invited =>
    rw [hCredibility] at hPlaying
    exact Or.inl (SamePopulation.setPlayer hPlaying)
  | recognized =>
    rw [hCredibility] at hPlaying
    exact Or.inl (SamePopulation.setPlayer hPlaying)
  | deposit ticket =>
    rw [hCredibility] at hPlaying
    dsimp only
    split_ifs
    · refine Or.inr ⟨ticket, ?_⟩
      have hStored : ∀ who', ((w.store.players.insert who (Player.reset player .recognized)).get
                  who').map Player.credibility
              = if who' = who then some .recognized else w.playing who' := by
        intro who'
        rw [get_insert]
        by_cases hWho : who' = who
        · rw [if_pos hWho, if_pos hWho]
          rfl
        · rw [if_neg hWho, if_neg hWho]
          rfl
      cases who with
      | account account =>
        refine ⟨hPlaying, hStored, rfl, ⟨rfl, rfl, rfl⟩, ?_, rfl, rfl⟩
        intro account' hEq
        obtain rfl := Score.AccountOrPerson.account.inj hEq
        rfl
      | person alias_ =>
        refine ⟨hPlaying, hStored, rfl, ⟨rfl, rfl, rfl⟩, ?_, rfl, rfl⟩
        intro account' hEq
        cases hEq
    · exact Or.inl (SamePopulation.setPlayer hPlaying)

theorem disposePlayer_cases {w : World T} (hPlaying : w.playing who = some player.credibility)
    (env : Env T) (disposition : PlayerDisposition) :
    SamePopulation w (w.disposePlayer env who player disposition)
      ∨ (∃ ticket, Recognizes env w (w.disposePlayer env who player disposition) who ticket)
      ∨ Archives w (w.disposePlayer env who player disposition)
          who := by
  unfold disposePlayer
  cases disposition with
  | archiveKickable =>
    exact Or.inr (Or.inr (archivePlayer_spec hPlaying _))
  | archiveUnkickable =>
    exact Or.inr (Or.inr (archivePlayer_spec hPlaying _))
  | keep =>
    rcases keepPlayer_cases env hPlaying with hSame | hRecognized
    · exact Or.inl hSame
    · exact Or.inr (Or.inl hRecognized)

end World

--
-- Leaving
--

/- An identity leaves both pallets. -/
structure Leaves (w w' : World T) (who : T.Who) : Prop where
  known : w.playing who ≠ none ∨ w.archived who = true
  playing : ∀ who',
      w'.playing who' =
        if who' = who then none else w.playing who'
  archived : ∀ who', w'.archived who' = (decide (who' ≠ who) && w.archived who')
  statements : (w.playing who ≠ none ∧ SameStatements (w.revokeAllowance who) w')
      ∨ (w.playing who = none ∧ SameStatements (w.takeStatementAccount who).1 w')
  deposits : w'.deposits = settledDeposits w.deposits who (w.playing who)
  offboarded :
    ∃ env, Score.World.offboard (World.chain env w) w.score who = .ok w'.score
  attendanceLog : w'.attendanceLog = w.attendanceLog

namespace World

variable {w w' : World T} {env : Env T}

theorem dropDeposit_spec {player : Option Player} (hDrop : w.dropDeposit env who player = .ok w') :
    SameStatements w w' ∧ w'.store = w.store ∧ w'.score = w.score ∧ w'.sessions = w.sessions
      ∧ w'.attendanceLog = w.attendanceLog
      ∧ w'.deposits = settledDeposits w.deposits who (player.map Player.credibility) := by
  unfold dropDeposit at hDrop
  unfold settledDeposits
  cases hCredibility : player.map Player.credibility with
  | none =>
    rw [hCredibility] at hDrop
    obtain rfl := Except.ok.inj hDrop
    exact ⟨⟨rfl, rfl, rfl⟩, rfl, rfl, rfl, rfl, rfl⟩
  | some credibility =>
    rw [hCredibility] at hDrop
    cases credibility with
    | deposit ticket =>
      cases who with
      | person alias_ =>
        obtain rfl := Except.ok.inj hDrop
        exact ⟨⟨rfl, rfl, rfl⟩, rfl, rfl, rfl, rfl, rfl⟩
      | account account =>
        dsimp only at hDrop ⊢
        split_ifs at hDrop
        obtain rfl := Except.ok.inj hDrop
        exact ⟨⟨rfl, rfl, rfl⟩, rfl, rfl, rfl, rfl, rfl⟩
    | _ =>
      obtain rfl := Except.ok.inj hDrop
      exact ⟨⟨rfl, rfl, rfl⟩, rfl, rfl, rfl, rfl, rfl⟩

theorem sessions_takeStatementAccount (w : World T) (who : T.Who) :
    (w.takeStatementAccount who).1.sessions = w.sessions := by
  unfold takeStatementAccount
  cases who with
  | account account => rfl
  | person alias_ =>
    dsimp only
    cases w.store.aliasToStmtAccount.get alias_ <;> rfl

theorem sessions_revokeAllowance (w : World T) (who : T.Who) :
    (w.revokeAllowance who).sessions = w.sessions := by
  have hTaken := w.sessions_takeStatementAccount who
  unfold revokeAllowance
  dsimp only
  cases (w.takeStatementAccount who).2 <;> exact hTaken

theorem archived_remove (w : World T) (who who' : T.Who) :
    (w.store.archivedPlayers.remove who).containsKey who'
      = (decide (who' ≠ who) && w.archived who') := by
  unfold World.archived StorageMap.containsKey
  rw [get_remove]
  by_cases hWho : who' = who <;> simp [hWho]

/- The statement account is taken, and the allowance with it. -/
def leaveStatements (w : World T) (who : T.Who) (plays : Bool) : World T :=
  if plays then w.revokeAllowance who
  else (w.takeStatementAccount who).1

theorem leaveStatements_same (w : World T) (who : T.Who) (plays : Bool) :
    SamePlayers w (w.leaveStatements who plays)
      ∧ (w.leaveStatements who plays).sessions = w.sessions := by
  unfold leaveStatements
  cases plays with
  | true =>
    exact ⟨SamePlayers.revokeAllowance w who, w.sessions_revokeAllowance who⟩
  | false =>
    exact ⟨SamePlayers.takeStatementAccount w who, w.sessions_takeStatementAccount who⟩

theorem leaveStatements_congr (hSame : SameStatements w v) (who : T.Who) (plays : Bool) :
    SameStatements (w.leaveStatements who plays) (v.leaveStatements who plays) := by
  unfold leaveStatements
  cases plays with
  | true => exact hSame.revokeAllowance who
  | false => exact hSame.takeStatementAccount who

theorem offboard_spec (hOffboard : w.offboard env who = .ok w') :
    Leaves w w' who := by
  unfold offboard at hOffboard
  simp only [bind_eq_ok, ensure_eq_ok_iff, exists_const] at hOffboard
  rcases hOffboard with ⟨_, _, hKnown, w₂, hDrop, hScore⟩
  rcases dropDeposit_spec hDrop with ⟨hStatements, hStore, hScoreSame, hSessions, hLog, hDeposits⟩
  rcases fromScore_eq_ok_iff.mp hScore with ⟨score, hOk, rfl⟩
  rcases w₂.leaveStatements_same who (w.store.players.get who).isSome with ⟨hSame, hSessions'⟩
  have hLeft := leaveStatements_congr
      (⟨hStatements.aliasToStmtAccount, hStatements.stmtAccountToAlias,
        hStatements.allowances⟩ : SameStatements w w₂)
      who (w.store.players.get who).isSome
  refine ⟨?_, ?_, ?_, ?_, ?_, ?_, ?_⟩
  · rcases hKnown with hArchived | hPlays
    · exact Or.inr hArchived
    · refine Or.inl fun hNone => ?_
      rw [playing_eq_none_iff.mp hNone] at hPlays
      cases hPlays
  · intro who'
    have hPlayers := hSame.players
    rw [hStore] at hPlayers
    change (StorageMap.get (World.store (World.leaveStatements w₂ who _)).players who').map _ = _
    rw [hPlayers]
    exact w.playing_remove who who'
  · intro who'
    have hArchived := hSame.archivedPlayers
    rw [hStore] at hArchived
    change StorageMap.containsKey (World.store
      (World.leaveStatements w₂ who _)).archivedPlayers who' = _
    rw [hArchived]
    exact w.archived_remove who who'
  · cases hGet : w.store.players.get who with
    | some player =>
      left
      rw [hGet] at hLeft
      refine ⟨?_, ?_⟩
      · rw [playing_of_get hGet]
        exact Option.some_ne_none _
      · exact ⟨hLeft.aliasToStmtAccount, hLeft.stmtAccountToAlias, hLeft.allowances⟩
    | none =>
      right
      rw [hGet] at hLeft
      exact ⟨playing_eq_none_iff.mpr hGet,
          ⟨hLeft.aliasToStmtAccount, hLeft.stmtAccountToAlias, hLeft.allowances⟩⟩
  · exact hSame.deposits.trans hDeposits
  · refine ⟨env, ?_⟩
    have hChain : World.chain env (w₂.leaveStatements who (w.store.players.get who).isSome)
          = World.chain env w := by
      unfold World.chain
      rw [hSessions', hSessions]
      rfl
    have hScores : (w₂.leaveStatements who (w.store.players.get who).isSome).score = w.score := by
      rw [hSame.score, hScoreSame]
      rfl
    rw [← hChain, ← hScores]
    exact hOk
  · exact hSame.attendanceLog.trans hLog

/- A kicked out account has been archived. -/
theorem kickout_spec {account : T.Account} (hKickout : w.kickout env account = .ok w') :
    w.archived (.account account) = true ∧ (∀ who, w'.playing who = w.playing who)
      ∧ (∀ who, w'.archived who = (decide (who ≠ .account account) && w.archived who))
      ∧ SameStatements w w'
      ∧ w'.deposits = w.deposits
      ∧ Score.World.offboard (World.chain env w) w.score (.account account) = .ok w'.score
      ∧ w'.attendanceLog = w.attendanceLog := by
  unfold kickout at hKickout
  simp only [bind_eq_ok, okOr_eq_ok_iff] at hKickout
  rcases hKickout with ⟨archived, hGet, hRest⟩
  cases archived with
  | unkickable firstGame => cases hRest
  | kickable firstGame archivedSince =>
    simp only [bind_eq_ok, ensure_eq_ok_iff, exists_const] at hRest
    rcases hRest with ⟨_, hScore⟩
    rcases fromScore_eq_ok_iff.mp hScore with ⟨score, hOk, rfl⟩
    refine ⟨StorageMap.containsKey_iff.mpr ⟨_, hGet⟩, fun _ => rfl, ?_,
        ⟨rfl, rfl, rfl⟩, rfl, hOk, rfl⟩
    intro who
    exact w.archived_remove (.account account) who

end World

end Individuality.Game
