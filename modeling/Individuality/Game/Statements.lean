import Individuality.Game.Membership

/-
  The statement accounts of aliases, and the allowances of accounts in the statement store.

  Main declaration: `Statements`
-/

namespace Individuality.Game

open StorageMap (getD_insert get_insert get_remove)

variable {T : Config} {signing : Option T.Alias} {account : T.Account} {alias_ : T.Alias}
variable {who : T.Who}

/- Whether an account plays, or is a statement account. -/
def World.usesStatements (w : World T) (account : T.Account) :
    Bool :=
  (w.playing (.account account)).isSome
    || w.store.stmtAccountToAlias.containsKey account

/-
  The two maps of statement accounts are mutually inverse, the
  aliases that play have one, and the accounts that play or
  speak for an alias have exactly the limit of one player.

  An alias that is about to sign up has one already.
-/
structure Statements (signing : Option T.Alias) (w : World T) : Prop where
  inverse : ∀ alias_ account,
      w.store.aliasToStmtAccount.get alias_ = some account
        ↔ w.store.stmtAccountToAlias.get account = some alias_
  alias_iff : ∀ alias_,
      w.store.aliasToStmtAccount.get alias_ ≠ none
        ↔ w.playing (.person alias_) ≠ none ∨ signing = some alias_
  apart : ∀ account,
      w.store.stmtAccountToAlias.get account ≠ none →
        w.playing (.account account) = none
          ∧ w.archived (.account account) = false
  allowance : ∀ account,
      w.allowances.getD account .zero =
        if w.usesStatements account then T.playerStatementLimit
        else .zero

namespace Statements

variable {w w' : World T}

theorem genesis : Statements none (World.genesis : World T) where
  inverse := by
    intro alias_ account
    simp [World.genesis, GameStorage.genesis]
  alias_iff := by
    intro alias_
    simp [World.genesis, GameStorage.genesis, World.playing]
  apart := by
    intro account hStmt
    simp [World.genesis, GameStorage.genesis] at hStmt
  allowance := by
    intro account
    simp [World.genesis, GameStorage.genesis, World.usesStatements,
      World.playing, StorageMap.containsKey]

/- Only who plays, who is archived and the maps matter. -/
theorem of_eq (hOld : Statements signing w)
    (hPlaying : ∀ who, w'.playing who ≠ none ↔ w.playing who ≠ none)
    (hArchived : ∀ account, w'.archived (.account account) = true →
        w.archived (.account account) = true)
    (hStatements : SameStatements w w') :
    Statements signing w' where
  inverse := by
    intro alias_ account
    rw [hStatements.aliasToStmtAccount, hStatements.stmtAccountToAlias]
    exact hOld.inverse alias_ account
  alias_iff := by
    intro alias_
    rw [hStatements.aliasToStmtAccount, hPlaying]
    exact hOld.alias_iff alias_
  apart := by
    intro account hStmt
    rw [hStatements.stmtAccountToAlias] at hStmt
    rcases hOld.apart account hStmt with ⟨hIdle, hFree⟩
    refine ⟨?_, ?_⟩
    · by_contra hPlays
      exact (hPlaying _).mp hPlays hIdle
    · apply Bool.eq_false_iff.mpr
      intro hArchives
      rw [hArchived account hArchives] at hFree
      cases hFree
  allowance := by
    intro account
    have hUses : w'.usesStatements account = w.usesStatements account := by
      unfold World.usesStatements
      have hSome := hPlaying (.account account)
      rw [hStatements.stmtAccountToAlias]
      congr 1
      rw [Bool.eq_iff_iff, Option.isSome_iff_ne_none, Option.isSome_iff_ne_none]
      exact hSome
    rw [hStatements.allowances, hUses]
    exact hOld.allowance account

theorem of_same (hOld : Statements signing w) (hSame : SamePopulation w w') :
    Statements signing w' := by
  refine hOld.of_eq ?_ ?_ ?_
  · intro who
    rw [hSame.playing]
  · intro account hArchived
    unfold World.archived at hArchived ⊢
    rw [hSame.archivedPlayers] at hArchived
    exact hArchived
  · exact ⟨hSame.aliasToStmtAccount, hSame.stmtAccountToAlias, hSame.allowances⟩

--
-- Statement Accounts
--

/- An account that speaks for an alias has the limit. -/
theorem allowance_of_stmt (hOld : Statements signing w)
    (hStmt : w.store.stmtAccountToAlias.get account = some alias_) :
    w.allowances.getD account .zero = T.playerStatementLimit := by
  rw [hOld.allowance, if_pos]
  unfold World.usesStatements StorageMap.containsKey
  rw [hStmt, Option.isSome_some, Bool.or_true]

/- The maps, and the allowances, after an alias has given up the account it had. -/
theorem releaseStatementAccount_spec (hOld : Statements none w) (alias_ : T.Alias) :
    (w.releaseStatementAccount alias_).store.aliasToStmtAccount = w.store.aliasToStmtAccount
      ∧ (∀ account, (w.releaseStatementAccount alias_).store.stmtAccountToAlias.get account =
          if w.store.aliasToStmtAccount.get alias_
              = some account then none
          else w.store.stmtAccountToAlias.get account)
      ∧ ∀ account, (w.releaseStatementAccount alias_).allowances.getD account .zero =
          if w.store.aliasToStmtAccount.get alias_
              = some account then .zero
          else w.allowances.getD account .zero := by
  unfold World.releaseStatementAccount
  cases hGet : w.store.aliasToStmtAccount.get alias_ with
  | none =>
    refine ⟨rfl, ?_, ?_⟩
    · intro account
      rw [if_neg (by simp)]
    · intro account
      rw [if_neg (by simp)]
  | some prevStmtAccount =>
    have hLimit := hOld.allowance_of_stmt ((hOld.inverse _ _).mp hGet)
    refine ⟨rfl, ?_, ?_⟩
    · intro account
      dsimp only [World.decreaseAllowanceBy, World.withStore]
      rw [get_remove]
      simp only [Option.some.injEq, eq_comm]
    · intro account
      dsimp only [World.decreaseAllowanceBy, World.withStore]
      rw [getD_insert, hLimit, StatementAllowance.sub_self]
      simp only [Option.some.injEq, eq_comm]

/- An alias that signs up has set its statement account. -/
theorem setStatementAccount (hOld : Statements none w)
    (hSet : w.setStatementAccount alias_ account = .ok w') :
    Statements (some alias_) w' := by
  have hSame := SamePlayers.setStatementAccount hSet
  unfold World.setStatementAccount at hSet
  split_ifs at hSet with hUnchanged
  · obtain rfl := Except.ok.inj hSet
    refine ⟨hOld.inverse, ?_, hOld.apart, hOld.allowance⟩
    intro alias'
    rw [hOld.alias_iff]
    constructor
    · rintro (hPlays | hNone)
      · exact Or.inl hPlays
      · cases hNone
    · rintro (hPlays | hSigning)
      · exact Or.inl hPlays
      · obtain rfl := Option.some.inj hSigning
        apply (hOld.alias_iff alias_).mp
        rw [hUnchanged]
        exact Option.some_ne_none _
  · rcases hOld.releaseStatementAccount_spec alias_ with ⟨hAliases, hStmts, hAllowances⟩
    have hReleased := SamePlayers.releaseStatementAccount w alias_
    simp only [Except.bind_eq_ok, ensure_eq_ok_iff, exists_const,
      Except.pure_eq_ok, Bool.not_eq_true] at hSet
    rcases hSet with ⟨hFree, rfl⟩
    unfold World.statementAccountInUse at hFree
    rw [Bool.or_eq_false_iff, Bool.or_eq_false_iff] at hFree
    rcases hFree with ⟨⟨hNoStmt, hNoPlayer⟩, hNoArchived⟩
    rw [StorageMap.containsKey_eq_false_iff, hStmts] at hNoStmt
    have hIdle : w.playing (.account account) = none := by
      rw [← hReleased.playing]
      exact World.playing_eq_none_iff.mpr (StorageMap.containsKey_eq_false_iff.mp hNoPlayer)
    have hNotArchived : w.archived (.account account) = false := by
      rw [← hReleased.archived]
      exact hNoArchived
    -- no alias but this one has the account
    have hOnly : ∀ alias', w.store.aliasToStmtAccount.get alias' = some account → False := by
      intro alias' hGet
      rw [if_neg hUnchanged, (hOld.inverse _ _).mp hGet] at hNoStmt
      cases hNoStmt
    have hAliases' : ∀ alias',
          ((w.releaseStatementAccount alias_).store.aliasToStmtAccount.insert alias_
              account).get alias' =
            if alias' = alias_ then some account
            else w.store.aliasToStmtAccount.get alias' := by
      intro alias'
      rw [get_insert, hAliases]
    have hStmts' : ∀ account', ((w.releaseStatementAccount
            alias_).store.stmtAccountToAlias.insert account alias_).get account' =
            if account' = account then some alias_
            else if w.store.aliasToStmtAccount.get alias_
                = some account' then none
            else w.store.stmtAccountToAlias.get account' := by
      intro account'
      rw [get_insert, hStmts]
    refine ⟨?_, ?_, ?_, ?_⟩
    · intro alias' account'
      change (StorageMap.insert _ alias_ account).get alias' = _
        ↔ (StorageMap.insert _ account alias_).get account' = _
      rw [hAliases', hStmts']
      have hInverse := hOld.inverse alias' account'
      by_cases hAlias : alias' = alias_
      · rw [if_pos hAlias, hAlias]
        by_cases hAccount : account' = account
        · rw [if_pos hAccount, hAccount]
          simp
        · rw [if_neg hAccount]
          by_cases hPrev : w.store.aliasToStmtAccount.get alias_ = some account'
          · rw [if_pos hPrev]
            simp [Ne.symm hAccount]
          · rw [if_neg hPrev]
            rw [hAlias] at hInverse
            constructor
            · intro hEq
              exact absurd (Option.some.inj hEq).symm hAccount
            · intro hStmt
              exact absurd (hInverse.mpr hStmt) hPrev
      · rw [if_neg hAlias]
        by_cases hAccount : account' = account
        · rw [if_pos hAccount, hAccount]
          constructor
          · intro hGet
            exact (hOnly alias' hGet).elim
          · intro hEq
            exact absurd (Option.some.inj hEq).symm hAlias
        · rw [if_neg hAccount]
          by_cases hPrev : w.store.aliasToStmtAccount.get alias_ = some account'
          · rw [if_pos hPrev]
            constructor
            · intro hGet
              have hFirst := (hOld.inverse _ _).mp hPrev
              rw [hInverse.mp hGet] at hFirst
              exact absurd (Option.some.inj hFirst) hAlias
            · intro hEq
              cases hEq
          · rw [if_neg hPrev]
            exact hInverse
    · intro alias'
      rw [hSame.playing]
      change (StorageMap.insert _ alias_ account).get alias' ≠ none ↔ _
      rw [hAliases']
      by_cases hAlias : alias' = alias_
      · simp [hAlias]
      · rw [if_neg hAlias, hOld.alias_iff]
        simp [Ne.symm hAlias]
    · intro account' hStmt
      rw [hSame.playing, hSame.archived]
      change (StorageMap.insert _ account alias_).get account' ≠ none at hStmt
      rw [hStmts'] at hStmt
      by_cases hAccount : account' = account
      · rw [hAccount]
        exact ⟨hIdle, hNotArchived⟩
      · rw [if_neg hAccount] at hStmt
        split_ifs at hStmt
        · exact absurd rfl hStmt
        · exact hOld.apart account' hStmt
    · intro account'
      have hAllowance := hAllowances account'
      have hOldAllowance := hOld.allowance account'
      unfold World.usesStatements StorageMap.containsKey
      rw [hSame.playing]
      change (StorageMap.insert _ account (StatementAllowance.add _ _)).getD account' _
        = if ((_ : Bool)
            || ((StorageMap.insert _ account alias_).get
                account').isSome) = true then _ else _
      rw [hStmts', getD_insert]
      by_cases hAccount : account' = account
      · subst hAccount
        have hZero : (w.releaseStatementAccount alias_).allowances.getD account' .zero = .zero := by
          rw [hAllowance, if_neg hUnchanged, hOldAllowance, if_neg]
          unfold World.usesStatements StorageMap.containsKey
          rw [hIdle]
          rw [if_neg hUnchanged] at hNoStmt
          rw [hNoStmt]
          simp
        change ((w.releaseStatementAccount alias_).allowances.getD account' .zero) = .zero at hZero
        simp only [if_true, Option.isSome_some, Bool.or_true]
        dsimp only [World.withStore]
        rw [hZero, StatementAllowance.zero_add]
      · rw [if_neg hAccount, if_neg hAccount]
        change (w.releaseStatementAccount alias_).allowances.getD account' .zero = _
        rw [hAllowance]
        by_cases hPrev : w.store.aliasToStmtAccount.get alias_ = some account'
        · have hStmt := (hOld.inverse _ _).mp hPrev
          have hPlays := (hOld.apart account' (by simp [hStmt])).1
          rw [if_pos hPrev, if_pos hPrev, hPlays]
          simp
        · rw [if_neg hPrev, if_neg hPrev, hOldAllowance]
          rfl

--
-- Signing Up
--

theorem signsUp_account (hOld : Statements none w)
    (hFree : w.store.stmtAccountToAlias.get account = none)
    (hSignsUp : SignsUp w w' (.account account)) :
    Statements none w' := by
  rcases hSignsUp.credited with ⟨credibility, _, hPlaying⟩
  have hStatements := hSignsUp.statements
  have hMaps : w'.store.aliasToStmtAccount = w.store.aliasToStmtAccount
        ∧ w'.store.stmtAccountToAlias = w.store.stmtAccountToAlias := by
    have hAliases := hStatements.aliasToStmtAccount
    have hStmts := hStatements.stmtAccountToAlias
    unfold World.grantAllowance at hAliases hStmts
    dsimp only at hAliases hStmts
    split_ifs at hAliases hStmts
    · exact ⟨hAliases, hStmts⟩
    · exact ⟨hAliases, hStmts⟩
  rcases hMaps with ⟨hAliases, hStmts⟩
  refine ⟨?_, ?_, ?_, ?_⟩
  · intro alias_ account'
    rw [hAliases, hStmts]
    exact hOld.inverse alias_ account'
  · intro alias_
    rw [hAliases, hPlaying, if_neg (by simp)]
    exact hOld.alias_iff alias_
  · intro account' hStmt
    rw [hStmts] at hStmt
    have hNe : account' ≠ account := by
      rintro rfl
      exact hStmt hFree
    rw [hPlaying, hSignsUp.archived, if_neg (by simp [hNe]), if_neg (by simp [hNe])]
    exact hOld.apart account' hStmt
  · intro account'
    have hOldAllowance := hOld.allowance account'
    rw [hStatements.allowances]
    unfold World.usesStatements at hOldAllowance ⊢
    rw [hPlaying, hStmts]
    unfold World.grantAllowance
    dsimp only
    by_cases hAccount : account' = account
    · subst hAccount
      rw [if_pos rfl, Option.isSome_some, Bool.true_or, if_pos rfl]
      by_cases hPlays : (w.playing (.account account')).isSome = true
      · rw [if_pos hPlays]
        rw [hPlays, Bool.true_or, if_pos rfl] at hOldAllowance
        exact hOldAllowance
      · rw [if_neg hPlays]
        rw [Bool.not_eq_true] at hPlays
        rw [hPlays, Bool.false_or, StorageMap.containsKey_eq_false_iff.mpr hFree,
          if_neg (by simp)] at hOldAllowance
        dsimp only [World.increaseAllowanceBy]
        rw [getD_insert, if_pos rfl, hOldAllowance, StatementAllowance.zero_add]
    · have hNe : (.account account' : T.Who) ≠ .account account := by
        simp [hAccount]
      rw [if_neg hNe]
      by_cases hPlays : (w.playing (.account account)).isSome = true
      · rw [if_pos hPlays]
        exact hOldAllowance
      · rw [if_neg hPlays]
        dsimp only [World.increaseAllowanceBy]
        rw [getD_insert, if_neg hAccount]
        exact hOldAllowance

theorem signsUp_person (hOld : Statements (some alias_) w)
    (hSignsUp : SignsUp w w' (.person alias_)) :
    Statements none w' := by
  rcases hSignsUp.credited with ⟨credibility, _, hPlaying⟩
  have hStatements : SameStatements w w' := hSignsUp.statements
  refine ⟨?_, ?_, ?_, ?_⟩
  · intro alias' account
    rw [hStatements.aliasToStmtAccount, hStatements.stmtAccountToAlias]
    exact hOld.inverse alias' account
  · intro alias'
    rw [hStatements.aliasToStmtAccount, hOld.alias_iff, hPlaying]
    by_cases hAlias : alias' = alias_
    · simp [hAlias]
    · simp [hAlias, Ne.symm hAlias]
  · intro account hStmt
    rw [hStatements.stmtAccountToAlias] at hStmt
    rw [hPlaying, hSignsUp.archived, if_neg (by simp), if_neg (by simp)]
    exact hOld.apart account hStmt
  · intro account
    have hOldAllowance := hOld.allowance account
    have hNe : (.account account : T.Who) ≠ .person alias_ := by
      simp
    unfold World.usesStatements at hOldAllowance ⊢
    rw [hStatements.allowances, hStatements.stmtAccountToAlias, hPlaying, if_neg hNe]
    exact hOldAllowance

--
-- Leaving
--

/- What an identity that plays leaves behind. -/
theorem revoke (hOld : Statements none w) (hPlays : w.playing who ≠ none)
    (hPlaying : ∀ who', w'.playing who' =
        if who' = who then none else w.playing who')
    (hArchived : ∀ account, .account account ≠ who → w'.archived (.account account) = true →
        w.archived (.account account) = true)
    (hStatements : SameStatements (w.revokeAllowance who) w') :
    Statements none w' := by
  cases who with
  | account account =>
    have hAliases := hStatements.aliasToStmtAccount
    have hStmts := hStatements.stmtAccountToAlias
    have hAllowances := hStatements.allowances
    unfold World.revokeAllowance World.takeStatementAccount
      at hAliases hStmts hAllowances
    dsimp only [World.decreaseAllowanceBy] at hAliases hStmts hAllowances
    have hNoStmt : w.store.stmtAccountToAlias.get account = none := by
      by_contra hStmt
      exact hPlays (hOld.apart account hStmt).1
    refine ⟨?_, ?_, ?_, ?_⟩
    · intro alias_ account'
      rw [hAliases, hStmts]
      exact hOld.inverse alias_ account'
    · intro alias_
      rw [hAliases, hPlaying, if_neg (by simp)]
      exact hOld.alias_iff alias_
    · intro account' hStmt
      rw [hStmts] at hStmt
      have hNe : account' ≠ account := by
        rintro rfl
        exact hStmt hNoStmt
      rcases hOld.apart account' hStmt with ⟨hIdle, hFree⟩
      rw [hPlaying, if_neg (by simp [hNe])]
      refine ⟨hIdle, ?_⟩
      apply Bool.eq_false_iff.mpr
      intro hArchives
      rw [hArchived account' (by simp [hNe]) hArchives] at hFree
      cases hFree
    · intro account'
      have hOldAllowance := hOld.allowance account'
      unfold World.usesStatements at hOldAllowance ⊢
      rw [hAllowances, hStmts, hPlaying, getD_insert]
      by_cases hAccount : account' = account
      · subst hAccount
        rw [Option.isSome_iff_ne_none.mpr hPlays, Bool.true_or, if_pos rfl] at hOldAllowance
        rw [if_pos rfl, if_pos rfl, hOldAllowance, StatementAllowance.sub_self,
          StorageMap.containsKey_eq_false_iff.mpr hNoStmt]
        simp
      · have hNe : (.account account' : T.Who) ≠ .account account := by
          simp [hAccount]
        rw [if_neg hAccount, if_neg hNe]
        exact hOldAllowance
  | person alias_ =>
    have hSome : ∃ account, w.store.aliasToStmtAccount.get alias_ = some account :=
      Option.ne_none_iff_exists'.mp ((hOld.alias_iff alias_).mpr (Or.inl hPlays))
    rcases hSome with ⟨account, hGet⟩
    have hStmt := (hOld.inverse _ _).mp hGet
    have hLimit := hOld.allowance_of_stmt hStmt
    have hIdle := (hOld.apart account (by simp [hStmt])).1
    have hAliases := hStatements.aliasToStmtAccount
    have hStmts := hStatements.stmtAccountToAlias
    have hAllowances := hStatements.allowances
    unfold World.revokeAllowance World.takeStatementAccount
      at hAliases hStmts hAllowances
    dsimp only at hAliases hStmts hAllowances
    rw [hGet] at hAliases hStmts hAllowances
    dsimp only [World.decreaseAllowanceBy, World.withStore]
      at hAliases hStmts hAllowances
    refine ⟨?_, ?_, ?_, ?_⟩
    · intro alias' account'
      rw [hAliases, hStmts, get_remove, get_remove]
      have hInverse := hOld.inverse alias' account'
      by_cases hAlias : alias' = alias_
      · rw [if_pos hAlias]
        by_cases hAccount : account' = account
        · rw [if_pos hAccount]
          simp
        · rw [if_neg hAccount]
          rw [hAlias, hGet] at hInverse
          rw [hAlias, ← hInverse]
          simp [Ne.symm hAccount]
      · rw [if_neg hAlias]
        by_cases hAccount : account' = account
        · rw [if_pos hAccount]
          rw [hAccount, hStmt] at hInverse
          rw [hAccount, hInverse]
          simp [Ne.symm hAlias]
        · rw [if_neg hAccount]
          exact hInverse
    · intro alias'
      rw [hAliases, hPlaying, get_remove]
      by_cases hAlias : alias' = alias_
      · simp [hAlias]
      · rw [if_neg hAlias, if_neg (by simp [hAlias])]
        exact hOld.alias_iff alias'
    · intro account' hStmt'
      rw [hStmts, get_remove] at hStmt'
      by_cases hAccount : account' = account
      · rw [if_pos hAccount] at hStmt'
        exact absurd rfl hStmt'
      · rw [if_neg hAccount] at hStmt'
        rcases hOld.apart account' hStmt' with ⟨hIdle', hFree⟩
        rw [hPlaying, if_neg (by simp)]
        refine ⟨hIdle', ?_⟩
        apply Bool.eq_false_iff.mpr
        intro hArchives
        rw [hArchived account' (by simp) hArchives] at hFree
        cases hFree
    · intro account'
      have hOldAllowance := hOld.allowance account'
      have hNe : (.account account' : T.Who) ≠ .person alias_ := by
        simp
      unfold World.usesStatements StorageMap.containsKey at hOldAllowance ⊢
      rw [hAllowances, hStmts, hPlaying, if_neg hNe, getD_insert, get_remove]
      by_cases hAccount : account' = account
      · rw [if_pos hAccount, if_pos hAccount, hLimit, StatementAllowance.sub_self, hAccount, hIdle]
        simp
      · rw [if_neg hAccount, if_neg hAccount]
        exact hOldAllowance

/- An identity that does not play has nothing to give up. -/
theorem takeStatementAccount_eq (hOld : Statements none w) (hIdle : w.playing who = none) :
    (w.takeStatementAccount who).1 = w := by
  unfold World.takeStatementAccount
  cases who with
  | account account => rfl
  | person alias_ =>
    have hNone : w.store.aliasToStmtAccount.get alias_ = none := by
      by_contra hSome
      rcases (hOld.alias_iff alias_).mp hSome with
        hPlays | hSigning
      · exact hPlays hIdle
      · cases hSigning
    dsimp only
    rw [hNone]

theorem archives (hOld : Statements none w) (hPlays : w.playing who ≠ none)
    (hArchives : Archives w w' who) :
    Statements none w' := by
  refine hOld.revoke hPlays hArchives.playing ?_ hArchives.statements
  intro account hNe hArchived
  rw [hArchives.archived, decide_eq_false hNe, Bool.false_or] at hArchived
  exact hArchived

theorem recognizes {ticket : Nat} (hOld : Statements none w)
    (hRecognizes : Recognizes env w w' who ticket) :
    Statements none w' := by
  refine hOld.of_eq ?_ ?_ hRecognizes.statements
  · intro who'
    rw [hRecognizes.playing]
    by_cases hWho : who' = who
    · rw [if_pos hWho, hWho, hRecognizes.before]
      simp
    · rw [if_neg hWho]
  · intro account hArchived
    unfold World.archived at hArchived ⊢
    rw [hRecognizes.archivedPlayers] at hArchived
    exact hArchived

theorem leaves (hOld : Statements none w) (hLeaves : Leaves w w' who) :
    Statements none w' := by
  have hArchived : ∀ account : T.Account, w'.archived (.account account) = true →
          w.archived (.account account) = true := by
    intro account hArchives
    rw [hLeaves.archived, Bool.and_eq_true] at hArchives
    exact hArchives.2
  rcases hLeaves.statements with ⟨hPlays, hStatements⟩ | ⟨hIdle, hStatements⟩
  · exact hOld.revoke hPlays hLeaves.playing (fun account _ => hArchived account) hStatements
  · rw [hOld.takeStatementAccount_eq hIdle] at hStatements
    refine hOld.of_eq ?_ hArchived hStatements
    intro who'
    rw [hLeaves.playing]
    by_cases hWho : who' = who
    · rw [if_pos hWho, hWho, hIdle]
    · rw [if_neg hWho]

theorem kickout {env : Env T} (hOld : Statements none w)
    (hKickout : w.kickout env account = .ok w') :
    Statements none w' := by
  rcases World.kickout_spec hKickout with ⟨_, hPlaying, hArchived, hStatements, _, _, _⟩
  refine hOld.of_eq ?_ ?_ hStatements
  · intro who
    rw [hPlaying]
  · intro account' hArchives
    rw [hArchived, Bool.and_eq_true] at hArchives
    exact hArchives.2

end Statements

end Individuality.Game
