import Individuality.AliasAccounts.Pallet
import Individuality.Base.Inverse
import Individuality.Base.Traces

/-
  The two maps of the alias-accounts pallet are inverse to each other, an account has one reference
  per mapping, and a mapping is retired only after it was reported stale and the retention has
  passed.

  Main declaration: `AliasState.mappings_retired`
-/

namespace Individuality.AliasAccounts

open Except (bind_eq_ok pure_eq_ok)
open StorageMap (containsKey_insert containsKey_of_get containsKey_remove getD_insert get_insert
  get_remove get_remove_self)

open PeopleMulti (Bytes32 ContextualAlias TransactionSource)

namespace AliasState

variable {C : Config} {A P : Type} [LinearOrder A] {s s' : AliasState A} {chain : Service A P}
variable {who account : A} {info : AliasAccountInfo} {proof : P} {context collection : Bytes32}
variable {ringIndex proofValidAt ringRevision : Nat}

--
-- Maps that Agree
--

/- The alias of a mapping, with its collection. -/
def Names (info : AliasAccountInfo) (name : Bytes32 × ContextualAlias) : Prop :=
  name = (info.collection, info.ca)

/-
  Both maps agree, each mapped account has one reference, and
  stamps are those of mapped accounts and not in the future.
-/
structure Linked (s : AliasState A) : Prop where
  inverse : Inverse s.aliasToAccount s.accountToAlias Names
  count : ∀ account,
      s.sufficients.getD account 0
        = if s.accountToAlias.containsKey account then 1 else 0
  stamped : ∀ account stamp,
      s.staleSince.get account = some stamp →
        s.accountToAlias.containsKey account = true ∧ stamp ≤ s.now
  timestamp_le : s.timestamp ≤ u64Max

theorem linked_genesis :
    (genesis : AliasState A).Linked where
  inverse := Inverse.empty Names
  count := by simp [genesis, StorageMap.containsKey]
  stamped := by simp [genesis]
  timestamp_le := Nat.zero_le u64Max

--
-- Dropping and Writing Mappings
--

/- Stamps stay in order when one account loses its own. -/
theorem Linked.stamped_remove (hLinked : s.Linked) {records : StorageMap A AliasAccountInfo}
    (hRecords : ∀ account, account ≠ who →
        records.containsKey account = s.accountToAlias.containsKey account)
    (account : A) (stamp : Nat)
    (hStamp : (s.staleSince.remove who).get account = some stamp) :
    records.containsKey account = true ∧ stamp ≤ s.now := by
  rw [get_remove] at hStamp
  by_cases hAccount : account = who
  · simp [hAccount] at hStamp
  · rw [if_neg hAccount] at hStamp
    rw [hRecords account hAccount]
    exact hLinked.stamped account stamp hStamp

theorem Linked.dropMapping (hLinked : s.Linked) (hGet : s.accountToAlias.get account = some info) :
    (s.dropMapping account info).Linked where
  inverse := hLinked.inverse.release hGet fun _ => Iff.rfl
  count := by
    intro account'
    unfold AliasState.dropMapping forgetAccount decSufficients
    dsimp only
    rw [getD_insert, containsKey_remove]
    by_cases hAccount : account' = account
    · subst hAccount
      rw [if_pos rfl, hLinked.count, containsKey_of_get hGet]
      simp
    · rw [if_neg hAccount, hLinked.count]
      simp [hAccount]
  stamped := by
    apply hLinked.stamped_remove
    intro account' hNe
    unfold AliasState.dropMapping forgetAccount
    rw [containsKey_remove]
    simp [hNe]
  timestamp_le := hLinked.timestamp_le

/- An account that has its alias already gets a new revision or ring for it. -/
theorem Linked.writeMapping (hLinked : s.Linked) {old : AliasAccountInfo}
    (hGet : s.accountToAlias.get who = some old) (hCollection : info.collection = old.collection)
    (hAlias : info.ca = old.ca) :
    (s.writeMapping who info).Linked where
  inverse := by
    apply hLinked.inverse.rewrite hGet
    intro name
    unfold Names
    rw [hCollection, hAlias]
  count := by
    intro account
    unfold AliasState.writeMapping
    dsimp only
    rw [hLinked.count, containsKey_insert]
    by_cases hAccount : account = who
    · rw [hAccount, containsKey_of_get hGet]
      simp
    · simp [hAccount]
  stamped := by
    apply hLinked.stamped_remove
    intro account hNe
    unfold AliasState.writeMapping
    rw [containsKey_insert]
    simp [hNe]
  timestamp_le := hLinked.timestamp_le

/- An alias without an account is given to an unused one. -/
theorem Linked.addMapping (hLinked : s.Linked)
    (hFree : s.aliasToAccount.get (info.collection, info.ca) = none)
    (hUnused : s.accountToAlias.get who = none) :
    ({ (s.incSufficients who).writeMapping who info with
        aliasToAccount := s.aliasToAccount.insert (info.collection, info.ca)
            who } : AliasState A).Linked where
  inverse := hLinked.inverse.claim hFree hUnused fun _ => Iff.rfl
  count := by
    intro account
    unfold AliasState.writeMapping incSufficients
    dsimp only
    rw [getD_insert, containsKey_insert]
    by_cases hAccount : account = who
    · subst hAccount
      rw [if_pos rfl, hLinked.count, StorageMap.containsKey_eq_false_iff.mpr hUnused]
      simp [saturatingAdd, u32Max]
    · rw [if_neg hAccount, hLinked.count]
      simp [hAccount]
  stamped := by
    apply hLinked.stamped_remove
    intro account hNe
    unfold AliasState.writeMapping incSufficients
    rw [containsKey_insert]
    simp [hNe]
  timestamp_le := hLinked.timestamp_le

--
-- Calls Keep the Maps
--

theorem Linked.unsetAliasAccount (hLinked : s.Linked) (hUnset : s.unsetAliasAccount who = .ok s') :
    s'.Linked := by
  unfold AliasState.unsetAliasAccount at hUnset
  simp only [bind_eq_ok, okOr_eq_ok_iff, pure_eq_ok] at hUnset
  rcases hUnset with ⟨info, hGet, rfl⟩
  exact hLinked.dropMapping hGet

/-
  What a successful call has checked: the signer has the alias
  already, or neither an alias nor a stored mapping.
-/
theorem setAliasAccount_eq_ok
    (hSet : setAliasAccount C chain s who proof collection ringIndex
        ringRevision context proofValidAt = .ok s') :
    ∃ info : AliasAccountInfo, info.collection = collection
        ∧ ((s.aliasToAccount.get (info.collection, info.ca) = some who ∧ s' =
              { s.writeMapping who info with
                aliasToAccount := s.aliasToAccount.insert (info.collection, info.ca) who })
          ∨ (s.aliasToAccount.get (info.collection, info.ca) ≠ some who
              ∧ s.accountToAlias.get who = none
              ∧ s' =
                { (s.moveReference
                      (s.aliasToAccount.get (info.collection, info.ca)) who
                    ).writeMapping who info with
                  aliasToAccount := (s.moveReference (s.aliasToAccount.get
                        (info.collection, info.ca)) who
                    ).aliasToAccount.insert (info.collection, info.ca) who })) := by
  unfold setAliasAccount at hSet
  simp only [bind_eq_ok, okOr_eq_ok_iff, ensure_eq_ok_iff, exists_const, pure_eq_ok] at hSet
  rcases hSet with ⟨fee, _, _, _, validated, _, _, hFree, _, hEq⟩
  refine ⟨AliasAccountInfo.fromValidated collection validated, rfl, ?_⟩
  change s.aliasToAccount.get ((AliasAccountInfo.fromValidated collection
      validated).collection, _) = some who ∨ _ at hFree
  by_cases hOld : s.aliasToAccount.get
      (collection, (AliasAccountInfo.fromValidated collection validated).ca)
      = some who
  · left
    rw [if_pos hOld] at hEq
    exact ⟨hOld, hEq.symm⟩
  · right
    rw [if_neg hOld] at hEq
    exact ⟨hOld, StorageMap.containsKey_eq_false_iff.mp (hFree.resolve_left hOld), hEq.symm⟩

theorem Linked.setAliasAccount (hLinked : s.Linked)
    (hSet : AliasState.setAliasAccount C chain s who proof collection
        ringIndex ringRevision context proofValidAt = .ok s') :
    s'.Linked := by
  rcases setAliasAccount_eq_ok hSet with ⟨info, _, ⟨hSame, rfl⟩ | ⟨hNew, hUnused, rfl⟩⟩
  · -- the signer has this alias, so only its revision changes
    rcases (hLinked.inverse _ _).mp hSame with ⟨old, hGet, hName⟩
    have hWritten := hLinked.writeMapping hGet (congrArg Prod.fst hName) (congrArg Prod.snd hName)
    refine ⟨?_, hWritten.count, hWritten.stamped, hWritten.timestamp_le⟩
    intro name account
    have hSameAlias : (s.aliasToAccount.insert (info.collection, info.ca) who).get name
          = s.aliasToAccount.get name := by
      rw [get_insert]
      split_ifs with hKey
      · rw [hKey, hSame]
      · rfl
    dsimp only
    rw [hSameAlias]
    exact hWritten.inverse name account
  · cases hOld : s.aliasToAccount.get (info.collection, info.ca) with
    | none => exact hLinked.addMapping hOld hUnused
    | some old =>
      rcases (hLinked.inverse _ _).mp hOld with ⟨oldInfo, hGet, hName⟩
      have hNe : who ≠ old := by
        rintro rfl
        exact hNew hOld
      -- the old mapping is dropped, and then the new one added
      have hDropped := hLinked.dropMapping hGet
      unfold AliasState.dropMapping at hDropped
      rw [← hName] at hDropped
      have hUnused' : (s.forgetAccount old).accountToAlias.get who = none := by
        unfold forgetAccount
        dsimp only
        rw [StorageMap.get_remove_of_ne _ hNe, hUnused]
      have hAdded := hDropped.addMapping (get_remove_self s.aliasToAccount _) hUnused'
      rw [StorageMap.insert_remove] at hAdded
      exact hAdded

theorem Linked.reproveAliasAccount (hLinked : s.Linked)
    (hReprove : AliasState.reproveAliasAccount C chain s who proof
        ringIndex ringRevision proofValidAt = .ok s') :
    s'.Linked := by
  unfold AliasState.reproveAliasAccount at hReprove
  simp only [bind_eq_ok, okOr_eq_ok_iff, ensure_eq_ok_iff, exists_const, pure_eq_ok]
    at hReprove
  rcases hReprove with ⟨_, _, old, hGet, _, _, _, _, rfl⟩
  exact hLinked.writeMapping hGet rfl rfl

--
-- Sweeps Keep the Maps
--

theorem Linked.reportOne (hLinked : s.Linked) (account : A) :
    (reportOne chain s account).Linked := by
  unfold AliasState.reportOne
  cases hGet : s.accountToAlias.get account with
  | none => exact hLinked
  | some info =>
    refine ⟨hLinked.inverse, hLinked.count, ?_, hLinked.timestamp_le⟩
    intro account' stamp hStamp
    dsimp only at hStamp ⊢
    rw [get_insert] at hStamp
    by_cases hAccount : account' = account
    · rw [if_pos hAccount, Option.some.injEq] at hStamp
      subst hAccount
      refine ⟨StorageMap.containsKey_iff.mpr ⟨info, hGet⟩, ?_⟩
      rw [← hStamp]
      change _ ≤ s.now
      cases chain.latestRootSourceTime info.collection
        info.ring with
      | none => exact Nat.le_refl s.now
      | some sourceTime => exact Nat.min_le_right _ _
    · rw [if_neg hAccount] at hStamp
      exact hLinked.stamped account' stamp hStamp

theorem Linked.retireOne (hLinked : s.Linked) (account : A) :
    (s.retireOne account).Linked := by
  unfold AliasState.retireOne
  cases hGet : s.accountToAlias.get account with
  | none => exact hLinked
  | some info => exact hLinked.dropMapping hGet

theorem Linked.clearReportOne (hLinked : s.Linked) (account : A) :
    (s.clearReportOne account).Linked := by
  unfold AliasState.clearReportOne
  cases hGet : s.accountToAlias.get account with
  | none => exact hLinked
  | some info =>
    refine ⟨hLinked.inverse, hLinked.count, ?_, hLinked.timestamp_le⟩
    intro account' stamp hStamp
    dsimp only at hStamp
    rw [get_remove] at hStamp
    by_cases hAccount : account' = account
    · simp [hAccount] at hStamp
    · rw [if_neg hAccount] at hStamp
      exact hLinked.stamped account' stamp hStamp

theorem Linked.sweepOne (hLinked : s.Linked) (action : StaleAliasAction) (account : A) :
    (sweepOne chain action s account).Linked := by
  cases action with
  | report => exact hLinked.reportOne account
  | retire => exact hLinked.retireOne account
  | clearReport => exact hLinked.clearReportOne account

variable {accounts : BoundedVec A C.maxStaleAliasBatch} {source : TransactionSource}

variable {action : StaleAliasAction}

theorem sweep_eq_ok (hSweep : sweep chain s source accounts action = .ok s') :
    (∀ account ∈ accounts.toList, staleAliasAction C chain s account = some action)
      ∧ s' = accounts.toList.foldl (sweepOne chain action) s := by
  unfold sweep authorizeSweep at hSweep
  simp only [bind_eq_ok, ensure_eq_ok_iff, exists_const, pure_eq_ok] at hSweep
  rcases hSweep with ⟨⟨_, _, _, hActions⟩, rfl⟩
  exact ⟨hActions, rfl⟩

theorem Linked.sweep (hLinked : s.Linked)
    (hSweep : AliasState.sweep chain s source accounts action = .ok s') :
    s'.Linked := by
  rw [(sweep_eq_ok hSweep).2]
  clear hSweep
  induction accounts.toList generalizing s with
  | nil => exact hLinked
  | cons account rest ih =>
    rw [List.foldl_cons]
    exact ih (hLinked.sweepOne action account)

theorem Linked.setTimestamp (hLinked : s.Linked) {moment : Nat}
    (hSet : s.setTimestamp moment = .ok s') :
    s'.Linked := by
  unfold AliasState.setTimestamp at hSet
  simp only [bind_eq_ok, ensure_eq_ok_iff, exists_const, pure_eq_ok] at hSet
  rcases hSet with ⟨⟨hLater, hLe⟩, rfl⟩
  refine ⟨hLinked.inverse, hLinked.count, ?_, hLe⟩
  intro account stamp hStamp
  have hOld := hLinked.stamped account stamp hStamp
  exact ⟨hOld.1, Nat.le_trans hOld.2 (Nat.div_le_div_right hLater)⟩

variable {step : Service A P × Op C A P}

theorem Linked.perform (hLinked : s.Linked) (hStep : s.perform step = .ok s') :
    s'.Linked := by
  rcases step with ⟨chain, op⟩
  cases op with
  | setTimestamp moment => exact hLinked.setTimestamp hStep
  | unsetAliasAccount who =>
    exact hLinked.unsetAliasAccount hStep
  | setAliasAccount who proof collection ringIndex ringRevision
      context proofValidAt =>
      exact hLinked.setAliasAccount hStep
  | reproveAliasAccount who proof ringIndex ringRevision
      proofValidAt =>
      exact hLinked.reproveAliasAccount hStep
  | reportStaleAliases source accounts =>
    exact hLinked.sweep hStep
  | retireStaleAliases source accounts =>
    exact hLinked.sweep hStep
  | clearStaleAliasReports source accounts =>
    exact hLinked.sweep hStep

--
-- Stamps that Stay
--

/- A stamp that is there after a step was there before it, for the same mapping. -/
def StampKept (s s' : AliasState A) (account : A) : Prop :=
  ∀ stamp, s'.staleSince.get account = some stamp → s.staleSince.get account = some stamp
      ∧ s'.accountToAlias.get account = s.accountToAlias.get account

theorem StampKept.trans {s₁ : AliasState A} (hFirst : s.StampKept s₁ account)
    (hRest : s₁.StampKept s' account) :
    s.StampKept s' account := by
  intro stamp hStamp
  rcases hRest stamp hStamp with ⟨hMiddle, hSame⟩
  rcases hFirst stamp hMiddle with ⟨hOld, hSame'⟩
  exact ⟨hOld, hSame.trans hSame'⟩

/- What touches one account only, and takes its stamp, keeps all stamps. -/
theorem stampKept_of_touched (who : A) (hNone : s'.staleSince.get who = none)
    (hOther : ∀ account, account ≠ who → s'.staleSince.get account = s.staleSince.get account
        ∧ s'.accountToAlias.get account = s.accountToAlias.get account)
    (account : A) :
    s.StampKept s' account := by
  intro stamp hStamp
  by_cases hAccount : account = who
  · rw [hAccount, hNone] at hStamp
    cases hStamp
  · rcases hOther account hAccount with ⟨hSame, hGet⟩
    rw [hSame] at hStamp
    exact ⟨hStamp, hGet⟩

theorem stampKept_dropMapping (who : A) (info : AliasAccountInfo) (account : A) :
    s.StampKept (s.dropMapping who info) account := by
  apply stampKept_of_touched who
  · exact get_remove_self _ _
  · intro account' hNe
    unfold AliasState.dropMapping forgetAccount
    dsimp only
    rw [get_remove, get_remove, if_neg hNe, if_neg hNe]
    exact ⟨rfl, rfl⟩

theorem stampKept_moveReference (oldAccount : Option A) (who account : A) :
    s.StampKept (s.moveReference oldAccount who) account := by
  unfold moveReference
  cases oldAccount with
  | none => exact fun _ hStamp => ⟨hStamp, rfl⟩
  | some old =>
    apply stampKept_of_touched old
    · exact get_remove_self _ _
    · intro account' hNe
      unfold forgetAccount incSufficients
      dsimp only
      rw [get_remove, get_remove, if_neg hNe, if_neg hNe]
      exact ⟨rfl, rfl⟩

theorem stampKept_writeMapping (who : A) (info : AliasAccountInfo) (account : A) :
    s.StampKept (s.writeMapping who info) account := by
  apply stampKept_of_touched who
  · exact get_remove_self _ _
  · intro account' hNe
    unfold AliasState.writeMapping
    dsimp only
    rw [get_remove, get_insert, if_neg hNe, if_neg hNe]
    exact ⟨rfl, rfl⟩

theorem stampKept_retireOne (who account : A) :
    s.StampKept (s.retireOne who) account := by
  unfold AliasState.retireOne
  cases s.accountToAlias.get who with
  | none => exact fun _ hStamp => ⟨hStamp, rfl⟩
  | some info => exact stampKept_dropMapping who info account

theorem stampKept_clearReportOne (who account : A) :
    s.StampKept (s.clearReportOne who) account := by
  unfold AliasState.clearReportOne
  cases s.accountToAlias.get who with
  | none => exact fun _ hStamp => ⟨hStamp, rfl⟩
  | some info =>
    apply stampKept_of_touched who
    · exact get_remove_self _ _
    · intro account' hNe
      dsimp only
      rw [get_remove, if_neg hNe]
      exact ⟨rfl, rfl⟩

/- Reports change no mapping, and stamp their batch only. -/
theorem foldl_reportOne (chain : Service A P) (accounts : List A) (s : AliasState A) :
    (accounts.foldl (reportOne chain) s).accountToAlias = s.accountToAlias
      ∧ ∀ account, account ∉ accounts → (accounts.foldl (reportOne chain) s).staleSince.get account
          = s.staleSince.get account := by
  induction accounts generalizing s with
  | nil => exact ⟨rfl, fun _ _ => rfl⟩
  | cons who rest ih =>
    rw [List.foldl_cons]
    rcases ih (reportOne chain s who) with ⟨hMap, hStamps⟩
    rw [hMap]
    unfold AliasState.reportOne at hStamps ⊢
    cases hGet : s.accountToAlias.get who with
    | none =>
      rw [hGet] at hStamps
      refine ⟨rfl, ?_⟩
      intro account hMem
      exact hStamps account (fun hRest => hMem (List.mem_cons_of_mem _ hRest))
    | some info =>
      rw [hGet] at hStamps
      refine ⟨rfl, ?_⟩
      intro account hMem
      rw [List.mem_cons, not_or] at hMem
      rw [hStamps account hMem.2]
      exact StorageMap.get_insert_of_ne _ _ hMem.1

/- The account sets or reproves its alias. -/
def Writes (account : A) (step : Service A P × Op C A P) : Prop :=
  match step.2 with
  | .setAliasAccount who _ _ _ _ _ _ => who = account
  | .reproveAliasAccount who _ _ _ _ => who = account
  | _ => False

/- The account is reported stale, with others. -/
def Reports (account : A) (step : Service A P × Op C A P) : Prop :=
  match step.2 with
  | .reportStaleAliases _ accounts => account ∈ accounts.toList
  | _ => False

theorem stampKept_foldl {f : AliasState A → A → AliasState A}
    (hStep : ∀ s who, StampKept s (f s who) account) (accounts : List A) (s : AliasState A) :
    s.StampKept (accounts.foldl f s) account := by
  induction accounts generalizing s with
  | nil => exact fun _ hStamp => ⟨hStamp, rfl⟩
  | cons who rest ih =>
    rw [List.foldl_cons]
    exact (hStep s who).trans (ih (f s who))

theorem setAliasAccount_stamps
    (hSet : setAliasAccount C chain s who proof collection ringIndex
        ringRevision context proofValidAt = .ok s')
    (account : A) :
    s.StampKept s' account ∧ s'.staleSince.get who = none := by
  rcases setAliasAccount_eq_ok hSet with ⟨info, _, ⟨_, rfl⟩ | ⟨_, _, rfl⟩⟩
  · exact ⟨stampKept_writeMapping who info account, get_remove_self _ _⟩
  · exact ⟨(stampKept_moveReference _ who account).trans (stampKept_writeMapping who info account),
      get_remove_self _ _⟩

theorem reproveAliasAccount_eq_ok
    (hReprove : reproveAliasAccount C chain s who proof ringIndex
        ringRevision proofValidAt = .ok s') :
    ∃ old info : AliasAccountInfo, s.accountToAlias.get who = some old
        ∧ (info.ring ≠ old.ring ∨ old.revision < info.revision)
        ∧ s' = s.writeMapping who info := by
  unfold reproveAliasAccount at hReprove
  simp only [bind_eq_ok, okOr_eq_ok_iff, ensure_eq_ok_iff, exists_const, pure_eq_ok]
    at hReprove
  rcases hReprove with ⟨_, _, old, hGet, validated, _, _, hLater, rfl⟩
  exact ⟨old, _, hGet, hLater, rfl⟩

/-
  A stamp after a step was there before and its account wrote nothing, or it was put there by a
  report of a mapping whose revision did not verify.
-/
theorem stamp_of_perform (hStep : s.perform step = .ok s') {stamp : Nat}
    (hStamp : s'.staleSince.get account = some stamp) :
    (¬Writes account step ∧ s.staleSince.get account = some stamp
        ∧ s'.accountToAlias.get account = s.accountToAlias.get account)
      ∨ (Reports account step ∧ s'.accountToAlias.get account = s.accountToAlias.get account
        ∧ staleAliasAction C step.1 s account = some .report) := by
  rcases step with ⟨chain, op⟩
  have hKeep : s.StampKept s' account → ¬Writes account (chain, op) → ¬Writes account (chain, op)
            ∧ s.staleSince.get account = some stamp
            ∧ s'.accountToAlias.get account = s.accountToAlias.get account :=
    fun hKept hNot => ⟨hNot, hKept stamp hStamp⟩
  cases op with
  | setTimestamp moment =>
    change s.setTimestamp moment = .ok s' at hStep
    unfold setTimestamp at hStep
    simp only [bind_eq_ok, ensure_eq_ok_iff, exists_const, pure_eq_ok] at hStep
    rcases hStep with ⟨_, rfl⟩
    exact Or.inl ⟨not_false, hStamp, rfl⟩
  | unsetAliasAccount who =>
    change s.unsetAliasAccount who = .ok s' at hStep
    unfold unsetAliasAccount at hStep
    simp only [bind_eq_ok, okOr_eq_ok_iff, pure_eq_ok] at hStep
    rcases hStep with ⟨info, _, rfl⟩
    exact Or.inl (hKeep (stampKept_dropMapping who info account) not_false)
  | setAliasAccount who proof collection ringIndex ringRevision
      context proofValidAt =>
      rcases setAliasAccount_stamps hStep account with ⟨hKept, hNone⟩
      refine Or.inl (hKeep hKept ?_)
      rintro rfl
      rw [hNone] at hStamp
      cases hStamp
  | reproveAliasAccount who proof ringIndex ringRevision
      proofValidAt =>
      rcases reproveAliasAccount_eq_ok hStep with ⟨_, info, _, _, rfl⟩
      refine Or.inl (hKeep (stampKept_writeMapping who info account) ?_)
      rintro rfl
      have hNone : (s.writeMapping who info).staleSince.get who = none := get_remove_self _ _
      rw [hNone] at hStamp
      cases hStamp
  | reportStaleAliases source accounts =>
    rcases sweep_eq_ok hStep with ⟨hActions, rfl⟩
    rcases foldl_reportOne chain accounts.toList s with ⟨hMap, hStamps⟩
    by_cases hMem : account ∈ accounts.toList
    · right
      refine ⟨hMem, ?_, hActions account hMem⟩
      exact congrArg (StorageMap.get · account) hMap
    · left
      refine ⟨not_false, ?_, ?_⟩
      · rw [← hStamps account hMem]
        exact hStamp
      · exact congrArg (StorageMap.get · account) hMap
  | retireStaleAliases source accounts =>
    rcases sweep_eq_ok hStep with ⟨_, rfl⟩
    left
    apply hKeep _ not_false
    exact stampKept_foldl (fun s who => stampKept_retireOne who account) _ s
  | clearStaleAliasReports source accounts =>
    rcases sweep_eq_ok hStep with ⟨_, rfl⟩
    left
    apply hKeep _ not_false
    exact stampKept_foldl (fun s who => stampKept_clearReportOne who account) _ s

--
-- Retirement over Runs
--

/-
  A step of the run reported the mapping, whose revision did not verify then, and put the stamp
  there.  Since that step its account neither set nor reproved its alias.
-/
def Reported (account : A) (info : AliasAccountInfo) (stamp : Nat) :
    List (TraceStep (AliasState A) (Service A P × Op C A P)) → Prop :=
  Since (fun x => Reports account x.op
      ∧ x.pre.accountToAlias.get account = some info
      ∧ x.op.1.verifies info = false
      ∧ x.post.staleSince.get account = some stamp)
    fun x => Writes account x.op

theorem verifies_of_report (hAction : staleAliasAction C chain s account = some .report) :
    ∃ info, s.accountToAlias.get account = some info ∧ chain.verifies info = false := by
  unfold staleAliasAction at hAction
  cases hGet : s.accountToAlias.get account with
  | none => simp [hGet] at hAction
  | some info =>
    refine ⟨info, rfl, ?_⟩
    by_contra hVerifies
    rw [Bool.not_eq_false] at hVerifies
    simp only [hGet, Option.bind_eq_bind, Option.bind_some, hVerifies, if_true] at hAction
    split_ifs at hAction with hStamp
    cases hAction

theorem stamp_of_retire (hAction : staleAliasAction C chain s account = some .retire) :
    ∃ info stamp, s.accountToAlias.get account = some info ∧ chain.verifies info = false
        ∧ s.staleSince.get account = some stamp
        ∧ saturatingAdd u64Max stamp C.mappingRetention ≤ s.now := by
  unfold staleAliasAction at hAction
  cases hGet : s.accountToAlias.get account with
  | none => simp [hGet] at hAction
  | some info =>
    simp only [hGet, Option.bind_eq_bind, Option.bind_some] at hAction
    by_cases hVerifies : chain.verifies info = true
    · simp only [hVerifies, if_true] at hAction
      split_ifs at hAction with hStamp
      cases hAction
    · rw [if_neg hVerifies] at hAction
      cases hStamp : s.staleSince.get account with
      | none =>
        rw [hStamp] at hAction
        cases hAction
      | some stamp =>
        simp only [hStamp] at hAction
        split_ifs at hAction with hPassed
        exact ⟨info, stamp, rfl, Bool.eq_false_iff.mpr hVerifies, rfl, hPassed⟩

variable {steps : List (TraceStep (AliasState A) (Service A P × Op C A P))}

/- Every stamp was reported for the mapping it belongs to. -/
theorem reported_of_trace (hTrace : Trace perform (fun _ _ _ => True) genesis steps s) :
    ∀ account stamp, s.staleSince.get account = some stamp → ∃ info,
        s.accountToAlias.get account = some info ∧ Reported account info stamp steps := by
  induction hTrace with
  | nil =>
    intro account stamp hStamp
    cases hStamp
  | snoc _ _ hStep ih =>
    intro account stamp hStamp
    rcases stamp_of_perform hStep hStamp with ⟨hNotWrites, hOld, hSame⟩ | ⟨hReports, hSame, hAction⟩
    · rcases ih account stamp hOld with ⟨info, hGet, hReported⟩
      exact ⟨info, hSame.trans hGet, Since.snoc hReported hNotWrites⟩
    · rcases verifies_of_report hAction with ⟨info, hGet, hVerifies⟩
      exact ⟨info, hSame.trans hGet, Since.last ⟨hReports, hGet, hVerifies, hStamp⟩⟩

theorem linked_of_run
    (hRun : RunUnder perform (fun _ (_ : Service A P × Op C A P) _ => True)
        genesis s) :
    s.Linked :=
  hRun.invariant AliasState.Linked (fun _ _ _ _ hStep hLinked => hLinked.perform hStep)
    linked_genesis

/- The seconds of a `u64` of milliseconds do not reach its end. -/
theorem Linked.now_lt (hLinked : s.Linked) : s.now < u64Max := by
  have hLe := hLinked.timestamp_le
  unfold now
  unfold u64Max at *
  omega

/- What a retirement leaves alone is what its batch leaves out. -/
theorem get_foldl_retireOne (accounts : List A) (s : AliasState A) (hMem : account ∉ accounts) :
    (accounts.foldl retireOne s).accountToAlias.get account = s.accountToAlias.get account := by
  induction accounts generalizing s with
  | nil => rfl
  | cons who rest ih =>
    rw [List.mem_cons, not_or] at hMem
    rw [List.foldl_cons, ih _ hMem.2]
    unfold retireOne
    cases s.accountToAlias.get who with
    | none => rfl
    | some info =>
      unfold dropMapping forgetAccount
      dsimp only
      rw [get_remove, if_neg hMem.1]

/-
  Aliases and accounts name each other, with one reference per mapping and stamps that lie in the
  past.  Within a ring a reproved revision grows, and a mapping is retired when it does not verify
  and was reported long enough ago.
-/
theorem mappings_retired (hTrace : Trace perform (fun _ _ _ => True) genesis steps s) :
    (∀ collection ca account, s.aliasToAccount.get (collection, ca) = some account ↔ ∃ info,
              s.accountToAlias.get account = some info ∧ info.collection = collection
                ∧ info.ca = ca)
      ∧ (∀ account, s.sufficients.getD account 0 = if s.accountToAlias.containsKey account then 1
          else 0)
      ∧ (∀ account stamp, s.staleSince.get account = some stamp →
          s.accountToAlias.containsKey account = true ∧ stamp ≤ s.now)
      ∧ (∀ (chain : Service A P) (who : A) (proof : P) (ringIndex ringRevision proofValidAt : Nat)
            (s' : AliasState A) (old info : AliasAccountInfo),
          reproveAliasAccount C chain s who proof ringIndex ringRevision proofValidAt = .ok s' →
            s.accountToAlias.get who = some old →
            s'.accountToAlias.get who = some info →
            info.ring = old.ring → old.revision < info.revision)
      ∧ ∀ (chain : Service A P) (source : TransactionSource)
          (accounts : BoundedVec A C.maxStaleAliasBatch)
          (s' : AliasState A) (account : A)
          (info : AliasAccountInfo),
          retireStaleAliases chain s source accounts = .ok s' →
            s.accountToAlias.get account = some info →
            s'.accountToAlias.get account = none → chain.verifies info = false
                ∧ ∃ stamp, s.staleSince.get account = some stamp
                    ∧ stamp + C.mappingRetention ≤ s.now
                    ∧ Reported account info stamp steps := by
  have hLinked := linked_of_run hTrace.run
  refine ⟨?_, hLinked.count, hLinked.stamped, ?_, ?_⟩
  · intro collection ca account
    rw [hLinked.inverse]
    unfold Names
    simp only [Prod.mk.injEq, eq_comm]
  · intro chain who proof ringIndex ringRevision proofValidAt s' old info hReprove hOld hInfo hRing
    rcases reproveAliasAccount_eq_ok hReprove with ⟨old', info', hOld', hLater, rfl⟩
    have hWritten : (s.writeMapping who info').accountToAlias.get who = some info' :=
      StorageMap.get_insert_self _ _ _
    rw [hOld', Option.some.injEq] at hOld
    rw [hWritten, Option.some.injEq] at hInfo
    subst hOld hInfo
    exact hLater.resolve_left (not_not.mpr hRing)
  · intro chain source accounts s' account info hRetire hGet hGone
    rcases sweep_eq_ok hRetire with ⟨hActions, rfl⟩
    have hMem : account ∈ accounts.toList := by
      by_contra hNotMem
      change (accounts.toList.foldl retireOne s).accountToAlias.get account = none at hGone
      rw [get_foldl_retireOne _ s hNotMem, hGet] at hGone
      cases hGone
    rcases stamp_of_retire (hActions account hMem) with
      ⟨info', stamp, hGet', hVerifies, hStamp, hPassed⟩
    rw [hGet, Option.some.injEq] at hGet'
    subst hGet'
    refine ⟨hVerifies, stamp, hStamp, ?_, ?_⟩
    · have hNow := hLinked.now_lt
      unfold saturatingAdd at hPassed
      omega
    · rcases reported_of_trace hTrace account stamp hStamp with ⟨info', hGet', hReported⟩
      rw [hGet, Option.some.injEq] at hGet'
      exact hGet' ▸ hReported

--
-- A Small Run
--

/- Mappings are kept for ten seconds. -/
def sampleConfig : Config where
  proofValidityWindow := 100
  mappingRetention := 10
  maxStaleAliasBatch := 2

/- Revisions from the given one on verify. -/
def sampleService (revision : Nat) : Service Nat Unit where
  isRevisionValid := fun _ _ r => decide (revision ≤ r)
  verifyMembership := fun _ _ _ _ context _ =>
    some { alias_ := 1, context := context }
  latestRootSourceTime := fun _ _ => none
  aliasFee := some 1
  burnFrom := fun _ _ => true

/- One account is set, reproved and reported stale. -/
def sampleSteps :
    List (Service Nat Unit × Op sampleConfig Nat Unit) :=
  [(sampleService 0, .setAliasAccount 7 () peopleIdentifier 0 0 0 0),
    (sampleService 1, .reproveAliasAccount 7 () 0 1 0),
    (sampleService 2, .reportStaleAliases .local_ ⟨[7], by decide⟩),
    (sampleService 2, .setTimestamp 10000)]

/- The mapping is retired after the ten seconds. -/
theorem mappings_retired_sample :
    ∃ (s s' : AliasState Nat) (info : AliasAccountInfo) (steps : List (TraceStep (AliasState Nat)
        (Service Nat Unit × Op sampleConfig Nat Unit))),
      Trace perform (fun _ _ _ => True) genesis steps s ∧ retireStaleAliases (C := sampleConfig)
            (sampleService 2) s .local_ ⟨[7], by decide⟩ = .ok s'
        ∧ s.accountToAlias.get 7 = some info
        ∧ s'.accountToAlias.get 7 = none
        ∧ (sampleService 2).verifies info = false
        ∧ ∃ stamp, s.staleSince.get 7 = some stamp ∧ stamp + 10 ≤ s.now
            ∧ Reported 7 info stamp steps := by
  have hExecute : (execute perform (fun _ _ => true) genesis sampleSteps).any (fun s =>
          decide ((s.accountToAlias.get 7).isSome = true
              ∧ (retireStaleAliases (C := sampleConfig) (sampleService 2) s .local_
                  ⟨[7], by decide⟩).toOption.any
                (fun s' => decide (s'.accountToAlias.get 7 = none))
                = true)) = true := by
    decide +kernel
  rcases exists_run_of_execute (fun _ _ _ _ _ => (trivial : True)) hExecute with ⟨s, hRun, hTest⟩
  rw [decide_eq_true_eq] at hTest
  rcases Option.isSome_iff_exists.mp hTest.1 with ⟨info, hInfo⟩
  rcases Except.exists_ok_of_any hTest.2 with ⟨s', hRetire, hGone⟩
  have hGone' := of_decide_eq_true hGone
  rcases hRun.exists_trace with ⟨steps, hTrace⟩
  rcases (mappings_retired hTrace).2.2.2.2 (sampleService 2) .local_
      ⟨[7], by decide⟩ s' 7 info hRetire hInfo hGone' with
    ⟨hVerifies, stamp, hStamp, hPassed, hReported⟩
  exact ⟨s, s', info, steps, hTrace, hRetire, hInfo, hGone', hVerifies,
    stamp, hStamp, hPassed, hReported⟩

end AliasState

end Individuality.AliasAccounts
