import Individuality.Resources.Usernames

/-
  Claims with anonymous proofs: each is accepted once, in its
  own window, and its allowance is revoked after the window.

  Main declaration: `ResourceState.claims_once_and_in_time`
-/

namespace Individuality.Resources

open PeopleMulti (Bytes32 TransactionSource)

namespace ResourceState

variable {C : Config} {K A P S : Type} [DecidableEq A] {s s' : ResourceState C K A}
variable {service : Service A P S} {period : Nat} {alias_ : Bytes32} {params : Parameters}

/- The numbers of days and of periods fit into a `u32`. -/
def InRange (s : ResourceState C K A) : Prop :=
  s.now / secondsPerDay < 2 ^ 32 ∧ s.now / C.longTermStoragePeriodDuration < 2 ^ 32

--
-- Accepted Periods
--

/- A moment lies in the period of its number. -/
theorem eq_div_iff {duration now : Nat} (hDuration : 0 < duration) :
    period = now / duration ↔ period * duration ≤ now ∧ now < (period + 1) * duration := by
  rw [eq_comm, Nat.div_eq_iff hDuration, Nat.succ_mul]
  constructor <;> intro h <;> omega

omit [DecidableEq A] in
/- A period is accepted until the grace window after it. -/
theorem isAcceptedLongTermStoragePeriod_iff
    (hRange : s.now / C.longTermStoragePeriodDuration < 2 ^ 32) (period : Nat) :
    s.isAcceptedLongTermStoragePeriod period
      ↔ period * C.longTermStoragePeriodDuration ≤ s.now ∧ s.now
          < (period + 1) * C.longTermStoragePeriodDuration + C.longTermStorageGraceWindow := by
  have hPos := C.longTermStoragePeriodDuration_pos
  have hGrace := C.longTermStorageGraceWindow_lt
  have hShifted : (s.now - C.longTermStorageGraceWindow) / C.longTermStoragePeriodDuration
        < 2 ^ 32 :=
    Nat.lt_of_le_of_lt (Nat.div_le_div_right (Nat.sub_le _ _)) hRange
  unfold isAcceptedLongTermStoragePeriod longTermStoragePeriodFromTimestamp
  rw [Nat.mod_eq_of_lt hRange, Nat.mod_eq_of_lt hShifted,
    eq_div_iff hPos, eq_div_iff hPos, Nat.succ_mul]
  omega

--
-- Storage Claims are Spent
--

/-
  No storage was claimed twice, and what was claimed is spent or its period is no longer accepted.
-/
structure Spent (s : ResourceState C K A) : Prop where
  nodup : s.storageClaims.Nodup
  recorded : ∀ period alias_,
      (period, alias_) ∈ s.storageClaims →
        s.spentLongTermStorageAliases.containsKey
            (period, alias_) = true
          ∨ (period + 1) * C.longTermStoragePeriodDuration
              + C.longTermStorageGraceWindow
            < s.now

omit [DecidableEq A] in
theorem spent_genesis : (genesis C K A).Spent where
  nodup := List.nodup_nil
  recorded := by simp [genesis]

omit [DecidableEq A] in
theorem Spent.of_same (hSpent : s.Spent) (hClaims : s'.storageClaims = s.storageClaims)
    (hAliases : s'.spentLongTermStorageAliases = s.spentLongTermStorageAliases)
    (hNow : s.now ≤ s'.now) :
    s'.Spent where
  nodup := by rw [hClaims]; exact hSpent.nodup
  recorded := by
    intro period alias_ hMem
    rw [hClaims] at hMem
    rw [hAliases]
    exact (hSpent.recorded period alias_ hMem).imp_right fun hOver => Nat.lt_of_lt_of_le hOver hNow

omit [DecidableEq A] in
theorem Spent.claimLongTermStorage (hSpent : s.Spent)
    (hRange : s.now / C.longTermStoragePeriodDuration < 2 ^ 32)
    (hAccepted : s.isAcceptedLongTermStoragePeriod period)
    (hUnspent : s.spentLongTermStorageAliases.get (period, alias_) = none) :
    (s.claimLongTermStorage alias_ period).Spent where
  nodup := by
    unfold ResourceState.claimLongTermStorage
    dsimp only
    rw [List.nodup_append]
    refine ⟨hSpent.nodup, List.nodup_singleton _, ?_⟩
    rintro claim hClaim claim' hClaim' rfl
    rw [List.mem_singleton] at hClaim'
    subst hClaim'
    -- an old claim is spent still, or its period is over
    rcases hSpent.recorded period alias_ hClaim with
      hOld | hOver
    · rw [StorageMap.containsKey_eq_false_iff.mpr hUnspent] at hOld
      cases hOld
    · have hOpen := ((isAcceptedLongTermStoragePeriod_iff hRange period).mp hAccepted).2
      omega
  recorded := by
    intro period' alias' hMem
    unfold ResourceState.claimLongTermStorage at hMem ⊢
    dsimp only at hMem ⊢
    rw [StorageMap.containsKey_insert]
    rw [List.mem_append, List.mem_singleton] at hMem
    rcases hMem with hOld | hNew
    · rcases hSpent.recorded period' alias' hOld with
        hKey | hOver
      · exact Or.inl (by rw [hKey, Bool.or_true])
      · exact Or.inr hOver
    · exact Or.inl (by simp [hNew])

omit [DecidableEq A] in
/- Spent records go when their period is no longer accepted. -/
theorem Spent.clearExpired (hSpent : s.Spent) (hNow : s.now ≤ u64Max) {keys : List (Nat × Bytes32)}
    (hClearable : s.isLongTermStoragePeriodClearable period)
    (hKeys : ∀ key ∈ keys, key.1 = period) :
    ({ s with
        spentLongTermStorageAliases := keys.foldl (·.remove ·) s.spentLongTermStorageAliases } :
      ResourceState C K A).Spent where
  nodup := hSpent.nodup
  recorded := by
    intro period' alias' hMem
    dsimp only
    rcases hSpent.recorded period' alias' hMem with hKey | hOver
    · by_cases hCleared : (period', alias') ∈ keys
      · right
        have hPeriod : period' = period := hKeys _ hCleared
        rw [hPeriod]
        unfold isLongTermStoragePeriodClearable saturatingAdd saturatingMul at hClearable
        omega
      · left
        rw [StorageMap.containsKey_iff] at hKey ⊢
        rw [StorageMap.get_foldl_remove, if_neg hCleared]
        exact hKey
    · exact Or.inr hOver

--
-- Operations without Claims
--

/- Nothing was claimed, and nothing was cleaned up. -/
structure SameClaims (s s' : ResourceState C K A) : Prop where
  now : s'.now = s.now
  slots : s'.statementStoreAllowances = s.statementStoreAllowances
  notifications : s'.notificationAliasByAccount = s.notificationAliasByAccount
  spent : s'.spentLongTermStorageAliases = s.spentLongTermStorageAliases
  claims : s'.storageClaims = s.storageClaims

theorem sameClaims_of_registerLiteConsumerInner
    {account : A} {identifierKey : K} {username : Username} {reserved : Option Username}
    (hRegister : s.registerLiteConsumerInner account identifierKey username reserved = .ok s') :
    s.SameClaims s' := by
  rcases registerLiteConsumerInner_eq_ok hRegister with ⟨_, _, _, reserving, hReserving, rfl⟩
  rcases hReserving with rfl | ⟨name, hReserve⟩
  · exact ⟨rfl, rfl, rfl, rfl, rfl⟩
  · rcases reserveUsername_eq_ok hReserve with ⟨_, _, _, queue, _, rfl⟩
    exact ⟨rfl, rfl, rfl, rfl, rfl⟩

theorem sameClaims_of_registerPerson {linked : A} {proof : S} {choice : PersonalUsernameChoice}
    (hRegister : registerPerson service s alias_ linked proof choice = .ok s') :
    s.SameClaims s' := by
  cases choice with
  | standalone username =>
    rcases registerPersonStandalone_eq_ok hRegister with ⟨_, _, _, left, hLeave, hInner⟩
    rcases registerPersonInner_eq_ok hInner with ⟨info, _, _, rfl⟩
    rcases leaveReservation_eq_ok hLeave with ⟨_, rfl⟩ | ⟨_, _, _, _, _, _, _, _, _, _, rfl⟩
    · exact ⟨rfl, rfl, rfl, rfl, rfl⟩
    · exact ⟨rfl, rfl, rfl, rfl, rfl⟩
  | reservation username =>
    rcases registerPersonReservation_eq_ok hRegister with ⟨_, queue, _, _, hInner⟩
    rcases registerPersonInner_eq_ok hInner with ⟨info, _, _, rfl⟩
    exact ⟨rfl, rfl, rfl, rfl, rfl⟩

theorem sameClaims_of_touchPersonAuthorization
    (hTouch : s.touchPersonAuthorization alias_ = .ok s') :
    s.SameClaims s' := by
  rcases touchPersonAuthorization_eq_ok hTouch with
    ⟨account, info, stored, lastUpdate, wasDemoted, _, _, _, rfl⟩
  cases wasDemoted with
  | true => exact ⟨rfl, rfl, rfl, rfl, rfl⟩
  | false => exact ⟨rfl, rfl, rfl, rfl, rfl⟩

--
-- Clean-Ups after the Window
--

/- What is gone after a step was revoked after the end of its period and the grace window. -/
structure RevokedInTime (params : Parameters) (s s' : ResourceState C K A) : Prop where
  slots : ∀ period alias_ entry,
      s.statementStoreAllowances.get (period, alias_)
          = some entry →
        s'.statementStoreAllowances.get (period, alias_)
            = none →
          (period + 1) * secondsPerDay
              + params.stmtStoreGraceWindow
            < s.now
  notifications : ∀ account alias_ registration,
      s.notificationAliasByAccount.get account = some alias_ →
        s.notificationRegistrationByAlias.get alias_
            = some registration →
          s'.notificationAliasByAccount.get account = none →
            (registration.reference.period + 1) * secondsPerDay
                + params.stmtStoreGraceWindow
              < s.now

theorem SameClaims.revokedInTime (hSame : s.SameClaims s') (params : Parameters) :
    RevokedInTime params s s' where
  slots := by
    intro period alias_ entry hGet hGone
    rw [hSame.slots, hGet] at hGone
    cases hGone
  notifications := by
    intro account alias_ registration hGet _ hGone
    rw [hSame.notifications, hGet] at hGone
    cases hGone

theorem Claimed.revokedInTime (hClaimed : Claimed service s s') (params : Parameters) :
    RevokedInTime params s s' := by
  have hSlots : ∀ key entry, s.statementStoreAllowances.get key = some entry →
          s'.statementStoreAllowances.get key ≠ none := by
    intro key entry hGet
    cases hClaimed with
    | notification => exact hGet ▸ Option.some_ne_none entry
    | grant | replace =>
      unfold ResourceState.withSlot increaseAllowanceBy
      try unfold revokeSlot decreaseAllowanceBy
      dsimp only
      rw [StorageMap.get_insert]
      split_ifs
      · exact Option.some_ne_none _
      · exact hGet ▸ Option.some_ne_none entry
    | storage => exact hGet ▸ Option.some_ne_none entry
    | unchanged => exact hGet ▸ Option.some_ne_none entry
  have hNotifications : ∀ account alias_, s.notificationAliasByAccount.get account = some alias_ →
          s'.notificationAliasByAccount.get account ≠ none := by
    intro account alias_ hGet
    cases hClaimed with
    | notification =>
      unfold ResourceState.withNotification increaseAllowanceBy
      dsimp only
      rw [StorageMap.get_insert]
      split_ifs
      · exact Option.some_ne_none _
      · exact hGet ▸ Option.some_ne_none alias_
    | grant => exact hGet ▸ Option.some_ne_none alias_
    | replace => exact hGet ▸ Option.some_ne_none alias_
    | storage => exact hGet ▸ Option.some_ne_none alias_
    | unchanged => exact hGet ▸ Option.some_ne_none alias_
  exact ⟨fun period alias_ entry hGet hGone =>
        absurd hGone (hSlots (period, alias_) entry hGet),
      fun account alias_ _ hGet _ hGone =>
        absurd hGone (hNotifications account alias_ hGet)⟩

/- Whether a clean-up is for the last day that has a number, or for one after it. -/
def ClearsLastPeriod (params : Parameters) (s : ResourceState C K A) : Op K A P S → Prop
  | .clearExpiredStmtStoreAllowances _ period _ =>
    u32Max ≤ period ∧ 0 < params.stmtStoreCleanupLimit
  | .clearExpiredNotificationSequence _ account _ =>
    ∃ alias_ registration, s.notificationAliasByAccount.get account = some alias_
        ∧ s.notificationRegistrationByAlias.get alias_ = some registration
        ∧ u32Max ≤ registration.reference.period
  | _ => False

omit [DecidableEq A] in
/- Before the last day, a period ends where the next begins. -/
theorem lt_now_of_periodExpiry (hNow : s.now ≤ u64Max) (hPeriod : period < u32Max)
    (hExpired : periodExpiry params period < s.now) :
    (period + 1) * secondsPerDay + params.stmtStoreGraceWindow < s.now := by
  unfold periodExpiry saturatingAdd saturatingMul at hExpired
  have hNext : min (period + 1) u32Max = period + 1 := Nat.min_eq_left hPeriod
  rw [hNext] at hExpired
  omega

omit [DecidableEq A] in
/- The last day does not end within the range of the clock. -/
theorem now_lt_of_lastPeriod (hRange : s.now / secondsPerDay < 2 ^ 32) (hPeriod : u32Max ≤ period) :
    s.now < (period + 1) * secondsPerDay := by
  rw [Nat.div_lt_iff_lt_mul (by decide)] at hRange
  apply Nat.lt_of_lt_of_le hRange
  apply Nat.mul_le_mul_right
  exact Nat.succ_le_succ hPeriod

omit [DecidableEq A] in
theorem mem_aliasesAt_iff {ν : Type} {m : StorageMap (Nat × Bytes32) ν} {alias_ : Bytes32} :
    alias_ ∈ aliasesAt C m period ↔ ∃ v, m.get (period, alias_) = some v := by
  unfold aliasesAt
  rw [(C.hashOrder_perm _).mem_iff, List.mem_map]
  constructor
  · rintro ⟨⟨alias', v⟩, hMem, rfl⟩
    exact ⟨v, DoubleMap.mem_entriesAt_iff.mp hMem⟩
  · rintro ⟨v, hGet⟩
    exact ⟨(alias_, v), DoubleMap.mem_entriesAt_iff.mpr hGet, rfl⟩

omit [DecidableEq A] in
theorem head?_of_firstKey {ν : Type} {m : StorageMap (Nat × Bytes32) ν}
    (hFirst : firstKey C m = some (period, alias_)) :
    (aliasesAt C m period).head? = some alias_ := by
  unfold firstKey at hFirst
  simp only [Option.bind_eq_bind, Option.bind_eq_some_iff,
    Option.pure_def, Option.some.injEq, Prod.mk.injEq] at hFirst
  rcases hFirst with ⟨period', _, alias', hHead, rfl, rfl⟩
  exact hHead

/- What is drained is gone, and the rest stays. -/
theorem get_drainSlots (period : Nat) (aliases : List Bytes32) (key : Nat × Bytes32) :
    (aliases.foldl (drainSlot period) s).statementStoreAllowances.get key
      = if key.1 = period ∧ key.2 ∈ aliases then none else s.statementStoreAllowances.get key := by
  induction aliases generalizing s with
  | nil => simp
  | cons alias_ rest ih =>
    have hOne : (drainSlot period s alias_).statementStoreAllowances.get key
          = if key = (period, alias_) then none else s.statementStoreAllowances.get key := by
      unfold drainSlot
      split
      · next hNone =>
          split_ifs with hKey
          · rw [hKey, hNone]
          · rfl
      · exact StorageMap.get_remove _ _ _
    rw [List.foldl_cons, ih, hOne]
    rcases key with ⟨period', alias'⟩
    simp only [Prod.mk.injEq, List.mem_cons]
    by_cases hPeriod : period' = period <;> by_cases hAlias : alias' = alias_ <;>
        simp [hPeriod, hAlias]

theorem drainSlots_notifications (period : Nat) (aliases : List Bytes32) :
    (aliases.foldl (drainSlot period) s).notificationAliasByAccount
      = s.notificationAliasByAccount := by
  induction aliases generalizing s with
  | nil => rfl
  | cons alias_ rest ih =>
    rw [List.foldl_cons, ih]
    unfold drainSlot
    split <;> rfl

/- Days before the last are cleaned up in time, and only they. -/
theorem revokedInTime_clearStmtStore_iff (hNow : s.now ≤ u64Max)
    (hRange : s.now / secondsPerDay < 2 ^ 32) {source : TransactionSource} {firstEntry : Bytes32}
    (hClear : clearExpiredStmtStoreAllowances params s source period firstEntry = .ok s') :
    RevokedInTime params s s' ↔ ¬(u32Max ≤ period ∧ 0 < params.stmtStoreCleanupLimit) := by
  rcases clearExpiredStmtStoreAllowances_eq_ok hClear with ⟨hClearable, hFirst, rfl⟩
  constructor
  · rintro hInTime ⟨hLast, hLimit⟩
    have hHead := head?_of_firstKey hFirst
    have hMem : firstEntry ∈ aliasesAt C s.statementStoreAllowances period :=
      List.mem_of_mem_head? hHead
    rcases mem_aliasesAt_iff.mp hMem with ⟨entry, hGet⟩
    have hTaken : firstEntry ∈ (aliasesAt C s.statementStoreAllowances period).take
          params.stmtStoreCleanupLimit := by
      rw [List.head?_eq_some_iff] at hHead
      rcases hHead with ⟨rest, hList⟩
      rw [hList, ← Nat.succ_pred_eq_of_pos hLimit, List.take_succ_cons]
      exact List.mem_cons_self
    have hEnd := hInTime.slots period firstEntry entry hGet
        (by rw [get_drainSlots, if_pos ⟨rfl, hTaken⟩])
    have hBefore := now_lt_of_lastPeriod hRange hLast
    omega
  · intro hNotLast
    refine ⟨?_, ?_⟩
    · intro period' alias_ entry hGet hGone
      rw [get_drainSlots] at hGone
      by_cases hDrained : period' = period ∧ alias_ ∈ (aliasesAt C s.statementStoreAllowances
          period).take params.stmtStoreCleanupLimit
      · rcases hDrained with ⟨rfl, hTaken⟩
        have hLimit : 0 < params.stmtStoreCleanupLimit := by
          apply Nat.pos_of_ne_zero
          intro hZero
          rw [hZero] at hTaken
          cases hTaken
        apply lt_now_of_periodExpiry hNow _ hClearable
        by_contra hLast
        exact hNotLast ⟨Nat.le_of_not_lt hLast, hLimit⟩
      · rw [if_neg hDrained, hGet] at hGone
        cases hGone
    · intro account alias_ registration hGet _ hGone
      rw [drainSlots_notifications, hGet] at hGone
      cases hGone

theorem revokedInTime_clearNotification_iff (hNow : s.now ≤ u64Max)
    (hRange : s.now / secondsPerDay < 2 ^ 32) {source : TransactionSource} {account : A} {seq : Nat}
    (hClear : clearExpiredNotificationSequence params s source account seq = .ok s') :
    RevokedInTime params s s' ↔ ¬∃ alias_ registration,
        s.notificationAliasByAccount.get account = some alias_
          ∧ s.notificationRegistrationByAlias.get alias_ = some registration
          ∧ u32Max ≤ registration.reference.period := by
  rcases clearExpiredNotificationSequence_eq_ok hClear with
    ⟨alias_, registration, hAlias, hGet, _, hExpired, rfl⟩
  constructor
  · rintro hInTime ⟨alias', registration', hAlias', hGet', hLast⟩
    have hEnd := hInTime.notifications account alias' registration' hAlias'
        hGet' (StorageMap.get_remove_self _ _)
    have hBefore := now_lt_of_lastPeriod hRange hLast
    omega
  · intro hNotLast
    refine ⟨?_, ?_⟩
    · intro period alias' entry hSlot hGone
      exact absurd (hSlot.symm.trans hGone) (by simp)
    · intro account' alias' registration' hAlias' hGet' hGone
      by_cases hAccount : account' = account
      · subst hAccount
        rw [hAlias, Option.some.injEq] at hAlias'
        subst hAlias'
        rw [hGet, Option.some.injEq] at hGet'
        subst hGet'
        apply lt_now_of_periodExpiry hNow _ hExpired
        by_contra hLast
        exact hNotLast ⟨alias_, registration, hAlias, hGet, Nat.le_of_not_lt hLast⟩
      · unfold ResourceState.withoutNotification decreaseAllowanceBy at hGone
        dsimp only at hGone
        rw [StorageMap.get_remove_of_ne _ hAccount, hAlias'] at hGone
        cases hGone

--
-- Operations
--

/- Claims, clean-ups and the clock. -/
def concernsClaims : Op K A P S → Bool
  | .setClock _ => true
  | .clearExpiredNotificationSequence _ _ _ => true
  | .clearExpiredStmtStoreAllowances _ _ _ => true
  | .clearExpiredLongTermStorageAliases _ _ => true
  | .transaction _ => true
  | _ => false

/- All other operations leave claims alone. -/
theorem sameClaims_of_perform {op : Op K A P S} (hOther : concernsClaims op = false)
    (hStep : s.perform (service, op) = .ok s') :
    s.SameClaims s' := by
  cases op with
  | registerLiteConsumer account identifierKey username
      reservedUsername =>
      exact sameClaims_of_registerLiteConsumerInner hStep
  | registerPerson alias_ linked proof choice =>
    exact sameClaims_of_registerPerson hStep
  | touchPersonAuthorization alias_ =>
    exact sameClaims_of_touchPersonAuthorization hStep
  | removeExpiredUsernameReservation username account =>
    rcases removeExpiredUsernameReservation_eq_ok hStep with
      ⟨entry, _, _, queue, rest, _, _, _, _, _, rfl⟩
    exact ⟨rfl, rfl, rfl, rfl, rfl⟩
  | updateIdentifierKey who identifierKey =>
    rcases updateIdentifierKey_eq_ok hStep with ⟨info, _, rfl⟩
    exact ⟨rfl, rfl, rfl, rfl, rfl⟩
  | setUsernameReservationDuration duration =>
    cases hStep
    exact ⟨rfl, rfl, rfl, rfl, rfl⟩
  | demoteAuthExpired account =>
    rcases demoteAuthExpired_eq_ok hStep with ⟨info, _, _, _, _, rfl⟩
    exact ⟨rfl, rfl, rfl, rfl, rfl⟩
  | setClock | clearExpiredNotificationSequence
  | clearExpiredStmtStoreAllowances
  | clearExpiredLongTermStorageAliases | transaction =>
    cases hOther

omit [DecidableEq A] in
theorem setClock_eq_ok {now : Nat} (hSet : s.setClock now = .ok s') :
    s.now ≤ now ∧ s' = { s with now := now } := by
  unfold setClock at hSet
  simp only [Except.bind_eq_ok, ensure_eq_ok_iff, exists_const, Except.pure_eq_ok] at hSet
  exact ⟨hSet.1.1, hSet.2.symm⟩

theorem drainSlots_now (period : Nat) (aliases : List Bytes32) :
    (aliases.foldl (drainSlot period) s).now = s.now := by
  induction aliases generalizing s with
  | nil => rfl
  | cons alias_ rest ih =>
    rw [List.foldl_cons, ih]
    unfold drainSlot
    split <;> rfl

/- The clock does not go back. -/
theorem now_le_of_perform {op : Op K A P S} (hStep : s.perform (service, op) = .ok s') :
    s.now ≤ s'.now := by
  cases op with
  | setClock now =>
    rcases setClock_eq_ok hStep with ⟨hLater, rfl⟩
    exact hLater
  | clearExpiredNotificationSequence source account seq =>
    rcases clearExpiredNotificationSequence_eq_ok hStep with ⟨_, _, _, _, _, _, rfl⟩
    exact Nat.le_refl _
  | clearExpiredStmtStoreAllowances source period firstEntry =>
    rcases clearExpiredStmtStoreAllowances_eq_ok hStep with ⟨_, _, rfl⟩
    exact Nat.le_of_eq (drainSlots_now period _).symm
  | clearExpiredLongTermStorageAliases period limit =>
    rcases clearExpiredLongTermStorageAliases_eq_ok hStep with ⟨_, keys, _, rfl⟩
    exact Nat.le_refl _
  | transaction tx =>
    cases claimed_of_applyTransaction hStep
    all_goals exact Nat.le_refl _
  | _ => exact Nat.le_of_eq (sameClaims_of_perform rfl hStep).now.symm

theorem Spent.drainSlots (hSpent : s.Spent) (period : Nat) (aliases : List Bytes32) :
    (aliases.foldl (drainSlot period) s).Spent := by
  induction aliases generalizing s with
  | nil => exact hSpent
  | cons alias_ rest ih =>
    rw [List.foldl_cons]
    apply ih
    unfold drainSlot
    split
    · exact hSpent
    · exact hSpent.of_same rfl rfl (Nat.le_refl _)

theorem Spent.perform (hSpent : s.Spent) (hNamed : s.Named) (hRange : s.InRange)
    {step : Service A P S × Op K A P S} (hStep : s.perform step = .ok s') :
    s'.Spent := by
  rcases step with ⟨service, op⟩
  cases op with
  | setClock now =>
    rcases setClock_eq_ok hStep with ⟨hLater, rfl⟩
    exact hSpent.of_same rfl rfl hLater
  | clearExpiredNotificationSequence source account seq =>
    rcases clearExpiredNotificationSequence_eq_ok hStep with ⟨_, _, _, _, _, _, rfl⟩
    exact hSpent.of_same rfl rfl (Nat.le_refl _)
  | clearExpiredStmtStoreAllowances source period firstEntry =>
    rcases clearExpiredStmtStoreAllowances_eq_ok hStep with ⟨_, _, rfl⟩
    exact hSpent.drainSlots _ _
  | clearExpiredLongTermStorageAliases period limit =>
    rcases clearExpiredLongTermStorageAliases_eq_ok hStep with ⟨hClearable, keys, hKeys, rfl⟩
    exact hSpent.clearExpired hNamed.now_le hClearable hKeys
  | transaction tx =>
    cases claimed_of_applyTransaction hStep with
    | notification | grant | replace =>
      exact hSpent.of_same rfl rfl (Nat.le_refl _)
    | storage alias_ period hAccepted hUnspent =>
      exact hSpent.claimLongTermStorage hRange.2 hAccepted hUnspent
    | unchanged => exact hSpent
  | _ =>
    have hSame := sameClaims_of_perform rfl hStep
    exact hSpent.of_same hSame.claims hSame.spent (Nat.le_of_eq hSame.now.symm)

theorem revokedInTime_of_perform_iff (hNamed : s.Named) (hRange : s.InRange) {op : Op K A P S}
    (hStep : s.perform (service, op) = .ok s') :
    RevokedInTime service.toParameters s s' ↔ ¬ClearsLastPeriod service.toParameters s op := by
  cases op with
  | setClock now =>
    rcases setClock_eq_ok hStep with ⟨_, rfl⟩
    refine iff_of_true ⟨?_, ?_⟩ id
    · intro _ _ _ hGet hGone
      exact absurd (hGet.symm.trans hGone) (by simp)
    · intro _ _ _ hGet _ hGone
      exact absurd (hGet.symm.trans hGone) (by simp)
  | clearExpiredNotificationSequence source account seq =>
    exact revokedInTime_clearNotification_iff hNamed.now_le hRange.1 hStep
  | clearExpiredStmtStoreAllowances source period firstEntry =>
    exact revokedInTime_clearStmtStore_iff hNamed.now_le hRange.1 hStep
  | clearExpiredLongTermStorageAliases period limit =>
    rcases clearExpiredLongTermStorageAliases_eq_ok hStep with ⟨_, keys, _, rfl⟩
    refine iff_of_true ⟨?_, ?_⟩ id
    · intro _ _ _ hGet hGone
      exact absurd (hGet.symm.trans hGone) (by simp)
    · intro _ _ _ hGet _ hGone
      exact absurd (hGet.symm.trans hGone) (by simp)
  | transaction tx =>
    exact iff_of_true ((claimed_of_applyTransaction hStep).revokedInTime _) id
  | _ =>
    exact iff_of_true ((sameClaims_of_perform rfl hStep).revokedInTime _) id

/- What was validated is dispatched without an error. -/
theorem dispatchClaim_ok_of_validated {tx : Transaction A P} {origin : Origin}
    (hValid : Validated service s tx origin) :
    ∃ s', dispatchClaim service s origin tx.call = .ok s' := by
  cases hValid with
  | notification alias_ reference account hCall hPeriod hSeq
      hNew =>
      rw [hCall]
      refine ⟨s.withNotification alias_ reference account, ?_⟩
      unfold dispatchClaim
      dsimp only
      unfold setNotificationStatementAccountForSequence validateNotificationSeq
      rw [hPeriod, hNew, ensure_of hSeq]
      rfl
  | slot alias_ period seq target hCall hCooldown =>
    rw [hCall]
    unfold dispatchClaim
    dsimp only
    unfold setStatementStoreAccount
    cases hGet : s.statementStoreAllowances.get (period, alias_) with
    | none => exact ⟨_, rfl⟩
    | some existing =>
      dsimp only
      rw [ensure_of (hCooldown existing hGet)]
      exact ⟨_, rfl⟩
  | storage alias_ collection period counter account hCall =>
    rw [hCall]
    exact ⟨_, rfl⟩

--
-- Claims over Runs
--

/- A state reached while the clock is in range. -/
def ReachableInRange (P S : Type) (s : ResourceState C K A) : Prop :=
  RunUnder (perform : ResourceState C K A → Service A P S × Op K A P S → _)
    (fun _ _ s' => s'.InRange) (genesis C K A) s

omit [DecidableEq A] in
theorem inRange_genesis : (genesis C K A).InRange := by
  unfold InRange genesis
  simp

theorem spent_of_reachable (hReachable : ReachableInRange P S s) :
    s.InRange ∧ s.Named ∧ s.Spent :=
  RunUnder.invariant (fun s => s.InRange ∧ s.Named ∧ s.Spent) hReachable
    (fun _ _ _ hAllowed hStep h =>
      ⟨hAllowed, h.2.1.perform hStep, h.2.2.perform h.2.1 h.1 hStep⟩)
    ⟨inRange_genesis, named_genesis, spent_genesis⟩

theorem claims_once_and_in_time (hReachable : ReachableInRange P S s) :
    s.storageClaims.Nodup ∧ (∀ period, s.isAcceptedLongTermStoragePeriod period
            ↔ period * C.longTermStoragePeriodDuration ≤ s.now ∧ s.now
                < (period + 1) * C.longTermStoragePeriodDuration + C.longTermStorageGraceWindow)
      ∧ (∀ (service : Service A P S) op s', s.perform (service, op) = .ok s' →
          (RevokedInTime service.toParameters s s' ↔ ¬ClearsLastPeriod service.toParameters s op))
      ∧ ∀ (service : Service A P S) tx origin, validateTransaction service s tx = .ok origin →
          ∃ s', dispatchClaim service s origin tx.call = .ok s' := by
  rcases spent_of_reachable hReachable with ⟨hRange, hNamed, hSpent⟩
  refine ⟨hSpent.nodup, ?_, ?_, ?_⟩
  · exact isAcceptedLongTermStoragePeriod_iff hRange.2
  · intro service op s' hStep
    exact revokedInTime_of_perform_iff hNamed hRange hStep
  · intro service tx origin hValid
    exact dispatchClaim_ok_of_validated (validated_of_validateTransaction hValid)

--
-- The Last Day
--

instance (s : ResourceState C K A) : Decidable s.InRange :=
  inferInstanceAs (Decidable (_ ∧ _))

/- The sample service performs a step that ends in range. -/
def staysInRange (s : SampleState) (step : Service Nat Bytes32 Unit × SampleOp) : Bool :=
  (s.perform step).toOption.any fun s' => decide s'.InRange

theorem inRange_of_staysInRange (s : SampleState) (step : Service Nat Bytes32 Unit × SampleOp)
    (s' : SampleState) (hStays : staysInRange s step = true) (hStep : s.perform step = .ok s') :
    s'.InRange := by
  unfold staysInRange at hStays
  rw [hStep] at hStays
  exact of_decide_eq_true hStays

/- A slot and storage are claimed on a day, with proof `3`. -/
def sampleClaims (day : Nat) : List SampleOp :=
  [.setClock (day * secondsPerDay), .transaction
      { signed := false
        info := .registerStatementStoreAllowance 3 0 0 .people
        implication := 0
        call := .setStatementStoreAccount day 1 8 },
    .transaction
      { signed := false
        info := .claimLongTermStorage 3 0 0 .people
        implication := 0
        call := .claimLongTermStorage day 0 8 }]

/-
  Claims of the first day: the slot is cleaned up on the day
  after, and the storage is not accepted again.
-/
theorem claims_once_and_in_time_sample : ∃ s s' : SampleState,
      ReachableInRange Bytes32 Unit s ∧ s.storageClaims = [(0, 3)] ∧ s.storageClaims.Nodup
        ∧ ¬s.isAcceptedLongTermStoragePeriod 0
        ∧ s.perform (sampleService, .clearExpiredStmtStoreAllowances .local_ 0 3) = .ok s'
        ∧ RevokedInTime sampleService.toParameters s s' := by
  have hExecute : (execute ResourceState.perform staysInRange (genesis sampleConfig Nat Nat)
        ((sampleClaims 0 ++ [Op.setClock 90001]).map fun op => (sampleService, op))).any
        (fun s =>
          decide (s.storageClaims = [(0, 3)] ∧ s.now = 90001 ∧ (s.perform
                (sampleService, .clearExpiredStmtStoreAllowances .local_ 0
                    3)).toOption.any (fun _ => true)
              = true)) = true := by
    decide +kernel
  rcases exists_run_of_execute inRange_of_staysInRange hExecute with ⟨s, hRun, hTest⟩
  rw [decide_eq_true_eq] at hTest
  rcases hTest with ⟨hClaims, hNow, hClear⟩
  rcases Except.exists_ok_of_any hClear with ⟨s', hStep, _⟩
  rcases claims_once_and_in_time hRun with ⟨hNodup, hAccepted, hInTime, _⟩
  refine ⟨s, s', hRun, hClaims, hNodup, ?_, hStep, ?_⟩
  · rw [hAccepted, hNow]
    decide
  · apply (hInTime sampleService _ s' hStep).mpr
    rintro ⟨hLast, _⟩
    exact absurd hLast (by decide)

/- The slot of the last day is cleaned up on that day, because the number after it saturates. -/
theorem last_day_cleared_early : ∃ s s' : SampleState,
      ReachableInRange Bytes32 Unit s ∧ s.perform
            (sampleService, .clearExpiredStmtStoreAllowances .local_ u32Max 3)
          = .ok s'
        ∧ ¬RevokedInTime sampleService.toParameters s s' := by
  have hExecute : (execute ResourceState.perform staysInRange (genesis sampleConfig Nat Nat)
        ((sampleClaims u32Max ++ [Op.setClock (u32Max * secondsPerDay + 3601)]).map
          fun op => (sampleService, op))).any
        (fun s =>
          decide (s.now = u32Max * secondsPerDay + 3601
              ∧ (s.statementStoreAllowances.get (u32Max, 3)).isSome = true
              ∧ (s.perform (sampleService, .clearExpiredStmtStoreAllowances .local_
                      u32Max 3)).toOption.any
                  (fun s' =>
                    decide ((s'.statementStoreAllowances.get (u32Max, 3)).isSome = false))
                = true)) = true := by
    decide +kernel
  rcases exists_run_of_execute inRange_of_staysInRange hExecute with ⟨s, hRun, hTest⟩
  rw [decide_eq_true_eq] at hTest
  rcases hTest with ⟨hNow, hSome, hClear⟩
  rcases Option.isSome_iff_exists.mp hSome with ⟨entry, hGet⟩
  rcases Except.exists_ok_of_any hClear with ⟨s', hStep, hGone⟩
  refine ⟨s, s', hRun, hStep, ?_⟩
  intro hInTime
  have hEnd := hInTime.slots u32Max 3 entry hGet (by simpa using of_decide_eq_true hGone)
  rw [hNow] at hEnd
  exact absurd hEnd (by decide)

end ResourceState

end Individuality.Resources
