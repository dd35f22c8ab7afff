import Individuality.Resources.Pallet

/-
  What the calls of the resources pallet have checked, and what they write, when they succeed.

  Main declaration: `ResourceState.removeUsernameReservation_eq_ok`
-/

namespace Individuality.Resources

open Except (bind_eq_ok pure_eq_ok)

open PeopleMulti (Bytes32 TransactionSource)

--
-- Valid Names
--

/- Names of people and lite people never coincide. -/
theorem validateUsername_person_lowercase {C : Config} {username : Username}
    (hValid : validateUsername C username true = .ok ()) :
    username.all isAsciiLowercase = true := by
  unfold validateUsername at hValid
  simp only [if_true, bind_eq_ok, ensure_eq_ok_iff, exists_const] at hValid
  exact hValid.2

theorem validateUsername_lite_separator {C : Config} {username : Username}
    (hValid : validateUsername C username false = .ok ()) :
    separator ∈ username := by
  unfold validateUsername at hValid
  simp only [Bool.false_eq_true, if_false, bind_eq_ok,
    ensure_eq_ok_iff, okOr_eq_ok_iff, exists_const] at hValid
  rcases hValid with ⟨_, index, hIndex, _⟩
  by_contra hMem
  rw [List.idxOf?_eq_none_iff.mpr hMem] at hIndex
  cases hIndex

theorem validateUsername_disjoint {C : Config} {person lite : Username}
    (hPerson : person.all isAsciiLowercase = true)
    (hLite : validateUsername C lite false = .ok ()) :
    person ≠ lite := by
  rintro rfl
  rw [List.all_eq_true] at hPerson
  have hSeparator := hPerson _ (validateUsername_lite_separator hLite)
  exact absurd hSeparator (by decide)

namespace ResourceState

variable {C : Config} {K A P S : Type} [DecidableEq A] {s s' : ResourceState C K A}
variable {service : Service A P S} {linked account : A} {username : Username} {alias_ : Bytes32}
variable {period : Nat} {params : Parameters}

--
-- Reservations
--

theorem positionIn_eq_some {queue : List (ReservationQueueEntry A)} {pos : Nat}
    (hPos : positionIn queue account = some pos) :
    ∃ entry, queue[pos]? = some entry ∧ entry.account = account := by
  rcases List.findIdx?_eq_some_iff_getElem.mp hPos with ⟨hLt, hAccount, _⟩
  exact ⟨queue[pos], List.getElem?_eq_getElem hLt, of_decide_eq_true hAccount⟩

/- A name with what is left of its queue. -/
def withQueue (s : ResourceState C K A) (username : Username)
    (rest : BoundedVec (ReservationQueueEntry A) C.maxReservationQueueLength) :
    StorageMap Username (BoundedVec (ReservationQueueEntry A) C.maxReservationQueueLength) :=
  if rest.isEmpty then s.usernameReservationQueue.remove username
  else s.usernameReservationQueue.insert username rest

/- An account has left the queue of a name. -/
structure LeftQueue (s : ResourceState C K A) (username : Username)
    (entry : ReservationQueueEntry A) (s' : ResourceState C K A) : Prop where
  exists_queue : ∃ queue rest : BoundedVec (ReservationQueueEntry A)
        C.maxReservationQueueLength,
      ∃ before after,
        s.usernameReservationQueue.get username = some queue
          ∧ queue.toList = before ++ entry :: after
          ∧ rest.toList = before ++ after
          ∧ s' =
            { s with
              usernameReservationQueue := s.withQueue username rest
              reservationOf := s.reservationOf.remove entry.account }

theorem removeUsernameReservation_eq_ok {pos : Nat}
    (hRemove : s.removeUsernameReservation username pos = .ok s') :
    ∃ queue entry, s.usernameReservationQueue.get username = some queue
        ∧ queue.toList[pos]? = some entry
        ∧ s.LeftQueue username entry s' := by
  unfold removeUsernameReservation at hRemove
  simp only [bind_eq_ok, okOr_eq_ok_iff, pure_eq_ok] at hRemove
  rcases hRemove with ⟨queue, hQueue, entry, hEntry, rfl⟩
  refine ⟨queue, entry, hQueue, hEntry, ?_⟩
  rcases List.getElem?_eq_some_iff.mp hEntry with ⟨hLt, hGet⟩
  refine ⟨queue, queue.eraseIdx pos, queue.toList.take pos,
      queue.toList.drop (pos + 1), hQueue, ?_, ?_, rfl⟩
  · rw [← hGet, List.getElem_cons_drop, List.take_append_drop]
  · exact List.eraseIdx_eq_take_drop_succ queue.toList pos

theorem leaveReservation_eq_ok (hLeave : s.leaveReservation account = .ok s') :
    (s.reservationOf.get account = none ∧ s' = s) ∨ ∃ username entry,
        entry.account = account ∧ s.LeftQueue username entry s' := by
  unfold leaveReservation at hLeave
  cases hReservation : s.reservationOf.get account with
  | none =>
    rw [hReservation] at hLeave
    cases hLeave
    exact Or.inl ⟨rfl, rfl⟩
  | some username =>
    rw [hReservation] at hLeave
    simp only [bind_eq_ok, okOr_eq_ok_iff] at hLeave
    rcases hLeave with ⟨queue, hQueue, pos, hPos, hRemove⟩
    rcases positionIn_eq_some hPos with ⟨entry, hEntry, hAccount⟩
    rcases removeUsernameReservation_eq_ok hRemove with ⟨queue', entry', hQueue', hEntry', hLeft⟩
    rw [hQueue, Option.some.injEq] at hQueue'
    subst hQueue'
    rw [hEntry, Option.some.injEq] at hEntry'
    subst hEntry'
    exact Or.inr ⟨username, entry, hAccount, hLeft⟩

theorem removeExpiredUsernameReservation_eq_ok
    (hRemove : s.removeExpiredUsernameReservation username account = .ok s') :
    ∃ entry, entry.account = account ∧ saturatingAdd u64Max entry.joinedAt
            s.usernameReservationDuration
          < s.now
        ∧ s.LeftQueue username entry s' := by
  unfold removeExpiredUsernameReservation validateReservationExpiry at hRemove
  simp only [bind_eq_ok, okOr_eq_ok_iff, ensure_eq_ok_iff, exists_const] at hRemove
  rcases hRemove with ⟨_, ⟨queue, hQueue, pos, hPos, entry, hEntry, hExpired, _⟩,
      queue', hQueue', pos', hPos', hRemove⟩
  rw [hQueue, Option.some.injEq] at hQueue'
  subst hQueue'
  rw [hPos, Option.some.injEq] at hPos'
  subst hPos'
  rcases removeUsernameReservation_eq_ok hRemove with ⟨queue', entry', hQueue', hEntry', hLeft⟩
  rw [hQueue, Option.some.injEq] at hQueue'
  subst hQueue'
  rw [hEntry, Option.some.injEq] at hEntry'
  subst hEntry'
  rcases positionIn_eq_some hPos with ⟨entry', hEntry', hAccount⟩
  rw [hEntry, Option.some.injEq] at hEntry'
  subst hEntry'
  exact ⟨entry, hAccount, hExpired, hLeft⟩

theorem reserveUsername_eq_ok {reserved : Username}
    (hReserve : s.reserveUsername account username reserved = .ok s') :
    s.usernameOwnerOf.get reserved = none ∧ s.reservationOf.get account = none
      ∧ reserved.all isAsciiLowercase = true
      ∧ ∃ queue : BoundedVec (ReservationQueueEntry A) C.maxReservationQueueLength,
        queue.toList = (s.usernameReservationQueue.getD reserved .empty).toList
              ++ [{ account := account, joinedAt := s.now }]
          ∧ s' =
            { s with
              usernameReservationQueue := s.usernameReservationQueue.insert reserved queue
              reservationOf := s.reservationOf.insert account reserved } := by
  unfold reserveUsername pushUsernameReservation at hReserve
  simp only [bind_eq_ok, okOr_eq_ok_iff, ensure_eq_ok_iff, exists_const, pure_eq_ok]
    at hReserve
  rcases hReserve with ⟨_, hFree, hNone, _, hValid, queue, hQueue, rfl⟩
  exact ⟨StorageMap.containsKey_eq_false_iff.mp hFree, StorageMap.containsKey_eq_false_iff.mp hNone,
      validateUsername_person_lowercase hValid, queue,
      BoundedVec.tryPush_eq_some_iff.mp hQueue, rfl⟩

--
-- Registrations
--

/- A new lite consumer, before its allowance is granted. -/
def withLiteConsumer (s : ResourceState C K A) (account : A) (identifierKey : K)
    (username : Username) : ResourceState C K A :=
  { s with
    usernameOwnerOf := s.usernameOwnerOf.insert username account
    consumers := s.consumers.insert account
        { identifierKey := identifierKey
          fullUsername := none
          liteUsername := username
          credibility := .lite }
    sufficients := s.sufficients.insert account (saturatingAdd u32Max
        (s.sufficients.getD account 0) 1) }

theorem registerLiteConsumerInner_eq_ok {identifierKey : K} {reserved : Option Username}
    (hRegister : s.registerLiteConsumerInner account identifierKey username reserved = .ok s') :
    s.consumers.get account = none ∧ s.usernameOwnerOf.get username = none
      ∧ validateUsername C username false = .ok ()
      ∧ ∃ reserving, (reserving = s
            ∨ ∃ name, s.reserveUsername account username name = .ok reserving)
          ∧ s' = (reserving.withLiteConsumer account identifierKey
              username).increaseAllowanceBy account
                C.litePersonStatementLimit := by
  unfold registerLiteConsumerInner at hRegister
  simp only [bind_eq_ok, ensure_eq_ok_iff, exists_const] at hRegister
  rcases hRegister with ⟨hNew, hFree, _, hValid, hRest⟩
  refine ⟨StorageMap.containsKey_eq_false_iff.mp hNew,
      StorageMap.containsKey_eq_false_iff.mp hFree, hValid, ?_⟩
  cases reserved with
  | none =>
    simp only [pure_bind, pure_eq_ok] at hRest
    exact ⟨s, Or.inl rfl, hRest.symm⟩
  | some name =>
    simp only [bind_eq_ok, pure_eq_ok] at hRest
    rcases hRest with ⟨reserving, hReserving, rfl⟩
    exact ⟨reserving, Or.inr ⟨name, hReserving⟩, rfl⟩

/- A lite consumer that is a person now. -/
def withPerson (s : ResourceState C K A) (alias_ : Bytes32) (linked : A) (username : Username)
    (info : ConsumerInfo K) : ResourceState C K A :=
  { s with
    usernameOwnerOf := s.usernameOwnerOf.insert username linked
    accountOfAlias := s.accountOfAlias.insert alias_ linked
    consumers := s.consumers.insert linked
        { info with
          fullUsername := some username
          credibility := .person alias_ s.now false } }

theorem registerPersonInner_eq_ok {proof : S}
    (hRegister : registerPersonInner service s alias_ linked proof username = .ok s') :
    ∃ info, s.consumers.get linked = some info ∧ info.fullUsername = none ∧ s' =
        (s.withPerson alias_ linked username info).increaseAllowanceBy linked (personExtra C) := by
  unfold registerPersonInner at hRegister
  simp only [bind_eq_ok, okOr_eq_ok_iff, ensure_eq_ok_iff, exists_const, pure_eq_ok]
    at hRegister
  rcases hRegister with ⟨_, info, hGet, hNone, rfl⟩
  exact ⟨info, hGet, hNone, rfl⟩

theorem registerPersonStandalone_eq_ok {proof : S}
    (hRegister : registerPersonStandalone service s alias_ linked proof username = .ok s') :
    s.accountOfAlias.get alias_ = none ∧ s.usernameOwnerOf.get username = none
      ∧ s.usernameReservationQueue.get username = none
      ∧ ∃ left, s.leaveReservation linked = .ok left
          ∧ registerPersonInner service left alias_ linked proof username = .ok s' := by
  unfold registerPersonStandalone at hRegister
  simp only [bind_eq_ok, ensure_eq_ok_iff, exists_const] at hRegister
  rcases hRegister with ⟨hAlias, hFree, hQueue, left, hLeave, _, _, hInner⟩
  exact ⟨StorageMap.containsKey_eq_false_iff.mp hAlias,
      StorageMap.containsKey_eq_false_iff.mp hFree,
      StorageMap.containsKey_eq_false_iff.mp hQueue, left,
      hLeave, hInner⟩

/- A name whose whole queue is gone. -/
def withoutQueue (s : ResourceState C K A) (username : Username)
    (queue : List (ReservationQueueEntry A)) :
    ResourceState C K A :=
  { s with
    reservationOf := (queue.map (·.account)).foldl (·.remove ·) s.reservationOf
    usernameReservationQueue := s.usernameReservationQueue.remove username }

theorem registerPersonReservation_eq_ok {proof : S}
    (hRegister : registerPersonReservation service s alias_ linked proof username = .ok s') :
    s.accountOfAlias.get alias_ = none ∧ ∃ queue,
        s.usernameReservationQueue.get username = some queue ∧ linked ∈ queue.toList.map (·.account)
          ∧ registerPersonInner service (s.withoutQueue username queue.toList) alias_
              linked proof username
            = .ok s' := by
  unfold registerPersonReservation at hRegister
  simp only [bind_eq_ok, okOr_eq_ok_iff, ensure_eq_ok_iff, exists_const] at hRegister
  rcases hRegister with ⟨hAlias, queue, hQueue, front, hFront, hLinked, hInner⟩
  refine ⟨StorageMap.containsKey_eq_false_iff.mp hAlias, queue, hQueue, ?_, hInner⟩
  rw [← hLinked]
  exact List.mem_map_of_mem (List.mem_of_mem_head? hFront)

--
-- Authorization of People
--

/- A consumer is recorded anew. -/
def withConsumer (s : ResourceState C K A) (account : A)
    (info : ConsumerInfo K) : ResourceState C K A :=
  { s with consumers := s.consumers.insert account info }

theorem touchPersonAuthorization_eq_ok (hTouch : s.touchPersonAuthorization alias_ = .ok s') :
    ∃ account info stored lastUpdate wasDemoted, s.accountOfAlias.get alias_ = some account
        ∧ s.consumers.get account = some info
        ∧ info.credibility = .person stored lastUpdate wasDemoted
        ∧ s' =
          if wasDemoted then
            (s.withConsumer account
              { info with
                credibility := .person alias_ s.now false }
              ).increaseAllowanceBy account (personExtra C)
          else
            s.withConsumer account
              { info with
                credibility := .person alias_ s.now false } := by
  unfold touchPersonAuthorization at hTouch
  simp only [bind_eq_ok, okOr_eq_ok_iff] at hTouch
  rcases hTouch with ⟨account, hAccount, info, hInfo, hTouch⟩
  cases hCredibility : info.credibility with
  | lite =>
    rw [hCredibility] at hTouch
    cases hTouch
  | person stored lastUpdate wasDemoted =>
    rw [hCredibility] at hTouch
    simp only [bind_eq_ok, ensure_eq_ok_iff, exists_const, pure_eq_ok] at hTouch
    exact ⟨account, info, stored, lastUpdate, wasDemoted, hAccount,
        hInfo, hCredibility, hTouch.2.symm⟩

theorem demoteAuthExpired_eq_ok (hDemote : s.demoteAuthExpired account = .ok s') :
    ∃ info alias_ lastUpdate, s.consumers.get account = some info
        ∧ info.credibility = .person alias_ lastUpdate false
        ∧ s' = (s.decreaseAllowanceBy account (personExtra C)).withConsumer account
            { info with
              credibility := .person alias_ lastUpdate true } := by
  unfold demoteAuthExpired validateDemotion at hDemote
  simp only [bind_eq_ok, okOr_eq_ok_iff] at hDemote
  rcases hDemote with ⟨info, ⟨info', hInfo, hValid⟩, hEq⟩
  cases hCredibility : info'.credibility with
  | lite =>
    rw [hCredibility] at hValid
    cases hValid
  | person alias_ lastUpdate demoted =>
    rw [hCredibility] at hValid
    simp only [bind_eq_ok, ensure_eq_ok_iff, exists_const, pure_eq_ok] at hValid
    rcases hValid with ⟨_, rfl, rfl⟩
    rw [hCredibility] at hEq
    cases hEq
    exact ⟨info', alias_, lastUpdate, hInfo, hCredibility, rfl⟩

theorem updateIdentifierKey_eq_ok {who : A} {identifierKey : K}
    (hUpdate : s.updateIdentifierKey who identifierKey = .ok s') :
    ∃ info, s.consumers.get who = some info ∧ s' = s.withConsumer who
        { info with identifierKey := identifierKey } := by
  unfold updateIdentifierKey at hUpdate
  simp only [bind_eq_ok, okOr_eq_ok_iff, pure_eq_ok] at hUpdate
  rcases hUpdate with ⟨info, hInfo, rfl⟩
  exact ⟨info, hInfo, rfl⟩

--
-- Claims
--

/- An account is registered for notifications. -/
def withNotification (s : ResourceState C K A) (alias_ : Bytes32)
    (reference : NotificationReference) (account : A) : ResourceState C K A :=
  let granted := s.increaseAllowanceBy account C.notificationAllowance
  { granted with
    notificationRegistrationByAlias := granted.notificationRegistrationByAlias.insert alias_
        { accountId := account, reference := reference }
    notificationAliasByAccount := granted.notificationAliasByAccount.insert account alias_ }

/- An account has a slot of the statement store. -/
def withSlot (s : ResourceState C K A) (period : Nat) (alias_ : Bytes32) (seq : Nat)
    (target : A) : ResourceState C K A :=
  let granted := s.increaseAllowanceBy target C.accountsApiAllowance
  { granted with
    statementStoreAllowances := granted.statementStoreAllowances.insert (period, alias_)
        { accountId := target, seq := seq, since := s.now }
    stmtStoreAllowanceByAccount := granted.stmtStoreAllowanceByAccount.insert
        (target, period, seq, alias_) () }

/- What a transaction with a proof may do. -/
inductive Claimed (service : Service A P S) (s : ResourceState C K A) : ResourceState C K A → Prop
  | notification
      (alias_ : Bytes32)
      (reference : NotificationReference)
      (account : A)
      (hAlias : s.notificationRegistrationByAlias.get alias_ = none)
      (hAccount : s.notificationAliasByAccount.get account = none) :
      Claimed service s
        (s.withNotification alias_ reference account)
  | grant (alias_ : Bytes32) (period seq : Nat) (target : A)
      (hNew : s.statementStoreAllowances.get (period, alias_) = none) :
      Claimed service s (s.withSlot period alias_ seq target)
  | replace (alias_ : Bytes32) (period seq : Nat) (target : A)
      (existing : StmtStoreAllowanceEntry A)
      (hExisting : s.statementStoreAllowances.get (period, alias_) = some existing)
      (hCooldown : saturatingAdd u64Max existing.since
            service.stmtStoreReplacementCooldown
          < s.now) :
      Claimed service s
        ((s.revokeSlot period alias_ existing).withSlot period alias_ seq target)
  | storage (alias_ : Bytes32) (period : Nat) (hAccepted : s.isAcceptedLongTermStoragePeriod period)
      (hUnspent : s.spentLongTermStorageAliases.get (period, alias_) = none) :
      Claimed service s (s.claimLongTermStorage alias_ period)
  | unchanged : Claimed service s s

theorem claimed_of_setNotification {reference : NotificationReference}
    (hSet : setNotificationStatementAccountForSequence service s
        alias_ reference account = .ok s') :
    Claimed service s s' := by
  unfold setNotificationStatementAccountForSequence validateNotificationRegistration at hSet
  simp only [bind_eq_ok, ensure_eq_ok_iff, exists_const, pure_eq_ok] at hSet
  rcases hSet with ⟨_, _, _, _, ⟨hAlias, hAccount⟩, rfl⟩
  exact .notification alias_ reference account (StorageMap.containsKey_eq_false_iff.mp hAlias)
    (StorageMap.containsKey_eq_false_iff.mp hAccount)

theorem claimed_of_setStatementStoreAccount {seq : Nat} {target : A}
    (hSet : setStatementStoreAccount service s alias_ period seq target = .ok s') :
    Claimed service s s' := by
  unfold setStatementStoreAccount at hSet
  cases hGet : s.statementStoreAllowances.get (period, alias_) with
  | none =>
    rw [hGet] at hSet
    simp only [pure_bind, pure_eq_ok] at hSet
    rw [← hSet]
    exact .grant alias_ period seq target hGet
  | some existing =>
    rw [hGet] at hSet
    simp only [bind_eq_ok, ensure_eq_ok_iff, exists_const, pure_bind, pure_eq_ok] at hSet
    rcases hSet with ⟨hCooldown, rfl⟩
    exact .replace alias_ period seq target existing hGet hCooldown

/- What the extension has checked for the origin it gives. -/
inductive Validated (service : Service A P S) (s : ResourceState C K A)
    (tx : Transaction A P) : Origin → Prop
  | notification
      (alias_ : Bytes32)
      (reference : NotificationReference)
      (account : A)
      (hCall : tx.call = .setNotificationStatementAccountForSequence reference
          account)
      (hPeriod : s.validateNotificationPeriod reference.period = .ok ())
      (hSeq : reference.seq ≤ service.notificationSlotsPerPeriod)
      (hNew : s.validateNotificationRegistration alias_ account = .ok ()) :
      Validated service s tx (.notificationAlias alias_)
  | slot (alias_ : Bytes32) (period seq : Nat) (target : A)
      (hCall : tx.call = .setStatementStoreAccount period seq target)
      (hCooldown : ∀ existing, s.statementStoreAllowances.get (period, alias_)
            = some existing →
          saturatingAdd u64Max existing.since
              service.stmtStoreReplacementCooldown
            < s.now) :
      Validated service s tx (.stmtStoreAlias alias_)
  | storage (alias_ : Bytes32) (collection : MembershipCollection) (period counter : Nat)
      (account : A) (hCall : tx.call = .claimLongTermStorage period counter account)
      (hAccepted : s.isAcceptedLongTermStoragePeriod period)
      (hUnspent : s.spentLongTermStorageAliases.get (period, alias_) = none) :
      Validated service s tx
        (.longTermStorageClaim alias_ collection)

section Validating

variable {tx : Transaction A P} {proof : P} {ringIndex revision : Nat}
variable {collection : MembershipCollection} {origin : Origin}

theorem validated_of_notification
    (hValid : validateNotification service s tx proof ringIndex revision collection = .ok origin) :
    Validated service s tx origin := by
  unfold validateNotification at hValid
  simp only [bind_eq_ok, ensure_eq_ok_iff, exists_const] at hValid
  rcases hValid with ⟨_, hValid⟩
  split at hValid
  · next reference account hCall =>
      simp only [bind_eq_ok, okOr_eq_ok_iff, pure_eq_ok] at hValid
      rcases hValid with ⟨_, hPeriod, _, hSeq, alias_, _, _, hNew, rfl⟩
      refine .notification alias_ reference account hCall hPeriod ?_ hNew
      unfold validateNotificationSeq at hSeq
      rw [ensure_eq_ok_iff] at hSeq
      cases collection with
      | people => exact hSeq
      | litePeople =>
        -- lite people have no more slots than people
        exact Nat.le_trans hSeq service.liteNotificationSlotsPerPeriod_le
  · cases hValid

theorem validated_of_stmtStoreSlot
    (hValid : validateStmtStoreSlot service s tx proof ringIndex revision collection = .ok origin) :
    Validated service s tx origin := by
  unfold validateStmtStoreSlot at hValid
  simp only [bind_eq_ok, ensure_eq_ok_iff, exists_const] at hValid
  rcases hValid with ⟨_, hValid⟩
  split at hValid
  · next period seq target hCall =>
      simp only [bind_eq_ok, ensure_eq_ok_iff, okOr_eq_ok_iff, exists_const, pure_eq_ok]
        at hValid
      rcases hValid with ⟨_, _, alias_, _, hCooldown, rfl⟩
      refine .slot alias_ period seq target hCall ?_
      intro existing hExisting
      rw [hExisting] at hCooldown
      exact of_decide_eq_true hCooldown
  · cases hValid

theorem validated_of_longTermStorageClaim
    (hValid : validateLongTermStorageClaim service s tx proof ringIndex
        revision collection = .ok origin) :
    Validated service s tx origin := by
  unfold validateLongTermStorageClaim at hValid
  simp only [bind_eq_ok, ensure_eq_ok_iff, exists_const] at hValid
  rcases hValid with ⟨_, hValid⟩
  split at hValid
  · next period counter account hCall =>
      simp only [bind_eq_ok, ensure_eq_ok_iff, okOr_eq_ok_iff, exists_const, pure_eq_ok]
        at hValid
      rcases hValid with ⟨hAccepted, _, alias_, _, hUnspent, rfl⟩
      exact .storage alias_ collection period counter account hCall hAccepted
        (StorageMap.containsKey_eq_false_iff.mp hUnspent)
  · cases hValid

theorem validated_of_validateTransaction (hValid : validateTransaction service s tx = .ok origin) :
    Validated service s tx origin := by
  unfold validateTransaction at hValid
  split at hValid
  · exact validated_of_notification hValid
  · exact validated_of_notification hValid
  · exact validated_of_stmtStoreSlot hValid
  · exact validated_of_longTermStorageClaim hValid

theorem claimed_of_dispatchClaim (hValid : Validated service s tx origin)
    (hDispatch : dispatchClaim service s origin tx.call = .ok s') :
    Claimed service s s' := by
  cases hValid with
  | notification alias_ reference account hCall =>
    rw [hCall] at hDispatch
    exact claimed_of_setNotification hDispatch
  | slot alias_ period seq target hCall =>
    rw [hCall] at hDispatch
    exact claimed_of_setStatementStoreAccount hDispatch
  | storage alias_ collection period counter account hCall
      hAccepted hUnspent =>
      rw [hCall] at hDispatch
      cases hDispatch
      exact .storage alias_ period hAccepted hUnspent

end Validating

theorem claimed_of_applyTransaction {tx : Transaction A P}
    (hApply : applyTransaction service s tx = .ok s') :
    Claimed service s s' := by
  unfold applyTransaction at hApply
  simp only [bind_eq_ok] at hApply
  rcases hApply with ⟨origin, hValid, hDispatch⟩
  split at hDispatch
  · next hOk =>
      cases hDispatch
      exact claimed_of_dispatchClaim (validated_of_validateTransaction hValid) hOk
  · cases hDispatch
    exact .unchanged

--
-- Clean-Ups
--

/- The notifications of an account are over. -/
def withoutNotification (s : ResourceState C K A) (alias_ : Bytes32)
    (account : A) : ResourceState C K A :=
  { s with
    notificationRegistrationByAlias := s.notificationRegistrationByAlias.remove alias_
    notificationAliasByAccount := s.notificationAliasByAccount.remove account }

theorem clearExpiredNotificationSequence_eq_ok {source : TransactionSource} {seq : Nat}
    (hClear : clearExpiredNotificationSequence params s source account seq = .ok s') :
    ∃ alias_ registration, s.notificationAliasByAccount.get account = some alias_
        ∧ s.notificationRegistrationByAlias.get alias_ = some registration
        ∧ registration.accountId = account
        ∧ notificationExpirationTime params registration.reference.period < s.now
        ∧ s' = (s.withoutNotification alias_ account).decreaseAllowanceBy account
            C.notificationAllowance := by
  unfold clearExpiredNotificationSequence validateClearNotificationSequence at hClear
  simp only [bind_eq_ok, okOr_eq_ok_iff, ensure_eq_ok_iff, exists_const, pure_eq_ok]
    at hClear
  rcases hClear with ⟨_, _, _, ⟨alias_, hAlias, registration, hRegistration,
      hOwner, _, hExpired, _⟩, alias', hAlias', rfl⟩
  rw [hAlias, Option.some.injEq] at hAlias'
  subst hAlias'
  exact ⟨alias_, registration, hAlias, hRegistration, hOwner, hExpired, rfl⟩

theorem clearExpiredStmtStoreAllowances_eq_ok {source : TransactionSource} {firstEntry : Bytes32}
    (hClear : clearExpiredStmtStoreAllowances params s source period firstEntry = .ok s') :
    isStmtStorePeriodClearable params s period
      ∧ firstKey C s.statementStoreAllowances = some (period, firstEntry)
      ∧ s' = ((aliasesAt C s.statementStoreAllowances period).take
            params.stmtStoreCleanupLimit).foldl
          (drainSlot period) s := by
  unfold clearExpiredStmtStoreAllowances at hClear
  simp only [bind_eq_ok, ensure_eq_ok_iff, exists_const, pure_eq_ok] at hClear
  rcases hClear with ⟨_, _, hClearable, hFirst, rfl⟩
  exact ⟨hClearable, hFirst, rfl⟩

omit [DecidableEq A] in
theorem clearExpiredLongTermStorageAliases_eq_ok {limit : Nat}
    (hClear : clearExpiredLongTermStorageAliases params s period limit = .ok s') :
    s.isLongTermStoragePeriodClearable period ∧ ∃ keys : List (Nat × Bytes32),
        (∀ key ∈ keys, key.1 = period) ∧ s' =
            { s with
              spentLongTermStorageAliases := keys.foldl (·.remove ·)
                  s.spentLongTermStorageAliases } := by
  unfold clearExpiredLongTermStorageAliases at hClear
  simp only [bind_eq_ok, ensure_eq_ok_iff, exists_const, pure_eq_ok] at hClear
  rcases hClear with ⟨hClearable, _, _, rfl⟩
  refine ⟨hClearable, _, ?_, rfl⟩
  intro key hKey
  rcases List.mem_map.mp hKey with ⟨_, _, rfl⟩
  rfl

end ResourceState

end Individuality.Resources
