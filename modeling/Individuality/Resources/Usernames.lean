import Individuality.Resources.Effects
import Individuality.Resources.Sample
import Individuality.Base.Inverse

/-
  Names, reservations and aliases agree with the consumers and the queues they belong to.

  Main declaration: `ResourceState.names_agree`
-/

namespace Individuality.Resources

open StorageMap (get_foldl_remove get_insert get_insert_of_ne get_remove get_remove_self)

open PeopleMulti (Bytes32 TransactionSource)

--
-- Names of Consumers
--

/- A consumer has a lite name, and perhaps a full one. -/
def ConsumerInfo.HasName {K : Type} (info : ConsumerInfo K) (username : Username) : Prop :=
  username = info.liteUsername ∨ info.fullUsername = some username

def ConsumerInfo.HasAlias {K : Type} (info : ConsumerInfo K) (alias_ : Bytes32) : Prop :=
  ∃ lastUpdate demoted, info.credibility = .person alias_ lastUpdate demoted

/- The accounts that wait in a queue. -/
def Queued {A : Type} {n : Nat} (queue : BoundedVec (ReservationQueueEntry A) n)
    (account : A) : Prop :=
  account ∈ queue.toList.map (·.account)

namespace ResourceState

variable {C : Config} {K A P S : Type} [DecidableEq A] {s s' : ResourceState C K A}
variable {service : Service A P S} {username : Username} {account : A} {alias_ : Bytes32}

/-
  The maps of names, aliases and reservations agree with the records, and reserved names are free
  and not wanted by those who have a full name.
-/
structure Named (s : ResourceState C K A) : Prop where
  owners : Inverse s.usernameOwnerOf s.consumers ConsumerInfo.HasName
  aliases : Inverse s.accountOfAlias s.consumers ConsumerInfo.HasAlias
  reserved : Inverse s.reservationOf s.usernameReservationQueue Queued
  queues : ∀ username queue,
      s.usernameReservationQueue.get username = some queue →
        queue.toList ≠ []
          ∧ (queue.toList.map (·.account)).Nodup
          ∧ username.all isAsciiLowercase = true
          ∧ s.usernameOwnerOf.get username = none
  consumers : ∀ account info,
      s.consumers.get account = some info →
        (info.fullUsername = none → info.credibility = .lite)
          ∧ (info.fullUsername ≠ none → s.reservationOf.get account = none)
  now_le : s.now ≤ u64Max

theorem named_genesis : (genesis C K A).Named where
  owners := Inverse.empty _
  aliases := Inverse.empty _
  reserved := Inverse.empty _
  queues := by simp [genesis]
  consumers := by simp [genesis]
  now_le := Nat.zero_le u64Max

/- Only some of the fields have names in them. -/
theorem Named.of_same (hNamed : s.Named) (hOwners : s'.usernameOwnerOf = s.usernameOwnerOf)
    (hConsumers : s'.consumers = s.consumers) (hAliases : s'.accountOfAlias = s.accountOfAlias)
    (hReserved : s'.reservationOf = s.reservationOf)
    (hQueues : s'.usernameReservationQueue = s.usernameReservationQueue) (hNow : s'.now = s.now) :
    s'.Named where
  owners := by rw [hOwners, hConsumers]; exact hNamed.owners
  aliases := by rw [hAliases, hConsumers]; exact hNamed.aliases
  reserved := by rw [hReserved, hQueues]; exact hNamed.reserved
  queues := by rw [hQueues, hOwners]; exact hNamed.queues
  consumers := by
    rw [hConsumers, hReserved]
    exact hNamed.consumers
  now_le := by rw [hNow]; exact hNamed.now_le

--
-- Queues
--

omit [DecidableEq A] in
theorem get_withQueue (username username' : Username)
    (rest : BoundedVec (ReservationQueueEntry A) C.maxReservationQueueLength) :
    (s.withQueue username rest).get username' = if username' = username then
          if rest.toList = [] then none else some rest
        else s.usernameReservationQueue.get username' := by
  unfold withQueue
  by_cases hEmpty : rest.toList = []
  · rw [if_pos ((BoundedVec.isEmpty_iff rest).mpr hEmpty), get_remove, if_pos hEmpty]
  · have hIsEmpty : ¬rest.isEmpty = true := by
      rwa [BoundedVec.isEmpty_iff]
    rw [if_neg hIsEmpty, get_insert, if_neg hEmpty]

/- Who leaves a queue is removed from both sides. -/
theorem Named.leftQueue (hNamed : s.Named) {entry : ReservationQueueEntry A}
    (hLeft : s.LeftQueue username entry s') :
    s'.Named := by
  rcases hLeft with ⟨queue, rest, before, after, hGet, hQueue, hRest, rfl⟩
  rcases hNamed.queues username queue hGet with ⟨_, hNodup, hLower, hFree⟩
  have hEntry : Queued queue entry.account := by
    simp [Queued, hQueue]
  have hOnce : entry.account ∉ before.map (·.account) ++ after.map (·.account)
        ∧ (before.map (·.account) ++ after.map (·.account)).Nodup := by
    rw [hQueue, List.map_append, List.map_cons, List.nodup_middle, List.nodup_cons] at hNodup
    exact hNodup
  have hQueued : ∀ account, Queued rest account
          ↔ account ≠ entry.account ∧ Queued queue account := by
    intro account
    unfold Queued
    rw [hRest, hQueue, List.map_append, List.map_append,
      List.map_cons, List.mem_append, List.mem_append,
      List.mem_cons]
    constructor
    · intro hMem
      refine ⟨?_, hMem.imp_right Or.inr⟩
      rintro rfl
      exact hOnce.1 (List.mem_append.mpr hMem)
    · rintro ⟨hNe, hMem⟩
      exact hMem.imp_right fun h => h.resolve_left hNe
  have hReserved : Inverse (s.reservationOf.remove entry.account)
        (s.withQueue username rest) Queued := by
    unfold withQueue
    split_ifs with hEmpty
    · apply hNamed.reserved.release hGet
      intro account
      rw [BoundedVec.isEmpty_iff] at hEmpty
      have hNone := hQueued account
      unfold Queued at hNone hEntry
      rw [hEmpty] at hNone
      simp only [List.map_nil, List.not_mem_nil, false_iff, not_and] at hNone
      constructor
      · intro hMem
        by_contra hNe
        exact hNone hNe hMem
      · rintro rfl
        exact hEntry
    · exact hNamed.reserved.dropName hGet hQueued hEntry
  refine ⟨hNamed.owners, hNamed.aliases, hReserved, ?_, ?_, hNamed.now_le⟩
  · intro username' queue' hGet'
    dsimp only at hGet'
    rw [get_withQueue] at hGet'
    by_cases hName : username' = username
    · rw [if_pos hName] at hGet'
      split_ifs at hGet' with hEmpty
      cases hGet'
      subst hName
      refine ⟨hEmpty, ?_, hLower, hFree⟩
      rw [hRest, List.map_append]
      exact hOnce.2
    · rw [if_neg hName] at hGet'
      exact hNamed.queues username' queue' hGet'
  · intro account info hInfo
    refine ⟨(hNamed.consumers account info hInfo).1, ?_⟩
    intro hFull
    dsimp only
    rw [get_remove, (hNamed.consumers account info hInfo).2 hFull, ite_self]

theorem Named.leaveReservation (hNamed : s.Named) (hLeave : s.leaveReservation account = .ok s') :
    s'.Named ∧ s'.reservationOf.get account = none ∧ s'.usernameOwnerOf = s.usernameOwnerOf
      ∧ s'.accountOfAlias = s.accountOfAlias
      ∧ ∀ username, s.usernameReservationQueue.get username = none →
          s'.usernameReservationQueue.get username = none := by
  rcases leaveReservation_eq_ok hLeave with ⟨hNone, rfl⟩ | ⟨username, entry, hAccount, hLeft⟩
  · exact ⟨hNamed, hNone, rfl, rfl, fun _ h => h⟩
  · have hNamed' := hNamed.leftQueue hLeft
    rcases hLeft with ⟨queue, rest, _, _, hGet, _, _, rfl⟩
    refine ⟨hNamed', ?_, rfl, rfl, ?_⟩
    · rw [← hAccount]
      exact get_remove_self s.reservationOf _
    · intro username' hNone
      dsimp only
      rw [get_withQueue]
      by_cases hName : username' = username
      · rw [hName, hGet] at hNone
        cases hNone
      · rw [if_neg hName]
        exact hNone

theorem Named.reserveUsername (hNamed : s.Named) {reserved : Username}
    (hNew : s.consumers.get account = none)
    (hReserve : s.reserveUsername account username reserved = .ok s') :
    s'.Named ∧ s'.consumers = s.consumers ∧ s'.usernameOwnerOf = s.usernameOwnerOf := by
  rcases reserveUsername_eq_ok hReserve with ⟨hFree, hNone, hLower, queue, hQueue, rfl⟩
  refine ⟨?_, rfl, rfl⟩
  have hReserved : Inverse (s.reservationOf.insert account reserved)
        (s.usernameReservationQueue.insert reserved queue)
        Queued := by
    cases hOld : s.usernameReservationQueue.get reserved with
    | none =>
      apply hNamed.reserved.claim hNone hOld
      intro account'
      simp [Queued, hQueue, StorageMap.getD, hOld]
    | some old =>
      apply hNamed.reserved.addName hNone hOld
      intro account'
      simp [Queued, hQueue, StorageMap.getD, hOld, or_comm]
  have hOut : account ∉ ((s.usernameReservationQueue.getD reserved
            .empty).toList).map (·.account) := by
    intro hMem
    cases hOld : s.usernameReservationQueue.get reserved with
    | none => simp [StorageMap.getD, hOld] at hMem
    | some old =>
      simp only [StorageMap.getD, hOld, Option.getD_some] at hMem
      have hHolder := hNamed.reserved.holder_of_name hOld hMem
      rw [hNone] at hHolder
      cases hHolder
  have hOldNodup : (((s.usernameReservationQueue.getD reserved
          .empty).toList).map (·.account)).Nodup := by
    cases hOld : s.usernameReservationQueue.get reserved with
    | none => simp [StorageMap.getD, hOld]
    | some old =>
      simp only [StorageMap.getD, hOld, Option.getD_some]
      exact (hNamed.queues reserved old hOld).2.1
  refine ⟨hNamed.owners, hNamed.aliases, hReserved, ?_, ?_, hNamed.now_le⟩
  · intro username' queue' hGet
    dsimp only at hGet
    rw [get_insert] at hGet
    by_cases hName : username' = reserved
    · rw [if_pos hName] at hGet
      cases hGet
      subst hName
      refine ⟨by simp [hQueue], ?_, hLower, hFree⟩
      rw [hQueue, List.map_append, List.map_singleton]
      rw [List.nodup_append]
      refine ⟨hOldNodup, List.nodup_singleton _, ?_⟩
      intro a hA b hB
      rintro rfl
      have hAccount : a = account := List.mem_singleton.mp hB
      exact hOut (hAccount ▸ hA)
    · rw [if_neg hName] at hGet
      exact hNamed.queues username' queue' hGet
  · intro account' info hInfo
    refine ⟨(hNamed.consumers account' info hInfo).1, ?_⟩
    intro hFull
    have hNe : account' ≠ account := by
      rintro rfl
      rw [hNew] at hInfo
      cases hInfo
    dsimp only
    rw [get_insert_of_ne _ _ hNe]
    exact (hNamed.consumers account' info hInfo).2 hFull

/- A name whose queue is gone is free for anybody. -/
theorem Named.withoutQueue (hNamed : s.Named)
    {queue :
      BoundedVec (ReservationQueueEntry A) C.maxReservationQueueLength}
    (hGet : s.usernameReservationQueue.get username = some queue) :
    (s.withoutQueue username queue.toList).Named where
  owners := hNamed.owners
  aliases := hNamed.aliases
  reserved := hNamed.reserved.clear hGet fun _ => Iff.rfl
  queues := by
    intro username' queue' hGet'
    unfold ResourceState.withoutQueue at hGet'
    dsimp only at hGet'
    rw [get_remove] at hGet'
    by_cases hName : username' = username
    · rw [if_pos hName] at hGet'
      cases hGet'
    · rw [if_neg hName] at hGet'
      exact hNamed.queues username' queue' hGet'
  consumers := by
    intro account info hInfo
    refine ⟨(hNamed.consumers account info hInfo).1, ?_⟩
    intro hFull
    unfold ResourceState.withoutQueue
    dsimp only
    rw [get_foldl_remove, (hNamed.consumers account info hInfo).2 hFull, ite_self]
  now_le := hNamed.now_le

--
-- Registrations
--

theorem Named.withLiteConsumer (hNamed : s.Named) {identifierKey : K}
    (hNew : s.consumers.get account = none) (hFree : s.usernameOwnerOf.get username = none)
    (hValid : validateUsername C username false = .ok ()) :
    (s.withLiteConsumer account identifierKey username).Named where
  owners := by
    apply hNamed.owners.claim hFree hNew
    intro name
    simp [ConsumerInfo.HasName]
  aliases := by
    apply hNamed.aliases.record hNew
    intro name
    simp [ConsumerInfo.HasAlias]
  reserved := hNamed.reserved
  queues := by
    intro username' queue hGet
    rcases hNamed.queues username' queue hGet with ⟨hNe, hNodup, hLower, hNone⟩
    refine ⟨hNe, hNodup, hLower, ?_⟩
    unfold ResourceState.withLiteConsumer
    dsimp only
    rw [get_insert_of_ne _ _ (validateUsername_disjoint hLower hValid)]
    exact hNone
  consumers := by
    intro account' info hInfo
    unfold ResourceState.withLiteConsumer at hInfo ⊢
    dsimp only at hInfo ⊢
    rw [get_insert] at hInfo
    by_cases hAccount : account' = account
    · rw [if_pos hAccount] at hInfo
      cases hInfo
      exact ⟨fun _ => rfl, fun hFull => absurd rfl hFull⟩
    · rw [if_neg hAccount] at hInfo
      exact hNamed.consumers account' info hInfo
  now_le := hNamed.now_le

theorem Named.withPerson (hNamed : s.Named) {linked : A} {info : ConsumerInfo K}
    (hAlias : s.accountOfAlias.get alias_ = none) (hFree : s.usernameOwnerOf.get username = none)
    (hQueue : s.usernameReservationQueue.get username = none)
    (hReservation : s.reservationOf.get linked = none) (hInfo : s.consumers.get linked = some info)
    (hFull : info.fullUsername = none) :
    (s.withPerson alias_ linked username info).Named where
  owners := by
    apply hNamed.owners.addName hFree hInfo
    intro name
    simp [ConsumerInfo.HasName, hFull, or_comm, eq_comm]
  aliases := by
    apply hNamed.aliases.addName hAlias hInfo
    intro name
    simp [ConsumerInfo.HasAlias, eq_comm, (hNamed.consumers linked info hInfo).1 hFull]
  reserved := hNamed.reserved
  queues := by
    intro username' queue hGet
    rcases hNamed.queues username' queue hGet with ⟨hNe, hNodup, hLower, hNone⟩
    refine ⟨hNe, hNodup, hLower, ?_⟩
    unfold ResourceState.withPerson
    dsimp only
    have hOther : username' ≠ username := by
      rintro rfl
      exact absurd (hQueue.symm.trans hGet) (by simp)
    rw [get_insert_of_ne _ _ hOther]
    exact hNone
  consumers := by
    intro account info' hInfo'
    unfold ResourceState.withPerson at hInfo' ⊢
    dsimp only at hInfo' ⊢
    rw [get_insert] at hInfo'
    by_cases hAccount : account = linked
    · rw [if_pos hAccount] at hInfo'
      cases hInfo'
      subst hAccount
      exact ⟨fun hNone => (by cases hNone), fun _ => hReservation⟩
    · rw [if_neg hAccount] at hInfo'
      exact hNamed.consumers account info' hInfo'
  now_le := hNamed.now_le

/- A record keeps its names and its alias. -/
theorem Named.withConsumer (hNamed : s.Named) {old info : ConsumerInfo K}
    (hGet : s.consumers.get account = some old) (hLite : info.liteUsername = old.liteUsername)
    (hFull : info.fullUsername = old.fullUsername)
    (hAlias : ∀ alias_, info.HasAlias alias_ ↔ old.HasAlias alias_)
    (hCredibility : old.credibility = .lite → info.credibility = .lite) :
    (s.withConsumer account info).Named where
  owners := by
    apply hNamed.owners.rewrite hGet
    intro name
    unfold ConsumerInfo.HasName
    rw [hLite, hFull]
  aliases := hNamed.aliases.rewrite hGet hAlias
  reserved := hNamed.reserved
  queues := hNamed.queues
  consumers := by
    intro account' info' hInfo'
    unfold ResourceState.withConsumer at hInfo' ⊢
    dsimp only at hInfo' ⊢
    rw [get_insert] at hInfo'
    by_cases hAccount : account' = account
    · rw [if_pos hAccount] at hInfo'
      cases hInfo'
      subst hAccount
      rw [hFull]
      rcases hNamed.consumers account' old hGet with ⟨hNone, hSome⟩
      exact ⟨fun h => hCredibility (hNone h), hSome⟩
    · rw [if_neg hAccount] at hInfo'
      exact hNamed.consumers account' info' hInfo'
  now_le := hNamed.now_le

theorem Named.increaseAllowanceBy (hNamed : s.Named) (account : A) (by_ : StatementAllowance) :
    (s.increaseAllowanceBy account by_).Named :=
  hNamed.of_same rfl rfl rfl rfl rfl rfl

theorem Named.decreaseAllowanceBy (hNamed : s.Named) (account : A) (by_ : StatementAllowance) :
    (s.decreaseAllowanceBy account by_).Named :=
  hNamed.of_same rfl rfl rfl rfl rfl rfl

theorem Named.registerLiteConsumerInner (hNamed : s.Named)
    {identifierKey : K} {reserved : Option Username}
    (hRegister : s.registerLiteConsumerInner account identifierKey username reserved = .ok s') :
    s'.Named := by
  rcases registerLiteConsumerInner_eq_ok hRegister with
    ⟨hNew, hFree, hValid, reserving, hReserving, rfl⟩
  apply Named.increaseAllowanceBy
  rcases hReserving with rfl | ⟨name, hReserve⟩
  · exact hNamed.withLiteConsumer hNew hFree hValid
  · rcases hNamed.reserveUsername hNew hReserve with ⟨hReserved, hConsumers, hOwners⟩
    apply hReserved.withLiteConsumer _ _ hValid
    · rw [hConsumers]
      exact hNew
    · rw [hOwners]
      exact hFree

theorem Named.registerPerson (hNamed : s.Named)
    {linked : A} {proof : S} {choice : PersonalUsernameChoice}
    (hRegister : registerPerson service s alias_ linked proof choice = .ok s') :
    s'.Named := by
  cases choice with
  | standalone username =>
    rcases registerPersonStandalone_eq_ok hRegister with
      ⟨hAlias, hFree, hQueue, left, hLeave, hInner⟩
    rcases hNamed.leaveReservation hLeave with ⟨hLeft, hNone, hOwners, hAliases, hQueues⟩
    rcases registerPersonInner_eq_ok hInner with ⟨info, hInfo, hFull, rfl⟩
    apply Named.increaseAllowanceBy
    apply hLeft.withPerson _ _ (hQueues username hQueue) hNone hInfo hFull
    · rw [hAliases]
      exact hAlias
    · rw [hOwners]
      exact hFree
  | reservation username =>
    rcases registerPersonReservation_eq_ok hRegister with ⟨hAlias, queue, hQueue, hLinked, hInner⟩
    rcases registerPersonInner_eq_ok hInner with ⟨info, hInfo, hFull, rfl⟩
    apply Named.increaseAllowanceBy
    apply (hNamed.withoutQueue hQueue).withPerson hAlias
      (hNamed.queues username queue hQueue).2.2.2 _ _ hInfo hFull
    · exact get_remove_self _ _
    · -- the whole queue has lost its reservations
      unfold ResourceState.withoutQueue
      dsimp only
      rw [get_foldl_remove, if_pos hLinked]

--
-- Operations
--

theorem Named.touchPersonAuthorization (hNamed : s.Named)
    (hTouch : s.touchPersonAuthorization alias_ = .ok s') :
    s'.Named := by
  rcases touchPersonAuthorization_eq_ok hTouch with
    ⟨account, info, stored, lastUpdate, wasDemoted, hAccount, hInfo, hCredibility, rfl⟩
  -- the alias that is looked up is the one that is stored
  have hStored : stored = alias_ := by
    rcases (hNamed.aliases alias_ account).mp hAccount with
      ⟨info', hInfo', lastUpdate', demoted', hAlias⟩
    rw [hInfo, Option.some.injEq] at hInfo'
    rw [← hInfo', hCredibility] at hAlias
    cases hAlias
    rfl
  have hTouched : (s.withConsumer account
        { info with
          credibility := .person alias_ s.now false }).Named := by
    refine hNamed.withConsumer hInfo ?_ ?_ ?_ ?_
    · rfl
    · rfl
    · intro name
      simp [ConsumerInfo.HasAlias, hCredibility, hStored]
    · rw [hCredibility]
      intro hLite
      cases hLite
  split_ifs
  · exact hTouched.increaseAllowanceBy account _
  · exact hTouched

theorem Named.demoteAuthExpired (hNamed : s.Named)
    (hDemote : s.demoteAuthExpired account = .ok s') :
    s'.Named := by
  rcases demoteAuthExpired_eq_ok hDemote with ⟨info, alias_, lastUpdate, hInfo, hCredibility, rfl⟩
  have hCut := hNamed.decreaseAllowanceBy account (personExtra C)
  refine hCut.withConsumer hInfo ?_ ?_ ?_ ?_
  · rfl
  · rfl
  · intro name
    simp [ConsumerInfo.HasAlias, hCredibility]
  · rw [hCredibility]
    intro hLite
    cases hLite

theorem Named.drainSlots (hNamed : s.Named) (period : Nat) (aliases : List Bytes32) :
    (aliases.foldl (drainSlot period) s).Named := by
  induction aliases generalizing s with
  | nil => exact hNamed
  | cons alias_ rest ih =>
    rw [List.foldl_cons]
    apply ih
    unfold drainSlot
    split
    · exact hNamed
    · exact hNamed.of_same rfl rfl rfl rfl rfl rfl

theorem Named.claimed (hNamed : s.Named) (hClaimed : Claimed service s s') :
    s'.Named := by
  cases hClaimed
  all_goals exact hNamed.of_same rfl rfl rfl rfl rfl rfl

theorem Named.setClock (hNamed : s.Named) {now : Nat} (hSet : s.setClock now = .ok s') :
    s'.Named := by
  unfold ResourceState.setClock at hSet
  simp only [Except.bind_eq_ok, ensure_eq_ok_iff, exists_const, Except.pure_eq_ok] at hSet
  rcases hSet with ⟨⟨_, hLe⟩, rfl⟩
  exact ⟨hNamed.owners, hNamed.aliases, hNamed.reserved, hNamed.queues, hNamed.consumers, hLe⟩

theorem Named.perform (hNamed : s.Named) {step : Service A P S × Op K A P S}
    (hStep : s.perform step = .ok s') :
    s'.Named := by
  rcases step with ⟨service, op⟩
  cases op with
  | setClock now => exact hNamed.setClock hStep
  | registerLiteConsumer account identifierKey username
      reservedUsername =>
      exact hNamed.registerLiteConsumerInner hStep
  | registerPerson alias_ linked proof choice =>
    exact hNamed.registerPerson hStep
  | touchPersonAuthorization alias_ =>
    exact hNamed.touchPersonAuthorization hStep
  | removeExpiredUsernameReservation username account =>
    rcases removeExpiredUsernameReservation_eq_ok hStep with ⟨entry, _, _, hLeft⟩
    exact hNamed.leftQueue hLeft
  | updateIdentifierKey who identifierKey =>
    rcases updateIdentifierKey_eq_ok hStep with ⟨info, hInfo, rfl⟩
    exact hNamed.withConsumer hInfo rfl rfl (fun _ => Iff.rfl) id
  | setUsernameReservationDuration duration =>
    cases hStep
    exact hNamed.of_same rfl rfl rfl rfl rfl rfl
  | demoteAuthExpired account =>
    exact hNamed.demoteAuthExpired hStep
  | clearExpiredNotificationSequence source account seq =>
    rcases clearExpiredNotificationSequence_eq_ok hStep with ⟨alias_, registration, _, _, _, _, rfl⟩
    exact hNamed.of_same rfl rfl rfl rfl rfl rfl
  | clearExpiredStmtStoreAllowances source period firstEntry =>
    rcases clearExpiredStmtStoreAllowances_eq_ok hStep with ⟨_, _, rfl⟩
    exact hNamed.drainSlots period _
  | clearExpiredLongTermStorageAliases period limit =>
    rcases clearExpiredLongTermStorageAliases_eq_ok hStep with ⟨_, keys, _, rfl⟩
    exact hNamed.of_same rfl rfl rfl rfl rfl rfl
  | transaction tx =>
    exact hNamed.claimed (claimed_of_applyTransaction hStep)

--
-- Names over Runs
--

/- A state that some run of operations reaches. -/
def Reachable (P S : Type) (s : ResourceState C K A) : Prop :=
  RunUnder (perform : ResourceState C K A → Service A P S × Op K A P S → _)
    (fun _ _ _ => True) (genesis C K A) s

theorem named_of_reachable (hReachable : Reachable P S s) : s.Named :=
  RunUnder.invariant ResourceState.Named hReachable
    (fun _ _ _ _ hStep hNamed => hNamed.perform hStep)
    named_genesis

/-
  Each map of names finds exactly what is recorded, and an account waits in one queue at most, once.
-/
structure NamesAgree (s : ResourceState C K A) : Prop where
  usernameOwnerOf : ∀ username account,
      s.usernameOwnerOf.get username = some account
        ↔ ∃ info,
          s.consumers.get account = some info
            ∧ (username = info.liteUsername ∨ info.fullUsername = some username)
  accountOfAlias : ∀ alias_ account,
      s.accountOfAlias.get alias_ = some account
        ↔ ∃ info lastUpdate demoted,
          s.consumers.get account = some info
            ∧ info.credibility = .person alias_ lastUpdate demoted
  reservationOf : ∀ account username,
      s.reservationOf.get account = some username
        ↔ ∃ queue,
          s.usernameReservationQueue.get username = some queue
            ∧ (queue.toList.map (·.account)).count account = 1
  count_le_one : ∀ username queue account,
      s.usernameReservationQueue.get username = some queue →
        (queue.toList.map (·.account)).count account ≤ 1
  queue_ne_nil : ∀ username queue,
      s.usernameReservationQueue.get username = some queue → queue.toList ≠ []
  reserved_free : ∀ username queue,
      s.usernameReservationQueue.get username = some queue →
        s.usernameOwnerOf.get username = none
  full_unreserved : ∀ account info,
      s.consumers.get account = some info →
        info.fullUsername ≠ none → s.reservationOf.get account = none

theorem Named.namesAgree (hNamed : s.Named) : s.NamesAgree where
  usernameOwnerOf := hNamed.owners
  accountOfAlias := by
    intro alias_ account
    rw [hNamed.aliases alias_ account]
    simp only [ConsumerInfo.HasAlias, exists_and_left]
  reservationOf := by
    intro account username
    rw [hNamed.reserved account username]
    apply exists_congr
    intro queue
    apply and_congr_right
    intro hGet
    have hNodup := (hNamed.queues username queue hGet).2.1
    exact ⟨List.count_eq_one_of_mem hNodup, fun hCount => List.count_pos_iff.mp (by omega)⟩
  count_le_one := by
    intro username queue account hGet
    exact List.nodup_iff_count_le_one.mp (hNamed.queues username queue hGet).2.1 account
  queue_ne_nil := fun username queue hGet => (hNamed.queues username queue hGet).1
  reserved_free := fun username queue hGet =>
    (hNamed.queues username queue hGet).2.2.2
  full_unreserved := fun account info hInfo =>
    (hNamed.consumers account info hInfo).2

/-
  What leaves a queue as an expired reservation: one entry that is older than the duration, from its
  place, and nothing else.
-/
structure ExpiryInOrder (s : ResourceState C K A) (username : Username) (account : A)
    (s' : ResourceState C K A) : Prop where
  removed :
    ∃ (queue : BoundedVec (ReservationQueueEntry A) C.maxReservationQueueLength)
        (entry : ReservationQueueEntry A)
        (before after : List (ReservationQueueEntry A)),
      s.usernameReservationQueue.get username = some queue
        ∧ queue.toList = before ++ entry :: after
        ∧ entry.account = account
        ∧ entry.joinedAt + s.usernameReservationDuration < s.now
        ∧ ((s'.usernameReservationQueue.get username).elim []
            (·.toList)) = before ++ after
  others : ∀ username',
      username' ≠ username →
        s'.usernameReservationQueue.get username'
          = s.usernameReservationQueue.get username'

theorem Named.expiryInOrder (hNamed : s.Named)
    (hRemove : s.removeExpiredUsernameReservation username account = .ok s') :
    s.ExpiryInOrder username account s' := by
  rcases removeExpiredUsernameReservation_eq_ok hRemove with
    ⟨entry, hAccount, hExpired, queue, rest, before, after, hGet, hQueue, hRest, rfl⟩
  refine ⟨⟨queue, entry, before, after, hGet, hQueue, hAccount, ?_, ?_⟩, ?_⟩
  · -- a sum that saturates is never in the past
    have hNow := hNamed.now_le
    unfold saturatingAdd at hExpired
    omega
  · dsimp only
    rw [get_withQueue, if_pos rfl, ← hRest]
    by_cases hEmpty : rest.toList = []
    · rw [if_pos hEmpty, hEmpty]
      rfl
    · rw [if_neg hEmpty]
      rfl
  · intro username' hNe
    dsimp only
    rw [get_withQueue, if_neg hNe]

theorem names_agree (hReachable : Reachable P S s) : s.NamesAgree
      ∧ ∀ username account s', s.removeExpiredUsernameReservation username account = .ok s' →
          s.ExpiryInOrder username account s' :=
  ⟨(named_of_reachable hReachable).namesAgree, fun _ _ _ hRemove =>
      (named_of_reachable hReachable).expiryInOrder hRemove⟩

/-
  Two lite consumers, `ali.12` and `ali.13`, wait for the name
  `bob`, and the first one becomes a person named `alan`.
-/
def sampleNaming : List SampleOp :=
  [.registerLiteConsumer 7 0 [97, 108, 105, 46, 49, 50] (some [98, 111, 98]),
    .registerLiteConsumer 8 0 [97, 108, 105, 46, 49, 51] (some [98, 111, 98]),
    .registerPerson 55 7 () (.standalone [97, 108, 97, 110]),
    .setUsernameReservationDuration 5,
    .setClock 100]

/- The other one may lose its reservation by now. -/
theorem names_agree_sample : ∃ s s' : SampleState,
      Reachable Bytes32 Unit s ∧ s.usernameOwnerOf.get [97, 108, 97, 110] = some 7
        ∧ s.removeExpiredUsernameReservation [98, 111, 98] 8 = .ok s'
        ∧ s.NamesAgree
        ∧ s.ExpiryInOrder [98, 111, 98] 8 s' := by
  have hExecute : (performSteps sampleNaming).any (fun s =>
          decide (s.usernameOwnerOf.get [97, 108, 97, 110] = some 7
              ∧ (s.removeExpiredUsernameReservation [98, 111, 98] 8).toOption.any (fun _ => true)
                = true)) = true := by
    decide +kernel
  rcases exists_run_of_execute (fun _ _ _ _ _ => (trivial : True)) hExecute with ⟨s, hRun, hTest⟩
  rw [decide_eq_true_eq] at hTest
  rcases Except.exists_ok_of_any hTest.2 with ⟨s', hRemove, _⟩
  rcases names_agree hRun with ⟨hAgree, hOrder⟩
  exact ⟨s, s', hRun, hTest.1, hRemove, hAgree, hOrder [98, 111, 98] 8 s' hRemove⟩

end ResourceState

end Individuality.Resources
