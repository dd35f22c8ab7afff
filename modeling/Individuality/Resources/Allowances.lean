import Individuality.Resources.Usernames

/-
  The statement store allows an account what its consumer, its
  slots and its notifications add up to.

  Main declaration: `ResourceState.allowance_eq_due`
-/

namespace Individuality.Resources

open StorageMap (containsKey_insert containsKey_remove getD_insert get_insert_of_ne get_insert_self
  weightAt_some)

open PeopleMulti (Bytes32 TransactionSource)

--
-- Sums of Allowances
--

namespace StatementAllowance

theorem add_right_comm (a b c : StatementAllowance) :
    (a.add b).add c = (a.add c).add b :=
  StatementAllowance.ext (Nat.add_right_comm _ _ _) (Nat.add_right_comm _ _ _)

theorem add_assoc (a b c : StatementAllowance) :
    (a.add b).add c = a.add (b.add c) :=
  StatementAllowance.ext (Nat.add_assoc _ _ _) (Nat.add_assoc _ _ _)

theorem add_zero (a : StatementAllowance) : a.add zero = a := rfl

theorem zero_add (a : StatementAllowance) : zero.add a = a :=
  StatementAllowance.ext (Nat.zero_add _) (Nat.zero_add _)

/- What was added can be taken back. -/
theorem add_saturatingSub (a b : StatementAllowance) :
    (a.add b).saturatingSub b = a :=
  StatementAllowance.ext (Nat.add_sub_cancel _ _) (Nat.add_sub_cancel _ _)

theorem times_zero (a : StatementAllowance) : times 0 a = zero :=
  StatementAllowance.ext (Nat.zero_mul _) (Nat.zero_mul _)

theorem times_succ (n : Nat) (a : StatementAllowance) :
    times (n + 1) a = (times n a).add a :=
  StatementAllowance.ext (Nat.succ_mul _ _) (Nat.succ_mul _ _)

end StatementAllowance

--
-- What is Due
--

section Due

variable {C : Config} {K : Type}

/- What an account may store as a consumer. -/
def baseLimit (C : Config) {K : Type} :
    Option (ConsumerInfo K) → StatementAllowance
  | none => .zero
  | some info =>
    match info.credibility with
    | .lite => C.litePersonStatementLimit
    | .person _ _ demoted =>
      if demoted then C.litePersonStatementLimit
      else C.personStatementLimit

theorem baseLimit_of_lite {info : ConsumerInfo K} (hCredibility : info.credibility = .lite) :
    baseLimit C (some info) = C.litePersonStatementLimit := by
  simp only [baseLimit, hCredibility]

theorem baseLimit_of_person {info : ConsumerInfo K} {alias_ : Bytes32} {lastUpdate : Nat}
    {demoted : Bool} (hCredibility : info.credibility = .person alias_ lastUpdate demoted) :
    baseLimit C (some info) = if demoted then C.litePersonStatementLimit
        else C.personStatementLimit := by
  simp only [baseLimit, hCredibility]

/- The limit of people includes that of lite people. -/
def LimitsOrdered (C : Config) : Prop :=
  C.litePersonStatementLimit.maxCount ≤ C.personStatementLimit.maxCount
    ∧ C.litePersonStatementLimit.maxSize ≤ C.personStatementLimit.maxSize

/- People have the difference beyond the lite limit. -/
theorem litePersonStatementLimit_add_personExtra (hLimits : LimitsOrdered C) :
    C.litePersonStatementLimit.add (ResourceState.personExtra C) = C.personStatementLimit :=
  StatementAllowance.ext (Nat.add_sub_of_le hLimits.1) (Nat.add_sub_of_le hLimits.2)

/- The base, the slots and the notifications of an account. -/
def dueFor (C : Config) (consumer : Option (ConsumerInfo K)) (slots : Nat)
    (notified : Bool) : StatementAllowance :=
  ((baseLimit C consumer).add (C.accountsApiAllowance.times slots)).add
    (if notified then C.notificationAllowance else .zero)

theorem dueFor_consumer {before after : Option (ConsumerInfo K)} {more : StatementAllowance}
    (hBase : baseLimit C after = (baseLimit C before).add more) (slots : Nat) (notified : Bool) :
    dueFor C after slots notified = (dueFor C before slots notified).add more := by
  unfold dueFor
  rw [hBase, StatementAllowance.add_right_comm _ more, StatementAllowance.add_right_comm _ more]

theorem dueFor_slot (consumer : Option (ConsumerInfo K)) (slots : Nat) (notified : Bool) :
    dueFor C consumer (slots + 1) notified = (dueFor C consumer slots notified).add
        C.accountsApiAllowance := by
  unfold dueFor
  rw [StatementAllowance.times_succ, ← StatementAllowance.add_assoc,
    StatementAllowance.add_right_comm]

theorem dueFor_notified (consumer : Option (ConsumerInfo K)) (slots : Nat) :
    dueFor C consumer slots true = (dueFor C consumer slots false).add
        C.notificationAllowance := rfl

end Due

namespace ResourceState

variable {C : Config} {K A P S : Type} [DecidableEq A] {s s' : ResourceState C K A}
variable {service : Service A P S}

/- The slots that name an account. -/
def slotCount (s : ResourceState C K A) (account : A) : Nat :=
  s.statementStoreAllowances.sum fun _ entry =>
    if entry.accountId = account then 1 else 0

def due (s : ResourceState C K A) (account : A) : StatementAllowance :=
  dueFor C (s.consumers.get account) (s.slotCount account)
    (s.notificationAliasByAccount.containsKey account)

/- Where the reverse lookup has a slot. -/
def slotKey (key : Nat × Bytes32) (entry : StmtStoreAllowanceEntry A) :
    A × Nat × Nat × Bytes32 :=
  (entry.accountId, key.1, entry.seq, key.2)

/-
  Every account is allowed what is due to it, and the lookups
  of slots and notifications agree with the entries.
-/
structure Ledger (s : ResourceState C K A) : Prop where
  allowed : ∀ account, s.allowance account = s.due account
  slots : ReverseIndex s.stmtStoreAllowanceByAccount
      s.statementStoreAllowances slotKey
  notifications : Inverse s.notificationAliasByAccount
      s.notificationRegistrationByAlias
      fun registration account => account = registration.accountId

theorem ledger_genesis : (genesis C K A).Ledger where
  allowed := by
    intro account
    simp [allowance, due, slotCount, genesis, dueFor, baseLimit,
      StorageMap.containsKey, StatementAllowance.times_zero,
      StatementAllowance.add_zero]
  slots := by
    apply ReverseIndex.empty
    rintro ⟨period, alias_⟩ entry ⟨period', alias'⟩ entry' hKey
    simp only [slotKey, Prod.mk.injEq] at hKey
    rw [hKey.2.1, hKey.2.2.2]
  notifications := Inverse.empty _

--
-- Granting and Revoking
--

theorem allowance_increaseAllowanceBy (account account' : A) (by_ : StatementAllowance) :
    (s.increaseAllowanceBy account by_).allowance account'
      = if account' = account then (s.allowance account).add by_ else s.allowance account' := by
  unfold allowance increaseAllowanceBy
  exact getD_insert _ _ _ _ _

theorem allowance_decreaseAllowanceBy (account account' : A) (by_ : StatementAllowance) :
    (s.decreaseAllowanceBy account by_).allowance account' = if account' = account then
          (s.allowance account).saturatingSub by_
        else s.allowance account' := by
  unfold allowance decreaseAllowanceBy
  exact getD_insert _ _ _ _ _

/- What becomes due to one account is granted to it. -/
theorem allowed_of_increase (hAllowed : ∀ account, s.allowance account = s.due account)
    {account : A} {by_ : StatementAllowance}
    (hAllowance : ∀ account', s'.allowance account'
        = (s.increaseAllowanceBy account by_).allowance account')
    (hDue : s'.due account = (s.due account).add by_)
    (hOthers : ∀ account', account' ≠ account → s'.due account' = s.due account')
    (account' : A) :
    s'.allowance account' = s'.due account' := by
  rw [hAllowance, allowance_increaseAllowanceBy]
  by_cases hAccount : account' = account
  · rw [if_pos hAccount, hAllowed, hAccount, hDue]
  · rw [if_neg hAccount, hAllowed, hOthers account' hAccount]

/- What is no longer due to one account is taken from it. -/
theorem allowed_of_decrease (hAllowed : ∀ account, s.allowance account = s.due account)
    {account : A} {by_ : StatementAllowance}
    (hAllowance : ∀ account', s'.allowance account'
        = (s.decreaseAllowanceBy account by_).allowance account')
    (hDue : s.due account = (s'.due account).add by_)
    (hOthers : ∀ account', account' ≠ account → s'.due account' = s.due account')
    (account' : A) :
    s'.allowance account' = s'.due account' := by
  rw [hAllowance, allowance_decreaseAllowanceBy]
  by_cases hAccount : account' = account
  · rw [if_pos hAccount, hAllowed, hAccount, hDue, StatementAllowance.add_saturatingSub]
  · rw [if_neg hAccount, hAllowed, hOthers account' hAccount]

/- Some of the fields have nothing to do with allowances. -/
theorem Ledger.of_same (hLedger : s.Ledger) (hAllowances : s'.allowances = s.allowances)
    (hConsumers : s'.consumers = s.consumers)
    (hEntries : s'.statementStoreAllowances = s.statementStoreAllowances)
    (hIndex : s'.stmtStoreAllowanceByAccount = s.stmtStoreAllowanceByAccount)
    (hRegistrations : s'.notificationRegistrationByAlias = s.notificationRegistrationByAlias)
    (hAliases : s'.notificationAliasByAccount = s.notificationAliasByAccount) :
    s'.Ledger where
  allowed := by
    intro account
    unfold allowance due slotCount
    rw [hAllowances, hConsumers, hEntries, hAliases]
    exact hLedger.allowed account
  slots := by rw [hIndex, hEntries]; exact hLedger.slots
  notifications := by
    rw [hAliases, hRegistrations]
    exact hLedger.notifications

--
-- Consumers
--

/- A record changes, and the allowance with its base limit. -/
theorem Ledger.consumer_increase (hLedger : s.Ledger)
    {account : A} {info : ConsumerInfo K} {by_ : StatementAllowance}
    (hBase : baseLimit C (some info) = (baseLimit C (s.consumers.get account)).add by_)
    (hConsumers : s'.consumers = s.consumers.insert account info)
    (hAllowances : s'.allowances = s.allowances)
    (hEntries : s'.statementStoreAllowances = s.statementStoreAllowances)
    (hIndex : s'.stmtStoreAllowanceByAccount = s.stmtStoreAllowanceByAccount)
    (hRegistrations : s'.notificationRegistrationByAlias = s.notificationRegistrationByAlias)
    (hAliases : s'.notificationAliasByAccount = s.notificationAliasByAccount) :
    (s'.increaseAllowanceBy account by_).Ledger where
  allowed := by
    apply allowed_of_increase hLedger.allowed
    · intro account'
      unfold allowance increaseAllowanceBy allowance
      rw [hAllowances]
    · unfold due slotCount increaseAllowanceBy
      dsimp only
      rw [hConsumers, hEntries, hAliases, get_insert_self]
      exact dueFor_consumer hBase _ _
    · intro account' hNe
      unfold due slotCount increaseAllowanceBy
      dsimp only
      rw [hConsumers, hEntries, hAliases, get_insert_of_ne _ _ hNe]
  slots := by
    unfold increaseAllowanceBy
    dsimp only
    rw [hIndex, hEntries]
    exact hLedger.slots
  notifications := by
    unfold increaseAllowanceBy
    dsimp only
    rw [hAliases, hRegistrations]
    exact hLedger.notifications

/- A record that keeps its base limit may change otherwise. -/
theorem Ledger.withConsumer (hLedger : s.Ledger) {account : A} {old info : ConsumerInfo K}
    (hGet : s.consumers.get account = some old)
    (hBase : baseLimit C (some info) = baseLimit C (some old)) :
    (s.withConsumer account info).Ledger where
  allowed := by
    intro account'
    have hAllowed := hLedger.allowed account'
    unfold allowance due slotCount ResourceState.withConsumer at *
    dsimp only
    rw [hAllowed, StorageMap.get_insert]
    by_cases hAccount : account' = account
    · rw [if_pos hAccount, hAccount, hGet]
      unfold dueFor
      rw [hBase]
    · rw [if_neg hAccount]
  slots := hLedger.slots
  notifications := hLedger.notifications

--
-- Slots
--

theorem Ledger.withSlot (hLedger : s.Ledger) {period : Nat} {alias_ : Bytes32}
    (hNew : s.statementStoreAllowances.get (period, alias_) = none) (seq : Nat) (target : A) :
    (s.withSlot period alias_ seq target).Ledger where
  allowed := by
    apply allowed_of_increase hLedger.allowed
    · intro account
      rfl
    · have hCount : (s.withSlot period alias_ seq target).slotCount target
            = s.slotCount target + 1 := by
        unfold slotCount ResourceState.withSlot ResourceState.increaseAllowanceBy
        dsimp only
        rw [StorageMap.sum_insert_of_get_eq_none hNew, if_pos rfl]
      unfold due
      rw [hCount]
      exact dueFor_slot _ _ _
    · intro account hNe
      have hCount : (s.withSlot period alias_ seq target).slotCount account
            = s.slotCount account := by
        unfold slotCount ResourceState.withSlot ResourceState.increaseAllowanceBy
        dsimp only
        rw [StorageMap.sum_insert_of_get_eq_none hNew, if_neg (Ne.symm hNe), Nat.add_zero]
      unfold due
      rw [hCount]
      rfl
  slots := hLedger.slots.add hNew { accountId := target, seq := seq, since := s.now }
  notifications := hLedger.notifications

/- A slot with its allowance and its reverse lookup is gone. -/
def dropSlot (s : ResourceState C K A) (period : Nat) (alias_ : Bytes32)
    (entry : StmtStoreAllowanceEntry A) : ResourceState C K A :=
  { s.revokeSlot period alias_ entry with
    statementStoreAllowances := s.statementStoreAllowances.remove (period, alias_) }

theorem Ledger.dropSlot (hLedger : s.Ledger)
    {period : Nat} {alias_ : Bytes32} {entry : StmtStoreAllowanceEntry A}
    (hGet : s.statementStoreAllowances.get (period, alias_) = some entry) :
    (s.dropSlot period alias_ entry).Ledger where
  allowed := by
    have hSum := fun account => StorageMap.sum_remove s.statementStoreAllowances
        (fun _ entry => if entry.accountId = account then 1 else 0)
        (period, alias_)
    apply allowed_of_decrease hLedger.allowed
    · intro account
      rfl
    · have hCount : s.slotCount entry.accountId = (s.dropSlot period alias_ entry).slotCount
                entry.accountId + 1 := by
        have hSum' := hSum entry.accountId
        rw [hGet, weightAt_some, if_pos rfl] at hSum'
        exact hSum'.symm
      unfold due
      rw [hCount]
      exact dueFor_slot _ _ _
    · intro account hNe
      have hCount : (s.dropSlot period alias_ entry).slotCount account = s.slotCount account := by
        have hSum' := hSum account
        rw [hGet, weightAt_some, if_neg (Ne.symm hNe)] at hSum'
        exact hSum'
      unfold due
      rw [hCount]
      rfl
  slots := hLedger.slots.drop hGet
  notifications := hLedger.notifications

/- To overwrite a slot is to drop it and claim it again. -/
theorem withSlot_revokeSlot (period : Nat) (alias_ : Bytes32)
    (existing : StmtStoreAllowanceEntry A) (seq : Nat) (target : A) :
    (s.revokeSlot period alias_ existing).withSlot period alias_ seq target
      = (s.dropSlot period alias_ existing).withSlot period alias_ seq target := by
  unfold ResourceState.withSlot ResourceState.dropSlot increaseAllowanceBy
  dsimp only
  rw [StorageMap.insert_remove]
  rfl

theorem Ledger.drainSlots (hLedger : s.Ledger) (period : Nat) (aliases : List Bytes32) :
    (aliases.foldl (drainSlot period) s).Ledger := by
  induction aliases generalizing s with
  | nil => exact hLedger
  | cons alias_ rest ih =>
    rw [List.foldl_cons]
    apply ih
    unfold drainSlot
    split
    · exact hLedger
    · next entry hGet => exact hLedger.dropSlot hGet

--
-- Notifications
--

theorem Ledger.withNotification (hLedger : s.Ledger) {alias_ : Bytes32} {account : A}
    (hAlias : s.notificationRegistrationByAlias.get alias_ = none)
    (hAccount : s.notificationAliasByAccount.get account = none)
    (reference : NotificationReference) :
    (s.withNotification alias_ reference account).Ledger where
  allowed := by
    apply allowed_of_increase hLedger.allowed
    · intro account'
      rfl
    · unfold due ResourceState.withNotification increaseAllowanceBy
      dsimp only
      rw [containsKey_insert, StorageMap.containsKey_eq_false_iff.mpr hAccount]
      simp only [decide_true, Bool.true_or]
      exact dueFor_notified _ _
    · intro account' hNe
      unfold due ResourceState.withNotification increaseAllowanceBy
      dsimp only
      rw [containsKey_insert, decide_eq_false hNe, Bool.false_or]
      rfl
  slots := hLedger.slots
  notifications := hLedger.notifications.claim hAccount hAlias fun _ => Iff.rfl

theorem Ledger.withoutNotification (hLedger : s.Ledger)
    {alias_ : Bytes32} {account : A} {registration : NotificationRegistration A}
    (hGet : s.notificationRegistrationByAlias.get alias_ = some registration)
    (hAlias : s.notificationAliasByAccount.get account = some alias_)
    (hOwner : registration.accountId = account) :
    ((s.withoutNotification alias_ account).decreaseAllowanceBy account
        C.notificationAllowance).Ledger where
  allowed := by
    apply allowed_of_decrease hLedger.allowed
    · intro account'
      rfl
    · unfold due ResourceState.withoutNotification decreaseAllowanceBy
      dsimp only
      rw [containsKey_remove, StorageMap.containsKey_of_get hAlias]
      simp only [decide_true, Bool.not_true, Bool.false_and]
      exact dueFor_notified _ _
    · intro account' hNe
      unfold due ResourceState.withoutNotification decreaseAllowanceBy
      dsimp only
      rw [containsKey_remove, decide_eq_false hNe, Bool.not_false, Bool.true_and]
      rfl
  slots := hLedger.slots
  notifications := by
    apply hLedger.notifications.release hGet
    intro account'
    rw [hOwner]

--
-- Operations
--

theorem Ledger.claimed (hLedger : s.Ledger) (hClaimed : Claimed service s s') :
    s'.Ledger := by
  cases hClaimed with
  | notification alias_ reference account hAlias hAccount =>
    exact hLedger.withNotification hAlias hAccount reference
  | grant alias_ period seq target hNew =>
    exact hLedger.withSlot hNew seq target
  | replace alias_ period seq target existing hExisting _ =>
    rw [withSlot_revokeSlot]
    exact (hLedger.dropSlot hExisting).withSlot (StorageMap.get_remove_self _ _) seq target
  | storage alias_ period _ _ =>
    exact hLedger.of_same rfl rfl rfl rfl rfl rfl
  | unchanged => exact hLedger

theorem Ledger.leaveReservation (hLedger : s.Ledger) {account : A}
    (hLeave : s.leaveReservation account = .ok s') :
    s'.Ledger ∧ s'.consumers = s.consumers := by
  rcases leaveReservation_eq_ok hLeave with ⟨_, rfl⟩ | ⟨username, entry, _, hLeft⟩
  · exact ⟨hLedger, rfl⟩
  · rcases hLeft with ⟨queue, rest, _, _, _, _, _, rfl⟩
    exact ⟨hLedger.of_same rfl rfl rfl rfl rfl rfl, rfl⟩

/- A consumer without a full name has the lite limit. -/
theorem Ledger.registerPersonInner (hLedger : s.Ledger) (hLimits : LimitsOrdered C)
    (hLite : ∀ account info, s.consumers.get account = some info →
        info.fullUsername = none → info.credibility = .lite)
    {alias_ : Bytes32} {linked : A} {proof : S} {username : Username}
    (hRegister : ResourceState.registerPersonInner service s alias_ linked
        proof username = .ok s') :
    s'.Ledger := by
  rcases registerPersonInner_eq_ok hRegister with ⟨info, hInfo, hFull, rfl⟩
  refine hLedger.consumer_increase ?_ rfl rfl rfl rfl rfl rfl
  rw [hInfo, baseLimit_of_lite (hLite linked info hInfo hFull)]
  exact (litePersonStatementLimit_add_personExtra hLimits).symm

theorem Ledger.registerPerson (hLedger : s.Ledger) (hNamed : s.Named) (hLimits : LimitsOrdered C)
    {alias_ : Bytes32} {linked : A} {proof : S} {choice : PersonalUsernameChoice}
    (hRegister : ResourceState.registerPerson service s alias_ linked proof choice = .ok s') :
    s'.Ledger := by
  have hLite := fun account info hInfo => (hNamed.consumers account info hInfo).1
  cases choice with
  | standalone username =>
    rcases registerPersonStandalone_eq_ok hRegister with ⟨_, _, _, left, hLeave, hInner⟩
    rcases hLedger.leaveReservation hLeave with ⟨hLeft, hConsumers⟩
    rw [← hConsumers] at hLite
    exact hLeft.registerPersonInner hLimits hLite hInner
  | reservation username =>
    rcases registerPersonReservation_eq_ok hRegister with ⟨_, queue, _, _, hInner⟩
    have hCleared : (s.withoutQueue username queue.toList).Ledger :=
      hLedger.of_same rfl rfl rfl rfl rfl rfl
    exact hCleared.registerPersonInner hLimits hLite hInner

theorem Ledger.registerLiteConsumerInner (hLedger : s.Ledger)
    {account : A} {identifierKey : K} {username : Username} {reserved : Option Username}
    (hRegister : s.registerLiteConsumerInner account identifierKey username reserved = .ok s') :
    s'.Ledger := by
  rcases registerLiteConsumerInner_eq_ok hRegister with ⟨hNew, _, _, reserving, hReserving, rfl⟩
  have hSame : reserving.Ledger ∧ reserving.consumers = s.consumers := by
    rcases hReserving with rfl | ⟨name, hReserve⟩
    · exact ⟨hLedger, rfl⟩
    · rcases reserveUsername_eq_ok hReserve with ⟨_, _, _, queue, _, rfl⟩
      exact ⟨hLedger.of_same rfl rfl rfl rfl rfl rfl, rfl⟩
  refine hSame.1.consumer_increase ?_ rfl rfl rfl rfl rfl rfl
  rw [hSame.2, hNew]
  exact (StatementAllowance.zero_add _).symm

theorem Ledger.touchPersonAuthorization (hLedger : s.Ledger) (hLimits : LimitsOrdered C)
    {alias_ : Bytes32} (hTouch : s.touchPersonAuthorization alias_ = .ok s') :
    s'.Ledger := by
  rcases touchPersonAuthorization_eq_ok hTouch with
    ⟨account, info, stored, lastUpdate, wasDemoted, _, hInfo, hCredibility, rfl⟩
  cases wasDemoted with
  | true =>
    rw [if_pos rfl]
    refine hLedger.consumer_increase ?_ rfl rfl rfl rfl rfl rfl
    rw [hInfo, baseLimit_of_person hCredibility]
    exact (litePersonStatementLimit_add_personExtra hLimits).symm
  | false =>
    rw [if_neg (by decide)]
    refine hLedger.withConsumer hInfo ?_
    rw [baseLimit_of_person hCredibility]
    rfl

theorem Ledger.demoteAuthExpired (hLedger : s.Ledger) (hLimits : LimitsOrdered C) {account : A}
    (hDemote : s.demoteAuthExpired account = .ok s') :
    s'.Ledger := by
  rcases demoteAuthExpired_eq_ok hDemote with ⟨info, alias_, lastUpdate, hInfo, hCredibility, rfl⟩
  refine ⟨?_, hLedger.slots, hLedger.notifications⟩
  apply allowed_of_decrease hLedger.allowed
  · intro account'
    rfl
  · have hBase : baseLimit C (some info) = (baseLimit C (some
                { info with
                  credibility := .person alias_ lastUpdate true })).add
              (personExtra C) := by
      rw [baseLimit_of_person hCredibility]
      exact (litePersonStatementLimit_add_personExtra hLimits).symm
    unfold due ResourceState.withConsumer
    dsimp only
    rw [hInfo, get_insert_self]
    exact dueFor_consumer hBase _ _
  · intro account' hNe
    unfold due ResourceState.withConsumer
    dsimp only
    rw [get_insert_of_ne _ _ hNe]
    rfl

theorem Ledger.perform (hLedger : s.Ledger) (hNamed : s.Named) (hLimits : LimitsOrdered C)
    {step : Service A P S × Op K A P S} (hStep : s.perform step = .ok s') :
    s'.Ledger := by
  rcases step with ⟨service, op⟩
  cases op with
  | setClock now =>
    change s.setClock now = .ok s' at hStep
    unfold ResourceState.setClock at hStep
    simp only [Except.bind_eq_ok, ensure_eq_ok_iff, exists_const, Except.pure_eq_ok] at hStep
    rcases hStep with ⟨_, rfl⟩
    exact hLedger.of_same rfl rfl rfl rfl rfl rfl
  | registerLiteConsumer account identifierKey username
      reservedUsername =>
      exact hLedger.registerLiteConsumerInner hStep
  | registerPerson alias_ linked proof choice =>
    exact hLedger.registerPerson hNamed hLimits hStep
  | touchPersonAuthorization alias_ =>
    exact hLedger.touchPersonAuthorization hLimits hStep
  | removeExpiredUsernameReservation username account =>
    rcases removeExpiredUsernameReservation_eq_ok hStep with
      ⟨entry, _, _, queue, rest, _, _, _, _, _, rfl⟩
    exact hLedger.of_same rfl rfl rfl rfl rfl rfl
  | updateIdentifierKey who identifierKey =>
    rcases updateIdentifierKey_eq_ok hStep with ⟨info, hInfo, rfl⟩
    exact hLedger.withConsumer hInfo rfl
  | setUsernameReservationDuration duration =>
    cases hStep
    exact hLedger.of_same rfl rfl rfl rfl rfl rfl
  | demoteAuthExpired account =>
    exact hLedger.demoteAuthExpired hLimits hStep
  | clearExpiredNotificationSequence source account seq =>
    rcases clearExpiredNotificationSequence_eq_ok hStep with
      ⟨alias_, registration, hAlias, hGet, hOwner, _, rfl⟩
    exact hLedger.withoutNotification hGet hAlias hOwner
  | clearExpiredStmtStoreAllowances source period firstEntry =>
    rcases clearExpiredStmtStoreAllowances_eq_ok hStep with ⟨_, _, rfl⟩
    exact hLedger.drainSlots period _
  | clearExpiredLongTermStorageAliases period limit =>
    rcases clearExpiredLongTermStorageAliases_eq_ok hStep with ⟨_, keys, _, rfl⟩
    exact hLedger.of_same rfl rfl rfl rfl rfl rfl
  | transaction tx =>
    exact hLedger.claimed (claimed_of_applyTransaction hStep)

theorem ledger_of_reachable (hLimits : LimitsOrdered C) (hReachable : Reachable P S s) :
    s.Ledger := by
  have hBoth : s.Named ∧ s.Ledger := RunUnder.invariant (fun s => s.Named ∧ s.Ledger) hReachable
      (fun _ _ _ _ hStep h => ⟨h.1.perform hStep, h.2.perform h.1 hLimits hStep⟩)
      ⟨named_genesis, ledger_genesis⟩
  exact hBoth.2

/- What an account is allowed, by its consumer record, its slots and its notifications. -/
structure LedgerExact (s : ResourceState C K A) : Prop where
  allowance_eq : ∀ account,
      s.allowance account
        = ((baseLimit C (s.consumers.get account)).add
            (C.accountsApiAllowance.times (s.slotCount account))).add
          (if s.notificationAliasByAccount.containsKey account
            then C.notificationAllowance else .zero)
  reverse_index : ∀ account period seq alias_,
      s.stmtStoreAllowanceByAccount.containsKey
          (account, period, seq, alias_) = true
        ↔ ∃ entry,
          s.statementStoreAllowances.get (period, alias_)
              = some entry
            ∧ entry.accountId = account
            ∧ entry.seq = seq
  notifications_inverse : ∀ account alias_,
      s.notificationAliasByAccount.get account = some alias_
        ↔ ∃ registration,
          s.notificationRegistrationByAlias.get alias_
              = some registration
            ∧ registration.accountId = account

theorem allowance_eq_due (hLimits : LimitsOrdered C) (hReachable : Reachable P S s) :
    s.LedgerExact where
  allowance_eq := (ledger_of_reachable hLimits hReachable).allowed
  reverse_index := by
    intro account period seq alias_
    rw [(ledger_of_reachable hLimits hReachable).slots.exact]
    constructor
    · rintro ⟨⟨period', alias'⟩, entry, hGet, hKey⟩
      simp only [slotKey, Prod.mk.injEq] at hKey
      rcases hKey with ⟨rfl, rfl, rfl, rfl⟩
      exact ⟨entry, hGet, rfl, rfl⟩
    · rintro ⟨entry, hGet, rfl, rfl⟩
      exact ⟨(period, alias_), entry, hGet, rfl⟩
  notifications_inverse := by
    intro account alias_
    rw [(ledger_of_reachable hLimits hReachable).notifications]
    simp only [eq_comm]

/-
  A person, a lite person and a stranger: the person has a
  slot that was given to the lite person before.
-/
def sampleGranting : List SampleOp :=
  [.registerLiteConsumer 7 0 [97, 108, 105, 46, 49, 50] none,
    .registerLiteConsumer 8 0 [97, 108, 105, 46, 49, 51] none,
    .registerPerson 55 7 () (.standalone [97, 108, 97, 110]),
    .setClock 100,
    .transaction
      { signed := false
        info := .registerStatementStoreAllowance 3 0 0 .people
        implication := 0
        call := .setStatementStoreAccount 0 1 8 },
    .setClock 200,
    .transaction
      { signed := false
        info := .registerStatementStoreAllowance 3 0 0 .people
        implication := 0
        call := .setStatementStoreAccount 0 2 7 },
    .transaction
      { signed := false
        info := .registerNotificationForCollection 4 0 0 .litePeople
        implication := 0
        call := .setNotificationStatementAccountForSequence { period := 0, seq := 2 } 9 }]

theorem allowance_eq_due_sample : LimitsOrdered sampleConfig
      ∧ ∃ s : SampleState, Reachable Bytes32 Unit s
          ∧ s.allowance 7 = { maxCount := 35, maxSize := 350 }
          ∧ s.allowance 8 = { maxCount := 10, maxSize := 100 }
          ∧ s.allowance 9 = { maxCount := 2, maxSize := 20 }
          ∧ s.LedgerExact := by
  have hExecute : (performSteps sampleGranting).any (fun s =>
          decide (s.allowance 7 = { maxCount := 35, maxSize := 350 }
              ∧ s.allowance 8 = { maxCount := 10, maxSize := 100 }
              ∧ s.allowance 9 = { maxCount := 2, maxSize := 20 }))
        = true := by
    decide +kernel
  rcases exists_run_of_execute (fun _ _ _ _ _ => (trivial : True)) hExecute with ⟨s, hRun, hTest⟩
  rw [decide_eq_true_eq] at hTest
  have hLimits : LimitsOrdered sampleConfig := by
    constructor <;> decide
  exact ⟨hLimits, s, hRun, hTest.1, hTest.2.1, hTest.2.2, allowance_eq_due hLimits hRun⟩

end ResourceState

end Individuality.Resources
