import Individuality.PeopleLite.Effects
import Individuality.PeopleLite.Sample
import Individuality.Resources.Claims

/-
  The maps of the people-lite pallet agree, each account has one reference for what it is, and paid
  registrations are throttled in every period.

  Main declaration: `World.lite_people_agree`
-/

namespace Individuality.PeopleLite

open Except (bind_eq_ok pure_eq_ok)
open StorageMap (containsKey_insert containsKey_of_get getD_insert get_insert get_insert_of_ne)

open PeopleMulti
  (Bytes32 ContextualAlias RevisedContextualAlias)
open Resources (Username ResourceState)

namespace LiteState

variable {K M A G P S : Type} [DecidableEq M] [DecidableEq A] {s s' : LiteState M A}
variable {service : Service K M A G P S}
variable {account : A} {revCa : RevisedContextualAlias} {params : Parameters} {now : Nat}

--
-- Lite People and Aliases
--

/- The alias that an account stands for. -/
def StandsFor (revCa : RevisedContextualAlias) (ca : ContextualAlias) : Prop :=
  ca = revCa.ca

/- An account is known, as a lite person or for an alias. -/
def known (s : LiteState M A) (account : A) : Bool :=
  s.litePeople.containsKey account
    || s.accountToAlias.containsKey account

/- The maps of aliases agree, lite people have none, and every known account has one reference. -/
structure Linked (s : LiteState M A) : Prop where
  inverse : Inverse s.aliasToAccount s.accountToAlias StandsFor
  disjoint : ∀ account info,
      s.litePeople.get account = some info → s.accountToAlias.get account = none
  references : ∀ account,
      s.sufficients.getD account 0
        = if s.known account then 1 else 0
  members : ∀ account info,
      s.litePeople.get account = some info →
        s.collection.containsKey info.ringVrfKey = true
  keys : ∀ account account' info info',
      s.litePeople.get account = some info →
        s.litePeople.get account' = some info' →
          info.ringVrfKey = info'.ringVrfKey → account = account'

theorem linked_genesis : (genesis M A).Linked where
  inverse := Inverse.empty _
  disjoint := by simp [genesis]
  references := by simp [genesis, known, StorageMap.containsKey]
  members := by simp [genesis]
  keys := by simp [genesis]

/- Some of the fields say nothing about lite people. -/
theorem Linked.of_same (hLinked : s.Linked) (hPeople : s'.litePeople = s.litePeople)
    (hAccounts : s'.aliasToAccount = s.aliasToAccount)
    (hAliases : s'.accountToAlias = s.accountToAlias) (hCollection : s'.collection = s.collection)
    (hSufficients : s'.sufficients = s.sufficients) :
    s'.Linked where
  inverse := by
    rw [hAccounts, hAliases]
    exact hLinked.inverse
  disjoint := by
    rw [hPeople, hAliases]
    exact hLinked.disjoint
  references := by
    unfold known
    rw [hPeople, hAliases, hSufficients]
    exact hLinked.references
  members := by
    rw [hPeople, hCollection]
    exact hLinked.members
  keys := by
    rw [hPeople]
    exact hLinked.keys

omit [DecidableEq M] in
theorem known_eq_false_iff {account : A} : s.known account = false
      ↔ s.litePeople.get account = none ∧ s.accountToAlias.get account = none := by
  unfold known
  rw [Bool.or_eq_false_iff, StorageMap.containsKey_eq_false_iff,
    StorageMap.containsKey_eq_false_iff]

/- An account that becomes known gets its reference. -/
theorem Linked.references_acquire (hLinked : s.Linked) (hUnknown : s.known account = false)
    (hKnown : ∀ account', s'.known account' = (decide (account' = account) || s.known account'))
    (hSufficients : s'.sufficients = s.sufficients.insert account
        (saturatingAdd u32Max (s.sufficients.getD account 0) 1))
    (account' : A) :
    s'.sufficients.getD account' 0 = if s'.known account' then 1 else 0 := by
  rw [hSufficients, getD_insert, hKnown]
  by_cases hAccount : account' = account
  · rw [if_pos hAccount, hLinked.references, hUnknown]
    simp [hAccount, saturatingAdd, u32Max]
  · rw [if_neg hAccount, hLinked.references]
    simp [hAccount]

/- An account that is forgotten loses its reference. -/
theorem Linked.references_release (hLinked : s.Linked)
    (hKnown : ∀ account', s'.known account' = (!decide (account' = account) && s.known account'))
    (hWas : s.known account = true)
    (hSufficients : s'.sufficients = s.sufficients.insert account
        (s.sufficients.getD account 0 - 1))
    (account' : A) :
    s'.sufficients.getD account' 0 = if s'.known account' then 1 else 0 := by
  rw [hSufficients, getD_insert, hKnown]
  by_cases hAccount : account' = account
  · rw [if_pos hAccount, hLinked.references, hWas]
    simp [hAccount]
  · rw [if_neg hAccount, hLinked.references]
    simp [hAccount]

--
-- Registration
--

theorem Linked.withLitePerson (hLinked : s.Linked) {candidate : A} {info : LitePersonInfo M A}
    (hPerson : s.litePeople.get candidate = none) (hAlias : s.accountToAlias.get candidate = none)
    (hKey : s.collection.get info.ringVrfKey = none) :
    (s.withLitePerson candidate info).Linked where
  inverse := hLinked.inverse
  disjoint := by
    intro account info' hGet
    unfold LiteState.withLitePerson at hGet ⊢
    dsimp only at hGet ⊢
    rw [get_insert] at hGet
    by_cases hAccount : account = candidate
    · rw [hAccount]
      exact hAlias
    · rw [if_neg hAccount] at hGet
      exact hLinked.disjoint account info' hGet
  references := by
    apply hLinked.references_acquire (known_eq_false_iff.mpr ⟨hPerson, hAlias⟩) _ rfl
    intro account
    unfold known LiteState.withLitePerson
    dsimp only
    rw [containsKey_insert, Bool.or_assoc]
  members := by
    intro account info' hGet
    unfold LiteState.withLitePerson at hGet ⊢
    dsimp only at hGet ⊢
    rw [get_insert] at hGet
    rw [containsKey_insert]
    by_cases hAccount : account = candidate
    · rw [if_pos hAccount] at hGet
      cases hGet
      simp
    · rw [if_neg hAccount] at hGet
      rw [hLinked.members account info' hGet, Bool.or_true]
  keys := by
    -- the new key is in no collection, the others all are
    have hNew : ∀ account info', s.litePeople.get account = some info' →
            info'.ringVrfKey ≠ info.ringVrfKey := by
      intro account info' hGet hSame
      have hMember := hLinked.members account info' hGet
      rw [hSame, StorageMap.containsKey_eq_false_iff.mpr hKey] at hMember
      cases hMember
    intro account account' infoA infoB hGet hGet' hSame
    unfold LiteState.withLitePerson at hGet hGet'
    dsimp only at hGet hGet'
    rw [get_insert] at hGet hGet'
    by_cases hA : account = candidate <;> by_cases hB : account' = candidate
    · rw [hA, hB]
    · rw [if_pos hA] at hGet
      rw [if_neg hB] at hGet'
      cases hGet
      exact absurd hSame.symm (hNew account' infoB hGet')
    · rw [if_neg hA] at hGet
      rw [if_pos hB] at hGet'
      cases hGet'
      exact absurd hSame (hNew account infoA hGet)
    · rw [if_neg hA] at hGet
      rw [if_neg hB] at hGet'
      exact hLinked.keys account account' infoA infoB hGet hGet' hSame

--
-- Aliases of Accounts
--

theorem Linked.dropAlias (hLinked : s.Linked) (hGet : s.accountToAlias.get account = some revCa) :
    (({ s with
          aliasToAccount := s.aliasToAccount.remove revCa.ca
          accountToAlias := s.accountToAlias.remove account } :
        LiteState M A).decSufficients account).Linked where
  inverse := hLinked.inverse.release hGet fun _ => Iff.rfl
  disjoint := by
    intro account' info hPerson
    unfold decSufficients
    dsimp only
    rw [StorageMap.get_remove, hLinked.disjoint account' info hPerson, ite_self]
  references := by
    have hKnown : s.known account = true := by
      unfold known
      rw [containsKey_of_get hGet, Bool.or_true]
    apply hLinked.references_release _ hKnown rfl
    intro account'
    unfold known decSufficients
    dsimp only
    rw [StorageMap.containsKey_remove]
    by_cases hAccount : account' = account
    · have hNot : s.litePeople.get account = none := by
        by_contra hSome
        rcases Option.ne_none_iff_exists'.mp hSome with ⟨info, hInfo⟩
        rw [hLinked.disjoint account info hInfo] at hGet
        cases hGet
      simp [hAccount, StorageMap.containsKey_eq_false_iff.mpr hNot]
    · simp [hAccount]
  members := hLinked.members
  keys := hLinked.keys

theorem Linked.addAlias (hLinked : s.Linked) (hPerson : s.litePeople.get account = none)
    (hUnused : s.accountToAlias.get account = none) (hFree : s.aliasToAccount.get revCa.ca = none) :
    ({ s.incSufficients account with
        accountToAlias := s.accountToAlias.insert account revCa
        aliasToAccount := s.aliasToAccount.insert revCa.ca account } :
      LiteState M A).Linked where
  inverse := hLinked.inverse.claim hFree hUnused fun _ => Iff.rfl
  disjoint := by
    intro account' info hInfo
    unfold incSufficients at hInfo
    dsimp only at hInfo ⊢
    rw [get_insert_of_ne]
    · exact hLinked.disjoint account' info hInfo
    · rintro rfl
      rw [hPerson] at hInfo
      cases hInfo
  references := by
    apply hLinked.references_acquire (known_eq_false_iff.mpr ⟨hPerson, hUnused⟩) _ rfl
    intro account'
    unfold known incSufficients
    dsimp only
    rw [containsKey_insert, ← Bool.or_assoc, Bool.or_comm (s.litePeople.containsKey account'),
      Bool.or_assoc]
  members := hLinked.members
  keys := hLinked.keys

/- An account keeps its alias, with another revision. -/
theorem Linked.revise (hLinked : s.Linked) {old : RevisedContextualAlias}
    (hGet : s.accountToAlias.get account = some old) (hSame : revCa.ca = old.ca) :
    ({ s with
        accountToAlias := s.accountToAlias.insert account revCa } :
      LiteState M A).Linked where
  inverse := by
    apply hLinked.inverse.rewrite hGet
    intro ca
    unfold StandsFor
    rw [hSame]
  disjoint := by
    intro account' info hInfo
    dsimp only at hInfo ⊢
    rw [get_insert_of_ne]
    · exact hLinked.disjoint account' info hInfo
    · rintro rfl
      rw [hLinked.disjoint account' info hInfo] at hGet
      cases hGet
  references := by
    intro account'
    have hReferences := hLinked.references account'
    unfold known at hReferences ⊢
    dsimp only
    rw [containsKey_insert, hReferences]
    by_cases hAccount : account' = account
    · simp [hAccount, containsKey_of_get hGet]
    · simp [hAccount]
  members := hLinked.members
  keys := hLinked.keys

theorem Linked.unsetAliasAccount (hLinked : s.Linked) {ca : ContextualAlias}
    (hUnset : s.unsetAliasAccount ca = .ok s') :
    s'.Linked := by
  rcases unsetAliasAccount_eq_ok hUnset with ⟨account, hAccount, rfl⟩
  rcases (hLinked.inverse ca account).mp hAccount with ⟨revCa, hGet, hCa⟩
  have hDropped := hLinked.dropAlias hGet
  rw [← show ca = revCa.ca from hCa] at hDropped
  exact hDropped

theorem Linked.setAliasAccount (hLinked : s.Linked) {block validAtBlock : Nat}
    (hSet : LiteState.setAliasAccount service s block revCa account validAtBlock = .ok s') :
    s'.Linked := by
  rcases setAliasAccount_eq_ok hSet with ⟨hPerson, moved, hMoved, rfl⟩
  cases hOld : s.aliasToAccount.get revCa.ca with
  | none =>
    rw [hOld] at hMoved
    unfold moveReference at hMoved
    simp only [bind_eq_ok, ensure_eq_ok_iff, exists_const, pure_eq_ok] at hMoved
    rcases hMoved with ⟨hFree, rfl⟩
    exact hLinked.addAlias hPerson (StorageMap.containsKey_eq_false_iff.mp hFree) hOld
  | some old =>
    rw [hOld] at hMoved
    rcases (hLinked.inverse revCa.ca old).mp hOld with ⟨oldRevCa, hGet, hCa⟩
    unfold moveReference at hMoved
    dsimp only at hMoved
    split_ifs at hMoved with hNe
    · simp only [bind_eq_ok, ensure_eq_ok_iff, exists_const, pure_eq_ok] at hMoved
      rcases hMoved with ⟨hFree, rfl⟩
      -- the old account is dropped, and then the new one added
      have hDropped := hLinked.dropAlias hGet
      rw [← show revCa.ca = oldRevCa.ca from hCa] at hDropped
      have hUnused : (s.accountToAlias.remove old).get account = none := by
        rw [StorageMap.get_remove_of_ne _ (Ne.symm hNe)]
        exact StorageMap.containsKey_eq_false_iff.mp hFree
      have hAdded := hDropped.addAlias hPerson hUnused
          (StorageMap.get_remove_self s.aliasToAccount revCa.ca)
      unfold decSufficients incSufficients at hAdded ⊢
      dsimp only at hAdded ⊢
      rw [StorageMap.insert_remove] at hAdded
      exact hAdded
    · cases hMoved
      have hSame : old = account := not_not.mp hNe
      subst hSame
      have hRevised := hLinked.revise hGet hCa
      have hInserted : ∀ ca, (s.aliasToAccount.insert revCa.ca old).get ca
              = s.aliasToAccount.get ca := by
        intro ca
        rw [get_insert]
        split_ifs with hKey
        · rw [hKey, hOld]
        · rfl
      refine ⟨?_, hRevised.disjoint, hRevised.references, hRevised.members, hRevised.keys⟩
      intro ca account'
      dsimp only
      rw [hInserted]
      exact hRevised.inverse ca account'

--
-- Throttled Registrations
--

/- The starts that fall into a period that is stored. -/
def startsIn (s : LiteState M A) (period : Nat) : Nat :=
  s.paidStarts.countP fun start => decide (min start u32Max = period)

/-
  The window counts the starts of its period, which is the latest one, and no period has too many.
-/
structure Throttled (params : Parameters) (now : Nat) (s : LiteState M A) : Prop where
  latest : s.paidRegistrations.period
      ≤ min (now / params.paidRegistrationPeriod) u32Max
  before : ∀ start ∈ s.paidStarts, min start u32Max ≤ s.paidRegistrations.period
  counted :
    s.startsIn s.paidRegistrations.period = s.paidRegistrations.registrations
  bounded : ∀ start, s.paidStarts.count start ≤ params.paidRegistrationsPerPeriod

omit [DecidableEq M] [DecidableEq A] in
theorem throttled_genesis (params : Parameters) :
    (genesis M A).Throttled params 0 where
  latest := Nat.zero_le _
  before := by simp [genesis]
  counted := rfl
  bounded := fun _ => Nat.zero_le _

omit [DecidableEq M] [DecidableEq A] in
theorem Throttled.of_same {now' : Nat} (hThrottled : s.Throttled params now)
    (hStarts : s'.paidStarts = s.paidStarts) (hWindow : s'.paidRegistrations = s.paidRegistrations)
    (hNow : now ≤ now') :
    s'.Throttled params now' where
  latest := by
    rw [hWindow]
    apply Nat.le_trans hThrottled.latest
    have hDiv := Nat.div_le_div_right (c := params.paidRegistrationPeriod) hNow
    omega
  before := by
    rw [hStarts, hWindow]
    exact hThrottled.before
  counted := by
    unfold startsIn
    rw [hStarts, hWindow]
    exact hThrottled.counted
  bounded := by
    rw [hStarts]
    exact hThrottled.bounded

omit [DecidableEq M] [DecidableEq A] in
/- A window counts the starts of its period. -/
theorem Throttled.windowAt_registrations (hThrottled : s.Throttled params now) :
    (s.windowAt (min (now / params.paidRegistrationPeriod) u32Max)).registrations
      = s.startsIn (min (now / params.paidRegistrationPeriod) u32Max) := by
  unfold windowAt
  split_ifs with hNew
  · -- the period is later than all starts
    symm
    unfold startsIn
    rw [List.countP_eq_zero]
    intro start hStart hIn
    have hBefore := hThrottled.before start hStart
    rw [of_decide_eq_true hIn] at hBefore
    exact hNew (Nat.le_antisymm hThrottled.latest hBefore)
  · have hSame := not_not.mp hNew
    rw [← hSame]
    exact hThrottled.counted.symm

omit [DecidableEq M] [DecidableEq A] in
theorem Throttled.withPaidStart (hThrottled : s.Throttled params now)
    (hRoom : (s.windowAt (min (now / params.paidRegistrationPeriod) u32Max)).registrations
        < params.paidRegistrationsPerPeriod) :
    (s.withPaidStart (now / params.paidRegistrationPeriod)).Throttled params
        now := by
  have hRegistrations := hThrottled.windowAt_registrations
  have hPeriod : (s.windowAt (min (now / params.paidRegistrationPeriod) u32Max)).period
        = min (now / params.paidRegistrationPeriod) u32Max := by
    unfold windowAt
    split_ifs with hNew
    · rfl
    · exact not_not.mp hNew
  have hIn : (s.withPaidStart (now / params.paidRegistrationPeriod)).startsIn
          (min (now / params.paidRegistrationPeriod) u32Max)
        = s.startsIn (min (now / params.paidRegistrationPeriod) u32Max) + 1 := by
    unfold startsIn LiteState.withPaidStart
    simp [List.countP_append]
  refine ⟨?_, ?_, ?_, ?_⟩
  · unfold LiteState.withPaidStart
    dsimp only
    rw [hPeriod]
  · intro start hStart
    unfold LiteState.withPaidStart at hStart ⊢
    dsimp only at hStart ⊢
    rw [hPeriod]
    rw [List.mem_append, List.mem_singleton] at hStart
    rcases hStart with hOld | rfl
    · exact Nat.le_trans (hThrottled.before start hOld) hThrottled.latest
    · exact Nat.le_refl _
  · unfold LiteState.withPaidStart
    dsimp only
    rw [hPeriod]
    have hLe := params.paidRegistrationsPerPeriod_le
    rw [saturatingAdd_of_le (by omega), hRegistrations]
    exact hIn
  · intro start
    by_cases hStart : start = now / params.paidRegistrationPeriod
    · -- at most as many as the window counts
      subst hStart
      have hCount : (s.withPaidStart (now / params.paidRegistrationPeriod) ).paidStarts.count
              (now / params.paidRegistrationPeriod)
            ≤ (s.withPaidStart (now / params.paidRegistrationPeriod)).startsIn
                (min (now / params.paidRegistrationPeriod) u32Max) := by
        unfold startsIn List.count
        apply List.countP_mono_left
        intro start _ hEq
        rw [beq_iff_eq] at hEq
        rw [hEq]
        exact decide_eq_true rfl
      omega
    · unfold LiteState.withPaidStart
      dsimp only
      rw [List.count_append, List.count_singleton,
        if_neg (by simpa using Ne.symm hStart), Nat.add_zero]
      exact hThrottled.bounded start

end LiteState

namespace World

variable {C : Resources.Config} {K M A G P S R T : Type} [DecidableEq M] [DecidableEq A]
variable {w w' : World C K M A} {service : Service K M A G P S}

--
-- Calls and Transactions
--

theorem linked_of_did (hLinked : w.lite.Linked) (hDid : Did service w w') :
    w'.lite.Linked := by
  cases hDid with
  | attest hAttest =>
    rcases attest_eq_ok hAttest with ⟨hPerson, hAlias, hKey, _, allowance, hEnrolled⟩
    rw [hEnrolled.lite_eq]
    have hSpent : ({ w.lite with attestationAllowance := allowance } : LiteState M A).Linked :=
      hLinked.of_same rfl rfl rfl rfl rfl
    exact hSpent.withLitePerson hPerson hAlias hKey
  | registerWithFee hRegister =>
    rcases registerWithFee_eq_ok hRegister with
      ⟨hPerson, hAlias, hKey, _, _, throttled, hThrottle, hEnrolled⟩
    rw [hEnrolled.lite_eq]
    rcases LiteState.throttlePaidRegistration_eq_ok hThrottle with rfl | ⟨_, rfl⟩
    · exact hLinked.withLitePerson hPerson hAlias hKey
    · have hStarted : (w.lite.withPaidStart (w.resources.now
              / service.paidRegistrationPeriod)).Linked :=
        hLinked.of_same rfl rfl rfl rfl rfl
      exact hStarted.withLitePerson hPerson hAlias hKey
  | setAliasAccount hSet => exact hLinked.setAliasAccount hSet
  | unsetAliasAccount hUnset =>
    exact hLinked.unsetAliasAccount hUnset
  | registerLitePerson hRegister =>
    rcases registerConsumer_eq_ok hRegister with ⟨_, _, rfl⟩
    exact hLinked

theorem linked_of_steps (hLinked : w.lite.Linked)
    (hSteps : Relation.ReflTransGen (Did service) w w') :
    w'.lite.Linked := by
  induction hSteps with
  | refl => exact hLinked
  | tail _ hDid ih => exact linked_of_did ih hDid

theorem linked_of_prepared (hLinked : w.lite.Linked) (hPrepared : Prepared w w') :
    w'.lite.Linked := by
  cases hPrepared with
  | same => exact hLinked
  | revised hOld hSame => exact hLinked.revise hOld hSame

/- The registrar leaves the clock alone. -/
theorem now_of_registerLiteConsumerInner
    {s s' : ResourceState C K A} {account : A} {identifierKey : K}
    {username : Username} {reserved : Option Username}
    (hRegister : s.registerLiteConsumerInner account identifierKey username reserved = .ok s') :
    s'.now = s.now :=
  (ResourceState.sameClaims_of_registerLiteConsumerInner hRegister).now

omit [DecidableEq M] in
theorem Enrolled.now_eq {lite : LiteState M A}
    {params : Option (LiteConsumerRegistrationParams K A G)}
    (hEnrolled : w.Enrolled lite params w') :
    w'.resources.now = w.resources.now := by
  cases params with
  | none => rw [show w' = _ from hEnrolled]
  | some params =>
    rcases hEnrolled with ⟨resources, hRegister, rfl⟩
    exact now_of_registerLiteConsumerInner hRegister

theorem throttled_of_did (hThrottled : w.lite.Throttled service.toParameters w.resources.now)
    (hDid : Did service w w') :
    w'.lite.Throttled service.toParameters
      w'.resources.now := by
  cases hDid with
  | attest hAttest =>
    rcases attest_eq_ok hAttest with ⟨_, _, _, _, allowance, hEnrolled⟩
    rw [hEnrolled.lite_eq, hEnrolled.now_eq]
    exact hThrottled.of_same rfl rfl (Nat.le_refl _)
  | registerWithFee hRegister =>
    rcases registerWithFee_eq_ok hRegister with ⟨_, _, _, _, _, throttled, hThrottle, hEnrolled⟩
    rw [hEnrolled.lite_eq, hEnrolled.now_eq]
    rcases LiteState.throttlePaidRegistration_eq_ok hThrottle with rfl | ⟨hRoom, rfl⟩
    · exact hThrottled.of_same rfl rfl (Nat.le_refl _)
    · exact (hThrottled.withPaidStart hRoom).of_same rfl rfl (Nat.le_refl _)
  | setAliasAccount hSet =>
    rcases LiteState.setAliasAccount_eq_ok hSet with ⟨_, moved, hMoved, rfl⟩
    unfold LiteState.moveReference at hMoved
    split at hMoved
    · simp only [bind_eq_ok, ensure_eq_ok_iff, exists_const, pure_eq_ok] at hMoved
      rcases hMoved with ⟨_, rfl⟩
      exact hThrottled.of_same rfl rfl (Nat.le_refl _)
    · split_ifs at hMoved
      · simp only [bind_eq_ok, ensure_eq_ok_iff, exists_const, pure_eq_ok] at hMoved
        rcases hMoved with ⟨_, rfl⟩
        exact hThrottled.of_same rfl rfl (Nat.le_refl _)
      · cases hMoved
        exact hThrottled.of_same rfl rfl (Nat.le_refl _)
  | unsetAliasAccount hUnset =>
    rcases LiteState.unsetAliasAccount_eq_ok hUnset with ⟨account, _, rfl⟩
    exact hThrottled.of_same rfl rfl (Nat.le_refl _)
  | registerLitePerson hRegister =>
    rcases registerConsumer_eq_ok hRegister with ⟨resources, hInner, rfl⟩
    exact hThrottled.of_same rfl rfl (Nat.le_of_eq (now_of_registerLiteConsumerInner hInner).symm)

theorem throttled_of_steps (hThrottled : w.lite.Throttled service.toParameters w.resources.now)
    (hSteps : Relation.ReflTransGen (Did service) w w') :
    w'.lite.Throttled service.toParameters
      w'.resources.now := by
  induction hSteps with
  | refl => exact hThrottled
  | tail _ hDid ih => exact throttled_of_did ih hDid

omit [DecidableEq M] in
theorem throttled_of_prepared {params : Parameters}
    (hThrottled : w.lite.Throttled params w.resources.now) (hPrepared : Prepared w w') :
    w'.lite.Throttled params w'.resources.now := by
  cases hPrepared with
  | same => exact hThrottled
  | revised _ _ =>
    exact hThrottled.of_same rfl rfl (Nat.le_refl _)

--
-- Operations
--

omit [DecidableEq M] [DecidableEq A] in
theorem withResources_eq_ok {result : Except Resources.Error (ResourceState C K A)}
    (hWith : w.withResources result = .ok w') :
    ∃ resources, result = .ok resources ∧ w' = { w with resources := resources } := by
  unfold withResources at hWith
  split at hWith
  · next resources =>
      cases hWith
      exact ⟨resources, rfl, rfl⟩
  · cases hWith

theorem linked_of_perform (hLinked : w.lite.Linked)
    {step : Service K M A G P S × Op K M A G P S R T} (hStep : w.perform step = .ok w') :
    w'.lite.Linked := by
  rcases step with ⟨service, op⟩
  cases op with
  | setClock now block =>
    change (do
      ensure (w.block ≤ block) Error.clockDecreased
      let w₁ ← w.withResources (w.resources.setClock now)
      pure { w₁ with block := block }) = _ at hStep
    simp only [bind_eq_ok, ensure_eq_ok_iff, exists_const, pure_eq_ok] at hStep
    rcases hStep with ⟨_, w₁, hWith, rfl⟩
    rcases withResources_eq_ok hWith with ⟨_, _, rfl⟩
    exact hLinked
  | increaseAttestationAllowance account count =>
    cases hStep
    exact hLinked.of_same rfl rfl rfl rfl rfl
  | clearAttestationAllowance account =>
    cases hStep
    exact hLinked.of_same rfl rfl rfl rfl rfl
  | createLitePeopleCollection =>
    unfold perform at hStep
    simp only [bind_eq_ok, ensure_eq_ok_iff, exists_const, pure_eq_ok] at hStep
    rcases hStep with ⟨_, rfl⟩
    exact hLinked.of_same rfl rfl rfl rfl rfl
  | transaction tx =>
    rcases applyTransaction_eq_ok hStep with ⟨validated, prepared, _, _, hPrepared, hDispatch⟩
    have hReady := linked_of_prepared hLinked hPrepared
    rcases hDispatch with rfl | hDispatch
    · exact hReady
    · exact linked_of_steps hReady (did_of_dispatchCall hDispatch)
  | resources inner =>
    unfold perform at hStep
    simp only [bind_eq_ok, ensure_eq_ok_iff, exists_const] at hStep
    rcases withResources_eq_ok hStep.2 with ⟨_, _, rfl⟩
    exact hLinked

theorem throttled_of_perform {step : Service K M A G P S × Op K M A G P S R T}
    (hThrottled : w.lite.Throttled step.1.toParameters w.resources.now)
    (hStep : w.perform step = .ok w') :
    w'.lite.Throttled step.1.toParameters
      w'.resources.now := by
  rcases step with ⟨service, op⟩
  cases op with
  | setClock now block =>
    unfold perform at hStep
    simp only [bind_eq_ok, ensure_eq_ok_iff, exists_const, pure_eq_ok] at hStep
    rcases hStep with ⟨_, w₁, hWith, rfl⟩
    rcases withResources_eq_ok hWith with ⟨_, hSet, rfl⟩
    rcases ResourceState.setClock_eq_ok hSet with ⟨hLater, rfl⟩
    exact hThrottled.of_same rfl rfl hLater
  | increaseAttestationAllowance account count =>
    cases hStep
    exact hThrottled.of_same rfl rfl (Nat.le_refl _)
  | clearAttestationAllowance account =>
    cases hStep
    exact hThrottled.of_same rfl rfl (Nat.le_refl _)
  | createLitePeopleCollection =>
    unfold perform at hStep
    simp only [bind_eq_ok, ensure_eq_ok_iff, exists_const, pure_eq_ok] at hStep
    rcases hStep with ⟨_, rfl⟩
    exact hThrottled.of_same rfl rfl (Nat.le_refl _)
  | transaction tx =>
    rcases applyTransaction_eq_ok hStep with ⟨validated, prepared, _, _, hPrepared, hDispatch⟩
    have hReady := throttled_of_prepared hThrottled hPrepared
    rcases hDispatch with rfl | hDispatch
    · exact hReady
    · exact throttled_of_steps hReady (did_of_dispatchCall hDispatch)
  | resources inner =>
    unfold perform at hStep
    simp only [bind_eq_ok, ensure_eq_ok_iff, exists_const] at hStep
    rcases withResources_eq_ok hStep.2 with ⟨resources, hInner, rfl⟩
    exact hThrottled.of_same rfl rfl (ResourceState.now_le_of_perform hInner)

--
-- Lite People over Runs
--

/- A world that some run of operations reaches. -/
def Reachable (G P S R T : Type) (w : World C K M A) : Prop :=
  RunUnder (perform : World C K M A → Service K M A G P S × Op K M A G P S R T → _)
    (fun _ _ _ => True) (genesis C K M A) w

/- A run whose parameters never change. -/
def ReachableWith (G P S R T : Type) (params : Parameters) (w : World C K M A) : Prop :=
  RunUnder (perform : World C K M A → Service K M A G P S × Op K M A G P S R T → _)
    (fun _ step _ => step.1.toParameters = params)
    (genesis C K M A) w

theorem linked_of_reachable (hReachable : Reachable G P S R T w) : w.lite.Linked :=
  RunUnder.invariant (fun w => w.lite.Linked) hReachable
    (fun _ _ _ _ hStep hLinked => linked_of_perform hLinked hStep)
    LiteState.linked_genesis

theorem throttled_of_reachable {params : Parameters}
    (hReachable : ReachableWith G P S R T params w) :
    w.lite.Throttled params w.resources.now := by
  apply RunUnder.invariant (fun w => w.lite.Throttled params w.resources.now) hReachable
  · rintro w step w' rfl hStep hThrottled
    exact throttled_of_perform hThrottled hStep
  · exact LiteState.throttled_genesis params

/- Aliases and lite people do not overlap, and each has one reference and one key. -/
structure LitePeopleAgree (s : LiteState M A) : Prop where
  aliasToAccount : ∀ ca account,
      s.aliasToAccount.get ca = some account
        ↔ ∃ revCa, s.accountToAlias.get account = some revCa ∧ revCa.ca = ca
  disjoint : ∀ account,
      ¬(s.litePeople.containsKey account = true
        ∧ s.accountToAlias.containsKey account = true)
  references : ∀ account,
      s.sufficients.getD account 0
        = if s.litePeople.containsKey account = true
              ∨ s.accountToAlias.containsKey account = true then
            1
          else 0
  members : ∀ account info,
      s.litePeople.get account = some info →
        s.collection.containsKey info.ringVrfKey = true
  keys : ∀ account account' info info',
      s.litePeople.get account = some info →
        s.litePeople.get account' = some info' →
          info.ringVrfKey = info'.ringVrfKey → account = account'

theorem litePeopleAgree_of_linked {s : LiteState M A} (hLinked : s.Linked) :
    LitePeopleAgree s where
  aliasToAccount := by
    intro ca account
    rw [hLinked.inverse ca account]
    simp only [LiteState.StandsFor, eq_comm]
  disjoint := by
    rintro account ⟨hPerson, hAlias⟩
    rcases StorageMap.containsKey_iff.mp hPerson with ⟨info, hInfo⟩
    rw [StorageMap.containsKey_eq_false_iff.mpr (hLinked.disjoint account info hInfo)] at hAlias
    cases hAlias
  references := by
    intro account
    rw [hLinked.references]
    simp only [LiteState.known, Bool.or_eq_true]
  members := hLinked.members
  keys := hLinked.keys

/- A call that registers a lite person. -/
def registers : Call K M A G S → Bool
  | .attest _ _ _ _ _ => true
  | .registerWithFee _ _ _ => true
  | _ => false

theorem count_lt_of_dispatchCall {origin : Origin A} {call : Call K M A G S}
    (hRegisters : registers call = true) (hDispatch : dispatchCall service w origin call = .ok w') :
    w.lite.count < service.maxLitePeople := by
  cases call with
  | attest =>
    cases origin <;> unfold dispatchCall at hDispatch
    case signed => exact (attest_eq_ok hDispatch).2.2.2.1
    all_goals cases hDispatch
  | registerWithFee =>
    cases origin <;> unfold dispatchCall at hDispatch
    case signed =>
      exact (registerWithFee_eq_ok hDispatch).2.2.2.2.1
    all_goals cases hDispatch
  | _ => cases hRegisters

theorem lite_people_agree (hReachable : Reachable G P S R T w) :
    LitePeopleAgree w.lite ∧ (∀ (service : Service K M A G P S)
            (now next : World C K M A) origin call,
          registers call = true → dispatchCall service now origin call = .ok next →
              now.lite.count < service.maxLitePeople)
      ∧ ∀ params period, ReachableWith G P S R T params w →
          w.lite.paidStarts.count period ≤ params.paidRegistrationsPerPeriod := by
  refine ⟨?_, ?_, ?_⟩
  · exact litePeopleAgree_of_linked (linked_of_reachable hReachable)
  · intro service now next origin call hRegisters hDispatch
    exact count_lt_of_dispatchCall hRegisters hDispatch
  · intro params period hFixed
    exact (throttled_of_reachable hFixed).bounded period

--
-- A Small Run
--

/- The run is reached with the parameters it was made with. -/
theorem lite_people_agree_sample : ∃ w : SampleWorld,
      Reachable Unit Bytes32 Unit Bytes32 Unit w ∧ w.lite.aliasToAccount.get
            { alias_ := 5, context := 0 } = some 12
        ∧ w.lite.paidStarts = [1]
        ∧ LitePeopleAgree w.lite
        ∧ w.lite.paidStarts.count 1 ≤ 1 := by
  have hExecute : (performSteps sampleEnrolment).any (fun w =>
          decide (w.lite.aliasToAccount.get { alias_ := 5, context := 0 } = some 12
              ∧ w.lite.paidStarts = [1])) = true := by
    decide +kernel
  rcases exists_run_of_execute parameters_of_hasSampleParameters
      hExecute with
    ⟨w, hRun, hTest⟩
  rw [decide_eq_true_eq] at hTest
  have hReachable : Reachable Unit Bytes32 Unit Bytes32 Unit w := hRun.weaken fun _ _ _ _ => trivial
  rcases lite_people_agree hReachable with ⟨hAgree, _, hThrottled⟩
  exact ⟨w, hReachable, hTest.1, hTest.2, hAgree, hThrottled sampleService.toParameters 1 hRun⟩

end World

end Individuality.PeopleLite
