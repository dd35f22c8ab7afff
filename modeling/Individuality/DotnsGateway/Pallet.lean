import Individuality.Base.Inverse
import Individuality.Base.Runs
import Individuality.MembersPallet.Types
import Individuality.Support.Labels

/-
  The dotNS gateway: attesters reserve names for lite people,
  and a person registers one name, by a ring proof.

  Main declaration: `GatewayState.perform`
-/

namespace Individuality.DotnsGateway

open StorageMap (getD_insert get_empty get_insert_of_ne)

abbrev Alias := Vector UInt8 32

abbrev ChatKey := Vector UInt8 65

abbrev H160 := Vector UInt8 20

abbrev BaseLabel := { bytes : Support.Bytes // bytes.length ≤ 32 }

def BaseLabel.isValidLite (label : BaseLabel) : Bool :=
  Support.isLitePersonLabel label.val = some true

def BaseLabel.isValidPerson (label : BaseLabel) : Bool :=
  Support.isPersonLabel label.val

def BaseLabel.liteBase (label : BaseLabel) : Support.Bytes :=
  label.val.takeWhile (· ≠ Support.dot)

inductive Link where
  | liteUsername (label : BaseLabel)
  | none (chatKey : ChatKey)
  deriving DecidableEq

/- The calls of the contracts before their ABI encoding. -/
inductive ContractCall where
  | reserveLiteName (liteLabel : BaseLabel) (user : H160) (chatKey : ChatKey)
  | reserveBaseName (liteLabel : BaseLabel) (user : H160) (chatKey : ChatKey)
    (reservedBaseLabel : BaseLabel)
  | registerBaseName (label : BaseLabel) (user : H160) (link : Link)

inductive DispatcherRevert where
  | notRoot
  | notGateway
  | invalidLiteLabel
  | invalidBaseLabel
  | noActiveReservation
  | queueFull
  | alreadyReserved
  | notHolder
  deriving DecidableEq

inductive Error where
  | contractCallFailed
  | contractRevert (revert : DispatcherRevert)
  | invalidName
  | noAttestationAllowance
  | invalidAttestationSignature
  | reservationSignatureExpired
  | reservationSignatureFromFuture
  | notLiteLabelOwner
  | dispatcherAddressNotSet
  | invalidOffchainSignature
  | aliasAlreadyRegistered
  | accountAlreadyRegistered
  | badProof
  deriving DecidableEq

structure NameEntry where
  label : BaseLabel
  chat : Option ChatKey
  deriving DecidableEq

structure AccountNameRecord where
  lite : Option NameEntry
  full : Option NameEntry
  deriving DecidableEq

inductive Collection where
  | people
  | peopleLite
  deriving DecidableEq

structure RegistrationRecord (AccountId : Type) where
  collection : Collection
  account : AccountId

/- What the candidate of a reservation signs. -/
structure ReservationMessage (AccountId : Type) where
  candidate : AccountId
  attester : AccountId
  usernameBase : Support.Bytes
  chatKey : ChatKey
  reservedBaseLabel : Option BaseLabel
  signedAt : Nat

/-
  What a call finds outside of the pallet.  A contract call
  reverts with its decoded error, or fails otherwise.
-/
structure Chain (AccountId Signature Proof : Type) where
  now : Nat
  maxValiditySeconds : Nat
  maxFutureSkewSeconds : Nat
  toAddress : AccountId → H160
  callContract : H160 → ContractCall → Except (Option DispatcherRevert) Unit
  verifyReservation : Signature → ReservationMessage AccountId → AccountId → Bool
  verifyImplication : Signature → AccountId → Bool
  verifyMembership :
    Proof → RingIndex → RevisionIndex → AccountId × BaseLabel × Link → Option Alias

structure GatewayState (A : Type) [DecidableEq A] where
  aliasRegistration : StorageMap Alias (RegistrationRecord A)
  accountAlias : StorageMap A Alias
  attestationAllowance : StorageMap A Nat
  liteLabelOwner : StorageMap BaseLabel A
  accountNames : StorageMap A AccountNameRecord
  dispatcherAddress : Option H160

inductive Op (A Signature Proof : Type) where
  | reserveName (attester candidate : A) (candidateSignature : Signature)
    (liteLabel : BaseLabel) (chatKey : ChatKey)
    (reservedBaseLabel : Option BaseLabel) (signedAt : Nat)
  | registerName (proof : Proof) (ringIndex : RingIndex) (revision : RevisionIndex)
    (signature : Signature) (who : A) (label : BaseLabel) (link : Link)
  | increaseAttestationAllowance (account : A) (count : Nat)
  | clearAttestationAllowance (account : A)
  | setDispatcherAddress (address : H160)

namespace GatewayState

variable {A Signature Proof : Type} [DecidableEq A]
variable {chain : Chain A Signature Proof} {s s' : GatewayState A}

def genesis (dispatcherAddress : Option H160) : GatewayState A :=
  ⟨.empty, .empty, .empty, .empty, .empty, dispatcherAddress⟩

--
-- Calls
--

def callDispatcher (chain : Chain A Signature Proof) (s : GatewayState A)
    (call : ContractCall) : Except Error Unit := do
  let address ← okOr s.dispatcherAddress .dispatcherAddressNotSet
  (chain.callContract address call).mapError fun
    | some revert => .contractRevert revert
    | none => .contractCallFailed

def names (s : GatewayState A) (account : A) : AccountNameRecord :=
  s.accountNames.getD account ⟨none, none⟩

def reserveName (chain : Chain A Signature Proof) (s : GatewayState A)
    (attester candidate : A) (candidateSignature : Signature)
    (liteLabel : BaseLabel) (chatKey : ChatKey)
    (reservedBaseLabel : Option BaseLabel) (signedAt : Nat) :
    Except Error (GatewayState A) := do
  ensure (liteLabel.isValidLite = true) .invalidName
  ensure (reservedBaseLabel.all BaseLabel.isValidPerson = true) .invalidName
  ensure (signedAt ≤ saturatingAdd u64Max chain.now chain.maxFutureSkewSeconds)
    .reservationSignatureFromFuture
  ensure (chain.now ≤ saturatingAdd u64Max signedAt chain.maxValiditySeconds)
    .reservationSignatureExpired
  ensure (chain.verifyReservation candidateSignature
      ⟨candidate, attester, liteLabel.liteBase, chatKey, reservedBaseLabel, signedAt⟩
      candidate = true)
    .invalidAttestationSignature
  let allowance := s.attestationAllowance.getD attester 0
  ensure (1 ≤ allowance) .noAttestationAllowance
  let user := chain.toAddress candidate
  s.callDispatcher chain (match reservedBaseLabel with
    | some base => .reserveBaseName liteLabel user chatKey base
    | none => .reserveLiteName liteLabel user chatKey)
  return { s with
    attestationAllowance :=
      if allowance - 1 > 0 then s.attestationAllowance.insert attester (allowance - 1)
      else s.attestationAllowance.remove attester
    liteLabelOwner := s.liteLabelOwner.insert liteLabel candidate
    accountNames := s.accountNames.insert candidate
      { s.names candidate with lite := some ⟨liteLabel, some chatKey⟩ } }

def ensureLink (s : GatewayState A) (who : A) : Link → Except Error Unit
  | .liteUsername liteLabel => do
    ensure (liteLabel.isValidLite = true) .invalidName
    ensure (s.liteLabelOwner.get liteLabel = some who) .notLiteLabelOwner
  | .none _ => pure ()

/- What the extension checks before it sets the origin. -/
def authenticateRegisterFullName
    (chain : Chain A Signature Proof) (s : GatewayState A) (proof : Proof)
    (ringIndex : RingIndex) (revision : RevisionIndex) (signature : Signature)
    (who : A) (label : BaseLabel) (link : Link) : Except Error Alias := do
  ensure (label.isValidPerson = true) .invalidName
  s.ensureLink who link
  ensure (s.accountAlias.containsKey who = false) .accountAlreadyRegistered
  ensure (chain.verifyImplication signature who = true) .invalidOffchainSignature
  let alias_ ← okOr (chain.verifyMembership proof ringIndex revision (who, label, link)) .badProof
  ensure (s.aliasRegistration.containsKey alias_ = false) .aliasAlreadyRegistered
  return alias_

def registerName (chain : Chain A Signature Proof) (s : GatewayState A) (alias_ : Alias)
    (who : A) (label : BaseLabel) (link : Link) : Except Error (GatewayState A) := do
  s.callDispatcher chain (.registerBaseName label (chain.toAddress who) link)
  let record := s.names who
  -- the key is known when the linked label is the recorded one
  let chat := match link with
    | .none chatKey => some chatKey
    | .liteUsername lite =>
      (record.lite.filter (fun entry => entry.label == lite)).bind (·.chat)
  return { s with
    aliasRegistration := s.aliasRegistration.insert alias_ ⟨.people, who⟩
    accountAlias := s.accountAlias.insert who alias_
    accountNames := s.accountNames.insert who { record with full := some ⟨label, chat⟩ } }

def perform (s : GatewayState A) :
    Chain A Signature Proof × Op A Signature Proof → Except Error (GatewayState A)
  | (chain, .reserveName attester candidate signature lite chatKey base signedAt) =>
    s.reserveName chain attester candidate signature lite chatKey base signedAt
  | (chain, .registerName proof ringIndex revision signature who label link) => do
    let alias_ ← s.authenticateRegisterFullName chain proof ringIndex revision
      signature who label link
    s.registerName chain alias_ who label link
  | (_, .increaseAttestationAllowance account count) =>
    .ok { s with
      attestationAllowance := s.attestationAllowance.insert account
        (saturatingAdd u32Max (s.attestationAllowance.getD account 0) count) }
  | (_, .clearAttestationAllowance account) =>
    .ok { s with attestationAllowance := s.attestationAllowance.remove account }
  | (_, .setDispatcherAddress address) =>
    .ok { s with dispatcherAddress := some address }

--
-- One Name for Each Person
--

/- Aliases and accounts are inverse, and registered is named. -/
structure Linked (s : GatewayState A) : Prop where
  inverse : Inverse s.accountAlias s.aliasRegistration fun record account =>
    record.account = account
  named : ∀ account alias_, s.accountAlias.get account = some alias_ →
    (s.names account).full.isSome = true

/- Registrations stay, with their alias and their name. -/
def Kept (s s' : GatewayState A) : Prop :=
  ∀ account alias_, s.accountAlias.get account = some alias_ →
    s'.accountAlias.get account = some alias_ ∧ (s'.names account).full = (s.names account).full

theorem linked_genesis (dispatcherAddress : Option H160) :
    (genesis dispatcherAddress : GatewayState A).Linked where
  inverse := Inverse.empty _
  named := by
    intro account alias_ hGet
    cases (get_empty account).symm.trans hGet

theorem Linked.of_same (hLinked : s.Linked) (hAlias : s'.accountAlias = s.accountAlias)
    (hRegistration : s'.aliasRegistration = s.aliasRegistration)
    (hFull : ∀ account, (s'.names account).full = (s.names account).full) :
    s'.Linked ∧ Kept s s' := by
  refine ⟨⟨?_, ?_⟩, ?_⟩
  · rw [hAlias, hRegistration]
    exact hLinked.inverse
  · intro account alias_ hGet
    rw [hFull]
    exact hLinked.named account alias_ (hAlias ▸ hGet)
  · intro account alias_ hGet
    exact ⟨hAlias ▸ hGet, hFull account⟩

theorem Linked.registerName {alias_ : Alias} {who : A} {label : BaseLabel} {link : Link}
    (hLinked : s.Linked) (hWho : s.accountAlias.get who = none)
    (hUnused : s.aliasRegistration.get alias_ = none)
    (hRegister : s.registerName chain alias_ who label link = .ok s') :
    s'.Linked ∧ Kept s s' := by
  simp only [GatewayState.registerName, Except.bind_eq_ok, Except.pure_eq_ok] at hRegister
  rcases hRegister with ⟨_, _, rfl⟩
  refine ⟨⟨hLinked.inverse.claim hWho hUnused fun _ => eq_comm, ?_⟩, ?_⟩
  · intro account alias' hGet
    dsimp only [names]
    rw [getD_insert]
    split_ifs with hSame
    · rfl
    · rw [get_insert_of_ne _ _ hSame] at hGet
      exact hLinked.named account alias' hGet
  · intro account alias' hGet
    have hNe : account ≠ who := by
      rintro rfl
      cases hWho.symm.trans hGet
    refine ⟨(get_insert_of_ne _ _ hNe).trans hGet, ?_⟩
    dsimp only [names]
    rw [getD_insert, if_neg hNe]

/- One transaction keeps the links and all registrations. -/
theorem Linked.perform {call : Chain A Signature Proof × Op A Signature Proof} (hLinked : s.Linked)
    (hPerform : s.perform call = .ok s') :
    s'.Linked ∧ Kept s s' := by
  rcases call with ⟨chain, op⟩
  cases op with
  | reserveName attester candidate signature lite chatKey base signedAt =>
    simp only [GatewayState.perform, reserveName, Except.bind_eq_ok, Except.pure_eq_ok] at hPerform
    rcases hPerform with ⟨_, _, _, _, _, _, _, _, _, _, _, _, _, _, rfl⟩
    refine hLinked.of_same rfl rfl ?_
    intro account
    dsimp only [names]
    rw [getD_insert]
    split_ifs with hSame
    · rw [hSame]
    · rfl
  | registerName proof ringIndex revision signature who label link =>
    simp only [GatewayState.perform, authenticateRegisterFullName, Except.bind_eq_ok,
      ensure_eq_ok_iff, Except.pure_eq_ok] at hPerform
    rcases hPerform with ⟨_, ⟨_, _, _, _, _, hWho, _, _, alias_, _, _, hAlias, rfl⟩, hRegister⟩
    exact hLinked.registerName (StorageMap.containsKey_eq_false_iff.mp hWho)
      (StorageMap.containsKey_eq_false_iff.mp hAlias) hRegister
  | _ =>
    cases hPerform
    exact hLinked.of_same rfl rfl fun _ => rfl

/-
  In every run, a person who proves membership again cannot register again: aliases and accounts
  correspond one to one, each registered account has its name, and no later transaction takes the
  alias or the name from it.
-/
theorem registrations_permanent {dispatcherAddress : Option H160} {s₀ : GatewayState A}
    (hReached : RunUnder perform
      (fun _ (_ : Chain A Signature Proof × Op A Signature Proof) _ => True)
      (genesis dispatcherAddress) s₀)
    (hRun : RunUnder perform
      (fun _ (_ : Chain A Signature Proof × Op A Signature Proof) _ => True) s₀ s) :
    (∀ account alias_, s.accountAlias.get account = some alias_ ↔
        ∃ record, s.aliasRegistration.get alias_ = some record ∧ record.account = account)
      ∧ ∀ account alias_, s₀.accountAlias.get account = some alias_ →
        s.accountAlias.get account = some alias_ ∧ (s₀.names account).full.isSome = true
          ∧ (s.names account).full = (s₀.names account).full := by
  have hLinked : s₀.Linked := RunUnder.invariant Linked hReached (fun _ _ _ _ hPerform hLinked =>
      (hLinked.perform hPerform).1) (linked_genesis dispatcherAddress)
  have hKept : s.Linked ∧ Kept s₀ s := by
    refine RunUnder.invariant (fun s => s.Linked ∧ Kept s₀ s) hRun ?_
      ⟨hLinked, fun _ _ hGet => ⟨hGet, rfl⟩⟩
    rintro s₁ call s₂ _ hPerform ⟨hBefore, hSame⟩
    rcases hBefore.perform hPerform with ⟨hAfter, hStep⟩
    refine ⟨hAfter, fun account alias_ hGet => ?_⟩
    rcases hSame account alias_ hGet with ⟨hGet₁, hName⟩
    rcases hStep account alias_ hGet₁ with ⟨hGet₂, hName'⟩
    exact ⟨hGet₂, hName'.trans hName⟩
  refine ⟨hKept.1.inverse, fun account alias_ hGet => ?_⟩
  rcases hKept.2 account alias_ hGet with ⟨hStays, hName⟩
  exact ⟨hStays, hLinked.named account alias_ hGet, hName⟩

def sampleChain : Chain Nat Unit Unit where
  now := 50
  maxValiditySeconds := 10
  maxFutureSkewSeconds := 10
  toAddress := fun account => Vector.replicate 20 (UInt8.ofNat account)
  callContract := fun _ _ => .ok ()
  verifyReservation := fun _ _ _ => true
  verifyImplication := fun _ _ => true
  verifyMembership := fun _ _ _ _ => some (Vector.replicate 32 3)

def samplePerson : BaseLabel := ⟨[0x61, 0x6c], Nat.le_of_ble_eq_true rfl⟩

def sampleLite : BaseLabel := ⟨[0x61, 0x6c, 0x2e, 0x34, 0x32], Nat.le_of_ble_eq_true rfl⟩

/- A person who has a name gets a lite name, and keeps both. -/
theorem registrations_permanent_sample : ∃ s₀ s : GatewayState Nat,
    s₀.accountAlias.get 7 = some (Vector.replicate 32 3) ∧ (s.names 7).lite.isSome = true
      ∧ s.accountAlias.get 7 = some (Vector.replicate 32 3)
      ∧ (s.names 7).full.isSome = true := by
  have hExecute : (execute perform (fun _ _ => true) (genesis none)
      [(sampleChain, .setDispatcherAddress (Vector.replicate 20 1)),
        (sampleChain, .registerName () 0 0 () 7 samplePerson (.none (Vector.replicate 65 2))),
        (sampleChain, .increaseAttestationAllowance 9 1)]).any (fun s₀ =>
      decide (s₀.accountAlias.get 7 = some (Vector.replicate 32 3))
        && (execute perform (fun _ _ => true) s₀
          [(sampleChain, .reserveName 9 7 () sampleLite (Vector.replicate 65 4) none
            45)]).any fun s => (s.names 7).lite.isSome) = true := by
    decide +kernel
  rcases exists_run_of_execute (fun _ _ _ _ _ => (trivial : True)) hExecute with
    ⟨s₀, hReached, hTest⟩
  rw [Bool.and_eq_true, decide_eq_true_eq] at hTest
  rcases exists_run_of_execute (fun _ _ _ _ _ => (trivial : True)) hTest.2 with ⟨s, hRun, hLite⟩
  rcases (registrations_permanent hReached hRun).2 7 _ hTest.1 with ⟨hStays, hNamed, hName⟩
  exact ⟨s₀, s, hTest.1, hLite, hStays, hName ▸ hNamed⟩

end GatewayState

end Individuality.DotnsGateway
