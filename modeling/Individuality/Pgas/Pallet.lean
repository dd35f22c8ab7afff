import Individuality.Base.DoubleMap
import Individuality.Base.Fallible
import Individuality.Base.Runs
import Individuality.MembersPallet.Types

/-
  The PGAS pallet: members claim an amount of the asset for a slot of a day, by a ring proof that
  reveals the alias of the slot.  What was claimed is recorded under the day until the records of a
  day gone by are cleaned.

  Main declaration: `buildGasContext`
-/

namespace Individuality.Pgas

abbrev Bytes32 := Vector UInt8 32

def pgasDayGraceWindow : Nat := 3600

def secsPerDay : Nat := 86400

def maxPgasBatchClaims : Nat := 8

inductive PgasCollection where
  | people
  | litePeople
  deriving DecidableEq, Repr

theorem size_peopleIdentifier :
    "pop:polkadot.network/people     ".toUTF8.data.size = 32 := by
  decide +kernel

/- `PEOPLE_IDENTIFIER` and `PEOPLE_LITE_IDENTIFIER`. -/
def PgasCollection.identifier : PgasCollection → Identifier
  | people =>
    ⟨"pop:polkadot.network/people     ".toUTF8.data,
      size_peopleIdentifier⟩
  | litePeople =>
    ⟨"pop:polkadot.network/people-lite".toUTF8.data,
      by decide +kernel⟩

--
-- Configuration
--

/-
  The prover of ring membership, which gives the aliases of the contexts it is asked about, a hash,
  the asset that is minted, the order in which records of a day are iterated, and the constants of
  the pallet.
-/
structure Config where
  AccountId : Type
  Assets : Type
  Rings : Type
  Proof : Type
  networkSuffix : List UInt8
  verifyMembership : Rings → Identifier → Proof → RingIndex → RevisionIndex →
      Context → Bytes32 → Option Alias
  verifyMembershipMultiContext :
    Rings → Identifier → Proof → RingIndex → RevisionIndex →
      List Context → Bytes32 → Option (List Alias)
  blake2_256 : List UInt8 → Bytes32
  assetExists : Assets → Bool
  createAsset : Assets → Option Assets
  mintInto : Assets → AccountId → Nat → Option Assets
  hashOrder : List Alias → List Alias
  pgasClaimAmount : Nat
  maxClaimsPerPeriodPerPerson : Nat
  maxClaimsPerPeriodPerLitePerson : Nat
  maxPgasClaimRecordCleanupPerCall : Nat
  maxPgasClaimsPerBatch : Nat
  claims_le : maxClaimsPerPeriodPerPerson ≤ u32Max ∧
      maxClaimsPerPeriodPerLitePerson ≤ u32Max
  batch_le : maxPgasClaimsPerBatch ≤ maxPgasBatchClaims

--
-- Contexts
--

/- `u32::to_le_bytes`. -/
def u32Le (n : Nat) : List UInt8 :=
  [UInt8.ofNat n, UInt8.ofNat (n / 256), UInt8.ofNat (n / 65536), UInt8.ofNat (n / 16777216)]

theorem u32Le_injective {m n : Nat} (hM : m ≤ u32Max) (hN : n ≤ u32Max)
    (hSame : u32Le m = u32Le n) :
    m = n := by
  unfold u32Le at hSame
  simp only [List.cons.injEq, and_true] at hSame
  rcases hSame with ⟨h₀, h₁, h₂, h₃⟩
  have b₀ := congrArg UInt8.toNat h₀
  have b₁ := congrArg UInt8.toNat h₁
  have b₂ := congrArg UInt8.toNat h₂
  have b₃ := congrArg UInt8.toNat h₃
  rw [UInt8.toNat_ofNat', UInt8.toNat_ofNat'] at b₀ b₁ b₂ b₃
  unfold u32Max at hM hN
  omega

def pgasClaimFamily : Nat := 4

/- `personhood::pgas_claim`: a raw suffix of 32 bytes. -/
def pgasClaim (day slot : Nat) : List UInt8 :=
  "sys/".toUTF8.toList ++ u32Le pgasClaimFamily ++ u32Le day
    ++ u32Le slot ++ List.replicate 16 0

section Config

variable (T : Config)

/- What `build_product_context` hashes for a slot. -/
def gasPreimage (day slot : Nat) : List UInt8 :=
  "product/".toUTF8.toList ++ "peopl".toUTF8.toList
    ++ ".".toUTF8.toList ++ T.networkSuffix
    ++ "/".toUTF8.toList ++ pgasClaim day slot

def buildGasContext (day slot : Nat) : Context :=
  T.blake2_256 (gasPreimage T day slot)

theorem gasPreimage_injective {day slot slot' : Nat} (hSlot : slot ≤ u32Max)
    (hSlot' : slot' ≤ u32Max) (hSame : gasPreimage T day slot = gasPreimage T day slot') :
    slot = slot' := by
  unfold gasPreimage pgasClaim at hSame
  rw [List.append_right_inj, List.append_left_inj, List.append_right_inj] at hSame
  exact u32Le_injective hSlot hSlot' hSame

def maxClaimsFor : PgasCollection → Nat
  | .people => T.maxClaimsPerPeriodPerPerson
  | .litePeople => T.maxClaimsPerPeriodPerLitePerson

theorem maxClaimsFor_le (collection : PgasCollection) :
    maxClaimsFor T collection ≤ u32Max := by
  cases collection with
  | people => exact T.claims_le.1
  | litePeople => exact T.claims_le.2

--
-- Transactions
--

structure ProofInfo where
  proof : T.Proof
  ringIndex : RingIndex
  revision : RevisionIndex
  collection : PgasCollection
  day : Nat

inductive AsPgasInfo where
  | claim (info : ProofInfo T)
  | batchClaim (info : ProofInfo T)

def AsPgasInfo.info {T : Config} : AsPgasInfo T → ProofInfo T
  | claim info => info
  | batchClaim info => info

inductive Call where
  | claimPgas (slotIndex : Nat) (target : T.AccountId)
  | batchClaimPgas
      (slotIndices : BoundedVec Nat T.maxPgasClaimsPerBatch)
      (target : T.AccountId)
  | other

inductive Origin where
  | none
  | claimAlias
      (a : Alias)
      (day : Nat)
      (collection : PgasCollection)
  | batchClaimAliases (aliases : BoundedVec Alias maxPgasBatchClaims) (day : Nat)
      (collection : PgasCollection)
  | other

/-
  A transaction as it reaches the extension, and the calls
  that are dispatched directly with its origin after its own.
-/
structure Transaction where
  origin : Origin
  call : Call T
  asPgas : Option (AsPgasInfo T)
  inheritedImplication : List UInt8
  further : List (Call T)

/-
  The clock in seconds, the rings, the assets, the records,
  and every claim that was ever minted for.
-/
structure Chain where
  now : Nat
  rings : T.Rings
  assets : T.Assets
  claimedGasAliases : DoubleMap Nat Alias Unit
  minted : List (Nat × Alias)

end Config

inductive Failure where
  | badOrigin
  | badSigner
  | call
  | badProof
  | future
  | stale
  | exhaustsResources
  | invalidClaimSlot
  | invalidClaimDay
  | alreadyClaimed
  | pgasAssetNotCreated
  | firstAliasMismatch
  | emptyBatchClaim
  | duplicateClaimSlot
  | pgasMintFailed
  | noRecordsForDay
  deriving DecidableEq, Repr

def currentDay (now : Nat) : Nat :=
  min (now / secsPerDay) u32Max

def graceDay (now : Nat) : Nat :=
  min ((now - pgasDayGraceWindow) / secsPerDay) u32Max

namespace Chain

variable {T : Config}

--
-- Claiming
--

def doClaimPgas (s : Chain T) (a : Alias) (day : Nat)
    (target : T.AccountId) : Except Failure (Chain T) := do
  ensure (s.claimedGasAliases.containsKey (day, a) = false) Failure.alreadyClaimed
  let assets ← okOr (T.mintInto s.assets target T.pgasClaimAmount) Failure.pgasMintFailed
  return { s with
    assets := assets
    claimedGasAliases := s.claimedGasAliases.insert (day, a) ()
    minted := s.minted ++ [(day, a)] }

/- The loop of `batch_claim_pgas`. -/
def claimAll (s : Chain T) (aliases : List Alias) (day : Nat)
    (target : T.AccountId) : Except Failure (Chain T) :=
  aliases.foldlM (fun s a => s.doClaimPgas a day target) s

def dispatch (s : Chain T) (origin : Origin) (call : Call T) : Except Failure (Chain T) :=
  match call, origin with
  | .claimPgas _ target, .claimAlias a day _ =>
    s.doClaimPgas a day target
  | .batchClaimPgas _ target,
      .batchClaimAliases aliases day _ =>
      s.claimAll aliases.toList day target
  | .other, _ => .ok s
  | _, _ => .error .badOrigin

/- A dispatch that fails is rolled back. -/
def attempt (s : Chain T) (origin : Origin) (call : Call T) : Chain T :=
  (s.dispatch origin call).toOption.getD s

--
-- The Extension
--

def acceptsDay (now : Nat) (day : Nat) : Bool :=
  day = currentDay now || day = graceDay now

def validateClaim (s : Chain T) (tx : Transaction T) (info : ProofInfo T) : Except Failure Origin :=
  match tx.call with
  | .claimPgas slotIndex _ => do
    ensure (slotIndex < maxClaimsFor T info.collection) Failure.invalidClaimSlot
    ensure (T.assetExists s.assets = true) Failure.pgasAssetNotCreated
    ensure (acceptsDay s.now info.day = true) Failure.invalidClaimDay
    let a ← okOr (T.verifyMembership s.rings info.collection.identifier
          info.proof info.ringIndex info.revision
          (buildGasContext T info.day slotIndex)
          (T.blake2_256 tx.inheritedImplication))
        Failure.badProof
    ensure (s.claimedGasAliases.containsKey (info.day, a) = false) Failure.alreadyClaimed
    return .claimAlias a info.day info.collection
  | _ => .error .call

/- A slot of a batch, after the slots before it. -/
def checkSlots (maxSlot : Nat) :
    List Nat → List Nat → Except Failure Unit
  | _, [] => .ok ()
  | before, slotIndex :: rest => do
    ensure (slotIndex < maxSlot) Failure.invalidClaimSlot
    ensure (slotIndex ∉ before) Failure.duplicateClaimSlot
    checkSlots maxSlot (before ++ [slotIndex]) rest

/- One alias of the proof is put with those before it. -/
def pushAlias (s : Chain T) (day : Nat) (aliases : BoundedVec Alias maxPgasBatchClaims)
    (proven : Alias × Nat) :
    Except Failure (BoundedVec Alias maxPgasBatchClaims) := do
  ensure (s.claimedGasAliases.containsKey (day, proven.1) = false) Failure.alreadyClaimed
  okOr (aliases.tryPush proven.1) Failure.exhaustsResources

def validateBatchClaim (s : Chain T) (tx : Transaction T)
    (info : ProofInfo T) : Except Failure Origin :=
  match tx.call with
  | .batchClaimPgas slotIndices _ => do
    ensure (slotIndices.isEmpty = false) Failure.emptyBatchClaim
    checkSlots (maxClaimsFor T info.collection) [] slotIndices.toList
    ensure (T.assetExists s.assets = true) Failure.pgasAssetNotCreated
    ensure (acceptsDay s.now info.day = true) Failure.invalidClaimDay
    let cas ← okOr (T.verifyMembershipMultiContext s.rings info.collection.identifier info.proof
          info.ringIndex info.revision
          (slotIndices.toList.map (buildGasContext T info.day))
          (T.blake2_256 tx.inheritedImplication))
        Failure.badProof
    let aliases ← (cas.zip slotIndices.toList).foldlM (s.pushAlias info.day) BoundedVec.empty
    return .batchClaimAliases aliases info.day info.collection
  | _ => .error .call

/- `AsPgas::validate`: the origin of the call afterwards. -/
def validate (s : Chain T) (tx : Transaction T) : Except Failure Origin :=
  match tx.asPgas with
  | none =>
    -- Origins of claims come from this extension alone.
    match tx.origin with
    | .none => .ok .none
    | _ => .ok .other
  | some asPgas =>
    match tx.origin with
    | .none =>
      match asPgas with
      | .claim info => s.validateClaim tx info
      | .batchClaim info => s.validateBatchClaim tx info
    | _ => .error .badSigner

def applyTransaction (s : Chain T) (tx : Transaction T) : Except Failure (Chain T) := do
  let origin ← s.validate tx
  return tx.further.foldl (fun s call => s.attempt origin call) (s.attempt origin tx.call)

--
-- Cleaning Up
--

/- The first alias that is iterated under a day. -/
def firstAlias (s : Chain T) (day : Nat) : Option Alias :=
  (T.hashOrder ((s.claimedGasAliases.entriesAt day).map Prod.fst)).head?

inductive TransactionSource where
  | inBlock
  | local_
  | external
  deriving DecidableEq, Repr

def authorizeCleanPgasClaimRecords (s : Chain T) (source : TransactionSource) (dayIndex : Nat)
    (first : Alias) : Except Failure Unit := do
  ensure (source = .inBlock ∨ source = .local_) Failure.call
  ensure (dayIndex < graceDay s.now) Failure.future
  let actualFirst ← okOr (s.firstAlias dayIndex) Failure.stale
  ensure (actualFirst = first) Failure.firstAliasMismatch

def cleanPgasClaimRecords (s : Chain T) (dayIndex : Nat) (first : Alias)
    (backend : DoubleMap.Backend Alias) :
    Except Failure (Chain T) := do
  let actualFirst ← okOr (s.firstAlias dayIndex) Failure.noRecordsForDay
  ensure (actualFirst = first) Failure.firstAliasMismatch
  return { s with
    claimedGasAliases := (s.claimedGasAliases.clearPrefix dayIndex
        T.maxPgasClaimRecordCleanupPerCall backend).1 }

def createPgasAsset (s : Chain T) : Except Failure (Chain T) := do
  ensure (T.assetExists s.assets = false) Failure.stale
  let assets ← okOr (T.createAsset s.assets) Failure.pgasMintFailed
  return { s with assets := assets }

def genesis (now : Nat) (rings : T.Rings) (assets : T.Assets) : Chain T where
  now := now
  rings := rings
  assets := assets
  claimedGasAliases := .empty
  minted := []

end Chain

/-
  What happens on the chain: time passes, the rings or the assets change elsewhere, a transaction is
  applied, or the asset is created and records are cleaned by anyone.
-/
inductive Action (T : Config) where
  | advance (now : Nat)
  | changeRings (rings : T.Rings)
  | changeAssets (assets : T.Assets)
  | submit (tx : Transaction T)
  | createAsset
  | clean
      (source : Chain.TransactionSource)
      (dayIndex : Nat)
      (first : Alias)
      (backend : DoubleMap.Backend Alias)

def Chain.perform {T : Config} (s : Chain T) : Action T → Except Failure (Chain T)
  | .advance now => .ok { s with now := now }
  | .changeRings rings => .ok { s with rings := rings }
  | .changeAssets assets => .ok { s with assets := assets }
  | .submit tx => s.applyTransaction tx
  | .createAsset => s.createPgasAsset
  | .clean source dayIndex first backend => do
    s.authorizeCleanPgasClaimRecords source dayIndex first
    s.cleanPgasClaimRecords dayIndex first backend

end Individuality.Pgas
