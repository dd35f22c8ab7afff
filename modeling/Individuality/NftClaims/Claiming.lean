import Individuality.NftClaims.Pallet

/-
  What one claim does: its checks, the leaf it spends, and the
  state it leaves when its selection calls back.

  Main declaration: `ClaimsState.isSet_withLeaf`
-/

namespace Individuality.NftClaims

open Except (bind_eq_ok pure_eq_ok)

open CreditTrees

variable {T : Config} {item block leafIndex : Nat} {s s' spent : ClaimsState T}
variable {call : Claim T} {tree : NftClaimCreditTree}

namespace ClaimsState

--
-- Leaves
--

/- Spending a leaf sets its bit and no other. -/
theorem isSet_withLeaf {max leafCount : Nat} (bitmap : Bitmap) (hIndex : leafIndex < leafCount)
    (hMax : leafCount ≤ max) (i : Nat) :
    (withLeaf max bitmap leafIndex leafCount).isSet i
      = (bitmap.isSet i || decide (i = leafIndex)) := by
  unfold withLeaf
  dsimp only
  by_cases hShort : bitmap.length < (leafCount + 7) / 8
  · rw [if_pos hShort, List.take_of_length_le]
    · rw [Bitmap.isSet_setBit]
      · rw [Bitmap.isSet_resize (Nat.le_of_lt hShort)]
      · rw [Bitmap.length_resize]
        omega
    · rw [Bitmap.length_resize]
      omega
  · rw [if_neg hShort, Bitmap.isSet_setBit]
    omega

/- The leaf of a claim is not among the leaves claimed. -/
def Unclaimed (s : ClaimsState T) (block leafIndex : Nat) : Prop :=
  (s.leaves block).isSet leafIndex = false

def Claimed (s : ClaimsState T) (block leafIndex : Nat) : Prop :=
  (s.leaves block).isSet leafIndex = true

theorem not_claimed_of_unclaimed (hUnclaimed : s.Unclaimed block leafIndex) :
    ¬ s.Claimed block leafIndex := by
  unfold Unclaimed at hUnclaimed
  simp [Claimed, hUnclaimed]

theorem unclaimed_or_claimed (s : ClaimsState T) (block leafIndex : Nat) :
    s.Unclaimed block leafIndex ∨ s.Claimed block leafIndex := by
  unfold Unclaimed Claimed
  cases (s.leaves block).isSet leafIndex <;> simp

--
-- The Parts of a Claim
--

/- A claim begins with a held tree and an unclaimed leaf, and claims this leaf only. -/
structure Begun (s spent : ClaimsState T) (call : Claim T) (tree : NftClaimCreditTree) : Prop where
  held : s.creditTrees.get call.block = some tree
  index : call.leafIndex < tree.leafCount
  unclaimed : s.Unclaimed call.block call.leafIndex
  state : ∃ claimedLeaves,
      spent = { s with claimedLeaves := claimedLeaves }
        ∧ ∀ block, block ≠ call.block →
          claimedLeaves.get block = s.claimedLeaves.get block
  leaves : ∀ block i,
      spent.Claimed block i
        ↔ s.Claimed block i ∨ block = call.block ∧ i = call.leafIndex

theorem spendLeaf_leaves {leafCount : Nat}
    (hSpend : s.spendLeaf block leafIndex leafCount = .ok spent) :
    (∃ claimedLeaves, spent = { s with claimedLeaves := claimedLeaves } ∧ ∀ block', block' ≠ block →
          claimedLeaves.get block' = s.claimedLeaves.get block')
      ∧ ∀ block' i, spent.Claimed block' i
          ↔ s.Claimed block' i ∨ block' = block ∧ i = leafIndex := by
  unfold spendLeaf at hSpend
  split at hSpend
  · cases hSpend
  · rename_i hBounds
    push Not at hBounds
    cases hSpend
    refine ⟨⟨_, rfl, fun block' hNe => StorageMap.get_insert_of_ne _ _ hNe⟩, ?_⟩
    intro block' i
    unfold Claimed leaves
    dsimp only
    rw [StorageMap.getD_insert]
    by_cases hBlock : block' = block
    · subst hBlock
      rw [if_pos rfl, isSet_withLeaf _ hBounds.1 hBounds.2]
      simp
    · simp [hBlock]

theorem beginClaim_spec (hBegin : s.beginClaim call = .ok (tree, spent)) :
    Begun s spent call tree := by
  simp only [beginClaim, bind_eq_ok, okOr_eq_ok_iff, ensure_eq_ok_iff, pure_eq_ok, exists_const,
    Prod.mk.injEq] at hBegin
  rcases hBegin with ⟨_, _, _, hTree, hIndex, hUnclaimed, _, _, hSpend, rfl, rfl⟩
  have hLeaves := spendLeaf_leaves hSpend
  exact
    { held := hTree
      index := hIndex
      unclaimed := hUnclaimed
      state := hLeaves.1
      leaves := hLeaves.2 }

/- A minter contract is asked for the item of a claim. -/
def AsksContract (s : ClaimsState T) (call : Claim T) : Prop :=
  ∃ registration address, s.collectionMinters.get call.collection = some registration
      ∧ registration.selection = .contract address

variable {selected : ClaimsState T}

/- Only a contract changes the state during a selection. -/
theorem selectItem_spec {select : ClaimsState T → ClaimsState T × Option Nat}
    (hSelect : s.selectItem call select = .ok (item, selected)) :
    selected = s ∨ s.AsksContract call ∧ selected = (select s).1 := by
  simp only [selectItem, bind_eq_ok, okOr_eq_ok_iff, ensure_eq_ok_iff, pure_eq_ok, exists_const]
    at hSelect
  rcases hSelect with ⟨registration, hGet, _, _, _, _, hRun, _, rfl⟩
  cases hSelection : registration.selection with
  | random =>
    rw [hSelection] at hRun
    simp only [runSelection, bind_eq_ok, okOr_eq_ok_iff, ensure_eq_ok_iff, pure_eq_ok,
      exists_const, Prod.mk.injEq] at hRun
    rcases hRun with ⟨_, _, _, _, hState⟩
    exact Or.inl hState.symm
  | contract address =>
    rw [hSelection] at hRun
    simp only [runSelection, bind_eq_ok, okOr_eq_ok_iff, pure_eq_ok, Prod.mk.injEq] at hRun
    rcases hRun with ⟨_, _, _, hState⟩
    exact Or.inr ⟨⟨registration, address, hGet, hSelection⟩, hState.symm⟩

/- A claim ends with its mint, and removes the tree when no leaf is left. -/
theorem completeClaim_spec (hComplete : s.completeClaim call tree item = .ok s') :
    s'.now = s.now ∧ s'.treeExpiries = s.treeExpiries ∧ s'.claimedLeaves = s.claimedLeaves
      ∧ s'.minted = s.minted ++ [(call.block, call.leafIndex)]
      ∧ ((s'.creditTrees = s.creditTrees ∧ s'.completed = s.completed)
          ∨ tree.leafCount ≤ (s.leaves call.block).ones
            ∧ s'.creditTrees = s.creditTrees.remove call.block
            ∧ s'.completed = s.completed ++ [call.block]) := by
  simp only [completeClaim, bind_eq_ok, ensure_eq_ok_iff, exists_const] at hComplete
  rcases hComplete with ⟨_, hComplete⟩
  split at hComplete
  · cases hComplete
    exact ⟨rfl, rfl, rfl, rfl, Or.inl ⟨rfl, rfl⟩⟩
  · rename_i hAll
    cases hComplete
    exact ⟨rfl, rfl, rfl, rfl, Or.inr ⟨Nat.le_of_not_lt hAll, rfl, rfl⟩⟩

--
-- Claims That Call Back
--

/-
  What any number of claims within one dispatch may change: trees only go, leaves are only claimed,
  and only unclaimed leaves are minted.
-/
structure Advances (s s' : ClaimsState T) : Prop where
  now : s'.now = s.now
  expiries : s'.treeExpiries = s.treeExpiries
  trees : ∀ block tree,
      s'.creditTrees.get block = some tree → s.creditTrees.get block = some tree
  claimed : ∀ block i, s.Claimed block i → s'.Claimed block i
  minted : ∀ block i,
      (block, i) ∈ s'.minted → (block, i) ∈ s.minted ∨ s.Unclaimed block i
  completed : ∀ block,
      block ∈ s'.completed →
        block ∈ s.completed ∨ s'.creditTrees.get block = none

theorem Advances.refl (s : ClaimsState T) : Advances s s :=
  { now := rfl
    expiries := rfl
    trees := fun _ _ hGet => hGet
    claimed := fun _ _ hClaimed => hClaimed
    minted := fun _ _ hMem => Or.inl hMem
    completed := fun _ hMem => Or.inl hMem }

theorem Advances.gone (hAdvances : Advances s s') (hNone : s.creditTrees.get block = none) :
    s'.creditTrees.get block = none := by
  cases hGet : s'.creditTrees.get block with
  | none => rfl
  | some tree =>
    rw [hAdvances.trees block tree hGet] at hNone
    cases hNone

theorem Advances.trans {s'' : ClaimsState T} (hFirst : Advances s s') (hSecond : Advances s' s'') :
    Advances s s'' where
  now := hSecond.now.trans hFirst.now
  expiries := hSecond.expiries.trans hFirst.expiries
  trees := by
    intro block tree hGet
    exact hFirst.trees block tree (hSecond.trees block tree hGet)
  claimed := by
    intro block i hClaimed
    exact hSecond.claimed block i (hFirst.claimed block i hClaimed)
  minted := by
    intro block i hMem
    rcases hSecond.minted block i hMem with hMid | hUnclaimed
    · exact hFirst.minted block i hMid
    · rcases s.unclaimed_or_claimed block i with hOld | hOld
      · exact Or.inr hOld
      · exact absurd (hFirst.claimed block i hOld) (not_claimed_of_unclaimed hUnclaimed)
  completed := by
    intro block hMem
    rcases hSecond.completed block hMem with hMid | hGone
    · rcases hFirst.completed block hMid with hOld | hGone
      · exact Or.inl hOld
      · exact Or.inr (hSecond.gone hGone)
    · exact Or.inr hGone

theorem Begun.advances (hBegun : Begun s spent call tree) :
    Advances s spent := by
  have hLeaves := hBegun.leaves
  rcases hBegun.state with ⟨claimedLeaves, rfl, _⟩
  exact
    { now := rfl
      expiries := rfl
      trees := fun _ _ hGet => hGet
      claimed := fun block i hClaimed => (hLeaves block i).mpr (Or.inl hClaimed)
      minted := fun _ _ hMem => Or.inl hMem
      completed := fun _ hMem => Or.inl hMem }

/- The mint of a leaf that was unclaimed before. -/
theorem Advances.complete (hAdvances : Advances s selected)
    (hUnclaimed : s.Unclaimed call.block call.leafIndex)
    (hComplete : selected.completeClaim call tree item = .ok s') :
    Advances s s' := by
  rcases completeClaim_spec hComplete with ⟨hNow, hExpiries, hLeaves, hMinted, hTrees⟩
  refine
    { now := hNow.trans hAdvances.now
      expiries := hExpiries.trans hAdvances.expiries
      trees := ?_
      claimed := ?_
      minted := ?_
      completed := ?_ }
  · intro block tree' hGet
    rcases hTrees with ⟨hSame, _⟩ | ⟨_, hRemoved, _⟩
    · rw [hSame] at hGet
      exact hAdvances.trees block tree' hGet
    · rw [hRemoved, StorageMap.get_remove] at hGet
      by_cases hBlock : block = call.block
      · simp [hBlock] at hGet
      · rw [if_neg hBlock] at hGet
        exact hAdvances.trees block tree' hGet
  · intro block i hClaimed
    have hSelected := hAdvances.claimed block i hClaimed
    unfold Claimed leaves at hSelected ⊢
    rw [hLeaves]
    exact hSelected
  · intro block i hMem
    rw [hMinted, List.mem_append, List.mem_singleton, Prod.mk.injEq] at hMem
    rcases hMem with hOld | ⟨rfl, rfl⟩
    · exact hAdvances.minted block i hOld
    · exact Or.inr hUnclaimed
  · intro block hMem
    rcases hTrees with ⟨hSame, hKept⟩ | ⟨_, hRemoved, hAppend⟩
    · rw [hKept] at hMem
      rw [hSame]
      exact hAdvances.completed block hMem
    · rw [hAppend, List.mem_append, List.mem_singleton] at hMem
      rw [hRemoved, StorageMap.get_remove]
      by_cases hBlock : block = call.block
      · exact Or.inr (if_pos hBlock)
      · rw [if_neg hBlock]
        rcases hMem with hOld | hNew
        · exact hAdvances.completed block hOld
        · exact absurd hNew hBlock

end ClaimsState

end Individuality.NftClaims
