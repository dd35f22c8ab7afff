import Individuality.Base.Gaps
import Individuality.NftClaims.Completion

/-
  What a batch of deliveries does: every tree that is due no deadline is held afterwards, and the
  accepted sequences are noted in order.

  Main declaration: `Deliverable`
-/

namespace Individuality.NftClaims

open CreditTrees

open ClaimsState

variable {T : Config}

theorem noteSequence_eq : noteSequence = Gaps.note u64Max := rfl

/- A tree that the claims chain does not reject. -/
structure Deliverable (T : Config) (tree : NftClaimCreditTree) : Prop where
  leaves : tree.leafCount ≠ 0
  root : tree.root ≠ zeroHash
  fits : tree.leafCount ≤ T.maxCreditsPerTree

/- Deliveries only add trees and accepted sequences. -/
theorem foldl_receiveTree_spec (updates : List CreditTreeDelivery)
    (state : ClaimsState T × List Nat) :
    (∃ creditTrees treeExpiries, (updates.foldl ClaimsState.receiveTree state).1
        = { state.1 with
            creditTrees := creditTrees
            treeExpiries := treeExpiries })
      ∧ (∀ block tree, state.1.creditTrees.get block = some tree →
          (updates.foldl ClaimsState.receiveTree state ).1.creditTrees.get block = some tree)
      ∧ ∃ accepted : List Nat, (updates.foldl ClaimsState.receiveTree state).2 = state.2 ++ accepted
          ∧ accepted.Sublist (updates.filterMap (·.sequence)) := by
  induction updates generalizing state with
  | nil =>
    exact ⟨⟨_, _, rfl⟩, fun _ _ hGet => hGet, [],
      (List.append_nil _).symm, List.Sublist.refl _⟩
  | cons update updates ih =>
    have hOne : (∃ creditTrees treeExpiries, (ClaimsState.receiveTree state update).1
            = { state.1 with
                creditTrees := creditTrees
                treeExpiries := treeExpiries })
          ∧ (∀ block tree, state.1.creditTrees.get block = some tree →
              (ClaimsState.receiveTree state update ).1.creditTrees.get block = some tree)
          ∧ ((ClaimsState.receiveTree state update).2 = state.2
            ∨ (ClaimsState.receiveTree state update).2 = state.2 ++ update.sequence.toList) := by
      unfold ClaimsState.receiveTree
      split
      · exact ⟨⟨_, _, rfl⟩, fun _ _ hGet => hGet, Or.inl rfl⟩
      split
      · exact ⟨⟨_, _, rfl⟩, fun _ _ hGet => hGet, Or.inl rfl⟩
      split
      · exact ⟨⟨_, _, rfl⟩, fun _ _ hGet => hGet, Or.inl rfl⟩
      split
      · split
        · exact ⟨⟨_, _, rfl⟩, fun _ _ hGet => hGet, Or.inl rfl⟩
        · exact ⟨⟨_, _, rfl⟩, fun _ _ hGet => hGet, Or.inr rfl⟩
      · rename_i hNone
        refine ⟨⟨_, _, rfl⟩, ?_, Or.inr rfl⟩
        intro block tree hGet
        have hNe : block ≠ update.block := by
          rintro rfl
          rw [hNone] at hGet
          cases hGet
        exact (StorageMap.get_insert_of_ne _ _ hNe).trans hGet
    rcases hOne with ⟨⟨trees, expiries, hState⟩, hKeep, hAcc⟩
    rcases ih (ClaimsState.receiveTree state update) with
      ⟨⟨trees', expiries', hRest⟩, hKeep', accepted, hEq, hSublist⟩
    rw [List.foldl_cons]
    refine ⟨⟨trees', expiries', ?_⟩, ?_, ?_⟩
    · rw [hRest, hState]
    · intro block tree hGet
      exact hKeep' block tree (hKeep block tree hGet)
    · rcases hAcc with hSame | hMore
      · refine ⟨accepted, by rw [hEq, hSame], ?_⟩
        exact hSublist.trans ((List.sublist_cons_self update updates ).filterMap _)
      · refine ⟨update.sequence.toList ++ accepted, ?_, ?_⟩
        · rw [hEq, hMore, List.append_assoc]
        · cases hSequence : update.sequence with
          | none =>
            rw [List.filterMap_cons_none hSequence]
            exact hSublist
          | some sequence =>
            rw [List.filterMap_cons_some hSequence]
            exact hSublist.cons_cons sequence

variable {content : Nat → NftClaimCreditTree} {state : ClaimsState T × List Nat}

variable {update : CreditTreeDelivery}

/- A delivered tree is held, unless its deadline has passed. -/
theorem receiveTree_holds (hInv : SpentInvariant content state.1)
    (hContent : update.tree = content update.block) (hFine : Deliverable T update.tree) :
    (ClaimsState.receiveTree state update).1.creditTrees.get update.block = some update.tree
      ∨ expiryDeadline update.tree.timestamp T.treeTtl ≤ state.1.now := by
  unfold ClaimsState.receiveTree
  split
  · rename_i hBad
    rcases hBad with hZero | hZero
    · exact absurd hZero hFine.leaves
    · exact absurd hZero hFine.root
  split
  · rename_i hLarge
    exact absurd hFine.fits (Nat.not_le.mpr hLarge)
  split
  · rename_i hExpired
    exact Or.inr (of_decide_eq_true hExpired)
  split
  · rename_i existing hGet
    have hExisting := (hInv.held _ _ hGet).1
    rw [← hContent] at hExisting
    split
    · rename_i hConflict
      exact absurd hExisting hConflict
    · exact Or.inl (hExisting ▸ hGet)
  · exact Or.inl (StorageMap.get_insert_self _ _ _)

theorem foldl_receiveTree_holds {updates : List CreditTreeDelivery}
    (hInv : SpentInvariant content state.1)
    (hContent : ∀ update ∈ updates, update.tree = content update.block)
    (hFine : ∀ update ∈ updates, Deliverable T update.tree) (hMem : update ∈ updates) :
    (updates.foldl ClaimsState.receiveTree state ).1.creditTrees.get update.block = some update.tree
      ∨ expiryDeadline update.tree.timestamp T.treeTtl ≤ state.1.now := by
  induction updates generalizing state with
  | nil => cases hMem
  | cons head rest ih =>
    have hHead := hContent head (List.mem_cons_self ..)
    have hStep : SpentInvariant content (ClaimsState.receiveTree state head).1 :=
      hInv.receiveTree fun _ _ _ => hHead
    rw [List.foldl_cons]
    rw [List.mem_cons] at hMem
    rcases hMem with rfl | hTail
    · rcases receiveTree_holds hInv hHead (hFine _ (List.mem_cons_self ..)) with hHeld | hDue
      · exact Or.inl ((foldl_receiveTree_spec rest _).2.1 _ _ hHeld)
      · exact Or.inr hDue
    · have hRest := ih hStep (fun other hOther => hContent other (List.mem_cons_of_mem _ hOther))
          (fun other hOther => hFine other (List.mem_cons_of_mem _ hOther))
          hTail
      have hNow : (ClaimsState.receiveTree state head).1.now = state.1.now := by
        rcases (foldl_receiveTree_spec [head] state).1 with ⟨_, _, hState⟩
        rw [List.foldl_cons, List.foldl_nil] at hState
        rw [hState]
      rw [hNow] at hRest
      exact hRest

/- The sequences of a batch that were accepted. -/
theorem receiveCreditTrees_notes (s : ClaimsState T)
    (batch : BoundedVec CreditTreeDelivery T.maxTreesPerMessage) :
    ∃ (accepted : List Nat) (creditTrees treeExpiries : _), accepted.Sublist
          (batch.toList.filterMap (·.sequence))
        ∧ s.receiveCreditTrees batch
          = ({ s with
              creditTrees := creditTrees
              treeExpiries := treeExpiries }
              : ClaimsState T).noteSequences accepted
        ∧ creditTrees = (batch.toList.foldl ClaimsState.receiveTree (s, [])).1.creditTrees := by
  rcases foldl_receiveTree_spec batch.toList (s, []) with
    ⟨⟨trees, expiries, hState⟩, _, accepted, hEq, hSublist⟩
  refine ⟨accepted, trees, expiries, hSublist, ?_, ?_⟩
  · unfold ClaimsState.receiveCreditTrees
    dsimp only
    rw [hEq, List.nil_append, hState]
  · rw [hState]

end Individuality.NftClaims
