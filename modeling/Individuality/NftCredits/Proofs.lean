import Individuality.Base.Merkle
import Individuality.NftCredits.Buffers

/-
  The proofs of NFT claim credits: one pass over the layers of a tree serves all indices, and the
  root it ends with is the recorded one.

  Main declaration: `creditTreeProofs`
-/

namespace Individuality.NftCredits

open Except (ok_bind)

open CreditTrees

--
-- Proofs
--

inductive NftClaimCreditProofError where
  | unknownCreditTree
  | awardsPruned
  | leafCountMismatch (expected : Nat)
  | leafIndexOutOfBounds
  | rootMismatch
  deriving DecidableEq, Repr

structure NftClaimCreditProof where
  credit : Hash
  leafIndex : Nat
  proof : List Hash
  deriving DecidableEq

section Prover

variable (C : AwardConfig)

def hashLeaf (leaf : Hash) : Hash :=
  C.blake2 leaf.toList

def hashPair (left right : Hash) : Hash :=
  C.blake2 (left.toList ++ right.toList)

/- The node above a pair, or above a node that is alone. -/
def joinPair : List Hash → Hash
  | [left, right] => hashPair C left right
  | pair => pair.headD zeroHash

/- The loop over the layers, with the positions in each. -/
def proofLayers :
    Nat → List Hash → List Nat → List (List Hash) → List Hash × List (List Hash)
  | 0, layer, _, proofs => (layer, proofs)
  | fuel + 1, layer, positions, proofs =>
    if layer.length > 1 then
      proofLayers fuel ((chunks 2 layer).map (joinPair C)) (positions.map (· / 2))
        (List.zipWith (fun proof position =>
            proof ++ (layer[position ^^^ 1]?).toList)
          proofs positions)
    else (layer, proofs)

def creditTreeProofs (leaves : List Hash) (leafIndices : List Nat) : Hash × List (List Hash) :=
  let done := proofLayers C leaves.length (leaves.map (hashLeaf C))
      leafIndices (leafIndices.map fun _ => [])
  (done.1.headD zeroHash, done.2)

def creditProofs (recorded : NftClaimCreditTree) (leaves : List Hash)
    (claimed : List (Nat × Hash)) :
    Except NftClaimCreditProofError (List NftClaimCreditProof) := do
  ensure (∀ c ∈ claimed, c.1 < leaves.length) NftClaimCreditProofError.leafIndexOutOfBounds
  let built := creditTreeProofs C leaves (claimed.map Prod.fst)
  ensure (built.1 = recorded.root) NftClaimCreditProofError.rootMismatch
  return (claimed.zip built.2).map fun entry =>
    { credit := entry.1.2
      leafIndex := entry.1.1
      proof := entry.2 }

end Prover

variable {C : AwardConfig} {s : AwardingState C}

namespace AwardingState

/- The leaves of a claimant among some awards. -/
def claimedOf (awards : List (NftClaimCreditAward C)) (claimant : C.Claimant) : List (Nat × Hash) :=
  (awards.zipIdx.filter fun entry => decide (entry.1.claimant = claimant)
    ).map fun entry => (entry.2, entry.1.credit)

def nftClaimCreditProofs (s : AwardingState C) (treeBlock : Nat) (claimant : C.Claimant) :
    Except NftClaimCreditProofError (List NftClaimCreditProof) := do
  let recorded ← okOr (s.credits.creditRoots.get treeBlock)
      NftClaimCreditProofError.unknownCreditTree
  let awards := s.blockAwards treeBlock recorded.leafCount
  ensure (awards.isEmpty = false) NftClaimCreditProofError.awardsPruned
  let claimed := claimedOf awards claimant
  if claimed.isEmpty then
    return []
  else
    creditProofs C recorded (nftClaimCreditLeaves awards) claimed

/- The length of the awards is read as 32 bits. -/
def nftClaimCreditProofFromAwards (s : AwardingState C) (treeBlock : Nat)
    (awards : List (NftClaimCreditAward C)) (leafIndex : Nat) :
    Except NftClaimCreditProofError NftClaimCreditProof := do
  let recorded ← okOr (s.credits.creditRoots.get treeBlock)
      NftClaimCreditProofError.unknownCreditTree
  ensure (awards.length % (u32Max + 1) = recorded.leafCount)
    (NftClaimCreditProofError.leafCountMismatch recorded.leafCount)
  let award ← okOr awards[leafIndex]? NftClaimCreditProofError.leafIndexOutOfBounds
  let proofs ← creditProofs C recorded (nftClaimCreditLeaves awards) [(leafIndex, award.credit)]
  okOr proofs.head? NftClaimCreditProofError.leafIndexOutOfBounds

end AwardingState

open AwardingState

--
-- The Prover
--

/- The pairs of a layer make the layer above. -/
theorem map_joinPair_chunksOf {count : Nat} (layer : List Hash) (hLe : layer.length ≤ count) :
    (chunksOf 2 count layer).map (joinPair C) = Merkle.layer (hashPair C) layer := by
  induction layer using Merkle.layer.induct generalizing count with
  | case1 =>
    cases count <;> rfl
  | case2 x =>
    cases count with
    | zero => exact absurd hLe (Nat.not_succ_le_zero _)
    | succ count =>
      cases count <;> rfl
  | case3 x y rest ih =>
    cases count with
    | zero => exact absurd hLe (Nat.not_succ_le_zero _)
    | succ count =>
      have hRest : rest.length ≤ count := by
        simp only [List.length_cons] at hLe
        omega
      change hashPair C x y :: (chunksOf 2 count rest).map (joinPair C) = hashPair C x y
          :: Merkle.layer (hashPair C) rest
      rw [ih hRest]

/- The loop gives the last layer and the siblings. -/
theorem proofLayers_eq (fuel : Nat) (layer : List Hash) (positions : List Nat)
    (proofs : List (List Hash)) (hLength : proofs.length = positions.length) :
    proofLayers C fuel layer positions proofs = (Merkle.above (hashPair C) fuel layer, List.zipWith
        (fun proof position => proof
            ++ Merkle.siblings (hashPair C) fuel layer position)
        proofs positions) := by
  induction fuel generalizing layer positions proofs with
  | zero =>
    rw [proofLayers, Merkle.above_zero]
    congr 1
    apply List.ext_getElem
    · rw [List.length_zipWith, hLength, Nat.min_self]
    · intro k hLeft hRight
      simp [Merkle.siblings]
  | succ fuel ih =>
    rw [proofLayers]
    by_cases hMore : layer.length > 1
    · rw [if_pos hMore, ih]
      · unfold chunks
        rw [map_joinPair_chunksOf layer (Nat.le_refl _), Merkle.above_succ]
        congr 1
        apply List.ext_getElem
        · simp
        · intro k hLeft hRight
          simp [Merkle.siblings, hMore, List.append_assoc]
      · rw [List.length_zipWith, List.length_map, hLength, Nat.min_self]
    · have hOne : layer.length ≤ 1 := Nat.le_of_not_lt hMore
      rw [if_neg hMore, Merkle.above_of_length_le_one hOne]
      congr 1
      apply List.ext_getElem
      · rw [List.length_zipWith, hLength, Nat.min_self]
      · intro k hLeft hRight
        simp [Merkle.siblings_of_length_le_one hOne]

/-
  The root over leaves, as the trees are laid out: the leaves
  are hashed, and the layers over them are joined in pairs.
-/
def LayeredRoot (C : AwardConfig) : Prop :=
  ∀ leaves, C.merkleRoot leaves = Merkle.root (hashPair C) zeroHash (leaves.map (hashLeaf C))

/- The siblings of a leaf. -/
def proofOf (C : AwardConfig) (leaves : List Hash) (leafIndex : Nat) : List Hash :=
  Merkle.siblings (hashPair C) leaves.length (leaves.map (hashLeaf C)) leafIndex

/- The pass gives the root and a proof for each index. -/
theorem creditTreeProofs_eq (hRoot : LayeredRoot C) (leaves : List Hash) (leafIndices : List Nat) :
    creditTreeProofs C leaves leafIndices
      = (C.merkleRoot leaves, leafIndices.map (proofOf C leaves)) := by
  unfold creditTreeProofs
  rw [proofLayers_eq _ _ _ _ (List.length_map _), hRoot leaves]
  unfold Merkle.root
  rw [List.length_map]
  dsimp only
  congr 1
  apply List.ext_getElem
  · simp
  · intro k hLeft hRight
    simp [proofOf]

/- A leaf with its proof hashes to the root. -/
theorem rehash_proofOf (hRoot : LayeredRoot C) {leaves : List Hash} {leafIndex : Nat} {leaf : Hash}
    (hLeaf : leaves[leafIndex]? = some leaf) :
    Merkle.rehash (hashPair C) (proofOf C leaves leafIndex)
        leaves.length leafIndex (hashLeaf C leaf)
      = C.merkleRoot leaves := by
  have hGet : (leaves.map (hashLeaf C))[leafIndex]? = some (hashLeaf C leaf) := by
    rw [List.getElem?_map, hLeaf]
    rfl
  have hSome : leaves.map (hashLeaf C) ≠ [] := by
    intro hNil
    rw [hNil] at hGet
    cases hGet
  have hAbove : Merkle.above (hashPair C) (leaves.map (hashLeaf C)).length (leaves.map (hashLeaf C))
        = [Merkle.root (hashPair C) zeroHash (leaves.map (hashLeaf C))] :=
    Merkle.above_eq_root zeroHash hSome
  rw [List.length_map] at hAbove
  have hOne : (Merkle.above (hashPair C) leaves.length (leaves.map (hashLeaf C))).length ≤ 1 := by
    rw [hAbove]
    exact Nat.le_refl 1
  have hUp := Merkle.rehash_siblings hGet hOne
  rw [hAbove, List.length_map, List.cons.injEq] at hUp
  rw [hRoot leaves]
  exact hUp.1.symm

theorem length_proofOf_le (leaves : List Hash) (leafIndex : Nat) :
    (proofOf C leaves leafIndex).length ≤ Nat.clog 2 leaves.length := by
  have hLe : (proofOf C leaves leafIndex).length ≤ Nat.clog 2 (leaves.map (hashLeaf C)).length :=
    Merkle.length_siblings_le leaves.length leafIndex
  rw [List.length_map] at hLe
  exact hLe

--
-- Served Proofs
--

/- The proofs against the root over the leaves. -/
theorem creditProofs_eq (hRoot : LayeredRoot C) {recorded : NftClaimCreditTree} {leaves : List Hash}
    {claimed : List (Nat × Hash)} (hRecorded : recorded.root = C.merkleRoot leaves)
    (hClaimed : ∀ c ∈ claimed, c.1 < leaves.length) :
    creditProofs C recorded leaves claimed = .ok (claimed.map fun c =>
        { credit := c.2
          leafIndex := c.1
          proof := proofOf C leaves c.1 }) := by
  unfold creditProofs
  rw [ensure_of hClaimed]
  change (do
      ensure ((creditTreeProofs C leaves (claimed.map Prod.fst)).1 = recorded.root)
        NftClaimCreditProofError.rootMismatch
      _) = _
  rw [creditTreeProofs_eq hRoot, ensure_of hRecorded.symm]
  change Except.ok _ = Except.ok _
  congr 1
  apply List.ext_getElem
  · simp
  · intro k hLeft hRight
    simp

variable {claimant : C.Claimant}

theorem mem_claimedOf {awards : List (NftClaimCreditAward C)} {c : Nat × Hash} :
    c ∈ claimedOf awards claimant ↔ ∃ award : NftClaimCreditAward C,
        awards[c.1]? = some award ∧ award.claimant = claimant ∧ award.credit = c.2 := by
  unfold claimedOf
  simp only [List.mem_map, List.mem_filter, Prod.exists, decide_eq_true_eq]
  constructor
  · rintro ⟨award, i, ⟨hMem, hClaimant⟩, rfl⟩
    exact ⟨award, List.mem_zipIdx_iff_getElem?.mp hMem, hClaimant, rfl⟩
  · rintro ⟨award, hGet, hClaimant, hCredit⟩
    refine ⟨award, c.1, ⟨List.mem_zipIdx_iff_getElem?.mpr hGet, hClaimant⟩, ?_⟩
    rw [hCredit]

variable {tree : NftClaimCreditTree} {block : Nat}

/- The tree of a block is the one over its awards. -/
theorem Buffered.tree_of_recorded (hBuffered : Buffered s)
    (hRecorded : s.credits.recorded.get block = some tree) :
    block < s.credits.number ∧ tree.root = C.merkleRoot (nftClaimCreditLeaves (s.awardsAt block))
      ∧ tree.leafCount = (s.awardsAt block).length
      ∧ tree.leafCount ≤ awardsPerTree
      ∧ 0 < tree.leafCount := by
  have hLt : block < s.credits.number := by
    by_contra hLe
    have hNone := (hBuffered.waiting block (Nat.le_of_not_lt hLe)).2.1
    rw [hNone] at hRecorded
    cases hRecorded
  refine ⟨hLt, ?_⟩
  rcases hBuffered.built block hLt with ⟨_, hNone⟩ | ⟨buffer, hHolds, hPos, hLe, hTree⟩
  · rw [hNone] at hRecorded
    cases hRecorded
  · rw [hTree] at hRecorded
    cases hRecorded
    have hCount : (s.awardsAt block).length = buffer.awards := by
      rw [length_awardsAt, hHolds.count]
    refine ⟨rfl, rfl, ?_, ?_⟩
    · change (s.awardsAt block).length ≤ awardsPerTree
      rw [hCount]
      exact hLe
    · change 0 < (s.awardsAt block).length
      rw [hCount]
      exact hPos

/- The awards of a recorded block are all there, or gone. -/
theorem Buffered.blockAwards_cases (hBuffered : Buffered s)
    (hRecorded : s.credits.recorded.get block = some tree) :
    s.blockAwards block tree.leafCount = s.awardsAt block
      ∨ s.blockAwards block tree.leafCount = [] := by
  have hTree := hBuffered.tree_of_recorded hRecorded
  rcases hBuffered.retained block hTree.1 with hStored | hGone
  · left
    apply blockAwards_of_stored hStored
    rw [hTree.2.2.1, length_awardsAt]
  · right
    unfold blockAwards
    rw [List.flatMap_eq_nil_iff]
    intro index _
    unfold chunk StorageMap.getD
    rw [hGone index]
    rfl

/-
  What is served for a claimant: the credit of an award of the block with the siblings of its leaf.
-/
structure Serves (s : AwardingState C) (block : Nat) (claimant : C.Claimant)
    (p : NftClaimCreditProof) : Prop where
  award : (s.awardsAt block)[p.leafIndex]?
      = some { claimant := claimant, credit := p.credit }
  proof : p.proof
      = proofOf C (nftClaimCreditLeaves (s.awardsAt block))
        p.leafIndex

theorem length_nftClaimCreditLeaves (awards : List (NftClaimCreditAward C)) :
    (nftClaimCreditLeaves awards).length = awards.length :=
  List.length_map _

variable {p : NftClaimCreditProof}

/- Every proof that is served is the one of an award. -/
theorem Buffered.serves (hRoot : LayeredRoot C) (hBuffered : Buffered s)
    {proofs : List NftClaimCreditProof} (hTree : s.credits.creditRoots.get block = some tree)
    (hRecorded : s.credits.recorded.get block = some tree)
    (hServed : s.nftClaimCreditProofs block claimant = .ok proofs) (hMem : p ∈ proofs) :
    s.blockAwards block tree.leafCount = s.awardsAt block ∧ Serves s block claimant p := by
  have hSpec := hBuffered.tree_of_recorded hRecorded
  unfold nftClaimCreditProofs at hServed
  rw [hTree, okOr_some, ok_bind] at hServed
  rcases hBuffered.blockAwards_cases hRecorded with
    hAwards | hNil
  · rw [hAwards] at hServed
    refine ⟨hAwards, ?_⟩
    dsimp only at hServed
    simp only [Except.bind_eq_ok, ensure_eq_ok_iff, exists_const] at hServed
    rcases hServed with ⟨_, hServed⟩
    split at hServed
    · rw [Except.pure_eq_ok] at hServed
      rw [← hServed] at hMem
      cases hMem
    · have hClaimed : ∀ c ∈ claimedOf (s.awardsAt block) claimant, c.1
              < (nftClaimCreditLeaves (s.awardsAt block)).length := by
        intro c hC
        rcases mem_claimedOf.mp hC with ⟨award, hGet, _⟩
        rw [length_nftClaimCreditLeaves]
        exact (List.getElem?_eq_some_iff.mp hGet).1
      rw [creditProofs_eq hRoot hSpec.2.1 hClaimed] at hServed
      cases hServed
      rw [List.mem_map] at hMem
      rcases hMem with ⟨c, hC, rfl⟩
      rcases mem_claimedOf.mp hC with ⟨award, hGet, hClaimant, hCredit⟩
      constructor
      · dsimp only
        rw [hGet, ← hClaimant, ← hCredit]
      · rfl
  · rw [hNil] at hServed
    cases hServed

/- The same awards give the same proof. -/
theorem Buffered.proof_from_awards (hRoot : LayeredRoot C) (hBuffered : Buffered s)
    (hTree : s.credits.creditRoots.get block = some tree)
    (hRecorded : s.credits.recorded.get block = some tree) (hServes : Serves s block claimant p) :
    s.nftClaimCreditProofFromAwards block (s.awardsAt block) p.leafIndex = .ok p := by
  have hSpec := hBuffered.tree_of_recorded hRecorded
  have hLength : (s.awardsAt block).length % (u32Max + 1) = tree.leafCount := by
    rw [← hSpec.2.2.1]
    apply Nat.mod_eq_of_lt
    have hFull : awardsPerTree < u32Max + 1 := by decide
    exact Nat.lt_of_le_of_lt hSpec.2.2.2.1 hFull
  have hClaimed : ∀ c ∈ [(p.leafIndex, p.credit)], c.1
          < (nftClaimCreditLeaves (s.awardsAt block)).length := by
    intro c hC
    rw [List.mem_singleton] at hC
    rw [hC, length_nftClaimCreditLeaves]
    exact (List.getElem?_eq_some_iff.mp hServes.award).1
  unfold nftClaimCreditProofFromAwards
  rw [hTree, okOr_some, ok_bind, ensure_of hLength, ok_bind, hServes.award, okOr_some, ok_bind]
  dsimp only
  rw [creditProofs_eq hRoot hSpec.2.1 hClaimed, ok_bind,
    List.map_singleton, List.head?_cons, okOr_some]
  dsimp only
  rw [← hServes.proof]

end Individuality.NftCredits
