import Individuality.CreditTrees.Held
import Individuality.NftCredits.Proofs

/-
  The proofs that the game chain serves pass the checks of a claim on the claims chain.

  Main declaration: `credit_proofs_agree`
-/

namespace Individuality.CreditTrees

open Except (ok_bind)

open NftClaims (ClaimsState Claim leafIsClaimed)

open NftCredits

open NftCredits.AwardingState

variable {A : AwardChains} {w : AwardWorld A}

/-
  The check of a proof: the leaf is hashed, and hashed up along
  the nodes of the proof at its position among the leaves.
-/
def Rehashes (A : AwardChains) : Prop :=
  ∀ root proof leafCount leafIndex leaf, A.verifyProof root proof leafCount leafIndex leaf = decide
      (leafIndex < leafCount ∧ Merkle.rehash (hashPair A.awarding) proof leafCount
            leafIndex (hashLeaf A.awarding leaf)
          = root)

/- A claim with a served proof of a leaf not claimed begins. -/
def PassesClaim (s : ClaimsState A.claims) (block : Nat) (claimant : A.awarding.Claimant)
    (p : NftClaimCreditProof) : Prop :=
  ∃ proof : BoundedVec Hash A.claims.maxProofNodes, proof.toList = p.proof
      ∧ ∀ call : Claim A.claims, call.claimant = some claimant → call.block = block →
        call.credit = p.credit →
        call.leafIndex = p.leafIndex →
        call.proof = proof →
        leafIsClaimed (s.leaves block) p.leafIndex = false → ∃ begun, s.beginClaim call = .ok begun

/-
  The prover and the verifier agree on the root and on each
  proof, and what is served for a block can be claimed.
-/
structure ProofsAgree (A : AwardChains) : Prop where
  prover : ∀ leaves leafIndices,
      leaves ≠ [] →
      (∀ i ∈ leafIndices, i < leaves.length) →
        (creditTreeProofs A.awarding leaves leafIndices).1
            = A.awarding.merkleRoot leaves
          ∧ (creditTreeProofs A.awarding leaves leafIndices
              ).2.length = leafIndices.length
          ∧ ∀ (k i : Nat) (proof : List Hash),
            leafIndices[k]? = some i →
            (creditTreeProofs A.awarding leaves leafIndices ).2[k]? = some proof →
              (∃ leaf, leaves[i]? = some leaf ∧ A.verifyProof
                    (A.awarding.merkleRoot leaves) proof
                    leaves.length i leaf = true)
                ∧ proof.length ≤ Nat.clog 2 leaves.length
  served : ∀ w : AwardWorld A,
      RunUnder AwardWorld.perform (fun _ _ _ => True)
        (AwardWorld.genesis A) w →
      ∀ block tree claimant proofs,
        w.claims.creditTrees.get block = some tree →
        w.awarding.nftClaimCreditProofs block claimant = .ok proofs →
        ∀ p ∈ proofs,
          PassesClaim w.claims block claimant p
            ∧ w.awarding.nftClaimCreditProofFromAwards block
                (w.awarding.blockAwards block tree.leafCount)
                p.leafIndex
              = .ok p

/- A leaf with its siblings is accepted. -/
theorem verifyProof_proofOf (hRoot : LayeredRoot A.awarding) (hVerify : Rehashes A)
    {leaves : List Hash} {leafIndex : Nat} {leaf : Hash} (hLeaf : leaves[leafIndex]? = some leaf) :
    A.verifyProof (A.awarding.merkleRoot leaves) (proofOf A.awarding leaves leafIndex) leaves.length
      leafIndex leaf = true := by
  rw [hVerify]
  apply decide_eq_true
  exact ⟨(List.getElem?_eq_some_iff.mp hLeaf).1, rehash_proofOf hRoot hLeaf⟩

variable {tree : NftClaimCreditTree}

/- A claim that passes all checks begins. -/
theorem beginClaim_of_checks {T : NftClaims.Config} {s spent : ClaimsState T} {call : Claim T}
    {claimant : T.Claimant} (hClaimant : call.claimant = some claimant)
    (hTree : s.creditTrees.get call.block = some tree) (hLt : call.leafIndex < tree.leafCount)
    (hOpen : leafIsClaimed (s.leaves call.block) call.leafIndex = false)
    (hChecked : T.verifyProof tree.root call.proof.toList tree.leafCount
          call.leafIndex (T.creditLeaf claimant call.credit)
        = true)
    (hSpend : s.spendLeaf call.block call.leafIndex tree.leafCount = .ok spent) :
    s.beginClaim call = .ok (tree, spent) := by
  unfold ClaimsState.beginClaim
  rw [hClaimant, okOr_some, ok_bind, hTree, okOr_some, ok_bind, ensure_of hLt, ok_bind]
  dsimp only
  rw [ensure_of hOpen, ok_bind, ensure_of hChecked, ok_bind, hSpend]
  rfl

/- What the game chain serves can be claimed. -/
theorem passesClaim_of_serves (hRoot : LayeredRoot A.awarding) (hVerify : Rehashes A)
    (hBuffered : Buffered w.awarding) {block : Nat} {claimant : A.awarding.Claimant}
    {p : NftClaimCreditProof} (hHeld : w.claims.creditTrees.get block = some tree)
    (hRecorded : w.awarding.credits.recorded.get block = some tree)
    (hServes : Serves w.awarding block claimant p) :
    PassesClaim w.claims block claimant p := by
  have hSpec := hBuffered.tree_of_recorded hRecorded
  have hIndex : p.leafIndex < (w.awarding.awardsAt block).length :=
    (List.getElem?_eq_some_iff.mp hServes.award).1
  have hCount : tree.leafCount ≤ A.maxCreditsPerTree := Nat.le_trans hSpec.2.2.2.1 A.leavesFit
  have hLeaf : (nftClaimCreditLeaves (w.awarding.awardsAt block))[p.leafIndex]?
        = some (A.awarding.creditLeaf claimant p.credit) := by
    unfold nftClaimCreditLeaves
    rw [List.getElem?_map, hServes.award]
    rfl
  have hAccepted := verifyProof_proofOf hRoot hVerify hLeaf
  rw [length_nftClaimCreditLeaves, ← hSpec.2.2.1, ← hSpec.2.1, ← hServes.proof] at hAccepted
  have hFits : p.proof.length ≤ A.maxProofNodes := by
    rw [hServes.proof]
    refine Nat.le_trans (length_proofOf_le _ _) ?_
    rw [length_nftClaimCreditLeaves, ← hSpec.2.2.1]
    exact Nat.le_trans (Nat.clog_mono_right 2 hCount) A.proofsFit
  refine ⟨⟨p.proof, hFits⟩, rfl, ?_⟩
  intro call hClaimant hBlock hCredit hLeafIndex hProof hFree
  have hTree : w.claims.creditTrees.get call.block = some tree := by
    rw [hBlock]
    exact hHeld
  have hLt : call.leafIndex < tree.leafCount := by
    rw [hLeafIndex, hSpec.2.2.1]
    exact hIndex
  have hOpen : leafIsClaimed (w.claims.leaves call.block) call.leafIndex = false := by
    rw [hBlock, hLeafIndex]
    exact hFree
  have hChecked : A.claims.verifyProof tree.root call.proof.toList tree.leafCount call.leafIndex
          (A.claims.creditLeaf claimant call.credit)
        = true := by
    rw [hProof, hLeafIndex, hCredit]
    exact hAccepted
  have hSpend : ∃ spent, w.claims.spendLeaf call.block call.leafIndex
          tree.leafCount = .ok spent := by
    unfold ClaimsState.spendLeaf
    rw [if_neg]
    · exact ⟨_, rfl⟩
    · rintro (hPast | hPast)
      · exact Nat.not_lt_of_le hPast hLt
      · exact Nat.not_lt_of_le hCount hPast
  rcases hSpend with ⟨spent, hSpend⟩
  exact ⟨(tree, spent), beginClaim_of_checks hClaimant hTree hLt hOpen hChecked hSpend⟩

theorem credit_proofs_agree (hRoot : LayeredRoot A.awarding) (hVerify : Rehashes A) :
    ProofsAgree A where
  prover := by
    intro leaves leafIndices _ hIndices
    rw [creditTreeProofs_eq hRoot]
    refine ⟨rfl, List.length_map _, ?_⟩
    intro k i proof hIndex hProof
    rw [List.getElem?_map, hIndex] at hProof
    cases hProof
    have hLt : i < leaves.length := hIndices i (List.mem_of_getElem? hIndex)
    have hLeaf : leaves[i]? = some leaves[i] := List.getElem?_eq_getElem hLt
    exact ⟨⟨leaves[i], hLeaf, verifyProof_proofOf hRoot hVerify hLeaf⟩, length_proofOf_le leaves i⟩
  served := by
    intro w hRun block tree claimant proofs hHeld hServed p hMem
    have hBuffered := buffered_of_run hRun
    have hFaithful := faithful_of_run hRun
    have hRecorded : w.awarding.credits.recorded.get block = some tree := hFaithful.held hHeld
    have hTree : w.awarding.credits.creditRoots.get block = some tree := by
      cases hGet : w.awarding.credits.creditRoots.get block with
      | none =>
        unfold nftClaimCreditProofs at hServed
        rw [hGet] at hServed
        cases hServed
      | some root =>
        have hSame : w.awarding.credits.recorded.get block = some root :=
          hFaithful.roots block root hGet
        rw [hRecorded] at hSame
        exact hSame.symm
    have hBoth := hBuffered.serves hRoot hTree hRecorded hServed hMem
    refine ⟨passesClaim_of_serves hRoot hVerify hBuffered hHeld hRecorded hBoth.2, ?_⟩
    rw [hBoth.1]
    exact hBuffered.proof_from_awards hRoot hTree hRecorded hBoth.2

/-
  A chain whose root and check are the documented ones, with a
  tree of three leaves that is delivered and claimed.
-/
def sampleProofOps : List (AwardOp sampleAwardChains) :=
  [ .chains (.creditsTime 10000), .chains (.claimsTime 10000),
    .award 1 [sampleGrant 3, sampleGrant 4, sampleGrant 5] 10,
    .onInitialize,
    .chains (.sendCreditTrees (some 2) true),
    .chains .deliverTrees ]

theorem credit_proofs_agree_sample : ProofsAgree sampleAwardChains
      ∧ ∃ w : AwardWorld sampleAwardChains, RunUnder AwardWorld.perform (fun _ _ _ => True)
            (AwardWorld.genesis sampleAwardChains) w
          ∧ (w.claims.creditTrees.get 0).isSome = true
          ∧ (w.awarding.nftClaimCreditProofs 0 (5 : Nat) ).toOption.map
                (·.map fun p => (p.leafIndex, p.proof.length))
            = some [(2, 1)] := by
  refine ⟨credit_proofs_agree (fun leaves => rfl)
      (fun root proof leafCount leafIndex leaf => rfl), ?_⟩
  have hExecute : (execute AwardWorld.perform (fun _ _ => true)
        (AwardWorld.genesis sampleAwardChains)
        sampleProofOps).any (fun w =>
            decide ((w.claims.creditTrees.get 0).isSome = true
              ∧ (w.awarding.nftClaimCreditProofs 0 (5 : Nat) ).toOption.map
                    (·.map fun p => (p.leafIndex, p.proof.length))
                = some [(2, 1)]))
        = true := by
    decide +kernel
  rcases exists_run_of_execute (fun _ _ _ _ _ => trivial) hExecute with ⟨w, hRun, hTest⟩
  rw [decide_eq_true_eq] at hTest
  exact ⟨w, hRun, hTest⟩

end Individuality.CreditTrees
