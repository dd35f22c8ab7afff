import Individuality.NftClaims.Spent

/-
  Over a whole run, each leaf of a block is minted at most once, and a block's deletion is queued by
  one claim unless a minter contract claims the last leaves of that block.

  Main declaration: `credits_mint_once`
-/

namespace Individuality.NftClaims

open CreditTrees

open ClaimsState

variable {T : Config} {s s' : ClaimsState T}

--
-- Selections That Keep the Tree
--

/-
  If the claim goes through, the minter contract it asks returns with the tree of its block still
  held, and so does every contract that is asked in between.
-/
def ClaimKeepsTree (s : ClaimsState T) (call : Claim T) (selector : Reentry T)
    (nested : ClaimsState T → Prop) : Prop :=
  ∀ s' tree spent, s.claim call selector.run = .ok s' → s.beginClaim call = .ok (tree, spent) →
    spent.AsksContract call →
      (selector.run spent).1.creditTrees.get call.block ≠ none ∧ nested spent

def Reentry.KeepsTrees : Reentry T → ClaimsState T → Prop
  | .done _ => fun _ => True
  | .claim call selector rest => fun s =>
    ClaimKeepsTree s call selector selector.KeepsTrees ∧ rest.KeepsTrees
        (s.settle (s.claim call selector.run))
  | .setCollectionMinter nfts who collection selection
      isContract rest => fun s =>
      rest.KeepsTrees (s.settle (s.setCollectionMinter nfts who collection selection isContract))
  | .attempt inner rest => fun s =>
    match (inner.run s).2 with
    | some _ =>
      inner.KeepsTrees s ∧ rest.KeepsTrees (inner.run s).1
    | none => rest.KeepsTrees s

def Op.KeepsTrees (s : ClaimsState T) : Op T → Prop
  | .claim call selector =>
    ClaimKeepsTree s call selector selector.KeepsTrees
  | _ => True

variable {content : Nat → NftClaimCreditTree}

/- A claim whose selection keeps the tree removes a tree that no claim removed before. -/
theorem SpentInvariant.claim_completed {call : Claim T} {selector : Reentry T}
    (hInv : SpentInvariant content s)
    (hNested : ∀ s, SpentInvariant content s → selector.KeepsTrees s →
        s.completed.Nodup → (selector.run s).1.completed.Nodup)
    (hKeeps : ClaimKeepsTree s call selector selector.KeepsTrees)
    (hNodup : s.completed.Nodup)
    (hClaim : s.claim call selector.run = .ok s') :
    s'.completed.Nodup := by
  have hParts := hClaim
  simp only [ClaimsState.claim, Except.bind_eq_ok] at hParts
  rcases hParts with ⟨⟨tree, spent⟩, hBegin, ⟨item, selected⟩, hItem, hComplete⟩
  have hBegun := beginClaim_spec hBegin
  have hSpent := hInv.begun hBegun
  have hFresh : call.block ∉ spent.completed := by
    have hOld := hInv.notMem_completed hBegun.held hBegun.index hBegun.unclaimed
    rcases hBegun.state with ⟨_, rfl, _⟩
    exact hOld
  have hStart : spent.completed.Nodup := by
    rcases hBegun.state with ⟨_, rfl, _⟩
    exact hNodup
  have hSelected : selected.completed.Nodup ∧ call.block ∉ selected.completed := by
    rcases selectItem_spec hItem with hEq | ⟨hAsks, hEq⟩
    · rw [hEq]
      exact ⟨hStart, hFresh⟩
    · have hKept := hKeeps s' tree spent hClaim hBegin hAsks
      rw [hEq]
      refine ⟨hNested spent hSpent hKept.2 hStart, ?_⟩
      intro hMem
      rcases (selector.run_spent spent hSpent).2.completed
          _ hMem with hOld | hGone
      · exact hFresh hOld
      · exact hKept.1 hGone
  rcases (completeClaim_spec hComplete).2.2.2.2 with ⟨_, hSame⟩ | ⟨_, _, hAppend⟩
  · rw [hSame]
    exact hSelected.1
  · rw [hAppend]
    refine List.Nodup.append hSelected.1 (List.nodup_singleton _) ?_
    rintro block hOld hNew
    rw [List.mem_singleton] at hNew
    exact hSelected.2 (hNew ▸ hOld)

theorem setCollectionMinter_completed {nfts : Nfts T} {who : T.AccountId} {collection : Nat}
    {selection : Option ItemSelection} {isContract : Nat → Bool}
    (hSet : s.setCollectionMinter nfts who collection selection isContract = .ok s') :
    s'.completed = s.completed := by
  simp only [ClaimsState.setCollectionMinter, Except.bind_eq_ok] at hSet
  rcases hSet with ⟨_, _, _, _, hSet⟩
  cases selection with
  | none =>
    cases hSet
    rfl
  | some selection =>
    simp only [Except.bind_eq_ok] at hSet
    rcases hSet with ⟨_, _, hSet⟩
    cases hSet
    rfl

theorem Reentry.run_completed (selector : Reentry T) (s : ClaimsState T)
    (hInv : SpentInvariant content s) (hKeeps : selector.KeepsTrees s)
    (hNodup : s.completed.Nodup) :
    (selector.run s).1.completed.Nodup := by
  induction selector generalizing s with
  | done item => exact hNodup
  | claim call selector rest hSelector hRest =>
    unfold Reentry.run
    unfold Reentry.KeepsTrees at hKeeps
    cases hClaim : s.claim call selector.run with
    | error e =>
      rw [hClaim] at hKeeps
      exact hRest s hInv hKeeps.2 hNodup
    | ok s₁ =>
      have hFirst := hInv.claim_completed hSelector hKeeps.1 hNodup hClaim
      rw [hClaim] at hKeeps
      exact hRest s₁ (hInv.claim selector.run_spent hClaim).1 hKeeps.2 hFirst
  | setCollectionMinter nfts who collection selection isContract
      rest hRest =>
      unfold Reentry.run
      unfold Reentry.KeepsTrees at hKeeps
      cases hSet : s.setCollectionMinter nfts who collection selection
          isContract with
      | error e =>
        rw [hSet] at hKeeps
        exact hRest s hInv hKeeps hNodup
      | ok s₁ =>
        rw [hSet] at hKeeps
        refine hRest s₁ (hInv.setCollectionMinter hSet).1 hKeeps ?_
        rw [setCollectionMinter_completed hSet]
        exact hNodup
  | attempt inner rest hInner hRest =>
    unfold Reentry.run
    unfold Reentry.KeepsTrees at hKeeps
    cases hItem : (inner.run s).2 with
    | none =>
      rw [hItem] at hKeeps
      exact hRest s hInv hKeeps hNodup
    | some item =>
      rw [hItem] at hKeeps
      exact hRest _ (inner.run_spent s hInv).1 hKeeps.2 (hInner s hInv hKeeps.1 hNodup)

theorem receiveTree_completed (updates : List CreditTreeDelivery)
    (state : ClaimsState T × List Nat) :
    (updates.foldl ClaimsState.receiveTree state).1.completed = state.1.completed := by
  induction updates generalizing state with
  | nil => rfl
  | cons update updates ih =>
    rw [List.foldl_cons, ih]
    unfold ClaimsState.receiveTree
    repeat' split
    all_goals rfl

theorem SpentInvariant.perform_completed {op : Op T} (hInv : SpentInvariant content s)
    (hKeeps : op.KeepsTrees s) (hNodup : s.completed.Nodup) (hStep : s.perform op = .ok s') :
    s'.completed.Nodup := by
  cases op with
  | receiveCreditTrees batch =>
    cases hStep
    change (batch.toList.foldl ClaimsState.receiveTree (s, [])).1.completed.Nodup
    rw [receiveTree_completed]
    exact hNodup
  | claim call selector =>
    exact hInv.claim_completed
      (fun s hInv hKeeps hNodup => selector.run_completed s hInv hKeeps hNodup)
      hKeeps hNodup hStep
  | setCollectionMinter nfts who collection selection
      isContract =>
      rw [setCollectionMinter_completed hStep]
      exact hNodup
  | clearCollectionMinter collection =>
    cases hStep
    exact hNodup
  | sweepExpiredTrees =>
    cases hStep
    rcases foldl_retireBlock_spec (drainDueExpiries T.twox T.treeTtl s.now
          T.maxTreeDeletionsPerMessage s.treeExpiries).1
        ({ s with
          treeExpiries := (drainDueExpiries T.twox T.treeTtl s.now T.maxTreeDeletionsPerMessage
              s.treeExpiries).2 }, []) with
      ⟨_, _, _, _, hState⟩
    unfold ClaimsState.doSweepExpiredTrees
    dsimp only [ClaimsState.queueTreeDeletions]
    rw [hState]
    exact hNodup
  | sendTreeDeletions delivered =>
    cases hStep
    unfold ClaimsState.doSendTreeDeletions
    cases delivered with
    | false => exact hNodup
    | true => exact hNodup
  | setTime now =>
    unfold ClaimsState.perform at hStep
    simp only [Except.bind_eq_ok, ensure_eq_ok_iff, exists_const, Except.pure_eq_ok] at hStep
    rcases hStep with ⟨_, rfl⟩
    exact hNodup

/- A contract that calls nothing keeps the tree. -/
theorem claimKeepsTree_done (s : ClaimsState T) (call : Claim T) (item : Option Nat) :
    ClaimKeepsTree s call (.done item) (Reentry.KeepsTrees (.done item)) := by
  intro s' tree spent _ hBegin _
  have hBegun := beginClaim_spec hBegin
  have hHeld := hBegun.held
  rcases hBegun.state with ⟨_, rfl, _⟩
  refine ⟨?_, trivial⟩
  change s.creditTrees.get call.block ≠ none
  rw [hHeld]
  exact Option.some_ne_none tree

--
-- Runs
--

/-
  No leaf was minted twice, a held tree has at most all its leaves claimed, and every held tree and
  every bitmap is filed for expiry.
-/
structure MintsOnce (s : ClaimsState T) : Prop where
  once : s.minted.Nodup
  bits : ∀ block tree,
      s.creditTrees.get block = some tree →
        claimedLeafCount (s.leaves block) ≤ tree.leafCount
  treeFiled : ∀ block tree,
      s.creditTrees.get block = some tree →
        s.treeExpiries.get (tree.timestamp, block) = some ()
  bitmapFiled : ∀ block bitmap,
      s.claimedLeaves.get block = some bitmap →
        ∃ timestamp, s.treeExpiries.get (timestamp, block) = some ()

theorem SpentInvariant.mintsOnce (hInv : SpentInvariant content s) :
    MintsOnce s where
  once := hInv.once
  bits := by
    intro block tree hGet
    rw [(hInv.held block tree hGet).1]
    exact Bitmap.ones_le (hInv.below block)
  treeFiled := by
    intro block tree hGet
    have hHeld := hInv.held block tree hGet
    rw [hHeld.1]
    exact hHeld.2
  bitmapFiled := by
    intro block bitmap hGet
    exact ⟨_, hInv.bitmaps block bitmap hGet⟩

/- A claim that fails leaves the bitmaps as they were. -/
def FailedClaimsKeepBitmaps (T : Config) : Prop :=
  ∀ (s : ClaimsState T) (call : Claim T) (selector rest : Reentry T) (e : Error),
    s.claim call selector.run = .error e → (s.dispatch (.claim call selector)).claimedLeaves
          = s.claimedLeaves
        ∧ (Reentry.claim call selector rest).run s = rest.run s

theorem failedClaimsKeepBitmaps : FailedClaimsKeepBitmaps T := by
  intro s call selector rest e hClaim
  refine ⟨?_, ?_⟩
  · change (s.settle (s.claim call selector.run)).claimedLeaves = s.claimedLeaves
    rw [hClaim]
    rfl
  · change rest.run (s.settle (s.claim call selector.run)) = rest.run s
    rw [hClaim]
    rfl

/-
  In every run with fixed contents, each leaf is minted at most once.  If no selection loses the
  tree of its block, each block's deletion is queued by at most one claim as well.
-/
theorem credits_mint_once (content : Nat → NftClaimCreditTree) {s : ClaimsState T}
    (hRun : RunUnder ClaimsState.perform (fun _ op _ => FixedContent content op)
        (ClaimsState.genesis T) s) :
    MintsOnce s ∧ FailedClaimsKeepBitmaps T ∧ (RunUnder ClaimsState.perform (fun s op _ =>
            FixedContent content op ∧ op.KeepsTrees s)
          (ClaimsState.genesis T) s →
        s.completed.Nodup) := by
  have hInv : SpentInvariant content s := hRun.invariant (SpentInvariant content)
      (fun s op s' hContent hStep hInv => hInv.perform hContent hStep)
      spentInvariant_genesis
  refine ⟨hInv.mintsOnce, failedClaimsKeepBitmaps, ?_⟩
  intro hKept
  have hBoth : SpentInvariant content s ∧ s.completed.Nodup := by
    refine hKept.invariant (fun s => SpentInvariant content s ∧ s.completed.Nodup)
      ?_ ⟨spentInvariant_genesis, List.nodup_nil⟩
    rintro s op s' ⟨hContent, hKeeps⟩ hStep ⟨hOld, hNodup⟩
    exact ⟨hOld.perform hContent hStep, hOld.perform_completed hKeeps hNodup hStep⟩
  exact hBoth.2

--
-- Sample Runs
--

/- Two hashes folded into one, and a credit's own leaf. -/
def sampleMix (a b : Hash) : Hash :=
  Vector.zipWith (fun x y => 3#8 * x + 5#8 * y) a b

def sampleConfig : Config where
  AccountId := Nat
  Claimant := Nat
  creditLeaf := fun claimant credit => credit.map (· + BitVec.ofNat 8 claimant)
  verifyProof := fun root proof leafCount leafIndex leaf =>
    match leafCount, leafIndex, proof with
    | 2, 0, [sibling] => decide (root = sampleMix leaf sibling)
    | 2, 1, [sibling] => decide (root = sampleMix sibling leaf)
    | _, _, _ => false
  twox := id
  treeTtl := 50
  maxTreesPerMessage := 3
  maxProofNodes := 2
  maxCreditsPerTree := 4
  maxTreeDeletionsPerMessage := 2
  maxQueuedTreeDeletions := 2

def sampleCredit (k : Nat) : Hash :=
  Vector.replicate 32 (BitVec.ofNat 8 k)

def sampleTree : NftClaimCreditTree :=
  { gameIndex := 1
    root := sampleMix (sampleCredit 3) (sampleCredit 4)
    leafCount := 2
    timestamp := 10 }

def sampleBatch :
    BoundedVec CreditTreeDelivery
      sampleConfig.maxTreesPerMessage :=
  ⟨[{ sequence := some 0, block := 5, tree := sampleTree },
    { sequence := none, block := 5, tree := sampleTree }],
    by decide⟩

def sampleNfts : Nfts sampleConfig where
  collectionOwner := fun _ => some (1 : Nat)
  itemDrawBounds := fun _ => some (1, 1)
  itemExists := fun _ _ => true
  mintWithoutDeposit := fun _ _ _ => true

/- Account 1 claims the leaf of its credit. -/
def sampleClaim (leafIndex : Nat) : Claim sampleConfig where
  claimant := some (1 : Nat)
  block := 5
  credit := sampleCredit (2 + leafIndex)
  leafIndex := leafIndex
  proof := ⟨[sampleCredit (4 - leafIndex)], Nat.le_add_left 1 1⟩
  collection := 7
  mintTo := (1 : Nat)
  before := sampleNfts
  after := sampleNfts

def sampleSetup (selection : ItemSelection) :
    List (Op sampleConfig) :=
  [ .setTime 20, .receiveCreditTrees sampleBatch, .setCollectionMinter sampleNfts (1 : Nat) 7
      (some selection) (fun _ => true) ]

/- The contents are fixed, and no selection calls back. -/
def sampleCheck (quiet : Bool) :
    ClaimsState sampleConfig → Op sampleConfig → Bool
  | _, .receiveCreditTrees batch =>
    batch.toList.all fun update => decide (update.tree = sampleTree)
  | _, .claim _ (.done _) => true
  | _, .claim _ _ => !quiet
  | _, _ => true

theorem sampleCheck_spec {quiet : Bool} {s : ClaimsState sampleConfig} {op : Op sampleConfig}
    (hCheck : sampleCheck quiet s op = true) :
    FixedContent (fun _ => sampleTree) op ∧ (quiet = true → op.KeepsTrees s) := by
  cases op with
  | receiveCreditTrees batch =>
    refine ⟨?_, fun _ => trivial⟩
    intro update hMem _ _ _
    have hAll := List.all_eq_true.mp hCheck update hMem
    exact of_decide_eq_true hAll
  | claim call selector =>
    refine ⟨trivial, ?_⟩
    intro hQuiet
    subst hQuiet
    cases selector with
    | done item => exact claimKeepsTree_done s call item
    | claim | setCollectionMinter | attempt =>
      simp [sampleCheck] at hCheck
  | setCollectionMinter | clearCollectionMinter
    | sweepExpiredTrees | sendTreeDeletions | setTime =>
      exact ⟨trivial, fun _ => trivial⟩

/-
  Both leaves of a tree are claimed, the tree is delivered
  again, and the sweep takes it after its deadline.
-/
theorem credits_mint_once_sample : ∃ s : ClaimsState sampleConfig,
      (MintsOnce s ∧ s.completed.Nodup) ∧ s.minted = [(5, 0), (5, 1)] ∧ s.completed = [5]
        ∧ s.claimedLeaves.get 5 = none := by
  have hExecute : (execute ClaimsState.perform (sampleCheck true) (ClaimsState.genesis sampleConfig)
        (sampleSetup .random ++ [ .claim (sampleClaim 0) (.done none),
            .claim (sampleClaim 1) (.done none),
            .receiveCreditTrees sampleBatch,
            .setTime 60,
            .sweepExpiredTrees ])).any
        (fun s =>
          decide (s.minted = [(5, 0), (5, 1)] ∧ s.completed = [5]
            ∧ s.claimedLeaves.get 5 = none)) = true := by
    decide +kernel
  have hReach : ∃ s, RunUnder ClaimsState.perform
            (fun s op _ => FixedContent (fun _ => sampleTree) op ∧ op.KeepsTrees s)
            (ClaimsState.genesis sampleConfig) s
          ∧ _ :=
    exists_run_of_execute (fun s op _ hCheck _ =>
        ⟨(sampleCheck_spec hCheck).1, (sampleCheck_spec hCheck).2 rfl⟩)
      hExecute
  rcases hReach with ⟨s, hRun, hTest⟩
  have hAll := credits_mint_once (fun _ => sampleTree)
      (hRun.weaken fun _ _ _ hAllowed => hAllowed.1)
  exact ⟨s, ⟨hAll.1, hAll.2.2 hRun⟩, of_decide_eq_true hTest⟩

/-
  A minter contract that claims the other leaf of the block: both claims find all leaves claimed,
  and both queue the deletion.
-/
theorem credits_mint_once_fails : ∃ s : ClaimsState sampleConfig,
      RunUnder ClaimsState.perform (fun _ op _ => FixedContent (fun _ => sampleTree) op)
          (ClaimsState.genesis sampleConfig) s
        ∧ s.completed = [5, 5]
        ∧ s.pendingTreeDeletions.toList = [5, 5] := by
  have hExecute : (execute ClaimsState.perform (sampleCheck false)
        (ClaimsState.genesis sampleConfig)
        (sampleSetup (.contract 9) ++ [ .claim (sampleClaim 0)
            (.claim (sampleClaim 1) (.done (some 0)) (.done (some 0))) ])).any
        (fun s =>
          decide (s.completed = [5, 5] ∧ s.pendingTreeDeletions.toList = [5, 5]))
        = true := by
    decide +kernel
  have hReach : ∃ s, RunUnder ClaimsState.perform
            (fun _ op _ => FixedContent (fun _ => sampleTree) op)
            (ClaimsState.genesis sampleConfig) s
          ∧ _ :=
    exists_run_of_execute (fun _ _ _ hCheck _ => (sampleCheck_spec hCheck).1) hExecute
  rcases hReach with ⟨s, hRun, hTest⟩
  exact ⟨s, hRun, of_decide_eq_true hTest⟩

end Individuality.NftClaims
