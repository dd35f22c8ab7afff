import Individuality.Scarcity.Budgets
import Individuality.Scarcity.Ownership

/-
  An authorization for an instance is good for one dispatch, whatever becomes of the instance, and
  feeless moves are limited between those that are not.

  Main declaration: `authorizations_one_time`
-/

namespace Individuality.Scarcity

open Except (bind_eq_ok ok_bind)
open StorageMap (get_insert get_insert_self get_remove)

variable {A B T : Type} [DecidableEq A] {C : Config A B T}
variable {owner purse : A} {nft : Nft} {used : Nat × Nat} {tx : Transaction C} {i k : Nat}

open ScarcityState (Change Detail Details Changes Authorized)

section Steps

variable {s s' : ScarcityState C} {op : Op C}

--
-- One Step
--

/- Metadata does not touch the purses. -/
theorem purses_of_details (hDetails : s.Details s') :
    s'.nftsByOwner = s.nftsByOwner ∧ s'.dispatched = s.dispatched := by
  induction hDetails with
  | refl => exact ⟨rfl, rfl⟩
  | tail _ hDetail ih =>
    cases hDetail <;> exact ih

/-
  An instance that stays in its purse is the same or has a later state, and one that changes its
  purse has a later state, on the authority of its holder or by force.
-/
theorem nonce_of_change (hPurses : Purses s) (hNonces : NoncesBelow s) (hChange : s.Change op s')
    {purse' : A} {nft' : Nft} (hHeld : s.nftsByOwner.get purse = some nft)
    (hHeld' : s'.nftsByOwner.get purse' = some nft') (hSame : nft'.instance_ = nft.instance_) :
    (purse' = purse ∧ nft' = nft)
      ∨ (nft.stateNonce < nft'.stateNonce ∧ (purse' ≠ purse → op.forces = true
          ∨ s.transferabilityOf nft = some .transferable)) := by
  have hKept : s.nftsByOwner.get purse' = some nft' → purse' = purse ∧ nft' = nft := by
    intro hBefore
    have hPurse := hPurses.purse_unique hHeld hBefore hSame
    subst hPurse
    rw [hHeld] at hBefore
    cases hBefore
    exact ⟨rfl, rfl⟩
  cases hChange with
  | detail hDetail =>
    cases hDetail <;> exact Or.inl (hKept hHeld')
  | @minted _ _ _ _ _ _ _ _ to_ =>
    rw [get_insert] at hHeld'
    by_cases hTo : purse' = to_
    · rw [if_pos hTo] at hHeld'
      cases hHeld'
      have hBelow := hPurses.below_of_held hHeld
      exact absurd hSame.symm (Nat.ne_of_lt hBelow)
    · rw [if_neg hTo] at hHeld'
      exact Or.inl (hKept hHeld')
  | @moved from_ to_ moved kind hFrom _ _ _ hBound hForced =>
    change ((s.nftsByOwner.remove from_).insert to_ _).get purse' = _ at hHeld'
    rw [get_insert, get_remove] at hHeld'
    by_cases hTo : purse' = to_
    · rw [if_pos hTo] at hHeld'
      cases hHeld'
      right
      have hHere := hPurses.purse_unique hFrom hHeld hSame.symm
      subst hHere
      rw [hHeld] at hFrom
      cases hFrom
      refine ⟨Nat.lt_succ_self _, ?_⟩
      intro _
      by_cases hKind : kind = .forced
      · exact Or.inl (hForced hKind)
      · exact Or.inr (hBound hKind)
    · rw [if_neg hTo] at hHeld'
      split_ifs at hHeld'
      exact Or.inl (hKept hHeld')
  | @burned from_ =>
    change (s.nftsByOwner.remove from_).get purse' = _ at hHeld'
    rw [get_remove] at hHeld'
    split_ifs at hHeld'
    exact Or.inl (hKept hHeld')
  | @refused _ from_ refused hAuthorized =>
    rw [get_insert] at hHeld'
    by_cases hAt : purse' = from_
    · rw [if_pos hAt] at hHeld'
      cases hHeld'
      right
      have hFrom := hAuthorized.held
      have hHere := hPurses.purse_unique hFrom hHeld hSame.symm
      subst hHere
      rw [hHeld] at hFrom
      cases hFrom
      have hLess := hNonces purse nft hHeld
      refine ⟨?_, fun hAway => absurd hAt hAway⟩
      dsimp only
      rw [saturatingAdd_of_le hLess]
      exact Nat.lt_succ_self _
    · rw [if_neg hAt] at hHeld'
      exact Or.inl (hKept hHeld')
  | _ => exact Or.inl (hKept hHeld')

theorem nonce_of_changes (hPurses : Purses s) (hNonces : NoncesBelow s) (hChanges : s.Changes op s')
    {purse' : A} {nft' : Nft} (hHeld : s.nftsByOwner.get purse = some nft)
    (hHeld' : s'.nftsByOwner.get purse' = some nft') (hSame : nft'.instance_ = nft.instance_) :
    (purse' = purse ∧ nft' = nft)
      ∨ (nft.stateNonce < nft'.stateNonce ∧ (purse' ≠ purse → op.forces = true
          ∨ s.transferabilityOf nft = some .transferable)) := by
  rcases hChanges with ⟨s₁, hChange, hDetails⟩
  rw [(purses_of_details hDetails).1] at hHeld'
  exact nonce_of_change hPurses hNonces hChange hHeld hHeld' hSame

/- The log of dispatches is never shortened. -/
theorem dispatched_of_change (hChange : s.Change op s') (hMem : used ∈ s.dispatched) :
    used ∈ s'.dispatched := by
  cases hChange with
  | detail hDetail =>
    cases hDetail <;> exact hMem
  | moved kind =>
    cases kind with
    | feeless => exact List.mem_cons_of_mem _ hMem
    | paid => exact hMem
    | forced => exact hMem
  | burned authorized =>
    cases authorized with
    | true => exact List.mem_cons_of_mem _ hMem
    | false => exact hMem
  | refused => exact List.mem_cons_of_mem _ hMem
  | _ => exact hMem

theorem dispatched_of_changes (hChanges : s.Changes op s') (hMem : used ∈ s.dispatched) :
    used ∈ s'.dispatched := by
  rcases hChanges with ⟨s₁, hChange, hDetails⟩
  rw [(purses_of_details hDetails).2]
  exact dispatched_of_change hChange hMem

--
-- Dispatches
--

/- An accepted authorization is one for the state of a purse. -/
theorem authorized_of_validate (hValid : s.validate tx = .ok (.usingNft owner i k)) :
    ∃ nft, s.Authorized tx owner nft ∧ nft.instance_ = i ∧ nft.stateNonce = k := by
  rcases ScarcityState.validate_eq_ok hValid with
    hNot | ⟨found, nft, hAuthorized, hVal⟩
  · cases hNot
  · cases hVal
    exact ⟨nft, hAuthorized, rfl, rfl⟩

/- The instance is taken, dispatched for, and settled. -/
theorem perform_of_validate
    (hValid : s.validate tx = .ok (.usingNft owner nft.instance_ nft.stateNonce))
    (hAuthorized : s.Authorized tx owner nft) :
    s.perform (.transaction tx) = .ok ((s.taken owner nft).postDispatch owner nft
        ((s.taken owner nft).dispatchAdmitted (.nft owner nft) tx)) := by
  simp only [ScarcityState.perform, ScarcityState.performAsNft, hValid, invalid, ok_bind,
    ScarcityState.prepare_of_authorized hAuthorized]
  rfl

/- The dispatch of an authorization uses it up. -/
theorem dispatched_of_perform (hValid : s.validate tx = .ok (.usingNft owner i k))
    (hPerform : s.perform (.transaction tx) = .ok s') :
    (i, k) ∈ s'.dispatched := by
  rcases authorized_of_validate hValid with ⟨nft, hAuthorized, rfl, rfl⟩
  rw [perform_of_validate hValid hAuthorized] at hPerform
  cases hPerform
  cases hDispatch : (s.taken owner nft).dispatchAdmitted (.nft owner nft) tx with
  | error e => exact List.mem_cons_self ..
  | ok s₁ =>
    unfold ScarcityState.dispatchAdmitted ScarcityState.dispatch at hDispatch
    rcases hAuthorized.call with hBurn | ⟨to_, hTransfer, _⟩
    · rw [hBurn] at hDispatch
      simp only [bind_eq_ok, ensure_eq_ok_iff, exists_const, Origin.ensureNft, Except.ok.injEq,
        exists_eq_left'] at hDispatch
      rcases ScarcityState.doBurn_eq_ok hDispatch.2 with ⟨_, _, _, _, _, _, _, _, _, rfl⟩
      exact List.mem_cons_self ..
    · rw [hTransfer] at hDispatch
      simp only [bind_eq_ok, ensure_eq_ok_iff, exists_const, Origin.ensureNft, Except.ok.injEq,
        exists_eq_left'] at hDispatch
      unfold ScarcityState.transfer at hDispatch
      simp only [bind_eq_ok, okOr_eq_ok_iff, ensure_eq_ok_iff, exists_const, checkedAdd_eq_some_iff,
        Except.pure_eq_ok] at hDispatch
      rcases hDispatch.2 with ⟨_, _, _, _, _, ⟨_, rfl⟩, rfl⟩
      exact List.mem_cons_self ..

/- An instance has at most the deposits of its collection. -/
theorem depositsOf_le (hSound : Sound s) {info : CollectionInfo A T}
    (hHeld : s.nftsByOwner.get purse = some nft)
    (hInfo : s.collections.get nft.collection = some info) :
    s.depositsOf nft.instance_ ≤ info.ownerDeposit := by
  have hExact := hSound.ledger.exact nft.collection info hInfo
  have hBurned := Ledger.recorded_burned hSound.purses hHeld nft.collection
  rw [if_pos rfl] at hBurned
  unfold recordedBy at hExact
  omega

/- A burn finds all that it takes away. -/
theorem doBurn_of_held (hExact : C.Exact) (hSound : Sound s)
    (hHeld : s.nftsByOwner.get purse = some nft) :
    ∃ s', (s.taken purse nft).doBurn nft = .ok s' := by
  rcases hSound.supplies.home purse nft hHeld with ⟨definition, hDefinition⟩
  rcases hSound.catalogue.itemHome _ definition hDefinition with ⟨info, hInfo, _⟩
  have hInfo : s.collections.get nft.collection = some info := hInfo
  have hDefinition : s.itemDefs.get (nft.collection, nft.item) = some definition := hDefinition
  have hLe := depositsOf_le hSound hHeld hInfo
  have hMax := hSound.ledger.bounded nft.collection info hInfo
  have hTotal : checkedTotal C.balanceMax (s.instanceDeposits.getD nft.instance_ 0)
          ((s.instanceMetadata.entriesAt nft.instance_).map fun e => e.2.deposit)
        = some (s.depositsOf nft.instance_) :=
    checkedTotal_of_le (Nat.le_trans hLe hMax)
  have hLive : 1 ≤ definition.liveSupply := by
    have hOne : (if nft.definition = nft.definition then 1 else 0) ≤ heldOf s nft.definition :=
      StorageMap.le_sum_of_get hHeld fun _ held =>
          if held.definition = nft.definition then 1 else 0
    rw [if_pos rfl] at hOne
    rw [hSound.supplies.live _ definition hDefinition]
    exact hOne
  have hCovered := covered hSound.tickets hInfo
  have hWorth := hSound.tickets.worth nft.collection info hInfo
  have hLower : info.ownerDeposit - s.depositsOf nft.instance_ ≤ C.worth info.consideration := by
    rw [hWorth]
    exact Nat.sub_le _ _
  rcases hExact.lowers hLower hCovered with ⟨⟨ticket, bank⟩, hTicket⟩
  unfold ScarcityState.doBurn decreaseOwnerDeposit updateOwnerDeposit
  simp only [ScarcityState.taken, hTotal, hDefinition, hInfo,
    okOr_some, ok_bind, ensure_of hLive, ensure_of hLe,
    hTicket]
  exact ⟨_, rfl⟩

/- What the extension accepts does not fail. -/
theorem dispatch_of_authorized (hExact : C.Exact) (hSound : Sound s) (hNonces : NoncesBelow s)
    (hAuthorized : s.Authorized tx owner nft) :
    ∃ s', (s.taken owner nft).dispatch (.nft owner nft) tx.call = .ok s' := by
  have hHeld := hAuthorized.held
  rcases hAuthorized.call with
    hBurn | ⟨to_, hTransfer, hSelf, hFree, hKind, _⟩
  · rw [hBurn]
    exact doBurn_of_held hExact hSound hHeld
  · rw [hTransfer]
    have hVacant : (s.taken owner nft).nftsByOwner.containsKey to_ = false := by
      change (s.nftsByOwner.remove owner).containsKey to_ = false
      rw [StorageMap.containsKey_eq_false_iff, StorageMap.get_remove_of_ne _ hSelf]
      exact hFree
    have hNonce : checkedAdd u64Max nft.stateNonce 1 = some (nft.stateNonce + 1) :=
      checkedAdd_eq_some_iff.mpr ⟨hNonces owner nft hHeld, rfl⟩
    have hTransferable : (s.taken owner nft).ensureTransferable nft = .ok () := by
      have hTaken : (s.taken owner nft).transferabilityOf nft = some .transferable := hKind
      unfold ScarcityState.ensureTransferable
      rw [hTaken]
      rfl
    change ∃ s', (s.taken owner nft).transfer owner nft to_ = _
    unfold ScarcityState.transfer
    rw [ensure_of hSelf, ok_bind, ensure_of hVacant, ok_bind, hTransferable, ok_bind, hNonce]
    exact ⟨_, rfl⟩

end Steps

--
-- Runs
--

/- Steps that start with state nonces below the maximum. -/
def AllowedBelow (s : ScarcityState C) (op : Op C) (s' : ScarcityState C) : Prop :=
  Allowed s op s' ∧ NoncesBelow s

/- A run in which no state nonce is exhausted. -/
abbrev RunBelow (s s' : ScarcityState C) : Prop :=
  RunUnder ScarcityState.perform AllowedBelow s s'

/- All that holds between transactions of such a run. -/
structure Guarded (s : ScarcityState C) : Prop where
  sound : Sound s
  budget : Budget s
  replay : Replay s
  backoff : Backoff s

section Runs

variable {s s' : ScarcityState C} {op : Op C}

theorem guarded_genesis (prices : Prices C.balanceMax) {bank : B}
    (hNothing : ∀ owner, C.held bank owner = 0) :
    Guarded (ScarcityState.genesis C prices bank) where
  sound := .genesis prices hNothing
  budget :=
    { spent := by
        intro _ _ hGet
        cases hGet
      fresh := fun _ _ => rfl
      bounded := by
        intro _ moves hSuffix
        rw [List.suffix_nil.mp hSuffix]
        exact Nat.zero_le _ }
  replay :=
    { nodup := List.nodup_nil
      minted := by
        intro _ _ hMem
        cases hMem
      retired := by
        intro _ _ hMem
        cases hMem }
  backoff :=
    { clock := Nat.zero_le _
      doubled := by
        intro _ _ hGet
        cases hGet }

theorem Guarded.perform (hGuarded : Guarded s) (hExact : C.Exact) (hAllowed : AllowedBelow s op s')
    (hPerform : s.perform op = .ok s') :
    Guarded s' := by
  have hSound := hGuarded.sound.perform hExact hAllowed.1 hPerform
  rcases ScarcityState.change_of_perform hPerform with ⟨s₁, hChange, hDetails⟩
  have hPurses := hGuarded.sound.purses
  have hBudget := hGuarded.budget.change hPurses hChange
  have hReplay := hGuarded.replay.change hPurses hAllowed.2 hChange
  have hBackoff := hGuarded.backoff.change hChange
  refine { sound := hSound, budget := ?_, replay := ?_
           backoff := ?_ } <;>
    clear hSound hPerform hChange hAllowed
  · induction hDetails with
    | refl => exact hBudget
    | tail _ hDetail ih => exact ih.detail hDetail
  · induction hDetails with
    | refl => exact hReplay
    | tail _ hDetail ih => exact ih.detail hDetail
  · induction hDetails with
    | refl => exact hBackoff
    | tail _ hDetail ih => exact ih.detail hDetail

theorem Guarded.run (hGuarded : Guarded s) (hExact : C.Exact) (hRun : RunBelow s s') :
    Guarded s' :=
  hRun.invariant Guarded (fun _ _ _ hAllowed hNext hBefore => hBefore.perform hExact hAllowed hNext)
    hGuarded

theorem dispatched_of_run (hRun : RunBelow s s') (hMem : used ∈ s.dispatched) :
    used ∈ s'.dispatched :=
  hRun.invariant (fun t => used ∈ t.dispatched) (fun _ _ _ _ hNext hBefore =>
      dispatched_of_changes (ScarcityState.change_of_perform hNext) hBefore)
    hMem

/- What was dispatched is never accepted again. -/
theorem Guarded.not_again (hGuarded : Guarded s) (hMem : (i, k) ∈ s.dispatched) (tx : Transaction C)
    (owner : A) :
    s.validate tx ≠ .ok (.usingNft owner i k) := by
  intro hValid
  rcases authorized_of_validate hValid with ⟨nft, hAuthorized, rfl, rfl⟩
  exact hGuarded.replay.not_dispatched hAuthorized.held hMem

/- A failed dispatch puts the instance back behind a lock. -/
theorem perform_of_failed (hGuarded : Guarded s) (hNonces : NoncesBelow s) {error : Error}
    (hValid : s.validate tx = .ok (.usingNft owner nft.instance_ nft.stateNonce))
    (hAuthorized : s.Authorized tx owner nft)
    (hFailed : (s.taken owner nft).dispatchAdmitted (.nft owner nft) tx = .error error) :
    ∃ s' lock, s.perform (.transaction tx) = .ok s' ∧ s'.nftsByOwner.get owner
          = some { nft with stateNonce := nft.stateNonce + 1 }
        ∧ s'.instances = s.instances
        ∧ s'.locked.get owner = some lock
        ∧ lock.retries = retriesOf (s.locked.get owner) + 1 := by
  rw [perform_of_validate hValid hAuthorized, hFailed]
  refine ⟨_, s.failedDispatchLock (s.locked.get owner), rfl, ?_, rfl, ?_, ?_⟩
  · change ((s.nftsByOwner.remove owner).insert owner _).get owner = _
    rw [get_insert_self, saturatingAdd_of_le (hNonces owner nft hAuthorized.held)]
  · exact get_insert_self _ _ _
  · exact (failedDispatchLock_spec hGuarded.backoff hAuthorized.unlocked).1

end Runs

--
-- Authorizations
--

/-
  In every run with state nonces below the maximum, an authorization that was dispatched is never
  accepted again, states go up with every move and every failure, feeless moves in a row stay within
  the budget, soulbound instances move by force only, and what is accepted fails only when another
  filter rejects it, which leaves the instance where it was behind a lock with one more retry.
-/
theorem authorizations_one_time (hExact : C.Exact) {prices : Prices C.balanceMax} {bank : B}
    (hNothing : ∀ owner, C.held bank owner = 0) {s : ScarcityState C}
    (hRun : RunBelow (ScarcityState.genesis C prices bank) s) (hNonces : NoncesBelow s) :
    s.dispatched.Nodup ∧ (∀ tx owner i k s₁ s₂, s.validate tx = .ok (.usingNft owner i k) →
          s.perform (.transaction tx) = .ok s₁ →
          RunBelow s₁ s₂ → (i, k) ∈ s₁.dispatched
              ∧ ∀ tx' owner', s₂.validate tx' ≠ .ok (.usingNft owner' i k))
      ∧ (∀ op s', s.perform op = .ok s' → ∀ purse nft purse' nft',
          s.nftsByOwner.get purse = some nft →
          s'.nftsByOwner.get purse' = some nft' →
          nft'.instance_ = nft.instance_ →
            ((purse' = purse ∧ nft' = nft) ∨ nft.stateNonce < nft'.stateNonce)
              ∧ (s.transferabilityOf nft = some .soulbound → purse' ≠ purse → op.forces = true))
      ∧ (∀ instance_ newer between older, movesIn s.moved instance_ = newer ++ between ++ older →
          (∀ kind ∈ between, kind = .feeless) → between.length ≤ C.maximumMoves)
      ∧ (∀ tx owner i k, s.validate tx = .ok (.usingNft owner i k) → ∃ nft,
          s.nftsByOwner.get owner = some nft ∧ nft.instance_ = i ∧ nft.stateNonce = k
            ∧ (∃ s', (s.taken owner nft).dispatch (.nft owner nft) tx.call = .ok s')
            ∧ ∀ error, (s.taken owner nft).dispatchAdmitted (.nft owner nft) tx = .error error →
                ∃ s' lock, s.perform (.transaction tx) = .ok s' ∧ s'.nftsByOwner.get owner
                      = some { nft with
                          stateNonce := nft.stateNonce + 1 }
                    ∧ s'.instances = s.instances
                    ∧ s'.locked.get owner = some lock
                    ∧ lock.retries = retriesOf (s.locked.get owner) + 1) := by
  have hGuarded : Guarded s := (guarded_genesis prices hNothing).run hExact hRun
  refine ⟨hGuarded.replay.nodup, ?_, ?_, ?_, ?_⟩
  · intro tx owner i k s₁ s₂ hValid hPerform hLater
    have hUsed := dispatched_of_perform hValid hPerform
    refine ⟨hUsed, ?_⟩
    intro tx' owner'
    have hStep : AllowedBelow s (.transaction tx) s₁ := ⟨fun _ hOp => (nomatch hOp), hNonces⟩
    have hAfter : Guarded s₂ := (hGuarded.perform hExact hStep hPerform).run hExact hLater
    exact hAfter.not_again (dispatched_of_run hLater hUsed) tx' owner'
  · intro op s' hPerform purse nft purse' nft' hHeld hHeld' hSame
    rcases nonce_of_changes hGuarded.sound.purses hNonces
        (ScarcityState.change_of_perform hPerform) hHeld hHeld'
        hSame with
      hKept | ⟨hLess, hAway⟩
    · exact ⟨Or.inl hKept, fun _ hNe => absurd hKept.1 hNe⟩
    · refine ⟨Or.inr hLess, ?_⟩
      intro hSoulbound hNe
      rcases hAway hNe with hForces | hTransferable
      · exact hForces
      · rw [hSoulbound] at hTransferable
        cases hTransferable
  · intro instance_ newer between older hMoves hFeeless
    have hSuffix : between ++ older <:+ movesIn s.moved instance_ :=
      ⟨newer, by rw [hMoves, List.append_assoc]⟩
    exact Nat.le_trans (length_le_feelessRun between older hFeeless)
        (hGuarded.budget.bounded instance_ _ hSuffix)
  · intro tx owner i k hValid
    rcases authorized_of_validate hValid with ⟨nft, hAuthorized, rfl, rfl⟩
    refine ⟨nft, hAuthorized.held, rfl, rfl, dispatch_of_authorized hExact hGuarded.sound hNonces
          hAuthorized,
        ?_⟩
    intro error hFailed
    exact perform_of_failed hGuarded hNonces hValid hAuthorized hFailed

/- The state nonces can be read off the purses. -/
def belowMaximum (s : ScarcityState sampleConfig) : Bool :=
  s.nftsByOwner.entries.all fun e => decide (e.2.stateNonce < u64Max)

theorem noncesBelow_of_belowMaximum {s : ScarcityState sampleConfig}
    (hBelow : belowMaximum s = true) :
    NoncesBelow s := by
  intro purse nft hGet
  have hMem := StorageMap.mem_entries_iff.mpr hGet
  exact of_decide_eq_true (List.all_eq_true.mp hBelow _ hMem)

/- An instance is moved without a fee, the move back fails at first, and succeeds after the lock. -/
def sampleMoves : List SampleOp :=
  sampleMint ++ [asNft 5 0 0 (.transfer 6) true, asNft 6 0 1 (.transfer 5) false, .setTime 100000,
      asNft 6 0 2 (.transfer 5) true]

/- The instance is back where it was, in a later state. -/
theorem authorizations_one_time_sample : ∃ s : ScarcityState sampleConfig,
      RunBelow (ScarcityState.genesis sampleConfig samplePrices noBank) s
        ∧ s.instances.get 0 = some 5
        ∧ s.dispatched = [(0, 2), (0, 1), (0, 0)]
        ∧ s.dispatched.Nodup := by
  have hExecute : (execute ScarcityState.perform (fun s op => keepsBank s op && belowMaximum s)
          (ScarcityState.genesis sampleConfig samplePrices noBank)
          sampleMoves).any
          (fun s =>
            belowMaximum s && decide (s.instances.get 0 = some 5
                ∧ s.dispatched = [(0, 2), (0, 1), (0, 0)]))
        = true := by
    decide +kernel
  have hCheck : ∀ s op s', (keepsBank s op && belowMaximum s) = true →
        ScarcityState.perform s op = .ok s' → AllowedBelow s op s' := by
    intro s op s' hBoth hPerform
    rw [Bool.and_eq_true] at hBoth
    exact ⟨allowed_of_keepsBank s op s' hBoth.1 hPerform, noncesBelow_of_belowMaximum hBoth.2⟩
  rcases exists_run_of_execute hCheck hExecute with ⟨s, hRun, hTest⟩
  rw [Bool.and_eq_true, decide_eq_true_eq] at hTest
  rcases hTest with ⟨hBelow, hHolder, hDispatched⟩
  have hOnce := authorizations_one_time exact_sampleConfig nothing_onHold
      hRun (noncesBelow_of_belowMaximum hBelow)
  exact ⟨s, hRun, hHolder, hDispatched, hOnce.1⟩

end Individuality.Scarcity
