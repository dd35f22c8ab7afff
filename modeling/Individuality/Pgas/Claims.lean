import Individuality.Pgas.Pallet

/-
  Claims are one-time: what was minted for is still recorded, or its day is over for good.  The days
  that are accepted and the days whose records may be cleaned meet exactly.

  Main declaration: `acceptsDay_iff`
-/

namespace Individuality.Pgas

open Except (bind_eq_ok ok_bind pure_eq_ok)
open StorageMap (containsKey_iff get_insert)

--
-- Days
--

theorem graceDay_le_currentDay (now : Nat) : graceDay now ≤ currentDay now := by
  unfold graceDay currentDay secsPerDay pgasDayGraceWindow
  omega

variable {now : Nat}

theorem graceDay_mono {now' : Nat} (hLater : now ≤ now') :
    graceDay now ≤ graceDay now' := by
  unfold graceDay secsPerDay pgasDayGraceWindow
  omega

namespace Chain

/- A day that is accepted is not before the grace day. -/
theorem graceDay_le_of_acceptsDay {day : Nat} (hAccepts : acceptsDay now day = true) :
    graceDay now ≤ day := by
  unfold acceptsDay at hAccepts
  rw [Bool.or_eq_true, decide_eq_true_eq, decide_eq_true_eq] at hAccepts
  rcases hAccepts with rfl | rfl
  · exact graceDay_le_currentDay now
  · exact le_rfl

/- A day is accepted during it and its grace window. -/
theorem acceptsDay_iff {day : Nat} (hFits : now / secsPerDay ≤ u32Max) :
    acceptsDay now day = true ↔ day * secsPerDay ≤ now ∧
        now < (day + 1) * secsPerDay + pgasDayGraceWindow := by
  unfold acceptsDay graceDay currentDay
  rw [Bool.or_eq_true, decide_eq_true_eq, decide_eq_true_eq]
  unfold secsPerDay pgasDayGraceWindow at *
  omega

end Chain

--
-- One Claim
--

variable {T : Config} {s s' : Chain T} {a : Alias} {day : Nat} {target : T.AccountId}
variable {aliases : List Alias} {origin : Origin} {tx : Transaction T}

namespace Chain

/-
  Nothing was minted twice, and what was minted for is still
  recorded or of a day that is no longer accepted.
-/
structure Once (s : Chain T) : Prop where
  nodup : s.minted.Nodup
  kept : ∀ day a, (day, a) ∈ s.minted →
      s.claimedGasAliases.containsKey (day, a) = true ∨ day < graceDay s.now

theorem doClaimPgas_eq_ok (hClaim : s.doClaimPgas a day target = .ok s') :
    s.claimedGasAliases.containsKey (day, a) = false ∧ ∃ assets,
        T.mintInto s.assets target T.pgasClaimAmount = some assets ∧
          s' = { s with
            assets := assets
            claimedGasAliases := s.claimedGasAliases.insert (day, a) ()
            minted := s.minted ++ [(day, a)] } := by
  unfold doClaimPgas at hClaim
  simp only [bind_eq_ok, ensure_eq_ok_iff, okOr_eq_ok_iff, pure_eq_ok] at hClaim
  rcases hClaim with ⟨_, hNew, assets, hMint, hEq⟩
  exact ⟨hNew, assets, hMint, hEq.symm⟩

/- A claim for a day that is accepted is a new one. -/
theorem Once.doClaimPgas (hOnce : s.Once) (hDay : graceDay s.now ≤ day)
    (hClaim : s.doClaimPgas a day target = .ok s') :
    s'.Once ∧ s'.now = s.now := by
  rcases doClaimPgas_eq_ok hClaim with ⟨hNew, assets, _, rfl⟩
  have hFresh : (day, a) ∉ s.minted := by
    intro hMem
    rcases hOnce.kept day a hMem with hKept | hOver
    · rw [hNew] at hKept
      exact Bool.false_ne_true hKept
    · exact absurd hDay (Nat.not_le.mpr hOver)
  refine ⟨⟨?_, ?_⟩, rfl⟩
  · rw [List.nodup_append]
    refine ⟨hOnce.nodup, List.nodup_singleton _, ?_⟩
    intro x hMem y hLast
    rw [List.mem_singleton] at hLast
    rintro rfl
    exact hFresh (hLast ▸ hMem)
  · intro day' a' hMem
    rw [containsKey_iff, get_insert]
    rcases List.mem_append.mp hMem with hOld | hLast
    · by_cases hSame : (day', a') = (day, a)
      · rw [if_pos hSame]
        exact Or.inl ⟨(), rfl⟩
      · rw [if_neg hSame, ← containsKey_iff]
        exact hOnce.kept day' a' hOld
    · rw [if_pos (List.mem_singleton.mp hLast)]
      exact Or.inl ⟨(), rfl⟩

theorem Once.claimAll (hOnce : s.Once) (hDay : graceDay s.now ≤ day)
    (hClaim : s.claimAll aliases day target = .ok s') :
    s'.Once ∧ s'.now = s.now := by
  have hKept := List.foldlM_invariant (fun s₁ : Chain T => s₁.Once ∧ s₁.now = s.now) hClaim
      (fun s₁ a s₂ _ hStep hHold => by
        have hDay₁ : graceDay s₁.now ≤ day := by
          rw [hHold.2]
          exact hDay
        rcases hHold.1.doClaimPgas hDay₁ hStep with ⟨hOnce₂, hNow⟩
        exact ⟨hOnce₂, hNow.trans hHold.2⟩)
      ⟨hOnce, rfl⟩
  exact hKept

/- The day that an origin of a claim was verified for. -/
def claimDay : Origin → Option Nat
  | .claimAlias _ day _ => some day
  | .batchClaimAliases _ day _ => some day
  | _ => none

/- An origin claims for a day that is still accepted. -/
def OriginFits (now : Nat) (origin : Origin) : Prop :=
  ∀ day, claimDay origin = some day → graceDay now ≤ day

theorem Once.attempt (hOnce : s.Once) (hFits : OriginFits s.now origin) (call : Call T) :
    (s.attempt origin call).Once ∧ (s.attempt origin call).now = s.now := by
  unfold Chain.attempt
  cases hDispatch : s.dispatch origin call with
  | error e => exact ⟨hOnce, rfl⟩
  | ok s' =>
    change s'.Once ∧ s'.now = s.now
    unfold dispatch at hDispatch
    split at hDispatch
    · exact hOnce.doClaimPgas (hFits _ rfl) hDispatch
    · exact hOnce.claimAll (hFits _ rfl) hDispatch
    · cases hDispatch
      exact ⟨hOnce, rfl⟩
    · nomatch hDispatch

/- An origin used for any number of calls of a transaction. -/
theorem Once.attempts (hOnce : s.Once) (hFits : OriginFits s.now origin) (calls : List (Call T)) :
    (calls.foldl (fun s call => s.attempt origin call) s).Once ∧
      (calls.foldl (fun s call => s.attempt origin call) s).now = s.now := by
  induction calls generalizing s with
  | nil => exact ⟨hOnce, rfl⟩
  | cons call calls ih =>
    rcases hOnce.attempt hFits call with ⟨hOnce', hNow⟩
    have hFits' : OriginFits (s.attempt origin call).now origin := by
      rw [hNow]
      exact hFits
    rcases ih hOnce' hFits' with ⟨hRest, hLast⟩
    exact ⟨hRest, hLast.trans hNow⟩

--
-- What the Extension Validates
--

/- A single claim that was validated. -/
structure ClaimValid (s : Chain T) (tx : Transaction T) (info : ProofInfo T)
    (a : Alias) : Prop where
  call : ∃ slotIndex target, tx.call = .claimPgas slotIndex target
  exists_ : T.assetExists s.assets = true
  accepts : acceptsDay s.now info.day = true
  fresh : s.claimedGasAliases.containsKey (info.day, a) = false

theorem claimValid_of_validateClaim {info : ProofInfo T}
    (hValidate : s.validateClaim tx info = .ok origin) :
    ∃ a, origin = .claimAlias a info.day info.collection ∧ ClaimValid s tx info a := by
  unfold validateClaim at hValidate
  split at hValidate
  · rename_i slotIndex target hCall
    simp only [bind_eq_ok, ensure_eq_ok_iff, okOr_eq_ok_iff, pure_eq_ok] at hValidate
    rcases hValidate with ⟨_, _, _, hExists, _, hAccepts, a, _, _, hFresh, rfl⟩
    exact ⟨a, rfl, ⟨slotIndex, target, hCall⟩, hExists, hAccepts, hFresh⟩
  · cases hValidate

theorem checkSlots_eq_ok {maxSlot : Nat} {before rest : List Nat}
    (hCheck : checkSlots maxSlot before rest = .ok ()) :
    rest.Nodup ∧ ∀ slot ∈ rest, slot < maxSlot ∧ slot ∉ before := by
  induction rest generalizing before with
  | nil =>
    refine ⟨List.nodup_nil, ?_⟩
    intro slot hMem
    nomatch hMem
  | cons slotIndex rest ih =>
    unfold checkSlots at hCheck
    simp only [bind_eq_ok, ensure_eq_ok_iff] at hCheck
    rcases hCheck with ⟨_, hLt, _, hNew, hRest⟩
    rcases ih hRest with ⟨hNodup, hAll⟩
    refine ⟨?_, ?_⟩
    · rw [List.nodup_cons]
      refine ⟨?_, hNodup⟩
      intro hMem
      exact (hAll slotIndex hMem).2 (List.mem_append_right _ (List.mem_singleton_self _))
    · intro slot hMem
      rcases List.mem_cons.mp hMem with rfl | hLater
      · exact ⟨hLt, hNew⟩
      · exact ⟨(hAll slot hLater).1, fun hBefore =>
            (hAll slot hLater).2 (List.mem_append_left _ hBefore)⟩

/- The aliases of a batch, none of them claimed before. -/
theorem foldlM_pushAlias {proven : List (Alias × Nat)}
    {start aliases : BoundedVec Alias maxPgasBatchClaims}
    (hPush : proven.foldlM (s.pushAlias day) start = .ok aliases) :
    aliases.toList = start.toList ++ proven.map Prod.fst ∧ ∀ a ∈ proven.map Prod.fst,
        s.claimedGasAliases.containsKey (day, a) = false := by
  induction proven generalizing start with
  | nil =>
    cases hPush
    refine ⟨(List.append_nil _).symm, ?_⟩
    intro a hMem
    nomatch hMem
  | cons p proven ih =>
    rw [List.foldlM_cons, bind_eq_ok] at hPush
    rcases hPush with ⟨next, hFirst, hRest⟩
    unfold pushAlias at hFirst
    simp only [bind_eq_ok, ensure_eq_ok_iff, okOr_eq_ok_iff] at hFirst
    rcases hFirst with ⟨_, hNew, hNext⟩
    rcases ih hRest with ⟨hList, hAll⟩
    have hNextList : next.toList = start.toList ++ [p.1] := by
      unfold BoundedVec.tryPush BoundedVec.ofList? at hNext
      split_ifs at hNext
      rw [← Option.some.inj hNext]
    refine ⟨?_, ?_⟩
    · rw [hList, hNextList, List.append_assoc]
      rfl
    · intro a hMem
      rcases List.mem_cons.mp hMem with rfl | hLater
      · exact hNew
      · exact hAll a hLater

/- A list that is zipped is only cut at its end. -/
theorem map_fst_zip_sublist {α β : Type} :
    ∀ (xs : List α) (ys : List β), ((xs.zip ys).map Prod.fst).Sublist xs
  | [], _ => List.Sublist.refl []
  | x :: xs, [] => List.nil_sublist (x :: xs)
  | x :: xs, _ :: ys =>
    (map_fst_zip_sublist xs ys).cons_cons x

/-
  Distinct contexts give one member distinct aliases, and the
  contexts of a day's slots do not collide.
-/
structure DistinctAliases (T : Config) : Prop where
  aliases : ∀ rings identifier proof ringIndex revision contexts message
        aliases,
      T.verifyMembershipMultiContext rings identifier proof
          ringIndex revision contexts message = some aliases →
        contexts.Nodup → aliases.Nodup
  contexts : ∀ day slot slot', slot ≤ u32Max → slot' ≤ u32Max →
      buildGasContext T day slot = buildGasContext T day slot' →
        gasPreimage T day slot = gasPreimage T day slot'

/- A batch claim that was validated. -/
structure BatchValid (s : Chain T) (tx : Transaction T) (info : ProofInfo T)
    (aliases : List Alias) : Prop where
  call : ∃ slotIndices target, tx.call = .batchClaimPgas slotIndices target
  exists_ : T.assetExists s.assets = true
  accepts : acceptsDay s.now info.day = true
  nodup : DistinctAliases T → aliases.Nodup
  fresh : ∀ a ∈ aliases, s.claimedGasAliases.containsKey (info.day, a) = false

theorem batchValid_of_validateBatchClaim {info : ProofInfo T}
    (hValidate : s.validateBatchClaim tx info = .ok origin) :
    ∃ aliases, origin = .batchClaimAliases aliases info.day info.collection ∧
        BatchValid s tx info aliases.toList := by
  unfold validateBatchClaim at hValidate
  split at hValidate
  · rename_i slotIndices target hCall
    simp only [bind_eq_ok, ensure_eq_ok_iff, okOr_eq_ok_iff, pure_eq_ok] at hValidate
    rcases hValidate with ⟨_, _, _, hSlots, _, hExists, _, hAccepts, cas, hVerify,
        aliases, hPush, rfl⟩
    rcases checkSlots_eq_ok hSlots with ⟨hNodup, hBounds⟩
    rcases foldlM_pushAlias hPush with ⟨hList, hFresh⟩
    have hList' : aliases.toList = (cas.zip slotIndices.toList).map Prod.fst := hList
    refine ⟨aliases, rfl, ⟨slotIndices, target, hCall⟩, hExists, hAccepts, ?_, ?_⟩
    · intro hDistinct
      have hContexts : (slotIndices.toList.map (buildGasContext T info.day)).Nodup := by
        refine List.Nodup.map_on ?_ hNodup
        intro slot hMem slot' hMem' hSame
        have hLe := maxClaimsFor_le T info.collection
        have hSlot := (hBounds slot hMem).1.le.trans hLe
        have hSlot' := (hBounds slot' hMem').1.le.trans hLe
        exact gasPreimage_injective T hSlot hSlot'
            (hDistinct.contexts info.day slot slot' hSlot hSlot' hSame)
      have hCas := hDistinct.aliases _ _ _ _ _ _ _ _ hVerify hContexts
      rw [hList']
      exact hCas.sublist (map_fst_zip_sublist _ _)
    · rw [hList']
      exact hFresh
  · cases hValidate

/- The day of the proof that a transaction carries. -/
def proofDay (tx : Transaction T) : Option Nat :=
  tx.asPgas.map (·.info.day)

/- A validated claim is for a day that is accepted. -/
theorem accepts_of_validate (hDay : proofDay tx = some day)
    (hValidate : s.validate tx = .ok origin) :
    acceptsDay s.now day = true := by
  unfold proofDay at hDay
  unfold validate at hValidate
  cases hInfo : tx.asPgas with
  | none =>
    rw [hInfo] at hDay
    nomatch hDay
  | some asPgas =>
    rw [hInfo, Option.map_some, Option.some.injEq] at hDay
    rw [hInfo] at hValidate
    dsimp only at hValidate
    split at hValidate
    · cases asPgas with
      | claim info =>
        rcases claimValid_of_validateClaim hValidate with ⟨_, _, hValid⟩
        rw [← hDay]
        exact hValid.accepts
      | batchClaim info =>
        rcases batchValid_of_validateBatchClaim hValidate with ⟨_, _, hValid⟩
        rw [← hDay]
        exact hValid.accepts
    · nomatch hValidate

theorem originFits_of_validate (hValidate : s.validate tx = .ok origin) :
    OriginFits s.now origin := by
  unfold validate at hValidate
  intro day hDay
  cases hInfo : tx.asPgas with
  | none =>
    rw [hInfo] at hValidate
    dsimp only at hValidate
    split at hValidate
    · cases hValidate
      nomatch hDay
    · cases hValidate
      nomatch hDay
  | some asPgas =>
    rw [hInfo] at hValidate
    dsimp only at hValidate
    split at hValidate
    · cases asPgas with
      | claim info =>
        rcases claimValid_of_validateClaim hValidate with ⟨_, rfl, hValid⟩
        cases hDay
        exact graceDay_le_of_acceptsDay hValid.accepts
      | batchClaim info =>
        rcases batchValid_of_validateBatchClaim hValidate with ⟨_, rfl, hValid⟩
        cases hDay
        exact graceDay_le_of_acceptsDay hValid.accepts
    · nomatch hValidate

--
-- Runs
--

/- The clock does not go back. -/
def Timely (s : Chain T) (_ : Action T) (s' : Chain T) : Prop :=
  s.now ≤ s'.now

/- Records go only for a day that is over for good. -/
theorem Once.clean {dayIndex : Nat} {first : Alias} {backend : DoubleMap.Backend Alias}
    (hOnce : s.Once) (hOver : dayIndex < graceDay s.now)
    (hClean : s.cleanPgasClaimRecords dayIndex first backend = .ok s') :
    s'.Once := by
  unfold cleanPgasClaimRecords at hClean
  simp only [bind_eq_ok, pure_eq_ok] at hClean
  rcases hClean with ⟨_, _, _, _, rfl⟩
  refine ⟨hOnce.nodup, ?_⟩
  intro day a hMem
  by_cases hSame : day = dayIndex
  · rw [hSame]
    exact Or.inr hOver
  · rcases hOnce.kept day a hMem with hKept | hPast
    · left
      rw [containsKey_iff] at hKept ⊢
      dsimp only
      rw [DoubleMap.get_clearPrefix_of_ne hSame]
      exact hKept
    · exact Or.inr hPast

theorem authorizeClean_eq_ok {source : TransactionSource} {dayIndex : Nat} {first : Alias}
    (hAuthorize : s.authorizeCleanPgasClaimRecords source dayIndex first = .ok ()) :
    dayIndex < graceDay s.now := by
  unfold authorizeCleanPgasClaimRecords at hAuthorize
  simp only [bind_eq_ok, ensure_eq_ok_iff] at hAuthorize
  rcases hAuthorize with ⟨_, _, _, hOver, _⟩
  exact hOver

theorem Once.perform {action : Action T} (hOnce : s.Once) (hLater : s.now ≤ s'.now)
    (hPerform : s.perform action = .ok s') :
    s'.Once := by
  cases action with
  | advance now =>
    cases hPerform
    refine ⟨hOnce.nodup, ?_⟩
    intro day a hMem
    rcases hOnce.kept day a hMem with hKept | hOver
    · exact Or.inl hKept
    · exact Or.inr (lt_of_lt_of_le hOver (graceDay_mono hLater))
  | changeRings rings =>
    cases hPerform
    exact ⟨hOnce.nodup, hOnce.kept⟩
  | changeAssets assets =>
    cases hPerform
    exact ⟨hOnce.nodup, hOnce.kept⟩
  | createAsset =>
    change s.createPgasAsset = _ at hPerform
    unfold createPgasAsset at hPerform
    simp only [bind_eq_ok, pure_eq_ok] at hPerform
    rcases hPerform with ⟨_, _, assets, _, rfl⟩
    exact ⟨hOnce.nodup, hOnce.kept⟩
  | submit tx =>
    change s.applyTransaction tx = _ at hPerform
    unfold applyTransaction at hPerform
    simp only [bind_eq_ok, pure_eq_ok] at hPerform
    rcases hPerform with ⟨origin, hValidate, rfl⟩
    have hFits := originFits_of_validate hValidate
    exact (hOnce.attempts hFits (tx.call :: tx.further)).1
  | clean source dayIndex first backend =>
    unfold Chain.perform at hPerform
    simp only [bind_eq_ok] at hPerform
    rcases hPerform with ⟨_, hAuthorize, hClean⟩
    exact hOnce.clean (authorizeClean_eq_ok hAuthorize) hClean

theorem once_of_run {rings : T.Rings} {assets : T.Assets}
    (hRun : RunUnder perform Timely (genesis now rings assets) s) :
    s.Once := by
  refine hRun.invariant Once (fun _ _ _ hLater hPerform hOnce => hOnce.perform hLater hPerform)
      ⟨List.nodup_nil, ?_⟩
  intro day a hMem
  nomatch hMem

--
-- Dispatching What Was Validated
--

/- The asset, once there, takes every mint of a claim. -/
def MintSucceeds (T : Config) : Prop :=
  ∀ assets target, T.assetExists assets = true → ∃ assets',
      T.mintInto assets target T.pgasClaimAmount = some assets' ∧ T.assetExists assets' = true

theorem exists_doClaimPgas (hMint : MintSucceeds T) (hExists : T.assetExists s.assets = true)
    (hFresh : s.claimedGasAliases.containsKey (day, a) = false) (target : T.AccountId) :
    ∃ s', s.doClaimPgas a day target = .ok s' ∧ T.assetExists s'.assets = true := by
  rcases hMint s.assets target hExists with ⟨assets, hAssets, hStill⟩
  have hClaim : s.doClaimPgas a day target
        = .ok { s with
            assets := assets
            claimedGasAliases := s.claimedGasAliases.insert (day, a) ()
            minted := s.minted ++ [(day, a)] } := by
    unfold doClaimPgas
    rw [ensure_of hFresh, ok_bind, hAssets, okOr_some, ok_bind]
    rfl
  exact ⟨_, hClaim, hStill⟩

/- Distinct aliases that are all new are all claimed. -/
theorem exists_claimAll (hMint : MintSucceeds T) (hExists : T.assetExists s.assets = true)
    (hNodup : aliases.Nodup)
    (hFresh : ∀ a ∈ aliases, s.claimedGasAliases.containsKey (day, a) = false)
    (target : T.AccountId) :
    ∃ s', s.claimAll aliases day target = .ok s' := by
  induction aliases generalizing s with
  | nil => exact ⟨s, rfl⟩
  | cons a aliases ih =>
    rw [List.nodup_cons] at hNodup
    rcases exists_doClaimPgas hMint hExists (hFresh a List.mem_cons_self) target with
      ⟨s₁, hFirst, hExists₁⟩
    have hFresh₁ : ∀ b ∈ aliases, s₁.claimedGasAliases.containsKey (day, b) = false := by
      intro b hMem
      rcases doClaimPgas_eq_ok hFirst with ⟨_, _, _, rfl⟩
      have hOld := hFresh b (List.mem_cons_of_mem a hMem)
      rw [StorageMap.containsKey_eq_false_iff] at hOld ⊢
      dsimp only
      rw [get_insert, if_neg]
      · exact hOld
      · intro hSame
        have hAlias : b = a := (Prod.ext_iff.mp hSame).2
        rw [hAlias] at hMem
        exact hNodup.1 hMem
    rcases ih hExists₁ hNodup.2 hFresh₁ with ⟨s', hRest⟩
    refine ⟨s', ?_⟩
    unfold claimAll
    rw [List.foldlM_cons, hFirst, ok_bind]
    exact hRest

theorem exists_dispatch_of_validate (hDistinct : DistinctAliases T) (hMint : MintSucceeds T)
    (hInfo : tx.asPgas.isSome = true) (hValidate : s.validate tx = .ok origin) :
    ∃ s', s.dispatch origin tx.call = .ok s' := by
  rcases Option.isSome_iff_exists.mp hInfo with ⟨asPgas, hSome⟩
  unfold validate at hValidate
  rw [hSome] at hValidate
  dsimp only at hValidate
  split at hValidate
  · cases asPgas with
    | claim info =>
      rcases claimValid_of_validateClaim hValidate with ⟨a, rfl, hValid⟩
      rcases hValid.call with ⟨slotIndex, target, hCall⟩
      rcases exists_doClaimPgas hMint hValid.exists_ hValid.fresh target with ⟨s', hClaim, _⟩
      rw [hCall]
      exact ⟨s', hClaim⟩
    | batchClaim info =>
      rcases batchValid_of_validateBatchClaim hValidate with ⟨aliases, rfl, hValid⟩
      rcases hValid.call with ⟨slotIndices, target, hCall⟩
      rw [hCall]
      exact exists_claimAll hMint hValid.exists_ (hValid.nodup hDistinct) hValid.fresh target
  · nomatch hValidate

/- All of a batch is minted for, or none of it. -/
theorem claimAll_eq_ok (hClaim : s.claimAll aliases day target = .ok s') :
    s'.minted = s.minted ++ aliases.map (fun a => (day, a)) ∧
      ∀ a ∈ aliases, s.claimedGasAliases.containsKey (day, a) = false := by
  induction aliases generalizing s with
  | nil =>
    cases hClaim
    refine ⟨(List.append_nil _).symm, ?_⟩
    intro a hMem
    nomatch hMem
  | cons a aliases ih =>
    unfold claimAll at hClaim
    rw [List.foldlM_cons, bind_eq_ok] at hClaim
    rcases hClaim with ⟨s₁, hFirst, hRest⟩
    rcases ih hRest with ⟨hMinted, hNew⟩
    rcases doClaimPgas_eq_ok hFirst with ⟨hFresh, assets, _, rfl⟩
    refine ⟨?_, ?_⟩
    · rw [hMinted, List.append_assoc]
      rfl
    · intro b hMem
      rcases List.mem_cons.mp hMem with rfl | hLater
      · exact hFresh
      · have hAfter := hNew b hLater
        rw [StorageMap.containsKey_eq_false_iff] at hAfter ⊢
        dsimp only at hAfter
        rw [get_insert] at hAfter
        split_ifs at hAfter
        exact hAfter

--
-- What Is Minted
--

/- The assets after one mint of the amount of a claim for each entry, in this order. -/
inductive MintedFor (T : Config) (assets : T.Assets) :
    List (Nat × Alias) → T.Assets → Prop
  | nil : MintedFor T assets [] assets
  | snoc {entries : List (Nat × Alias)} {assets₁ assets₂ : T.Assets}
      (hBefore : MintedFor T assets entries assets₁) (entry : Nat × Alias) (target : T.AccountId)
      (hMint : T.mintInto assets₁ target T.pgasClaimAmount = some assets₂) :
      MintedFor T assets (entries ++ [entry]) assets₂

/- From one state to the other every new entry was minted for. -/
def Mints (s s' : Chain T) : Prop :=
  ∃ entries, s'.minted = s.minted ++ entries ∧ MintedFor T s.assets entries s'.assets

theorem Mints.refl (s : Chain T) : Mints s s :=
  ⟨[], (List.append_nil _).symm, MintedFor.nil⟩

theorem Mints.doClaimPgas {s₁ : Chain T} (hMints : Mints s s₁)
    (hClaim : s₁.doClaimPgas a day target = .ok s') :
    Mints s s' := by
  rcases hMints with ⟨entries, hEntries, hMinted⟩
  rcases doClaimPgas_eq_ok hClaim with ⟨_, assets, hMint, rfl⟩
  refine ⟨entries ++ [(day, a)], ?_, hMinted.snoc (day, a) target hMint⟩
  dsimp only
  rw [hEntries, List.append_assoc]

theorem Mints.attempt {s₁ : Chain T} (hMints : Mints s s₁) (call : Call T) :
    Mints s (s₁.attempt origin call) := by
  unfold Chain.attempt
  cases hDispatch : s₁.dispatch origin call with
  | error e => exact hMints
  | ok s' =>
    change Mints s s'
    unfold dispatch at hDispatch
    split at hDispatch
    · exact hMints.doClaimPgas hDispatch
    · exact List.foldlM_invariant (Mints s) hDispatch
        (fun _ _ _ _ hStep hBefore => hBefore.doClaimPgas hStep) hMints
    · cases hDispatch
      exact hMints
    · nomatch hDispatch

/- Transactions mint for what they add, and nothing else does. -/
theorem minted_of_perform {action : Action T} (hPerform : s.perform action = .ok s') :
    Mints s s' ∨ s'.minted = s.minted ∧ ∀ tx, action ≠ .submit tx := by
  cases action with
  | submit tx =>
    left
    change s.applyTransaction tx = _ at hPerform
    unfold applyTransaction at hPerform
    simp only [bind_eq_ok, pure_eq_ok] at hPerform
    rcases hPerform with ⟨origin, _, rfl⟩
    have hFirst : Mints s (s.attempt origin tx.call) := (Mints.refl s).attempt tx.call
    revert hFirst
    generalize s.attempt origin tx.call = s₁
    intro hFirst
    induction tx.further generalizing s₁ with
    | nil => exact hFirst
    | cons call further ih => exact ih _ (hFirst.attempt call)
  | createAsset =>
    change s.createPgasAsset = _ at hPerform
    unfold createPgasAsset at hPerform
    simp only [bind_eq_ok, pure_eq_ok] at hPerform
    rcases hPerform with ⟨_, _, assets, _, rfl⟩
    exact Or.inr ⟨rfl, by simp⟩
  | clean source dayIndex first backend =>
    unfold Chain.perform cleanPgasClaimRecords at hPerform
    simp only [bind_eq_ok, pure_eq_ok] at hPerform
    rcases hPerform with ⟨_, _, _, _, _, _, rfl⟩
    exact Or.inr ⟨rfl, by simp⟩
  | _ =>
    cases hPerform
    exact Or.inr ⟨rfl, by simp⟩

end Chain

end Individuality.Pgas
