import Individuality.Pgas.Claims

/-
  One-time claims over every run, with windows that meet: a day is accepted up to the second at
  which its records may be cleaned.

  Main declaration: `claims_once`
-/

namespace Individuality.Pgas

open Chain

/-
  In every run with a clock that does not go back, no alias is minted for twice on one day, and each
  entry is one mint of the amount of a claim.  A claim is accepted for a day only during it and its
  grace window, all of which passes the check, and a clean-up that is authorized leaves no claim for
  its day to be accepted, now or later.  A batch mints for all its aliases or changes nothing, and
  what the extension validates succeeds when it is dispatched in that state.
-/
theorem claims_once (T : Config) (hDistinct : DistinctAliases T) (hMint : MintSucceeds T)
    (now : Nat) (rings : T.Rings) (assets : T.Assets) :
    (∀ s, RunUnder perform Timely (genesis now rings assets) s → s.minted.Nodup) ∧
    (∀ (s : Chain T) tx origin day, s.now / secsPerDay ≤ u32Max →
        proofDay tx = some day → s.validate tx = .ok origin → day * secsPerDay ≤ s.now ∧
            s.now < (day + 1) * secsPerDay + pgasDayGraceWindow) ∧
    (∀ second day, second / secsPerDay ≤ u32Max → day * secsPerDay ≤ second →
        second < (day + 1) * secsPerDay + pgasDayGraceWindow → acceptsDay second day = true) ∧
    (∀ (s s' : Chain T) source day first tx origin,
      s.authorizeCleanPgasClaimRecords source day first = .ok () →
        s.now ≤ s'.now → proofDay tx = some day → s'.validate tx ≠ .ok origin) ∧
    (∀ (s : Chain T) aliases day collection slotIndices target,
      s.attempt (.batchClaimAliases aliases day collection)
          (.batchClaimPgas slotIndices target) = s ∨
        (∀ a ∈ aliases.toList, s.claimedGasAliases.containsKey (day, a) = false) ∧
        (s.attempt (.batchClaimAliases aliases day collection)
            (.batchClaimPgas slotIndices target)).minted
          = s.minted ++ aliases.toList.map (fun a => (day, a))) ∧
    (∀ (s : Chain T) tx origin, tx.asPgas.isSome = true →
      s.validate tx = .ok origin → ∃ s', s.dispatch origin tx.call = .ok s') ∧
    ∀ (s s' : Chain T) action, s.perform action = .ok s' →
      Mints s s' ∨ s'.minted = s.minted ∧ ∀ tx, action ≠ .submit tx := by
  refine ⟨?_, ?_, ?_, ?_, ?_, ?_, fun _ _ _ hPerform => minted_of_perform hPerform⟩
  · intro s hRun
    exact (once_of_run hRun).nodup
  · intro s tx origin day hFits hDay hValidate
    exact (acceptsDay_iff hFits).mp (accepts_of_validate hDay hValidate)
  · intro second day hFits hLow hHigh
    exact (acceptsDay_iff hFits).mpr ⟨hLow, hHigh⟩
  · intro s s' source day first tx origin hAuthorize hLater hDay hValidate
    have hOver := authorizeClean_eq_ok hAuthorize
    have hAccepts := graceDay_le_of_acceptsDay (accepts_of_validate hDay hValidate)
    exact absurd (hAccepts.trans_lt hOver) (Nat.not_lt.mpr (graceDay_mono hLater))
  · intro s aliases day collection slotIndices target
    unfold attempt
    cases hDispatch : s.dispatch (.batchClaimAliases aliases day collection)
        (.batchClaimPgas slotIndices target) with
    | error e => exact Or.inl rfl
    | ok s' =>
      rcases claimAll_eq_ok hDispatch with ⟨hMinted, hNew⟩
      exact Or.inr ⟨hNew, hMinted⟩
  · intro s tx origin hInfo hValidate
    exact exists_dispatch_of_validate hDistinct hMint hInfo hValidate

--
-- Claims on Two Days
--

/-
  The hash keeps the bytes of the day and the slot, and the
  alias of a context ends in the name of the member.
-/
def sampleConfig : Config where
  AccountId := Nat
  Assets := Unit
  Rings := Unit
  Proof := UInt8
  networkSuffix := []
  verifyMembership := fun _ _ member _ _ context _ => some (context.set 31 member)
  verifyMembershipMultiContext := fun _ _ member _ _ contexts _ =>
      some ((contexts.map fun context => context.set 31 member)
          |>.dedup)
  blake2_256 := fun bytes => Vector.ofFn fun i => (bytes.drop 22).getD i.val 0
  assetExists := fun _ => true
  createAsset := fun _ => none
  mintInto := fun _ _ _ => some ()
  hashOrder := id
  pgasClaimAmount := 1
  maxClaimsPerPeriodPerPerson := 4
  maxClaimsPerPeriodPerLitePerson := 2
  maxPgasClaimRecordCleanupPerCall := 10
  maxPgasClaimsPerBatch := 4
  claims_le := by decide
  batch_le := by decide

theorem mintSucceeds_sampleConfig : MintSucceeds sampleConfig := by
  intro _ _ _
  exact ⟨(), rfl, rfl⟩

/- The bytes that the sample hash keeps. -/
theorem drop_gasPreimage (day slot : Nat) :
    (gasPreimage sampleConfig day slot).drop 22
      = 0 :: (u32Le day ++ u32Le slot ++ List.replicate 16 0) := by
  have hHead :
      "product/".toUTF8.toList ++ "peopl".toUTF8.toList
          ++ ".".toUTF8.toList ++ sampleConfig.networkSuffix
          ++ "/".toUTF8.toList
        = [112, 114, 111, 100, 117, 99, 116, 47, 112, 101, 111, 112, 108, 46, 47] := by
    decide +kernel
  have hSys :
      "sys/".toUTF8.toList = [115, 121, 115, 47] := by
    decide +kernel
  unfold gasPreimage pgasClaim
  rw [hHead, hSys]
  rfl

theorem distinctAliases_sampleConfig : DistinctAliases sampleConfig where
  aliases := by
    intro _ _ _ _ _ _ _ aliases hVerify _
    rw [← Option.some.inj hVerify]
    exact List.nodup_dedup _
  contexts := by
    intro day slot slot' hSlot hSlot' hSame
    have hByte : ∀ i : Fin 32, ((gasPreimage sampleConfig day slot).drop 22).getD i.val 0
            = ((gasPreimage sampleConfig day slot').drop 22).getD i.val 0 := by
      intro i
      have hAt := congrArg (·[i]) hSame
      simpa [buildGasContext, sampleConfig] using hAt
    simp only [drop_gasPreimage] at hByte
    have hBytes : u32Le slot = u32Le slot' := by
      have h₀ : UInt8.ofNat slot = UInt8.ofNat slot' := hByte 5
      have h₁ : UInt8.ofNat (slot / 256) = UInt8.ofNat (slot' / 256) := hByte 6
      have h₂ : UInt8.ofNat (slot / 65536) = UInt8.ofNat (slot' / 65536) := hByte 7
      have h₃ : UInt8.ofNat (slot / 16777216) = UInt8.ofNat (slot' / 16777216) := hByte 8
      unfold u32Le
      rw [h₀, h₁, h₂, h₃]
    rw [u32Le_injective hSlot hSlot' hBytes]

def sampleInfo (day : Nat) : ProofInfo sampleConfig where
  proof := (7 : UInt8)
  ringIndex := 0
  revision := 0
  collection := .people
  day := day

def sampleClaim (day : Nat) : Transaction sampleConfig where
  origin := .none
  call := .claimPgas 2 (5 : Nat)
  asPgas := some (.claim (sampleInfo day))
  inheritedImplication := []
  further := [.claimPgas 2 (5 : Nat)]

def sampleBatch (day : Nat) : Transaction sampleConfig where
  origin := .none
  call := .batchClaimPgas ⟨[0, 2], by decide⟩ (5 : Nat)
  asPgas := some (.batchClaim (sampleInfo day))
  inheritedImplication := []
  further := []

/- What the member reveals for the slot of the day. -/
def sampleAlias (day slot : Nat) : Alias :=
  (buildGasContext sampleConfig day slot).set 31 7

/-
  A claim in the grace window of the first day, a batch on the
  next, and the clean-up once the window is over.
-/
def sampleActions : List (Action sampleConfig) :=
  [.submit (sampleClaim 0), .submit (sampleBatch 1), .advance 90000,
    .clean .local_ 0 (sampleAlias 0 2) ⟨[], [sampleAlias 0 2]⟩]

/- The step is no step back in time. -/
def timely (s : Chain sampleConfig) (action : Action sampleConfig) : Bool :=
  (s.perform action).toOption.any fun s' => s.now ≤ s'.now

theorem timely_of_check (s : Chain sampleConfig) (action : Action sampleConfig)
    (s' : Chain sampleConfig) (hCheck : timely s action = true)
    (hPerform : s.perform action = .ok s') :
    Timely s action s' := by
  unfold timely at hCheck
  rw [hPerform] at hCheck
  have hLater : s.now ≤ s'.now := of_decide_eq_true hCheck
  exact hLater

theorem claims_once_sample : ∃ s : Chain sampleConfig,
      RunUnder perform Timely (genesis 86500 () ()) s ∧ s.minted.length = 3 ∧ s.minted.Nodup ∧
          s.claimedGasAliases.get (0, sampleAlias 0 2) = none ∧
            ∀ origin, s.validate (sampleClaim 0) ≠ .ok origin := by
  have hExecute : (execute perform timely (genesis 86500 () ()) sampleActions).any (fun s =>
        s.now = 90000 ∧ s.minted.length = 3 ∧ s.claimedGasAliases.get (0, sampleAlias 0 2) = none)
        = true := by
    decide +kernel
  rcases exists_run_of_execute timely_of_check hExecute with ⟨s, hRun, hTest⟩
  rcases of_decide_eq_true hTest with ⟨hNow, hLength, hCleaned⟩
  have hOnce := claims_once sampleConfig distinctAliases_sampleConfig
      mintSucceeds_sampleConfig 86500 () ()
  refine ⟨s, hRun, hLength, hOnce.1 s hRun, hCleaned, ?_⟩
  intro origin hValidate
  have hWindow := hOnce.2.1 s (sampleClaim 0) origin 0 (by rw [hNow]; decide) rfl hValidate
  rw [hNow] at hWindow
  exact absurd hWindow.2 (by decide)

end Individuality.Pgas
