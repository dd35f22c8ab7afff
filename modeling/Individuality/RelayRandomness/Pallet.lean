import Individuality.Airdrop.Pallet
import Individuality.Base.Runs

/-
  Randomness of the relay chain, stored with the moment by which it was known, and what is not known
  of it when a commitment is made at an earlier moment.

  Main declaration: `onRelayStateProof`
-/

namespace Individuality.RelayRandomness

open Airdrop (Bytes32)

structure Config where
  relayParentOffset : Nat
  blake2_256 : List UInt8 → Bytes32

structure RandomnessEntry where
  randomness : Bytes32
  moment : Nat
  deriving DecidableEq

structure RandomnessValues where
  block : Option RandomnessEntry
  oneEpochAgo : Option RandomnessEntry
  deriving DecidableEq

/-
  What is read from the state of a relay parent.  An entry that does not decode aborts the block.
-/
structure RelayStateProof where
  currentBlockRandomness : Except Unit (Option (Option Bytes32))
  oneEpochAgoRandomness : Except Unit (Option Bytes32)

--
-- Values
--

def refreshEntry (entry : Option RandomnessEntry) (observed : Option Bytes32)
    (moment : Nat) : Option RandomnessEntry :=
  match observed with
  | none => entry
  | some randomness =>
    if entry.all (fun e => e.randomness ≠ randomness) then
      some ⟨randomness, moment⟩
    else entry

def onRelayStateProof (C : Config) (values : RandomnessValues) (currentBlockNumber : Nat)
    (proof : RelayStateProof) : Except Unit RandomnessValues := do
  let vrf := (← proof.currentBlockRandomness).join
  let oneEpochAgo ← proof.oneEpochAgoRandomness
  let vrfMoment := currentBlockNumber - C.relayParentOffset
  let epochMoment := vrfMoment - 1
  return ⟨refreshEntry values.block vrf vrfMoment,
    refreshEntry values.oneEpochAgo oneEpochAgo epochMoment⟩

def bytesOf (b : Bytes32) : List UInt8 :=
  (List.range 32).map fun i => UInt8.ofNat (b.toNat / 256 ^ (31 - i))

def mixSubject (C : Config) (subject : List UInt8) :
    Option RandomnessEntry → Bytes32 × Nat
  | none => (C.blake2_256 subject, 0)
  | some entry => (C.blake2_256 (subject ++ bytesOf entry.randomness), entry.moment)

def momentRandomness (entry : Option RandomnessEntry) : Option (Bytes32 × Nat) :=
  entry.map fun e => (e.randomness, e.moment)

def RelayBlockRandomness.randomness (values : RandomnessValues) :
    Option (Bytes32 × Nat) :=
  momentRandomness values.block

def RelayBlockRandomness.random (C : Config) (values : RandomnessValues) (subject : List UInt8) :
    Bytes32 × Nat :=
  mixSubject C subject values.block

def RelayOneEpochAgoRandomness.randomness (values : RandomnessValues) :
    Option (Bytes32 × Nat) :=
  momentRandomness values.oneEpochAgo

def RelayOneEpochAgoRandomness.random
    (C : Config) (values : RandomnessValues) (subject : List UInt8) :
    Bytes32 × Nat :=
  mixSubject C subject values.oneEpochAgo

/- Either the value was there already, or it gets the moment. -/
theorem refreshEntry_cases (entry : Option RandomnessEntry) (observed : Option Bytes32)
    (moment : Nat) :
    (refreshEntry entry observed moment = entry
        ∧ ∀ v, observed = some v → ∃ e, entry = some e ∧ e.randomness = v)
      ∨ ∃ v, observed = some v ∧ refreshEntry entry observed moment = some ⟨v, moment⟩
        ∧ ∀ e, entry = some e → e.randomness ≠ v := by
  cases observed with
  | none => exact .inl ⟨rfl, fun v hSome => by cases hSome⟩
  | some v =>
    cases entry with
    | none => exact .inr ⟨v, rfl, rfl, fun e hSome => by cases hSome⟩
    | some e =>
      by_cases hSame : e.randomness = v
      · refine .inl ⟨?_, fun v' hSome => ⟨e, rfl, ?_⟩⟩
        · simp [refreshEntry, hSame]
        · rw [hSame]
          exact Option.some.inj hSome
      · refine .inr ⟨v, rfl, ?_, fun e' hSome => ?_⟩
        · simp [refreshEntry, hSame]
        · rw [← Option.some.inj hSome]
          exact hSame

variable {moment : Nat} {subject : List UInt8}

/- A result past a moment is mixed from an entry past it. -/
theorem mixSubject_of_lt {C : Config} {entry : Option RandomnessEntry}
    (hLt : moment < (mixSubject C subject entry).2) :
    ∃ e, entry = some e ∧ moment < e.moment ∧ (mixSubject C subject entry).1
        = C.blake2_256 (subject ++ bytesOf e.randomness) := by
  cases entry with
  | none => exact absurd hLt (Nat.not_lt_zero _)
  | some e => exact ⟨e, rfl, hLt, rfl⟩

--
-- Blocks and Commitments
--

/-
  The parachain with the relay parent of its last block.
  `commitments` is a ghost: the moments that were recorded.
-/
structure Parachain where
  values : RandomnessValues
  relayParent : Option Nat
  commitments : List Nat

/- Calls run after the inherent of their block. -/
inductive Op where
  | block (relayParent : Nat)
  | commit

variable (C : Config) (relay : Nat → RelayStateProof)

/- The block `n` of the relay chain produced this output. -/
def Produced (n : Nat) (v : Bytes32) : Prop :=
  (relay n).currentBlockRandomness = .ok (some (some v))

/- The block `n` of the relay chain has this epoch value. -/
def Served (n : Nat) (v : Bytes32) : Prop :=
  (relay n).oneEpochAgoRandomness = .ok (some v)

namespace Parachain

def genesis : Parachain := ⟨⟨none, none⟩, none, []⟩

def step (s : Parachain) : Op → Except Unit Parachain
  | .block relayParent => do
    let values ← onRelayStateProof C s.values relayParent (relay relayParent)
    return { s with values := values, relayParent := some relayParent }
  | .commit => do
    let currentMoment ← okOr s.relayParent ()
    return { s with commitments := currentMoment :: s.commitments }

/- Blocks follow the relay chain without a gap. -/
def steady (s : Parachain) : Op → Bool
  | .block n => s.relayParent.all fun q => n = q ∨ n = q + 1
  | .commit => true

abbrev Steady (s : Parachain) (op : Op) (_ : Parachain) : Prop := s.steady op = true

variable {C relay} {s s' : Parachain}

theorem step_cases {op : Op} (hStep : s.step C relay op = .ok s') :
    (∃ n vrf oneEpochAgo, op = .block n ∧ (relay n).currentBlockRandomness = .ok vrf
        ∧ (relay n).oneEpochAgoRandomness = .ok oneEpochAgo
        ∧ s' = ⟨⟨refreshEntry s.values.block vrf.join (n - C.relayParentOffset),
            refreshEntry s.values.oneEpochAgo oneEpochAgo (n - C.relayParentOffset - 1)⟩,
          some n, s.commitments⟩)
      ∨ ∃ q, op = .commit ∧ s.relayParent = some q
        ∧ s' = { s with commitments := q :: s.commitments } := by
  cases op with
  | block n =>
    simp only [step, onRelayStateProof, Except.bind_eq_ok, Except.pure_eq_ok] at hStep
    rcases hStep with ⟨_, ⟨vrf, hVrf, oneEpochAgo, hEpoch, rfl⟩, rfl⟩
    exact .inl ⟨n, vrf, oneEpochAgo, rfl, hVrf, hEpoch, rfl⟩
  | commit =>
    simp only [step, Except.bind_eq_ok, okOr_eq_ok_iff, Except.pure_eq_ok] at hStep
    rcases hStep with ⟨q, hParent, rfl⟩
    exact .inr ⟨q, rfl, hParent, rfl⟩

--
-- Block Randomness
--

/- The stored output is that of the relay parent it names. -/
def BlockSound (C : Config) (relay : Nat → RelayStateProof) (s : Parachain) : Prop :=
  ∀ e, s.values.block = some e →
    ∃ n, Produced relay n e.randomness ∧ e.moment = n - C.relayParentOffset

theorem BlockSound.step {op : Op} (hSound : BlockSound C relay s)
    (hStep : s.step C relay op = .ok s') :
    BlockSound C relay s' := by
  rcases step_cases hStep with ⟨n, vrf, _, _, hVrf, _, rfl⟩ | ⟨q, _, _, rfl⟩
  · intro e hEntry
    rcases refreshEntry_cases s.values.block vrf.join (n - C.relayParentOffset)
      with ⟨hSame, _⟩ | ⟨v, hObserved, hNew, _⟩
    · exact hSound e (hSame ▸ hEntry)
    · rw [hNew] at hEntry
      cases hEntry
      refine ⟨n, ?_, rfl⟩
      rw [Produced, hVrf, Option.join_eq_some_iff.mp hObserved]
  · exact hSound

/- Entropy that is fresh comes from blocks past the moment. -/
theorem BlockSound.fresh {T : Airdrop.Config} {chain : Airdrop.Chain T} {v : Bytes32}
    (hSound : BlockSound C relay s)
    (hRandomness : chain.randomness = RelayBlockRandomness.randomness s.values)
    (hFresh : Airdrop.World.freshEntropy chain moment = some v) :
    ∃ n, Produced relay n v ∧ moment + C.relayParentOffset < n := by
  rw [Airdrop.World.freshEntropy, hRandomness] at hFresh
  cases hBlock : s.values.block with
  | none => simp [RelayBlockRandomness.randomness, momentRandomness, hBlock] at hFresh
  | some e =>
    simp only [RelayBlockRandomness.randomness, momentRandomness, hBlock,
      Option.map_some, Option.ite_none_right_eq_some, Option.some.injEq] at hFresh
    rcases hFresh with ⟨hLater, rfl⟩
    rcases hSound e hBlock with ⟨n, hMade, hMoment⟩
    exact ⟨n, hMade, by omega⟩

/- A parachain with offset two.  Epochs of the relay chain start at its blocks 14 and 18. -/
def sampleRelayConfig : Config where
  relayParentOffset := 2
  blake2_256 := fun data => BitVec.ofNat 256 data.length

def sampleRelay (n : Nat) : RelayStateProof where
  currentBlockRandomness := .ok (some (if n = 26 then some 6 else none))
  oneEpochAgoRandomness := .ok (some (if n < 14 then 4 else if n < 18 then 5 else 6))

--
-- Epoch Randomness
--

/-
  The state after blocks from the relay parent `first` up to `q`: the value in storage was not
  served just before the relay parent that its moment is counted from.
-/
structure EpochSound (C : Config) (relay : Nat → RelayStateProof) (first q : Nat)
    (s : Parachain) : Prop where
  parent : s.relayParent = some q
  first_le : first ≤ q
  committed : ∀ moment ∈ s.commitments, first ≤ moment
  stored : ∀ e, s.values.oneEpochAgo = some e →
    ∃ n, Served relay n e.randomness ∧ e.moment = n - C.relayParentOffset - 1
      ∧ (first < n → ¬ Served relay (n - 1) e.randomness)
  current : ∀ v, Served relay q v →
    ∃ e, s.values.oneEpochAgo = some e ∧ e.randomness = v

theorem EpochSound.step {op : Op} {first q : Nat} (hSound : EpochSound C relay first q s)
    (hSteady : Steady s op s') (hStep : s.step C relay op = .ok s') :
    ∃ q', EpochSound C relay first q' s' := by
  rcases step_cases hStep with ⟨n, _, observed, rfl, _, hRead, rfl⟩ | ⟨q', _, hParent, rfl⟩
  · have hNext : n = q ∨ n = q + 1 := by
      simpa [Steady, steady, hSound.parent] using hSteady
    have hFirst := hSound.first_le
    have hServed : ∀ v, Served relay n v → observed = some v := by
      intro v hV
      exact Except.ok.inj (hRead.symm.trans hV)
    refine ⟨n, rfl, by omega, hSound.committed, ?_, ?_⟩
    · rcases refreshEntry_cases s.values.oneEpochAgo observed
          (n - C.relayParentOffset - 1) with ⟨hSame, _⟩ | ⟨v, hObserved, hNew, hOther⟩
      · dsimp only
        rw [hSame]
        exact hSound.stored
      · intro e hEntry
        dsimp only at hEntry
        rw [hNew] at hEntry
        cases hEntry
        refine ⟨n, by rw [Served, hRead, hObserved], rfl, ?_⟩
        -- the value would be in storage already
        intro _ hBefore
        have hCurrent : Served relay q v := by
          rcases hNext with rfl | rfl
          · rw [Served, hRead, hObserved]
          · exact hBefore
        rcases hSound.current v hCurrent with ⟨e, hOld, hSame⟩
        exact hOther e hOld hSame
    · intro v hV
      rcases refreshEntry_cases s.values.oneEpochAgo observed
          (n - C.relayParentOffset - 1) with ⟨hSame, hKnown⟩ | ⟨v', hObserved, hNew, _⟩
      · dsimp only
        rw [hSame]
        exact hKnown v (hServed v hV)
      · refine ⟨_, hNew, ?_⟩
        exact Option.some.inj (hObserved.symm.trans (hServed v hV))
  · have hSame := Option.some.inj (hSound.parent.symm.trans hParent)
    refine ⟨q, hSound.parent, hSound.first_le, ?_, hSound.stored, hSound.current⟩
    intro moment hMem
    rcases List.mem_cons.mp hMem with rfl | hOld
    · exact hSame ▸ hSound.first_le
    · exact hSound.committed moment hOld

theorem epochSound_of_run (hRun : RunUnder (Parachain.step C relay) Steady genesis s) :
    s = genesis ∨ ∃ first q, EpochSound C relay first q s := by
  refine RunUnder.invariant
    (fun s => s = genesis ∨ ∃ first q, EpochSound C relay first q s) hRun ?_ (.inl rfl)
  intro s op s' hSteady hStep hSound
  rcases hSound with rfl | ⟨first, q, hSound⟩
  · rcases step_cases hStep with ⟨n, _, observed, _, _, hRead, rfl⟩ | ⟨_, _, hParent, _⟩
    · refine .inr ⟨n, n, rfl, le_rfl, fun _ hMem => (List.not_mem_nil hMem).elim, ?_, ?_⟩
      · intro e hEntry
        cases observed with
        | none => cases hEntry
        | some v =>
          cases hEntry
          exact ⟨n, hRead, rfl, fun hLt => absurd hLt (Nat.lt_irrefl n)⟩
      · intro v hV
        cases Except.ok.inj (hRead.symm.trans hV)
        exact ⟨_, rfl, rfl⟩
    · cases hParent
  · exact .inr ⟨first, hSound.step hSteady hStep⟩

/-
  A result that is accepted after a commitment mixes an epoch value, and every relay block that
  served the value comes after one that was not yet public at the commitment.
-/
theorem epoch_random_unknown
    (hInterval : ∀ i j k v, i ≤ j → j ≤ k → Served relay i v → Served relay k v → Served relay j v)
    (hRun : RunUnder (Parachain.step C relay) Steady genesis s) (hCommit : moment ∈ s.commitments)
    (hAfter : moment < (RelayOneEpochAgoRandomness.random C s.values subject).2) :
    ∃ v, (RelayOneEpochAgoRandomness.random C s.values subject).1
        = C.blake2_256 (subject ++ bytesOf v)
      ∧ ∀ n, Served relay n v → moment + C.relayParentOffset < n - 1 := by
  rcases mixSubject_of_lt hAfter with ⟨e, hEntry, hLater, hMixed⟩
  refine ⟨e.randomness, hMixed, ?_⟩
  intro n hServed
  rcases epochSound_of_run hRun with rfl | ⟨first, q, hSound⟩
  · cases hEntry
  rcases hSound.stored e hEntry with ⟨p, hP, hMoment, hNew⟩
  have hFirst := hSound.committed moment hCommit
  have hNotBefore := hNew (by omega)
  rcases Nat.lt_or_ge n p with hLt | hGe
  · exact absurd (hInterval n (p - 1) p _ (by omega) (by omega) hServed hP) hNotBefore
  · omega

/- A commitment at 13 waits for the epoch that starts at 18. -/
theorem epoch_random_unknown_sample : ∃ s,
    RunUnder (Parachain.step sampleRelayConfig sampleRelay) Steady genesis s ∧ 13 ∈ s.commitments
      ∧ ∃ v, (RelayOneEpochAgoRandomness.random sampleRelayConfig s.values [1]).1
          = sampleRelayConfig.blake2_256 ([1] ++ bytesOf v)
        ∧ ∀ n, Served sampleRelay n v → 13 + 2 < n - 1 := by
  have hInterval : ∀ i j k v, i ≤ j → j ≤ k → Served sampleRelay i v →
      Served sampleRelay k v → Served sampleRelay j v := by
    intro i j k v hIJ hJK hI hK
    simp only [Served, sampleRelay, Except.ok.injEq, Option.some.injEq] at hI hK ⊢
    split_ifs at hI hK ⊢ <;> first
      | omega
      | exact hI
      | exact hK
      | exact absurd (hI.trans hK.symm) (by decide)
  have hExecute : (execute (Parachain.step sampleRelayConfig sampleRelay) steady genesis
      [.block 13, .commit, .block 14, .block 15, .block 16, .block 17, .block 18]).any
      (fun s => decide (13 ∈ s.commitments
        ∧ 13 < (RelayOneEpochAgoRandomness.random sampleRelayConfig s.values [1]).2))
        = true := by
    decide
  rcases exists_run_of_execute (fun _ _ _ hCheck _ => hCheck) hExecute with ⟨s, hRun, hTest⟩
  have hRead := of_decide_eq_true hTest
  exact ⟨s, hRun, hRead.1, epoch_random_unknown hInterval hRun hRead.1 hRead.2⟩

end Parachain

end Individuality.RelayRandomness
