import Individuality.Base.Storage
import Individuality.Base.Fallible
import Mathlib.Data.Finset.Card

/-
  The designs of the proof-of-ink pallet: how a choice of ink becomes a design, and how a derived
  design differs from the design of its parents.

  Main declaration: `mutateSeed`
-/

namespace Individuality.ProofOfInk

--
-- Designs
--

abbrev FamilyIndex := Nat

abbrev DesignIndex := Nat

abbrev VariantIndex := Nat

abbrev PersonalId := Nat

abbrev Byte := BitVec 8

abbrev Entropy := Vector Byte 32

abbrev ProceduralSeed := Vector Byte 4

inductive FamilyKind where
  | designed (count : DesignIndex)
  | proceduralAccount
  | proceduralPersonal
  | procedural (range : VariantIndex)

inductive InkChoice where
  | designedElective (familyId : FamilyIndex) (index : DesignIndex)
  | proceduralAccount (familyId : FamilyIndex)
  | proceduralPersonal (familyId : FamilyIndex)
  | procedural (familyId : FamilyIndex) (variant : VariantIndex)
  | proceduralDerivative (parent : PersonalId) (secondary : Option PersonalId)

inductive InkSpec where
  | designedElective (familyId : FamilyIndex) (index : DesignIndex)
  | proceduralAccount (familyId : FamilyIndex) (id : Vector Byte 32)
  | proceduralPersonal (familyId : FamilyIndex) (id : PersonalId)
  | procedural (familyId : FamilyIndex) (seed : ProceduralSeed)
  deriving DecidableEq

inductive Error where
  | designTaken
  | badFamily
  | wrongFamily
  | indexTooBig
  | badParent
  | designInvalid
  deriving DecidableEq, Repr

/- What the choice of a design reads of the pallet. -/
structure DesignState where
  designFamilies : StorageMap FamilyIndex FamilyKind
  committedDesigns : StorageMap (FamilyIndex × DesignIndex) Unit
  people : StorageMap PersonalId (Option InkSpec)

--
-- Seeds
--

/- Toggle a bit of a seed; the lowest bit of a byte is first. -/
def toggleBit (seed : ProceduralSeed) (p : Nat) : ProceduralSeed :=
  if h : p / 8 < 4 then
    seed.set (p / 8) (seed[p / 8] ^^^ (1#8 <<< (p % 8)))
  else
    seed

/- A draw that was made before is replaced by the range. -/
def drawPosition (index : List Nat) (range : Nat) (byte : Byte) : Nat :=
  let p := byte.toNat % range
  if index.contains p then range else p

def mutateSeed (seed : ProceduralSeed) (entropy : Entropy) : ProceduralSeed :=
  ((List.finRange 3).foldl (fun (seed, index) i =>
      let p := drawPosition index (32 - i) entropy[i]
      (toggleBit seed p, index ++ [p]))
    (seed, ([] : List Nat))).1

/- The byte positions of a seed, for the later variants. -/
def seedPositions (variant : VariantIndex) : List Nat :=
  ((List.range 4).foldl (fun (id, index) i =>
      let range := 32 - i
      let position := index.foldl (fun position other =>
            if other ≤ position then position + 1 else position)
          (id % range)
      (id / range, index ++ [position]))
    (variant, ([] : List Nat))).2

/- All positions are below 32. -/
def entropyToSeed (entropy : Entropy) (variant : VariantIndex) : ProceduralSeed :=
  Vector.ofFn fun i =>
    if variant < 8 then
      entropy.toList.getD (variant * 4 + i) 0
    else
      entropy.toList.getD ((seedPositions variant).getD i 0) 0

namespace DesignState

/- The procedural design of a parent. -/
def parentSeed (s : DesignState) (parent : PersonalId) :
    Except Error (FamilyIndex × ProceduralSeed) := do
  let person ← okOr (s.people.get parent) Error.badParent
  let design ← okOr person Error.badParent
  match design with
  | .procedural familyId seed => return (familyId, seed)
  | _ => .error .designInvalid

/- A second parent gives the last two bytes of the seed. -/
def combineSeeds (s : DesignState) (parent : PersonalId) (secondary : Option PersonalId) :
    Except Error (FamilyIndex × ProceduralSeed) := do
  let (familyId, seed) ← s.parentSeed parent
  match secondary with
  | none => return (familyId, seed)
  | some parent2 => do
    let (_, seed2) ← s.parentSeed parent2
    return (familyId, (seed.set 2 seed2[2]).set 3 seed2[3])

/- The design that is made of a choice. -/
def bakeDesign (s : DesignState) (choice : InkChoice) (entropy : Entropy) (account : List Byte)
    (id : PersonalId) : Except Error InkSpec := do
  match choice with
  | .designedElective familyId index =>
    ensure (s.committedDesigns.containsKey (familyId, index) = false) Error.designTaken
    match ← okOr (s.designFamilies.get familyId) Error.badFamily with
    | .designed count =>
      ensure (index < count) Error.indexTooBig
      return .designedElective familyId index
    | _ => .error .wrongFamily
  | .proceduralAccount familyId =>
    match ← okOr (s.designFamilies.get familyId) Error.badFamily with
    | .proceduralAccount =>
      -- the first 32 bytes of the encoded account
      return .proceduralAccount familyId (Vector.ofFn fun i => account.getD i 0)
    | _ => .error .wrongFamily
  | .proceduralPersonal familyId =>
    match ← okOr (s.designFamilies.get familyId) Error.badFamily with
    | .proceduralPersonal => return .proceduralPersonal familyId id
    | _ => .error .wrongFamily
  | .procedural familyId variant =>
    match ← okOr (s.designFamilies.get familyId) Error.badFamily with
    | .procedural range =>
      ensure (variant < range) Error.indexTooBig
      return .procedural familyId (entropyToSeed entropy variant)
    | _ => .error .wrongFamily
  | .proceduralDerivative parent secondary =>
    let (familyId, seed) ← s.combineSeeds parent secondary
    return .procedural familyId (mutateSeed seed entropy)

end DesignState

--
-- Changed Bits
--

def seedBit (seed : ProceduralSeed) (q : Nat) : Bool :=
  (seed.toList.getD (q / 8) 0).getLsbD (q % 8)

/- The positions at which two seeds differ. -/
def changedBits (seed seed' : ProceduralSeed) : Finset Nat :=
  (Finset.range 32).filter fun q => seedBit seed q ≠ seedBit seed' q

theorem getLsbD_oneShift {a b : Nat} (hBound : a < 8) :
    (1#8 <<< b).getLsbD a = decide (a = b) := by
  rw [BitVec.getLsbD_shiftLeft, BitVec.getLsbD_one]
  by_cases hEq : a = b
  · simp [hEq, hEq ▸ hBound]
  · simp [hEq]
    omega

theorem seedBit_toggleBit (seed : ProceduralSeed) {p : Nat} (hBound : p < 32) (q : Nat) :
    seedBit (toggleBit seed p) q = (seedBit seed q ^^ decide (q = p)) := by
  have hByte : p / 8 < 4 := by omega
  unfold seedBit toggleBit
  rw [dif_pos hByte, Vector.toList_set, List.getD_eq_getElem?_getD,
    List.getD_eq_getElem?_getD, List.getElem?_set]
  by_cases hSame : p / 8 = q / 8
  · have hAt : seed.toList[q / 8]? = some seed[p / 8] := by
      rw [← hSame]
      simp [hByte]
    rw [if_pos hSame, if_pos (by simpa using hByte), hAt,
      Option.getD_some, Option.getD_some, BitVec.getLsbD_xor,
      getLsbD_oneShift (Nat.mod_lt q (by decide))]
    congr 1
    rw [decide_eq_decide]
    omega
  · rw [if_neg hSame, decide_eq_false (by omega), Bool.xor_false]

--
-- The Toggled Positions
--

def firstPosition (entropy : Entropy) : Nat :=
  drawPosition [] 32 entropy[0]

def secondPosition (entropy : Entropy) : Nat :=
  drawPosition [firstPosition entropy] 31 entropy[1]

def thirdPosition (entropy : Entropy) : Nat :=
  drawPosition [firstPosition entropy, secondPosition entropy] 30 entropy[2]

theorem mutateSeed_eq (seed : ProceduralSeed) (entropy : Entropy) :
    mutateSeed seed entropy = toggleBit (toggleBit (toggleBit seed (firstPosition entropy))
          (secondPosition entropy))
        (thirdPosition entropy) :=
  rfl

theorem firstPosition_eq (entropy : Entropy) :
    firstPosition entropy = entropy[0].toNat % 32 :=
  rfl

theorem secondPosition_eq (entropy : Entropy) : secondPosition entropy =
      if entropy[1].toNat % 31 = firstPosition entropy then 31
      else entropy[1].toNat % 31 := by
  simp [secondPosition, drawPosition]

theorem thirdPosition_eq (entropy : Entropy) : thirdPosition entropy =
      if entropy[2].toNat % 30 = firstPosition entropy
          ∨ entropy[2].toNat % 30 = secondPosition entropy then 30
      else entropy[2].toNat % 30 := by
  simp [thirdPosition, drawPosition]

theorem position_lt (entropy : Entropy) :
    firstPosition entropy < 32 ∧ secondPosition entropy < 32 ∧ thirdPosition entropy < 32 := by
  rw [thirdPosition_eq, secondPosition_eq, firstPosition_eq]
  refine ⟨by omega, ?_, ?_⟩
  · split <;> omega
  · split_ifs <;> omega

theorem secondPosition_ne (entropy : Entropy) :
    secondPosition entropy ≠ firstPosition entropy := by
  rw [secondPosition_eq, firstPosition_eq]
  split <;> omega

/-
  One of the first two draws takes position 30, and the third draw collides with the other one.
  Position 30 is then the replacement for the third.
-/
def ReserveSpent (entropy : Entropy) : Prop :=
  (entropy[0].toNat % 32 = 30 ∧ entropy[2].toNat % 30 = entropy[1].toNat % 31)
    ∨ (entropy[1].toNat % 31 = 30 ∧ entropy[2].toNat % 30 = entropy[0].toNat % 32)

theorem thirdPosition_collides (entropy : Entropy) :
    (thirdPosition entropy = firstPosition entropy ∨ thirdPosition entropy = secondPosition entropy)
      ↔ ReserveSpent entropy := by
  unfold ReserveSpent
  rw [thirdPosition_eq, secondPosition_eq, firstPosition_eq]
  split_ifs <;> omega

--
-- The Distance
--

theorem mem_changedBits {seed seed' : ProceduralSeed} {q : Nat} :
    q ∈ changedBits seed seed' ↔ q < 32 ∧ seedBit seed q ≠ seedBit seed' q := by
  unfold changedBits
  rw [Finset.mem_filter, Finset.mem_range]

theorem mem_changedBits_mutateSeed (seed : ProceduralSeed) (entropy : Entropy) (q : Nat) :
    q ∈ changedBits seed (mutateSeed seed entropy) ↔
      ((decide (q = firstPosition entropy) ^^ decide (q = secondPosition entropy))
        ^^ decide (q = thirdPosition entropy)) = true := by
  rcases position_lt entropy with ⟨h₀, h₁, h₂⟩
  rw [mem_changedBits, mutateSeed_eq, seedBit_toggleBit _ h₂,
    seedBit_toggleBit _ h₁, seedBit_toggleBit _ h₀]
  constructor
  · rintro ⟨_, hNe⟩
    revert hNe
    cases seedBit seed q <;> simp
  · intro hOdd
    have hBound : q < 32 := by
      by_contra hNot
      revert hOdd
      rw [decide_eq_false (by omega), decide_eq_false (by omega),
        decide_eq_false (by omega)]
      decide
    refine ⟨hBound, ?_⟩
    revert hOdd
    cases seedBit seed q <;> simp

theorem changedBits_distinct (seed : ProceduralSeed) {entropy : Entropy}
    (hFree : ¬ ReserveSpent entropy) :
    changedBits seed (mutateSeed seed entropy) =
      {firstPosition entropy, secondPosition entropy,
        thirdPosition entropy} := by
  rw [← thirdPosition_collides, not_or] at hFree
  have hNe := secondPosition_ne entropy
  ext q
  rw [mem_changedBits_mutateSeed, Finset.mem_insert, Finset.mem_insert, Finset.mem_singleton]
  by_cases h₀ : q = firstPosition entropy
  · subst h₀
    simp [Ne.symm hNe, Ne.symm hFree.1]
  · by_cases h₁ : q = secondPosition entropy
    · subst h₁
      simp [hNe, Ne.symm hFree.2]
    · simp [h₀, h₁]

theorem changedBits_collision (seed : ProceduralSeed) {entropy : Entropy}
    (hSpent : ReserveSpent entropy) :
    ∃ p, changedBits seed (mutateSeed seed entropy) = {p} := by
  rw [← thirdPosition_collides] at hSpent
  rcases hSpent with hFirst | hSecond
  · refine ⟨secondPosition entropy, ?_⟩
    ext q
    rw [mem_changedBits_mutateSeed, hFirst, Finset.mem_singleton]
    cases decide (q = firstPosition entropy) <;> simp
  · refine ⟨firstPosition entropy, ?_⟩
    ext q
    rw [mem_changedBits_mutateSeed, hSecond, Finset.mem_singleton,
      Bool.xor_assoc, Bool.xor_self, Bool.xor_false,
      decide_eq_true_eq]

theorem card_changedBits_mutateSeed (seed : ProceduralSeed) (entropy : Entropy) :
    (changedBits seed (mutateSeed seed entropy)).card = 3 ↔ ¬ ReserveSpent entropy := by
  constructor
  · intro hThree hSpent
    rcases changedBits_collision seed hSpent with ⟨p, hEq⟩
    rw [hEq, Finset.card_singleton] at hThree
    cases hThree
  · intro hFree
    rw [changedBits_distinct seed hFree]
    rw [← thirdPosition_collides, not_or] at hFree
    exact Finset.card_eq_three.mpr ⟨_, _, _, Ne.symm (secondPosition_ne entropy),
        Ne.symm hFree.1, Ne.symm hFree.2, rfl⟩

theorem mutateSeed_ne (seed : ProceduralSeed) (entropy : Entropy) :
    mutateSeed seed entropy ≠ seed := by
  intro hSame
  have hNone : changedBits seed (mutateSeed seed entropy) = ∅ := by
    rw [hSame]
    ext q
    simp [mem_changedBits]
  by_cases hSpent : ReserveSpent entropy
  · rcases changedBits_collision seed hSpent with ⟨p, hEq⟩
    rw [hEq] at hNone
    exact Finset.singleton_ne_empty p hNone
  · have hThree := (card_changedBits_mutateSeed seed entropy).mpr hSpent
    rw [hNone, Finset.card_empty] at hThree
    cases hThree

/-
  A seed is changed in three bits unless the replacement of the third draw was drawn before.  A
  derived design has the seed of its parents with these changes.
-/
theorem derivative_differs (seed : ProceduralSeed) (entropy : Entropy) :
    ((changedBits seed (mutateSeed seed entropy)).card = 3 ↔ ¬ ReserveSpent entropy) ∧
      ∀ (s : DesignState) (parent : PersonalId) (secondary : Option PersonalId)
        (account : List Byte) (id : PersonalId) (spec : InkSpec),
        s.bakeDesign (.proceduralDerivative parent secondary) entropy account id = .ok spec →
        ∃ familyId combined derived, s.combineSeeds parent secondary = .ok (familyId, combined) ∧
            spec = .procedural familyId derived ∧
            ((changedBits combined derived).card = 3 ↔ ¬ ReserveSpent entropy) ∧
            derived ≠ combined := by
  refine ⟨card_changedBits_mutateSeed seed entropy, ?_⟩
  intro s parent secondary account id spec hBake
  unfold DesignState.bakeDesign at hBake
  simp only [Except.bind_eq_ok, Except.pure_eq_ok] at hBake
  rcases hBake with ⟨⟨familyId, combined⟩, hCombined, rfl⟩
  exact ⟨familyId, combined, mutateSeed combined entropy, hCombined,
    rfl, card_changedBits_mutateSeed combined entropy,
    mutateSeed_ne combined entropy⟩

/- Two parents with designs of one family. -/
def sampleDesigns : DesignState where
  designFamilies := .empty
  committedDesigns := .empty
  people := (StorageMap.empty.insert 1 (some (.procedural 5 (Vector.replicate 4 0x0f)))).insert 2
      (some (.procedural 5 (Vector.replicate 4 0xf0)))

def entropyOf (a b c : Byte) : Entropy :=
  ((Vector.replicate 32 0).set 0 a |>.set 1 b).set 2 c

/- Three draws without a collision. -/
theorem derivative_differs_sample : ∃ combined seed : ProceduralSeed,
      (changedBits combined seed).card = 3 ∧ seed ≠ combined := by
  have hBake : sampleDesigns.bakeDesign (.proceduralDerivative 1 (some 2)) (entropyOf 1 2 3) [] 9
        = .ok (.procedural 5 (mutateSeed (((Vector.replicate 4 0x0f).set 2 0xf0).set 3 0xf0)
            (entropyOf 1 2 3))) := by
    rfl
  rcases (derivative_differs (Vector.replicate 4 0) (entropyOf 1 2 3)).2
      _ _ _ _ _ _ hBake with
    ⟨_, combined, seed, _, _, hThree, hNe⟩
  refine ⟨combined, seed, hThree.mpr ?_, hNe⟩
  unfold ReserveSpent
  decide

/- The first draw is 30, and the third repeats the second. -/
theorem derivative_differs_fails : ¬ ∀ (seed : ProceduralSeed) (entropy : Entropy),
      (changedBits seed (mutateSeed seed entropy)).card = 3 := by
  intro hAll
  have hThree := hAll (Vector.replicate 4 0) (entropyOf 30 5 5)
  rw [card_changedBits_mutateSeed] at hThree
  apply hThree
  unfold ReserveSpent
  decide

end Individuality.ProofOfInk
