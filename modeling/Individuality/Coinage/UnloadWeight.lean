import Individuality.Base.Interpolation

/-
  The weight of an unload, interpolated between benchmarks at a few numbers of aliases.

  Main declaration: `unload_weight_sound`
-/

namespace Individuality.Coinage.UnloadWeight

--
-- Weights
--

structure Weight where
  refTime : UInt64
  proofSize : UInt64
  deriving DecidableEq

inductive Component where
  | refTime
  | proofSize

def Weight.get (w : Weight) : Component → UInt64
  | .refTime => w.refTime
  | .proofSize => w.proofSize

def Weight.max (w w' : Weight) : Weight where
  refTime := Max.max w.refTime w'.refTime
  proofSize := Max.max w.proofSize w'.proofSize

/- No component is larger. -/
def Weight.AllLte (w w' : Weight) : Prop :=
  ∀ c, w.get c ≤ w'.get c

abbrev sampleCount : Nat := 7

abbrev Samples := Vector Weight sampleCount

/- Divisions, which fail by zero. -/
def checkedDiv (a b : Nat) : Option Nat :=
  if b = 0 then none else some (a / b)

def checkedDivCeil (a b : Nat) : Option Nat :=
  if b = 0 then none else some (a ⌈/⌉ b)

--
-- Interpolation
--

/- A component at `x` on the line through two points. -/
def interpolateComponent (x xLo xHi : UInt32) (yLo yHi : UInt64) : Option UInt64 :=
  let span := xHi.toNat - xLo.toNat
  if span = 0 then some (Max.max yLo yHi)
  else
    let offset := x.toNat - xLo.toNat
    if yLo ≤ yHi then do
      let rise ← checkedDivCeil (saturatingMul u128Max (yHi.toNat - yLo.toNat) offset) span
      return UInt64.ofNat (saturatingAdd u64Max yLo.toNat (min rise u64Max))
    else do
      let fall ← checkedDiv (saturatingMul u128Max (yLo.toNat - yHi.toNat) offset) span
      return UInt64.ofNat (yLo.toNat - min fall u64Max)

abbrev Point := UInt32 × Weight

def interpolateBetween (x : UInt32) (lo hi : Point) : Option Weight := do
  let refTime ← interpolateComponent x lo.1 hi.1 lo.2.refTime hi.2.refTime
  let proofSize ← interpolateComponent x lo.1 hi.1 lo.2.proofSize hi.2.proofSize
  return { refTime := refTime, proofSize := proofSize }

/-
  The loop over the points, where `lo` and `hi` are those at the index before and at the index.
  After the last point the last segment is extended.
-/
def walkWeight (x : UInt32) (lo hi : Point) :
    List Point → Option Weight
  | [] =>
    if x ≤ hi.1 then
      if x = hi.1 then some hi.2 else interpolateBetween x lo hi
    else
      (interpolateBetween x lo hi).map (·.max hi.2)
  | next :: rest =>
    if x ≤ hi.1 then
      if x = hi.1 then some hi.2 else interpolateBetween x lo hi
    else walkWeight x hi next rest

/- Distinct points, which an index may be out of range of. -/
def interpolateDistinct (x : UInt32) :
    List Point → Option Weight
  | [] => none
  | first :: points =>
    if x ≤ first.1 then some first.2
    else
      match points with
      | [] => none
      | second :: rest => walkWeight x first second rest

/- Equal coordinates are combined first. -/
def distinctPoints : List Point → List Point
  | [] => []
  | first :: points =>
    Interpolation.combine Weight.max first points

def interpolateWeight (x : UInt32) (points : List Point) : Option Weight :=
  interpolateDistinct x (distinctPoints points)

def coordinates (max : UInt32) : Vector UInt32 sampleCount :=
  #v[1, 2, 4, 8, min 16 max, min 32 max, max]

/- The benchmarks at their numbers of aliases. -/
def samplePoints (max : UInt32) (weights : Samples) :
    List Point :=
  List.ofFn fun i => ((coordinates max).get i, weights.get i)

def interpolateUnloadWeight (aliasCount max : UInt32) (weights : Samples) : Option Weight :=
  interpolateWeight aliasCount (samplePoints max weights)

--
-- Components
--

/- A point, read by one component. -/
def pointOf (c : Component) (p : Point) : Nat × Nat :=
  (p.1.toNat, (p.2.get c).toNat)

theorem get_max (w w' : Weight) (c : Component) :
    ((w.max w').get c).toNat = Max.max (w.get c).toNat (w'.get c).toNat := by
  have hMax : ∀ a b : UInt64, (Max.max a b).toNat = Max.max a.toNat b.toNat := by
    intro a b
    by_cases hLe : a ≤ b
    · have hNat := UInt64.le_iff_toNat_le.mp hLe
      rw [show Max.max a b = b from if_pos hLe]
      omega
    · have hNat := mt UInt64.le_iff_toNat_le.mpr hLe
      rw [show Max.max a b = a from if_neg hLe]
      omega
  cases c with
  | refTime => exact hMax _ _
  | proofSize => exact hMax _ _

theorem toNat_le_u64Max (y : UInt64) : y.toNat ≤ u64Max := by
  have hLt := y.toNat_lt
  unfold u64Max
  omega

theorem toNat_ofNat_of_le {n : Nat} (hLe : n ≤ u64Max) :
    (UInt64.ofNat n).toNat = n := by
  apply UInt64.toNat_ofNat_of_lt'
  unfold u64Max at hLe
  unfold UInt64.size
  omega

/- No product of a rise is larger than 128 bits can hold. -/
theorem saturatingMul_rise (y : UInt64) (x : UInt32) (y' x' : Nat) :
    saturatingMul u128Max (y.toNat - y') (x.toNat - x') = (y.toNat - y') * (x.toNat - x') := by
  apply saturatingMul_of_le
  calc
    (y.toNat - y') * (x.toNat - x') ≤ 2 ^ 64 * 2 ^ 32 := by
        apply Nat.mul_le_mul
        · exact Nat.le_trans (Nat.sub_le _ _) y.toNat_lt.le
        · exact Nat.le_trans (Nat.sub_le _ _) x.toNat_lt.le
    _ ≤ u128Max := by decide

/- A component is a line of natural numbers. -/
theorem interpolateComponent_eq {x xLo xHi : UInt32} (yLo yHi : UInt64)
    (hSpan : xLo.toNat < xHi.toNat) :
    ∃ y, interpolateComponent x xLo xHi yLo yHi = some y ∧ y.toNat
        = Interpolation.line u64Max x.toNat (xLo.toNat, yLo.toNat) (xHi.toNat, yHi.toNat) := by
  have hLow := toNat_le_u64Max yLo
  unfold interpolateComponent Interpolation.line
  dsimp only
  rw [if_neg (by omega)]
  by_cases hRise : yLo ≤ yHi
  · rw [if_pos hRise, if_pos (UInt64.le_iff_toNat_le.mp hRise), saturatingMul_rise]
    unfold checkedDivCeil
    rw [if_neg (by omega)]
    refine ⟨_, rfl, ?_⟩
    rw [toNat_ofNat_of_le (saturatingAdd_le _ _ _)]
    unfold saturatingAdd
    generalize ((yHi.toNat - yLo.toNat) * (x.toNat - xLo.toNat)) ⌈/⌉ (xHi.toNat - xLo.toNat) = rise
    omega
  · rw [if_neg hRise, if_neg (mt UInt64.le_iff_toNat_le.mpr hRise), saturatingMul_rise]
    unfold checkedDiv
    rw [if_neg (by omega)]
    refine ⟨_, rfl, ?_⟩
    rw [toNat_ofNat_of_le (Nat.le_trans (Nat.sub_le _ _) hLow)]
    generalize (yLo.toNat - yHi.toNat) * (x.toNat - xLo.toNat) / (xHi.toNat - xLo.toNat) = fall
    omega

theorem exists_interpolateBetween (x : UInt32) (lo hi : Point) :
    ∃ w, interpolateBetween x lo hi = some w ∧ (lo.1.toNat < hi.1.toNat → ∀ c, (w.get c).toNat
        = Interpolation.line u64Max x.toNat (pointOf c lo) (pointOf c hi)) := by
  have hSome : ∀ yLo yHi, ∃ y, interpolateComponent x lo.1 hi.1 yLo yHi = some y := by
    intro yLo yHi
    by_cases hSpan : lo.1.toNat < hi.1.toNat
    · rcases interpolateComponent_eq (x := x) yLo yHi hSpan with ⟨y, hY, _⟩
      exact ⟨y, hY⟩
    · unfold interpolateComponent
      dsimp only
      rw [if_pos (by omega)]
      exact ⟨_, rfl⟩
  rcases hSome lo.2.refTime hi.2.refTime with ⟨y, hY⟩
  rcases hSome lo.2.proofSize hi.2.proofSize with ⟨y', hY'⟩
  refine ⟨⟨y, y'⟩, ?_, ?_⟩
  · unfold interpolateBetween
    rw [hY, hY']
    rfl
  · intro hSpan c
    cases c with
    | refTime =>
      rcases interpolateComponent_eq (x := x) lo.2.refTime hi.2.refTime hSpan with ⟨z, hZ, hLine⟩
      rw [hY, Option.some.injEq] at hZ
      subst hZ
      exact hLine
    | proofSize =>
      rcases interpolateComponent_eq (x := x) lo.2.proofSize hi.2.proofSize hSpan with
        ⟨z, hZ, hLine⟩
      rw [hY', Option.some.injEq] at hZ
      subst hZ
      exact hLine

abbrev Ascending (points : List Point) : Prop :=
  points.Pairwise fun p q => p.1 < q.1

theorem span_of_ascending {lo hi : Point} {rest : List Point}
    (hSorted : Ascending (lo :: hi :: rest)) :
    lo.1.toNat < hi.1.toNat :=
  UInt32.lt_iff_toNat_lt.mp ((List.pairwise_cons.mp hSorted).1 hi List.mem_cons_self)

/- Up to `hi` the points after it do not matter. -/
theorem exists_upTo {x : UInt32} {lo hi : Point} (rest : List Point) (hLe : x ≤ hi.1) :
    ∃ w, (if x = hi.1 then some hi.2 else interpolateBetween x lo hi) = some w
        ∧ (Ascending (lo :: hi :: rest) → ∀ c, (w.get c).toNat
            = Interpolation.walk u64Max x.toNat (pointOf c lo)
                (pointOf c hi) (rest.map (pointOf c))) := by
  have hWalk : Ascending (lo :: hi :: rest) → ∀ c, Interpolation.walk u64Max x.toNat (pointOf c lo)
              (pointOf c hi) (rest.map (pointOf c))
            = Interpolation.line u64Max x.toNat (pointOf c lo) (pointOf c hi) := fun hSorted c =>
    Interpolation.walk_of_le (span_of_ascending hSorted)
      (toNat_le_u64Max _) (UInt32.le_iff_toNat_le.mp hLe)
  by_cases hEq : x = hi.1
  · rw [if_pos hEq]
    refine ⟨hi.2, rfl, fun hSorted c => ?_⟩
    rw [hWalk hSorted c, hEq]
    have hEnd : Interpolation.line u64Max (pointOf c hi).1 (pointOf c lo) (pointOf c hi)
          = (pointOf c hi).2 :=
      Interpolation.line_hi (span_of_ascending hSorted) (toNat_le_u64Max _)
    exact hEnd.symm
  · rw [if_neg hEq]
    rcases exists_interpolateBetween x lo hi with ⟨w, hBetween, hLine⟩
    refine ⟨w, hBetween, fun hSorted c => ?_⟩
    rw [hWalk hSorted c]
    exact hLine (span_of_ascending hSorted) c

/- The loop never fails, and is a walk in each component. -/
theorem exists_walkWeight (x : UInt32) (rest : List Point) (lo hi : Point) :
    ∃ w, walkWeight x lo hi rest = some w ∧ (Ascending (lo :: hi :: rest) → ∀ c, (w.get c).toNat
        = Interpolation.walk u64Max x.toNat (pointOf c lo)
            (pointOf c hi) (rest.map (pointOf c))) := by
  induction rest generalizing lo hi with
  | nil =>
    unfold walkWeight
    by_cases hLe : x ≤ hi.1
    · rw [if_pos hLe]
      exact exists_upTo [] hLe
    · rcases exists_interpolateBetween x lo hi with ⟨w, hBetween, hLine⟩
      rw [if_neg hLe, hBetween]
      refine ⟨w.max hi.2, rfl, fun hSorted c => ?_⟩
      have hPast : ¬ x.toNat ≤ (pointOf c hi).1 := mt UInt32.le_iff_toNat_le.mpr hLe
      rw [get_max, hLine (span_of_ascending hSorted) c, List.map_nil]
      unfold Interpolation.walk
      rw [if_neg hPast]
      rfl
  | cons next rest ih =>
    unfold walkWeight
    by_cases hLe : x ≤ hi.1
    · rw [if_pos hLe]
      exact exists_upTo (next :: rest) hLe
    · rcases ih hi next with ⟨w, hWalk, hValue⟩
      rw [if_neg hLe]
      refine ⟨w, hWalk, fun hSorted c => ?_⟩
      have hPast : ¬ x.toNat ≤ (pointOf c hi).1 := mt UInt32.le_iff_toNat_le.mpr hLe
      rw [List.map_cons]
      unfold Interpolation.walk
      rw [if_neg hPast]
      exact hValue (List.pairwise_cons.mp hSorted).2 c

--
-- Samples
--

variable {max : UInt32} {weights : Samples}

/- From eight aliases on the samples are in order. -/
theorem coordinates_mono (hMax : 8 ≤ max) {i j : Fin sampleCount} (hLe : i ≤ j) :
    ((coordinates max).get i).toNat ≤ ((coordinates max).get j).toNat := by
  have hNat : 8 ≤ max.toNat := UInt32.le_iff_toNat_le.mp hMax
  have hMin : ∀ a : UInt32, (min a max).toNat = min a.toNat max.toNat := by
    intro a
    by_cases hA : a ≤ max
    · have hALe := UInt32.le_iff_toNat_le.mp hA
      rw [show min a max = a from if_pos hA]
      omega
    · have hALe := mt UInt32.le_iff_toNat_le.mpr hA
      rw [show min a max = max from if_neg hA]
      omega
  have hMono : Monotone fun i : Fin 7 =>
        ((coordinates max).get i).toNat := by
    apply Fin.monotone_iff_le_succ.mpr
    have hSixteen := hMin 16
    have hThirtyTwo := hMin 32
    have h16 : (16 : UInt32).toNat = 16 := rfl
    have h32 : (32 : UInt32).toNat = 32 := rfl
    rw [h16] at hSixteen
    rw [h32] at hThirtyTwo
    intro i
    match i with
    | 0 => exact (by decide : 1 ≤ 2)
    | 1 => exact (by decide : 2 ≤ 4)
    | 2 => exact (by decide : 4 ≤ 8)
    | 3 =>
      change 8 ≤ (min 16 max).toNat
      omega
    | 4 =>
      change (min 16 max).toNat ≤ (min 32 max).toNat
      omega
    | 5 =>
      change (min 32 max).toNat ≤ max.toNat
      omega
  exact hMono hLe

/- The distinct points of some samples: at every coordinate the largest samples of it. -/
structure Profile (max : UInt32) (weights : Samples) (lo hi : Point)
    (rest : List Point) : Prop where
  distinct : distinctPoints (samplePoints max weights) = lo :: hi :: rest
  ascending : Ascending (lo :: hi :: rest)
  attained : ∀ q ∈ lo :: hi :: rest, ∀ c, ∃ i : Fin sampleCount,
      (coordinates max).get i = q.1 ∧ (weights.get i).get c = q.2.get c
  covers : ∀ (i : Fin sampleCount) c, ∃ q ∈ lo :: hi :: rest,
      q.1 = (coordinates max).get i ∧ (weights.get i).get c ≤ q.2.get c

theorem samplePoints_eq (max : UInt32) (weights : Samples) :
    samplePoints max weights = (1, weights.get 0) :: (2, weights.get 1)
        :: List.ofFn fun i : Fin 5 =>
          ((coordinates max).get i.succ.succ, weights.get i.succ.succ) := by
  unfold samplePoints
  rw [List.ofFn_succ, List.ofFn_succ]
  rfl

/- The first two coordinates are distinct. -/
theorem exists_distinct (max : UInt32) (weights : Samples) :
    ∃ lo hi rest, distinctPoints (samplePoints max weights) = lo :: hi :: rest := by
  rw [samplePoints_eq]
  unfold distinctPoints
  dsimp only
  unfold Interpolation.combine
  rw [if_neg (show (2 : UInt32) ≠ 1 by decide)]
  have hCombine : ∃ value rest, Interpolation.combine Weight.max (2, weights.get 1)
            (List.ofFn fun i : Fin 5 =>
              ((coordinates max).get i.succ.succ, weights.get i.succ.succ))
          = (2, value) :: rest :=
    Interpolation.exists_combine_cons
  rcases hCombine with ⟨value, rest, hCons⟩
  exact ⟨_, _, rest, congrArg (List.cons _) hCons⟩

theorem exists_profile (hMax : 8 ≤ max) (weights : Samples) :
    ∃ lo hi rest, Profile max weights lo hi rest := by
  rcases exists_distinct max weights with ⟨lo, hi, rest, hDistinct⟩
  have hCombined : ∀ c, Interpolation.Combined UInt32.toNat (fun w : Weight => (w.get c).toNat)
          (samplePoints max weights) (lo :: hi :: rest) := by
    intro c
    rw [← hDistinct]
    have hSorted : (samplePoints max weights).Pairwise fun p q => p.1.toNat ≤ q.1.toNat := by
      unfold samplePoints
      rw [List.pairwise_ofFn]
      exact fun i j hLt => coordinates_mono hMax hLt.le
    rw [samplePoints_eq] at hSorted ⊢
    exact Interpolation.combine_spec (fun _ _ hEq => UInt32.toNat_inj.mp hEq)
        (fun a b => get_max a b c) hSorted
  refine ⟨lo, hi, rest,
      { distinct := hDistinct
        ascending := ?_
        attained := ?_
        covers := ?_ }⟩
  · exact (hCombined .refTime).ascending.imp fun hLt => UInt32.lt_iff_toNat_lt.mpr hLt
  · intro q hMem c
    rcases (hCombined c).attained q hMem with ⟨p, hPoint, hKey, hValue⟩
    unfold samplePoints at hPoint
    rw [List.mem_ofFn] at hPoint
    rcases hPoint with ⟨i, rfl⟩
    exact ⟨i, hKey, UInt64.toNat_inj.mp hValue⟩
  · intro i c
    have hPoint : ((coordinates max).get i, weights.get i) ∈ samplePoints max weights := by
      unfold samplePoints
      rw [List.mem_ofFn]
      exact ⟨i, rfl⟩
    rcases (hCombined c).covers _ hPoint with ⟨q, hMem, hKey, hValue⟩
    exact ⟨q, hMem, hKey, UInt64.le_iff_toNat_le.mpr hValue⟩

/- No index is out of range, and nothing is divided by zero. -/
theorem exists_interpolateUnloadWeight (x max : UInt32) (weights : Samples) :
    ∃ w, interpolateUnloadWeight x max weights = some w := by
  rcases exists_distinct max weights with ⟨lo, hi, rest, hDistinct⟩
  unfold interpolateUnloadWeight interpolateWeight
  rw [hDistinct]
  unfold interpolateDistinct
  dsimp only
  split_ifs with hFirst
  · exact ⟨lo.2, rfl⟩
  · rcases exists_walkWeight x rest lo hi with ⟨w, hWalk, _⟩
    exact ⟨w, hWalk⟩

namespace Profile

variable {lo hi : Point} {rest : List Point} {x : UInt32} {w : Weight}

/- The weight, in each component. -/
theorem toNat_get (hProfile : Profile max weights lo hi rest)
    (hWeight : interpolateUnloadWeight x max weights = some w) (c : Component) :
    (w.get c).toNat = Interpolation.interpolate u64Max x.toNat (pointOf c lo)
        (pointOf c hi) (rest.map (pointOf c)) := by
  unfold interpolateUnloadWeight interpolateWeight at hWeight
  rw [hProfile.distinct] at hWeight
  unfold interpolateDistinct at hWeight
  unfold Interpolation.interpolate
  dsimp only at hWeight
  by_cases hFirst : x ≤ lo.1
  · rw [if_pos hFirst, Option.some.injEq] at hWeight
    rw [if_pos (show x.toNat ≤ (pointOf c lo).1 from
      UInt32.le_iff_toNat_le.mp hFirst), ← hWeight]
    rfl
  · rw [if_neg hFirst] at hWeight
    rw [if_neg (show ¬ x.toNat ≤ (pointOf c lo).1 from
      mt UInt32.le_iff_toNat_le.mpr hFirst)]
    rcases exists_walkWeight x rest lo hi with ⟨w', hWalk, hValue⟩
    rw [hWalk, Option.some.injEq] at hWeight
    rw [← hWeight]
    exact hValue hProfile.ascending c

theorem ascending_map (hProfile : Profile max weights lo hi rest) (c : Component) :
    Interpolation.Ascending (pointOf c lo :: pointOf c hi :: rest.map (pointOf c)) :=
  List.Pairwise.map (pointOf c) (fun _ _ hLt => UInt32.lt_iff_toNat_lt.mp hLt) hProfile.ascending

/- Every point of the profile is one of a coordinate. -/
theorem coordinate_of_mem (hProfile : Profile max weights lo hi rest)
    {c : Component} {point : Nat × Nat}
    (hMem : point ∈ pointOf c lo :: pointOf c hi :: rest.map (pointOf c)) :
    ∃ i : Fin sampleCount, point.1 = ((coordinates max).get i).toNat
        ∧ point.2 = ((weights.get i).get c).toNat := by
  rcases List.mem_map.mp (show point ∈ (lo :: hi :: rest).map (pointOf c) from hMem)
    with ⟨q, hQ, rfl⟩
  rcases hProfile.attained q hQ c with ⟨i, hKey, hValue⟩
  exact ⟨i, congrArg UInt32.toNat hKey.symm, congrArg UInt64.toNat hValue.symm⟩

theorem le_cap (hProfile : Profile max weights lo hi rest) (c : Component) :
    ∀ point ∈ pointOf c lo :: pointOf c hi :: rest.map (pointOf c), point.2 ≤ u64Max := by
  intro point hMem
  rcases hProfile.coordinate_of_mem hMem with ⟨i, _, hValue⟩
  rw [hValue]
  exact toNat_le_u64Max _

/- The point of a coordinate has the weight that is charged. -/
theorem exists_point (hProfile : Profile max weights lo hi rest)
    (i : Fin sampleCount) (c : Component)
    (hWeight : interpolateUnloadWeight ((coordinates max).get i) max weights = some w) :
    (((coordinates max).get i).toNat, (w.get c).toNat)
        ∈ pointOf c lo :: pointOf c hi :: rest.map (pointOf c)
      ∧ (weights.get i).get c ≤ w.get c := by
  rcases hProfile.covers i c with ⟨q, hQ, hKey, hValue⟩
  have hMem : pointOf c q ∈ pointOf c lo :: pointOf c hi :: rest.map (pointOf c) :=
    List.mem_map.mpr ⟨q, hQ, rfl⟩
  have hAt : Interpolation.interpolate u64Max (pointOf c q).1
          (pointOf c lo) (pointOf c hi) (rest.map (pointOf c))
        = (pointOf c q).2 :=
    Interpolation.interpolate_at (hProfile.ascending_map c) hMem
  have hCoordinate : (pointOf c q).1 = ((coordinates max).get i).toNat := congrArg UInt32.toNat hKey
  rw [hCoordinate, ← hProfile.toNat_get hWeight c] at hAt
  have hSame : w.get c = q.2.get c := UInt64.toNat_inj.mp hAt
  rw [hSame]
  rw [← hCoordinate]
  exact ⟨hMem, hValue⟩

end Profile

--
-- Bounds
--

/- The samples do not fall from one coordinate to the next. -/
def Nondecreasing (weights : Samples) : Prop :=
  ∀ i j : Fin sampleCount, i ≤ j → (weights.get i).AllLte (weights.get j)

/- Over growing samples more aliases never weigh less. -/
theorem interpolateUnloadWeight_mono (hMax : 8 ≤ max) (hRises : Nondecreasing weights)
    {a b : UInt32} (hLe : a ≤ b) {w w' : Weight}
    (hA : interpolateUnloadWeight a max weights = some w)
    (hB : interpolateUnloadWeight b max weights = some w') :
    w.AllLte w' := by
  rcases exists_profile hMax weights with ⟨lo, hi, rest, hProfile⟩
  intro c
  rw [UInt64.le_iff_toNat_le, hProfile.toNat_get hA c, hProfile.toNat_get hB c]
  have hAscending := hProfile.ascending_map c
  refine Interpolation.interpolate_mono hAscending ?_
      (hProfile.le_cap c) (UInt32.le_iff_toNat_le.mp hLe)
  refine hAscending.imp_of_mem ?_
  intro p q hP hQ hLt
  rcases hProfile.coordinate_of_mem hP with ⟨i, hKey, hValue⟩
  rcases hProfile.coordinate_of_mem hQ with ⟨j, hKey', hValue'⟩
  have hOrder : i ≤ j := by
    by_contra hNot
    have hMono := coordinates_mono hMax (not_le.mp hNot).le
    omega
  rw [hValue, hValue']
  exact UInt64.le_iff_toNat_le.mp (hRises i j hOrder c)

/- At a coordinate the largest of its samples is charged. -/
theorem interpolateUnloadWeight_at (hMax : 8 ≤ max) (i : Fin sampleCount) {w : Weight}
    (hWeight : interpolateUnloadWeight ((coordinates max).get i) max weights = some w)
    (c : Component) :
    (∃ j : Fin sampleCount, (coordinates max).get j = (coordinates max).get i
          ∧ (weights.get j).get c = w.get c)
      ∧ ∀ j : Fin sampleCount, (coordinates max).get j = (coordinates max).get i →
          (weights.get j).get c ≤ w.get c := by
  rcases exists_profile hMax weights with ⟨lo, hi, rest, hProfile⟩
  constructor
  · rcases hProfile.coordinate_of_mem (hProfile.exists_point i c hWeight).1 with ⟨j, hKey, hValue⟩
    exact ⟨j, (UInt32.toNat_inj.mp hKey).symm, (UInt64.toNat_inj.mp hValue).symm⟩
  · intro j hSame
    rw [← hSame] at hWeight
    exact (hProfile.exists_point j c hWeight).2

/- Between two coordinates nothing leaves their charges. -/
theorem interpolateUnloadWeight_between (hMax : 8 ≤ max) {i j : Fin sampleCount}
    (hNext : j.val = i.val + 1) {x : UInt32} (hAfter : (coordinates max).get i < x)
    (hBefore : x < (coordinates max).get j) {w wLo wHi : Weight}
    (hWeight : interpolateUnloadWeight x max weights = some w)
    (hLo : interpolateUnloadWeight ((coordinates max).get i) max weights = some wLo)
    (hHi : interpolateUnloadWeight ((coordinates max).get j) max weights = some wHi)
    (c : Component) :
    min (wLo.get c).toNat (wHi.get c).toNat ≤ (w.get c).toNat
      ∧ (w.get c).toNat ≤ Max.max (wLo.get c).toNat (wHi.get c).toNat := by
  rcases exists_profile hMax weights with ⟨lo, hi, rest, hProfile⟩
  rw [hProfile.toNat_get hWeight c]
  refine Interpolation.interpolate_between (hProfile.ascending_map c)
      (hProfile.le_cap c) (hProfile.exists_point i c hLo).1
      (hProfile.exists_point j c hHi).1
      (UInt32.lt_iff_toNat_lt.mp hAfter)
      (UInt32.lt_iff_toNat_lt.mp hBefore) ?_
  intro point hMem
  rcases hProfile.coordinate_of_mem hMem with ⟨k, hKey, _⟩
  rw [hKey]
  rcases Nat.lt_or_ge i.val k.val with hLate | hEarly
  · exact Or.inr (coordinates_mono hMax (Fin.le_def.mpr (by omega)))
  · exact Or.inl (coordinates_mono hMax (Fin.le_def.mpr hEarly))

/- Above the maximum the last sample is charged at least. -/
theorem interpolateUnloadWeight_beyond (hMax : 8 ≤ max) {x : UInt32} (hBeyond : max < x)
    {w : Weight} (hWeight : interpolateUnloadWeight x max weights = some w) :
    (weights.get 6).AllLte w := by
  rcases exists_profile hMax weights with ⟨lo, hi, rest, hProfile⟩
  rcases exists_interpolateUnloadWeight ((coordinates max).get 6) max weights with ⟨wLast, hLast⟩
  intro c
  rcases hProfile.exists_point 6 c hLast with ⟨hMem, hSample⟩
  refine UInt64.le_trans hSample ?_
  rw [UInt64.le_iff_toNat_le, hProfile.toNat_get hWeight c]
  refine Interpolation.le_interpolate_beyond (hProfile.ascending_map c) hMem ?_
      (UInt32.lt_iff_toNat_lt.mp hBeyond)
  intro point hPoint
  rcases hProfile.coordinate_of_mem hPoint with ⟨k, hKey, _⟩
  rw [hKey]
  exact coordinates_mono hMax (Fin.le_last k)

/-
  The interpolation never fails.  From eight aliases on it is monotone over growing samples, charges
  the largest sample of a coordinate there, stays between the charges of neighbours, and does not
  fall below the last sample past the maximum.
-/
theorem unload_weight_sound (max : UInt32) (weights : Samples) :
    (∀ x, ∃ w, interpolateUnloadWeight x max weights = some w)
      ∧ (8 ≤ max → (Nondecreasing weights → ∀ a b w w', a ≤ b →
            interpolateUnloadWeight a max weights = some w →
              interpolateUnloadWeight b max weights = some w' → w.AllLte w')
          ∧ (∀ (i : Fin sampleCount) w,
            interpolateUnloadWeight ((coordinates max).get i) max weights
              = some w → ∀ c, (∃ j : Fin sampleCount, (coordinates max).get j
                        = (coordinates max).get i
                      ∧ (weights.get j).get c = w.get c)
                  ∧ ∀ j : Fin sampleCount, (coordinates max).get j = (coordinates max).get i →
                      (weights.get j).get c ≤ w.get c)
          ∧ (∀ (i j : Fin sampleCount) x w wLo wHi, j.val = i.val + 1 →
              (coordinates max).get i < x → x < (coordinates max).get j →
                  interpolateUnloadWeight x max weights = some w →
                    interpolateUnloadWeight ((coordinates max).get i) max weights = some wLo →
                      interpolateUnloadWeight ((coordinates max).get j) max weights = some wHi →
                        ∀ c, min (wLo.get c).toNat (wHi.get c).toNat ≤ (w.get c).toNat
                            ∧ (w.get c).toNat ≤ Max.max (wLo.get c).toNat (wHi.get c).toNat)
          ∧ ∀ x w, max < x → interpolateUnloadWeight x max weights = some w →
              (weights.get 6).AllLte w) := by
  refine ⟨fun x => exists_interpolateUnloadWeight x max weights,
      fun hMax => ⟨?_, ?_, ?_, ?_⟩⟩
  · intro hRises a b w w' hLe hA hB
    exact interpolateUnloadWeight_mono hMax hRises hLe hA hB
  · intro i w hWeight c
    exact interpolateUnloadWeight_at hMax i hWeight c
  · intro i j x w wLo wHi hNext hAfter hBefore hWeight hLo hHi c
    exact interpolateUnloadWeight_between hMax hNext hAfter hBefore hWeight hLo hHi c
  · intro x w hBeyond hWeight
    exact interpolateUnloadWeight_beyond hMax hBeyond hWeight

def growingSamples : Samples :=
  Vector.ofFn fun i : Fin 7 =>
    { refTime := UInt64.ofNat (100 * i.val)
      proofSize := UInt64.ofNat (10 * i.val) }

theorem nondecreasing_growingSamples : Nondecreasing growingSamples := by
  unfold Nondecreasing Weight.AllLte
  intro i j hLe c
  cases c <;> revert i j <;> decide

/- A batch of twelve is cheaper than one of twenty. -/
theorem unload_weight_sound_sample : ∃ w w',
      interpolateUnloadWeight 12 64 growingSamples = some w
        ∧ interpolateUnloadWeight 20 64 growingSamples = some w'
        ∧ w.AllLte w' := by
  have hSound := unload_weight_sound 64 growingSamples
  rcases hSound.1 12 with ⟨w, hW⟩
  rcases hSound.1 20 with ⟨w', hW'⟩
  exact ⟨w, w', hW, hW', (hSound.2 (by decide)).1 nondecreasing_growingSamples 12 20
      w w' (by decide) hW hW'⟩

end Individuality.Coinage.UnloadWeight
