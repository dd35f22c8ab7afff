import Mathlib.Data.List.Basic
import Mathlib.Tactic.SplitIfs

/-
  The validators of labels, and the grammars that they accept. A read, a slice or a subtraction that
  would panic gives `none`.

  Main declaration: `isPersonLabel`
-/

namespace Individuality.Support

--
-- Bytes
--

abbrev Byte :=
  BitVec 8

abbrev Bytes :=
  List Byte

def dot : Byte :=
  0x2e

def hyphen : Byte :=
  0x2d

def isAsciiLowercase (b : Byte) : Bool :=
  0x61 ≤ b.toNat ∧ b.toNat ≤ 0x7a

def isAsciiDigit (b : Byte) : Bool :=
  0x30 ≤ b.toNat ∧ b.toNat ≤ 0x39

def isLabelByte (b : Byte) : Bool :=
  isAsciiLowercase b || isAsciiDigit b || b = hyphen

def checkedSub (a b : Nat) : Option Nat :=
  if b ≤ a then some (a - b) else none

def slice (bytes : Bytes) (start stop : Nat) : Option Bytes :=
  if start ≤ stop ∧ stop ≤ bytes.length then
    some ((bytes.take stop).drop start)
  else
    none

--
-- Validators
--

def minLiteUsernameDigits : Nat :=
  2

def isPersonLabel (bytes : Bytes) : Bool :=
  !bytes.isEmpty && bytes.all isAsciiLowercase

def isDnsLabelRange (bytes : Bytes) (start stop : Nat) : Option Bool :=
  if stop ≤ start then
    some false
  else do
    let first ← bytes[start]?
    if first = hyphen then
      return false
    let i ← checkedSub stop 1
    let last ← bytes[i]?
    if last = hyphen then
      return false
    let range ← slice bytes start stop
    return range.all isLabelByte

def isDnsLabel (bytes : Bytes) : Option Bool :=
  isDnsLabelRange bytes 0 bytes.length

/-
  The loop that looks for the only dot, from index `i` on.  It
  gives up at a second dot; the length stands for no dot.
-/
def findDot (length : Nat) :
    Nat → Nat → Bytes → Option Nat
  | _, dotIndex, [] => some dotIndex
  | i, dotIndex, b :: rest =>
    if b = dot then
      if dotIndex ≠ length then none
      else findDot length (i + 1) i rest
    else
      findDot length (i + 1) dotIndex rest

def isLitePersonLabel (bytes : Bytes) : Option Bool :=
  let length := bytes.length
  if length < minLiteUsernameDigits + 2 then
    some false
  else
    match findDot length 0 length bytes with
    | none => some false
    | some dotIndex =>
      if dotIndex = length then
        some false
      else do
        let isStem ← isDnsLabelRange bytes 0 dotIndex
        if isStem = false then
          return false
        let suffixStart := dotIndex + 1
        let digits ← checkedSub length suffixStart
        if digits < minLiteUsernameDigits then
          return false
        let suffix ← slice bytes suffixStart length
        return suffix.all isAsciiDigit

--
-- Grammars
--

/- Lowercase letters, digits and hyphens, with no hyphen at either end. -/
structure IsDnsStem (stem : Bytes) : Prop where
  nonempty : stem ≠ []
  bytes : ∀ b ∈ stem, isLabelByte b = true
  head : stem.head? ≠ some hyphen
  last : stem.getLast? ≠ some hyphen

/- A label is a stem, a dot and at least two digits. -/
structure IsLiteSplit (label stem digits : Bytes) : Prop where
  label_eq : label = stem ++ dot :: digits
  stem : IsDnsStem stem
  two_le : 2 ≤ digits.length
  digits : ∀ b ∈ digits, isAsciiDigit b = true

theorem isLabelByte_dot : isLabelByte dot = false := by
  decide

theorem isAsciiDigit_dot : isAsciiDigit dot = false := by
  decide

variable {stem : Bytes}

theorem IsDnsStem.dot_notMem (hStem : IsDnsStem stem) :
    dot ∉ stem := by
  intro hMem
  have hByte := hStem.bytes dot hMem
  rw [isLabelByte_dot] at hByte
  exact Bool.false_ne_true hByte

theorem IsLiteSplit.dot_notMem {label digits : Bytes} (hSplit : IsLiteSplit label stem digits) :
    dot ∉ digits := by
  intro hMem
  have hByte := hSplit.digits dot hMem
  rw [isAsciiDigit_dot] at hByte
  exact Bool.false_ne_true hByte

/- Neither part has a dot, so that the only dot splits. -/
theorem IsLiteSplit.eq_of_split {label digits stem' digits' : Bytes}
    (hSplit : IsLiteSplit label stem digits) (hLabel : label = stem' ++ dot :: digits')
    (hStem' : dot ∉ stem') :
    stem = stem' ∧ digits = digits' := by
  have hEq := hSplit.label_eq.symm.trans hLabel
  rcases List.append_eq_append_iff.mp hEq with ⟨extra, hLong, hRest⟩ | ⟨extra, hLong, hRest⟩
  · cases extra with
    | nil =>
      rw [List.append_nil] at hLong
      exact ⟨hLong.symm, (List.cons.inj hRest).2⟩
    | cons b extra =>
      have hHead := (List.cons.inj hRest).1
      apply absurd _ hStem'
      rw [hLong, ← hHead]
      exact List.mem_append_right _ List.mem_cons_self
  · cases extra with
    | nil =>
      rw [List.append_nil] at hLong
      exact ⟨hLong, (List.cons.inj hRest).2.symm⟩
    | cons b extra =>
      have hHead := (List.cons.inj hRest).1
      apply absurd _ hSplit.stem.dot_notMem
      rw [hLong, ← hHead]
      exact List.mem_append_right _ List.mem_cons_self

--
-- The Range Helper
--

theorem slice_append_left (xs ys : Bytes) :
    slice (xs ++ ys) 0 xs.length = some xs := by
  unfold slice
  rw [if_pos ⟨Nat.zero_le _, by simp⟩, List.take_left, List.drop_zero]

/- A stem, read off its first and its last byte. -/
theorem isDnsStem_iff {xs : Bytes} (hNe : xs ≠ []) :
    IsDnsStem xs ↔ xs.head hNe ≠ hyphen ∧ xs.getLast hNe ≠ hyphen ∧ xs.all isLabelByte = true := by
  have hHead := List.head?_eq_some_head hNe
  have hLast := List.getLast?_eq_some_getLast hNe
  rw [List.all_eq_true]
  constructor
  · rintro ⟨_, hBytes, hFirst, hEnd⟩
    rw [hHead, ne_eq, Option.some.injEq] at hFirst
    rw [hLast, ne_eq, Option.some.injEq] at hEnd
    exact ⟨hFirst, hEnd, hBytes⟩
  · rintro ⟨hFirst, hEnd, hBytes⟩
    refine ⟨hNe, hBytes, ?_, ?_⟩
    · rw [hHead, ne_eq, Option.some.injEq]
      exact hFirst
    · rw [hLast, ne_eq, Option.some.injEq]
      exact hEnd

/-
  Over the front of a string, the helper never panics, and it
  accepts the front exactly when it is a stem.
-/
theorem isDnsLabelRange_append (xs ys : Bytes) : ∃ accepted,
      isDnsLabelRange (xs ++ ys) 0 xs.length = some accepted ∧
        (accepted = true ↔ IsDnsStem xs) := by
  unfold isDnsLabelRange
  by_cases hEmpty : xs.length ≤ 0
  · rw [if_pos hEmpty]
    have hNil : xs = [] := List.eq_nil_of_length_eq_zero (Nat.le_zero.mp hEmpty)
    refine ⟨false, rfl, iff_of_false Bool.false_ne_true ?_⟩
    intro hStem
    exact hStem.nonempty hNil
  · rw [if_neg hEmpty]
    have hPos : 0 < xs.length := Nat.lt_of_not_le hEmpty
    have hNe : xs ≠ [] := List.length_pos_iff.mp hPos
    have hFirstAt : (xs ++ ys)[0]? = some (xs.head hNe) := by
      rw [List.getElem?_append_left hPos, ← List.head?_eq_getElem?]
      exact List.head?_eq_some_head hNe
    have hLastAt : (xs ++ ys)[xs.length - 1]? = some (xs.getLast hNe) := by
      rw [List.getElem?_append_left (by omega), ← List.getLast?_eq_getElem?]
      exact List.getLast?_eq_some_getLast hNe
    have hSub : checkedSub xs.length 1 = some (xs.length - 1) := if_pos hPos
    rw [isDnsStem_iff hNe]
    simp only [hFirstAt, hSub, hLastAt, slice_append_left,
      Option.bind_eq_bind, Option.bind_some, Option.pure_def]
    by_cases hFirst : xs.head hNe = hyphen
    · rw [if_pos hFirst]
      exact ⟨false, rfl, by simp [hFirst]⟩
    · rw [if_neg hFirst]
      by_cases hEnd : xs.getLast hNe = hyphen
      · rw [if_pos hEnd]
        exact ⟨false, rfl, by simp [hEnd]⟩
      · rw [if_neg hEnd]
        exact ⟨_, rfl, by simp [hFirst, hEnd]⟩

--
-- The Search for the Dot
--

/- Behind a dot, the loop only checks for another one. -/
theorem findDot_found {length dotIndex : Nat} (hFound : dotIndex ≠ length) (i : Nat)
    (bytes : Bytes) :
    findDot length i dotIndex bytes =
      if dot ∈ bytes then none else some dotIndex := by
  induction bytes generalizing i with
  | nil => rfl
  | cons b rest ih =>
    unfold findDot
    by_cases hDot : b = dot
    · rw [if_pos hDot, if_pos hFound, hDot, if_pos List.mem_cons_self]
    · rw [if_neg hDot, ih]
      simp [Ne.symm hDot]

theorem findDot_none (length i : Nat) {bytes : Bytes} (hNone : dot ∉ bytes) :
    findDot length i length bytes = some length := by
  induction bytes generalizing i with
  | nil => rfl
  | cons b rest ih =>
    rw [List.mem_cons, not_or] at hNone
    unfold findDot
    rw [if_neg (Ne.symm hNone.1)]
    exact ih (i + 1) hNone.2

/- The first dot is at the length of what is before it. -/
theorem findDot_append {length i : Nat} (rest : Bytes) (hStem : dot ∉ stem)
    (hLength : i + stem.length < length) :
    findDot length i length (stem ++ dot :: rest) =
      if dot ∈ rest then none else some (i + stem.length) := by
  induction stem generalizing i with
  | nil =>
    rw [List.nil_append]
    unfold findDot
    rw [if_pos rfl, if_neg (not_not.mpr rfl)]
    exact findDot_found (Nat.ne_of_lt hLength) (i + 1) rest
  | cons b stem ih =>
    rw [List.mem_cons, not_or] at hStem
    rw [List.length_cons] at hLength
    rw [List.cons_append]
    unfold findDot
    rw [if_neg (Ne.symm hStem.1), ih hStem.2 (by omega), List.length_cons]
    congr 2
    omega

--
-- The Lite Label
--

/- A label of the grammar has four bytes at least. -/
theorem IsLiteSplit.four_le {label digits : Bytes} (hSplit : IsLiteSplit label stem digits) :
    4 ≤ label.length := by
  have hStem := List.length_pos_iff.mpr hSplit.stem.nonempty
  have hDigits := hSplit.two_le
  rw [hSplit.label_eq, List.length_append, List.length_cons]
  omega

/- What the validator does with the two parts of a string. -/
theorem isLitePersonLabel_append {rest : Bytes} (hStem : dot ∉ stem) (hRest : dot ∉ rest)
    (hLong : ¬ (stem ++ dot :: rest).length < 4) :
    ∃ accepted, isLitePersonLabel (stem ++ dot :: rest) = some accepted ∧
        (accepted = true ↔ IsLiteSplit (stem ++ dot :: rest) stem rest) := by
  have hLength : (stem ++ dot :: rest).length = stem.length + 1 + rest.length := by
    rw [List.length_append, List.length_cons]
    omega
  have hFind : findDot (stem ++ dot :: rest).length 0
          (stem ++ dot :: rest).length (stem ++ dot :: rest)
        = some stem.length := by
    rw [findDot_append rest hStem (by omega), if_neg hRest, Nat.zero_add]
  have hSub : checkedSub (stem ++ dot :: rest).length (stem.length + 1) = some rest.length := by
    unfold checkedSub
    rw [if_pos (by omega), Option.some.injEq]
    omega
  have hSlice : slice (stem ++ dot :: rest) (stem.length + 1) (stem ++ dot :: rest).length
        = some rest := by
    unfold slice
    rw [if_pos ⟨by omega, Nat.le_refl _⟩, List.take_length,
      ← List.drop_drop, List.drop_left, List.drop_one,
      List.tail_cons]
  rcases isDnsLabelRange_append stem (dot :: rest) with ⟨isStem, hRange, hIsStem⟩
  unfold isLitePersonLabel
  simp only [minLiteUsernameDigits, hFind, hRange, hSub, hSlice,
    Option.bind_eq_bind, Option.bind_some, Option.pure_def]
  rw [if_neg hLong, if_neg (by omega)]
  cases isStem with
  | false =>
    refine ⟨false, rfl, iff_of_false Bool.false_ne_true ?_⟩
    intro hSplit
    exact Bool.false_ne_true (hIsStem.mpr hSplit.stem)
  | true =>
    rw [if_neg Bool.true_eq_false.mp]
    by_cases hShort : rest.length < 2
    · rw [if_pos hShort]
      refine ⟨false, rfl, iff_of_false Bool.false_ne_true ?_⟩
      intro hSplit
      exact absurd hSplit.two_le (Nat.not_le.mpr hShort)
    · rw [if_neg hShort]
      refine ⟨_, rfl, ?_⟩
      rw [List.all_eq_true]
      constructor
      · intro hDigits
        exact ⟨rfl, hIsStem.mp rfl, Nat.not_lt.mp hShort, hDigits⟩
      · intro hSplit
        exact hSplit.digits

/- The validator of lite labels never panics, and it accepts exactly the labels that split. -/
theorem isLitePersonLabel_spec (bytes : Bytes) : ∃ accepted,
      isLitePersonLabel bytes = some accepted ∧
        (accepted = true ↔ ∃ stem digits, IsLiteSplit bytes stem digits) := by
  by_cases hShort : bytes.length < 4
  · refine ⟨false, if_pos hShort, iff_of_false Bool.false_ne_true ?_⟩
    rintro ⟨stem, digits, hSplit⟩
    exact absurd hSplit.four_le (Nat.not_le.mpr hShort)
  · by_cases hMem : dot ∈ bytes
    · rcases List.eq_append_cons_of_mem hMem with ⟨stem, rest, rfl, hStem⟩
      by_cases hRest : dot ∈ rest
      · refine ⟨false, ?_, iff_of_false Bool.false_ne_true ?_⟩
        · have hFind : findDot (stem ++ dot :: rest).length 0
                  (stem ++ dot :: rest).length (stem ++ dot :: rest)
                = none := by
            rw [findDot_append rest hStem (by simp), if_pos hRest]
          unfold isLitePersonLabel
          simp only [hFind, ite_self]
        · rintro ⟨stem', digits, hSplit⟩
          rcases hSplit.eq_of_split rfl hStem with ⟨_, hSame⟩
          rw [← hSame] at hRest
          exact hSplit.dot_notMem hRest
      · rcases isLitePersonLabel_append hStem hRest hShort with ⟨accepted, hEq, hIff⟩
        refine ⟨accepted, hEq, hIff.trans ⟨?_, ?_⟩⟩
        · intro hSplit
          exact ⟨stem, rest, hSplit⟩
        · rintro ⟨stem', digits, hSplit⟩
          rcases hSplit.eq_of_split rfl hStem with ⟨hSame, hSame'⟩
          rw [← hSame, ← hSame'] at hSplit ⊢
          exact hSplit
    · refine ⟨false, ?_, iff_of_false Bool.false_ne_true ?_⟩
      · unfold isLitePersonLabel
        simp only [findDot_none _ 0 hMem, ↓reduceIte, ite_self]
      · rintro ⟨stem, digits, hSplit⟩
        apply hMem
        rw [hSplit.label_eq]
        exact List.mem_append_right _ List.mem_cons_self

theorem isDnsLabel_spec (bytes : Bytes) : ∃ accepted,
      isDnsLabel bytes = some accepted ∧ (accepted = true ↔ IsDnsStem bytes) := by
  have hRange := isDnsLabelRange_append bytes []
  rw [List.append_nil] at hRange
  exact hRange

/-
  Every validator accepts exactly its grammar and never panics.  An accepted lite label splits in
  one way, and is neither the label of a person nor a DNS label.
-/
theorem labels_exact (bytes : Bytes) :
    (∃ accepted, isLitePersonLabel bytes = some accepted ∧ (accepted = true ↔
          ∃ stem digits, IsLiteSplit bytes stem digits)) ∧
      (∃ accepted, isDnsLabel bytes = some accepted ∧ (accepted = true ↔ IsDnsStem bytes)) ∧
      (∀ stem digits stem' digits', IsLiteSplit bytes stem digits →
        IsLiteSplit bytes stem' digits' →
        stem = stem' ∧ digits = digits') ∧
      ¬ (isLitePersonLabel bytes = some true ∧
        (isPersonLabel bytes = true ∨ isDnsLabel bytes = some true)) := by
  refine ⟨isLitePersonLabel_spec bytes, isDnsLabel_spec bytes, ?_, ?_⟩
  · intro stem digits stem' digits' hSplit hSplit'
    exact hSplit.eq_of_split hSplit'.label_eq hSplit'.stem.dot_notMem
  · rintro ⟨hLite, hFull⟩
    have hDot : dot ∈ bytes := by
      rcases isLitePersonLabel_spec bytes with ⟨accepted, hEq, hIff⟩
      rw [hLite, Option.some.injEq] at hEq
      rcases hIff.mp hEq.symm with ⟨stem, digits, hSplit⟩
      rw [hSplit.label_eq]
      exact List.mem_append_right _ List.mem_cons_self
    rcases hFull with hPerson | hDns
    · unfold isPersonLabel at hPerson
      rw [Bool.and_eq_true, List.all_eq_true] at hPerson
      exact absurd (hPerson.2 dot hDot) (by decide)
    · rcases isDnsLabel_spec bytes with ⟨accepted, hEq, hIff⟩
      rw [hDns, Option.some.injEq] at hEq
      exact (hIff.mp hEq.symm).dot_notMem hDot

/- The label `a.42`. -/
def sampleLabel : Bytes :=
  [0x61, 0x2e, 0x34, 0x32]

theorem labels_exact_sample : ∃ stem digits,
      IsLiteSplit sampleLabel stem digits ∧ stem = [0x61] ∧ digits = [0x34, 0x32] := by
  rcases (labels_exact sampleLabel).1 with ⟨accepted, hEq, hIff⟩
  have hAccepted : isLitePersonLabel sampleLabel = some true := by
    decide
  rw [hAccepted, Option.some.injEq] at hEq
  rcases hIff.mp hEq.symm with ⟨stem, digits, hSplit⟩
  have hStem : IsDnsStem [0x61] := ⟨by decide, by decide, by decide, by decide⟩
  have hKnown : IsLiteSplit sampleLabel [0x61] [0x34, 0x32] := ⟨rfl, hStem, by decide, by decide⟩
  exact ⟨stem, digits, hSplit, (labels_exact sampleLabel).2.2.1 _ _ _ _ hSplit hKnown⟩

end Individuality.Support
