import Individuality.MembersPallet.ArchivedRoots
import Individuality.MembersPallet.Sample

/-
  The grace window of superseded ring roots: for how long a revision is accepted after another one
  took its place, and that the cleaning of the archive does not change it.

  Main declaration: `PalletState.grace_window`
-/

namespace Individuality.MembersPallet

open Except (bind_eq_ok exists_ok_of_any pure_eq_ok)

variable {T : Config} {ops : List (PalletOp T)} {o : PalletOp T} {s₂ : PalletState T}

open CollectionStore

--
-- Accepted Revisions
--

/- The end of the grace window of a root archived at `a`. -/
def graceEnd (T : Config) (a : Nat) : Nat :=
  saturatingAdd u64Max a T.oldRootRetentionDuration

theorem graceEnd_mono {a b : Nat} (hLe : a ≤ b) :
    graceEnd T a ≤ graceEnd T b := by
  unfold graceEnd saturatingAdd
  omega

theorem lt_graceEnd_iff {t a : Nat} :
    t < graceEnd T a ↔ t < a + T.oldRootRetentionDuration ∧ t < u64Max := by
  unfold graceEnd saturatingAdd
  exact Nat.lt_min

/- The archived revision is within its grace window. -/
def InGrace (old : OldRootMap T) (t : Nat) (r : RingIndex) (revision : RevisionIndex) : Prop :=
  ∃ x, old.get (r, revision) = some x ∧ t < graceEnd T x.archivedAt

/- The revision is accepted for verification at time `t`. -/
def Accepted (s : CollectionStore T) (t : Nat) (r : RingIndex) (revision : RevisionIndex) : Prop :=
  ∃ root, s.getRootAtRevision t r revision = .ok root

instance
    (s : CollectionStore T) (t : Nat) (r : RingIndex)
    (revision : RevisionIndex) :
    Decidable (Accepted s t r revision) :=
  match hRead : s.getRootAtRevision t r revision with
  | .ok root => isTrue ⟨root, hRead⟩
  | .error _ => isFalse fun ⟨root, hRoot⟩ => by
    rw [hRead] at hRoot
    cases hRoot

theorem accepted_iff (s : CollectionStore T) (t : Nat) (r : RingIndex) (revision : RevisionIndex) :
    Accepted s t r revision ↔ s.root.get r ≠ none ∧
        (s.ringRevision r = some revision ∨ InGrace s.oldRoots t r revision) := by
  unfold Accepted getRootAtRevision ringRevision InGrace
  cases hRoot : s.root.get r with
  | none => simp
  | some current =>
    by_cases hSame : current.revision = revision
    · simp [hSame]
    · cases hOld : s.oldRoots.get (r, revision) with
      | none => simp [hSame]
      | some old =>
        by_cases hLt : t < saturatingAdd u64Max old.archivedAt T.oldRootRetentionDuration
        · simp [hSame, hLt, graceEnd]
        · simp [hSame, hLt, graceEnd]

theorem isRevisionValid_iff (s : CollectionStore T) (t : Nat) (r : RingIndex)
    (revision : RevisionIndex) :
    s.isRevisionValid t r revision = true ↔
      s.collection.isSome = true ∧ Accepted s t r revision := by
  rw [accepted_iff]
  unfold isRevisionValid ringRevision InGrace
  by_cases hLive : s.collection.isSome = true
  · cases hRoot : s.root.get r with
    | none => simp
    | some current =>
      by_cases hSame : current.revision = revision
      · simp [hSame, hLive]
      · cases hOld : s.oldRoots.get (r, revision) with
        | none => simp [hSame]
        | some old => simp [hSame, hLive, graceEnd]
  · simp [hLive]

--
-- Supersession and the Archive
--

/- The revision of the ring was replaced or removed. -/
def Supersedes (s s' : CollectionStore T) (r : RingIndex) (revision : RevisionIndex) : Prop :=
  s.ringRevision r = some revision ∧ s'.ringRevision r ≠ some revision

/-
  The archive gives every revision that is not the current one the grace window of its last
  supersession: `history` holds the supersessions before `clock`.
-/
structure Dated (s : CollectionStore T) (clock : Nat)
    (history : RingIndex → RevisionIndex → Nat → Prop) :
    Prop where
  before : ∀ r revision a, history r revision a → a ≤ clock
  inGrace : ∀ r revision t,
      s.ringRevision r ≠ some revision → clock ≤ t →
        (InGrace s.oldRoots t r revision ↔
          ∃ a, history r revision a ∧ t < graceEnd T a)

section Dated

variable {s s' : CollectionStore T} {clock now : Nat}
variable {history history' :
  RingIndex → RevisionIndex → Nat → Prop}

theorem Dated.wait (hDated : Dated s clock history) (hLe : clock ≤ now) :
    Dated s now history where
  before := fun r revision a hHistory =>
    Nat.le_trans (hDated.before r revision a hHistory) hLe
  inGrace := fun r revision t hOther hTime => hDated.inGrace r revision t hOther
      (Nat.le_trans hLe hTime)

theorem Dated.congr (hDated : Dated s clock history)
    (hSame : ∀ r revision a, history' r revision a ↔ history r revision a) :
    Dated s clock history' where
  before := fun r revision a hHistory => hDated.before r revision a
      ((hSame r revision a).mp hHistory)
  inGrace := fun r revision t hOther hTime => by
    rw [hDated.inGrace r revision t hOther hTime]
    simp only [hSame]

theorem ringRevision_of_get {r : RingIndex} {root : RingRoot T} (hRoot : s.root.get r = some root) :
    s.ringRevision r = some root.revision := by
  simp only [ringRevision, hRoot, Option.map_some]

/- A step that keeps the current roots supersedes none. -/
theorem not_supersedes_of_kept
    (hKept : ∀ r root, s.root.get r = some root → s'.root.get r = some root) (r : RingIndex)
    (revision : RevisionIndex) :
    ¬ Supersedes s s' r revision := by
  rintro ⟨hOld, hNew⟩
  cases hRoot : s.root.get r with
  | none => simp [ringRevision, hRoot] at hOld
  | some root =>
    have hOld' := ringRevision_of_get hRoot
    have hNew' := ringRevision_of_get (hKept r root hRoot)
    rw [hOld] at hOld'
    exact hNew (hNew'.trans hOld'.symm)

theorem Dated.archive (hDated : Dated s clock history) (hLe : clock ≤ now) {r₀ : RingIndex}
    (hOthers : ∀ r, r ≠ r₀ → s'.root.get r = s.root.get r)
    (hOld : s'.oldRoots = s.archived now r₀ s.oldRoots) :
    Dated s' now (fun r revision a =>
        history r revision a ∨ a = now ∧ Supersedes s s' r revision) where
  before := by
    rintro r revision a (hHistory | ⟨rfl, _⟩)
    · exact Nat.le_trans (hDated.before r revision a hHistory) hLe
    · exact Nat.le_refl _
  inGrace := by
    intro r revision t hOther hTime
    have hTime' := Nat.le_trans hLe hTime
    have hGrace : ∀ old : OldRootMap T, old.get (r, revision) = s.oldRoots.get (r, revision) →
          (InGrace old t r revision ↔ InGrace s.oldRoots t r revision) := by
      intro old hGet
      simp only [InGrace, hGet]
    by_cases hCurrent : s.ringRevision r = some revision
    · -- the step supersedes this revision
      have hRing : r = r₀ := by
        by_contra hNe
        apply hOther
        unfold ringRevision at hCurrent ⊢
        rw [hOthers r hNe]
        exact hCurrent
      subst hRing
      cases hRoot : s.root.get r with
      | none => simp [ringRevision, hRoot] at hCurrent
      | some root =>
        have hRevision := ringRevision_of_get hRoot
        rw [hCurrent, Option.some.injEq] at hRevision
        have hLast : InGrace s'.oldRoots t r revision ↔ t < graceEnd T now := by
          rw [hOld, archived_of_get_some s _ now r hRoot, ← hRevision]
          simp [InGrace]
        rw [hLast]
        constructor
        · intro hLt
          exact ⟨now, Or.inr ⟨rfl, hCurrent, hOther⟩, hLt⟩
        · rintro ⟨a, hHistory | ⟨rfl, _⟩, hLt⟩
          · have hBefore := hDated.before r revision a hHistory
            have hMono : graceEnd T a ≤ graceEnd T now := graceEnd_mono (Nat.le_trans hBefore hLe)
            omega
          · exact hLt
    · have hGet : s'.oldRoots.get (r, revision) = s.oldRoots.get (r, revision) := by
        rw [hOld]
        cases hRoot : s.root.get r₀ with
        | none => rw [archived_of_get_none s _ now r₀ hRoot]
        | some root =>
          rw [archived_of_get_some s _ now r₀ hRoot, StorageMap.get_insert_of_ne]
          intro hEq
          rw [Prod.mk.injEq] at hEq
          apply hCurrent
          rw [hEq.1, hEq.2]
          exact ringRevision_of_get hRoot
      rw [hGrace _ hGet, hDated.inGrace r revision t hCurrent hTime']
      have hNot : ¬ Supersedes s s' r revision := fun hSupersedes => hCurrent hSupersedes.1
      simp only [hNot, and_false, or_false]

theorem Dated.step (hDated : Dated s clock history) (hLe : clock ≤ now)
    {archive : OldRootMap T → OldRootMap T} (hStep : ArchiveStep now s s' archive)
    (hOld : s'.oldRoots = archive s.oldRoots) :
    Dated s' now (fun r revision a =>
        history r revision a ∨ a = now ∧ Supersedes s s' r revision) := by
  cases hStep with
  | archived r₀ hOthers =>
    exact hDated.archive hLe hOthers hOld
  | kept hKept =>
    have hNot := not_supersedes_of_kept hKept
    have hSame : Dated s' now history := by
      refine ⟨(hDated.wait hLe).before, fun r revision t hOther hTime => ?_⟩
      rw [hOld]
      refine (hDated.wait hLe).inGrace r revision t ?_ hTime
      intro hCurrent
      exact hNot r revision ⟨hCurrent, hOther⟩
    refine hSame.congr fun r revision a => ?_
    simp only [hNot r revision, and_false, or_false]

/- The cleaning removes expired roots only. -/
theorem cleanOldRoots_get (s : CollectionStore T) (now : Nat) (r : RingIndex) (limit : Nat)
    (e : RingIndex × RevisionIndex) :
    (cleanOldRoots now r limit s).oldRoots.get e = s.oldRoots.get e
      ∨ (cleanOldRoots now r limit s).oldRoots.get e = none ∧ s.rootExpired now e.1 e.2 = true := by
  induction limit generalizing s with
  | zero => exact Or.inl rfl
  | succ limit ih =>
    unfold cleanOldRoots
    cases hFirst : s.firstOldRevision r with
    | none => exact Or.inl rfl
    | some revision =>
      by_cases hExpired : s.rootExpired now r revision = true
      · simp only [if_pos hExpired]
        have hGet : (s.oldRoots.remove (r, revision)).get e = if e = (r, revision) then none
                else s.oldRoots.get e :=
          StorageMap.get_remove _ _ _
        rcases ih { s with
            oldRoots := s.oldRoots.remove (r, revision) } with
          hKept | ⟨hGone, hOld⟩
        · rw [hKept]
          simp only [hGet]
          by_cases hEq : e = (r, revision)
          · subst hEq
            exact Or.inr ⟨if_pos rfl, hExpired⟩
          · exact Or.inl (if_neg hEq)
        · refine Or.inr ⟨hGone, ?_⟩
          unfold rootExpired at hOld ⊢
          simp only [hGet] at hOld
          split_ifs at hOld with hEq
          exact hOld
      · simp only [if_neg hExpired, true_or]

theorem Dated.clean (hDated : Dated s clock history) (hLe : clock ≤ now)
    {r₀ : RingIndex} {limit : Nat} (hClean : s.cleanUpOldRootsAuthorized now r₀ limit = .ok s') :
    Dated s' now history := by
  refine ⟨(hDated.wait hLe).before, fun r revision t hOther hTime => ?_⟩
  unfold cleanUpOldRootsAuthorized at hClean
  simp only [bind_eq_ok, pure_eq_ok] at hClean
  rcases hClean with ⟨_, _, _, _, hEq⟩
  rcases cleanOldRoots_frame s now r₀ limit with ⟨old, hFrame⟩
  have hRevision : s'.ringRevision r = s.ringRevision r := by
    rw [← hEq, hFrame]
    rfl
  rw [hRevision] at hOther
  rw [← hDated.inGrace r revision t hOther (Nat.le_trans hLe hTime), ← hEq]
  unfold InGrace
  rcases cleanOldRoots_get s now r₀ limit (r, revision) with
    hKept | ⟨hGone, hExpired⟩
  · rw [hKept]
  · -- what was removed is past its grace window
    rw [hGone]
    constructor
    · rintro ⟨x, hNone, _⟩
      exact absurd hNone (by simp)
    · rintro ⟨x, hGet, hLt⟩
      unfold rootExpired at hExpired
      simp only [hGet, decide_eq_true_eq] at hExpired
      unfold graceEnd at hLt
      omega

end Dated

namespace PalletState

--
-- Clocked Runs
--

/- The state after the operations, if all of them succeed. -/
def performed (ops : List (PalletOp T)) :
    Except Failure (PalletState T) :=
  ops.foldlM dispatch genesis

theorem performed_snoc (ops : List (PalletOp T)) (o : PalletOp T) :
    performed (ops ++ [o]) = performed ops >>= fun s => s.dispatch o := by
  unfold performed
  rw [List.foldlM_append]
  refine bind_congr fun s => ?_
  simp only [List.foldlM_cons, List.foldlM_nil, bind_pure]

/- The revision of the ring was superseded by the operation that ran at time `a`. -/
def SupersededAt (ops : List (PalletOp T))
    (id : Identifier) (r : RingIndex) (revision : RevisionIndex) (a : Nat) : Prop :=
  ∃ before o after s s', ops = before ++ o :: after ∧ performed before = .ok s ∧
      s.dispatch o = .ok s' ∧
      o.call.now = a ∧
      Supersedes (s.stores id) (s'.stores id) r revision

theorem supersededAt_snoc {s s' : PalletState T} (hRun : performed ops = .ok s)
    (hStep : s.dispatch o = .ok s') (id : Identifier) (r : RingIndex) (revision : RevisionIndex)
    (a : Nat) :
    SupersededAt (ops ++ [o]) id r revision a ↔ SupersededAt ops id r revision a
        ∨ a = o.call.now ∧ Supersedes (s.stores id) (s'.stores id) r
            revision := by
  constructor
  · rintro ⟨before, o₁, after, s₁, s₁', hSplit, hBefore, hOp, hTime, hSupersedes⟩
    rcases after.eq_nil_or_concat' with
      hNil | ⟨after', o₂, hSnoc⟩
    · subst hNil
      have hParts := List.append_inj' hSplit rfl
      rcases hParts with ⟨hOps, hLast⟩
      rw [List.cons.injEq] at hLast
      rcases hLast with ⟨hLast, _⟩
      subst hOps
      subst hLast
      rw [hRun, Except.ok.injEq] at hBefore
      subst hBefore
      rw [hStep, Except.ok.injEq] at hOp
      subst hOp
      exact Or.inr ⟨hTime.symm, hSupersedes⟩
    · subst hSnoc
      have hSplit' : ops ++ [o] = (before ++ o₁ :: after') ++ [o₂] := by
        rw [hSplit]
        simp
      rcases List.append_inj' hSplit' rfl with ⟨hOps, _⟩
      exact Or.inl ⟨before, o₁, after', s₁, s₁', hOps, hBefore, hOp, hTime, hSupersedes⟩
  · rintro (hOld | ⟨hTime, hSupersedes⟩)
    · rcases hOld with ⟨before, o₁, after, s₁, s₁', hSplit, hRest⟩
      refine ⟨before, o₁, after ++ [o], s₁, s₁', ?_, hRest⟩
      rw [hSplit]
      simp
    · exact ⟨ops, o, [], s, s', rfl, hRun, hStep, hTime.symm, hSupersedes⟩

--
-- Runs Without Cleaning
--

/- Two states that differ in the archived roots only. -/
structure Shadow (s s₂ : PalletState T) : Prop where
  identifiers : s₂.identifiersOf = s.identifiersOf
  stores : ∀ id, ∃ old, s₂.stores id = (s.stores id).withOldRoots old

theorem Shadow.revision {s : PalletState T} (hShadow : Shadow s s₂) (id : Identifier)
    (r : RingIndex) :
    (s₂.stores id).root = (s.stores id).root ∧
      (s₂.stores id).ringRevision r = (s.stores id).ringRevision r := by
  rcases hShadow.stores id with ⟨old, hStore⟩
  rw [hStore]
  exact ⟨rfl, rfl⟩

theorem updateIdentifiers_of_shadow {s : PalletState T} (hShadow : Shadow s s₂) (id : Identifier)
    (op : Op T) :
    s₂.updateIdentifiers id op = s.updateIdentifiers id op := by
  rcases hShadow.stores id with ⟨old, hStore⟩
  unfold updateIdentifiers
  rw [hShadow.identifiers, hStore]
  rfl

/- An operation that cleans nothing up runs on a shadow. -/
theorem Shadow.dispatch {s s' : PalletState T} (hShadow : Shadow s s₂)
    (hKeeps : o.call.op.cleansUp = false) (hStep : s.dispatch o = .ok s') :
    ∃ s₂' archive, s₂.dispatch o = .ok s₂' ∧ Shadow s' s₂' ∧
        ArchiveStep o.call.now (s.stores o.identifier) (s'.stores o.identifier) archive ∧
        (s'.stores o.identifier).oldRoots = archive (s.stores o.identifier).oldRoots ∧
        (s₂'.stores o.identifier).oldRoots = archive (s₂.stores o.identifier).oldRoots ∧
        ∀ id, id ≠ o.identifier → s'.stores id = s.stores id ∧ s₂'.stores id = s₂.stores id := by
  unfold PalletState.dispatch at hStep
  rw [bind_eq_ok] at hStep
  rcases hStep with ⟨store, hApply, hStep⟩
  rw [bind_eq_ok] at hStep
  rcases hStep with ⟨ids, hIds, hEq⟩
  rw [pure_eq_ok] at hEq
  rcases archiveStep_of_apply hKeeps hApply with ⟨archive, hArchive, hFrame⟩
  rcases hShadow.stores o.identifier with ⟨old, hOld⟩
  have hApply₂ := hFrame old
  rw [← hOld] at hApply₂
  have hSame : store.oldRoots = archive (s.stores o.identifier).oldRoots := by
    have hRun : (s.stores o.identifier).apply o.call
          = .ok (store.withOldRoots (archive (s.stores o.identifier).oldRoots)) :=
      hFrame (s.stores o.identifier).oldRoots
    rw [hApply, Except.ok.injEq] at hRun
    rw [hRun]
    rfl
  refine ⟨⟨Function.update s₂.stores o.identifier
    (store.withOldRoots (archive old)), ids⟩, archive, ?_⟩
  subst hEq
  simp only [Function.update_self, hOld]
  refine ⟨?_, ⟨rfl, fun id => ?_⟩, hArchive, hSame, rfl, fun id hNe => ?_⟩
  · unfold PalletState.dispatch
    rw [hApply₂, Except.ok_bind, updateIdentifiers_of_shadow hShadow, hIds]
    rfl
  · by_cases hId : id = o.identifier
    · subst hId
      exact ⟨archive old, by simp only [Function.update_self]⟩
    · simp only [Function.update_of_ne hId]
      exact hShadow.stores id
  · simp only [Function.update_of_ne hNe, true_and]

theorem Shadow.clean {s s' : PalletState T} (hShadow : Shadow s s₂)
    (hCleans : o.call.op.cleansUp = true) (hStep : s.dispatch o = .ok s') :
    Shadow s' s₂ ∧ (∃ r limit, (s.stores o.identifier).cleanUpOldRootsAuthorized
          o.call.now r limit = .ok (s'.stores o.identifier)) ∧
      (∀ id, id ≠ o.identifier → s'.stores id = s.stores id) ∧
      ∀ id r, (s'.stores id).ringRevision r = (s.stores id).ringRevision r := by
  unfold PalletState.dispatch at hStep
  rw [bind_eq_ok] at hStep
  rcases hStep with ⟨store, hApply, hStep⟩
  rw [bind_eq_ok] at hStep
  rcases hStep with ⟨ids, hIds, hEq⟩
  rw [pure_eq_ok] at hEq
  rcases o with ⟨id₀, now, op⟩
  cases op with
  | cleanUpOldRoots r limit =>
    have hIds' : ids = s.identifiersOf := by
      simp only [updateIdentifiers, Except.ok.injEq] at hIds
      exact hIds.symm
    rcases cleanUpOldRoots_eq_ok hApply with ⟨old', hFrame⟩
    subst hEq
    have hStores : ∀ id, ∃ old, Function.update s.stores id₀ store id
            = (s.stores id).withOldRoots old := by
      intro id
      by_cases hId : id = id₀
      · subst hId
        exact ⟨old', by
          simp only [Function.update_self, hFrame]
          rfl⟩
      · simp only [Function.update_of_ne hId]
        exact ⟨_, rfl⟩
    refine ⟨⟨?_, fun id => ?_⟩, ⟨r, limit, ?_⟩, fun id hNe => ?_, fun id r' => ?_⟩
    · rw [hIds']
      exact hShadow.identifiers
    · rcases hShadow.stores id with ⟨old₂, hOld₂⟩
      rcases hStores id with ⟨old, hOld⟩
      refine ⟨old₂, ?_⟩
      change
        _ = (Function.update s.stores id₀ store id).withOldRoots old₂
      rw [hOld₂, hOld]
      rfl
    · simp only [Function.update_self]
      exact hApply
    · simp only [Function.update_of_ne hNe]
    · rcases hStores id with ⟨old, hOld⟩
      simp only [hOld]
      rfl
  | _ => simp [Op.cleansUp] at hCleans

/- The operations other than the cleaning of old roots. -/
def withoutCleaning (ops : List (PalletOp T)) : List (PalletOp T) :=
  ops.filter fun o => !o.call.op.cleansUp

/- The clock never runs backwards. -/
def Clocked (ops : List (PalletOp T)) : Prop :=
  ops.Pairwise fun o o' => o.call.now ≤ o'.call.now

/-
  A run and the run without its cleaning: they differ in the
  archive only, and both archives follow the supersessions.
-/
structure Twins (ops : List (PalletOp T)) (s s₂ : PalletState T) : Prop where
  shadow : Shadow s s₂
  dated : ∀ id clock, (∀ o ∈ ops, o.call.now ≤ clock) →
      Dated (s.stores id) clock (SupersededAt ops id) ∧
        Dated (s₂.stores id) clock (SupersededAt ops id)

theorem twins_nil : Twins (T := T) [] genesis genesis := by
  have hNone : ∀ id r revision a, ¬ SupersededAt (T := T) [] id r revision a := by
    rintro id r revision a ⟨before, o, after, _, _, hSplit, _⟩
    simp at hSplit
  have hDated : ∀ (id : Identifier) clock, Dated ((genesis : PalletState T).stores id) clock
          (SupersededAt (T := T) [] id) := by
    intro id clock
    refine ⟨fun r revision a hHistory =>
      absurd hHistory (hNone id r revision a),
      fun r revision t _ _ => ?_⟩
    constructor
    · rintro ⟨x, hGet, _⟩
      exact absurd hGet (by simp [genesis, empty])
    · rintro ⟨a, hHistory, _⟩
      exact absurd hHistory (hNone id r revision a)
  refine ⟨⟨rfl, fun id => ⟨_, rfl⟩⟩, fun id clock _ => ?_⟩
  exact ⟨hDated id clock, hDated id clock⟩

/- An operation other than a cleaning runs on both. -/
theorem Twins.step {s s' : PalletState T} (hTwins : Twins ops s s₂)
    (hClock : ∀ o' ∈ ops, o'.call.now ≤ o.call.now) (hRun : performed ops = .ok s)
    (hKeeps : o.call.op.cleansUp = false) (hStep : s.dispatch o = .ok s') :
    ∃ s₂', s₂.dispatch o = .ok s₂' ∧ Twins (ops ++ [o]) s' s₂' := by
  rcases hTwins.shadow.dispatch hKeeps hStep with
    ⟨s₂', archive, hStep₂, hShadow', hArchive, hOld, hOld₂, hOthers⟩
  refine ⟨s₂', hStep₂, hShadow', fun id clock hLe => ?_⟩
  have hNow : o.call.now ≤ clock := hLe o (List.mem_append_right _ (List.mem_singleton_self o))
  have hSnoc := supersededAt_snoc hRun hStep id
  rcases hTwins.dated id o.call.now hClock with ⟨hDated, hDated₂⟩
  by_cases hId : id = o.identifier
  · subst hId
    have hRoots := hTwins.shadow.revision o.identifier
    have hRoots' := hShadow'.revision o.identifier
    have hArchive₂ : ArchiveStep o.call.now (s₂.stores o.identifier)
          (s₂'.stores o.identifier) archive := by
      cases hArchive with
      | kept hKept =>
        refine ArchiveStep.kept fun r root hRoot => ?_
        rw [(hRoots' r).1]
        rw [(hRoots r).1] at hRoot
        exact hKept r root hRoot
      | archived r₀ hKept =>
        have hSame : (s.stores o.identifier).archived o.call.now r₀
              = (s₂.stores o.identifier).archived o.call.now
                  r₀ := by
          unfold archived
          rw [(hRoots r₀).1]
        rw [hSame]
        refine ArchiveStep.archived r₀ fun r hNe => ?_
        rw [(hRoots' r).1, (hRoots r).1]
        exact hKept r hNe
    have hNext := hDated.step (Nat.le_refl _) hArchive hOld
    have hNext₂ := hDated₂.step (Nat.le_refl _) hArchive₂ hOld₂
    refine ⟨(hNext.congr fun r revision a => ?_).wait hNow,
      (hNext₂.congr fun r revision a => ?_).wait hNow⟩
    · exact hSnoc r revision a
    · rw [hSnoc r revision a]
      unfold Supersedes
      rw [(hRoots r).2, (hRoots' r).2]
  · rcases hOthers id hId with ⟨hStore, hStore₂⟩
    have hSame : ∀ r revision a, SupersededAt (ops ++ [o]) id r revision a ↔
            SupersededAt ops id r revision a := by
      intro r revision a
      rw [hSnoc r revision a]
      unfold Supersedes
      rw [hStore]
      simp only [and_not_self, and_false, or_false]
    rw [hStore, hStore₂]
    exact ⟨(hDated.congr hSame).wait hNow, (hDated₂.congr hSame).wait hNow⟩

/- A cleaning runs on the one and is left out of the other. -/
theorem Twins.clean {s s' : PalletState T} (hTwins : Twins ops s s₂)
    (hClock : ∀ o' ∈ ops, o'.call.now ≤ o.call.now) (hRun : performed ops = .ok s)
    (hCleans : o.call.op.cleansUp = true) (hStep : s.dispatch o = .ok s') :
    Twins (ops ++ [o]) s' s₂ := by
  rcases hTwins.shadow.clean hCleans hStep with ⟨hShadow', ⟨r₀, limit, hClean⟩, hOthers, hRevisions⟩
  refine ⟨hShadow', fun id clock hLe => ?_⟩
  have hNow : o.call.now ≤ clock := hLe o (List.mem_append_right _ (List.mem_singleton_self o))
  rcases hTwins.dated id o.call.now hClock with ⟨hDated, hDated₂⟩
  have hSame : ∀ r revision a, SupersededAt (ops ++ [o]) id r revision a ↔
          SupersededAt ops id r revision a := by
    intro r revision a
    rw [supersededAt_snoc hRun hStep id r revision a]
    unfold Supersedes
    rw [hRevisions id r]
    simp only [and_not_self, and_false, or_false]
  refine ⟨?_, (hDated₂.congr hSame).wait hNow⟩
  by_cases hId : id = o.identifier
  · subst hId
    have hNext := hDated.clean (Nat.le_refl _) hClean
    exact (hNext.congr hSame).wait hNow
  · rw [hOthers id hId]
    exact (hDated.congr hSame).wait hNow

theorem twins_of_run {s : PalletState T} (hClock : Clocked ops) (hRun : performed ops = .ok s) :
    ∃ s₂, performed (withoutCleaning ops) = .ok s₂ ∧ Twins ops s s₂ := by
  induction ops using List.reverseRecOn generalizing s with
  | nil =>
    have hStart : s = genesis := (Except.ok.inj hRun).symm
    subst hStart
    exact ⟨genesis, rfl, twins_nil⟩
  | append_singleton ops o ih =>
    rw [performed_snoc, bind_eq_ok] at hRun
    rcases hRun with ⟨s₁, hRun, hStep⟩
    rcases List.pairwise_append.mp hClock with ⟨hClock₁, _, hLast⟩
    rcases ih hClock₁ hRun with ⟨s₂, hRun₂, hTwins⟩
    have hBefore : ∀ o' ∈ ops, o'.call.now ≤ o.call.now :=
      fun o' hMem => hLast o' hMem o (List.mem_singleton_self o)
    cases hCleans : o.call.op.cleansUp with
    | true =>
      have hFilter : withoutCleaning (ops ++ [o]) = withoutCleaning ops := by
        simp [withoutCleaning, hCleans]
      rw [hFilter]
      exact ⟨s₂, hRun₂, hTwins.clean hBefore hRun hCleans hStep⟩
    | false =>
      have hFilter : withoutCleaning (ops ++ [o]) = withoutCleaning ops ++ [o] := by
        simp [withoutCleaning, hCleans]
      rcases hTwins.step hBefore hRun hCleans hStep with ⟨s₂', hStep₂, hTwins'⟩
      refine ⟨s₂', ?_, hTwins'⟩
      rw [hFilter, performed_snoc, hRun₂]
      exact hStep₂

theorem accepted_of_dated {s : CollectionStore T} {clock : Nat}
    {history : RingIndex → RevisionIndex → Nat → Prop} (hDated : Dated s clock history) {t : Nat}
    (hTime : clock ≤ t) (r : RingIndex) (revision : RevisionIndex) :
    Accepted s t r revision ↔ s.root.get r ≠ none ∧ (s.ringRevision r = some revision
        ∨ ∃ a, history r revision a ∧ t < graceEnd T a) := by
  rw [accepted_iff]
  by_cases hCurrent : s.ringRevision r = some revision
  · simp only [hCurrent, true_or]
  · rw [hDated.inGrace r revision t hCurrent hTime]

/-
  A revision is accepted exactly while it is current or within the grace window of a supersession,
  cleaning the archive changes nothing about it, and the two reads agree.
-/
theorem grace_window (ops : List (PalletOp T)) (s : PalletState T) (hClock : Clocked ops)
    (hRun : performed ops = .ok s) :
    (∀ id t, (∀ o ∈ ops, o.call.now ≤ t) → ∀ r revision,
        Accepted (s.stores id) t r revision ↔ (s.stores id).root.get r ≠ none ∧
            ((s.stores id).ringRevision r = some revision ∨ ∃ a, SupersededAt ops id r revision a ∧
                t < a + T.oldRootRetentionDuration ∧
                t < u64Max)) ∧
      (∃ s₂, performed (withoutCleaning ops) = .ok s₂ ∧
        ∀ id t, (∀ o ∈ ops, o.call.now ≤ t) → ∀ r revision, Accepted (s.stores id) t r revision ↔
            Accepted (s₂.stores id) t r revision) ∧
      ∀ id t r revision, (s.stores id).isRevisionValid t r revision = true ↔
          (s.stores id).collection.isSome = true ∧ ∃ root,
              (s.stores id).getRootAtRevision t r revision = .ok root := by
  rcases twins_of_run hClock hRun with ⟨s₂, hRun₂, hTwins⟩
  refine ⟨fun id t hTime r revision => ?_,
    ⟨s₂, hRun₂, fun id t hTime r revision => ?_⟩,
    fun id t r revision => isRevisionValid_iff (s.stores id) t r revision⟩
  · rcases hTwins.dated id t hTime with ⟨hDated, _⟩
    rw [accepted_of_dated hDated (Nat.le_refl t)]
    simp only [lt_graceEnd_iff]
  · rcases hTwins.dated id t hTime with ⟨hDated, hDated₂⟩
    have hRoots := hTwins.shadow.revision id r
    rw [accepted_of_dated hDated (Nat.le_refl t),
      accepted_of_dated hDated₂ (Nat.le_refl t), hRoots.1,
      hRoots.2]

--
-- Sample Runs
--

def sampleOp (now : Nat) (op : Op sampleConfig) : PalletOp sampleConfig :=
  ⟨sampleIdentifier, ⟨now, op⟩⟩

/- Three keys, and a root for one more of them at each time. -/
def buildAt (times : List (Nat × Option RevisionIndex)) :
    List (PalletOp sampleConfig) :=
  [sampleOp 0 (.createCollection () 1 .flexible .r2e9 none), sampleOp 0 (.addMembers [10, 11, 12]),
    sampleOp 0 (.onboardMembers 0 0 (some (10 : Nat)))]
    ++ times.map fun x => sampleOp x.1 (.buildRing true 0 .r2e9 x.2 1)

/- Revision 0 expires at time 120 and is cleaned up then. -/
def cleanedOps : List (PalletOp sampleConfig) :=
  buildAt [(10, none), (20, some 0), (130, some 1)] ++ [sampleOp 140 (.cleanUpOldRoots 0 10)]

theorem grace_window_sample : ∃ s s₂ : PalletState sampleConfig,
      performed cleanedOps = .ok s ∧ performed (withoutCleaning cleanedOps) = .ok s₂ ∧
        ((s.stores sampleIdentifier).oldRoots.get (0, 0)).isNone = true ∧
        ¬ Accepted (s₂.stores sampleIdentifier) 140 0 0 ∧
        Accepted (s₂.stores sampleIdentifier) 140 0 1 := by
  have hTest : (performed cleanedOps).toOption.any (fun s =>
        let store := s.stores sampleIdentifier
        (store.oldRoots.get (0, 0)).isNone && decide (¬ Accepted store 140 0 0)
          && decide (Accepted store 140 0 1)) = true := by
    decide +kernel
  rcases exists_ok_of_any hTest with ⟨s, hRun, hStore⟩
  simp only [Bool.and_eq_true, decide_eq_true_eq] at hStore
  rcases hStore with ⟨⟨hCleaned, hOld⟩, hNew⟩
  have hClock : Clocked cleanedOps := by
    unfold Clocked
    decide
  have hTime : ∀ o ∈ cleanedOps, o.call.now ≤ 140 := by
    decide
  rcases grace_window cleanedOps s hClock hRun with ⟨_, ⟨s₂, hRun₂, hSame⟩, _⟩
  have hSame' := hSame sampleIdentifier 140 hTime 0
  exact ⟨s, s₂, hRun, hRun₂, hCleaned, fun hAccepted => hOld ((hSame' 0).mpr hAccepted),
    (hSame' 1).mp hNew⟩

/- The second root is built just before the clock's end. -/
def lateOps : List (PalletOp sampleConfig) :=
  buildAt [(10, none), (u64Max - 1, some 0)]

/- At the last instant of the clock, a revision superseded one second earlier is refused. -/
theorem grace_window_truncated : ∃ (s : PalletState sampleConfig) (t a : Nat),
      Clocked lateOps ∧ (∀ o ∈ lateOps, o.call.now ≤ t) ∧ t ≤ u64Max ∧ performed lateOps = .ok s ∧
        (s.stores sampleIdentifier).root.get 0 ≠ none ∧
        SupersededAt lateOps sampleIdentifier 0 0 a ∧
        t < a + sampleConfig.oldRootRetentionDuration ∧
        ¬ Accepted (s.stores sampleIdentifier) t 0 0 := by
  have hTest : (performed (buildAt [(10, none)])).toOption.any (fun s =>
          ((s.stores sampleIdentifier).ringRevision 0 = some 0 : Bool)
            && (s.dispatch (sampleOp (u64Max - 1)
                (.buildRing true 0 .r2e9 (some 0) 1))).toOption.any fun s' =>
              let store := s'.stores sampleIdentifier
              (store.ringRevision 0 = some 1 : Bool) && decide (¬ Accepted store u64Max 0 0))
        = true := by
    decide +kernel
  rcases exists_ok_of_any hTest with ⟨s, hRun, hStore⟩
  rw [Bool.and_eq_true, decide_eq_true_eq] at hStore
  rcases hStore with ⟨hBefore, hNext⟩
  rcases exists_ok_of_any hNext with ⟨s', hStep, hStore'⟩
  simp only [Bool.and_eq_true, decide_eq_true_eq] at hStore'
  rcases hStore' with ⟨hAfter, hRefused⟩
  have hOps : lateOps = buildAt [(10, none)]
      ++ [sampleOp (u64Max - 1) (.buildRing true 0 .r2e9 (some 0) 1)] := rfl
  refine ⟨s', u64Max, u64Max - 1, ?_, ?_, Nat.le_refl _, ?_, ?_, ?_, ?_, hRefused⟩
  · unfold Clocked
    decide
  · decide
  · rw [hOps, performed_snoc, hRun]
    exact hStep
  · intro hNone
    unfold ringRevision at hAfter
    rw [hNone] at hAfter
    cases hAfter
  · rw [hOps]
    refine ⟨_, _, [], s, s', rfl, hRun, hStep, rfl, hBefore, ?_⟩
    rw [hAfter]
    decide
  · decide

end PalletState

end Individuality.MembersPallet
