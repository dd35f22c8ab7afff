import Individuality.Coinage.UnloadedCount

/-
  When a ring may be cleaned, and when its members are still accepted.  The cleaning checks the
  expiry in 32-bit seconds that stop at the largest one, and the unloads in 64-bit seconds.

  Main declaration: `cleansExpired_iff`
-/

namespace Individuality.Coinage.Recyclers

variable {T : RecyclerConfig} {s s' : Recyclers T}

/- The next ring of a collection that is cleaned. -/
def ringAt (collection : RecyclerCollection) (index : RingIndex) : RecyclerRing where
  instanceId := collection.1
  value := collection.2
  index := index

/- The expiry of a ring, in 64-bit seconds. -/
def expiration (T : RecyclerConfig) (immutableSince : Nat) : Nat :=
  saturatingAdd u64Max immutableSince T.recyclerExpirationTime

/- Once a ring may be cleaned, no revision of it is accepted, now or later. -/
def CleansExpired (s : Recyclers T) (collection : RecyclerCollection) : Prop :=
  s.ensureCanClean collection = .ok () → ∀ index, s.nextRingToClean collection = some index →
      ∀ s' : Recyclers T, T.ringStatus s'.outside collection index
            = T.ringStatus s.outside collection index →
          s.now ≤ s'.now → ∀ revision, s'.validateRecyclerRevision
              (ringAt collection index) revision = false

/-
  The ring has expired, or the 32-bit seconds are not at their
  largest and, for a ring of the future, are before its expiry.
-/
def InStep (T : RecyclerConfig) (immutableSince now : Nat) : Prop :=
  expiration T immutableSince ≤ now ∨ wrapU32 now < u32Max ∧ (immutableSince ≤ now
      ∨ wrapU32 now < wrapU32 immutableSince + T.recyclerExpirationTime)

/- The member service has no root of the ring to accept. -/
def Unspendable (T : RecyclerConfig) (collection : RecyclerCollection) (index : RingIndex)
    (status : RingStatus) : Prop :=
  ∀ outside revision, T.ringStatus outside collection index = some status →
      (T.ringRevision outside collection index).isSome = true →
        T.isRevisionValid outside collection index revision = false

variable {collection : RecyclerCollection}

/- A ring that may be cleaned is immutable. -/
theorem ensureCanClean_eq_ok_iff :
    s.ensureCanClean collection = .ok () ↔ ∃ index status immutableSince,
        s.nextRingToClean collection = some index
          ∧ T.ringStatus s.outside collection index = some status
          ∧ status.immutableSince = some immutableSince
          ∧ saturatingAdd u32Max (wrapU32 immutableSince) T.recyclerExpirationTime
            ≤ wrapU32 s.now := by
  unfold ensureCanClean
  simp only [Except.bind_eq_ok, okOr_eq_ok_iff, ensure_eq_ok_iff]
  constructor
  · rintro ⟨index, hNext, status, hStatus, since, hSince, hElapsed⟩
    exact ⟨index, status, since, hNext, hStatus, hSince, hElapsed⟩
  · rintro ⟨index, status, since, hNext, hStatus, hSince, hElapsed⟩
    exact ⟨index, hNext, status, hStatus, since, hSince, hElapsed⟩

variable {immutableSince : Nat} {status : RingStatus}

/- Before its expiry a ring accepts the revisions with a root. -/
theorem validateRecyclerRevision_eq_true_iff
    (s : Recyclers T) (ring : RecyclerRing) (revision : RevisionIndex)
    (hStatus : T.ringStatus s.outside ring.collection ring.index = some status)
    (hSince : status.immutableSince = some immutableSince) :
    s.validateRecyclerRevision ring revision = true ↔ s.now < expiration T immutableSince
        ∧ (T.ringRevision s.outside ring.collection ring.index).isSome = true
        ∧ T.isRevisionValid s.outside ring.collection ring.index revision = true := by
  unfold validateRecyclerRevision
  rw [hStatus]
  dsimp only
  rw [hSince]
  simp only [Bool.and_eq_true, Bool.not_eq_true', decide_eq_false_iff_not, Nat.not_le, and_assoc]
  rfl

/- Seconds that wrapped keep their order within an era, and a ring of an earlier era has expired. -/
theorem elapsed_of_wrapped {since now e : Nat} (hBefore : wrapU32 now < u32Max)
    (hNow : since ≤ now ∨ wrapU32 now < wrapU32 since + e)
    (hElapsed : saturatingAdd u32Max (wrapU32 since) e ≤ wrapU32 now) :
    since + e ≤ now := by
  unfold wrapU32 saturatingAdd u32Max at *
  omega

theorem elapsed_of_ensureCanClean {index : RingIndex}
    (hNext : s.nextRingToClean collection = some index)
    (hStatus : T.ringStatus s.outside collection index = some status)
    (hSince : status.immutableSince = some immutableSince) (hInStep : InStep T immutableSince s.now)
    (hClean : s.ensureCanClean collection = .ok ()) :
    expiration T immutableSince ≤ s.now := by
  rcases ensureCanClean_eq_ok_iff.mp hClean with
    ⟨index', status', since', hNext', hStatus', hSince', hElapsed⟩
  rw [hNext] at hNext'
  cases hNext'
  rw [hStatus] at hStatus'
  cases hStatus'
  rw [hSince] at hSince'
  cases hSince'
  rcases hInStep with hExpired | ⟨hBefore, hNow⟩
  · exact hExpired
  · exact Nat.le_trans (saturatingAdd_le_add _ _ _) (elapsed_of_wrapped hBefore hNow hElapsed)

/-
  What may be cleaned is never accepted again, exactly unless the check of the cleaning is out of
  step with an expiry that is yet to come.
-/
theorem cleansExpired_iff (T : RecyclerConfig) (s : Recyclers T) (collection : RecyclerCollection) :
    s.CleansExpired collection ↔ ∀ index status immutableSince,
        s.nextRingToClean collection = some index →
          T.ringStatus s.outside collection index = some status →
            status.immutableSince = some immutableSince → InStep T immutableSince s.now
                ∨ Unspendable T collection index status := by
  constructor
  · intro hCleans index status since hNext hStatus hSince
    by_cases hInStep : InStep T since s.now
    · exact Or.inl hInStep
    · right
      unfold InStep at hInStep
      push Not at hInStep
      rcases hInStep with ⟨hPending, hOut⟩
      have hClean : s.ensureCanClean collection = .ok () := by
        rw [ensureCanClean_eq_ok_iff]
        refine ⟨index, status, since, hNext, hStatus, hSince, ?_⟩
        by_cases hBefore : wrapU32 s.now < u32Max
        · exact Nat.le_trans (saturatingAdd_le_add _ _ _) (hOut hBefore).2
        · exact Nat.le_trans (saturatingAdd_le _ _ _) (Nat.le_of_not_lt hBefore)
      intro outside revision hSame hRoot
      have hRejected := hCleans hClean index hNext { s with outside := outside }
          (hSame.trans hStatus.symm) (Nat.le_refl _) revision
      by_contra hValid
      rw [Bool.not_eq_false] at hValid
      have hAccepted := (validateRecyclerRevision_eq_true_iff { s with outside := outside }
          (ringAt collection index) revision hSame hSince).mpr
          ⟨hPending, hRoot, hValid⟩
      rw [hAccepted] at hRejected
      exact absurd hRejected (by decide)
  · intro hCondition hClean index hNext s' hSame hLater revision
    rcases ensureCanClean_eq_ok_iff.mp hClean with
      ⟨index', status, since, hNext', hStatus, hSince, _⟩
    rw [hNext] at hNext'
    cases hNext'
    rw [hStatus] at hSame
    by_contra hAccepted
    rw [Bool.not_eq_false, validateRecyclerRevision_eq_true_iff s'
        (ringAt collection index) revision hSame hSince]
      at hAccepted
    rcases hAccepted with ⟨hPending, hRoot, hValid⟩
    rcases hCondition index status since hNext hStatus hSince with
      hInStep | hUnspendable
    · have hExpired := elapsed_of_ensureCanClean hNext hStatus hSince hInStep hClean
      omega
    · have hInvalid := hUnspendable s'.outside revision hSame hRoot
      rw [show T.isRevisionValid s'.outside collection index
          revision = true from hValid] at hInvalid
      exact absurd hInvalid (by decide)

/-
  At the last second that 32 bits can hold, a ring may be cleaned that became immutable just before.
-/
theorem not_cleansExpired_sample : ¬ CleansExpired
        (genesis u32Max (some (u32Max - 4)) : Recyclers sampleRecyclers)
        (0, 0) := by
  intro hCleans
  have hRejected := hCleans (by decide) 0 (by decide)
      (genesis u32Max (some (u32Max - 4))) rfl (Nat.le_refl _) 0
  exact absurd hRejected (by decide)

end Individuality.Coinage.Recyclers
