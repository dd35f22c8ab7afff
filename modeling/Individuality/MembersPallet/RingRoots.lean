import Individuality.MembersPallet.RingKeys

/-
  Ring roots as commitments: the intermediate of a root is the one obtained from the included keys
  of its ring, in page order.

  Main declaration: `PalletState.root_commits`
-/

namespace Individuality.MembersPallet

open StorageMap (getD_insert getD_remove)

variable {T : Config} {s s' : CollectionStore T} {r : RingIndex} {keys : List T.Member}
variable {info : CollectionInfo T}

open CollectionStore

--
-- Pushing Keys
--

/-
  Pushing members composes over concatenation: pushing none changes nothing, and pushing two lists
  one after the other is pushing their concatenation.
-/
structure PushComposes (T : Config) : Prop where
  nil : ∀ e i, T.pushMembers e i [] = some i
  append : ∀ e i xs ys,
      T.pushMembers e i (xs ++ ys)
        = (T.pushMembers e i xs).bind fun j => T.pushMembers e j ys

/- The pages of a ring, put together in page order. -/
def CollectionStore.keysInOrder (s : CollectionStore T) (r : RingIndex) : List T.Member :=
  (List.range ((s.ringStatus r).total / T.flexibleRingCapacity + 1)).flatMap (s.page r)

theorem keysInOrder_congr (hPage : s'.page r = s.page r)
    (hTotal : (s'.ringStatus r).total = (s.ringStatus r).total) :
    s'.keysInOrder r = s.keysInOrder r := by
  unfold keysInOrder
  rw [hPage, hTotal]

theorem RingHolds.keysInOrder_eq (hHolds : RingHolds s r keys) :
    s.keysInOrder r = keys := by
  unfold keysInOrder
  rw [hHolds.paged.flatMap_range, hHolds.total]
  apply List.take_of_length_le
  have hDiv := Nat.div_add_mod' keys.length T.flexibleRingCapacity
  have hMod := Nat.mod_lt keys.length T.flexibleRingCapacity_pos
  rw [Nat.add_mul, Nat.one_mul]
  omega

/-
  The loop over the pages collects the keys that follow the included ones, across page boundaries.
-/
theorem collectKeys_eq (hPaged : Paged T.flexibleRingCapacity (s.page r) keys)
    (hBound : keys.length ≤ u32Max) (passes : Nat) (status : RingStatus) (toInclude : Nat)
    (collected : List T.Member) (hTotal : status.total = keys.length)
    (hIncluded : status.included ≤ keys.length) (hPasses : toInclude ≤ passes)
    (hRoom : status.included + toInclude ≤ keys.length) :
    s.collectKeys r passes status toInclude collected
      = ({ status with
            included := status.included + toInclude },
          collected ++ (keys.drop status.included).take toInclude) := by
  induction passes generalizing status toInclude collected with
  | zero =>
    have hZero : toInclude = 0 := Nat.le_zero.mp hPasses
    subst hZero
    simp [collectKeys]
  | succ passes ih =>
    by_cases hZero : toInclude = 0
    · subst hZero
      simp [collectKeys]
    · have hPos := T.flexibleRingCapacity_pos
      have hMod := Nat.mod_lt status.included hPos
      -- the keys that this pass takes from its page
      generalize hPush : min toInclude (min (status.total - status.included)
            (T.flexibleRingCapacity - status.included % T.flexibleRingCapacity))
          = toPush
      have hPushPos : 0 < toPush := by omega
      have hPushLe : toPush ≤ toInclude := by omega
      have hBlock : toPush ≤ T.flexibleRingCapacity - status.included % T.flexibleRingCapacity := by
        omega
      have hAdd : saturatingAdd u32Max status.included toPush = status.included + toPush :=
        saturatingAdd_of_le (by omega)
      unfold collectKeys
      simp only [hPush, if_neg hZero, if_neg (Nat.pos_iff_ne_zero.mp hPushPos), hAdd]
      have hNext := ih { status with included := status.included + toPush } (toInclude - toPush)
          (collected ++ (keys.drop status.included).take toPush)
          hTotal (by simp only; omega) (by omega)
          (by simp only; omega)
      rw [hPaged.take_drop_page hBlock, hNext]
      simp only [Prod.mk.injEq, RingStatus.mk.injEq, true_and, and_true, List.append_assoc,
        List.append_cancel_left_eq]
      refine ⟨by omega, ?_⟩
      rw [← List.drop_drop, ← List.take_add]
      congr 1
      omega

--
-- Roots Commit to the Included Keys
--

/-
  A stored root is finished from its intermediate, which is
  what pushing the included keys onto the start gives.
-/
def RootCommits (s : CollectionStore T) (r : RingIndex) : Prop :=
  ∀ root, s.root.get r = some root → ∃ info,
      (s.collection = some info ∨ s.suspendedCollection = some info) ∧ T.pushMembers info.ringSize
            (T.startMembers info.ringSize)
            ((s.keysInOrder r).take (s.ringStatus r).included)
          = some root.intermediate ∧
        root.root = T.finishMembers root.intermediate

/- A ring without a root has no included keys. -/
structure RootTracks (s : CollectionStore T) (r : RingIndex) : Prop where
  fresh : s.root.get r = none → (s.ringStatus r).included = 0
  commits : RootCommits s r

/- What is known of a ring that is never removed. -/
structure KeptRing (s : CollectionStore T) (r : RingIndex) : Prop where
  sound : RingsSound s r
  notQueued : s.collection.isSome = true → ¬ s.ringQueued r
  tracks : RootTracks s r

theorem RootTracks.frame (hTracks : RootTracks s r) (hRoot : s'.root.get r = s.root.get r)
    (hPage : s'.page r = s.page r) (hStatus : s'.ringStatus r = s.ringStatus r)
    (hInfo : ∀ info, s.collection = some info ∨ s.suspendedCollection = some info →
        s'.collection = some info ∨ s'.suspendedCollection = some info) :
    RootTracks s' r where
  fresh := by
    rw [hRoot, hStatus]
    exact hTracks.fresh
  commits := by
    intro root hGet
    rw [hRoot] at hGet
    rcases hTracks.commits root hGet with ⟨info, hSome, hPush, hFinish⟩
    refine ⟨info, hInfo info hSome, ?_, hFinish⟩
    rw [keysInOrder_congr hPage (by rw [hStatus]), hStatus]
    exact hPush

theorem rootTracks_of_none (hNone : s.root.get r = none)
    (hIncluded : (s.ringStatus r).included = 0) :
    RootTracks s r where
  fresh := fun _ => hIncluded
  commits := by
    intro root hGet
    rw [hNone] at hGet
    exact absurd hGet (Option.some_ne_none root).symm

/- A ring with a root is not doomed. -/
theorem KeptRing.holds {root : RingRoot T} (hKept : KeptRing s r)
    (hRoot : s.root.get r = some root) :
    ∃ keys, RingHolds s r keys := by
  rcases hKept.sound.ring with ⟨⟨hNone, _⟩, _⟩ | hHolds
  · rw [hRoot] at hNone
    exact absurd hNone (Option.some_ne_none root)
  · exact hHolds

variable {new : List T.Member}

/- Keys appended after the included ones do not matter. -/
theorem RootTracks.append (hTracks : RootTracks s r) (hHolds : RingHolds s r keys)
    (hHolds' : RingHolds s' r (keys ++ new))
    (hIncluded : (s.ringStatus r).included ≤ (s.ringStatus r).total)
    (hSame : (s'.ringStatus r).included = (s.ringStatus r).included)
    (hRoot : s'.root.get r = s.root.get r) (hInfo : s'.collection = s.collection)
    (hSuspended : s'.suspendedCollection = s.suspendedCollection) :
    RootTracks s' r where
  fresh := by
    rw [hRoot, hSame]
    exact hTracks.fresh
  commits := by
    intro root hGet
    rw [hRoot] at hGet
    rcases hTracks.commits root hGet with ⟨info, hSome, hPush, hFinish⟩
    refine ⟨info, ?_, ?_, hFinish⟩
    · rw [hInfo, hSuspended]
      exact hSome
    · rw [hHolds.total] at hIncluded
      rw [hHolds'.keysInOrder_eq, hSame, List.take_append_of_le_length hIncluded,
        ← hHolds.keysInOrder_eq]
      exact hPush

theorem rootTracks_of_addition {top : AvailableRing T} (hKept : KeptRing s r)
    (hAddition : Addition s s' info top new) :
    RootTracks s' r := by
  have hLive : s.collection.isSome = true := by
    rw [hAddition.collection]
    rfl
  have hSound := hKept.sound
  rcases Addition.holds hSound.life (hSound.current hLive) hSound.isOpen hAddition with
    ⟨keys, hHolds, hTop, hHolds', hIncluded⟩
  rcases hAddition.writes with ⟨filled, members, ringKeys, head, queue, stale, hPages, hEq⟩
  by_cases hCurrent : r = s.currentRingIndex
  · rw [← hCurrent] at hHolds hHolds' hIncluded
    refine hKept.tracks.append hHolds hHolds' (hSound.book.included_le r) hIncluded ?_ ?_ ?_ <;>
      rw [hEq]
  · have hOther : r ≠ top.ringIndex := by
      rw [hTop]
      exact hCurrent
    rw [hEq]
    apply hKept.tracks.frame
    · rfl
    · funext p
      exact hPages r p hOther
    · simp only [ringStatus, ringStatus_insert, if_neg hOther]
    · exact fun _ hSome => hSome

/- What a build of a ring collects are the keys that follow the included ones. -/
theorem collectKeys_of_sound {n : Nat} (hSound : RingSound s r)
    (hUnincluded : 0 < n ∧ n ≤ (s.ringStatus r).total - (s.ringStatus r).included) :
    ∃ keys, RingHolds s r keys ∧ s.collectKeys r n (s.ringStatus r) n []
        = ({ s.ringStatus r with
              included := (s.ringStatus r).included + n },
            (keys.drop (s.ringStatus r).included).take n) := by
  rcases hSound with ⟨⟨_, hZero⟩, _⟩ | ⟨keys, hHolds⟩
  · omega
  · have hTotal := hHolds.total
    have hMax : keys.length ≤ u32Max := Nat.le_trans hHolds.bounded (by decide)
    refine ⟨keys, hHolds, ?_⟩
    rw [collectKeys_eq hHolds.paged hMax n _ n [] hTotal (by omega) (Nat.le_refl n) (by omega)]
    rfl

/- The intermediate that a build starts from. -/
theorem RootTracks.start {i : T.Intermediate} {revision : RevisionIndex} (hTracks : RootTracks s r)
    (hCompose : PushComposes T) (hLife : Lifecycle s) (hInfo : s.collection = some info)
    (hFrom : s.root.get r = none ∧ revision = 0 ∧ i = T.startMembers info.ringSize
        ∨ ∃ existing, s.root.get r = some existing ∧ existing.revision + 1 ≤ u32Max
          ∧ revision = existing.revision + 1
          ∧ i = existing.intermediate) :
    T.pushMembers info.ringSize (T.startMembers info.ringSize)
        ((s.keysInOrder r).take (s.ringStatus r).included)
      = some i := by
  rcases hFrom with ⟨hNone, _, rfl⟩ | ⟨existing, hGet, _, _, rfl⟩
  · rw [hTracks.fresh hNone, List.take_zero]
    exact hCompose.nil _ _
  · rcases hTracks.commits existing hGet with ⟨info', hSome, hPush, _⟩
    have hSame : info' = info := by
      rcases hSome with hLive | hSuspended
      · rw [hInfo, Option.some.injEq] at hLive
        exact hLive.symm
      · have hLive : s.collection.isSome = true := by
          rw [hInfo]
          rfl
        rw [hLife.live_not_suspended hLive] at hSuspended
        exact absurd hSuspended (Option.some_ne_none info').symm
    rw [← hSame]
    exact hPush

/- A build extends the commitment by the keys that follow the included ones. -/
theorem rootTracks_of_build {root : RingRoot T} {i : T.Intermediate} {n : Nat}
    (hCompose : PushComposes T) (hHolds : RingHolds s r keys) (hPage : s'.page r = s.page r)
    (hTotal : (s'.ringStatus r).total = (s.ringStatus r).total)
    (hIncluded : (s'.ringStatus r).included = (s.ringStatus r).included + n)
    (hInfo : s'.collection = some info) (hRoot : s'.root.get r = some root)
    (hStart : T.pushMembers info.ringSize (T.startMembers info.ringSize)
        (keys.take (s.ringStatus r).included) = some i)
    (hPush : T.pushMembers info.ringSize i ((keys.drop (s.ringStatus r).included).take n)
        = some root.intermediate)
    (hFinish : root.root = T.finishMembers root.intermediate) :
    RootTracks s' r where
  fresh := by
    intro hNone
    rw [hRoot] at hNone
    exact absurd hNone (Option.some_ne_none root)
  commits := by
    intro new hGet
    rw [hRoot, Option.some.injEq] at hGet
    subst hGet
    refine ⟨info, Or.inl hInfo, ?_, hFinish⟩
    rw [keysInOrder_congr hPage hTotal, hHolds.keysInOrder_eq,
      hIncluded, List.take_add, hCompose.append, hStart]
    exact hPush

variable {op : Op T}

theorem RingEffect.rootTracks (hEffect : RingEffect s op s') (hCompose : PushComposes T)
    (hKept : KeptRing s r) (hSound' : RingSound s' r) :
    RootTracks s' r := by
  cases hEffect with
  | created op info size hNone hSuspended hRetired hSize =>
    have hZero := (hKept.sound.life.unused hNone hRetired).2.1 r
    have hLe := hKept.sound.book.included_le r
    rw [hZero] at hLe
    apply rootTracks_of_none
    · exact hKept.sound.book.unused_root hNone hRetired r
    · exact Nat.le_zero.mp hLe
  | dropped op info hInfo =>
    apply hKept.tracks.frame
    · rfl
    · rfl
    · rfl
    · rintro info' (hSome | hSome)
      · right
        rw [← hSome, hInfo]
      · have hLive : s.collection.isSome = true := by
          rw [hInfo]
          rfl
        rw [hKept.sound.life.live_not_suspended hLive] at hSome
        exact absurd hSome (Option.some_ne_none info').symm
  | added op s' info top hOp hNew hAddition =>
    exact rootTracks_of_addition hKept hAddition
  | built op info r' toInclude i root stale oldRoots
      immutableSince hInfo hUnincluded hFrom hPush hFinish =>
      by_cases hEq : r = r'
      · subst hEq
        rcases collectKeys_of_sound hKept.sound.ring hUnincluded with ⟨keys, hHolds, hCollect⟩
        have hStart := hKept.tracks.start hCompose hKept.sound.life hInfo hFrom
        rw [hHolds.keysInOrder_eq] at hStart
        rw [hCollect] at hPush
        refine rootTracks_of_build hCompose hHolds ?_ ?_ ?_ hInfo ?_ hStart hPush hFinish
        · rfl
        · simp only [ringStatus, ringStatus_insert]
          exact collectKeys_total s r toInclude _ _ _
        · simp only [ringStatus, ringStatus_insert]
          exact congrArg (fun x => x.1.included) hCollect
        · exact StorageMap.get_insert_self ..
      · apply hKept.tracks.frame
        · exact StorageMap.get_insert_of_ne _ _ hEq
        · rfl
        · simp only [ringStatus, ringStatus_insert, if_neg hEq]
        · exact fun _ hSome => hSome
  | merged b t info f root oldRoots changes stale hInfo hMode
      hNe hBaseNe hTargetNe hBase hTarget hLengths
      hBasePending hTargetPending hKeys hFold hRoot =>
      have hLive : s.collection.isSome = true := by
        rw [hInfo]
        rfl
      have hCapacity : info.ringSize.ringCapacity ≤ T.flexibleRingCapacity :=
        (hKept.sound.life.size_allowed info hInfo hMode).2
      by_cases hIsTarget : r = t
      · apply rootTracks_of_none
        · rw [hRoot, if_pos hIsTarget]
        · simp [ringStatus, getD_remove, hIsTarget]
      · by_cases hIsBase : r = b
        · subst hIsBase
          rcases hKept.sound.ring with ⟨_, hDoomed⟩ | ⟨keys, hHolds⟩
          · exact (hKept.notQueued hLive ⟨_, hDoomed 0 hBase, rfl⟩).elim
          rcases hSound' with ⟨⟨_, hZero⟩, _⟩ | ⟨keys', hHolds'⟩
          · have hPos := List.length_pos_iff.mpr hTarget
            simp only [ringStatus, getD_remove, getD_insert, if_neg hNe] at hZero
            have hSum : 0 < saturatingAdd u32Max (s.ringStatus r).total (s.page t 0).length :=
              saturatingAdd_pos (by decide) hPos
            exact absurd hZero (Nat.ne_of_gt hSum)
          · have hEq := hHolds.eq_page (by omega)
            have hFirst : CollectionStore.page
                    { s with
                      ringKeys := (s.ringKeys.insert (r, 0) f.keys).remove (t, 0) } r 0
                  = keys ++ s.page t 0 := by
              rw [hEq, ← hKeys]
              simp [CollectionStore.page, ringPage, getD_remove, getD_insert, hNe]
            have hEq' : keys' = keys ++ s.page t 0 := by
              rw [← hFirst]
              apply hHolds'.eq_page
              refine lt_of_eq_of_lt (congrArg List.length hFirst) ?_
              rw [List.length_append, hEq]
              omega
            subst hEq'
            apply hKept.tracks.append hHolds hHolds' (hKept.sound.book.included_le r)
            · simp [ringStatus, getD_remove, getD_insert, hNe]
            · rw [hRoot, if_neg hIsTarget]
            · rfl
            · rfl
        · apply hKept.tracks.frame
          · rw [hRoot, if_neg hIsTarget]
          · funext p
            simp [CollectionStore.page, ringPage, getD_remove, getD_insert, hIsBase, hIsTarget]
          · simp [ringStatus, getD_remove, getD_insert, hIsBase, hIsTarget]
          · exact fun _ hSome => hSome
  | reset r' revision info root oldRoots stale ringKeys hInfo
      hPending hRoot hPages =>
      by_cases hEq : r = r'
      · subst hEq
        have hIncluded : (StorageMap.getD (s.ringKeysStatus.insert r
                { s.ringStatus r with
                  total := (s.keptKeys r).length
                  included := 0 }) r {}).included = 0 := by
          rw [ringStatus_insert, if_pos rfl]
        refine ⟨fun _ => hIncluded, ?_⟩
        intro new hGet
        rw [hRoot, if_pos rfl, Option.map_eq_some_iff] at hGet
        rcases hGet with ⟨old, _, rfl⟩
        refine ⟨info, Or.inl hInfo, ?_, rfl⟩
        rw [ringStatus, hIncluded, List.take_zero]
        exact hCompose.nil _ _
      · apply hKept.tracks.frame
        · rw [hRoot, if_neg hEq]
        · funext p
          refine (hPages (r, p)).trans (if_neg ?_)
          intro hPair
          rw [Prod.mk.injEq] at hPair
          exact hEq hPair.1
        · simp only [ringStatus, ringStatus_insert, if_neg hEq]
        · exact fun _ hSome => hSome
  | enqueued op r' root oldRoots changes stale hOp hRoot =>
    by_cases hEq : r = r'
    · apply rootTracks_of_none
      · rw [hRoot, if_pos hEq]
      · simp [ringStatus, getD_remove, hEq]
    · apply hKept.tracks.frame
      · rw [hRoot, if_neg hEq]
      · rfl
      · simp [ringStatus, getD_remove, hEq]
      · exact fun _ hSome => hSome
  | pageDeleted r' p hMem =>
    by_cases hEq : r = r'
    · subst hEq
      cases hRoot : s.root.get r with
      | none =>
        exact rootTracks_of_none hRoot (hKept.tracks.fresh hRoot)
      | some root =>
        rcases hKept.holds hRoot with ⟨keys, hHolds⟩
        exact (hHolds.notQueued ⟨_, hMem, rfl⟩).elim
    · apply hKept.tracks.frame
      · rfl
      · funext p'
        simp only [CollectionStore.page, ringPage, getD_remove, Prod.mk.injEq, hEq,
          false_and, if_false]
      · rfl
      · exact fun _ hSome => hSome
  | finalized hSuspended hStatus hQueue =>
    have hNone : s.root.get r = none := by
      by_contra hSome
      exact hKept.sound.book.root_status r hSome (hStatus r)
    exact rootTracks_of_none hNone (hKept.tracks.fresh hNone)
  | _ =>
    exact hKept.tracks.frame rfl rfl rfl fun _ hSome => hSome

/- A ring that is never removed does not wait for deletion while its collection is live. -/
theorem RingEffect.notQueued (hEffect : RingEffect s op s') (hLife : Lifecycle s)
    (hOp : op ≠ .removeRing r) (hQueue : s.collection.isSome = true → ¬ s.ringQueued r) :
    s'.collection.isSome = true → ¬ s'.ringQueued r := by
  cases hEffect with
  | created op info size hNone hSuspended hRetired hSize =>
    rintro _ ⟨e, hMem, _⟩
    have hEmpty := (hLife.unused hNone hRetired).2.2
    simp [hEmpty] at hMem
  | dropped op info hInfo =>
    intro hSome
    simp at hSome
  | added op s' info top hPlace hNew hAddition =>
    rcases hAddition.writes with ⟨_, _, _, _, _, _, _, rfl⟩
    exact hQueue
  | enqueued op r' root oldRoots changes stale hWhich hRoot =>
    rintro hLive ⟨⟨r'', p⟩, hMem, rfl⟩
    rw [Finset.mem_union, mem_ringPageEntries_iff] at hMem
    rcases hMem with hOld | ⟨rfl, _⟩
    · exact hQueue hLive ⟨_, hOld, rfl⟩
    · rcases hWhich with ⟨hRemove, _⟩ | ⟨_, hSuspended⟩
      · exact hOp hRemove
      · rw [hLife.live_not_suspended hLive] at hSuspended
        simp at hSuspended
  | pageDeleted r' p hMem =>
    rintro hLive ⟨e, hErased, hIndex⟩
    exact hQueue hLive ⟨e, Finset.mem_of_mem_erase hErased, hIndex⟩
  | _ => exact hQueue

theorem RingEffect.keptRing (hEffect : RingEffect s op s') (hCompose : PushComposes T)
    (hSession : FlexibleSession s op) (hOp : op ≠ .removeRing r) (hKept : KeptRing s r) :
    KeptRing s' r := by
  have hSpares : s.collection.isSome = true → SparesDoomed r s op :=
    fun hLive => sparesDoomed_of_not_queued op (hKept.notQueued hLive)
  have hSound := hEffect.ringsSound hSession hSpares hKept.sound
  exact ⟨hSound, hEffect.notQueued hKept.sound.life hOp hKept.notQueued,
    hEffect.rootTracks hCompose hKept hSound.ring⟩

namespace PalletState

/-
  The step does not remove ring `r` of `id`, and opens
  removal sessions on flexible collections only.
-/
def KeepsRing (id : Identifier) (r : RingIndex) (s : PalletState T) (o : PalletOp T)
    (_ : PalletState T) : Prop :=
  o.identifier = id → o.call.op ≠ .removeRing r ∧ FlexibleSession (s.stores id) o.call.op

theorem keptRing_of_run {id : Identifier} {s : PalletState T} (hCompose : PushComposes T)
    (hRun : RunUnder dispatch (KeepsRing id r) genesis s) :
    KeptRing (s.stores id) r := by
  refine store_invariant_of_run (fun id' store => id' = id → KeptRing store r) hRun ?_ ?_ id rfl
  · rintro s o s' store hKeeps hApply _ hKept rfl
    rcases hKeeps rfl with ⟨hOp, hSession⟩
    exact (ringEffect_of_apply hApply).keptRing hCompose hSession hOp (hKept rfl)
  · intro id' _
    refine ⟨ringsSound_empty r, ?_, ?_⟩
    · rintro _ ⟨e, hMem, _⟩
      simp [genesis, CollectionStore.empty] at hMem
    · exact rootTracks_of_none rfl rfl

/-
  In every reachable state the root of a ring that was never removed commits to the first included
  keys of the ring, and a build of the ring pushes the keys that follow them.
-/
theorem root_commits (hCompose : PushComposes T)
    (id : Identifier) (r : RingIndex) (s : PalletState T)
    (hRun : RunUnder dispatch (KeepsRing id r) genesis s) :
    RootCommits (s.stores id) r ∧ ∀ now ready ringExponent revision n store,
        (s.stores id).apply ⟨now, .buildRing ready r ringExponent revision n⟩ = .ok store →
        (s.stores id).collectKeys r n ((s.stores id).ringStatus r) n []
          = ({ (s.stores id).ringStatus r with
                included := ((s.stores id).ringStatus r).included + n },
              (((s.stores id).keysInOrder r).drop ((s.stores id).ringStatus r).included).take
                n) := by
  have hKept := keptRing_of_run hCompose hRun
  refine ⟨hKept.tracks.commits, ?_⟩
  intro now ready ringExponent revision n store hApply
  rcases buildRingAuthorized_eq_ok hApply with ⟨_, hLe, hPos, _⟩
  rcases collectKeys_of_sound hKept.sound.ring ⟨hPos, hLe⟩ with ⟨keys, hHolds, hCollect⟩
  rw [hCollect, hHolds.keysInOrder_eq]

theorem pushComposes_sample : PushComposes sampleConfig where
  nil := fun _ i => congrArg some (List.append_nil i)
  append := fun _ i xs ys => congrArg some (List.append_assoc i xs ys).symm

/- The operation removes no ring and opens no session. -/
def keeping (_ : PalletState sampleConfig) (o : PalletOp sampleConfig) : Bool :=
  match o.call.op with
  | .removeRing _ => false
  | .startRemovalSession => false
  | _ => true

theorem keepsRing_of_keeping (s : PalletState sampleConfig) (o : PalletOp sampleConfig)
    (s' : PalletState sampleConfig) (hKeeping : keeping s o = true) :
    KeepsRing sampleIdentifier 0 s o s' := by
  intro _
  constructor
  · intro hOp
    simp [keeping, hOp] at hKeeping
  · intro hOp
    simp [keeping, hOp] at hKeeping

/- Three members of an append-only ring, included one by one. -/
def buildOps : List (TimedOp sampleConfig) :=
  [⟨0, .createCollection () 1 .appendOnly .r2e10 none⟩, ⟨0, .addMembers [10, 11, 12]⟩,
    ⟨0, .onboardMembers 0 0 (some 10)⟩,
    ⟨0, .buildRing true 0 .r2e10 none 1⟩,
    ⟨0, .buildRing true 0 .r2e10 (some 0) 1⟩]

/- Ring 0 commits to its first two keys. -/
theorem root_commits_sample : ∃ s : PalletState sampleConfig,
      RunUnder dispatch (KeepsRing sampleIdentifier 0) genesis s ∧
        ((s.stores sampleIdentifier).root.get 0).map (fun x => (x.root, x.revision))
          = some ([10, 11], 1) ∧
        RootCommits (s.stores sampleIdentifier) 0 := by
  have hExecute : (performAll keeping buildOps).any (fun s =>
          ((s.stores sampleIdentifier).root.get 0).map (fun x => (x.root, x.revision))
            = some ([10, 11], 1)) = true := by
    decide +kernel
  have hReached : ∃ s, RunUnder dispatch (KeepsRing sampleIdentifier 0) genesis s ∧ decide
          (((s.stores sampleIdentifier).root.get 0).map (fun x => (x.root, x.revision))
            = some ([10, 11], 1)) = true :=
    exists_run_of_execute (fun s o s' hKeeping _ => keepsRing_of_keeping s o s' hKeeping) hExecute
  rcases hReached with ⟨s, hRun, hTest⟩
  exact ⟨s, hRun, of_decide_eq_true hTest,
    (root_commits pushComposes_sample sampleIdentifier 0 s hRun).1⟩

end PalletState

end Individuality.MembersPallet
