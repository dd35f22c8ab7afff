import Individuality.Scarcity.Purses

/-
  What the purses remember: how many feeless moves an instance has spent, which authorizations were
  used, and for how long a purse is locked.

  Main declaration: `Budget`
-/

namespace Individuality.Scarcity

open StorageMap (get_insert get_remove)

variable {A B T : Type} [DecidableEq A] {C : Config A B T} {nft : Nft} {purse : A}

--
-- Feeless Moves
--

/- The moves of one instance, latest first. -/
def movesIn (moved : List (Nat × MoveKind)) (instance_ : Nat) : List MoveKind :=
  moved.filterMap fun m =>
    if m.1 = instance_ then some m.2 else none

/- The feeless moves since the last paid or forced one. -/
def feelessRun (moves : List MoveKind) : Nat :=
  (moves.takeWhile fun kind => decide (kind = .feeless)).length

theorem movesIn_cons_self (moved : List (Nat × MoveKind)) (instance_ : Nat) (kind : MoveKind) :
    movesIn ((instance_, kind) :: moved) instance_ = kind :: movesIn moved instance_ := by
  unfold movesIn
  rw [List.filterMap_cons_some]
  exact if_pos rfl

theorem movesIn_cons_of_ne (moved : List (Nat × MoveKind)) {instance_ other : Nat} (kind : MoveKind)
    (hNe : other ≠ instance_) :
    movesIn ((instance_, kind) :: moved) other = movesIn moved other := by
  unfold movesIn
  rw [List.filterMap_cons_none]
  exact if_neg (Ne.symm hNe)

/- Feeless moves in a row are a run. -/
theorem length_le_feelessRun (between older : List MoveKind)
    (hFeeless : ∀ kind ∈ between, kind = .feeless) :
    between.length ≤ feelessRun (between ++ older) := by
  induction between with
  | nil => exact Nat.zero_le _
  | cons kind rest ih =>
    have hKind := hFeeless kind (List.mem_cons_self ..)
    have hRest := ih fun k hMem => hFeeless k (List.mem_cons_of_mem _ hMem)
    subst hKind
    exact Nat.succ_le_succ hRest

/- What every purse knows of the moves of its instance. -/
structure Budget (s : ScarcityState C) : Prop where
  spent : ∀ purse nft, s.nftsByOwner.get purse = some nft →
      nft.moves = feelessRun (movesIn s.moved nft.instance_)
  fresh :
    ∀ instance_, s.minted.get instance_ = none → movesIn s.moved instance_ = []
  bounded : ∀ instance_ moves,
      moves <:+ movesIn s.moved instance_ → feelessRun moves ≤ C.maximumMoves

section Steps

variable {s s' : ScarcityState C} {op : Op C}

namespace Budget

omit [DecidableEq A] in
/- A feeless move counts one more, and others count anew. -/
theorem feelessRun_cons {kind : MoveKind} {moves : List MoveKind}
    (hSpent : nft.moves = feelessRun moves)
    (hFeeless : kind = .feeless → nft.moves < C.maximumMoves) :
    feelessRun (kind :: moves) = kind.movesAfter nft.moves
      ∧ feelessRun (kind :: moves) ≤ C.maximumMoves := by
  cases kind with
  | feeless =>
    have hLess := hFeeless rfl
    have hMax := C.maximumMoves_le
    have hRun : feelessRun (.feeless :: moves) = nft.moves + 1 := by
      rw [hSpent]
      rfl
    refine ⟨hRun.trans ?_, ?_⟩
    · exact (saturatingAdd_of_le (by omega)).symm
    · rw [hRun]
      exact hLess
  | paid => exact ⟨rfl, Nat.zero_le _⟩
  | forced => exact ⟨rfl, Nat.zero_le _⟩

theorem moved (hBudget : Budget s) (hPurses : Purses s) (to_ : A) (nft' : Nft) (kind : MoveKind)
    (hHeld : s.nftsByOwner.get purse = some nft)
    (hFeeless : kind = .feeless → nft.moves < C.maximumMoves)
    (hInstance : nft'.instance_ = nft.instance_) (hMoves : nft'.moves = kind.movesAfter nft.moves) :
    Budget ((s.leave purse).settleAt to_ nft' kind) := by
  have hRun := feelessRun_cons (hBudget.spent purse nft hHeld) hFeeless
  constructor
  case spent =>
    intro at_ held hGet
    change ((s.nftsByOwner.remove purse).insert to_ nft').get at_ = _ at hGet
    change held.moves = feelessRun (movesIn ((nft'.instance_, kind) :: s.moved) held.instance_)
    rw [get_insert, get_remove] at hGet
    by_cases hTo : at_ = to_
    · rw [if_pos hTo] at hGet
      cases hGet
      rw [movesIn_cons_self, hInstance, hMoves]
      exact hRun.1.symm
    · rw [if_neg hTo] at hGet
      by_cases hFrom : at_ = purse
      · rw [if_pos hFrom] at hGet
        cases hGet
      · rw [if_neg hFrom] at hGet
        rw [movesIn_cons_of_ne]
        · exact hBudget.spent at_ held hGet
        · intro hSame
          exact hFrom (hPurses.purse_unique hHeld hGet (hSame.trans hInstance))
  case fresh =>
    intro i hNone
    change movesIn ((nft'.instance_, kind) :: s.moved) i = []
    rw [movesIn_cons_of_ne]
    · exact hBudget.fresh i hNone
    · rintro rfl
      rw [hInstance] at hNone
      have hHome := hPurses.home purse nft hHeld
      change s.minted.get nft.instance_ = none at hNone
      rw [hNone] at hHome
      cases hHome
  case bounded =>
    intro i moves hSuffix
    change moves <:+ movesIn ((nft'.instance_, kind) :: s.moved) i at hSuffix
    by_cases hSame : i = nft'.instance_
    · rw [hSame, movesIn_cons_self, List.suffix_cons_iff] at hSuffix
      rcases hSuffix with rfl | hOld
      · rw [hInstance]
        exact hRun.2
      · exact hBudget.bounded _ moves hOld
    · rw [movesIn_cons_of_ne _ _ hSame] at hSuffix
      exact hBudget.bounded i moves hSuffix

theorem detail (hBudget : Budget s) (hDetail : s.Detail s') :
    Budget s' := by
  cases hDetail <;> exact { hBudget with }

theorem change (hBudget : Budget s) (hPurses : Purses s) (hChange : s.Change op s') :
    Budget s' := by
  cases hChange with
  | detail hDetail => exact hBudget.detail hDetail
  | @minted collection item _ _ _ _ _ _ to_ =>
    constructor
    case spent =>
      intro at_ held hGet
      rw [get_insert] at hGet
      by_cases hTo : at_ = to_
      · rw [if_pos hTo] at hGet
        cases hGet
        dsimp only
        rw [hBudget.fresh _ hPurses.unminted_next]
        rfl
      · rw [if_neg hTo] at hGet
        exact hBudget.spent at_ held hGet
    case fresh =>
      intro i hNone
      rw [get_insert] at hNone
      by_cases hNext : i = s.nextInstanceId
      · rw [if_pos hNext] at hNone
        cases hNone
      · rw [if_neg hNext] at hNone
        exact hBudget.fresh i hNone
    case bounded => exact hBudget.bounded
  | @moved purse to_ nft kind hHeld _ _ hFeeless =>
    have hLess : kind = .feeless → nft.moves < C.maximumMoves := by
      intro hKind
      rcases hFeeless hKind with ⟨tx, _, hAuthorized, hCall⟩
      rcases hAuthorized.call with hBurn | ⟨_, _, _, _, _, hMoves⟩
      · rw [hBurn] at hCall
        cases hCall
      · exact hMoves
    have hMoved := hBudget.moved hPurses to_
        { nft with
          lastMoved := s.now
          stateNonce := nft.stateNonce + 1
          moves := kind.movesAfter nft.moves }
        kind hHeld hLess rfl rfl
    exact { hMoved with }
  | @burned purse nft =>
    refine
      { spent := ?_
        fresh := hBudget.fresh
        bounded := hBudget.bounded }
    intro at_ held hGet
    change (s.nftsByOwner.remove purse).get at_ = _ at hGet
    rw [get_remove] at hGet
    split_ifs at hGet
    exact hBudget.spent at_ held hGet
  | @refused _ purse nft hAuthorized =>
    refine
      { spent := ?_
        fresh := hBudget.fresh
        bounded := hBudget.bounded }
    intro at_ held hGet
    rw [get_insert] at hGet
    by_cases hAt : at_ = purse
    · rw [if_pos hAt] at hGet
      cases hGet
      exact hBudget.spent purse nft hAuthorized.held
    · rw [if_neg hAt] at hGet
      exact hBudget.spent at_ held hGet
  | _ => exact { hBudget with }

end Budget

--
-- Used Authorizations
--

/- No state nonce is exhausted. -/
def NoncesBelow (s : ScarcityState C) : Prop :=
  ∀ purse nft, s.nftsByOwner.get purse = some nft → nft.stateNonce < u64Max

/- What was dispatched is behind every instance. -/
structure Replay (s : ScarcityState C) : Prop where
  nodup : s.dispatched.Nodup
  minted : ∀ i k, (i, k) ∈ s.dispatched →
      ∃ definition, s.minted.get i = some definition
  retired : ∀ i k, (i, k) ∈ s.dispatched →
      ∀ purse nft, s.nftsByOwner.get purse = some nft →
        nft.instance_ = i → k < nft.stateNonce

namespace Replay

/- The state of a held instance was not dispatched yet. -/
theorem not_dispatched (hReplay : Replay s) (hHeld : s.nftsByOwner.get purse = some nft) :
    (nft.instance_, nft.stateNonce) ∉ s.dispatched := by
  intro hMem
  exact absurd (hReplay.retired _ _ hMem purse nft hHeld rfl) (Nat.lt_irrefl _)

/-
  The state of an instance is used up, and the instance goes on with a later state, or it is gone.
-/
theorem use (hReplay : Replay s) (hPurses : Purses s) (used : Bool)
    (hHeld : s.nftsByOwner.get purse = some nft) (hMinted : s'.minted = s.minted)
    (hDispatched : s'.dispatched = if used then
          (nft.instance_, nft.stateNonce) :: s.dispatched
        else s.dispatched)
    (hLater : ∀ at_ held, s'.nftsByOwner.get at_ = some held →
        (held.instance_ = nft.instance_ ∧ nft.stateNonce < held.stateNonce)
          ∨ (at_ ≠ purse ∧ s.nftsByOwner.get at_ = some held)) :
    Replay s' := by
  have hHome := hPurses.home purse nft hHeld
  have hOld : ∀ i k, (i, k) ∈ s.dispatched → ∀ at_ held, s'.nftsByOwner.get at_ = some held →
          held.instance_ = i → k < held.stateNonce := by
    intro i k hMem at_ held hGet hSame
    rcases hLater at_ held hGet with ⟨hInstance, hLess⟩ | ⟨_, hKept⟩
    · have hBefore := hReplay.retired i k hMem purse nft hHeld (hInstance.symm.trans hSame)
      omega
    · exact hReplay.retired i k hMem at_ held hKept hSame
  cases used with
  | false =>
    refine ⟨?_, ?_, ?_⟩
    · rw [hDispatched]
      exact hReplay.nodup
    · rw [hDispatched, hMinted]
      exact hReplay.minted
    · rw [hDispatched]
      exact hOld
  | true =>
    refine ⟨?_, ?_, ?_⟩
    · rw [hDispatched, if_pos rfl, List.nodup_cons]
      exact ⟨hReplay.not_dispatched hHeld, hReplay.nodup⟩
    · rw [hDispatched, if_pos rfl, hMinted]
      intro i k hMem
      rcases List.mem_cons.mp hMem with hHere | hThere
      · cases hHere
        exact ⟨_, hHome⟩
      · exact hReplay.minted i k hThere
    · rw [hDispatched, if_pos rfl]
      intro i k hMem at_ held hGet hSame
      rcases List.mem_cons.mp hMem with hHere | hThere
      · cases hHere
        rcases hLater at_ held hGet with ⟨_, hLess⟩ | ⟨hAway, hKept⟩
        · exact hLess
        · exact absurd (hPurses.purse_unique hHeld hKept hSame) hAway
      · exact hOld i k hThere at_ held hGet hSame

theorem detail (hReplay : Replay s) (hDetail : s.Detail s') :
    Replay s' := by
  cases hDetail <;> exact { hReplay with }

theorem change (hReplay : Replay s) (hPurses : Purses s) (hNonces : NoncesBelow s)
    (hChange : s.Change op s') :
    Replay s' := by
  cases hChange with
  | detail hDetail => exact hReplay.detail hDetail
  | @minted collection item _ _ _ _ _ _ to_ =>
    have hNext : ∀ {i k}, (i, k) ∈ s.dispatched → i ≠ s.nextInstanceId := by
      rintro i k hMem rfl
      rcases hReplay.minted _ k hMem with ⟨_, hMinted⟩
      rw [hPurses.unminted_next] at hMinted
      cases hMinted
    refine ⟨hReplay.nodup, ?_, ?_⟩
    · intro i k hMem
      rcases hReplay.minted i k hMem with ⟨home, hHome⟩
      refine ⟨home, ?_⟩
      exact (StorageMap.get_insert_of_ne _ _ (hNext hMem)).trans hHome
    · intro i k hMem at_ held hGet hSame
      rw [get_insert] at hGet
      by_cases hTo : at_ = to_
      · rw [if_pos hTo] at hGet
        cases hGet
        exact absurd hSame.symm (hNext hMem)
      · rw [if_neg hTo] at hGet
        exact hReplay.retired i k hMem at_ held hGet hSame
  | @moved purse to_ nft kind hHeld hSelf =>
    refine hReplay.use hPurses (decide (kind = .feeless)) hHeld rfl ?_ ?_
    · cases kind <;> rfl
    · intro at_ held hGet
      change ((s.nftsByOwner.remove purse).insert to_ _).get at_ = _ at hGet
      rw [get_insert, get_remove] at hGet
      by_cases hTo : at_ = to_
      · rw [if_pos hTo] at hGet
        cases hGet
        exact Or.inl ⟨rfl, Nat.lt_succ_self _⟩
      · rw [if_neg hTo] at hGet
        by_cases hFrom : at_ = purse
        · rw [if_pos hFrom] at hGet
          cases hGet
        · rw [if_neg hFrom] at hGet
          exact Or.inr ⟨hFrom, hGet⟩
  | @burned purse nft _ _ _ _ _ authorized hHeld =>
    refine hReplay.use hPurses authorized hHeld rfl rfl ?_
    intro at_ held hGet
    change (s.nftsByOwner.remove purse).get at_ = _ at hGet
    rw [get_remove] at hGet
    by_cases hFrom : at_ = purse
    · rw [if_pos hFrom] at hGet
      cases hGet
    · rw [if_neg hFrom] at hGet
      exact Or.inr ⟨hFrom, hGet⟩
  | @refused _ purse nft hAuthorized =>
    have hLess := hNonces purse nft hAuthorized.held
    refine hReplay.use hPurses true hAuthorized.held rfl rfl ?_
    intro at_ held hGet
    rw [get_insert] at hGet
    by_cases hAt : at_ = purse
    · rw [if_pos hAt] at hGet
      cases hGet
      refine Or.inl ⟨rfl, ?_⟩
      rw [saturatingAdd_of_le hLess]
      exact Nat.lt_succ_self _
    · rw [if_neg hAt] at hGet
      exact Or.inr ⟨hAt, hGet⟩
  | _ => exact { hReplay with }

end Replay

--
-- Locks
--

/-
  Every retry at least doubles the lock, so a lock with many
  retries lasts longer than the clock can run.
-/
structure Backoff (s : ScarcityState C) : Prop where
  clock : s.now ≤ u64Max / 1000
  doubled : ∀ purse lock, s.locked.get purse = some lock →
      2 ^ lock.retries ≤ lock.until_ + 1

/- The failures that a lock counts. -/
def retriesOf : Option LockInfo → Nat
  | none => 0
  | some lock => lock.retries

omit [DecidableEq A] in
theorem retries_lt {retries until_ now : Nat} (hDoubled : 2 ^ retries ≤ until_ + 1)
    (hOver : until_ ≤ now) (hClock : now ≤ u64Max / 1000) :
    retries < 55 := by
  rw [← Nat.not_le]
  intro hMany
  have hPow : 2 ^ 55 ≤ 2 ^ retries := Nat.pow_le_pow_right (by decide) hMany
  have hMax : u64Max / 1000 + 1 < 2 ^ 55 := by decide
  omega

/- A failure after the lock counts one more, and doubles it. -/
theorem failedDispatchLock_spec (hBackoff : Backoff s) (hUnlocked : s.Unlocked purse) :
    (s.failedDispatchLock (s.locked.get purse)).retries = retriesOf (s.locked.get purse) + 1
      ∧ 2 ^ (s.failedDispatchLock (s.locked.get purse)).retries
        ≤ (s.failedDispatchLock (s.locked.get purse)).until_ + 1 := by
  have hClock := hBackoff.clock
  have hPeriod := C.lockPeriod_pos
  have hRetries : retriesOf (s.locked.get purse) < 55
        ∧ 2 ^ retriesOf (s.locked.get purse) ≤ s.now + 1 := by
    cases hGet : s.locked.get purse with
    | none =>
      refine ⟨by decide, ?_⟩
      change 1 ≤ s.now + 1
      omega
    | some lock =>
      have hDoubled := hBackoff.doubled purse lock hGet
      have hOver := hUnlocked lock hGet
      refine ⟨retries_lt hDoubled hOver hClock, ?_⟩
      change 2 ^ lock.retries ≤ s.now + 1
      omega
  have hNext : (s.failedDispatchLock (s.locked.get purse)).retries
        = retriesOf (s.locked.get purse) + 1 := by
    cases hGet : s.locked.get purse with
    | none => rfl
    | some lock =>
      rw [hGet] at hRetries
      have hLess : lock.retries < 55 := hRetries.1
      apply saturatingAdd_of_le
      unfold u8Max
      omega
  refine ⟨hNext, ?_⟩
  have hUntil : (s.failedDispatchLock (s.locked.get purse)).until_ = saturatingAdd u64Max s.now
      (saturatingMul u64Max (min (2 ^ min ((s.failedDispatchLock
                (s.locked.get purse)).retries - 1) 63)
          u64Max)
        C.lockPeriod) := rfl
  rw [hUntil, hNext, Nat.add_sub_cancel]
  generalize retriesOf (s.locked.get purse) = r at hRetries
  have hSmall : min r 63 = r := Nat.min_eq_left (by omega)
  have hPow : 2 ^ r ≤ 2 ^ 54 := Nat.pow_le_pow_right (by decide) (by omega)
  have hTop : 2 ^ 54 + 2 ^ 55 ≤ u64Max := by decide
  have hMin : min (2 ^ r) u64Max = 2 ^ r := Nat.min_eq_left (by omega)
  have hLong : 2 ^ r ≤ 2 ^ r * C.lockPeriod := Nat.le_mul_of_pos_right _ hPeriod
  rw [hSmall, hMin]
  have hPeriods : 2 ^ r ≤ saturatingMul u64Max (2 ^ r) C.lockPeriod :=
    Nat.le_min.mpr ⟨hLong, by omega⟩
  have hEnd : 2 ^ r + s.now ≤ saturatingAdd u64Max s.now
            (saturatingMul u64Max (2 ^ r) C.lockPeriod) := by
    apply Nat.le_min.mpr
    have hMax : u64Max / 1000 ≤ 2 ^ 55 := by decide
    constructor <;> omega
  have hDouble : 2 ^ (r + 1) = 2 ^ r + 2 ^ r := by
    rw [Nat.pow_succ]
    omega
  omega

namespace Backoff

theorem detail (hBackoff : Backoff s) (hDetail : s.Detail s') :
    Backoff s' := by
  cases hDetail <;> exact { hBackoff with }

theorem unlock (hBackoff : Backoff s) (purse at_ : A) (lock : LockInfo)
    (hGet : (s.locked.remove purse).get at_ = some lock) :
    2 ^ lock.retries ≤ lock.until_ + 1 := by
  rw [get_remove] at hGet
  split_ifs at hGet
  exact hBackoff.doubled at_ lock hGet

theorem change (hBackoff : Backoff s) (hChange : s.Change op s') :
    Backoff s' := by
  cases hChange with
  | environment now prices bank hNow =>
    refine { clock := ?_, doubled := hBackoff.doubled }
    rcases hNow with rfl | hClock
    · exact hBackoff.clock
    · exact hClock
  | detail hDetail => exact hBackoff.detail hDetail
  | @moved purse =>
    exact
      { clock := hBackoff.clock
        doubled := hBackoff.unlock purse }
  | @burned purse =>
    exact
      { clock := hBackoff.clock
        doubled := hBackoff.unlock purse }
  | @refused _ purse _ hAuthorized =>
    refine { clock := hBackoff.clock, doubled := ?_ }
    intro at_ lock hGet
    rw [get_insert] at hGet
    by_cases hAt : at_ = purse
    · rw [if_pos hAt] at hGet
      cases hGet
      exact (failedDispatchLock_spec hBackoff hAuthorized.unlocked).2
    · rw [if_neg hAt] at hGet
      exact hBackoff.doubled at_ lock hGet
  | _ => exact { hBackoff with }

end Backoff

end Steps

end Individuality.Scarcity
