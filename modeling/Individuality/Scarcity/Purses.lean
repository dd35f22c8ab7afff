import Individuality.Scarcity.Steps

/-
  Purses and instances are inverse to each other, every live instance was minted once, and only
  occupied purses are locked.

  Main declaration: `Purses`
-/

namespace Individuality.Scarcity

open StorageMap (get_insert get_insert_of_ne get_remove get_remove_of_ne)

variable {A B T : Type} [DecidableEq A] {C : Config A B T} {purse : A} {nft : Nft}

open ScarcityState (Change Detail Details Changes)

/- What an instance is called by the purse that holds it. -/
def Named (nft : Nft) (instance_ : Nat) : Prop :=
  nft.instance_ = instance_

/- Which instances there are, and who holds them. -/
structure Purses (s : ScarcityState C) : Prop where
  holders : Inverse s.instances s.nftsByOwner Named
  home : ∀ purse nft, s.nftsByOwner.get purse = some nft →
      s.minted.get nft.instance_ = some nft.definition
  below : ∀ instance_ definition,
      s.minted.get instance_ = some definition → instance_ < s.nextInstanceId
  lockedHeld : ∀ purse lock, s.locked.get purse = some lock →
      ∃ nft, s.nftsByOwner.get purse = some nft

namespace Purses

variable {s s' : ScarcityState C}

theorem genesis (prices : Prices C.balanceMax) (bank : B) :
    Purses (ScarcityState.genesis C prices bank) where
  holders := Inverse.empty _
  home := by
    intro purse nft hGet
    cases hGet
  below := by
    intro instance_ definition hGet
    cases hGet
  lockedHeld := by
    intro purse lock hGet
    cases hGet

theorem below_of_held (hPurses : Purses s) (hHeld : s.nftsByOwner.get purse = some nft) :
    nft.instance_ < s.nextInstanceId :=
  hPurses.below _ _ (hPurses.home purse nft hHeld)

/- The next instance was never minted. -/
theorem unminted_next (hPurses : Purses s) :
    s.minted.get s.nextInstanceId = none := by
  cases hGet : s.minted.get s.nextInstanceId with
  | none => rfl
  | some definition =>
    exact absurd (hPurses.below _ _ hGet) (Nat.lt_irrefl _)

theorem unheld_next (hPurses : Purses s) :
    s.instances.get s.nextInstanceId = none := by
  cases hGet : s.instances.get s.nextInstanceId with
  | none => rfl
  | some purse =>
    rcases (hPurses.holders _ _).mp hGet with ⟨nft, hHeld, hNamed⟩
    have hBelow := hPurses.below_of_held hHeld
    unfold Named at hNamed
    omega

theorem live_of_held (hPurses : Purses s) (hHeld : s.nftsByOwner.get purse = some nft) :
    s.instances.get nft.instance_ = some purse :=
  hPurses.holders.holder_of_name hHeld rfl

/- No instance is in two purses. -/
theorem purse_unique (hPurses : Purses s) {purse' : A} {nft' : Nft}
    (hHeld : s.nftsByOwner.get purse = some nft) (hHeld' : s.nftsByOwner.get purse' = some nft')
    (hSame : nft'.instance_ = nft.instance_) :
    purse' = purse :=
  hPurses.holders.holder_unique hHeld' (Eq.refl nft'.instance_) hHeld hSame.symm

theorem detail (hPurses : Purses s) (hDetail : s.Detail s') :
    Purses s' := by
  cases hDetail <;> exact { hPurses with }

theorem minted (hPurses : Purses s) {to_ : A} (nft : Nft) (hFree : s.nftsByOwner.get to_ = none)
    (hInstance : nft.instance_ = s.nextInstanceId) :
    Purses { s with
      nextInstanceId := s.nextInstanceId + 1
      nftsByOwner := s.nftsByOwner.insert to_ nft
      instances := s.instances.insert s.nextInstanceId to_
      minted := s.minted.insert s.nextInstanceId nft.definition } where
  holders := by
    apply hPurses.holders.claim hPurses.unheld_next hFree
    intro instance_
    unfold Named
    rw [hInstance]
    exact eq_comm
  home := by
    intro purse held hGet
    change (s.nftsByOwner.insert to_ nft).get purse = _ at hGet
    change (s.minted.insert s.nextInstanceId nft.definition).get held.instance_ = _
    rw [get_insert] at hGet
    by_cases hTo : purse = to_
    · rw [if_pos hTo] at hGet
      cases hGet
      rw [hInstance]
      exact StorageMap.get_insert_self _ _ _
    · rw [if_neg hTo] at hGet
      have hBelow := hPurses.below_of_held hGet
      rw [get_insert_of_ne _ _ (by omega)]
      exact hPurses.home purse held hGet
  below := by
    intro instance_ definition hGet
    change (s.minted.insert s.nextInstanceId nft.definition).get instance_ = _ at hGet
    change instance_ < s.nextInstanceId + 1
    rw [get_insert] at hGet
    by_cases hNext : instance_ = s.nextInstanceId
    · omega
    · rw [if_neg hNext] at hGet
      exact Nat.lt_succ_of_lt (hPurses.below _ _ hGet)
  lockedHeld := by
    intro purse lock hGet
    change ∃ held, (s.nftsByOwner.insert to_ nft).get purse = _
    rcases hPurses.lockedHeld purse lock hGet with ⟨held, hHeld⟩
    refine ⟨held, ?_⟩
    rw [get_insert_of_ne]
    · exact hHeld
    · rintro rfl
      rw [hFree] at hHeld
      cases hHeld

theorem moved (hPurses : Purses s) {to_ : A} (nft' : Nft) (kind : MoveKind)
    (hHeld : s.nftsByOwner.get purse = some nft) (hFree : s.nftsByOwner.get to_ = none)
    (hInstance : nft'.instance_ = nft.instance_) (hDefinition : nft'.definition = nft.definition) :
    Purses ((s.leave purse).settleAt to_ nft' kind) where
  holders := by
    unfold ScarcityState.settleAt ScarcityState.leave
    rw [hInstance]
    apply hPurses.holders.move hHeld
    · intro instance_
      exact eq_comm
    · exact hFree
    · intro instance_
      unfold Named
      rw [hInstance]
      exact eq_comm
  home := by
    intro at_ held hGet
    change ((s.nftsByOwner.remove purse).insert to_ nft').get at_ = _ at hGet
    change s.minted.get held.instance_ = _
    rw [get_insert, get_remove] at hGet
    by_cases hTo : at_ = to_
    · rw [if_pos hTo] at hGet
      cases hGet
      rw [hInstance, hDefinition]
      exact hPurses.home purse nft hHeld
    · rw [if_neg hTo] at hGet
      by_cases hFrom : at_ = purse
      · rw [if_pos hFrom] at hGet
        cases hGet
      · rw [if_neg hFrom] at hGet
        exact hPurses.home at_ held hGet
  below := hPurses.below
  lockedHeld := by
    intro at_ lock hGet
    change (s.locked.remove purse).get at_ = _ at hGet
    change ∃ held, ((s.nftsByOwner.remove purse).insert to_ nft').get at_ = some held
    rw [get_remove] at hGet
    by_cases hFrom : at_ = purse
    · rw [if_pos hFrom] at hGet
      cases hGet
    · rw [if_neg hFrom] at hGet
      rcases hPurses.lockedHeld at_ lock hGet with ⟨held, hAt⟩
      refine ⟨held, ?_⟩
      rw [get_insert_of_ne, get_remove_of_ne _ hFrom]
      · exact hAt
      · rintro rfl
        rw [hFree] at hAt
        cases hAt

theorem burned (hPurses : Purses s)
    (definition : ItemDefinition) (info : CollectionInfo A T) (bank : B)
    (hHeld : s.nftsByOwner.get purse = some nft) :
    Purses ((s.leave purse).burnt nft definition info bank) where
  holders := hPurses.holders.release hHeld fun _ => eq_comm
  home := by
    intro at_ held hGet
    change (s.nftsByOwner.remove purse).get at_ = _ at hGet
    rw [get_remove] at hGet
    by_cases hFrom : at_ = purse
    · rw [if_pos hFrom] at hGet
      cases hGet
    · rw [if_neg hFrom] at hGet
      exact hPurses.home at_ held hGet
  below := hPurses.below
  lockedHeld := by
    intro at_ lock hGet
    change (s.locked.remove purse).get at_ = _ at hGet
    change ∃ held, (s.nftsByOwner.remove purse).get at_ = some held
    rw [get_remove] at hGet
    by_cases hFrom : at_ = purse
    · rw [if_pos hFrom] at hGet
      cases hGet
    · rw [if_neg hFrom] at hGet
      rw [get_remove_of_ne _ hFrom]
      exact hPurses.lockedHeld at_ lock hGet

theorem refused (hPurses : Purses s) (nft' : Nft) (lock : LockInfo)
    (hHeld : s.nftsByOwner.get purse = some nft) (hInstance : nft'.instance_ = nft.instance_)
    (hDefinition : nft'.definition = nft.definition) :
    Purses { s with
      nftsByOwner := s.nftsByOwner.insert purse nft'
      locked := s.locked.insert purse lock } where
  holders := by
    apply hPurses.holders.rewrite hHeld
    intro instance_
    unfold Named
    rw [hInstance]
  home := by
    intro at_ held hGet
    change (s.nftsByOwner.insert purse nft').get at_ = _ at hGet
    change s.minted.get held.instance_ = _
    rw [get_insert] at hGet
    by_cases hAt : at_ = purse
    · rw [if_pos hAt] at hGet
      cases hGet
      rw [hInstance, hDefinition]
      exact hPurses.home purse nft hHeld
    · rw [if_neg hAt] at hGet
      exact hPurses.home at_ held hGet
  below := hPurses.below
  lockedHeld := by
    intro at_ old hGet
    change (s.locked.insert purse lock).get at_ = _ at hGet
    change ∃ held, (s.nftsByOwner.insert purse nft').get at_ = some held
    rw [get_insert] at hGet ⊢
    by_cases hAt : at_ = purse
    · rw [if_pos hAt]
      exact ⟨nft', rfl⟩
    · rw [if_neg hAt] at hGet ⊢
      exact hPurses.lockedHeld at_ old hGet

theorem change (hPurses : Purses s) {op : Op C} (hChange : s.Change op s') :
    Purses s' := by
  cases hChange with
  | detail hDetail => exact hPurses.detail hDetail
  | @minted collection item _ _ _ _ _ _ to_ withDeposit _ _
      hFree =>
      let nft : Nft :=
        { instance_ := s.nextInstanceId
          collection := collection
          item := item
          mintedAt := s.now
          lastMoved := s.now
          stateNonce := 0
          moves := 0 }
      exact { hPurses.minted nft hFree rfl with }
  | @moved _ _ nft kind hHeld _ hFree =>
    let nft' : Nft :=
      { nft with
        lastMoved := s.now
        stateNonce := nft.stateNonce + 1
        moves := kind.movesAfter nft.moves }
    exact { hPurses.moved nft' kind hHeld hFree rfl rfl with }
  | @burned _ _ definition info deposit ticket bank _ hHeld =>
    exact
      { hPurses.burned definition (info.repaid deposit ticket)
          bank hHeld with }
  | @refused _ purse nft hAuthorized =>
    let nft' : Nft :=
      { nft with
        stateNonce := saturatingAdd u64Max nft.stateNonce 1 }
    let lock := s.failedDispatchLock (s.locked.get purse)
    exact
      { hPurses.refused nft' lock hAuthorized.held rfl rfl
        with }
  | _ => exact { hPurses with }

end Purses

end Individuality.Scarcity
