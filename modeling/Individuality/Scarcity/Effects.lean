import Individuality.Scarcity.Pallet

/-
  What the steps of the scarcity pallet have checked, and what they write, when they succeed.

  Main declaration: `Redeposited`
-/

namespace Individuality.Scarcity

open Except (bind_eq_ok pure_eq_ok)

variable {A B T : Type} {C : Config A B T}

--
-- Deposits
--

/-
  A part of a deposit is exchanged, and the ticket with it: the
  part that was worth `old` is now worth `new`.
-/
structure Redeposited (C : Config A B T)
    (owner : A) (bank : B) (ticket : T) (deposit old new : Nat) (bank' : B) (ticket' : T)
    (deposit' : Nat) : Prop where
  covered : old ≤ deposit
  exact : deposit' + old = deposit + new
  bounded : deposit ≤ C.balanceMax → deposit' ≤ C.balanceMax
  update : C.updateTicket bank ticket owner deposit'
        = some (ticket', bank')
      ∨ (ticket' = ticket ∧ bank' = bank ∧ deposit' = deposit)

/- A collection with another deposit and its ticket. -/
def CollectionInfo.repaid (info : CollectionInfo A T) (deposit : Nat)
    (ticket : T) : CollectionInfo A T :=
  { info with
    ownerDeposit := deposit
    consideration := ticket }

section Deposits

variable {bank bank' : B} {info info' : CollectionInfo A T}

theorem updateOwnerDeposit_eq_ok {total : Nat}
    (hUpdate : updateOwnerDeposit C bank info total = .ok (info', bank')) :
    ∃ ticket, info' = info.repaid total ticket
        ∧ C.updateTicket bank info.consideration info.owner total = some (ticket, bank') := by
  unfold updateOwnerDeposit at hUpdate
  simp only [bind_eq_ok, okOr_eq_ok_iff, Prod.exists, pure_eq_ok, Prod.mk.injEq] at hUpdate
  rcases hUpdate with ⟨ticket, _, hTicket, rfl, rfl⟩
  exact ⟨ticket, rfl, hTicket⟩

theorem increaseOwnerDeposit_eq_ok {amount : Nat}
    (hIncrease : increaseOwnerDeposit C bank info amount = .ok (info', bank')) :
    ∃ deposit ticket, info' = info.repaid deposit ticket
        ∧ Redeposited C info.owner bank info.consideration
            info.ownerDeposit 0 amount bank' ticket deposit := by
  unfold increaseOwnerDeposit at hIncrease
  simp only [bind_eq_ok, okOr_eq_ok_iff, checkedAdd_eq_some_iff] at hIncrease
  rcases hIncrease with ⟨total, ⟨hMax, rfl⟩, hUpdate⟩
  rcases updateOwnerDeposit_eq_ok hUpdate with ⟨ticket, hInfo, hTicket⟩
  exact ⟨_, ticket, hInfo,
      { covered := Nat.zero_le _
        exact := rfl
        bounded := fun _ => hMax
        update := Or.inl hTicket }⟩

theorem decreaseOwnerDeposit_eq_ok {amount : Nat}
    (hDecrease : decreaseOwnerDeposit C bank info amount = .ok (info', bank')) :
    ∃ deposit ticket, info' = info.repaid deposit ticket
        ∧ Redeposited C info.owner bank info.consideration
            info.ownerDeposit amount 0 bank' ticket deposit := by
  unfold decreaseOwnerDeposit at hDecrease
  simp only [bind_eq_ok, ensure_eq_ok_iff, exists_const] at hDecrease
  rcases hDecrease with ⟨hCovered, hUpdate⟩
  rcases updateOwnerDeposit_eq_ok hUpdate with ⟨ticket, hInfo, hTicket⟩
  exact ⟨_, ticket, hInfo,
      { covered := hCovered
        exact := Nat.sub_add_cancel hCovered
        bounded := Nat.le_trans (Nat.sub_le _ _)
        update := Or.inl hTicket }⟩

theorem replaceOwnerDeposit_eq_ok {old new : Nat}
    (hReplace : replaceOwnerDeposit C bank info old new = .ok (info', bank')) :
    ∃ deposit ticket, info' = info.repaid deposit ticket
        ∧ Redeposited C info.owner bank info.consideration
            info.ownerDeposit old new bank' ticket deposit := by
  unfold replaceOwnerDeposit at hReplace
  simp only [bind_eq_ok, ensure_eq_ok_iff, exists_const,
    okOr_eq_ok_iff, checkedAdd_eq_some_iff] at hReplace
  rcases hReplace with ⟨hCovered, total, ⟨hMax, rfl⟩, hUpdate⟩
  rcases updateOwnerDeposit_eq_ok hUpdate with ⟨ticket, hInfo, hTicket⟩
  exact ⟨_, ticket, hInfo,
      { covered := hCovered
        exact := by omega
        bounded := fun _ => hMax
        update := Or.inl hTicket }⟩

end Deposits

/- The deposit for what is stored at one key. -/
def entryDeposit : Option (MetadataEntry C) → Nat
  | none => 0
  | some entry => entry.deposit

/-
  A write of metadata counts the entries of its scope, and it
  exchanges the deposit of the old entry for that of the new.
-/
theorem changeEntry_eq_ok {limit count : Nat} {full : Error} {price : C.MetadataValue → Nat}
    {bank : B} {info : CollectionInfo A T}
    {old : Option (MetadataEntry C)} {value : Option C.MetadataValue} {change : EntryChange C}
    (hChange : changeEntry C limit full price bank info count old value = .ok change) :
    change.count + old.size = count + change.entry.size ∧ ∃ deposit ticket,
        change.info = info.repaid deposit ticket ∧ Redeposited C info.owner bank info.consideration
            info.ownerDeposit (entryDeposit old)
            (entryDeposit change.entry) change.bank ticket
            deposit := by
  cases old with
  | none =>
    cases value with
    | none =>
      cases hChange
      refine ⟨rfl, info.ownerDeposit, info.consideration, rfl, ?_⟩
      exact
        { covered := Nat.zero_le _
          exact := rfl
          bounded := id
          update := Or.inr ⟨rfl, rfl, rfl⟩ }
    | some value =>
      simp only [changeEntry, bind_eq_ok, ensure_eq_ok_iff, exists_const, okOr_eq_ok_iff,
        checkedAdd_eq_some_iff, Prod.exists,
        pure_eq_ok] at hChange
      rcases hChange with ⟨_, _, ⟨_, rfl⟩, info', bank', hPaid, rfl⟩
      exact ⟨rfl, increaseOwnerDeposit_eq_ok hPaid⟩
  | some entry =>
    cases value with
    | none =>
      simp only [changeEntry, bind_eq_ok, ensure_eq_ok_iff, exists_const, Prod.exists,
        pure_eq_ok] at hChange
      rcases hChange with ⟨hCount, info', bank', hPaid, rfl⟩
      exact ⟨Nat.sub_add_cancel hCount, decreaseOwnerDeposit_eq_ok hPaid⟩
    | some value =>
      simp only [changeEntry, bind_eq_ok, Prod.exists, pure_eq_ok] at hChange
      rcases hChange with ⟨info', bank', hPaid, rfl⟩
      exact ⟨rfl, replaceOwnerDeposit_eq_ok hPaid⟩

namespace ScarcityState

variable [DecidableEq A]

--
-- Metadata
--

/- A write of metadata in one of the three scopes. -/
inductive Detail (s : ScarcityState C) :
    ScarcityState C → Prop
  | collectionMetadata {collection count deposit : Nat} {info : CollectionInfo A T} {ticket : T}
      {bank : B} (key : C.MetadataKey) (entry : Option (MetadataEntry C))
      (hInfo : s.collections.get collection = some info)
      (hCount : count + (s.collectionMetadata.get (collection, key)).size
          = info.metadataCount + entry.size)
      (hPaid : Redeposited C info.owner s.bank info.consideration info.ownerDeposit
          (entryDeposit (s.collectionMetadata.get (collection, key)))
          (entryDeposit entry) bank ticket deposit) :
      Detail s { s with
        bank := bank
        collections :=
          s.collections.insert collection
            { info.repaid deposit ticket with
              metadataCount := count }
        collectionMetadata :=
          s.collectionMetadata.put (collection, key) entry }
  | itemMetadata {collection item count deposit : Nat} {info : CollectionInfo A T}
      {definition : ItemDefinition} {ticket : T} {bank : B} (key : C.MetadataKey)
      (entry : Option (MetadataEntry C)) (hInfo : s.collections.get collection = some info)
      (hDefinition : s.itemDefs.get (collection, item) = some definition)
      (hCount : count + (s.itemMetadata.get ((collection, item), key)).size
          = definition.metadataCount + entry.size)
      (hPaid : Redeposited C info.owner s.bank info.consideration info.ownerDeposit
          (entryDeposit (s.itemMetadata.get ((collection, item), key)))
          (entryDeposit entry) bank ticket deposit) :
      Detail s { s with
        bank := bank
        collections :=
          s.collections.insert collection
            (info.repaid deposit ticket)
        itemDefs :=
          s.itemDefs.insert (collection, item)
            { definition with metadataCount := count }
        itemMetadata :=
          s.itemMetadata.put ((collection, item), key) entry }
  | instanceMetadata {instance_ count deposit : Nat} {purse : A} {nft : Nft}
      {info : CollectionInfo A T} {ticket : T} {bank : B} (key : C.MetadataKey)
      (entry : Option (MetadataEntry C)) (hPurse : s.instances.get instance_ = some purse)
      (hHeld : s.nftsByOwner.get purse = some nft) (hNft : nft.instance_ = instance_)
      (hInfo : s.collections.get nft.collection = some info)
      (hCount : count + (s.instanceMetadata.get (instance_, key)).size
          = s.instanceMetadataCount.getD instance_ 0 + entry.size)
      (hPaid : Redeposited C info.owner s.bank info.consideration info.ownerDeposit
          (entryDeposit (s.instanceMetadata.get (instance_, key)))
          (entryDeposit entry) bank ticket deposit) :
      Detail s { s with
        bank := bank
        collections :=
          s.collections.insert nft.collection
            (info.repaid deposit ticket)
        instanceMetadata := s.instanceMetadata.put (instance_, key) entry
        instanceMetadataCount :=
          if count = s.instanceMetadataCount.getD instance_ 0 then
            s.instanceMetadataCount
          else s.instanceMetadataCount.insert instance_ count }

abbrev Details :
    ScarcityState C → ScarcityState C → Prop :=
  Relation.ReflTransGen Detail

section Writes

variable {s s' : ScarcityState C} {owner : A} {key : C.MetadataKey}
variable {value : Option C.MetadataValue} {collection : Nat}

theorem ownedCollection_eq_ok {info : CollectionInfo A T}
    (hOwned : s.ownedCollection owner collection = .ok info) :
    s.collections.get collection = some info ∧ info.owner = owner := by
  unfold ownedCollection at hOwned
  simp only [bind_eq_ok, okOr_eq_ok_iff, ensure_eq_ok_iff, exists_const, pure_eq_ok] at hOwned
  rcases hOwned with ⟨_, hInfo, hOwner, rfl⟩
  exact ⟨hInfo, hOwner⟩

theorem heldInstance_eq_ok {instance_ : Nat} {purse : A} {nft : Nft}
    (hHeld : s.heldInstance instance_ = .ok (purse, nft)) :
    s.instances.get instance_ = some purse ∧ s.nftsByOwner.get purse = some nft
      ∧ nft.instance_ = instance_ := by
  unfold heldInstance at hHeld
  simp only [bind_eq_ok, okOr_eq_ok_iff, ensure_eq_ok_iff, exists_const, pure_eq_ok,
    Prod.mk.injEq] at hHeld
  rcases hHeld with ⟨_, hPurse, _, hNft, hSame, rfl, rfl⟩
  exact ⟨hPurse, hNft, hSame⟩

theorem detail_of_collectionMetadata
    (hSet : s.doSetCollectionMetadata owner collection key value = .ok s') :
    Detail s s' := by
  unfold doSetCollectionMetadata at hSet
  simp only [bind_eq_ok, pure_eq_ok] at hSet
  rcases hSet with ⟨info, hOwned, _, _, change, hChange, rfl⟩
  rcases changeEntry_eq_ok hChange with ⟨hCount, deposit, ticket, hInfo, hPaid⟩
  rw [hInfo]
  exact .collectionMetadata key change.entry (ownedCollection_eq_ok hOwned).1 hCount hPaid

theorem detail_of_itemMetadata {item : Nat}
    (hSet : s.doSetItemMetadata owner collection item key value = .ok s') :
    Detail s s' := by
  unfold doSetItemMetadata at hSet
  simp only [bind_eq_ok, okOr_eq_ok_iff, pure_eq_ok] at hSet
  rcases hSet with ⟨info, hOwned, definition, hDefinition, _, _, change, hChange, rfl⟩
  rcases changeEntry_eq_ok hChange with ⟨hCount, deposit, ticket, hInfo, hPaid⟩
  rw [hInfo]
  exact .itemMetadata key change.entry (ownedCollection_eq_ok hOwned).1 hDefinition hCount hPaid

theorem detail_of_instanceMetadata {instance_ : Nat} {withDeposit : Bool}
    (hSet : s.doSetInstanceMetadata owner instance_ key value withDeposit = .ok s') :
    Detail s s' := by
  unfold doSetInstanceMetadata at hSet
  simp only [bind_eq_ok, Prod.exists, pure_eq_ok] at hSet
  rcases hSet with ⟨purse, nft, hHeld, info, hOwned, _, _, change, hChange, rfl⟩
  rcases heldInstance_eq_ok hHeld with ⟨hPurse, hGet, hNft⟩
  rcases changeEntry_eq_ok hChange with ⟨hCount, deposit, ticket, hInfo, hPaid⟩
  rw [hInfo]
  exact .instanceMetadata key change.entry hPurse hGet hNft
      (ownedCollection_eq_ok hOwned).1 hCount hPaid

/- A list of writes is as many details. -/
theorem details_of_foldlM {α : Type}
    {write : ScarcityState C → α → Except Error (ScarcityState C)} {xs : List α}
    (hWrite : ∀ s x s', write s x = .ok s' → Detail s s') (hFold : xs.foldlM write s = .ok s') :
    Details s s' :=
  List.foldlM_invariant (Details s) hFold
    (fun s₁ x s₂ _ hStep hRun => hRun.tail (hWrite s₁ x s₂ hStep))
    Relation.ReflTransGen.refl

end Writes

end ScarcityState

end Individuality.Scarcity
