import Individuality.Scarcity.Effects

/-
  The steps of a chain with the scarcity pallet, each as one
  change of the storage and a list of metadata writes.

  Main declaration: `ScarcityState.Authorized`
-/

namespace Individuality.Scarcity

open Except (bind_eq_ok ok_bind pure_eq_ok)

variable {A B T : Type} {C : Config A B T} {instance_ collection : Nat}

/- The feeless moves that are spent after a move. -/
def MoveKind.movesAfter : MoveKind → Nat → Nat
  | .feeless, moves => saturatingAdd 65535 moves 1
  | .paid, _ => 0
  | .forced, _ => 0

/- Only feeless moves use up an authorization. -/
def MoveKind.dispatchedAfter (kind : MoveKind) (nft : Nft)
    (dispatched : List (Nat × Nat)) : List (Nat × Nat) :=
  match kind with
  | .feeless => (nft.instance_, nft.stateNonce) :: dispatched
  | .paid => dispatched
  | .forced => dispatched

/- The step is a forced transfer by the owner of a collection. -/
def Op.forces : Op C → Bool
  | .transaction tx =>
    match tx.call with
    | .forceTransfer _ _ => true
    | _ => false
  | _ => false

namespace ScarcityState

variable [DecidableEq A] {s s' : ScarcityState C}

--
-- Authorizations
--

/- What the extension accepts for the instance in a purse. -/
structure Authorized (s : ScarcityState C) (tx : Transaction C) (owner : A) (nft : Nft) : Prop where
  signer : tx.signer = some owner
  authorization : tx.authorization = some ⟨nft.instance_, nft.stateNonce⟩
  unlocked : s.Unlocked owner
  held : s.nftsByOwner.get owner = some nft
  call : tx.call = .burn
      ∨ ∃ to_,
        tx.call = .transfer to_
          ∧ to_ ≠ owner
          ∧ s.nftsByOwner.get to_ = none
          ∧ s.transferabilityOf nft = some .transferable
          ∧ nft.moves < C.maximumMoves

theorem validateTransfer_eq_ok {owner to_ : A} {nft : Nft}
    (hValid : s.validateTransfer owner nft to_ = .ok ()) :
    to_ ≠ owner ∧ s.nftsByOwner.get to_ = none ∧ s.transferabilityOf nft = some .transferable
      ∧ nft.moves < C.maximumMoves := by
  unfold validateTransfer at hValid
  simp only [bind_eq_ok, ensure_eq_ok_iff, exists_const, okOr_eq_ok_iff] at hValid
  rcases hValid with ⟨hSelf, hFree, _, hKind, rfl, hMoves⟩
  exact ⟨hSelf, StorageMap.containsKey_eq_false_iff.mp hFree, hKind, hMoves⟩

omit [DecidableEq A] in
theorem transferTo_eq_some {call : Call C} {transferTo : Option A}
    (hCall : call.transferTo = some transferTo) :
    (transferTo = none ∧ call = .burn) ∨ ∃ to_, transferTo = some to_ ∧ call = .transfer to_ := by
  cases call <;>
    simp only [Call.transferTo, Option.some.injEq, reduceCtorEq] at hCall
  · exact Or.inr ⟨_, hCall.symm, rfl⟩
  · exact Or.inl ⟨hCall.symm, rfl⟩

/- An accepted transaction uses an authorization, or none. -/
theorem validate_eq_ok {tx : Transaction C} {val : Val A} (hValid : s.validate tx = .ok val) :
    val = .notUsing ∨ ∃ owner nft, s.Authorized tx owner nft
        ∧ val = .usingNft owner nft.instance_ nft.stateNonce := by
  unfold validate at hValid
  cases hCall : tx.call.transferTo with
  | none =>
    rw [hCall] at hValid
    cases hValid
    exact Or.inl rfl
  | some transferTo =>
    cases hAuthorization : tx.authorization with
    | none =>
      rw [hCall, hAuthorization] at hValid
      cases hValid
      exact Or.inl rfl
    | some authorization =>
      right
      rw [hCall, hAuthorization] at hValid
      dsimp only at hValid
      unfold validateNft at hValid
      simp only [bind_eq_ok, ensure_eq_ok_iff, exists_const, okOr_eq_ok_iff, pure_eq_ok]
        at hValid
      rcases hValid with ⟨owner, hSigner, nft, ⟨hUnlocked, _, hHeld, ⟨hInstance, hNonce⟩, rfl⟩,
          _, hDestination, rfl⟩
      refine ⟨owner, _, ⟨hSigner, ?_, hUnlocked, hHeld, ?_⟩, ?_⟩
      · rw [hAuthorization, hInstance, hNonce]
      · rcases transferTo_eq_some hCall with ⟨_, hBurn⟩ | ⟨to_, rfl, hTo⟩
        · exact Or.inl hBurn
        · exact Or.inr ⟨to_, hTo, validateTransfer_eq_ok hDestination⟩
      · rw [hInstance, hNonce]

/- The instance is out of its purse during the dispatch. -/
def taken (s : ScarcityState C) (owner : A) (nft : Nft) : ScarcityState C :=
  { s with
    nftsByOwner := s.nftsByOwner.remove owner
    dispatched := (nft.instance_, nft.stateNonce) :: s.dispatched }

theorem prepare_of_authorized {tx : Transaction C} {owner : A} {nft : Nft}
    (hAuthorized : s.Authorized tx owner nft) :
    s.prepare owner nft.instance_ nft.stateNonce = .ok (nft, s.taken owner nft) := by
  unfold prepare
  rw [hAuthorized.held, okOr_some, ok_bind, ensure_of ⟨rfl, rfl⟩, ok_bind]
  rfl

--
-- Changes
--

/- An instance is gone, and what was recorded for it. -/
def burnt (s : ScarcityState C) (nft : Nft) (definition : ItemDefinition)
    (info : CollectionInfo A T) (bank : B) : ScarcityState C :=
  { s with
    bank := bank
    collections := s.collections.insert nft.collection info
    itemDefs := s.itemDefs.insert (nft.collection, nft.item)
        { definition with
          liveSupply := definition.liveSupply - 1 }
    instances := s.instances.remove nft.instance_
    instanceMetadataCount := s.instanceMetadataCount.remove nft.instance_
    instanceDeposits := s.instanceDeposits.remove nft.instance_
    instanceMetadata := s.instanceMetadata.drainPrefix nft.instance_ }

/- The deposits that were recorded for an instance. -/
def depositsOf (s : ScarcityState C) (instance_ : Nat) : Nat :=
  s.instanceDeposits.getD instance_ 0
    + ((s.instanceMetadata.entriesAt instance_).map fun e => e.2.deposit).sum

/-
  What one step of the chain changes.  The metadata that comes
  with an item or an instance is not part of it.
-/
inductive Change (s : ScarcityState C) (op : Op C) :
    ScarcityState C → Prop
  | environment (now : Nat) (prices : Prices C.balanceMax) (bank : B)
      (hNow : now = s.now ∨ now ≤ u64Max / 1000) (hBank : bank = s.bank ∨ op = .setBank bank) :
      Change s op { s with
        now := now
        prices := prices
        bank := bank }
  | detail {s' : ScarcityState C} (hDetail : s.Detail s') :
      Change s op s'
  | nominated {collection : Nat} {info : CollectionInfo A T} (pendingOwner : Option A)
      (hInfo : s.collections.get collection = some info) :
      Change s op { s with
        collections :=
          s.collections.insert collection
            { info with pendingOwner := pendingOwner } }
  | created {deposit : Nat} {ticket : T} {bank : B} (owner : A) (hMax : deposit ≤ C.balanceMax)
      (hTicket : C.newTicket s.bank owner deposit = some (ticket, bank)) :
      Change s op { s with
        bank := bank
        nextCollectionId := s.nextCollectionId + 1
        collections :=
          s.collections.insert s.nextCollectionId
            { owner := owner
              pendingOwner := none
              nextItemIndex := 0
              itemCount := 0
              metadataCount := 0
              collectionDeposit := deposit
              ownerDeposit := deposit
              consideration := ticket } }
  | ownerChanged {collection : Nat} {info : CollectionInfo A T} {ticket : T} {charged bank : B}
      (newOwner : A) (hInfo : s.collections.get collection = some info)
      (hNew :
        C.newTicket s.bank newOwner info.ownerDeposit = some (ticket, charged))
      (hDrop : C.dropTicket charged info.consideration info.owner = some bank) :
      Change s op { s with
        bank := bank
        collections :=
          s.collections.insert collection
            { info with
              owner := newOwner
              pendingOwner := none
              consideration := ticket } }
  | itemDefined {collection price deposit : Nat} {info : CollectionInfo A T} {ticket : T} {bank : B}
      (transferability : Transferability) (hInfo : s.collections.get collection = some info)
      (hPaid : Redeposited C info.owner s.bank info.consideration
          info.ownerDeposit 0 price bank ticket deposit) :
      Change s op { s with
        bank := bank
        collections :=
          s.collections.insert collection
            { info.repaid deposit ticket with
              nextItemIndex := info.nextItemIndex + 1
              itemCount := info.itemCount + 1 }
        itemDefs :=
          s.itemDefs.insert (collection, info.nextItemIndex)
            { supply := 0
              liveSupply := 0
              metadataCount := 0
              deposit := price
              transferability := transferability } }
  | minted {collection item price deposit : Nat} {info : CollectionInfo A T}
      {definition : ItemDefinition} {ticket : T} {bank : B} (to_ : A) (withDeposit : Bool)
      (hInfo : s.collections.get collection = some info)
      (hDefinition : s.itemDefs.get (collection, item) = some definition)
      (hFree : s.nftsByOwner.get to_ = none)
      (hPaid : Redeposited C info.owner s.bank info.consideration
          info.ownerDeposit 0 (if withDeposit then price else 0)
          bank ticket deposit) :
      Change s op { s with
        bank := bank
        nextInstanceId := s.nextInstanceId + 1
        collections :=
          s.collections.insert collection
            (info.repaid deposit ticket)
        itemDefs :=
          s.itemDefs.insert (collection, item)
            { definition with
              supply := definition.supply + 1
              liveSupply := definition.liveSupply + 1 }
        nftsByOwner :=
          s.nftsByOwner.insert to_
            { instance_ := s.nextInstanceId
              collection := collection
              item := item
              mintedAt := s.now
              lastMoved := s.now
              stateNonce := 0
              moves := 0 }
        instances := s.instances.insert s.nextInstanceId to_
        instanceMetadataCount := s.instanceMetadataCount.insert s.nextInstanceId 0
        instanceDeposits :=
          if withDeposit then
            s.instanceDeposits.insert s.nextInstanceId price
          else s.instanceDeposits
        minted :=
          s.minted.insert s.nextInstanceId (collection, item) }
  | moved {purse to_ : A} {nft : Nft} (kind : MoveKind) (hHeld : s.nftsByOwner.get purse = some nft)
      (hSelf : to_ ≠ purse) (hFree : s.nftsByOwner.get to_ = none)
      (hFeeless : kind = .feeless →
          ∃ tx, op = .transaction tx ∧ s.Authorized tx purse nft
            ∧ tx.call = .transfer to_)
      (hBound : kind ≠ .forced → s.transferabilityOf nft = some .transferable)
      (hForced : kind = .forced → op.forces = true) :
      Change s op
        { (s.leave purse).settleAt to_
            { nft with
              lastMoved := s.now
              stateNonce := nft.stateNonce + 1
              moves := kind.movesAfter nft.moves }
            kind with
          dispatched := kind.dispatchedAfter nft s.dispatched }
  | burned {purse : A} {nft : Nft} {definition : ItemDefinition} {info : CollectionInfo A T}
      {deposit : Nat} {ticket : T} {bank : B} (authorized : Bool)
      (hHeld : s.nftsByOwner.get purse = some nft)
      (hDefinition : s.itemDefs.get nft.definition = some definition)
      (hLive : 1 ≤ definition.liveSupply) (hInfo : s.collections.get nft.collection = some info)
      (hPaid : Redeposited C info.owner s.bank info.consideration
          info.ownerDeposit (s.depositsOf nft.instance_) 0 bank
          ticket deposit) :
      Change s op
        { (s.leave purse).burnt nft definition
            (info.repaid deposit ticket) bank with
          dispatched :=
            if authorized then
              (nft.instance_, nft.stateNonce) :: s.dispatched
            else s.dispatched }
  | refused {tx : Transaction C} {purse : A} {nft : Nft} (hAuthorized : s.Authorized tx purse nft) :
      Change s op { s with
        nftsByOwner :=
          s.nftsByOwner.insert purse
            { nft with
              stateNonce :=
                saturatingAdd u64Max nft.stateNonce 1 }
        locked :=
          s.locked.insert purse
            (s.failedDispatchLock (s.locked.get purse))
        dispatched :=
          (nft.instance_, nft.stateNonce) :: s.dispatched }
  | itemDeleted {collection item deposit : Nat} {info : CollectionInfo A T}
      {definition : ItemDefinition} {ticket : T} {bank : B}
      (hInfo : s.collections.get collection = some info)
      (hDefinition : s.itemDefs.get (collection, item) = some definition)
      (hLive : definition.liveSupply = 0) (hCount : definition.metadataCount = 0)
      (hItems : 1 ≤ info.itemCount)
      (hPaid : Redeposited C info.owner s.bank info.consideration
          info.ownerDeposit definition.deposit 0 bank ticket
          deposit) :
      Change s op { s with
        bank := bank
        collections :=
          s.collections.insert collection
            { info.repaid deposit ticket with
              itemCount := info.itemCount - 1 }
        itemDefs := s.itemDefs.remove (collection, item) }
  | collectionDeleted {collection : Nat} {info : CollectionInfo A T} {bank : B}
      (hInfo : s.collections.get collection = some info) (hItems : info.itemCount = 0)
      (hMetadata : info.metadataCount = 0)
      (hDrop : C.dropTicket s.bank info.consideration info.owner = some bank) :
      Change s op { s with
        bank := bank
        collections := s.collections.remove collection }

/- A change, and the metadata that comes with it. -/
def Changes (s : ScarcityState C) (op : Op C) (s' : ScarcityState C) : Prop :=
  ∃ s₁, s.Change op s₁ ∧ s₁.Details s'

theorem Change.only {op : Op C} (hChange : s.Change op s') :
    s.Changes op s' :=
  ⟨s', hChange, Relation.ReflTransGen.refl⟩

--
-- Calls
--

section Calls

variable {op : Op C} {who to_ : A}

theorem changes_of_create (hCreate : s.doCreateCollection who = .ok s') :
    s.Changes op s' := by
  unfold doCreateCollection at hCreate
  simp only [bind_eq_ok, okOr_eq_ok_iff, checkedAdd_eq_some_iff, Prod.exists, pure_eq_ok]
    at hCreate
  rcases hCreate with ⟨_, ⟨_, rfl⟩, ticket, bank, hTicket, rfl⟩
  exact (Change.created who (s.prices.collectionDeposit.convert_le _) hTicket).only

variable {metadata : List (C.MetadataKey × C.MetadataValue)}

theorem changes_of_define {transferability : Transferability}
    (hDefine : s.doDefineItem who collection transferability metadata = .ok s') :
    s.Changes op s' := by
  unfold doDefineItem at hDefine
  simp only [bind_eq_ok, Prod.exists] at hDefine
  rcases hDefine with ⟨item, s₁, hBare, hMetadata⟩
  refine ⟨s₁, ?_, details_of_foldlM (fun _ _ _ hSet => detail_of_itemMetadata hSet) hMetadata⟩
  unfold defineBareItem at hBare
  simp only [bind_eq_ok, okOr_eq_ok_iff, checkedAdd_eq_some_iff, Prod.exists, pure_eq_ok,
    Prod.mk.injEq] at hBare
  rcases hBare with ⟨info, hOwned, _, ⟨_, rfl⟩, _, ⟨_, rfl⟩, _, bank, hPaid, rfl, rfl⟩
  rcases increaseOwnerDeposit_eq_ok hPaid with ⟨deposit, ticket, rfl, hRepaid⟩
  exact .itemDefined transferability (ownedCollection_eq_ok hOwned).1 hRepaid

theorem changes_of_mintInner {item : Nat} {withDeposit : Bool}
    (hMint : s.doMintInner collection item to_ metadata withDeposit = .ok s') :
    s.Changes op s' := by
  unfold doMintInner at hMint
  simp only [bind_eq_ok, ensure_eq_ok_iff, exists_const, Prod.exists] at hMint
  rcases hMint with ⟨_, owner, instance_, s₁, hBare, hMetadata⟩
  refine ⟨s₁, ?_, details_of_foldlM (fun _ _ _ hSet => detail_of_instanceMetadata hSet)
    hMetadata⟩
  unfold mintBare at hBare
  simp only [bind_eq_ok, okOr_eq_ok_iff, ensure_eq_ok_iff, exists_const, checkedAdd_eq_some_iff,
    Prod.exists, pure_eq_ok, Prod.mk.injEq] at hBare
  rcases hBare with ⟨info, hInfo, definition, hDefinition, hFree, _, ⟨_, rfl⟩, _,
      ⟨_, rfl⟩, _, ⟨_, rfl⟩, info', bank, hPaid, _, _, rfl⟩
  have hVacant := StorageMap.containsKey_eq_false_iff.mp hFree
  have hRepaid : ∃ deposit ticket, info' = info.repaid deposit ticket
          ∧ Redeposited C info.owner s.bank info.consideration info.ownerDeposit 0
              (if withDeposit then
                s.prices.instanceDeposit.convert (instanceFootprint C to_)
              else 0)
              bank ticket deposit := by
    cases withDeposit with
    | true => exact increaseOwnerDeposit_eq_ok hPaid
    | false =>
      cases hPaid
      refine ⟨info.ownerDeposit, info.consideration, rfl, ?_⟩
      exact
        { covered := Nat.zero_le _
          exact := rfl
          bounded := id
          update := Or.inr ⟨rfl, rfl, rfl⟩ }
  rcases hRepaid with ⟨deposit, ticket, rfl, hRepaid⟩
  exact .minted to_ withDeposit hInfo hDefinition hVacant hRepaid

theorem changes_of_nominate {pendingOwner : Option A}
    (hNominate : s.nominateCollectionOwner who collection pendingOwner = .ok s') :
    s.Changes op s' := by
  unfold nominateCollectionOwner at hNominate
  simp only [bind_eq_ok, ensure_eq_ok_iff, exists_const, pure_eq_ok] at hNominate
  rcases hNominate with ⟨info, hOwned, _, rfl⟩
  exact (Change.nominated pendingOwner (ownedCollection_eq_ok hOwned).1).only

theorem changes_of_claim (hClaim : s.claimCollectionOwnership who collection = .ok s') :
    s.Changes op s' := by
  unfold claimCollectionOwnership changeCollectionOwner at hClaim
  simp only [bind_eq_ok, okOr_eq_ok_iff, ensure_eq_ok_iff, exists_const, Prod.exists,
    pure_eq_ok, Prod.mk.injEq] at hClaim
  rcases hClaim with ⟨info, hInfo, _, _, bank, ⟨ticket, charged, hNew, _, hDrop, rfl, rfl⟩, rfl⟩
  exact (Change.ownerChanged who hInfo hNew hDrop).only

theorem changes_of_deleteItem {item : Nat} (hDelete : s.doDeleteItem who collection item = .ok s') :
    s.Changes op s' := by
  unfold doDeleteItem at hDelete
  simp only [bind_eq_ok, okOr_eq_ok_iff, ensure_eq_ok_iff, exists_const, Prod.exists,
    pure_eq_ok] at hDelete
  rcases hDelete with ⟨info, hOwned, definition, hDefinition, hLive, hCount, _,
      hItems, _, bank, hPaid, rfl⟩
  rcases decreaseOwnerDeposit_eq_ok hPaid with ⟨deposit, ticket, rfl, hRepaid⟩
  exact (Change.itemDeleted (ownedCollection_eq_ok hOwned).1
      hDefinition hLive hCount hItems hRepaid).only

theorem changes_of_deleteCollection (hDelete : s.doDeleteCollection who collection = .ok s') :
    s.Changes op s' := by
  unfold doDeleteCollection at hDelete
  simp only [bind_eq_ok, okOr_eq_ok_iff, ensure_eq_ok_iff, exists_const, pure_eq_ok] at hDelete
  rcases hDelete with ⟨info, hOwned, hItems, hMetadata, _, _, _, bank, hDrop, rfl⟩
  exact (Change.collectionDeleted (ownedCollection_eq_ok hOwned).1 hItems hMetadata hDrop).only

omit [DecidableEq A] in
theorem doBurn_eq_ok {nft : Nft} (hBurn : s.doBurn nft = .ok s') :
    ∃ definition info deposit ticket bank,
      s.itemDefs.get nft.definition = some definition ∧ 1 ≤ definition.liveSupply
        ∧ s.collections.get nft.collection = some info
        ∧ Redeposited C info.owner s.bank info.consideration
            info.ownerDeposit (s.depositsOf nft.instance_) 0 bank
            ticket deposit
        ∧ s' = s.burnt nft definition (info.repaid deposit ticket)
            bank := by
  unfold doBurn at hBurn
  simp only [bind_eq_ok, okOr_eq_ok_iff, ensure_eq_ok_iff, exists_const, Prod.exists,
    pure_eq_ok] at hBurn
  rcases hBurn with ⟨total, hTotal, definition, hDefinition, hLive, info, hInfo,
      _, bank, hPaid, rfl⟩
  rcases decreaseOwnerDeposit_eq_ok hPaid with ⟨deposit, ticket, rfl, hRepaid⟩
  rw [checkedTotal_eq_some hTotal] at hRepaid
  exact ⟨definition, info, deposit, ticket, bank, hDefinition, hLive, hInfo, hRepaid, rfl⟩

theorem changes_of_forceBurn (hBurn : s.doForceBurn who instance_ = .ok s') :
    s.Changes op s' := by
  unfold doForceBurn at hBurn
  simp only [bind_eq_ok, Prod.exists] at hBurn
  rcases hBurn with ⟨purse, nft, hHeld, _, _, hBurn⟩
  rcases doBurn_eq_ok hBurn with
    ⟨definition, info, deposit, ticket, bank, hDefinition, hLive, hInfo, hPaid, rfl⟩
  exact (Change.burned false (heldInstance_eq_ok hHeld).2.1 hDefinition hLive hInfo hPaid).only

theorem changes_of_forceTransfer (hForces : op.forces = true)
    (hTransfer : s.doForceTransfer who instance_ to_ = .ok s') :
    s.Changes op s' := by
  unfold doForceTransfer at hTransfer
  simp only [bind_eq_ok, okOr_eq_ok_iff, ensure_eq_ok_iff, exists_const, checkedAdd_eq_some_iff,
    Prod.exists, pure_eq_ok] at hTransfer
  rcases hTransfer with ⟨purse, nft, hHeld, _, _, hSelf, hFree, _, ⟨_, rfl⟩, rfl⟩
  exact (Change.moved .forced (heldInstance_eq_ok hHeld).2.1 hSelf
      (StorageMap.containsKey_eq_false_iff.mp hFree)
      (fun hKind => by cases hKind)
      (fun hKind => absurd rfl hKind) (fun _ => hForces)).only

omit [DecidableEq A] in
theorem ensureTransferable_eq_ok {nft : Nft} (hTransferable : s.ensureTransferable nft = .ok ()) :
    s.transferabilityOf nft = some .transferable := by
  unfold ensureTransferable at hTransferable
  simp only [bind_eq_ok, okOr_eq_ok_iff, ensure_eq_ok_iff] at hTransferable
  rcases hTransferable with ⟨_, hKind, rfl⟩
  exact hKind

theorem changes_of_transferByHolder (hTransfer : s.doTransferByHolder who instance_ to_ = .ok s') :
    s.Changes op s' := by
  unfold doTransferByHolder at hTransfer
  simp only [bind_eq_ok, okOr_eq_ok_iff, ensure_eq_ok_iff, exists_const, checkedAdd_eq_some_iff,
    pure_eq_ok] at hTransfer
  rcases hTransfer with ⟨nft, hHeld, _, hSelf, hFree, _, hKind, _, ⟨_, rfl⟩, rfl⟩
  exact (Change.moved .paid hHeld hSelf (StorageMap.containsKey_eq_false_iff.mp hFree)
      (fun hKind => nomatch hKind)
      (fun _ => ensureTransferable_eq_ok hKind)
      (fun hKind => nomatch hKind)).only

/- Every call of a signer is a change. -/
theorem changes_of_callBySigner {call : Call C}
    (hForces : ∀ instance_ to_, call = .forceTransfer instance_ to_ → op.forces = true)
    (hCall : s.callBySigner who call = .ok s') :
    s.Changes op s' := by
  cases call with
  | createCollection => exact changes_of_create hCall
  | defineItem collection transferability metadata =>
    exact changes_of_define hCall
  | mint collection item to_ metadata =>
    simp only [callBySigner, doMint, bind_eq_ok] at hCall
    rcases hCall with ⟨_, _, hMint⟩
    exact changes_of_mintInner hMint
  | transfer to_ => cases hCall
  | burn => cases hCall
  | nominateCollectionOwner collection pendingOwner =>
    exact changes_of_nominate hCall
  | setCollectionMetadata collection key value =>
    exact (Change.detail (detail_of_collectionMetadata hCall)).only
  | setItemMetadata collection item key value =>
    exact (Change.detail (detail_of_itemMetadata hCall)).only
  | claimCollectionOwnership collection =>
    exact changes_of_claim hCall
  | setInstanceMetadata instance_ key value =>
    exact (Change.detail (detail_of_instanceMetadata hCall)).only
  | forceBurn instance_ => exact changes_of_forceBurn hCall
  | deleteItem collection item =>
    exact changes_of_deleteItem hCall
  | deleteCollection collection =>
    exact changes_of_deleteCollection hCall
  | forceTransfer instance_ to_ =>
    exact changes_of_forceTransfer (hForces instance_ to_ rfl) hCall
  | transferByHolder instance_ to_ =>
    exact changes_of_transferByHolder hCall

end Calls

--
-- Transactions
--

section Transactions

variable {tx : Transaction C} {owner : A} {nft : Nft}

/- A dispatch with an authorization moves the instance, burns it, or fails and puts it back. -/
theorem change_of_asNft {op : Op C} (hOp : op = .transaction tx)
    (hAuthorized : s.Authorized tx owner nft)
    (hPerform : s.performAsNft tx owner nft.instance_ nft.stateNonce = .ok s') :
    s.Change op s' := by
  unfold performAsNft at hPerform
  rw [prepare_of_authorized hAuthorized] at hPerform
  simp only [invalid, ok_bind, pure_eq_ok] at hPerform
  subst hPerform
  cases hDispatch : (s.taken owner nft).dispatchAdmitted (.nft owner nft) tx with
  | error e =>
    have hRefused : s.Change op _ := .refused hAuthorized
    rw [← StorageMap.insert_remove s.nftsByOwner] at hRefused
    exact hRefused
  | ok s₁ =>
    unfold dispatchAdmitted dispatch at hDispatch
    rcases hAuthorized.call with hBurn | ⟨to_, hTransfer, hTo⟩
    · rw [hBurn] at hDispatch
      simp only [bind_eq_ok, ensure_eq_ok_iff, exists_const, Origin.ensureNft, Except.ok.injEq,
        exists_eq_left'] at hDispatch
      rcases doBurn_eq_ok hDispatch.2 with ⟨definition, info, deposit, ticket, bank, hDefinition,
          hLive, hInfo, hPaid, rfl⟩
      exact .burned true hAuthorized.held hDefinition hLive hInfo hPaid
    · rw [hTransfer] at hDispatch
      simp only [bind_eq_ok, ensure_eq_ok_iff, exists_const, Origin.ensureNft, Except.ok.injEq,
        exists_eq_left'] at hDispatch
      unfold transfer at hDispatch
      simp only [bind_eq_ok, okOr_eq_ok_iff, ensure_eq_ok_iff, exists_const, checkedAdd_eq_some_iff,
        pure_eq_ok] at hDispatch
      rcases hDispatch.2 with ⟨_, _, _, _, _, ⟨_, rfl⟩, rfl⟩
      exact .moved .feeless hAuthorized.held hTo.1 hTo.2.1
          (fun _ => ⟨tx, hOp, hAuthorized, hTransfer⟩)
          (fun _ => hTo.2.2.1) (fun hKind => by cases hKind)

theorem invalid_eq_ok {α : Type} {x : Except CustomInvalidity α} {a : α} (hOk : invalid x = .ok a) :
    x = .ok a := by
  cases x with
  | error e => cases hOk
  | ok a' =>
    cases hOk
    rfl

theorem failed_eq_ok {α : Type} {x : Except Error α} {a : α} (hOk : failed x = .ok a) :
    x = .ok a := by
  cases x with
  | error e => cases hOk
  | ok a' =>
    cases hOk
    rfl

/- A transaction without an authorization is a signed call. -/
theorem changes_of_signed (hDispatch : s.dispatchAdmitted tx.origin tx = .ok s') :
    s.Changes (.transaction tx) s' := by
  unfold dispatchAdmitted dispatch at hDispatch
  simp only [bind_eq_ok, ensure_eq_ok_iff, exists_const] at hDispatch
  have hForces : ∀ instance_ to_, tx.call = .forceTransfer instance_ to_ →
        (Op.transaction tx).forces = true := by
    intro instance_ to_ hCall
    unfold Op.forces
    simp only [hCall]
  unfold Transaction.origin at hDispatch
  cases hSigner : tx.signer with
  | none =>
    rw [hSigner] at hDispatch
    cases hCall : tx.call <;> rw [hCall] at hDispatch <;>
      cases hDispatch.2
  | some who =>
    rw [hSigner] at hDispatch
    cases hCall : tx.call <;> rw [hCall] at hDispatch <;>
      rw [hCall] at hForces <;>
      first
        | cases hDispatch.2
        | exact changes_of_callBySigner hForces hDispatch.2

end Transactions

/- Every step is one change of the storage and the metadata that comes with it. -/
theorem change_of_perform {op : Op C} (hPerform : s.perform op = .ok s') :
    s.Changes op s' := by
  cases op with
  | transaction tx =>
    simp only [perform, bind_eq_ok] at hPerform
    rcases hPerform with ⟨val, hValid, hPerform⟩
    rcases validate_eq_ok (invalid_eq_ok hValid) with
      rfl | ⟨owner, nft, hAuthorized, rfl⟩
    · exact changes_of_signed (failed_eq_ok hPerform)
    · exact (change_of_asNft rfl hAuthorized hPerform).only
  | mintWithoutDeposit collection item to_ metadata =>
    simp only [perform] at hPerform
    have hMint := failed_eq_ok hPerform
    unfold mintWithoutDeposit at hMint
    simp only [bind_eq_ok, ensure_eq_ok_iff, exists_const] at hMint
    exact changes_of_mintInner hMint.2
  | setTime millis =>
    simp only [perform, bind_eq_ok, pure_eq_ok] at hPerform
    rcases hPerform with ⟨_, hClock, rfl⟩
    have hRange := ensure_eq_ok_iff.mp (failed_eq_ok hClock)
    exact (Change.environment (millis / 1000) s.prices s.bank
        (Or.inr (Nat.div_le_div_right hRange.1))
        (Or.inl rfl)).only
  | setPrices prices =>
    cases hPerform
    exact (Change.environment s.now prices s.bank (Or.inl rfl) (Or.inl rfl)).only
  | setBank bank =>
    cases hPerform
    exact (Change.environment s.now s.prices bank (Or.inl rfl) (Or.inr rfl)).only

end ScarcityState

end Individuality.Scarcity
