import Individuality.Base.DoubleMap
import Individuality.Base.Fallible
import Mathlib.Data.List.TakeWhile

/-
  What the two chains of the NFT claim credits share: the commitment to a block's credits, its
  delivery, and the sweep of the entries filed under the timestamps of the trees.

  Main declaration: `NftClaimCreditTree`
-/

namespace Individuality.CreditTrees

--
-- Trees and Deliveries
--

/- A string of 32 bytes. -/
abbrev Hash :=
  Vector (BitVec 8) 32

def zeroHash : Hash :=
  Vector.replicate 32 0#8

structure NftClaimCreditTree where
  gameIndex : Nat
  root : Hash
  leafCount : Nat
  timestamp : Nat
  deriving DecidableEq

/- A tree that is resent carries no sequence. -/
structure CreditTreeDelivery where
  sequence : Option Nat
  block : Nat
  tree : NftClaimCreditTree
  deriving DecidableEq

--
-- Expiry
--

def expiryDeadline (timestamp ttl : Nat) : Nat :=
  saturatingAdd u64Max timestamp ttl

/- Blocks, filed under the timestamps of their trees. -/
abbrev Expiries :=
  DoubleMap Nat Nat Unit

/-
  Entries iterate from the oldest timestamp to the newest, and
  in the order of a hash under one timestamp.
-/
def isBefore (twox : Nat → Nat) (a b : Nat × Nat) : Prop :=
  a.1 < b.1 ∨ a.1 = b.1 ∧ twox a.2 ≤ twox b.2

instance (twox : Nat → Nat) : DecidableRel (isBefore twox) :=
  fun _ _ => inferInstanceAs (Decidable (_ ∨ _))

def iterKeys (twox : Nat → Nat) (expiries : Expiries) : List (Nat × Nat) :=
  expiries.keys.insertionSort (isBefore twox)

/- The entries one sweep takes, oldest first. -/
def dueExpiries (twox : Nat → Nat) (ttl now limit : Nat) (expiries : Expiries) : List (Nat × Nat) :=
  ((iterKeys twox expiries).takeWhile fun key =>
    decide (now ≥ expiryDeadline key.1 ttl)).take limit

def drainDueExpiries (twox : Nat → Nat) (ttl now limit : Nat)
    (expiries : Expiries) : List Nat × Expiries :=
  let due := dueExpiries twox ttl now limit expiries
  (due.map Prod.snd, due.foldl (·.remove ·) expiries)

variable {twox : Nat → Nat} {ttl now limit : Nat} {expiries : Expiries} {key : Nat × Nat}

/- A sweep takes filed entries whose deadline has passed. -/
theorem mem_dueExpiries (hMem : key ∈ dueExpiries twox ttl now limit expiries) :
    expiries.get key = some () ∧ expiryDeadline key.1 ttl ≤ now := by
  unfold dueExpiries at hMem
  have hWhile := List.mem_of_mem_take hMem
  have hDue := List.mem_takeWhile_imp hWhile
  have hKey := (List.takeWhile_sublist _).subset hWhile
  unfold iterKeys at hKey
  rw [List.mem_insertionSort, StorageMap.mem_keys_iff] at hKey
  refine ⟨?_, of_decide_eq_true hDue⟩
  rcases Option.ne_none_iff_exists'.mp hKey with ⟨u, hGet⟩
  exact hGet

/- A sweep names the blocks of the entries it takes. -/
theorem mem_drainDueExpiries_iff {block : Nat} :
    block ∈ (drainDueExpiries twox ttl now limit expiries).1 ↔ ∃ timestamp, (timestamp, block)
        ∈ dueExpiries twox ttl now limit expiries := by
  unfold drainDueExpiries
  rw [List.mem_map]
  constructor
  · rintro ⟨⟨timestamp, block'⟩, hMem, rfl⟩
    exact ⟨timestamp, hMem⟩
  · rintro ⟨timestamp, hMem⟩
    exact ⟨(timestamp, block), hMem, rfl⟩

theorem get_drainDueExpiries_of_mem (hMem : key ∈ dueExpiries twox ttl now limit expiries) :
    (drainDueExpiries twox ttl now limit expiries).2.get key = none := by
  unfold drainDueExpiries
  dsimp only
  rw [StorageMap.get_foldl_remove, if_pos hMem]

/- A sweep leaves the entries that it does not take. -/
theorem get_drainDueExpiries_of_notMem (hMem : key ∉ dueExpiries twox ttl now limit expiries) :
    (drainDueExpiries twox ttl now limit expiries).2.get key = expiries.get key := by
  unfold drainDueExpiries
  dsimp only
  rw [StorageMap.get_foldl_remove, if_neg hMem]

/- What is filed after a sweep was filed before. -/
theorem get_of_get_drainDueExpiries
    (hGet : (drainDueExpiries twox ttl now limit expiries).2.get key = some ()) :
    expiries.get key = some () := by
  by_cases hMem : key ∈ dueExpiries twox ttl now limit expiries
  · rw [get_drainDueExpiries_of_mem hMem] at hGet
    cases hGet
  · rw [get_drainDueExpiries_of_notMem hMem] at hGet
    exact hGet

end Individuality.CreditTrees
