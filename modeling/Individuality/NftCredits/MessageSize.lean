import Individuality.Base.Scale
import Individuality.NftCredits.Pallet

/-
  The size of the message that carries credit trees, and how many of them fit into a channel.

  Main declaration: `creditTreeMessage`
-/

namespace Individuality.NftCredits

open CreditTrees

--
-- Messages
--

/-
  What is written before and after the bytes of the call in
  the versioned XCM, which has no other part that varies.
-/
structure Envelope where
  head : List (BitVec 8)
  tail : List (BitVec 8)

def encodeTree (tree : NftClaimCreditTree) : List (BitVec 8) :=
  Scale.fixed 4 tree.gameIndex ++ tree.root.toList
    ++ Scale.fixed 4 tree.leafCount ++ Scale.fixed 4 tree.timestamp

def encodeDelivery (delivery : CreditTreeDelivery) : List (BitVec 8) :=
  Scale.option (Scale.fixed 8) delivery.sequence
    ++ Scale.fixed 4 delivery.block ++ encodeTree delivery.tree

/- `CreditTreeDelivery::max_encoded_len`, by its fields. -/
def maxEncodedLen : Nat :=
  (1 + 8) + 4 + (4 + 32 + 4 + 4)

/- The encoded call that receives a batch. -/
def receiveCreditTrees (palletIndex : BitVec 8) (sourceTime : Nat)
    (trees : List CreditTreeDelivery) : Option (List (BitVec 8)) := do
  let batch ← Scale.sequence? encodeDelivery trees
  return palletIndex :: 0 :: (Scale.fixed 8 sourceTime ++ batch)

/- The versioned encoding of the message around a call. -/
def creditTreeXcm (envelope : Envelope) (call : List (BitVec 8)) : Option (List (BitVec 8)) := do
  let bytes ← Scale.bytes? call
  return envelope.head ++ bytes ++ envelope.tail

/-
  The message that `send_credit_tree_batch` makes of its
  deliveries, unless there are too many of them.
-/
def creditTreeMessage (C : Config) (envelope : Envelope) (palletIndex : BitVec 8) (now : Nat)
    (updates : List CreditTreeDelivery) :
    Option (List (BitVec 8)) := do
  let trees : BoundedVec CreditTreeDelivery C.maxCreditTreesPerMessage ← BoundedVec.ofList? updates
  let call ← receiveCreditTrees palletIndex now trees.toList
  creditTreeXcm envelope call

--
-- Sizes
--

def emptyCall : List (BitVec 8) :=
  (receiveCreditTrees 255 0 []).getD []

def callLen (trees : Nat) : Nat :=
  emptyCall.length - Scale.compactSize 0 + Scale.compactSize trees + trees * maxEncodedLen

def envelopeLen (envelope : Envelope) : Nat :=
  ((creditTreeXcm envelope emptyCall).getD []).length - ((Scale.bytes? emptyCall).getD []).length

/- The length of the call is cast to 32 bits for its prefix. -/
def creditTreeXcmSize (envelope : Envelope) (trees : Nat) : Nat :=
  envelopeLen envelope + Scale.compactSize (callLen trees % 2 ^ 32) + callLen trees

def creditTreeRouterHeadroom : Nat :=
  64

/- Count down while the size is over the limit. -/
def walkBack (size : Nat → Nat) (limit : Nat) : Nat → Nat
  | 0 => 0
  | count + 1 =>
    if limit < size (count + 1) then walkBack size limit count
    else count + 1

/- The argument is the largest message that the channel takes, if there is a channel. -/
def maxCreditTreesPerMessage (C : Config) (envelope : Envelope)
    (channel : Option (BitVec 32)) : Option Nat := do
  let info ← channel
  let maxMessageSize := info.toNat - creditTreeRouterHeadroom
  let available := maxMessageSize - creditTreeXcmSize envelope 0
  let estimate := available / maxEncodedLen % 2 ^ 32
  let count := walkBack (creditTreeXcmSize envelope) maxMessageSize
      (min estimate C.maxCreditTreesPerMessage)
  if 0 < count then some count else none

def creditTreeChannelSize (envelope : Envelope) (trees : Nat) : BitVec 32 :=
  BitVec.ofNat 32 (creditTreeXcmSize envelope trees + creditTreeRouterHeadroom)

--
-- Lengths of Encodings
--

theorem length_encodeDelivery (delivery : CreditTreeDelivery) :
    (encodeDelivery delivery).length =
      if delivery.sequence.isSome then maxEncodedLen
      else maxEncodedLen - 8 := by
  unfold encodeDelivery encodeTree maxEncodedLen
  cases delivery.sequence <;> simp [Scale.option]

theorem length_deliveries_le (updates : List CreditTreeDelivery) :
    (updates.flatMap encodeDelivery).length ≤ updates.length * maxEncodedLen := by
  induction updates with
  | nil => exact Nat.zero_le _
  | cons delivery updates ih =>
    rw [List.flatMap_cons, List.length_append, List.length_cons,
      Nat.succ_mul, length_encodeDelivery]
    split <;> omega

/- The deliveries are as long as they can be when sequenced. -/
theorem length_deliveries_iff (updates : List CreditTreeDelivery) :
    (updates.flatMap encodeDelivery).length = updates.length * maxEncodedLen
      ↔ ∀ delivery ∈ updates, delivery.sequence.isSome = true := by
  induction updates with
  | nil => simp
  | cons delivery updates ih =>
    have hLe := length_deliveries_le updates
    rw [List.flatMap_cons, List.length_append, List.length_cons,
      Nat.succ_mul, length_encodeDelivery, List.forall_mem_cons, ← ih]
    have hPos : 8 < maxEncodedLen := by decide
    split
    · rename_i hSome
      simp only [hSome, true_and]
      omega
    · rename_i hNone
      constructor
      · intro hEq
        omega
      · rintro ⟨hSome, _⟩
        exact absurd hSome hNone

variable {updates : List CreditTreeDelivery}

/- A delivery without a sequence is eight bytes shorter. -/
theorem length_deliveries_short
    (hShort : (updates.flatMap encodeDelivery).length ≠ updates.length * maxEncodedLen) :
    (updates.flatMap encodeDelivery).length + 8 ≤ updates.length * maxEncodedLen := by
  induction updates with
  | nil => exact absurd rfl hShort
  | cons delivery updates ih =>
    have hLe := length_deliveries_le updates
    have hPos : 8 < maxEncodedLen := by decide
    rw [List.flatMap_cons, List.length_append, List.length_cons,
      Nat.succ_mul, length_encodeDelivery] at hShort ⊢
    by_cases hSome : delivery.sequence.isSome = true
    · rw [if_pos hSome] at hShort ⊢
      have hRest := ih (by omega)
      omega
    · rw [if_neg hSome]
      omega

theorem emptyCall_length : emptyCall.length = 11 := by
  decide

theorem callLen_eq (trees : Nat) : callLen trees
      = 10 + Scale.compactSize trees + trees * maxEncodedLen := by
  unfold callLen
  rw [emptyCall_length]
  rfl

theorem envelopeLen_eq (envelope : Envelope) : envelopeLen envelope
      = envelope.head.length + envelope.tail.length := by
  have hBytes : (Scale.bytes? emptyCall).isSome = true := by decide
  rcases Option.isSome_iff_exists.mp hBytes with ⟨bytes, hBytes⟩
  unfold envelopeLen creditTreeXcm
  rw [hBytes]
  simp
  omega

variable {envelope : Envelope} {C : Config} {palletIndex : BitVec 8} {message : List (BitVec 8)}

/- A message that is made, with the length of its parts. -/
theorem length_creditTreeMessage {now : Nat}
    (hMessage : creditTreeMessage C envelope palletIndex now updates = some message) :
    ∃ len, len = 10 + Scale.compactSize updates.length + (updates.flatMap encodeDelivery).length ∧
      len ≤ u32Max ∧
      message.length = envelopeLen envelope + Scale.compactSize len + len := by
  unfold creditTreeMessage receiveCreditTrees creditTreeXcm at hMessage
  simp only [Option.bind_eq_bind, Option.bind_eq_some_iff,
    Option.pure_def, Option.some.injEq] at hMessage
  rcases hMessage with ⟨trees, hTrees, call, ⟨batch, hBatch, rfl⟩, bytes, hBytes, rfl⟩
  rw [BoundedVec.ofList?_eq_some_iff] at hTrees
  rw [hTrees] at hBatch
  have hBatchLen := (Scale.length_sequence? hBatch).2
  rcases Scale.length_bytes? hBytes with ⟨hFits, hLength⟩
  simp only [List.length_cons, List.length_append, Scale.length_fixed] at hFits hLength
  refine ⟨_, rfl, by omega, ?_⟩
  rw [envelopeLen_eq, List.length_append, List.length_append, hLength, hBatchLen]
  have hSame : 8 + (Scale.compactSize updates.length
            + (updates.flatMap encodeDelivery).length) + 1 + 1
        = 10 + Scale.compactSize updates.length + (updates.flatMap encodeDelivery).length := by
    omega
  rw [hSame]
  omega

--
-- Monotonicity
--

theorem callLen_mono {m n : Nat} (hLe : m ≤ n) :
    callLen m ≤ callLen n := by
  rw [callLen_eq, callLen_eq]
  have hSize := Scale.compactSize_mono hLe
  have hMul := Nat.mul_le_mul_right maxEncodedLen hLe
  omega

theorem callLen_le_size (envelope : Envelope) (trees : Nat) :
    callLen trees < creditTreeXcmSize envelope trees := by
  unfold creditTreeXcmSize
  have hPos := Scale.compactSize_pos (callLen trees % 2 ^ 32)
  omega

/- A call that a limit of 32 bits admits is not cut. -/
theorem creditTreeXcmSize_of_le {trees : Nat} (hFits : callLen trees < 2 ^ 32) :
    creditTreeXcmSize envelope trees = envelopeLen envelope + Scale.compactSize (callLen trees)
        + callLen trees := by
  unfold creditTreeXcmSize
  rw [Nat.mod_eq_of_lt hFits]

theorem creditTreeXcmSize_lt (envelope : Envelope) {m n : Nat} (hLt : m < n)
    (hFits : callLen n < 2 ^ 32) :
    creditTreeXcmSize envelope m + (n - m) * maxEncodedLen ≤ creditTreeXcmSize envelope n := by
  have hLe := callLen_mono hLt.le
  rw [creditTreeXcmSize_of_le hFits, creditTreeXcmSize_of_le (Nat.lt_of_le_of_lt hLe hFits)]
  have hPrefix := Scale.compactSize_mono hLe
  have hSize := Scale.compactSize_mono hLt.le
  have hSplit : n * maxEncodedLen = m * maxEncodedLen + (n - m) * maxEncodedLen := by
    rw [← Nat.add_mul, Nat.add_sub_of_le hLt.le]
  rw [callLen_eq, callLen_eq] at *
  omega

--
-- The Walk Back
--

/- The count where the walk ends, under a limit. -/
theorem walkBack_spec (size : Nat → Nat) (limit count : Nat) :
    walkBack size limit count ≤ count ∧ (0 < walkBack size limit count →
        size (walkBack size limit count) ≤ limit) ∧
      ∀ n, walkBack size limit count < n → n ≤ count → limit < size n := by
  induction count with
  | zero =>
    refine ⟨Nat.le_refl 0, fun hPos => absurd hPos (Nat.lt_irrefl 0), ?_⟩
    intro n hLt hLe
    exact absurd hLt (Nat.not_lt.mpr hLe)
  | succ count ih =>
    unfold walkBack
    split
    · rename_i hOver
      refine ⟨Nat.le_succ_of_le ih.1, ih.2.1, ?_⟩
      intro n hLt hLe
      rcases Nat.eq_or_lt_of_le hLe with rfl | hBelow
      · exact hOver
      · exact ih.2.2 n hLt (Nat.le_of_lt_succ hBelow)
    · rename_i hWithin
      refine ⟨Nat.le_refl _, fun _ => Nat.not_lt.mp hWithin, ?_⟩
      intro n hLt hLe
      exact absurd hLt (Nat.not_lt.mpr hLe)

/- No number of trees that fits is above the estimate. -/
theorem le_estimate {n limit : Nat} (hLimit : limit < 2 ^ 32)
    (hSize : creditTreeXcmSize envelope n ≤ limit) :
    n ≤ (limit - creditTreeXcmSize envelope 0) / maxEncodedLen % 2 ^ 32 := by
  have hSmall : (limit - creditTreeXcmSize envelope 0) / maxEncodedLen < 2 ^ 32 := lt_of_le_of_lt
      ((Nat.div_le_self _ _).trans (Nat.sub_le _ _)) hLimit
  rw [Nat.mod_eq_of_lt hSmall, Nat.le_div_iff_mul_le (show 0 < maxEncodedLen by decide)]
  rcases Nat.eq_zero_or_pos n with rfl | hPos
  · rw [Nat.zero_mul]
    exact Nat.zero_le _
  · have hCall := callLen_le_size envelope n
    have hStep := creditTreeXcmSize_lt envelope hPos (by omega)
    rw [Nat.sub_zero] at hStep
    omega

/- The count that is returned, against all other counts. -/
theorem exists_count (C : Config) (envelope : Envelope) (channel : BitVec 32) :
    ∃ count, maxCreditTreesPerMessage C envelope (some channel)
          = (if 0 < count then some count else none) ∧
        count ≤ C.maxCreditTreesPerMessage ∧
        (0 < count → creditTreeXcmSize envelope count ≤ channel.toNat - creditTreeRouterHeadroom) ∧
        ∀ n, count < n → n ≤ C.maxCreditTreesPerMessage → channel.toNat - creditTreeRouterHeadroom
            < creditTreeXcmSize envelope n := by
  have hLimit : channel.toNat - creditTreeRouterHeadroom < 2 ^ 32 :=
    lt_of_le_of_lt (Nat.sub_le _ _) channel.isLt
  unfold maxCreditTreesPerMessage
  simp only [Option.bind_eq_bind, Option.bind_some]
  generalize channel.toNat - creditTreeRouterHeadroom = limit at *
  rcases walkBack_spec (creditTreeXcmSize envelope) limit
      (min ((limit - creditTreeXcmSize envelope 0) / maxEncodedLen % 2 ^ 32)
        C.maxCreditTreesPerMessage) with ⟨hBelow, hWithin, hOver⟩
  refine ⟨_, rfl, hBelow.trans (min_le_right _ _), hWithin, ?_⟩
  intro n hLt hLe
  by_contra hNot
  have hFits := Nat.not_lt.mp hNot
  exact hNot (hOver n hLt (le_min (le_estimate hLimit hFits) hLe))

theorem maxCreditTreesPerMessage_eq_none_iff (C : Config) (envelope : Envelope)
    (channel : BitVec 32) :
    maxCreditTreesPerMessage C envelope (some channel) = none ↔
      ∀ n, 1 ≤ n → n ≤ C.maxCreditTreesPerMessage → channel.toNat - creditTreeRouterHeadroom
          < creditTreeXcmSize envelope n := by
  rcases exists_count C envelope channel with ⟨count, hEq, hLe, hWithin, hOver⟩
  rw [hEq]
  constructor
  · intro hNone n hPos hMax
    split at hNone
    · cases hNone
    · exact hOver n (by omega) hMax
  · intro hAll
    rw [if_neg]
    intro hPos
    exact absurd (hAll count hPos hLe) (Nat.not_lt.mpr (hWithin hPos))

/- The result is the largest number of trees whose size fits. -/
theorem maxCreditTreesPerMessage_eq_some_iff (C : Config)
    (envelope : Envelope) (channel : BitVec 32) (n : Nat) :
    maxCreditTreesPerMessage C envelope (some channel) = some n ↔
      1 ≤ n ∧ n ≤ C.maxCreditTreesPerMessage ∧ creditTreeXcmSize envelope n
          ≤ channel.toNat - creditTreeRouterHeadroom ∧
        ∀ m, n < m → m ≤ C.maxCreditTreesPerMessage → channel.toNat - creditTreeRouterHeadroom
            < creditTreeXcmSize envelope m := by
  rcases exists_count C envelope channel with ⟨count, hEq, hLe, hWithin, hOver⟩
  rw [hEq]
  constructor
  · intro hSome
    split at hSome
    · rename_i hPos
      obtain rfl := Option.some.inj hSome
      exact ⟨hPos, hLe, hWithin hPos, hOver⟩
    · cases hSome
  · rintro ⟨hPos, hMax, hFits, hAbove⟩
    have hBelow : n ≤ count := by
      by_contra hLt
      exact absurd (hOver n (by omega) hMax) (Nat.not_lt.mpr hFits)
    have hAt : count = n := by
      by_contra hNe
      exact absurd (hAbove count (by omega) hLe) (Nat.not_lt.mpr (hWithin (by omega)))
    rw [if_pos (by omega), hAt]

--
-- Messages That Fit
--

/- The computed size is the length when all are sequenced. -/
theorem creditTreeXcmSize_eq_iff {now : Nat}
    (hMessage : creditTreeMessage C envelope palletIndex now updates = some message) :
    creditTreeXcmSize envelope updates.length = message.length ↔
      ∀ delivery ∈ updates, delivery.sequence.isSome = true := by
  rcases length_creditTreeMessage hMessage with ⟨len, hLen, hFits, hLength⟩
  have hMax : u32Max = 2 ^ 32 - 1 := rfl
  have hLe := length_deliveries_le updates
  have hCall := callLen_eq updates.length
  rw [← length_deliveries_iff]
  constructor
  · intro hEq
    by_contra hNe
    -- a delivery without a sequence saves more than a prefix
    have hShort := length_deliveries_short hNe
    have hPrefix := Scale.compactSize_le len
    have hSize := callLen_le_size envelope updates.length
    unfold creditTreeXcmSize at hEq hSize
    omega
  · intro hEq
    have hSame : callLen updates.length = len := by omega
    rw [creditTreeXcmSize_of_le (by omega), hSame, hLength]

theorem exists_creditTreeMessage (updates : List CreditTreeDelivery) (envelope : Envelope)
    (palletIndex : BitVec 8) (now : Nat) (hMax : updates.length ≤ C.maxCreditTreesPerMessage)
    (hFits : callLen updates.length < 2 ^ 32) :
    ∃ message, creditTreeMessage C envelope palletIndex now updates = some message := by
  have hLe := length_deliveries_le updates
  have hLimit : u32Max = 2 ^ 32 - 1 := rfl
  have hPos : 1 ≤ maxEncodedLen := by decide
  have hMul := Nat.le_mul_of_pos_right updates.length hPos
  rw [callLen_eq] at hFits
  rcases BoundedVec.ofList?_isSome_iff.mpr hMax with ⟨trees, hTrees⟩
  have hSame := BoundedVec.ofList?_eq_some_iff.mp hTrees
  unfold creditTreeMessage receiveCreditTrees creditTreeXcm Scale.bytes? Scale.sequence?
  rw [hTrees]
  simp only [Option.bind_eq_bind, Option.bind_some, hSame]
  rw [if_pos (by omega)]
  simp only [Option.bind_some, Option.pure_def]
  rw [if_pos]
  · exact ⟨_, rfl⟩
  · simp only [List.length_cons, List.length_append, Scale.length_fixed, Scale.length_compact]
    omega

/- A message of so many sequenced deliveries is in the limit. -/
def Fits (C : Config) (envelope : Envelope) (palletIndex : BitVec 8) (now limit n : Nat) : Prop :=
  ∃ updates message, updates.length = n ∧ (∀ delivery ∈ updates, delivery.sequence.isSome = true)
      ∧ creditTreeMessage C envelope palletIndex now updates = some message
      ∧ message.length ≤ limit

def sampleDelivery (sequence : Option Nat) : CreditTreeDelivery :=
  ⟨sequence, 3, ⟨1, zeroHash, 5, 7⟩⟩

theorem fits_iff {now limit n : Nat} (hLimit : limit < 2 ^ 32)
    (hMax : n ≤ C.maxCreditTreesPerMessage) :
    Fits C envelope palletIndex now limit n ↔ creditTreeXcmSize envelope n ≤ limit := by
  constructor
  · rintro ⟨updates, message, rfl, hAll, hMessage, hLe⟩
    rw [(creditTreeXcmSize_eq_iff hMessage).mpr hAll]
    exact hLe
  · intro hLe
    have hCall := callLen_le_size envelope n
    have hLength : (List.replicate n (sampleDelivery (some 0))).length = n := List.length_replicate
    have hAll : ∀ delivery ∈ List.replicate n (sampleDelivery (some 0)),
          delivery.sequence.isSome = true := by
      intro delivery hMem
      rw [List.eq_of_mem_replicate hMem]
      rfl
    rcases exists_creditTreeMessage (C := C) _ envelope palletIndex now
        (hLength.trans_le hMax) (by rw [hLength]; omega) with
      ⟨message, hMessage⟩
    refine ⟨_, message, hLength, hAll, hMessage, ?_⟩
    have hEq := (creditTreeXcmSize_eq_iff hMessage).mpr hAll
    rw [hLength] at hEq
    rw [← hEq]
    exact hLe

/- A channel of the size for a message gives its number back. -/
theorem channel_round_trip (envelope : Envelope) {n : Nat} (hPos : 1 ≤ n)
    (hMax : n ≤ C.maxCreditTreesPerMessage) :
    maxCreditTreesPerMessage C envelope (some (creditTreeChannelSize envelope n)) = some n
      ↔ creditTreeXcmSize envelope n + creditTreeRouterHeadroom < 2 ^ 32 := by
  have hRoom : creditTreeRouterHeadroom = 64 := rfl
  have hChannel : (creditTreeChannelSize envelope n).toNat
        = (creditTreeXcmSize envelope n + creditTreeRouterHeadroom) % 2 ^ 32 :=
    BitVec.toNat_ofNat _ _
  have hSize := callLen_le_size envelope n
  rw [maxCreditTreesPerMessage_eq_some_iff, hChannel]
  constructor
  · rintro ⟨_, _, hLe, _⟩
    omega
  · intro hFits
    rw [Nat.mod_eq_of_lt hFits, Nat.add_sub_cancel]
    refine ⟨hPos, hMax, Nat.le_refl _, ?_⟩
    intro m hLt hLe
    by_contra hNot
    have hCall := callLen_le_size envelope m
    have hStep := creditTreeXcmSize_lt envelope hLt (by omega)
    have hGrows : 0 < (m - n) * maxEncodedLen := Nat.mul_pos (by omega) (by decide)
    omega

/-
  The computed size is exact for the deliveries that carry a sequence, and a channel takes the
  largest number of these that fits.  Its own size is cut to 32 bits.
-/
theorem message_sizing (C : Config) (envelope : Envelope) (palletIndex : BitVec 8) (now : Nat)
    (channel : BitVec 32) :
    (∀ updates message, creditTreeMessage C envelope palletIndex now updates = some message →
        (creditTreeXcmSize envelope updates.length = message.length ↔
          ∀ delivery ∈ updates, delivery.sequence.isSome = true)) ∧
      (∀ n, maxCreditTreesPerMessage C envelope (some channel) = some n ↔
          1 ≤ n ∧ n ≤ C.maxCreditTreesPerMessage ∧ Fits C envelope palletIndex now
              (channel.toNat - creditTreeRouterHeadroom) n ∧
            ∀ m, n < m → m ≤ C.maxCreditTreesPerMessage → ¬ Fits C envelope palletIndex now
                (channel.toNat - creditTreeRouterHeadroom) m) ∧
      (maxCreditTreesPerMessage C envelope (some channel) = none ↔
        ∀ n, 1 ≤ n → n ≤ C.maxCreditTreesPerMessage → ¬ Fits C envelope palletIndex now
            (channel.toNat - creditTreeRouterHeadroom) n) ∧
      ∀ n, 1 ≤ n → n ≤ C.maxCreditTreesPerMessage → (maxCreditTreesPerMessage C envelope
            (some (creditTreeChannelSize envelope n)) = some n ↔
          creditTreeXcmSize envelope n + creditTreeRouterHeadroom < 2 ^ 32) := by
  have hLimit : channel.toNat - creditTreeRouterHeadroom < 2 ^ 32 :=
    lt_of_le_of_lt (Nat.sub_le _ _) channel.isLt
  refine ⟨?_, ?_, ?_, ?_⟩
  · intro updates message hMessage
    exact creditTreeXcmSize_eq_iff hMessage
  · intro n
    rw [maxCreditTreesPerMessage_eq_some_iff]
    refine and_congr_right fun _ => and_congr_right fun hMax => ?_
    rw [fits_iff hLimit hMax]
    refine and_congr_right fun _ => forall_congr' fun m =>
      forall_congr' fun _ => forall_congr' fun hLe => ?_
    rw [fits_iff hLimit hLe, Nat.not_le]
  · rw [maxCreditTreesPerMessage_eq_none_iff]
    refine forall_congr' fun n => forall_congr' fun _ => forall_congr' fun hLe => ?_
    rw [fits_iff hLimit hLe, Nat.not_le]
  · intro n hPos hMax
    exact channel_round_trip envelope hPos hMax

def sampleSizes : Config where
  Award := Unit
  creditLeaf := fun _ => zeroHash
  merkleRoot := fun _ => zeroHash
  twox := id
  awardsPerTree := 4
  maxQueuedCreditTrees := 8
  maxCreditTreesPerMessage := 4
  maxTreeDeletionsPerMessage := 2
  maxRootsPerSweep := 2
  replayCooldownSeconds := 5
  claimsChainTreeTtl := 100

/- The encoding of the version and the two instructions. -/
def sampleEnvelope : Envelope where
  head := [5, 8, 47, 0, 0, 6, 0, 0]
  tail := []

theorem message_sizing_sample : ∃ message,
      creditTreeMessage sampleSizes sampleEnvelope 71 0
          [sampleDelivery (some 0), sampleDelivery (some 1)]
        = some message ∧
      creditTreeXcmSize sampleEnvelope 2 = message.length ∧
      maxCreditTreesPerMessage sampleSizes sampleEnvelope
        (some (creditTreeChannelSize sampleEnvelope 2)) = some 2 := by
  have hSizing := message_sizing sampleSizes sampleEnvelope 71 0 0
  rcases exists_creditTreeMessage (C := sampleSizes)
      [sampleDelivery (some 0), sampleDelivery (some 1)]
      sampleEnvelope 71 0 (by decide) (by decide) with
    ⟨message, hMessage⟩
  refine ⟨message, hMessage, (hSizing.1 _ _ hMessage).mpr ?_, ?_⟩
  · intro delivery hMem
    rw [List.mem_pair] at hMem
    rcases hMem with rfl | rfl <;> rfl
  · exact (hSizing.2.2.2 2 (by decide) (by decide)).mpr (by decide)

/- A tree that is sent again makes a shorter message. -/
theorem message_sizing_fails : ¬ ∀ updates message,
      creditTreeMessage sampleSizes sampleEnvelope 71 0 updates = some message →
        creditTreeXcmSize sampleEnvelope updates.length = message.length := by
  intro hAll
  rcases exists_creditTreeMessage (C := sampleSizes)
      [sampleDelivery none] sampleEnvelope 71 0 (by decide) (by decide) with
    ⟨message, hMessage⟩
  have hSequenced := (creditTreeXcmSize_eq_iff hMessage).mp (hAll _ _ hMessage)
  exact Bool.false_ne_true (hSequenced _ (List.mem_singleton_self _))

end Individuality.NftCredits
