import Individuality.Base.DoubleMap
import Individuality.Base.Fallible
import Individuality.Base.Traces
import Individuality.MembersPallet.Types

/-
  The chunks manager: the points that a ring commitment is computed from, in pages whose hashes are
  known before the pages are uploaded, and the reads of ranges of them.

  Main declaration: `ChunksState.getChunks`
-/

namespace Individuality.ChunksManager

open Except (bind_eq_ok ok_bind pure_eq_ok)

open MembersPallet (RingExponent)

abbrev ChunkPageHash := Vector UInt8 32

def maxPageSize : Nat := 65536

/- The bounds of the size of a page are the integrity test. -/
structure Config where
  Chunk : Type
  pageSize : Nat
  pageSize_pos : 0 < pageSize
  pageSize_le : pageSize ≤ maxPageSize
  maxEncodedChunksLen : Nat
  decode : List UInt8 → Option (BoundedVec Chunk pageSize)
  blake2_256 : List UInt8 → ChunkPageHash

inductive Error where
  | chunkNotFound
  | invalidChunks
  | invalidChunkRange
  deriving DecidableEq, Repr

/- A call is refused by its authorization or fails. -/
inductive Failure where
  | invalidCall
  | failed (error : Error)
  deriving DecidableEq, Repr

structure ChunksState (T : Config) where
  chunks : DoubleMap RingExponent PageIndex (BoundedVec T.Chunk T.pageSize)
  chunkPageHashes : DoubleMap RingExponent PageIndex ChunkPageHash

inductive Op (T : Config) where
  | addChunks (ringExponent : RingExponent) (pageIndex : PageIndex)
    (encodedChunks : BoundedVec UInt8 T.maxEncodedChunksLen)
  | setChunkPageHashes (ringExponent : RingExponent)
    (pageHashes : BoundedVec ChunkPageHash 20000)

namespace ChunksState

variable {T : Config}

--
-- Pages
--

def addChunkPageHashes (s : ChunksState T) (ringExponent : RingExponent)
    (pageHashes : List ChunkPageHash) : ChunksState T :=
  { s with
    chunkPageHashes := pageHashes.zipIdx.foldl
        (fun m page => m.insert (ringExponent, page.2) page.1)
        s.chunkPageHashes }

def genesis (encodedChunkPageHashes : List (RingExponent × List ChunkPageHash)) :
    ChunksState T :=
  encodedChunkPageHashes.foldl (fun s entry => s.addChunkPageHashes entry.1 entry.2)
    ⟨.empty, .empty⟩

def authorizeAddChunks (s : ChunksState T) (ringExponent : RingExponent)
    (pageIndex : PageIndex) (encodedChunks : List UInt8) :
    Except Failure Unit := do
  ensure (s.chunks.containsKey (ringExponent, pageIndex) = false) Failure.invalidCall
  ensure (s.chunkPageHashes.get (ringExponent, pageIndex) = some (T.blake2_256 encodedChunks))
    Failure.invalidCall

def addChunks (s : ChunksState T) (ringExponent : RingExponent)
    (pageIndex : PageIndex) (encodedChunks : List UInt8) :
    Except Failure (ChunksState T) := do
  let page ← okOr (T.decode encodedChunks) (.failed .invalidChunks)
  return { s with chunks := s.chunks.insert (ringExponent, pageIndex) page }

/- A call of the manager, or an upload that is authorized. -/
def perform (s : ChunksState T) :
    Op T → Except Failure (ChunksState T)
  | .addChunks ringExponent pageIndex encodedChunks => do
    s.authorizeAddChunks ringExponent pageIndex encodedChunks.toList
    s.addChunks ringExponent pageIndex encodedChunks.toList
  | .setChunkPageHashes ringExponent pageHashes =>
    .ok (s.addChunkPageHashes ringExponent pageHashes.toList)

--
-- Reads
--

variable (T) in
/- A ring that is smaller than a page still occupies one. -/
def getLocation (ringExponent : RingExponent) (chunkIndex : Nat) :
    PageIndex × Nat :=
  let ringSize := 1 <<< ringExponent.exponent
  let totalPages := max 1 (ringSize / T.pageSize)
  let pageMask := totalPages - 1
  ((chunkIndex / T.pageSize) &&& pageMask, chunkIndex % T.pageSize)

def getChunk (s : ChunksState T) (ringExponent : RingExponent)
    (chunkIndex : Nat) : Except Error T.Chunk :=
  let location := getLocation T ringExponent chunkIndex
  okOr ((s.chunks.get (ringExponent, location.1)).bind fun page =>
      page.toList[location.2]?)
    .chunkNotFound

/- The loop of `get_chunks`, for at most so many passes. -/
def fetch (s : ChunksState T) (ringExponent : RingExponent) (stop : Nat) :
    Nat → Nat → List T.Chunk → Except Error (List T.Chunk)
  | 0, _, result => .ok result
  | passes + 1, chunkIndex, result =>
    if chunkIndex < stop then do
      let location := getLocation T ringExponent chunkIndex
      let page ← okOr (s.chunks.get (ringExponent, location.1)) .chunkNotFound
      let count := min (T.pageSize - location.2) (stop - chunkIndex)
      ensure (¬ page.length < location.2 + count) Error.chunkNotFound
      s.fetch ringExponent stop passes (chunkIndex + count)
        (result ++ (page.toList.drop location.2).take count)
    else
      .ok result

/- Every pass reads a chunk, so the passes never run out. -/
def getChunks (s : ChunksState T) (ringExponent : RingExponent)
    (start stop : Nat) : Except Error (List T.Chunk) := do
  ensure (start < stop) Error.invalidChunkRange
  s.fetch ringExponent stop (stop - start) start []

--
-- Reads of Ranges
--

variable {s s' : ChunksState T} {e : RingExponent} {p : PageIndex}

theorem getLocation_add {i n : Nat} (hFits : i % T.pageSize + n < T.pageSize) :
    getLocation T e (i + n) = ((getLocation T e i).1, (getLocation T e i).2 + n) := by
  have hSplit : i + n = i % T.pageSize + n + T.pageSize * (i / T.pageSize) := by
    have hDiv := Nat.mod_add_div i T.pageSize
    omega
  have hQuotient : (i + n) / T.pageSize = i / T.pageSize := by
    rw [hSplit, Nat.add_mul_div_left _ _ T.pageSize_pos, Nat.div_eq_of_lt hFits, Nat.zero_add]
  have hRest : (i + n) % T.pageSize = i % T.pageSize + n := by
    rw [hSplit, Nat.add_mul_mod_self_left, Nat.mod_eq_of_lt hFits]
  unfold getLocation
  rw [hQuotient, hRest]

variable {page : BoundedVec T.Chunk T.pageSize}

theorem getChunk_of_get {i : Nat} (hPage : s.chunks.get (e, (getLocation T e i).1) = some page) :
    s.getChunk e i = okOr page.toList[(getLocation T e i).2]? .chunkNotFound := by
  unfold getChunk
  dsimp only
  rw [hPage, Option.bind_some]

/- Reads that stay on a page are a slice of it. -/
theorem mapM_getChunk {i n : Nat} (hPage : s.chunks.get (e, (getLocation T e i).1) = some page)
    (hFits : (getLocation T e i).2 + (n + 1) ≤ T.pageSize) :
    (List.range' i (n + 1)).mapM (s.getChunk e)
      = if page.length < (getLocation T e i).2 + (n + 1) then
          .error .chunkNotFound
        else
          .ok ((page.toList.drop (getLocation T e i).2).take (n + 1)) := by
  rw [List.range'_succ, List.mapM_cons, getChunk_of_get hPage]
  rcases Nat.lt_or_ge (getLocation T e i).2 page.length with hLt | hGe
  · rw [List.getElem?_eq_getElem hLt, okOr_some, ok_bind,
      List.drop_eq_getElem_cons hLt, List.take_succ_cons]
    cases n with
    | zero =>
      rw [if_neg (Nat.not_lt.mpr hLt)]
      rfl
    | succ n =>
      -- the next chunk is on the same page, at the next position
      have hNext := getLocation_add (T := T) (e := e) (i := i) (n := 1)
        (by unfold getLocation at hFits; dsimp only at hFits; omega)
      have hPage' : s.chunks.get (e, (getLocation T e (i + 1)).1) = some page := by
        rw [hNext]
        exact hPage
      have hRest := mapM_getChunk (n := n) hPage' (by rw [hNext]; dsimp only; omega)
      rw [hNext, Nat.add_right_comm, Nat.add_assoc] at hRest
      rw [hRest]
      split_ifs with hShort
      · rfl
      · rfl
  · rw [List.getElem?_eq_none hGe, if_pos (by omega)]
    rfl

/- The loop reads the rest of the range, chunk by chunk. -/
theorem fetch_eq_mapM {stop passes i : Nat} {result : List T.Chunk} (hPasses : stop - i ≤ passes) :
    s.fetch e stop passes i result = do
      let chunks ← (List.range' i (stop - i)).mapM (s.getChunk e)
      return result ++ chunks := by
  induction passes generalizing i result with
  | zero =>
    rw [Nat.le_zero.mp hPasses]
    simp only [fetch, List.range'_zero, List.mapM_nil, pure_bind, List.append_nil]
    rfl
  | succ passes ih =>
    unfold fetch
    by_cases hMore : i < stop
    · have hPos : (getLocation T e i).2 < T.pageSize := Nat.mod_lt i T.pageSize_pos
      rcases Nat.exists_eq_add_of_lt
        (Nat.lt_min.mpr ⟨Nat.sub_pos_of_lt hPos, Nat.sub_pos_of_lt hMore⟩)
        with ⟨n, hCount⟩
      rw [Nat.zero_add] at hCount
      have hSplit : List.range' i (stop - i) = List.range' i (n + 1)
            ++ List.range' (i + (n + 1)) (stop - (i + (n + 1))) := by
        rw [List.range'_append_1]
        congr 1
        omega
      rw [if_pos hMore, hSplit, List.mapM_append]
      simp only [hCount, bind_assoc, pure_bind]
      cases hGet : s.chunks.get (e, (getLocation T e i).1) with
      | none =>
        have hNone : s.getChunk e i = .error .chunkNotFound := by
          unfold getChunk
          dsimp only
          rw [hGet]
          rfl
        rw [List.range'_succ, List.mapM_cons, hNone]
        rfl
      | some page =>
        rw [okOr_some, ok_bind, mapM_getChunk hGet (by omega)]
        by_cases hShort : page.length < (getLocation T e i).2 + (n + 1)
        · rw [if_pos hShort, ensure_eq_error_iff.mpr ⟨not_not_intro hShort, rfl⟩]
          rfl
        · rw [if_neg hShort, ensure_of hShort, ok_bind, ok_bind, ih (by omega)]
          simp only [List.append_assoc]
    · rw [if_neg hMore, Nat.sub_eq_zero_of_le (Nat.le_of_not_lt hMore)]
      simp only [List.range'_zero, List.mapM_nil, pure_bind, List.append_nil]
      rfl

/- Reading a range page by page gives what reading each of its chunks alone gives. -/
theorem getChunks_eq_mapM (s : ChunksState T) (ringExponent : RingExponent) (start stop : Nat) :
    s.getChunks ringExponent start stop = if start < stop then
          (List.range' start (stop - start)).mapM (s.getChunk ringExponent)
        else .error .invalidChunkRange := by
  unfold getChunks
  by_cases hLt : start < stop
  · rw [if_pos hLt, ensure_of hLt, ok_bind, fetch_eq_mapM le_rfl]
    simp
  · rw [if_neg hLt, (ensure_eq_error_iff).mpr ⟨hLt, rfl⟩]
    rfl

--
-- The Circle of a Ring
--

variable (T) in
/- The chunks of a ring, on at least one page. -/
def circle (ringExponent : RingExponent) : Nat :=
  max (2 ^ ringExponent.exponent) T.pageSize

theorem place_of_getLocation {k : Nat} (hPow : T.pageSize = 2 ^ k)
    (ringExponent : RingExponent) (i : Nat) :
    (getLocation T ringExponent i).1 * T.pageSize + (getLocation T ringExponent i).2
      = i % circle T ringExponent := by
  unfold getLocation circle
  simp only [hPow, Nat.one_shiftLeft]
  rcases Nat.le_total k ringExponent.exponent with hLe | hLe
  · have hPages : 2 ^ ringExponent.exponent / 2 ^ k = 2 ^ (ringExponent.exponent - k) :=
      Nat.pow_div hLe Nat.two_pos
    have hRing : 2 ^ ringExponent.exponent = 2 ^ k * 2 ^ (ringExponent.exponent - k) := by
      rw [← pow_add, Nat.add_sub_cancel' hLe]
    rw [hPages, max_eq_right Nat.one_le_two_pow, Nat.and_two_pow_sub_one_eq_mod,
      max_eq_left (Nat.pow_le_pow_right Nat.two_pos hLe), hRing, Nat.mod_mul,
      Nat.mul_comm, Nat.add_comm]
  · have hOne : max 1 (2 ^ ringExponent.exponent / 2 ^ k) = 1 := by
      refine max_eq_left (Nat.div_le_of_le_mul ?_)
      rw [Nat.mul_one]
      exact Nat.pow_le_pow_right Nat.two_pos hLe
    rw [hOne, Nat.sub_self, Nat.and_zero, Nat.zero_mul, Nat.zero_add,
      max_eq_right (Nat.pow_le_pow_right Nat.two_pos hLe)]

theorem getLocation_eq_iff {k : Nat} (hPow : T.pageSize = 2 ^ k)
    (ringExponent : RingExponent) (i j : Nat) :
    getLocation T ringExponent i = getLocation T ringExponent j
      ↔ i % circle T ringExponent = j % circle T ringExponent := by
  rw [← place_of_getLocation hPow, ← place_of_getLocation hPow]
  constructor
  · intro hSame
    rw [hSame]
  · intro hPlace
    have hLt : ∀ i, (getLocation T ringExponent i).2 < T.pageSize :=
      fun i => Nat.mod_lt i T.pageSize_pos
    have hRest : (getLocation T ringExponent i).2 = (getLocation T ringExponent j).2 := by
      have hMod := congrArg (· % T.pageSize) hPlace
      simpa only [Nat.mul_add_mod', Nat.mod_eq_of_lt (hLt _)] using hMod
    rw [hRest, Nat.add_right_cancel_iff, Nat.mul_left_inj (Nat.ne_of_gt T.pageSize_pos)] at hPlace
    exact Prod.ext hPlace hRest

/-
  With pages of a power of two, a ring is a circle of chunks: indices are at one place exactly when
  they agree around it, and a range reads the same after any number of turns.
-/
theorem getChunks_circle {k : Nat} (hPow : T.pageSize = 2 ^ k) (ringExponent : RingExponent) :
    (∀ i j, getLocation T ringExponent i = getLocation T ringExponent j
        ↔ i % circle T ringExponent = j % circle T ringExponent)
      ∧ ∀ (s : ChunksState T) (start stop turns : Nat),
        s.getChunks ringExponent (start + turns * circle T ringExponent)
            (stop + turns * circle T ringExponent)
          = s.getChunks ringExponent start stop := by
  refine ⟨getLocation_eq_iff hPow ringExponent, ?_⟩
  intro s start stop turns
  have hTurn : (fun i => s.getChunk ringExponent (turns * circle T ringExponent + i))
        = s.getChunk ringExponent := by
    funext i
    unfold getChunk
    rw [(getLocation_eq_iff hPow ringExponent _ i).mpr (Nat.mul_add_mod' turns _ i)]
  have hRange : List.range' (start + turns * circle T ringExponent) (stop - start)
      = (List.range' start (stop - start)).map (turns * circle T ringExponent + ·) := by
    rw [List.map_add_range', Nat.add_comm]
  unfold getChunks
  rw [fetch_eq_mapM le_rfl, fetch_eq_mapM le_rfl, Nat.add_sub_add_right, hRange, List.mapM_map]
  simp only [Nat.add_lt_add_iff_right, Function.comp_def, hTurn]

--
-- Uploaded Pages
--

/- The operation uploads the page. -/
def isUpload (k : RingExponent × PageIndex) : Op T → Bool
  | .addChunks ringExponent pageIndex _ =>
    decide ((ringExponent, pageIndex) = k)
  | .setChunkPageHashes _ _ => false

/- What a successful operation does to the pages. -/
theorem perform_cases {op : Op T} (hPerform : s.perform op = .ok s') :
    ((∀ k, isUpload k op = false) ∧ s'.chunks = s.chunks) ∨ ∃ e p bytes page,
        op = .addChunks e p bytes ∧ s.chunks.get (e, p) = none
          ∧ s.chunkPageHashes.get (e, p) = some (T.blake2_256 bytes.toList)
          ∧ T.decode bytes.toList = some page
          ∧ s'.chunks = s.chunks.insert (e, p) page := by
  cases op with
  | setChunkPageHashes ringExponent pageHashes =>
    cases hPerform
    exact Or.inl ⟨fun _ => rfl, rfl⟩
  | addChunks ringExponent pageIndex encodedChunks =>
    simp only [perform, authorizeAddChunks, addChunks, bind_eq_ok,
      ensure_eq_ok_iff, okOr_eq_ok_iff, exists_const,
      pure_eq_ok] at hPerform
    rcases hPerform with ⟨⟨hNew, hHash⟩, page, hPage, rfl⟩
    exact Or.inr ⟨ringExponent, pageIndex, encodedChunks, page, rfl,
      StorageMap.containsKey_eq_false_iff.mp hNew, hHash, hPage, rfl⟩

/- What is on a page is never changed. -/
def Grows (s s' : ChunksState T) : Prop :=
  ∀ k page, s.chunks.get k = some page → s'.chunks.get k = some page

theorem grows_of_run (hRun : RunUnder perform (fun _ _ _ => True) s s') :
    Grows s s' := by
  refine RunUnder.invariant (Grows s) hRun ?_ fun _ _ hGet => hGet
  intro s₁ op s₂ _ hPerform hGrows k page hGet
  have hKept := hGrows k page hGet
  rcases perform_cases hPerform with ⟨_, hSame⟩ | ⟨e, p, bytes, new, _, hNone, _, _, hChunks⟩
  · rw [hSame]
    exact hKept
  · rw [hChunks, StorageMap.get_insert]
    split_ifs with hKey
    · rw [hKey, hNone] at hKept
      cases hKept
    · exact hKept

theorem getChunk_of_grows {i : Nat} {chunk : T.Chunk} (hGrows : Grows s s')
    (hGet : s.getChunk e i = .ok chunk) :
    s'.getChunk e i = .ok chunk := by
  unfold getChunk at hGet ⊢
  simp only [okOr_eq_ok_iff, Option.bind_eq_some_iff] at hGet ⊢
  rcases hGet with ⟨page, hPage, hChunk⟩
  exact ⟨page, hGrows _ _ hPage, hChunk⟩

theorem mapM_of_grows {indices : List Nat} {chunks : List T.Chunk} (hGrows : Grows s s')
    (hMap : indices.mapM (s.getChunk e) = .ok chunks) :
    indices.mapM (s'.getChunk e) = .ok chunks := by
  induction indices generalizing chunks with
  | nil => exact hMap
  | cons i indices ih =>
    simp only [List.mapM_cons, bind_eq_ok, pure_eq_ok] at hMap ⊢
    rcases hMap with ⟨chunk, hChunk, rest, hRest, hEq⟩
    exact ⟨chunk, getChunk_of_grows hGrows hChunk, rest, ih hRest, hEq⟩

variable {steps : List (TraceStep (ChunksState T) (Op T))}

/-
  One step of the run uploaded the page, which was missing then
  and whose encoding had the hash that was set.
-/
def UploadedOnce (steps : List (TraceStep (ChunksState T) (Op T))) (k : RingExponent × PageIndex)
    (page : BoundedVec T.Chunk T.pageSize) : Prop :=
  ∃ x bytes, steps.filter (fun y => isUpload k y.op) = [x] ∧ x.op = .addChunks k.1 k.2 bytes
      ∧ x.pre.chunks.get k = none
      ∧ x.pre.chunkPageHashes.get k = some (T.blake2_256 bytes.toList)
      ∧ T.decode bytes.toList = some page

theorem genesis_chunks (hashes : List (RingExponent × List ChunkPageHash)) :
    (genesis hashes : ChunksState T).chunks = .empty := by
  unfold genesis
  induction hashes using List.reverseRecOn with
  | nil => rfl
  | append_singleton hashes entry ih =>
    rw [List.foldl_append]
    exact ih

/- A missing page had no upload, and any other page one. -/
def Filed (steps : List (TraceStep (ChunksState T) (Op T))) (s : ChunksState T) : Prop :=
  ∀ k,
    match s.chunks.get k with
    | none => steps.filter (fun x => isUpload k x.op) = []
    | some page => UploadedOnce steps k page

theorem filed_of_trace {start : ChunksState T} (hEmpty : start.chunks = .empty)
    (hTrace : Trace perform (fun _ _ _ => True) start steps s) :
    Filed steps s := by
  induction hTrace with
  | nil =>
    intro k
    rw [hEmpty, StorageMap.get_empty]
    rfl
  | @snoc steps s₁ s₂ op _ _ hPerform ih =>
    intro k
    have hOld := ih k
    unfold UploadedOnce at hOld ⊢
    simp only [List.filter_append, List.filter_singleton]
    rcases perform_cases hPerform with
      ⟨hNot, hSame⟩ | ⟨e, p, bytes, new, rfl, hNone, hHash, hPage, hChunks⟩
    · rw [hSame, hNot, cond_false]
      simpa only [List.append_nil] using hOld
    · rw [hChunks, StorageMap.get_insert]
      by_cases hKey : k = (e, p)
      · subst hKey
        rw [hNone] at hOld
        rw [if_pos rfl]
        dsimp only at hOld ⊢
        rw [hOld, List.nil_append]
        refine ⟨⟨s₁, _, s₂⟩, bytes, ?_, rfl, hNone, hHash, hPage⟩
        simp [isUpload]
      · have hOther : isUpload k (.addChunks e p bytes : Op T) = false :=
          decide_eq_false (Ne.symm hKey)
        rw [if_neg hKey, hOther, cond_false]
        simpa only [List.append_nil] using hOld

/-
  In every run, what is on a page was uploaded once, under the hash that was set for it then, and a
  range that was read once reads the same ever after.
-/
theorem chunks_stable {hashes : List (RingExponent × List ChunkPageHash)}
    (hTrace : Trace perform (fun _ _ _ => True) (genesis hashes) steps s) :
    (∀ k page, s.chunks.get k = some page → UploadedOnce steps k page)
      ∧ ∀ s', RunUnder perform (fun _ _ _ => True) s s' → ∀ ringExponent start stop chunks,
          s.getChunks ringExponent start stop = .ok chunks →
            s'.getChunks ringExponent start stop = .ok chunks := by
  constructor
  · intro k page hGet
    have hFiled := filed_of_trace (genesis_chunks hashes) hTrace k
    rw [hGet] at hFiled
    exact hFiled
  intro s' hLater ringExponent start stop chunks hRead
  unfold getChunks at hRead ⊢
  simp only [fetch_eq_mapM le_rfl, bind_eq_ok, pure_eq_ok] at hRead ⊢
  rcases hRead with ⟨_, hRange, rest, hMap, hEq⟩
  exact ⟨_, hRange, rest, mapM_of_grows (grows_of_run hLater) hMap, hEq⟩

end ChunksState

--
-- Sample Run
--

abbrev sampleConfig : Config where
  Chunk := UInt8
  pageSize := 2
  pageSize_pos := by decide
  pageSize_le := by decide
  maxEncodedChunksLen := 2
  decode := BoundedVec.ofList?
  blake2_256 := fun bytes => Vector.replicate 32 (bytes.headD 0)

theorem getChunks_circle_sample :
    ChunksState.getLocation sampleConfig .r2e9 3 = ChunksState.getLocation sampleConfig .r2e9 515 :=
  ((ChunksState.getChunks_circle (T := sampleConfig) (k := 1) rfl .r2e9).1 3 515).mpr (by decide)

theorem chunks_stable_sample : ∃ (s : ChunksState sampleConfig)
      (page : BoundedVec UInt8 2) (steps : List _),
      Trace ChunksState.perform (fun _ _ _ => True)
        (.genesis [(.r2e9, [Vector.replicate 32 5])]) steps s
      ∧ ChunksState.UploadedOnce steps (.r2e9, 0) page
      ∧ s.getChunks .r2e9 0 2 = .ok [5, 6]
      ∧ ∀ s', RunUnder ChunksState.perform (fun _ _ _ => True) s s' →
        s'.getChunks .r2e9 0 2 = .ok [5, 6] := by
  have hExecute : (execute ChunksState.perform (fun _ _ => true)
        (.genesis [(.r2e9, [Vector.replicate 32 5])])
        [.addChunks .r2e9 0 ⟨[5, 6], by decide⟩]).any (fun s : ChunksState sampleConfig =>
            (s.chunks.get (.r2e9, 0)).isSome
              && (s.getChunks .r2e9 0 2).toOption = some [5, 6]) = true := by
    decide +kernel
  rcases exists_run_of_execute (fun _ _ _ _ _ => trivial) hExecute with ⟨s, hRun, hTest⟩
  rw [Bool.and_eq_true, decide_eq_true_eq] at hTest
  rcases Option.isSome_iff_exists.mp hTest.1 with ⟨page, hPage⟩
  have hRead : s.getChunks .r2e9 0 2 = .ok [5, 6] := by
    cases hGet : s.getChunks .r2e9 0 2 with
    | error e => simp [hGet, Except.toOption] at hTest
    | ok chunks =>
      rw [hGet] at hTest
      cases hTest.2
      rfl
  rcases hRun.exists_trace with ⟨steps, hTrace⟩
  rcases ChunksState.chunks_stable hTrace with ⟨hUploads, hReads⟩
  exact ⟨s, page, steps, hTrace, hUploads _ page hPage, hRead,
    fun s' hLater => hReads s' hLater _ _ _ _ hRead⟩

end Individuality.ChunksManager
