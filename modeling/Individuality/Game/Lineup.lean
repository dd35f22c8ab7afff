import Individuality.Base.Seating
import Individuality.Game.Pallet

/-
  The lineup of a shuffle: who has been inserted, under which hash and in which population, the rows
  in which the rounds are drawn, and what drawing them does.

  Main declaration: `Lineup`
-/

namespace Individuality.Game

variable {T : Config}

/- A count that is capped goes on being capped. -/
theorem saturatingAdd_min (max a b : Nat) :
    saturatingAdd max (min a max) b = min (a + b) max := by
  unfold saturatingAdd
  omega

--
-- Lineups
--

/-
  The players inserted into a shuffle in both populations, and
  the hash of the block in which each was inserted.
-/
structure Lineup (T : Config) where
  hash : T.Who → Nat
  people : List T.Who
  candidates : List T.Who

namespace Lineup

variable (lineup : Lineup T)

def pos (who : T.Who) (round : Nat) : Nat :=
  T.positionKey (lineup.hash who) who round

def inserted : List T.Who :=
  lineup.people ++ lineup.candidates

/- One of the populations. -/
def part (recognized : Bool) : List T.Who :=
  if recognized then lineup.people else lineup.candidates

/- A population in the order of its positions in a round. -/
def partRow (recognized : Bool) (round : Nat) : List T.Who :=
  sortBy (fun who => lineup.pos who round) (lineup.part recognized)

/- The order in which the players of a round are drawn. -/
def row (round : Nat) : List T.Who :=
  lineup.partRow true round ++ lineup.partRow false round

variable {lineup} {who : T.Who}

theorem pos_inj {who' : T.Who} {round : Nat} (hEq : lineup.pos who round = lineup.pos who' round) :
    who = who' :=
  T.positionKey_injective _ _ _ _ _ hEq

@[simp] theorem mem_partRow {recognized : Bool} {round : Nat} :
    who ∈ lineup.partRow recognized round ↔ who ∈ lineup.part recognized :=
  mem_sortBy

@[simp] theorem length_partRow (recognized : Bool) (round : Nat) :
    (lineup.partRow recognized round).length = (lineup.part recognized).length :=
  length_sortBy _ _

@[simp] theorem mem_row {round : Nat} :
    who ∈ lineup.row round ↔ who ∈ lineup.inserted := by
  unfold row inserted
  rw [List.mem_append, List.mem_append, mem_partRow, mem_partRow]
  rfl

@[simp] theorem length_row (round : Nat) :
    (lineup.row round).length = lineup.inserted.length := by
  unfold row inserted
  rw [List.length_append, List.length_append, length_partRow, length_partRow]
  rfl

theorem part_nodup (hNodup : lineup.inserted.Nodup) (recognized : Bool) :
    (lineup.part recognized).Nodup := by
  rcases List.nodup_append.mp hNodup with ⟨hPeople, hOther, _⟩
  cases recognized with
  | true => exact hPeople
  | false => exact hOther

theorem mem_inserted_of_part {tag : Bool} (hMem : who ∈ lineup.part tag) :
    who ∈ lineup.inserted := by
  unfold inserted
  rw [List.mem_append]
  cases tag with
  | true => exact .inl hMem
  | false => exact .inr hMem

theorem pairwise_partRow (hNodup : lineup.inserted.Nodup) (recognized : Bool) (round : Nat) :
    (lineup.partRow recognized round).Pairwise fun a b =>
      lineup.pos a round < lineup.pos b round :=
  pairwise_sortBy (part_nodup hNodup recognized) fun _ _ _ _ hEq => pos_inj hEq

theorem row_perm (round : Nat) :
    (lineup.row round).Perm lineup.inserted :=
  (sortBy_perm _ _).append (sortBy_perm _ _)

theorem row_nodup (hNodup : lineup.inserted.Nodup) (round : Nat) :
    (lineup.row round).Nodup :=
  (row_perm round).nodup_iff.mpr hNodup

end Lineup

--
-- Boards
--

/- What a game changes of the storage, apart from itself. -/
structure Board (T : Config) where
  players : StorageMap T.Who Player
  indexToPlayer : StorageMap (Nat × Nat) T.Who
  playerToIndex : StorageMap T.Who (List Nat)
  shuffle : Bool → StorageMap (Nat × Nat) T.Who

def World.board (w : World T) : Board T where
  players := w.store.players
  indexToPlayer := w.store.indexToPlayer
  playerToIndex := w.store.playerToIndex
  shuffle := fun recognized =>
    if recognized then w.store.shuffleRecognized
    else w.store.shuffleNotRecognized

def ShuffleRetrievePhase.isRecognized :
    ShuffleRetrievePhase → Bool
  | recognized => true
  | notRecognized _ => false

namespace Board

/- Write the map of one population. -/
def setShuffle (b : Board T) (recognized : Bool) (m : StorageMap (Nat × Nat) T.Who) : Board T :=
  { b with shuffle := Function.update b.shuffle recognized m }

end Board

namespace World

variable {w : World T}

theorem shuffleMap_eq (phase : ShuffleRetrievePhase) :
    w.shuffleMap phase = w.board.shuffle phase.isRecognized := by
  cases phase <;> rfl

theorem board_removeFromShuffle (phase : ShuffleRetrievePhase) (key : Nat × Nat) :
    (w.removeFromShuffle phase key).board = w.board.setShuffle phase.isRecognized
        ((w.board.shuffle phase.isRecognized).remove key) := by
  cases phase with
  | recognized =>
    refine congrArg (Board.mk _ _ _) ?_
    funext recognized
    cases recognized <;> rfl
  | notRecognized count =>
    refine congrArg (Board.mk _ _ _) ?_
    funext recognized
    cases recognized <;> rfl

theorem board_setIndex (rounds round playerIndex : Nat) (who : T.Who) :
    (w.setIndex rounds round playerIndex who).board
      = { w.board with
          indexToPlayer := w.board.indexToPlayer.insert (round, playerIndex) who
          playerToIndex := w.board.playerToIndex.insert who (((w.board.playerToIndex.get who).getD
              (List.replicate rounds 0)).set round playerIndex) } :=
  rfl

end World

--
-- Drawing
--

/-
  Of each round and population some players have been drawn, the people before the candidates.  The
  others are in the maps of the shuffle.
-/
structure Drawing (lineup : Lineup T) (rounds : Nat) (drawn : Bool → Nat → Nat)
    (b : Board T) : Prop where
  holds : ∀ recognized,
      Holds (b.shuffle recognized) lineup.pos rounds fun r =>
        (lineup.partRow recognized r).drop (drawn recognized r)
  seated : Seated rounds u32Max lineup.row
      (fun r => drawn true r + drawn false r)
      b.indexToPlayer b.playerToIndex

/- Every position that is left in a round comes after the one drained last. -/
def CursorsBefore (m : StorageMap (Nat × Nat) T.Who) (cursors : World.ResumeCursors) : Prop :=
  ∀ r k, m.get (r, k) ≠ none → StorageMap.isAfter id (cursors[r]?).join k = true

theorem CursorsBefore.of_none {m : StorageMap (Nat × Nat) T.Who} {cursors : World.ResumeCursors}
    (hNone : ∀ r : Nat, (cursors[r]?).join = none) :
    CursorsBefore m cursors := by
  intro r k _
  rw [hNone]
  rfl

namespace World

section Positions

variable
  {m : StorageMap (Nat × Nat) T.Who}
  {key : T.Who → Nat → Nat}
  {rounds round : Nat}
  {rows : Nat → List T.Who}
  {lastKey : Option Nat}

/- A round without players has no next position. -/
theorem nextPosition_eq_none (hHolds : Holds m key rounds rows) (hRow : rows round = []) :
    nextPosition m round lastKey = none := by
  unfold nextPosition
  rw [List.argmin_eq_none, List.map_eq_nil_iff, List.filter_eq_nil_iff]
  intro k hMem hBoth
  rw [Bool.and_eq_true, decide_eq_true_eq] at hBoth
  rw [StorageMap.mem_keys_iff] at hMem
  rcases Option.ne_none_iff_exists'.mp hMem with ⟨who, hGet⟩
  have hIn := ((hHolds k.1 k.2 who).mp hGet).2.1
  rw [hBoth.1, hRow] at hIn
  cases hIn

/- The next position is that of the first player left. -/
theorem nextPosition_of_holds {who : T.Who} {rest : List T.Who} (hHolds : Holds m key rounds rows)
    (hRound : round < rounds) (hRow : rows round = who :: rest)
    (hSorted : (rows round).Pairwise fun a b => key a round < key b round)
    (hAfter : ∀ k, m.get (round, k) ≠ none → StorageMap.isAfter id lastKey k = true) :
    nextPosition m round lastKey = some (key who round)
      ∧ m.get (round, key who round) = some who := by
  have hGet : m.get (round, key who round) = some who := (hHolds _ _ _).mpr
      ⟨hRound, by rw [hRow]; exact List.mem_cons_self, rfl⟩
  refine ⟨?_, hGet⟩
  rw [hRow, List.pairwise_cons] at hSorted
  have hIff : ∀ k, k ∈ (m.keys.filter fun key =>
            decide (key.1 = round) && StorageMap.isAfter id lastKey key.2).map Prod.snd
          ↔ m.get (round, k) ≠ none := by
    intro k
    rw [List.mem_map]
    constructor
    · rintro ⟨⟨r, k'⟩, hMem, rfl⟩
      rw [List.mem_filter, Bool.and_eq_true, decide_eq_true_eq, StorageMap.mem_keys_iff] at hMem
      rw [← hMem.2.1]
      exact hMem.1
    · intro hSome
      refine ⟨(round, k), ?_, rfl⟩
      rw [List.mem_filter, Bool.and_eq_true, decide_eq_true_eq, StorageMap.mem_keys_iff]
      exact ⟨hSome, rfl, hAfter k hSome⟩
  have hMem := (hIff (key who round)).mpr (by rw [hGet]; exact Option.some_ne_none _)
  unfold nextPosition
  cases hLeast : List.argmin id
      ((m.keys.filter fun key =>
        decide (key.1 = round) && StorageMap.isAfter id lastKey key.2).map Prod.snd) with
  | none =>
    rw [List.argmin_eq_none] at hLeast
    rw [hLeast] at hMem
    cases hMem
  | some k =>
    have hLe : k ≤ key who round := List.le_of_mem_argmin hMem hLeast
    have hK := (hIff k).mp (List.argmin_mem hLeast)
    rcases Option.ne_none_iff_exists'.mp hK with ⟨who', hGet'⟩
    rcases (hHolds _ _ _).mp hGet' with ⟨_, hIn, rfl⟩
    rw [hRow, List.mem_cons] at hIn
    rcases hIn with rfl | hRest
    · rfl
    · have hLt := hSorted.1 who' hRest
      omega

end Positions

end World

--
-- Retrieving
--

/- It is the turn of a population in a round: the candidates are drawn after all people. -/
def IsTurn (lineup : Lineup T) (recognized : Bool) (drawn : Bool → Nat → Nat)
    (round : Nat) : Prop :=
  if recognized then drawn false round = 0
  else drawn true round = lineup.people.length

/- One more player of a population is drawn in a round. -/
def drawOne (drawn : Bool → Nat → Nat) (recognized : Bool) (round : Nat) : Bool → Nat → Nat :=
  Function.update drawn recognized
    (Function.update (drawn recognized) round (drawn recognized round + 1))

namespace Drawing

variable
  {lineup : Lineup T}
  {rounds round playerIndex : Nat}
  {drawn drawn' : Bool → Nat → Nat}
  {b : Board T}
  {acc : World T × World.ResumeCursors}
  {phase : ShuffleRetrievePhase}

theorem congr (hDrawing : Drawing lineup rounds drawn b)
    (hDrawn : ∀ recognized r, r < rounds → drawn' recognized r = drawn recognized r) :
    Drawing lineup rounds drawn' b where
  holds := by
    intro recognized
    refine (hDrawing.holds recognized).congr ?_ fun _ _ _ _ => rfl
    intro r hRound a
    rw [hDrawn recognized r hRound]
  seated := by
    refine hDrawing.seated.congr ?_
    intro r hRound
    rw [hDrawn true r hRound, hDrawn false r hRound]

/- Who is drawn next in a round. -/
theorem row_getElem {who : T.Who} {recognized : Bool} (hTurn : IsTurn lineup recognized drawn round)
    (hGet : (lineup.partRow recognized round)[drawn recognized round]? = some who) :
    (lineup.row round)[drawn true round + drawn false round]? = some who := by
  unfold Lineup.row
  have hLt := (List.getElem?_eq_some_iff.mp hGet).1
  cases recognized with
  | true =>
    have hZero : drawn false round = 0 := hTurn
    rw [hZero, Nat.add_zero, List.getElem?_append_left hLt]
    exact hGet
  | false =>
    have hAll : drawn true round = (lineup.partRow true round).length := by
      rw [Lineup.length_partRow]
      exact hTurn
    rw [hAll, List.getElem?_append_right (Nat.le_add_right _ _), Nat.add_sub_cancel_left]
    exact hGet

/- The round is drained once its population is drawn. -/
theorem retrieveRound_eq_none (hDrawing : Drawing lineup rounds drawn acc.1.board)
    (hDrained : (lineup.part phase.isRecognized).length ≤ drawn phase.isRecognized round) :
    World.retrieveRound phase rounds playerIndex acc round = none := by
  unfold World.retrieveRound
  have hNone : World.nextPosition (acc.1.shuffleMap phase) round ((acc.2[round]?).join) = none := by
    rw [World.shuffleMap_eq]
    refine World.nextPosition_eq_none (hDrawing.holds phase.isRecognized) ?_
    apply List.drop_eq_nil_of_le
    rw [Lineup.length_partRow]
    exact hDrained
  dsimp only
  rw [hNone]

/- The next player of a round is drawn. -/
theorem retrieveRound (hDrawing : Drawing lineup rounds drawn acc.1.board)
    (hNodup : lineup.inserted.Nodup) (hRound : round < rounds)
    (hTurn : IsTurn lineup phase.isRecognized drawn round)
    (hLeft : drawn phase.isRecognized round < (lineup.part phase.isRecognized).length)
    (hIndex : playerIndex = min (drawn true round + drawn false round) u32Max)
    (hCursors : CursorsBefore (acc.1.shuffleMap phase) acc.2) :
    ∃ acc', World.retrieveRound phase rounds playerIndex acc round = some acc'
        ∧ Drawing lineup rounds (drawOne drawn phase.isRecognized round) acc'.1.board
        ∧ CursorsBefore (acc'.1.shuffleMap phase) acc'.2
        ∧ acc'.1.store.players = acc.1.store.players
        ∧ acc'.1.store.game = acc.1.store.game := by
  have hSorted := Lineup.pairwise_partRow hNodup phase.isRecognized round
  have hLt : drawn phase.isRecognized round < (lineup.partRow phase.isRecognized round).length := by
    rw [Lineup.length_partRow]
    exact hLeft
  have hRow := List.drop_eq_getElem_cons hLt
  generalize hWho : (lineup.partRow phase.isRecognized round)[
      drawn phase.isRecognized round] = who at hRow
  have hGetRow : (lineup.partRow phase.isRecognized round)[
        drawn phase.isRecognized round]? = some who := by
    rw [List.getElem?_eq_getElem hLt, hWho]
  have hHolds := hDrawing.holds phase.isRecognized
  have hDropped := hSorted.drop (i := drawn phase.isRecognized round)
  rcases World.nextPosition_of_holds hHolds hRound hRow hDropped (fun k hGet => by
        rw [← World.shuffleMap_eq] at hGet
        exact hCursors round k hGet) with
    ⟨hNext, hGet⟩
  refine ⟨((acc.1.removeFromShuffle phase (round, lineup.pos who round)).setIndex rounds round
            playerIndex who,
        acc.2.set round (some (lineup.pos who round))),
      ?_, ⟨?_, ?_⟩, ?_, ?_, ?_⟩
  · unfold World.retrieveRound
    dsimp only
    rw [World.shuffleMap_eq, hNext]
    dsimp only
    rw [hGet]
  · intro recognized
    rw [World.board_setIndex, World.board_removeFromShuffle]
    unfold Board.setShuffle drawOne
    dsimp only
    by_cases hSame : recognized = phase.isRecognized
    · subst hSame
      rw [Function.update_self, Function.update_self]
      refine (hHolds.removeHead hRow hDropped).congr ?_ fun _ _ _ _ => rfl
      intro r _ a
      by_cases hR : r = round
      · subst hR
        rw [Function.update_self, Function.update_self]
      · rw [Function.update_of_ne hR, Function.update_of_ne hR]
    · rw [Function.update_of_ne hSame, Function.update_of_ne hSame]
      exact hDrawing.holds recognized
  · rw [World.board_setIndex, World.board_removeFromShuffle]
    unfold Board.setShuffle
    dsimp only
    have hSeated := hDrawing.seated.draw hRound (row_getElem hTurn hGetRow)
        (Lineup.row_nodup hNodup round)
    rw [← hIndex] at hSeated
    refine hSeated.congr ?_
    intro r _
    unfold drawOne
    by_cases hR : r = round
    · subst hR
      rw [Function.update_self]
      cases phase.isRecognized with
      | true => simp [Nat.add_right_comm]
      | false => simp [Nat.add_assoc]
    · rw [Function.update_of_ne hR]
      cases phase.isRecognized with
      | true => simp [hR]
      | false => simp [hR]
  · intro r k hSome
    rw [World.shuffleMap_eq, World.board_setIndex, World.board_removeFromShuffle] at hSome
    unfold Board.setShuffle at hSome
    dsimp only at hSome
    rw [Function.update_self, StorageMap.get_remove] at hSome
    split_ifs at hSome with hKey
    · exact absurd rfl hSome
    · rw [World.shuffleMap_eq] at hCursors
      have hOld := hCursors r k hSome
      dsimp only
      rw [List.getElem?_set]
      by_cases hR : round = r
      · subst hR
        rw [if_pos rfl]
        split_ifs
        · -- those left come after the one that was first
          rcases Option.ne_none_iff_exists'.mp hSome with ⟨who', hGet'⟩
          rcases (hHolds _ _ _).mp hGet' with ⟨_, hIn, rfl⟩
          dsimp only at hIn
          rw [hRow, List.mem_cons] at hIn
          rcases hIn with rfl | hRest
          · exact absurd rfl hKey
          · rw [hRow, List.pairwise_cons] at hDropped
            exact StorageMap.isAfter_some.mpr (hDropped.1 who' hRest)
        · rfl
      · rw [if_neg hR]
        exact hOld
  · cases phase <;> rfl
  · cases phase <;> rfl

/- One player is drawn in each of some rounds. -/
theorem retrieveRounds {rows : List Nat} (hDrawing : Drawing lineup rounds drawn acc.1.board)
    (hNodup : lineup.inserted.Nodup) (hRows : rows.Nodup)
    (hReady : ∀ round ∈ rows, round < rounds ∧ IsTurn lineup phase.isRecognized drawn round
        ∧ drawn phase.isRecognized round < (lineup.part phase.isRecognized).length
        ∧ playerIndex = min (drawn true round + drawn false round) u32Max)
    (hCursors : CursorsBefore (acc.1.shuffleMap phase) acc.2) :
    ∃ acc' drawn', World.retrieveRounds phase rounds playerIndex rows acc = (acc', true)
        ∧ Drawing lineup rounds drawn' acc'.1.board
        ∧ CursorsBefore (acc'.1.shuffleMap phase) acc'.2
        ∧ acc'.1.store.players = acc.1.store.players
        ∧ acc'.1.store.game = acc.1.store.game
        ∧ ∀ recognized round, drawn' recognized round =
            if recognized = phase.isRecognized ∧ round ∈ rows then
              drawn recognized round + 1
            else
              drawn recognized round := by
  induction rows generalizing acc drawn with
  | nil => exact ⟨acc, drawn, rfl, hDrawing, hCursors, rfl, rfl, fun _ _ => by simp⟩
  | cons round rest ih =>
    rw [List.nodup_cons] at hRows
    rcases hReady round List.mem_cons_self with ⟨hRound, hTurn, hLeft, hIndex⟩
    rcases hDrawing.retrieveRound hNodup hRound hTurn hLeft hIndex
        hCursors with
      ⟨acc₁, hStep, hDrawing₁, hCursors₁, hPlayers, hGame⟩
    have hOther : ∀ r ∈ rest, ∀ recognized, drawOne drawn phase.isRecognized round recognized r
            = drawn recognized r := by
      intro r hMem recognized
      have hNe : r ≠ round := by
        rintro rfl
        exact hRows.1 hMem
      unfold drawOne
      by_cases hSame : recognized = phase.isRecognized
      · subst hSame
        rw [Function.update_self, Function.update_of_ne hNe]
      · rw [Function.update_of_ne hSame]
    have hReady₁ : ∀ r ∈ rest, r < rounds ∧ IsTurn lineup phase.isRecognized
                (drawOne drawn phase.isRecognized round) r
            ∧ drawOne drawn phase.isRecognized round phase.isRecognized r
              < (lineup.part phase.isRecognized).length
            ∧ playerIndex = min (drawOne drawn phase.isRecognized round true r
                  + drawOne drawn phase.isRecognized round false r)
                u32Max := by
      intro r hMem
      have hOld := hReady r (List.mem_cons_of_mem _ hMem)
      unfold IsTurn at hOld ⊢
      rw [hOther r hMem, hOther r hMem, hOther r hMem]
      exact hOld
    rcases ih hDrawing₁ hRows.2 hReady₁ hCursors₁ with
      ⟨acc', drawn', hSteps, hDrawing', hCursors', hPlayers', hGame', hDrawn⟩
    refine ⟨acc', drawn', ?_, hDrawing', hCursors',
        hPlayers'.trans hPlayers, hGame'.trans hGame, ?_⟩
    · unfold World.retrieveRounds
      rw [hStep]
      exact hSteps
    · intro recognized r
      rw [hDrawn]
      unfold drawOne
      by_cases hSame : recognized = phase.isRecognized
      · subst hSame
        by_cases hR : r = round
        · subst hR
          simp [hRows.1]
        · simp [hR]
      · simp [hSame]

end Drawing

end Individuality.Game
