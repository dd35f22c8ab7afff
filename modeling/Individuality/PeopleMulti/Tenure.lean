import Individuality.PeopleMulti.Types

/-
  The time that somebody was recognized.  Only the most recent periods are kept, and older ones are
  settled, but the tenure is the length of every period that was ever recorded.

  Main declaration: `tenure_eq_recorded`
-/

namespace Individuality.PeopleMulti

--
-- Events
--

/- A period is opened or closed at a time. -/
inductive TenureEvent where
  | opened (now : Nat)
  | closed (now : Nat)
  deriving DecidableEq, Repr

namespace TenureEvent

def time : TenureEvent → Nat
  | .opened now => now
  | .closed now => now

def opens : TenureEvent → Bool
  | .opened _ => true
  | .closed _ => false

end TenureEvent

namespace RecognitionHistory

/- The total time recognized up to `now`. -/
def tenure (history : RecognitionHistory) (now : Nat) : Nat :=
  let closed := history.periods.toList.foldl
      (fun acc period => saturatingAdd u64Max acc period.durationSecs)
      history.settled
  let opened := history.recognizedSince.elim 0 (now - ·)
  saturatingAdd u64Max closed opened

/- A period that is open stays open, and a closed one closed. -/
def perform (history : RecognitionHistory) :
    TenureEvent → RecognitionHistory
  | .opened now =>
    match history.openPeriod now with
    | .ok history => history
    | .error _ => history
  | .closed now =>
    match history.closePeriod now with
    | some (_, history) => history
    | none => history

def performAll (history : RecognitionHistory) (events : List TenureEvent) : RecognitionHistory :=
  events.foldl perform history

end RecognitionHistory

--
-- Recorded Periods
--

/- The periods that were closed, all of them, and the start of the one that is open. -/
def recorded :
    Option Nat → List TenureEvent → List RecognitionPeriod × Option Nat
  | since, [] => ([], since)
  | none, .opened now :: events => recorded (some now) events
  | some since, .opened _ :: events =>
    recorded (some since) events
  | none, .closed _ :: events => recorded none events
  | some since, .closed now :: events =>
    let rest := recorded none events
    ({ start := since, finish := now } :: rest.1, rest.2)

/- The length of the periods, the open one up to `now`. -/
def recordedTotal (periods : List RecognitionPeriod × Option Nat) (now : Nat) : Nat :=
  (periods.1.map RecognitionPeriod.durationSecs).sum + periods.2.elim 0 (now - ·)

theorem recordedTotal_closed (since now' : Nat) (events : List TenureEvent) (now : Nat) :
    recordedTotal (recorded (some since) (.closed now' :: events)) now
      = now' - since + recordedTotal (recorded none events) now :=
  Nat.add_assoc _ _ _

namespace RecognitionHistory

/- The length of the closed periods, kept or settled. -/
def credit (history : RecognitionHistory) : Nat :=
  history.settled + (history.periods.toList.map RecognitionPeriod.durationSecs).sum

theorem min_foldl_saturatingAdd (periods : List RecognitionPeriod) (acc : Nat) :
    min (periods.foldl (fun acc period =>
            saturatingAdd u64Max acc period.durationSecs) acc)
        u64Max
      = min (acc + (periods.map RecognitionPeriod.durationSecs).sum)
          u64Max := by
  induction periods generalizing acc with
  | nil => rfl
  | cons period periods ih =>
    rw [List.foldl_cons, ih, List.map_cons, List.sum_cons]
    unfold saturatingAdd
    omega

/- Sums saturate at the end only. -/
theorem tenure_eq (history : RecognitionHistory) (now : Nat) :
    history.tenure now = min (history.credit + history.recognizedSince.elim 0 (now - ·))
        u64Max := by
  have hFold := min_foldl_saturatingAdd history.periods.toList history.settled
  unfold tenure credit
  dsimp only
  unfold saturatingAdd at *
  omega

/- What leaves the list is settled. -/
theorem credit_insertPeriod (history : RecognitionHistory) (period : RecognitionPeriod) :
    min (history.insertPeriod period).credit u64Max
        = min (history.credit + period.durationSecs) u64Max
      ∧ (history.insertPeriod period).recognizedSince = history.recognizedSince := by
  unfold insertPeriod
  cases hPush : history.periods.tryPush period with
  | some periods =>
    have hList := BoundedVec.tryPush_eq_some_iff.mp hPush
    refine ⟨?_, rfl⟩
    unfold credit
    dsimp only
    rw [hList, List.map_append, List.sum_append]
    simp only [List.map_cons, List.map_nil, List.sum_cons, List.sum_nil]
    omega
  | none =>
    refine ⟨?_, rfl⟩
    unfold credit
    dsimp only
    rw [List.map_append, List.sum_append]
    simp only [List.map_cons, List.map_nil, List.sum_cons, List.sum_nil]
    cases history.periods.toList with
    | nil =>
      simp only [List.tail_nil, List.map_nil, List.sum_nil, List.head?_nil, Option.elim_none]
      unfold saturatingAdd
      omega
    | cons oldest periods =>
      simp only [List.tail_cons, List.map_cons, List.sum_cons, List.head?_cons, Option.elim_some]
      unfold saturatingAdd
      omega

/- After any events the tenure has grown by what they recorded, up to the largest time there is. -/
theorem tenure_performAll (events : List TenureEvent) (history : RecognitionHistory) (now : Nat) :
    (history.performAll events).tenure now = min (history.credit + recordedTotal
            (recorded history.recognizedSince events) now)
        u64Max := by
  induction events generalizing history with
  | nil =>
    rw [tenure_eq]
    unfold recorded recordedTotal performAll
    rw [List.foldl_nil, List.map_nil, List.sum_nil, Nat.zero_add]
  | cons event events ih =>
    change ((history.perform event).performAll events).tenure now = _
    rw [ih]
    cases hSince : history.recognizedSince with
    | none =>
      cases event with
      | opened at_ =>
        unfold perform openPeriod
        rw [hSince]
        rfl
      | closed at_ =>
        unfold perform closePeriod
        rw [hSince]
        dsimp only
        rw [hSince]
        rfl
    | some since =>
      cases event with
      | opened at_ =>
        unfold perform openPeriod
        rw [hSince]
        dsimp only
        rw [hSince]
        rfl
      | closed at_ =>
        unfold perform closePeriod
        rw [hSince]
        dsimp only
        rcases credit_insertPeriod { history with recognizedSince := none }
            { start := since, finish := max at_ since }
          with ⟨hCredit, hNone⟩
        have hSame : credit { history with recognizedSince := none } = history.credit := rfl
        rw [hNone, recordedTotal_closed]
        rw [hSame] at hCredit
        unfold RecognitionPeriod.durationSecs at hCredit
        dsimp only at hCredit ⊢
        omega

end RecognitionHistory

/- The tenure is the length of all periods that were recorded, however many of them were settled. -/
theorem tenure_eq_recorded (events : List TenureEvent) (now : Nat)
    (hFits : recordedTotal (recorded none events) now ≤ u64Max) :
    (RecognitionHistory.performAll {} events).tenure now
      = recordedTotal (recorded none events) now := by
  rw [RecognitionHistory.tenure_performAll]
  have hNothing : RecognitionHistory.credit {} = 0 := rfl
  rw [hNothing, Nat.zero_add]
  exact Nat.min_eq_left hFits

/- More periods than the list holds, of ten seconds each. -/
def tenCycles : List TenureEvent :=
  (List.range 10).flatMap fun i => [.opened (100 * i), .closed (100 * i + 10)]

theorem tenure_tenCycles :
    (RecognitionHistory.performAll {} tenCycles).tenure 5000 = 100 :=
  (tenure_eq_recorded tenCycles 5000 (by decide)).trans (by decide)

--
-- Recognized Seconds
--

/- Whether a second is recognized, by the last event before. -/
def recognizedAt : Bool → List TenureEvent → Nat → Bool
  | recognized, [], _ => recognized
  | recognized, event :: events, second =>
    if second < event.time then recognized
    else recognizedAt event.opens events second

/- The recognized seconds from a start until now. -/
def recognizedSeconds (recognized : Bool) (events : List TenureEvent) (start now : Nat) : Nat :=
  (List.range' start (now - start)).countP (recognizedAt recognized events)

/- Until an event nothing changes, and then it decides. -/
theorem recognizedSeconds_cons (recognized : Bool) {event : TenureEvent} (events : List TenureEvent)
    {start now : Nat} (hStart : start ≤ event.time) (hNow : event.time ≤ now) :
    recognizedSeconds recognized (event :: events) start now
      = (if recognized then event.time - start else 0)
        + recognizedSeconds event.opens events event.time
          now := by
  have hRange : List.range' start (now - start) = List.range' start (event.time - start)
          ++ List.range' event.time (now - event.time) := by
    have hSplit := List.range'_append_1 (s := start)
        (m := event.time - start) (n := now - event.time)
    rw [show start + (event.time - start) = event.time by omega]
      at hSplit
    rw [hSplit]
    congr 1
    omega
  have hBefore : (List.range' start (event.time - start)).countP
          (recognizedAt recognized (event :: events))
        = if recognized then event.time - start else 0 := by
    have hConstant : (List.range' start (event.time - start)).countP
            (recognizedAt recognized (event :: events))
          = (List.range' start (event.time - start)).countP (fun _ => recognized) := by
      apply List.countP_congr
      intro second hMem
      rw [List.mem_range'_1] at hMem
      unfold recognizedAt
      rw [if_pos (by omega)]
    rw [hConstant]
    cases recognized with
    | true => simp
    | false => simp
  have hAfter : (List.range' event.time (now - event.time)).countP
          (recognizedAt recognized (event :: events))
        = recognizedSeconds event.opens events event.time
          now := by
    apply List.countP_congr
    intro second hMem
    rw [List.mem_range'_1] at hMem
    rw [recognizedAt, if_neg (by omega)]
  unfold recognizedSeconds at *
  rw [hRange, List.countP_append, hBefore, hAfter]

/- For events in order, the recorded periods are as long as there are recognized seconds. -/
theorem recordedTotal_eq_seconds (events : List TenureEvent) (since : Option Nat) {start now : Nat}
    (hOrder : events.Pairwise fun a b => a.time ≤ b.time) (hSince : ∀ s, since = some s → s ≤ start)
    (hStart : ∀ event ∈ events, start ≤ event.time) (hNow : ∀ event ∈ events, event.time ≤ now)
    (hLe : start ≤ now) :
    recordedTotal (recorded since events) now = since.elim 0 (start - ·)
        + recognizedSeconds since.isSome events start now := by
  induction events generalizing since start with
  | nil =>
    unfold recorded recordedTotal recognizedSeconds
    cases since with
    | none => simp [recognizedAt]
    | some s =>
      have hLow := hSince s rfl
      simp [recognizedAt]
      omega
  | cons event events ih =>
    rw [List.pairwise_cons] at hOrder
    have hFirst := hStart event List.mem_cons_self
    have hLast := hNow event List.mem_cons_self
    have hRest : ∀ since' : Option Nat, (∀ s, since' = some s → s ≤ event.time) →
            recordedTotal (recorded since' events) now = since'.elim 0 (event.time - ·)
                + recognizedSeconds since'.isSome events event.time now :=
      fun since' hSince' =>
        ih since' hOrder.2 hSince' hOrder.1 (fun e hMem => hNow e (List.mem_cons_of_mem _ hMem))
          hLast
    rw [recognizedSeconds_cons _ events hFirst hLast]
    cases since with
    | none =>
      cases event with
      | opened at_ =>
        have hOpen := hRest (some at_) fun s hSome => by
            cases hSome
            exact Nat.le_refl _
        rw [show recorded none (.opened at_ :: events) = recorded (some at_) events from rfl, hOpen]
        simp [TenureEvent.time, TenureEvent.opens]
      | closed at_ =>
        have hClosed := hRest none fun s hSome => nomatch hSome
        rw [show recorded none (.closed at_ :: events) = recorded none events from rfl, hClosed]
        simp [TenureEvent.opens]
    | some since =>
      have hLow := hSince since rfl
      cases event with
      | opened at_ =>
        have hOpen := hRest (some since) fun s hSome => by
            cases hSome
            exact Nat.le_trans hLow hFirst
        rw [show recorded (some since) (.opened at_ :: events)
            = recorded (some since) events from rfl, hOpen]
        simp only [Option.elim_some, Option.isSome_some, TenureEvent.opens, if_true]
        omega
      | closed at_ =>
        have hClosed := hRest none fun s hSome => nomatch hSome
        rw [recordedTotal_closed, hClosed]
        simp only [Option.elim_some, Option.elim_none, Option.isSome_some, Option.isSome_none,
          TenureEvent.opens, if_true]
        unfold TenureEvent.time at *
        dsimp only at *
        omega

/-
  A tenure is as long as there are recognized seconds, whatever
  was settled, and no tenure saturates.
-/
theorem tenure_eq_seconds (events : List TenureEvent) {now : Nat}
    (hOrder : events.Pairwise fun a b => a.time ≤ b.time)
    (hNow : ∀ event ∈ events, event.time ≤ now) (hFits : now ≤ u64Max) :
    (RecognitionHistory.performAll {} events).tenure now
      = recognizedSeconds false events 0 now := by
  have hTotal := recordedTotal_eq_seconds events none hOrder
    (fun _ hSome => by cases hSome) (fun _ _ => Nat.zero_le _) hNow
    (Nat.zero_le now)
  rw [Option.elim_none, Nat.zero_add, Option.isSome_none] at hTotal
  have hLe : recognizedSeconds false events 0 now ≤ now :=
    List.countP_le_length.trans_eq (List.length_range' ..)
  have hNothing : RecognitionHistory.credit {} = 0 := rfl
  rw [RecognitionHistory.tenure_performAll, hNothing, Nat.zero_add, hTotal]
  exact Nat.min_eq_left (hLe.trans hFits)

theorem tenure_eq_seconds_tenCycles :
    (RecognitionHistory.performAll {} tenCycles).tenure 5000
      = recognizedSeconds false tenCycles 0 5000 :=
  tenure_eq_seconds tenCycles (by decide) (by decide) (by decide)

end Individuality.PeopleMulti
