import RedshiftOdbc.Library.Machine
import Mathlib.Tactic.Linarith

/-!
# Waiting for the results of a query

The reader thread tells the application through a `ClientSideCursorMultiResultLock`
that the first batch of a result is in memory or that a result was read to its
end.  Two semaphores, two status flags and three execution numbers stand for
these facts.  A world holds the lock, where the application stands in its current
wait, and what was really signalled in this execution.
-/

namespace RedshiftOdbc.Csc

open RedshiftOdbc.Machine

/-- `rsLockSem` comes back only when the count is up. -/
def rsLockSem : Nat → Option Nat
  | 0 => none
  | count + 1 => some count

def rsUnlockSem (count : Nat) : Nat := count + 1

/-- `ClientSideCursorMultiResultLock`; the semaphores are their counts. -/
structure MultiResultLock where
  fullResultReadFromServerDoneCondition : Nat
  fullResultReadFromServerDoneConditionStatus : Int
  firstBatchInMemResultReadFromServerDoneCondition : Nat
  firstBatchInMemResultReadFromServerDoneConditionStatus : Int
  firstBatchWaitExecutionNumber : Int
  curExecutionNumber : Int
  firstBatchSignalExecutionNumber : Int
  queryDone : Bool
  deriving DecidableEq, Repr

namespace MultiResultLock

def create : MultiResultLock := ⟨0, 0, 0, 0, 0, 0, 0, false⟩

/-- Make a semaphore non-signal when its status says that it is signal. -/
def drain (count : Nat) (status : Int) : Option (Nat × Int) :=
  if status = 1 then (rsLockSem count).map fun left => (left, 0) else some (count, status)

/-- `resetCscMultiResultLock`; it may hang on a semaphore. -/
def reset (lock : MultiResultLock) : Option MultiResultLock :=
  match drain lock.firstBatchInMemResultReadFromServerDoneCondition
      lock.firstBatchInMemResultReadFromServerDoneConditionStatus,
    drain lock.fullResultReadFromServerDoneCondition
      lock.fullResultReadFromServerDoneConditionStatus with
  | some (first, firstStatus), some (full, fullStatus) =>
      some
        { fullResultReadFromServerDoneCondition := full
          fullResultReadFromServerDoneConditionStatus := fullStatus
          firstBatchInMemResultReadFromServerDoneCondition := first
          firstBatchInMemResultReadFromServerDoneConditionStatus := firstStatus
          firstBatchWaitExecutionNumber := 0
          curExecutionNumber := 0
          firstBatchSignalExecutionNumber := 0
          queryDone := false }
  | _, _ => none

def setResultExecutionNumber (lock : MultiResultLock) (curExecutionNumber : Int) :
    MultiResultLock :=
  { lock with curExecutionNumber := curExecutionNumber }

/-- The first part of `signalForFullResultReadFromServerCscMultiResultLock`. -/
def wakeFirstBatch (lock : MultiResultLock) (queryDone : Bool) : MultiResultLock :=
  if queryDone ∨ lock.firstBatchWaitExecutionNumber ≠ 0 ∧
      lock.firstBatchWaitExecutionNumber = lock.curExecutionNumber then
    { lock with
      firstBatchInMemResultReadFromServerDoneCondition :=
        rsUnlockSem lock.firstBatchInMemResultReadFromServerDoneCondition
      firstBatchWaitExecutionNumber := 0
      firstBatchInMemResultReadFromServerDoneConditionStatus := 1 }
  else lock

def signalForFullResultReadFromServer (lock : MultiResultLock) (queryDone : Bool) :
    MultiResultLock :=
  let woken := lock.wakeFirstBatch queryDone
  { woken with
    curExecutionNumber := if queryDone then 0 else woken.curExecutionNumber + 1
    queryDone := if queryDone then true else woken.queryDone
    fullResultReadFromServerDoneCondition :=
      rsUnlockSem woken.fullResultReadFromServerDoneCondition
    fullResultReadFromServerDoneConditionStatus := 1 }

def signalForFirstBatchInMemResultReadFromServer (lock : MultiResultLock)
    (resultExecutionNumber : Int) : MultiResultLock :=
  { lock with
    firstBatchSignalExecutionNumber := resultExecutionNumber
    firstBatchInMemResultReadFromServerDoneCondition :=
      rsUnlockSem lock.firstBatchInMemResultReadFromServerDoneCondition
    firstBatchInMemResultReadFromServerDoneConditionStatus := 1 }

/-- The locked part of `waitForFullResultReadFromServerCscMultiResultLock`: does it wait? -/
def fullWaits (lock : MultiResultLock) (resultExecutionNumber : Int) : Prop :=
  lock.queryDone = false ∧ resultExecutionNumber ≠ 0 ∧
    resultExecutionNumber = lock.curExecutionNumber

/-- Does `waitForFirstBatchInMemResultReadFromServerCscMultiResultLock` wait? -/
def firstBatchWaits (lock : MultiResultLock) (resultExecutionNumber : Int) : Prop :=
  lock.queryDone = false ∧ resultExecutionNumber ≠ 0 ∧
    lock.curExecutionNumber ≤ resultExecutionNumber

instance (lock : MultiResultLock) (number : Int) : Decidable (lock.fullWaits number) :=
  inferInstanceAs (Decidable (_ ∧ _ ∧ _))

instance (lock : MultiResultLock) (number : Int) : Decidable (lock.firstBatchWaits number) :=
  inferInstanceAs (Decidable (_ ∧ _ ∧ _))

/-- The first-batch signal in the semaphore is one of an earlier result. -/
def earlierSignal (lock : MultiResultLock) (resultExecutionNumber : Int) : Prop :=
  lock.firstBatchSignalExecutionNumber ≠ 0 ∧
    lock.firstBatchSignalExecutionNumber < resultExecutionNumber

instance (lock : MultiResultLock) (number : Int) : Decidable (lock.earlierSignal number) :=
  inferInstanceAs (Decidable (_ ∧ _))

/--
The locked part of `waitForFirstBatchInMemResultReadFromServerCscMultiResultLock`
when it waits; it may hang on the semaphore.
-/
def prepareFirstBatchWait (lock : MultiResultLock) (resultExecutionNumber : Int) :
    Option MultiResultLock :=
  let waiting := { lock with firstBatchWaitExecutionNumber := resultExecutionNumber }
  if lock.earlierSignal resultExecutionNumber then
    (drain lock.firstBatchInMemResultReadFromServerDoneCondition
      lock.firstBatchInMemResultReadFromServerDoneConditionStatus).map fun (count, status) =>
        { waiting with
          firstBatchInMemResultReadFromServerDoneCondition := count
          firstBatchInMemResultReadFromServerDoneConditionStatus := status }
  else some waiting

end MultiResultLock

/-- The two waits, with their `resultExecutionNumber`. -/
inductive Wait where
  | full (resultExecutionNumber : Int)
  | firstBatch (resultExecutionNumber : Int)
  deriving DecidableEq, Repr

/-- Where the application stands: between waits, on a semaphore, behind it, or back from a wait. -/
inductive Caller where
  | idle
  | blocked (wait : Wait)
  | awake (wait : Wait)
  | returned (wait : Wait)
  deriving DecidableEq, Repr

structure Signalled where
  fullResults : List Int
  firstBatches : List Int
  queryDone : Bool
  deriving DecidableEq, Repr

/-- The lock, the application, and what the reader has signalled. -/
structure World where
  lock : MultiResultLock
  caller : Caller
  signalled : Signalled
  deriving DecidableEq, Repr

/--
`execute` is `initMessageLoopStateCsc` for the next execution.  Before there is a
reader thread, `readByCaller` is the end of a result that the application's own
thread read.  `wait` begins a wait, `acquire` is its semaphore, and `clear` sets
the status behind it.
-/
inductive WaitEvent where
  | execute
  | readByCaller
  | signalFirstBatch (resultExecutionNumber : Int)
  | signalFull (queryDone : Bool)
  | wait (wait : Wait)
  | acquire
  | clear
  deriving DecidableEq, Repr

namespace World

def created : World := ⟨.create, .idle, ⟨[], [], false⟩⟩

/-- The application's thread is not inside a wait. -/
def free (world : World) : Bool :=
  match world.caller with
  | .idle | .returned _ => true
  | .blocked _ | .awake _ => false

/-- A wait up to its semaphore, or back at once. -/
def beginWait (world : World) : Wait → Option World
  | .full number =>
      if world.lock.fullWaits number then some { world with caller := .blocked (.full number) }
      else some { world with caller := .returned (.full number) }
  | .firstBatch number =>
      if world.lock.firstBatchWaits number then
        (world.lock.prepareFirstBatchWait number).map fun lock =>
          { world with lock := lock, caller := .blocked (.firstBatch number) }
      else some { world with caller := .returned (.firstBatch number) }

/-- `rsLockSem` in a wait. -/
def acquire (world : World) : Wait → Option World
  | .full number =>
      (rsLockSem world.lock.fullResultReadFromServerDoneCondition).map fun left =>
        { world with
          lock := { world.lock with fullResultReadFromServerDoneCondition := left }
          caller := .awake (.full number) }
  | .firstBatch number =>
      (rsLockSem world.lock.firstBatchInMemResultReadFromServerDoneCondition).map fun left =>
        { world with
          lock := { world.lock with firstBatchInMemResultReadFromServerDoneCondition := left }
          caller := .awake (.firstBatch number) }

/-- The status is set back behind the semaphore and the wait returns. -/
def clear (world : World) : Wait → World
  | .full number =>
      { world with
        lock := { world.lock with fullResultReadFromServerDoneConditionStatus := 0 }
        caller := .returned (.full number) }
  | .firstBatch number =>
      { world with
        lock := { world.lock with firstBatchInMemResultReadFromServerDoneConditionStatus := 0 }
        caller := .returned (.firstBatch number) }

/-- The reader has read a result to its end, or the query. -/
def endResult (world : World) (queryDone : Bool) : Signalled :=
  { world.signalled with
    fullResults := world.lock.curExecutionNumber :: world.signalled.fullResults
    queryDone := queryDone || world.signalled.queryDone }

/-- The reader has the first batch of a result in memory. -/
def giveFirstBatch (world : World) (number : Int) : Signalled :=
  { world.signalled with firstBatches := number :: world.signalled.firstBatches }

def step (world : World) : WaitEvent → Option World
  | .execute =>
      if world.free then
        world.lock.reset.map fun lock => ⟨lock.setResultExecutionNumber 1, .idle, ⟨[], [], false⟩⟩
      else none
  | .readByCaller =>
      if world.free then
        some { world with
          lock := world.lock.setResultExecutionNumber (world.lock.curExecutionNumber + 1)
          signalled := world.endResult false }
      else none
  | .signalFirstBatch number =>
      some { world with
        lock := world.lock.signalForFirstBatchInMemResultReadFromServer number
        signalled := world.giveFirstBatch number }
  | .signalFull queryDone =>
      some { world with
        lock := world.lock.signalForFullResultReadFromServer queryDone
        signalled := world.endResult queryDone }
  | .wait wait => if world.free then world.beginWait wait else none
  | .acquire =>
      match world.caller with
      | .blocked wait => world.acquire wait
      | _ => none
  | .clear =>
      match world.caller with
      | .awake wait => some (world.clear wait)
      | _ => none

end World

/-- What a wait waits for has been signalled in this execution. -/
def Answered (signalled : Signalled) : Wait → Prop
  | .full number => number ∈ signalled.fullResults ∨ signalled.queryDone = true
  | .firstBatch number =>
      (∃ later ∈ signalled.firstBatches, number ≤ later) ∨ number ∈ signalled.fullResults ∨
        signalled.queryDone = true

/-- A wait that has returned was answered. -/
def NeverEarly (world : World) : Prop :=
  ∀ wait, world.caller = .returned wait → Answered world.signalled wait

/-- The result whose first batch the application is waiting for. -/
def World.awaitedFirstBatch (world : World) : Option Int :=
  match world.caller with
  | .blocked (.firstBatch number) => some number
  | _ => none

/-- The tokens in the first-batch semaphore when a wait comes to it. -/
def MultiResultLock.tokensLeft (lock : MultiResultLock) (resultExecutionNumber : Int) : Nat :=
  if lock.earlierSignal resultExecutionNumber ∧
      lock.firstBatchInMemResultReadFromServerDoneConditionStatus = 1 then
    lock.firstBatchInMemResultReadFromServerDoneCondition - 1
  else lock.firstBatchInMemResultReadFromServerDoneCondition

/--
A wait for a result to come finds no token of another one in its semaphore, and
no signal of an earlier result comes while it waits.
-/
def NoStaleToken (world : World) : WaitEvent → Prop
  | .wait (.full number) =>
      world.lock.queryDone = true ∨ 0 < number ∧ number < world.lock.curExecutionNumber ∨
        world.lock.fullWaits number ∧ world.lock.fullResultReadFromServerDoneCondition = 0
  | .wait (.firstBatch number) =>
      world.lock.queryDone = true ∨ 0 < number ∧ number < world.lock.curExecutionNumber ∨
        world.lock.firstBatchSignalExecutionNumber ≠ 0 ∧
          number ≤ world.lock.firstBatchSignalExecutionNumber ∨
        world.lock.firstBatchWaits number ∧ world.lock.tokensLeft number = 0
  | .signalFirstBatch number =>
      ∀ awaited ∈ world.awaitedFirstBatch,
        awaited ≤ number ∨ 0 < world.lock.firstBatchInMemResultReadFromServerDoneCondition
  | _ => True

instance (world : World) : (event : WaitEvent) → Decidable (NoStaleToken world event)
  | .wait (.full _) => inferInstanceAs (Decidable (_ ∨ _ ∨ _))
  | .wait (.firstBatch _) => inferInstanceAs (Decidable (_ ∨ _ ∨ _ ∨ _))
  | .signalFirstBatch _ => inferInstanceAs (Decidable (∀ _ ∈ _, _ ∨ _))
  | .execute | .readByCaller | .signalFull _ | .acquire | .clear =>
      inferInstanceAs (Decidable True)

/-! ## What a wait that has begun relies on -/

/-- A wait that is not answered yet finds its semaphore down. -/
def CallerRight (world : World) : Prop :=
  match world.caller with
  | .idle => True
  | .blocked (.full number) =>
      Answered world.signalled (.full number) ∨
        number = world.lock.curExecutionNumber ∧
          world.lock.fullResultReadFromServerDoneCondition = 0
  | .blocked (.firstBatch number) =>
      Answered world.signalled (.firstBatch number) ∨
        number ≠ 0 ∧ world.lock.firstBatchWaitExecutionNumber = number ∧
          world.lock.firstBatchInMemResultReadFromServerDoneCondition = 0
  | .awake wait | .returned wait => Answered world.signalled wait

/-- The numbers in the lock are those of signals of this execution. -/
structure Timely (world : World) : Prop where
  finished : world.lock.queryDone = false → ∀ number, 0 < number →
    number < world.lock.curExecutionNumber → number ∈ world.signalled.fullResults
  queryDone : world.lock.queryDone = true → world.signalled.queryDone = true
  firstBatch : world.lock.firstBatchSignalExecutionNumber ≠ 0 →
    world.lock.firstBatchSignalExecutionNumber ∈ world.signalled.firstBatches
  caller : CallerRight world

theorem Answered.mono {signalled later : Signalled} {wait : Wait}
    (fullResults : signalled.fullResults ⊆ later.fullResults)
    (firstBatches : signalled.firstBatches ⊆ later.firstBatches)
    (queryDone : signalled.queryDone = true → later.queryDone = true)
    (answered : Answered signalled wait) : Answered later wait := by
  cases wait with
  | full number =>
      rcases answered with ended | done
      · exact .inl (fullResults ended)
      · exact .inr (queryDone done)
  | firstBatch number =>
      rcases answered with ⟨result, given, late⟩ | ended | done
      · exact .inl ⟨result, firstBatches given, late⟩
      · exact .inr (.inl (fullResults ended))
      · exact .inr (.inr (queryDone done))

theorem World.answered_endResult {world : World} {wait : Wait} (queryDone : Bool)
    (answered : Answered world.signalled wait) :
    Answered (world.endResult queryDone) wait := by
  refine answered.mono ?_ ?_ ?_
  · exact List.subset_cons_self _ _
  · exact List.Subset.refl _
  · intro done
    simp [World.endResult, done]

/-! ## Every event keeps this -/

theorem timely_execute {world next : World} (move : world.step .execute = some next) :
    Timely next := by
  simp only [World.step] at move
  split at move
  · obtain ⟨lock, fresh, rfl⟩ := Option.map_eq_some_iff.mp move
    have fields : lock.firstBatchSignalExecutionNumber = 0 ∧ lock.queryDone = false := by
      simp only [MultiResultLock.reset] at fresh
      split at fresh
      · obtain rfl := Option.some.inj fresh
        exact ⟨rfl, rfl⟩
      · cases fresh
    obtain ⟨noSignal, notDone⟩ := fields
    constructor
    · intro _ number positive before
      simp only [MultiResultLock.setResultExecutionNumber] at before
      omega
    · intro done
      simp [MultiResultLock.setResultExecutionNumber, notDone] at done
    · intro signal
      exact absurd noSignal signal
    · trivial
  · cases move

/-- The end of a result, without a signal or with one, ends the results before the next. -/
theorem finished_endResult {world : World} (timely : Timely world) {number : Int}
    (running : world.lock.queryDone = false) (positive : 0 < number)
    (before : number < world.lock.curExecutionNumber + 1) :
    number ∈ (world.endResult false).fullResults := by
  rcases (by omega : number = world.lock.curExecutionNumber ∨
    number < world.lock.curExecutionNumber) with here | earlier
  · exact here ▸ List.mem_cons_self
  · exact List.mem_cons_of_mem _ (timely.finished running number positive earlier)

theorem Timely.readByCaller {world next : World} (timely : Timely world)
    (move : world.step .readByCaller = some next) : Timely next := by
  simp only [World.step] at move
  split at move
  · next free =>
      obtain rfl := Option.some.inj move
      constructor
      · intro running number positive before
        exact finished_endResult timely running positive before
      · intro done
        simpa [World.endResult] using timely.queryDone done
      · exact timely.firstBatch
      · have caller := timely.caller
        unfold World.free at free
        unfold CallerRight at caller ⊢
        cases position : world.caller <;> simp only [position] at caller free ⊢
        · cases free
        · cases free
        · exact World.answered_endResult false caller
  · cases move

theorem World.answered_giveFirstBatch {world : World} {wait : Wait} (number : Int)
    (answered : Answered world.signalled wait) :
    Answered (world.giveFirstBatch number) wait := by
  refine answered.mono ?_ ?_ ?_
  · exact List.Subset.refl _
  · exact List.subset_cons_self _ _
  · exact id

theorem Timely.signalFirstBatch {world next : World} {number : Int} (timely : Timely world)
    (clean : NoStaleToken world (.signalFirstBatch number))
    (move : world.step (.signalFirstBatch number) = some next) : Timely next := by
  obtain rfl := Option.some.inj move
  constructor
  · exact timely.finished
  · exact timely.queryDone
  · intro _
    exact List.mem_cons_self
  · have caller := timely.caller
    unfold CallerRight at caller ⊢
    cases position : world.caller with
    | idle => trivial
    | blocked wait =>
        cases wait with
        | full awaited =>
            simp only [position] at caller ⊢
            exact caller.imp (World.answered_giveFirstBatch number) id
        | firstBatch awaited =>
            simp only [position] at caller ⊢
            rcases caller with answered | ⟨_, _, down⟩
            · exact .inl (World.answered_giveFirstBatch number answered)
            · have awaits : world.awaitedFirstBatch = some awaited := by
                rw [World.awaitedFirstBatch, position]
              rcases clean awaited awaits with late | up
              · exact .inl (.inl ⟨number, List.mem_cons_self, late⟩)
              · omega
    | awake wait =>
        simp only [position] at caller ⊢
        exact World.answered_giveFirstBatch number caller
    | returned wait =>
        simp only [position] at caller ⊢
        exact World.answered_giveFirstBatch number caller

/-- The end of a result wakes a wait for its first batch. -/
theorem MultiResultLock.wakeFirstBatch_waiting {lock : MultiResultLock} {number : Int}
    (waiting : lock.firstBatchWaitExecutionNumber = number)
    (other : number ≠ lock.curExecutionNumber) : lock.wakeFirstBatch false = lock := by
  simp [wakeFirstBatch, waiting, other]

theorem MultiResultLock.wakeFirstBatch_numbers (lock : MultiResultLock) (queryDone : Bool) :
    (lock.wakeFirstBatch queryDone).curExecutionNumber = lock.curExecutionNumber ∧
      (lock.wakeFirstBatch queryDone).queryDone = lock.queryDone ∧
      (lock.wakeFirstBatch queryDone).firstBatchSignalExecutionNumber =
        lock.firstBatchSignalExecutionNumber := by
  unfold wakeFirstBatch
  split <;> exact ⟨rfl, rfl, rfl⟩

theorem Timely.signalFull {world next : World} {queryDone : Bool} (timely : Timely world)
    (move : world.step (.signalFull queryDone) = some next) : Timely next := by
  obtain rfl := Option.some.inj move
  obtain ⟨cur, done, signal⟩ := world.lock.wakeFirstBatch_numbers queryDone
  cases queryDone with
  | true =>
      constructor
      · intro running
        simp [MultiResultLock.signalForFullResultReadFromServer] at running
      · intro _
        rfl
      · intro given
        simp only [MultiResultLock.signalForFullResultReadFromServer, signal] at given ⊢
        exact timely.firstBatch given
      · unfold CallerRight
        have ended : ∀ wait, Answered (world.endResult true) wait := by
          intro wait
          cases wait with
          | full number => exact .inr rfl
          | firstBatch number => exact .inr (.inr rfl)
        cases position : world.caller with
        | idle => trivial
        | blocked wait =>
            cases wait with
            | full number => exact .inl (ended _)
            | firstBatch number => exact .inl (ended _)
        | awake wait => exact ended wait
        | returned wait => exact ended wait
  | false =>
      constructor
      · intro running number positive before
        simp only [MultiResultLock.signalForFullResultReadFromServer, cur, done,
          Bool.false_eq_true, if_false] at running before
        exact finished_endResult timely running positive before
      · intro ended
        simp only [MultiResultLock.signalForFullResultReadFromServer, done,
          Bool.false_eq_true, if_false] at ended
        simpa [World.endResult] using timely.queryDone ended
      · intro given
        simp only [MultiResultLock.signalForFullResultReadFromServer, signal] at given ⊢
        exact timely.firstBatch given
      · have caller := timely.caller
        unfold CallerRight at caller ⊢
        cases position : world.caller with
        | idle => trivial
        | blocked wait =>
            cases wait with
            | full number =>
                simp only [position] at caller ⊢
                rcases caller with answered | ⟨here, _⟩
                · exact .inl (World.answered_endResult false answered)
                · exact .inl (.inl (here ▸ List.mem_cons_self))
            | firstBatch number =>
                simp only [position] at caller ⊢
                rcases caller with answered | ⟨some_result, waiting, down⟩
                · exact .inl (World.answered_endResult false answered)
                · by_cases here : number = world.lock.curExecutionNumber
                  · exact .inl (.inr (.inl (here ▸ List.mem_cons_self)))
                  · have same := MultiResultLock.wakeFirstBatch_waiting waiting here
                    simp only [MultiResultLock.signalForFullResultReadFromServer, same]
                    exact .inr ⟨some_result, waiting, down⟩
        | awake wait =>
            simp only [position] at caller ⊢
            exact World.answered_endResult false caller
        | returned wait =>
            simp only [position] at caller ⊢
            exact World.answered_endResult false caller

/-- A wait that comes back at once, with the guard, was answered. -/
theorem Timely.answered_full {world : World} {number : Int} (timely : Timely world)
    (clean : NoStaleToken world (.wait (.full number)))
    (back : ¬ world.lock.fullWaits number) : Answered world.signalled (.full number) := by
  rcases clean with done | ⟨positive, before⟩ | ⟨waits, _⟩
  · exact .inr (timely.queryDone done)
  · cases running : world.lock.queryDone with
    | true => exact .inr (timely.queryDone running)
    | false => exact .inl (timely.finished running number positive before)
  · exact absurd waits back

/-- The same for the first batch; a wait that finds a token left was answered as well. -/
theorem Timely.answered_firstBatch {world : World} {number : Int} (timely : Timely world)
    (clean : NoStaleToken world (.wait (.firstBatch number))) :
    Answered world.signalled (.firstBatch number) ∨
      world.lock.firstBatchWaits number ∧ world.lock.tokensLeft number = 0 := by
  rcases clean with done | ⟨positive, before⟩ | ⟨given, late⟩ | waits
  · exact .inl (.inr (.inr (timely.queryDone done)))
  · cases running : world.lock.queryDone with
    | true => exact .inl (.inr (.inr (timely.queryDone running)))
    | false => exact .inl (.inr (.inl (timely.finished running number positive before)))
  · exact .inl (.inl ⟨_, timely.firstBatch given, late⟩)
  · exact .inr waits

/-- Before its semaphore a wait for a first batch changes only the number and the tokens. -/
theorem MultiResultLock.prepareFirstBatchWait_fields {lock prepared : MultiResultLock}
    {number : Int} (done : lock.prepareFirstBatchWait number = some prepared) :
    prepared.queryDone = lock.queryDone ∧ prepared.curExecutionNumber = lock.curExecutionNumber ∧
      prepared.firstBatchSignalExecutionNumber = lock.firstBatchSignalExecutionNumber ∧
      prepared.firstBatchWaitExecutionNumber = number ∧
      prepared.firstBatchInMemResultReadFromServerDoneCondition = lock.tokensLeft number := by
  unfold prepareFirstBatchWait at done
  unfold tokensLeft
  split at done
  · next earlier =>
      obtain ⟨⟨count, status⟩, drained, rfl⟩ := Option.map_eq_some_iff.mp done
      refine ⟨rfl, rfl, rfl, rfl, ?_⟩
      unfold drain at drained
      split at drained
      · next signal =>
          obtain ⟨left, taken, same⟩ := Option.map_eq_some_iff.mp drained
          obtain ⟨rfl, -⟩ := Prod.mk.inj same
          rw [if_pos ⟨earlier, signal⟩]
          cases tokens : lock.firstBatchInMemResultReadFromServerDoneCondition with
          | zero => simp [rsLockSem, tokens] at taken
          | succ count =>
              rw [tokens] at taken
              exact (Option.some.inj taken).symm
      · next signal =>
          obtain ⟨rfl, -⟩ := Prod.mk.inj (Option.some.inj drained)
          rw [if_neg fun both => signal both.2]
  · next earlier =>
      obtain rfl := Option.some.inj done
      refine ⟨rfl, rfl, rfl, rfl, ?_⟩
      rw [if_neg fun both => earlier both.1]

theorem Timely.wait {world next : World} {wait : Wait} (timely : Timely world)
    (clean : NoStaleToken world (.wait wait)) (move : world.step (.wait wait) = some next) :
    Timely next := by
  simp only [World.step] at move
  split at move
  · cases wait with
    | full number =>
        simp only [World.beginWait] at move
        split at move
        · next waits =>
            obtain rfl := Option.some.inj move
            refine ⟨timely.finished, timely.queryDone, timely.firstBatch, ?_⟩
            rcases clean with done | ⟨_, before⟩ | ⟨_, down⟩
            · rw [waits.1] at done
              cases done
            · have here := waits.2.2
              omega
            · exact .inr ⟨waits.2.2, down⟩
        · next back =>
            obtain rfl := Option.some.inj move
            exact ⟨timely.finished, timely.queryDone, timely.firstBatch,
              timely.answered_full clean back⟩
    | firstBatch number =>
        simp only [World.beginWait] at move
        split at move
        · next waits =>
            obtain ⟨lock, prepared, rfl⟩ := Option.map_eq_some_iff.mp move
            obtain ⟨done, cur, signal, number_eq, tokens⟩ :=
              MultiResultLock.prepareFirstBatchWait_fields prepared
            constructor
            · intro running number' positive before
              simp only [done, cur] at running before
              exact timely.finished running number' positive before
            · intro ended
              exact timely.queryDone (done ▸ ended)
            · intro given
              simp only [signal] at given ⊢
              exact timely.firstBatch given
            · rcases timely.answered_firstBatch clean with answered | ⟨_, down⟩
              · exact .inl answered
              · exact .inr ⟨waits.2.1, number_eq, tokens.trans down⟩
        · next back =>
            obtain rfl := Option.some.inj move
            refine ⟨timely.finished, timely.queryDone, timely.firstBatch, ?_⟩
            rcases timely.answered_firstBatch clean with answered | ⟨waits, _⟩
            · exact answered
            · exact absurd waits back
  · cases move

theorem rsLockSem_up {count left : Nat} (taken : rsLockSem count = some left) : count ≠ 0 := by
  rintro rfl
  cases taken

theorem Timely.acquire {world next : World} (timely : Timely world)
    (move : world.step .acquire = some next) : Timely next := by
  simp only [World.step] at move
  have caller := timely.caller
  unfold CallerRight at caller
  split at move
  · next wait position =>
      cases wait with
      | full number =>
          obtain ⟨left, taken, rfl⟩ := Option.map_eq_some_iff.mp move
          refine ⟨timely.finished, timely.queryDone, timely.firstBatch, ?_⟩
          simp only [position] at caller
          rcases caller with answered | ⟨_, down⟩
          · exact answered
          · exact absurd down (rsLockSem_up taken)
      | firstBatch number =>
          obtain ⟨left, taken, rfl⟩ := Option.map_eq_some_iff.mp move
          refine ⟨timely.finished, timely.queryDone, timely.firstBatch, ?_⟩
          simp only [position] at caller
          rcases caller with answered | ⟨_, _, down⟩
          · exact answered
          · exact absurd down (rsLockSem_up taken)
  · cases move

theorem Timely.clear {world next : World} (timely : Timely world)
    (move : world.step .clear = some next) : Timely next := by
  simp only [World.step] at move
  have caller := timely.caller
  unfold CallerRight at caller
  split at move
  · next wait position =>
      obtain rfl := Option.some.inj move
      simp only [position] at caller
      cases wait with
      | full number => exact ⟨timely.finished, timely.queryDone, timely.firstBatch, caller⟩
      | firstBatch number => exact ⟨timely.finished, timely.queryDone, timely.firstBatch, caller⟩
  · cases move

theorem Timely.step {world next : World} {event : WaitEvent} (timely : Timely world)
    (clean : NoStaleToken world event) (move : world.step event = some next) : Timely next := by
  cases event with
  | execute => exact timely_execute move
  | readByCaller => exact timely.readByCaller move
  | signalFirstBatch number => exact timely.signalFirstBatch clean move
  | signalFull queryDone => exact timely.signalFull move
  | wait wait => exact timely.wait clean move
  | acquire => exact timely.acquire move
  | clear => exact timely.clear move

theorem Timely.neverEarly {world : World} (timely : Timely world) : NeverEarly world := by
  intro wait position
  have caller := timely.caller
  unfold CallerRight at caller
  rw [position] at caller
  exact caller

theorem timely_created : Timely World.created := by
  constructor
  · intro _ number positive before
    simp only [World.created, MultiResultLock.create] at before
    omega
  · intro done
    cases done
  · intro signal
    exact absurd rfl signal
  · trivial

/-! ## The waits of whole executions -/

/--
In every sequence of executions whose waits find no token of another result, no
wait returns before what it waits for was signalled in its execution.
-/
theorem waits_never_early {events : List WaitEvent}
    (clean : Guarded World.step NoStaleToken .created events) :
    ∀ world ∈ visited World.step .created events, NeverEarly world := by
  intro world member
  have timely : Timely world :=
    visited_safe Timely (fun _ _ _ timely guard move => timely.step guard move)
      timely_created clean world member
  exact timely.neverEarly

/-- Two results: the first batch of the second is awaited, then its end. -/
def twoResults : List WaitEvent :=
  [.execute, .signalFirstBatch 1, .wait (.firstBatch 2), .signalFull false, .signalFirstBatch 2,
    .acquire, .clear, .signalFull true, .wait (.full 2)]

/-- The end of the first result, which nobody waited for, ends the wait for the second. -/
def staleToken : List WaitEvent :=
  [.execute, .signalFirstBatch 1, .signalFull false, .signalFirstBatch 2, .wait (.full 2),
    .acquire, .clear]

theorem waits_never_early_twoResults :
    Guarded World.step NoStaleToken .created twoResults ∧
      ∀ world ∈ visited World.step .created twoResults, NeverEarly world :=
  have clean : Guarded World.step NoStaleToken .created twoResults := by decide
  ⟨clean, waits_never_early clean⟩

/-- The wait for the end of the second result ends with the signal of the first. -/
theorem waits_never_early_wrong :
    ¬ ∀ events, ∀ world ∈ visited World.step .created events, NeverEarly world := by
  intro every
  have ending : (⟨⟨0, 0, 2, 1, 0, 2, 2, false⟩, .returned (.full 2), ⟨[1], [2, 1], false⟩⟩ :
      World) ∈ visited World.step .created staleToken := by decide
  have answered := every staleToken _ ending (.full 2) rfl
  revert answered
  simp [Answered]

end RedshiftOdbc.Csc
