import FiberPrograms.Inspect
import FiberPrograms.Policy
import FiberPrograms.Schedule

/-!
# Sessions

A session is what lasts from one run to the next: the pool, and the started jobs that have not
ended. Computations are run in a session one after the other, each as a main thread beside the
jobs that are still under way. After a run the queue is worked off or dropped, the jobs under way
are brought to their end, and a report is taken.

No bound on the length of a run can be told in advance, so whatever runs does so within a given
`fuel`, the largest number of moves.

## Main definitions

* `Session`, `Session.exec`, `Session.drive`: run a computation, or step a machine to its end
* `Session.windUp`: what happens after a run
* `Course`, `Report`: how a run went, and what is reported of it
* `Session.runWhole`, `Session.runStepped`: a run, and what is reported of it
-/

namespace FiberPrograms

/-- A pool, and the started jobs that have not ended, the earliest first. -/
structure Session (S : Signature) (W : Type) where
  pool : Pool S W
  jobs : List (Job S)

/-- How far a machine has been driven: the steps taken, and the largest depth at which one of
them left the machine with more to do. -/
structure Mileage where
  steps : Nat := 0
  deepest : Nat := 0
deriving DecidableEq, Repr

namespace Session

variable {S : Signature} {W : Type} {α V Op K : Type}

/-- A session in which nothing has happened. -/
def start (world : W) : Session S W where
  pool := .empty world
  jobs := []

/-- Run a computation as the main thread. Answers its outcome, or nothing if it has not ended
within `fuel` moves or waits for something that never comes. -/
def exec (R : Runtime S W) (fuel : Nat) (c : Comp S α) (session : Session S W) :
    Option (Except Fault α) × Session S W :=
  let ⟨pool, jobs⟩ := session
  match Config.run R fuel ⟨pool, .running (.base c), [], jobs⟩ with
  | ⟨pool, .ended outcome, ahead, behind⟩ => (some outcome, ⟨pool, ahead ++ behind⟩)
  | ⟨pool, .running _, ahead, behind⟩ => (none, ⟨pool, ahead ++ behind⟩)

/-- Bring the jobs under way to their end. -/
def settle (R : Runtime S W) (fuel : Nat) (session : Session S W) : Session S W :=
  let ⟨pool, jobs⟩ := session
  match Config.settle (α := Unit) R fuel ⟨pool, .ended (.ok ()), [], jobs⟩ with
  | ⟨pool, _, ahead, behind⟩ => ⟨pool, ahead ++ behind⟩

/-- Start the job at a position of the queue and run it to its end; nothing if there is none. -/
def runJob? (R : Runtime S W) (fuel : Nat) (position : Nat) (session : Session S W) :
    Option (Session S W) :=
  (session.pool.startAt? R.toInterpreter position).map fun (job, pool) =>
    settle R fuel ⟨pool, job :: session.jobs⟩

/-- Drop the job at a position of the queue; nothing if there is none. -/
def dropJob? (R : Runtime S W) (position : Nat) (session : Session S W) :
    Option (Session S W) :=
  (session.pool.queue[position]?).map fun fiber =>
    let ⟨pool, jobs⟩ := session
    let pool := { pool with queue := pool.queue.eraseIdxIfInBounds position }
    ⟨pool.release R.level fiber, jobs⟩

/-- Run the jobs in the queue until none is left. -/
def runQueue (R : Runtime S W) (fuel : Nat) (session : Session S W) : Session S W :=
  (session.exec R fuel (.runQueue (.done ()) : Comp S Unit)).2

/-- Drop all jobs in the queue, in the order in which they would be run. -/
def dropQueue (R : Runtime S W) (session : Session S W) : Session S W :=
  let ⟨pool, jobs⟩ := session
  let dropped := if R.newestFirst then pool.queue.reverse else pool.queue
  ⟨dropped.foldl (fun pool fiber => pool.release R.level fiber) { pool with queue := #[] }, jobs⟩

/-- After a run: work off the queue, or drop it, then bring the jobs under way to their end. -/
def windUp (R : Runtime S W) (fuel : Nat) (dropRest : Bool) (session : Session S W) :
    Session S W :=
  (if dropRest then session.dropQueue R else session.runQueue R fuel).settle R fuel

/-- Step a machine once. -/
def step (R : Runtime S W) (h : Handler (Comp S) V Op K) (fuel : Nat) (M : Machine V Op K)
    (session : Session S W) :
    Option (Except Fault (Progress V)) × Machine V Op K × Session S W :=
  match session.exec R fuel (M.step h) with
  | (some (.ok (progress, M)), session) => (some progress, M, session)
  | (some (.error fault), session) => (some (.error fault), M.halt, session)
  | (none, session) => (none, M, session)

/-- Step a machine until its run is over. -/
def drive (R : Runtime S W) (h : Handler (Comp S) V Op K) :
    (fuel : Nat) → Mileage → Machine V Op K → Session S W →
      Option (Except Fault V) × Mileage × Machine V Op K × Session S W
  | 0, mileage, M, session => (none, mileage, M, session)
  | fuel + 1, mileage, M, session =>
    match session.step R h fuel M with
    | (some (.ok .more), M, session) =>
      drive R h fuel ⟨mileage.steps + 1, max mileage.deepest M.depth⟩ M session
    | (some (.ok (.done v)), M, session) =>
      (some (.ok v), { mileage with steps := mileage.steps + 1 }, M, session)
    | (some (.error fault), M, session) =>
      (some (.error fault), { mileage with steps := mileage.steps + 1 }, M, session)
    | (none, M, session) => (none, mileage, M, session)

end Session

/-- What is seen of a machine between steps: what the last step came to, if there was one, and
how the machine stands. -/
structure Snapshot (V : Type) where
  progress : Option (Except Fault (Progress V))
  depth : Nat
  isDone : Bool
  shape : Shape

/-- What is seen of a machine after a step. -/
def Machine.snapshot {V Op K : Type} (opShape : Op → Shape) (M : Machine V Op K)
    (progress : Option (Except Fault (Progress V))) : Snapshot V where
  progress := progress
  depth := M.depth
  isDone := M.isDone
  shape := M.shape opShape

/-- How a run went. -/
inductive Course (V : Type) where
  | outcome (outcome : Except Fault V)
  | snapshots (snapshots : List (Snapshot V))
  /-- The run did not end. -/
  | unended

/-- What is reported of a run. -/
structure Report (V W : Type) where
  course : Course V
  events : Array Event
  records : Array Record
  world : W
  /-- How fibers are called. -/
  name : FiberId → String

namespace Session

variable {S : Signature} {W : Type} {V Op K : Type}

/-- Forget the events. -/
def clearEvents (session : Session S W) : Session S W :=
  let ⟨pool, jobs⟩ := session
  ⟨{ pool with events := #[] }, jobs⟩

/-- Take a report: the events and the log since the last one, and the world, which is then
renewed. -/
def report (renew : W → W) (course : Course V) (session : Session S W) :
    Report V W × Session S W :=
  let ⟨pool, jobs⟩ := session
  (⟨course, pool.events, pool.records, pool.world, pool.nameOf⟩,
    ⟨{ pool with events := #[], records := #[], world := renew pool.world }, jobs⟩)

/-- Step a machine a number of times, whether it is over or not, and look at it after each. -/
def watch (R : Runtime S W) (h : Handler (Comp S) V Op K) (fuel : Nat) (opShape : Op → Shape) :
    (steps : Nat) → Machine V Op K → Session S W →
      List (Snapshot V) × Machine V Op K × Session S W
  | 0, M, session => ([], M, session)
  | steps + 1, M, session =>
    let (progress, M, session) := session.step R h fuel M
    let snapshot := M.snapshot opShape progress
    let (snapshots, M, session) := watch R h fuel opShape steps M session
    (snapshot :: snapshots, M, session)

/-- Step a machine until its run is over, and look at it then. -/
def watchEnd (R : Runtime S W) (h : Handler (Comp S) V Op K) (fuel : Nat)
    (opShape : Op → Shape) (M : Machine V Op K) (session : Session S W) :
    Snapshot V × Session S W :=
  let (outcome, _, M, session) := session.drive R h fuel {} M
  (M.snapshot opShape (outcome.map fun outcome => outcome.map .done), session)

/-- Step through a program, looking at the machine before the first step, after each of a number
of steps, and, if wished, once more when its run is over. -/
def runStepped (R : Runtime S W) (h : Handler (Comp S) V Op K) (fuel : Nat)
    (opShape : Op → Shape) (steps : Nat) (finish : Bool) (program : Tree V Op K)
    (session : Session S W) : Course V × Session S W :=
  let M := Machine.start program
  let (snapshots, M', session) := session.watch R h fuel opShape steps M
  let snapshots := M.snapshot opShape none :: snapshots
  if finish then
    let (last, session) := session.watchEnd R h fuel opShape M'
    (.snapshots (snapshots ++ [last]), session)
  else (.snapshots snapshots, session)

/-- Drive a program to its end. -/
def runWhole (R : Runtime S W) (h : Handler (Comp S) V Op K) (fuel : Nat) (program : Tree V Op K)
    (session : Session S W) : Course V × Session S W :=
  match session.drive R h fuel {} (.start program) with
  | (some outcome, _, _, session) => (.outcome outcome, session)
  | (none, _, _, session) => (.unended, session)

/-- Interpret a fork/join program that yields the given type. -/
def interpret (R : Runtime S W) (fuel : Nat) (yields : Ty S.Base) (program : S.Program)
    (session : Session S W) : Course S.Value × Session S W :=
  match session.exec R fuel (Comp.interpret yields program) with
  | (some outcome, session) => (.outcome outcome, session)
  | (none, session) => (.unended, session)

/-- Take a number of runs, each wound up and reported. -/
def repeatRun (R : Runtime S W) (fuel : Nat) (dropRest : Bool) (renew : W → W)
    (run : Session S W → Course V × Session S W) :
    (runs : Nat) → Session S W → List (Report V W) × Session S W
  | 0, session => ([], session)
  | runs + 1, session =>
    let (course, session) := run session
    let (report, session) := (session.windUp R fuel dropRest).report renew course
    let (reports, session) := repeatRun R fuel dropRest renew run runs session
    (report :: reports, session)

end Session

end FiberPrograms
