import FiberPrograms.Script.Trial

/-!
# Handles

Fibers can be made, read and passed around one step at a time, outside of any program. A step
names fibers by handles. A handle is typed, which makes it a variable for later actions too, or
raw. A reader reads a fiber by itself, beside the steps, and is asked for the outcome later. Where
jobs are run by hand, a step that would have to wait answers so instead, and changes nothing.

## Main definitions

* `HandleStep`, `StepAnswer`: the steps and their answers
* `Bench`, `Bench.take`: handles over a session, and one step
* `Bench.takeAll`: a list of steps, each with its report
-/

namespace FiberPrograms.Script

/-- What can be done with handles, one step at a time. -/
inductive HandleStep where
  /-- A typed handle to a new fiber that memoizes. -/
  | memoizing (new : String) (action : Expr)
  /-- A typed handle to a new fiber that recomputes. -/
  | recomputing (new : String) (action : Expr)
  /-- A raw handle to a new fiber that memoizes. -/
  | start (new : String) (action : Expr)
  /-- Another handle to the same fiber. -/
  | copy (handle new : String)
  /-- Give a handle up. -/
  | forget (handle : String)
  /-- Whether two handles are to the same fiber. -/
  | same (handle other : String)
  /-- Show a handle. -/
  | inspect (handle : String)
  /-- Whether the fiber of a raw handle has ended. -/
  | hasEnded (handle : String)
  /-- Read the fiber. -/
  | get (handle : String)
  /-- Run the program that awaits the fiber. -/
  | await (handle : String)
  /-- Have the fiber read beside the steps. -/
  | readLater (handle new : String)
  /-- The outcome of a reader. -/
  | collect (reader : String)
  | runJob (position : Nat)
  | dropJob (position : Nat)
  | runAll
  | dropAll

/-- The answer to a step. -/
inductive StepAnswer where
  /-- There is nothing to say. -/
  | silent
  /-- Whether two handles are to the same fiber, if there are two. -/
  | same (answer : Option Bool)
  | shown (shapes : List Shape)
  | ended (answer : Bool)
  | outcome (outcome : Except Fault Val)
  /-- The step would have to wait. -/
  | blocked
  /-- There is no such job. -/
  | noJob
  /-- There is no such handle, or not of that kind. -/
  | badStep
  /-- The step did not come to an end. -/
  | unended

/-- A handle to a fiber. -/
structure Handle where
  fiber : FiberId
  typed : Bool

/-- How a handle is shown: a typed one as such, then the fiber under its raw handle, then its
name alone. -/
def Handle.shapes (name : FiberId → String) (handle : Handle) : List Shape :=
  let raw := [.fiber "RawFiber" handle.fiber, .word (name handle.fiber)]
  if handle.typed then .fiber "Fiber" handle.fiber :: raw else raw

/-- Readers of a fiber. -/
inductive Reader where
  /-- It has not read the fiber yet. -/
  | waiting (fiber : FiberId)
  /-- It has read the fiber, with this outcome. -/
  | done (outcome : Option (Except Fault Val))

/-- Handles and readers over a session, and the variables that actions see. -/
structure Bench where
  session : Session signature World
  handles : List (String × Handle) := []
  readers : List (String × Reader) := []
  vars : Vars := []

namespace Bench

/-- The outcome of a computation as the answer to a step. -/
def answerOf : Option (Except Fault Val) → StepAnswer
  | some outcome => .outcome outcome
  | none => .unended

/-- Run a computation. -/
def exec {α : Type} (R : Runtime signature World) (fuel : Nat) (c : Act α) (bench : Bench) :
    Option (Except Fault α) × Bench :=
  let ⟨session, handles, readers, vars⟩ := bench
  let (outcome, session) := session.exec R fuel c
  (outcome, ⟨session, handles, readers, vars⟩)

/-- Add a handle; a typed one is a variable too. -/
def addHandle (new : String) (handle : Handle) (bench : Bench) : Bench :=
  { bench with
    handles := (new, handle) :: bench.handles
    vars := if handle.typed then (new, .fiber handle.fiber) :: bench.vars else bench.vars }

/-- Make a fiber and a handle to it. -/
def make (R : Runtime signature World) (fuel : Nat) (new : String) (typed : Bool)
    (c : Act FiberId) (bench : Bench) : StepAnswer × Bench :=
  match bench.exec R fuel c with
  | (some (.ok fiber), bench) => (.silent, bench.addHandle new ⟨fiber, typed⟩)
  | (some (.error fault), bench) => (.outcome (.error fault), bench)
  | (none, bench) => (.unended, bench)

/-- Do something with the fiber of a handle. -/
def withHandle (handle : String) (bench : Bench) (k : Handle → StepAnswer × Bench) :
    StepAnswer × Bench :=
  match bench.handles.lookup handle with
  | some handle => k handle
  | none => (.badStep, bench)

/-- Run a computation that reads a fiber, unless it would have to wait for somebody's hand. -/
def readBy (R : Runtime signature World) (policy : Policy) (fuel : Nat) (fiber : FiberId)
    (c : Act Val) (bench : Bench) : StepAnswer × Bench :=
  if policy == .byHand && !bench.session.pool.isReady fiber then (.blocked, bench)
  else
    let (outcome, bench) := bench.exec R fuel c
    (answerOf outcome, bench)

/-- Work off the queue by hand, from the oldest job on. -/
def runAll (R : Runtime signature World) (fuel : Nat) (bench : Bench) : Bench :=
  { bench with session := bench.session.runQueue R fuel }

/-- A new fiber that memoizes, in sight before it starts. -/
def startRaw (action : Thunk) : Act FiberId := do
  let fiber ← Comp.newFiber
  Comp.sight fiber
  Comp.start fiber action
  return fiber

/-- Read a fiber. -/
def readFiber (fiber : FiberId) : Act Val := do
  asVal (← Comp.read fiber)

/-- Give a reader up. -/
def withoutReader (reader : String) (bench : Bench) : Bench :=
  { bench with readers := bench.readers.filter (·.1 != reader) }

/-- Let the newest reader read, if its fiber recomputes: such a read never waits, and it makes a
difference when it is done. -/
def runReader (R : Runtime signature World) (fuel : Nat) (bench : Bench) : Bench :=
  match bench.readers with
  | (reader, .waiting fiber) :: others =>
    match bench.session.pool.get? fiber with
    | some (.recomputing _) =>
      let (outcome, bench) := bench.exec R fuel (readFiber fiber)
      { bench with readers := (reader, .done outcome) :: others }
    | _ => bench
  | _ => bench

/-- Take one step. -/
def take (R : Runtime signature World) (policy : Policy) (fuel : Nat) (bench : Bench) :
    HandleStep → StepAnswer × Bench
  | .memoizing new action => bench.make R fuel new true (newMemoizing ⟨action, bench.vars⟩)
  | .recomputing new action => bench.make R fuel new true (newRecomputing ⟨action, bench.vars⟩)
  | .start new action => bench.make R fuel new false (startRaw ⟨action, bench.vars⟩)
  | .copy handle new => bench.withHandle handle fun handle => (.silent, bench.addHandle new handle)
  | .forget handle => bench.withHandle handle fun _ =>
    (.silent, { bench with
      handles := bench.handles.filter (·.1 != handle)
      vars := (handle, .unit) :: bench.vars })
  | .same handle other => bench.withHandle handle fun handle =>
    (.same ((bench.handles.lookup other).map fun other => handle.fiber == other.fiber), bench)
  | .inspect handle => bench.withHandle handle fun handle =>
    (.shown (handle.shapes bench.session.pool.nameOf), bench)
  | .hasEnded handle => bench.withHandle handle fun handle =>
    if handle.typed then (.badStep, bench)
    else (.ended (bench.session.pool.isReady handle.fiber), bench)
  | .get handle => bench.withHandle handle fun handle =>
    bench.readBy R policy fuel handle.fiber (readFiber handle.fiber)
  | .await handle => bench.withHandle handle fun handle =>
    bench.readBy R policy fuel handle.fiber do
      asVal (← Comp.interpret (S := signature) (.ground .val) (.instr (.await handle.fiber)))
  | .readLater handle new => bench.withHandle handle fun handle =>
    (.silent, { bench with readers := (new, .waiting handle.fiber) :: bench.readers })
  | .collect reader =>
    match bench.readers.lookup reader with
    | none => (.badStep, bench)
    | some (.done outcome) => (answerOf outcome, bench.withoutReader reader)
    | some (.waiting fiber) =>
      match bench.readBy R policy fuel fiber (readFiber fiber) with
      | (.blocked, bench) => (.blocked, bench)
      | (answer, bench) => (answer, bench.withoutReader reader)
  | .runJob position =>
    match bench.session.runJob? R fuel position with
    | some session => (.silent, { bench with session := session })
    | none => (.noJob, bench)
  | .dropJob position =>
    match bench.session.dropJob? R position with
    | some session => (.silent, { bench with session := session })
    | none => (.noJob, bench)
  | .runAll => (.silent, bench.runAll R fuel)
  | .dropAll => (.silent, { bench with session := bench.session.dropQueue R })

/-- What is reported of a step: its answer, the number of jobs in the queue, and what has been
put down. -/
structure StepReport where
  answer : StepAnswer
  queued : Nat
  events : Array Event
  records : Array Record
  log : Array Val
  name : FiberId → String

/-- Take one step, or none if there is none to be made out, and report. After the step a queue that
runs itself is worked off, and jobs beside the step are brought to their end, unless the step only
sets a reader. What a reader puts down comes after the report of the step that sets it. -/
def takeAndReport (R : Runtime signature World) (policy : Policy) (fuel : Nat) (bench : Bench)
    (step : Option HandleStep) : StepReport × Bench :=
  let (answer, bench) : StepAnswer × Bench :=
    match step with
    | none => (.badStep, bench)
    | some step => bench.take R policy fuel step
  let session : Session signature World :=
    match step with
    | some (.readLater _ _) => bench.session
    | _ =>
      if policy = .byHand then bench.session.settle R fuel
      else bench.session.windUp R fuel false
  let queued := session.pool.queue.size
  let (report, session) :=
    session.report (V := Unit) World.renew .unended
  let bench := { bench with session := session }
  let bench :=
    match step with
    | some (.readLater _ _) => bench.runReader R fuel
    | _ => bench
  (⟨answer, queued, report.events, report.records, report.world.log, report.name⟩, bench)

/-- Take steps one after the other. -/
def takeAll (R : Runtime signature World) (policy : Policy) (fuel : Nat) :
    List (Option HandleStep) → Bench → List StepReport × Bench
  | [], bench => ([], bench)
  | step :: rest, bench =>
    let (report, bench) := bench.takeAndReport R policy fuel step
    let (reports, bench) := takeAll R policy fuel rest bench
    (report :: reports, bench)

end Bench

/-- Take steps on an empty bench. Answers a report for each and the world in the end. -/
def takeSteps (policy : Policy) (level : Option Level) (fuel : Nat)
    (steps : List (Option HandleStep)) : List Bench.StepReport × World :=
  let (reports, bench) :=
    Bench.takeAll (runtime policy level) policy fuel steps { session := .start {} }
  (reports, bench.session.pool.world)

end FiberPrograms.Script
