import FiberPrograms.Pool

/-!
# Schedules

Threads run side by side over one pool. The main thread is the one whose result is wanted; each
started job has a thread of its own. One thread moves at a time, by as little as answering one
request. A thread that reads a fiber that has not ended cannot move.

Which thread moves is a matter of precedence: jobs launched ahead come first, the latest of them
before all, then the main thread, then jobs launched behind, in the order of their launch. The
first thread that can move does.

## Main definitions

* `Comp.react`: one move of a computation
* `Thread.move`: one move of a thread
* `Config`, `Config.tick`: all threads and the pool, and one move of the first that can move
* `Config.run`, `Config.settle`: move until the main thread is over, or until nothing moves
-/

namespace FiberPrograms

variable {S : Signature} {W : Type}

/-- What the move of a computation came to. -/
inductive Reaction (S : Signature) (α : Type) where
  /-- It goes on. -/
  | next (c : Comp S α) (launch : Launch S)
  /-- It waits for the value of another computation. -/
  | enter (inner : Comp S (Turn S)) (k : Except Fault S.Value → Comp S α)
  /-- It has ended. -/
  | ended (outcome : Except Fault α)
  /-- It cannot move before some fiber has ended. -/
  | blocked

/-- One move of a computation. -/
def Comp.react {α : Type} (R : Runtime S W) (pool : Pool S W) :
    Comp S α → Reaction S α × Pool S W
  | .done a => (.ended (.ok a), pool)
  | .fail fault => (.ended (.error fault), pool)
  | .ask request k =>
    let (reply, launch, pool) := pool.answer R request
    (.next (k reply) launch, pool)
  | .demand (.read fiber) k =>
    match pool.get? fiber with
    | some (.ended ending) => (.next (k (ending.read fiber)) .none, pool)
    | some (.recomputing action) => (.enter ((R.act action).bind fun v => .done (.value v)) k, pool)
    | _ => (.blocked, pool)
  | .demand (.interpret yields machine) k => (.enter (R.turn yields machine) k, pool)
  | .runQueue k =>
    if pool.queue.isEmpty then (.next k .none, pool)
    else
      match pool.startAt? R.toInterpreter (pool.nextPosition R.newestFirst) with
      | none => (.blocked, pool)
      | some (job, pool) => (.next (.runQueue k) (.ahead job), pool)

/-- What the move of a thread came to. -/
inductive Motion (S : Signature) (α : Type) where
  | moved (thread : Thread S α) (launch : Launch S)
  | ended (outcome : Except Fault α)
  | blocked

namespace Thread

variable {α : Type}

/-- Hand a value, or a fault, to the innermost computation that waits for it. -/
def answer (callers : List (Except Fault S.Value → Comp S (Turn S)))
    (outer : Except Fault S.Value → Comp S α) (outcome : Except Fault S.Value) : Thread S α :=
  match callers with
  | [] => .base (outer outcome)
  | k :: rest => .nested (k outcome) rest outer

/-- One move of a thread. -/
def move (R : Runtime S W) (pool : Pool S W) : Thread S α → Motion S α × Pool S W
  | base c =>
    match c.react R pool with
    | (.next c launch, pool) => (.moved (.base c) launch, pool)
    | (.enter inner k, pool) => (.moved (.nested inner [] k) .none, pool)
    | (.ended outcome, pool) => (.ended outcome, pool)
    | (.blocked, pool) => (.blocked, pool)
  | nested c callers outer =>
    match c.react R pool with
    | (.next c launch, pool) => (.moved (.nested c callers outer) launch, pool)
    | (.enter inner k, pool) => (.moved (.nested inner (k :: callers) outer) .none, pool)
    | (.ended (.ok (.value v)), pool) => (.moved (answer callers outer (.ok v)) .none, pool)
    | (.ended (.ok (.again yields machine)), pool) =>
      (.moved (.nested (R.turn yields machine) callers outer) .none, pool)
    | (.ended (.error fault), pool) => (.moved (answer callers outer (.error fault)) .none, pool)
    | (.blocked, pool) => (.blocked, pool)

end Thread

/-- The main thread, or how it ended. -/
inductive Main (S : Signature) (α : Type) where
  | running (thread : Thread S α)
  | ended (outcome : Except Fault α)

/-- All threads and the pool they share. -/
structure Config (S : Signature) (W α : Type) where
  pool : Pool S W
  main : Main S α
  /-- Jobs that go before the main thread, the latest first. -/
  ahead : List (Job S)
  /-- Jobs that go after the main thread, the earliest first. -/
  behind : List (Job S)

/-- Move the first job that can move. Answers the jobs that remain and what is launched, or
nothing if no job can move. -/
def moveJobs (R : Runtime S W) (pool : Pool S W) :
    List (Job S) → Option (List (Job S) × Launch S) × Pool S W
  | [] => (none, pool)
  | job :: jobs =>
    match job.thread.move R pool with
    | (.moved thread launch, pool) => (some (⟨job.fiber, thread⟩ :: jobs, launch), pool)
    | (.ended outcome, pool) => (some (jobs, .none), pool.finish R.level job.fiber outcome)
    | (.blocked, pool) =>
      match moveJobs R pool jobs with
      | (some (jobs, launch), pool) => (some (job :: jobs, launch), pool)
      | (none, pool) => (none, pool)

namespace Config

variable {α β : Type}

/-- A main thread over a pool in which nothing else runs. -/
def start (pool : Pool S W) (c : Comp S α) : Config S W α where
  pool := pool
  main := .running (.base c)
  ahead := []
  behind := []

/-- Put a launched job in its place. -/
def launch (config : Config S W α) : Launch S → Config S W α
  | .none => config
  | .ahead job => { config with ahead := job :: config.ahead }
  | .behind job => { config with behind := config.behind ++ [job] }

/-- Move the first thread that can move; the flag says whether one could. -/
def tick (R : Runtime S W) (config : Config S W α) : Bool × Config S W α :=
  let ⟨pool, main, ahead, behind⟩ := config
  match moveJobs R pool ahead with
  | (some (ahead, launch), pool) => (true, (Config.mk pool main ahead behind).launch launch)
  | (none, pool) =>
    let others (pool : Pool S W) : Bool × Config S W α :=
      match moveJobs R pool behind with
      | (some (behind, launch), pool) => (true, (Config.mk pool main ahead behind).launch launch)
      | (none, pool) => (false, ⟨pool, main, ahead, behind⟩)
    match main with
    | .ended _ => others pool
    | .running thread =>
      match thread.move R pool with
      | (.moved thread launch, pool) =>
        (true, (Config.mk pool (.running thread) ahead behind).launch launch)
      | (.ended outcome, pool) => (true, ⟨pool, .ended outcome, ahead, behind⟩)
      | (.blocked, pool) => others pool

/-- Move until the main thread is over or nothing can move, but at most `fuel` times. -/
def run (R : Runtime S W) : (fuel : Nat) → Config S W α → Config S W α
  | 0, config => config
  | fuel + 1, config =>
    match config.main with
    | .ended _ => config
    | .running _ =>
      match config.tick R with
      | (true, config) => run R fuel config
      | (false, config) => config

/-- Move until nothing can move, but at most `fuel` times. -/
def settle (R : Runtime S W) : (fuel : Nat) → Config S W α → Config S W α
  | 0, config => config
  | fuel + 1, config =>
    match config.tick R with
    | (true, config) => settle R fuel config
    | (false, config) => config

end Config

end FiberPrograms
