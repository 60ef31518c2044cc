import FiberPrograms.Interpreter

/-!
# The fiber pool

The pool knows every fiber that has been made. A fiber that recomputes keeps its action and runs
it for each reader. A fiber that memoizes hands its action to the spawner once, as a job, and
from then on moves through a life of its own: its job waits or runs, then the fiber ends, with a
value, with a fault, or dropped, and stays as it ended. Reading it waits until it has ended.

The spawner decides what becomes of a job: it is run at once ahead of everything else, started
behind whatever is going on, kept in a queue for somebody to start or drop, or dropped.

## Main definitions

* `Ending`, `Fiber`: how a fiber ends, and the stages of its life
* `Spawner`: the ways of treating a job
* `Pool`: all fibers, the queue of waiting jobs, and what has been reported
* `Runtime`: everything that a run depends on besides the program
* `Pool.answer`: the answers to requests
-/

namespace FiberPrograms

/-- How a fiber ended. -/
inductive Ending (S : Signature) where
  /-- Its action yielded a value. -/
  | value (v : S.Value)
  /-- Its action failed. -/
  | failed (cause : Fault)
  /-- Its job was thrown away before it ran. -/
  | dropped

/-- What a reader of a fiber gets to see of its ending. -/
def Ending.read {S : Signature} (fiber : FiberId) : Ending S → Except Fault S.Value
  | value v => .ok v
  | failed cause => .error (.fiberFailed fiber cause)
  | dropped => .error (.fiberDropped fiber)

/-- The ending that the outcome of an action makes. -/
def Ending.ofOutcome {S : Signature} : Except Fault S.Value → Ending S
  | .ok v => .value v
  | .error cause => .failed cause

/-- The stages in the life of a fiber. -/
inductive Fiber (S : Signature) where
  /-- There is a name and nothing behind it yet. -/
  | named
  /-- Every reader runs the action anew. -/
  | recomputing (action : S.Action)
  /-- The job waits in the queue. -/
  | waiting (action : S.Action)
  /-- The job has been started and has not ended. -/
  | running
  /-- The fiber has ended. -/
  | ended (ending : Ending S)

/-- Whether reading the fiber would not have to wait. -/
def Fiber.isReady {S : Signature} : Fiber S → Bool
  | recomputing _ => true
  | ended _ => true
  | _ => false

/-- What becomes of a job. -/
inductive Spawner where
  /-- It runs to its end before whoever started it goes on. -/
  | inline
  /-- It runs beside whoever started it. -/
  | background
  /-- It waits until somebody starts or drops it. -/
  | queued
  /-- It is dropped. -/
  | discarding
deriving DecidableEq, Repr, Inhabited

/-- Everything that a run depends on besides the program; `W` is the world outside. -/
structure Runtime (S : Signature) (W : Type) extends Interpreter S where
  spawner : Spawner
  /-- Whether the queue is run from its newest job on, instead of from its oldest. -/
  newestFirst : Bool
  /-- How much is logged, if anything. -/
  level : Option Level
  /-- What an effect does to the world, and what the world answers. -/
  effect : (e : S.Effect) → W → S.Reply e × W

/-- All fibers that have been made, and what has become of them. -/
structure Pool (S : Signature) (W : Type) where
  /-- The fibers by name. -/
  fibers : Array (Fiber S)
  /-- The fibers whose jobs wait in the queue, from the oldest on. -/
  queue : Array FiberId
  /-- The fibers that have come in sight, in that order. -/
  sighted : Array FiberId
  /-- The events put down. -/
  events : Array Event
  /-- The log. -/
  records : Array Record
  /-- The world outside. -/
  world : W

/-- A thread of execution that ends with an `R`: a computation, or a stack of them in which each
but the innermost waits for a value. -/
inductive Thread (S : Signature) (R : Type) where
  | base (c : Comp S R)
  | nested (inner : Comp S (Turn S)) (callers : List (Except Fault S.Value → Comp S (Turn S)))
      (outer : Except Fault S.Value → Comp S R)

/-- A started job: the thread that runs the action of a fiber. -/
structure Job (S : Signature) where
  fiber : FiberId
  thread : Thread S S.Value

/-- Where a job that has just been started goes. -/
inductive Launch (S : Signature) where
  | none
  /-- Ahead of whatever is going on. -/
  | ahead (job : Job S)
  /-- Behind whatever is going on. -/
  | behind (job : Job S)

namespace Pool

variable {S : Signature} {W : Type}

/-- A pool without fibers. -/
def empty (world : W) : Pool S W where
  fibers := #[]
  queue := #[]
  sighted := #[]
  events := #[]
  records := #[]
  world := world

/-- The stage in which a fiber is, if there is one of that name. -/
def get? (pool : Pool S W) (fiber : FiberId) : Option (Fiber S) :=
  pool.fibers[fiber.index]?

/-- How a fiber is called in reports: by its place in the order of sight. -/
def nameOf (pool : Pool S W) (fiber : FiberId) : String :=
  match pool.sighted.idxOf? fiber with
  | some place => "f" ++ toString place
  | none => "f?"

/-- Whether reading the fiber would not have to wait. -/
def isReady (pool : Pool S W) (fiber : FiberId) : Bool :=
  ((pool.get? fiber).map Fiber.isReady).getD false

/-- Move a fiber to another stage. -/
def set (pool : Pool S W) (fiber : FiberId) (stage : Fiber S) : Pool S W :=
  { pool with fibers := pool.fibers.setIfInBounds fiber.index stage }

/-- Write a log record if the log tells as much. -/
def log (level : Option Level) (record : Record) (pool : Pool S W) : Pool S W :=
  match level with
  | none => pool
  | some level =>
    if record.level.rank ≤ level.rank then { pool with records := pool.records.push record }
    else pool

/-- Write an ending into a fiber, whatever is there already. -/
def fill (fiber : FiberId) (ending : Ending S) (pool : Pool S W) : Pool S W :=
  pool.set fiber (.ended ending)

/-- Let go of the job of a fiber. A fiber that has not ended by then ends as dropped. -/
def release (level : Option Level) (fiber : FiberId) (pool : Pool S W) : Pool S W :=
  match pool.get? fiber with
  | some (.ended _) => pool
  | _ => (pool.fill fiber .dropped).log level (.dropped fiber)

/-- End a fiber with the outcome of its action, then let go of its job. -/
def finish (level : Option Level) (fiber : FiberId) (outcome : Except Fault S.Value)
    (pool : Pool S W) : Pool S W :=
  let pool :=
    match outcome with
    | .ok _ => pool
    | .error cause => pool.log level (.failed fiber cause)
  (pool.fill fiber (.ofOutcome outcome)).release level fiber

/-- The job that runs an action for a fiber. -/
def jobOf (I : Interpreter S) (fiber : FiberId) (action : S.Action) : Job S :=
  ⟨fiber, .base (I.act action)⟩

/-- Take the job at a position of the queue, counted from the oldest, and start it. -/
def startAt? (I : Interpreter S) (position : Nat) (pool : Pool S W) : Option (Job S × Pool S W) :=
  match pool.queue[position]? with
  | none => none
  | some fiber =>
    let pool := { pool with queue := pool.queue.eraseIdxIfInBounds position }
    match pool.get? fiber with
    | some (.waiting action) => some (jobOf I fiber action, pool.set fiber .running)
    | _ => none

/-- A job that waits in the queue can begin. -/
theorem exists_startAt (I : Interpreter S) {pool : Pool S W} {position : Nat} {fiber : FiberId}
    {action : S.Action} (hqueued : pool.queue[position]? = some fiber)
    (hwaiting : pool.get? fiber = some (.waiting action)) :
    ∃ pool', pool.startAt? I position = some (jobOf I fiber action, pool') := by
  have hstage : get? { pool with queue := pool.queue.eraseIdxIfInBounds position } fiber =
      some (.waiting action) := hwaiting
  rw [startAt?, hqueued]
  simp only [hstage]
  exact ⟨_, rfl⟩

/-- The position of the queue that is run next. -/
def nextPosition (newestFirst : Bool) (pool : Pool S W) : Nat :=
  if newestFirst then pool.queue.size - 1 else 0

/-- Hand the action of a fiber to the spawner. There must be nothing behind the fiber yet but its
name. -/
def start (R : Runtime S W) (fiber : FiberId) (action : S.Action) (pool : Pool S W) :
    Launch S × Pool S W :=
  match pool.get? fiber with
  | some .named =>
    let pool := pool.log R.level (.starting fiber)
    match R.spawner with
    | .inline => (.ahead (jobOf R.toInterpreter fiber action), pool.set fiber .running)
    | .background => (.behind (jobOf R.toInterpreter fiber action), pool.set fiber .running)
    | .queued =>
      let pool := pool.set fiber (.waiting action)
      (.none, { pool with queue := pool.queue.push fiber })
    | .discarding => (.none, pool.release R.level fiber)
  | _ => (.none, pool)

/-- Keep an action with a fiber. There must be nothing behind the fiber yet but its name. -/
def keep (fiber : FiberId) (action : S.Action) (pool : Pool S W) : Pool S W :=
  match pool.get? fiber with
  | some .named => pool.set fiber (.recomputing action)
  | _ => pool

/-! ## What is left as it is -/

section Unchanged

variable (level : Option Level) (record : Record) (fiber other : FiberId) (stage : Fiber S)
  (pool : Pool S W)

@[simp] theorem fibers_log : (pool.log level record).fibers = pool.fibers := by
  unfold log
  split <;> (try split) <;> rfl

@[simp] theorem queue_log : (pool.log level record).queue = pool.queue := by
  unfold log
  split <;> (try split) <;> rfl

@[simp] theorem sighted_log : (pool.log level record).sighted = pool.sighted := by
  unfold log
  split <;> (try split) <;> rfl

@[simp] theorem events_log : (pool.log level record).events = pool.events := by
  unfold log
  split <;> (try split) <;> rfl

@[simp] theorem world_log : (pool.log level record).world = pool.world := by
  unfold log
  split <;> (try split) <;> rfl

@[simp] theorem get?_log : (pool.log level record).get? fiber = pool.get? fiber := by
  rw [get?, fibers_log, get?]

@[simp] theorem queue_set : (pool.set fiber stage).queue = pool.queue := rfl

@[simp] theorem sighted_set : (pool.set fiber stage).sighted = pool.sighted := rfl

@[simp] theorem events_set : (pool.set fiber stage).events = pool.events := rfl

@[simp] theorem world_set : (pool.set fiber stage).world = pool.world := rfl

@[simp] theorem size_set : (pool.set fiber stage).fibers.size = pool.fibers.size := by
  simp [set]

/-- Only the fiber that is moved gets to another stage. -/
theorem get?_set : (pool.set fiber stage).get? other =
    if other = fiber then (pool.get? fiber).map fun _ => stage else pool.get? other := by
  obtain ⟨i⟩ := fiber
  obtain ⟨j⟩ := other
  simp only [get?, set, FiberId.mk.injEq, Array.getElem?_setIfInBounds]
  grind

@[simp] theorem queue_release : (pool.release level fiber).queue = pool.queue := by
  unfold release
  split <;> simp [fill]

@[simp] theorem sighted_release : (pool.release level fiber).sighted = pool.sighted := by
  unfold release
  split <;> simp [fill]

@[simp] theorem events_release : (pool.release level fiber).events = pool.events := by
  unfold release
  split <;> simp [fill]

@[simp] theorem world_release : (pool.release level fiber).world = pool.world := by
  unfold release
  split <;> simp [fill]

variable {level fiber other stage pool}

theorem get?_congr {pool' : Pool S W} (hfibers : pool'.fibers = pool.fibers) (fiber : FiberId) :
    pool'.get? fiber = pool.get? fiber := by
  rw [get?, hfibers, ← get?]

/-- A fiber that was there has got to the stage to which it was moved. -/
theorem get?_of_set {pool' : Pool S W} {before : Fiber S}
    (hfibers : pool'.fibers = (pool.set fiber stage).fibers)
    (hbefore : pool.get? fiber = some before) : pool'.get? fiber = some stage := by
  rw [get?_congr hfibers, get?_set, if_pos rfl, hbefore]
  rfl

/-- The other fibers are where they were. -/
theorem get?_of_set_of_ne {pool' : Pool S W}
    (hfibers : pool'.fibers = (pool.set fiber stage).fibers)
    (hother : other ≠ fiber) : pool'.get? other = pool.get? other := by
  rw [get?_congr hfibers, get?_set, if_neg hother]

/-- A fiber that has just been made goes by the next name. -/
theorem get?_push {pool' : Pool S W} (hfibers : pool'.fibers = pool.fibers.push stage) :
    pool'.get? other =
      if other = ⟨pool.fibers.size⟩ then some stage else pool.get? other := by
  obtain ⟨i⟩ := other
  simp only [get?, hfibers, Array.getElem?_push, FiberId.mk.injEq]

/-- No fiber had that name before. -/
theorem get?_push_of_get? {pool' : Pool S W} {stage' : Fiber S}
    (hfibers : pool'.fibers = pool.fibers.push stage) (hstage : pool.get? fiber = some stage') :
    pool'.get? fiber = some stage' := by
  rw [get?_push hfibers, if_neg]
  · exact hstage
  · rintro rfl
    simp [get?] at hstage

/-- The job of a fiber that has ended is let go without a trace. -/
theorem release_of_ended {ending : Ending S} (hended : pool.get? fiber = some (.ended ending)) :
    pool.release level fiber = pool := by
  rw [release, hended]

/-- A fiber that has not ended when its job is let go ends as dropped. -/
theorem fibers_release (hended : ∀ ending, pool.get? fiber ≠ some (.ended ending)) :
    (pool.release level fiber).fibers = (pool.set fiber (.ended .dropped)).fibers := by
  unfold release
  split
  · exact absurd ‹_› (hended _)
  · rw [fibers_log, fill]

variable {outcome : Except Fault S.Value}

@[simp] theorem queue_finish : (pool.finish level fiber outcome).queue = pool.queue := by
  cases outcome <;> simp [finish, fill]

@[simp] theorem sighted_finish : (pool.finish level fiber outcome).sighted = pool.sighted := by
  cases outcome <;> simp [finish, fill]

@[simp] theorem events_finish : (pool.finish level fiber outcome).events = pool.events := by
  cases outcome <;> simp [finish, fill]

@[simp] theorem world_finish : (pool.finish level fiber outcome).world = pool.world := by
  cases outcome <;> simp [finish, fill]

/-- The outcome that is written into a fiber stays there when the job is let go. -/
theorem fibers_finish (hstage : pool.get? fiber = some stage) :
    (pool.finish level fiber outcome).fibers =
      (pool.set fiber (.ended (.ofOutcome outcome))).fibers := by
  have hfilled (pool' : Pool S W) (hfibers : pool'.fibers = pool.fibers) :
      ((pool'.fill fiber (.ofOutcome outcome)).release level fiber).fibers =
        (pool.set fiber (.ended (.ofOutcome outcome))).fibers := by
    have hended : (pool'.fill fiber (.ofOutcome outcome)).get? fiber =
        some (.ended (.ofOutcome outcome)) := by
      rw [fill, get?_set, if_pos rfl, get?, hfibers, ← get?, hstage]
      rfl
    rw [release_of_ended hended, fill, set, hfibers, set]
  cases outcome with
  | ok v => exact hfilled pool rfl
  | error cause => exact hfilled _ (fibers_log level _ pool)

/-- Nothing is handed to the spawner for a fiber that has got something behind it. -/
theorem start_of_ne_named {R : Runtime S W} (hstage : pool.get? fiber ≠ some .named)
    (action : S.Action) : pool.start R fiber action = (.none, pool) := by
  unfold start
  split
  · exact absurd ‹_› hstage
  · rfl

end Unchanged

/-- Answer a request; a job may have to be launched because of it. -/
def answer (R : Runtime S W) (pool : Pool S W) :
    (request : Request S) → request.Reply × Launch S × Pool S W
  | .newFiber =>
    (⟨pool.fibers.size⟩, .none, { pool with fibers := pool.fibers.push .named })
  | .start fiber action => ((), pool.start R fiber action)
  | .keep fiber action => ((), .none, pool.keep fiber action)
  | .ended fiber => (pool.isReady fiber, .none, pool)
  | .note event => ((), .none, { pool with events := pool.events.push event })
  | .sight fiber => ((), .none, { pool with sighted := pool.sighted.push fiber })
  | .log record => ((), .none, pool.log R.level record)
  | .perform e =>
    let ⟨fibers, queue, sighted, events, records, world⟩ := pool
    let (reply, world) := R.effect e world
    (reply, .none, ⟨fibers, queue, sighted, events, records, world⟩)

end Pool

end FiberPrograms
