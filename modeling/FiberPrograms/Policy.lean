import FiberPrograms.Pool

/-!
# Policies

A policy says what becomes of jobs and who brings queued jobs to their end. With a queue that
runs itself, the observer that hears of an await runs the jobs that wait, before the interpreter
waits for the fiber; if that does not end the fiber, nothing else will, and the await fails. A
queue that is run by hand never runs during a program, so there an await of an unended fiber
fails at once.

## Main definitions

* `Policy`, `Policy.spawner`, `Policy.newestFirst`: the policies
* `Policy.reaction`: what an observer does about queued jobs
* `Policy.runtime`: everything that a run depends on, given what user code stands for
-/

namespace FiberPrograms

/-- What becomes of jobs, and who brings queued jobs to their end. -/
inductive Policy where
  /-- Jobs run inside their fork. -/
  | inline
  /-- Jobs run beside the program. -/
  | background
  /-- Jobs are dropped. -/
  | discarding
  /-- Jobs wait, and an await runs them from the oldest on. -/
  | oldestFirst
  /-- Jobs wait, and an await runs them from the newest on. -/
  | newestFirst
  /-- Jobs wait to be started or dropped by hand. -/
  | byHand
deriving DecidableEq, Repr, Inhabited

/-- A fiber would have to be waited for that nobody brings to its end. -/
def wouldBlock : Fault := .text "would block"

namespace Policy

/-- How jobs are treated when they are handed over. -/
def spawner : Policy → Spawner
  | inline => .inline
  | background => .background
  | discarding => .discarding
  | oldestFirst | newestFirst | byHand => .queued

/-- Whether reading a fiber may wait for it. -/
def waits (policy : Policy) : Bool :=
  policy.spawner != .queued

variable {S : Signature}

/-- Fails unless reading the fiber would not have to wait. -/
def demandReady (fiber : FiberId) : Comp S Unit := do
  if ← Comp.ended fiber then return () else .fail wouldBlock

/-- What an observer does about queued jobs before a fiber is waited for. -/
def reaction : Policy → Observer S
  | oldestFirst, .await fiber | newestFirst, .await fiber => .runQueue (demandReady fiber)
  | byHand, .await fiber => demandReady fiber
  | _, _ => .done ()

/-- Everything that a run depends on: events go to the log, are put down, and then have queued
jobs run as the policy says. -/
def runtime {W : Type} (policy : Policy) (meaning : Meaning S) (level : Option Level)
    (effect : (e : S.Effect) → W → S.Reply e × W) : Runtime S W where
  toMeaning := meaning
  observer := .all [.logging, .recording, policy.reaction]
  spawner := policy.spawner
  newestFirst := policy == .newestFirst
  level := level
  effect := effect

end Policy

end FiberPrograms
