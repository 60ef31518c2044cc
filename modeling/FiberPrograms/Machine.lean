import FiberPrograms.Fault
import FiberPrograms.Tree

/-!
# The stepping machine

The machine evaluates one tree node at a time and keeps the continuations that wait for a value
on a list of its own, innermost first, so that long programs need no deep recursion. What
operations do, what continuations stand for and what is said when a program yields a value is
left to a handler over an arbitrary monad.

A handler call may fail. The machine then stops where it stands: the node under evaluation is
gone, and whatever was still pending stays pending.

## Main definitions

* `Handler`: the meaning of operations, returns and continuations
* `Machine`, `Machine.step`: the machine and its one step
* `Machine.run`: a bounded number of steps
* `Tree.eval`: the evaluator that recurses on the tree instead
-/

namespace FiberPrograms

/-- The meaning of operations, returns and continuations in the monad `m`. Every call answers
with a fault if it fails. -/
structure Handler (m : Type → Type) (V Op K : Type) where
  /-- Performs an operation for which `depth` continuations wait. -/
  handle : (depth : Nat) → Op → m (Except Fault V)
  /-- Called for every value a program yields; `outermost` if it ends the run. -/
  onReturn : (outermost : Bool) → m (Except Fault Unit)
  /-- The program that a continuation makes of a value. -/
  resume : K → V → m (Except Fault (Tree V Op K))
  /-- Checks the value that the whole run ends with. -/
  accept : V → Except Fault V

/-- What one step of the machine came to. -/
inductive Progress (V : Type) where
  /-- There is more to evaluate. -/
  | more
  /-- The program has yielded its value. -/
  | done (value : V)

/-- A machine: the node to be evaluated next and the continuations that wait, innermost first.
The number of waiting continuations is kept beside them. -/
structure Machine (V Op K : Type) where
  current : Option (Tree V Op K)
  pending : List K
  depth : Nat
  depth_eq : depth = pending.length := by rfl

namespace Machine

variable {V Op K : Type} {m : Type → Type}

/-- A machine at the root of a program. -/
def start (tree : Tree V Op K) : Machine V Op K where
  current := some tree
  pending := []
  depth := 0

/-- Whether the machine has nothing left to evaluate. -/
def isDone (M : Machine V Op K) : Bool :=
  M.current.isNone

/-- Go into the first program of a node, leaving its continuation waiting. -/
def enter (M : Machine V Op K) (first : Tree V Op K) (next : K) : Machine V Op K where
  current := some first
  pending := next :: M.pending
  depth := M.depth + 1
  depth_eq := by simp [M.depth_eq]

/-- Stop without touching the continuations that wait. -/
def halt (M : Machine V Op K) : Machine V Op K where
  current := none
  pending := M.pending
  depth := M.depth
  depth_eq := M.depth_eq

/-- Feed a value to the innermost waiting continuation, or end the run with it. The
continuation is taken off before it is called, so it is gone even if the call fails. -/
def deliver [Monad m] (h : Handler m V Op K) (M : Machine V Op K) (value : V) :
    m (Except Fault (Progress V) × Machine V Op K) :=
  match hM : M.pending with
  | [] => pure ((h.accept value).map .done, M.halt)
  | next :: rest =>
    let popped (current : Option (Tree V Op K)) : Machine V Op K :=
      { current, pending := rest, depth := M.depth - 1,
        depth_eq := by simp [M.depth_eq, hM] }
    do
      match ← h.resume next value with
      | .error fault => pure (.error fault, popped none)
      | .ok tree => pure (.ok .more, popped (some tree))

/-- Evaluate one node. A machine that is done fails and stays as it is. -/
def step [Monad m] (h : Handler m V Op K) (M : Machine V Op K) :
    m (Except Fault (Progress V) × Machine V Op K) :=
  match M.current with
  | none => pure (.error .machineFinished, M)
  | some (.andThen first next) => pure (.ok .more, M.enter first next)
  | some (.ret value) => do
    match ← h.onReturn M.pending.isEmpty with
    | .error fault => pure (.error fault, M.halt)
    | .ok () => M.deliver h value
  | some (.instr op) => do
    match ← h.handle M.depth op with
    | .error fault => pure (.error fault, M.halt)
    | .ok value => M.deliver h value

/-- Step until the run has ended, but at most `fuel` times. Answers how the run ended, if it
did, and where the machine stands. -/
def run [Monad m] (h : Handler m V Op K) :
    (fuel : Nat) → Machine V Op K → m (Option (Except Fault V) × Machine V Op K)
  | 0, M => pure (none, M)
  | fuel + 1, M => do
    match ← M.step h with
    | (.error fault, M') => pure (some (.error fault), M')
    | (.ok (.done value), M') => pure (some (.ok value), M')
    | (.ok .more, M') => run h fuel M'

end Machine

namespace Tree

variable {V Op K : Type} {m : Type → Type}

/-- Evaluate a program by recursion, at most `fuel` nodes deep. The first program of a node is
never outermost and has one continuation more waiting for it; the program made of its value
stands in the node's own place. -/
def eval [Monad m] (h : Handler m V Op K) :
    (fuel : Nat) → (outermost : Bool) → (depth : Nat) → Tree V Op K → m (Option (Except Fault V))
  | 0, _, _, _ => pure none
  | _ + 1, outermost, _, ret value => do
    match ← h.onReturn outermost with
    | .error fault => pure (some (.error fault))
    | .ok () => pure (some (.ok value))
  | _ + 1, _, depth, instr op => some <$> h.handle depth op
  | fuel + 1, outermost, depth, andThen first next => do
    match ← eval h fuel false (depth + 1) first with
    | none => pure none
    | some (.error fault) => pure (some (.error fault))
    | some (.ok value) =>
      match ← h.resume next value with
      | .error fault => pure (some (.error fault))
      | .ok tree => eval h fuel outermost depth tree

end Tree

end FiberPrograms
