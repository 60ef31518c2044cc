import FiberPrograms.ForkJoin
import FiberPrograms.Machine

/-!
# Computations

Continuations, actions and observers are user code. What such code does is a computation: a tree
of requests to its surroundings, each with what follows the answer. A computation may make and
read fibers, run a program of its own, have effects on the world outside, and fail. Whoever runs
it decides when a request is answered, so reading a fiber may wait.

## Main definitions

* `Signature`: the names of user code and its effects
* `Request`, `Demand`: requests answered at once, and those whose answer may take a run
* `Comp`: computations, a monad
* `Comp.attempt`: a computation that answers with a fault instead of failing
-/

namespace FiberPrograms

/-- The names of user code and what it may do to the world outside. -/
structure Signature where
  /-- Ground types of values. -/
  Base : Type
  [ground : Universe Base]
  /-- Names of user code inside continuations. -/
  Code : Type
  /-- Names of actions. -/
  Action : Type
  /-- Effects on the world outside. -/
  Effect : Type
  /-- What the world answers to an effect. -/
  Reply : Effect → Type

attribute [instance] Signature.ground

namespace Signature

variable (S : Signature)

/-- Values over the ground types of a signature. -/
abbrev Value : Type := FiberPrograms.Value S.Base

/-- Fork/join programs over a signature. -/
abbrev Program : Type := FiberPrograms.Program S.Base (ForkJoin S.Base S.Action) S.Code

/-- Machines for fork/join programs over a signature. -/
abbrev Machine : Type :=
  FiberPrograms.Machine S.Value (ForkJoin S.Base S.Action)
    (Cont S.Base (ForkJoin S.Base S.Action) S.Code)

end Signature

variable {S : Signature}

/-- Requests that are answered at once. -/
inductive Request (S : Signature) where
  /-- A name for a new fiber. -/
  | newFiber
  /-- Hand the action of a fiber to the spawner, to be run once. -/
  | start (fiber : FiberId) (action : S.Action)
  /-- Keep the action with the fiber, to be run anew by every reader. -/
  | keep (fiber : FiberId) (action : S.Action)
  /-- Whether reading the fiber would not have to wait. -/
  | ended (fiber : FiberId)
  /-- Put down an event. -/
  | note (event : Event)
  /-- A fiber has come in sight. -/
  | sight (fiber : FiberId)
  /-- Write a log record. -/
  | log (record : Record)
  /-- An effect on the world outside. -/
  | perform (effect : S.Effect)

/-- The answer to a request. -/
def Request.Reply : Request S → Type
  | newFiber => FiberId
  | start _ _ => Unit
  | keep _ _ => Unit
  | ended _ => Bool
  | note _ => Unit
  | sight _ => Unit
  | log _ => Unit
  | perform effect => S.Reply effect

/-- Demands for a value that may take a run to answer, or have to wait. -/
inductive Demand (S : Signature) where
  /-- The value of a fiber. -/
  | read (fiber : FiberId)
  /-- The value, of the given type, of the program that a machine stands in. -/
  | interpret (yields : Ty S.Base) (machine : S.Machine)

/-- Computations that yield an `α`. -/
inductive Comp (S : Signature) (α : Type) where
  | done (a : α)
  | fail (fault : Fault)
  | ask (request : Request S) (k : request.Reply → Comp S α)
  | demand (demand : Demand S) (k : Except Fault S.Value → Comp S α)
  /-- Have the jobs that wait in the queue run until none is left, then go on. -/
  | runQueue (k : Comp S α)

namespace Comp

variable {α β : Type}

/-- Run a computation, then the one made of its value. -/
def bind : Comp S α → (α → Comp S β) → Comp S β
  | done a, f => f a
  | fail fault, _ => fail fault
  | ask request k, f => ask request fun reply => (k reply).bind f
  | demand d k, f => demand d fun outcome => (k outcome).bind f
  | runQueue k, f => runQueue (k.bind f)

instance : Monad (Comp S) where
  pure := done
  bind := bind

/-- The computation that fails if and as the outcome does. -/
def ofExcept : Except Fault α → Comp S α
  | .ok a => done a
  | .error fault => fail fault

/-- The same computation, answering with its fault instead of failing. -/
def attempt : Comp S α → Comp S (Except Fault α)
  | done a => done (.ok a)
  | fail fault => done (.error fault)
  | ask request k => ask request fun reply => (k reply).attempt
  | demand d k => demand d fun outcome => (k outcome).attempt
  | runQueue k => runQueue k.attempt

/-- A name for a new fiber. -/
def newFiber : Comp S FiberId :=
  ask .newFiber done

/-- Hand the action of a fiber to the spawner. -/
def start (fiber : FiberId) (action : S.Action) : Comp S Unit :=
  ask (.start fiber action) done

/-- Keep the action with the fiber. -/
def keep (fiber : FiberId) (action : S.Action) : Comp S Unit :=
  ask (.keep fiber action) done

/-- Whether reading the fiber would not have to wait. -/
def ended (fiber : FiberId) : Comp S Bool :=
  ask (.ended fiber) done

/-- Put down an event. -/
def note (event : Event) : Comp S Unit :=
  ask (.note event) done

/-- A fiber has come in sight. -/
def sight (fiber : FiberId) : Comp S Unit :=
  ask (.sight fiber) done

/-- Write a log record. -/
def log (record : Record) : Comp S Unit :=
  ask (.log record) done

/-- An effect on the world outside. -/
def perform (effect : S.Effect) : Comp S (S.Reply effect) :=
  ask (.perform effect) done

/-- The value of a fiber. -/
def read (fiber : FiberId) : Comp S S.Value :=
  demand (.read fiber) ofExcept

/-- Run a program that yields the given type from its root. -/
def interpret (yields : Ty S.Base) (program : S.Program) : Comp S S.Value :=
  demand (.interpret yields (.start program)) ofExcept

theorem bind_done (c : Comp S α) : c.bind done = c := by
  induction c with
  | done a => rfl
  | fail fault => rfl
  | ask request k ih => simp [bind, ih]
  | demand d k ih => simp [bind, ih]
  | runQueue k ih => simp [bind, ih]

theorem bind_assoc {γ : Type} (c : Comp S α) (f : α → Comp S β) (g : β → Comp S γ) :
    (c.bind f).bind g = c.bind fun a => (f a).bind g := by
  induction c with
  | done a => rfl
  | fail fault => rfl
  | ask request k ih => simp [bind, ih]
  | demand d k ih => simp [bind, ih]
  | runQueue k ih => simp [bind, ih]

instance : LawfulMonad (Comp S) :=
  LawfulMonad.mk' (Comp S) bind_done (fun _ _ => rfl) bind_assoc

end Comp

end FiberPrograms
