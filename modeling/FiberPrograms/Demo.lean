import FiberPrograms.Scalar
import FiberPrograms.Session

/-!
# Two example programs

The first program forks two actions, awaits both and adds what they yield; an action may be
delayed, which says how late it may end and nothing about its value. A sum that is out of range
is a fault. The second program takes a number of steps one after the other; every step is put
together by the one before, so the program is never there as a whole.

## Main definitions

* `Demo.Plan`, `Demo.sum`: the sum of two actions
* `Demo.countFrom`, `Demo.countdown`: a chain of steps
* `Demo.signature`, `Demo.meaning`: what their user code stands for
-/

namespace FiberPrograms.Demo

/-- What the sum is made of; delays are in milliseconds. -/
structure Plan where
  left : Int64 := 2
  right : Int64 := 4
  leftDelay : UInt64 := 0
  rightDelay : UInt64 := 0

/-- Yields a number, after a while. -/
structure Action where
  value : Int64
  delay : UInt64

/-- User code of the continuations. -/
inductive Code where
  /-- Given the left fiber: fork the right action and go on. -/
  | forkRight (action : Action)
  /-- Given the right fiber: await the left one and go on. -/
  | awaitLeft (left : FiberId)
  /-- Given the left number: await the right fiber and add. -/
  | awaitRight (right : FiberId)
  /-- Given the right number: add the left one. -/
  | addTo (left : Int64)
  /-- Given the number of steps done: take another one, or stop. -/
  | count (steps : UInt64)

/-- The example programs as user code. They have no effects. -/
def signature : Signature where
  Base := Scalar
  Code := Code
  Action := Action
  Effect := Empty
  Reply := fun _ => Unit

/-- Numbers that the sum is made of. -/
abbrev number : Ty Scalar := .ground .int64

/-- Numbers of steps. -/
abbrev stepCount : Ty Scalar := .ground .uint64

/-- Fork both actions, await both and add. -/
def sum (plan : Plan) : signature.Program :=
  Program.bind (.fiber number) (.ofInstr (.forkAt .here number ⟨plan.left, plan.leftDelay⟩))
    (.forkRight ⟨plan.right, plan.rightDelay⟩)

/-- Take steps until `steps` are done, `done` of which are done already. -/
def countFrom (done steps : UInt64) : signature.Program :=
  Program.bind stepCount (.ofValue stepCount done) (.count steps)

/-- Take a number of steps, and yield that number. -/
def countdown (steps : UInt64) : signature.Program :=
  countFrom 0 steps

/-- The exact sum of two numbers, unless it is out of range. -/
def addExact (a b : Int64) : Except Fault Int64 :=
  let exact := a.toInt + b.toInt
  if Int64.minValue.toInt ≤ exact ∧ exact ≤ Int64.maxValue.toInt then .ok (a + b)
  else .error (.literal "attempt to add with overflow")

/-- The program that user code makes of a value. -/
def build : Code → Value Scalar → Except Fault signature.Program
  | .forkRight action, v => do
    let left ← v.cast (.fiber number)
    return Program.bind (.fiber number) (.ofInstr (.forkAt .remote number action))
      (.awaitLeft left)
  | .awaitLeft left, v => do
    let right ← v.cast (.fiber number)
    return Program.bind number (.ofInstr (.await left)) (.awaitRight right)
  | .awaitRight right, v => do
    let left ← v.cast number
    return Program.map number (.ofInstr (.await right)) (.addTo left)
  | .addTo _, v => return .ret v
  | .count steps, v => do
    let done : UInt64 ← v.cast stepCount
    return if steps ≤ done then .ofValue stepCount done else countFrom (done + 1) steps

/-- The value that user code makes of a value. -/
def compute : Code → Value Scalar → Except Fault (Value Scalar)
  | .addTo left, v => do
    let right ← v.cast number
    return .of number (← addExact left right)
  | _, v => return v

/-- What the user code of the example programs stands for. -/
def meaning : Meaning signature where
  build code v := Comp.ofExcept (build code v)
  compute code v := Comp.ofExcept (compute code v)
  act action := .done (.of number action.value)

/-- Everything that a run of the example programs depends on. -/
def runtime (policy : Policy) (level : Option Level) : Runtime signature Unit :=
  policy.runtime meaning level fun _ world => ((), world)

/-- What is seen when a chain of steps is driven to its end. -/
structure Countdown where
  outcome : Option (Except Fault signature.Value)
  mileage : Mileage
  isDone : Bool
  events : Array Event

/-- Drive a chain of steps to its end. -/
def runCountdown (policy : Policy) (fuel : Nat) (steps : UInt64) : Countdown :=
  let R := runtime policy none
  let h := R.handler stepCount
  let (outcome, mileage, M, session) :=
    (Session.start ()).drive R h fuel {} (Machine.start (countdown steps))
  ⟨outcome, mileage, M.isDone, session.pool.events⟩

end FiberPrograms.Demo
