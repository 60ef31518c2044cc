import FiberPrograms.Program
import FiberPrograms.Shape

/-!
# Fork and join

The operations of fork/join programs: start an action as a fiber of its own, and wait for a
fiber. A fork carries a place, which is reported and has no other effect.

An interpreter reports what it does as events, and writes records for a log, of which a reader
asks for those up to some level.

## Main definitions

* `Place`, `ForkJoin`: the operations
* `Event`: what an interpreter reports
* `Level`, `Record`: log records, their levels and their fields
-/

namespace FiberPrograms

/-- Where a fork is meant to run. -/
inductive Place where
  | here
  | remote
deriving DecidableEq, Repr, Inhabited

namespace Place

/-- How a place is written. -/
def name : Place → String
  | here => "here"
  | remote => "remote"

/-- How a place is shown for diagnosis. -/
def shape : Place → Shape
  | here => .word "Here"
  | remote => .word "Remote"

/-- The place that is written as the given text. -/
def ofName? : String → Option Place
  | "here" => some here
  | "remote" => some remote
  | _ => none

@[simp] theorem ofName?_name (place : Place) : ofName? place.name = some place := by
  cases place <;> rfl

end Place

/-- The operations of fork/join programs, over actions named by `A`. -/
inductive ForkJoin (B A : Type) where
  /-- Start an action that yields a value of the given type; yields its fiber. -/
  | forkAt (place : Place) (yields : Ty B) (action : A)
  /-- Wait for a fiber; yields its value. -/
  | await (fiber : FiberId)

/-- How an operation is shown for diagnosis. -/
def ForkJoin.shape {B A : Type} : ForkJoin B A → Shape
  | forkAt place _ _ => .record "ForkAt" (.field "location" place.shape .open)
  | await fiber => .record "Await" (.field "fiber" (.fiber "RawFiber" fiber) .closed)

/-- What an interpreter reports. -/
inductive Event where
  /-- A fiber is about to be started. -/
  | fork (fiber : FiberId) (place : Place)
  /-- A fiber is about to be waited for. -/
  | await (fiber : FiberId)
  /-- A value has been yielded; `outermost` if it ends the run. -/
  | finished (outermost : Bool)
deriving DecidableEq, Repr, Inhabited

/-- How much a log tells, from the least to the most. -/
inductive Level where
  | error
  | warn
  | info
  | debug
  | trace
deriving DecidableEq, Repr, Inhabited

namespace Level

/-- The place of a level in the order. -/
def rank : Level → Nat
  | error => 0
  | warn => 1
  | info => 2
  | debug => 3
  | trace => 4

/-- How a level is written. -/
def name : Level → String
  | error => "error"
  | warn => "warn"
  | info => "info"
  | debug => "debug"
  | trace => "trace"

/-- The level that is written as the given text. -/
def ofName? : String → Option Level
  | "error" => some error
  | "warn" => some warn
  | "info" => some info
  | "debug" => some debug
  | "trace" => some trace
  | _ => none

end Level

/-- A record for the log. -/
inductive Record where
  /-- An operation is about to be performed, with so many continuations waiting. -/
  | instruction (op : Shape) (depth : Nat)
  | fork (fiber : FiberId) (place : Place)
  | await (fiber : FiberId)
  /-- A value that ends the run has been yielded. -/
  | ended
  /-- A value has been yielded. -/
  | returned
  | starting (fiber : FiberId)
  | failed (fiber : FiberId) (cause : Fault)
  | dropped (fiber : FiberId)

namespace Record

/-- The record made of an event. -/
def ofEvent : Event → Record
  | .fork fiber place => fork fiber place
  | .await fiber => await fiber
  | .finished true => ended
  | .finished false => returned

/-- The level of a record. -/
def level : Record → Level
  | instruction _ _ => .trace
  | fork _ _ => .info
  | await _ => .info
  | ended => .info
  | returned => .trace
  | starting _ => .debug
  | failed _ _ => .warn
  | dropped _ => .warn

/-- The fields of a record, its message first. -/
def fields (name : FiberId → String) : Record → List (String × String)
  | instruction op depth =>
      [("message", "Instruction"), ("instr", op.inline name), ("depth", toString depth)]
  | fork fiber place =>
      [("message", "Fork"), ("fiber", name fiber), ("location", place.name)]
  | await fiber => [("message", "Await"), ("fiber", name fiber)]
  | ended => [("message", "Program is over")]
  | returned => [("message", "Return")]
  | starting fiber => [("message", "Starting fiber"), ("fiber", name fiber)]
  | failed fiber cause =>
      [("message", "Fiber action panicked"), ("fiber", name fiber),
        ("message", cause.message name)]
  | dropped fiber =>
      [("message", "Spawner dropped fiber before it ran"), ("fiber", name fiber)]

end Record

end FiberPrograms
