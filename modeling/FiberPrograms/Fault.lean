/-!
# Fiber names and faults

A fiber is known by its name and by nothing else: names are handed out in the order in which
fibers are made, and the only test on two names is whether they are equal.

A fault is the way a computation ends without a value. Faults are kept as causes; their wording
is fixed in one place, `Fault.text?`, and needs to be told how fibers are called in the text.

## Main definitions

* `FiberId`: the name of a fiber
* `Fault`: why a computation ended without a value
* `Fault.text?`, `Fault.message`: the wording of a fault
-/

namespace FiberPrograms

/-- The name of a fiber. Names are numbered in the order in which fibers are made. -/
structure FiberId where
  index : Nat
deriving DecidableEq, Repr, Inhabited

/-- Why a computation ended without a value. -/
inductive Fault where
  /-- A message put together while running. -/
  | text (words : String)
  /-- A message fixed in advance. -/
  | literal (words : String)
  /-- Something was raised that is no message at all. -/
  | other (code : Int64)
  /-- A fiber was read whose action had failed with the given fault. -/
  | fiberFailed (fiber : FiberId) (cause : Fault)
  /-- A fiber was read whose job had been thrown away before it ran. -/
  | fiberDropped (fiber : FiberId)
  /-- A value was not of the type that its receiver was written for. -/
  | wrongType (expected : String)
  /-- A machine was stepped that had nothing left to evaluate. -/
  | machineFinished
deriving DecidableEq, Repr, Inhabited

namespace Fault

/-- What stands for a fault that carries no message when a fiber reports it. -/
def unknownPayload : String := "unknown panic payload"

/-- The wording of a fault, or `none` if it carries no message. A fault that has passed through
a fiber always has a wording, since the fiber reports it in its own words. -/
def text? (name : FiberId → String) : Fault → Option String
  | text words => some words
  | literal words => some words
  | other _ => none
  | fiberFailed fiber cause =>
      some ("fiber " ++ name fiber ++ " panicked: " ++ (cause.text? name).getD unknownPayload)
  | fiberDropped fiber =>
      some ("fiber " ++ name fiber ++ " was dropped by its spawner before it ran")
  | wrongType expected => some ("Internal error: program value is not a " ++ expected)
  | machineFinished => some "Internal error: step() called on a finished VM"

/-- The wording of a fault as a fiber reports it. -/
def message (name : FiberId → String) (fault : Fault) : String :=
  (fault.text? name).getD unknownPayload

@[simp] theorem text?_fiberFailed (name : FiberId → String) (fiber : FiberId) (cause : Fault) :
    (fiberFailed fiber cause).text? name =
      some ("fiber " ++ name fiber ++ " panicked: " ++ cause.message name) := rfl

end Fault

end FiberPrograms
