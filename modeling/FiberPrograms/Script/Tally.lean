import FiberPrograms.Script.Eval
import FiberPrograms.Text.Quoted

/-!
# The running total

A second set of operations, besides fork and join: adding to a running total and reading it,
failing on purpose, and yielding something that no program expects. Whatever an operation does
is put down as a line.

## Main definitions

* `TallyOp.shape`: how the operations are shown
* `TallyOp.perform`, `tallyHandler`: what they do
-/

namespace FiberPrograms.Script

namespace TallyOp

/-- How an operation is shown for diagnosis. -/
def shape : TallyOp → Shape
  | add n => .tuple "Add" (.word (toString n))
  | read => .word "Read"
  | fail words => .tuple "Fail" (.word (Text.quoted words))
  | bad => .word "Bad"

/-- Put down a line. -/
def line (text : String) : Act Unit :=
  Comp.perform (S := signature) (.line text)

/-- Add to the running total; answers the new total. -/
def addToTotal (n : Int64) : Act Int64 :=
  Comp.perform (S := signature) (.add n)

/-- What an operation does. -/
def perform : TallyOp → Act (Value Ground)
  | add n => do
    line ("add " ++ toString n)
    return .of (.ground .val) (.int (← addToTotal n))
  | read => do
    line "read"
    return .of (.ground .val) (.int (← addToTotal 0))
  | fail words => do
    line "fail"
    .fail (.text words)
  | bad => .done (.of (.ground .text) "bad")

end TallyOp

/-- The running total as a handler for machines whose programs yield the given type. Returns are
put down as lines if wished. -/
def tallyHandler (waits logReturns : Bool) (yields : Ty Ground) :
    Handler (Comp signature) (Value Ground) TallyOp (Cont Ground TallyOp (Closure TallyOp)) where
  handle depth op :=
    (do
      Comp.log (.instruction op.shape depth)
      op.perform : Act (Value Ground)).attempt
  onReturn outermost :=
    (if logReturns then TallyOp.line ("return " ++ toString outermost)
      else .done () : Act Unit).attempt
  resume :=
    Cont.resume (fun code v => (Closure.build waits tallying code v).attempt)
      fun code v => (Closure.compute waits code v).attempt
  accept := Value.check yields

end FiberPrograms.Script
