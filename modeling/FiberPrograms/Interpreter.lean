import FiberPrograms.Comp

/-!
# The fork/join interpreter

The interpreter gives the operations of fork/join programs their meaning as computations: a fork
is reported, then started, and yields the fiber without waiting; an await is reported before the
fiber is read. Reports go to an observer, which is user code too and may fail; then the operation
that it announced is not carried out.

## Main definitions

* `Meaning`: what the names of user code stand for
* `Observer`: `logging`, `recording` and their fan-out `all`
* `Interpreter`, `Interpreter.handler`: the interpreter as a handler for machines
* `Interpreter.turn`: one machine step as a computation
-/

namespace FiberPrograms

/-- What the names of user code stand for. -/
structure Meaning (S : Signature) where
  /-- The program that the code of a continuation makes of a value. -/
  build : S.Code → S.Value → Comp S S.Program
  /-- The value that the code of a continuation makes of a value. -/
  compute : S.Code → S.Value → Comp S S.Value
  /-- What an action does. -/
  act : S.Action → Comp S S.Value

/-- A sink for events. -/
abbrev Observer (S : Signature) : Type := Event → Comp S Unit

namespace Observer

variable {S : Signature}

/-- Writes every event to the log. -/
def logging : Observer S :=
  fun event => Comp.log (.ofEvent event)

/-- Puts down every event. A forked fiber comes in sight with its event. -/
def recording : Observer S
  | .fork fiber place => (Comp.sight fiber).bind fun _ => Comp.note (.fork fiber place)
  | event => Comp.note event

/-- Reports to several observers in order; the first failure keeps the rest from hearing. -/
def all : List (Observer S) → Observer S
  | [], _ => .done ()
  | first :: rest, event => (first event).bind fun _ => all rest event

end Observer

/-- An interpreter: the meaning of user code and the observer that is reported to. -/
structure Interpreter (S : Signature) extends Meaning S where
  observer : Observer S

/-- What a machine's step comes to for whoever drives it. -/
inductive Turn (S : Signature) where
  /-- The run has ended with a value. -/
  | value (v : S.Value)
  /-- The machine is to be stepped again. -/
  | again (yields : Ty S.Base) (machine : S.Machine)

namespace Interpreter

/-- How an interpreter is shown for diagnosis: by nothing but a name. -/
def shape {S : Signature} (_ : Interpreter S) : Shape :=
  .record "ForkJoinInterpreter" .open

variable {S : Signature} (I : Interpreter S)

/-- The meaning of an operation. -/
def perform : ForkJoin S.Base S.Action → Comp S S.Value
  | .forkAt place yields action => do
    let fiber ← Comp.newFiber
    I.observer (.fork fiber place)
    Comp.start fiber action
    return .of (.fiber yields) fiber
  | .await fiber => do
    I.observer (.await fiber)
    Comp.read fiber

/-- The interpreter as a handler for machines whose programs yield the given type. -/
def handler (yields : Ty S.Base) :
    Handler (Comp S) S.Value (ForkJoin S.Base S.Action)
      (Cont S.Base (ForkJoin S.Base S.Action) S.Code) where
  handle depth op :=
    (do
      Comp.log (.instruction op.shape depth)
      I.perform op : Comp S S.Value).attempt
  onReturn outermost := (I.observer (.finished outermost)).attempt
  resume :=
    Cont.resume (fun code v => (I.build code v).attempt) fun code v => (I.compute code v).attempt
  accept := Value.check yields

/-- One step of a machine, as a computation that fails if the step does. -/
def turn (yields : Ty S.Base) (machine : S.Machine) : Comp S (Turn S) := do
  match ← machine.step (I.handler yields) with
  | (.error fault, _) => .fail fault
  | (.ok (.done v), _) => return .value v
  | (.ok .more, machine) => return .again yields machine

end Interpreter

end FiberPrograms
