import FiberPrograms.Policy
import FiberPrograms.Script.Closure

/-!
# Evaluating scripts

Expressions are evaluated, and programs put together, as computations over the script signature.
An expression that runs a program of its own sees its variables and starts without shared
programs. Whether reading a fiber may wait is decided by whoever runs the script; if not, an
unfinished fiber makes its reader fail.

## Main definitions

* `Vocabulary`: the operations that a set of programs has
* `Expr.eval`, `Prog.build`: evaluation and construction, by recursion on the script
* `Prog.buildRoot`: construction of a whole request, whose root keeps its own type
-/

namespace FiberPrograms.Script

/-- What script code does. -/
abbrev Act (α : Type) : Type := Comp signature α

/-- The operations of a set of programs, as far as it has them. -/
structure Vocabulary (Op : Type) where
  forkAt : Place → Thunk → Option Op
  await : FiberId → Option Op
  tally : TallyOp → Option Op

/-- The vocabulary of fork/join programs. -/
def forkJoin : Vocabulary (ForkJoin Ground Thunk) where
  forkAt place action := some (.forkAt place (.ground .val) action)
  await fiber := some (.await fiber)
  tally _ := none

/-- The vocabulary of programs over a running total. -/
def tallying : Vocabulary TallyOp where
  forkAt _ _ := none
  await _ := none
  tally op := some op

/-- An operand was of the wrong kind. -/
def typeError : Fault := .text "type error"

/-- A form asked for an operation that its set of programs lacks. -/
def foreignOperation : Fault := .text "no such operation"

section Operands

/-- The integer that a value has to be. -/
def Val.asInt : Val → Act Int64
  | .int n => .done n
  | _ => .fail typeError

/-- The truth value that a value has to be. -/
def Val.asBool : Val → Act Bool
  | .bool b => .done b
  | _ => .fail typeError

/-- The string that a value has to be. -/
def Val.asStr : Val → Act String
  | .str s => .done s
  | _ => .fail typeError

/-- The list that a value has to be. -/
def Val.asList : Val → Act (List Val)
  | .list items => .done items
  | _ => .fail typeError

/-- The fiber that a value has to be. -/
def Val.asFiber : Val → Act FiberId
  | .fiber id => .done id
  | _ => .fail typeError

/-- The fibers that the items of a list have to be. -/
def asFibers : List Val → Act (List FiberId)
  | [] => .done []
  | v :: rest => do
    let fiber ← v.asFiber
    let fibers ← asFibers rest
    return fiber :: fibers

/-- The texts of strings and integers, run together. -/
def runTogether : List Val → Act String
  | [] => .done ""
  | .str s :: rest => do return s ++ (← runTogether rest)
  | .int n :: rest => do return toString n ++ (← runTogether rest)
  | _ :: _ => .fail typeError

/-- The number of items of a list, or of characters of a string. -/
def Val.size : Val → Act Int64
  | .list items => .done (.ofNat items.length)
  | .str s => .done (.ofNat s.length)
  | _ => .fail typeError

/-- The item of a list at a position. -/
def itemAt (items : List Val) (position : Int64) : Act Val :=
  if position < 0 then .fail (.literal "no element")
  else
    match items[position.toNatClampNeg]? with
    | some v => .done v
    | none => .fail (.literal "no element")

/-- What a name stands for. -/
def lookUp {α : Type} (x : String) (bindings : List (String × α)) : Act α :=
  match bindings.lookup x with
  | some a => .done a
  | none => .fail (.text ("unbound " ++ x))

end Operands

/-- The script value that a value has to be. -/
def asVal (v : Value Ground) : Act Val :=
  Comp.ofExcept (Value.cast (.ground Ground.val) v)

/-- The value of a fiber, as a script value. If reading may not wait, an unfinished fiber makes
its reader fail instead. -/
def readFiber (waits : Bool) (fiber : FiberId) : Act Val := do
  if !waits then
    if !(← Comp.ended fiber) then
      let _ ← (.fail wouldBlock : Act Unit)
  asVal (← Comp.read fiber)

/-- A new fiber that recomputes. -/
def newRecomputing (action : Thunk) : Act FiberId := do
  let fiber ← Comp.newFiber
  Comp.keep fiber action
  Comp.sight fiber
  return fiber

/-- A new fiber that memoizes. It comes in sight when its action has been handed over. -/
def newMemoizing (action : Thunk) : Act FiberId := do
  let fiber ← Comp.newFiber
  Comp.start fiber action
  Comp.sight fiber
  return fiber

section Forms

variable {Op : Type}

/-- Programs of scripts. -/
abbrev Built (Op : Type) : Type := Program Ground Op (Closure Op)

/-- Turn the value of a program into a script value, as a step of its own. -/
def toVal (τ : Ty Ground) (program : Built Op) : Built Op :=
  program.map τ .toVal

/-- The program of one operation, if the vocabulary has it. -/
def operation : Option Op → Act (Built Op)
  | some op => .done (.instr op)
  | none => .fail foreignOperation

/-- The programs of several forks. -/
def forks (V : Vocabulary Op) (vars : Vars) : List (Place × Expr) → Act (List (Built Op))
  | [] => .done []
  | (place, action) :: rest => do
    let program ← operation (V.forkAt place ⟨action, vars⟩)
    let programs ← forks V vars rest
    return program :: programs

/-- The programs that await several fibers. -/
def joins (V : Vocabulary Op) : List FiberId → Act (List (Built Op))
  | [] => .done []
  | fiber :: rest => do
    let program ← operation (V.await fiber)
    let programs ← joins V rest
    return program :: programs

/-- Put `n` continuations on top of a program. -/
def stack (n : Nat) (cont : Cont Ground Op (Closure Op)) (program : Built Op) : Built Op :=
  n.repeat (fun program => .andThen program cont) program

/-- Build a program for every number from `k` on, `n` of them. -/
def buildEach (build : Nat → Act (Built Op)) : (n k : Nat) → Act (List (Built Op))
  | 0, _ => .done []
  | n + 1, k => do
    let program ← build k
    let programs ← buildEach build n (k + 1)
    return program :: programs

/-- The rest of a loop from a round on, given the value of the round before. -/
def rounds (build : Scope Op → Act (Built Op)) (limit round : Nat) (i a : String) (body : Prog)
    (scope : Scope Op) (v : Val) : Act (Built Op) :=
  if limit ≤ round then .done (.ofValue (.ground .val) v)
  else do
    let program ← build ((scope.bind i (.int (.ofNat round))).bind a v)
    return program.bind (.ground .val) (.loop limit (round + 1) i a body scope.vars scope.shares)

end Forms

mutual

/-- Evaluate an expression. -/
def Expr.eval (waits : Bool) : Expr → Vars → Act Val
  | .lit v, _ => .done v
  | .list items, vars => do return .list (← Expr.evalAll waits items vars)
  | .var x, vars => lookUp x vars
  | .arith op left right, vars => do
    let a ← (← left.eval waits vars).asInt
    let b ← (← right.eval waits vars).asInt
    return .int (op.apply a b)
  | .lt left right, vars => do
    let a ← (← left.eval waits vars).asInt
    let b ← (← right.eval waits vars).asInt
    return .bool (a < b)
  | .eq left right, vars => do
    let a ← left.eval waits vars
    let b ← right.eval waits vars
    return .bool (a.same b)
  | .not e, vars => do return .bool (!(← (← e.eval waits vars).asBool))
  | .cat e, vars => do return .str (← runTogether (← (← e.eval waits vars).asList))
  | .len e, vars => do return .int (← (← e.eval waits vars).size)
  | .nth items position, vars => do
    let items ← (← items.eval waits vars).asList
    let position ← (← position.eval waits vars).asInt
    itemAt items position
  | .push items item, vars => do
    let items ← (← items.eval waits vars).asList
    let item ← item.eval waits vars
    return .list (items ++ [item])
  | .ite condition yes no, vars => do
    if ← (← condition.eval waits vars).asBool then yes.eval waits vars else no.eval waits vars
  | .last e, vars => do
    let items ← (← e.eval waits vars).asList
    return items.getLastD .unit
  | .letIn e x body, vars => do
    let v ← e.eval waits vars
    body.eval waits ((x, v) :: vars)
  | .bump counter, _ => do return .int (← Comp.perform (S := signature) (.bump counter))
  | .log e, vars => do
    let v ← e.eval waits vars
    Comp.perform (S := signature) (.append v)
    return v
  | .sleep, _ => .done .unit
  | .raise e, vars => do
    let words ← (← e.eval waits vars).asStr
    .fail (.text words)
  | .raiseLiteral words, _ => .fail (.literal words)
  | .raiseOther code, _ => .fail (.other code)
  | .read e, vars => do
    let fiber ← (← e.eval waits vars).asFiber
    readFiber waits fiber
  | .recomputing action, vars => do return .fiber (← newRecomputing ⟨action, vars⟩)
  | .memoizing action, vars => do return .fiber (← newMemoizing ⟨action, vars⟩)
  | .interpret program, vars => do
    let program ← program.build waits forkJoin ⟨vars, []⟩
    asVal (← Comp.interpret (S := signature) (.ground .val) program)

/-- Evaluate several expressions in order. -/
def Expr.evalAll (waits : Bool) : List Expr → Vars → Act (List Val)
  | [], _ => .done []
  | e :: rest, vars => do
    let v ← e.eval waits vars
    let vs ← Expr.evalAll waits rest vars
    return v :: vs

/-- Put a program together that yields a script value. -/
def Prog.build (waits : Bool) {Op : Type} (V : Vocabulary Op) :
    Prog → Scope Op → Act (Built Op)
  | .ret e, scope => do return .ofValue (.ground .val) (← e.eval waits scope.vars)
  | .bind first x rest, scope => do
    let program ← first.build waits V scope
    return program.bind (.ground .val) (.program x rest scope.vars scope.shares)
  | .map first x result, scope => do
    let program ← first.build waits V scope
    return program.map (.ground .val) (.value x result scope.vars)
  | .next first rest, scope => do
    let program ← first.build waits V scope
    let after ← rest.build waits V scope
    return program.next (.ground .val) after
  | .zip left right, scope => do
    let first ← left.build waits V scope
    let second ← right.build waits V scope
    return toVal (.pair (.ground .val) (.ground .val))
      (.zip (.ground .val) (.ground .val) first second)
  | .seq items, scope => do
    let programs ← Prog.buildAll waits V items scope
    return toVal (.list (.ground .val)) (.sequence (.ground .val) programs)
  | .ite condition yes no, scope => do
    if ← (← condition.eval waits scope.vars).asBool then yes.build waits V scope
    else no.build waits V scope
  | .letIn e x body, scope => do
    let v ← e.eval waits scope.vars
    body.build waits V (scope.bind x v)
  | .share program x body, scope => do
    let program ← program.build waits V scope
    body.build waits V { scope with shares := (x, program) :: scope.shares }
  | .use x, scope => lookUp x scope.shares
  | .mapTimes n first x result, scope => do
    let program ← first.build waits V scope
    return stack n (.map (.ground .val) (.value x result scope.vars)) program
  | .bindTimes n first x rest, scope => do
    let program ← first.build waits V scope
    return stack n (.bind (.ground .val) (.program x rest scope.vars scope.shares)) program
  | .nextTimes n program, scope => do
    let program ← program.build waits V scope
    return n.repeat (fun after => program.next (.ground .val) after) program
  | .seqTimes n x body, scope => do
    let programs ← buildEach (fun k => body.build waits V (scope.bind x (.int (.ofNat k)))) n 0
    return toVal (.list (.ground .val)) (.sequence (.ground .val) programs)
  | .loop n i a init body, scope => do
    let v ← init.eval waits scope.vars
    rounds (body.build waits V) n 0 i a body scope v
  | .fork place action, scope => do
    let program ← operation (V.forkAt place ⟨action, scope.vars⟩)
    return toVal (.fiber (.ground .val)) program
  | .forkThen place action x rest, scope => do
    let program ← operation (V.forkAt place ⟨action, scope.vars⟩)
    return program.bind (.fiber (.ground .val)) (.program x rest scope.vars scope.shares)
  | .forkZip left right x rest, scope => do
    let first ← operation (V.forkAt left.1 ⟨left.2, scope.vars⟩)
    let second ← operation (V.forkAt right.1 ⟨right.2, scope.vars⟩)
    return (Program.zip (.fiber (.ground .val)) (.fiber (.ground .val)) first second).bind
      (.pair (.fiber (.ground .val)) (.fiber (.ground .val)))
      (.program x rest scope.vars scope.shares)
  | .forkAll actions x rest, scope => do
    let programs ← forks V scope.vars actions
    return (Program.sequence (.fiber (.ground .val)) programs).bind
      (.list (.fiber (.ground .val))) (.program x rest scope.vars scope.shares)
  | .join e, scope => do
    let fiber ← (← e.eval waits scope.vars).asFiber
    operation (V.await fiber)
  | .joinAll e, scope => do
    let fibers ← asFibers (← (← e.eval waits scope.vars).asList)
    let programs ← joins V fibers
    return toVal (.list (.ground .val)) (.sequence (.ground .val) programs)
  | .tally op, _ => operation (V.tally op)

/-- Put several programs together in order. -/
def Prog.buildAll (waits : Bool) {Op : Type} (V : Vocabulary Op) :
    List Prog → Scope Op → Act (List (Built Op))
  | [], _ => .done []
  | program :: rest, scope => do
    let built ← program.build waits V scope
    let others ← Prog.buildAll waits V rest scope
    return built :: others

end

/-- Put a whole request together. At the root, a pair, a sequence and a bare fork keep their own
type, which is answered beside the program. -/
def Prog.buildRoot (waits : Bool) {Op : Type} (V : Vocabulary Op) :
    Prog → Act (Built Op × Ty Ground)
  | .zip left right => do
    let first ← left.build waits V ⟨[], []⟩
    let second ← right.build waits V ⟨[], []⟩
    return (.zip (.ground .val) (.ground .val) first second,
      .pair (.ground .val) (.ground .val))
  | .seq items => do
    let programs ← Prog.buildAll waits V items ⟨[], []⟩
    return (.sequence (.ground .val) programs, .list (.ground .val))
  | .fork place action => do
    let program ← operation (V.forkAt place ⟨action, []⟩)
    return (program, .fiber (.ground .val))
  | program => do
    return (← program.build waits V ⟨[], []⟩, .ground .val)

/-- The program that user code of a continuation makes of a value. -/
def Closure.build (waits : Bool) {Op : Type} (V : Vocabulary Op) (code : Closure Op)
    (v : Value Ground) : Act (Built Op) :=
  match code with
  | .program x body vars shares => body.build waits V ⟨(x, .ofValue v) :: vars, shares⟩
  | .value x result vars => do
    return .ofValue (.ground .val) (← result.eval waits ((x, .ofValue v) :: vars))
  | .toVal => .done (.ofValue (.ground .val) (.ofValue v))
  | .loop limit round i a body vars shares =>
    rounds (body.build waits V) limit round i a body ⟨vars, shares⟩ (.ofValue v)

/-- The value that user code of a continuation makes of a value. -/
def Closure.compute (waits : Bool) {Op : Type} (code : Closure Op) (v : Value Ground) :
    Act (Value Ground) :=
  match code with
  | .value x result vars => do
    return .of (.ground .val) (← result.eval waits ((x, .ofValue v) :: vars))
  | _ => .done (.of (.ground .val) (.ofValue v))

/-- The meaning of script code. -/
def meaning (waits : Bool) : Meaning signature where
  build := Closure.build waits forkJoin
  compute := Closure.compute waits
  act action := do return .of (.ground .val) (← action.body.eval waits action.vars)

end FiberPrograms.Script
