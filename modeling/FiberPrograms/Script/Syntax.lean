import FiberPrograms.ForkJoin

/-!
# Scripts

A script describes a fork/join program, or a program over a running total, in a small language
of its own. Expressions are evaluated; program forms say how a program is put together out of
expressions and smaller forms.

## Main definitions

* `Val`: the values that expressions evaluate to
* `TallyOp`: the operations on a running total
* `Expr`, `Prog`: expressions and program forms
-/

namespace FiberPrograms.Script

/-- The values that expressions evaluate to. -/
inductive Val where
  | unit
  | bool (b : Bool)
  | int (n : Int64)
  | str (s : String)
  | list (items : List Val)
  | fiber (id : FiberId)
deriving Inhabited

mutual

/-- Whether two values are of the same kind and have the same content. -/
def Val.same : Val → Val → Bool
  | .unit, .unit => true
  | .bool a, .bool b => a == b
  | .int a, .int b => a == b
  | .str a, .str b => a == b
  | .list as, .list bs => Val.sameAll as bs
  | .fiber a, .fiber b => a == b
  | _, _ => false

/-- Whether two lists of values have the same items in the same order. -/
def Val.sameAll : List Val → List Val → Bool
  | [], [] => true
  | a :: as, b :: bs => a.same b && Val.sameAll as bs
  | _, _ => false

end

/-- The operations on a running total. -/
inductive TallyOp where
  /-- Add to the total and yield it. -/
  | add (n : Int64)
  /-- Yield the total. -/
  | read
  /-- Fail with a message. -/
  | fail (words : String)
  /-- Yield something that is no script value. -/
  | bad

/-- Arithmetic on integers, which wraps around. -/
inductive Arith where
  | add
  | sub
  | mul

/-- The result of an arithmetic operation. -/
def Arith.apply : Arith → Int64 → Int64 → Int64
  | add, a, b => a + b
  | sub, a, b => a - b
  | mul, a, b => a * b

mutual

/-- Expressions. Operands are evaluated from left to right. -/
inductive Expr where
  | lit (v : Val)
  | list (items : List Expr)
  | var (x : String)
  | arith (op : Arith) (left right : Expr)
  | lt (left right : Expr)
  | eq (left right : Expr)
  | not (e : Expr)
  /-- The strings and integers of a list, run together. -/
  | cat (e : Expr)
  /-- The number of items of a list, or of characters of a string. -/
  | len (e : Expr)
  /-- The item of a list at a position. -/
  | nth (items position : Expr)
  /-- The list with one more item at its end. -/
  | push (items item : Expr)
  | ite (condition yes no : Expr)
  /-- The last item of a list, or nothing if it is empty. -/
  | last (e : Expr)
  | letIn (e : Expr) (x : String) (body : Expr)
  /-- Count up a counter and yield the new count. -/
  | bump (counter : String)
  /-- Append a value to the log and yield it. -/
  | log (e : Expr)
  | sleep
  /-- Fail with a message that is computed. -/
  | raise (e : Expr)
  /-- Fail with a fixed message. -/
  | raiseLiteral (words : String)
  /-- Fail with something that is no message. -/
  | raiseOther (code : Int64)
  /-- The value of a fiber. -/
  | read (e : Expr)
  /-- A fiber whose every reader evaluates the action anew. -/
  | recomputing (action : Expr)
  /-- A fiber whose action is handed to the spawner now. -/
  | memoizing (action : Expr)
  /-- The value of a fork/join program that is run on the spot. -/
  | interpret (program : Prog)

/-- Program forms. Whatever is not inside a continuation or an action is evaluated while the
program is put together. -/
inductive Prog where
  | ret (e : Expr)
  | bind (first : Prog) (x : String) (rest : Prog)
  | map (first : Prog) (x : String) (result : Expr)
  | next (first rest : Prog)
  | zip (left right : Prog)
  | seq (items : List Prog)
  | ite (condition : Expr) (yes no : Prog)
  | letIn (e : Expr) (x : String) (body : Prog)
  /-- Put a program together once, to be used under a name. -/
  | share (program : Prog) (x : String) (body : Prog)
  | use (x : String)
  | mapTimes (n : Nat) (first : Prog) (x : String) (result : Expr)
  | bindTimes (n : Nat) (first : Prog) (x : String) (rest : Prog)
  | nextTimes (n : Nat) (program : Prog)
  /-- A sequence of one program for every number below `n`. -/
  | seqTimes (n : Nat) (x : String) (body : Prog)
  /-- A round for every number below `n`, each given the value of the round before. -/
  | loop (n : Nat) (i a : String) (init : Expr) (body : Prog)
  | fork (place : Place) (action : Expr)
  | forkThen (place : Place) (action : Expr) (x : String) (rest : Prog)
  | forkZip (left right : Place × Expr) (x : String) (rest : Prog)
  | forkAll (forks : List (Place × Expr)) (x : String) (rest : Prog)
  | join (e : Expr)
  | joinAll (e : Expr)
  | tally (op : TallyOp)

end

end FiberPrograms.Script
