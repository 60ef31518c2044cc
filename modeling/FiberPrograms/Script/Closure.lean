import FiberPrograms.Interpreter
import FiberPrograms.Script.Syntax

/-!
# Closures, and the world that scripts see

The user code of a script's programs is made of closures: a form together with the variables and
the shared programs that were in sight where it stood. Actions see the variables only. All of it
is plain data, so that programs can be built, kept and run any number of times.

## Main definitions

* `Ground`: the ground types of script programs
* `Thunk`, `Closure`, `Scope`: actions, user code of continuations, and what it can see
* `World`, `Effect`: counters, the log and the running total, and the effects on them
* `signature`: scripts as user code
-/

namespace FiberPrograms.Script

/-- The ground types of script programs. -/
inductive Ground where
  /-- Script values. -/
  | val
  /-- Bare text, which no script program expects. -/
  | text
deriving DecidableEq

instance : Universe Ground where
  El
    | .val => Val
    | .text => String
  name
    | .val => "Val"
    | .text => "alloc::string::String"

/-- The script value that stands for an element of a type. -/
def Val.ofEl : (τ : Ty Ground) → τ.El → Val
  | .ground .val, v => v
  | .ground .text, s => .str s
  | .pair left right, (a, b) => .list [ofEl left a, ofEl right b]
  | .list item, as => .list (List.map (ofEl item) as)
  | .gathered item, as => .list (List.map (ofEl item) (List.reverse as))
  | .fiber _, id => .fiber id

/-- The script value that stands for a value. -/
def Val.ofValue (v : Value Ground) : Val :=
  Val.ofEl v.ty v.get

/-- Variables, the latest first. -/
abbrev Vars : Type := List (String × Val)

/-- An action: an expression and the variables that it sees. -/
structure Thunk where
  body : Expr
  vars : Vars

/-- User code of continuations, over programs with operations `Op`. -/
inductive Closure (Op : Type) where
  /-- Binds the value and puts a program together. -/
  | program (x : String) (body : Prog) (vars : Vars)
      (shares : List (String × Tree (Value Ground) Op (Cont Ground Op (Closure Op))))
  /-- Binds the value and evaluates an expression. -/
  | value (x : String) (result : Expr) (vars : Vars)
  /-- Turns the value into a script value. -/
  | toVal
  /-- Takes the value of the round before and puts the rest of a loop together. -/
  | loop (limit round : Nat) (i a : String) (body : Prog) (vars : Vars)
      (shares : List (String × Tree (Value Ground) Op (Cont Ground Op (Closure Op))))

/-- Shared programs, the latest first. -/
abbrev Shares (Op : Type) : Type := List (String × Program Ground Op (Closure Op))

/-- What a form can see: variables and shared programs. -/
structure Scope (Op : Type) where
  vars : Vars
  shares : Shares Op

/-- The scope with one more variable. -/
def Scope.bind {Op : Type} (scope : Scope Op) (x : String) (v : Val) : Scope Op :=
  { scope with vars := (x, v) :: scope.vars }

/-- What scripts do to the world outside. -/
inductive Effect where
  /-- Count up a counter; answers the new count. -/
  | bump (counter : String)
  /-- Append a value to the log. -/
  | append (v : Val)
  /-- Put down a line. -/
  | line (text : String)
  /-- Add to the running total; answers the new total. -/
  | add (n : Int64)

/-- What the world answers. -/
def Effect.Reply : Effect → Type
  | bump _ => Int64
  | append _ => Unit
  | line _ => Unit
  | add _ => Int64

/-- The world outside: counters, the log, the lines put down beside the running total, and the
total itself. -/
structure World where
  counters : List (String × Int64) := []
  log : Array Val := #[]
  lines : Array String := #[]
  total : Int64 := 0

/-- The counters with one of them counted up, and its new count. -/
def countUp (counter : String) : List (String × Int64) → Int64 × List (String × Int64)
  | [] => (1, [(counter, 1)])
  | (name, n) :: rest =>
    if name == counter then (n + 1, (name, n + 1) :: rest)
    else
      let (count, rest) := countUp counter rest
      (count, (name, n) :: rest)

/-- What an effect does to the world, and what the world answers. -/
def World.effect : (e : Effect) → World → e.Reply × World
  | .bump counter, world =>
    let (count, counters) := countUp counter world.counters
    (count, { world with counters := counters })
  | .append v, world => ((), { world with log := world.log.push v })
  | .line text, world => ((), { world with lines := world.lines.push text })
  | .add n, world => (world.total + n, { world with total := world.total + n })

/-- Scripts as user code of fork/join programs. -/
def signature : Signature where
  Base := Ground
  Code := Closure (ForkJoin Ground Thunk)
  Action := Thunk
  Effect := Effect
  Reply := Effect.Reply

end FiberPrograms.Script
