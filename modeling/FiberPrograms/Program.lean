import FiberPrograms.Tree
import FiberPrograms.Value

/-!
# Programs and their combinators

Programs are trees whose continuations are those of the combinators below, besides the ones that
a user names. Every continuation says at which type it takes its value. The values of a
sequence are gathered newest first and turned round once at the end.

## Main definitions

* `Cont`, `Program`: the continuations of the combinators, and programs built with them
* `Program.bind`, `map`, `next`, `zip`, `sequence`: the combinators
* `Cont.resume`: the program that a continuation makes of a value
-/

namespace FiberPrograms

/-- Continuations over user code named by `F`. -/
inductive Cont (B : Type) [Universe B] (Op F : Type) where
  /-- User code that makes a program of the value. -/
  | bind (arg : Ty B) (code : F)
  /-- User code that makes a value of the value. -/
  | map (arg : Ty B) (code : F)
  /-- Forgets the value and goes on with a program. -/
  | next (arg : Ty B) (program : Tree (Value B) Op (Cont B Op F))
  /-- Runs another program and pairs the values. -/
  | zip (left right : Ty B) (other : Tree (Value B) Op (Cont B Op F))
  /-- Pairs the value with an earlier one. -/
  | pairWith (left right : Ty B) (earlier : left.El)
  /-- Runs the next program of a sequence, given what has been gathered so far. -/
  | gather (item : Ty B) (program : Tree (Value B) Op (Cont B Op F))
  /-- Adds the value to what has been gathered. -/
  | push (item : Ty B) (gathered : List item.El)
  /-- Turns what has been gathered into a list. -/
  | collect (item : Ty B)

/-- Programs over operations `Op` and user code named by `F`. -/
abbrev Program (B : Type) [Universe B] (Op F : Type) : Type :=
  Tree (Value B) Op (Cont B Op F)

namespace Program

variable {B : Type} [Universe B] {Op F : Type}

/-- The program that yields a value. -/
def ofValue (τ : Ty B) (a : τ.El) : Program B Op F :=
  .ret (.of τ a)

/-- The program that performs one operation. -/
def ofInstr (op : Op) : Program B Op F :=
  .instr op

/-- Run a program yielding `arg`, then the program that `code` makes of its value. -/
def bind (arg : Ty B) (program : Program B Op F) (code : F) : Program B Op F :=
  .andThen program (.bind arg code)

/-- Run a program yielding `arg` and turn its value into another one by `code`. -/
def map (arg : Ty B) (program : Program B Op F) (code : F) : Program B Op F :=
  .andThen program (.map arg code)

/-- Run a program yielding `arg` for what it does, then run `after`. -/
def next (arg : Ty B) (program after : Program B Op F) : Program B Op F :=
  .andThen program (.next arg after)

/-- Run two programs one after the other and pair their values. -/
def zip (left right : Ty B) (first second : Program B Op F) : Program B Op F :=
  .andThen first (.zip left right second)

/-- Run programs that all yield `item` one after the other and list their values. -/
def sequence (item : Ty B) (programs : List (Program B Op F)) : Program B Op F :=
  .andThen
    (programs.foldl (fun gathered program => .andThen gathered (.gather item program))
      (ofValue (.gathered item) ([] : List item.El)))
    (.collect item)

end Program

namespace Cont

variable {B : Type} [Universe B] {Op F : Type} {m : Type → Type}

/-- The program that a continuation makes of a value, given what user code stands for: `build`
makes a program of a value, `compute` a value. A value of the wrong type fails before any of
that is looked at. -/
def resume [Monad m] (build : F → Value B → m (Except Fault (Program B Op F)))
    (compute : F → Value B → m (Except Fault (Value B))) :
    Cont B Op F → Value B → m (Except Fault (Program B Op F))
  | bind arg code, v =>
    match v.check arg with
    | .error fault => pure (.error fault)
    | .ok v => build code v
  | map arg code, v =>
    match v.check arg with
    | .error fault => pure (.error fault)
    | .ok v => do return (← compute code v).map .ret
  | next arg program, v => pure ((v.check arg).map fun _ => program)
  | zip left right other, v =>
    pure ((v.cast left).map fun a => .andThen other (.pairWith left right a))
  | pairWith left right earlier, v =>
    pure ((v.cast right).map fun b => Program.ofValue (.pair left right) (earlier, b))
  | gather item program, v =>
    pure ((v.cast (.gathered item)).map fun gathered => .andThen program (.push item gathered))
  | push item gathered, v =>
    pure ((v.cast item).map fun a => Program.ofValue (.gathered item) (a :: gathered))
  | collect item, v =>
    pure ((v.cast (.gathered item)).map fun gathered =>
      Program.ofValue (.list item) (List.reverse gathered))

end Cont

end FiberPrograms
