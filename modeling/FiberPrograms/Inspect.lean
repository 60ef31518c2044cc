import FiberPrograms.ForkJoin
import FiberPrograms.Machine
import FiberPrograms.Program

/-!
# Programs and machines, shown for diagnosis

A program is shown by the leaf that is evaluated first and by the number of continuations that
wait for it. Continuations are never shown, let alone called. A machine is shown by the program
it stands at and by the number of its waiting continuations.

## Main definitions

* `Leaf.shape`, `Tree.shape`, `Tree.programShape`: trees
* `Machine.shape`: machines
-/

namespace FiberPrograms

variable {V Op K : Type}

/-- How a leaf is shown. -/
def Leaf.shape (opShape : Op → Shape) : Leaf V Op → Shape
  | .ret _ => .word "Return(..)"
  | .instr op => .tuple "Instruction" (opShape op)

/-- How a tree is shown. -/
def Tree.shape (opShape : Op → Shape) (tree : Tree V Op K) : Shape :=
  match tree.leftmost with
  | (leaf, 0) => leaf.shape opShape
  | (leaf, depth) =>
    .record "AndThen"
      (.field "depth" (.word (toString depth)) (.field "first" (leaf.shape opShape) .open))

/-- How a tree is shown where a program is asked for. -/
def Tree.programShape (opShape : Op → Shape) (tree : Tree V Op K) : Shape :=
  .tuple "Program" (tree.shape opShape)

/-- How a machine is shown. -/
def Machine.shape (opShape : Op → Shape) (M : Machine V Op K) : Shape :=
  let current : Shape :=
    match M.current with
    | none => .word "None"
    | some tree => .tuple "Some" (tree.shape opShape)
  .record "Vm" (.field "current" current (.field "depth" (.word (toString M.depth)) .closed))

end FiberPrograms
