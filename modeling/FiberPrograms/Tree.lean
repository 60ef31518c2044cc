/-!
# Program trees

A program is a description: it yields a value, or it performs one operation, or it runs a first
program and feeds the value to a continuation that names what comes next. Building a tree runs
nothing. Continuations are names, not functions; what a name stands for is said by whoever
interprets the tree, so a tree is finite data even when the program it describes has no end.

## Main definitions

* `Tree`: program trees over values `V`, operations `Op` and names of continuations `K`
* `Leaf`, `Tree.leftmost`: the leaf that is evaluated first, and how many continuations wait
  for it
-/

namespace FiberPrograms

/-- Program trees over values `V`, operations `Op` and names of continuations `K`. -/
inductive Tree (V Op K : Type) where
  /-- Yields a value and does nothing else. -/
  | ret (value : V)
  /-- Performs exactly one operation. -/
  | instr (op : Op)
  /-- Runs a program, then the one that `next` makes of its value. -/
  | andThen (first : Tree V Op K) (next : K)

/-- A tree that is evaluated in one go. -/
inductive Leaf (V Op : Type) where
  | ret (value : V)
  | instr (op : Op)

namespace Tree

variable {V Op K : Type}

/-- The leaf that is evaluated first, and how many continuations wait for it on top of the
`waiting` ones that wait for the whole tree. -/
def leftmostFrom (waiting : Nat) : Tree V Op K → Leaf V Op × Nat
  | ret value => (.ret value, waiting)
  | instr op => (.instr op, waiting)
  | andThen first _ => first.leftmostFrom (waiting + 1)

/-- The leaf that is evaluated first, and how many continuations of the tree wait for it. -/
def leftmost (tree : Tree V Op K) : Leaf V Op × Nat :=
  tree.leftmostFrom 0

theorem leftmostFrom_eq (waiting : Nat) (tree : Tree V Op K) :
    tree.leftmostFrom waiting = (tree.leftmost.1, tree.leftmost.2 + waiting) := by
  induction tree generalizing waiting with
  | ret value => simp [leftmost, leftmostFrom]
  | instr op => simp [leftmost, leftmostFrom]
  | andThen first next ih =>
    rw [leftmost, leftmostFrom, leftmostFrom, ih, ih 1]
    simp only [Prod.mk.injEq, true_and]
    omega

@[simp] theorem leftmost_ret (value : V) :
    (ret value : Tree V Op K).leftmost = (.ret value, 0) := rfl

@[simp] theorem leftmost_instr (op : Op) :
    (instr op : Tree V Op K).leftmost = (.instr op, 0) := rfl

/-- One more continuation leaves the first leaf as it is and waits for it too. -/
@[simp] theorem leftmost_andThen (first : Tree V Op K) (next : K) :
    (first.andThen next).leftmost = (first.leftmost.1, first.leftmost.2 + 1) := by
  rw [leftmost, leftmostFrom, leftmostFrom_eq]

end Tree

end FiberPrograms
