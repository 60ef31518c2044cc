import FiberPrograms.Demo
import FiberPrograms.Proofs.Evaluation

/-!
# What is shown of a machine, and what it does next

A program is shown by its first leaf and by the number of continuations that wait for it, and
nothing is run for that. The machine comes to the same leaf on its own way: with each step it goes
into the first program of a node, and leaves a continuation waiting. So whoever has read what is
shown knows how many steps ask for nothing, and what the step after them asks for.

## Main definitions

* `Leaf.shown`, `Leaf.shapeUnder`: what is shown of a leaf, and of the continuations that wait
* `Tree.stage`: where a machine stands on its way to the first leaf
* `Leaf.evaluate`: what evaluating a leaf comes to
* `Wrapping`, `Program.wrap`: one more combinator around a program

## Main results

* `Leaf.inline_shapeUnder_inj`: from what is written, the number and the leaf can be read off
* `Tree.step_stage`: on its way to the first leaf the machine asks for nothing
* `Program.shown_foretells_steps`: what is shown is what is done next
-/

namespace FiberPrograms

variable {V Op K : Type}

/-! ## What is shown -/

namespace Leaf

/-- What is shown of a leaf: nothing of its value, or what is shown of its operation. -/
def shown (opShape : Op → Shape) : Leaf V Op → Leaf Unit Shape
  | ret _ => ret ()
  | instr op => instr (opShape op)

/-- How a leaf is shown for which a number of continuations wait. -/
def shapeUnder (first : Leaf Unit Shape) : (depth : Nat) → Shape
  | 0 => first.shape id
  | depth + 1 =>
    .record "AndThen"
      (.field "depth" (.word (toString (depth + 1))) (.field "first" (first.shape id) .open))

/-- Whether a leaf is written as another one would be. -/
def ShownAs (opShape : Op → Shape) (name : FiberId → String) : Leaf V Op → Leaf Unit Shape → Prop
  | ret _, ret _ => True
  | instr op, instr shape => (opShape op).inline name = shape.inline name
  | _, _ => False

theorem shape_shown (opShape : Op → Shape) (leaf : Leaf V Op) :
    (leaf.shown opShape).shape id = leaf.shape opShape := by
  cases leaf <;> rfl

end Leaf

theorem Tree.shape_eq_shapeUnder (opShape : Op → Shape) (tree : Tree V Op K) :
    tree.shape opShape = (tree.leftmost.1.shown opShape).shapeUnder tree.leftmost.2 := by
  rw [shape]
  rcases tree.leftmost with ⟨leaf, depth | depth⟩ <;>
    simp only [Leaf.shapeUnder, Leaf.shape_shown]

/-- Where two lists go on after a mark, and have no mark before it, they go on alike. -/
theorem eq_and_eq_of_append_cons_eq {α : Type} {mark : α} {l l' rest rest' : List α}
    (hl : mark ∉ l) (hl' : mark ∉ l') (h : l ++ mark :: rest = l' ++ mark :: rest') :
    l = l' ∧ rest = rest' := by
  induction l generalizing l' with
  | nil =>
    cases l' with
    | nil => exact ⟨rfl, (List.cons.inj h).2⟩
    | cons a l' => exact absurd ((List.cons.inj h).1 ▸ List.mem_cons_self) hl'
  | cons a l ih =>
    cases l' with
    | nil => exact absurd ((List.cons.inj h).1 ▸ List.mem_cons_self) hl
    | cons a' l' =>
      obtain ⟨rfl, hrest⟩ := List.cons.inj h
      obtain ⟨rfl, rfl⟩ := ih (fun hmem => hl (List.mem_cons_of_mem _ hmem))
        (fun hmem => hl' (List.mem_cons_of_mem _ hmem)) hrest
      exact ⟨rfl, rfl⟩

/-- No two numbers are written alike. -/
theorem eq_of_toString_eq {n n' : Nat} (h : toString n = toString n') : n = n' := by
  rw [Nat.toString_eq_ofList_toDigits, Nat.toString_eq_ofList_toDigits, String.ofList_inj] at h
  have hread := congrArg (fun digits => Nat.ofDigitChars 10 digits 0) h
  simpa using hread

/-- Digits have no comma among them. -/
theorem comma_notMem_toString (n : Nat) : ',' ∉ (toString n).toList := by
  rw [Nat.toString_eq_ofList_toDigits, String.toList_ofList]
  intro hmem
  have hdigit := Nat.isDigit_of_mem_toDigits (by decide) (by decide) hmem
  exact absurd hdigit (by decide)

namespace Leaf

variable {name : FiberId → String} {first first' : Leaf Unit Shape} {depth depth' : Nat}

theorem inline_shapeUnder_succ (name : FiberId → String) (first : Leaf Unit Shape) (depth : Nat) :
    (first.shapeUnder (depth + 1)).inline name =
      "AndThen \x7b depth: " ++ toString (depth + 1) ++ ", first: " ++
        (first.shape id).inline name ++ ", .. \x7d" := by
  simp only [shapeUnder, Shape.inline, Shape.Fields.inline, ← String.toList_inj,
    String.toList_append, List.append_assoc]
  rfl

/-- A leaf is not written like one for which continuations wait. -/
theorem inline_shape_ne_shapeUnder_succ :
    (first.shape id).inline name ≠ (first'.shapeUnder (depth + 1)).inline name := by
  intro h
  rw [inline_shapeUnder_succ] at h
  have h := congrArg String.toList h
  cases first <;> simp [shape, Shape.inline] at h

/-- From what is written, the number of waiting continuations and the first leaf can be read
off. -/
theorem inline_shapeUnder_inj
    (h : (first.shapeUnder depth).inline name = (first'.shapeUnder depth').inline name) :
    depth = depth' ∧ (first.shape id).inline name = (first'.shape id).inline name := by
  rcases depth with - | depth <;> rcases depth' with - | depth'
  · exact ⟨rfl, h⟩
  · exact absurd h inline_shape_ne_shapeUnder_succ
  · exact absurd h.symm inline_shape_ne_shapeUnder_succ
  · simp only [inline_shapeUnder_succ, ← String.toList_inj, String.toList_append,
      List.append_assoc, List.append_cancel_left_eq] at h
    obtain ⟨hdepth, hfirst⟩ := eq_and_eq_of_append_cons_eq (comma_notMem_toString (depth + 1))
      (comma_notMem_toString (depth' + 1)) h
    refine ⟨eq_of_toString_eq (String.toList_inj.mp hdepth), String.toList_inj.mp ?_⟩
    simpa using hfirst

/-- From what is written of a leaf, its kind can be read off, and what is written of its
operation. -/
theorem shownAs_of_inline_eq {opShape : Op → Shape} {leaf : Leaf V Op}
    (h : ((leaf.shown opShape).shape id).inline name = (first.shape id).inline name) :
    leaf.ShownAs opShape name first := by
  replace h := congrArg String.toList h
  cases leaf <;> cases first <;> simp [shown, shape, Shape.inline] at h
  · trivial
  · exact String.toList_inj.mp h

/-- Leaves that are written alike are so too with continuations waiting for them. -/
theorem inline_shapeUnder_congr
    (h : (first.shape id).inline name = (first'.shape id).inline name) (depth : Nat) :
    (first.shapeUnder depth).inline name = (first'.shapeUnder depth).inline name := by
  cases depth with
  | zero => exact h
  | succ depth => rw [inline_shapeUnder_succ, inline_shapeUnder_succ, h]

end Leaf

namespace Tree

/-- The same tree with other continuations. -/
def rewire {K' : Type} (f : K → K') : Tree V Op K → Tree V Op K'
  | ret value => ret value
  | instr op => instr op
  | andThen first next => andThen (first.rewire f) (f next)

theorem leftmost_rewire {K' : Type} (f : K → K') (tree : Tree V Op K) :
    (tree.rewire f).leftmost = tree.leftmost := by
  induction tree with
  | ret value => rfl
  | instr op => rfl
  | andThen first next ih => rw [rewire, leftmost_andThen, ih, leftmost_andThen]

/-- Whatever the continuations are, the same is shown. -/
theorem shape_rewire {K' : Type} (opShape : Op → Shape) (f : K → K') (tree : Tree V Op K) :
    (tree.rewire f).shape opShape = tree.shape opShape := by
  simp only [shape_eq_shapeUnder, leftmost_rewire]

/-! ## What is done next -/

/-- Where the machine stands that has gone a number of steps from a tree towards its first leaf. -/
def stage : Tree V Op K → (pending : List K) → (steps : Nat) → Machine V Op K
  | andThen first next, pending, steps + 1 => first.stage (next :: pending) steps
  | tree, pending, _ => tree.under pending

@[simp] theorem stage_zero (tree : Tree V Op K) (pending : List K) :
    tree.stage pending 0 = tree.under pending := by
  cases tree <;> rfl

/-- On its way to the first leaf the machine asks for nothing. -/
theorem step_stage {m : Type → Type} [Monad m] (h : Handler m V Op K) {tree : Tree V Op K}
    {pending : List K} {steps : Nat} (hsteps : steps < tree.leftmost.2) :
    (tree.stage pending steps).step h = pure (.ok .more, tree.stage pending (steps + 1)) := by
  induction tree generalizing pending steps with
  | ret value => exact absurd hsteps (Nat.not_lt_zero _)
  | instr op => exact absurd hsteps (Nat.not_lt_zero _)
  | andThen first next ih =>
    cases steps with
    | zero => simp only [stage_zero, stage, Machine.step_andThen]
    | succ steps =>
      rw [leftmost_andThen] at hsteps
      exact ih (Nat.lt_of_succ_lt_succ hsteps)

/-- With each step one continuation more is waiting. -/
theorem depth_stage {tree : Tree V Op K} {pending : List K} {steps : Nat}
    (hsteps : steps ≤ tree.leftmost.2) :
    (tree.stage pending steps).depth = pending.length + steps := by
  induction tree generalizing pending steps with
  | ret value => rw [Nat.le_zero.mp hsteps, stage_zero]; rfl
  | instr op => rw [Nat.le_zero.mp hsteps, stage_zero]; rfl
  | andThen first next ih =>
    cases steps with
    | zero => rw [stage_zero]; rfl
    | succ steps =>
      rw [leftmost_andThen] at hsteps
      rw [stage, ih (Nat.le_of_succ_le_succ hsteps), List.length_cons]
      omega

/-- With each step one continuation less is on the way to the first leaf, which stays the same. -/
theorem exists_current_stage {tree : Tree V Op K} (pending : List K) {steps : Nat}
    (hsteps : steps ≤ tree.leftmost.2) :
    ∃ node, (tree.stage pending steps).current = some node ∧
      node.leftmost = (tree.leftmost.1, tree.leftmost.2 - steps) := by
  induction tree generalizing pending steps with
  | ret value => exact ⟨.ret value, by rw [Nat.le_zero.mp hsteps, stage_zero]; rfl, by simp⟩
  | instr op => exact ⟨.instr op, by rw [Nat.le_zero.mp hsteps, stage_zero]; rfl, by simp⟩
  | andThen first next ih =>
    cases steps with
    | zero => exact ⟨first.andThen next, by rw [stage_zero]; rfl, rfl⟩
    | succ steps =>
      rw [leftmost_andThen] at hsteps ⊢
      obtain ⟨node, hcurrent, hleftmost⟩ := ih _ (Nat.le_of_succ_le_succ hsteps)
      exact ⟨node, hcurrent, by rw [hleftmost, Nat.add_sub_add_right]⟩

end Tree

/-- The tree that is nothing but a leaf. -/
def Leaf.tree : Leaf V Op → Tree V Op K
  | ret value => .ret value
  | instr op => .instr op

theorem Tree.eq_of_leftmost_eq {leaf : Leaf V Op} {node : Tree V Op K}
    (h : node.leftmost = (leaf, 0)) : node = leaf.tree := by
  cases node with
  | ret value => cases h; rfl
  | instr op => cases h; rfl
  | andThen first next =>
    rw [leftmost_andThen] at h
    exact absurd (Prod.mk.inj h).2 (Nat.succ_ne_zero _)

/-- What evaluating a leaf comes to: a value is reported, an operation is performed. -/
def Leaf.evaluate {m : Type → Type} [Monad m] (h : Handler m V Op K) (outermost : Bool)
    (depth : Nat) : Leaf V Op → m (Except Fault V)
  | ret value => do return (← h.onReturn outermost).map fun _ => value
  | instr op => h.handle depth op

namespace Machine

variable {m : Type → Type} [Monad m]

/-- What becomes of a machine whose leaf has been evaluated. -/
def conclude (h : Handler m V Op K) (M : Machine V Op K) :
    Except Fault V → m (Except Fault (Progress V) × Machine V Op K)
  | .error fault => pure (.error fault, M.halt)
  | .ok value => M.deliver h value

/-- At a leaf, a step of the machine is the evaluation of that leaf. -/
theorem step_leaf [LawfulMonad m] (h : Handler m V Op K) (leaf : Leaf V Op) (pending : List K) :
    ((leaf.tree : Tree V Op K).under pending).step h =
      leaf.evaluate h pending.isEmpty pending.length >>=
        (((leaf.tree : Tree V Op K).under pending).conclude h) := by
  cases leaf with
  | ret value =>
    simp only [Leaf.tree, Leaf.evaluate, step_ret, bind_assoc, pure_bind]
    congr 1
    funext told
    cases told <;> rfl
  | instr op =>
    rw [Leaf.tree, step_instr]
    rfl

/-- What is written of a machine that has something to evaluate. -/
theorem inline_shape_of_current (opShape : Op → Shape) (name : FiberId → String)
    {M : Machine V Op K} {node : Tree V Op K} (hM : M.current = some node) :
    (M.shape opShape).inline name =
      "Vm \x7b current: Some(" ++ (node.shape opShape).inline name ++ "), depth: " ++
        toString M.depth ++ " \x7d" := by
  simp only [shape, hM, Shape.inline, Shape.Fields.inline, ← String.toList_inj,
    String.toList_append, List.append_assoc]
  rfl

end Machine

/-! ## Combinators around a program -/

section Programs

variable {B : Type} [Universe B] {F : Type}

/-- One more combinator around a program. -/
inductive Wrapping (B : Type) [Universe B] (Op F : Type) where
  | bind (arg : Ty B) (code : F)
  | map (arg : Ty B) (code : F)
  | next (arg : Ty B) (after : Program B Op F)
  | zip (left right : Ty B) (second : Program B Op F)

namespace Program

/-- Put one more combinator around a program. -/
def wrap (program : Program B Op F) : Wrapping B Op F → Program B Op F
  | .bind arg code => Program.bind arg program code
  | .map arg code => Program.map arg program code
  | .next arg after => Program.next arg program after
  | .zip left right second => Program.zip left right program second

theorem leftmost_wrap (program : Program B Op F) (wrapping : Wrapping B Op F) :
    (program.wrap wrapping).leftmost = (program.leftmost.1, program.leftmost.2 + 1) := by
  cases wrapping <;> exact Tree.leftmost_andThen _ _

theorem leftmost_foldl_wrap (program : Program B Op F) (wrappings : List (Wrapping B Op F)) :
    (wrappings.foldl wrap program).leftmost =
      (program.leftmost.1, program.leftmost.2 + wrappings.length) := by
  induction wrappings generalizing program with
  | nil => rfl
  | cons wrapping wrappings ih =>
    rw [List.foldl_cons, ih, leftmost_wrap, List.length_cons, Nat.add_assoc, Nat.add_comm 1]

/-- **What is shown is what is done next.** Suppose that a machine stands at a program that is
written as a certain first leaf with a certain number of continuations waiting for it, none if the
leaf itself is written. Then so many steps ask for nothing at all, whatever the handler does and in
whatever monad: no value is reported, no operation performed and no continuation called. Each of
them has one continuation more waiting and one less written before the same first leaf. The step
after them evaluates a leaf that is written so: a value is reported, or an operation performed that
is written as that of the leaf. Combinators around the program add their number to what is written,
and leave the first leaf as it is. And the continuations may be any others: the same is shown. -/
theorem shown_foretells_steps {m : Type → Type} [Monad m] [LawfulMonad m]
    (h : Handler m (Value B) Op (Cont B Op F)) (opShape : Op → Shape) (name : FiberId → String)
    {M : Machine (Value B) Op (Cont B Op F)} {program : Program B Op F}
    (hM : M.current = some program) {first : Leaf Unit Shape} {depth : Nat}
    (hshown : (program.shape opShape).inline name = (first.shapeUnder depth).inline name) :
    (∃ (leaf : Leaf (Value B) Op) (stages : Nat → Machine (Value B) Op (Cont B Op F)),
      leaf.ShownAs opShape name first ∧ stages 0 = M ∧
      (∀ steps < depth, (stages steps).step h = pure (.ok .more, stages (steps + 1))) ∧
      (∀ steps ≤ depth, (stages steps).depth = M.depth + steps ∧
        (∃ node, (stages steps).current = some node ∧
          (node.shape opShape).inline name = (first.shapeUnder (depth - steps)).inline name) ∧
        ((stages steps).shape opShape).inline name =
          "Vm \x7b current: Some(" ++ (first.shapeUnder (depth - steps)).inline name ++
            "), depth: " ++ toString (M.depth + steps) ++ " \x7d") ∧
      (stages depth).step h =
        leaf.evaluate h (stages depth).pending.isEmpty (stages depth).depth >>=
          (stages depth).conclude h) ∧
    (∀ wrappings : List (Wrapping B Op F),
      ((wrappings.foldl wrap program).shape opShape).inline name =
        (first.shapeUnder (depth + wrappings.length)).inline name) ∧
    ∀ (K : Type) (f : Cont B Op F → K),
      (program.rewire f).shape opShape = program.shape opShape := by
  -- What is written is read back first; the rest is about the leaf and the number themselves.
  rw [Tree.shape_eq_shapeUnder] at hshown
  obtain ⟨rfl, hfirst⟩ := Leaf.inline_shapeUnder_inj hshown
  have hwritten {node : Program B Op F} {waiting : Nat}
      (hnode : node.leftmost = (program.leftmost.1, waiting)) :
      (node.shape opShape).inline name = (first.shapeUnder waiting).inline name := by
    rw [Tree.shape_eq_shapeUnder, hnode]
    exact Leaf.inline_shapeUnder_congr hfirst waiting
  have hdepth {steps : Nat} (hsteps : steps ≤ program.leftmost.2) :
      (program.stage M.pending steps).depth = M.depth + steps := by
    rw [Tree.depth_stage hsteps, M.depth_eq]
  refine ⟨⟨program.leftmost.1, program.stage M.pending, Leaf.shownAs_of_inline_eq hfirst, ?_,
    fun steps hsteps => Tree.step_stage h hsteps, fun steps hsteps => ?_, ?_⟩,
    fun wrappings => hwritten (leftmost_foldl_wrap program wrappings),
    fun K f => Tree.shape_rewire opShape f program⟩
  · rw [Tree.stage_zero, ← Machine.eq_under hM]
  · obtain ⟨node, hcurrent, hleftmost⟩ := Tree.exists_current_stage M.pending hsteps
    refine ⟨hdepth hsteps, ⟨node, hcurrent, hwritten hleftmost⟩, ?_⟩
    rw [Machine.inline_shape_of_current opShape name hcurrent, hwritten hleftmost, hdepth hsteps]
  · obtain ⟨node, hcurrent, hleftmost⟩ :=
      Tree.exists_current_stage M.pending (Nat.le_refl program.leftmost.2)
    rw [Nat.sub_self] at hleftmost
    obtain rfl := Tree.eq_of_leftmost_eq hleftmost
    rw [Machine.eq_under hcurrent]
    exact Machine.step_leaf h _ _

/-- The sum of two numbers, forking the first of them. -/
theorem shown_foretells_steps_sum :
    ((Demo.sum {}).shape ForkJoin.shape).inline (fun _ => "") =
        "AndThen \x7b depth: 1, first: Instruction(ForkAt \x7b location: Here, .. \x7d), .. \x7d" ∧
      ∃ stages : Nat → Demo.signature.Machine, stages 0 = .start (Demo.sum {}) ∧
        (stages 0).step ((Demo.runtime .inline none).handler Demo.number) =
          pure (.ok .more, stages 1) ∧
        (stages 1).depth = 1 ∧
        ((stages 1).shape ForkJoin.shape).inline (fun _ => "") = "Vm \x7b current: " ++
          "Some(Instruction(ForkAt \x7b location: Here, .. \x7d)), depth: 1 \x7d" := by
  have hshown : ((Demo.sum {}).shape ForkJoin.shape).inline (fun _ => "") =
      ((Leaf.instr (.record "ForkAt" (.field "location" (.word "Here") .open))).shapeUnder 1).inline
        (fun _ => "") := by
    decide
  obtain ⟨⟨leaf, stages, -, hstart, hsteps, hstages, -⟩, -⟩ :=
    shown_foretells_steps ((Demo.runtime .inline none).handler Demo.number) ForkJoin.shape
      (fun _ => "") (M := .start (Demo.sum {})) rfl hshown
  obtain ⟨hdepth, -, hwritten⟩ := hstages 1 (Nat.le_refl 1)
  exact ⟨by decide, stages, hstart, hsteps 0 Nat.zero_lt_one, hdepth,
    hwritten.trans (by decide)⟩

end Program

end Programs

end FiberPrograms
