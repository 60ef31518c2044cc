import FiberPrograms.Proofs.Evaluation

/-!
# The calls of a handler

Two runs can end alike and still have gone about it in different ways. A handler can be made to
keep a record of its calls, so that the record is part of the state in which a run ends; what
holds of every handler then holds of the record too.

## Main definitions

* `Call`: a call of a handler
* `Handler.recordedIf`, `Handler.recorded`: a handler that keeps a record of some, or all, of its
  calls

## Main results

* `Machine.run_refines_evalUnder`: the machine makes the calls that the evaluator makes, in the
  same order, and ends as it does, or neither ends
-/

namespace FiberPrograms

variable {V Op K σ : Type}

/-- A call of a handler. -/
inductive Call (V Op K : Type) where
  | handle (op : Op)
  | onReturn (outermost : Bool)
  | resume (next : K) (value : V)

namespace Handler

/-- Put a call on the record once it has answered, if it is one of those to be seen. -/
def noting {α : Type} (seen : Call V Op K → Bool) (call : Call V Op K) (x : StateM σ α) :
    StateM (σ × List (Call V Op K)) α :=
  fun (s, calls) =>
    let (a, s') := runFrom s x
    (a, s', if seen call then calls ++ [call] else calls)

theorem runFrom_noting {α : Type} (seen : Call V Op K → Bool) (call : Call V Op K)
    (x : StateM σ α) (s : σ) (calls : List (Call V Op K)) :
    runFrom (s, calls) (noting seen call x) =
      ((runFrom s x).1, (runFrom s x).2, if seen call then calls ++ [call] else calls) := rfl

/-- The same handler, keeping a record of the calls to be seen, the latest last. -/
def recordedIf (h : Handler (StateM σ) V Op K) (seen : Call V Op K → Bool) :
    Handler (StateM (σ × List (Call V Op K))) V Op K where
  handle depth op := noting seen (.handle op) (h.handle depth op)
  onReturn outermost := noting seen (.onReturn outermost) (h.onReturn outermost)
  resume next v := noting seen (.resume next v) (h.resume next v)
  accept := h.accept

/-- The same handler, keeping a record of all its calls, the latest last. -/
def recorded (h : Handler (StateM σ) V Op K) :
    Handler (StateM (σ × List (Call V Op K))) V Op K :=
  h.recordedIf fun _ => true

end Handler

namespace Machine

variable {h : Handler (StateM σ) V Op K} {tree : Tree V Op K} {pending : List K} {s s' : σ}

/-- However it is split into legs, a run of the machine ends as the evaluator does. -/
theorem exists_runInLegs_eq_some_iff (legs : List Nat) {outcome : Except Fault V} :
    (∃ fuel M', runFrom s ((tree.under pending).runInLegs h (legs ++ [fuel])) =
      ((some outcome, M'), s')) ↔
    ∃ fuel, runFrom s (tree.evalUnder h fuel pending) = (some outcome, s') := by
  rw [Tree.exists_evalUnder_eq_some_iff]
  simp only [runInLegs_eq_run, exists_run_eq_some_iff]
  constructor
  · rintro ⟨fuel, n, -, hends⟩
    exact ⟨n, hends⟩
  · rintro ⟨n, hends⟩
    -- The last leg alone is long enough.
    refine ⟨n, n, ?_, hends⟩
    rw [List.foldr_append]
    induction legs with
    | nil => exact Nat.le_refl n
    | cons leg legs ih => exact Nat.le_trans ih (Nat.le_add_left _ _)

/-- However it is split into legs, a run of the machine does not end just if the evaluator does
not. -/
theorem forall_runInLegs_eq_none_iff (legs : List Nat) :
    (∀ fuel, (runFrom s ((tree.under pending).runInLegs h (legs ++ [fuel]))).1.1 = none) ↔
    ∀ fuel, (runFrom s (tree.evalUnder h fuel pending)).1 = none := by
  simp only [Option.eq_none_iff_forall_not_mem, Option.mem_def]
  constructor
  · intro hrun fuel outcome heval
    obtain ⟨fuel', M', hended⟩ := (exists_runInLegs_eq_some_iff legs).mpr
      ⟨fuel, Prod.ext heval rfl⟩
    exact hrun fuel' outcome (by rw [hended])
  · intro heval fuel outcome hrun
    obtain ⟨fuel', hended⟩ := (exists_runInLegs_eq_some_iff legs).mp
      ⟨fuel, _, Prod.ext (Prod.ext hrun rfl) rfl⟩
    exact heval fuel' outcome (by rw [hended])

/-- **The machine refines the evaluator.** From every tree under every stack of waiting
continuations, and however its steps are split into legs, the machine comes to the outcome and
the state to which the evaluator comes, having made the same calls in the same order; and one of
them does not end just if the other does not. -/
theorem run_refines_evalUnder (h : Handler (StateM σ) V Op K) (tree : Tree V Op K)
    (pending : List K) (legs : List Nat) (s : σ) :
    (∀ outcome s' calls,
      (∃ fuel M', runFrom (s, []) ((tree.under pending).runInLegs h.recorded (legs ++ [fuel])) =
        ((some outcome, M'), s', calls)) ↔
      ∃ fuel, runFrom (s, []) (tree.evalUnder h.recorded fuel pending) =
        (some outcome, s', calls)) ∧
    (∀ outcome s',
      (∃ fuel M', runFrom s ((tree.under pending).runInLegs h (legs ++ [fuel])) =
        ((some outcome, M'), s')) ↔
      ∃ fuel, runFrom s (tree.evalUnder h fuel pending) = (some outcome, s')) ∧
    ((∀ fuel, (runFrom s ((tree.under pending).runInLegs h (legs ++ [fuel]))).1.1 = none) ↔
      ∀ fuel, (runFrom s (tree.evalUnder h fuel pending)).1 = none) := by
  refine ⟨fun outcome s' calls => ?_, fun outcome s' => ?_, ?_⟩
  · exact exists_runInLegs_eq_some_iff legs
  · exact exists_runInLegs_eq_some_iff legs
  · exact forall_runInLegs_eq_none_iff legs

end Machine

end FiberPrograms
