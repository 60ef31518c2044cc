import FiberPrograms.Machine

/-!
# The machine and the evaluator

The stepping machine keeps waiting continuations on a list, the evaluator on nothing at all: it
recurses. Both are given here as relations over a handler that transforms a state, and the two
bounded functions `Machine.run` and `Tree.eval` are tied to them. A run of the machine at a tree
with continuations waiting then comes apart into the evaluation of that tree and whatever the
innermost continuation makes of its value.

## Main definitions

* `Tree.under`: the machine that stands at a tree, with continuations waiting
* `Handler.Ends`: a run of the machine to its end, with the number of its steps
* `Handler.Evaluates`: the evaluation of a tree, with the number of nodes met
* `Tree.evalUnder`: evaluate a tree and then the waiting continuations, innermost first

## Main results

* `Machine.exists_run_eq_some_iff`, `Tree.exists_eval_eq_some_iff`: the bounded functions end as
  the relations say
* `Handler.ends_under_iff`: a run under waiting continuations is an evaluation and a delivery
* `Tree.exists_evalUnder_eq_some_iff`: the machine ends as the evaluator does
-/

namespace FiberPrograms

variable {V Op K σ : Type}

/-- What a state transformer makes of a state: its answer, and the state that it leaves. -/
def runFrom {α : Type} (s : σ) (x : StateM σ α) : α × σ :=
  (x.run s).run

@[simp] theorem runFrom_pure {α : Type} (s : σ) (a : α) : runFrom s (pure a) = (a, s) := rfl

@[simp] theorem runFrom_bind {α β : Type} (s : σ) (x : StateM σ α) (f : α → StateM σ β) :
    runFrom s (x >>= f) = runFrom (runFrom s x).2 (f (runFrom s x).1) := rfl

@[simp] theorem runFrom_map {α β : Type} (s : σ) (f : α → β) (x : StateM σ α) :
    runFrom s (f <$> x) = (f (runFrom s x).1, (runFrom s x).2) := rfl

/-- The machine that stands at a tree, with continuations waiting for its value, innermost
first. -/
def Tree.under (tree : Tree V Op K) (pending : List K) : Machine V Op K where
  current := some tree
  pending := pending
  depth := pending.length

namespace Machine

/-- The machine that has nothing left to evaluate, whatever may still be waiting. -/
def idle (pending : List K) : Machine V Op K where
  current := none
  pending := pending
  depth := pending.length

/-- A machine that has something to evaluate stands at it under what is waiting. -/
theorem eq_under {M : Machine V Op K} {tree : Tree V Op K} (hM : M.current = some tree) :
    M = tree.under M.pending := by
  obtain ⟨current, pending, depth, rfl⟩ := M
  cases hM
  rfl

/-! ## One step, read off the tree -/

section Step

variable {m : Type → Type} [Monad m] (h : Handler m V Op K)

theorem step_andThen (first : Tree V Op K) (next : K) (pending : List K) :
    ((first.andThen next).under pending).step h =
      pure (.ok .more, first.under (next :: pending)) := rfl

theorem step_ret (value : V) (pending : List K) :
    ((Tree.ret value : Tree V Op K).under pending).step h = (do
      match ← h.onReturn pending.isEmpty with
      | .error fault => pure (.error fault, idle pending)
      | .ok () => ((Tree.ret value).under pending).deliver h value) := rfl

theorem step_instr (op : Op) (pending : List K) :
    ((Tree.instr op : Tree V Op K).under pending).step h = (do
      match ← h.handle pending.length op with
      | .error fault => pure (.error fault, idle pending)
      | .ok value => ((Tree.instr op).under pending).deliver h value) := rfl

theorem deliver_nil (tree : Tree V Op K) (value : V) :
    (tree.under []).deliver h value = pure ((h.accept value).map .done, idle []) := rfl

theorem deliver_cons (tree : Tree V Op K) (next : K) (pending : List K) (value : V) :
    (tree.under (next :: pending)).deliver h value = (do
      match ← h.resume next value with
      | .error fault => pure (.error fault, idle pending)
      | .ok made => pure (.ok .more, made.under pending)) := rfl

end Step

end Machine

namespace Handler

variable {h : Handler (StateM σ) V Op K}

/-! ## Runs of the machine -/

/-- The machine `M`, stepped from the state `s` on, comes to its end with exactly `n` steps, with
the given outcome and state. -/
inductive Ends (h : Handler (StateM σ) V Op K) :
    Machine V Op K → σ → (n : Nat) → Except Fault V → σ → Prop
  | fault {M M' : Machine V Op K} {s s' : σ} {fault : Fault}
      (step : runFrom s (M.step h) = ((.error fault, M'), s')) : Ends h M s 1 (.error fault) s'
  | value {M M' : Machine V Op K} {s s' : σ} {v : V}
      (step : runFrom s (M.step h) = ((.ok (.done v), M'), s')) : Ends h M s 1 (.ok v) s'
  | more {M M₁ : Machine V Op K} {s s₁ s' : σ} {n : Nat} {outcome : Except Fault V}
      (step : runFrom s (M.step h) = ((.ok .more, M₁), s₁)) (rest : Ends h M₁ s₁ n outcome s') :
      Ends h M s (n + 1) outcome s'

/-- What is left of a run once a value is ready: the innermost continuation is resumed with it,
or the run ends with it. -/
def Continues (h : Handler (StateM σ) V Op K) (pending : List K) (v : V) (s : σ) (n : Nat)
    (outcome : Except Fault V) (s' : σ) : Prop :=
  match pending with
  | [] => n = 0 ∧ outcome = h.accept v ∧ s' = s
  | next :: rest =>
    (∃ fault, runFrom s (h.resume next v) = (.error fault, s') ∧ n = 0 ∧
      outcome = .error fault) ∨
    ∃ made s₁, runFrom s (h.resume next v) = (.ok made, s₁) ∧
      h.Ends (made.under rest) s₁ n outcome s'

section Ends

variable {M M₁ : Machine V Op K} {s s₁ s' : σ} {n : Nat} {fault : Fault} {v : V}
  {outcome : Except Fault V}

theorem ends_of_step_error (step : runFrom s (M.step h) = ((.error fault, M₁), s₁)) :
    h.Ends M s n outcome s' ↔ n = 1 ∧ outcome = .error fault ∧ s' = s₁ := by
  constructor
  · rintro (step' | step' | ⟨step', -⟩) <;> rw [step] at step' <;> cases step'
    exact ⟨rfl, rfl, rfl⟩
  · rintro ⟨rfl, rfl, rfl⟩
    exact .fault step

theorem ends_of_step_done (step : runFrom s (M.step h) = ((.ok (.done v), M₁), s₁)) :
    h.Ends M s n outcome s' ↔ n = 1 ∧ outcome = .ok v ∧ s' = s₁ := by
  constructor
  · rintro (step' | step' | ⟨step', -⟩) <;> rw [step] at step' <;> cases step'
    exact ⟨rfl, rfl, rfl⟩
  · rintro ⟨rfl, rfl, rfl⟩
    exact .value step

theorem ends_of_step_more (step : runFrom s (M.step h) = ((.ok .more, M₁), s₁)) :
    h.Ends M s n outcome s' ↔ ∃ b, n = b + 1 ∧ h.Ends M₁ s₁ b outcome s' := by
  constructor
  · rintro (step' | step' | ⟨step', rest⟩) <;> rw [step] at step' <;> cases step'
    exact ⟨_, rfl, rest⟩
  · rintro ⟨b, rfl, rest⟩
    exact .more step rest

theorem continues_nil :
    h.Continues [] v s n outcome s' ↔ n = 0 ∧ outcome = h.accept v ∧ s' = s := Iff.rfl

theorem continues_cons_error {next : K} {rest : List K}
    (resumed : runFrom s (h.resume next v) = (.error fault, s₁)) :
    h.Continues (next :: rest) v s n outcome s' ↔
      n = 0 ∧ outcome = .error fault ∧ s' = s₁ := by
  simp only [Continues, resumed]
  constructor
  · rintro (⟨fault', same, rfl, rfl⟩ | ⟨made, s₂, same, -⟩) <;> cases same
    exact ⟨rfl, rfl, rfl⟩
  · rintro ⟨rfl, rfl, rfl⟩
    exact .inl ⟨fault, rfl, rfl, rfl⟩

theorem continues_cons_ok {next : K} {rest : List K} {made : Tree V Op K}
    (resumed : runFrom s (h.resume next v) = (.ok made, s₁)) :
    h.Continues (next :: rest) v s n outcome s' ↔
      h.Ends (made.under rest) s₁ n outcome s' := by
  simp only [Continues, resumed]
  constructor
  · rintro (⟨fault', same, -, -⟩ | ⟨made', s₂, same, ends⟩) <;> cases same
    exact ends
  · intro ends
    exact .inr ⟨made, s₁, rfl, ends⟩

private theorem one_step_iff {P : Prop} : (∃ b, n = b + 1 ∧ b = 0 ∧ P) ↔ n = 1 ∧ P := by
  constructor
  · rintro ⟨_, rfl, rfl, hP⟩
    exact ⟨rfl, hP⟩
  · rintro ⟨rfl, hP⟩
    exact ⟨0, rfl, rfl, hP⟩

/-- After the step that makes a value ready, the run goes on with that value. -/
theorem ends_of_step_deliver {tree : Tree V Op K} {pending : List K}
    (step : runFrom s ((tree.under pending).step h) =
      runFrom s₁ ((tree.under pending).deliver h v)) :
    h.Ends (tree.under pending) s n outcome s' ↔
      ∃ b, n = b + 1 ∧ h.Continues pending v s₁ b outcome s' := by
  cases pending with
  | nil =>
    -- Nothing waits, so the step is the last one: the value is checked.
    rw [Machine.deliver_nil] at step
    simp only [continues_nil]
    cases haccept : h.accept v with
    | error fault =>
      rw [haccept] at step
      rw [ends_of_step_error step]
      exact one_step_iff.symm
    | ok v' =>
      rw [haccept] at step
      rw [ends_of_step_done step]
      exact one_step_iff.symm
  | cons next rest =>
    -- The step makes the tree with which the run goes on, unless its making fails.
    rw [Machine.deliver_cons, runFrom_bind] at step
    cases resumed : runFrom s₁ (h.resume next v) with
    | mk answer s₂ =>
      rw [resumed] at step
      cases answer with
      | error fault =>
        simp only [ends_of_step_error step, continues_cons_error resumed]
        exact one_step_iff.symm
      | ok made =>
        simp only [ends_of_step_more step, continues_cons_ok resumed]

/-- The first program of a node is entered with one step. -/
theorem ends_andThen_iff {first : Tree V Op K} {next : K} {pending : List K} :
    h.Ends ((first.andThen next).under pending) s n outcome s' ↔
      ∃ b, n = b + 1 ∧ h.Ends (first.under (next :: pending)) s b outcome s' :=
  ends_of_step_more rfl

end Ends

/-! ## Evaluation of trees -/

/-- The evaluation of a tree from the state `s` on meets `n` nodes and comes to the given outcome
and state. The first program of a node is never outermost; the one made of its value stands in
the node's own place. -/
inductive Evaluates (h : Handler (StateM σ) V Op K) :
    (outermost : Bool) → (depth : Nat) → Tree V Op K → σ → (n : Nat) → Except Fault V → σ → Prop
  | retFault {outermost : Bool} {depth : Nat} {v : V} {s s' : σ} {fault : Fault}
      (told : runFrom s (h.onReturn outermost) = (.error fault, s')) :
      Evaluates h outermost depth (.ret v) s 1 (.error fault) s'
  | ret {outermost : Bool} {depth : Nat} {v : V} {s s' : σ}
      (told : runFrom s (h.onReturn outermost) = (.ok (), s')) :
      Evaluates h outermost depth (.ret v) s 1 (.ok v) s'
  | instr {outermost : Bool} {depth : Nat} {op : Op} {s s' : σ} {outcome : Except Fault V}
      (performed : runFrom s (h.handle depth op) = (outcome, s')) :
      Evaluates h outermost depth (.instr op) s 1 outcome s'
  | firstFault {outermost : Bool} {depth n : Nat} {first : Tree V Op K} {next : K} {s s' : σ}
      {fault : Fault} (failed : Evaluates h false (depth + 1) first s n (.error fault) s') :
      Evaluates h outermost depth (first.andThen next) s (n + 1) (.error fault) s'
  | resumeFault {outermost : Bool} {depth n : Nat} {first : Tree V Op K} {next : K} {v : V}
      {s s₁ s' : σ} {fault : Fault} (value : Evaluates h false (depth + 1) first s n (.ok v) s₁)
      (resumed : runFrom s₁ (h.resume next v) = (.error fault, s')) :
      Evaluates h outermost depth (first.andThen next) s (n + 1) (.error fault) s'
  | andThen {outermost : Bool} {depth a b : Nat} {first made : Tree V Op K} {next : K} {v : V}
      {s s₁ s₂ s' : σ} {outcome : Except Fault V}
      (value : Evaluates h false (depth + 1) first s a (.ok v) s₁)
      (resumed : runFrom s₁ (h.resume next v) = (.ok made, s₂))
      (rest : Evaluates h outermost depth made s₂ b outcome s') :
      Evaluates h outermost depth (first.andThen next) s (a + b + 1) outcome s'

/-- What an evaluation of the tree comes to decides how the run under waiting continuations goes
on: a fault ends it, and a value is handed to the innermost of them. -/
def Completes (h : Handler (StateM σ) V Op K) (pending : List K) (outcome : Except Fault V)
    (s : σ) (b : Nat) (final : Except Fault V) (s' : σ) : Prop :=
  match outcome with
  | .error fault => b = 0 ∧ final = .error fault ∧ s' = s
  | .ok v => h.Continues pending v s b final s'

/-- An evaluation of the tree is the first part of a run under waiting continuations. -/
theorem Evaluates.ends {outermost : Bool} {depth a : Nat} {tree : Tree V Op K} {s s₁ : σ}
    {outcome : Except Fault V} (he : h.Evaluates outermost depth tree s a outcome s₁)
    (pending : List K) (houter : outermost = pending.isEmpty) (hdepth : depth = pending.length)
    {b : Nat} {final : Except Fault V} {s' : σ}
    (hc : h.Completes pending outcome s₁ b final s') :
    h.Ends (tree.under pending) s (a + b) final s' := by
  -- The first program of a node has one continuation more above it, and the program made of its
  -- value has the same ones as the node, so what is waiting stays general.
  induction he generalizing pending b final s' with
  | @retFault outermost depth v s s₁ fault told =>
    obtain ⟨rfl, rfl, rfl⟩ := hc
    subst houter
    have step : runFrom s ((Tree.ret v : Tree V Op K).under pending |>.step h) =
        ((.error fault, .idle pending), s') := by
      rw [Machine.step_ret, runFrom_bind, told]
      rfl
    exact .fault step
  | @ret outermost depth v s s₁ told =>
    subst houter
    have step : runFrom s ((Tree.ret v : Tree V Op K).under pending |>.step h) =
        runFrom s₁ (((Tree.ret v).under pending).deliver h v) := by
      rw [Machine.step_ret, runFrom_bind, told]
    exact (ends_of_step_deliver step).mpr ⟨b, Nat.add_comm 1 b, hc⟩
  | @instr outermost depth op s s₁ outcome performed =>
    subst hdepth
    cases outcome with
    | error fault =>
      obtain ⟨rfl, rfl, rfl⟩ := hc
      have step : runFrom s ((Tree.instr op : Tree V Op K).under pending |>.step h) =
          ((.error fault, .idle pending), s') := by
        rw [Machine.step_instr, runFrom_bind, performed]
        rfl
      exact .fault step
    | ok v =>
      have step : runFrom s ((Tree.instr op : Tree V Op K).under pending |>.step h) =
          runFrom s₁ (((Tree.instr op).under pending).deliver h v) := by
        rw [Machine.step_instr, runFrom_bind, performed]
      exact (ends_of_step_deliver step).mpr ⟨b, Nat.add_comm 1 b, hc⟩
  | @firstFault outermost depth n first next s s₁ fault failed ih =>
    obtain ⟨rfl, rfl, rfl⟩ := hc
    subst hdepth
    exact ends_andThen_iff.mpr ⟨n, rfl, ih (next :: pending) rfl rfl ⟨rfl, rfl, rfl⟩⟩
  | @resumeFault outermost depth n first next v s s₁ s₂ fault value resumed ih =>
    obtain ⟨rfl, rfl, rfl⟩ := hc
    subst hdepth
    have hc : h.Completes (next :: pending) (.ok v) s₁ 0 (.error fault) s' :=
      (continues_cons_error resumed).mpr ⟨rfl, rfl, rfl⟩
    exact ends_andThen_iff.mpr ⟨n, rfl, ih (next :: pending) rfl rfl hc⟩
  | @andThen outermost depth a c first made next v s s₁ s₂ s₃ outcome value resumed rest ih₁ ih₂ =>
    subst hdepth
    have hc : h.Completes (next :: pending) (.ok v) s₁ (c + b) final s' :=
      (continues_cons_ok resumed).mpr (ih₂ pending houter rfl hc)
    have hsteps : a + c + 1 + b = a + (c + b) + 1 := by omega
    exact ends_andThen_iff.mpr ⟨a + (c + b), hsteps, ih₁ (next :: pending) rfl rfl hc⟩

/-- Every run under waiting continuations begins with an evaluation of the tree. -/
theorem exists_evaluates_of_ends {n : Nat} {tree : Tree V Op K} {pending : List K} {s s' : σ}
    {final : Except Fault V} (hends : h.Ends (tree.under pending) s n final s') :
    ∃ a b outcome s₁, n = a + b ∧
      h.Evaluates pending.isEmpty pending.length tree s a outcome s₁ ∧
      h.Completes pending outcome s₁ b final s' := by
  -- The program that a continuation makes can be larger than the node it comes from, so the
  -- induction is on the number of steps.
  induction n using Nat.strongRecOn generalizing tree pending s final s' with
  | ind n ih =>
    cases tree with
    | ret v =>
      cases told : runFrom s (h.onReturn pending.isEmpty) with
      | mk answer s₁ =>
        have step := congrArg (runFrom s) (Machine.step_ret h v pending)
        rw [runFrom_bind, told] at step
        cases answer with
        | error fault =>
          obtain ⟨rfl, rfl, rfl⟩ := (ends_of_step_error step).mp hends
          exact ⟨1, 0, .error fault, s', rfl, .retFault told, rfl, rfl, rfl⟩
        | ok =>
          obtain ⟨b, rfl, hc⟩ := (ends_of_step_deliver step).mp hends
          exact ⟨1, b, .ok v, s₁, Nat.add_comm b 1, .ret told, hc⟩
    | instr op =>
      cases performed : runFrom s (h.handle pending.length op) with
      | mk answer s₁ =>
        have step := congrArg (runFrom s) (Machine.step_instr h op pending)
        rw [runFrom_bind, performed] at step
        cases answer with
        | error fault =>
          obtain ⟨rfl, rfl, rfl⟩ := (ends_of_step_error step).mp hends
          exact ⟨1, 0, .error fault, s', rfl, .instr performed, rfl, rfl, rfl⟩
        | ok v =>
          obtain ⟨b, rfl, hc⟩ := (ends_of_step_deliver step).mp hends
          exact ⟨1, b, .ok v, s₁, Nat.add_comm b 1, .instr performed, hc⟩
    | andThen first next =>
      obtain ⟨b, rfl, hfirst⟩ := ends_andThen_iff.mp hends
      obtain ⟨a, c, outcome, s₁, rfl, hvalue, hc⟩ := ih b (by omega) hfirst
      cases outcome with
      | error fault =>
        obtain ⟨rfl, rfl, rfl⟩ := hc
        exact ⟨a + 1, 0, .error fault, s', by omega, .firstFault hvalue, rfl, rfl, rfl⟩
      | ok v =>
        cases resumed : runFrom s₁ (h.resume next v) with
        | mk answer s₂ =>
          cases answer with
          | error fault =>
            obtain ⟨rfl, rfl, rfl⟩ := (continues_cons_error resumed).mp hc
            exact ⟨a + 1, 0, .error fault, s', by omega, .resumeFault hvalue resumed,
              rfl, rfl, rfl⟩
          | ok made =>
            have hrest := (continues_cons_ok resumed).mp hc
            obtain ⟨d, e, outcome, s₃, rfl, hmade, hc⟩ := ih c (by omega) hrest
            exact ⟨a + d + 1, e, outcome, s₃, by omega, .andThen hvalue resumed hmade, hc⟩

/-- A run under waiting continuations is an evaluation of the tree, and what the innermost of
them makes of its value. -/
theorem ends_under_iff {n : Nat} {tree : Tree V Op K} {pending : List K} {s s' : σ}
    {final : Except Fault V} :
    h.Ends (tree.under pending) s n final s' ↔
      ∃ a b outcome s₁, n = a + b ∧
        h.Evaluates pending.isEmpty pending.length tree s a outcome s₁ ∧
        h.Completes pending outcome s₁ b final s' := by
  constructor
  · exact exists_evaluates_of_ends
  · rintro ⟨a, b, outcome, s₁, rfl, hvalue, hc⟩
    exact hvalue.ends pending rfl rfl hc

end Handler

/-! ## Bounded runs -/

namespace Machine

/-- Step a machine by hand, one leg after the other, each at most a number of steps long; a leg
in which the run ends is the last. -/
def runInLegs {m : Type → Type} [Monad m] (h : Handler m V Op K) :
    (legs : List Nat) → Machine V Op K → m (Option (Except Fault V) × Machine V Op K)
  | [], M => pure (none, M)
  | leg :: legs, M => do
    match ← M.run h leg with
    | (some outcome, M') => pure (some outcome, M')
    | (none, M') => runInLegs h legs M'

variable {h : Handler (StateM σ) V Op K}

/-- A bounded run ends as the machine does, if the bound is large enough for it. -/
theorem exists_run_eq_some_iff {fuel : Nat} {M : Machine V Op K} {s s' : σ}
    {outcome : Except Fault V} :
    (∃ M', runFrom s (M.run h fuel) = ((some outcome, M'), s')) ↔
      ∃ n ≤ fuel, h.Ends M s n outcome s' := by
  induction fuel generalizing M s with
  | zero =>
    constructor
    · rintro ⟨M', same⟩
      cases same
    · rintro ⟨n, hn, hends⟩
      cases hends <;> omega
  | succ fuel ih =>
    -- The three ways in which a step can come out are those in which a run can go on.
    rw [run, runFrom_bind]
    cases step : runFrom s (M.step h) with
    | mk answer s₁ =>
      obtain ⟨progress, M₁⟩ := answer
      match progress with
      | .error fault =>
        simp only [Handler.ends_of_step_error step, runFrom_pure]
        constructor
        · rintro ⟨M', same⟩
          cases same
          exact ⟨1, by omega, rfl, rfl, rfl⟩
        · rintro ⟨n, -, -, rfl, rfl⟩
          exact ⟨M₁, rfl⟩
      | .ok (.done v) =>
        simp only [Handler.ends_of_step_done step, runFrom_pure]
        constructor
        · rintro ⟨M', same⟩
          cases same
          exact ⟨1, by omega, rfl, rfl, rfl⟩
        · rintro ⟨n, -, -, rfl, rfl⟩
          exact ⟨M₁, rfl⟩
      | .ok .more =>
        simp only [Handler.ends_of_step_more step]
        refine ih.trans ?_
        constructor
        · rintro ⟨b, hb, hends⟩
          exact ⟨b + 1, by omega, b, rfl, hends⟩
        · rintro ⟨n, hn, b, rfl, hends⟩
          exact ⟨b, by omega, hends⟩

/-- A run of `a + b` steps is one of `a` steps and, unless that ends, another of `b` steps from
where it stands. -/
theorem run_add {m : Type → Type} [Monad m] [LawfulMonad m] (h : Handler m V Op K) (a b : Nat)
    (M : Machine V Op K) :
    M.run h (a + b) = (do
      match ← M.run h a with
      | (some outcome, M') => pure (some outcome, M')
      | (none, M') => M'.run h b) := by
  induction a generalizing M with
  | zero => simp [run]
  | succ a ih =>
    rw [Nat.succ_add, run, run, bind_assoc]
    congr 1
    funext answer
    match answer with
    | (.error fault, M') => simp
    | (.ok (.done v), M') => simp
    | (.ok .more, M') => exact ih M'

/-- It does not matter into which legs a run is split. -/
theorem runInLegs_eq_run {m : Type → Type} [Monad m] [LawfulMonad m] (h : Handler m V Op K)
    (legs : List Nat) (M : Machine V Op K) :
    M.runInLegs h legs = M.run h (legs.foldr (· + ·) 0) := by
  induction legs generalizing M with
  | nil => rfl
  | cons leg legs ih =>
    rw [runInLegs, List.foldr_cons, run_add]
    congr 1
    funext answer
    match answer with
    | (some outcome, M') => rfl
    | (none, M') => exact ih M'

end Machine

namespace Tree

/-- Evaluate a tree and then what the waiting continuations make of its value, innermost first.
Only a program with nothing waiting is outermost, and its value is checked at the end. -/
def evalUnder {m : Type → Type} [Monad m] (h : Handler m V Op K) (fuel : Nat) :
    (pending : List K) → Tree V Op K → m (Option (Except Fault V))
  | [], tree => do
    match ← tree.eval h fuel true 0 with
    | some (.ok v) => pure (some (h.accept v))
    | some (.error fault) => pure (some (.error fault))
    | none => pure none
  | next :: rest, tree => do
    match ← tree.eval h fuel false (rest.length + 1) with
    | some (.ok v) =>
      match ← h.resume next v with
      | .error fault => pure (some (.error fault))
      | .ok made => evalUnder h fuel rest made
    | some (.error fault) => pure (some (.error fault))
    | none => pure none

variable {h : Handler (StateM σ) V Op K}

theorem evaluates_of_eval_eq_some {fuel : Nat} {outermost : Bool} {depth : Nat}
    {tree : Tree V Op K} {s s' : σ} {outcome : Except Fault V}
    (heval : runFrom s (tree.eval h fuel outermost depth) = (some outcome, s')) :
    ∃ n, h.Evaluates outermost depth tree s n outcome s' := by
  -- By induction on the fuel, which is what the evaluator recurs on: both parts of a composed tree
  -- are evaluated with one less.
  induction fuel generalizing outermost depth tree s s' outcome with
  | zero => cases heval
  | succ fuel ih =>
    cases tree with
    | ret v =>
      rw [eval, runFrom_bind] at heval
      cases told : runFrom s (h.onReturn outermost) with
      | mk answer s₁ =>
        rw [told] at heval
        cases answer with
        | error fault =>
          cases heval
          exact ⟨1, .retFault told⟩
        | ok =>
          cases heval
          exact ⟨1, .ret told⟩
    | instr op =>
      rw [eval, runFrom_map] at heval
      cases heval
      exact ⟨1, .instr rfl⟩
    | andThen first next =>
      rw [eval, runFrom_bind] at heval
      cases hfirst : runFrom s (first.eval h fuel false (depth + 1)) with
      | mk answer s₁ =>
        rw [hfirst] at heval
        match answer with
        | none => cases heval
        | some (.error fault) =>
          cases heval
          obtain ⟨n, hvalue⟩ := ih hfirst
          exact ⟨n + 1, .firstFault hvalue⟩
        | some (.ok v) =>
          obtain ⟨a, hvalue⟩ := ih hfirst
          simp only [runFrom_bind] at heval
          cases resumed : runFrom s₁ (h.resume next v) with
          | mk answer s₂ =>
            rw [resumed] at heval
            cases answer with
            | error fault =>
              cases heval
              exact ⟨a + 1, .resumeFault hvalue resumed⟩
            | ok made =>
              obtain ⟨b, hmade⟩ := ih heval
              exact ⟨a + b + 1, .andThen hvalue resumed hmade⟩

/-- An evaluation is found with any bound that is large enough. -/
theorem eval_of_evaluates {n : Nat} {outermost : Bool} {depth : Nat} {tree : Tree V Op K}
    {s s' : σ} {outcome : Except Fault V} (he : h.Evaluates outermost depth tree s n outcome s') :
    ∃ least, ∀ fuel, least ≤ fuel →
      runFrom s (tree.eval h fuel outermost depth) = (some outcome, s') := by
  induction he with
  | @retFault outermost depth v s s' fault told =>
    refine ⟨1, fun fuel hfuel => ?_⟩
    obtain ⟨fuel, rfl⟩ := Nat.exists_eq_add_of_le' hfuel
    rw [eval, runFrom_bind, told]
    rfl
  | @ret outermost depth v s s' told =>
    refine ⟨1, fun fuel hfuel => ?_⟩
    obtain ⟨fuel, rfl⟩ := Nat.exists_eq_add_of_le' hfuel
    rw [eval, runFrom_bind, told]
    rfl
  | @instr outermost depth op s s' outcome performed =>
    refine ⟨1, fun fuel hfuel => ?_⟩
    obtain ⟨fuel, rfl⟩ := Nat.exists_eq_add_of_le' hfuel
    rw [eval, runFrom_map, performed]
  | @firstFault outermost depth n first next s s' fault failed ih =>
    obtain ⟨least, hfirst⟩ := ih
    refine ⟨least + 1, fun fuel hfuel => ?_⟩
    obtain ⟨fuel, rfl⟩ := Nat.exists_eq_add_of_le' (Nat.le_of_add_left_le hfuel)
    rw [eval, runFrom_bind, hfirst fuel (by omega)]
    rfl
  | @resumeFault outermost depth n first next v s s₁ s' fault value resumed ih =>
    obtain ⟨least, hfirst⟩ := ih
    refine ⟨least + 1, fun fuel hfuel => ?_⟩
    obtain ⟨fuel, rfl⟩ := Nat.exists_eq_add_of_le' (Nat.le_of_add_left_le hfuel)
    rw [eval, runFrom_bind, hfirst fuel (by omega)]
    simp only [runFrom_bind, resumed]
    rfl
  | @andThen outermost depth a b first made next v s s₁ s₂ s' outcome value resumed rest ih₁ ih₂ =>
    -- The bound is spent on depth, so both parts may use all that is left of it.
    obtain ⟨least₁, hfirst⟩ := ih₁
    obtain ⟨least₂, hmade⟩ := ih₂
    refine ⟨max least₁ least₂ + 1, fun fuel hfuel => ?_⟩
    obtain ⟨fuel, rfl⟩ := Nat.exists_eq_add_of_le' (Nat.le_of_add_left_le hfuel)
    rw [eval, runFrom_bind, hfirst fuel (by omega)]
    simp only [runFrom_bind, resumed]
    exact hmade fuel (by omega)

theorem exists_eval_eq_some_iff {outermost : Bool} {depth : Nat} {tree : Tree V Op K} {s s' : σ}
    {outcome : Except Fault V} :
    (∃ fuel, runFrom s (tree.eval h fuel outermost depth) = (some outcome, s')) ↔
      ∃ n, h.Evaluates outermost depth tree s n outcome s' := by
  constructor
  · rintro ⟨fuel, heval⟩
    exact evaluates_of_eval_eq_some heval
  · rintro ⟨n, he⟩
    obtain ⟨least, hfuel⟩ := eval_of_evaluates he
    exact ⟨least, hfuel least (Nat.le_refl least)⟩

/-- An evaluation that ends, with continuations waiting or not, is a run of the machine. -/
theorem ends_of_evalUnder_eq_some {fuel : Nat} {pending : List K} {tree : Tree V Op K} {s s' : σ}
    {final : Except Fault V}
    (heval : runFrom s (tree.evalUnder h fuel pending) = (some final, s')) :
    ∃ n, h.Ends (tree.under pending) s n final s' := by
  -- One continuation after the other is taken off, each with the program that it makes.
  induction pending generalizing tree s with
  | nil =>
    rw [evalUnder, runFrom_bind] at heval
    cases hfirst : runFrom s (tree.eval h fuel true 0) with
    | mk answer s₁ =>
      rw [hfirst] at heval
      match answer with
      | none => cases heval
      | some (.error fault) =>
        cases heval
        obtain ⟨n, hvalue⟩ := evaluates_of_eval_eq_some hfirst
        exact ⟨n, hvalue.ends [] rfl rfl ⟨rfl, rfl, rfl⟩⟩
      | some (.ok v) =>
        cases heval
        obtain ⟨n, hvalue⟩ := evaluates_of_eval_eq_some hfirst
        exact ⟨n, hvalue.ends [] rfl rfl ⟨rfl, rfl, rfl⟩⟩
  | cons next rest ih =>
    rw [evalUnder, runFrom_bind] at heval
    cases hfirst : runFrom s (tree.eval h fuel false (rest.length + 1)) with
    | mk answer s₁ =>
      rw [hfirst] at heval
      match answer with
      | none => cases heval
      | some (.error fault) =>
        cases heval
        obtain ⟨n, hvalue⟩ := evaluates_of_eval_eq_some hfirst
        exact ⟨n, hvalue.ends (next :: rest) rfl rfl ⟨rfl, rfl, rfl⟩⟩
      | some (.ok v) =>
        obtain ⟨n, hvalue⟩ := evaluates_of_eval_eq_some hfirst
        simp only [runFrom_bind] at heval
        cases resumed : runFrom s₁ (h.resume next v) with
        | mk answer s₂ =>
          rw [resumed] at heval
          cases answer with
          | error fault =>
            cases heval
            have hc : h.Completes (next :: rest) (.ok v) s₁ 0 (.error fault) s₂ :=
              (Handler.continues_cons_error resumed).mpr ⟨rfl, rfl, rfl⟩
            exact ⟨n, hvalue.ends (next :: rest) rfl rfl hc⟩
          | ok made =>
            obtain ⟨b, hmade⟩ := ih heval
            have hc : h.Completes (next :: rest) (.ok v) s₁ b final s' :=
              (Handler.continues_cons_ok resumed).mpr hmade
            exact ⟨n + b, hvalue.ends (next :: rest) rfl rfl hc⟩

/-- A run of the machine is found by the evaluator with any bound that is large enough. -/
theorem evalUnder_of_ends {n : Nat} {pending : List K} {tree : Tree V Op K} {s s' : σ}
    {final : Except Fault V} (hends : h.Ends (tree.under pending) s n final s') :
    ∃ least, ∀ fuel, least ≤ fuel →
      runFrom s (tree.evalUnder h fuel pending) = (some final, s') := by
  -- By induction on the waiting continuations, for any tree under them. The bound has to do for the
  -- tree and for what is made of its value.
  induction pending generalizing tree s n with
  | nil =>
    obtain ⟨a, b, outcome, s₁, rfl, hvalue, hc⟩ := Handler.ends_under_iff.mp hends
    obtain ⟨least, hfirst⟩ := eval_of_evaluates hvalue
    refine ⟨least, fun fuel hfuel => ?_⟩
    rw [evalUnder, runFrom_bind]
    cases outcome with
    | error fault =>
      obtain ⟨rfl, rfl, rfl⟩ := hc
      rw [show runFrom s (tree.eval h fuel true 0) = _ from hfirst fuel hfuel]
      rfl
    | ok v =>
      obtain ⟨rfl, rfl, rfl⟩ := hc
      rw [show runFrom s (tree.eval h fuel true 0) = _ from hfirst fuel hfuel]
      rfl
  | cons next rest ih =>
    obtain ⟨a, b, outcome, s₁, rfl, hvalue, hc⟩ := Handler.ends_under_iff.mp hends
    obtain ⟨least₁, hfirst⟩ := eval_of_evaluates hvalue
    have hfirst : ∀ fuel, least₁ ≤ fuel →
      runFrom s (tree.eval h fuel false (rest.length + 1)) = (some outcome, s₁) := hfirst
    cases outcome with
    | error fault =>
      obtain ⟨rfl, rfl, rfl⟩ := hc
      refine ⟨least₁, fun fuel hfuel => ?_⟩
      rw [evalUnder, runFrom_bind, hfirst fuel hfuel]
      rfl
    | ok v =>
      cases resumed : runFrom s₁ (h.resume next v) with
      | mk answer s₂ =>
        cases answer with
        | error fault =>
          obtain ⟨rfl, rfl, rfl⟩ := (Handler.continues_cons_error resumed).mp hc
          refine ⟨least₁, fun fuel hfuel => ?_⟩
          rw [evalUnder, runFrom_bind, hfirst fuel hfuel]
          simp only [runFrom_bind, resumed]
          rfl
        | ok made =>
          obtain ⟨least₂, hmade⟩ := ih ((Handler.continues_cons_ok resumed).mp hc)
          refine ⟨max least₁ least₂, fun fuel hfuel => ?_⟩
          rw [evalUnder, runFrom_bind, hfirst fuel (by omega)]
          simp only [runFrom_bind, resumed]
          exact hmade fuel (by omega)

/-- The evaluator ends as the machine does. -/
theorem exists_evalUnder_eq_some_iff {pending : List K} {tree : Tree V Op K} {s s' : σ}
    {final : Except Fault V} :
    (∃ fuel, runFrom s (tree.evalUnder h fuel pending) = (some final, s')) ↔
      ∃ n, h.Ends (tree.under pending) s n final s' := by
  constructor
  · rintro ⟨fuel, heval⟩
    exact ends_of_evalUnder_eq_some heval
  · rintro ⟨n, hends⟩
    obtain ⟨least, hfuel⟩ := evalUnder_of_ends hends
    exact ⟨least, hfuel least (Nat.le_refl least)⟩

end Tree

end FiberPrograms
