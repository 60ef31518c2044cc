import FiberPrograms.Proofs.Calls

/-!
# Machines that have come to their end

Whoever holds a machine may step it by hand, run it to its end, and go on after a step has failed
as if nothing had been wrong. The first step that does not answer that there is more takes the
machine to its end, and there it stays: whatever is asked of it from then on fails in the same
way, performs nothing, resumes nothing, and leaves as many continuations waiting as there were.

How many these are depends on where the last step stopped. A step takes its node before it
performs or reports it, and takes a continuation off before it is resumed; so the node is gone
however the step ends, and a continuation is gone once a value has been ready for it. A machine
therefore performs no operation twice that it has come to once, however often it is tried again.

## Main definitions

* `Machine.Drive`, `Machine.Driven`, `Machine.Drives`: what is asked of a machine, and its answers
* `Handler.Stops`: the last step of a machine, by the place where it stops
* `Machine.Walks`: the nodes that a machine evaluates, one with each step, until its last

## Main results

* `Machine.drives_of_finished`: all that a machine does after its end
* `Machine.stops_or_more_of_step`: a step goes on, or is the last and stops where it says
* `Machine.Walks.performed`: the operations performed are those that the machine has come to
* `Machine.dead_once_ended`: all of this for every way of driving a machine
-/

namespace FiberPrograms

variable {V Op K σ : Type}

/-- The operation at a node, if there is one. -/
def Tree.op? : Tree V Op K → Option Op
  | instr op => some op
  | _ => none

/-- The operation that a call performs, if it performs one. -/
def Call.op? : Call V Op K → Option Op
  | handle op => some op
  | _ => none

/-! ## The last step -/

namespace Handler

/-- The node at which the machine stands has come to a value, and nothing has been done with the
value yet. -/
inductive Readies (h : Handler (StateM σ) V Op K) (M : Machine V Op K) (s : σ) (v : V) : σ → Prop
  | ret {s' : σ} (here : M.current = some (.ret v))
      (told : runFrom s (h.onReturn M.pending.isEmpty) = (.ok (), s')) : Readies h M s v s'
  | instr {op : Op} {s' : σ} (here : M.current = some (.instr op))
      (performed : runFrom s (h.handle M.depth op) = (.ok v, s')) : Readies h M s v s'

/-- The machine is at its end after the step, which answers as given and leaves as many
continuations waiting as given. -/
inductive Stops (h : Handler (StateM σ) V Op K) (M : Machine V Op K) (s : σ) :
    Except Fault (Progress V) → (depth : Nat) → σ → Prop
  | done {v v' : V} {s' : σ} (ready : h.Readies M s v s') (waiting : M.pending = [])
      (accepted : h.accept v = .ok v') : Stops h M s (.ok (.done v')) 0 s'
  /-- The operation could not be performed. -/
  | handle {op : Op} {fault : Fault} {s' : σ} (here : M.current = some (.instr op))
      (failed : runFrom s (h.handle M.depth op) = (.error fault, s')) :
      Stops h M s (.error fault) M.depth s'
  /-- The return could not be reported. -/
  | onReturn {v : V} {fault : Fault} {s' : σ} (here : M.current = some (.ret v))
      (failed : runFrom s (h.onReturn M.pending.isEmpty) = (.error fault, s')) :
      Stops h M s (.error fault) M.depth s'
  /-- The innermost continuation could not be resumed, be it for the type of the value. -/
  | resume {v : V} {next : K} {rest : List K} {fault : Fault} {s₁ s' : σ}
      (ready : h.Readies M s v s₁) (waiting : M.pending = next :: rest)
      (failed : runFrom s₁ (h.resume next v) = (.error fault, s')) :
      Stops h M s (.error fault) (M.depth - 1) s'
  /-- The value was none to end with; nothing had been waiting, so there is none less. -/
  | accept {v : V} {fault : Fault} {s' : σ} (ready : h.Readies M s v s')
      (waiting : M.pending = []) (failed : h.accept v = .error fault) :
      Stops h M s (.error fault) (M.depth - 1) s'

end Handler

namespace Machine

variable {h : Handler (StateM σ) V Op K} {M M' M₁ : Machine V Op K} {s s' s₁ : σ}
  {answer : Except Fault (Progress V)} {outcome : Except Fault V} {node : Tree V Op K}
  {nodes : List (Tree V Op K)}

/-- What a machine makes of a value that is ready: it goes on with another program, or has come to
its end. -/
theorem stops_or_more_of_deliver {v : V} (ready : h.Readies M s v s₁)
    (delivered : runFrom s₁ (M.deliver h v) = ((answer, M'), s')) :
    answer = .ok .more ∧ M'.current ≠ none ∨
      answer ≠ .ok .more ∧ M'.current = none ∧ h.Stops M s answer M'.depth s' := by
  obtain ⟨here, hM⟩ : ∃ tree, M = Tree.under tree M.pending := by
    cases ready with
    | ret here => exact ⟨_, eq_under here⟩
    | instr here => exact ⟨_, eq_under here⟩
  rw [hM] at delivered
  cases hpending : M.pending with
  | nil =>
    -- Nothing waits for the value, so this step is the last, whether or not the value is accepted.
    rw [hpending, deliver_nil] at delivered
    cases haccept : h.accept v with
    | error fault =>
      rw [haccept] at delivered
      cases delivered
      refine .inr ⟨by simp [Except.map], rfl, ?_⟩
      have hdepth : (idle [] : Machine V Op K).depth = M.depth - 1 := by
        simp [idle, M.depth_eq, hpending]
      rw [hdepth]
      exact .accept ready hpending haccept
    | ok v' =>
      rw [haccept] at delivered
      cases delivered
      exact .inr ⟨by simp [Except.map], rfl, .done ready hpending haccept⟩
  | cons next rest =>
    -- The innermost continuation is taken off, and makes the next program unless it fails.
    rw [hpending, deliver_cons, runFrom_bind] at delivered
    cases hresume : runFrom s₁ (h.resume next v) with
    | mk made s₂ =>
      rw [hresume] at delivered
      cases made with
      | error fault =>
        cases delivered
        refine .inr ⟨by simp, rfl, ?_⟩
        have hdepth : (idle rest : Machine V Op K).depth = M.depth - 1 := by
          simp [idle, M.depth_eq, hpending]
        rw [hdepth]
        exact .resume ready hpending hresume
      | ok tree =>
        cases delivered
        exact .inl ⟨rfl, by simp [Tree.under]⟩

/-- A step of a machine that has something to evaluate goes on, or it is the last. -/
theorem stops_or_more_of_step (here : M.current = some node)
    (step : runFrom s (M.step h) = ((answer, M'), s')) :
    answer = .ok .more ∧ M'.current ≠ none ∨
      answer ≠ .ok .more ∧ M'.current = none ∧ h.Stops M s answer M'.depth s' := by
  have hM := eq_under here
  have hdepth : (idle M.pending : Machine V Op K).depth = M.depth := M.depth_eq.symm
  -- A step of a composed program always goes on; the others do if what they call succeeds and the
  -- value is taken.
  cases node with
  | andThen first next =>
    rw [hM, step_andThen] at step
    cases step
    exact .inl ⟨rfl, by simp [Tree.under]⟩
  | ret v =>
    rw [hM, step_ret, runFrom_bind] at step
    cases htold : runFrom s (h.onReturn M.pending.isEmpty) with
    | mk told s₁ =>
      rw [htold] at step
      cases told with
      | error fault =>
        cases step
        refine .inr ⟨by simp, rfl, ?_⟩
        rw [hdepth]
        exact .onReturn here htold
      | ok =>
        rw [← hM] at step
        exact stops_or_more_of_deliver (.ret here htold) step
  | instr op =>
    rw [hM, step_instr, ← M.depth_eq, runFrom_bind] at step
    cases hperformed : runFrom s (h.handle M.depth op) with
    | mk performed s₁ =>
      rw [hperformed] at step
      cases performed with
      | error fault =>
        cases step
        refine .inr ⟨by simp, rfl, ?_⟩
        rw [hdepth]
        exact .handle here hperformed
      | ok v =>
        rw [← hM] at step
        exact stops_or_more_of_deliver (.instr here hperformed) step

/-! ## Driving a machine -/

/-- What may be asked of a machine. -/
inductive Drive where
  | step
  /-- To go on until it has ended. -/
  | toEnd
deriving DecidableEq, Repr

/-- A machine is driven once, and whoever drives it learns the answer even if that is a fault. -/
inductive Driven (h : Handler (StateM σ) V Op K) :
    Drive → Machine V Op K → σ → Except Fault (Progress V) → Machine V Op K → σ → Prop
  | step {M M' : Machine V Op K} {s s' : σ} {answer : Except Fault (Progress V)}
      (stepped : runFrom s (M.step h) = ((answer, M'), s')) : Driven h .step M s answer M' s'
  | toEnd {M M' : Machine V Op K} {s s' : σ} {outcome : Except Fault V} {fuel : Nat}
      (ran : runFrom s (M.run h fuel) = ((some outcome, M'), s')) :
      Driven h .toEnd M s (outcome.map .done) M' s'

/-- A machine is driven over and over, whatever the answers. -/
inductive Drives (h : Handler (StateM σ) V Op K) :
    List (Drive × Except Fault (Progress V)) → Machine V Op K → σ → Machine V Op K → σ → Prop
  | nil {M : Machine V Op K} {s : σ} : Drives h [] M s M s
  | cons {drive : Drive} {answer : Except Fault (Progress V)}
      {later : List (Drive × Except Fault (Progress V))} {M M₁ M' : Machine V Op K} {s s₁ s' : σ}
      (driven : Driven h drive M s answer M₁ s₁) (rest : Drives h later M₁ s₁ M' s') :
      Drives h ((drive, answer) :: later) M s M' s'

theorem step_of_finished (h : Handler (StateM σ) V Op K) (finished : M.current = none) :
    M.step h = pure (.error .machineFinished, M) := by
  rw [Machine.step, finished]

/-- However it is driven, a machine at its end fails and stays as it is. -/
theorem driven_of_finished (finished : M.current = none) {drive : Drive} :
    Driven h drive M s answer M' s' ↔ answer = .error .machineFinished ∧ M' = M ∧ s' = s := by
  constructor
  · rintro (stepped | @⟨_, _, _, _, _, fuel, ran⟩)
    · rw [step_of_finished h finished] at stepped
      cases stepped
      exact ⟨rfl, rfl, rfl⟩
    · cases fuel with
      | zero => cases ran
      | succ fuel =>
        rw [run, step_of_finished h finished] at ran
        cases ran
        exact ⟨rfl, rfl, rfl⟩
  · rintro ⟨rfl, rfl, rfl⟩
    cases drive with
    | step => exact .step (by rw [step_of_finished h finished]; rfl)
    | toEnd =>
      have ran : runFrom s' (M'.run h 1) = ((some (.error .machineFinished), M'), s') := by
        rw [run, step_of_finished h finished]
        rfl
      exact .toEnd ran

/-- However often it is driven, a machine at its end fails and stays as it is. -/
theorem drives_of_finished (finished : M.current = none)
    {later : List (Drive × Except Fault (Progress V))} :
    Drives h later M s M' s' ↔
      (∀ exchange ∈ later, exchange.2 = .error .machineFinished) ∧ M' = M ∧ s' = s := by
  induction later with
  | nil =>
    constructor
    · intro drives
      cases drives
      exact ⟨by simp, rfl, rfl⟩
    · rintro ⟨-, rfl, rfl⟩
      exact .nil
  | cons exchange later ih =>
    obtain ⟨drive, answer⟩ := exchange
    rw [List.forall_mem_cons]
    constructor
    · intro drives
      cases drives with
      | cons driven rest =>
        obtain ⟨rfl, rfl, rfl⟩ := (driven_of_finished finished).mp driven
        obtain ⟨hlater, rfl, rfl⟩ := ih.mp rest
        exact ⟨⟨rfl, hlater⟩, rfl, rfl⟩
    · rintro ⟨⟨rfl, hlater⟩, rfl, rfl⟩
      exact .cons ((driven_of_finished finished).mpr ⟨rfl, rfl, rfl⟩) (ih.mpr ⟨hlater, rfl, rfl⟩)

/-! ## The nodes of a run -/

/-- The machine is stepped, one node after the other, as long as there is more; only the last of
its steps may be one after which there is not. -/
inductive Walks (h : Handler (StateM σ) V Op K) :
    Machine V Op K → σ → List (Tree V Op K) → Machine V Op K → σ → Prop
  | here {M : Machine V Op K} {s : σ} : Walks h M s [] M s
  | last {M M' : Machine V Op K} {s s' : σ} {node : Tree V Op K}
      {answer : Except Fault (Progress V)} (here : M.current = some node)
      (step : runFrom s (M.step h) = ((answer, M'), s')) (ended : answer ≠ .ok .more) :
      Walks h M s [node] M' s'
  | more {M M₁ M' : Machine V Op K} {s s₁ s' : σ} {node : Tree V Op K}
      {nodes : List (Tree V Op K)} (here : M.current = some node)
      (step : runFrom s (M.step h) = ((.ok .more, M₁), s₁)) (rest : Walks h M₁ s₁ nodes M' s') :
      Walks h M s (node :: nodes) M' s'

theorem Walks.of_step (here : M.current = some node)
    (step : runFrom s (M.step h) = ((answer, M'), s')) : Walks h M s [node] M' s' := by
  by_cases hmore : answer = .ok .more
  · subst hmore
    exact .more here step .here
  · exact .last here step hmore

/-- There is nothing to walk from an end. -/
theorem Walks.of_finished (finished : M.current = none) (walk : Walks h M s nodes M' s') :
    nodes = [] ∧ M' = M ∧ s' = s := by
  cases walk with
  | here => exact ⟨rfl, rfl, rfl⟩
  | last here => cases finished.symm.trans here
  | more here => cases finished.symm.trans here

theorem Walks.trans {M₂ : Machine V Op K} {s₂ : σ} {further : List (Tree V Op K)}
    (walk : Walks h M s nodes M₁ s₁) (walk' : Walks h M₁ s₁ further M₂ s₂) :
    Walks h M s (nodes ++ further) M₂ s₂ := by
  induction walk with
  | here => exact walk'
  | last here step ended =>
    obtain ⟨hmore, -⟩ | ⟨-, finished, -⟩ := stops_or_more_of_step here step
    · exact absurd hmore ended
    · obtain ⟨rfl, rfl, rfl⟩ := walk'.of_finished finished
      exact .last here step ended
  | more here step rest ih => exact .more here step (ih walk')

/-- A bounded run that has ended is a walk up to its last step, and that step. -/
theorem exists_stops_of_run {fuel : Nat} (here : M.current ≠ none)
    (ran : runFrom s (M.run h fuel) = ((some outcome, M'), s')) :
    M'.current = none ∧ ∃ nodes node M₁ s₁, Walks h M s nodes M₁ s₁ ∧
      h.Stops M₁ s₁ (outcome.map .done) M'.depth s' ∧ Walks h M s (nodes ++ [node]) M' s' := by
  induction fuel generalizing M s with
  | zero => cases ran
  | succ fuel ih =>
    obtain ⟨node, here⟩ := Option.ne_none_iff_exists'.mp here
    rw [run, runFrom_bind] at ran
    cases hstep : runFrom s (M.step h) with
    | mk stepped s₁ =>
      obtain ⟨answer, M₁⟩ := stepped
      rw [hstep] at ran
      obtain ⟨rfl, hcurrent⟩ | ⟨hended, hfinished, hstops⟩ := stops_or_more_of_step here hstep
      · obtain ⟨hfinished, nodes, last, M₂, s₂, hwalk, hstops, hwhole⟩ := ih hcurrent ran
        exact ⟨hfinished, node :: nodes, last, M₂, s₂, .more here hstep hwalk, hstops,
          .more here hstep hwhole⟩
      · -- The first step is the last one, and the run answers with it.
        have hwalk : Walks h M s [node] M₁ s₁ := .last here hstep hended
        rcases answer with fault | progress
        · cases ran
          exact ⟨hfinished, [], node, M, s, .here, hstops, hwalk⟩
        · cases progress with
          | more => exact absurd rfl hended
          | done v =>
            cases ran
            exact ⟨hfinished, [], node, M, s, .here, hstops, hwalk⟩

/-- However a machine is driven, it goes on with its walk. -/
theorem Driven.exists_walks {drive : Drive} (driven : Driven h drive M s answer M' s') :
    ∃ nodes, Walks h M s nodes M' s' := by
  by_cases hfinished : M.current = none
  · obtain ⟨-, rfl, rfl⟩ := (driven_of_finished hfinished).mp driven
    exact ⟨[], .here⟩
  · cases driven with
    | step stepped =>
      obtain ⟨node, here⟩ := Option.ne_none_iff_exists'.mp hfinished
      exact ⟨[node], .of_step here stepped⟩
    | toEnd ran =>
      obtain ⟨-, nodes, node, -, -, -, -, hwalk⟩ := exists_stops_of_run hfinished ran
      exact ⟨nodes ++ [node], hwalk⟩

theorem Drives.exists_walks {exchanges : List (Drive × Except Fault (Progress V))}
    (drives : Drives h exchanges M s M' s') : ∃ nodes, Walks h M s nodes M' s' := by
  induction drives with
  | nil => exact ⟨[], .here⟩
  | cons driven rest ih =>
    obtain ⟨nodes, hwalk⟩ := driven.exists_walks
    obtain ⟨further, hrest⟩ := ih
    exact ⟨nodes ++ further, hwalk.trans hrest⟩

/-- The first answer that is not that there is more comes with the last step of a machine. -/
theorem Driven.exists_stops {drive : Drive} (driven : Driven h drive M s answer M' s')
    (here : M.current ≠ none) (ended : answer ≠ .ok .more) :
    M'.current = none ∧ ∃ nodes M₁ s₁, (drive = .step → nodes = []) ∧ Walks h M s nodes M₁ s₁ ∧
      h.Stops M₁ s₁ answer M'.depth s' := by
  cases driven with
  | step stepped =>
    obtain ⟨node, here⟩ := Option.ne_none_iff_exists'.mp here
    obtain ⟨hmore, -⟩ | ⟨-, hfinished, hstops⟩ := stops_or_more_of_step here stepped
    · exact absurd hmore ended
    · exact ⟨hfinished, [], M, s, fun _ => rfl, .here, hstops⟩
  | toEnd ran =>
    obtain ⟨hfinished, nodes, -, M₁, s₁, hwalk, hstops, -⟩ := exists_stops_of_run here ran
    exact ⟨hfinished, nodes, M₁, s₁, by simp, hwalk, hstops⟩

/-- As long as there is more, the machine has something to evaluate. -/
theorem Drives.current_ne_none {exchanges : List (Drive × Except Fault (Progress V))}
    (drives : Drives h exchanges M s M' s') (here : M.current ≠ none)
    (goingOn : ∀ exchange ∈ exchanges, exchange.2 = .ok .more) : M'.current ≠ none := by
  induction drives with
  | nil => exact here
  | cons driven rest ih =>
    rw [List.forall_mem_cons] at goingOn
    obtain ⟨rfl, hlater⟩ := goingOn
    generalize hanswer : (.ok .more : Except Fault (Progress V)) = answer at driven
    refine ih ?_ hlater
    cases driven with
    | step stepped =>
      obtain ⟨node, here⟩ := Option.ne_none_iff_exists'.mp here
      obtain ⟨-, hcurrent⟩ | ⟨hended, -⟩ := stops_or_more_of_step here stepped
      · exact hcurrent
      · exact absurd hanswer.symm hended
    | @toEnd _ _ _ _ outcome =>
      -- A run to the end does not answer that there is more.
      rcases outcome <;> cases hanswer

/-! ## What a machine has performed -/

section Recorded

variable {h : Handler (StateM σ) V Op K} {s s' : σ} {calls calls' : List (Call V Op K)}

/-- To resume a continuation performs nothing. -/
theorem op?_of_deliver {tree : Tree V Op K} {pending : List K} {v : V}
    (delivered : runFrom (s, calls) ((tree.under pending).deliver h.recorded v) =
      ((answer, M'), s', calls')) :
    calls'.filterMap Call.op? = calls.filterMap Call.op? := by
  cases pending with
  | nil =>
    rw [deliver_nil] at delivered
    cases delivered
    rfl
  | cons next rest =>
    rw [deliver_cons, runFrom_bind] at delivered
    rcases hresume : runFrom (s, calls) (h.recorded.resume next v) with ⟨made, s₁, calls₁⟩
    have hcalls : calls₁ = calls ++ [.resume next v] := congrArg (·.2.2) hresume.symm
    rw [hresume] at delivered
    cases made <;> cases delivered <;> simp [hcalls, Call.op?]

/-- A step performs the operation at its node, if there is one, and it does so once. -/
theorem op?_of_step (here : M.current = some node)
    (step : runFrom (s, calls) (M.step h.recorded) = ((answer, M'), s', calls')) :
    calls'.filterMap Call.op? = calls.filterMap Call.op? ++ node.op?.toList := by
  rw [eq_under here] at step
  cases node with
  | andThen first next =>
    rw [step_andThen] at step
    cases step
    simp [Tree.op?]
  | ret v =>
    rw [step_ret, runFrom_bind] at step
    rcases htold : runFrom (s, calls) (h.recorded.onReturn M.pending.isEmpty) with
      ⟨told, s₁, calls₁⟩
    have hcalls : calls₁ = calls ++ [.onReturn M.pending.isEmpty] := congrArg (·.2.2) htold.symm
    rw [htold] at step
    cases told with
    | error fault =>
      cases step
      simp [hcalls, Call.op?, Tree.op?]
    | ok =>
      rw [op?_of_deliver step]
      simp [hcalls, Call.op?, Tree.op?]
  | instr op =>
    rw [step_instr, runFrom_bind] at step
    rcases hperformed : runFrom (s, calls) (h.recorded.handle M.pending.length op) with
      ⟨performed, s₁, calls₁⟩
    have hcalls : calls₁ = calls ++ [.handle op] := congrArg (·.2.2) hperformed.symm
    rw [hperformed] at step
    cases performed with
    | error fault =>
      cases step
      simp [hcalls, Call.op?, Tree.op?]
    | ok v =>
      rw [op?_of_deliver step]
      simp [hcalls, Call.op?, Tree.op?]

/-- The operations that have been performed on a walk are those at its nodes, each once. -/
theorem Walks.performed (walk : Walks h.recorded M (s, calls) nodes M' (s', calls')) :
    calls'.filterMap Call.op? = calls.filterMap Call.op? ++ nodes.filterMap Tree.op? := by
  generalize hstart : (s, calls) = start at walk
  generalize hend : (s', calls') = finish at walk
  induction walk generalizing s calls with
  | here =>
    cases hstart.trans hend.symm
    simp
  | last here step ended =>
    subst hstart hend
    rw [op?_of_step here step, List.filterMap_cons]
    cases Tree.op? _ <;> rfl
  | @more _ _ _ _ s₁ _ _ _ here step rest ih =>
    subst hstart
    obtain ⟨s₁, calls₁⟩ := s₁
    rw [ih rfl hend, op?_of_step here step, List.append_assoc, List.filterMap_cons]
    cases Tree.op? _ <;> rfl

end Recorded

/-- **A machine is dead once it has ended.** Let a machine at the root of a program be driven in any
way, by single steps and by runs to the end, whoever drives it catching all faults. The first
answer that is not that there is more comes with its last step, which leaves no continuation
waiting if the program has yielded its value, all that waited if an operation could not be
performed or a return not be reported, and one less, if there was one, if the value could not be
delivered. From then on the machine can be driven as long as one likes: each answer is the same
fault, nothing is performed, reported or resumed, and what waits goes on waiting. And always, the
operations performed so far are those of the nodes that one walk of the machine has come to, each
performed once. -/
theorem dead_once_ended (h : Handler (StateM σ) V Op K) (tree : Tree V Op K) (s : σ) :
    (∀ {before drive answer M₀ state₀ M state},
      Drives h.recorded before (start tree) (s, []) M₀ state₀ →
      (∀ exchange ∈ before, exchange.2 = .ok .more) →
      Driven h.recorded drive M₀ state₀ answer M state → answer ≠ .ok .more →
      M.isDone ∧
      (∃ nodes M₁ state₁, (drive = .step → nodes = []) ∧
        Walks h.recorded M₀ state₀ nodes M₁ state₁ ∧
        h.recorded.Stops M₁ state₁ answer M.depth state) ∧
      ∀ later M' state', Drives h.recorded later M state M' state' ↔
        (∀ exchange ∈ later, exchange.2 = .error .machineFinished) ∧ M' = M ∧ state' = state) ∧
    (∀ {exchanges M s' calls}, Drives h.recorded exchanges (start tree) (s, []) M (s', calls) →
      ∃ nodes, Walks h.recorded (start tree) (s, []) nodes M (s', calls) ∧
        calls.filterMap Call.op? = nodes.filterMap Tree.op?) ∧
    ∀ name, Fault.machineFinished.text? name =
      some "Internal error: step() called on a finished VM" := by
  refine ⟨fun drives goingOn driven ended => ?_, fun drives => ?_, fun _ => rfl⟩
  · have here := drives.current_ne_none (by simp [start]) goingOn
    obtain ⟨hfinished, hstops⟩ := driven.exists_stops here ended
    refine ⟨by simp [isDone, hfinished], hstops, fun later M' state' => ?_⟩
    exact drives_of_finished hfinished
  · obtain ⟨nodes, hwalk⟩ := drives.exists_walks
    exact ⟨nodes, hwalk, by simpa using hwalk.performed⟩

/-- One operation yields a number and the other cannot be performed; every continuation goes on
with the latter. What has been tried is counted. -/
def jamming : Handler (StateM Nat) Nat Bool Unit where
  handle _ works := do
    modify (· + 1)
    pure (if works then .ok 7 else .error (.literal "jammed"))
  onReturn _ := pure (.ok ())
  resume _ _ := pure (.ok (.instr false))
  accept := .ok

/-- A machine that jams with a continuation waiting keeps it waiting, and is not to be had to try
again. -/
theorem dead_once_ended_jamming :
    ∃ M calls, Drives jamming.recorded
      [(.step, .ok .more), (.toEnd, .error (.literal "jammed")), (.toEnd, .error .machineFinished),
        (.step, .error .machineFinished)]
      (start (((Tree.instr true).andThen ()).andThen ())) (0, []) M (2, calls) ∧
      M.depth = 1 ∧ calls.filterMap Call.op? = [true, false] := by
  have hstep : Driven jamming.recorded .step (start (((Tree.instr true).andThen ()).andThen ()))
      (0, []) (.ok .more) (((Tree.instr true).andThen ()).under [()]) (0, []) := .step rfl
  obtain ⟨M, calls, ran, hdepth, hcalls⟩ : ∃ M calls,
      runFrom (0, []) ((((Tree.instr true).andThen ()).under [()]).run jamming.recorded 3) =
        ((some (.error (.literal "jammed")), M), 2, calls) ∧ M.depth = 1 ∧
        calls.filterMap Call.op? = [true, false] := ⟨_, _, rfl, rfl, rfl⟩
  have hrun : Driven jamming.recorded .toEnd (((Tree.instr true).andThen ()).under [()]) (0, [])
      (.error (.literal "jammed")) M (2, calls) := .toEnd ran
  obtain ⟨-, -, hlater⟩ := (dead_once_ended jamming _ 0).1 (.cons hstep .nil) (by simp) hrun
    (by simp)
  have hrest := (hlater [(.toEnd, .error .machineFinished), (.step, .error .machineFinished)] M
    (2, calls)).mpr ⟨by simp, rfl, rfl⟩
  exact ⟨M, calls, .cons hstep (.cons hrun hrest), hdepth, hcalls⟩

end Machine

end FiberPrograms
