import FiberPrograms.Proofs.FinishedMachines
import FiberPrograms.Proofs.FoundedPrograms
import FiberPrograms.Proofs.Semantics

/-!
# What a run takes

A step that answers does one of three things: it enters the first program of a node and leaves the
continuation of the node waiting, or it hands the value of a leaf to the continuation that has been
left waiting last, or it ends the run with that value, if none waits. So all that a run does can be
read off the nodes that it comes to. As often as a continuation is left waiting one is taken off,
but for the last leaf, which finds none; hence a run that comes to its value takes one step more
than twice as many as it enters nodes, and each leaf of it is one call of the handler.

## Main definitions

* `Tree.pushed`, `Tree.leaves`: what is left waiting on a way through nodes, and how often a value
  has been ready on it
* `Tree.unwound`: what is resumed on that way, the last first
* `Machine.Stride`, `Machine.Strides`: what a step does that answers, and what steps do on a way
* `Machine.RunCounts`: what a run takes that comes to its value
* `Handler.Serves`: no call fails in a run

## Main results

* `Machine.run_recorded`: a run is the same whether or not a record is kept of its calls
* `Machine.stride_of_step`: a step that answers does one of three things
* `Machine.Strides.depth_add`, `Machine.Strides.unwound_append`, `Machine.Strides.pushed_perm`,
  `Machine.Strides.handled`: what has been done on the way to a state of a run
* `Machine.termination_and_step_counts`: runs of founded programs end, and what they take
-/

namespace FiberPrograms

variable {V Op K σ : Type}

/-! ## Ways through nodes -/

namespace Tree

/-- The continuation that is left waiting where the first program of a node is entered. -/
def next? : Tree V Op K → Option K
  | andThen _ next => some next
  | _ => none

/-- The call that is made of the handler where a leaf is evaluated. -/
def call? (outermost : Bool) : Tree V Op K → Option (Call V Op K)
  | ret _ => some (.onReturn outermost)
  | instr op => some (.handle op)
  | andThen _ _ => none

/-- The continuations that are left waiting on the way through some nodes. -/
def pushed (nodes : List (Tree V Op K)) : List K :=
  nodes.filterMap next?

/-- How many of the nodes are leaves. -/
def leaves (nodes : List (Tree V Op K)) : Nat :=
  nodes.countP (·.next?.isNone)

/-- The continuations that are resumed on the way through some nodes, over those that wait at first:
with each leaf the one that has been left waiting last of all that still wait. -/
def unwound : (waiting : List K) → (nodes : List (Tree V Op K)) → List K
  | _, [] => []
  | waiting, node :: nodes =>
    match node.next?, waiting with
    | some next, _ => unwound (next :: waiting) nodes
    | none, [] => unwound [] nodes
    | none, next :: rest => next :: unwound rest nodes

section Ways

variable {first node : Tree V Op K} {next : K} {waiting : List K} {nodes : List (Tree V Op K)}

@[simp] theorem pushed_andThen : pushed (first.andThen next :: nodes) = next :: pushed nodes := rfl

theorem pushed_leaf (hleaf : node.next? = none) : pushed (node :: nodes) = pushed nodes :=
  List.filterMap_cons_none hleaf

@[simp] theorem leaves_andThen : leaves (first.andThen next :: nodes) = leaves nodes := rfl

theorem leaves_leaf (hleaf : node.next? = none) : leaves (node :: nodes) = leaves nodes + 1 := by
  rw [leaves, List.countP_cons_of_pos (by simp [hleaf]), leaves]

@[simp] theorem unwound_andThen :
    unwound waiting (first.andThen next :: nodes) = unwound (next :: waiting) nodes := rfl

theorem unwound_leaf (hleaf : node.next? = none) :
    unwound (next :: waiting) (node :: nodes) = next :: unwound waiting nodes := by
  simp only [unwound, hleaf]

theorem unwound_last (hleaf : node.next? = none) : unwound [] [node] = [] := by
  simp only [unwound, hleaf]

end Ways

/-- Each node is a leaf or leaves a continuation waiting. -/
theorem leaves_add_pushed (nodes : List (Tree V Op K)) :
    leaves nodes + (pushed nodes).length = nodes.length := by
  induction nodes with
  | nil => rfl
  | cons node nodes ih =>
    cases hnode : node.next? with
    | none =>
      rw [leaves_leaf hnode, pushed_leaf hnode, List.length_cons]
      omega
    | some next =>
      cases node <;> cases hnode
      rw [leaves_andThen, pushed_andThen, List.length_cons, List.length_cons]
      omega

end Tree

namespace Call

/-- The continuation that a call resumes, if it resumes one. -/
def next? : Call V Op K → Option K
  | resume next _ => some next
  | _ => none

end Call

namespace Tree

variable {outermost : Bool} {leaf : Tree V Op K} {call : Call V Op K}

/-- The handler is called at each leaf. -/
theorem length_filterMap_call? (nodes : List (Tree V Op K)) :
    (nodes.filterMap (call? outermost)).length = leaves nodes := by
  induction nodes with
  | nil => rfl
  | cons node nodes ih =>
    cases node with
    | andThen first next => rw [leaves_andThen, ← ih]; rfl
    | ret v => rw [leaves_leaf rfl, ← ih]; rfl
    | instr op => rw [leaves_leaf rfl, ← ih]; rfl

/-- It is a leaf where the handler is called. -/
theorem next?_of_call? (hcall : leaf.call? outermost = some call) : leaf.next? = none := by
  cases leaf <;> cases hcall <;> rfl

/-- Of the calls that are made where a value is handed on, one resumes a continuation. -/
theorem resumed_of_call? (hcall : leaf.call? outermost = some call) (next : K) (v : V) :
    [call, .resume next v].filterMap Call.next? = [next] := by
  cases leaf <;> cases hcall <;> rfl

/-- The other one is a call of the handler. -/
theorem handled_of_call? (hcall : leaf.call? outermost = some call) (next : K) (v : V) :
    [call, .resume next v].filter Call.isHandler = [call] := by
  cases leaf <;> cases hcall <;> rfl

end Tree

namespace Machine

/-! ## Records of calls -/

section Records

variable (h : Handler (StateM σ) V Op K)

theorem deliver_recorded (tree : Tree V Op K) (pending : List K) (v : V) (s : σ)
    (calls : List (Call V Op K)) :
    ∃ made, runFrom (s, calls) ((tree.under pending).deliver h.recorded v) =
      ((runFrom s ((tree.under pending).deliver h v)).1,
        (runFrom s ((tree.under pending).deliver h v)).2, calls ++ made) := by
  cases pending with
  | nil =>
    rw [deliver_nil, deliver_nil]
    exact ⟨[], by simp [Handler.recorded, Handler.recordedIf]⟩
  | cons next rest =>
    have hresume : runFrom (s, calls) (h.recorded.resume next v) =
      ((runFrom s (h.resume next v)).1, (runFrom s (h.resume next v)).2,
        calls ++ [.resume next v]) := rfl
    rw [deliver_cons, deliver_cons, runFrom_bind, runFrom_bind, hresume]
    rcases runFrom s (h.resume next v) with ⟨fault | made, s₁⟩ <;>
      exact ⟨[.resume next v], rfl⟩

/-- A step comes to the same whether or not a record is kept of the calls. -/
theorem step_recorded (M : Machine V Op K) (s : σ) (calls : List (Call V Op K)) :
    ∃ made, runFrom (s, calls) (M.step h.recorded) =
      ((runFrom s (M.step h)).1, (runFrom s (M.step h)).2, calls ++ made) := by
  -- A step makes one call, for its node, and may make another when it hands the value on.
  cases hcurrent : M.current with
  | none =>
    rw [step_of_finished _ hcurrent, step_of_finished _ hcurrent]
    exact ⟨[], by simp⟩
  | some node =>
    rw [eq_under hcurrent]
    cases node with
    | andThen first next => exact ⟨[], by simp [step_andThen]⟩
    | ret v =>
      have htold : runFrom (s, calls) (h.recorded.onReturn M.pending.isEmpty) =
        ((runFrom s (h.onReturn M.pending.isEmpty)).1, (runFrom s (h.onReturn M.pending.isEmpty)).2,
          calls ++ [.onReturn M.pending.isEmpty]) := rfl
      rw [step_ret, step_ret, runFrom_bind, runFrom_bind, htold]
      rcases runFrom s (h.onReturn M.pending.isEmpty) with ⟨fault | _, s₁⟩
      · exact ⟨[.onReturn M.pending.isEmpty], rfl⟩
      · obtain ⟨made, hmade⟩ := deliver_recorded h (Tree.ret v) M.pending v s₁
          (calls ++ [.onReturn M.pending.isEmpty])
        exact ⟨.onReturn M.pending.isEmpty :: made, by simpa using hmade⟩
    | instr op =>
      have hperformed : runFrom (s, calls) (h.recorded.handle M.pending.length op) =
        ((runFrom s (h.handle M.pending.length op)).1, (runFrom s (h.handle M.pending.length op)).2,
          calls ++ [.handle op]) := rfl
      rw [step_instr, step_instr, runFrom_bind, runFrom_bind, hperformed]
      rcases runFrom s (h.handle M.pending.length op) with ⟨fault | v, s₁⟩
      · exact ⟨[.handle op], rfl⟩
      · obtain ⟨made, hmade⟩ := deliver_recorded h (Tree.instr op) M.pending v s₁
          (calls ++ [.handle op])
        exact ⟨.handle op :: made, by simpa using hmade⟩

/-- So does a bounded run. -/
theorem run_recorded (fuel : Nat) (M : Machine V Op K) (s : σ) (calls : List (Call V Op K)) :
    ∃ made, runFrom (s, calls) (M.run h.recorded fuel) =
      ((runFrom s (M.run h fuel)).1, (runFrom s (M.run h fuel)).2, calls ++ made) := by
  induction fuel generalizing M s calls with
  | zero => exact ⟨[], by simp [run]⟩
  | succ fuel ih =>
    obtain ⟨made, hstep⟩ := step_recorded h M s calls
    rw [run, run, runFrom_bind, runFrom_bind, hstep]
    rcases runFrom s (M.step h) with ⟨⟨fault | progress, M₁⟩, s₁⟩
    · exact ⟨made, rfl⟩
    · cases progress with
      | done v => exact ⟨made, rfl⟩
      | more =>
        obtain ⟨further, hrun⟩ := ih M₁ s₁ (calls ++ made)
        exact ⟨made ++ further, by simpa using hrun⟩

end Records

/-! ## Steps that answer -/

/-- What a step does that answers, at a node under what is waiting, and the calls that it makes. -/
inductive Stride :
    (node : Tree V Op K) → (pending : List K) → List (Call V Op K) → Progress V →
      Machine V Op K → Prop
  /-- The first program of a node is entered. -/
  | enter (first : Tree V Op K) (next : K) (pending : List K) :
      Stride (first.andThen next) pending [] .more (first.under (next :: pending))
  /-- The value of a leaf is handed to the innermost waiting continuation. -/
  | resume {leaf : Tree V Op K} {call : Call V Op K} (hcall : leaf.call? false = some call)
      (next : K) (rest : List K) (v : V) (made : Tree V Op K) :
      Stride leaf (next :: rest) [call, .resume next v] .more (made.under rest)
  /-- The value of a leaf ends the run. -/
  | finish {leaf : Tree V Op K} {call : Call V Op K} (hcall : leaf.call? true = some call) (v : V) :
      Stride leaf [] [call] (.done v) (idle [])

section Recorded

variable {h : Handler (StateM σ) V Op K} {M M' M₁ : Machine V Op K} {s s' : σ}
  {calls calls' made : List (Call V Op K)} {node : Tree V Op K} {nodes : List (Tree V Op K)}
  {progress : Progress V}

/-- A value that is ready at a leaf is handed on, or ends the run. -/
theorem stride_of_deliver {leaf : Tree V Op K} {pending : List K} {call : Call V Op K} {v : V}
    (hcall : leaf.call? pending.isEmpty = some call)
    (delivered : runFrom (s, calls ++ [call]) ((leaf.under pending).deliver h.recorded v) =
      ((.ok progress, M'), s', calls')) :
    ∃ made, calls' = calls ++ made ∧ Stride leaf pending made progress M' := by
  cases pending with
  | nil =>
    rw [deliver_nil] at delivered
    cases haccept : h.recorded.accept v with
    | error fault =>
      rw [haccept] at delivered
      cases delivered
    | ok v' =>
      rw [haccept] at delivered
      cases delivered
      exact ⟨[call], rfl, .finish hcall v'⟩
  | cons next rest =>
    rw [deliver_cons, runFrom_bind] at delivered
    rcases hresume : runFrom (s, calls ++ [call]) (h.recorded.resume next v) with
      ⟨answer, s₁, calls₁⟩
    have hcalls : calls₁ = calls ++ [call] ++ [.resume next v] := congrArg (·.2.2) hresume.symm
    rw [hresume] at delivered
    cases answer with
    | error fault => cases delivered
    | ok tree =>
      cases delivered
      exact ⟨[call, .resume next v], by simp [hcalls], .resume hcall next rest v tree⟩

/-- A step that answers does one of three things. -/
theorem stride_of_step (here : M.current = some node)
    (step : runFrom (s, calls) (M.step h.recorded) = ((.ok progress, M'), s', calls')) :
    ∃ made, calls' = calls ++ made ∧ Stride node M.pending made progress M' := by
  rw [eq_under here] at step
  cases node with
  | andThen first next =>
    rw [step_andThen] at step
    cases step
    exact ⟨[], by simp, .enter first next M.pending⟩
  | ret v =>
    rw [step_ret, runFrom_bind] at step
    rcases htold : runFrom (s, calls) (h.recorded.onReturn M.pending.isEmpty) with
      ⟨told, s₁, calls₁⟩
    have hcalls : calls₁ = calls ++ [.onReturn M.pending.isEmpty] := congrArg (·.2.2) htold.symm
    rw [htold] at step
    cases told with
    | error fault => cases step
    | ok =>
      subst hcalls
      exact stride_of_deliver rfl step
  | instr op =>
    rw [step_instr, runFrom_bind] at step
    rcases hperformed : runFrom (s, calls) (h.recorded.handle M.pending.length op) with
      ⟨performed, s₁, calls₁⟩
    have hcalls : calls₁ = calls ++ [.handle op] := congrArg (·.2.2) hperformed.symm
    rw [hperformed] at step
    cases performed with
    | error fault => cases step
    | ok v =>
      subst hcalls
      exact stride_of_deliver rfl step

/-! ## Ways -/

/-- The machine is stepped, one node after the other, each time with the answer that there is more;
with the calls that this makes. -/
inductive Strides : Machine V Op K → List (Tree V Op K) → List (Call V Op K) → Machine V Op K → Prop
  | here {M : Machine V Op K} : Strides M [] [] M
  | more {M₁ M' : Machine V Op K} {node : Tree V Op K} {pending : List K}
      {nodes : List (Tree V Op K)} {made calls : List (Call V Op K)}
      (stride : Stride node pending made .more M₁) (rest : Strides M₁ nodes calls M') :
      Strides (node.under pending) (node :: nodes) (made ++ calls) M'

/-- The way to a state of a run in which there is something left to evaluate. -/
theorem Walks.strides (walk : Walks h.recorded M (s, calls) nodes M' (s', calls'))
    (goingOn : M'.current ≠ none) :
    ∃ made, calls' = calls ++ made ∧ Strides M nodes made M' := by
  generalize hstart : (s, calls) = start at walk
  generalize hend : (s', calls') = finish at walk
  induction walk generalizing s calls with
  | here =>
    cases hstart.trans hend.symm
    exact ⟨[], by simp, .here⟩
  | last here step ended =>
    obtain ⟨hmore, -⟩ | ⟨-, hfinished, -⟩ := stops_or_more_of_step here step
    · exact absurd hmore ended
    · exact absurd hfinished goingOn
  | @more _ _ _ _ s₁ _ _ _ here step rest ih =>
    subst hstart
    obtain ⟨s₁, calls₁⟩ := s₁
    obtain ⟨made, rfl, hstride⟩ := stride_of_step here step
    obtain ⟨more, rfl, hstrides⟩ := ih goingOn rfl hend
    rw [eq_under here]
    exact ⟨made ++ more, List.append_assoc .., .more hstride hstrides⟩

/-- As many continuations wait as have been left waiting without one having been taken off. -/
theorem Strides.depth_add (way : Strides M nodes made M') :
    M'.depth + Tree.leaves nodes = M.depth + (Tree.pushed nodes).length := by
  induction way with
  | here => rfl
  | more stride rest ih =>
    cases stride with
    | enter first next pending =>
      rw [Tree.leaves_andThen, ih, Tree.pushed_andThen]
      simp only [Tree.under, List.length_cons]
      omega
    | resume hcall next rest v made =>
      have hleaf := Tree.next?_of_call? hcall
      rw [Tree.leaves_leaf hleaf, ← Nat.add_assoc, ih, Tree.pushed_leaf hleaf]
      simp only [Tree.under, List.length_cons]
      omega

/-- Values have gone to the continuations that had been left waiting last, whatever nodes follow. -/
theorem Strides.unwound_append (way : Strides M nodes made M') (later : List (Tree V Op K)) :
    Tree.unwound M.pending (nodes ++ later) =
      made.filterMap Call.next? ++ Tree.unwound M'.pending later := by
  induction way with
  | here => rfl
  | more stride rest ih =>
    rw [List.filterMap_append, List.append_assoc, ← ih]
    cases stride with
    | enter first next pending => rfl
    | resume hcall next rest v made =>
      rw [Tree.resumed_of_call? hcall]
      exact Tree.unwound_leaf (Tree.next?_of_call? hcall)

/-- What had been left waiting has been resumed since, or still waits. -/
theorem Strides.pushed_perm (way : Strides M nodes made M') :
    (M.pending ++ Tree.pushed nodes).Perm (made.filterMap Call.next? ++ M'.pending) := by
  induction way with
  | here => simp [Tree.pushed]
  | more stride rest ih =>
    cases stride with
    | enter first next pending => exact List.perm_middle.trans ih
    | resume hcall next rest v made =>
      rw [Tree.pushed_leaf (Tree.next?_of_call? hcall), List.filterMap_append,
        Tree.resumed_of_call? hcall]
      exact ih.cons next

/-- The handler has been called at each leaf, and never told that a value was outermost. -/
theorem Strides.handled (way : Strides M nodes made M') :
    made.filter Call.isHandler = nodes.filterMap (Tree.call? false) := by
  induction way with
  | here => rfl
  | more stride rest ih =>
    rw [List.filter_append, ih]
    cases stride with
    | enter first next pending => rfl
    | resume hcall next rest v made =>
      rw [Tree.handled_of_call? hcall, List.filterMap_cons_some hcall]
      rfl

/-- Nobody has been told so far that a value was outermost. -/
theorem Strides.onReturn_true_notMem (way : Strides M nodes made M') :
    Call.onReturn true ∉ made := by
  intro hmem
  have hhandled : Call.onReturn true ∈ made.filter Call.isHandler :=
    List.mem_filter.mpr ⟨hmem, rfl⟩
  rw [way.handled] at hhandled
  obtain ⟨node, -, hcall⟩ := List.mem_filterMap.mp hhandled
  cases node <;> cases hcall

/-! ## Runs that come to their value -/

/-- A bounded run that has come to its value is a way to its last leaf, and the step at that. -/
theorem exists_stride_of_run {fuel : Nat} {v : V} (here : M.current ≠ none)
    (ran : runFrom (s, calls) (M.run h.recorded fuel) = ((some (.ok v), M'), s', calls')) :
    ∃ nodes leaf M₁ s₁ made last, M₁.current = some leaf ∧
      Walks h.recorded M (s, calls) nodes M₁ (s₁, calls ++ made) ∧
      Stride leaf M₁.pending last (.done v) M' ∧ calls' = calls ++ made ++ last ∧
      Walks h.recorded M (s, calls) (nodes ++ [leaf]) M' (s', calls') ∧
      h.recorded.Ends M (s, calls) (nodes.length + 1) (.ok v) (s', calls') := by
  induction fuel generalizing M s calls with
  | zero => cases ran
  | succ fuel ih =>
    obtain ⟨node, here⟩ := Option.ne_none_iff_exists'.mp here
    rw [run, runFrom_bind] at ran
    rcases hstep : runFrom (s, calls) (M.step h.recorded) with ⟨⟨answer, M₁⟩, s₁, calls₁⟩
    rw [hstep] at ran
    rcases answer with fault | progress
    · cases ran
    · obtain ⟨made, rfl, hstride⟩ := stride_of_step here hstep
      cases progress with
      | done v' =>
        cases ran
        exact ⟨[], node, M, s, [], made, here, by simpa using Walks.here, hstride, by simp,
          .last here hstep (by simp), .value hstep⟩
      | more =>
        -- There is more to come, so the run goes on from the next node.
        have here₁ : M₁.current ≠ none := by
          obtain ⟨-, hcurrent⟩ | ⟨hended, -⟩ := stops_or_more_of_step here hstep
          · exact hcurrent
          · exact absurd rfl hended
        obtain ⟨nodes, leaf, M₂, s₂, made₂, last, hleaf, hwalk, hlast, rfl, hwhole, hends⟩ :=
          ih here₁ ran
        refine ⟨node :: nodes, leaf, M₂, s₂, made ++ made₂, last, hleaf, ?_, hlast, ?_,
          .more here hstep hwhole, .more hstep hends⟩
        · rw [← List.append_assoc]
          exact .more here hstep hwalk
        · rw [← List.append_assoc]

end Recorded

/-- What a run has taken that has come to its value, on the way through `nodes` and with `calls`,
the machine standing as `M` in the end. -/
structure RunCounts (nodes : List (Tree V Op K)) (calls : List (Call V Op K))
    (M : Machine V Op K) : Prop where
  /-- There is one step more than twice as many as nodes have been entered. -/
  steps : nodes.length = 2 * (Tree.pushed nodes).length + 1
  handled : (calls.filter Call.isHandler).length = (Tree.pushed nodes).length + 1
  /-- Each continuation that has been left waiting has been resumed once, the last first. -/
  resumed : calls.filterMap Call.next? = Tree.unwound [] nodes
  resumed_perm : (calls.filterMap Call.next?).Perm (Tree.pushed nodes)
  isDone : M.isDone
  depth : M.depth = 0
  /-- Only the last call of the handler may tell that a value is outermost, and it does if that
  value is one which the program yields at its last node. -/
  outermost : ∃ earlier last, calls.filter Call.isHandler = earlier ++ [last] ∧
    Call.onReturn true ∉ earlier ∧
    (last = .onReturn true ↔ ∃ v, nodes.getLast? = some (.ret v))

/-- What is taken by a way that ends with the step at a leaf under which nothing waits. -/
theorem Strides.runCounts {tree leaf : Tree V Op K} {nodes : List (Tree V Op K)}
    {made last : List (Call V Op K)} {M₁ M : Machine V Op K} {v : V}
    (way : Strides (start tree) nodes made M₁) (stride : Stride leaf M₁.pending last (.done v) M) :
    RunCounts (nodes ++ [leaf]) (made ++ last) M := by
  have hdepth : M₁.depth = M₁.pending.length := M₁.depth_eq
  have hway := way.depth_add
  have hresumed := way.unwound_append [leaf]
  have hperm := way.pushed_perm
  have hhandled := way.handled
  have htrue := way.onReturn_true_notMem
  generalize M₁.pending = pending at stride hdepth hperm hresumed
  cases stride with
  | @finish leaf call hcall v =>
    have hleaf : leaf.next? = none := Tree.next?_of_call? hcall
    have hpushed : Tree.pushed (nodes ++ [leaf]) = Tree.pushed nodes := by
      rw [Tree.pushed, List.filterMap_append, List.filterMap_cons_none hleaf, List.filterMap_nil,
        List.append_nil, Tree.pushed]
    have hbalanced : Tree.leaves nodes = (Tree.pushed nodes).length := by
      have hstart : (start tree : Machine V Op K).depth = 0 := rfl
      rw [hdepth, hstart, List.length_nil] at hway
      omega
    have hlength := Tree.leaves_add_pushed nodes
    -- The last call is one of the handler: it resumes nothing.
    have hkinds : [call].filterMap Call.next? = [] ∧ [call].filter Call.isHandler = [call] := by
      cases leaf <;> cases hcall <;> exact ⟨rfl, rfl⟩
    have hcalls : (made ++ [call]).filter Call.isHandler =
        nodes.filterMap (Tree.call? false) ++ [call] := by
      rw [List.filter_append, hhandled, hkinds.2]
    have hresumes : (made ++ [call]).filterMap Call.next? = made.filterMap Call.next? := by
      rw [List.filterMap_append, hkinds.1, List.append_nil]
    refine ⟨?_, ?_, ?_, ?_, rfl, rfl, ?_⟩
    · rw [hpushed, List.length_append, List.length_singleton]
      omega
    · rw [hcalls, hpushed, List.length_append, List.length_singleton,
        Tree.length_filterMap_call?, hbalanced]
    · rw [Tree.unwound_last hleaf, List.append_nil] at hresumed
      exact hresumes.trans hresumed.symm
    · rw [hresumes, hpushed]
      simpa [start, Tree.under] using hperm.symm
    · refine ⟨_, _, hcalls, ?_, ?_⟩
      · rw [← hhandled]
        exact fun hmem => htrue (List.mem_filter.mp hmem).1
      · rw [List.getLast?_concat]
        cases leaf <;> cases hcall <;> simp

/-! ## The counts of a run -/

section Runs

variable {h : Handler (StateM σ) V Op K} {tree : Tree V Op K} {s s' : σ}

/-- A machine comes to its end with one number of steps only. -/
theorem ends_length_unique {M : Machine V Op K} {n n' : Nat} {outcome outcome' : Except Fault V}
    {s'' : σ} (hends : h.Ends M s n outcome s') (hends' : h.Ends M s n' outcome' s'') :
    n' = n := by
  induction hends generalizing n' outcome' s'' with
  | fault step => exact ((Handler.ends_of_step_error step).mp hends').1
  | value step => exact ((Handler.ends_of_step_done step).mp hends').1
  | more step rest ih =>
    obtain ⟨b, rfl, hrest⟩ := (Handler.ends_of_step_more step).mp hends'
    rw [ih hrest]

/-- A bounded run comes to its end just if the bound is not below the number of steps. -/
theorem run_isSome_iff {M : Machine V Op K} {n : Nat} {outcome : Except Fault V}
    (hends : h.Ends M s n outcome s') (fuel : Nat) :
    (runFrom s (M.run h fuel)).1.1.isSome ↔ n ≤ fuel := by
  constructor
  · intro hsome
    rcases hran : runFrom s (M.run h fuel) with ⟨⟨answer, M'⟩, s''⟩
    rw [hran] at hsome
    obtain ⟨outcome', rfl⟩ := Option.isSome_iff_exists.mp hsome
    obtain ⟨n', hle, hends'⟩ := exists_run_eq_some_iff.mp ⟨M', hran⟩
    exact ends_length_unique hends hends' ▸ hle
  · intro hle
    obtain ⟨M', hran⟩ := exists_run_eq_some_iff.mpr ⟨n, hle, hends⟩
    rw [hran]
    rfl

end Runs

end Machine

/-- No call fails in the run of the program from the state `s`. -/
def Handler.Serves (h : Handler (StateM σ) V Op K) (tree : Tree V Op K) (s : σ) : Prop :=
  ∀ nodes M s₁ fault depth s₂, Machine.Walks h (Machine.start tree) s nodes M s₁ →
    ¬ h.Stops M s₁ (.error fault) depth s₂

namespace Machine

/-- **Termination, and what a run takes.** The run of a program comes to its end if each chain of
programs is finite in which each is built by a continuation of the one before; and it ends with a
value if no call fails in it. In each state before the end as many continuations wait as nodes have
been entered, less the leaves evaluated. A run that comes to its value takes one step more than
twice as many as the nodes that it has entered, no less and no more, and the calls that
`RunCounts` says. -/
theorem termination_and_step_counts (h : Handler (StateM σ) V Op K) (tree : Tree V Op K) (s : σ) :
    (Acc h.MayBuild tree → h.Founded tree s) ∧
    (h.Founded tree s →
      (∃ fuel outcome M s', runFrom s ((start tree).run h fuel) = ((some outcome, M), s')) ∧
      (h.Serves tree s →
        ∃ fuel v M s', runFrom s ((start tree).run h fuel) = ((some (.ok v), M), s'))) ∧
    (∀ nodes M s' calls, Walks h.recorded (start tree) (s, []) nodes M (s', calls) →
      M.current ≠ none →
      M.depth + Tree.leaves nodes = (Tree.pushed nodes).length ∧ Call.onReturn true ∉ calls) ∧
    (∀ fuel v M s', runFrom s ((start tree).run h fuel) = ((some (.ok v), M), s') →
      ∃ nodes calls, Walks h.recorded (start tree) (s, []) nodes M (s', calls) ∧
        RunCounts nodes calls M ∧
        ∀ fuel', (runFrom s ((start tree).run h fuel')).1.1.isSome ↔ nodes.length ≤ fuel') := by
  have here : (start tree : Machine V Op K).current ≠ none := by simp [start]
  refine ⟨fun hacc => Handler.founded_of_acc hacc s, fun hfounded => ⟨hfounded.exists_run, ?_⟩,
    ?_, ?_⟩
  · intro hserves
    obtain ⟨fuel, outcome, M, s', ran⟩ := hfounded.exists_run
    cases outcome with
    | ok v => exact ⟨fuel, v, M, s', ran⟩
    | error fault =>
      -- A run that ends with a fault has a last step, at which a call has failed.
      obtain ⟨-, nodes, -, M₁, s₁, hwalk, hstops, -⟩ := exists_stops_of_run here ran
      exact absurd hstops (hserves nodes M₁ s₁ fault _ s' hwalk)
  · intro nodes M s' calls walk goingOn
    obtain ⟨made, rfl, hway⟩ := walk.strides goingOn
    exact ⟨hway.depth_add.trans (Nat.zero_add _), by simpa using hway.onReturn_true_notMem⟩
  · intro fuel v M s' ran
    obtain ⟨calls, hrecorded⟩ := run_recorded h fuel (start tree) s []
    rw [ran] at hrecorded
    obtain ⟨nodes, leaf, M₁, s₁, made, last, hleaf, hwalk, hlast, hcalls, hwhole, hends⟩ :=
      exists_stride_of_run here hrecorded
    have goingOn : M₁.current ≠ none := by simp [hleaf]
    obtain ⟨made', hmade, hway⟩ := hwalk.strides goingOn
    obtain rfl : made = made' := by simpa using hmade
    refine ⟨nodes ++ [leaf], [] ++ calls, hwhole, ?_, fun fuel' => ?_⟩
    · rw [hcalls]
      exact hway.runCounts hlast
    · obtain ⟨_, hrun⟩ := run_recorded h fuel' (start tree) s []
      have hsame : (runFrom s ((start tree).run h fuel')).1.1 =
          (runFrom (s, []) ((start tree).run h.recorded fuel')).1.1 := by rw [hrun]
      rw [hsame, List.length_append, List.length_singleton]
      exact run_isSome_iff hends fuel'

/-- A handler that counts its calls. The continuation `n` counts down to zero, an operation at a
time, and then yields the value that it gets. -/
def marching : Handler (StateM Nat) Nat Unit Nat where
  handle _ _ := modifyGet fun calls => (.ok 7, calls + 1)
  onReturn _ := modifyGet fun calls => (.ok (), calls + 1)
  resume
    | 0, v => pure (.ok (.ret v))
    | n + 1, _ => pure (.ok ((Tree.instr ()).andThen n))
  accept := .ok

theorem acc_marching (n : Nat) : Acc marching.MayBuild ((Tree.instr ()).andThen n) := by
  induction n with
  | zero =>
    refine .intro _ ?_
    rintro made ⟨next, hnext, v, s, s', resumed⟩
    obtain rfl : next = 0 := List.mem_singleton.mp hnext
    obtain rfl : made = .ret v := by cases resumed; rfl
    refine .intro _ ?_
    rintro made ⟨next, hnext, -⟩
    cases hnext
  | succ n ih =>
    refine .intro _ ?_
    rintro made ⟨next, hnext, v, s, s', resumed⟩
    obtain rfl : next = n + 1 := List.mem_singleton.mp hnext
    obtain rfl : made = (Tree.instr ()).andThen n := by cases resumed; rfl
    exact ih

theorem serves_marching (tree : Tree Nat Unit Nat) (s : Nat) : marching.Serves tree s := by
  rintro nodes M s₁ fault depth s₂ - hstops
  cases hstops with
  | handle here failed => cases failed
  | onReturn here failed => cases failed
  | accept ready waiting failed => cases failed
  | @resume v next _ _ _ _ ready waiting failed => cases next <;> cases failed

/-- Three operations, then a return: three nodes are entered, and four leaves evaluated. -/
theorem termination_and_step_counts_marching :
    ∃ fuel v M s',
      runFrom 0 ((start ((Tree.instr ()).andThen 2)).run marching fuel) = ((some (.ok v), M), s') ∧
      ∃ nodes calls, RunCounts nodes calls M ∧ nodes.length = 7 ∧
        (Tree.pushed nodes).length = 3 := by
  obtain ⟨hfounded, hends, -, hcounts⟩ :=
    termination_and_step_counts marching ((Tree.instr ()).andThen 2) 0
  obtain ⟨fuel, v, M, s', ran⟩ :=
    (hends (hfounded (acc_marching 2))).2 (serves_marching _ 0)
  obtain ⟨nodes, calls, -, hnodes, hsteps⟩ := hcounts fuel v M s' ran
  have hle : nodes.length ≤ 7 := (hsteps 7).mp rfl
  have hlt : ¬ nodes.length ≤ 6 := fun hle => Bool.noConfusion ((hsteps 6).mpr hle)
  have hlength := hnodes.steps
  exact ⟨fuel, v, M, s', ran, nodes, calls, hnodes, by omega, by omega⟩

end Machine

end FiberPrograms
