import FiberPrograms.Proofs.Evaluation
import FiberPrograms.Proofs.Renaming
import Mathlib.Logic.Function.Basic

/-!
# Code that does not look at names

User code is handed fibers and hands them on, and may ask whether two of them are the same. If it
does no more with their names, then with other names it does the same with other names: it makes
the same requests in the same order, and what it yields is what it would have yielded, all with
names exchanged. So do machines, whatever they are handed.

## Main definitions

* `Comp.Renamed`: a computation that does what another does, with names exchanged
* `Interpreter.Equivariant`: user code and observers that do not look at names

## Main results

* `Comp.Renamed.bind`, `Comp.Renamed.attempt`
* `Interpreter.Equivariant.turn`: the steps of a machine do not look at names
-/

namespace FiberPrograms

variable {S : Signature} {N : Naming S} {ρ : FiberId → FiberId} {α β γ δ : Type}

/-! ## Renamed computations -/

/-- A request, with names exchanged. -/
def Request.rename (N : Naming S) (ρ : FiberId → FiberId) : Request S → Request S
  | newFiber => newFiber
  | start fiber action => start (ρ fiber) (N.action ρ action)
  | keep fiber action => keep (ρ fiber) (N.action ρ action)
  | ended fiber => ended (ρ fiber)
  | note event => note (event.rename ρ)
  | sight fiber => sight (ρ fiber)
  | log record => log (record.rename ρ)
  | perform e => perform (N.effect ρ e)

/-- The answer to a request, with names exchanged. -/
def Request.renameReply (N : Naming S) (ρ : FiberId → FiberId) :
    (request : Request S) → request.Reply → (request.rename N ρ).Reply
  | newFiber => ρ
  | start _ _ => id
  | keep _ _ => id
  | ended _ => id
  | note _ => id
  | sight _ => id
  | log _ => id
  | perform e => N.reply ρ e

/-- A demand, with names exchanged. -/
def Demand.rename (N : Naming S) (ρ : FiberId → FiberId) : Demand S → Demand S
  | read fiber => read (ρ fiber)
  | interpret yields machine => interpret yields (machine.rename N ρ)

namespace Comp

/-- A computation that does what another does, with names exchanged; in its value they are
exchanged as `f` says. -/
inductive Renamed (N : Naming S) (ρ : FiberId → FiberId) (f : α → β) : Comp S α → Comp S β → Prop
  | done {a : α} {b : β} (h : b = f a) : Renamed N ρ f (.done a) (.done b)
  | fail {fault fault' : Fault} (h : fault' = fault.rename ρ) :
      Renamed N ρ f (.fail fault) (.fail fault')
  | ask (request : Request S) {k : request.Reply → Comp S α}
      {k' : (request.rename N ρ).Reply → Comp S β}
      (h : ∀ reply, Renamed N ρ f (k reply) (k' (request.renameReply N ρ reply))) :
      Renamed N ρ f (.ask request k) (.ask (request.rename N ρ) k')
  | demand (d : Demand S) {k : Except Fault S.Value → Comp S α}
      {k' : Except Fault S.Value → Comp S β}
      (h : ∀ outcome, Renamed N ρ f (k outcome) (k' (N.outcome ρ outcome))) :
      Renamed N ρ f (.demand d k) (.demand (d.rename N ρ) k')
  | runQueue {k : Comp S α} {k' : Comp S β} (h : Renamed N ρ f k k') :
      Renamed N ρ f (.runQueue k) (.runQueue k')

namespace Renamed

variable {f : α → β} {c : Comp S α} {c' : Comp S β}

theorem bind {g : α → Comp S γ} {g' : β → Comp S δ} {f' : γ → δ} (h : c.Renamed N ρ f c')
    (hg : ∀ a, (g a).Renamed N ρ f' (g' (f a))) :
    (c.bind g).Renamed N ρ f' (c'.bind g') := by
  induction h with
  | done h =>
    subst h
    exact hg _
  | fail h => exact .fail h
  | ask request _ ih => exact .ask request ih
  | demand d _ ih => exact .demand d ih
  | runQueue _ ih => exact .runQueue ih

theorem attempt (h : c.Renamed N ρ f c') :
    c.attempt.Renamed N ρ (renameOutcome ρ f) c'.attempt := by
  induction h with
  | done h =>
    subst h
    exact .done rfl
  | fail h =>
    subst h
    exact .done rfl
  | ask request _ ih => exact .ask request ih
  | demand d _ ih => exact .demand d ih
  | runQueue _ ih => exact .runQueue ih

theorem ofExcept (f : α → β) (outcome : Except Fault α) :
    (Comp.ofExcept outcome : Comp S α).Renamed N ρ f (.ofExcept (renameOutcome ρ f outcome)) := by
  cases outcome with
  | ok a => exact .done rfl
  | error fault => exact .fail rfl

theorem read (fiber : FiberId) :
    (Comp.read fiber).Renamed N ρ (Value.rename N ρ) (Comp.read (ρ fiber)) :=
  .demand (.read fiber) (.ofExcept _)

theorem interpret (yields : Ty S.Base) (program : S.Program) :
    (Comp.interpret yields program).Renamed N ρ (Value.rename N ρ)
      (Comp.interpret yields (program.rename N ρ)) :=
  .demand (.interpret yields (.start program)) (.ofExcept _)

end Renamed

end Comp

/-- User code and observers that do not look at names. -/
structure Interpreter.Equivariant (N : Naming S) (I : Interpreter S) : Prop where
  build : ∀ {ρ}, Function.Injective ρ → ∀ code v,
    (I.build code v).Renamed N ρ (Tree.rename N ρ) (I.build (N.code ρ code) (v.rename N ρ))
  compute : ∀ {ρ}, Function.Injective ρ → ∀ code v,
    (I.compute code v).Renamed N ρ (Value.rename N ρ) (I.compute (N.code ρ code) (v.rename N ρ))
  act : ∀ {ρ}, Function.Injective ρ → ∀ action,
    (I.act action).Renamed N ρ (Value.rename N ρ) (I.act (N.action ρ action))
  observer : ∀ {ρ}, Function.Injective ρ → ∀ event,
    (I.observer event).Renamed N ρ id (I.observer (event.rename ρ))

/-! ## The steps of a machine -/

/-- What one step comes to, with names exchanged. -/
def Progress.rename (N : Naming S) (ρ : FiberId → FiberId) : Progress S.Value → Progress S.Value
  | more => more
  | done v => done (v.rename N ρ)

theorem Machine.rename_under (tree : S.Program)
    (pending : List (Cont S.Base (ForkJoin S.Base S.Action) S.Code)) :
    (tree.under pending).rename N ρ = (tree.rename N ρ).under (pending.map (Cont.rename N ρ)) := by
  simp [Machine.rename, Tree.under]

theorem Machine.rename_idle (pending : List (Cont S.Base (ForkJoin S.Base S.Action) S.Code)) :
    (Machine.idle pending : S.Machine).rename N ρ = .idle (pending.map (Cont.rename N ρ)) := by
  simp [Machine.rename, Machine.idle]

namespace Interpreter.Equivariant

variable {I : Interpreter S} {yields : Ty S.Base}

theorem perform (hI : I.Equivariant N) (hρ : Function.Injective ρ)
    (op : ForkJoin S.Base S.Action) :
    (I.perform op).Renamed N ρ (Value.rename N ρ) (I.perform (op.rename N ρ)) := by
  cases op with
  | forkAt place yields action =>
    refine .ask .newFiber fun fiber => ?_
    refine (hI.observer hρ (.fork fiber place)).bind fun _ => ?_
    exact .ask (.start fiber action) fun _ => .done rfl
  | await fiber => exact (hI.observer hρ (.await fiber)).bind fun _ => .read fiber

/-- What a continuation makes of a renamed value is what it makes of the value, renamed. -/
theorem resume (hI : I.Equivariant N) (hρ : Function.Injective ρ)
    (next : Cont S.Base (ForkJoin S.Base S.Action) S.Code) (v : S.Value) :
    (next.resume (fun code v => (I.build code v).attempt)
      (fun code v => (I.compute code v).attempt) v).Renamed N ρ
        (renameOutcome ρ (Tree.rename N ρ))
        ((next.rename N ρ).resume (fun code v => (I.build code v).attempt)
          (fun code v => (I.compute code v).attempt) (v.rename N ρ)) := by
  -- Most continuations put a program together without running any user code.
  have hmade (τ : Ty S.Base) {f f' : τ.El → S.Program}
      (hf : ∀ a, f' (τ.rename N ρ a) = (f a).rename N ρ) :
      (Comp.done ((v.cast τ).map f) : Comp S _).Renamed N ρ (renameOutcome ρ (Tree.rename N ρ))
        (.done (((v.rename N ρ).cast τ).map f')) := by
    rw [Value.cast_rename]
    cases v.cast τ with
    | error fault => exact .done rfl
    | ok a => exact .done (congrArg Except.ok (hf a))
  cases next with
  | bind arg code =>
    rw [Cont.rename, Cont.resume, Cont.resume, Value.check_rename]
    cases v.check arg with
    | error fault => exact .done rfl
    | ok v => exact (hI.build hρ code v).attempt
  | map arg code =>
    rw [Cont.rename, Cont.resume, Cont.resume, Value.check_rename]
    cases v.check arg with
    | error fault => exact .done rfl
    | ok v =>
      refine (hI.compute hρ code v).attempt.bind fun outcome => ?_
      cases outcome with
      | error fault => exact .done rfl
      | ok v => exact .done rfl
  | next arg program =>
    rw [Cont.rename, Cont.resume, Cont.resume, Value.check_rename]
    cases v.check arg with
    | error fault => exact .done rfl
    | ok v => exact .done rfl
  | zip left right other => exact hmade left fun _ => rfl
  | pairWith left right earlier => exact hmade right fun _ => rfl
  | gather item program => exact hmade (.gathered item) fun _ => rfl
  | push item gathered => exact hmade item fun _ => rfl
  | collect item =>
    refine hmade (.gathered item) fun gathered => ?_
    have hreverse : (List.map (item.rename N ρ) gathered).reverse =
        List.map (item.rename N ρ) (List.reverse gathered) := (List.map_reverse ..).symm
    exact congrArg (Program.ofValue (.list item)) hreverse

/-- A renamed value is taken by the innermost waiting continuation, or ends the run, as the value
is. -/
theorem deliver (hI : I.Equivariant N) (hρ : Function.Injective ρ) (tree tree' : S.Program)
    (pending : List (Cont S.Base (ForkJoin S.Base S.Action) S.Code)) (v : S.Value) :
    ((tree.under pending).deliver (I.handler yields) v).Renamed N ρ
      (Prod.map (renameOutcome ρ (Progress.rename N ρ)) (Machine.rename N ρ))
      ((tree'.under (pending.map (Cont.rename N ρ))).deliver (I.handler yields)
        (v.rename N ρ)) := by
  cases pending with
  | nil =>
    rw [List.map_nil, Machine.deliver_nil, Machine.deliver_nil]
    have haccept : (I.handler yields).accept (v.rename N ρ) =
        N.outcome ρ ((I.handler yields).accept v) := Value.check_rename v
    rw [haccept]
    cases (I.handler yields).accept v with
    | error fault => exact .done rfl
    | ok v => exact .done rfl
  | cons next rest =>
    rw [List.map_cons, Machine.deliver_cons, Machine.deliver_cons]
    refine (hI.resume hρ next v).bind fun made => ?_
    cases made with
    | error fault => exact .done (congrArg (Prod.mk _) (Machine.rename_idle rest).symm)
    | ok made => exact .done (congrArg (Prod.mk _) (Machine.rename_under made rest).symm)

theorem step (hI : I.Equivariant N) (hρ : Function.Injective ρ) (machine : S.Machine) :
    (machine.step (I.handler yields)).Renamed N ρ
      (Prod.map (renameOutcome ρ (Progress.rename N ρ)) (Machine.rename N ρ))
      ((machine.rename N ρ).step (I.handler yields)) := by
  cases hcurrent : machine.current with
  | none =>
    have hcurrent' : (machine.rename N ρ).current = none := by
      rw [Machine.rename, hcurrent]
      rfl
    rw [Machine.step, hcurrent, Machine.step, hcurrent']
    exact .done rfl
  | some tree =>
    -- Renaming leaves the number of waiting continuations as it is, which is all that is told of
    -- them.
    rw [Machine.eq_under hcurrent, Machine.rename_under]
    generalize machine.pending = pending
    have hidle (fault : Fault) :
        (Except.error (fault.rename ρ),
          (Machine.idle (pending.map (Cont.rename N ρ)) : S.Machine)) =
          Prod.map (renameOutcome ρ (Progress.rename N ρ)) (Machine.rename N ρ)
            (Except.error fault, .idle pending) :=
      congrArg (Prod.mk _) (Machine.rename_idle pending).symm
    cases tree with
    | ret v =>
      rw [Tree.rename, Machine.step_ret, Machine.step_ret, List.isEmpty_map]
      refine (hI.observer hρ (.finished pending.isEmpty)).attempt.bind fun answer => ?_
      cases answer with
      | error fault => exact .done (hidle fault)
      | ok _ => exact hI.deliver hρ _ _ pending v
    | instr op =>
      rw [Tree.rename, Machine.step_instr, Machine.step_instr, List.length_map]
      have hperform : (do
          Comp.log (.instruction op.shape pending.length)
          I.perform op : Comp S S.Value).Renamed N ρ (Value.rename N ρ) (do
            Comp.log (.instruction (op.rename N ρ).shape pending.length)
            I.perform (op.rename N ρ)) := by
        rw [ForkJoin.shape_rename]
        exact .ask (.log (.instruction op.shape pending.length)) fun _ => hI.perform hρ op
      refine hperform.attempt.bind fun answer => ?_
      cases answer with
      | error fault => exact .done (hidle fault)
      | ok v => exact hI.deliver hρ _ _ pending v
    | andThen first next =>
      rw [Tree.rename, Machine.step_andThen, Machine.step_andThen]
      exact .done (congrArg (Prod.mk _) (Machine.rename_under first (next :: pending)).symm)

/-- The steps of a machine do not look at names. -/
theorem turn (hI : I.Equivariant N) (hρ : Function.Injective ρ) (machine : S.Machine) :
    (I.turn yields machine).Renamed N ρ (Turn.rename N ρ)
      (I.turn yields (machine.rename N ρ)) := by
  refine (hI.step hρ machine).bind fun stepped => ?_
  obtain ⟨progress, after⟩ := stepped
  cases progress with
  | error fault => exact .fail rfl
  | ok progress =>
    cases progress with
    | done v => exact .done rfl
    | more => exact .done rfl

end Interpreter.Equivariant

/-! ## Observers -/

namespace Observer

/-- Neither the log nor the record of events looks at names. -/
theorem renamed_logging (event : Event) :
    (logging event : Comp S Unit).Renamed N ρ id (logging (event.rename ρ)) := by
  rw [logging, logging, ← Record.rename_ofEvent]
  exact .ask (.log (.ofEvent event)) fun _ => .done rfl

theorem renamed_recording (event : Event) :
    (recording event : Comp S Unit).Renamed N ρ id (recording (event.rename ρ)) := by
  cases event with
  | fork fiber place =>
    refine .ask (.sight fiber) fun _ => ?_
    exact .ask (.note (.fork fiber place)) fun _ => .done rfl
  | await fiber => exact .ask (.note (.await fiber)) fun _ => .done rfl
  | finished outermost => exact .ask (.note (.finished outermost)) fun _ => .done rfl

theorem renamed_all {observers : List (Observer S)} (event : Event)
    (h : ∀ observer ∈ observers, (observer event).Renamed N ρ id (observer (event.rename ρ))) :
    (all observers event).Renamed N ρ id (all observers (event.rename ρ)) := by
  induction observers with
  | nil => exact .done rfl
  | cons first rest ih =>
    obtain ⟨hfirst, hrest⟩ := List.forall_mem_cons.mp h
    exact hfirst.bind fun _ => ih hrest

end Observer

end FiberPrograms
