import FiberPrograms.Proofs.Evaluation

/-!
# Programs that are built up in finitely many stages

A continuation may build a program that is larger than the one that it belongs to, so a run need not
come to an end because trees are finite. It does if no chain of programs, each built by a
continuation of the one before, goes on forever. Only programs that are really built need count:
those that a continuation makes of the value for which it has waited, in the state in which it gets
it. If all that continuations could ever make of any value is well-founded, this is too.

## Main definitions

* `Handler.Builds`: a program is built by a continuation of another as that is evaluated
* `Handler.Founded`: each chain of programs so built is finite
* `Handler.MayBuild`: a program is what a continuation of another makes of some value

## Main results

* `Handler.founded_of_acc`: it is enough that chains are finite whatever the values
* `Handler.Founded.exists_evaluates`: evaluations of founded programs come to an end
* `Handler.Founded.exists_run`: so do the runs of machines
-/

namespace FiberPrograms

variable {V Op K σ : Type}

/-- The continuations that wait for the leaf which is evaluated first, and for what follows. -/
def Tree.conts : Tree V Op K → List K
  | andThen first next => next :: first.conts
  | _ => []

namespace Handler

variable {h : Handler (StateM σ) V Op K} {tree made : Tree V Op K} {s s' : σ}

/-- A continuation of the program, evaluated from the state `s`, comes to build the program `made`
and leaves the state `s'`. -/
inductive Builds (h : Handler (StateM σ) V Op K) :
    Tree V Op K → (s : σ) → (made : Tree V Op K) → (s' : σ) → Prop
  | here {first made : Tree V Op K} {next : K} {depth n : Nat} {v : V} {s s₁ s' : σ}
      (value : h.Evaluates false depth first s n (.ok v) s₁)
      (resumed : runFrom s₁ (h.resume next v) = (.ok made, s')) :
      Builds h (first.andThen next) s made s'
  | inside {first made : Tree V Op K} {next : K} {s s' : σ} (inner : Builds h first s made s') :
      Builds h (first.andThen next) s made s'

/-- Every chain of programs, each of which is built by a continuation of the one before, is finite.
The chain begins with the program, evaluated from the state `s`. -/
def Founded (h : Handler (StateM σ) V Op K) (tree : Tree V Op K) (s : σ) : Prop :=
  Acc (fun built origin : Tree V Op K × σ => h.Builds origin.1 origin.2 built.1 built.2) (tree, s)

/-- The program `made` is what a continuation of the program makes of some value, in some state. -/
def MayBuild (h : Handler (StateM σ) V Op K) (made tree : Tree V Op K) : Prop :=
  ∃ next ∈ tree.conts, ∃ v s s', runFrom s (h.resume next v) = (.ok made, s')

theorem Builds.mayBuild (hbuilds : h.Builds tree s made s') : h.MayBuild made tree := by
  induction hbuilds with
  | here value resumed => exact ⟨_, List.mem_cons_self, _, _, _, resumed⟩
  | inside inner ih =>
    obtain ⟨next, hnext, v, s₁, s₂, resumed⟩ := ih
    exact ⟨next, List.mem_cons_of_mem _ hnext, v, s₁, s₂, resumed⟩

/-- A program is founded if it is whatever values its continuations may get. -/
theorem founded_of_acc (hacc : Acc h.MayBuild tree) (s : σ) : h.Founded tree s := by
  induction hacc generalizing s with
  | intro tree _ ih => exact .intro _ fun _ hbuilds => ih _ hbuilds.mayBuild _

/-- The evaluation of a founded program comes to an end, with a value or with a fault. -/
theorem Founded.exists_evaluates (hfounded : h.Founded tree s) (outermost : Bool) (depth : Nat) :
    ∃ n outcome s', h.Evaluates outermost depth tree s n outcome s' := by
  unfold Founded at hfounded
  generalize horigin : (tree, s) = origin at hfounded
  induction hfounded generalizing tree s outermost depth with
  | intro origin _ ih =>
    subst horigin
    -- What is built by a part of the program is built by the program.
    suffices hpart : ∀ part : Tree V Op K,
        (∀ made s₁, h.Builds part s made s₁ → h.Builds tree s made s₁) → ∀ outermost depth,
        ∃ n outcome s', h.Evaluates outermost depth part s n outcome s' from
      hpart tree (fun _ _ => id) outermost depth
    intro part
    induction part with
    | ret v =>
      intro _ outermost depth
      rcases htold : runFrom s (h.onReturn outermost) with ⟨fault | _, s'⟩
      · exact ⟨1, .error fault, s', .retFault htold⟩
      · exact ⟨1, .ok v, s', .ret htold⟩
    | instr op =>
      intro _ outermost depth
      exact ⟨1, _, _, .instr rfl⟩
    | andThen first next ihfirst =>
      intro hbuilds outermost depth
      obtain ⟨a, outcome, s₁, hfirst⟩ :=
        ihfirst (fun _ _ hinner => hbuilds _ _ (.inside hinner)) false (depth + 1)
      rcases outcome with fault | v
      · exact ⟨a + 1, .error fault, s₁, .firstFault hfirst⟩
      · rcases hresumed : runFrom s₁ (h.resume next v) with ⟨fault | made, s₂⟩
        · exact ⟨a + 1, .error fault, s₂, .resumeFault hfirst hresumed⟩
        · obtain ⟨b, final, s', hmade⟩ :=
            ih (made, s₂) (hbuilds _ _ (.here hfirst hresumed)) outermost depth rfl
          exact ⟨a + b + 1, final, s', .andThen hfirst hresumed hmade⟩

/-- The run of a founded program comes to an end. -/
theorem Founded.exists_run (hfounded : h.Founded tree s) :
    ∃ fuel outcome M s', runFrom s ((Machine.start tree).run h fuel) = ((some outcome, M), s') := by
  obtain ⟨n, outcome, s', hevaluates⟩ := hfounded.exists_evaluates true 0
  obtain ⟨b, final, hcompletes⟩ : ∃ b final, h.Completes [] outcome s' b final s' := by
    cases outcome with
    | error fault => exact ⟨0, .error fault, rfl, rfl, rfl⟩
    | ok v => exact ⟨0, h.accept v, rfl, rfl, rfl⟩
  have hends : h.Ends (Machine.start tree) s (n + b) final s' :=
    hevaluates.ends [] rfl rfl hcompletes
  obtain ⟨M, hrun⟩ := Machine.exists_run_eq_some_iff.mpr ⟨n + b, Nat.le_refl _, hends⟩
  exact ⟨n + b, final, M, s', hrun⟩

end Handler

end FiberPrograms
