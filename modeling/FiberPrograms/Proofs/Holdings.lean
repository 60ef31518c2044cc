import FiberPrograms.Interpreter
import FiberPrograms.Proofs.Evaluation
import Mathlib.Data.Set.Insert

/-!
# What user code holds

Names of fibers are not made up. User code can name a fiber only if it holds it: if it has captured
the fiber, or been given it inside a value, or found it in what another fiber yielded. What is held
by a piece of user code is said by `Holdings`; what is held by values, programs and machines
follows from that.

User code is pure if it does nothing but read fibers that it holds, and then yields something
that holds no others, or fails. The computations of an interpreter are not pure, since they make
fibers and start them, but tame: they read only fibers that have been started, and start only
actions that hold no others.

## Main definitions

* `Holdings`: the fibers that user code and ground values hold
* `Value.Within`, `Tree.Within`, `Machine.Within`: what holds no fibers but the given ones
* `Comp.PureWithin`, `Meaning.Pure`: user code that reads what it holds, and does nothing else
* `Comp.Reports`: computations that report, and do nothing else
* `Comp.Tame`: computations that read only started fibers

## Main results

* `Comp.Tame.bind`, `Comp.Tame.attempt`: tame computations, one after the other
* `Interpreter.tame_turn`: if user code is pure and the observer reports, the steps of a machine
  are tame
-/

namespace FiberPrograms

/-- The fibers that ground values and pieces of user code hold. -/
structure Holdings (S : Signature) where
  base : (b : S.Base) → Universe.El b → Set FiberId
  /-- The fibers that the code of a continuation has captured. -/
  code : S.Code → Set FiberId
  /-- The fibers that an action has captured. -/
  action : S.Action → Set FiberId

variable {S : Signature} {H : Holdings S} {P N : Set FiberId}

/-! ## Values and programs -/

/-- The fibers inside an element of a type. -/
def Ty.held (H : Holdings S) : (τ : Ty S.Base) → τ.El → Set FiberId
  | ground b => H.base b
  | pair left right => fun a => left.held H a.1 ∪ right.held H a.2
  | list item | gathered item => fun as : List item.El => {fiber | ∃ a ∈ as, fiber ∈ item.held H a}
  | fiber _ => fun fiber : FiberId => {fiber}

/-- A value holds no fibers but the given ones. -/
def Value.Within (H : Holdings S) (P : Set FiberId) (v : S.Value) : Prop :=
  v.ty.held H v.get ⊆ P

/-- An operation names no fibers but the given ones. -/
def ForkJoin.Within (H : Holdings S) (P : Set FiberId) : ForkJoin S.Base S.Action → Prop
  | forkAt _ _ action => H.action action ⊆ P
  | await fiber => fiber ∈ P

mutual

/-- A program holds no fibers but the given ones. -/
inductive Tree.Within (H : Holdings S) (P : Set FiberId) : S.Program → Prop
  | ret {v : S.Value} (hv : v.Within H P) : Tree.Within H P (.ret v)
  | instr {op : ForkJoin S.Base S.Action} (hop : op.Within H P) : Tree.Within H P (.instr op)
  | andThen {first : S.Program} {next : Cont S.Base (ForkJoin S.Base S.Action) S.Code}
      (hfirst : Tree.Within H P first) (hnext : Cont.Within H P next) :
      Tree.Within H P (.andThen first next)

/-- A continuation holds no fibers but the given ones. -/
inductive Cont.Within (H : Holdings S) (P : Set FiberId) :
    Cont S.Base (ForkJoin S.Base S.Action) S.Code → Prop
  | bind {arg : Ty S.Base} {code : S.Code} (hcode : H.code code ⊆ P) :
      Cont.Within H P (.bind arg code)
  | map {arg : Ty S.Base} {code : S.Code} (hcode : H.code code ⊆ P) :
      Cont.Within H P (.map arg code)
  | next {arg : Ty S.Base} {program : S.Program} (hprogram : Tree.Within H P program) :
      Cont.Within H P (.next arg program)
  | zip {left right : Ty S.Base} {other : S.Program} (hother : Tree.Within H P other) :
      Cont.Within H P (.zip left right other)
  | pairWith {left right : Ty S.Base} {earlier : left.El} (hearlier : left.held H earlier ⊆ P) :
      Cont.Within H P (.pairWith left right earlier)
  | gather {item : Ty S.Base} {program : S.Program} (hprogram : Tree.Within H P program) :
      Cont.Within H P (.gather item program)
  | push {item : Ty S.Base} {gathered : List item.El}
      (hgathered : (Ty.gathered item).held H gathered ⊆ P) :
      Cont.Within H P (.push item gathered)
  | collect {item : Ty S.Base} : Cont.Within H P (.collect item)

end

/-- A machine holds no fibers but the given ones. -/
structure Machine.Within (H : Holdings S) (P : Set FiberId) (M : S.Machine) : Prop where
  current : ∀ tree, M.current = some tree → tree.Within H P
  pending : ∀ next ∈ M.pending, next.Within H P

/-- What a step comes to holds no fibers but the given ones. -/
def Turn.Within (H : Holdings S) (P : Set FiberId) : Turn S → Prop
  | value v => v.Within H P
  | again _ machine => machine.Within H P

/-- An outcome holds no fibers but the given ones. -/
def Value.OutcomeWithin (H : Holdings S) (P : Set FiberId) (outcome : Except Fault S.Value) :
    Prop :=
  ∀ v, outcome = .ok v → v.Within H P

theorem Value.within_of {τ : Ty S.Base} {a : τ.El} :
    (Value.of τ a : S.Value).Within H P ↔ τ.held H a ⊆ P := Iff.rfl

section Mono

variable {P' : Set FiberId}

theorem ForkJoin.Within.mono (hP : P ⊆ P') {op : ForkJoin S.Base S.Action}
    (hop : op.Within H P) : op.Within H P' := by
  cases op with
  | forkAt place yields action => exact Set.Subset.trans hop hP
  | await fiber => exact hP hop

mutual

/-- What holds no fibers but the given ones holds no others if more are given. -/
theorem Tree.Within.mono (hP : P ⊆ P') {tree : S.Program} :
    tree.Within H P → tree.Within H P'
  | .ret hv => .ret (Set.Subset.trans hv hP)
  | .instr hop => .instr (hop.mono hP)
  | .andThen hfirst hnext => .andThen (hfirst.mono hP) (hnext.mono hP)

theorem Cont.Within.mono (hP : P ⊆ P') {next : Cont S.Base (ForkJoin S.Base S.Action) S.Code} :
    next.Within H P → next.Within H P'
  | .bind hcode => .bind (hcode.trans hP)
  | .map hcode => .map (hcode.trans hP)
  | .next hprogram => .next (hprogram.mono hP)
  | .zip hother => .zip (hother.mono hP)
  | .pairWith hearlier => .pairWith (hearlier.trans hP)
  | .gather hprogram => .gather (hprogram.mono hP)
  | .push hgathered => .push (hgathered.trans hP)
  | .collect => .collect

end

end Mono

/-- What is used at a type is what was there before. -/
theorem Value.Within.of_cast {v : S.Value} (hv : v.Within H P) {τ : Ty S.Base} {a : τ.El}
    (hcast : v.cast τ = .ok a) : τ.held H a ⊆ P := by
  obtain rfl := Value.cast_eq_ok_iff.mp hcast
  exact hv

/-- A list holds what its items hold. -/
theorem Ty.held_gathered_subset_iff {item : Ty S.Base} {as : List item.El} :
    (Ty.gathered item).held H as ⊆ P ↔ ∀ a ∈ as, item.held H a ⊆ P := by
  constructor
  · intro h a ha fiber hfiber
    exact h ⟨a, ha, hfiber⟩
  · rintro h fiber ⟨a, ha, hfiber⟩
    exact h a ha hfiber

/-! ## Pure user code and reports -/

/-- User code that holds the given fibers and is pure: it reads fibers among them, or is over. -/
def Comp.PureWithin {α : Type} (H : Holdings S) (P : Set FiberId) (post : α → Prop) :
    Comp S α → Prop
  | .done a => post a
  | .fail _ => True
  | .demand (.read fiber) k =>
    fiber ∈ P ∧ ∀ outcome, Value.OutcomeWithin H P outcome → (k outcome).PureWithin H P post
  | _ => False

/-- User code is pure. -/
structure Meaning.Pure (M : Meaning S) (H : Holdings S) : Prop where
  build : ∀ {P code v}, H.code code ⊆ P → v.Within H P →
    (M.build code v).PureWithin H P (fun program => program.Within H P)
  compute : ∀ {P code v}, H.code code ⊆ P → v.Within H P →
    (M.compute code v).PureWithin H P (fun v => v.Within H P)
  act : ∀ {P action}, H.action action ⊆ P →
    (M.act action).PureWithin H P (fun v => v.Within H P)

/-- A computation that reports: it puts down events, brings fibers in sight, writes to the log and
acts on the world outside, and is over or fails. -/
def Comp.Reports {α : Type} : Comp S α → Prop
  | .done _ => True
  | .fail _ => True
  | .ask (.note _) k => (k ()).Reports
  | .ask (.sight _) k => (k ()).Reports
  | .ask (.log _) k => (k ()).Reports
  | .ask (.perform _) k => ∀ reply, (k reply).Reports
  | _ => False

theorem Comp.Reports.bind {α β : Type} {c : Comp S α} {f : α → Comp S β} (hc : c.Reports)
    (hf : ∀ a, (f a).Reports) : (c.bind f).Reports := by
  induction c with
  | done a => exact hf a
  | fail fault => trivial
  | ask request k ih =>
    cases request with
    | note event => exact ih () hc
    | sight fiber => exact ih () hc
    | log record => exact ih () hc
    | perform e => exact fun reply => ih reply (hc reply)
    | _ => exact hc
  | demand d k => exact hc
  | runQueue k => exact hc

/-- Observers that report do so one after the other, too. -/
theorem Observer.reports_all {observers : List (Observer S)}
    (hreports : ∀ observer ∈ observers, ∀ event, (observer event).Reports) (event : Event) :
    (Observer.all observers event).Reports := by
  induction observers with
  | nil => trivial
  | cons first rest ih =>
    refine (hreports first (by simp) event).bind fun _ => ih fun observer hobserver => ?_
    exact hreports observer (List.mem_cons_of_mem _ hobserver)

theorem Observer.reports_logging (event : Event) : (Observer.logging event : Comp S Unit).Reports :=
  trivial

theorem Observer.reports_recording (event : Event) :
    (Observer.recording event : Comp S Unit).Reports := by
  cases event <;> trivial

/-! ## Tame computations -/

namespace Comp

variable {α β : Type} {post : Set FiberId → α → Prop} {post' : Set FiberId → β → Prop}

/-- A computation that is tame where the fibers in `P` have been started and those in `N` have
been made: it reads only fibers that have been started by then, and starts only actions that hold
no others. What it yields is as `post` says of the fibers that have been started in the end. -/
def Tame (H : Holdings S) (post : Set FiberId → α → Prop) :
    Comp S α → (P N : Set FiberId) → Prop
  | done a, P, _ => post P a
  | fail _, _, _ => True
  | ask .newFiber k, P, N => ∀ fiber : FiberId, (k fiber).Tame H post P (insert fiber N)
  | ask (.start fiber action) k, P, N =>
    fiber ∈ N ∧ H.action action ⊆ P ∧ (k ()).Tame H post (insert fiber P) N
  | ask (.note _) k, P, N => (k ()).Tame H post P N
  | ask (.sight _) k, P, N => (k ()).Tame H post P N
  | ask (.log _) k, P, N => (k ()).Tame H post P N
  | ask (.perform _) k, P, N => ∀ reply, (k reply).Tame H post P N
  | demand (.read fiber) k, P, N =>
    fiber ∈ P ∧ ∀ outcome, Value.OutcomeWithin H P outcome → (k outcome).Tame H post P N
  | _, _, _ => False

theorem Tame.bind {c : Comp S α} {f : α → Comp S β} (hc : c.Tame H post P N)
    (hf : ∀ P' N' a, P ⊆ P' → N ⊆ N' → post P' a → (f a).Tame H post' P' N') :
    (c.bind f).Tame H post' P N := by
  -- On the way to its value the first computation only adds to what has been started and made.
  induction c generalizing P N with
  | done a => exact hf P N a subset_rfl subset_rfl hc
  | fail fault => trivial
  | ask request k ih =>
    cases request with
    | newFiber =>
      intro fiber
      refine ih fiber (hc fiber) fun P' N' a hP hN => hf P' N' a hP ?_
      exact (Set.subset_insert fiber N).trans hN
    | start fiber action =>
      obtain ⟨hfiber, haction, hc⟩ := hc
      refine ⟨hfiber, haction, ih () hc fun P' N' a hP hN => hf P' N' a ?_ hN⟩
      exact (Set.subset_insert fiber P).trans hP
    | note event => exact ih () hc hf
    | sight fiber => exact ih () hc hf
    | log record => exact ih () hc hf
    | perform e => exact fun reply => ih reply (hc reply) hf
    | _ => exact hc
  | demand d k ih =>
    cases d with
    | read fiber =>
      obtain ⟨hfiber, hc⟩ := hc
      exact ⟨hfiber, fun outcome houtcome => ih outcome (hc outcome houtcome) hf⟩
    | interpret yields machine => exact hc
  | runQueue k => exact hc

theorem Tame.attempt {c : Comp S α} (hc : c.Tame H post P N) :
    c.attempt.Tame H (fun P' outcome => ∀ a, outcome = .ok a → post P' a) P N := by
  induction c generalizing P N with
  | done a =>
    rintro _ ⟨⟩
    exact hc
  | fail fault => rintro _ ⟨⟩
  | ask request k ih =>
    cases request with
    | newFiber => exact fun fiber => ih fiber (hc fiber)
    | start fiber action =>
      obtain ⟨hfiber, haction, hc⟩ := hc
      exact ⟨hfiber, haction, ih () hc⟩
    | note event => exact ih () hc
    | sight fiber => exact ih () hc
    | log record => exact ih () hc
    | perform e => exact fun reply => ih reply (hc reply)
    | _ => exact hc
  | demand d k ih =>
    cases d with
    | read fiber =>
      obtain ⟨hfiber, hc⟩ := hc
      exact ⟨hfiber, fun outcome houtcome => ih outcome (hc outcome houtcome)⟩
    | interpret yields machine => exact hc
  | runQueue k => exact hc

/-- Pure user code is tame if what it holds has been started. -/
theorem PureWithin.tame {c : Comp S α} {holds : α → Prop} (hc : c.PureWithin H P holds)
    (hpost : ∀ a, holds a → post P a) : c.Tame H post P N := by
  induction c with
  | done a => exact hpost a hc
  | fail fault => trivial
  | ask request k => exact hc.elim
  | demand d k ih =>
    cases d with
    | read fiber =>
      obtain ⟨hfiber, hc⟩ := hc
      exact ⟨hfiber, fun outcome houtcome => ih outcome (hc outcome houtcome)⟩
    | interpret yields machine => exact hc.elim
  | runQueue k => exact hc.elim

/-- Reports are tame. -/
theorem Reports.tame {c : Comp S α} (hc : c.Reports) : c.Tame H (fun _ _ => True) P N := by
  induction c with
  | done a => trivial
  | fail fault => trivial
  | ask request k ih =>
    cases request with
    | note event => exact ih () hc
    | sight fiber => exact ih () hc
    | log record => exact ih () hc
    | perform e => exact fun reply => ih reply (hc reply)
    | _ => exact hc.elim
  | demand d k => exact hc.elim
  | runQueue k => exact hc.elim

end Comp

/-! ## The steps of a machine -/

/-- What a step makes of a machine holds no fibers but the given ones. -/
def Machine.StepWithin (H : Holdings S) (P : Set FiberId) :
    Except Fault (Progress S.Value) × S.Machine → Prop
  | (.ok (.done v), _) => v.Within H P
  | (.ok .more, machine) => machine.Within H P
  | (.error _, _) => True

namespace Interpreter

variable {I : Interpreter S} (hpure : I.toMeaning.Pure H)
  (hreports : ∀ event, (I.observer event).Reports) {yields : Ty S.Base}

include hreports in
/-- A fork starts an action that holds only started fibers, and yields its own, which has been
started by then; an await reads a fiber that has been started. -/
theorem tame_perform {op : ForkJoin S.Base S.Action} (hop : op.Within H P) :
    (I.perform op).Tame H (fun P' v => v.Within H P') P N := by
  cases op with
  | forkAt place yields action =>
    -- The report comes before the start, so only the name of the fiber is there by then.
    intro fiber
    refine (hreports (.fork fiber place)).tame.bind fun P' N' _ hP hN _ => ?_
    refine ⟨hN (Set.mem_insert fiber N), hop.trans hP, ?_⟩
    exact Set.singleton_subset_iff.mpr (Set.mem_insert fiber P')
  | await fiber =>
    refine (hreports (.await fiber)).tame.bind fun P' N' _ hP hN _ => ?_
    refine ⟨hP hop, fun outcome houtcome => ?_⟩
    cases outcome with
    | ok v => exact houtcome v rfl
    | error fault => trivial

include hpure in
/-- What a continuation makes of a value holds what both of them hold. -/
theorem tame_resume {next : Cont S.Base (ForkJoin S.Base S.Action) S.Code} {v : S.Value}
    (hnext : next.Within H P) (hv : v.Within H P) :
    (next.resume (fun code v => (I.build code v).attempt)
      (fun code v => (I.compute code v).attempt) v).Tame H
        (fun P' made => ∀ tree, made = .ok tree → tree.Within H P') P N := by
  -- Most continuations put a program together without running any user code.
  have hmade (τ : Ty S.Base) {f : τ.El → S.Program}
      (hf : ∀ a, τ.held H a ⊆ P → (f a).Within H P) :
      (Comp.done ((v.cast τ).map f) : Comp S _).Tame H
        (fun P' made => ∀ tree, made = .ok tree → tree.Within H P') P N := by
    intro tree htree
    cases hcast : v.cast τ with
    | error fault =>
      rw [hcast] at htree
      cases htree
    | ok a =>
      rw [hcast] at htree
      cases htree
      exact hf a (hv.of_cast hcast)
  cases hnext with
  | @bind arg code hcode =>
    rw [Cont.resume]
    by_cases hty : v.ty = arg
    · subst hty
      rw [show v.check v.ty = .ok v from Value.check_self v.get]
      exact ((hpure.build hcode hv).tame fun _ => id).attempt
    · rw [Value.check_of_ne hty]
      rintro _ ⟨⟩
  | @map arg code hcode =>
    rw [Cont.resume]
    by_cases hty : v.ty = arg
    · subst hty
      rw [show v.check v.ty = .ok v from Value.check_self v.get]
      refine (((hpure.compute hcode hv).tame fun _ => id).attempt).bind
        fun P' N' outcome hP hN houtcome => ?_
      rintro _ htree
      cases outcome with
      | error fault => cases htree
      | ok v =>
        cases htree
        exact .ret (houtcome v rfl)
    · rw [Value.check_of_ne hty]
      rintro _ ⟨⟩
  | @next arg program hprogram =>
    rw [Cont.resume]
    by_cases hty : v.ty = arg
    · subst hty
      rw [show v.check v.ty = .ok v from Value.check_self v.get]
      rintro _ ⟨⟩
      exact hprogram
    · rw [Value.check_of_ne hty]
      rintro _ ⟨⟩
  | zip hother => exact hmade _ fun a ha => .andThen hother (.pairWith ha)
  | pairWith hearlier =>
    exact hmade _ fun b hb => .ret (Value.within_of.mpr (Set.union_subset hearlier hb))
  | gather hprogram => exact hmade _ fun a ha => .andThen hprogram (.push ha)
  | @push item gathered hgathered =>
    refine hmade item fun a ha => .ret (Value.within_of.mpr ?_)
    refine Ty.held_gathered_subset_iff.mpr fun b hb => ?_
    obtain rfl | hb := List.mem_cons.mp hb
    · exact ha
    · exact Ty.held_gathered_subset_iff.mp hgathered b hb
  | @collect item =>
    refine hmade (.gathered item) fun gathered hgathered => .ret (Value.within_of.mpr ?_)
    rintro fiber ⟨a, ha, hfiber⟩
    exact hgathered ⟨a, List.mem_reverse.mp ha, hfiber⟩

include hpure in
/-- A value that is ready is handed to the innermost waiting continuation, or ends the run. -/
theorem tame_deliver {tree : S.Program}
    {pending : List (Cont S.Base (ForkJoin S.Base S.Action) S.Code)} {v : S.Value}
    (hpending : ∀ next ∈ pending, next.Within H P) (hv : v.Within H P) :
    ((tree.under pending).deliver (I.handler yields) v).Tame H
      (fun P' => Machine.StepWithin H P') P N := by
  cases pending with
  | nil =>
    rw [Machine.deliver_nil]
    by_cases hty : v.ty = yields
    · subst hty
      rw [show (I.handler v.ty).accept v = .ok v from Value.check_self v.get]
      exact hv
    · rw [show (I.handler yields).accept v = .error _ from Value.check_of_ne hty]
      trivial
  | cons next rest =>
    rw [Machine.deliver_cons]
    have hnext := hpending next List.mem_cons_self
    refine (tame_resume hpure hnext hv).bind fun P' N' made hP hN hmade => ?_
    cases made with
    | error fault => trivial
    | ok made =>
      refine ⟨?_, fun next hnext => ?_⟩
      · rintro _ ⟨⟩
        exact hmade made rfl
      · exact (hpending next (List.mem_cons_of_mem _ hnext)).mono hP

include hpure hreports in
theorem tame_step {machine : S.Machine} (hmachine : machine.Within H P) :
    (machine.step (I.handler yields)).Tame H (fun P' => Machine.StepWithin H P') P N := by
  cases hcurrent : machine.current with
  | none =>
    rw [Machine.step, hcurrent]
    trivial
  | some tree =>
    have htree := hmachine.current tree hcurrent
    rw [Machine.eq_under hcurrent]
    -- A value is delivered after other computations, by when more fibers may have been started.
    have hdeliver {P' N' : Set FiberId} {v : S.Value} (hP : P ⊆ P') (hv : v.Within H P') :
        ((tree.under machine.pending).deliver (I.handler yields) v).Tame H
          (fun P' => Machine.StepWithin H P') P' N' :=
      tame_deliver hpure (fun next hnext => (hmachine.pending next hnext).mono hP) hv
    cases htree with
    | @ret v hv =>
      rw [Machine.step_ret]
      refine (hreports _).tame.attempt.bind fun P' N' answer hP hN _ => ?_
      cases answer with
      | error fault => trivial
      | ok _ => exact hdeliver hP (hv.trans hP)
    | @instr op hop =>
      rw [Machine.step_instr]
      have hperform := tame_perform (P := P) (N := N) hreports hop
      refine hperform.attempt.bind fun P' N' answer hP hN hanswer => ?_
      cases answer with
      | error fault => trivial
      | ok v => exact hdeliver hP (hanswer v rfl)
    | @andThen first next hfirst hnext =>
      rw [Machine.step_andThen]
      refine ⟨?_, ?_⟩
      · rintro _ ⟨⟩
        exact hfirst
      · intro waiting hwaiting
        obtain rfl | hwaiting := List.mem_cons.mp hwaiting
        · exact hnext
        · exact hmachine.pending waiting hwaiting

include hpure hreports in
/-- The steps of a machine are tame. -/
theorem tame_turn {machine : S.Machine} (hmachine : machine.Within H P) :
    (I.turn yields machine).Tame H (fun P' turn => turn.Within H P') P N := by
  refine (tame_step hpure hreports hmachine).bind fun P' N' stepped hP hN hstepped => ?_
  obtain ⟨progress, after⟩ := stepped
  cases progress with
  | error fault => trivial
  | ok progress =>
    cases progress with
    | done v => exact hstepped
    | more => exact hstepped

end Interpreter

end FiberPrograms
