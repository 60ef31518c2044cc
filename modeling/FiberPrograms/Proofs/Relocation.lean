import FiberPrograms.Policy
import FiberPrograms.Proofs.Evaluation
import Mathlib.Data.List.Forall2

/-!
# Other places

A fork carries a place. Here is what it means that two programs are the same but for the places of
their forks: of those that are in the program, and of those that are in what its continuations and
its actions build later on. As such code goes by names, it has to be told which names stand for the
same but for places.

The interpreter hands a place on to its observer and to the log, and to nobody else. So if observers
do not look at places either, then what is the same but for places goes on to be so: it makes the
same requests in the same order, with other places in what is reported of forks.

## Main definitions

* `Event.Relocated`, `Record.Relocated`: what is reported is the same but for places
* `Relocation`: which names of user code stand for the same but for places
* `Tree.Relocated`, `Machine.Relocated`: programs that are the same but for places
* `Comp.Relocated`: computations that do the same but for places
* `Interpreter.Relocated`: user code that does the same, and observers that do not look at places

## Main results

* `Comp.Relocated.bind`, `Comp.Relocated.attempt`
* `Interpreter.Relocated.turn`: the steps of machines do the same but for places
* `Observer.relocated_logging`, `Observer.relocated_recording`, `Observer.relocated_all`,
  `Policy.relocated_reaction`: observers that do not look at places
-/

namespace FiberPrograms

/-! ## Reports -/

/-- An event is the same but for the place of a fork. -/
inductive Event.Relocated : Event → Event → Prop
  | same (event : Event) : Relocated event event
  | fork (fiber : FiberId) (place place' : Place) :
      Relocated (.fork fiber place) (.fork fiber place')

/-- How a fork is shown for diagnosis. -/
def forkShape (place : Place) : Shape :=
  .record "ForkAt" (.field "location" place.shape .open)

/-- A record is the same but for the place of a fork; and, if the log is as `deep` as that, but for
the place in an operation that is shown. -/
inductive Record.Relocated (deep : Prop) : Record → Record → Prop
  | same (record : Record) : Relocated deep record record
  | fork (fiber : FiberId) (place place' : Place) :
      Relocated deep (.fork fiber place) (.fork fiber place')
  | instruction (hdeep : deep) (place place' : Place) (depth : Nat) :
      Relocated deep (.instruction (forkShape place) depth) (.instruction (forkShape place') depth)

namespace Record

variable {deep : Prop} {record record' : Record}

theorem relocated_ofEvent {event event' : Event} (h : event.Relocated event') :
    (ofEvent event).Relocated deep (ofEvent event') := by
  cases h with
  | same => exact .same _
  | fork fiber place place' => exact .fork fiber place place'

theorem Relocated.level_eq (h : record.Relocated deep record') : record'.level = record.level := by
  cases h <;> rfl

/-- Where the log is not deep, operations are shown alike. -/
theorem Relocated.shape_eq {shape shape' : Shape} {depth depth' : Nat} (hdeep : ¬ deep)
    (h : (Record.instruction shape depth).Relocated deep (.instruction shape' depth')) :
    shape' = shape := by
  cases h with
  | same => rfl
  | instruction hdeep' => exact absurd hdeep' hdeep

/-- Operations are shown in the deepest log only. -/
theorem Relocated.of_told (h : record.Relocated deep record') {level : Level}
    (htold : record.level.rank ≤ level.rank) : record.Relocated (level = .trace) record' := by
  cases h with
  | same => exact .same record
  | fork fiber place place' => exact .fork fiber place place'
  | instruction _ place place' depth =>
    refine .instruction ?_ place place' depth
    -- The level of such a record is the last of all.
    have hrank : 4 ≤ level.rank := htold
    cases level with
    | trace => rfl
    | _ => exact absurd hrank (by decide)

end Record

/-- An outcome is the same, but for values that are related. -/
inductive OutcomeRel {α β : Type} (r : α → β → Prop) : Except Fault α → Except Fault β → Prop
  | ok {a : α} {b : β} (h : r a b) : OutcomeRel r (.ok a) (.ok b)
  | error (fault : Fault) : OutcomeRel r (.error fault) (.error fault)

/-! ## Programs -/

/-- Which names of user code stand for the same but for places. -/
structure Relocation (S : Signature) where
  code : S.Code → S.Code → Prop
  action : S.Action → S.Action → Prop

variable {S : Signature} {L : Relocation S} {α β γ δ : Type}

/-- An operation is the same but for its place. -/
inductive ForkJoin.Relocated (L : Relocation S) :
    ForkJoin S.Base S.Action → ForkJoin S.Base S.Action → Prop
  | forkAt (place place' : Place) (yields : Ty S.Base) {action action' : S.Action}
      (h : L.action action action') :
      Relocated L (.forkAt place yields action) (.forkAt place' yields action')
  | await (fiber : FiberId) : Relocated L (.await fiber) (.await fiber)

mutual

/-- A program is the same but for the places of its forks. -/
inductive Tree.Relocated (L : Relocation S) : S.Program → S.Program → Prop
  | ret (v : S.Value) : Tree.Relocated L (.ret v) (.ret v)
  | instr {op op' : ForkJoin S.Base S.Action} (h : op.Relocated L op') :
      Tree.Relocated L (.instr op) (.instr op')
  | andThen {first first' : S.Program}
      {next next' : Cont S.Base (ForkJoin S.Base S.Action) S.Code}
      (hfirst : Tree.Relocated L first first') (hnext : Cont.Relocated L next next') :
      Tree.Relocated L (.andThen first next) (.andThen first' next')

/-- A continuation is the same but for the places of forks. -/
inductive Cont.Relocated (L : Relocation S) :
    Cont S.Base (ForkJoin S.Base S.Action) S.Code →
      Cont S.Base (ForkJoin S.Base S.Action) S.Code → Prop
  | bind (arg : Ty S.Base) {code code' : S.Code} (h : L.code code code') :
      Cont.Relocated L (.bind arg code) (.bind arg code')
  | map (arg : Ty S.Base) {code code' : S.Code} (h : L.code code code') :
      Cont.Relocated L (.map arg code) (.map arg code')
  | next (arg : Ty S.Base) {program program' : S.Program} (h : Tree.Relocated L program program') :
      Cont.Relocated L (.next arg program) (.next arg program')
  | zip (left right : Ty S.Base) {other other' : S.Program} (h : Tree.Relocated L other other') :
      Cont.Relocated L (.zip left right other) (.zip left right other')
  | pairWith (left right : Ty S.Base) (earlier : left.El) :
      Cont.Relocated L (.pairWith left right earlier) (.pairWith left right earlier)
  | gather (item : Ty S.Base) {program program' : S.Program}
      (h : Tree.Relocated L program program') :
      Cont.Relocated L (.gather item program) (.gather item program')
  | push (item : Ty S.Base) (gathered : List item.El) :
      Cont.Relocated L (.push item gathered) (.push item gathered)
  | collect (item : Ty S.Base) : Cont.Relocated L (.collect item) (.collect item)

end

/-- A machine stands in a program that is the same but for places. -/
structure Machine.Relocated (L : Relocation S) (M M' : S.Machine) : Prop where
  current : Option.Rel (Tree.Relocated L) M.current M'.current
  pending : List.Forall₂ (Cont.Relocated L) M.pending M'.pending

/-- What a step comes to is the same but for places. -/
inductive Turn.Relocated (L : Relocation S) : Turn S → Turn S → Prop
  | value (v : S.Value) : Relocated L (.value v) (.value v)
  | again (yields : Ty S.Base) {machine machine' : S.Machine} (h : machine.Relocated L machine') :
      Relocated L (.again yields machine) (.again yields machine')

/-! ## Computations -/

/-- A request is the same but for places, and its answers are the same. -/
inductive Request.Relocated (L : Relocation S) :
    (request request' : Request S) → (request.Reply → request'.Reply → Prop) → Prop
  | newFiber : Relocated L .newFiber .newFiber Eq
  | start (fiber : FiberId) {action action' : S.Action} (h : L.action action action') :
      Relocated L (.start fiber action) (.start fiber action') fun _ _ => True
  | keep (fiber : FiberId) {action action' : S.Action} (h : L.action action action') :
      Relocated L (.keep fiber action) (.keep fiber action') fun _ _ => True
  | ended (fiber : FiberId) : Relocated L (.ended fiber) (.ended fiber) Eq
  | note {event event' : Event} (h : event.Relocated event') :
      Relocated L (.note event) (.note event') fun _ _ => True
  | sight (fiber : FiberId) : Relocated L (.sight fiber) (.sight fiber) fun _ _ => True
  | log {record record' : Record} (h : record.Relocated True record') :
      Relocated L (.log record) (.log record') fun _ _ => True
  | perform (e : S.Effect) : Relocated L (.perform e) (.perform e) Eq

namespace Comp

/-- A computation does the same but for places; it yields what is related by `r`. -/
inductive Relocated (L : Relocation S) (r : α → β → Prop) : Comp S α → Comp S β → Prop
  | done {a : α} {b : β} (h : r a b) : Relocated L r (.done a) (.done b)
  | fail (fault : Fault) : Relocated L r (.fail fault) (.fail fault)
  | ask {request request' : Request S} {same : request.Reply → request'.Reply → Prop}
      (h : request.Relocated L request' same) {k : request.Reply → Comp S α}
      {k' : request'.Reply → Comp S β}
      (hk : ∀ reply reply', same reply reply' → Relocated L r (k reply) (k' reply')) :
      Relocated L r (.ask request k) (.ask request' k')
  | read (fiber : FiberId) {k : Except Fault S.Value → Comp S α}
      {k' : Except Fault S.Value → Comp S β}
      (hk : ∀ outcome, Relocated L r (k outcome) (k' outcome)) :
      Relocated L r (.demand (.read fiber) k) (.demand (.read fiber) k')
  | interpret (yields : Ty S.Base) {machine machine' : S.Machine}
      (h : machine.Relocated L machine') {k : Except Fault S.Value → Comp S α}
      {k' : Except Fault S.Value → Comp S β}
      (hk : ∀ outcome, Relocated L r (k outcome) (k' outcome)) :
      Relocated L r (.demand (.interpret yields machine) k)
        (.demand (.interpret yields machine') k')
  | runQueue {k : Comp S α} {k' : Comp S β} (hk : Relocated L r k k') :
      Relocated L r (.runQueue k) (.runQueue k')

namespace Relocated

variable {r : α → β → Prop} {q : γ → δ → Prop} {c : Comp S α} {c' : Comp S β}

theorem bind (h : c.Relocated L r c') {f : α → Comp S γ} {f' : β → Comp S δ}
    (hf : ∀ a b, r a b → (f a).Relocated L q (f' b)) :
    (c.bind f).Relocated L q (c'.bind f') := by
  induction h with
  | done h => exact hf _ _ h
  | fail fault => exact .fail fault
  | ask h _ ih => exact .ask h ih
  | read fiber _ ih => exact .read fiber ih
  | interpret yields h _ ih => exact .interpret yields h ih
  | runQueue _ ih => exact .runQueue ih

theorem attempt (h : c.Relocated L r c') : c.attempt.Relocated L (OutcomeRel r) c'.attempt := by
  induction h with
  | done h => exact .done (.ok h)
  | fail fault => exact .done (.error fault)
  | ask h _ ih => exact .ask h ih
  | read fiber _ ih => exact .read fiber ih
  | interpret yields h _ ih => exact .interpret yields h ih
  | runQueue _ ih => exact .runQueue ih

theorem ofExcept (outcome : Except Fault α) :
    (Comp.ofExcept outcome : Comp S α).Relocated L Eq (.ofExcept outcome) := by
  cases outcome with
  | ok a => exact .done rfl
  | error fault => exact .fail fault

/-- Programs that are the same but for places are run by computations that do the same. -/
theorem runs {program program' : S.Program} (h : program.Relocated L program')
    (yields : Ty S.Base) :
    (Comp.interpret yields program).Relocated L Eq (Comp.interpret yields program') :=
  .interpret yields ⟨.some h, .nil⟩ .ofExcept

end Relocated

end Comp

/-! ## User code and observers -/

/-- Observers that do the same on events that are the same but for places. -/
def Observer.Relocated (L : Relocation S) (observer observer' : Observer S) : Prop :=
  ∀ {event event' : Event}, event.Relocated event' →
    (observer event).Relocated L Eq (observer' event')

/-- User code that does the same but for places where its names stand for that. -/
structure Meaning.Relocated (L : Relocation S) (meaning meaning' : Meaning S) : Prop where
  build : ∀ {code code'}, L.code code code' → ∀ v,
    (meaning.build code v).Relocated L (Tree.Relocated L) (meaning'.build code' v)
  compute : ∀ {code code'}, L.code code code' → ∀ v,
    (meaning.compute code v).Relocated L Eq (meaning'.compute code' v)
  act : ∀ {action action'}, L.action action action' →
    (meaning.act action).Relocated L Eq (meaning'.act action')

/-- User code that does the same but for places, and observers that do not look at places. -/
structure Interpreter.Relocated (L : Relocation S) (I I' : Interpreter S) : Prop
    extends toMeaningRelocated : Meaning.Relocated L I.toMeaning I'.toMeaning where
  observer : Observer.Relocated L I.observer I'.observer

/-! ## The steps of a machine -/

namespace Interpreter.Relocated

variable {I I' : Interpreter S} {yields : Ty S.Base}

/-- A fork hands its place to the observer only. -/
theorem perform (hI : I.Relocated L I') {op op' : ForkJoin S.Base S.Action}
    (hop : op.Relocated L op') : (I.perform op).Relocated L Eq (I'.perform op') := by
  cases hop with
  | forkAt place place' yields haction =>
    refine .ask .newFiber ?_
    intro fiber _ hfiber
    obtain rfl := hfiber
    -- This is the last that is heard of the place.
    refine (hI.observer (.fork fiber place place')).bind fun _ _ _ => ?_
    exact .ask (.start fiber haction) fun _ _ _ => .done rfl
  | await fiber =>
    exact (hI.observer (.same (.await fiber))).bind fun _ _ _ => .read fiber .ofExcept

/-- What a continuation makes of a value is the same but for places. -/
theorem resume (hI : I.Relocated L I') {next next' : Cont S.Base (ForkJoin S.Base S.Action) S.Code}
    (hnext : next.Relocated L next') (v : S.Value) :
    (next.resume (fun code v => (I.build code v).attempt)
      (fun code v => (I.compute code v).attempt) v).Relocated L (OutcomeRel (Tree.Relocated L))
        (next'.resume (fun code v => (I'.build code v).attempt)
          (fun code v => (I'.compute code v).attempt) v) := by
  -- Most continuations put a program together without running any user code.
  have hmade (τ : Ty S.Base) {f f' : τ.El → S.Program} (hf : ∀ a, (f a).Relocated L (f' a)) :
      (Comp.done ((v.cast τ).map f) : Comp S _).Relocated L (OutcomeRel (Tree.Relocated L))
        (.done ((v.cast τ).map f')) := by
    cases v.cast τ with
    | error fault => exact .done (.error fault)
    | ok a => exact .done (.ok (hf a))
  cases hnext with
  | bind arg hcode =>
    rw [Cont.resume, Cont.resume]
    cases v.check arg with
    | error fault => exact .done (.error fault)
    | ok v => exact (hI.build hcode v).attempt
  | map arg hcode =>
    rw [Cont.resume, Cont.resume]
    cases v.check arg with
    | error fault => exact .done (.error fault)
    | ok v =>
      refine (hI.compute hcode v).attempt.bind ?_
      rintro _ _ (rfl | fault)
      · exact .done (.ok (.ret _))
      · exact .done (.error fault)
  | next arg h =>
    rw [Cont.resume, Cont.resume]
    cases v.check arg with
    | error fault => exact .done (.error fault)
    | ok v => exact .done (.ok h)
  | zip left right h => exact hmade left fun a => .andThen h (.pairWith left right a)
  | pairWith left right earlier => exact hmade right fun _ => .ret _
  | gather item h => exact hmade (.gathered item) fun gathered => .andThen h (.push item gathered)
  | push item gathered => exact hmade item fun _ => .ret _
  | collect item => exact hmade (.gathered item) fun _ => .ret _

/-- What one step comes to: the same answer, and a machine that is the same but for places. -/
abbrev Stepped (L : Relocation S) :
    Except Fault (Progress S.Value) × S.Machine → Except Fault (Progress S.Value) × S.Machine →
      Prop :=
  fun stepped stepped' => stepped.1 = stepped'.1 ∧ stepped.2.Relocated L stepped'.2

/-- A value is taken by the innermost waiting continuation, or ends the run. -/
theorem deliver (hI : I.Relocated L I') (tree tree' : S.Program)
    {pending pending' : List (Cont S.Base (ForkJoin S.Base S.Action) S.Code)}
    (hpending : List.Forall₂ (Cont.Relocated L) pending pending') (v : S.Value) :
    ((tree.under pending).deliver (I.handler yields) v).Relocated L (Stepped L)
      ((tree'.under pending').deliver (I'.handler yields) v) := by
  cases hpending with
  | nil =>
    rw [Machine.deliver_nil, Machine.deliver_nil]
    exact .done ⟨rfl, .none, .nil⟩
  | cons hnext hrest =>
    rw [Machine.deliver_cons, Machine.deliver_cons]
    refine (hI.resume hnext v).bind ?_
    rintro _ _ (hmade | fault)
    · exact .done ⟨rfl, .some hmade, hrest⟩
    · exact .done ⟨rfl, .none, hrest⟩

/-- An operation is shown in the log, with its place, before it is performed. -/
theorem handle (hI : I.Relocated L I') {op op' : ForkJoin S.Base S.Action}
    (hop : op.Relocated L op') (depth : Nat) :
    ((I.handler yields).handle depth op).Relocated L (OutcomeRel Eq)
      ((I'.handler yields).handle depth op') := by
  have hshown : (Record.instruction op.shape depth).Relocated True
      (.instruction op'.shape depth) := by
    cases hop with
    | forkAt place place' => exact .instruction trivial place place' depth
    | await fiber => exact .same _
  have hperform : (do
      Comp.log (.instruction op.shape depth)
      I.perform op : Comp S S.Value).Relocated L Eq (do
        Comp.log (.instruction op'.shape depth)
        I'.perform op') :=
    .ask (.log hshown) fun _ _ _ => hI.perform hop
  exact hperform.attempt

theorem step_under (hI : I.Relocated L I') {tree tree' : S.Program}
    {pending pending' : List (Cont S.Base (ForkJoin S.Base S.Action) S.Code)}
    (htree : tree.Relocated L tree')
    (hpending : List.Forall₂ (Cont.Relocated L) pending pending') :
    ((tree.under pending).step (I.handler yields)).Relocated L (Stepped L)
      ((tree'.under pending').step (I'.handler yields)) := by
  cases htree with
  | ret v =>
    -- Observers are told whether the program is over, and that does not depend on places.
    have hempty : pending'.isEmpty = pending.isEmpty := by cases hpending <;> rfl
    rw [Machine.step_ret, Machine.step_ret, hempty]
    refine (hI.observer (.same (.finished pending.isEmpty))).attempt.bind ?_
    rintro _ _ (_ | fault)
    · exact hI.deliver _ _ hpending v
    · exact .done ⟨rfl, .none, hpending⟩
  | instr hop =>
    rw [Machine.step_instr, Machine.step_instr, hpending.length_eq]
    refine (hI.handle hop pending'.length).bind ?_
    rintro _ _ (rfl | fault)
    · exact hI.deliver _ _ hpending _
    · exact .done ⟨rfl, .none, hpending⟩
  | andThen hfirst hnext =>
    rw [Machine.step_andThen, Machine.step_andThen]
    exact .done ⟨rfl, .some hfirst, .cons hnext hpending⟩

theorem step (hI : I.Relocated L I') {machine machine' : S.Machine}
    (h : machine.Relocated L machine') :
    (machine.step (I.handler yields)).Relocated L (Stepped L)
      (machine'.step (I'.handler yields)) := by
  have hcurrent := h.current
  cases hhere : machine.current with
  | none =>
    cases hhere' : machine'.current with
    | some tree' =>
      rw [hhere, hhere'] at hcurrent
      cases hcurrent
    | none =>
      rw [Machine.step, hhere, Machine.step, hhere']
      exact .done ⟨rfl, h⟩
  | some tree =>
    cases hhere' : machine'.current with
    | none =>
      rw [hhere, hhere'] at hcurrent
      cases hcurrent
    | some tree' =>
      rw [hhere, hhere'] at hcurrent
      obtain ⟨htree⟩ := hcurrent
      rw [Machine.eq_under hhere, Machine.eq_under hhere']
      exact hI.step_under htree h.pending

/-- The steps of machines do the same but for places. -/
theorem turn (hI : I.Relocated L I') (yields : Ty S.Base) {machine machine' : S.Machine}
    (h : machine.Relocated L machine') :
    (I.turn yields machine).Relocated L (Turn.Relocated L) (I'.turn yields machine') := by
  refine (hI.step h).bind ?_
  rintro ⟨progress, after⟩ ⟨_, after'⟩ ⟨rfl, hafter⟩
  cases progress with
  | error fault => exact .fail fault
  | ok progress =>
    cases progress with
    | done v => exact .done (.value v)
    | more => exact .done (.again yields hafter)

end Interpreter.Relocated

/-! ## Observers -/

namespace Observer

theorem relocated_logging : (logging : Observer S).Relocated L logging :=
  fun h => .ask (.log (Record.relocated_ofEvent h)) fun _ _ _ => .done rfl

theorem relocated_recording : (recording : Observer S).Relocated L recording := by
  intro event event' h
  cases h with
  | fork fiber place place' =>
    refine .ask (.sight fiber) fun _ _ _ => ?_
    exact .ask (.note (.fork fiber place place')) fun _ _ _ => .done rfl
  | same =>
    cases event with
    | fork fiber place =>
      refine .ask (.sight fiber) fun _ _ _ => ?_
      exact .ask (.note (.same _)) fun _ _ _ => .done rfl
    | await fiber => exact .ask (.note (.same _)) fun _ _ _ => .done rfl
    | finished outermost => exact .ask (.note (.same _)) fun _ _ _ => .done rfl

/-- Observers that do not look at places do not look at them together. -/
theorem relocated_all {observers observers' : List (Observer S)}
    (h : List.Forall₂ (Observer.Relocated L) observers observers') :
    (all observers).Relocated L (all observers') := by
  induction h with
  | nil => exact fun _ => .done rfl
  | cons hfirst _ ih => exact fun hevent => (hfirst hevent).bind fun _ _ _ => ih hevent

end Observer

/-- Neither does an observer that has queued jobs run. -/
theorem Policy.relocated_reaction (policy : Policy) :
    (policy.reaction : Observer S).Relocated L policy.reaction := by
  have hready (fiber : FiberId) :
      (demandReady fiber : Comp S Unit).Relocated L Eq (demandReady fiber) := by
    refine .ask (.ended fiber) ?_
    rintro ready _ rfl
    cases ready with
    | true => exact .done rfl
    | false => exact .fail wouldBlock
  intro event event' h
  cases h with
  | fork fiber place place' => cases policy <;> exact .done rfl
  | same =>
    cases event with
    | fork | finished => cases policy <;> exact .done rfl
    | await fiber =>
      cases policy with
      | oldestFirst | newestFirst => exact .runQueue (hready fiber)
      | byHand => exact hready fiber
      | _ => exact .done rfl

end FiberPrograms
