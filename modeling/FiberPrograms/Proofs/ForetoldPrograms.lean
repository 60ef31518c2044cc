import FiberPrograms.Proofs.ForetoldRuns
import FiberPrograms.Proofs.NestedCode
import FiberPrograms.Proofs.StackDepths

/-!
# Programs that can be foretold

The forecast of a program is put together from those of its parts. A fork puts another action on the
ledger and yields the new fiber; an await yields what the ledger says of the fiber, or fails with
it. The programs of a sequence come one after the other, each with the ledger that the one before
has left, until one of them fails.

## Main definitions

* `Ledger.fork`: what the ledger says after a fork
* `Program.ComesTo`, `Program.FailsWith`: what a program comes to, whatever waits for it
* `Program.ComeInOrder`: what the programs of a sequence come to, one after the other

## Main results

* `Program.comesTo_fork`, `Program.comesTo_await`, `Program.failsWith_await`: the operations
* `Program.ComeInOrder.forecast_sequence`, `Program.ComeInOrder.failsWith_sequence`: sequences
-/

namespace FiberPrograms

variable {S : Signature} {W : Type} {I : Interpreter S} {base : Pool S W} {L L₁ L₂ L' : Ledger S}
  {outcome : Except Fault S.Value}

/-! ## What is reported -/

namespace Ledger

/-- Several events are put down. -/
def notes (L : Ledger S) (events : List Event) : Ledger S :=
  { L with events := L.events ++ events }

@[simp] theorem notes_nil (L : Ledger S) : L.notes [] = L := by
  simp [notes]

@[simp] theorem notes_note (L : Ledger S) (event : Event) (events : List Event) :
    (L.note event).notes events = L.notes (event :: events) := by
  simp [notes, note]

/-- An action is forked as a new fiber. -/
def fork (L : Ledger S) (place : Place) (action : S.Action) (outcome : Except Fault S.Value) :
    Ledger S :=
  (L.name.note (.fork ⟨L.made⟩ place)).hand ⟨⟨L.made⟩, action, outcome⟩

section Fields

variable (L : Ledger S) (event : Event) (events : List Event) (place : Place) (action : S.Action)
  (outcome : Except Fault S.Value)

@[simp] theorem made_note : (L.note event).made = L.made := rfl

@[simp] theorem errands_note : (L.note event).errands = L.errands := rfl

@[simp] theorem events_note : (L.note event).events = L.events ++ [event] := rfl

@[simp] theorem made_notes : (L.notes events).made = L.made := rfl

@[simp] theorem errands_notes : (L.notes events).errands = L.errands := rfl

@[simp] theorem events_notes : (L.notes events).events = L.events ++ events := rfl

@[simp] theorem made_fork : (L.fork place action outcome).made = L.made + 1 := rfl

@[simp] theorem errands_fork :
    (L.fork place action outcome).errands = L.errands ++ [⟨⟨L.made⟩, action, outcome⟩] := rfl

@[simp] theorem events_fork :
    (L.fork place action outcome).events = L.events ++ [.fork ⟨L.made⟩ place] := rfl

end Fields

end Ledger

/-- Pure code comes to one outcome. -/
theorem Comp.Settles.unique {α : Type} {c : Comp S α} {first second : Except Fault α}
    (h : c.Settles base first) (h' : c.Settles base second) : second = first := by
  induction h with
  | done a =>
    cases h'
    rfl
  | fail fault =>
    cases h'
    rfl
  | read ended rest ih =>
    cases h' with
    | read ended' rest' =>
      cases ended.symm.trans ended'
      exact ih rest'

namespace Comp

variable {c : Comp S Unit} {f : Unit → Comp S (Turn S)} {events : List Event}

theorem PutsDown.forecast (h : c.PutsDown events)
    (rest : (f ()).Forecast I base (L.notes events) L' outcome) :
    (c.bind f).Forecast I base L L' outcome := by
  induction h generalizing L with
  | done =>
    rw [Ledger.notes_nil] at rest
    exact rest
  | note _ ih =>
    refine .ask trivial fun _ _ answers => ?_
    cases answers
    exact ih (by rwa [Ledger.notes_note])
  | sight _ ih | log _ ih =>
    refine .ask trivial fun _ _ answers => ?_
    cases answers
    exact ih rest
  | perform _ ih =>
    refine .ask trivial fun reply _ answers => ?_
    cases answers
    exact ih reply rest

/-- An event is reported and put down. -/
theorem Forecast.observe (hobserver : I.observer.Faithful) (event : Event)
    (rest : (f ()).Forecast I base (L.note event) L' outcome) :
    ((I.observer event).bind f).Forecast I base L L' outcome :=
  (hobserver event).forecast rest

end Comp

/-! ## What programs come to -/

namespace Program

variable {item τ yields : Ty S.Base} {p : S.Program} {programs : List S.Program}
  {pending : List S.Cont} {v : S.Value} {fault : Fault}

/-- By the ledger, a program comes to a value and leaves another ledger, whatever waits for it. -/
def ComesTo (I : Interpreter S) (base : Pool S W) (p : S.Program) (L : Ledger S) (v : S.Value)
    (L₁ : Ledger S) : Prop :=
  ∀ (yields : Ty S.Base) (pending : List S.Cont) (L' : Ledger S) (outcome : Except Fault S.Value),
    (I.goOn yields pending v).Forecast I base L₁ L' outcome →
    (I.turn yields (p.under pending)).Forecast I base L L' outcome

/-- By the ledger, a program fails and leaves another ledger, whatever waits for it. -/
def FailsWith (I : Interpreter S) (base : Pool S W) (p : S.Program) (L : Ledger S) (fault : Fault)
    (L₁ : Ledger S) : Prop :=
  ∀ (yields : Ty S.Base) (pending : List S.Cont),
    (I.turn yields (p.under pending)).Forecast I base L L₁ (.error fault)

/-- A node is entered. -/
theorem forecast_andThen {next : S.Cont}
    (rest : (I.turn yields (p.under (next :: pending))).Forecast I base L L' outcome) :
    (I.turn yields ((p.andThen next).under pending)).Forecast I base L L' outcome := by
  rw [Interpreter.turn_andThen]
  exact .again rest

/-- A nest of continuations is entered. -/
theorem forecast_nested {conts : List S.Cont}
    (rest : (I.turn yields (p.under (conts ++ pending))).Forecast I base L L' outcome) :
    (I.turn yields ((p.nested conts).under pending)).Forecast I base L L' outcome := by
  induction conts using List.reverseRecOn generalizing pending with
  | nil => exact rest
  | append_singleton conts next ih =>
    rw [Tree.nested_concat]
    refine forecast_andThen (ih ?_)
    rwa [List.append_assoc] at rest

/-- A value that nothing waits for is what the run yields, when it is of the right type. -/
theorem forecast_nil {a : yields.El} :
    (I.goOn yields [] (.of yields a)).Forecast I base L L (.ok (.of yields a)) := by
  rw [Interpreter.goOn, Value.check_self]
  exact .value _

/-- A value is handed to user code, and the run goes on with the program made of it. -/
theorem forecast_bind {arg : Ty S.Base} {code : S.Code} {a : arg.El}
    (hbuild : I.build code (.of arg a) = .done p)
    (rest : (I.turn yields (p.under pending)).Forecast I base L L' outcome) :
    (I.goOn yields (.bind arg code :: pending) (.of arg a)).Forecast I base L L' outcome := by
  rw [Interpreter.goOn_bind, Value.check_self]
  change ((I.build code (.of arg a)).bind _).Forecast I base L L' outcome
  rw [hbuild]
  exact .again rest

/-- A value is handed to user code, and the run goes on with the value made of it. -/
theorem forecast_map {arg : Ty S.Base} {code : S.Code} {a : arg.El}
    (hcompute : I.compute code (.of arg a) = .done v)
    (rest : (I.turn yields ((Tree.ret v).under pending)).Forecast I base L L' outcome) :
    (I.goOn yields (.map arg code :: pending) (.of arg a)).Forecast I base L L' outcome := by
  rw [Interpreter.goOn]
  simp only [Interpreter.handler, Cont.resume, Value.check_self, hcompute]
  exact .again rest

/-- The run fails with the user code that a value is handed to. -/
theorem forecast_map_fail {arg : Ty S.Base} {code : S.Code} {a : arg.El}
    (hcompute : I.compute code (.of arg a) = .fail fault) :
    (I.goOn yields (.map arg code :: pending) (.of arg a)).Forecast I base L L (.error fault) := by
  rw [Interpreter.goOn]
  simp only [Interpreter.handler, Cont.resume, Value.check_self, hcompute]
  exact .fail fault

variable (hobserver : I.observer.Faithful)

include hobserver

/-- A value is reported, and the run goes on with it. -/
theorem forecast_ofValue {a : τ.El}
    (rest : (I.goOn yields pending (.of τ a)).Forecast I base
      (L.note (.finished pending.isEmpty)) L' outcome) :
    (I.turn yields ((ofValue τ a : S.Program).under pending)).Forecast I base L L' outcome := by
  rw [ofValue, Interpreter.turn_ret]
  exact .observe hobserver _ rest

/-- A fork reports the new fiber, hands its action over, and yields the fiber. -/
theorem comesTo_fork (place : Place) (τ : Ty S.Base) {action : S.Action}
    {result : Except Fault S.Value} (settles : (I.act action).Settles base result) :
    ComesTo I base (ofInstr (.forkAt place τ action)) L (.of (.fiber τ) (⟨L.made⟩ : FiberId))
      (L.fork place action result) := by
  intro yields pending L' outcome rest
  rw [ofInstr, Interpreter.turn_instr]
  refine .ask trivial fun _ _ answers => ?_
  cases answers
  refine .ask trivial fun _ _ answers => ?_
  cases answers
  change (((I.observer _).bind _).bind _).Forecast I base L.name L' outcome
  rw [Comp.bind_assoc]
  refine .observe hobserver _ (.ask ⟨rfl, result, settles⟩ fun _ _ answers => ?_)
  cases answers with
  | start settles' =>
    obtain rfl := settles.unique settles'
    exact rest

/-- An await is reported before the fiber is read. -/
theorem forecast_await {errand : Errand S} (hmem : errand ∈ L.errands)
    (rest : ((Comp.ofExcept errand.told).bind fun v => I.goOn yields pending v).Forecast I base
      (L.note (.await errand.fiber)) L' outcome) :
    (I.turn yields ((ofInstr (.await errand.fiber) : S.Program).under pending)).Forecast I base L L'
      outcome := by
  rw [ofInstr, Interpreter.turn_instr]
  refine .ask trivial fun _ _ answers => ?_
  cases answers
  change (((I.observer _).bind _).bind _).Forecast I base L L' outcome
  rw [Comp.bind_assoc]
  exact .observe hobserver _ (.read hmem rest)

/-- An await of a fiber whose action yields a value yields that value. -/
theorem comesTo_await {errand : Errand S} (hmem : errand ∈ L.errands)
    (hok : errand.outcome = .ok v) :
    ComesTo I base (ofInstr (.await errand.fiber)) L v (L.note (.await errand.fiber)) := by
  intro yields pending L' outcome rest
  refine forecast_await hobserver hmem ?_
  rw [Errand.told, hok]
  exact rest

/-- An await of a fiber whose action fails reports that, and fails with it. -/
theorem failsWith_await {errand : Errand S} (hmem : errand ∈ L.errands)
    (herror : errand.outcome = .error fault) :
    FailsWith I base (ofInstr (.await errand.fiber)) L (.fiberFailed errand.fiber fault)
      (L.note (.await errand.fiber)) := by
  intro yields pending
  refine forecast_await hobserver hmem ?_
  rw [Errand.told, herror]
  exact .fail _

/-! ## Sequences -/

omit hobserver in
/-- The run goes on with the next program of a sequence. -/
theorem goOn_gather {gathered : List item.El} :
    I.goOn yields (.gather item p :: pending) (.of (.gathered item) gathered) =
      .done (.again yields ((p.andThen (.push item gathered)).under pending)) := by
  have hcast : Value.cast (.gathered item) (.of (.gathered item) gathered) = .ok gathered :=
    @Value.cast_self _ _ (.gathered item) gathered
  rw [Interpreter.goOn]
  simp only [Interpreter.handler, Cont.resume, hcast]
  rfl

omit hobserver in
/-- The value is added to what has been gathered. -/
theorem goOn_push {gathered : List item.El} {a : item.El} :
    I.goOn yields (.push item gathered :: pending) (.of item a) =
      .done (.again yields
        ((ofValue (.gathered item) (a :: gathered) : S.Program).under pending)) := by
  rw [Interpreter.goOn]
  simp only [Interpreter.handler, Cont.resume, Value.cast_self]
  rfl

omit hobserver in
/-- What has been gathered is turned round in the end. -/
theorem goOn_collect {gathered : List item.El} :
    I.goOn yields (.collect item :: pending) (.of (.gathered item) gathered) =
      .done (.again yields
        ((ofValue (.list item) gathered.reverse : S.Program).under pending)) := by
  have hcast : Value.cast (.gathered item) (.of (.gathered item) gathered) = .ok gathered :=
    @Value.cast_self _ _ (.gathered item) gathered
  rw [Interpreter.goOn]
  simp only [Interpreter.handler, Cont.resume, hcast]
  rfl

/-- Programs come to values one after the other, each with the ledger that the one before has left.
In between it is reported that something has been gathered. -/
inductive ComeInOrder (I : Interpreter S) (base : Pool S W) (item : Ty S.Base) :
    List S.Program → Ledger S → List item.El → Ledger S → Prop
  | nil {L : Ledger S} : ComeInOrder I base item [] L [] L
  | cons {p : S.Program} {programs : List S.Program} {L L₁ L' : Ledger S} {a : item.El}
      {values : List item.El} (own : p.ComesTo I base (L.note (.finished false)) (.of item a) L₁)
      (later : ComeInOrder I base item programs L₁ values L') :
      ComeInOrder I base item (p :: programs) L (a :: values) L'

/-- The programs of a sequence come to their values, and what follows them goes on from there. -/
theorem ComeInOrder.forecast {later : List S.Program} {values : List item.El}
    (h : ComeInOrder I base item programs L values L₁) (gathered : List item.El)
    (rest : (I.turn yields ((ofValue (.gathered item) (values.reverse ++ gathered) :
      S.Program).under (gathering item later ++ pending))).Forecast I base L₁ L' outcome) :
    (I.turn yields ((ofValue (.gathered item) gathered : S.Program).under
      (gathering item (programs ++ later) ++ pending))).Forecast I base L L' outcome := by
  induction h generalizing gathered with
  | nil => exact rest
  | @cons p programs L L₁ _ a values own _ ih =>
    refine forecast_ofValue hobserver ?_
    change (I.goOn yields (.gather item p :: (gathering item (programs ++ later) ++ pending))
      _).Forecast I base _ L' outcome
    rw [goOn_gather]
    refine .again (forecast_andThen (own _ _ _ _ ?_))
    rw [goOn_push]
    refine .again (ih (a :: gathered) ?_)
    simpa using rest

/-- A sequence lists the values of its programs. -/
theorem ComeInOrder.forecast_sequence {values : List item.El}
    (h : ComeInOrder I base item programs L values L₁)
    (rest : (I.goOn yields pending (.of (.list item) values)).Forecast I base
      ((L₁.note (.finished false)).note (.finished pending.isEmpty)) L' outcome) :
    (I.turn yields ((sequence item programs).under pending)).Forecast I base L L' outcome := by
  rw [sequence_eq_nested]
  refine forecast_nested ?_
  rw [← List.append_nil programs]
  refine h.forecast hobserver [] (forecast_ofValue hobserver ?_)
  change (I.goOn yields (.collect item :: pending) _).Forecast I base
    (L₁.note (.finished false)) L' outcome
  rw [goOn_collect]
  refine .again (forecast_ofValue hobserver ?_)
  simpa using rest

/-- A sequence fails with the first of its programs that does. -/
theorem ComeInOrder.failsWith_sequence {later : List S.Program} {values : List item.El}
    (h : ComeInOrder I base item programs L values L₁)
    (own : p.FailsWith I base (L₁.note (.finished false)) fault L₂) :
    (sequence item (programs ++ p :: later)).FailsWith I base L fault L₂ := by
  intro yields pending
  rw [sequence_eq_nested]
  refine forecast_nested (h.forecast hobserver [] (forecast_ofValue hobserver ?_))
  change (I.goOn yields (.gather item p :: (gathering item later ++ pending))
    _).Forecast I base _ L₂ (.error fault)
  rw [goOn_gather]
  exact .again (forecast_andThen (own _ _))

end Program

end FiberPrograms
