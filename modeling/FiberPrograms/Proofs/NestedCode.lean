import FiberPrograms.Interpreter
import FiberPrograms.Proofs.Evaluation
import FiberPrograms.Proofs.Semantics

/-!
# Nested code and sequenced code

A continuation that makes a program of its value may go on with that program, or have it run to its
end by an interpreter of its own and yield the value. The machine that goes on with the program and
the machine that runs it anew take the same steps: what waits below makes a difference only to the
flags of returns and to the depths that are logged.

## Main definitions

* `Interpreter.goOn`: what a machine makes of a value that is ready
* `Comp.Lockstep`: two computations ask for the same until each has come to its last part
* `Comp.Tells`: an observer only puts down that a value has been yielded, and looks at nothing
* `Nesting`, `Nesting.Lawful`: two ways of writing the same continuation, and where it stands
* `Nesting.Frames`: the two have been run as far as each other

## Main results

* `Nesting.lockstep_turn_before`: before the program has been made, steps are in lockstep
* `Nesting.lockstep_turn_inside`: so they are while it is run
-/

namespace FiberPrograms

/-- Continuations over a signature. -/
abbrev Signature.Cont (S : Signature) : Type :=
  FiberPrograms.Cont S.Base (ForkJoin S.Base S.Action) S.Code

variable {S : Signature} {α : Type}

/-! ## The steps of a machine as computations -/

namespace Comp

/-- To answer with a fault and fail with it afterwards is to fail with it. -/
theorem attempt_bind {β : Type} (c : Comp S α) (f : α → Comp S β) :
    (c.attempt.bind fun outcome => (ofExcept outcome).bind f) = c.bind f := by
  induction c with
  | done a => rfl
  | fail fault => rfl
  | ask request k ih => simp only [attempt, bind, ih]
  | demand d k ih => simp only [attempt, bind, ih]
  | runQueue k ih => simp only [attempt, bind, ih]

end Comp

namespace Interpreter

variable (I : Interpreter S) (yields : Ty S.Base)

/-- What a machine makes of a value that is ready, as a computation: it ends with it, or goes on
with the program that the innermost continuation makes of it. -/
def goOn (pending : List S.Cont) (v : S.Value) :
    Comp S (Turn S) :=
  match pending with
  | [] => .ofExcept ((v.check yields).map .value)
  | next :: rest => ((I.handler yields).resume next v).bind fun made =>
      (Comp.ofExcept made).bind fun tree => .done (.again yields (tree.under rest))

variable {I yields}

theorem turn_andThen (first : S.Program) (next : S.Cont)
    (pending : List S.Cont) :
    I.turn yields ((first.andThen next).under pending) =
      .done (.again yields (first.under (next :: pending))) := rfl

theorem turn_deliver (tree : S.Program) (pending : List S.Cont) (v : S.Value) :
    (((tree.under pending).deliver (I.handler yields) v).bind fun
      | (.error fault, _) => .fail fault
      | (.ok (.done v), _) => .done (.value v)
      | (.ok .more, machine) => .done (.again yields machine)) = I.goOn yields pending v := by
  cases pending with
  | nil =>
    rw [Machine.deliver_nil, goOn, show (I.handler yields).accept v = v.check yields from rfl]
    cases v.check yields <;> rfl
  | cons next rest =>
    rw [Machine.deliver_cons, goOn]
    change ((Comp.bind _ _).bind _) = _
    rw [Comp.bind_assoc]
    congr 1
    funext made
    cases made <;> rfl

theorem turn_ret (v : S.Value) (pending : List S.Cont) :
    I.turn yields ((Tree.ret v : S.Program).under pending) =
      (I.observer (.finished pending.isEmpty)).bind fun _ => I.goOn yields pending v := by
  rw [turn, Machine.step_ret]
  rw [← Comp.attempt_bind (I.observer _)]
  change ((Comp.bind _ _).bind _) = _
  rw [Comp.bind_assoc]
  congr 1
  funext told
  cases told with
  | error fault => rfl
  | ok => exact turn_deliver ..

theorem turn_instr (op : ForkJoin S.Base S.Action) (pending : List S.Cont) :
    I.turn yields ((Tree.instr op : S.Program).under pending) =
      .ask (.log (.instruction op.shape pending.length)) fun _ =>
        (I.perform op).bind fun v => I.goOn yields pending v := by
  rw [turn, Machine.step_instr]
  rw [← Comp.attempt_bind (I.perform op)]
  change ((Comp.bind _ _).bind _) = _
  rw [Comp.bind_assoc]
  change Comp.ask _ _ = _
  congr 1
  funext _
  congr 1
  funext told
  cases told with
  | error fault => rfl
  | ok v => exact turn_deliver ..

theorem goOn_bind (arg : Ty S.Base) (code : S.Code) (rest : List S.Cont) (v : S.Value) :
    I.goOn yields (.bind arg code :: rest) v =
      (Comp.ofExcept (v.check arg)).bind fun v => (I.build code v).bind fun tree =>
        .done (.again yields (tree.under rest)) := by
  rw [goOn]
  simp only [handler, Cont.resume]
  cases v.check arg with
  | error fault => rfl
  | ok v => exact Comp.attempt_bind ..

/-- A value that is not of the type at which it is waited for is one to fail with. -/
theorem goOn_of_ne {τ : Ty S.Base} {pending : List S.Cont} {v : S.Value}
    (hfits : Program.Fits yields τ pending) (hne : v.ty ≠ τ) :
    I.goOn yields pending v = .fail (.wrongType τ.name) := by
  cases pending with
  | nil =>
    obtain rfl : yields = τ := hfits
    rw [goOn, Value.check_of_ne hne]
    rfl
  | cons next rest =>
    obtain rfl : next.arg = τ := hfits
    have hresume : (I.handler yields).resume next v = pure (.error (.wrongType next.arg.name)) :=
      Cont.resume_of_ne hne
    rw [goOn, hresume]
    rfl

end Interpreter

/-! ## Computations in lockstep -/

/-- What is told of the value that a program yields: its return is put down so many times, perhaps
written to the log, and perhaps sent to where nobody looks. It is the same for returns that end a
run and for others. -/
inductive Comp.Tells (own : S.Effect → Prop) : (times : Nat) → (Bool → Comp S Unit) → Prop
  | done : Tells own 0 fun _ => .done ()
  | note {times : Nat} {c : Bool → Comp S Unit} (rest : Tells own times c) :
      Tells own (times + 1) fun outermost => .ask (.note (.finished outermost)) fun _ => c outermost
  | log {times : Nat} {c : Bool → Comp S Unit} (rest : Tells own times c) :
      Tells own times fun outermost =>
        .ask (.log (.ofEvent (.finished outermost))) fun _ => c outermost
  | perform {times : Nat} {e : Bool → S.Effect}
      {k : (outermost : Bool) → S.Reply (e outermost) → Comp S Unit} (sent : ∀ b, own (e b))
      (rest : ∀ reply : (b : Bool) → S.Reply (e b), Tells own times fun b => k b (reply b)) :
      Tells own times fun outermost => .ask (.perform (e outermost)) (k outermost)

namespace Comp.Tells

variable {own : S.Effect → Prop}

/-- What is told twice is told one time after the other. -/
theorem bind {times more : Nat} {c c' : Bool → Comp S Unit} (h : Tells own times c)
    (h' : Tells own more c') :
    Tells own (times + more) fun outermost => (c outermost).bind fun _ => c' outermost := by
  induction h with
  | done =>
    rw [Nat.zero_add]
    exact h'
  | note rest ih =>
    rw [Nat.add_right_comm]
    exact .note ih
  | log rest ih => exact .log ih
  | perform sent rest ih => exact .perform sent ih

theorem logging : Tells own 0 fun outermost => Observer.logging (.finished outermost) :=
  .log .done

theorem recording : Tells own 1 fun outermost => Observer.recording (.finished outermost) :=
  .note .done

/-- Several observers only put values down if each of them does. -/
theorem all {observers : List (Observer S)}
    (h : ∀ observer ∈ observers, ∃ times, Tells own times fun outermost =>
      observer (.finished outermost)) :
    ∃ times, Tells own times fun outermost => Observer.all observers (.finished outermost) := by
  induction observers with
  | nil => exact ⟨0, .done⟩
  | cons first rest ih =>
    obtain ⟨times, hfirst⟩ := h first List.mem_cons_self
    obtain ⟨more, hrest⟩ := ih fun observer hmem => h observer (List.mem_cons_of_mem _ hmem)
    exact ⟨times + more, hfirst.bind hrest⟩

end Comp.Tells

/-- Two computations ask for the same until each has come to its last part, or both fail. If
`strict` does not hold, they need not tell the same of returns, nor write the same to the log. -/
inductive Comp.Lockstep (own : S.Effect → Prop) (strict : Bool)
    (last : Comp S α → Comp S α → Prop) :
    Comp S α → Comp S α → Prop
  | last {c c' : Comp S α} (h : last c c') : Lockstep own strict last c c'
  | fail (fault : Fault) : Lockstep own strict last (.fail fault) (.fail fault)
  | ask {request : Request S} {k k' : request.Reply → Comp S α}
      (rest : ∀ reply, Lockstep own strict last (k reply) (k' reply)) :
      Lockstep own strict last (.ask request k) (.ask request k')
  | demand {d : Demand S} {k k' : Except Fault S.Value → Comp S α}
      (rest : ∀ outcome, Lockstep own strict last (k outcome) (k' outcome)) :
      Lockstep own strict last (.demand d k) (.demand d k')
  | runQueue {k k' : Comp S α} (rest : Lockstep own strict last k k') :
      Lockstep own strict last (.runQueue k) (.runQueue k')
  | note {k k' : Unit → Comp S α} (hstrict : strict = false)
      (rest : Lockstep own strict last (k ()) (k' ())) :
      Lockstep own strict last (.ask (.note (.finished true)) k) (.ask (.note (.finished false)) k')
  | log {record record' : Record} {k k' : Unit → Comp S α} (hstrict : strict = false)
      (rest : Lockstep own strict last (k ()) (k' ())) :
      Lockstep own strict last (.ask (.log record) k) (.ask (.log record') k')
  | perform {e e' : S.Effect} {k : S.Reply e → Comp S α} {k' : S.Reply e' → Comp S α}
      (hstrict : strict = false) (sent : own e) (sent' : own e')
      (rest : ∀ reply reply', Lockstep own strict last (k reply) (k' reply')) :
      Lockstep own strict last (.ask (.perform e) k) (.ask (.perform e') k')

namespace Comp.Lockstep

variable {own : S.Effect → Prop} {strict : Bool} {last : Comp S α → Comp S α → Prop} {β : Type}

/-- One computation goes on in two ways that are in lockstep. -/
theorem bind_left (c : Comp S β) {f f' : β → Comp S α}
    (h : ∀ b, (f b).Lockstep own strict last (f' b)) :
    (c.bind f).Lockstep own strict last (c.bind f') := by
  induction c with
  | done b => exact h b
  | fail fault => exact .fail fault
  | ask request k ih => exact .ask ih
  | demand d k ih => exact .demand ih
  | runQueue k ih => exact .runQueue ih

/-- So it is once returns have been told, if that may be told in different ways. -/
theorem tells {times : Nat} {c : Bool → Comp S Unit} (htells : Tells own times c)
    {f f' : Unit → Comp S α} (h : (f ()).Lockstep own strict last (f' ())) :
    ((c true).bind f).Lockstep own strict last ((c strict).bind f') := by
  cases strict with
  | true => exact bind_left _ fun _ => h
  | false =>
    induction htells with
    | done => exact h
    | note rest ih => exact .note rfl ih
    | log rest ih => exact .log rfl ih
    | perform sent rest ih =>
      refine .perform rfl (sent true) (sent false) fun reply reply' => ?_
      exact ih fun
        | true => reply
        | false => reply'

end Comp.Lockstep

/-! ## Nested and sequenced code -/

/-- Two ways of writing the same continuation, and the place in which it stands: it takes a value
of type `arg` and goes on with what a program of type `inner` yields, in a run that yields
something else once the continuations that wait are through with it. -/
structure Nesting (S : Signature) where
  arg : Ty S.Base
  inner : Ty S.Base
  yields : Ty S.Base
  /-- The code that has the program run to its end and yields its value. -/
  nested : S.Code
  /-- The code that goes on with the program. -/
  sequenced : S.Code
  /-- The continuations that wait for the value of the program. -/
  pending : List S.Cont

namespace Nesting

variable (N : Nesting S) (I : Interpreter S) (own : S.Effect → Prop) (times : Nat)

/-- What the nested code makes of the outcome of the program that it has had run. -/
def resumed (outcome : Except Fault S.Value) : Comp S (Turn S) :=
  (Comp.ofExcept outcome).bind fun v => .done (.again N.yields ((Tree.ret v).under N.pending))

/-- The last part of a step, as long as the program of the continuation has not been made: the
machines go on, or the program is there, to be run by the nested code or to be gone on with. -/
inductive LastBefore : Comp S (Turn S) → Comp S (Turn S) → Prop
  | again (tree : S.Program) (above : List S.Cont) :
      LastBefore (.done (.again N.yields (tree.under (above ++ .bind N.arg N.nested :: N.pending))))
        (.done (.again N.yields (tree.under (above ++ .bind N.arg N.sequenced :: N.pending))))
  | made (program : S.Program) :
      LastBefore (.demand (.interpret N.inner (.start program)) N.resumed)
        (.done (.again N.yields (program.under N.pending)))

/-- The last part of a step of the program that has been made: the machines go on, or the program
has come to its value. -/
inductive LastInside : Comp S (Turn S) → Comp S (Turn S) → Prop
  | again (tree : S.Program) (above : List S.Cont) :
      LastInside (.done (.again N.inner (tree.under above)))
        (.done (.again N.yields (tree.under (above ++ N.pending))))
  | value (v : S.Value) : LastInside (.done (.value v)) (I.goOn N.yields N.pending v)

/-- What a run has come to. -/
inductive Stage where
  /-- The program has not been made. -/
  | before
  /-- The program is being run. -/
  | inside
  /-- The program has come to its value, and so many returns of it have been put down anew. -/
  | closing (told : Nat)
  /-- Nothing is left of the program. -/
  | after
deriving DecidableEq

/-- The nested code and the sequenced code have been run as far as each other: the computations
that are at work on the machine, with what waits above the machine. -/
inductive Frames : Stage → Comp S (Turn S) → List (Except Fault S.Value → Comp S (Turn S)) →
    Comp S (Turn S) → Prop
  | before {c c' : Comp S (Turn S)} (h : c.Lockstep own true N.LastBefore c') :
      Frames .before c [] c'
  | inside {c c' : Comp S (Turn S)}
      (h : c.Lockstep own N.pending.isEmpty (N.LastInside I) c') : Frames .inside c [N.resumed] c'
  | yielded (v : S.Value) :
      Frames (.closing 0) (.done (.again N.yields ((Tree.ret v).under N.pending))) []
        (I.goOn N.yields N.pending v)
  | closing {told left : Nat} {c : Bool → Comp S Unit} (htells : Comp.Tells own left c)
      (htold : told + left = times) (v : S.Value) :
      Frames (.closing told) ((c N.pending.isEmpty).bind fun _ => I.goOn N.yields N.pending v) []
        (I.goOn N.yields N.pending v)
  | after (c : Comp S (Turn S)) : Frames .after c [] c

/-! ## Steps in lockstep -/

variable {N I own times}

/-- The nested code has the program run that the sequenced code goes on with. -/
structure Lawful (N : Nesting S) (I : Interpreter S) : Prop where
  build : ∀ a, I.build N.nested (.of N.arg a) =
    (I.build N.sequenced (.of N.arg a)).bind fun program =>
      (Comp.interpret N.inner program).bind fun v => .done (.ret v)
  fits : Program.Fits N.yields N.inner N.pending

section Steps

variable (hlawful : N.Lawful I)

include hlawful in
theorem lockstep_goOn_before (above : List S.Cont) (v : S.Value) :
    (I.goOn N.yields (above ++ .bind N.arg N.nested :: N.pending) v).Lockstep own true N.LastBefore
      (I.goOn N.yields (above ++ .bind N.arg N.sequenced :: N.pending) v) := by
  cases above with
  | nil =>
    rw [List.nil_append, List.nil_append, Interpreter.goOn_bind, Interpreter.goOn_bind]
    by_cases hty : v.ty = N.arg
    · obtain ⟨a, rfl⟩ : ∃ a, v = .of N.arg a := ⟨_, Value.cast_eq_ok_iff.mp (dif_pos hty)⟩
      rw [Value.check_self]
      simp only [Comp.ofExcept, Comp.bind, hlawful.build, Comp.bind_assoc]
      exact .bind_left _ fun program => .last (.made program)
    · rw [Value.check_of_ne hty]
      exact .fail _
  | cons next above =>
    refine .bind_left _ fun made => .bind_left _ fun tree => .last ?_
    exact .again tree above

include hlawful in
/-- Before the program has been made, the steps of the two machines are in lockstep. -/
theorem lockstep_turn_before (tree : S.Program) (above : List S.Cont) :
    (I.turn N.yields (tree.under (above ++ .bind N.arg N.nested :: N.pending))).Lockstep own true
      N.LastBefore
      (I.turn N.yields (tree.under (above ++ .bind N.arg N.sequenced :: N.pending))) := by
  cases tree with
  | andThen first next => exact .last (.again first (next :: above))
  | ret v =>
    have hbelow (next : S.Cont) : (above ++ next :: N.pending).isEmpty = false := by simp
    rw [Interpreter.turn_ret, Interpreter.turn_ret, hbelow, hbelow]
    exact .bind_left _ fun _ => lockstep_goOn_before hlawful above v
  | instr op =>
    have hdepth : (above ++ .bind N.arg N.nested :: N.pending : List S.Cont).length =
        (above ++ .bind N.arg N.sequenced :: N.pending : List S.Cont).length := by simp
    rw [Interpreter.turn_instr, Interpreter.turn_instr, hdepth]
    exact .ask fun _ => .bind_left _ fun v => lockstep_goOn_before hlawful above v

include hlawful in
theorem lockstep_goOn_inside (strict : Bool) (above : List S.Cont) (v : S.Value) :
    (I.goOn N.inner above v).Lockstep own strict (N.LastInside I)
      (I.goOn N.yields (above ++ N.pending) v) := by
  cases above with
  | nil =>
    by_cases hty : v.ty = N.inner
    · have hcheck : v.check N.inner = .ok v := by simp [Value.check, hty]
      rw [Interpreter.goOn, hcheck]
      exact .last (.value v)
    · rw [List.nil_append, Interpreter.goOn_of_ne hlawful.fits hty, Interpreter.goOn,
        Value.check_of_ne hty]
      exact .fail _
  | cons next above =>
    refine .bind_left _ fun made => .bind_left _ fun tree => .last ?_
    exact .again tree above

include hlawful in
/-- While the program is run, so are the steps of a machine of its own and of the machine that
has gone on with it, but for the flags of returns and the depths that are logged. -/
theorem lockstep_turn_inside (htells : Comp.Tells own times fun b => I.observer (.finished b))
    (tree : S.Program) (above : List S.Cont) :
    (I.turn N.inner (tree.under above)).Lockstep own N.pending.isEmpty (N.LastInside I)
      (I.turn N.yields (tree.under (above ++ N.pending))) := by
  cases tree with
  | andThen first next => exact .last (.again first (next :: above))
  | ret v =>
    rw [Interpreter.turn_ret, Interpreter.turn_ret]
    cases above with
    | nil => exact .tells htells (lockstep_goOn_inside hlawful _ [] v)
    | cons next above =>
      exact .bind_left _ fun _ => lockstep_goOn_inside hlawful _ (next :: above) v
  | instr op =>
    rw [Interpreter.turn_instr, Interpreter.turn_instr]
    cases hpending : N.pending.isEmpty with
    | false =>
      exact .log rfl (.bind_left _ fun v => lockstep_goOn_inside hlawful _ above v)
    | true =>
      -- With nothing waiting below, both machines are equally deep.
      have hnil : N.pending = [] := by simpa using hpending
      have hgoOn (v : S.Value) : (I.goOn N.inner above v).Lockstep own true (N.LastInside I)
          (I.goOn N.yields above v) := by
        simpa [hnil] using lockstep_goOn_inside hlawful true above v
      rw [hnil, List.append_nil]
      exact .ask fun _ => .bind_left _ hgoOn

end Steps

end Nesting

end FiberPrograms
