import FiberPrograms.Fault

/-!
# Values and their types

Programs hand values of many types through one channel, so a value travels together with a code
for its type, and whoever receives it checks the code before using the value. The ground types
are a parameter; pairs, lists, the results gathered by a sequence and fibers are built on them.

## Main definitions

* `Universe`: a supply of ground types, each with its elements and its name
* `Ty`: type codes over a universe
* `Value`: a value together with the code of its type
* `Value.cast`: use a value at a type, failing if it is of another

## Main results

* `Value.cast_self`, `Value.cast_eq_ok_iff`: a value can be used at its own type and no other
-/

namespace FiberPrograms

/-- A supply of ground types. -/
class Universe (B : Type) where
  /-- The elements of a ground type. -/
  El : B → Type
  /-- The name of a ground type in messages. -/
  name : B → String
  [decEq : DecidableEq B]

attribute [reducible, instance] Universe.decEq

/-- Codes for the types of values. -/
inductive Ty (B : Type) where
  | ground (b : B)
  | pair (left right : Ty B)
  | list (item : Ty B)
  /-- The results that a sequence has gathered so far. -/
  | gathered (item : Ty B)
  /-- Fibers whose action yields the given type. -/
  | fiber (item : Ty B)
deriving DecidableEq, Repr

namespace Ty

variable {B : Type} [Universe B]

/-- The elements of a type. Gathered results are kept newest first. -/
def El : Ty B → Type
  | ground b => Universe.El b
  | pair left right => left.El × right.El
  | list item => List item.El
  | gathered item => List item.El
  | fiber _ => FiberId

/-- The name of a type in messages. -/
def name : Ty B → String
  | ground b => Universe.name b
  | pair left right => "(" ++ left.name ++ ", " ++ right.name ++ ")"
  | list item => "alloc::vec::Vec<" ++ item.name ++ ">"
  | gathered item => "Collected<" ++ item.name ++ ">"
  | fiber item => "Fiber<" ++ item.name ++ ">"

end Ty

/-- A value together with the code of its type. -/
structure Value (B : Type) [Universe B] where
  {ty : Ty B}
  get : ty.El

namespace Value

variable {B : Type} [Universe B]

/-- The value of a type that has the given content. -/
def of (τ : Ty B) (a : τ.El) : Value B :=
  ⟨a⟩

/-- Use a value at the type `τ`; fails if the value is of another type. -/
def cast (τ : Ty B) (v : Value B) : Except Fault τ.El :=
  if h : v.ty = τ then .ok (h ▸ v.get) else .error (.wrongType τ.name)

/-- Pass a value on unchanged, after checking that it is of the type `τ`. -/
def check (τ : Ty B) (v : Value B) : Except Fault (Value B) :=
  if v.ty = τ then .ok v else .error (.wrongType τ.name)

@[simp] theorem cast_self {τ : Ty B} (a : τ.El) : (of τ a).cast τ = .ok a := by
  simp [cast, of]

@[simp] theorem check_self {τ : Ty B} (a : τ.El) : (of τ a).check τ = .ok (of τ a) := by
  simp [check, of]

theorem check_of_ne {τ : Ty B} {v : Value B} (h : v.ty ≠ τ) :
    v.check τ = .error (.wrongType τ.name) := by
  simp [check, h]

theorem cast_of_ne {τ : Ty B} {v : Value B} (h : v.ty ≠ τ) :
    v.cast τ = .error (.wrongType τ.name) := by
  simp [cast, h]

theorem cast_eq_ok_iff {τ : Ty B} {v : Value B} {a : τ.El} : v.cast τ = .ok a ↔ v = of τ a := by
  constructor
  · intro h
    by_cases hτ : v.ty = τ
    · subst hτ
      have hv : v.cast v.ty = .ok v.get := cast_self v.get
      rw [hv] at h
      rw [← Except.ok.inj h, of]
    · rw [cast_of_ne hτ] at h
      exact absurd h (by simp)
  · intro h
    rw [h, cast_self]

end Value

end FiberPrograms
