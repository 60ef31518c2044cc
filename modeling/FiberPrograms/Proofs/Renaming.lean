import FiberPrograms.Pool

/-!
# Other names for fibers

A fiber is known by its name and by nothing else, so it should make no difference how fibers are
called. Here is what it means to call them otherwise: names are exchanged in values and programs, in
faults, in what is reported, and in all that stands for user code. How they are exchanged in ground
values, in the names of user code and in effects has to be told. Texts are put together last of all
and are told how fibers are called, so with other names they read as if fibers had been called
otherwise.

## Main definitions

* `Naming`: how names are exchanged in what user code consists of
* `Value.rename`, `Tree.rename`, `Fault.rename`, `Event.rename`, `Record.rename`: the exchange

## Main results

* `Value.cast_rename`: a renamed value is used at the types at which the value is
* `Fault.text?_rename`, `Record.fields_rename`: how a fault and a record read with other names
-/

namespace FiberPrograms

/-- How names are exchanged in what user code consists of. -/
structure Naming (S : Signature) where
  ground : (FiberId → FiberId) → (b : S.Base) → Universe.El b → Universe.El b
  code : (FiberId → FiberId) → S.Code → S.Code
  action : (FiberId → FiberId) → S.Action → S.Action
  effect : (FiberId → FiberId) → S.Effect → S.Effect
  reply : (ρ : FiberId → FiberId) → (e : S.Effect) → S.Reply e → S.Reply (effect ρ e)

variable {S : Signature} {W : Type} (N : Naming S) (ρ : FiberId → FiberId)

/-! ## Faults and reports -/

/-- A fault, with names exchanged. -/
def Fault.rename : Fault → Fault
  | fiberFailed fiber cause => fiberFailed (ρ fiber) cause.rename
  | fiberDropped fiber => fiberDropped (ρ fiber)
  | fault => fault

/-- A fault with other names reads as if fibers were called otherwise. -/
theorem Fault.text?_rename (name : FiberId → String) (fault : Fault) :
    (fault.rename ρ).text? name = fault.text? (name ∘ ρ) := by
  induction fault with
  | fiberFailed fiber cause ih => rw [rename, text?, ih]; rfl
  | _ => rfl

theorem Fault.message_rename (name : FiberId → String) (fault : Fault) :
    (fault.rename ρ).message name = fault.message (name ∘ ρ) := by
  rw [message, text?_rename, message]

/-- An outcome, with names exchanged in its fault, and in its value as `f` says. -/
def renameOutcome {α β : Type} (f : α → β) : Except Fault α → Except Fault β
  | .ok a => .ok (f a)
  | .error fault => .error (fault.rename ρ)

/-- An event, with names exchanged. -/
def Event.rename : Event → Event
  | fork fiber place => fork (ρ fiber) place
  | await fiber => await (ρ fiber)
  | finished outermost => finished outermost

mutual

/-- What is shown for diagnosis, with names exchanged. -/
def Shape.rename : Shape → Shape
  | word text => word text
  | fiber label id => fiber label (ρ id)
  | tuple name field => tuple name field.rename
  | record name fields => record name fields.rename

/-- Fields that are shown for diagnosis, with names exchanged. -/
def Shape.Fields.rename : Shape.Fields → Shape.Fields
  | .closed => .closed
  | .open => .open
  | .field name value rest => .field name value.rename rest.rename

end

mutual

theorem Shape.inline_rename (name : FiberId → String) :
    (shape : Shape) → (shape.rename ρ).inline name = shape.inline (name ∘ ρ)
  | word text => rfl
  | fiber label id => rfl
  | tuple head field => by
    rw [rename, inline, inline_rename name field, inline]
  | record head fields => by
    cases fields with
    | closed => rfl
    | «open» => rfl
    | field key value rest =>
      rw [rename, Fields.rename, inline, inline_rename name value,
        Fields.inline_rename name rest, inline]

theorem Shape.Fields.inline_rename (name : FiberId → String) :
    (fields : Shape.Fields) → (fields.rename ρ).inline name = fields.inline (name ∘ ρ)
  | .closed => rfl
  | .open => rfl
  | .field key value rest => by
    rw [Shape.Fields.rename, Shape.Fields.inline, Shape.inline_rename name value,
      Shape.Fields.inline_rename name rest, Shape.Fields.inline]

end

/-- A log record, with names exchanged. -/
def Record.rename : Record → Record
  | instruction op depth => instruction (op.rename ρ) depth
  | fork fiber place => fork (ρ fiber) place
  | await fiber => await (ρ fiber)
  | ended => ended
  | returned => returned
  | starting fiber => starting (ρ fiber)
  | failed fiber cause => failed (ρ fiber) (cause.rename ρ)
  | dropped fiber => dropped (ρ fiber)

/-- A record with other names reads as if fibers were called otherwise. -/
theorem Record.fields_rename (name : FiberId → String) (record : Record) :
    (record.rename ρ).fields name = record.fields (name ∘ ρ) := by
  cases record with
  | instruction op depth => rw [rename, fields, Shape.inline_rename, fields]
  | failed fiber cause => rw [rename, fields, Fault.message_rename, fields]; rfl
  | _ => rfl

@[simp] theorem Record.level_rename (record : Record) : (record.rename ρ).level = record.level := by
  cases record <;> rfl

@[simp] theorem Record.rename_ofEvent (event : Event) :
    (Record.ofEvent event).rename ρ = .ofEvent (event.rename ρ) := by
  cases event with
  | finished outermost => cases outermost <;> rfl
  | _ => rfl

/-! ## Values and programs -/

/-- An element of a type, with names exchanged. -/
def Ty.rename : (τ : Ty S.Base) → τ.El → τ.El
  | ground b => N.ground ρ b
  | pair left right => fun a => (left.rename a.1, right.rename a.2)
  | list item | gathered item => fun as : List item.El => as.map item.rename
  | fiber _ => ρ

/-- A value, with names exchanged. -/
def Value.rename (v : S.Value) : S.Value :=
  .of v.ty (v.ty.rename N ρ v.get)

@[simp] theorem Value.ty_rename (v : S.Value) : (v.rename N ρ).ty = v.ty := rfl

/-- An operation, with names exchanged. -/
def ForkJoin.rename : ForkJoin S.Base S.Action → ForkJoin S.Base S.Action
  | forkAt place yields action => forkAt place yields (N.action ρ action)
  | await fiber => await (ρ fiber)

theorem ForkJoin.shape_rename (op : ForkJoin S.Base S.Action) :
    (op.rename N ρ).shape = op.shape.rename ρ := by
  cases op with
  | forkAt place yields action => cases place <;> rfl
  | await fiber => rfl

mutual

/-- A program, with names exchanged. -/
def Tree.rename : S.Program → S.Program
  | .ret v => .ret (v.rename N ρ)
  | .instr op => .instr (op.rename N ρ)
  | .andThen first next => .andThen (Tree.rename first) (Cont.rename next)

/-- A continuation, with names exchanged. -/
def Cont.rename : Cont S.Base (ForkJoin S.Base S.Action) S.Code →
    Cont S.Base (ForkJoin S.Base S.Action) S.Code
  | .bind arg code => .bind arg (N.code ρ code)
  | .map arg code => .map arg (N.code ρ code)
  | .next arg program => .next arg (Tree.rename program)
  | .zip left right other => .zip left right (Tree.rename other)
  | .pairWith left right earlier => .pairWith left right (left.rename N ρ earlier)
  | .gather item program => .gather item (Tree.rename program)
  | .push item gathered => .push item (gathered.map (item.rename N ρ))
  | .collect item => .collect item

end

/-- A machine, with names exchanged. -/
def Machine.rename (M : S.Machine) : S.Machine where
  current := M.current.map (Tree.rename N ρ)
  pending := M.pending.map (Cont.rename N ρ)
  depth := M.depth
  depth_eq := by simp [M.depth_eq]

/-- The outcome of a run or of a fiber, with names exchanged. -/
abbrev Naming.outcome : Except Fault S.Value → Except Fault S.Value :=
  renameOutcome ρ (Value.rename N ρ)

/-- What a step comes to, with names exchanged. -/
def Turn.rename : Turn S → Turn S
  | value v => value (v.rename N ρ)
  | again yields machine => again yields (machine.rename N ρ)

/-- How a fiber ended, with names exchanged. -/
def Ending.rename : Ending S → Ending S
  | value v => value (v.rename N ρ)
  | failed cause => failed (cause.rename ρ)
  | dropped => dropped

/-- The stage of a fiber, with names exchanged. -/
def Fiber.rename : Fiber S → Fiber S
  | named => named
  | recomputing action => recomputing (N.action ρ action)
  | waiting action => waiting (N.action ρ action)
  | running => running
  | ended ending => ended (ending.rename N ρ)

@[simp] theorem Fiber.isReady_rename (stage : Fiber S) :
    (stage.rename N ρ).isReady = stage.isReady := by
  cases stage <;> rfl

/-- What a reader gets to see of an ending, if fibers are called otherwise. -/
theorem Ending.read_rename (fiber : FiberId) (ending : Ending S) :
    (ending.rename N ρ).read (ρ fiber) = N.outcome ρ (ending.read fiber) := by
  cases ending <;> rfl

theorem Ending.ofOutcome_rename (outcome : Except Fault S.Value) :
    ofOutcome (N.outcome ρ outcome) = (ofOutcome outcome).rename N ρ := by
  cases outcome <;> rfl

variable {N ρ} {τ : Ty S.Base}

/-- A renamed value is used at the types at which the value is. -/
theorem Value.cast_rename (v : S.Value) :
    (v.rename N ρ).cast τ = renameOutcome ρ (τ.rename N ρ) (v.cast τ) := by
  by_cases hτ : v.ty = τ
  · subst hτ
    rw [show v.cast v.ty = .ok v.get from Value.cast_self v.get]
    exact Value.cast_self _
  · rw [Value.cast_of_ne hτ, Value.cast_of_ne (v := v.rename N ρ) hτ]
    rfl

theorem Value.check_rename (v : S.Value) :
    (v.rename N ρ).check τ = N.outcome ρ (v.check τ) := by
  by_cases hτ : v.ty = τ
  · subst hτ
    rw [show v.check v.ty = .ok v from Value.check_self v.get]
    exact Value.check_self _
  · rw [Value.check_of_ne hτ, Value.check_of_ne (v := v.rename N ρ) hτ]
    rfl

end FiberPrograms
