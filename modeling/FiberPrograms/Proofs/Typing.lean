import FiberPrograms.Proofs.Semantics

/-!
# Typed programs

The nodes of a program tree and the continuations that wait on a machine carry no types, only
values do. The combinators are typed all the same: each yields a type if the programs and the user
code that it is given are as their types say. What operations yield, what user code takes and
yields, and which ground values and fibers may occur is said by a set of rules; the types of trees,
of continuations and of machines follow from that.

## Main definitions

* `Program.Rules`: the types of operations and user code, and the values that may occur
* `Program.Built`: programs put together from typed parts with the combinators
* `Tree.Yields`, `Cont.Leads`: the type that a tree yields, and the types between which a
  continuation leads
* `Machine.Typed`: a machine whose tree and waiting continuations fit together

## Main results

* `Program.Built.yields`: the combinators are typed
* `Cont.Leads.resume_cases`: given a value of its type, a continuation goes on with user code or
  makes a typed program
-/

namespace FiberPrograms

variable {B : Type} [Universe B] {Op F : Type}

namespace Program

/-- Rules by which programs are typed. -/
structure Rules (B : Type) [Universe B] (Op F : Type) where
  /-- The ground values that may occur. -/
  ground : (b : B) → Universe.El b → Prop
  /-- The fibers that may occur, each at the type that it yields. -/
  fiber : FiberId → Ty B → Prop
  /-- The types by which an operation is indexed. -/
  op : Op → Ty B → Prop
  /-- User code that takes the first type and makes a program that yields the second. -/
  build : F → Ty B → Ty B → Prop
  /-- User code that takes the first type and yields the second. -/
  compute : F → Ty B → Ty B → Prop

/-- Whatever is allowed by the first rules is allowed by the second. -/
structure Rules.Within (T T' : Rules B Op F) : Prop where
  ground : ∀ {b : B} {a : Universe.El b}, T.ground b a → T'.ground b a
  fiber : ∀ {fiber τ}, T.fiber fiber τ → T'.fiber fiber τ
  op : ∀ {op τ}, T.op op τ → T'.op op τ
  build : ∀ {code α β}, T.build code α β → T'.build code α β
  compute : ∀ {code α β}, T.compute code α β → T'.compute code α β

end Program

open Program (Rules)

/-- All that occurs in an element of a type may do so. -/
def Ty.Obeys (T : Rules B Op F) : (τ : Ty B) → τ.El → Prop
  | ground b => T.ground b
  | pair left right => fun a => left.Obeys T a.1 ∧ right.Obeys T a.2
  | list item | gathered item => fun as : List item.El => ∀ a ∈ as, item.Obeys T a
  | fiber item => fun fiber : FiberId => T.fiber fiber item

/-- All that occurs in a value may do so. -/
def Value.Obeys (T : Rules B Op F) (v : Value B) : Prop :=
  v.ty.Obeys T v.get

mutual

/-- A tree yields values of a type. -/
inductive Tree.Yields (T : Rules B Op F) : Program B Op F → Ty B → Prop
  | ret {v : Value B} (hv : v.Obeys T) : Tree.Yields T (.ret v) v.ty
  | instr {op : Op} {τ : Ty B} (hop : T.op op τ) : Tree.Yields T (.instr op) τ
  | andThen {first : Program B Op F} {next : Cont B Op F} {α β : Ty B}
      (hfirst : Tree.Yields T first α) (hnext : Cont.Leads T next α β) :
      Tree.Yields T (.andThen first next) β

/-- A continuation leads from values of one type to programs that yield another. -/
inductive Cont.Leads (T : Rules B Op F) : Cont B Op F → Ty B → Ty B → Prop
  | bind {code : F} {α β : Ty B} (hcode : T.build code α β) : Cont.Leads T (.bind α code) α β
  | map {code : F} {α β : Ty B} (hcode : T.compute code α β) : Cont.Leads T (.map α code) α β
  | next {α β : Ty B} {program : Program B Op F} (hprogram : Tree.Yields T program β) :
      Cont.Leads T (.next α program) α β
  | zip {left right : Ty B} {other : Program B Op F} (hother : Tree.Yields T other right) :
      Cont.Leads T (.zip left right other) left (.pair left right)
  | pairWith {left right : Ty B} {earlier : left.El} (hearlier : left.Obeys T earlier) :
      Cont.Leads T (.pairWith left right earlier) right (.pair left right)
  | gather {item : Ty B} {program : Program B Op F} (hprogram : Tree.Yields T program item) :
      Cont.Leads T (.gather item program) (.gathered item) (.gathered item)
  | push {item : Ty B} {gathered : List item.El} (hgathered : ∀ a ∈ gathered, item.Obeys T a) :
      Cont.Leads T (.push item gathered) item (.gathered item)
  | collect {item : Ty B} : Cont.Leads T (.collect item) (.gathered item) (.list item)

end

/-- Waiting continuations lead from a type, at which the innermost takes its value, to the type
that the whole run yields. -/
inductive Cont.Chain (T : Rules B Op F) (yields : Ty B) : List (Cont B Op F) → Ty B → Prop
  | nil : Chain T yields [] yields
  | cons {next : Cont B Op F} {rest : List (Cont B Op F)} {α β : Ty B}
      (hnext : next.Leads T α β) (hrest : Chain T yields rest β) : Chain T yields (next :: rest) α

/-- A machine that has something to evaluate, whose value the waiting continuations take. -/
inductive Machine.Typed (T : Rules B Op F) (yields : Ty B) :
    Machine (Value B) Op (Cont B Op F) → Prop
  | under {tree : Program B Op F} {pending : List (Cont B Op F)} {τ : Ty B}
      (htree : tree.Yields T τ) (hpending : Cont.Chain T yields pending τ) :
      Typed T yields (tree.under pending)

namespace Program

/-- Programs put together from typed parts with the combinators. -/
inductive Built (T : Rules B Op F) : Program B Op F → Ty B → Prop
  | ofValue (τ : Ty B) (a : τ.El) (ha : τ.Obeys T a) : Built T (ofValue τ a) τ
  | ofInstr {op : Op} {τ : Ty B} (hop : T.op op τ) : Built T (ofInstr op) τ
  | bind {program : Program B Op F} {code : F} {α β : Ty B} (hprogram : Built T program α)
      (hcode : T.build code α β) : Built T (program.bind α code) β
  | map {program : Program B Op F} {code : F} {α β : Ty B} (hprogram : Built T program α)
      (hcode : T.compute code α β) : Built T (program.map α code) β
  | next {program after : Program B Op F} {α β : Ty B} (hprogram : Built T program α)
      (hafter : Built T after β) : Built T (program.next α after) β
  | zip {first second : Program B Op F} {left right : Ty B} (hfirst : Built T first left)
      (hsecond : Built T second right) : Built T (zip left right first second) (.pair left right)
  | sequence {item : Ty B} {programs : List (Program B Op F)}
      (hprograms : ∀ program ∈ programs, Built T program item) :
      Built T (sequence item programs) (.list item)

end Program

variable {T T' : Rules B Op F} {α β τ υ : Ty B}

theorem Tree.Yields.ofValue {a : τ.El} (ha : τ.Obeys T a) :
    (Program.ofValue τ a : Program B Op F).Yields T τ :=
  .ret (v := .of τ a) ha

/-- A program run from its root. -/
theorem Machine.Typed.start {program : Program B Op F} (hprogram : program.Yields T τ) :
    (Machine.start program).Typed T τ :=
  .under hprogram .nil

/-! ## The combinators -/

/-- The programs of a sequence are gathered one after the other. -/
private theorem Program.yields_gather {item : Ty B} {programs : List (Program B Op F)}
    (hprograms : ∀ program ∈ programs, program.Yields T item) {before : Program B Op F}
    (hbefore : before.Yields T (.gathered item)) :
    (programs.foldl (fun gathered program => Tree.andThen gathered (.gather item program))
      before).Yields T (.gathered item) := by
  induction programs generalizing before with
  | nil => exact hbefore
  | cons program rest ih =>
    have hprogram := hprograms program List.mem_cons_self
    refine ih (fun program hrest => ?_) (.andThen hbefore (.gather hprogram))
    exact hprograms program (List.mem_cons_of_mem _ hrest)

/-- The combinators are typed. -/
theorem Program.Built.yields {program : Program B Op F} (h : Built T program τ) :
    program.Yields T τ := by
  induction h with
  | ofValue τ a ha => exact .ofValue ha
  | ofInstr hop => exact .instr hop
  | bind _ hcode ih => exact .andThen ih (.bind hcode)
  | map _ hcode ih => exact .andThen ih (.map hcode)
  | next _ _ ih ihafter => exact .andThen ih (.next ihafter)
  | zip _ _ ih ihsecond => exact .andThen ih (.zip ihsecond)
  | @sequence item programs _ ih =>
    have hnone : (Ty.gathered item).Obeys T ([] : List item.El) := fun a ha => by cases ha
    exact .andThen (Program.yields_gather ih (.ofValue hnone)) .collect

/-! ## More generous rules -/

section Mono

theorem Ty.Obeys.mono (hT : T.Within T') {a : τ.El} (ha : τ.Obeys T a) : τ.Obeys T' a := by
  induction τ with
  | ground b => exact hT.ground ha
  | pair left right ihleft ihright => exact ⟨ihleft ha.1, ihright ha.2⟩
  | list item ih | gathered item ih => exact fun b hb => ih (ha b hb)
  | fiber item => exact hT.fiber ha

mutual

/-- What is typed by some rules is typed by all that allow more. -/
theorem Tree.Yields.mono (hT : T.Within T') {tree : Program B Op F} {τ : Ty B} :
    tree.Yields T τ → tree.Yields T' τ
  | .ret hv => .ret (Ty.Obeys.mono hT hv)
  | .instr hop => .instr (hT.op hop)
  | .andThen hfirst hnext => .andThen (hfirst.mono hT) (hnext.mono hT)

theorem Cont.Leads.mono (hT : T.Within T') {next : Cont B Op F} {α β : Ty B} :
    next.Leads T α β → next.Leads T' α β
  | .bind hcode => .bind (hT.build hcode)
  | .map hcode => .map (hT.compute hcode)
  | .next hprogram => .next (hprogram.mono hT)
  | .zip hother => .zip (hother.mono hT)
  | .pairWith hearlier => .pairWith (hearlier.mono hT)
  | .gather hprogram => .gather (hprogram.mono hT)
  | .push hgathered => .push fun a ha => (hgathered a ha).mono hT
  | .collect => .collect

end

theorem Cont.Chain.mono (hT : T.Within T') {pending : List (Cont B Op F)}
    (h : Chain T υ pending τ) : Chain T' υ pending τ := by
  induction h with
  | nil => exact .nil
  | cons hnext _ ih => exact .cons (hnext.mono hT) ih

theorem Machine.Typed.mono (hT : T.Within T') {M : Machine (Value B) Op (Cont B Op F)}
    (h : M.Typed T τ) : M.Typed T' τ := by
  obtain ⟨htree, hpending⟩ := h
  exact .under (htree.mono hT) (hpending.mono hT)

end Mono

/-! ## What continuations make of values -/

/-- A continuation takes its value at the type from which it leads. -/
theorem Cont.Leads.arg_eq {next : Cont B Op F} (h : next.Leads T α β) : next.arg = α := by
  cases h <;> rfl

/-- Given a value of its type, a continuation goes on with user code that is written for it, or
makes a program without running any. -/
theorem Cont.Leads.resume_cases {next : Cont B Op F} (h : next.Leads T α β) {a : α.El}
    (ha : α.Obeys T a) :
    (∃ code, T.build code α β ∧ ∀ {m : Type → Type} [Monad m]
      (build : F → Value B → m (Except Fault (Program B Op F)))
      (compute : F → Value B → m (Except Fault (Value B))),
      next.resume build compute (.of α a) = build code (.of α a)) ∨
    (∃ code, T.compute code α β ∧ ∀ {m : Type → Type} [Monad m]
      (build : F → Value B → m (Except Fault (Program B Op F)))
      (compute : F → Value B → m (Except Fault (Value B))),
      next.resume build compute (.of α a) =
        (do return (← compute code (.of α a)).map .ret)) ∨
    ∃ made : Program B Op F, made.Yields T β ∧ ∀ {m : Type → Type} [Monad m]
      (build : F → Value B → m (Except Fault (Program B Op F)))
      (compute : F → Value B → m (Except Fault (Value B))),
      next.resume build compute (.of α a) = pure (.ok made) := by
  -- In every case the value is of the type that the continuation takes, so that its check succeeds.
  cases h with
  | bind hcode =>
    refine .inl ⟨_, hcode, fun build compute => ?_⟩
    rw [Cont.resume, Value.check_self]
  | map hcode =>
    refine .inr (.inl ⟨_, hcode, fun build compute => ?_⟩)
    rw [Cont.resume, Value.check_self]
  | next hprogram =>
    refine .inr (.inr ⟨_, hprogram, fun build compute => ?_⟩)
    rw [Cont.resume, Value.check_self]
    rfl
  | zip hother =>
    refine .inr (.inr ⟨_, .andThen hother (.pairWith ha), fun build compute => ?_⟩)
    rw [Cont.resume, Value.cast_self]
    rfl
  | @pairWith left _ earlier hearlier =>
    have hpair : (Ty.pair left α).Obeys T (earlier, a) := ⟨hearlier, ha⟩
    refine .inr (.inr ⟨_, .ofValue hpair, fun build compute => ?_⟩)
    rw [Cont.resume, Value.cast_self]
    rfl
  | gather hprogram =>
    refine .inr (.inr ⟨_, .andThen hprogram (.push ha), fun build compute => ?_⟩)
    rw [Cont.resume, Value.cast_self]
    rfl
  | @push _ gathered hgathered =>
    have hpushed : (Ty.gathered α).Obeys T (a :: gathered) := by
      intro b hb
      obtain rfl | hb := List.mem_cons.mp hb
      · exact ha
      · exact hgathered b hb
    refine .inr (.inr ⟨_, .ofValue hpushed, fun build compute => ?_⟩)
    rw [Cont.resume, Value.cast_self]
    rfl
  | @collect item =>
    have hlisted : (Ty.list item).Obeys T (List.reverse a) :=
      fun b hb => ha b (List.mem_reverse.mp hb)
    refine .inr (.inr ⟨_, .ofValue hlisted, fun build compute => ?_⟩)
    rw [Cont.resume, Value.cast_self]
    rfl

end FiberPrograms
