import FiberPrograms.Proofs.Typing

/-!
# Who is to blame for a value of the wrong type

Operations answer with values that are not checked until a continuation takes them. If user code is
as its types say, a continuation is given a value of another type only right after an operation
has answered with one, so a run that fails on the type of a value fails because of its last
operation, and no code of the continuation that waited has run. This is said of the record of a
run, which tells every call of the handler and of user code, with its answer.

## Main definitions

* `Program.Index`: the types of operations and user code
* `Program.Occurrence`: a call of the handler or of user code, with its answer
* `Program.Semantics.logged`: the same semantics, keeping a record of its calls
* `Program.Semantics.Typed`: user code is as its types say

## Main results

* `Program.Semantics.Typed.step_cases`: a step of a typed machine keeps it typed, or fails because
  an operation has answered with a value of the wrong type
* `Program.Semantics.Typed.run_cases`: so does a run
-/

namespace FiberPrograms

variable {B : Type} [Universe B] {Op F σ : Type}

namespace Program

/-- The types of operations and user code: the type by which each operation is indexed, and the
types at which user code is written. -/
structure Index (B : Type) [Universe B] (Op F : Type) where
  op : Op → Ty B
  build : F → Ty B → Ty B → Prop
  compute : F → Ty B → Ty B → Prop

/-- The rules for programs of which nothing but the types matters. -/
def Index.rules (ι : Index B Op F) : Rules B Op F where
  ground _ _ := True
  fiber _ _ := True
  op op τ := ι.op op = τ
  build := ι.build
  compute := ι.compute

theorem Index.obeys (ι : Index B Op F) {τ : Ty B} (a : τ.El) : τ.Obeys ι.rules a := by
  induction τ with
  | ground b => trivial
  | pair left right ihleft ihright => exact ⟨ihleft a.1, ihright a.2⟩
  | list item ih | gathered item ih => exact fun b _ => ih b
  | fiber item => trivial

/-- A call of the handler or of user code, with its answer. -/
inductive Occurrence (B : Type) [Universe B] (Op F : Type) where
  | handled (op : Op) (answer : Except Fault (Value B))
  | reported (outermost : Bool) (answer : Except Fault Unit)
  | built (code : F) (v : Value B) (answer : Except Fault (Program B Op F))
  | computed (code : F) (v : Value B) (answer : Except Fault (Value B))

namespace Occurrence

/-- The fault of an outcome. -/
private def faultOf {α : Type} : Except Fault α → Option Fault
  | .ok _ => none
  | .error fault => some fault

/-- The fault with which a call failed. -/
def fault? : Occurrence B Op F → Option Fault
  | handled _ answer => faultOf answer
  | reported _ answer => faultOf answer
  | built _ _ answer => faultOf answer
  | computed _ _ answer => faultOf answer

/-- An operation has answered with a value of another type than the one by which it is indexed. -/
inductive Mismatched (ι : Index B Op F) : Occurrence B Op F → Prop
  | handled {op : Op} {v : Value B} (hne : v.ty ≠ ι.op op) : Mismatched ι (.handled op (.ok v))

end Occurrence

/-- Put a call on the record once it has answered. -/
def noting {α : Type} (call : α → Occurrence B Op F) (x : StateM σ α) :
    StateM (σ × List (Occurrence B Op F)) α :=
  fun (s, log) =>
    let (a, s') := runFrom s x
    (a, s', log ++ [call a])

namespace Semantics

/-- The same semantics, keeping a record of all calls, the latest last. -/
def logged (sem : Semantics (StateM σ) B Op F) :
    Semantics (StateM (σ × List (Occurrence B Op F))) B Op F where
  handle op := noting (.handled op) (sem.handle op)
  onReturn outermost := noting (.reported outermost) (sem.onReturn outermost)
  build code v := noting (.built code v) (sem.build code v)
  compute code v := noting (.computed code v) (sem.compute code v)

/-- User code is as its types say: at the type at which it is written it makes programs that are
built of typed parts, or values of the type that it yields, if it does not fail. -/
structure Typed (sem : Semantics (StateM σ) B Op F) (ι : Index B Op F) : Prop where
  build : ∀ {code α β}, ι.build code α β → ∀ {a : α.El} {s s' : σ} {made},
    runFrom s (sem.build code (.of α a)) = (.ok made, s') → Built ι.rules made β
  compute : ∀ {code α β}, ι.compute code α β → ∀ {a : α.El} {s s' : σ} {v : Value B},
    runFrom s (sem.compute code (.of α a)) = (.ok v, s') → v.ty = β

/-! ## One step -/

/-- What is put on record between two states, from any record on. -/
def Logs {α : Type} (x : StateM σ α) (y : StateM (σ × List (Occurrence B Op F)) α) (s : σ)
    (since : List (Occurrence B Op F)) : Prop :=
  ∀ log, runFrom (s, log) y = ((runFrom s x).1, (runFrom s x).2, log ++ since)

theorem Logs.pure {α : Type} (a : α) (s : σ) :
    Logs (Pure.pure a) (Pure.pure a : StateM (σ × List (Occurrence B Op F)) α) s [] :=
  fun log => by rw [List.append_nil]; rfl

theorem Logs.bind {α β : Type} {x : StateM σ α} {y : StateM (σ × List (Occurrence B Op F)) α}
    {f : α → StateM σ β} {g : α → StateM (σ × List (Occurrence B Op F)) β} {s s₁ : σ} {a : α}
    {since more : List (Occurrence B Op F)} (hx : Logs x y s since)
    (hrun : runFrom s x = (a, s₁)) (hf : Logs (f a) (g a) s₁ more) :
    Logs (x >>= f) (y >>= g) s (since ++ more) := by
  intro log
  rw [runFrom_bind, runFrom_bind, hx log, hrun, ← List.append_assoc]
  exact hf (log ++ since)

/-- A call is put on record, and then whatever follows it. -/
theorem Logs.call {α β : Type} {call : α → Occurrence B Op F} {x : StateM σ α}
    {f : α → StateM σ β} {g : α → StateM (σ × List (Occurrence B Op F)) β} {s s₁ : σ} {a : α}
    {since : List (Occurrence B Op F)} (hrun : runFrom s x = (a, s₁))
    (hf : Logs (f a) (g a) s₁ since) :
    Logs (x >>= f) (noting call x >>= g) s (call a :: since) := by
  have hnoted : Logs x (noting call x) s [call (runFrom s x).1] := fun _ => rfl
  rw [hrun] at hnoted
  exact hnoted.bind hrun hf

/-- Nothing of a wrong type has turned up: if there is a fault, the last call has raised it. -/
structure Blameless (ι : Index B Op F) (fault? : Option Fault) (since : List (Occurrence B Op F)) :
    Prop where
  matched : ∀ call ∈ since, ¬ call.Mismatched ι
  raised : ∀ fault, fault? = some fault →
    ∃ earlier last, since = earlier ++ [last] ∧ last.fault? = some fault

/-- The fault with which a step has failed. -/
def stepFault {V : Type} : Except Fault (Progress V) → Option Fault
  | .ok _ => none
  | .error fault => some fault

variable {sem : Semantics (StateM σ) B Op F} {ι : Index B Op F} {yields τ : Ty B}

theorem Blameless.nil : Blameless ι none ([] : List (Occurrence B Op F)) where
  matched := by simp
  raised := by simp

/-- One call, of something that is no operation or has answered with the right type. -/
theorem Blameless.single {call : Occurrence B Op F} (hcall : ¬ call.Mismatched ι) :
    Blameless ι call.fault? [call] where
  matched other hother := by
    obtain rfl := List.mem_singleton.mp hother
    exact hcall
  raised fault hfault := ⟨[], call, rfl, hfault⟩

theorem Blameless.append {fault? : Option Fault} {since more : List (Occurrence B Op F)}
    (h : Blameless ι none since) (h' : Blameless ι fault? more) :
    Blameless ι fault? (since ++ more) where
  matched call hcall := by
    obtain hcall | hcall := List.mem_append.mp hcall
    · exact h.matched call hcall
    · exact h'.matched call hcall
  raised fault hfault := by
    obtain ⟨earlier, last, rfl, hlast⟩ := h'.raised fault hfault
    exact ⟨since ++ earlier, last, by simp, hlast⟩

/-- What a step comes to if no value of a wrong type turns up: the machine stays typed. -/
def StepsOn (ι : Index B Op F) (yields : Ty B)
    (stepped : Except Fault (Progress (Value B)) × Machine (Value B) Op (Cont B Op F))
    (since : List (Occurrence B Op F)) : Prop :=
  Blameless ι (stepFault stepped.1) since ∧
    (stepped.1 = .ok .more → stepped.2.Typed ι.rules yields)

/-- A value of the right type is taken by the innermost waiting continuation, or ends the run. -/
theorem Typed.deliver_cases (hsem : sem.Typed ι) {tree : Program B Op F}
    {pending : List (Cont B Op F)} (hpending : Cont.Chain ι.rules yields pending τ) (a : τ.El)
    (s : σ) : ∃ since,
      Logs ((tree.under pending).deliver (sem.handler yields) (.of τ a))
        ((tree.under pending).deliver (sem.logged.handler yields) (.of τ a)) s since ∧
      StepsOn ι yields
        (runFrom s ((tree.under pending).deliver (sem.handler yields) (.of τ a))).1 since := by
  cases hpending with
  | nil =>
    -- Nothing waits for the value, which is checked and ends the run.
    refine ⟨[], ?_, ?_⟩
    · rw [Machine.deliver_nil, Machine.deliver_nil]
      exact .pure _ s
    · rw [Machine.deliver_nil, runFrom_pure]
      have haccept : (sem.handler yields).accept (.of yields a) = .ok (.of yields a) :=
        Value.check_self a
      rw [haccept]
      exact ⟨.nil, fun h => by cases h⟩
  | @cons next rest _ β hnext hrest =>
    rw [Machine.deliver_cons, Machine.deliver_cons]
    obtain ⟨code, hcode, hresume⟩ | ⟨code, hcode, hresume⟩ | ⟨made, hmade, hresume⟩ :=
      hnext.resume_cases (ι.obeys a)
    · -- User code makes a program, which takes the place of the continuation.
      have hplain : (sem.handler yields).resume next (.of τ a) = sem.build code (.of τ a) :=
        hresume _ _
      have hlogged : (sem.logged.handler yields).resume next (.of τ a) =
          noting (.built code (.of τ a)) (sem.build code (.of τ a)) := hresume _ _
      rw [hplain, hlogged, runFrom_bind]
      cases hrun : runFrom s (sem.build code (.of τ a)) with
      | mk answer s₁ =>
        have hcall : ¬ (Occurrence.built code (.of τ a) answer).Mismatched ι := by rintro ⟨⟩
        refine ⟨[.built code (.of τ a) answer], .call hrun ?_, ?_⟩
        · cases answer <;> exact .pure _ s₁
        · cases answer with
          | error fault => exact ⟨.single hcall, fun h => by cases h⟩
          | ok made => exact ⟨.single hcall, fun _ => .under (hsem.build hcode hrun).yields hrest⟩
    · -- User code yields a value, which is all there is to the program that is made.
      have hplain : (sem.handler yields).resume next (.of τ a) =
          (do return (← sem.compute code (.of τ a)).map .ret) := hresume _ _
      have hlogged : (sem.logged.handler yields).resume next (.of τ a) =
          (do
            let answer ← noting (.computed code (.of τ a)) (sem.compute code (.of τ a))
            return answer.map .ret) := hresume _ _
      rw [hplain, hlogged]
      simp only [bind_assoc, pure_bind, runFrom_bind]
      cases hrun : runFrom s (sem.compute code (.of τ a)) with
      | mk answer s₁ =>
        have hcall : ¬ (Occurrence.computed code (.of τ a) answer).Mismatched ι := by rintro ⟨⟩
        refine ⟨[.computed code (.of τ a) answer], .call hrun ?_, ?_⟩
        · cases answer <;> exact .pure _ s₁
        · cases answer with
          | error fault => exact ⟨.single hcall, fun h => by cases h⟩
          | ok v =>
            obtain rfl := hsem.compute hcode hrun
            exact ⟨.single hcall, fun _ => .under (.ret (ι.obeys v.get)) hrest⟩
    · -- The program is made without running any code.
      have hplain : (sem.handler yields).resume next (.of τ a) = Pure.pure (.ok made) :=
        hresume _ _
      have hlogged : (sem.logged.handler yields).resume next (.of τ a) = Pure.pure (.ok made) :=
        hresume _ _
      rw [hplain, hlogged]
      simp only [pure_bind]
      refine ⟨[], .pure _ s, .nil, fun _ => .under hmade hrest⟩

/-- A value of another type than the one that waiting continuations take is taken by none of them,
and nothing is called. -/
theorem deliver_of_ne (sem : Semantics (StateM σ) B Op F) (tree : Program B Op F)
    {pending : List (Cont B Op F)}
    (hpending : Cont.Chain ι.rules yields pending τ) {v : Value B} (hne : v.ty ≠ τ) :
    ∃ M₁, (∀ s, runFrom s ((tree.under pending).deliver (sem.handler yields) v) =
        ((.error (.wrongType τ.name), M₁), s)) ∧
      ∀ s, Logs ((tree.under pending).deliver (sem.handler yields) v)
        ((tree.under pending).deliver (sem.logged.handler yields) v) s [] := by
  cases hpending with
  | nil =>
    have haccept : (sem.handler yields).accept v = .error (.wrongType yields.name) :=
      Value.check_of_ne hne
    refine ⟨.idle [], fun s => ?_, fun s => .pure _ s⟩
    rw [Machine.deliver_nil, haccept]
    rfl
  | @cons next rest _ β hnext hrest =>
    obtain rfl := hnext.arg_eq
    have hplain : (sem.handler yields).resume next v = Pure.pure (.error _) :=
      Cont.resume_of_ne hne
    have hlogged : (sem.logged.handler yields).resume next v = Pure.pure (.error _) :=
      Cont.resume_of_ne hne
    refine ⟨.idle rest, fun s => ?_, fun s => ?_⟩
    · rw [Machine.deliver_cons, hplain]
      rfl
    · rw [Machine.deliver_cons, Machine.deliver_cons, hplain, hlogged]
      exact .pure _ s

/-- A step in which an operation has answered with a value of another type than the one by which
it is indexed: it fails right after that. -/
def StepFails (sem : Semantics (StateM σ) B Op F) (ι : Index B Op F)
    (M : Machine (Value B) Op (Cont B Op F)) (s : σ)
    (progress : Except Fault (Progress (Value B))) (s' : σ) (since : List (Occurrence B Op F)) :
    Prop :=
  ∃ op v, M.current = some (.instr op) ∧ runFrom s (sem.handle op) = (.ok v, s') ∧
    v.ty ≠ ι.op op ∧ since = [.handled op (.ok v)] ∧
    progress = .error (.wrongType (ι.op op).name)

/-- A step of a typed machine keeps it typed, unless an operation has answered with a value of
another type than the one by which it is indexed. -/
theorem Typed.step_cases (hsem : sem.Typed ι) {M : Machine (Value B) Op (Cont B Op F)}
    (hM : M.Typed ι.rules yields) (s : σ) : ∃ since,
      Logs (M.step (sem.handler yields)) (M.step (sem.logged.handler yields)) s since ∧
      (StepsOn ι yields (runFrom s (M.step (sem.handler yields))).1 since ∨
        StepFails sem ι M s (runFrom s (M.step (sem.handler yields))).1.1
          (runFrom s (M.step (sem.handler yields))).2 since) := by
  obtain @⟨_, pending, υ, htree, hpending⟩ := hM
  -- Only an operation can answer with a value of another type: what is put under the waiting
  -- continuations is typed by the rules.
  cases htree with
  | @ret v hv =>
    rw [Machine.step_ret, Machine.step_ret, runFrom_bind]
    change ∃ since, Logs (sem.onReturn pending.isEmpty >>= _)
      (noting (.reported pending.isEmpty) (sem.onReturn pending.isEmpty) >>= _) s since ∧ _
    cases hrun : runFrom s ((sem.handler yields).onReturn pending.isEmpty) with
    | mk answer s₁ =>
      have hcall : ¬ (Occurrence.reported pending.isEmpty answer).Mismatched ι := by rintro ⟨⟩
      cases answer with
      | error fault =>
        exact ⟨[_], .call hrun (.pure _ s₁), .inl ⟨.single hcall, fun h => by cases h⟩⟩
      | ok _ =>
        -- The report has gone well, so the value is handed on.
        obtain ⟨since, hlogs, hblameless, hmore⟩ := hsem.deliver_cases hpending v.get s₁
        have hfirst : Blameless ι none [_] := .single hcall
        exact ⟨_ :: since, .call hrun hlogs, .inl ⟨hfirst.append hblameless, hmore⟩⟩
  | @instr op _ hop =>
    obtain rfl : ι.op op = υ := hop
    rw [Machine.step_instr, Machine.step_instr, runFrom_bind]
    change ∃ since, Logs (sem.handle op >>= _)
      (noting (.handled op) (sem.handle op) >>= _) s since ∧ _
    cases hrun : runFrom s ((sem.handler yields).handle pending.length op) with
    | mk answer s₁ =>
      cases answer with
      | error fault =>
        have hcall : ¬ (Occurrence.handled op (.error fault)).Mismatched ι := by rintro ⟨⟩
        exact ⟨[_], .call hrun (.pure _ s₁), .inl ⟨.single hcall, fun h => by cases h⟩⟩
      | ok v =>
        by_cases hty : v.ty = ι.op op
        · -- The value is of the right type, so a waiting continuation takes it.
          have hcall : ¬ (Occurrence.handled op (.ok v)).Mismatched ι := by
            rintro ⟨hne⟩
            exact hne hty
          rw [← hty] at hpending
          obtain ⟨since, hlogs, hblameless, hmore⟩ := hsem.deliver_cases hpending v.get s₁
          have hfirst : Blameless ι none [_] := .single hcall
          exact ⟨_ :: since, .call hrun hlogs, .inl ⟨hfirst.append hblameless, hmore⟩⟩
        · -- No continuation takes a value of another type, and the step fails without a call.
          obtain ⟨M₁, hdeliver, hlogs⟩ := sem.deliver_of_ne (.instr op) hpending hty
          refine ⟨[.handled op (.ok v)], .call hrun (hlogs s₁), .inr ⟨op, v, rfl, ?_, hty, rfl, ?_⟩⟩
          · exact hrun.trans (congrArg _ (congrArg Prod.snd (hdeliver s₁)).symm)
          · exact congrArg (fun stepped => stepped.1.1) (hdeliver s₁)
  | andThen hfirst hnext =>
    rw [Machine.step_andThen, Machine.step_andThen]
    exact ⟨[], .pure _ s, .inl ⟨.nil, fun _ => .under hfirst (.cons hnext hpending)⟩⟩

/-! ## Whole runs -/

/-- A run in which an operation has answered with a value of another type than the one by which it
is indexed: it fails right after that, and a shorter run stands before that operation. -/
structure RunFails (sem : Semantics (StateM σ) B Op F) (ι : Index B Op F) (yields : Ty B)
    (M : Machine (Value B) Op (Cont B Op F)) (fuel : Nat) (s : σ)
    (answer : Option (Except Fault (Value B))) (s' : σ) (since : List (Occurrence B Op F)) : Prop
    where
  exists_last : ∃ op v earlier, since = earlier ++ [.handled op (.ok v)] ∧ v.ty ≠ ι.op op ∧
    (∀ call ∈ earlier, ¬ call.Mismatched ι) ∧
    answer = some (.error (.wrongType (ι.op op).name)) ∧
    ∃ fuel₁ M₁ s₁, fuel₁ < fuel ∧
      runFrom s (M.run (sem.handler yields) fuel₁) = ((none, M₁), s₁) ∧
      Logs (M.run (sem.handler yields) fuel₁) (M.run (sem.logged.handler yields) fuel₁) s earlier ∧
      M₁.current = some (.instr op) ∧ runFrom s₁ (sem.handle op) = (.ok v, s')

/-- The fault with which a run has failed. -/
def runFault {V : Type} : Option (Except Fault V) → Option Fault
  | some (.error fault) => some fault
  | _ => none

/-- A run of a typed machine raises no fault of its own, unless an operation has answered with a
value of another type than the one by which it is indexed. -/
theorem Typed.run_cases (hsem : sem.Typed ι) {M : Machine (Value B) Op (Cont B Op F)}
    (hM : M.Typed ι.rules yields) (fuel : Nat) (s : σ) : ∃ since,
      Logs (M.run (sem.handler yields) fuel) (M.run (sem.logged.handler yields) fuel) s since ∧
      (Blameless ι (runFault (runFrom s (M.run (sem.handler yields) fuel)).1.1) since ∨
        RunFails sem ι yields M fuel s (runFrom s (M.run (sem.handler yields) fuel)).1.1
          (runFrom s (M.run (sem.handler yields) fuel)).2 since) := by
  -- By induction on the fuel: as long as no operation is to blame, a step leaves a typed machine,
  -- from which the shorter run goes on.
  induction fuel generalizing M s with
  | zero => exact ⟨[], .pure _ s, .inl .nil⟩
  | succ fuel ih =>
    obtain ⟨since, hlogs, hstep⟩ := hsem.step_cases hM s
    rw [Machine.run, Machine.run, runFrom_bind]
    cases hrun : runFrom s (M.step (sem.handler yields)) with
    | mk stepped s₁ =>
      obtain ⟨progress, M₁⟩ := stepped
      rw [hrun] at hstep
      dsimp only at hstep ⊢
      cases progress with
      | error fault =>
        refine ⟨since ++ [], hlogs.bind hrun (.pure _ s₁), ?_⟩
        rw [List.append_nil]
        obtain ⟨hblameless, -⟩ | ⟨op, v, hcurrent, hhandled, hne, rfl, hfault⟩ := hstep
        · exact .inl hblameless
        · -- The run fails with its first step, so nothing comes before the operation.
          obtain rfl := Except.error.inj hfault
          exact .inr ⟨op, v, [], rfl, hne, by simp, rfl, 0, M, s, Nat.succ_pos fuel, rfl, .pure _ s,
            hcurrent, hhandled⟩
      | ok progress =>
        obtain ⟨hblameless, hmore⟩ | ⟨op, v, -, -, -, -, hfault⟩ := hstep
        · cases progress with
          | done v =>
            refine ⟨since ++ [], hlogs.bind hrun (.pure _ s₁), .inl ?_⟩
            rw [List.append_nil]
            exact hblameless
          | more =>
            obtain ⟨more, hrest, hcases⟩ := ih (hmore rfl) s₁
            refine ⟨since ++ more, hlogs.bind hrun hrest, ?_⟩
            obtain hrest | ⟨op, v, earlier, rfl, hne, hmatched, hanswer, fuel₁, M₂, s₂, hfuel,
              hshort, hlogs₁, hcurrent, hhandled⟩ := hcases
            · exact .inl (hblameless.append hrest)
            · -- One step more comes before the operation.
              refine .inr ⟨op, v, since ++ earlier, (List.append_assoc ..).symm, hne, ?_, hanswer,
                fuel₁ + 1, M₂, s₂, Nat.succ_lt_succ hfuel, ?_, ?_, hcurrent, hhandled⟩
              · intro call hcall
                obtain hcall | hcall := List.mem_append.mp hcall
                · exact hblameless.matched call hcall
                · exact hmatched call hcall
              · rw [Machine.run, runFrom_bind, hrun]
                exact hshort
              · rw [Machine.run, Machine.run]
                exact hlogs.bind hrun hlogs₁
        · cases hfault

/-- The record of a run accounts for values of a wrong type. The run fails on the type of a value,
and not because a call has failed, just if some operation has answered with a value of another type
than the one by which it is indexed. If so, that is the last call of all, be it of the handler or of
user code; everything before it went as in the shorter run that stands before that operation, and
the run ends in the state in which the operation has left it. -/
structure Accounted (sem : Semantics (StateM σ) B Op F) (ι : Index B Op F) (yields : Ty B)
    (M : Machine (Value B) Op (Cont B Op F)) (fuel : Nat) (s : σ)
    (answer : Option (Except Fault (Value B))) (s' : σ) (log : List (Occurrence B Op F)) :
    Prop where
  fails_iff : (∃ name, answer = some (.error (.wrongType name)) ∧
      ∀ last, log.getLast? = some last → last.fault? = none) ↔
    ∃ op v, .handled op (.ok v) ∈ log ∧ v.ty ≠ ι.op op
  is_last : ∀ op v, .handled op (.ok v) ∈ log → v.ty ≠ ι.op op →
    answer = some (.error (.wrongType (ι.op op).name)) ∧
    ∃ earlier fuel₁ M₁ s₁, log = earlier ++ [.handled op (.ok v)] ∧ fuel₁ < fuel ∧
      runFrom (s, []) (M.run (sem.logged.handler yields) fuel₁) = ((none, M₁), s₁, earlier) ∧
      M₁.current = some (.instr op) ∧ runFrom s₁ (sem.handle op) = (.ok v, s')

/-- The record of a run of a program that is built of typed parts accounts for values of a wrong
type. -/
theorem Typed.accounted (hsem : sem.Typed ι) {program : Program B Op F}
    (hprogram : Built ι.rules program yields) {fuel : Nat} {s s' : σ}
    {answer : Option (Except Fault (Value B))} {M' : Machine (Value B) Op (Cont B Op F)}
    (hrun : runFrom s ((Machine.start program).run (sem.handler yields) fuel) =
      ((answer, M'), s')) :
    ∃ log, runFrom (s, []) ((Machine.start program).run (sem.logged.handler yields) fuel) =
        ((answer, M'), s', log) ∧
      Accounted sem ι yields (.start program) fuel s answer s' log := by
  obtain ⟨log, hlogs, hcases⟩ := hsem.run_cases (.start hprogram.yields) fuel s
  rw [hrun] at hcases
  refine ⟨log, ?_, ?_⟩
  · rw [hlogs [], hrun]
    rfl
  obtain hblameless | ⟨op, v, earlier, rfl, hne, hmatched, hanswer, fuel₁, M₁, s₁, hfuel, hshort,
    hlogs₁, hcurrent, hhandled⟩ := hcases
  · -- No operation is to blame, so if the run has failed, its last call has.
    have hmatched (op : Op) (v : Value B) (hmem : .handled op (.ok v) ∈ log) : v.ty = ι.op op :=
      Decidable.byContradiction fun hne => hblameless.matched _ hmem ⟨hne⟩
    refine ⟨⟨?_, ?_⟩, fun op v hmem hne => absurd (hmatched op v hmem) hne⟩
    · rintro ⟨name, rfl, hcalls⟩
      obtain ⟨earlier, last, rfl, hlast⟩ := hblameless.raised _ rfl
      rw [hcalls last List.getLast?_concat] at hlast
      cases hlast
    · rintro ⟨op, v, hmem, hne⟩
      exact absurd (hmatched op v hmem) hne
  · -- An operation is to blame, and it is the last call; none before it has been mismatched.
    refine ⟨⟨fun _ => ⟨op, v, by simp, hne⟩, fun _ => ⟨_, hanswer, ?_⟩⟩, ?_⟩
    · intro last hlast
      rw [List.getLast?_concat] at hlast
      obtain rfl := Option.some.inj hlast
      rfl
    · intro op' v' hmem hne'
      obtain hmem | hmem := List.mem_append.mp hmem
      · exact absurd ⟨hne'⟩ (hmatched _ hmem)
      · cases List.mem_singleton.mp hmem
        refine ⟨hanswer, earlier, fuel₁, M₁, s₁, rfl, hfuel, ?_, hcurrent, hhandled⟩
        rw [hlogs₁ [], hshort]
        rfl

end Semantics

end Program

end FiberPrograms
