import FiberPrograms.Proofs.StackDepths

/-!
# Sequences run in order

A sequence is a program inside a program, as many levels deep as it has programs. Its run is none
the less the runs of its programs, one after the other, each from the state in which the one before
has left it, and what they yield is listed in the same order. Each of them is told of its returned
values that they are not outermost, since the sequence is not over with them; before the first and
after each one the sequence itself reports what it has gathered so far, and the list at the end.

A run is described from whatever state it begins in. The state that an earlier interpretation of
the same sequence has left, completed or not, is one of those.

## Main definitions

* `Handler.inner`: a handler for a program that stands inside of another one
* `Program.Stint`: the share of one program in the run of a sequence
* `Program.RunsInOrder`: programs run one after the other, all of them to a value
* `Program.BreaksOff`: programs run one after the other until one of them fails
* `Program.Semantics.SameButLast`: how a run by itself and one inside of another program differ

## Main results

* `Program.ends_gathering_iff`: what is gathered from a list of programs, whatever waits for it
* `Program.ends_sequence_iff`: sequences run in order, under any continuations that wait
* `Program.Semantics.sequence_in_order`: for whoever runs it, a sequence runs its programs in order
-/

namespace FiberPrograms

/-! ## Programs inside of others -/

namespace Handler

variable {V Op K σ τ : Type}

/-- The handler for a program inside of another one: none of its returned values is outermost. -/
def inner {m : Type → Type} (h : Handler m V Op K) : Handler m V Op K :=
  { h with onReturn := fun _ => h.onReturn false }

/-- A run with nothing waiting is the evaluation of its program, and its value is checked. -/
theorem ends_start_iff {h : Handler (StateM σ) V Op K} {tree : Tree V Op K} {s s' : σ} {n : Nat}
    {outcome : Except Fault V} :
    h.Ends (Machine.start tree) s n outcome s' ↔
      ∃ first, h.Evaluates true 0 tree s n first s' ∧ outcome = first.bind h.accept := by
  rw [← Tree.under_nil, ends_under_iff]
  constructor
  · rintro ⟨a, b, first, s₁, rfl, value, hc⟩
    cases first with
    | error fault =>
      obtain ⟨rfl, rfl, rfl⟩ := hc
      exact ⟨_, value, rfl⟩
    | ok v =>
      obtain ⟨rfl, rfl, rfl⟩ := hc
      exact ⟨_, value, rfl⟩
  · rintro ⟨first, value, rfl⟩
    refine ⟨n, 0, first, s', rfl, value, ?_⟩
    cases first with
    | error fault => exact ⟨rfl, rfl, rfl⟩
    | ok v => exact ⟨rfl, rfl, rfl⟩

/-- From related states the two handlers answer alike, and leave related states, where the one is
told a flag and the other a related one. -/
structure Echoes (h : Handler (StateM σ) V Op K) (g : Handler (StateM τ) V Op K)
    (flags : Bool → Bool → Prop) (rel : σ → τ → Prop) : Prop where
  inside : flags false false
  handle : ∀ {s t}, rel s t → ∀ depth depth' op {answer s'},
    runFrom s (h.handle depth op) = (answer, s') →
    ∃ t', runFrom t (g.handle depth' op) = (answer, t') ∧ rel s' t'
  onReturn : ∀ {s t}, rel s t → ∀ {outermost outermost'}, flags outermost outermost' →
    ∀ {answer s'}, runFrom s (h.onReturn outermost) = (answer, s') →
    ∃ t', runFrom t (g.onReturn outermost') = (answer, t') ∧ rel s' t'
  resume : ∀ {s t}, rel s t → ∀ next v {answer s'},
    runFrom s (h.resume next v) = (answer, s') →
    ∃ t', runFrom t (g.resume next v) = (answer, t') ∧ rel s' t'

/-- Evaluations agree, at whatever depths they are made. The programs that come first in a node are
never outermost, so these are where the flags of both sides have to be related. -/
theorem Echoes.evaluates {h : Handler (StateM σ) V Op K} {g : Handler (StateM τ) V Op K}
    {flags : Bool → Bool → Prop} {rel : σ → τ → Prop} (hg : h.Echoes g flags rel)
    {outermost : Bool} {depth n : Nat} {tree : Tree V Op K} {outcome : Except Fault V}
    {s s' : σ} {t : τ} (he : h.Evaluates outermost depth tree s n outcome s') (hrel : rel s t)
    (outermost' : Bool) (hflags : flags outermost outermost') (depth' : Nat) :
    ∃ t', g.Evaluates outermost' depth' tree t n outcome t' ∧ rel s' t' := by
  induction he generalizing t depth' outermost' with
  | retFault told =>
    obtain ⟨t', told', hrel'⟩ := hg.onReturn hrel hflags told
    exact ⟨t', .retFault told', hrel'⟩
  | ret told =>
    obtain ⟨t', told', hrel'⟩ := hg.onReturn hrel hflags told
    exact ⟨t', .ret told', hrel'⟩
  | instr performed =>
    obtain ⟨t', performed', hrel'⟩ := hg.handle hrel _ depth' _ performed
    exact ⟨t', .instr performed', hrel'⟩
  | firstFault failed ih =>
    obtain ⟨t', failed', hrel'⟩ := ih hrel false hg.inside (depth' + 1)
    exact ⟨t', .firstFault failed', hrel'⟩
  | resumeFault value resumed ih =>
    obtain ⟨t₁, value', hrel₁⟩ := ih hrel false hg.inside (depth' + 1)
    obtain ⟨t', resumed', hrel'⟩ := hg.resume hrel₁ _ _ resumed
    exact ⟨t', .resumeFault value' resumed', hrel'⟩
  | andThen value resumed rest ih₁ ih₂ =>
    obtain ⟨t₁, value', hrel₁⟩ := ih₁ hrel false hg.inside (depth' + 1)
    obtain ⟨t₂, resumed', hrel₂⟩ := hg.resume hrel₁ _ _ resumed
    obtain ⟨t', rest', hrel'⟩ := ih₂ hrel₂ outermost' hflags depth'
    exact ⟨t', .andThen value' resumed' rest', hrel'⟩

/-- What comes of reporting a value: the value itself, unless the report fails. -/
def reported (h : Handler (StateM σ) V Op K) (outermost : Bool) (v : V) (s : σ) :
    Except Fault V × σ :=
  ((runFrom s (h.onReturn outermost)).1.map fun _ => v, (runFrom s (h.onReturn outermost)).2)

theorem evaluates_ret (h : Handler (StateM σ) V Op K) (outermost : Bool) (depth : Nat) (v : V)
    (s : σ) :
    h.Evaluates outermost depth (.ret v) s 1 (h.reported outermost v s).1
      (h.reported outermost v s).2 := by
  unfold reported
  rcases told : runFrom s (h.onReturn outermost) with ⟨fault | _, s'⟩
  · exact .retFault told
  · exact .ret told

/-- Whether an evaluation is outermost makes no difference before its last report: either there is
none, since the evaluation fails or performs an operation at the end, or all goes the same way up
to there. -/
theorem Evaluates.up_to_report {h : Handler (StateM σ) V Op K} {outermost : Bool}
    {depth n : Nat} {tree : Tree V Op K} {outcome : Except Fault V} {s s' : σ}
    (he : h.Evaluates outermost depth tree s n outcome s') :
    (∀ outermost', h.Evaluates outermost' depth tree s n outcome s') ∨
    ∃ v s₁, h.reported outermost v s₁ = (outcome, s') ∧ ∀ outermost',
      h.Evaluates outermost' depth tree s n (h.reported outermost' v s₁).1
        (h.reported outermost' v s₁).2 := by
  induction he with
  | retFault told =>
    refine .inr ⟨_, _, ?_, fun outermost' => evaluates_ret ..⟩
    rw [reported, told]
    rfl
  | ret told =>
    refine .inr ⟨_, _, ?_, fun outermost' => evaluates_ret ..⟩
    rw [reported, told]
    rfl
  | instr performed => exact .inl fun outermost' => .instr performed
  | firstFault failed => exact .inl fun outermost' => .firstFault failed
  | resumeFault value resumed => exact .inl fun outermost' => .resumeFault value resumed
  | andThen value resumed rest ih₁ ih₂ =>
    -- The program made of the value stands in the node's own place, and has its last report.
    obtain hsame | ⟨v, s₁, hreport, hlast⟩ := ih₂
    · exact .inl fun outermost' => .andThen value resumed (hsame outermost')
    · exact .inr ⟨v, s₁, hreport, fun outermost' => .andThen value resumed (hlast outermost')⟩

end Handler

/-- A nest of continuations is entered with one step for each of them. -/
theorem Tree.ends_nested_iff {V Op K σ : Type} {h : Handler (StateM σ) V Op K} {conts pending : List K}
    {tree : Tree V Op K} {s s' : σ} {n : Nat} {outcome : Except Fault V} :
    h.Ends ((tree.nested conts).under pending) s n outcome s' ↔
      ∃ b, n = conts.length + b ∧ h.Ends (tree.under (conts ++ pending)) s b outcome s' := by
  induction conts using List.reverseRecOn generalizing pending n with
  | nil => simp [nested]
  | append_singleton conts next ih =>
    simp only [nested_concat, Handler.ends_andThen_iff, ih, List.append_assoc, List.length_append,
      List.length_singleton, List.singleton_append]
    constructor
    · rintro ⟨_, rfl, b, rfl, hends⟩
      exact ⟨b, by omega, hends⟩
    · rintro ⟨b, rfl, hends⟩
      exact ⟨conts.length + b, by omega, b, rfl, hends⟩

/-- A value is one of the given type, or has another one. -/
theorem Value.of_or_ne {B : Type} [Universe B] (τ : Ty B) (v : Value B) :
    (∃ a, v = .of τ a) ∨ v.ty ≠ τ := by
  by_cases hty : v.ty = τ
  · subst hty
    exact .inl ⟨v.get, rfl⟩
  · exact .inr hty

namespace Program

variable {B : Type} [Universe B] {Op F σ : Type} {sem : Semantics (StateM σ) B Op F}
  {yields item : Ty B} {p : Program B Op F} {programs : List (Program B Op F)}
  {pending : List (Cont B Op F)} {s s' : σ} {calls calls' : List (Call (Value B) Op (Cont B Op F))}
  {n : Nat} {final : Except Fault (Value B)}

/-! ## One program of a sequence -/

namespace Semantics

/-- Every state is told apart from every other one. -/
theorem alike_eq {α : Type} (x : StateM σ α) : Alike Eq x := by
  rintro s _ rfl
  exact ⟨rfl, rfl⟩

/-- What is told that it is not outermost goes the same way inside of another program. What has
been put on record before makes no difference. -/
theorem echoes_inner (sem : Semantics (StateM σ) B Op F) (yields item : Ty B)
    (before before' : List (Call (Value B) Op (Cont B Op F))) :
    (sem.observed yields).Echoes (sem.observed item).inner (fun outermost _ => outermost = false)
      (SameSince Eq before before') where
  inside := rfl
  handle hst _ _ op _ _ performed := (alike_eq (sem.handle op)).noting hst performed
  onReturn hst _ _ hflags _ _ told := by
    subst hflags
    exact (alike_eq (sem.onReturn false)).noting hst told
  resume hst next v _ _ resumed :=
    (alike_eq (next.resume sem.build sem.compute v)).noting hst resumed

theorem inner_echoes (sem : Semantics (StateM σ) B Op F) (item yields : Ty B)
    (before before' : List (Call (Value B) Op (Cont B Op F))) :
    (sem.observed item).inner.Echoes (sem.observed yields) (fun _ outermost' => outermost' = false)
      (SameSince Eq before before') where
  inside := rfl
  handle hst _ _ op _ _ performed := (alike_eq (sem.handle op)).noting hst performed
  onReturn hst _ _ hflags _ _ told := by
    subst hflags
    exact (alike_eq (sem.onReturn false)).noting hst told
  resume hst next v _ _ resumed :=
    (alike_eq (next.resume sem.build sem.compute v)).noting hst resumed

end Semantics

/-- A program by itself, told that it stands inside of another one, goes as it does in the midst of
a run, and its value is checked. -/
theorem ends_inner_iff (yields : Ty B) (depth : Nat)
    (calls : List (Call (Value B) Op (Cont B Op F))) {outcome : Except Fault (Value B)}
    {own : List (Call (Value B) Op (Cont B Op F))} :
    (sem.observed item).inner.Ends (.start p) (s, []) n outcome (s', own) ↔
      ∃ first, (sem.observed yields).Evaluates false depth p (s, calls) n first (s', calls ++ own) ∧
        outcome = first.bind (Value.check item) := by
  rw [Handler.ends_start_iff]
  constructor
  · rintro ⟨first, value, rfl⟩
    obtain ⟨⟨_, _⟩, value', rfl, since, rfl, rfl⟩ :=
      (sem.inner_echoes item yields [] calls).evaluates value (.start rfl _ _) false rfl depth
    exact ⟨first, value', rfl⟩
  · rintro ⟨first, value, rfl⟩
    obtain ⟨⟨_, _⟩, value', rfl, since, hown, rfl⟩ :=
      (sem.echoes_inner yields item calls []).evaluates value (.start rfl _ _) true rfl 0
    obtain rfl := List.append_cancel_left hown
    exact ⟨first, value', rfl⟩

/-- The record of an evaluation only grows. -/
theorem exists_calls_of_evaluates {depth : Nat} {first : Except Fault (Value B)}
    (value : (sem.observed yields).Evaluates false depth p (s, calls) n first (s', calls')) :
    ∃ own, calls' = calls ++ own := by
  obtain ⟨-, -, -, since, hcalls, -⟩ :=
    (sem.echoes_inner yields yields calls []).evaluates value (.start rfl _ _) true rfl 0
  exact ⟨since, hcalls⟩

/-- A report of a returned value is put on record. -/
theorem runFrom_onReturn_observed (outermost : Bool) :
    runFrom (s, calls) ((sem.observed yields).onReturn outermost) =
      ((runFrom s (sem.onReturn outermost)).1, (runFrom s (sem.onReturn outermost)).2,
        calls ++ [.onReturn outermost]) :=
  rfl

/-- A value that is yielded at once is reported, and the run goes on with it. -/
theorem ends_ofValue_iff {τ : Ty B} {a : τ.El}
    {t' : σ × List (Call (Value B) Op (Cont B Op F))} :
    (sem.observed yields).Ends ((ofValue τ a).under pending) (s, calls) n final t' ↔
      (∃ fault s₁, runFrom s (sem.onReturn pending.isEmpty) = (.error fault, s₁) ∧
        n = 1 ∧ final = .error fault ∧ t' = (s₁, calls ++ [.onReturn pending.isEmpty])) ∨
      ∃ s₁ b, runFrom s (sem.onReturn pending.isEmpty) = (.ok (), s₁) ∧ n = b + 1 ∧
        (sem.observed yields).Continues pending (.of τ a)
          (s₁, calls ++ [.onReturn pending.isEmpty]) b final t' := by
  have step := congrArg (runFrom (s, calls))
    (Machine.step_ret (sem.observed yields) (Value.of τ a) pending)
  rw [runFrom_bind, runFrom_onReturn_observed] at step
  rcases told : runFrom s (sem.onReturn pending.isEmpty) with ⟨fault | _, s₁⟩
  · rw [told] at step
    rw [ofValue, Handler.ends_of_step_error step]
    simp [and_assoc]
  · rw [told] at step
    rw [ofValue, Handler.ends_of_step_deliver step]
    simp

/-- What a continuation makes without any effect is made in the same state. -/
theorem runFrom_resume_observed {next : Cont B Op F} {v : Value B}
    {answer : Except Fault (Program B Op F)}
    {t : σ × List (Call (Value B) Op (Cont B Op F))}
    (made : next.resume sem.build sem.compute v = pure answer) :
    runFrom t ((sem.observed yields).resume next v) = (answer, t) :=
  congrArg (fun x => runFrom t (Handler.noting Call.isHandler (.resume next v) x)) made

/-- If there is a value of the right type, it is listed, and if not the run ends with the fault of
the program, or with that of its type. -/
theorem completes_push_iff {gathered : List item.El} {first : Except Fault (Value B)} {b : Nat}
    {t t' : σ × List (Call (Value B) Op (Cont B Op F))} :
    (sem.observed yields).Completes (.push item gathered :: pending) first t b final t' ↔
      (∃ fault, first.bind (Value.check item) = .error fault ∧ b = 0 ∧ final = .error fault ∧
        t' = t) ∨
      ∃ a, first.bind (Value.check item) = .ok (.of item a) ∧
        (sem.observed yields).Ends ((ofValue (.gathered item) (a :: gathered)).under pending) t b
          final t' := by
  -- A fault reaches no continuation; of the values, only one of the right type is listed.
  cases first with
  | error fault =>
    constructor
    · rintro ⟨rfl, rfl, rfl⟩
      exact .inl ⟨fault, rfl, rfl, rfl, rfl⟩
    · rintro (⟨_, ⟨⟩, rfl, rfl, rfl⟩ | ⟨_, ⟨⟩, -⟩)
      exact ⟨rfl, rfl, rfl⟩
  | ok v =>
    obtain ⟨a, rfl⟩ | hty := Value.of_or_ne item v
    · have hresumed : runFrom t ((sem.observed yields).resume (.push item gathered) (.of item a)) =
          (.ok (ofValue (.gathered item) (a :: gathered)), t) := by
        refine runFrom_resume_observed ?_
        rw [Cont.resume, Value.cast_self]
        rfl
      have hchecked : (Except.ok (Value.of item a)).bind (Value.check item) = .ok (.of item a) :=
        Value.check_self a
      rw [hchecked]
      refine (Handler.continues_cons_ok hresumed).trans ⟨fun hends => .inr ⟨a, rfl, hends⟩, ?_⟩
      rintro (⟨_, ⟨⟩, -⟩ | ⟨_, ⟨⟩, hends⟩)
      exact hends
    · -- A value of another type cannot be listed, neither here nor by the program by itself.
      have hfails : (Cont.push item gathered).resume sem.build sem.compute v =
          pure (.error (.wrongType item.name)) := Cont.resume_of_ne hty
      have hchecked : (Except.ok v).bind (Value.check item) = .error (.wrongType item.name) :=
        Value.check_of_ne hty
      rw [hchecked]
      refine (Handler.continues_cons_error (runFrom_resume_observed hfails)).trans ⟨?_, ?_⟩
      · rintro ⟨hb, hfinal, ht⟩
        exact .inl ⟨_, rfl, hb, hfinal, ht⟩
      · rintro (⟨_, ⟨⟩, rfl, rfl, rfl⟩ | ⟨_, ⟨⟩, -⟩)
        exact ⟨rfl, rfl, rfl⟩

/-- A program of a sequence runs by itself, and its value is put in front of what has been gathered
before; a fault ends the run. -/
theorem ends_push_iff {gathered : List item.El} :
    (sem.observed yields).Ends ((p.andThen (.push item gathered)).under pending) (s, calls) n final
        (s', calls') ↔
      (∃ m fault own, (sem.observed item).inner.Ends (.start p) (s, []) m (.error fault) (s', own) ∧
        n = m + 1 ∧ final = .error fault ∧ calls' = calls ++ own) ∨
      ∃ m a s₁ own b, (sem.observed item).inner.Ends (.start p) (s, []) m (.ok (.of item a))
          (s₁, own) ∧ n = m + b + 1 ∧
        (sem.observed yields).Ends ((ofValue (.gathered item) (a :: gathered)).under pending)
          (s₁, calls ++ own) b final (s', calls') := by
  rw [Handler.ends_andThen_under_iff]
  constructor
  · rintro ⟨m, b, first, ⟨s₁, calls₁⟩, rfl, value, hc⟩
    obtain ⟨own, rfl⟩ := exists_calls_of_evaluates value
    have hown : (sem.observed item).inner.Ends (.start p) (s, []) m
        (first.bind (Value.check item)) (s₁, own) :=
      (ends_inner_iff yields (pending.length + 1) calls).mpr ⟨first, value, rfl⟩
    obtain ⟨fault, hchecked, rfl, rfl, hs⟩ | ⟨a, hchecked, hends⟩ := completes_push_iff.mp hc
    · cases hs
      rw [hchecked] at hown
      exact .inl ⟨m, fault, own, hown, rfl, rfl, rfl⟩
    · rw [hchecked] at hown
      exact .inr ⟨m, a, s₁, own, b, hown, rfl, hends⟩
  · rintro (⟨m, fault, own, hown, rfl, rfl, rfl⟩ | ⟨m, a, s₁, own, b, hown, rfl, hends⟩)
    · obtain ⟨first, value, hchecked⟩ :=
        (ends_inner_iff yields (pending.length + 1) calls).mp hown
      exact ⟨m, 0, first, _, rfl, value,
        completes_push_iff.mpr (.inl ⟨fault, hchecked.symm, rfl, rfl, rfl⟩)⟩
    · obtain ⟨first, value, hchecked⟩ :=
        (ends_inner_iff yields (pending.length + 1) calls).mp hown
      exact ⟨m, b, first, _, rfl, value, completes_push_iff.mpr (.inr ⟨a, hchecked.symm, hends⟩)⟩

/-! ## One program after the other -/

/-- The share of one program in the run of a sequence: how many steps it takes by itself, and the
calls that it makes. -/
structure Stint (B : Type) [Universe B] (Op F : Type) where
  steps : Nat
  calls : List (Call (Value B) Op (Cont B Op F))

/-- What is on record after some programs of a sequence: before each of them, that something has
been gathered, and then what it has called for. -/
def Stint.history (stints : List (Stint B Op F)) : List (Call (Value B) Op (Cont B Op F)) :=
  stints.flatMap fun stint => .onReturn false :: stint.calls

/-- The programs run one after the other, each from the state in which the one before has left it,
and all of them yield a value. In between it is reported that something has been gathered. -/
inductive RunsInOrder (sem : Semantics (StateM σ) B Op F) (item : Ty B) :
    List (Program B Op F) → σ → List (Stint B Op F) → List item.El → σ → Prop
  | nil {s : σ} : RunsInOrder sem item [] s [] [] s
  | cons {p : Program B Op F} {programs : List (Program B Op F)} {s s₁ s₂ s' : σ} {n : Nat}
      {a : item.El} {calls : List (Call (Value B) Op (Cont B Op F))}
      {stints : List (Stint B Op F)} {values : List item.El}
      (told : runFrom s (sem.onReturn false) = (.ok (), s₁))
      (own : (sem.observed item).inner.Ends (.start p) (s₁, []) n (.ok (.of item a)) (s₂, calls))
      (later : RunsInOrder sem item programs s₂ stints values s') :
      RunsInOrder sem item (p :: programs) s (⟨n, calls⟩ :: stints) (a :: values) s'

/-- The programs run one after the other until one of them fails, or the report in front of it. The
ones behind it are not on record. -/
inductive BreaksOff (sem : Semantics (StateM σ) B Op F) (item : Ty B)
    (programs : List (Program B Op F)) (s : σ) :
    (n : Nat) → Fault → σ → List (Call (Value B) Op (Cont B Op F)) → Prop
  | program {earlier later : List (Program B Op F)} {p : Program B Op F}
      {stints : List (Stint B Op F)} {values : List item.El} {s₁ s₂ s' : σ} {n : Nat}
      {fault : Fault} {calls : List (Call (Value B) Op (Cont B Op F))}
      (split : programs = earlier ++ p :: later)
      (ran : RunsInOrder sem item earlier s stints values s₁)
      (told : runFrom s₁ (sem.onReturn false) = (.ok (), s₂))
      (failed : (sem.observed item).inner.Ends (.start p) (s₂, []) n (.error fault) (s', calls)) :
      BreaksOff sem item programs s (2 * earlier.length + 2 + (stints.map Stint.steps).sum + n) fault
        s' (Stint.history stints ++ .onReturn false :: calls)
  | report {earlier later : List (Program B Op F)} {stints : List (Stint B Op F)}
      {values : List item.El} {s₁ s' : σ} {fault : Fault} (split : programs = earlier ++ later)
      (ran : RunsInOrder sem item earlier s stints values s₁)
      (failed : runFrom s₁ (sem.onReturn false) = (.error fault, s')) :
      BreaksOff sem item programs s (2 * earlier.length + 1 + (stints.map Stint.steps).sum) fault s'
        (Stint.history stints ++ [.onReturn false])

section Order

variable {s₁ s₂ : σ} {a : item.El} {fault : Fault} {m : Nat}
  {own since : List (Call (Value B) Op (Cont B Op F))}

/-- After a program that yields a value, those behind it can still break off. -/
theorem BreaksOff.cons (told : runFrom s (sem.onReturn false) = (.ok (), s₁))
    (value : (sem.observed item).inner.Ends (.start p) (s₁, []) m (.ok (.of item a)) (s₂, own))
    (h : BreaksOff sem item programs s₂ n fault s' since) :
    BreaksOff sem item (p :: programs) s (m + n + 2) fault s' (.onReturn false :: own ++ since) := by
  cases h with
  | @program earlier later q stints values s₃ s₄ _ n _ calls split ran told' failed =>
    have hbreaks := BreaksOff.program (congrArg (p :: ·) split) (.cons told value ran) told' failed
    convert hbreaks using 1
    · simp only [List.length_cons, List.map_cons, List.sum_cons]
      omega
    · simp [Stint.history]
  | @report earlier later stints values s₃ _ _ split ran failed =>
    have hbreaks := BreaksOff.report (congrArg (p :: ·) split) (.cons told value ran) failed
    convert hbreaks using 1
    · simp only [List.length_cons, List.map_cons, List.sum_cons]
      omega
    · simp [Stint.history]

/-- A list of programs breaks off before the first of them, or in it, or behind it. -/
theorem breaksOff_cons_iff :
    BreaksOff sem item (p :: programs) s n fault s' since ↔
      (runFrom s (sem.onReturn false) = (.error fault, s') ∧ n = 1 ∧ since = [.onReturn false]) ∨
      ∃ s₁, runFrom s (sem.onReturn false) = (.ok (), s₁) ∧
        ((∃ m own, (sem.observed item).inner.Ends (.start p) (s₁, []) m (.error fault) (s', own) ∧
          n = m + 2 ∧ since = .onReturn false :: own) ∨
        ∃ m a s₂ own n' since', (sem.observed item).inner.Ends (.start p) (s₁, []) m
            (.ok (.of item a)) (s₂, own) ∧ n = m + n' + 2 ∧
          since = .onReturn false :: own ++ since' ∧
          BreaksOff sem item programs s₂ n' fault s' since') := by
  constructor
  · intro h
    -- What has run before the break is either nothing, or the first program and then some.
    cases h with
    | @program earlier later q stints values s₃ s₄ _ n _ calls split ran told failed =>
      cases ran with
      | nil =>
        obtain ⟨rfl, rfl⟩ := List.cons_eq_cons.mp split
        refine .inr ⟨_, told, .inl ⟨n, calls, failed, ?_, rfl⟩⟩
        simp [Nat.add_comm]
      | @cons _ earlier _ s₁ s₂ _ m a own stints values told' value later' =>
        obtain ⟨rfl, rfl⟩ := List.cons_eq_cons.mp split
        refine .inr ⟨s₁, told', .inr ⟨m, a, s₂, own, _, _, value, ?_, ?_,
          .program rfl later' told failed⟩⟩
        · simp only [List.length_cons, List.map_cons, List.sum_cons]
          omega
        · simp [Stint.history]
    | @report earlier later stints values s₃ _ _ split ran failed =>
      cases ran with
      | nil => exact .inl ⟨failed, by simp, by simp [Stint.history]⟩
      | @cons _ earlier _ s₁ s₂ _ m a own stints values told' value later' =>
        obtain ⟨rfl, rfl⟩ := List.cons_eq_cons.mp split
        refine .inr ⟨s₁, told', .inr ⟨m, a, s₂, own, _, _, value, ?_, ?_,
          .report rfl later' failed⟩⟩
        · simp only [List.length_cons, List.map_cons, List.sum_cons]
          omega
        · simp [Stint.history]
  · rintro (⟨failed, rfl, rfl⟩ | ⟨s₁, told, ⟨m, own, failed, rfl, rfl⟩ |
      ⟨m, a, s₂, own, n', since', value, rfl, rfl, hbreaks⟩⟩)
    · exact .report (List.nil_append _).symm .nil failed
    · have hbreaks := BreaksOff.program (List.nil_append (p :: programs)).symm .nil told failed
      convert hbreaks using 1
      · simp [Nat.add_comm]
      · simp [Stint.history]
    · exact hbreaks.cons told value

theorem breaksOff_nil_iff :
    BreaksOff sem item [] s n fault s' since ↔
      runFrom s (sem.onReturn false) = (.error fault, s') ∧ n = 1 ∧ since = [.onReturn false] := by
  constructor
  · intro h
    cases h with
    | program split => simp at split
    | report split ran failed =>
      obtain ⟨rfl, rfl⟩ := List.nil_eq_append_iff.mp split
      cases ran
      exact ⟨failed, by simp, by simp [Stint.history]⟩
  · rintro ⟨failed, rfl, rfl⟩
    exact .report (List.nil_append _).symm .nil failed

end Order

/-! ## Sequences -/

/-- What has been gathered so far is reported, and handed on to the next program. -/
theorem ends_gather_iff {gathered : List item.El}
    {t' : σ × List (Call (Value B) Op (Cont B Op F))} :
    (sem.observed yields).Ends
        ((ofValue (.gathered item) gathered).under (.gather item p :: pending)) (s, calls) n final t' ↔
      (∃ fault s₁, runFrom s (sem.onReturn false) = (.error fault, s₁) ∧ n = 1 ∧
        final = .error fault ∧ t' = (s₁, calls ++ [.onReturn false])) ∨
      ∃ s₁ b, runFrom s (sem.onReturn false) = (.ok (), s₁) ∧ n = b + 1 ∧
        (sem.observed yields).Ends ((p.andThen (.push item gathered)).under pending)
          (s₁, calls ++ [.onReturn false]) b final t' := by
  have hcast : Value.cast (.gathered item) (.of (.gathered item) gathered) = .ok gathered :=
    @Value.cast_self _ _ (.gathered item) gathered
  have resumed (t : σ × List (Call (Value B) Op (Cont B Op F))) :
      runFrom t ((sem.observed yields).resume (.gather item p) (.of (.gathered item) gathered)) =
        (.ok (p.andThen (.push item gathered)), t) := by
    refine runFrom_resume_observed ?_
    rw [Cont.resume, hcast]
    rfl
  refine ends_ofValue_iff.trans (or_congr Iff.rfl ?_)
  exact exists_congr fun s₁ => exists_congr fun b =>
    and_congr Iff.rfl (and_congr Iff.rfl (Handler.continues_cons_ok (resumed _)))

/-- What has been gathered in the end is reported, and turned round. -/
theorem ends_collect_iff {gathered : List item.El}
    {t' : σ × List (Call (Value B) Op (Cont B Op F))} :
    (sem.observed yields).Ends
        ((ofValue (.gathered item) gathered).under (.collect item :: pending)) (s, calls) n final t' ↔
      (∃ fault s₁, runFrom s (sem.onReturn false) = (.error fault, s₁) ∧ n = 1 ∧
        final = .error fault ∧ t' = (s₁, calls ++ [.onReturn false])) ∨
      ∃ s₁ b, runFrom s (sem.onReturn false) = (.ok (), s₁) ∧ n = b + 1 ∧
        (sem.observed yields).Ends ((ofValue (.list item) gathered.reverse).under pending)
          (s₁, calls ++ [.onReturn false]) b final t' := by
  have hcast : Value.cast (.gathered item) (.of (.gathered item) gathered) = .ok gathered :=
    @Value.cast_self _ _ (.gathered item) gathered
  have resumed (t : σ × List (Call (Value B) Op (Cont B Op F))) :
      runFrom t ((sem.observed yields).resume (.collect item) (.of (.gathered item) gathered)) =
        (.ok (ofValue (.list item) gathered.reverse), t) := by
    refine runFrom_resume_observed ?_
    rw [Cont.resume, hcast]
    rfl
  refine ends_ofValue_iff.trans (or_congr Iff.rfl ?_)
  exact exists_congr fun s₁ => exists_congr fun b =>
    and_congr Iff.rfl (and_congr Iff.rfl (Handler.continues_cons_ok (resumed _)))

/-- From what has been gathered so far on, the remaining programs of a sequence run in order, under
whatever waits for the list. -/
theorem ends_gathering_iff (gathered : List item.El) :
    (sem.observed yields).Ends
        ((ofValue (.gathered item) gathered).under (gathering item programs ++ pending)) (s, calls) n
        final (s', calls') ↔
      (∃ stints values s₁ s₂ b, RunsInOrder sem item programs s stints values s₁ ∧
        runFrom s₁ (sem.onReturn false) = (.ok (), s₂) ∧
        n = 2 * programs.length + 1 + (stints.map Stint.steps).sum + b ∧
        (sem.observed yields).Ends
          ((ofValue (.list item) (gathered.reverse ++ values)).under pending)
          (s₂, calls ++ Stint.history stints ++ [.onReturn false]) b final (s', calls')) ∨
      ∃ fault since, BreaksOff sem item programs s n fault s' since ∧ final = .error fault ∧
        calls' = calls ++ since := by
  -- By induction on the remaining programs, for any list gathered so far: the value of the first is
  -- put in front of that list, and the others go on from there.
  induction programs generalizing gathered s calls n with
  | nil =>
    -- No program is left: only the report on the list is to come, and it may fail.
    rw [show gathering item [] ++ pending = .collect item :: pending from rfl, ends_collect_iff]
    simp only [breaksOff_nil_iff]
    constructor
    · rintro (⟨fault, s₁, failed, rfl, rfl, hs⟩ | ⟨s₁, b, told, rfl, hends⟩)
      · cases hs
        exact .inr ⟨fault, _, ⟨failed, rfl, rfl⟩, rfl, rfl⟩
      · refine .inl ⟨[], [], s, s₁, b, .nil, told, ?_, ?_⟩
        · simp [Nat.add_comm]
        · simpa [Stint.history] using hends
    · rintro (⟨_, _, _, s₁, b, ⟨⟩, told, rfl, hends⟩ | ⟨fault, _, ⟨failed, rfl, rfl⟩, rfl, rfl⟩)
      · refine .inr ⟨s₁, b, told, ?_, ?_⟩
        · simp [Nat.add_comm]
        · simpa [Stint.history] using hends
      · exact .inl ⟨fault, s', failed, rfl, rfl, rfl⟩
  | cons p programs ih =>
    -- The report may fail, then the first program by itself, and then any of the others.
    rw [show gathering item (p :: programs) ++ pending =
      .gather item p :: (gathering item programs ++ pending) from rfl, ends_gather_iff]
    simp only [ends_push_iff, ih, breaksOff_cons_iff]
    constructor
    · rintro (⟨fault, s₁, failed, rfl, rfl, hs⟩ | ⟨s₁, b, told, rfl, hown⟩)
      · cases hs
        exact .inr ⟨fault, _, .inl ⟨failed, rfl, rfl⟩, rfl, rfl⟩
      · obtain ⟨m, fault, own, failed, rfl, rfl, rfl⟩ | ⟨m, a, s₂, own, b, value, rfl, hrest⟩ := hown
        · exact .inr ⟨fault, _, .inr ⟨s₁, told, .inl ⟨m, own, failed, rfl, rfl⟩⟩, rfl, by simp⟩
        obtain ⟨stints, values, s₃, s₄, c, later, told', rfl, hends⟩ |
          ⟨fault, since, hbreaks, rfl, rfl⟩ := hrest
        · refine .inl ⟨_, _, s₃, s₄, c, .cons told value later, told', ?_, ?_⟩
          · simp only [List.length_cons, List.map_cons, List.sum_cons]
            omega
          · simpa [Stint.history] using hends
        · refine .inr ⟨fault, .onReturn false :: own ++ since, .inr ⟨s₁, told, .inr ?_⟩, rfl,
            by simp⟩
          exact ⟨m, a, s₂, own, b, since, value, by omega, rfl, hbreaks⟩
    · rintro (⟨_, _, s₃, s₄, c, ran, told', rfl, hends⟩ | ⟨fault, _, hbreaks, rfl, rfl⟩)
      · cases ran with
        | @cons _ _ _ s₁ s₂ _ m a own stints values told value later =>
          refine .inr ⟨s₁, _, told, ?_, .inr ⟨m, a, s₂, own, _, value, rfl,
            .inl ⟨stints, values, s₃, s₄, c, later, told', rfl, ?_⟩⟩⟩
          · simp only [List.length_cons, List.map_cons, List.sum_cons]
            omega
          · simpa [Stint.history] using hends
      · obtain ⟨failed, rfl, rfl⟩ | ⟨s₁, told, ⟨m, own, failed, rfl, rfl⟩ |
          ⟨m, a, s₂, own, n', since, value, rfl, rfl, hbreaks⟩⟩ := hbreaks
        · exact .inl ⟨fault, s', failed, rfl, rfl, rfl⟩
        · refine .inr ⟨s₁, m + 1, told, rfl, .inl ⟨m, fault, own, failed, rfl, rfl, by simp⟩⟩
        · refine .inr ⟨s₁, m + n' + 1, told, rfl, .inr ⟨m, a, s₂, own, n', value, rfl, .inr ?_⟩⟩
          exact ⟨fault, since, hbreaks, rfl, by simp⟩

/-- Sequences run in order, under any continuations that wait for the list. -/
theorem ends_sequence_iff :
    (sem.observed yields).Ends ((sequence item programs).under pending) (s, calls) n final
        (s', calls') ↔
      (∃ stints values s₁ s₂ b, RunsInOrder sem item programs s stints values s₁ ∧
        runFrom s₁ (sem.onReturn false) = (.ok (), s₂) ∧
        n = 3 * programs.length + 2 + (stints.map Stint.steps).sum + b ∧
        (sem.observed yields).Ends ((ofValue (.list item) values).under pending)
          (s₂, calls ++ Stint.history stints ++ [.onReturn false]) b final (s', calls')) ∨
      ∃ m fault since, BreaksOff sem item programs s m fault s' since ∧
        n = programs.length + 1 + m ∧ final = .error fault ∧ calls' = calls ++ since := by
  rw [sequence_eq_nested, Tree.ends_nested_iff, length_gathering]
  simp only [ends_gathering_iff]
  constructor
  · rintro ⟨_, rfl, ⟨stints, values, s₁, s₂, b, ran, told, rfl, hends⟩ |
      ⟨fault, since, hbreaks, rfl, rfl⟩⟩
    · exact .inl ⟨stints, values, s₁, s₂, b, ran, told, by omega, hends⟩
    · exact .inr ⟨_, fault, since, hbreaks, rfl, rfl, rfl⟩
  · rintro (⟨stints, values, s₁, s₂, b, ran, told, rfl, hends⟩ |
      ⟨m, fault, since, hbreaks, rfl, rfl, rfl⟩)
    · refine ⟨2 * programs.length + 1 + (stints.map Stint.steps).sum + b, by omega, .inl ?_⟩
      exact ⟨stints, values, s₁, s₂, b, ran, told, rfl, hends⟩
    · exact ⟨m, rfl, .inr ⟨fault, since, hbreaks, rfl, rfl⟩⟩

/-- With nothing waiting for it, a value is reported as the outermost one and is the value of the
run. -/
theorem ends_ofValue_ok_iff {τ : Ty B} {a : τ.El} {v : Value B} :
    (sem.observed τ).Ends ((ofValue τ a).under []) (s, calls) n (.ok v) (s', calls') ↔
      runFrom s (sem.onReturn true) = (.ok (), s') ∧ v = .of τ a ∧ n = 1 ∧
        calls' = calls ++ [.onReturn true] := by
  have haccept : (sem.observed τ).accept (.of τ a) = .ok (.of τ a) := Value.check_self a
  rw [ends_ofValue_iff, List.isEmpty_nil]
  simp only [Handler.continues_nil, haccept]
  constructor
  · rintro (⟨_, _, -, -, ⟨⟩, -⟩ | ⟨_, _, told, rfl, rfl, ⟨⟩, ⟨⟩⟩)
    exact ⟨told, rfl, rfl, rfl⟩
  · rintro ⟨told, rfl, rfl, rfl⟩
    exact .inr ⟨s', 0, told, rfl, rfl, rfl, rfl⟩

/-- With nothing waiting for it, a value can fail to be reported. -/
theorem ends_ofValue_error_iff {τ : Ty B} {a : τ.El} {fault : Fault} :
    (sem.observed τ).Ends ((ofValue τ a).under []) (s, calls) n (.error fault) (s', calls') ↔
      runFrom s (sem.onReturn true) = (.error fault, s') ∧ n = 1 ∧
        calls' = calls ++ [.onReturn true] := by
  have haccept : (sem.observed τ).accept (.of τ a) = .ok (.of τ a) := Value.check_self a
  rw [ends_ofValue_iff, List.isEmpty_nil]
  simp only [Handler.continues_nil, haccept]
  constructor
  · rintro (⟨_, _, failed, rfl, ⟨⟩, ⟨⟩⟩ | ⟨_, _, -, -, -, ⟨⟩, -⟩)
    exact ⟨failed, rfl, rfl⟩
  · rintro ⟨failed, rfl, rfl⟩
    exact .inl ⟨fault, s', failed, rfl, rfl, rfl⟩

/-! ## By itself and inside of another program -/

namespace Semantics

/-- How a run of a program by itself goes otherwise than one inside of another program. The calls
are the same but for the flags, of which the last one can be outermost. If it is not, or if the
handler takes the flags for the same, then the runs end in the same way too. -/
structure SameButLast (sem : Semantics (StateM σ) B Op F)
    (alone inside : Except Fault (Value B) × σ × List (Call (Value B) Op (Cont B Op F))) :
    Prop where
  calls : inside.2.2 = alone.2.2.map (Call.flagged false)
  values : ∀ v w, alone.1 = .ok v → inside.1 = .ok w → v = w
  ending : alone.2.2 = inside.2.2 ∨ sem.onReturn true = sem.onReturn false →
    alone.1 = inside.1 ∧ alone.2.1 = inside.2.1

/-- Inside of another program no value is outermost. -/
theorem flagged_of_ends_inner {outcome : Except Fault (Value B)}
    (hends : (sem.observed item).inner.Ends (.start p) (s, []) n outcome (s', calls)) :
    calls.map (Call.flagged false) = calls := by
  have hkeeps : (sem.observed item).inner.Echoes (sem.observed item).inner Eq
      (fun t t' => t = t' ∧ t.2.map (Call.flagged false) = t.2) := by
    constructor
    · rfl
    · rintro ⟨t, before⟩ _ ⟨rfl, hbefore⟩ depth depth' op _ _ ⟨⟩
      exact ⟨_, rfl, rfl, by simpa [Call.isHandler, Call.flagged] using hbefore⟩
    · rintro ⟨t, before⟩ _ ⟨rfl, hbefore⟩ _ _ - _ _ ⟨⟩
      exact ⟨_, rfl, rfl, by simpa [Call.isHandler, Call.flagged] using hbefore⟩
    · rintro ⟨t, before⟩ _ ⟨rfl, hbefore⟩ next v _ _ ⟨⟩
      exact ⟨_, rfl, rfl, hbefore⟩
  obtain ⟨first, value, -⟩ := Handler.ends_start_iff.mp hends
  obtain ⟨_, -, -, hcalls⟩ := hkeeps.evaluates value ⟨rfl, rfl⟩ true rfl 0
  exact hcalls

/-- What a run comes to in which the value is reported at last, with the given flag. -/
def lastReport (sem : Semantics (StateM σ) B Op F) (item : Ty B) (v : Value B) (s : σ)
    (before : List (Call (Value B) Op (Cont B Op F))) (outermost : Bool) :
    Except Fault (Value B) × σ × List (Call (Value B) Op (Cont B Op F)) :=
  (((runFrom s (sem.onReturn outermost)).1.map fun _ => v).bind (Value.check item),
    (runFrom s (sem.onReturn outermost)).2, before ++ [.onReturn outermost])

theorem check_of_lastReport_eq_ok {v w : Value B} {outermost : Bool}
    (h : (sem.lastReport item v s calls outermost).1 = .ok w) : v.check item = .ok w := by
  rw [lastReport] at h
  revert h
  rcases (runFrom s (sem.onReturn outermost)).1 with fault | _
  · exact nofun
  · exact id

/-- A run by itself and one inside of another program are the same up to a last report, if there is
one. -/
theorem sameButLast_lastReport {v : Value B}
    (hcalls : calls.map (Call.flagged false) = calls) :
    sem.SameButLast (sem.lastReport item v s calls true) (sem.lastReport item v s calls false) where
  calls := by
    simp [lastReport, hcalls, Call.flagged]
  values u w halone hinside :=
    Except.ok.inj ((check_of_lastReport_eq_ok halone).symm.trans (check_of_lastReport_eq_ok hinside))
  ending := by
    rintro (hsame | hsame)
    · simp [lastReport] at hsame
    · simp [lastReport, hsame]

theorem sameButLast_self {outcome : Except Fault (Value B)}
    (hcalls : calls.map (Call.flagged false) = calls) :
    sem.SameButLast (outcome, s', calls) (outcome, s', calls) where
  calls := hcalls.symm
  values _ _ halone hinside := Except.ok.inj (halone.symm.trans hinside)
  ending _ := ⟨rfl, rfl⟩

/-- To a run with the one flag belongs a run with the other. -/
theorem ends_alone_or_inner :
    (∀ outcome s' calls,
      (sem.observed item).Ends (.start p) (s, []) n outcome (s', calls) →
      ∃ outcome' t calls', (sem.observed item).inner.Ends (.start p) (s, []) n outcome' (t, calls') ∧
        sem.SameButLast (outcome, s', calls) (outcome', t, calls')) ∧
    ∀ outcome s' calls,
      (sem.observed item).inner.Ends (.start p) (s, []) n outcome (s', calls) →
      ∃ outcome' t calls', (sem.observed item).Ends (.start p) (s, []) n outcome' (t, calls') ∧
        sem.SameButLast (outcome', t, calls') (outcome, s', calls) := by
  -- Either way, one evaluation underlies both runs, up to its last report: that is where the two
  -- flags first differ.
  have hinner {first : Except Fault (Value B)} {s' : σ}
      {calls : List (Call (Value B) Op (Cont B Op F))}
      (value : (sem.observed item).Evaluates false 0 p (s, []) n first (s', calls)) :
      (sem.observed item).inner.Ends (.start p) (s, []) n (first.bind (Value.check item))
        (s', calls) :=
    (ends_inner_iff item 0 []).mpr ⟨first, value, rfl⟩
  have halone {first : Except Fault (Value B)} {s' : σ}
      {calls : List (Call (Value B) Op (Cont B Op F))}
      (value : (sem.observed item).Evaluates true 0 p (s, []) n first (s', calls)) :
      (sem.observed item).Ends (.start p) (s, []) n (first.bind (Value.check item)) (s', calls) :=
    Handler.ends_start_iff.mpr ⟨first, value, rfl⟩
  -- Inside no value is outermost, so what comes before the last report has the same flags already.
  have hbefore {before : List (Call (Value B) Op (Cont B Op F))} {outcome : Except Fault (Value B)}
      {s' : σ} (hends : (sem.observed item).inner.Ends (.start p) (s, []) n outcome
        (s', before ++ [.onReturn false])) : before.map (Call.flagged false) = before := by
    have hcalls := flagged_of_ends_inner hends
    rw [List.map_append] at hcalls
    exact List.append_cancel_right hcalls
  refine ⟨fun outcome s' calls hends => ?_, fun outcome s' calls hends => ?_⟩
  · obtain ⟨first, value, rfl⟩ := Handler.ends_start_iff.mp hends
    obtain hsame | ⟨v, ⟨s₁, before⟩, hreport, hlast⟩ := value.up_to_report
    · have hends' := hinner (hsame false)
      exact ⟨_, s', calls, hends', sameButLast_self (flagged_of_ends_inner hends')⟩
    · cases hreport
      have hends' := hinner (hlast false)
      exact ⟨_, _, _, hends', sameButLast_lastReport (hbefore hends')⟩
  · obtain ⟨first, value, rfl⟩ := (ends_inner_iff item 0 []).mp hends
    obtain hsame | ⟨v, ⟨s₁, before⟩, hreport, hlast⟩ := value.up_to_report
    · exact ⟨_, s', calls, halone (hsame true), sameButLast_self (flagged_of_ends_inner hends)⟩
    · cases hreport
      exact ⟨_, _, _, halone (hlast true), sameButLast_lastReport (hbefore hends)⟩

/-- **A sequence runs its programs in order.** From every state in which it is interpreted, be it the
first time or after other runs of it, completed or not:

* it comes to a list if and only if each of its programs in turn comes to a value, from the state
  that the one before has left, and those are the values listed. With `n` programs it takes `3 n + 3`
  steps besides theirs; besides their reports, none of them outermost, it makes one before the first,
  one after each of them, and the last one is outermost;
* it fails if and only if one of the programs does, with the same fault and the calls of those before
  and of its own, or if one of its own reports does;
* a program inside of it goes as the program does by itself, but for the flag of a last report. -/
theorem sequence_in_order (sem : Semantics (StateM σ) B Op F) (item : Ty B)
    (programs : List (Program B Op F)) (s : σ) :
    (∀ n v s' calls,
      (sem.observed (.list item)).Ends (.start (sequence item programs)) (s, []) n (.ok v)
        (s', calls) ↔
      ∃ stints values s₁ s₂, RunsInOrder sem item programs s stints values s₁ ∧
        runFrom s₁ (sem.onReturn false) = (.ok (), s₂) ∧
        runFrom s₂ (sem.onReturn true) = (.ok (), s') ∧
        v = .of (.list item) values ∧
        n = 3 * programs.length + 3 + (stints.map Stint.steps).sum ∧
        calls = Stint.history stints ++ [.onReturn false, .onReturn true]) ∧
    (∀ n fault s' calls,
      (sem.observed (.list item)).Ends (.start (sequence item programs)) (s, []) n (.error fault)
        (s', calls) ↔
      (∃ m, n = programs.length + 1 + m ∧ BreaksOff sem item programs s m fault s' calls) ∨
      ∃ stints values s₁ s₂, RunsInOrder sem item programs s stints values s₁ ∧
        runFrom s₁ (sem.onReturn false) = (.ok (), s₂) ∧
        runFrom s₂ (sem.onReturn true) = (.error fault, s') ∧
        n = 3 * programs.length + 3 + (stints.map Stint.steps).sum ∧
        calls = Stint.history stints ++ [.onReturn false, .onReturn true]) ∧
    ∀ p s n,
      (∀ outcome s' calls,
        (sem.observed item).Ends (.start p) (s, []) n outcome (s', calls) →
        ∃ outcome' t calls', (sem.observed item).inner.Ends (.start p) (s, []) n outcome' (t, calls') ∧
          sem.SameButLast (outcome, s', calls) (outcome', t, calls')) ∧
      ∀ outcome s' calls,
        (sem.observed item).inner.Ends (.start p) (s, []) n outcome (s', calls) →
        ∃ outcome' t calls', (sem.observed item).Ends (.start p) (s, []) n outcome' (t, calls') ∧
          sem.SameButLast (outcome', t, calls') (outcome, s', calls) := by
  refine ⟨fun n v s' calls => ?_, fun n fault s' calls => ?_, fun p s n => ends_alone_or_inner⟩
  · rw [← Tree.under_nil, ends_sequence_iff]
    constructor
    · rintro (⟨stints, values, s₁, s₂, b, ran, told, rfl, hends⟩ | ⟨_, _, _, -, -, ⟨⟩, -⟩)
      obtain ⟨told', rfl, rfl, rfl⟩ := ends_ofValue_ok_iff.mp hends
      exact ⟨stints, values, s₁, s₂, ran, told, told', rfl, by omega, by simp⟩
    · rintro ⟨stints, values, s₁, s₂, ran, told, told', rfl, rfl, rfl⟩
      refine .inl ⟨stints, values, s₁, s₂, 1, ran, told, by omega, ?_⟩
      exact ends_ofValue_ok_iff.mpr ⟨told', rfl, rfl, by simp⟩
  · rw [← Tree.under_nil, ends_sequence_iff]
    constructor
    · rintro (⟨stints, values, s₁, s₂, b, ran, told, rfl, hends⟩ |
        ⟨m, _, _, hbreaks, rfl, ⟨⟩, rfl⟩)
      · obtain ⟨failed, rfl, rfl⟩ := ends_ofValue_error_iff.mp hends
        exact .inr ⟨stints, values, s₁, s₂, ran, told, failed, by omega, by simp⟩
      · exact .inl ⟨m, rfl, hbreaks⟩
    · rintro (⟨m, rfl, hbreaks⟩ | ⟨stints, values, s₁, s₂, ran, told, failed, rfl, rfl⟩)
      · exact .inr ⟨m, fault, calls, hbreaks, rfl, rfl, rfl⟩
      · refine .inl ⟨stints, values, s₁, s₂, 1, ran, told, by omega, ?_⟩
        exact ends_ofValue_error_iff.mpr ⟨failed, rfl, by simp⟩

/-- At the counting handler a program is run twice in a sequence, with a value in between. The
counter goes up from the one to the other. By itself the value is reported as outermost. -/
theorem sequence_in_order_counting :
    (counting.observed (.list (.ground .int64))).Ends
        (.start (sequence (.ground .int64)
          [ofInstr (), ofValue (.ground .int64) (7 : Int64), ofInstr ()]))
        ((2, 0), []) 15 (.ok (.of (.list (.ground .int64)) ([2, 7, 3] : List Int64)))
        ((4, 6), [.onReturn false, .handle (), .onReturn false, .onReturn false, .onReturn false,
          .handle (), .onReturn false, .onReturn true]) ∧
      ∃ outcome t calls, (counting.observed (.ground .int64)).inner.Ends
          (.start (ofValue (.ground .int64) (7 : Int64))) ((2, 0), []) 1 outcome (t, calls) ∧
        counting.SameButLast (.ok (.of (.ground .int64) (7 : Int64)), (2, 1), [.onReturn true])
          (outcome, t, calls) := by
  have hinstr (s : Nat × Nat) :
      (counting.observed (.ground .int64)).inner.Ends (.start (ofInstr ())) (s, []) 1
        (.ok (.of (.ground .int64) s.1.toInt64)) ((s.1 + 1, s.2), [.handle ()]) :=
    .value rfl
  have hvalue (s : Nat × Nat) :
      (counting.observed (.ground .int64)).inner.Ends
        (.start (ofValue (.ground .int64) (7 : Int64))) (s, []) 1
        (.ok (.of (.ground .int64) (7 : Int64))) ((s.1, s.2 + 1), [.onReturn false]) :=
    .value rfl
  obtain ⟨hlist, -, halone⟩ := sequence_in_order counting (.ground .int64)
    [ofInstr (), ofValue (.ground .int64) (7 : Int64), ofInstr ()] (2, 0)
  refine ⟨(hlist ..).mpr ?_, (halone ..).1 _ _ _ (.value rfl)⟩
  have hran : RunsInOrder counting (.ground .int64)
      [ofInstr (), ofValue (.ground .int64) (7 : Int64), ofInstr ()] (2, 0)
      [⟨1, [.handle ()]⟩, ⟨1, [.onReturn false]⟩, ⟨1, [.handle ()]⟩] ([2, 7, 3] : List Int64)
      (4, 4) :=
    .cons rfl (hinstr (2, 1)) (.cons rfl (hvalue (3, 2)) (.cons rfl (hinstr (3, 4)) .nil))
  exact ⟨_, _, _, (4, 5), hran, rfl, rfl, rfl, rfl, rfl⟩

end Semantics

end Program

end FiberPrograms
