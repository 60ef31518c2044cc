import FiberPrograms.Proofs.ForetoldPrograms
import FiberPrograms.Scalar
import Mathlib.Data.Fin.Basic

/-!
# Fork all, then join some

A list of actions is forked, and then fibers of theirs are joined, in any order, some of them more
than once and some not at all. What comes of it is a matter of that order alone: the values of the
joined fibers in that order, or the failure of the first of them that fails. When the jobs begin and
how they are interleaved makes no difference, nor which of them fails first.

## Main definitions

* `Branch`, `FanOut`: actions to be forked, and which of the fibers are joined
* `FanOut.program`, `FanOut.Joins`: the program, and what its continuation makes of the fibers
* `FanOut.Ends`: how a run of it has ended

## Main results

* `FanOut.exists_forks`, `FanOut.come_joins`: what the two sequences come to
* `FanOut.fork_all_then_join`: the values are those of the fibers that are joined, in that order
-/

namespace FiberPrograms

open Program

variable {S : Signature} {W : Type} {τ : Ty S.Base}

/-- In a list of outcomes all are values, or there is a first one that is none. -/
theorem exists_values_or_first_failure {ι ε α : Type} (f : ι → Except ε α) (l : List ι) :
    (∃ values : List α, l.map f = values.map .ok) ∨
      ∃ earlier i later, ∃ (values : List α) (cause : ε), l = earlier ++ i :: later ∧
        earlier.map f = values.map .ok ∧ f i = .error cause := by
  induction l with
  | nil => exact .inl ⟨[], rfl⟩
  | cons i l ih =>
    cases hi : f i with
    | error cause => exact .inr ⟨[], i, l, [], cause, rfl, rfl, hi⟩
    | ok a =>
      obtain ⟨values, hvalues⟩ | ⟨earlier, j, later, values, cause, rfl, hvalues, hj⟩ := ih
      · exact .inl ⟨a :: values, by simp [hi, hvalues]⟩
      · exact .inr ⟨i :: earlier, j, later, a :: values, cause, rfl, by simp [hi, hvalues], hj⟩

/-- An action to be forked: where it is meant to run, and what it comes to. -/
structure Branch (S : Signature) (τ : Ty S.Base) where
  place : Place
  action : S.Action
  outcome : Except Fault τ.El

namespace Branch

/-- The program that forks the action. -/
def fork (branch : Branch S τ) : S.Program :=
  ofInstr (.forkAt branch.place τ branch.action)

/-- The action, handed over for a fiber. -/
def errand (branch : Branch S τ) (fiber : FiberId) : Errand S :=
  ⟨fiber, branch.action, branch.outcome.map (.of τ)⟩

end Branch

/-- Actions to be forked, and which of the fibers are joined, in that order. -/
structure FanOut (S : Signature) (τ : Ty S.Base) where
  branches : List (Branch S τ)
  joins : List (Fin branches.length)

namespace FanOut

variable (F : FanOut S τ) {R : Runtime S W} {base : Pool S W}

/-- Fork all actions one after the other, then have the code join their fibers. -/
def program (code : S.Code) : S.Program :=
  Program.bind (.list (.fiber τ)) (sequence (.fiber τ) (F.branches.map Branch.fork)) code

/-- Given the fibers, the code joins those that are to be joined, in order. -/
def Joins (I : Interpreter S) (code : S.Code) : Prop :=
  ∀ (fibers : List FiberId) (h : fibers.length = F.branches.length),
    I.build code (.of (.list (.fiber τ)) fibers) =
      .done (sequence τ (F.joins.map fun j => ofInstr (.await (fibers.get (j.cast h.symm)))))

/-- One of the actions that are forked. -/
def branch (i : Fin F.branches.length) : Branch S τ :=
  F.branches[i]

/-- The fiber of an action. Fibers are named in the order in which they are made. -/
def fiber (base : Pool S W) (i : Fin F.branches.length) : FiberId :=
  ⟨base.fibers.size + i⟩

/-- The reports of the forks, and in front of each that some fibers have been gathered. -/
def forked (base : Pool S W) : List Event :=
  (List.finRange F.branches.length).flatMap fun i =>
    [.finished false, .fork (F.fiber base i) (F.branch i).place]

/-- The reports of joins, and in front of each that some values have been gathered. -/
def joined (base : Pool S W) (joins : List (Fin F.branches.length)) : List Event :=
  joins.flatMap fun j => [.finished false, .await (F.fiber base j)]

/-- All is over: the run has ended with an outcome after certain joins, and each of the actions has
been handed over in order and run once. -/
structure Ends (base : Pool S W) (outcome : Except Fault S.Value)
    (joins : List (Fin F.branches.length)) (closing : List Event) (scene : Scene S W S.Value)
    (deeds : List (Deed S)) : Prop where
  callers : scene.callers = [.ended outcome]
  jobs : scene.jobs = []
  queue : scene.pool.queue = #[]
  events : scene.pool.events.toList =
    base.events.toList ++ F.forked base ++ [.finished false, .finished false] ++
      F.joined base joins ++ closing
  handed : deeds.filter Deed.isHanded = (List.finRange F.branches.length).map fun i =>
    .handed (F.fiber base i) (F.branch i).action
  once : ∀ i, Deed.lifeline (F.fiber base i) deeds =
    [.handed (F.fiber base i) (F.branch i).action, .begun (F.fiber base i),
      .ended (F.fiber base i) ((F.branch i).outcome.map (.of τ))]

/-! ## The two sequences -/

section Sequences

variable {I : Interpreter S} (hobserver : I.observer.Faithful) {L : Ledger S}

include hobserver

/-- The forks come to the fibers, one after the other, and all actions are on the ledger then. -/
theorem exists_forks {branches : List (Branch S τ)}
    (settles : ∀ branch ∈ branches, (I.act branch.action).Settles base
      (branch.outcome.map (.of τ))) :
    ∃ L', ComeInOrder I base (.fiber τ) (branches.map Branch.fork) L
        ((List.finRange branches.length).map fun i : Fin _ => (⟨L.made + i⟩ : FiberId)) L' ∧
      L'.errands = L.errands ++
        (List.finRange branches.length).map (fun i => branches[i].errand ⟨L.made + i⟩) ∧
      L'.events = L.events ++ (List.finRange branches.length).flatMap fun i =>
        [.finished false, .fork ⟨L.made + i⟩ branches[i].place] := by
  induction branches generalizing L with
  | nil => exact ⟨L, .nil, by simp, by simp⟩
  | cons branch branches ih =>
    have hmade (i : Nat) : L.made + 1 + i = L.made + (i + 1) := by omega
    obtain ⟨L', horder, herrands, hevents⟩ := ih
      (L := (L.note (.finished false)).fork branch.place branch.action (branch.outcome.map (.of τ)))
      fun other hother => settles other (List.mem_cons_of_mem _ hother)
    have hfork := comesTo_fork (L := L.note (.finished false)) hobserver branch.place τ
      (settles branch List.mem_cons_self)
    simp only [Ledger.made_fork, Ledger.made_note, hmade] at horder herrands hevents
    refine ⟨L', ?_, ?_, ?_⟩
    · simp only [List.length_cons, List.finRange_succ, List.map_cons]
      refine .cons hfork ?_
      convert horder using 1
      exact List.map_map
    · rw [herrands]
      simp [List.finRange_succ, Function.comp_def, Branch.errand]
    · rw [hevents]
      simp [List.finRange_succ, List.flatMap_map]

/-- The joins come to their values, one after the other, and leave nothing but their reports. -/
theorem come_joins (L : Ledger S) (herrands : ∀ i, (F.branch i).errand (F.fiber base i) ∈ L.errands)
    {joins : List (Fin F.branches.length)} {values : List τ.El}
    (hvalues : joins.map (fun i => (F.branch i).outcome) = values.map .ok) :
    ComeInOrder I base τ (joins.map fun j => ofInstr (.await (F.fiber base j))) L values
      (L.notes (F.joined base joins)) := by
  induction joins generalizing L values with
  | nil =>
    obtain rfl : values = [] := by simpa using hvalues
    simpa [joined] using ComeInOrder.nil
  | cons j joins ih =>
    obtain ⟨a, values, rfl⟩ : ∃ a rest, values = a :: rest := by
      cases values with
      | nil => simp at hvalues
      | cons a rest => exact ⟨a, rest, rfl⟩
    obtain ⟨hj, hvalues⟩ := List.cons_eq_cons.mp hvalues
    let L₁ := (L.note (.finished false)).note (.await (F.fiber base j))
    have hmem : (F.branch j).errand (F.fiber base j) ∈ (L.note (.finished false)).errands :=
      herrands j
    have hawait : ComesTo I base (ofInstr (.await (F.fiber base j))) (L.note (.finished false))
        (.of τ a) L₁ := comesTo_await hobserver hmem (congrArg (Except.map (Value.of τ)) hj)
    have hrest := ih L₁ herrands hvalues
    rw [Ledger.notes_note, Ledger.notes_note] at hrest
    exact .cons hawait hrest

end Sequences

/-! ## Every schedule -/

/-- When the forks are done, what is left to be foretold is the sequence of joins. -/
theorem exists_forecast (hobserver : R.observer.Faithful)
    (settles : ∀ i, (R.act (F.branch i).action).Settles base ((F.branch i).outcome.map (.of τ)))
    {code : S.Code} (hcode : F.Joins R.toInterpreter code) :
    ∃ L : Ledger S,
      L.errands = (List.finRange _).map (fun i => (F.branch i).errand (F.fiber base i)) ∧
      L.events = base.events.toList ++ F.forked base ++ [.finished false, .finished false] ∧
      ∀ {L' outcome},
        (R.turn (.list τ) ((sequence τ (F.joins.map fun j =>
          ofInstr (.await (F.fiber base j))) : S.Program).under [])).Forecast R.toInterpreter base L
            L' outcome →
        (R.turn (.list τ) (.start (F.program code))).Forecast R.toInterpreter base base.ledger L'
          outcome := by
  have hsettles : ∀ branch ∈ F.branches,
      (R.act branch.action).Settles base (branch.outcome.map (.of τ)) := by
    intro branch hbranch
    obtain ⟨i, hi, rfl⟩ := List.getElem_of_mem hbranch
    exact settles ⟨i, hi⟩
  obtain ⟨L, horder, herrands, hevents⟩ := exists_forks hobserver hsettles (L := base.ledger)
  refine ⟨(L.note (.finished false)).note (.finished false), ?_, ?_, fun {L' outcome} rest => ?_⟩
  · exact herrands
  · simp only [Ledger.events_note, hevents, List.append_assoc]
    rfl
  · rw [← Tree.under_nil]
    refine forecast_andThen (horder.forecast_sequence hobserver ?_)
    have hlength : ((List.finRange F.branches.length).map (F.fiber base)).length =
        F.branches.length := by simp
    have hbuild := hcode _ hlength
    simp only [List.get_eq_getElem, Fin.val_cast, List.getElem_map, List.getElem_finRange] at hbuild
    exact forecast_bind hbuild rest

/-- **The order of the joins decides.** Take any list of actions, each of which comes to a value or
fails, and any list of joins of their fibers, in any order, with repetitions and omissions. Whatever
becomes of jobs, unless they are thrown away, and in whatever order threads move and jobs begin, the
run inevitably comes to its end, and then each of the actions has been run exactly once. It lists
the values of the actions whose fibers are joined, in the order of the joins. If some of these fail,
then it fails, and says so of the first in that order, whichever failed first in time. The forks are
reported in the order of the list, and after them the joins in their order, up to the one that
fails. -/
theorem fork_all_then_join (hspawner : R.spawner ≠ .discarding) (hobserver : R.observer.Faithful)
    {world : W} {before : List (Deed S)}
    (story : Trail (Scene.Step R) (.opening world) before (⟨base, [], []⟩ : Scene S W S.Value))
    (hqueue : base.queue = #[])
    (settles : ∀ i, (R.act (F.branch i).action).Settles base ((F.branch i).outcome.map (.of τ)))
    {code : S.Code} (hcode : F.Joins R.toInterpreter code) :
    Inevitable (Scene.Move R)
      (fun scene deeds =>
        (∃ values : List τ.El, F.joins.map (fun j => (F.branch j).outcome) = values.map .ok ∧
          F.Ends base (.ok (.of (.list τ) values)) F.joins [.finished false, .finished true] scene
            deeds) ∨
        ∃ earlier j later, ∃ (values : List τ.El) (cause : Fault),
          F.joins = earlier ++ j :: later ∧
          earlier.map (fun j => (F.branch j).outcome) = values.map .ok ∧
          (F.branch j).outcome = .error cause ∧
          F.Ends base (.error (.fiberFailed (F.fiber base j) cause)) (earlier ++ [j]) [] scene
            deeds ∧
          ∀ name, (Fault.fiberFailed (F.fiber base j) cause).text? name =
            some ("fiber " ++ name (F.fiber base j) ++ " panicked: " ++ cause.message name))
      ⟨base, [.running (.base (.interpret (.list τ) (F.program code)))], []⟩ [] := by
  obtain ⟨L, herrands, hevents, hforecast⟩ := F.exists_forecast hobserver settles hcode
  have hmem (i : Fin F.branches.length) : (F.branch i).errand (F.fiber base i) ∈ L.errands := by
    rw [herrands]
    exact List.mem_map_of_mem (List.mem_finRange i)
  -- What the ledger says is what the scene shows in the end.
  have hends {joins closing outcome scene deeds}
      (h : Scene.Fulfils (L.notes (F.joined base joins ++ closing)) outcome scene deeds) :
      F.Ends base outcome joins closing scene deeds := by
    refine ⟨h.callers, h.jobs, h.queue, ?_, ?_, fun i => h.lifeline _ (hmem i)⟩
    · rw [h.events, Ledger.events_notes, hevents, ← List.append_assoc]
    · rw [h.handed, Ledger.errands_notes, herrands, List.map_map]
      rfl
  obtain ⟨values, hvalues⟩ | ⟨earlier, j, later, values, cause, hsplit, hvalues, hj⟩ :=
    exists_values_or_first_failure (fun j => (F.branch j).outcome) F.joins
  · have horder := F.come_joins hobserver L hmem hvalues
    have hforetold := hforecast (horder.forecast_sequence hobserver forecast_nil)
    refine (hforetold.run hspawner story hqueue).mono fun scene deeds h => .inl ?_
    exact ⟨values, hvalues, hends (by simpa [Ledger.notes, Ledger.note] using h)⟩
  · have horder := F.come_joins hobserver L hmem hvalues
    have hfails : FailsWith R.toInterpreter base (ofInstr (.await (F.fiber base j)))
        ((L.notes (F.joined base earlier)).note (.finished false))
        (.fiberFailed (F.fiber base j) cause) (L.notes (F.joined base (earlier ++ [j]))) := by
      have hlast : L.notes (F.joined base (earlier ++ [j])) =
          ((L.notes (F.joined base earlier)).note (.finished false)).note
            (.await (F.fiber base j)) := by
        simp [joined, Ledger.notes, Ledger.note]
      rw [hlast]
      have hmem' : (F.branch j).errand (F.fiber base j) ∈
        ((L.notes (F.joined base earlier)).note (.finished false)).errands := hmem j
      exact failsWith_await hobserver hmem' (congrArg (Except.map (Value.of τ)) hj)
    have hforetold := hforecast (by
      rw [hsplit, List.map_append, List.map_cons]
      exact horder.failsWith_sequence hobserver hfails _ _)
    refine (hforetold.run hspawner story hqueue).mono fun scene deeds h => .inr ?_
    exact ⟨earlier, j, later, values, cause, hsplit, hvalues, hj,
      hends (by simpa using h), fun name => Fault.text?_fiberFailed name _ _⟩

/-- User code that joins fibers by their places, and actions that yield numbers or fail. -/
def picks : Signature where
  Base := Scalar
  Code := List Nat
  Action := Except Fault Int64
  Effect := Empty
  Reply := fun _ => Unit

/-- The type of what the actions yield. -/
abbrev picks.number : Ty picks.Base := .ground Scalar.int64

/-- An action that comes to an outcome. -/
def picks.branch (outcome : Except Fault Int64) : Branch picks picks.number :=
  ⟨.here, outcome, outcome⟩

/-- Jobs wait in a queue, and each event is put down. -/
def picking : Runtime picks Unit where
  build places v := do
    let fibers : List FiberId ← .ofExcept (v.cast (.list (.fiber picks.number)))
    return sequence picks.number
      (places.filterMap fun place => fibers[place]?.map fun fiber => ofInstr (.await fiber))
  compute _ v := .done v
  act action := .ofExcept (Except.map (Value.of picks.number) action)
  observer := .recording
  spawner := .queued
  newestFirst := false
  level := none
  effect := fun _ world => ((), world)

/-- Three actions, the second of which fails, and four joins, two of them of that one. -/
def oneFails : FanOut picks picks.number where
  branches := [picks.branch (.ok 7), picks.branch (.error (.literal "boom")), picks.branch (.ok 5)]
  joins := ([2, 1, 0, 1] : List (Fin 3))

/-- The second fiber is joined after the third and before the first, and that is where it ends. -/
theorem fork_all_then_join_oneFails :
    Inevitable (Scene.Move picking)
      (oneFails.Ends (.empty ()) (.error (.fiberFailed ⟨1⟩ (.literal "boom")))
        ([2, 1] : List (Fin 3)) [])
      ⟨.empty (), [.running (.base (.interpret (.list picks.number)
        (oneFails.program [2, 1, 0, 1])))], []⟩ [] := by
  have settles (i : Fin 3) : (picking.act (oneFails.branch i).action).Settles
      (.empty () : Pool picks Unit) ((oneFails.branch i).outcome.map (.of picks.number)) := by
    match i with
    | 0 | 2 => exact .done _
    | 1 => exact .fail _
  have hcode : oneFails.Joins picking.toInterpreter [2, 1, 0, 1] := by
    intro fibers h
    match fibers, h with
    | [first, second, third], _ => rfl
  refine (oneFails.fork_all_then_join (by decide) Observer.faithful_recording .refl rfl settles
    hcode).mono fun scene deeds h => ?_
  -- The second action gives no value, so whichever joins include it do not come to values.
  have hfails {joins : List (Fin 3)} {values : List Int64} (hmem : 1 ∈ joins) :
      joins.map (fun j => (oneFails.branch j).outcome) ≠ values.map .ok := by
    intro hvalues
    have herror : Except.error (Fault.literal "boom") ∈ values.map Except.ok :=
      hvalues ▸ List.mem_map_of_mem hmem
    obtain ⟨_, -, ⟨⟩⟩ := List.mem_map.mp herror
  obtain ⟨values, hvalues, -⟩ |
    ⟨earlier, j, later, values, cause, hsplit, hvalues, hj, hends, -⟩ := h
  · exact absurd hvalues (hfails (List.mem_of_getElem? (i := 1) rfl))
  · match earlier, hsplit with
    | [], hsplit =>
      cases hsplit
      cases hj
    | [_], hsplit =>
      cases hsplit
      cases hj
      exact hends
    | _ :: second :: _, hsplit =>
      obtain ⟨-, hsplit⟩ := List.cons_eq_cons.mp hsplit
      obtain ⟨rfl, -⟩ : (1 : Fin 3) = second ∧ _ := List.cons_eq_cons.mp hsplit
      exact absurd hvalues (hfails (List.mem_cons_of_mem _ List.mem_cons_self))

end FanOut

end FiberPrograms
