import FiberPrograms.Proofs.Stories

/-!
# What code is permitted to do

All code may read fibers. What else it may do differs: some code never runs programs, other code
never asks whether a fiber has ended. A permit says which requests a computation may make and
whether it may have programs run; the queue may be run by nobody. If the user code of an interpreter
keeps to a permit, so do the threads that run it, whatever they are told on the way.

## Main definitions

* `Permit`: the requests that may be made, and whether programs may be run
* `Comp.Confined`, `Thread.Confined`, `Scene.Confined`: computations, threads and scenes that keep
  to permits
* `Interpreter.Confined`: an interpreter whose steps and actions keep to a permit

## Main results

* `Interpreter.confined_of_code`: an interpreter keeps to a permit if its user code does
* `Thread.Confined.of_move`: a confined thread stays confined
* `Scene.Confined.incident`: so does a scene
-/

namespace FiberPrograms

variable {S : Signature} {W α β : Type}

/-- What code may do, besides reading fibers. -/
structure Permit (S : Signature) where
  /-- The requests that it may make. -/
  asks : Request S → Prop
  /-- Whether it may have programs run. -/
  calls : Prop

variable {L L' : Permit S}

/-- A computation that does no more than it is permitted. What it yields is as `post` says. -/
def Comp.Confined (L : Permit S) (post : α → Prop) : Comp S α → Prop
  | done a => post a
  | fail _ => True
  | ask request k => L.asks request ∧ ∀ reply, (k reply).Confined L post
  | demand (.read _) k => ∀ outcome, (k outcome).Confined L post
  | demand (.interpret _ _) k => L.calls ∧ ∀ outcome, (k outcome).Confined L post
  | runQueue _ => False

/-- Whether a step may come to this: only who may have programs run steps machines. -/
def Turn.Confined (L : Permit S) : Turn S → Prop
  | value _ => True
  | again _ _ => L.calls

namespace Comp

variable {post : α → Prop} {post' : β → Prop}

theorem Confined.bind {c : Comp S α} {f : α → Comp S β} (h : c.Confined L post)
    (hf : ∀ a, post a → (f a).Confined L post') : (c.bind f).Confined L post' := by
  induction c with
  | done a => exact hf a h
  | fail fault => trivial
  | ask request k ih => exact ⟨h.1, fun reply => ih reply (h.2 reply)⟩
  | demand d k ih =>
    cases d with
    | read fiber => exact fun outcome => ih outcome (h outcome)
    | interpret yields machine => exact ⟨h.1, fun outcome => ih outcome (h.2 outcome)⟩
  | runQueue k => exact h

theorem Confined.attempt {c : Comp S α} (h : c.Confined L post) :
    c.attempt.Confined L fun _ => True := by
  induction c with
  | done a | fail fault => trivial
  | ask request k ih => exact ⟨h.1, fun reply => ih reply (h.2 reply)⟩
  | demand d k ih =>
    cases d with
    | read fiber => exact fun outcome => ih outcome (h outcome)
    | interpret yields machine => exact ⟨h.1, fun outcome => ih outcome (h.2 outcome)⟩
  | runQueue k => exact h

theorem Confined.mono {c : Comp S α} {post' : α → Prop} (h : c.Confined L post)
    (hasks : ∀ request, L.asks request → L'.asks request) (hcalls : L.calls → L'.calls)
    (hpost : ∀ a, post a → post' a) : c.Confined L' post' := by
  induction c with
  | done a => exact hpost a h
  | fail fault => trivial
  | ask request k ih => exact ⟨hasks request h.1, fun reply => ih reply (h.2 reply)⟩
  | demand d k ih =>
    cases d with
    | read fiber => exact fun outcome => ih outcome (h outcome)
    | interpret yields machine => exact ⟨hcalls h.1, fun outcome => ih outcome (h.2 outcome)⟩
  | runQueue k => exact h

theorem confined_ofExcept (outcome : Except Fault α) :
    (ofExcept outcome : Comp S α).Confined L fun _ => True := by
  cases outcome <;> trivial

end Comp

/-! ## Interpreters that keep to a permit -/

/-- The actions of an interpreter keep to a permit, and so do the steps of its machines, for those
who may take them. -/
structure Interpreter.Confined (L : Permit S) (I : Interpreter S) : Prop where
  turn : L.calls → ∀ yields machine, (I.turn yields machine).Confined L (Turn.Confined L)
  act : ∀ action, (I.act action).Confined L fun _ => True

/-- The user code of an interpreter keeps to a permit. -/
structure Interpreter.CodeConfined (L : Permit S) (I : Interpreter S) : Prop where
  build : ∀ code v, (I.build code v).Confined L fun _ => True
  compute : ∀ code v, (I.compute code v).Confined L fun _ => True
  act : ∀ action, (I.act action).Confined L fun _ => True
  observer : ∀ event, (I.observer event).Confined L fun _ => True

/-- The requests that interpreters make by themselves are permitted. -/
structure Permit.Interprets (L : Permit S) : Prop where
  newFiber : L.asks .newFiber
  start : ∀ fiber action, L.asks (.start fiber action)
  log : ∀ record, L.asks (.log record)

namespace Interpreter

section Code

variable {I : Interpreter S} (hcode : I.CodeConfined L) (hL : L.Interprets)

include hcode hL in
theorem confined_perform (op : ForkJoin S.Base S.Action) :
    (I.perform op).Confined L fun _ => True := by
  cases op with
  | forkAt place yields action =>
    refine ⟨hL.newFiber, fun fiber => ?_⟩
    exact (hcode.observer _).bind fun _ _ => ⟨hL.start _ action, fun _ => trivial⟩
  | await fiber =>
    refine (hcode.observer _).bind fun _ _ => fun outcome => ?_
    exact Comp.confined_ofExcept outcome

include hcode in
theorem confined_resume (next : Cont S.Base (ForkJoin S.Base S.Action) S.Code) (v : S.Value) :
    (next.resume (fun code v => (I.build code v).attempt)
      (fun code v => (I.compute code v).attempt) v).Confined L fun _ => True := by
  cases next with
  | bind arg code =>
    rw [Cont.resume]
    cases v.check arg with
    | error fault => trivial
    | ok v => exact (hcode.build code v).attempt
  | map arg code =>
    rw [Cont.resume]
    cases v.check arg with
    | error fault => trivial
    | ok v => exact (hcode.compute code v).attempt.bind fun _ _ => trivial
  | _ => trivial

include hcode in
theorem confined_deliver (tree : S.Program)
    (pending : List (Cont S.Base (ForkJoin S.Base S.Action) S.Code)) (yields : Ty S.Base)
    (v : S.Value) :
    ((tree.under pending).deliver (I.handler yields) v).Confined L fun _ => True := by
  cases pending with
  | nil => trivial
  | cons next rest =>
    rw [Machine.deliver_cons]
    refine (confined_resume hcode next v).bind fun made _ => ?_
    cases made <;> trivial

include hcode hL in
theorem confined_step (yields : Ty S.Base) (machine : S.Machine) :
    (machine.step (I.handler yields)).Confined L fun _ => True := by
  cases hcurrent : machine.current with
  | none =>
    rw [Machine.step, hcurrent]
    trivial
  | some tree =>
    rw [Machine.eq_under hcurrent]
    cases tree with
    | ret v =>
      rw [Machine.step_ret]
      refine (hcode.observer _).attempt.bind fun answer _ => ?_
      cases answer with
      | error fault => trivial
      | ok _ => exact confined_deliver hcode _ _ yields v
    | instr op =>
      rw [Machine.step_instr]
      have hhandle (depth : Nat) :
          ((I.handler yields).handle depth op).Confined L fun _ => True :=
        ⟨hL.log _, fun _ => (confined_perform hcode hL op).attempt⟩
      refine (hhandle _).bind fun answer _ => ?_
      cases answer with
      | error fault => trivial
      | ok v => exact confined_deliver hcode _ _ yields v
    | andThen first next => trivial

include hcode hL in
/-- An interpreter keeps to a permit if its user code does. -/
theorem confined_of_code : I.Confined L where
  turn hcalls yields machine := by
    refine (confined_step hcode hL yields machine).bind fun stepped _ => ?_
    obtain ⟨progress, after⟩ := stepped
    rcases progress with fault | _ | v
    · trivial
    · exact hcalls
    · trivial
  act := hcode.act

end Code

end Interpreter

/-! ## Threads that keep to a permit -/

/-- A thread all of whose computations keep to a permit. -/
inductive Thread.Confined (L : Permit S) : Thread S α → Prop
  | base {c : Comp S α} (h : c.Confined L fun _ => True) : Confined L (.base c)
  | nested {c : Comp S (Turn S)} {callers : List (Except Fault S.Value → Comp S (Turn S))}
      {outer : Except Fault S.Value → Comp S α} (h : c.Confined L (Turn.Confined L))
      (hcallers : ∀ k ∈ callers, ∀ outcome, (k outcome).Confined L (Turn.Confined L))
      (houter : ∀ outcome, (outer outcome).Confined L fun _ => True) :
      Confined L (.nested c callers outer)

section Moves

variable {R : Runtime S W} {pool pool' : Pool S W}

/-- A confined computation goes on as one, and so does what it has run. -/
theorem Comp.Confined.of_react (hR : R.toInterpreter.Confined L) {post : α → Prop} {c : Comp S α}
    (h : c.Confined L post) {reaction : Reaction S α}
    (hreact : c.react R pool = (reaction, pool')) :
    (∀ c' launch, reaction = .next c' launch → c'.Confined L post) ∧
    (∀ inner k, reaction = .enter inner k → inner.Confined L (Turn.Confined L) ∧
      ∀ outcome, (k outcome).Confined L post) ∧
    ∀ a, reaction = .ended (.ok a) → post a := by
  cases c with
  | done a =>
    cases hreact
    refine ⟨by simp, by simp, ?_⟩
    rintro _ ⟨⟩
    exact h
  | fail fault =>
    cases hreact
    exact ⟨by simp, by simp, by simp⟩
  | ask request k =>
    cases hreact
    refine ⟨?_, by simp, by simp⟩
    rintro _ _ ⟨⟩
    exact h.2 _
  | demand d k =>
    cases d with
    | read fiber =>
      rw [react] at hreact
      split at hreact <;> cases hreact
      · refine ⟨?_, by simp, by simp⟩
        rintro _ _ ⟨⟩
        exact h _
      · -- The fiber recomputes, so its action is run in place of the reading.
        refine ⟨by simp, ?_, by simp⟩
        rintro _ _ ⟨⟩
        exact ⟨(hR.act _).bind fun v _ => trivial, h⟩
      · exact ⟨by simp, by simp, by simp⟩
    | interpret yields machine =>
      cases hreact
      refine ⟨by simp, ?_, by simp⟩
      rintro _ _ ⟨⟩
      exact ⟨hR.turn h.1 yields machine, h.2⟩
  | runQueue k => exact h.elim

/-- A confined thread stays confined. -/
theorem Thread.Confined.of_move (hR : R.toInterpreter.Confined L) {thread thread' : Thread S α}
    (h : thread.Confined L) {launch : Launch S}
    (moved : thread.move R pool = (.moved thread' launch, pool')) : thread'.Confined L := by
  cases h with
  | @base c h =>
    cases hreact : c.react R pool with
    | mk reaction pool₁ =>
      obtain ⟨hnext, henter, -⟩ := h.of_react hR hreact
      rw [move, hreact] at moved
      cases reaction with
      | next c' launch =>
        cases moved
        exact .base (hnext c' launch rfl)
      | enter inner k =>
        cases moved
        obtain ⟨hinner, hk⟩ := henter inner k rfl
        exact .nested hinner (by simp) hk
      | ended outcome => cases moved
      | blocked => cases moved
  | @nested c callers outer h hcallers houter =>
    -- Whatever the outcome, whoever waits for it is confined.
    have hanswer (outcome : Except Fault S.Value) : (answer callers outer outcome).Confined L := by
      cases callers with
      | nil => exact .base (houter outcome)
      | cons k rest =>
        refine .nested (hcallers k List.mem_cons_self outcome) (fun k' hk' => ?_) houter
        exact hcallers k' (List.mem_cons_of_mem k hk')
    cases hreact : c.react R pool with
    | mk reaction pool₁ =>
      obtain ⟨hnext, henter, hended⟩ := h.of_react hR hreact
      rw [move, hreact] at moved
      rcases reaction with ⟨c', launch⟩ | ⟨inner, k⟩ | (fault | (v | ⟨yields, machine⟩)) | _
      · cases moved
        exact .nested (hnext c' _ rfl) hcallers houter
      · cases moved
        obtain ⟨hinner, hk⟩ := henter inner k rfl
        refine .nested hinner (fun k' hk' => ?_) houter
        obtain rfl | hk' := List.mem_cons.mp hk'
        · exact hk
        · exact hcallers k' hk'
      · cases moved
        exact hanswer _
      · cases moved
        exact hanswer _
      · cases moved
        exact .nested (hR.turn (hended _ rfl) yields machine) hcallers houter
      · cases moved

end Moves

/-! ## Scenes whose threads keep to permits -/

namespace Scene

/-- The programs of a scene keep to one permit, and the jobs to another. -/
structure Confined (L L' : Permit S) (scene : Scene S W α) : Prop where
  callersConfined : ∀ thread, .running thread ∈ scene.callers → thread.Confined L
  jobsConfined : ∀ job ∈ scene.jobs, job.thread.Confined L'

/-- The jobs that are launched run actions. -/
theorem confined_of_launched {R : Runtime S W} (hR : R.toInterpreter.Confined L)
    {pool pool' : Pool S W} {deeds : List (Deed S)} {launched : List (Job S)}
    (hchange : Pool.Change R pool pool' deeds launched) {job : Job S} (hjob : job ∈ launched) :
    job.thread.Confined L := by
  have hact (fiber : FiberId) (action : S.Action) :
      (Pool.jobOf R.toInterpreter fiber action).thread.Confined L := .base (hR.act action)
  cases hchange with
  | quiet | told | made => simp at hjob
  | passed before passes after queue =>
    cases passes with
    | launched action | begun action =>
      obtain rfl := List.mem_singleton.mp hjob
      exact hact _ action
    | _ => simp at hjob

/-- Confined threads stay confined, whatever happens. -/
theorem Confined.incident {R : Runtime S W} {scene scene' : Scene S W α} {entries : List (Entry S)}
    (hR : R.toInterpreter.Confined L) (hR' : R.toInterpreter.Confined L')
    (h : scene.Confined L L') (incident : Incident R scene entries scene') :
    scene'.Confined L L' := by
  constructor
  · intro thread₁ hmem
    -- A caller was there before, or has moved on; no incident adds one.
    cases incident with
    | @caller pool pool' before after thread thread' launch jobs moved =>
      have hthread : thread.Confined L := h.callersConfined thread (by simp)
      obtain hbefore | heq | hafter : Main.running thread₁ ∈ before ∨
          thread₁ = thread' ∨ Main.running thread₁ ∈ after := by simpa using hmem
      · exact h.callersConfined _ (by simp [hbefore])
      · exact heq ▸ hthread.of_move hR moved
      · exact h.callersConfined _ (by simp [hafter])
    | @callerEnded pool pool' before after thread outcome jobs ended =>
      obtain hbefore | hafter : Main.running thread₁ ∈ before ∨
          Main.running thread₁ ∈ after := by simpa using hmem
      · exact h.callersConfined _ (by simp [hbefore])
      · exact h.callersConfined _ (by simp [hafter])
    | job | jobEnded | jobBegun | drop => exact h.callersConfined thread₁ hmem
  · -- A job was there before, or has moved on, or has just been launched.
    have honto (launch : Launch S) {pool pool' : Pool S W} {jobs : List (Job S)}
        {deeds : List (Deed S)} (hchange : Pool.Change R pool pool' deeds launch.jobs)
        (hjobs : ∀ job ∈ jobs, job.thread.Confined L') :
        ∀ job ∈ launch.onto jobs, job.thread.Confined L' := by
      intro job hjob
      obtain hlaunched | hold := List.mem_append.mp ((launch.onto_perm jobs).mem_iff.mp hjob)
      · exact confined_of_launched hR' hchange hlaunched
      · exact hjobs job hold
    cases incident with
    | caller before after jobs moved => exact honto _ (Thread.change_of_move moved) h.jobsConfined
    | callerEnded before after jobs ended => exact h.jobsConfined
    | @job pool pool' callers before after fiber thread thread' launch moved =>
      refine honto launch (Thread.change_of_move moved) fun job hjob => ?_
      have hthread : thread.Confined L' := h.jobsConfined ⟨fiber, thread⟩ (by simp)
      obtain hbefore | rfl | hafter : job ∈ before ∨ job = ⟨fiber, thread'⟩ ∨ job ∈ after := by
        simpa using hjob
      · exact h.jobsConfined job (by simp [hbefore])
      · exact hthread.of_move hR' moved
      · exact h.jobsConfined job (by simp [hafter])
    | @jobEnded pool pool' callers before after fiber thread outcome ended =>
      intro job hjob
      obtain hbefore | hafter := List.mem_append.mp hjob
      · exact h.jobsConfined job (by simp [hbefore])
      · exact h.jobsConfined job (by simp [hafter])
    | @jobBegun pool pool' callers jobs position job started =>
      exact honto (.ahead job) (Pool.change_startAt started) h.jobsConfined
    | drop => exact h.jobsConfined

end Scene

end FiberPrograms
