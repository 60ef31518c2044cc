import FiberPrograms.Proofs.Interleaving
import FiberPrograms.Proofs.Mirrors
import FiberPrograms.Scalar
import Mathlib.Logic.Relation

/-!
# Independence of schedules

If user code is pure, nobody can tell when a job was run. Whatever the order in which threads
move, a run that ends has the outcome and the events of the run in which every job is run to its
end as soon as it is started.

The two runs are compared move by move. In the other run a started fiber has always ended by the
time the main thread goes on, so its pool is ahead of the pool of the arbitrary run, which mirrors
it. Moves of jobs leave the other run where it is. A move of the main thread is made there too,
followed by all moves of the job that it has started, if any.

## Main definitions

* `Config.Reaches`: what a schedule runs to
* `Runtime.inlined`: the runtime that runs every job at once
* `Scene.MirroredBy`: an arbitrary run beside the one in which jobs are run at once

## Main results

* `Pool.Mirrors.react`: what a computation does, it does in the other run too
* `Scene.MirroredBy.move`, `Scene.MirroredBy.trail`: the other run keeps up
* `Scene.schedule_independence`: a run that ends does so as the other run does
-/

namespace FiberPrograms

variable {S : Signature} {W α : Type} {H : Holdings S}

/-! ## What a schedule runs to -/

namespace Config

/-- The schedule makes one move while the main thread is running. -/
def Next (R : Runtime S W) (config config' : Config S W α) : Prop :=
  (∃ thread, config.main = .running thread) ∧ config.tick R = (true, config')

/-- The schedule gets from one configuration to another. -/
def Reaches (R : Runtime S W) : Config S W α → Config S W α → Prop :=
  Relation.ReflTransGen (Next R)

variable {R : Runtime S W} {pool pool' : Pool S W} {config config' : Config S W α}

/-- Whatever the schedule gets to, it gets to with enough fuel. -/
theorem exists_run_of_reaches (h : config.Reaches R config') :
    ∃ fuel, config.run R fuel = config' := by
  induction h using Relation.ReflTransGen.head_induction_on with
  | refl => exact ⟨0, rfl⟩
  | head hnext _ ih =>
    obtain ⟨⟨thread, hmain⟩, htick⟩ := hnext
    obtain ⟨fuel, hrun⟩ := ih
    refine ⟨fuel + 1, ?_⟩
    rw [run, hmain, htick]
    exact hrun

/-- The main thread moves if there are no jobs. -/
theorem next_of_moved {thread thread' : Thread S α} {launch : Launch S}
    (hmove : thread.move R pool = (.moved thread' launch, pool')) :
    Next R ⟨pool, .running thread, [], []⟩
      ((Config.mk pool' (.running thread') [] []).launch launch) := by
  refine ⟨⟨thread, rfl⟩, ?_⟩
  simp only [tick, moveJobs, hmove]

theorem reaches_of_moved {thread thread' : Thread S α}
    (hmove : thread.move R pool = (.moved thread' .none, pool')) :
    Reaches R ⟨pool, .running thread, [], []⟩ ⟨pool', .running thread', [], []⟩ :=
  .single (next_of_moved hmove)

theorem next_of_ended {thread : Thread S α} {outcome : Except Fault α}
    (hmove : thread.move R pool = (.ended outcome, pool')) :
    Next R ⟨pool, .running thread, [], []⟩ ⟨pool', .ended outcome, [], []⟩ := by
  refine ⟨⟨thread, rfl⟩, ?_⟩
  simp only [tick, moveJobs, hmove]

/-- A job that goes before the main thread, and reads no fibers but such as have ended, is run to
its end before anything else. -/
theorem reaches_of_settles {c : Comp S S.Value} {outcome : Except Fault S.Value}
    (hc : c.Settles pool outcome) (fiber : FiberId) (thread : Thread S α) :
    Reaches R ⟨pool, .running thread, [⟨fiber, .base c⟩], []⟩
      ⟨pool.finish R.level fiber outcome, .running thread, [], []⟩ := by
  induction hc with
  | done a => exact .single ⟨⟨thread, rfl⟩, rfl⟩
  | fail fault => exact .single ⟨⟨thread, rfl⟩, rfl⟩
  | @read other ending k outcome ended rest ih =>
    -- The job need not wait, so nothing else gets its turn.
    refine .head ⟨⟨thread, rfl⟩, ?_⟩ ih
    simp only [tick, moveJobs, Thread.move, Comp.react, ended, launch]

end Config

/-- The same runtime, but every job is run at once, ahead of everything else. -/
def Runtime.inlined (R : Runtime S W) : Runtime S W :=
  { R with spawner := .inline }

/-- Where jobs are run at once, a job that is started has ended before the main thread goes on. -/
theorem Pool.exists_finished_of_start {R : Runtime S W} {pool : Pool S W} {fiber : FiberId}
    {action : S.Action} {outcome : Except Fault S.Value} (hnamed : pool.get? fiber = some .named)
    (hsettles : (R.act action).Settles pool outcome) :
    ∃ pool' : Pool S W,
      (∀ thread : Thread S S.Value,
        Config.Reaches R.inlined
          ((Config.mk (pool.start R.inlined fiber action).2 (.running thread) [] []).launch
            (pool.start R.inlined fiber action).1)
          ⟨pool', .running thread, [], []⟩) ∧
      pool'.fibers = (pool.set fiber (.ended (.ofOutcome outcome))).fibers ∧
      pool'.Agrees pool := by
  let running := (pool.log R.level (.starting fiber)).set fiber .running
  have hstart : pool.start R.inlined fiber action =
      (.ahead (jobOf R.toInterpreter fiber action), running) := by
    rw [start, hnamed]
    rfl
  have hrunning : running.get? fiber = some .running := by
    rw [get?_set, if_pos rfl, get?_log, hnamed]
    rfl
  have hkeeps : pool.Keeps running := by
    intro other ending hended
    rw [get?_set, get?_log, get?_log, if_neg]
    · exact hended
    · rintro rfl
      cases hnamed.symm.trans hended
  refine ⟨running.finish R.level fiber outcome, fun thread => ?_, ?_, ?_⟩
  · rw [hstart]
    exact Config.reaches_of_settles (hsettles.mono hkeeps) fiber thread
  · rw [fibers_finish hrunning]
    simp [running, set]
  · exact (agrees_of_finish ..).trans (agrees_of_set_log ..)

/-! ## Moves in the mirror -/

/-- A move of a computation that is made in the other run too. If a job is started with it, the
other run goes on until the job has ended. -/
inductive Comp.KeepsUp (H : Holdings S) (R : Runtime S W) {β : Type}
    (post : Set FiberId → β → Prop) (pool : Pool S W) (jobs : List (Job S)) (inline : Pool S W)
    (c : Comp S β) : Prop
  | moves {c' : Comp S β} {launch launch' : Launch S} {pool' between inline' : Pool S W}
      (moved : c.react R pool = (.next c' launch, pool'))
      (followed : c.react R.inlined inline = (.next c' launch', between))
      (reaches : ∀ thread : Thread S S.Value,
        Config.Reaches R.inlined ((Config.mk between (.running thread) [] []).launch launch')
          ⟨inline', .running thread, [], []⟩)
      (mirrors : pool'.Mirrors H R.toInterpreter (launch.onto jobs) inline')
      (tame : c'.Tame H post inline'.ended inline'.startable) : KeepsUp H R post pool jobs inline c

namespace Pool.Mirrors

variable {R : Runtime S W} {pool pool' inline inline' : Pool S W} {jobs jobs' : List (Job S)}
  {fiber : FiberId} {position : Nat} {outcome : Except Fault S.Value}

/-- A job waits, goes on, or ends with the outcome that is known. -/
theorem job_react (h : pool.Mirrors H R.toInterpreter jobs inline) {c : Comp S S.Value}
    (hc : c.Settles inline outcome) :
    c.react R pool = (.blocked, pool) ∨ c.react R pool = (.ended outcome, pool) ∨
      ∃ c', c.react R pool = (.next c' .none, pool) ∧ c'.Settles inline outcome := by
  cases hc with
  | done a => exact .inr (.inl rfl)
  | fail fault => exact .inr (.inl rfl)
  | @read fiber ending k outcome ended rest =>
    have hstage := h.stages fiber
    rw [ended] at hstage
    rw [Comp.react]
    generalize pool.get? fiber = stage at hstage ⊢
    cases hstage with
    | waiting settles => exact .inl rfl
    | running ending => exact .inl rfl
    | ended ending => exact .inr (.inr ⟨_, rfl, rest⟩)

/-- A job begins. -/
theorem begin (h : pool.Mirrors H R.toInterpreter jobs inline) {job : Job S}
    (hstart : pool.startAt? R.toInterpreter position = some (job, pool')) :
    pool'.Mirrors H R.toInterpreter (job :: jobs) inline := by
  unfold startAt? at hstart
  split at hstart
  · cases hstart
  · rename_i fiber hqueue
    dsimp only at hstart
    split at hstart
    · rename_i action hwaiting
      cases hstart
      have hstage := h.stages fiber
      rw [show pool.get? fiber = some (.waiting action) from hwaiting] at hstage
      generalize hknown : inline.get? fiber = known at hstage
      cases hstage with
      | @waiting _ outcome settles =>
        -- The action that waits is the one that settles on the known outcome.
        have hjob : (jobOf R.toInterpreter fiber action).Mirrors inline :=
          ⟨R.act action, outcome, rfl, settles, hknown⟩
        refine h.goOn rfl ⟨rfl, rfl, rfl⟩ (hknown ▸ .running _) fun job hjob' => ?_
        obtain rfl | hjob' := List.mem_cons.mp hjob'
        · exact hjob
        · exact h.jobs job hjob'
    · cases hstart

/-- A job ends. -/
theorem finish (h : pool.Mirrors H R.toInterpreter jobs inline)
    (hended : inline.get? fiber = some (.ended (.ofOutcome outcome))) (level : Option Level) :
    (pool.finish level fiber outcome).Mirrors H R.toInterpreter jobs inline := by
  have hstage := h.stages fiber
  rw [hended] at hstage
  generalize hget : pool.get? fiber = stage at hstage
  cases stage with
  | none => cases hstage
  | some stage =>
    refine h.goOn (fibers_finish hget) (agrees_of_finish ..) ?_ h.jobs
    rw [hended]
    exact .ended _

/-- A job is started, and its ending is known from then on. -/
theorem start_of_named (h : pool.Mirrors H R.toInterpreter jobs inline)
    (hspawner : R.spawner ≠ .discarding) {action : S.Action}
    (hnamed : inline.get? fiber = some .named)
    (hinline : inline'.fibers = (inline.set fiber (.ended (.ofOutcome outcome))).fibers)
    (hagrees : inline'.Agrees inline) (hsettles : (R.act action).Settles inline outcome)
    (hheld : ∀ v, outcome = .ok v → v.Within H inline.ended) :
    (pool.start R fiber action).2.Mirrors H R.toInterpreter
      ((pool.start R fiber action).1.onto jobs) inline' := by
  have hafter : (R.act action).Settles inline' outcome :=
    hsettles.mono (keeps_of_endOne hnamed hinline)
  have hjob : (jobOf R.toInterpreter fiber action).Mirrors inline' := by
    refine ⟨R.act action, outcome, rfl, hafter, ?_⟩
    rw [jobOf, get?_of_endOne hnamed hinline, if_pos rfl]
  have hvalue (v : S.Value) (hv : Ending.ofOutcome outcome = .value v) :
      v.Within H inline.ended := by
    cases outcome with
    | ok v' =>
      cases hv
      exact hheld v rfl
    | error fault => cases hv
  have hreported (stage : Fiber S) :
      ((pool.log R.level (.starting fiber)).set fiber stage).Agrees inline' :=
    (agrees_of_set_log ..).trans (h.agrees.trans hagrees.symm)
  -- Whichever way the spawner treats the job, the fiber is on its way to its ending.
  rw [Pool.start, h.get?_of_named hnamed]
  cases hspawner' : R.spawner with
  | inline =>
    refine h.learn hnamed (by simp [set]) hinline (hreported _) (.running _) hvalue
      fun job hmem => ?_
    obtain rfl | hmem := List.mem_cons.mp hmem
    · exact .inr hjob
    · exact .inl hmem
  | background =>
    refine h.learn hnamed (by simp [set]) hinline (hreported _) (.running _) hvalue
      fun job hmem => ?_
    obtain hmem | hmem := List.mem_append.mp hmem
    · exact .inl hmem
    · obtain rfl := List.mem_singleton.mp hmem
      exact .inr hjob
  | queued =>
    have hqueued := hreported (.waiting action)
    exact h.learn hnamed (by simp [set]) hinline
      ⟨hqueued.events, hqueued.sighted, hqueued.world⟩ (.waiting hafter) hvalue
      fun job hmem => .inl hmem
  | discarding => exact absurd hspawner' hspawner

/-- A job is started, in the other run too, where it is run to its end at once. -/
theorem start (h : pool.Mirrors H R.toInterpreter jobs inline) (hpure : R.toMeaning.Pure H)
    (hspawner : R.spawner ≠ .discarding) {action : S.Action} (hfiber : fiber ∈ inline.startable)
    (haction : H.action action ⊆ inline.ended) :
    ∃ inline',
      (∀ thread : Thread S S.Value,
        Config.Reaches R.inlined
          ((Config.mk (inline.start R.inlined fiber action).2 (.running thread) [] []).launch
            (inline.start R.inlined fiber action).1)
          ⟨inline', .running thread, [], []⟩) ∧
      (pool.start R fiber action).2.Mirrors H R.toInterpreter
        ((pool.start R fiber action).1.onto jobs) inline' ∧
      inline'.ended = insert fiber inline.ended ∧ inline'.startable = inline.startable := by
  rcases hfiber with hnamed | ⟨ending, hended⟩
  · obtain ⟨outcome, hsettles, hheld⟩ := (hpure.act haction).exists_settles h.closed
    obtain ⟨inline', hreaches, hinline, hagrees⟩ := exists_finished_of_start hnamed hsettles
    exact ⟨inline', hreaches, h.start_of_named hspawner hnamed hinline hagrees hsettles hheld,
      ended_of_endOne hnamed hinline, startable_of_endOne hnamed hinline⟩
  · -- What has been started already is not started again.
    have hinline : inline.get? fiber ≠ some .named := by
      rw [hended]
      simp
    have hpool : pool.get? fiber ≠ some .named := by
      intro hnamed
      have hstage := h.stages fiber
      rw [hnamed, hended] at hstage
      cases hstage
    rw [start_of_ne_named hinline, start_of_ne_named hpool]
    refine ⟨inline, fun thread => .refl, h, ?_, rfl⟩
    exact (Set.insert_eq_of_mem (show fiber ∈ inline.ended from ⟨ending, hended⟩)).symm

/-- A report is made in the other run too. -/
theorem keepsUp_of_report (h : pool.Mirrors H R.toInterpreter jobs inline) {β : Type}
    {post : Set FiberId → β → Prop} {c c' : Comp S β} (pool' inline' : Pool S W)
    (hreact : c.react R pool = (.next c' .none, pool'))
    (hreact' : c.react R.inlined inline = (.next c' .none, inline'))
    (hpool : pool'.fibers = pool.fibers) (hinline : inline'.fibers = inline.fibers)
    (hagrees : pool'.Agrees inline') (hc : c'.Tame H post inline.ended inline.startable) :
    c.KeepsUp H R post pool jobs inline := by
  refine .moves hreact hreact' (fun thread => .refl) (h.report hpool hinline hagrees) ?_
  rwa [ended_congr hinline, startable_congr hinline]

/-- A fiber is made in the other run too, and gets the same name there. -/
theorem keepsUp_of_newFiber (h : pool.Mirrors H R.toInterpreter jobs inline) {β : Type}
    {post : Set FiberId → β → Prop} {k : FiberId → Comp S β}
    (hc : (Comp.ask .newFiber k).Tame H post inline.ended inline.startable) :
    (Comp.ask .newFiber k).KeepsUp H R post pool jobs inline := by
  let pool' : Pool S W := { pool with fibers := pool.fibers.push .named }
  let inline' : Pool S W := { inline with fibers := inline.fibers.push .named }
  have hmirrors : pool'.Mirrors H R.toInterpreter jobs inline' :=
    h.newFiber rfl rfl ⟨h.agrees.events, h.agrees.sighted, h.agrees.world⟩
  have hreact : (Comp.ask .newFiber k).react R.inlined inline =
      (.next (k ⟨pool.fibers.size⟩) .none, inline') := by
    rw [h.size]
    rfl
  have htame : (k ⟨pool.fibers.size⟩).Tame H post inline'.ended inline'.startable := by
    rw [ended_of_push rfl, startable_of_push rfl, ← h.size]
    exact hc _
  exact .moves rfl hreact (fun thread => .refl) hmirrors htame

/-- A reader waits as long as the fiber has ended in the other run only. Then it is told the same in
both runs, and goes on alike. -/
theorem react_read (h : pool.Mirrors H R.toInterpreter jobs inline) {β : Type}
    {post : Set FiberId → β → Prop} {fiber : FiberId} {k : Except Fault S.Value → Comp S β}
    {ending : Ending S} (hended : inline.get? fiber = some (.ended ending))
    (hc : (k (ending.read fiber)).Tame H post inline.ended inline.startable) :
    (Comp.demand (.read fiber) k).react R pool = (.blocked, pool) ∨
      (Comp.demand (.read fiber) k).KeepsUp H R post pool jobs inline := by
  have hstage := h.stages fiber
  rw [hended] at hstage
  by_cases hready : pool.get? fiber = some (.ended ending)
  · refine .inr (h.keepsUp_of_report pool inline ?_ ?_ rfl rfl h.agrees hc)
    · rw [Comp.react, hready]
    · rw [Comp.react, hended]
  · left
    rw [Comp.react]
    generalize pool.get? fiber = stage at hstage hready ⊢
    cases hstage with
    | waiting settles => rfl
    | running ending => rfl
    | ended ending => exact absurd rfl hready

/-- A tame computation waits, or is over, or makes a move that is made in the other run too. -/
theorem react (h : pool.Mirrors H R.toInterpreter jobs inline) (hpure : R.toMeaning.Pure H)
    (hspawner : R.spawner ≠ .discarding) {β : Type} {post : Set FiberId → β → Prop}
    {c : Comp S β} (hc : c.Tame H post inline.ended inline.startable) :
    c.react R pool = (.blocked, pool) ∨
      (∃ outcome, c = .ofExcept outcome ∧ ∀ a, outcome = .ok a → post inline.ended a) ∨
      c.KeepsUp H R post pool jobs inline := by
  have hagrees := h.agrees
  cases c with
  | done a =>
    refine .inr (.inl ⟨.ok a, rfl, ?_⟩)
    rintro _ ⟨⟩
    exact hc
  | fail fault => exact .inr (.inl ⟨.error fault, rfl, fun a ha => by cases ha⟩)
  | ask request k =>
    right; right
    cases request with
    | newFiber => exact h.keepsUp_of_newFiber hc
    | start fiber action =>
      -- In the other run the job is run to its end at once, whatever the spawner does with it here.
      obtain ⟨hfiber, haction, hc⟩ := hc
      obtain ⟨inline', hreaches, hmirrors, hended, hstartable⟩ :=
        h.start hpure hspawner hfiber haction
      refine .moves rfl rfl hreaches hmirrors ?_
      rwa [hended, hstartable]
    | note event =>
      exact h.keepsUp_of_report { pool with events := pool.events.push event }
        { inline with events := inline.events.push event } rfl rfl rfl rfl
        ⟨by rw [hagrees.events], hagrees.sighted, hagrees.world⟩ hc
    | sight fiber =>
      exact h.keepsUp_of_report { pool with sighted := pool.sighted.push fiber }
        { inline with sighted := inline.sighted.push fiber } rfl rfl rfl rfl
        ⟨hagrees.events, by rw [hagrees.sighted], hagrees.world⟩ hc
    | log record =>
      refine h.keepsUp_of_report (pool.log R.level record) (inline.log R.level record) rfl rfl
        (fibers_log ..) (fibers_log ..) ?_ hc
      exact (agrees_of_log ..).trans (hagrees.trans (agrees_of_log ..).symm)
    | perform e =>
      have hworld := hagrees.world
      refine h.keepsUp_of_report { pool with world := (R.effect e pool.world).2 }
        { inline with world := (R.effect e inline.world).2 } rfl ?_ rfl rfl
        ⟨hagrees.events, hagrees.sighted, by rw [hworld]⟩ (hc _)
      rw [hworld]
      rfl
    -- No tame computation asks for anything else.
    | _ => exact hc.elim
  | demand d k =>
    cases d with
    | read fiber =>
      -- The fiber has ended in the other run; in this one it may be that the reader has to wait.
      obtain ⟨⟨ending, hended⟩, hc⟩ := hc
      exact (h.react_read hended (hc _ (h.closed.read hended))).imp_right .inr
    | interpret yields machine => exact hc.elim
  | runQueue k => exact hc.elim

end Pool.Mirrors

/-! ## The main thread -/

/-- The stages of a main thread that interprets a program, where the fibers in `P` have been
started and those in `N` have been made. -/
inductive Main.Tame (H : Holdings S) (P N : Set FiberId) : Main S S.Value → Prop
  | before {yields : Ty S.Base} {machine : S.Machine} (machineWithin : machine.Within H P) :
      Tame H P N (.running (.base (.demand (.interpret yields machine) .ofExcept)))
  | amid {c : Comp S (Turn S)} (tame : c.Tame H (fun P' turn => turn.Within H P') P N) :
      Tame H P N (.running (.nested c [] .ofExcept))
  | after (outcome : Except Fault S.Value) : Tame H P N (.running (.base (.ofExcept outcome)))
  | over (outcome : Except Fault S.Value) : Tame H P N (.ended outcome)

namespace Scene

/-- An arbitrary run of a program beside the run in which every job is run at once. -/
structure MirroredBy (H : Holdings S) (R : Runtime S W) (scene : Scene S W S.Value)
    (config : Config S W S.Value) : Prop where
  callers : scene.callers = [config.main]
  ahead : config.ahead = []
  behind : config.behind = []
  mirrors : scene.pool.Mirrors H R.toInterpreter scene.jobs config.pool
  main : config.main.Tame H config.pool.ended config.pool.startable

variable {R : Runtime S W} {pool pool' inline : Pool S W} {jobs : List (Job S)}

section KeepUp

variable (hpure : R.toMeaning.Pure H) (hreports : ∀ event, (R.observer event).Reports)
  (hspawner : R.spawner ≠ .discarding)

include hpure hreports hspawner in
/-- A move of the main thread is made in the other run too. -/
theorem exists_reaches_of_moved {thread thread' : Thread S S.Value} {launch : Launch S}
    (hmirrors : pool.Mirrors H R.toInterpreter jobs inline)
    (htame : (Main.running thread).Tame H inline.ended inline.startable)
    (hmove : thread.move R pool = (.moved thread' launch, pool')) :
    ∃ inline',
      Config.Reaches R.inlined ⟨inline, .running thread, [], []⟩
        ⟨inline', .running thread', [], []⟩ ∧
      pool'.Mirrors H R.toInterpreter (launch.onto jobs) inline' ∧
      (Main.running thread').Tame H inline'.ended inline'.startable := by
  cases htame with
  | @before yields machine hmachine =>
    cases hmove
    refine ⟨inline, Config.reaches_of_moved rfl, hmirrors, .amid ?_⟩
    exact Interpreter.tame_turn hpure hreports hmachine
  | @amid c hc =>
    rw [Thread.move] at hmove
    rcases hmirrors.react hpure hspawner hc with hblocked | ⟨outcome, rfl, hturn⟩ | hkeeps
    · rw [hblocked] at hmove
      cases hmove
    · -- A turn is over: the machine is stepped again, or the run comes to an end.
      match outcome with
      | .ok (.value v) =>
        cases hmove
        exact ⟨inline, Config.reaches_of_moved rfl, hmirrors, .after (.ok v)⟩
      | .ok (.again yields machine) =>
        cases hmove
        refine ⟨inline, Config.reaches_of_moved rfl, hmirrors, .amid ?_⟩
        exact Interpreter.tame_turn hpure hreports (hturn _ rfl)
      | .error fault =>
        cases hmove
        exact ⟨inline, Config.reaches_of_moved rfl, hmirrors, .after (.error fault)⟩
    · obtain ⟨moved, followed, reaches, mirrors, tame⟩ := hkeeps
      rw [moved] at hmove
      cases hmove
      refine ⟨_, .head (Config.next_of_moved ?_) (reaches _), mirrors, .amid tame⟩
      rw [Thread.move, followed]
  | after outcome =>
    cases outcome <;> cases hmove

include hpure hspawner in
/-- The main thread ends, as it does in the other run. -/
theorem of_ended {thread : Thread S S.Value} {outcome : Except Fault S.Value}
    (hmirrors : pool.Mirrors H R.toInterpreter jobs inline)
    (htame : (Main.running thread).Tame H inline.ended inline.startable)
    (hmove : thread.move R pool = (.ended outcome, pool')) :
    pool' = pool ∧ thread.move R.inlined inline = (.ended outcome, inline) := by
  cases htame with
  | before hmachine => cases hmove
  | @amid c hc =>
    rw [Thread.move] at hmove
    -- A turn that is over makes one more move, in which the thread is found to be over.
    rcases hmirrors.react hpure hspawner hc with hblocked | ⟨outcome', rfl, hturn⟩ | hkeeps
    · rw [hblocked] at hmove
      cases hmove
    · match outcome' with
      | .ok (.value v) => cases hmove
      | .ok (.again yields machine) => cases hmove
      | .error fault => cases hmove
    · obtain ⟨moved, -, -, -, -⟩ := hkeeps
      rw [moved] at hmove
      cases hmove
  | after outcome' =>
    cases outcome' with
    | ok v =>
      cases hmove
      exact ⟨rfl, rfl⟩
    | error fault =>
      cases hmove
      exact ⟨rfl, rfl⟩

/-! ## The other run keeps up -/

variable {scene scene' : Scene S W S.Value} {config : Config S W S.Value} {deeds : List (Deed S)}

include hpure hreports hspawner in
/-- Whatever move is made, the other run can be brought to where it stands beside it. -/
theorem MirroredBy.move (h : scene.MirroredBy H R config) (hmove : Move R scene deeds scene') :
    ∃ config', config.Reaches R.inlined config' ∧ scene'.MirroredBy H R config' := by
  obtain ⟨inline, main, ahead, behind⟩ := config
  obtain ⟨hcallers, rfl, rfl, hmirrors, htame⟩ := h
  -- The main thread is the only caller.
  have honly {before after : List (Main S S.Value)} {caller : Main S S.Value}
      (hlist : before ++ caller :: after = [main]) : before = [] ∧ caller = main ∧ after = [] := by
    simpa [List.append_eq_singleton_iff] using hlist
  cases hmove with
  | caller before after jobs moved =>
    obtain ⟨rfl, rfl, rfl⟩ := honly hcallers
    obtain ⟨inline', hreaches, hmirrors', htame'⟩ :=
      exists_reaches_of_moved hpure hreports hspawner hmirrors htame moved
    exact ⟨_, hreaches, rfl, rfl, rfl, hmirrors', htame'⟩
  | callerEnded before after jobs ended =>
    obtain ⟨rfl, rfl, rfl⟩ := honly hcallers
    obtain ⟨rfl, hended⟩ := of_ended hpure hspawner hmirrors htame ended
    exact ⟨_, .single (Config.next_of_ended hended), rfl, rfl, rfl, hmirrors, .over _⟩
  | @job pool pool' callers before after fiber thread thread' launch moved =>
    obtain ⟨c, outcome, rfl, hsettles, hknown⟩ := hmirrors.jobs ⟨fiber, thread⟩ (by simp)
    rw [Thread.move] at moved
    rcases hmirrors.job_react hsettles with hblocked | hended | ⟨c', hnext, hsettles'⟩
    · rw [hblocked] at moved
      cases moved
    · rw [hended] at moved
      cases moved
    · -- In the other run the job has ended long since.
      rw [hnext] at moved
      cases moved
      refine ⟨_, .refl, hcallers, rfl, rfl, hmirrors.withJobs fun job hjob => ?_, htame⟩
      obtain hjob | rfl | hjob := by simpa [Launch.onto] using hjob
      · exact hmirrors.jobs job (by simp [hjob])
      · exact ⟨c', outcome, rfl, hsettles', hknown⟩
      · exact hmirrors.jobs job (by simp [hjob])
  | @jobEnded pool pool' callers before after fiber thread outcome ended =>
    obtain ⟨c, outcome', rfl, hsettles, hknown⟩ := hmirrors.jobs ⟨fiber, thread⟩ (by simp)
    rw [Thread.move] at ended
    rcases hmirrors.job_react hsettles with hblocked | hended | ⟨c', hnext, hsettles'⟩
    · rw [hblocked] at ended
      cases ended
    · rw [hended] at ended
      cases ended
      -- The job comes to the outcome that it has had in the other run.
      have hmirrors' := hmirrors.finish hknown R.level
      refine ⟨_, .refl, hcallers, rfl, rfl, hmirrors'.withJobs fun job hjob => ?_, htame⟩
      obtain hjob | hjob := List.mem_append.mp hjob
      · exact hmirrors'.jobs job (by simp [hjob])
      · exact hmirrors'.jobs job (by simp [hjob])
    · rw [hnext] at ended
      cases ended
  | jobBegun callers jobs started =>
    exact ⟨_, .refl, hcallers, rfl, rfl, hmirrors.begin started, htame⟩

include hpure hreports hspawner in
/-- However long a run goes on, the other run can be brought to where it stands beside it. -/
theorem MirroredBy.trail (h : scene.MirroredBy H R config)
    (htrail : Trail (Move R) scene deeds scene') :
    ∃ config', config.Reaches R.inlined config' ∧ scene'.MirroredBy H R config' := by
  induction htrail with
  | refl => exact ⟨config, .refl, h⟩
  | tail _ last ih =>
    obtain ⟨config₁, hreaches, h₁⟩ := ih
    obtain ⟨config', hmore, h'⟩ := h₁.move hpure hreports hspawner last
    exact ⟨config', hreaches.trans hmore, h'⟩

end KeepUp

end Scene

/-- A pool in which no job waits or is under way, and in which what has ended holds only what has
ended. -/
structure Pool.Idle (H : Holdings S) (pool : Pool S W) : Prop where
  not_waiting : ∀ fiber action, pool.get? fiber ≠ some (.waiting action)
  not_running : ∀ fiber, pool.get? fiber ≠ some .running
  closed : pool.Closed H

theorem Pool.idle_empty (world : W) : (Pool.empty world : Pool S W).Idle H where
  not_waiting fiber action := by simp [get?, empty]
  not_running fiber := by simp [get?, empty]
  closed fiber v hv := by simp [get?, empty] at hv

/-- A pool without jobs mirrors itself. -/
theorem Pool.Idle.mirrors {pool : Pool S W} (h : pool.Idle H) (I : Interpreter S) :
    pool.Mirrors H I [] pool := by
  refine ⟨⟨rfl, rfl, rfl⟩, rfl, fun fiber => ?_, by simp, h.closed⟩
  cases hstage : pool.get? fiber with
  | none => exact .unmade
  | some stage =>
    cases stage with
    | named => exact .named
    | recomputing action => exact .recomputing action
    | waiting action => exact absurd hstage (h.not_waiting fiber action)
    | running => exact absurd hstage (h.not_running fiber)
    | ended ending => exact .ended ending

namespace Scene

/-- Schedules make no difference. Take a program that holds fibers that have ended, if any, whose
continuations and actions are pure, and a spawner that runs its jobs. If its run ends, in whatever
order threads move and jobs begin, then the run in which every job is run at once ends too, with
the same outcome and the same events. Fibers are called the same, so that faults read the same. -/
theorem schedule_independence {R : Runtime S W} {pool : Pool S W} {yields : Ty S.Base}
    {program : S.Program} (hpure : R.toMeaning.Pure H)
    (hreports : ∀ event, (R.observer event).Reports) (hspawner : R.spawner ≠ .discarding)
    (hpool : pool.Idle H) (hprogram : program.Within H pool.ended)
    {scene : Scene S W S.Value} {deeds : List (Deed S)} {outcome : Except Fault S.Value}
    (htrail : Trail (Move R) ⟨pool, [.running (.base (.interpret yields program))], []⟩ deeds scene)
    (hended : scene.callers = [.ended outcome]) :
    ∃ fuel inline,
      (Config.start pool (.interpret yields program)).run R.inlined fuel =
        ⟨inline, .ended outcome, [], []⟩ ∧
      inline.events = scene.pool.events ∧ inline.nameOf = scene.pool.nameOf ∧
      inline.world = scene.pool.world := by
  have hstart : MirroredBy H R ⟨pool, [.running (.base (.interpret yields program))], []⟩
      (Config.start pool (.interpret yields program)) := by
    refine ⟨rfl, rfl, rfl, hpool.mirrors R.toInterpreter, .before ⟨?_, ?_⟩⟩
    · rintro _ ⟨⟩
      exact hprogram
    · rintro next ⟨⟩
  obtain ⟨⟨inline, main, ahead, behind⟩, hreaches, hmirrored⟩ :=
    hstart.trail hpure hreports hspawner htrail
  obtain ⟨hcallers, rfl, rfl, hmirrors, -⟩ := hmirrored
  obtain rfl : main = .ended outcome := by simpa [hended] using hcallers.symm
  obtain ⟨fuel, hrun⟩ := Config.exists_run_of_reaches hreaches
  have hagrees := hmirrors.agrees.symm
  exact ⟨fuel, inline, hrun, hagrees.events, hagrees.nameOf_eq, hagrees.world⟩

/-- The code of continuations: to start an action with the fiber at hand, or to wait for it. -/
inductive RelayCode where
  | pass
  | wait

/-- An action of its own, and one that hands on what another yields. -/
inductive RelayAction where
  | seven
  | after (fiber : FiberId)

/-- Numbers that are handed on from fiber to fiber. -/
def relay : Signature where
  Base := Scalar
  Code := RelayCode
  Action := RelayAction
  Effect := Empty
  Reply := Empty.elim

/-- Only the second action has captured a fiber. -/
def relay.holdings : Holdings relay where
  base _ _ := ∅
  code _ := ∅
  action
    | .seven => ∅
    | .after fiber => {fiber}

/-- The type of what is handed on. -/
abbrev relay.number : Ty relay.Base := .ground Scalar.int64

/-- What a continuation makes of the fiber at hand. -/
def RelayCode.apply (code : RelayCode) (fiber : FiberId) : relay.Program :=
  match code with
  | pass =>
    Program.bind (.fiber relay.number) (.instr (.forkAt .here relay.number (.after fiber))) wait
  | wait => .instr (.await fiber)

/-- Jobs run beside whoever starts them. -/
def relays : Runtime relay Unit where
  build code v := .ofExcept ((v.cast (.fiber relay.number)).map code.apply)
  compute _ v := .done v
  act
    | .seven => .done (.of relay.number (7 : Int64))
    | .after fiber => .read fiber
  observer := .recording
  spawner := .background
  newestFirst := false
  level := none
  effect e := e.elim

/-- A fiber is started, then another that reads it, and the second is waited for. -/
def relay.program : relay.Program :=
  Program.bind (.fiber number) (.instr (.forkAt .here number .seven)) .pass

/-- Neither continuations nor actions do more than read what they hold. -/
theorem relays_pure : relays.toMeaning.Pure relay.holdings where
  build {P code v} _ hv := by
    change (Comp.ofExcept ((v.cast (.fiber relay.number)).map code.apply)).PureWithin _ _ _
    cases hcast : v.cast (.fiber relay.number) with
    | error fault => trivial
    | ok fiber =>
      have hfiber : fiber ∈ P := hv.of_cast hcast rfl
      cases code with
      | pass =>
        refine .andThen (.instr ?_) (.bind (Set.empty_subset P))
        exact Set.singleton_subset_iff.mpr hfiber
      | wait => exact .instr hfiber
  compute _ hv := hv
  act {P action} haction := by
    cases action with
    | seven => exact Set.empty_subset P
    | after fiber =>
      refine ⟨haction rfl, fun outcome houtcome => ?_⟩
      cases outcome with
      | ok v => exact houtcome v rfl
      | error fault => trivial

/-- Both jobs begin only when the main thread waits for the second, and still the run ends as it
does where each job is run at once. -/
theorem schedule_independence_relays :
    ∃ (scene : Scene relay Unit relay.Value) (deeds : List (Deed relay)) (fuel : Nat)
      (inline : Pool relay Unit),
      Trail (Move relays)
        ⟨.empty (), [.running (.base (.interpret relay.number relay.program))], []⟩ deeds scene ∧
      scene.callers = [.ended (.ok (.of relay.number (7 : Int64)))] ∧
      (Config.start (.empty ()) (.interpret relay.number relay.program)).run relays.inlined fuel =
        ⟨inline, .ended (.ok (.of relay.number (7 : Int64))), [], []⟩ ∧
      inline.events = scene.pool.events := by
  obtain ⟨deeds, htrail⟩ := Config.trail_run relays 60
    (Config.start (.empty ()) (.interpret relay.number relay.program))
  have hprogram : relay.program.Within relay.holdings (Pool.empty () : Pool relay Unit).ended :=
    .andThen (.instr (Set.empty_subset _)) (.bind (Set.empty_subset _))
  obtain ⟨fuel, inline, hrun, hevents, -, -⟩ :=
    schedule_independence relays_pure Observer.reports_recording (by decide) (Pool.idle_empty ())
      hprogram htrail rfl
  exact ⟨_, deeds, fuel, inline, htrail, rfl, hrun, hevents⟩

end Scene

end FiberPrograms
