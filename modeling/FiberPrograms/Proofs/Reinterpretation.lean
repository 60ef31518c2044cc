import FiberPrograms.Proofs.LifeCycle
import FiberPrograms.Proofs.RenamedRuns
import FiberPrograms.Proofs.ScheduleIndependence
import FiberPrograms.Session
import Mathlib.Data.Set.BooleanAlgebra
import Mathlib.Order.CompletePartialOrder

/-!
# A program that is interpreted again

A program is a value and can be interpreted any number of times. Where all jobs are run at once and
user code keeps nothing from one run to the next, each run goes like the first: it asks for the same
in the same order, and its outcome, what it puts down and what it makes of its fibers are the same
but for the names of the fibers it has made. No two runs make the same fiber, and whatever was there
before the first of them stays.

A name tells how many fibers have been made before. So code that looked at a name, for more than
whether it is some other, would look at what earlier runs have left.

## Main definitions

* `Repetition`: a program, and how it is interpreted over and over again
* `Session.Ready`: a session in which nothing is under way
* `Report.Renamed`, `Repetition.RunsAgain`: a run that goes like another, but for names

## Main results

* `Config.get?_run_of_isReady`: a run leaves those fibers as they are that had ended before it
* `Repetition.runs_again`: each interpretation goes like the first
-/

namespace FiberPrograms

variable {S : Signature} {W α : Type} {N : Naming S} {alike : (FiberId → FiberId) → W → W → Prop}

/-! ## Fibers of earlier runs -/

/-- Only the fiber that ends gets to another stage. -/
theorem Pool.get?_finish_of_ne {fiber other : FiberId} (hne : other ≠ fiber) (level : Option Level)
    (outcome : Except Fault S.Value) (pool : Pool S W) :
    (pool.finish level fiber outcome).get? other = pool.get? other := by
  have hfill (ending : Ending S) (pool : Pool S W) :
      (pool.fill fiber ending).get? other = pool.get? other := by
    exact get?_of_set_of_ne rfl hne
  have hrelease (pool : Pool S W) : (pool.release level fiber).get? other = pool.get? other := by
    unfold release
    split
    · rfl
    · rw [get?_log, hfill]
  cases outcome with
  | ok v => rw [finish, hrelease, hfill]
  | error cause => rw [finish, hrelease, hfill, get?_log]

namespace Fiber.Passes

variable {R : Runtime S W} {fiber : FiberId} {stage stage' : Fiber S} {deeds : List (Deed S)}
  {launched : List (Job S)}

theorem fiber_of_launched (h : Passes R fiber stage deeds launched stage') {job : Job S}
    (hjob : job ∈ launched) : job.fiber = fiber := by
  cases h with
  | launched action | begun action =>
    rw [List.mem_singleton.mp hjob]
    rfl
  | _ => cases hjob

end Fiber.Passes

/-- Every fiber that need not be waited for in the pool before is as it was, and no job is at work
on it. -/
structure Scene.Spares (before : Pool S W) (scene : Scene S W α) : Prop where
  kept : ∀ {fiber stage}, before.get? fiber = some stage → stage.isReady →
    scene.pool.get? fiber = some stage
  jobs : ∀ job ∈ scene.jobs, ∀ {stage}, before.get? job.fiber = some stage → ¬ stage.isReady

namespace Scene

variable {R : Runtime S W} {before pool' : Pool S W} {scene scene' : Scene S W α}
  {deeds : List (Deed S)} {launched : List (Job S)}

/-- It is another fiber that passes to its next stage. -/
theorem Spares.change (h : scene.Spares before)
    (hchange : Pool.Change R scene.pool pool' deeds launched) :
    (∀ {fiber stage}, before.get? fiber = some stage → stage.isReady →
      pool'.get? fiber = some stage) ∧
    ∀ job ∈ launched, ∀ {stage}, before.get? job.fiber = some stage → ¬ stage.isReady := by
  refine ⟨fun hstage hready => hchange.get?_of_isReady (h.kept hstage hready) hready,
    fun job hjob stage hstage hready => ?_⟩
  cases hchange with
  | quiet | told | made => cases hjob
  | passed hbefore passes =>
    rw [passes.fiber_of_launched hjob] at hstage
    obtain rfl := Option.some.inj ((h.kept hstage hready).symm.trans hbefore)
    exact passes.not_isReady hready

theorem Spares.move (h : scene.Spares before) (hmove : Move R scene deeds scene') :
    scene'.Spares before := by
  cases hmove with
  | @caller _ _ _ _ _ _ launch jobs moved =>
    obtain ⟨hkept, hlaunched⟩ := h.change (Thread.change_of_move moved)
    refine ⟨hkept, fun job hjob => ?_⟩
    obtain hnew | hold := List.mem_append.mp ((launch.onto_perm jobs).mem_iff.mp hjob)
    · exact hlaunched job hnew
    · exact h.jobs job hold
  | callerEnded before after jobs ended =>
    obtain ⟨hkept, -⟩ := h.change (Thread.change_of_move ended)
    exact ⟨hkept, h.jobs⟩
  | @job _ _ callers before after fiber thread thread' launch moved =>
    obtain ⟨hkept, hlaunched⟩ := h.change (Thread.change_of_move moved)
    refine ⟨hkept, fun job hjob => ?_⟩
    obtain hnew | hold := List.mem_append.mp ((launch.onto_perm _).mem_iff.mp hjob)
    · exact hlaunched job hnew
    · -- The job that moves keeps its fiber.
      obtain ⟨job', hjob', hfiber⟩ : ∃ job' ∈ before ++ ⟨fiber, thread⟩ :: after,
          job'.fiber = job.fiber := by
        obtain hmem | rfl | hmem : job ∈ before ∨ job = ⟨fiber, thread'⟩ ∨ job ∈ after := by
          simpa using hold
        · exact ⟨job, by simp [hmem], rfl⟩
        · exact ⟨⟨fiber, thread⟩, by simp, rfl⟩
        · exact ⟨job, by simp [hmem], rfl⟩
      rw [← hfiber]
      exact h.jobs job' hjob'
  | @jobEnded _ _ callers before after fiber thread outcome ended =>
    obtain ⟨hkept, -⟩ := h.change (Thread.change_of_move ended)
    refine ⟨fun {other} _ hstage hready => ?_, fun job hjob => h.jobs job ?_⟩
    · -- The fiber whose job ends had nothing to be read of it before.
      have hne : other ≠ fiber := by
        rintro rfl
        exact h.jobs ⟨other, thread⟩ (by simp) hstage hready
      rw [Pool.get?_finish_of_ne hne]
      exact hkept hstage hready
    · exact ((List.sublist_cons_self _ after).append_left before).subset hjob
  | @jobBegun _ _ callers jobs _ job started =>
    obtain ⟨hkept, hlaunched⟩ := h.change (Pool.change_startAt started)
    refine ⟨hkept, fun other hother => ?_⟩
    obtain rfl | hold := List.mem_cons.mp hother
    · exact hlaunched other (List.mem_singleton_self other)
    · exact h.jobs other hold

theorem Spares.trail (h : scene.Spares before) (moves : Trail (Move R) scene deeds scene') :
    scene'.Spares before := by
  induction moves with
  | refl => exact h
  | tail _ last ih => exact ih.move last

end Scene

/-- A run leaves every fiber as it is that need not be waited for before it. -/
theorem Config.get?_run_of_isReady (R : Runtime S W) (fuel : Nat) {pool : Pool S W}
    (main : Main S α) {fiber : FiberId} {stage : Fiber S} (hstage : pool.get? fiber = some stage)
    (hready : stage.isReady) :
    (Config.run R fuel ⟨pool, main, [], []⟩).pool.get? fiber = some stage := by
  obtain ⟨deeds, moves⟩ := trail_run R fuel ⟨pool, main, [], []⟩
  have hspares : (Config.mk pool main [] []).scene.Spares pool := ⟨fun h _ => h, nofun⟩
  exact (hspares.trail moves).kept hstage hready

/-! ## Between runs -/

namespace Session

variable {R : Runtime S W} {session later : Session S W}

/-- If no job is under way and none waits, there is nothing left to do after a run. -/
theorem windUp_eq (fuel : Nat) (dropRest : Bool) (hjobs : session.jobs = [])
    (hqueue : session.pool.queue = #[]) : session.windUp R fuel dropRest = session := by
  obtain ⟨pool, jobs⟩ := session
  obtain rfl : jobs = [] := hjobs
  have hsettle : settle R fuel ⟨pool, []⟩ = ⟨pool, []⟩ := by
    cases fuel <;> rfl
  have hdrop : dropQueue R ⟨pool, []⟩ = ⟨pool, []⟩ := by
    obtain ⟨fibers, queue, sighted, events, records, world⟩ := pool
    obtain rfl : queue = #[] := hqueue
    cases hnewest : R.newestFirst <;> simp [dropQueue, hnewest]
  have hrun : runQueue R fuel ⟨pool, []⟩ = ⟨pool, []⟩ := by
    obtain ⟨fibers, queue, sighted, events, records, world⟩ := pool
    obtain rfl : queue = #[] := hqueue
    match fuel with
    | 0 => rfl
    | 1 => rfl
    | fuel + 2 => cases fuel <;> rfl
  cases dropRest with
  | true => rw [windUp, if_pos rfl, hdrop, hsettle]
  | false => rw [windUp, if_neg Bool.false_ne_true, hrun, hsettle]

/-- Where no job is under way, a run ends without any if the schedule does. -/
theorem interpret_eq_iff (hjobs : session.jobs = []) {fuel : Nat} {yields : Ty S.Base}
    {program : S.Program} {outcome : Except Fault S.Value} {pool : Pool S W} :
    session.interpret R fuel yields program = (.outcome outcome, ⟨pool, []⟩) ↔
      Config.run R fuel (.start session.pool (.interpret yields program)) =
        ⟨pool, .ended outcome, [], []⟩ := by
  obtain ⟨pool₀, jobs⟩ := session
  obtain rfl : jobs = [] := hjobs
  rw [interpret, exec, Config.start]
  generalize Config.run R fuel
    ⟨pool₀, .running (.base (.interpret yields program)), [], []⟩ = config
  obtain ⟨pool', main, ahead, behind⟩ := config
  cases main with
  | running thread => simp
  | ended outcome' => simp; tauto

/-- Names are exchanged one by one, and the fibers that there are keep theirs. -/
structure Renames (session : Session S W) (ρ : FiberId → FiberId) : Prop where
  injective : Function.Injective ρ
  fixed : ∀ fiber, (session.pool.get? fiber).isSome → ρ fiber = fiber

/-- Nothing is under way, everything has been reported, and neither fibers nor the world know of
names that there are not. -/
structure Ready (N : Naming S) (alike : (FiberId → FiberId) → W → W → Prop)
    (session : Session S W) : Prop where
  jobs : session.jobs = []
  queue : session.pool.queue = #[]
  events : session.pool.events = #[]
  records : session.pool.records = #[]
  fibers : ∀ {ρ}, session.Renames ρ → ∀ {fiber stage}, session.pool.get? fiber = some stage →
    stage.rename N ρ = stage
  world : ∀ {ρ}, session.Renames ρ → alike ρ session.pool.world session.pool.world

/-- The fibers that have been made from one session to a later one. -/
def made (session later : Session S W) : Set FiberId :=
  {fiber | session.pool.get? fiber = none ∧ (later.pool.get? fiber).isSome}

theorem mem_made {fiber : FiberId} : fiber ∈ session.made later ↔
    session.pool.fibers.size ≤ fiber.index ∧ fiber.index < later.pool.fibers.size := by
  simp [made, Pool.get?]

theorem renames_shift (session : Session S W) (d : Nat) :
    session.Renames (shift session.pool.fibers.size d) where
  injective := shift_injective _ d
  fixed fiber hfiber := shift_of_lt (by simpa [Pool.get?] using hfiber)

/-- A later session in which there is nothing but other names. -/
theorem Ready.renamed (h : session.Ready N alike) {d : Nat}
    (hsize : later.pool.fibers.size = session.pool.fibers.size + d)
    (hkept : ∀ {fiber stage}, session.pool.get? fiber = some stage →
      later.pool.get? fiber = some stage)
    (hqueue : later.pool.queue = #[]) (hevents : later.pool.events = #[])
    (hrecords : later.pool.records = #[])
    (hworld : alike (shift session.pool.fibers.size d) session.pool.world later.pool.world) :
    session.pool.Renamed N alike session.pool.fibers.size d later.pool where
  grown := Nat.le_refl _
  size := hsize
  get? fiber := by
    have hrenames := session.renames_shift d
    cases hstage : session.pool.get? fiber with
    | some stage =>
      rw [hrenames.fixed fiber (by rw [hstage]; rfl), hkept hstage, Option.map_some,
        h.fibers hrenames hstage]
    | none =>
      have hle : session.pool.fibers.size ≤ fiber.index := by simpa [Pool.get?] using hstage
      rw [show shift session.pool.fibers.size d fiber = ⟨fiber.index + d⟩ from shift_of_le hle]
      simpa [Pool.get?, hsize] using hle
  queue := h.queue
  queue' := hqueue
  events := by rw [h.events, hevents, Array.map_empty]
  records := by rw [h.records, hrecords, Array.map_empty]
  world := hworld

end Session

/-! ## Runs over and over again -/

/-- What is reported of a run, and what is reported of it if fibers are called otherwise: whatever
the names, what is written reads alike. -/
structure Report.Renamed (N : Naming S) (alike : (FiberId → FiberId) → W → W → Prop)
    (ρ : FiberId → FiberId) (report report' : Report S.Value W) : Prop where
  course : ∃ outcome, report.course = .outcome outcome ∧
    report'.course = .outcome (N.outcome ρ outcome)
  panic : ∀ {fault}, report.course = .outcome (.error fault) →
    ∃ fault', report'.course = .outcome (.error fault') ∧
      ∀ name, fault'.text? name = fault.text? (name ∘ ρ)
  events : report'.events = report.events.map (Event.rename ρ)
  records : report'.records = report.records.map (Record.rename ρ)
  lines : ∀ name, report'.records.map (Record.fields name) =
    report.records.map (Record.fields (name ∘ ρ))
  world : alike ρ report.world report'.world

/-- A program, and how it is interpreted over and over again. -/
structure Repetition (S : Signature) (W : Type) where
  runtime : Runtime S W
  /-- The largest number of moves of a run. -/
  fuel : Nat
  /-- Whether jobs are dropped that wait in the queue after a run. -/
  dropRest : Bool
  /-- What becomes of the world between runs. -/
  renew : W → W
  yields : Ty S.Base
  program : S.Program

namespace Repetition

variable (L : Repetition S W)

/-- Interpret the program a number of times. -/
def runs (k : Nat) (session : Session S W) : List (Report S.Value W) × Session S W :=
  session.repeatRun L.runtime L.fuel L.dropRest L.renew
    (Session.interpret L.runtime L.fuel L.yields L.program) k

/-- Interpret the program once. -/
def once (session : Session S W) : Report S.Value W × Session S W :=
  let (course, session) := session.interpret L.runtime L.fuel L.yields L.program
  (session.windUp L.runtime L.fuel L.dropRest).report L.renew course

/-- The session after a number of runs. -/
def after (k : Nat) (session : Session S W) : Session S W :=
  (L.runs k session).2

/-- What is asked for in a run. -/
def history (session : Session S W) : List (Request S) :=
  Config.history L.runtime L.fuel
    ⟨session.pool, .running (.base (.interpret L.yields L.program)), [], session.jobs⟩

/-- A run that goes like another, with other names. Whatever is carried out has been asked for, and
that each instruction is written to the log is asked for whether the log tells as much or not. -/
structure RunsAgain (N : Naming S) (alike : (FiberId → FiberId) → W → W → Prop)
    (ρ : FiberId → FiberId) (session later : Session S W) : Prop where
  history : L.history later = (L.history session).map (Request.rename N ρ)
  report : (L.once session).1.Renamed N alike ρ (L.once later).1
  fibers : ∀ fiber, (L.once later).2.pool.get? (ρ fiber) =
    ((L.once session).2.pool.get? fiber).map (Fiber.rename N ρ)
  made : Set.image ρ (session.made (L.once session).2) = later.made (L.once later).2

/-- The last of a number of runs begins where the others have ended. -/
theorem runs_succ (k : Nat) (session : Session S W) :
    L.runs (k + 1) session =
      ((L.runs k session).1 ++ [(L.once (L.after k session)).1],
        (L.once (L.after k session)).2) := by
  induction k generalizing session with
  | zero => rfl
  | succ k ih =>
    have hruns (k : Nat) : L.runs (k + 1) session =
        ((L.once session).1 :: (L.runs k (L.once session).2).1, (L.runs k (L.once session).2).2) :=
      rfl
    rw [hruns, ih, after, hruns k]
    rfl

theorem after_succ (k : Nat) (session : Session S W) :
    L.after (k + 1) session = (L.once (L.after k session)).2 := by
  rw [after, runs_succ]

theorem length_runs (k : Nat) (session : Session S W) : (L.runs k session).1.length = k := by
  induction k with
  | zero => rfl
  | succ k ih => rw [runs_succ, List.length_append, ih, List.length_singleton]

/-- Each report is one of a run of its own. -/
theorem getElem?_runs {i k : Nat} (hi : i < k) (session : Session S W) :
    (L.runs k session).1[i]? = some (L.once (L.after i session)).1 := by
  induction k with
  | zero => cases hi
  | succ k ih =>
    rw [runs_succ]
    obtain hlt | rfl := Nat.lt_succ_iff_lt_or_eq.mp hi
    · rw [List.getElem?_append_left (by rwa [length_runs])]
      exact ih hlt
    · rw [List.getElem?_append_right (by rw [length_runs]), length_runs, Nat.sub_self]
      rfl

variable {L} {session later first last : Session S W} {outcome : Except Fault S.Value}

/-- If no job is left then all that follows a run is its report. -/
theorem once_eq {course : Course S.Value}
    (hinterpret : later.interpret L.runtime L.fuel L.yields L.program = (course, last))
    (hjobs : last.jobs = []) (hqueue : last.pool.queue = #[]) :
    L.once later = last.report L.renew course := by
  rw [once, hinterpret]
  dsimp only
  rw [Session.windUp_eq L.fuel L.dropRest hjobs hqueue]

section Again

variable (hR : L.runtime.Equivariant N alike) (hinline : L.runtime.spawner = .inline)
  (hsession : session.Ready N alike)
  (hprogram : ∀ {ρ}, session.Renames ρ → L.program.rename N ρ = L.program)
  (hfirst : session.interpret L.runtime L.fuel L.yields L.program = (.outcome outcome, first))
  (hdone : first.jobs = []) {d : Nat}

include hR hinline hsession hprogram hfirst hdone

/-- From a session in which other fibers have been made in the meantime, a run goes like the
first. -/
theorem exists_last (hjobs : later.jobs = [])
    (hlater : session.pool.Renamed N alike session.pool.fibers.size d later.pool) :
    ∃ last, later.interpret L.runtime L.fuel L.yields L.program =
        (.outcome (N.outcome (shift session.pool.fibers.size d) outcome), last) ∧
      last.jobs = [] ∧
      first.pool.Renamed N alike session.pool.fibers.size d last.pool ∧
      L.history later =
        (L.history session).map (Request.rename N (shift session.pool.fibers.size d)) := by
  have hmain := Comp.Renamed.interpret (N := N) (ρ := shift session.pool.fibers.size d) L.yields
    L.program
  rw [hprogram (session.renames_shift d)] at hmain
  have hstart : (Config.start session.pool (.interpret L.yields L.program)).Renamed N alike
      session.pool.fibers.size d (Value.rename N (shift session.pool.fibers.size d))
      (.start later.pool (.interpret L.yields L.program)) :=
    ⟨hlater, .running (.base hmain), .nil, rfl, rfl⟩
  obtain ⟨pool, jobs⟩ := first
  obtain rfl : jobs = [] := hdone
  have hrun := hstart.run hR hinline L.fuel
  rw [(Session.interpret_eq_iff hsession.jobs).mp hfirst] at hrun
  cases hrun' : (Config.start later.pool (.interpret L.yields L.program)).run L.runtime L.fuel with
  | mk pool' main' ahead' behind' =>
    rw [hrun'] at hrun
    obtain ⟨hpool, hmain', hahead, -, rfl⟩ := hrun
    cases hmain'
    cases hahead
    refine ⟨⟨pool', []⟩, (Session.interpret_eq_iff hjobs).mpr hrun', rfl, hpool, ?_⟩
    rw [history, history, hjobs, hsession.jobs]
    exact hstart.history hR hinline L.fuel

/-- It makes as many fibers as the first, and says the same of them. -/
theorem runsAgain_of_renamed (hjobs : later.jobs = [])
    (hlater : session.pool.Renamed N alike session.pool.fibers.size d later.pool) :
    L.RunsAgain N alike (shift session.pool.fibers.size d) session later := by
  obtain ⟨last, hinterpret, hlast, hpool, hhistory⟩ :=
    exists_last hR hinline hsession hprogram hfirst hdone hjobs hlater
  have honce : L.once session = first.report L.renew (.outcome outcome) :=
    once_eq hfirst hdone hpool.queue
  have honce' := once_eq hinterpret hlast hpool.queue'
  refine ⟨hhistory, ?_, fun fiber => ?_, ?_⟩
  · rw [honce, honce']
    refine ⟨⟨outcome, rfl, rfl⟩, fun {fault} hcourse => ?_, hpool.events, hpool.records, ?_,
      hpool.world⟩
    · obtain rfl : outcome = .error fault := Course.outcome.inj hcourse
      exact ⟨_, rfl, fun name => Fault.text?_rename _ name fault⟩
    · intro name
      change last.pool.records.map _ = first.pool.records.map _
      rw [hpool.records, Array.map_map]
      exact congrArg (first.pool.records.map ·) (funext (Record.fields_rename _ name))
  · rw [honce, honce']
    exact hpool.get? fiber
  · rw [honce, honce']
    -- The fibers made are those from the number of the earlier ones on, and both ends are shifted.
    ext ⟨i⟩
    have hsize : (last.report L.renew
        (.outcome (N.outcome (shift session.pool.fibers.size d) outcome))).2.pool.fibers.size =
          first.pool.fibers.size + d := hpool.size
    rw [Session.mem_made, hsize, hlater.size]
    constructor
    · rintro ⟨⟨j⟩, hmade, hj⟩
      obtain ⟨hle, hlt⟩ := Session.mem_made.mp hmade
      rw [shift_of_le hle] at hj
      cases hj
      exact ⟨Nat.add_le_add_right hle d, Nat.add_lt_add_right hlt d⟩
    · rintro ⟨hle, hlt⟩
      obtain ⟨j, rfl⟩ : ∃ j, i = j + d := ⟨i - d, by dsimp only at hle; omega⟩
      have hle : session.pool.fibers.size ≤ j := Nat.le_of_add_le_add_right hle
      have hlt : j < first.pool.fibers.size := Nat.lt_of_add_lt_add_right hlt
      exact ⟨⟨j⟩, Session.mem_made.mpr ⟨hle, hlt⟩, shift_of_le hle⟩

/-- After it there is the same as before it, but for the fibers that it has made. -/
theorem renamed_once (hrenew : ∀ {ρ ρ' w}, session.Renames ρ → session.Renames ρ' →
      alike ρ first.pool.world w → alike ρ' session.pool.world (L.renew w))
    (hkept : ∀ {fiber stage}, session.pool.get? fiber = some stage →
      first.pool.get? fiber = some stage) (hjobs : later.jobs = [])
    (hlater : session.pool.Renamed N alike session.pool.fibers.size d later.pool) :
    (L.once later).2.jobs = [] ∧
      session.pool.Renamed N alike session.pool.fibers.size
        (d + (first.pool.fibers.size - session.pool.fibers.size)) (L.once later).2.pool ∧
      ∀ {fiber stage}, session.pool.get? fiber = some stage →
        (L.once later).2.pool.get? fiber = some stage := by
  obtain ⟨last, hinterpret, hlast, hpool, -⟩ :=
    exists_last hR hinline hsession hprogram hfirst hdone hjobs hlater
  rw [once_eq hinterpret hlast hpool.queue']
  have hkept' {fiber : FiberId} {stage : Fiber S} (hstage : session.pool.get? fiber = some stage) :
      last.pool.get? fiber = some stage := by
    have hrenames := session.renames_shift d
    have hlast := hpool.get? fiber
    rw [hrenames.fixed fiber (by rw [hstage]; rfl), hkept hstage, Option.map_some,
      hsession.fibers hrenames hstage] at hlast
    exact hlast
  have hsize : last.pool.fibers.size = session.pool.fibers.size +
      (d + (first.pool.fibers.size - session.pool.fibers.size)) := by
    have hgrown := hpool.grown
    rw [hpool.size]
    omega
  have hworld := hrenew (session.renames_shift d)
    (session.renames_shift (d + (first.pool.fibers.size - session.pool.fibers.size))) hpool.world
  exact ⟨hlast, hsession.renamed hsize hkept' hpool.queue' rfl rfl hworld, hkept'⟩

end Again

/-- **Each interpretation goes like the first.** Where jobs are run at once and nothing looks at
names or keeps anything from run to run, interpret a program, which knows of no fibers but those
that there are, any number of times. If the first run ends, with every job at its end and without
having meddled with fibers that others have left unfinished, then so do all of them, and each asks
for the same, in the same order, comes to the same, and puts down the same, if for each fiber that
the first run has made there is put one of its own. What was there before the first run stays. -/
theorem runs_again (hR : L.runtime.Equivariant N alike) (hinline : L.runtime.spawner = .inline)
    (hsession : session.Ready N alike)
    (hprogram : ∀ {ρ}, session.Renames ρ → L.program.rename N ρ = L.program)
    (hfirst : session.interpret L.runtime L.fuel L.yields L.program = (.outcome outcome, first))
    (hdone : first.jobs = [])
    (hleft : ∀ {fiber stage}, session.pool.get? fiber = some stage → ¬ stage.isReady →
      first.pool.get? fiber = some stage)
    (hrenew : ∀ {ρ ρ' w}, session.Renames ρ → session.Renames ρ' →
      alike ρ first.pool.world w → alike ρ' session.pool.world (L.renew w))
    (k : Nat) :
    (L.runs k session).1.length = k ∧
    ∃ ρ : Nat → FiberId → FiberId,
      (∀ i < k, session.Renames (ρ i) ∧
        (L.runs k session).1[i]? = some (L.once (L.after i session)).1 ∧
        L.after (i + 1) session = (L.once (L.after i session)).2 ∧
        L.RunsAgain N alike (ρ i) session (L.after i session) ∧
        ∀ {fiber stage}, session.pool.get? fiber = some stage →
          (L.after i session).pool.get? fiber = some stage) ∧
      ∀ i j, i ≠ j → Disjoint ((L.after i session).made (L.after (i + 1) session))
        ((L.after j session).made (L.after (j + 1) session)) := by
  have hkept {fiber : FiberId} {stage : Fiber S} (hstage : session.pool.get? fiber = some stage) :
      first.pool.get? fiber = some stage := by
    by_cases hready : stage.isReady
    · obtain ⟨pool, jobs⟩ := first
      obtain rfl : jobs = [] := hdone
      have hrun := Config.get?_run_of_isReady L.runtime L.fuel
        (.running (.base (.interpret L.yields L.program))) hstage hready
      have hended := (Session.interpret_eq_iff hsession.jobs).mp hfirst
      rw [Config.start] at hended
      rwa [hended] at hrun
    · exact hleft hstage hready
  -- Each run makes as many fibers as the first.
  have hafter (i : Nat) : (L.after i session).jobs = [] ∧
      session.pool.Renamed N alike session.pool.fibers.size
        (i * (first.pool.fibers.size - session.pool.fibers.size)) (L.after i session).pool ∧
      ∀ {fiber stage}, session.pool.get? fiber = some stage →
        (L.after i session).pool.get? fiber = some stage := by
    induction i with
    | zero =>
      have hworld := hsession.world (session.renames_shift 0)
      rw [Nat.zero_mul]
      exact ⟨hsession.jobs, hsession.renamed rfl id hsession.queue hsession.events hsession.records
        hworld, id⟩
    | succ i ih =>
      obtain ⟨hjobs, hrenamed, -⟩ := ih
      rw [after_succ, Nat.succ_mul]
      exact renamed_once hR hinline hsession hprogram hfirst hdone hrenew hkept hjobs hrenamed
  refine ⟨L.length_runs k session, fun i => shift session.pool.fibers.size
    (i * (first.pool.fibers.size - session.pool.fibers.size)), fun i hi => ?_, fun i j hij => ?_⟩
  · obtain ⟨hjobs, hrenamed, hkept⟩ := hafter i
    have hagain := runsAgain_of_renamed hR hinline hsession hprogram hfirst hdone hjobs hrenamed
    exact ⟨session.renames_shift _, L.getElem?_runs hi session, L.after_succ i session, hagain,
      hkept⟩
  · -- By the time of the later of two runs, what the earlier has made is there.
    have hlater {i j : Nat} (hlt : i < j) {fiber : FiberId}
        (hfiber : fiber ∈ (L.after i session).made (L.after (i + 1) session)) :
        fiber ∉ (L.after j session).made (L.after (j + 1) session) := by
      intro hfiber'
      have hindex := (Session.mem_made.mp hfiber).2
      have hindex' := (Session.mem_made.mp hfiber').1
      obtain ⟨-, hi, -⟩ := hafter (i + 1)
      obtain ⟨-, hj, -⟩ := hafter j
      have hmore : (i + 1) * (first.pool.fibers.size - session.pool.fibers.size) ≤
          j * (first.pool.fibers.size - session.pool.fibers.size) := Nat.mul_le_mul_right _ hlt
      rw [hi.size] at hindex
      rw [hj.size] at hindex'
      omega
    rw [Set.disjoint_left]
    intro fiber hfiber hfiber'
    obtain hlt | hlt := Nat.lt_or_gt_of_ne hij
    · exact hlater hlt hfiber hfiber'
    · exact hlater hlt hfiber' hfiber

end Repetition

namespace Scene

/-- A name is exchanged where an action has captured it. -/
def relay.naming : Naming relay where
  ground _ _ v := v
  code _ code := code
  action ρ
    | .seven => RelayAction.seven
    | .after fiber => RelayAction.after (ρ fiber)
  effect _ e := e
  reply _ _ reply := reply

/-- Neither continuations nor actions look at names. -/
theorem relays.equivariant (level : Option Level) :
    Runtime.Equivariant relay.naming (fun _ _ _ => True)
      { relays.inlined with level := level } where
  build {ρ} _ code v := by
    change (Comp.ofExcept ((v.cast (.fiber relay.number)).map code.apply)).Renamed relay.naming ρ _
      (.ofExcept (((v.rename relay.naming ρ).cast (.fiber relay.number)).map code.apply))
    rw [Value.cast_rename]
    cases v.cast (.fiber relay.number) with
    | error fault => exact .fail rfl
    | ok fiber => cases code <;> exact .done rfl
  compute _ _ _ := .done rfl
  act _ action := by
    cases action with
    | seven => exact .done rfl
    | after fiber => exact .read fiber
  observer _ event := Observer.renamed_recording event
  effect _ e := e.elim

/-- Jobs are run at once, and everything is logged. -/
def relay.repetition : Repetition relay Unit where
  runtime := { relays.inlined with level := some .trace }
  fuel := 60
  dropRest := false
  renew := id
  yields := relay.number
  program := relay.program

/-- Two fibers are made in each of three runs, and the last run tells of those that it has made. -/
theorem runs_again_relays :
    ∃ ρ : Nat → FiberId → FiberId,
      (∀ i < 3, relay.repetition.RunsAgain relay.naming (fun _ _ _ => True) (ρ i) (.start ())
        (relay.repetition.after i (.start ()))) ∧
      ((relay.repetition.runs 3 (.start ())).1.map Report.events)[2]? =
        some #[.fork ⟨4⟩ .here, .fork ⟨5⟩ .here, .await ⟨5⟩] := by
  have hnone (fiber : FiberId) :
      (Session.start () : Session relay Unit).pool.get? fiber = none := by
    simp [Session.start, Pool.empty, Pool.get?]
  have hsession : (Session.start () : Session relay Unit).Ready relay.naming
      fun _ _ _ => True := by
    refine ⟨rfl, rfl, rfl, rfl, fun _ fiber _ hstage => ?_, fun _ => trivial⟩
    cases (hnone fiber).symm.trans hstage
  obtain ⟨outcome, first, hfirst, hdone⟩ : ∃ outcome first,
      (Session.start ()).interpret relay.repetition.runtime 60 relay.number relay.program =
        (.outcome outcome, first) ∧ first.jobs = [] := ⟨_, _, rfl, rfl⟩
  obtain ⟨-, ρ, hruns, -⟩ := Repetition.runs_again (relays.equivariant _) rfl hsession
    (fun _ => rfl) hfirst hdone (fun hstage _ => by
      cases (hnone _).symm.trans hstage) (fun _ _ _ => trivial) 3
  exact ⟨ρ, fun i hi => (hruns i hi).2.2.2.1, rfl⟩

end Scene

end FiberPrograms
