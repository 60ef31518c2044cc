import FiberPrograms.Proofs.BackendAgreement
import FiberPrograms.Proofs.Choices
import FiberPrograms.Proofs.RelocatedRuns

/-!
# Places make no difference

Programs that are the same but for the places of their forks are run side by side, under one
schedule. Each decision can be followed in both executions or in neither, and what happens by it is
the same in both but for places. So whatever is decided, computations come to the same values or
fail in the same way, fibers end alike, and actions are run as often and have the same effects. The
only traces that a place leaves are what it has been written into: the report of its fork, and the
operation as the deepest log shows it.

## Main definitions

* `Scene.Relocated`, `Config.Relocated`: scenes and configurations that are the same but for places
* `Scene.LooksLike`: what can be seen of two scenes is the same but for places
* `Scene.SameButForPlaces`: what two executions have in common that differ in places only

## Main results

* `Scene.Relocated.take?`, `Scene.Relocated.follow?`: decisions have the same outcome but for places
* `Config.Relocated.tick`, `Config.Relocated.run`: so have moves in the order of precedence
* `Scene.place_unobserved`: places make no difference
-/

namespace FiberPrograms

variable {S : Signature} {W α : Type} {L : Relocation S}

/-! ## Lists side by side -/

section Forall₂

variable {σ τ : Type} {r : σ → τ → Prop} {as : List σ} {bs : List τ}

theorem forall₂_getElem? (h : List.Forall₂ r as bs) (place : Nat) :
    Option.Rel r as[place]? bs[place]? := by
  induction h generalizing place with
  | nil => exact .none
  | cons hab _ ih =>
    cases place with
    | zero => exact .some hab
    | succ place => exact ih place

theorem forall₂_set (h : List.Forall₂ r as bs) (place : Nat) {a : σ} {b : τ} (hab : r a b) :
    List.Forall₂ r (as.set place a) (bs.set place b) := by
  induction h generalizing place with
  | nil => exact .nil
  | cons hfirst hrest ih =>
    cases place with
    | zero => exact .cons hab hrest
    | succ place => exact .cons hfirst (ih place)

theorem forall₂_eraseIdx (h : List.Forall₂ r as bs) (place : Nat) :
    List.Forall₂ r (as.eraseIdx place) (bs.eraseIdx place) := by
  induction h generalizing place with
  | nil => exact .nil
  | cons hfirst hrest ih =>
    cases place with
    | zero => exact hrest
    | succ place => exact .cons hfirst (ih place)

end Forall₂

theorem OutcomeRel.eq {outcome outcome' : Except Fault α} (h : OutcomeRel Eq outcome outcome') :
    outcome' = outcome := by
  cases h with
  | ok h => rw [h]
  | error fault => rfl

/-! ## Scenes -/

/-- Computations that are the same but for places, or have come to the same. -/
inductive Main.Relocated (L : Relocation S) : Main S α → Main S α → Prop
  | running {thread thread' : Thread S α} (h : thread.Relocated L Eq thread') :
      Relocated L (.running thread) (.running thread')
  | ended (outcome : Except Fault α) : Relocated L (.ended outcome) (.ended outcome)

/-- Scenes that are the same but for places. -/
structure Scene.Relocated (L : Relocation S) (level : Option Level) (scene scene' : Scene S W α) :
    Prop where
  pool : scene.pool.Relocated L level scene'.pool
  callers : List.Forall₂ (Main.Relocated L) scene.callers scene'.callers
  jobs : List.Forall₂ (Job.Relocated L) scene.jobs scene'.jobs

/-- What is told of an incident is the same but for places. -/
inductive Entry.Relocated (L : Relocation S) : Entry S → Entry S → Prop
  | same (entry : Entry S) : Relocated L entry entry
  | did (who : Actor) {activity activity' : Activity S} {deeds deeds' : List (Deed S)}
      (hactivity : activity.Relocated L activity')
      (hdeeds : List.Forall₂ (Deed.Relocated L) deeds deeds') :
      Relocated L (.did who activity deeds) (.did who activity' deeds')

/-- What has happened is the same but for places. -/
def Scene.Told (L : Relocation S) (level : Option Level) (told told' : Entry S × Scene S W α) :
    Prop :=
  told.1.Relocated L told'.1 ∧ told.2.Relocated L level told'.2

/-- Jobs that are launched alike take the same place among jobs that are the same but for places. -/
theorem Launch.Relocated.onto {launch launch' : Launch S} (h : launch.Relocated L launch')
    {jobs jobs' : List (Job S)} (hjobs : List.Forall₂ (Job.Relocated L) jobs jobs') :
    List.Forall₂ (Job.Relocated L) (launch.onto jobs) (launch'.onto jobs') := by
  cases h with
  | none => exact hjobs
  | ahead h => exact .cons h hjobs
  | behind h => exact List.rel_append hjobs (.cons h .nil)

namespace Scene

/-! ## Decisions and schedules -/

namespace Relocated

variable {R R' : Runtime S W} {scene scene' : Scene S W α} (hR : R.Relocated L R')
  (h : scene.Relocated L R.level scene')

include hR h

theorem take?_caller (place : Nat) :
    Option.Rel (Told L R.level) (scene.take? R (.caller place))
      (scene'.take? R' (.caller place)) := by
  -- In both scenes the same computation has its turn, or none.
  have hmain := forall₂_getElem? h.callers place
  simp only [Scene.take?]
  generalize scene.callers[place]? = main at hmain
  generalize scene'.callers[place]? = main' at hmain
  cases hmain with
  | none => exact .none
  | some hmain =>
    cases hmain with
    | ended outcome => exact .none
    | @running thread thread' hthread =>
      have hactivity := hthread.activity hR h.pool
      have hdeeds := hthread.deeds hR h.pool
      obtain ⟨hmotion, hpool⟩ := hthread.move hR h.pool
      dsimp only
      generalize thread.move R scene.pool = moved at hmotion hpool
      generalize thread'.move R' scene'.pool = moved' at hmotion hpool
      obtain ⟨motion, pool⟩ := moved
      obtain ⟨motion', pool'⟩ := moved'
      cases hmotion with
      | moved hthread hlaunch =>
        exact .some ⟨.did _ hactivity hdeeds, hpool,
          forall₂_set h.callers place (.running hthread), hlaunch.onto h.jobs⟩
      | ended houtcome =>
        obtain rfl := houtcome.eq
        exact .some ⟨.same _, hpool, forall₂_set h.callers place (.ended _), h.jobs⟩
      | blocked => exact .none

theorem take?_job (place : Nat) :
    Option.Rel (Told L R.level) (scene.take? R (.job place)) (scene'.take? R' (.job place)) := by
  have hjob := forall₂_getElem? h.jobs place
  simp only [Scene.take?]
  generalize scene.jobs[place]? = job at hjob
  generalize scene'.jobs[place]? = job' at hjob
  cases hjob with
  | none => exact .none
  | @some job job' hjob =>
    obtain ⟨fiber, thread⟩ := job
    obtain ⟨_, thread'⟩ := job'
    obtain ⟨rfl, hthread⟩ := hjob
    have hactivity := hthread.activity hR h.pool
    have hdeeds := hthread.deeds hR h.pool
    obtain ⟨hmotion, hpool⟩ := hthread.move hR h.pool
    dsimp only at hmotion hpool hactivity hdeeds ⊢
    generalize thread.move R scene.pool = moved at hmotion hpool
    generalize thread'.move R' scene'.pool = moved' at hmotion hpool
    obtain ⟨motion, pool⟩ := moved
    obtain ⟨motion', pool'⟩ := moved'
    cases hmotion with
    | moved hthread hlaunch =>
      exact .some ⟨.did _ hactivity hdeeds, hpool, h.callers,
        hlaunch.onto (forall₂_set h.jobs place ⟨rfl, hthread⟩)⟩
    | ended houtcome =>
      obtain rfl := houtcome.eq
      rw [hR.level]
      exact .some ⟨.same _, hpool.finish _ _, h.callers, forall₂_eraseIdx h.jobs place⟩
    | blocked => exact .none

theorem take?_begin (position : Nat) :
    Option.Rel (Told L R.level) (scene.take? R (.begin position))
      (scene'.take? R' (.begin position)) := by
  have hstarted := h.pool.startAt hR position
  simp only [Scene.take?]
  generalize scene.pool.startAt? R.toInterpreter position = started at hstarted
  generalize scene'.pool.startAt? R'.toInterpreter position = started' at hstarted
  cases hstarted with
  | none => exact .none
  | some hstarted =>
    refine .some ⟨?_, hstarted.2, h.callers, .cons hstarted.1 h.jobs⟩
    rw [hstarted.1.fiber]
    exact .same _

theorem take?_drop (position : Nat) :
    Option.Rel (Told L R.level) (scene.take? R (.drop position))
      (scene'.take? R' (.drop position)) := by
  simp only [Scene.take?]
  rw [h.pool.queue, hR.level]
  cases scene.pool.queue[position]? with
  | none => exact .none
  | some fiber =>
    have hless : ({ scene.pool with
          queue := scene.pool.queue.eraseIdxIfInBounds position }).Relocated L R.level
        { scene'.pool with queue := scene.pool.queue.eraseIdxIfInBounds position } :=
      { h.pool with queue := rfl }
    exact .some ⟨.same _, hless.release fiber, h.callers, h.jobs⟩

/-- A decision can be followed in both scenes or in neither, and has the same outcome but for
places. -/
theorem take? (choice : Choice) :
    Option.Rel (Told L R.level) (scene.take? R choice) (scene'.take? R' choice) := by
  cases choice with
  | caller place => exact h.take?_caller hR place
  | job place => exact h.take?_job hR place
  | begin position => exact h.take?_begin hR position
  | drop position => exact h.take?_drop hR position

end Relocated

/-- A schedule can be followed in both scenes or in neither, and has the same outcome but for
places. -/
theorem Relocated.follow? {R R' : Runtime S W} {scene scene' : Scene S W α}
    (hR : R.Relocated L R') (h : scene.Relocated L R.level scene') (schedule : List Choice) :
    Option.Rel (fun told told' =>
        List.Forall₂ (Entry.Relocated L) told.1 told'.1 ∧ told.2.Relocated L R.level told'.2)
      (scene.follow? R schedule) (scene'.follow? R' schedule) := by
  induction schedule generalizing scene scene' with
  | nil => exact .some ⟨.nil, h⟩
  | cons choice schedule ih =>
    have htaken := h.take? hR choice
    rw [Scene.follow?, Scene.follow?]
    generalize scene.take? R choice = taken at htaken
    generalize scene'.take? R' choice = taken' at htaken
    cases htaken with
    | none => exact .none
    | @some taken taken' htaken =>
      obtain ⟨entry, scene₁⟩ := taken
      obtain ⟨entry', scene₁'⟩ := taken'
      have hrest := ih htaken.2
      dsimp only at hrest ⊢
      generalize scene₁.follow? R schedule = rest at hrest
      generalize scene₁'.follow? R' schedule = rest' at hrest
      cases hrest with
      | none => exact .none
      | some hrest => exact .some ⟨.cons htaken.1 hrest.1, hrest.2⟩

end Scene

/-! ## The order of precedence -/

/-- What comes of letting the first job move that can is the same but for places. -/
inductive RelocatedFound (L : Relocation S) (level : Option Level) :
    Option (List (Job S) × Launch S) × Pool S W → Option (List (Job S) × Launch S) × Pool S W → Prop
  | some {jobs jobs' : List (Job S)} {launch launch' : Launch S} {pool pool' : Pool S W}
      (hjobs : List.Forall₂ (Job.Relocated L) jobs jobs') (hlaunch : launch.Relocated L launch')
      (hpool : pool.Relocated L level pool') :
      RelocatedFound L level (some (jobs, launch), pool) (some (jobs', launch'), pool')
  | none {pool pool' : Pool S W} (hpool : pool.Relocated L level pool') :
      RelocatedFound L level (none, pool) (none, pool')

/-- If one job can move, so can the job that is the same but for places. -/
theorem relocated_moveJobs {R R' : Runtime S W} {pool pool' : Pool S W} (hR : R.Relocated L R')
    (h : pool.Relocated L R.level pool') {jobs jobs' : List (Job S)}
    (hjobs : List.Forall₂ (Job.Relocated L) jobs jobs') :
    RelocatedFound L R.level (moveJobs R pool jobs) (moveJobs R' pool' jobs') := by
  induction hjobs generalizing pool pool' with
  | nil => exact .none h
  | @cons job job' jobs jobs' hjob hjobs ih =>
    obtain ⟨hmotion, hpool⟩ := hjob.thread.move hR h
    rw [moveJobs, moveJobs, hjob.fiber, hR.level]
    generalize job.thread.move R pool = moved at hmotion hpool
    generalize job'.thread.move R' pool' = moved' at hmotion hpool
    obtain ⟨motion, pool₁⟩ := moved
    obtain ⟨motion', pool₁'⟩ := moved'
    cases hmotion with
    | moved hthread hlaunch => exact .some (.cons ⟨rfl, hthread⟩ hjobs) hlaunch hpool
    | ended houtcome =>
      obtain rfl := houtcome.eq
      exact .some hjobs .none (hpool.finish _ _)
    | blocked =>
      -- A job that waits is passed over and keeps its place.
      have hrest := ih hpool
      dsimp only at hrest ⊢
      generalize moveJobs R pool₁ jobs = found at hrest
      generalize moveJobs R' pool₁' jobs' = found' at hrest
      cases hrest with
      | none hpool => exact .none hpool
      | some hrest hlaunch hpool => exact .some (.cons hjob hrest) hlaunch hpool

/-- Configurations that are the same but for places. -/
structure Config.Relocated (L : Relocation S) (level : Option Level)
    (config config' : Config S W α) : Prop where
  pool : config.pool.Relocated L level config'.pool
  main : config.main.Relocated L config'.main
  ahead : List.Forall₂ (Job.Relocated L) config.ahead config'.ahead
  behind : List.Forall₂ (Job.Relocated L) config.behind config'.behind

namespace Config.Relocated

variable {R R' : Runtime S W} {config config' : Config S W α}

theorem launch {level : Option Level} (h : config.Relocated L level config')
    {launch launch' : Launch S} (hlaunch : launch.Relocated L launch') :
    (config.launch launch).Relocated L level (config'.launch launch') := by
  cases hlaunch with
  | none => exact h
  | ahead hjob => exact { h with ahead := .cons hjob h.ahead }
  | behind hjob => exact { h with behind := List.rel_append h.behind (.cons hjob .nil) }

/-- The thread whose turn it is by precedence makes the same move but for places. -/
theorem tick (hR : R.Relocated L R') (h : config.Relocated L R.level config') :
    (config'.tick R').1 = (config.tick R).1 ∧
      (config.tick R).2.Relocated L R.level (config'.tick R').2 := by
  obtain ⟨pool, main, ahead, behind⟩ := config
  obtain ⟨pool', main', ahead', behind'⟩ := config'
  obtain ⟨hpool, hmain, hahead, hbehind⟩ := h
  dsimp only at hpool hmain hahead hbehind
  have hfound := relocated_moveJobs hR hpool hahead
  rw [Config.tick, Config.tick]
  dsimp only
  generalize moveJobs R pool ahead = found at hfound
  generalize moveJobs R' pool' ahead' = found' at hfound
  cases hfound with
  | some hahead hlaunch hpool => exact ⟨rfl, launch ⟨hpool, hmain, hahead, hbehind⟩ hlaunch⟩
  | @none pool₁ pool₁' hpool =>
    cases hmain with
    | ended outcome =>
      have hfound := relocated_moveJobs hR hpool hbehind
      dsimp only
      generalize moveJobs R pool₁ behind = found at hfound
      generalize moveJobs R' pool₁' behind' = found' at hfound
      cases hfound with
      | some hbehind hlaunch hpool =>
        exact ⟨rfl, launch ⟨hpool, .ended outcome, hahead, hbehind⟩ hlaunch⟩
      | none hpool => exact ⟨rfl, hpool, .ended outcome, hahead, hbehind⟩
    | @running thread thread' hthread =>
      obtain ⟨hmotion, hpool⟩ := hthread.move hR hpool
      dsimp only
      generalize thread.move R pool₁ = moved at hmotion hpool
      generalize thread'.move R' pool₁' = moved' at hmotion hpool
      obtain ⟨motion, pool₂⟩ := moved
      obtain ⟨motion', pool₂'⟩ := moved'
      cases hmotion with
      | moved hthread hlaunch =>
        exact ⟨rfl, launch ⟨hpool, .running hthread, hahead, hbehind⟩ hlaunch⟩
      | ended houtcome =>
        obtain rfl := houtcome.eq
        exact ⟨rfl, hpool, .ended _, hahead, hbehind⟩
      | blocked =>
        -- While the main thread waits, the jobs behind have their turn.
        have hfound := relocated_moveJobs hR hpool hbehind
        dsimp only at hfound ⊢
        generalize moveJobs R pool₂ behind = found at hfound
        generalize moveJobs R' pool₂' behind' = found' at hfound
        cases hfound with
        | some hbehind hlaunch hpool =>
          exact ⟨rfl, launch ⟨hpool, .running hthread, hahead, hbehind⟩ hlaunch⟩
        | none hpool => exact ⟨rfl, hpool, .running hthread, hahead, hbehind⟩

/-- Configurations that are the same but for places remain so, however far they are run. -/
theorem run (hR : R.Relocated L R') (h : config.Relocated L R.level config') (fuel : Nat) :
    (config.run R fuel).Relocated L R.level (config'.run R' fuel) := by
  induction fuel generalizing config config' with
  | zero => exact h
  | succ fuel ih =>
    have hmain := h.main
    obtain ⟨hmoved, htick⟩ := h.tick hR
    rw [Config.run, Config.run]
    generalize config.tick R = ticked at hmoved htick
    generalize config'.tick R' = ticked' at hmoved htick
    obtain ⟨_, next⟩ := ticked
    obtain ⟨moved, next'⟩ := ticked'
    obtain rfl := hmoved
    generalize config.main = main at hmain
    generalize config'.main = main' at hmain
    cases hmain with
    | ended outcome => exact h
    | running =>
      cases moved with
      | true => exact ih htick
      | false => exact htick

/-- So do their scenes. -/
theorem scene {level : Option Level} (h : config.Relocated L level config') :
    config.scene.Relocated L level config'.scene where
  pool := h.pool
  callers := .cons h.main .nil
  jobs := List.rel_append h.ahead h.behind

end Config.Relocated

/-! ## What can be seen -/

/-- The effect that is performed, with the reply to it. -/
def Activity.performed? : Activity S → Option ((e : S.Effect) × S.Reply e)
  | performed e reply => some ⟨e, reply⟩
  | _ => none

/-- The effect of which an entry tells, with the reply to it. -/
def Entry.performed? : Entry S → Option ((e : S.Effect) × S.Reply e)
  | did _ activity _ => activity.performed?
  | _ => none

namespace Entry.Relocated

variable {entry entry' : Entry S}

theorem performed?_eq (h : entry.Relocated L entry') : entry'.performed? = entry.performed? := by
  cases h with
  | same => rfl
  | did who hactivity => cases hactivity <;> rfl

/-- The action of a fiber is run as often. -/
theorem executions_eq (h : entry.Relocated L entry') (fiber : FiberId) :
    entry'.executions fiber = entry.executions fiber := by
  cases h with
  | same => rfl
  | @did who activity activity' deeds deeds' hactivity hdeeds =>
    have hread : (Entry.did who activity' deeds').read? = (Entry.did who activity deeds).read? := by
      cases hactivity with
      | same activity => cases activity <;> rfl
      | _ => rfl
    have hempty : deeds'.isEmpty = deeds.isEmpty := by cases hdeeds <;> rfl
    -- Only what is handed over may differ, and that is not yet run.
    have hbegins : deeds'.countP (Deed.begins fiber) = deeds.countP (Deed.begins fiber) := by
      clear hread hempty
      induction hdeeds with
      | nil => rfl
      | cons hdeed _ ih =>
        rw [List.countP_cons, List.countP_cons, ih]
        cases hdeed <;> rfl
    refine congrArg₂ (· + ·) hbegins (if_congr ?_ rfl rfl)
    rw [hread, Entry.deeds, Entry.deeds, hempty]

end Entry.Relocated

namespace Scene

/-- Scenes look alike but for places, in events and in what a log of the given level shows. -/
structure LooksLike (level : Option Level) (scene scene' : Scene S W α) : Prop where
  /-- The same computations have ended, with the same values and faults. -/
  outcomes (place : Nat) (outcome : Except Fault α) :
    scene'.callers[place]? = some (.ended outcome) ↔ scene.callers[place]? = some (.ended outcome)
  /-- As many fibers have been made. -/
  size : scene'.pool.fibers.size = scene.pool.fibers.size
  /-- The same fibers have ended, with the same endings. -/
  endings (fiber : FiberId) (ending : Ending S) :
    scene'.pool.get? fiber = some (.ended ending) ↔ scene.pool.get? fiber = some (.ended ending)
  /-- Fibers have come in sight in the same order, so faults that name them read the same. -/
  sighted : scene'.pool.sighted = scene.pool.sighted
  /-- The world has been changed in the same way. -/
  world : scene'.pool.world = scene.pool.world
  /-- Events are the same but for the places of forks. -/
  events : List.Forall₂ Event.Relocated scene.pool.events.toList scene'.pool.events.toList
  /-- So is the log, and it shows places otherwise at its deepest level only. -/
  records : List.Forall₂ (Record.Relocated (level = some .trace)) scene.pool.records.toList
    scene'.pool.records.toList

/-- Scenes that are the same but for places look alike. -/
theorem Relocated.looksLike {level : Option Level} {scene scene' : Scene S W α}
    (h : scene.Relocated L level scene') : scene.LooksLike level scene' where
  outcomes place outcome := by
    have hmain := forall₂_getElem? h.callers place
    generalize scene.callers[place]? = main at hmain
    generalize scene'.callers[place]? = main' at hmain
    cases hmain with
    | none => rfl
    | some hmain => cases hmain <;> simp
  size := h.pool.size
  endings fiber ending := by
    have hfiber := h.pool.get? fiber
    generalize scene.pool.get? fiber = stage at hfiber
    generalize scene'.pool.get? fiber = stage' at hfiber
    cases hfiber with
    | none => rfl
    | some hstage => cases hstage <;> simp
  sighted := h.pool.sighted
  world := h.pool.world
  events := h.pool.events
  records := h.pool.records

/-- Two executions are the same but for places, from what is told of them to the scenes that they
have got to. -/
structure SameButForPlaces (L : Relocation S) (level : Option Level)
    (told told' : List (Entry S) × Scene S W α) : Prop where
  /-- The same has happened, incident by incident. -/
  entries : List.Forall₂ (Entry.Relocated L) told.1 told'.1
  /-- The action of each fiber has been run as often. -/
  executions (fiber : FiberId) : executions fiber told'.1 = executions fiber told.1
  /-- The same effects have been performed in the same order, with the same replies. -/
  performed : told'.1.filterMap Entry.performed? = told.1.filterMap Entry.performed?
  scene : told.2.LooksLike level told'.2

theorem Relocated.sameButForPlaces {level : Option Level} {entries entries' : List (Entry S)}
    {scene scene' : Scene S W α} (hscene : scene.Relocated L level scene')
    (hentries : List.Forall₂ (Entry.Relocated L) entries entries') :
    SameButForPlaces L level (entries, scene) (entries', scene') where
  entries := hentries
  executions fiber := by
    unfold FiberPrograms.executions
    congr 1
    dsimp only
    induction hentries with
    | nil => rfl
    | cons hentry _ ih => rw [List.map_cons, List.map_cons, hentry.executions_eq, ih]
  performed := by
    dsimp only
    induction hentries with
    | nil => rfl
    | cons hentry _ ih => rw [List.filterMap_cons, List.filterMap_cons, hentry.performed?_eq, ih]
  scene := hscene.looksLike

/-- Programs that are the same but for places are about to be run in scenes that are the same but
for places. -/
theorem Relocated.ofProgram {level : Option Level} {pool pool' : Pool S W}
    (hpool : pool.Relocated L level pool') (yields : Ty S.Base) {program program' : S.Program}
    (hprogram : program.Relocated L program') :
    (Scene.ofProgram pool yields program).Relocated L level
      (Scene.ofProgram pool' yields program') where
  pool := hpool
  callers := .cons (.running (.base (Comp.Relocated.runs hprogram yields))) .nil
  jobs := .nil

/-- Places make no difference. Take two programs that are the same but for the places of their
forks, those included that are built by continuations and by actions when they are run, with
observers that do not look at places, and run them over pools that are the same but for places. Any
schedule can be followed in both executions or in neither, and they are the same but for places; so
each story of the one is also a story of the other but for places. If the order of moves is that of
precedence, the two runs look alike, however far they get. -/
theorem place_unobserved {R R' : Runtime S W} (hR : R.Relocated L R') {pool pool' : Pool S W}
    (hpool : pool.Relocated L R.level pool') (yields : Ty S.Base) {program program' : S.Program}
    (hprogram : program.Relocated L program') :
    (∀ schedule, Option.Rel (SameButForPlaces L R.level)
      ((ofProgram pool yields program).follow? R schedule)
      ((ofProgram pool' yields program').follow? R' schedule)) ∧
    (∀ {entries scene}, Trail (Incident R) (ofProgram pool yields program) entries scene →
      ∃ entries' scene', Trail (Incident R') (ofProgram pool' yields program') entries' scene' ∧
        SameButForPlaces L R.level (entries, scene) (entries', scene')) ∧
    (∀ {entries' scene'}, Trail (Incident R') (ofProgram pool' yields program') entries' scene' →
      ∃ entries scene, Trail (Incident R) (ofProgram pool yields program) entries scene ∧
        SameButForPlaces L R.level (entries, scene) (entries', scene')) ∧
    ∀ fuel, LooksLike R.level
      ((Config.start pool (.interpret yields program)).run R fuel).scene
      ((Config.start pool' (.interpret yields program')).run R' fuel).scene := by
  have hsame (schedule : List Choice) : Option.Rel (SameButForPlaces L R.level)
      ((ofProgram pool yields program).follow? R schedule)
      ((ofProgram pool' yields program').follow? R' schedule) := by
    have htold := (Relocated.ofProgram hpool yields hprogram).follow? hR schedule
    generalize (ofProgram pool yields program).follow? R schedule = told at htold
    generalize (ofProgram pool' yields program').follow? R' schedule = told' at htold
    cases htold with
    | none => exact .none
    | some htold => exact .some (htold.2.sameButForPlaces htold.1)
  -- Any story has been decided by a schedule, which can be followed in the other execution.
  refine ⟨hsame, ?_, ?_, fun fuel => ?_⟩
  · intro entries scene story
    obtain ⟨schedule, hfollow⟩ := story_iff_follow?.mp story
    have htold := hsame schedule
    rw [hfollow] at htold
    generalize hfollow' : (ofProgram pool' yields program').follow? R' schedule = told' at htold
    cases htold with
    | some htold => exact ⟨_, _, story_iff_follow?.mpr ⟨schedule, hfollow'⟩, htold⟩
  · intro entries' scene' story
    obtain ⟨schedule, hfollow'⟩ := story_iff_follow?.mp story
    have htold := hsame schedule
    rw [hfollow'] at htold
    generalize hfollow : (ofProgram pool yields program).follow? R schedule = told at htold
    cases htold with
    | some htold => exact ⟨_, _, story_iff_follow?.mpr ⟨schedule, hfollow⟩, htold⟩
  · have hstart : (Config.start pool (.interpret yields program)).Relocated L R.level
        (Config.start pool' (.interpret yields program')) :=
      ⟨hpool, .running (.base (Comp.Relocated.runs hprogram yields)), .nil, .nil⟩
    exact (hstart.run hR fuel).scene.looksLike

/-- What a continuation makes of the fiber at hand, with forks at a given place. -/
def RelayCode.applyAt (place : Place) (code : RelayCode) (fiber : FiberId) : relay.Program :=
  match code with
  | .pass =>
    Program.bind (.fiber relay.number) (.instr (.forkAt place relay.number (.after fiber))) .wait
  | .wait => .instr (.await fiber)

/-- Numbers are handed on, with forks at a given place. -/
def relays.forkingAt (place : Place) : Runtime relay Unit :=
  { relays with
    build code v := .ofExcept ((v.cast (.fiber relay.number)).map (RelayCode.applyAt place code)) }

/-- A fiber is started at a given place, then another that reads it, and the second is waited
for. -/
def relay.programAt (place : Place) : relay.Program :=
  Program.bind (.fiber number) (.instr (.forkAt place number .seven)) .pass

/-- Names stand for the same code, whose forks are at any places. -/
def relay.elsewhere : Relocation relay where
  code := Eq
  action := Eq

theorem relays.relocated (place place' : Place) :
    (relays.forkingAt place).Relocated relay.elsewhere (relays.forkingAt place') where
  build {code _} hcode v := by
    obtain rfl := hcode
    change (Comp.ofExcept
        ((v.cast (.fiber relay.number)).map (RelayCode.applyAt place code))).Relocated
      relay.elsewhere (Tree.Relocated relay.elsewhere)
      (.ofExcept ((v.cast (.fiber relay.number)).map (RelayCode.applyAt place' code)))
    cases v.cast (.fiber relay.number) with
    | error fault => exact .fail fault
    | ok fiber =>
      cases code with
      | pass => exact .done (.andThen (.instr (.forkAt place place' _ rfl)) (.bind _ rfl))
      | wait => exact .done (.instr (.await fiber))
  compute {code _} hcode v := .done rfl
  act {action _} haction := by
    obtain rfl := haction
    cases action with
    | seven => exact .done rfl
    | after fiber => exact .read fiber .ofExcept
  observer := Observer.relocated_recording
  spawner := rfl
  newestFirst := rfl
  level := rfl
  effect := rfl

/-- The run of that program, under a runtime that starts the second fiber at that place too. -/
def relay.runAt (R : Place → Runtime relay Unit) (place : Place) : Config relay Unit relay.Value :=
  (Config.start (.empty ()) (.interpret number (programAt place))).run (R place) 60

/-- Whether fibers are started here or elsewhere, the number that is handed on is the same. -/
theorem place_unobserved_relays :
    (relay.programAt .here).Relocated relay.elsewhere (relay.programAt .remote) ∧
      LooksLike none (relay.runAt relays.forkingAt .here).scene
        (relay.runAt relays.forkingAt .remote).scene ∧
      (relay.runAt relays.forkingAt .remote).scene.callers[0]? =
        some (.ended (.ok (.of relay.number (7 : Int64)))) := by
  have hprogram : (relay.programAt .here).Relocated relay.elsewhere (relay.programAt .remote) :=
    .andThen (.instr (.forkAt .here .remote _ rfl)) (.bind _ rfl)
  obtain ⟨-, -, -, hrun⟩ := place_unobserved (relays.relocated .here .remote)
    (Pool.Relocated.empty relay.elsewhere none ()) relay.number hprogram
  exact ⟨hprogram, hrun 60, ((hrun 60).outcomes 0 _).mpr rfl⟩

/-- Numbers are handed on by jobs that are run at once, with all operations in the log. -/
def relays.tracedAt (place : Place) : Runtime relay Unit :=
  Policy.inline.runtime (relays.forkingAt place).toMeaning (some .trace) relays.effect

/-- Fails when it is told of a fork elsewhere. -/
def homebody : Observer relay
  | .fork _ .remote => .fail (.text "too far")
  | _ => .done ()

/-- Numbers are handed on, with an observer that looks at places. -/
def relays.attachedAt (place : Place) : Runtime relay Unit :=
  { relays.forkingAt place with observer := homebody }

/-- A place is seen in the operation that the deepest log shows, besides the report of the fork; and
whatever an observer does about places makes a difference. -/
theorem place_observed :
    (relay.programAt .here).Relocated relay.elsewhere (relay.programAt .remote) ∧
      (relays.tracedAt .here).Relocated relay.elsewhere (relays.tracedAt .remote) ∧
      ¬ List.Forall₂ (Record.Relocated False)
        (relay.runAt relays.tracedAt .here).pool.records.toList
        (relay.runAt relays.tracedAt .remote).pool.records.toList ∧
      (relays.attachedAt .here).toMeaning.Relocated relay.elsewhere
        (relays.attachedAt .remote).toMeaning ∧
      (relay.runAt relays.attachedAt .here).scene.callers[0]? =
        some (.ended (.ok (.of relay.number (7 : Int64)))) ∧
      (relay.runAt relays.attachedAt .remote).scene.callers[0]? =
        some (.ended (.error (.text "too far"))) := by
  have hmeaning := (relays.relocated .here .remote).toMeaningRelocated
  refine ⟨.andThen (.instr (.forkAt .here .remote _ rfl)) (.bind _ rfl),
    Policy.inline.relocated_runtime hmeaning _ _, fun h => ?_, hmeaning, rfl, rfl⟩
  -- The first that is logged is the fork itself, as it is about to be performed.
  have hfirst := forall₂_getElem? h 0
  change Option.Rel _ (some (Record.instruction (forkShape .here) 1))
    (some (Record.instruction (forkShape .remote) 1)) at hfirst
  obtain ⟨hfirst⟩ := hfirst
  exact absurd (hfirst.shape_eq not_false) (by simp [forkShape, Place.shape])

end Scene

end FiberPrograms
