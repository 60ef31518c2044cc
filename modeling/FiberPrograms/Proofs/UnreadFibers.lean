import FiberPrograms.Proofs.Drifts
import FiberPrograms.Proofs.ScheduleIndependence
import FiberPrograms.Proofs.Twins

/-!
# Fibers that nobody reads

Set some fibers apart, and compare two executions of a program that follow the same schedule, except
that anything may become of the jobs of these fibers. As long as nobody reads a fiber set apart, the
executions remain alike in everything else. For a schedule decides whose turn it is and what is done
to the queue, which leaves one way for a scene to go on, and a fiber that is not read does not show
in it. The pools of the two executions are thus twins but for the fibers set apart, and the threads
are the same.

If all fibers are set apart, a schedule decides no more than how often it is the program's turn.
Hence a program that reads no fiber does the same with every spawner.

## Main definitions

* `cues`: the schedule that a story follows, but for the fibers set apart
* `Scene.Likened`: two scenes differ in nothing but in the fibers set apart

## Main results

* `Scene.Drift.likened`: what becomes of the fibers set apart makes no difference
* `Scene.Likened.follow`: what happens in one scene can happen in the other
* `Scene.Incident.deterministic`: a schedule leaves one way to go on
* `Scene.likened_of_cues_eq`: executions that follow the same schedule remain alike
* `Scene.exists_completion`: where a program reads no fiber, all its executions come to the same
* `Scene.fate_of_unread_fibers`: the fate of fibers that nobody reads does not matter
-/

namespace FiberPrograms

variable {S : Signature} {W α : Type} {H : Holdings S} {U : Set FiberId}

/-! ## What becomes of the fibers set apart -/

namespace Pool

variable {pool : Pool S W} {fiber : FiberId}

theorem twins_cutShort (hfiber : fiber ∈ U) (ending : Ending S) (pool : Pool S W) :
    pool.Twins U Eq (pool.cutShort fiber ending) := by
  refine (twins_set hfiber (.ended ending) pool).trans (twins_queue _ ?_) Eq.trans
  rw [queueBut, queueBut, Array.toList_filter, List.filter_filter]
  refine List.filter_congr fun other _ => ?_
  by_cases hother : other ∈ U
  · simp [hother]
  · have hne : other ≠ fiber := by
      rintro rfl
      exact hother hfiber
    simp [hother, hne]

end Pool

/-! ## Schedules, but for the fibers set apart -/

/-- Whether this is the job of a fiber set apart. -/
def Actor.Apart (U : Set FiberId) (who : Actor) : Prop :=
  ∃ fiber ∈ U, who = .job fiber

/-- What a schedule decides: whose turn it is, or what is done to a job in the queue. -/
inductive Cue (S : Signature) where
  | turn (who : Actor)
  | deal (deed : Deed S)

open Classical in
/-- What has been decided for an entry to be told, unless it has to do with a fiber set apart. -/
noncomputable def Entry.cue? (U : Set FiberId) : Entry S → Option (Cue S)
  | did who _ _ => if who.Apart U then none else some (.turn who)
  | ended who _ _ => if who.Apart U then none else some (.turn who)
  | queued deed => if deed.fiber ∈ U then none else some (.deal deed)

/-- The schedule that a story follows, but for the fibers set apart. -/
noncomputable def cues (U : Set FiberId) (entries : List (Entry S)) : List (Cue S) :=
  entries.filterMap (Entry.cue? U)

/-- A fiber set apart is read, and not by the job of another. -/
def Entry.Pries (U : Set FiberId) (entry : Entry S) : Prop :=
  ∃ who fiber, entry.who? = some who ∧ entry.read? = some fiber ∧ fiber ∈ U ∧ ¬ who.Apart U

theorem Actor.not_apart_caller (place : Nat) : ¬ (Actor.caller place).Apart U := by
  rintro ⟨fiber, -, h⟩
  cases h

theorem Actor.apart_job {fiber : FiberId} : (Actor.job fiber).Apart U ↔ fiber ∈ U := by
  constructor
  · rintro ⟨other, hother, h⟩
    cases h
    exact hother
  · intro hfiber
    exact ⟨fiber, hfiber, rfl⟩

/-- A turn is taken by whoever's turn it is. -/
theorem Entry.who?_of_cue? {entry : Entry S} {who : Actor}
    (h : entry.cue? U = some (.turn who)) : entry.who? = some who := by
  cases entry with
  | did other activity deeds | ended other outcome deeds =>
    simp only [cue?, Option.ite_none_left_eq_some, Option.some.injEq, Cue.turn.injEq] at h
    exact congrArg some h.2
  | queued deed => simp [cue?] at h

theorem cues_append (entries more : List (Entry S)) :
    cues U (entries ++ more) = cues U entries ++ cues U more :=
  List.filterMap_append

/-! ## Moves that are made in both executions -/

section Moves

variable {R : Runtime S W} {s : Spawner} {pool pool' pool₁ : Pool S W} {busy : Prop}

/-- A plain computation that has to do with the fibers set apart starts one, or reads one. -/
theorem Comp.Confined.of_heeds {post : α → Prop} {c : Comp S α} (h : c.Plain busy post)
    (hheeds : c.Heeds U) :
    (∃ fiber ∈ U, ∃ action, c.activity R pool = .handed fiber action) ∨
      ∃ fiber ∈ U, c.activity R pool = .read fiber := by
  cases c with
  | done a | fail fault => exact hheeds.elim
  | ask request k =>
    cases request with
    | start fiber action => exact .inl ⟨fiber, hheeds, action, rfl⟩
    | keep fiber action | ended fiber => exact h.1.2.elim
    | newFiber | note | sight | log | perform => exact hheeds.elim
  | demand d k =>
    cases d with
    | read fiber => exact .inr ⟨fiber, hheeds, rfl⟩
    | interpret yields machine => exact hheeds.elim
  | runQueue k => exact h.elim

/-- What starts an action is a request to start it. -/
theorem Comp.exists_of_handed {c : Comp S α} {fiber : FiberId} {action : S.Action}
    (h : c.activity R pool = .handed fiber action) : ∃ k, c = .ask (.start fiber action) k := by
  cases c with
  | ask request k =>
    cases request with
    | start fiber' action' =>
      cases h
      exact ⟨k, rfl⟩
    | _ => cases h
  | demand d k => cases d <;> cases h
  | _ => cases h

theorem Comp.Starts.exists_handed {c : Comp S α} (h : c.Starts) :
    ∃ fiber action, c.activity R pool = .handed fiber action := by
  cases c with
  | ask request k =>
    cases request with
    | start fiber action => exact ⟨fiber, action, rfl⟩
    | _ => exact h.elim
  | _ => exact h.elim

/-- A move is made alike in both executions, whatever becomes of a job that it may start. -/
structure Thread.Follows (U : Set FiberId) (R R' : Runtime S W) (thread thread' : Thread S α)
    (pool pool' pool₁ : Pool S W) (launch launch' : Launch S) (pool₁' : Pool S W) : Prop where
  moved : thread.move R' pool' = (.moved thread' launch', pool₁')
  twins : pool₁.Twins U Eq pool₁'
  activity : thread.activity R' pool' = thread.activity R pool
  launches : launch' = launch ∨ launch.Apart U ∧ launch'.Apart U

/-- The move of a plain thread that reads none of the fibers set apart is made alike over twins. If
it starts the action of a fiber that is not set apart, the spawner has to be the same. -/
theorem Thread.Confined.follows {thread thread' : Thread S α} (h : thread.Plain busy)
    (htwins : pool.Twins U Eq pool')
    (hreads : ∀ fiber ∈ U, thread.activity R pool ≠ .read fiber)
    (hstarts : s = R.spawner ∨
      ∀ fiber action, thread.activity R pool = .handed fiber action → fiber ∈ U)
    {launch : Launch S} (moved : thread.move R pool = (.moved thread' launch, pool₁)) :
    ∃ launch' pool₁', Thread.Follows U R { R with spawner := s } thread thread' pool pool' pool₁
      launch launch' pool₁' := by
  by_cases hstart : ∃ fiber ∈ U, ∃ action, thread.activity R pool = .handed fiber action
  · -- The start of a fiber set apart changes nothing but that fiber.
    obtain ⟨fiber, hfiber, action, hhanded⟩ := hstart
    have hstarted : (pool.start R fiber action).2.Twins U Eq
        (pool'.start { R with spawner := s } fiber action).2 :=
      ((Pool.twins_start R hfiber action pool).symm Eq.symm).trans
        (htwins.trans (Pool.twins_start _ hfiber action pool') Eq.trans) Eq.trans
    have hapart := And.intro (Pool.apart_start R hfiber action pool)
      (Pool.apart_start { R with spawner := s } hfiber action pool')
    cases thread with
    | base c =>
      obtain ⟨k, rfl⟩ := Comp.exists_of_handed hhanded
      cases moved
      exact ⟨_, _, rfl, hstarted, rfl, .inr hapart⟩
    | nested c callers outer =>
      obtain ⟨k, rfl⟩ := Comp.exists_of_handed hhanded
      cases moved
      exact ⟨_, _, rfl, hstarted, rfl, .inr hapart⟩
  · -- The move neither reads nor starts any fiber set apart, so it cannot tell the twins from each
    -- other.
    have hheeds : ¬ thread.Heeds U := by
      intro hheeds
      have hactivity : (∃ fiber ∈ U, ∃ action, thread.activity R pool = .handed fiber action) ∨
          ∃ fiber ∈ U, thread.activity R pool = .read fiber := by
        cases h with
        | base h => exact h.of_heeds hheeds
        | nested h => exact h.of_heeds hheeds
      obtain hhanded | ⟨fiber, hfiber, hread⟩ := hactivity
      · exact hstart hhanded
      · exact hreads fiber hfiber hread
    have hspawner : s = R.spawner ∨ ¬ thread.Starts := by
      refine hstarts.imp_right fun hapart hthread => ?_
      obtain ⟨fiber, action, hhanded⟩ :
          ∃ fiber action, thread.activity R pool = .handed fiber action := by
        cases thread with
        | base c => exact Comp.Starts.exists_handed hthread
        | nested c callers outer => exact Comp.Starts.exists_handed hthread
      exact hstart ⟨fiber, hapart fiber action hhanded, action, hhanded⟩
    obtain ⟨⟨pool₁', moved', htwins'⟩, hactivity, -⟩ :=
      Thread.move_twins R.blind_eq htwins hheeds hspawner moved
    exact ⟨launch, pool₁', moved', htwins', hactivity, .inl rfl⟩

/-- The jobs of other fibers are the same after the move if they were before it. -/
theorem Thread.Follows.otherJobs_onto {R' : Runtime S W} {thread thread' : Thread S α}
    {pool₁' : Pool S W} {launch launch' : Launch S}
    (h : Thread.Follows U R R' thread thread' pool pool' pool₁ launch launch' pool₁')
    {jobs jobs' : List (Job S)} (hjobs : otherJobs U jobs' = otherJobs U jobs) :
    otherJobs U (launch'.onto jobs') = otherJobs U (launch.onto jobs) := by
  obtain rfl | ⟨hlaunch, hlaunch'⟩ := h.launches
  · exact otherJobs_onto_congr launch' hjobs
  · rw [FiberPrograms.otherJobs_onto hlaunch, FiberPrograms.otherJobs_onto hlaunch', hjobs]

end Moves

/-! ## Scenes that differ in the fibers set apart -/

namespace Scene

/-- The scenes differ in nothing but in the fibers set apart and their jobs, and in the log. -/
structure Likened (U : Set FiberId) (scene scene' : Scene S W α) : Prop where
  twins : scene.pool.Twins U Eq scene'.pool
  events : scene'.pool.events = scene.pool.events
  callers : scene'.callers = scene.callers
  jobs : otherJobs U scene'.jobs = otherJobs U scene.jobs

namespace Likened

variable {scene scene' scene'' : Scene S W α}

theorem refl (scene : Scene S W α) : Likened U scene scene :=
  ⟨.refl (fun _ => rfl) _, rfl, rfl, rfl⟩

theorem symm (h : Likened U scene scene') : Likened U scene' scene :=
  ⟨h.twins.symm Eq.symm, h.events.symm, h.callers.symm, h.jobs.symm⟩

theorem trans (h : Likened U scene scene') (h' : Likened U scene' scene'') :
    Likened U scene scene'' :=
  ⟨h.twins.trans h'.twins Eq.trans, h'.events.trans h.events, h'.callers.trans h.callers,
    h'.jobs.trans h.jobs⟩

end Likened

variable {R : Runtime S W} {scene scene' scene₁ : Scene S W α} {entries : List (Entry S)}

/-- What happens to a fiber set apart, or what its job does, makes no difference to anything else.
The programs in particular are where they were. -/
theorem Drift.likened (drift : Drift R U scene entries scene₁) (htidy : scene.Tidy)
    (hcues : cues U entries = []) : Likened U scene scene₁ := by
  cases drift with
  | incident incident =>
    cases incident with
    | caller | callerEnded => simp [cues, Entry.cue?, Actor.not_apart_caller] at hcues
    | @job pool pool' callers before after fiber thread thread' launch moved =>
      have hfiber : fiber ∈ U := by simpa [cues, Entry.cue?, Actor.apart_job] using hcues
      have hthread : thread.Plain False := htidy.jobsConfined ⟨fiber, thread⟩ (by simp)
      -- A plain job starts no fiber and says nothing, so the move leaves the pool as it is.
      obtain ⟨rfl, hlaunched, -⟩ := hthread.still moved
      have hlaunch : launch.Apart U := by simp [Launch.Apart, show launch.jobs = [] from hlaunched]
      refine ⟨.refl (fun _ => rfl) _, rfl, rfl, ?_⟩
      change otherJobs U (launch.onto _) = _
      rw [otherJobs_onto hlaunch]
      simp [otherJobs, hfiber]
    | @jobEnded pool pool' callers before after fiber thread outcome ended =>
      have hfiber : fiber ∈ U := by simpa [cues, Entry.cue?, Actor.apart_job] using hcues
      obtain ⟨-, rfl⟩ := Thread.of_ended ended
      refine ⟨Pool.twins_finish hfiber R.level outcome _, by simp, rfl, ?_⟩
      simp [otherJobs, hfiber]
    | @jobBegun pool pool' callers jobs position job started =>
      have hfiber : job.fiber ∈ U := by
        by_contra hfiber
        simp [cues, Entry.cue?, Deed.fiber, hfiber] at hcues
      obtain ⟨-, hevents⟩ := Pool.told_startAt started
      refine ⟨Pool.twins_startAt hfiber started, hevents, rfl, ?_⟩
      simp [otherJobs, hfiber]
    | @drop pool position fiber callers jobs queued =>
      have hfiber : fiber ∈ U := by
        by_contra hfiber
        simp [cues, Entry.cue?, Deed.fiber, hfiber] at hcues
      refine ⟨?_, by simp, rfl, rfl⟩
      exact (Pool.twins_erase hfiber queued).trans (Pool.twins_release hfiber R.level _) Eq.trans
  | fate callers jobs apart before pending ending =>
    -- The job that is cut short is one of those set apart, and the others are kept.
    refine ⟨Pool.twins_cutShort apart ending _, rfl, rfl, ?_⟩
    unfold otherJobs
    rw [List.filter_filter]
    refine List.filter_congr fun job _ => ?_
    by_cases hjob : job.fiber ∈ U
    · simp [hjob]
    · have hne : job.fiber ≠ _ := fun h => hjob (h ▸ apart)
      simp [hjob, hne]

/-! ## The same schedule -/

variable {s : Spawner} {entry : Entry S}

/-- Who is none of the jobs set apart, and does not pry, reads no fiber set apart. -/
theorem not_read_of_not_pries {who : Actor} {activity : Activity S} {deeds : List (Deed S)}
    (hpries : ¬ (Entry.did who activity deeds).Pries U) (hwho : ¬ who.Apart U) :
    ∀ fiber ∈ U, activity ≠ .read fiber := by
  rintro fiber hfiber rfl
  exact hpries ⟨who, fiber, rfl, rfl, hfiber, hwho⟩

section Follow

variable {pool pool' pool₁ : Pool S W} {callers : List (Main S α)} {jobs jobs' : List (Job S)}
  {fiber : FiberId} {busy : Prop} {launch : Launch S}

/-- A caller makes the same move. -/
theorem Likened.follow_caller {before after : List (Main S α)} {thread thread' : Thread S α}
    (h : Likened U ⟨pool, before ++ .running thread :: after, jobs⟩
      ⟨pool', before ++ .running thread :: after, jobs'⟩) (hthread : thread.Plain busy)
    (hreads : ∀ fiber ∈ U, thread.activity R pool ≠ .read fiber)
    (hstarts : s = R.spawner ∨
      ∀ fiber action, thread.activity R pool = .handed fiber action → fiber ∈ U)
    (moved : thread.move R pool = (.moved thread' launch, pool₁)) :
    ∃ entry' scene₁', Incident { R with spawner := s }
        ⟨pool', before ++ .running thread :: after, jobs'⟩ [entry'] scene₁' ∧
      entry'.cue? U = some (.turn (.caller before.length)) ∧
      Likened U ⟨pool₁, before ++ .running thread' :: after, launch.onto jobs⟩ scene₁' := by
  obtain ⟨launch', pool₁', hfollows⟩ := hthread.follows h.twins hreads hstarts moved
  refine ⟨_, _, .caller before after jobs' hfollows.moved, ?_, hfollows.twins,
    Thread.events_congr moved hfollows.moved hfollows.activity h.events, rfl,
    hfollows.otherJobs_onto h.jobs⟩
  simp [Entry.cue?, Actor.not_apart_caller]

/-- A job that is not set apart makes the same move, wherever it stands among the others. -/
theorem Likened.follow_job {before after : List (Job S)} {thread thread' : Thread S S.Value}
    (h : Likened U ⟨pool, callers, before ++ ⟨fiber, thread⟩ :: after⟩ ⟨pool', callers, jobs'⟩)
    (hfiber : fiber ∉ U) (hthread : thread.Plain busy)
    (hreads : ∀ other ∈ U, thread.activity R pool ≠ .read other)
    (hstarts : s = R.spawner ∨
      ∀ other action, thread.activity R pool = .handed other action → other ∈ U)
    (moved : thread.move R pool = (.moved thread' launch, pool₁)) :
    ∃ entry' scene₁',
      Incident { R with spawner := s } ⟨pool', callers, jobs'⟩ [entry'] scene₁' ∧
      entry'.cue? U = some (.turn (.job fiber)) ∧
      Likened U ⟨pool₁, callers, launch.onto (before ++ ⟨fiber, thread'⟩ :: after)⟩ scene₁' := by
  obtain ⟨launch', pool₁', hfollows⟩ := hthread.follows h.twins hreads hstarts moved
  obtain ⟨before', after', rfl, hbefore, hafter⟩ :=
    exists_split_job (h.jobs.trans (otherJobs_middle hfiber before after))
  refine ⟨_, _, .job _ before' after' hfollows.moved, ?_, hfollows.twins,
    Thread.events_congr moved hfollows.moved hfollows.activity h.events, rfl,
    hfollows.otherJobs_onto ?_⟩
  · simp [Entry.cue?, Actor.apart_job, hfiber]
  · rw [otherJobs_middle hfiber, otherJobs_middle hfiber, hbefore, hafter]

/-- A job that is not set apart ends with the same outcome. -/
theorem Likened.follow_jobEnded {before after : List (Job S)} {outcome : Except Fault S.Value}
    (h : Likened U ⟨pool, callers, before ++ ⟨fiber, .base (.ofExcept outcome)⟩ :: after⟩
      ⟨pool', callers, jobs'⟩) (hfiber : fiber ∉ U) :
    ∃ entry' scene₁',
      Incident { R with spawner := s } ⟨pool', callers, jobs'⟩ [entry'] scene₁' ∧
      entry'.cue? U = some (.turn (.job fiber)) ∧
      Likened U ⟨pool.finish R.level fiber outcome, callers, before ++ after⟩ scene₁' := by
  obtain ⟨before', after', rfl, hbefore, hafter⟩ :=
    exists_split_job (h.jobs.trans (otherJobs_middle hfiber before after))
  have ended' := Thread.move_ofExcept { R with spawner := s } pool' outcome
  refine ⟨_, _, .jobEnded _ before' after' ended', ?_, h.twins.finish hfiber R.level outcome, ?_,
    rfl, ?_⟩
  · simp [Entry.cue?, Actor.apart_job, hfiber]
  · simpa using h.events
  · rw [otherJobs_append, otherJobs_append, hbefore, hafter]

end Follow

/-- What happens in one execution happens in the other, if it has nothing to do with the fibers set
apart but that one of them may be started. -/
theorem Likened.follow (h : Likened U scene scene') (htidy : scene.Tidy)
    (incident : Incident R scene [entry] scene₁) (hcue : entry.cue? U ≠ none)
    (hpries : ¬ entry.Pries U)
    (hstarts : s = R.spawner ∨ ∀ fiber, entry.handed? = some fiber → fiber ∈ U) :
    ∃ entry' scene₁', Incident { R with spawner := s } scene' [entry'] scene₁' ∧
      entry'.cue? U = entry.cue? U ∧ Likened U scene₁ scene₁' := by
  obtain ⟨pool', callers', jobs'⟩ := scene'
  obtain rfl : callers' = _ := h.callers
  -- A cue says that the actor, or the fiber of the job in the queue, is not set apart; so the other
  -- scene has the same one, though its job may stand elsewhere in the queue.
  cases incident with
  | @caller pool pool₁ before after thread thread' launch jobs moved =>
    have hwho := Actor.not_apart_caller (U := U) before.length
    rw [Entry.cue?, if_neg hwho]
    refine h.follow_caller (htidy.callersConfined thread (by simp))
      (not_read_of_not_pries hpries hwho) (hstarts.imp_right fun h fiber action hactivity => ?_)
      moved
    exact h fiber (by simp [Entry.handed?, hactivity])
  | @callerEnded pool pool₁ before after thread outcome jobs ended =>
    obtain ⟨-, rfl⟩ := Thread.of_ended ended
    obtain rfl := Thread.eq_of_ended ended
    have ended' := Thread.move_ofExcept { R with spawner := s } pool' outcome
    exact ⟨_, _, .callerEnded before after jobs' ended', rfl, h.twins, h.events, rfl, h.jobs⟩
  | @job pool pool₁ callers before after fiber thread thread' launch moved =>
    have hfiber : fiber ∉ U := fun hfiber => by simp [Entry.cue?, Actor.apart_job, hfiber] at hcue
    have hwho : ¬ (Actor.job fiber).Apart U := by rwa [Actor.apart_job]
    rw [Entry.cue?, if_neg hwho]
    refine h.follow_job hfiber (htidy.jobsConfined ⟨fiber, thread⟩ (by simp))
      (not_read_of_not_pries hpries hwho) (hstarts.imp_right fun h other action hactivity => ?_)
      moved
    exact h other (by simp [Entry.handed?, hactivity])
  | @jobEnded pool pool₁ callers before after fiber thread outcome ended =>
    have hfiber : fiber ∉ U := fun hfiber => by simp [Entry.cue?, Actor.apart_job, hfiber] at hcue
    obtain ⟨-, rfl⟩ := Thread.of_ended ended
    obtain rfl := Thread.eq_of_ended ended
    rw [Entry.cue?, if_neg (by rwa [Actor.apart_job])]
    exact h.follow_jobEnded hfiber
  | @jobBegun pool pool₁ callers jobs position job started =>
    have hfiber : job.fiber ∉ U := fun hfiber => by simp [Entry.cue?, Deed.fiber, hfiber] at hcue
    obtain ⟨position', pool₁', started', htwins'⟩ := h.twins.startAt started hfiber
    refine ⟨_, _, .jobBegun _ jobs' started', rfl, htwins', ?_, rfl,
      otherJobs_onto_congr (.ahead job) h.jobs⟩
    change pool₁'.events = pool₁.events
    rw [(Pool.told_startAt started).2, (Pool.told_startAt started').2]
    exact h.events
  | @drop pool position fiber callers jobs queued =>
    have hfiber : fiber ∉ U := fun hfiber => by simp [Entry.cue?, Deed.fiber, hfiber] at hcue
    obtain ⟨position', queued', htwins'⟩ := h.twins.drop R.level queued hfiber
    refine ⟨_, _, .drop _ jobs' queued', rfl, htwins', ?_, rfl, h.jobs⟩
    simpa using h.events

/-- The job of a fiber is found in one place only. -/
theorem split_unique {before before' after after' : List (Job S)} {fiber : FiberId}
    {thread thread' : Thread S S.Value}
    (h : before ++ ⟨fiber, thread⟩ :: after = before' ++ ⟨fiber, thread'⟩ :: after')
    (hnodup : ((before ++ ⟨fiber, thread⟩ :: after).map Job.fiber).Nodup) :
    before = before' ∧ thread = thread' ∧ after = after' := by
  rw [List.map_append, List.map_cons, (List.perm_middle).nodup_iff, List.nodup_cons] at hnodup
  have hmem (jobs : List (Job S)) (hfiber : fiber ∉ jobs.map Job.fiber) :
      ⟨fiber, thread'⟩ ∉ jobs := fun hjob => hfiber (List.mem_map_of_mem hjob)
  obtain ⟨hbefore, hafter⟩ := not_or.mp (mt List.mem_append.mpr hnodup.1)
  obtain ⟨hb, hjob, ha⟩ :=
    (List.append_cons_inj_of_notMem (hmem before hbefore) (hmem after hafter)).mp h
  cases hjob
  exact ⟨hb, rfl, ha⟩

/-- A fiber stands in one place of the queue only. -/
theorem Counted.position_eq (h : scene.Counted) {position position' : Nat} {fiber : FiberId}
    (hqueued : scene.pool.queue[position]? = some fiber)
    (hqueued' : scene.pool.queue[position']? = some fiber) : position = position' := by
  rw [← Array.getElem?_toList] at hqueued hqueued'
  obtain ⟨hposition, -⟩ := List.getElem?_eq_some_iff.mp hqueued
  exact (List.getElem?_inj hposition h.queue_nodup).mp (hqueued.trans hqueued'.symm)

/-- A caller whose turn it is makes its move, or ends. -/
theorem Incident.of_callerTurn {pool : Pool S W} {before after : List (Main S α)}
    {thread : Thread S α} {jobs : List (Job S)}
    (incident : Incident R ⟨pool, before ++ .running thread :: after, jobs⟩ [entry] scene₁)
    (hwho : entry.who? = some (.caller before.length)) :
    (∃ thread' launch pool', thread.move R pool = (.moved thread' launch, pool') ∧
      scene₁ = ⟨pool', before ++ .running thread' :: after, launch.onto jobs⟩) ∨
    ∃ outcome pool', thread.move R pool = (.ended outcome, pool') ∧
      scene₁ = ⟨pool', before ++ .ended outcome :: after, jobs⟩ := by
  generalize hscene : Scene.mk pool (before ++ .running thread :: after) jobs = scene at incident
  cases incident with
  | caller before' after' jobs' moved =>
    have hlength : before'.length = before.length := by simpa [Entry.who?] using hwho
    obtain ⟨rfl, hcallers, rfl⟩ := Scene.mk.inj hscene
    obtain ⟨rfl, htail⟩ := List.append_inj hcallers hlength.symm
    cases htail
    exact .inl ⟨_, _, _, moved, rfl⟩
  | callerEnded before' after' jobs' ended =>
    have hlength : before'.length = before.length := by simpa [Entry.who?] using hwho
    obtain ⟨rfl, hcallers, rfl⟩ := Scene.mk.inj hscene
    obtain ⟨rfl, htail⟩ := List.append_inj hcallers hlength.symm
    cases htail
    exact .inr ⟨_, _, ended, rfl⟩
  | _ => simp [Entry.who?] at hwho

/-- A job whose turn it is makes its move, or ends. -/
theorem Incident.of_jobTurn {pool : Pool S W} {callers : List (Main S α)}
    {before after : List (Job S)} {fiber : FiberId} {thread : Thread S S.Value}
    (hcounted : Counted (α := α) ⟨pool, callers, before ++ ⟨fiber, thread⟩ :: after⟩)
    (incident : Incident R ⟨pool, callers, before ++ ⟨fiber, thread⟩ :: after⟩ [entry] scene₁)
    (hwho : entry.who? = some (.job fiber)) :
    (∃ thread' launch pool', thread.move R pool = (.moved thread' launch, pool') ∧
      scene₁ = ⟨pool', callers, launch.onto (before ++ ⟨fiber, thread'⟩ :: after)⟩) ∨
    ∃ outcome pool', thread.move R pool = (.ended outcome, pool') ∧
      scene₁ = ⟨pool'.finish R.level fiber outcome, callers, before ++ after⟩ := by
  generalize hscene : Scene.mk pool callers (before ++ ⟨fiber, thread⟩ :: after) = scene at incident
  cases incident with
  | job callers' before' after' moved =>
    obtain rfl : _ = fiber := by simpa [Entry.who?] using hwho
    obtain ⟨rfl, rfl, hjobs⟩ := Scene.mk.inj hscene
    obtain ⟨rfl, rfl, rfl⟩ := split_unique hjobs hcounted.jobs_nodup
    exact .inl ⟨_, _, _, moved, rfl⟩
  | jobEnded callers' before' after' ended =>
    obtain rfl : _ = fiber := by simpa [Entry.who?] using hwho
    obtain ⟨rfl, rfl, hjobs⟩ := Scene.mk.inj hscene
    obtain ⟨rfl, rfl, rfl⟩ := split_unique hjobs hcounted.jobs_nodup
    exact .inr ⟨_, _, ended, rfl⟩
  | _ => simp [Entry.who?] at hwho

/-- A schedule decides everything: what happens by the same decision is the same. -/
theorem Incident.deterministic {scene₂ : Scene S W α} {entry' : Entry S} (hcounted : scene.Counted)
    (incident : Incident R scene [entry] scene₁) (incident' : Incident R scene [entry'] scene₂)
    (hcue : entry.cue? U ≠ none) (hsame : entry'.cue? U = entry.cue? U) : scene₂ = scene₁ := by
  cases incident with
  | caller before after jobs moved =>
    rw [Entry.cue?, if_neg (Actor.not_apart_caller _)] at hsame
    obtain ⟨_, _, _, moved', rfl⟩ | ⟨_, _, ended', rfl⟩ :=
      incident'.of_callerTurn (Entry.who?_of_cue? hsame)
    · cases moved.symm.trans moved'
      rfl
    · cases moved.symm.trans ended'
  | callerEnded before after jobs ended =>
    rw [Entry.cue?, if_neg (Actor.not_apart_caller _)] at hsame
    obtain ⟨_, _, _, moved', rfl⟩ | ⟨_, _, ended', rfl⟩ :=
      incident'.of_callerTurn (Entry.who?_of_cue? hsame)
    · cases ended.symm.trans moved'
    · cases ended.symm.trans ended'
      rfl
  | @job pool pool₁ callers before after fiber thread thread' launch moved =>
    have hfiber : fiber ∉ U := fun hfiber => by simp [Entry.cue?, Actor.apart_job, hfiber] at hcue
    rw [Entry.cue?, if_neg (by rwa [Actor.apart_job])] at hsame
    obtain ⟨_, _, _, moved', rfl⟩ | ⟨_, _, ended', rfl⟩ :=
      incident'.of_jobTurn hcounted (Entry.who?_of_cue? hsame)
    · cases moved.symm.trans moved'
      rfl
    · cases moved.symm.trans ended'
  | @jobEnded pool pool₁ callers before after fiber thread outcome ended =>
    have hfiber : fiber ∉ U := fun hfiber => by simp [Entry.cue?, Actor.apart_job, hfiber] at hcue
    rw [Entry.cue?, if_neg (by rwa [Actor.apart_job])] at hsame
    obtain ⟨_, _, _, moved', rfl⟩ | ⟨_, _, ended', rfl⟩ :=
      incident'.of_jobTurn hcounted (Entry.who?_of_cue? hsame)
    · cases ended.symm.trans moved'
    · cases ended.symm.trans ended'
      rfl
  | @jobBegun pool pool₁ callers jobs position job started =>
    have hfiber : job.fiber ∉ U := fun hfiber => by simp [Entry.cue?, Deed.fiber, hfiber] at hcue
    rw [Entry.cue?, Deed.fiber, if_neg hfiber] at hsame
    generalize hscene : Scene.mk pool callers jobs = scene' at incident'
    cases incident' with
    | @jobBegun pool' pool₁' callers' jobs' position' job' started' =>
      obtain ⟨-, hjob⟩ := by simpa [Entry.cue?] using hsame
      obtain ⟨rfl, rfl, rfl⟩ := Scene.mk.inj hscene
      -- A fiber waits in one place of the queue, so the same place has been taken.
      have hqueued := Pool.queued_of_startAt started'
      rw [hjob] at hqueued
      obtain rfl := hcounted.position_eq (Pool.queued_of_startAt started) hqueued
      cases started.symm.trans started'
      rfl
    | _ => simp [Entry.cue?] at hsame
  | @drop pool position fiber callers jobs queued =>
    have hfiber : fiber ∉ U := fun hfiber => by simp [Entry.cue?, Deed.fiber, hfiber] at hcue
    rw [Entry.cue?, Deed.fiber, if_neg hfiber] at hsame
    generalize hscene : Scene.mk pool callers jobs = scene' at incident'
    cases incident' with
    | drop callers' jobs' queued' =>
      obtain ⟨-, rfl⟩ := by simpa [Entry.cue?] using hsame
      obtain ⟨rfl, rfl, rfl⟩ := Scene.mk.inj hscene
      obtain rfl := hcounted.position_eq queued queued'
      rfl
    | _ => simp [Entry.cue?] at hsame

/-! ## Two executions -/

/-- At most one thing is told of what drifts. -/
theorem Drift.entries_eq (drift : Drift R U scene entries scene₁) :
    entries = [] ∨ ∃ entry, entries = [entry] ∧ Incident R scene [entry] scene₁ := by
  cases drift with
  | incident incident =>
    obtain ⟨entry, rfl⟩ := incident.exists_entry
    exact .inr ⟨entry, rfl, incident⟩
  | fate => exact .inl rfl

/-- What drifts follows one decision of the schedule, or none. -/
theorem Drift.cases_cues (drift : Drift R U scene entries scene₁) :
    cues U entries = [] ∨ ∃ entry cue, entries = [entry] ∧ Incident R scene [entry] scene₁ ∧
      entry.cue? U = some cue ∧ cues U entries = [cue] := by
  obtain rfl | ⟨entry, rfl, incident⟩ := drift.entries_eq
  · exact .inl rfl
  · cases hcue : entry.cue? U with
    | none => exact .inl (by simp [cues, hcue])
    | some cue => exact .inr ⟨entry, cue, rfl, incident, hcue, by simp [cues, hcue]⟩

theorem Tidy.trail (hR : R.toInterpreter.Plain) (htidy : scene.Tidy)
    (story : Trail (Drift R U) scene entries scene₁) : scene₁.Tidy := by
  induction story with
  | refl => exact htidy
  | tail _ last ih => exact ih.drift hR last

/-- As long as nothing is decided, nothing happens but to the fibers set apart. -/
theorem likened_of_cues_nil (hR : R.toInterpreter.Plain) (htidy : scene.Tidy)
    (story : Trail (Drift R U) scene entries scene₁) (hcues : cues U entries = []) :
    Likened U scene scene₁ := by
  induction story with
  | refl => exact .refl scene
  | tail story last ih =>
    rw [cues_append, List.append_eq_nil_iff] at hcues
    exact (ih hcues.1).trans (last.likened (htidy.trail hR story) hcues.2)

/-- The last decision of a schedule comes somewhere in its story. -/
theorem exists_last_cue {before : List (Cue S)} {cue : Cue S}
    (story : Trail (Drift R U) scene entries scene₁) (hcues : cues U entries = before ++ [cue]) :
    ∃ es entry es' scene₂ scene₃, Trail (Drift R U) scene es scene₂ ∧ cues U es = before ∧
      Incident R scene₂ [entry] scene₃ ∧ entry.cue? U = some cue ∧
      Trail (Drift R U) scene₃ es' scene₁ ∧ cues U es' = [] ∧ entries = es ++ entry :: es' := by
  induction story with
  | refl => simp [cues] at hcues
  | @tail scene₁ scene₂ es more story last ih =>
    rw [cues_append] at hcues
    obtain hnone | ⟨entry, cue', rfl, incident, hcue, hmore⟩ := last.cases_cues
    · rw [hnone, List.append_nil] at hcues
      obtain ⟨es₁, entry, es₂, scene₃, scene₄, htrail, hbefore, hincident, hcue, hrest, hnil,
        rfl⟩ := ih hcues
      refine ⟨es₁, entry, es₂ ++ more, scene₃, scene₄, htrail, hbefore, hincident, hcue,
        hrest.tail last, ?_, by simp⟩
      rw [cues_append, hnil, hnone, List.append_nil]
    · rw [hmore] at hcues
      obtain ⟨hbefore, hlast⟩ := List.append_inj' hcues rfl
      cases hlast
      exact ⟨es, entry, [], scene₁, scene₂, story, hbefore, incident, hcue, .refl, rfl, rfl⟩

/-- A story can be cut wherever its schedule is. -/
theorem exists_cut {before after : List (Cue S)} (story : Trail (Drift R U) scene entries scene₁)
    (hcues : cues U entries = before ++ after) :
    ∃ es es' scene₂, Trail (Drift R U) scene es scene₂ ∧ cues U es = before ∧
      Trail (Drift R U) scene₂ es' scene₁ ∧ cues U es' = after ∧ entries = es ++ es' := by
  induction story generalizing after with
  | refl =>
    obtain ⟨rfl, rfl⟩ := List.append_eq_nil_iff.mp hcues.symm
    exact ⟨[], [], scene, .refl, rfl, .refl, rfl, rfl⟩
  | @tail scene₁ scene₂ es more story last ih =>
    obtain rfl | ⟨after, cue, rfl⟩ := List.eq_nil_or_concat after
    · exact ⟨_, [], scene₂, story.tail last, by simpa using hcues, .refl, rfl, by simp⟩
    · rw [cues_append] at hcues
      obtain hnone | ⟨entry, cue', rfl, -, -, hmore⟩ := last.cases_cues
      · rw [hnone, List.append_nil] at hcues
        obtain ⟨es₁, es₂, scene₃, hfirst, hes₁, hsecond, hes₂, rfl⟩ := ih hcues
        refine ⟨es₁, es₂ ++ more, scene₃, hfirst, hes₁, hsecond.tail last, ?_, by simp⟩
        rw [cues_append, hes₂, hnone, List.append_nil]
      · rw [hmore, List.concat_eq_append, ← List.append_assoc] at hcues
        obtain ⟨hbefore, hcue⟩ := List.append_inj' hcues rfl
        obtain ⟨es₁, es₂, scene₃, hfirst, hes₁, hsecond, hes₂, rfl⟩ := ih hbefore
        refine ⟨es₁, es₂ ++ [entry], scene₃, hfirst, hes₁, hsecond.tail last, ?_, by simp⟩
        rw [cues_append, hes₂, hmore, hcue, List.concat_eq_append]

section Executions

variable {start scene' : Scene S W α} {entries' : List (Entry S)} (hR : R.toInterpreter.Plain)

include hR in
/-- Two executions that follow the same schedule differ in nothing but in the fibers set apart,
provided that nobody pries into those. -/
theorem likened_of_cues_eq (htidy : start.Tidy)
    (story : Trail (Drift R U) start entries scene)
    (story' : Trail (Drift { R with spawner := s } U) start entries' scene')
    (hcues : cues U entries' = cues U entries) (hpries : ∀ entry ∈ entries, ¬ entry.Pries U)
    (hstarts : s = R.spawner ∨ ∀ fiber ∈ handedFibers entries, fiber ∈ U) :
    Likened U scene scene' := by
  have hR' : ({ R with spawner := s } : Runtime S W).toInterpreter.Plain := hR
  -- By induction on the decisions of the schedule, in the order in which the first execution has
  -- come to follow them.
  induction story generalizing entries' scene' with
  | refl => exact likened_of_cues_nil hR' htidy story' hcues
  | @tail scene₁ scene₂ es more story last ih =>
    have hpries₁ : ∀ entry ∈ es, ¬ entry.Pries U := fun entry hentry =>
      hpries entry (List.mem_append_left _ hentry)
    have hstarts₁ : s = R.spawner ∨ ∀ fiber ∈ handedFibers es, fiber ∈ U :=
      hstarts.imp_right fun h fiber hfiber => h fiber (by simp [hfiber])
    have htidy₁ := htidy.trail hR story
    rw [cues_append] at hcues
    obtain hnone | ⟨entry, cue, rfl, incident, hcue, hmore⟩ := last.cases_cues
    · rw [hnone, List.append_nil] at hcues
      exact (last.likened htidy₁ hnone).symm.trans (ih story' hcues hpries₁ hstarts₁)
    · rw [hmore] at hcues
      obtain ⟨es₁, entry', es₂, scene₃, scene₄, hbefore, hes₁, hincident, hcue', hafter, hes₂, -⟩ :=
        exists_last_cue story' hcues
      have hlikened := ih hbefore hes₁ hpries₁ hstarts₁
      have hsome : entry.cue? U ≠ none := by simp [hcue]
      have hhanded : s = R.spawner ∨ ∀ fiber, entry.handed? = some fiber → fiber ∈ U :=
        hstarts.imp_right fun h fiber hfiber => h fiber (by simp [handedFibers, hfiber])
      -- The second execution follows the decision too, and there is one way of doing so.
      obtain ⟨entry'', scene₄', hfollowed, hcue'', hlikened'⟩ :=
        hlikened.follow htidy₁ incident hsome (hpries entry (by simp)) hhanded
      have htidy₃ : scene₃.Tidy := htidy.trail hR' hbefore
      have hsome'' : entry''.cue? U ≠ none := hcue''.trans_ne hsome
      have hsame : entry'.cue? U = entry''.cue? U := by rw [hcue', hcue'', hcue]
      obtain rfl := hfollowed.deterministic htidy₃.toCounted hincident hsome'' hsame
      have hdrift : Drift { R with spawner := s } U scene₃ [entry'] scene₄ := .incident hincident
      have htidy₄ : scene₄.Tidy := htidy₃.drift hR' hdrift
      exact hlikened'.trans (likened_of_cues_nil hR' htidy₄ hafter hes₂)

include hR in
/-- Whatever an execution has been, another can go on as it does, without anybody's help. -/
theorem exists_following (htidy : scene.Tidy) (story : Trail (Drift R U) scene entries scene₁)
    (hlikened : Likened U scene scene') (hpries : ∀ entry ∈ entries, ¬ entry.Pries U)
    (hstarts : s = R.spawner ∨ ∀ fiber ∈ handedFibers entries, fiber ∈ U) :
    ∃ es scene₁', Trail (Incident { R with spawner := s }) scene' es scene₁' ∧
      cues U es = cues U entries ∧ (∀ entry ∈ es, entry.cue? U ≠ none) ∧
      Likened U scene₁ scene₁' := by
  induction story with
  | refl => exact ⟨[], scene', .refl, rfl, by simp, hlikened⟩
  | @tail scene₁ scene₂ es more story last ih =>
    obtain ⟨es', scene₁', htrail, hes', hall, hlikened₁⟩ :=
      ih (fun entry hentry => hpries entry (List.mem_append_left _ hentry))
        (hstarts.imp_right fun h fiber hfiber => h fiber (by simp [hfiber]))
    have htidy₁ := htidy.trail hR story
    rw [cues_append]
    -- What gives no cue concerns the fibers set apart only, so the other execution need not follow.
    obtain hnone | ⟨entry, cue, rfl, incident, hcue, hmore⟩ := last.cases_cues
    · refine ⟨es', scene₁', htrail, by rw [hnone, List.append_nil, hes'], hall, ?_⟩
      exact (last.likened htidy₁ hnone).symm.trans hlikened₁
    · have hsome : entry.cue? U ≠ none := by simp [hcue]
      have hhanded : s = R.spawner ∨ ∀ fiber, entry.handed? = some fiber → fiber ∈ U :=
        hstarts.imp_right fun h fiber hfiber => h fiber (by simp [handedFibers, hfiber])
      obtain ⟨entry', scene₂', hfollowed, hcue', hlikened₂⟩ :=
        hlikened₁.follow htidy₁ incident hsome (hpries entry (by simp)) hhanded
      refine ⟨es' ++ [entry'], scene₂', htrail.tail hfollowed, ?_, ?_, hlikened₂⟩
      · rw [cues_append, hes', hmore]
        simp [cues, hcue', hcue]
      · intro other hother
        obtain hother | hother := List.mem_append.mp hother
        · exact hall other hother
        · obtain rfl := List.mem_singleton.mp hother
          rw [hcue', hcue]
          simp

end Executions

/-! ## Programs that read no fiber -/

/-- If all fibers are set apart, what is left to decide is whether the program goes on. -/
theorem Drift.of_univ {main : Main S α} (drift : Drift R Set.univ scene entries scene₁)
    (hcallers : scene.callers = [main]) :
    (∃ main', scene₁.callers = [main']) ∧
      ∀ entry ∈ entries, entry.cue? Set.univ = none ∨
        entry.cue? Set.univ = some (.turn (.caller 0)) ∧ ∃ thread, main = .running thread := by
  have honly {before after : List (Main S α)} {caller : Main S α}
      (hlist : before ++ caller :: after = [main]) : before = [] ∧ caller = main ∧ after = [] := by
    simpa [List.append_eq_singleton_iff] using hlist
  have hjob (fiber : FiberId) : (Actor.job fiber).Apart Set.univ :=
    Actor.apart_job.mpr (Set.mem_univ fiber)
  cases drift with
  | incident incident =>
    cases incident with
    | caller before after jobs moved =>
      obtain ⟨rfl, rfl, rfl⟩ := honly hcallers
      simp [Entry.cue?, Actor.not_apart_caller]
    | callerEnded before after jobs ended =>
      obtain ⟨rfl, rfl, rfl⟩ := honly hcallers
      simp [Entry.cue?, Actor.not_apart_caller]
    | job => exact ⟨⟨main, hcallers⟩, by simp [Entry.cue?, hjob]⟩
    | jobEnded => exact ⟨⟨main, hcallers⟩, by simp [Entry.cue?, hjob]⟩
    | jobBegun => exact ⟨⟨main, hcallers⟩, by simp [Entry.cue?]⟩
    | drop => exact ⟨⟨main, hcallers⟩, by simp [Entry.cue?]⟩
  | fate => exact ⟨⟨main, hcallers⟩, by simp⟩

/-- Then the schedule of a program is a number of turns of its own. -/
theorem cues_of_univ {main : Main S α} (story : Trail (Drift R Set.univ) scene entries scene₁)
    (hcallers : scene.callers = [main]) :
    (∃ main', scene₁.callers = [main']) ∧
      (∀ entry ∈ entries, ∀ cue, entry.cue? Set.univ = some cue → cue = .turn (.caller 0)) ∧
      ∃ turns, cues Set.univ entries = List.replicate turns (.turn (.caller 0)) := by
  have hall : (∃ main', scene₁.callers = [main']) ∧
      ∀ entry ∈ entries, ∀ cue, entry.cue? Set.univ = some cue → cue = .turn (.caller 0) := by
    induction story with
    | refl => exact ⟨⟨main, hcallers⟩, by simp⟩
    | tail _ last ih =>
      obtain ⟨⟨main', hmain⟩, hall⟩ := ih
      obtain ⟨hmain', hlast⟩ := last.of_univ hmain
      refine ⟨hmain', fun entry hentry cue hcue => ?_⟩
      obtain hentry | hentry := List.mem_append.mp hentry
      · exact hall entry hentry cue hcue
      · obtain hnone | ⟨hturn, -⟩ := hlast entry hentry
        · cases hnone.symm.trans hcue
        · exact Option.some.inj (hcue.symm.trans hturn)
  refine ⟨hall.1, hall.2, (cues Set.univ entries).length, ?_⟩
  refine List.eq_replicate_of_mem fun cue hcue => ?_
  obtain ⟨entry, hentry, hcue⟩ := List.mem_filterMap.mp hcue
  exact hall.2 entry hentry cue hcue

/-- A program that has ended has no more turns. -/
theorem cues_of_ended {outcome : Except Fault α} (hR : R.toInterpreter.Plain) (htidy : scene.Tidy)
    (story : Trail (Drift R Set.univ) scene entries scene₁)
    (hcallers : scene.callers = [.ended outcome]) :
    scene₁.callers = [.ended outcome] ∧ cues Set.univ entries = [] := by
  induction story with
  | refl => exact ⟨hcallers, rfl⟩
  | @tail scene₁ scene₂ es more story last ih =>
    obtain ⟨hcallers₁, hnone⟩ := ih
    obtain ⟨-, hlast⟩ := last.of_univ hcallers₁
    have hcues : cues Set.univ more = [] := by
      refine List.filterMap_eq_nil_iff.mpr fun entry hentry => ?_
      obtain hnone | ⟨-, thread, hthread⟩ := hlast entry hentry
      · exact hnone
      · cases hthread
    refine ⟨?_, by rw [cues_append, hnone, hcues]; rfl⟩
    rw [(last.likened (htidy.trail hR story) hcues).callers, hcallers₁]

/-- If a program has come to an outcome and read no fiber, then any execution of it can go on until
the program has done the same, by turns of the program only. -/
theorem exists_completion {start scene' : Scene S W α} {main : Main S α}
    {outcome : Except Fault α} {entries' : List (Entry S)} (hR : R.toInterpreter.Plain)
    (htidy : start.Tidy) (hcallers : start.callers = [main])
    (story : Trail (Drift R Set.univ) start entries scene)
    (hended : scene.callers = [.ended outcome])
    (hpries : ∀ entry ∈ entries, ¬ entry.Pries Set.univ)
    (story' : Trail (Drift { R with spawner := s } Set.univ) start entries' scene') :
    ∃ more scene'', Trail (Incident { R with spawner := s }) scene' more scene'' ∧
      (∀ entry ∈ more, entry.who? = some (.caller 0)) ∧ Likened Set.univ scene scene'' := by
  have hR' : ({ R with spawner := s } : Runtime S W).toInterpreter.Plain := hR
  have hstarts (es : List (Entry S)) :
      s = R.spawner ∨ ∀ fiber ∈ handedFibers es, fiber ∈ Set.univ :=
    .inr fun fiber _ => Set.mem_univ fiber
  obtain ⟨-, hturn, turns, hturns⟩ := cues_of_univ story hcallers
  obtain ⟨-, -, turns', hturns'⟩ := cues_of_univ story' hcallers
  obtain hle | hle := le_total turns' turns
  · -- The second execution is behind: the program can take the turns that are missing.
    obtain ⟨behind, rfl⟩ := Nat.exists_eq_add_of_le hle
    rw [List.replicate_add] at hturns
    obtain ⟨es, es', scene₁, hfirst, hes, hrest, -, rfl⟩ := exists_cut story hturns
    have hlikened : Likened Set.univ scene₁ scene' :=
      likened_of_cues_eq hR htidy hfirst story' (hturns'.trans hes.symm)
        (fun entry hentry => hpries entry (List.mem_append_left _ hentry)) (hstarts es)
    obtain ⟨more, scene'', htrail, hmore, hall, hlikened'⟩ :=
      exists_following hR (htidy.trail hR hfirst) hrest hlikened
        (fun entry hentry => hpries entry (List.mem_append_right _ hentry)) (hstarts es')
    refine ⟨more, scene'', htrail, fun entry hentry => ?_, hlikened'⟩
    obtain ⟨cue, hcue⟩ := Option.ne_none_iff_exists'.mp (hall entry hentry)
    have hmem : cue ∈ cues Set.univ es' :=
      hmore ▸ List.mem_filterMap.mpr ⟨entry, hentry, hcue⟩
    obtain ⟨other, hother, hcue'⟩ := List.mem_filterMap.mp hmem
    obtain rfl := hturn other (List.mem_append_right _ hother) cue hcue'
    exact Entry.who?_of_cue? hcue
  · -- The second execution has taken as many turns, or more, so it has ended too.
    obtain ⟨ahead, rfl⟩ := Nat.exists_eq_add_of_le hle
    rw [List.replicate_add] at hturns'
    obtain ⟨es, es', scene₁, hfirst, hes, hrest, -, rfl⟩ := exists_cut story' hturns'
    have hlikened : Likened Set.univ scene scene₁ :=
      likened_of_cues_eq hR htidy story hfirst (hes.trans hturns.symm) hpries (hstarts entries)
    have htidy₁ : scene₁.Tidy := htidy.trail hR' hfirst
    have hcues := (cues_of_ended hR' htidy₁ hrest (hlikened.callers.trans hended)).2
    exact ⟨[], scene', .refl, by simp, hlikened.trans (likened_of_cues_nil hR' htidy₁ hrest hcues)⟩

end Scene

/-! ## The fate of fibers that nobody reads -/

/-- A pool in which no job waits or is under way. -/
structure Pool.AtRest (pool : Pool S W) : Prop where
  queue : pool.queue = #[]
  not_waiting : ∀ fiber action, pool.get? fiber ≠ some (.waiting action)
  not_running : ∀ fiber, pool.get? fiber ≠ some .running

namespace Scene

/-- The scene in which a program is about to be run over a pool. -/
def ofProgram (pool : Pool S W) (yields : Ty S.Base) (program : S.Program) :
    Scene S W S.Value where
  pool := pool
  callers := [.running (.base (.interpret yields program))]
  jobs := []

theorem tidy_ofProgram {pool : Pool S W} (hpool : pool.AtRest) (yields : Ty S.Base)
    (program : S.Program) : (ofProgram pool yields program).Tidy where
  queue fiber := by
    have hwaiting := hpool.not_waiting fiber
    simp only [ofProgram, hpool.queue, List.count_nil]
    cases hstage : pool.get? fiber with
    | none => rfl
    | some stage => cases stage <;> simp_all [Fiber.isWaiting]
  jobs fiber := by
    have hrunning := hpool.not_running fiber
    simp only [ofProgram, List.map_nil, List.count_nil]
    cases hstage : pool.get? fiber with
    | none => rfl
    | some stage => cases stage <;> simp_all [Fiber.isRunning]
  callersConfined thread hthread := by
    cases List.mem_singleton.mp hthread
    exact .base ⟨trivial, fun outcome => Comp.confined_ofExcept outcome⟩
  jobsConfined job hjob := by cases hjob

/-- **The fate of a fiber that nobody reads does not matter.** Take a program whose continuations
and actions are pure, and set some fibers apart: their jobs may at any moment come to any end, in
one execution to another than in the other, or never begin. If two executions follow the same
schedule but for those jobs, and in the first one nobody reads a fiber set apart, other than the
jobs of such, then both have come to the same: to the same outcome, with the same events, and with
all other fibers in the same stages. Spawners may differ if only fibers set apart are started.

What becomes of a job leaves the program where it was. And if a program comes to an outcome without
reading any fiber, then with any spawner, whatever becomes of its jobs, it can always go on to that
outcome by itself, with the same events, and comes to no other. -/
theorem fate_of_unread_fibers {R : Runtime S W} (hpure : R.toMeaning.Pure H)
    (hreports : ∀ event, (R.observer event).Reports) {pool : Pool S W} (hpool : pool.AtRest)
    (yields : Ty S.Base) (program : S.Program) :
    (∀ {U : Set FiberId} {s s' : Spawner} {entries entries' : List (Entry S)}
      {scene scene' : Scene S W S.Value},
      Trail (Drift { R with spawner := s } U) (ofProgram pool yields program) entries scene →
      Trail (Drift { R with spawner := s' } U) (ofProgram pool yields program) entries' scene' →
      cues U entries' = cues U entries → (∀ entry ∈ entries, ¬ entry.Pries U) →
      (s' = s ∨ ∀ fiber ∈ handedFibers entries, fiber ∈ U) →
      scene'.callers = scene.callers ∧ scene'.pool.events = scene.pool.events ∧
      scene'.pool.nameOf = scene.pool.nameOf ∧ scene'.pool.world = scene.pool.world ∧
      ∀ fiber ∉ U, scene'.pool.get? fiber = scene.pool.get? fiber) ∧
    (∀ {U : Set FiberId} {entries : List (Entry S)} {scene scene' : Scene S W S.Value},
      Drift R U scene entries scene' →
      (∀ entry ∈ entries, ∀ place, entry.who? ≠ some (.caller place)) →
      scene'.callers = scene.callers) ∧
    ∀ {s s' : Spawner} {entries entries' : List (Entry S)} {scene scene' : Scene S W S.Value}
      {outcome : Except Fault S.Value},
      Trail (Drift { R with spawner := s } Set.univ) (ofProgram pool yields program) entries
        scene →
      (∀ entry ∈ entries, ∀ place, entry.who? = some (.caller place) → entry.read? = none) →
      scene.callers = [.ended outcome] →
      Trail (Drift { R with spawner := s' } Set.univ) (ofProgram pool yields program) entries'
        scene' →
      (∀ outcome', scene'.callers = [.ended outcome'] →
        outcome' = outcome ∧ scene'.pool.events = scene.pool.events) ∧
      ∃ more scene'', Trail (Incident { R with spawner := s' }) scene' more scene'' ∧
        (∀ entry ∈ more, entry.who? = some (.caller 0)) ∧
        scene''.callers = [.ended outcome] ∧ scene''.pool.events = scene.pool.events := by
  have hR (s : Spawner) : ({ R with spawner := s } : Runtime S W).toInterpreter.Plain :=
    Interpreter.plain hpure hreports
  have htidy := tidy_ofProgram hpool yields program
  refine ⟨?_, ?_, ?_⟩
  · intro U s s' entries entries' scene scene' story story' hcues hpries hstarts
    have hlikened := likened_of_cues_eq (hR s) htidy story story' hcues hpries hstarts
    refine ⟨hlikened.callers, hlikened.events, ?_, hlikened.twins.world.symm, fun fiber hfiber =>
      hlikened.twins.get? hfiber⟩
    funext fiber
    rw [Pool.nameOf, Pool.nameOf, hlikened.twins.sighted]
  · intro U entries scene scene' drift hentries
    cases drift with
    | incident incident =>
      cases incident with
      | caller | callerEnded => exact absurd rfl (hentries _ List.mem_cons_self _)
      | job | jobEnded | jobBegun | drop => rfl
    | fate => rfl
  · intro s s' entries entries' scene scene' outcome story hreads hended story'
    have hpries : ∀ entry ∈ entries, ¬ entry.Pries Set.univ := by
      rintro entry hentry ⟨who, fiber, hwho?, hread, -, hwho⟩
      cases who with
      | caller place => simp [hreads entry hentry place hwho?] at hread
      | job other => exact hwho (Actor.apart_job.mpr (Set.mem_univ other))
    obtain ⟨more, scene'', htrail, hmore, hlikened⟩ :=
      exists_completion (hR s) htidy rfl story hended hpries story'
    refine ⟨fun outcome' hended' => ?_, more, scene'', htrail, hmore,
      hlikened.callers.trans hended, hlikened.events⟩
    -- A program that has ended has nothing to go on with, so it had come to this outcome already.
    have htidy' : scene'.Tidy := htidy.trail (hR s') story'
    have hdrift : Trail (Drift { R with spawner := s' } Set.univ) scene' more scene'' :=
      htrail.mono .incident
    obtain ⟨hcallers, hcues⟩ := cues_of_ended (hR s') htidy' hdrift hended'
    have hback := likened_of_cues_nil (hR s') htidy' hdrift hcues
    have houtcome := hcallers.symm.trans (hlikened.callers.trans hended)
    refine ⟨?_, hback.events.symm.trans hlikened.events⟩
    simpa using houtcome

/-- What is told of a program that is let run by itself for some turns, and where that leads. -/
def alone (R : Runtime S W) : Nat → Scene S W α → List (Entry S) × Scene S W α
  | turns + 1, ⟨pool, [.running thread], jobs⟩ =>
    match thread.move R pool with
    | (.moved thread' launch, pool') =>
      let later := alone R turns ⟨pool', [.running thread'], launch.onto jobs⟩
      (.did (.caller 0) (thread.activity R pool) (thread.deeds R pool) :: later.1, later.2)
    | (.ended outcome, pool') =>
      ([.ended (.caller 0) (outcomeFault outcome) []], ⟨pool', [.ended outcome], jobs⟩)
    | _ => ([], ⟨pool, [.running thread], jobs⟩)
  | _, scene => ([], scene)

theorem trail_alone (R : Runtime S W) (turns : Nat) (scene : Scene S W α) :
    Trail (Incident R) scene (alone R turns scene).1 (alone R turns scene).2 := by
  fun_induction alone R turns scene with
  | case1 turns pool thread jobs thread' launch pool' moved later ih =>
    exact (Trail.single (.caller [] [] jobs moved)).trans ih
  | case2 turns pool thread jobs outcome pool' ended =>
    exact .single (.callerEnded [] [] jobs ended)
  | _ => exact .refl

/-- The program `relay.program` without its continuation. -/
def aloof : relay.Program :=
  .next (.fiber relay.number) (.ofInstr (.forkAt .here relay.number .seven))
    (.ofValue relay.number (7 : Int64))

/-- A program that starts a job beside itself and then goes its own way ends alike where the job is
thrown away at once. -/
theorem fate_of_unread_fibers_aloof :
    ∃ entries scene more, ∃ scene' : Scene relay Unit relay.Value,
      Trail (Incident relays) (ofProgram (.empty ()) relay.number aloof) entries scene ∧
      handedFibers entries = [⟨0⟩] ∧ scene.jobs.length = 1 ∧
      Trail (Incident { relays with spawner := .discarding })
        (ofProgram (.empty ()) relay.number aloof) more scene' ∧
      scene'.callers = [.ended (.ok (.of relay.number (7 : Int64)))] ∧
      scene'.pool.events = scene.pool.events := by
  have hpool : (Pool.empty () : Pool relay Unit).AtRest :=
    ⟨rfl, by simp [Pool.get?, Pool.empty], by simp [Pool.get?, Pool.empty]⟩
  have htrail := trail_alone relays 20 (ofProgram (.empty ()) relay.number aloof)
  have hstart : Trail (Drift { relays with spawner := .discarding } Set.univ)
      (ofProgram (.empty ()) relay.number aloof) [] (ofProgram (.empty ()) relay.number aloof) :=
    .refl
  have hreads : readFibers (alone relays 20 (ofProgram (.empty ()) relay.number aloof)).1 = [] :=
    rfl
  obtain ⟨-, more, scene', htrail', -, hended, hevents⟩ :=
    (fate_of_unread_fibers relays_pure Observer.reports_recording hpool relay.number aloof).2.2
      (s := .background) (htrail.mono .incident)
      (fun entry hentry _ _ => List.filterMap_eq_nil_iff.mp hreads entry hentry) rfl hstart
  exact ⟨_, _, more, scene', htrail, rfl, rfl, htrail', hended, hevents⟩

end Scene

end FiberPrograms
