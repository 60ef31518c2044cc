import FiberPrograms.Proofs.DeadlockFreedom
import FiberPrograms.Proofs.Forecasts
import Mathlib.Algebra.Ring.Nat

/-!
# Runs that are foretold

Every schedule keeps to a forecast. The main thread makes the foretold moves, one after the other,
or waits for a job; a job moves, and the ledger stays as it is. Jobs wait for nothing, so somebody
can always move until all is over; and there are only so many moves that can be made. So whatever
the schedule, the run comes to what has been foretold.

## Main definitions

* `Inevitable`: whatever steps are taken, sooner or later it comes to that
* `Scene.Abides`: a scene is as the ledger says
* `Scene.Fulfils`: all is over, and each action has been run once

## Main results

* `Scene.Abides.cases_move`: a job moves and the ledger stays as it is, or the main thread moves
* `Scene.Abides.inevitable`: the jobs come to their ends, and the main thread moves in between
* `Comp.Forecast.run`: whatever the schedule, a program comes to what has been foretold of it
-/

namespace FiberPrograms

variable {S : Signature} {W : Type}

/-- Whatever steps are taken, sooner or later it comes to that, after the deeds by then. -/
inductive Inevitable {σ δ : Type} (step : σ → List δ → σ → Prop) (goal : σ → List δ → Prop) :
    σ → List δ → Prop
  | reached {s : σ} {deeds : List δ} (h : goal s deeds) : Inevitable step goal s deeds
  | goesOn {s : σ} {deeds : List δ} (moves : ∃ more t, step s more t)
      (all : ∀ more t, step s more t → Inevitable step goal t (deeds ++ more)) :
      Inevitable step goal s deeds

theorem Inevitable.mono {σ δ : Type} {step : σ → List δ → σ → Prop} {goal goal' : σ → List δ → Prop}
    {s : σ} {deeds : List δ} (h : Inevitable step goal s deeds)
    (hgoal : ∀ t deeds, goal t deeds → goal' t deeds) : Inevitable step goal' s deeds := by
  induction h with
  | reached h => exact .reached (hgoal _ _ h)
  | goesOn moves _ ih => exact .goesOn moves ih

/-! ## Scenes that are as the ledger says -/

/-- The main thread makes a move, or ends. -/
inductive Main.Moves {α : Type} (R : Runtime S W) (pool : Pool S W) (jobs : List (Job S)) :
    Main S α → List (Deed S) → Scene S W α → Prop
  | moved {thread thread' : Thread S α} {launch : Launch S} {pool' : Pool S W}
      (moved : thread.move R pool = (.moved thread' launch, pool')) :
      Moves R pool jobs (.running thread) (thread.deeds R pool)
        ⟨pool', [.running thread'], launch.onto jobs⟩
  | ended {thread : Thread S α} {outcome : Except Fault α}
      (ended : thread.move R pool = (.ended outcome, pool)) :
      Moves R pool jobs (.running thread) [] ⟨pool, [.ended outcome], jobs⟩

namespace Scene

theorem move_of_main {α : Type} {R : Runtime S W} {pool : Pool S W} {jobs : List (Job S)}
    {main : Main S α} {more : List (Deed S)} {scene' : Scene S W α}
    (h : main.Moves R pool jobs more scene') : Move R ⟨pool, [main], jobs⟩ more scene' := by
  cases h with
  | moved moved => exact .caller [] [] jobs moved
  | ended ended => exact .callerEnded [] [] jobs ended

/-- A scene is as the ledger says, in a story that has begun with other deeds. -/
structure Abides (R : Runtime S W) (base : Pool S W) (before : List (Deed S)) (L : Ledger S)
    (scene : Scene S W S.Value) (deeds : List (Deed S)) : Prop where
  follows : scene.pool.Follows R.toInterpreter base scene.jobs L
  recorded : Recorded R scene (before ++ deeds)
  handed : L.errands.map Errand.deed = deeds.filter Deed.isHanded

/-- All is over, and the run has come to what has been foretold: each action has been handed over,
and run once, with the outcome that was known. -/
structure Fulfils (L : Ledger S) (outcome : Except Fault S.Value) (scene : Scene S W S.Value)
    (deeds : List (Deed S)) : Prop where
  callers : scene.callers = [.ended outcome]
  jobs : scene.jobs = []
  queue : scene.pool.queue = #[]
  events : scene.pool.events.toList = L.events
  handed : deeds.filter Deed.isHanded = L.errands.map Errand.deed
  lifeline : ∀ errand ∈ L.errands, Deed.lifeline errand.fiber deeds = errand.lifeline

/-- There is less to be done by jobs than there was: fewer of them wait, or those under way have
got further. -/
def Less (base : Pool S W) (later earlier : Scene S W S.Value) : Prop :=
  later.pool.queue.size < earlier.pool.queue.size ∨
    later.pool.queue.size = earlier.pool.queue.size ∧
      (later.jobs.map (Job.work base)).sum < (earlier.jobs.map (Job.work base)).sum

namespace Abides

variable {R : Runtime S W} {base pool : Pool S W} {before deeds more : List (Deed S)}
  {L L' : Ledger S} {scene scene' : Scene S W S.Value} {main : Main S S.Value}
  {jobs : List (Job S)} {errand : Errand S}

theorem step (h : scene.Abides R base before L deeds) (move : Move R scene more scene')
    (follows : scene'.pool.Follows R.toInterpreter base scene'.jobs L')
    (handed : L'.errands.map Errand.deed =
      L.errands.map Errand.deed ++ more.filter Deed.isHanded) :
    scene'.Abides R base before L' (deeds ++ more) where
  follows := follows
  recorded := by
    rw [← List.append_assoc]
    exact (h.recorded.step (.move move)).1
  handed := by rw [handed, h.handed, List.filter_append]

/-- Either a job moves, and there is less to be done by jobs, or the main thread does. -/
theorem cases_move (h : scene.Abides R base before L deeds) (hcallers : scene.callers = [main])
    (move : Move R scene more scene') :
    (scene'.callers = [main] ∧ scene'.Abides R base before L (deeds ++ more) ∧
      Less base scene' scene) ∨
    main.Moves R scene.pool scene.jobs more scene' := by
  have honly {earlier later : List (Main S S.Value)} {caller : Main S S.Value}
      (hlist : earlier ++ caller :: later = [main]) :
      earlier = [] ∧ caller = main ∧ later = [] := by
    simpa [List.append_eq_singleton_iff] using hlist
  -- What a job does is on no errand of the ledger.
  have hsame (hmore : ∀ deed ∈ more, deed.isHanded = false) :
      L.errands.map Errand.deed = L.errands.map Errand.deed ++ more.filter Deed.isHanded := by
    rw [List.filter_eq_nil_iff.mpr (by simpa using hmore), List.append_nil]
  cases id move with
  | caller earlier later jobs moved =>
    obtain ⟨rfl, rfl, rfl⟩ := honly hcallers
    exact .inr (.moved moved)
  | callerEnded earlier later jobs ended =>
    obtain ⟨rfl, rfl, rfl⟩ := honly hcallers
    obtain ⟨-, rfl⟩ := Thread.of_ended ended
    exact .inr (.ended ended)
  | @job pool pool' callers earlier later fiber thread thread' launch moved =>
    obtain ⟨errand, hmem, hfiber, c, rfl, hsettles⟩ := h.follows.jobs ⟨fiber, thread⟩ (by simp)
    rw [Thread.move] at moved
    obtain hended | ⟨c', hnext, hsettles', hless, hdeeds⟩ := hsettles.react (R := R) h.follows.kept
    · rw [hended] at moved
      cases moved
    · rw [hnext] at moved
      cases moved
      refine .inl ⟨hcallers, h.step move { h.follows with jobs := fun job hjob => ?_ }
        (hsame fun deed => hdeeds), .inr ⟨rfl, ?_⟩⟩
      · obtain hjob | rfl | hjob := by simpa [Launch.onto] using hjob
        · exact h.follows.jobs job (by simp [hjob])
        · exact ⟨errand, hmem, hfiber, c', rfl, hsettles'⟩
        · exact h.follows.jobs job (by simp [hjob])
      · simp [Launch.onto, Job.work, hless]
  | @jobEnded pool pool' callers earlier later fiber thread outcome ended =>
    obtain ⟨errand, hmem, hfiber, c, rfl, hsettles⟩ := h.follows.jobs ⟨fiber, thread⟩ (by simp)
    have hjob : ⟨fiber, .base c⟩ ∈ earlier ++ ⟨fiber, .base c⟩ :: later := by simp
    have hrunning := h.recorded.running hjob
    rw [Thread.move] at ended
    obtain hended | ⟨c', hnext, -⟩ := hsettles.react (R := R) h.follows.kept
    · rw [hended] at ended
      cases ended
      subst hfiber
      refine .inl ⟨hcallers, h.step move (h.follows.finish hmem hrunning R.level ?_)
        (hsame (by simp [Deed.isHanded])), .inr ⟨?_, ?_⟩⟩
      · intro job hjob
        exact (List.mem_append.mp hjob).elim (by simp +contextual) (by simp +contextual)
      · simp
      · simp [Job.work]
    · rw [hnext] at ended
      cases ended
  | jobBegun callers jobs started =>
    obtain ⟨hfollows, hless⟩ := h.follows.begin started
    exact .inl ⟨hcallers, h.step move hfollows (hsame (by simp [Deed.isHanded])), .inl hless⟩

/-- Nobody waits for a job under way. -/
theorem exists_move_of_job (h : scene.Abides R base before L deeds) {job : Job S}
    (hjob : job ∈ scene.jobs) : ∃ more scene', Move R scene more scene' := by
  obtain ⟨pool, callers, jobs⟩ := scene
  obtain ⟨errand, -, -, c, hthread, hsettles⟩ := h.follows.jobs job hjob
  obtain ⟨earlier, later, rfl⟩ := List.append_of_mem hjob
  obtain ⟨fiber, thread⟩ := job
  obtain rfl : thread = .base c := hthread
  obtain hended | ⟨c', hnext, -⟩ := hsettles.react (R := R) h.follows.kept
  · exact ⟨_, _, .jobEnded callers earlier later (by rw [Thread.move, hended])⟩
  · exact ⟨_, _, .job callers earlier later (by rw [Thread.move, hnext])⟩

/-- A job that waits in the queue can begin. -/
theorem exists_move_of_queued (h : scene.Abides R base before L deeds) {fiber : FiberId}
    (hfiber : fiber ∈ scene.pool.queue.toList) : ∃ more scene', Move R scene more scene' := by
  obtain ⟨pool, callers, jobs⟩ := scene
  obtain ⟨action, hwaiting⟩ := h.recorded.waiting hfiber
  obtain ⟨position, hposition⟩ := List.mem_iff_getElem?.mp hfiber
  rw [Array.getElem?_toList] at hposition
  obtain ⟨pool', hstart⟩ := Pool.exists_startAt R.toInterpreter hposition hwaiting
  exact ⟨_, _, .jobBegun callers jobs hstart⟩

/-- Who reads a fiber whose action has been handed over is told what is known of it, or waits, and
then there is a job that can move or begin. -/
theorem react_read (h : scene.Abides R base before L deeds) (hmem : errand ∈ L.errands) {α : Type}
    (k : Except Fault S.Value → Comp S α) :
    (Comp.demand (.read errand.fiber) k).react R scene.pool =
        (.next (k errand.told) .none, scene.pool) ∨
      (Comp.demand (.read errand.fiber) k).react R scene.pool = (.blocked, scene.pool) ∧
        ∃ more scene', Move R scene more scene' := by
  obtain ⟨stage, hstage, hstands⟩ := h.follows.stands errand hmem
  rw [Comp.react, hstage]
  cases hstands with
  | ended => exact .inl rfl
  | waiting =>
    have hcount : scene.pool.queue.toList.count errand.fiber = 1 := by
      rw [h.recorded.queue, hstage]
      rfl
    exact .inr ⟨rfl, h.exists_move_of_queued (List.count_pos_iff.mp (hcount ▸ Nat.one_pos))⟩
  | running =>
    have hcount : (scene.jobs.map Job.fiber).count errand.fiber = 1 := by
      rw [h.recorded.jobs, hstage]
      rfl
    obtain ⟨job, hjob, -⟩ := List.mem_map.mp (List.count_pos_iff.mp (hcount ▸ Nat.one_pos))
    exact .inr ⟨rfl, h.exists_move_of_job hjob⟩

/-- The main thread goes on as the ledger says. -/
theorem goOn (h : scene.Abides R base before L deeds) (hcallers : scene.callers = [main])
    (move : main.Moves R scene.pool scene.jobs more scene')
    (follows : scene'.pool.Follows R.toInterpreter base scene'.jobs L')
    (handed : L'.errands.map Errand.deed =
      L.errands.map Errand.deed ++ more.filter Deed.isHanded) :
    scene'.Abides R base before L' (deeds ++ more) := by
  obtain ⟨pool, callers, jobs⟩ := scene
  obtain rfl : callers = [main] := hcallers
  exact h.step (move_of_main move) follows handed

/-- The jobs come to their ends, and what is left is what the main thread makes of it. -/
theorem inevitable {goal : Scene S W S.Value → List (Deed S) → Prop}
    (hmain : ∀ {scene : Scene S W S.Value} {deeds more scene'}, scene.callers = [main] →
      scene.Abides R base before L deeds → main.Moves R scene.pool scene.jobs more scene' →
      Inevitable (Move R) goal scene' (deeds ++ more))
    (hfree : ∀ {scene : Scene S W S.Value} {deeds}, scene.callers = [main] →
      scene.Abides R base before L deeds →
      goal scene deeds ∨ (∃ more scene', main.Moves R scene.pool scene.jobs more scene') ∨
        ∃ more scene', Move R scene more scene')
    {scene : Scene S W S.Value} {deeds : List (Deed S)} (hcallers : scene.callers = [main])
    (h : scene.Abides R base before L deeds) : Inevitable (Move R) goal scene deeds := by
  have hnext (hmoves : ∃ more scene', Move R scene more scene') :
      Inevitable (Move R) goal scene deeds := by
    refine .goesOn hmoves fun more scene' move => ?_
    obtain ⟨hcallers', h', hless⟩ | move := h.cases_move hcallers move
    · exact inevitable hmain hfree hcallers' h'
    · exact hmain hcallers h move
  obtain hgoal | ⟨more, scene', move⟩ | hmoves := hfree hcallers h
  · exact .reached hgoal
  · obtain ⟨pool, callers, jobs⟩ := scene
    obtain rfl : callers = [main] := hcallers
    exact hnext ⟨more, scene', move_of_main move⟩
  · exact hnext hmoves
termination_by (scene.pool.queue.size, (scene.jobs.map (Job.work base)).sum)
decreasing_by
  obtain hless | ⟨hsame, hless⟩ := hless
  · exact .left _ _ hless
  · rw [hsame]
    exact .right _ hless

/-- What is done to a fiber whose action is handed over in this run is done in this run. -/
theorem lifeline_before (h : scene.Abides R base before L deeds) (hmem : errand ∈ L.errands) :
    Deed.lifeline errand.fiber before = [] ∧
      errand.deed ∈ Deed.lifeline errand.fiber deeds := by
  have hhanded : errand.deed ∈ Deed.lifeline errand.fiber deeds := by
    have hmem' : errand.deed ∈ deeds.filter Deed.isHanded := by
      rw [← h.handed]
      exact List.mem_map_of_mem hmem
    exact Deed.mem_lifeline.mpr ⟨(List.mem_filter.mp hmem').1, rfl, rfl⟩
  refine ⟨?_, hhanded⟩
  have hlife := h.recorded.life errand.fiber
  rw [Deed.lifeline_append] at hlife
  cases hearlier : Deed.lifeline errand.fiber before with
  | nil => rfl
  | cons first rest =>
    -- A life begins with an action that is handed over, and goes on without any.
    have htail : errand.deed ∈
        (Deed.lifeline errand.fiber before ++ Deed.lifeline errand.fiber deeds).tail := by
      rw [hearlier]
      exact List.mem_append_right _ hhanded
    generalize Deed.lifeline errand.fiber before ++ Deed.lifeline errand.fiber deeds = whole
      at hlife htail
    generalize scene.pool.get? errand.fiber = stage at hlife
    cases hlife <;> simp [Errand.deed] at htail

/-- When no job is left, each action has been run once, with the outcome that was known. -/
theorem fulfils (h : scene.Abides R base before L deeds) {outcome : Except Fault S.Value}
    (callers : scene.callers = [.ended outcome]) (jobs : scene.jobs = [])
    (queue : scene.pool.queue = #[]) : scene.Fulfils L outcome deeds := by
  refine ⟨callers, jobs, queue, h.follows.events, h.handed.symm, fun errand hmem => ?_⟩
  obtain ⟨hbefore, hhanded⟩ := h.lifeline_before hmem
  have hlife := h.recorded.life errand.fiber
  rw [Deed.lifeline_append, hbefore, List.nil_append] at hlife
  obtain ⟨stage, hstage, hstands⟩ := h.follows.stands errand hmem
  have hqueue := h.recorded.queue errand.fiber
  have hjobs := h.recorded.jobs errand.fiber
  rw [hstage] at hlife hqueue hjobs
  generalize Deed.lifeline errand.fiber deeds = life at hlife hhanded
  cases hstands with
  | waiting => simp [queue, Fiber.isWaiting] at hqueue
  | running => simp [jobs, Fiber.isRunning] at hjobs
  | ended =>
    generalize hending : Ending.ofOutcome errand.outcome = ending at hlife
    cases hlife with
    | dropped action => cases ho : errand.outcome <;> simp [ho, Ending.ofOutcome] at hending
    | ended action outcome' yields =>
      obtain rfl := Ending.ofOutcome_injective hending
      obtain rfl : errand.action = action := by simpa [Errand.deed] using hhanded
      rfl

end Abides

end Scene

/-! ## What is foretold comes true -/

section Inevitable

variable {R : Runtime S W} {base : Pool S W} {before deeds : List (Deed S)} {L L' : Ledger S}
  {scene : Scene S W S.Value} {outcome : Except Fault S.Value}

/-- When the main thread is over, the jobs that are left run to their ends. -/
theorem Scene.Abides.inevitable_over (hcallers : scene.callers = [.ended outcome])
    (h : scene.Abides R base before L deeds) :
    Inevitable (Move R) (Fulfils L outcome) scene deeds := by
  refine inevitable (fun _ _ move => by cases move) (fun {scene deeds} hcallers h => ?_) hcallers h
  cases hjobs : scene.jobs with
  | cons job jobs => exact .inr (.inr (h.exists_move_of_job (hjobs ▸ List.mem_cons_self)))
  | nil =>
    by_cases hqueue : scene.pool.queue = #[]
    · exact .inl (h.fulfils hcallers hjobs hqueue)
    · obtain ⟨fiber, hfiber⟩ := Array.exists_mem_of_ne_empty _ hqueue
      exact .inr (.inr (h.exists_move_of_queued (Array.mem_toList_iff.mpr hfiber)))

/-- What the machine has come to is what the main thread ends with. -/
theorem Scene.Abides.inevitable_after
    (hcallers : scene.callers = [.running (.base (.ofExcept outcome))])
    (h : scene.Abides R base before L deeds) :
    Inevitable (Move R) (Fulfils L outcome) scene deeds := by
  have hmove (pool : Pool S W) :
      (Thread.base (Comp.ofExcept outcome)).move R pool = (.ended outcome, pool) := by
    cases outcome <;> rfl
  refine inevitable (fun {scene deeds more scene'} hcallers h move => ?_)
    (fun {scene deeds} hcallers h => .inr (.inl ⟨_, _, .ended (hmove _)⟩)) hcallers h
  cases id move with
  | moved moved =>
    rw [hmove] at moved
    cases moved
  | ended ended =>
    rw [hmove] at ended
    cases ended
    exact (h.goOn hcallers move h.follows (by simp)).inevitable_over rfl

/-- The main thread makes one certain move, or waits for a job, and does nothing to fibers. -/
theorem Scene.Abides.inevitable_next {goal : Scene S W S.Value → List (Deed S) → Prop}
    {thread thread' : Thread S S.Value} (h : scene.Abides R base before L deeds)
    (hcallers : scene.callers = [.running thread])
    (hmove : ∀ {scene : Scene S W S.Value} {deeds}, scene.Abides R base before L deeds →
      thread.move R scene.pool = (.moved thread' .none, scene.pool) ∨
        thread.move R scene.pool = (.blocked, scene.pool) ∧ ∃ more scene', Move R scene more scene')
    (hquiet : ∀ pool, (thread.deeds R pool).filter Deed.isHanded = [])
    (hnext : ∀ {scene : Scene S W S.Value} {deeds}, scene.callers = [.running thread'] →
      scene.Abides R base before L deeds → Inevitable (Move R) goal scene deeds) :
    Inevitable (Move R) goal scene deeds := by
  refine inevitable (fun {scene deeds more scene'} hcallers h move => ?_)
    (fun {scene deeds} hcallers h => .inr ?_) hcallers h
  · cases id move with
    | moved moved =>
      obtain hmove | ⟨hblocked, -⟩ := hmove h
      · cases hmove.symm.trans moved
        exact hnext rfl (h.goOn hcallers move h.follows (by rw [hquiet, List.append_nil]))
      · cases hblocked.symm.trans moved
    | ended ended =>
      obtain hmove | ⟨hblocked, -⟩ := hmove h
      · cases hmove.symm.trans ended
      · cases hblocked.symm.trans ended
  · obtain hmove | ⟨-, hmoves⟩ := hmove h
    · exact .inl ⟨_, _, .moved hmove⟩
    · exact .inr hmoves

/-- Whatever the schedule, a machine comes to what has been foretold of it. -/
theorem Comp.Forecast.inevitable (hspawner : R.spawner ≠ .discarding) {c : Comp S (Turn S)}
    (h : c.Forecast R.toInterpreter base L L' outcome)
    (hcallers : scene.callers = [.running (.nested c [] .ofExcept)])
    (habides : scene.Abides R base before L deeds) :
    Inevitable (Scene.Move R) (Scene.Fulfils L' outcome) scene deeds := by
  have hread (pool : Pool S W) (fiber : FiberId) (k : Except Fault S.Value → Comp S (Turn S)) :
      ((Comp.demand (.read fiber) k).deeds R pool).filter Deed.isHanded = [] := by
    rw [Comp.deeds, Pool.readDeeds]
    split <;> rfl
  -- By induction on what is foretold; whatever jobs do in the meantime, the scene abides by the
  -- ledger.
  induction h generalizing scene deeds with
  | value v =>
    exact habides.inevitable_next hcallers (fun _ => .inl rfl) (fun _ => rfl)
      fun hcallers h => h.inevitable_after hcallers
  | fail fault =>
    exact habides.inevitable_next hcallers (fun _ => .inl rfl) (fun _ => rfl)
      fun hcallers h => h.inevitable_after hcallers
  | again rest ih =>
    exact habides.inevitable_next hcallers (fun _ => .inl rfl) (fun _ => rfl) ih
  | ask allowed rest ih =>
    refine Scene.Abides.inevitable (fun {scene deeds more scene'} hcallers h move => ?_)
      (fun {scene deeds} hcallers h => .inr (.inl ⟨_, _, .moved rfl⟩)) hcallers habides
    cases id move with
    | moved moved =>
      cases moved
      obtain ⟨L₁, answers, follows, handed⟩ := h.follows.answer hspawner allowed _
      exact ih _ _ answers rfl (h.goOn hcallers move follows handed)
    | ended ended => cases ended
  | @known _ _ fiber ending k _ ended rest ih =>
    refine habides.inevitable_next hcallers (fun h => .inl ?_) (hread · fiber k) ih
    rw [Thread.move, Comp.react, h.follows.kept ended]
  | @read _ _ errand k _ mem rest ih =>
    refine habides.inevitable_next hcallers (fun h => ?_) (hread · errand.fiber k) ih
    rw [Thread.move]
    obtain htold | ⟨hblocked, hmoves⟩ := h.react_read mem k
    · rw [htold]
      exact .inl rfl
    · rw [hblocked]
      exact .inr ⟨rfl, hmoves⟩

/-- A run begins where no job waits or runs, after whatever has been done there before. -/
theorem Scene.abides_start {world : W} {callers : List (Main S S.Value)}
    (story : Trail (Step R) (opening world) before (⟨base, [], []⟩ : Scene S W S.Value))
    (hqueue : base.queue = #[]) : Abides R base before base.ledger ⟨base, callers, []⟩ [] where
  follows := .start hqueue
  recorded := (recorded_of_trail story).same callers
  handed := rfl

/-- Whatever the schedule, a program comes to what has been foretold of it. -/
theorem Comp.Forecast.run (hspawner : R.spawner ≠ .discarding) {world : W}
    (story : Trail (Scene.Step R) (.opening world) before (⟨base, [], []⟩ : Scene S W S.Value))
    (hqueue : base.queue = #[]) {yields : Ty S.Base} {program : S.Program}
    (h : (R.turn yields (.start program)).Forecast R.toInterpreter base base.ledger L outcome) :
    Inevitable (Scene.Move R) (Scene.Fulfils L outcome)
      ⟨base, [.running (.base (.interpret yields program))], []⟩ [] :=
  (Scene.abides_start story hqueue).inevitable_next rfl (fun _ => .inl rfl) (fun _ => rfl)
    (h.inevitable hspawner)

end Inevitable

end FiberPrograms
