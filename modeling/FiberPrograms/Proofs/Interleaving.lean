import FiberPrograms.Schedule

/-!
# Interleavings

A schedule says which thread moves next. Here nobody says so: any thread that can move may be the
next to do so, and any job that waits in the queue may be started at any moment. Beside the
threads there is whoever uses the fibers from outside: computations are begun and abandoned, jobs
that wait are thrown away, and whatever is neither a fiber nor in the queue is changed at will.
All that is done to fibers, and all that is learned of them, is kept as a record.

## Main definitions

* `Deed`: what is done to a fiber, or learned of it
* `Scene`: a pool, the computations that use it, and the started jobs
* `Scene.Move`, `Scene.Step`: one move of some thread, and one step of a scene
* `Trail`: finite sequences of steps, with the record of what was done

## Main results

* `Config.tick_cases`, `Config.trail_run`: a schedule runs one of the interleavings
-/

namespace FiberPrograms

variable {S : Signature} {W α : Type}

/-- What is done to a fiber, or learned of it. -/
inductive Deed (S : Signature) where
  /-- Its action is handed to the spawner. -/
  | handed (fiber : FiberId) (action : S.Action)
  /-- Its job begins to run. -/
  | begun (fiber : FiberId)
  /-- Its job ends, with an outcome. -/
  | ended (fiber : FiberId) (outcome : Except Fault S.Value)
  /-- Its job is thrown away before it has begun. -/
  | dropped (fiber : FiberId)
  /-- A reader is told of an outcome. -/
  | read (fiber : FiberId) (outcome : Except Fault S.Value)

/-- A finite sequence of steps from one state to another, with the record of what was done. -/
inductive Trail {σ δ : Type} (step : σ → List δ → σ → Prop) (s : σ) : List δ → σ → Prop
  | refl : Trail step s [] s
  | tail {t u : σ} {deeds more : List δ} (trail : Trail step s deeds t)
      (last : step t more u) : Trail step s (deeds ++ more) u

namespace Trail

variable {σ δ : Type} {step : σ → List δ → σ → Prop} {s t u : σ} {deeds more : List δ}

theorem single (h : step s deeds t) : Trail step s deeds t :=
  .tail .refl h

theorem trans (h : Trail step s deeds t) (h' : Trail step t more u) :
    Trail step s (deeds ++ more) u := by
  induction h' with
  | refl => simpa using h
  | tail _ last ih =>
    rw [← List.append_assoc]
    exact .tail ih last

/-- Steps of one kind are steps of another. -/
theorem mono {step' : σ → List δ → σ → Prop}
    (hstep : ∀ {s deeds t}, step s deeds t → step' s deeds t) (h : Trail step s deeds t) :
    Trail step' s deeds t := by
  induction h with
  | refl => exact .refl
  | tail _ last ih => exact .tail ih (hstep last)

/-- If each step is matched by a trail of another kind, so is a trail of steps. -/
theorem simulated {σ' δ' : Type} {step' : σ' → List δ' → σ' → Prop}
    {rel : σ → List δ → σ' → List δ' → Prop} {s' : σ'}
    (hstep : ∀ {s es s' es' more t}, rel s es s' es' → step s more t →
      ∃ more' t', Trail step' s' more' t' ∧ rel t (es ++ more) t' (es' ++ more'))
    (hstart : rel s [] s' []) (h : Trail step s deeds t) :
    ∃ deeds' t', Trail step' s' deeds' t' ∧ rel t deeds t' deeds' := by
  induction h with
  | refl => exact ⟨[], s', .refl, hstart⟩
  | tail _ last ih =>
    obtain ⟨es', t', trail', hrel⟩ := ih
    obtain ⟨more', u', last', hrel'⟩ := hstep hrel last
    exact ⟨es' ++ more', u', trail'.trans last', hrel'⟩

end Trail

/-! ## What a move does to fibers -/

/-- The jobs, once a job has been put in its place among them. -/
def Launch.onto (jobs : List (Job S)) : Launch S → List (Job S)
  | none => jobs
  | ahead job => job :: jobs
  | behind job => jobs ++ [job]

namespace Pool

variable (R : Runtime S W) (pool : Pool S W)

/-- What it takes to hand the action of a fiber to the spawner. -/
def startDeeds (fiber : FiberId) (action : S.Action) : List (Deed S) :=
  match pool.get? fiber with
  | some .named =>
    match R.spawner with
    | .inline | .background => [.handed fiber action, .begun fiber]
    | .queued => [.handed fiber action]
    | .discarding => [.handed fiber action, .dropped fiber]
  | _ => []

/-- What it takes to run the next job of the queue. -/
def queueDeeds : List (Deed S) :=
  if pool.queue.isEmpty then []
  else
    match pool.startAt? R.toInterpreter (pool.nextPosition R.newestFirst) with
    | none => []
    | some (job, _) => [.begun job.fiber]

/-- What a reader of a fiber is told. -/
def readDeeds (fiber : FiberId) : List (Deed S) :=
  match pool.get? fiber with
  | some (.ended ending) => [.read fiber (ending.read fiber)]
  | _ => []

end Pool

/-- What is done to fibers by the next move of a computation. -/
def Comp.deeds (R : Runtime S W) (pool : Pool S W) : Comp S α → List (Deed S)
  | .ask (.start fiber action) _ => pool.startDeeds R fiber action
  | .demand (.read fiber) _ => pool.readDeeds fiber
  | .runQueue _ => pool.queueDeeds R
  | _ => []

/-- What is done to fibers by the next move of a thread. -/
def Thread.deeds (R : Runtime S W) (pool : Pool S W) : Thread S α → List (Deed S)
  | base c => c.deeds R pool
  | nested c _ _ => c.deeds R pool

/-! ## Scenes -/

/-- A pool, the computations that use it, each running or ended, and the started jobs. -/
structure Scene (S : Signature) (W α : Type) where
  pool : Pool S W
  callers : List (Main S α)
  jobs : List (Job S)

namespace Scene

/-- A scene in which nothing has happened. -/
def opening (world : W) : Scene S W α where
  pool := .empty world
  callers := []
  jobs := []

/-- One move: of any computation or started job, or of a job that begins to run. -/
inductive Move (R : Runtime S W) : Scene S W α → List (Deed S) → Scene S W α → Prop
  | caller {pool pool' : Pool S W} (before after : List (Main S α)) {thread thread' : Thread S α}
      {launch : Launch S} (jobs : List (Job S))
      (moved : thread.move R pool = (.moved thread' launch, pool')) :
      Move R ⟨pool, before ++ .running thread :: after, jobs⟩ (thread.deeds R pool)
        ⟨pool', before ++ .running thread' :: after, launch.onto jobs⟩
  | callerEnded {pool pool' : Pool S W} (before after : List (Main S α)) {thread : Thread S α}
      {outcome : Except Fault α} (jobs : List (Job S))
      (ended : thread.move R pool = (.ended outcome, pool')) :
      Move R ⟨pool, before ++ .running thread :: after, jobs⟩ []
        ⟨pool', before ++ .ended outcome :: after, jobs⟩
  | job {pool pool' : Pool S W} (callers : List (Main S α)) (before after : List (Job S))
      {fiber : FiberId} {thread thread' : Thread S S.Value} {launch : Launch S}
      (moved : thread.move R pool = (.moved thread' launch, pool')) :
      Move R ⟨pool, callers, before ++ ⟨fiber, thread⟩ :: after⟩ (thread.deeds R pool)
        ⟨pool', callers, launch.onto (before ++ ⟨fiber, thread'⟩ :: after)⟩
  | jobEnded {pool pool' : Pool S W} (callers : List (Main S α)) (before after : List (Job S))
      {fiber : FiberId} {thread : Thread S S.Value} {outcome : Except Fault S.Value}
      (ended : thread.move R pool = (.ended outcome, pool')) :
      Move R ⟨pool, callers, before ++ ⟨fiber, thread⟩ :: after⟩ [.ended fiber outcome]
        ⟨pool'.finish R.level fiber outcome, callers, before ++ after⟩
  | jobBegun {pool pool' : Pool S W} (callers : List (Main S α)) (jobs : List (Job S))
      {position : Nat} {job : Job S}
      (started : pool.startAt? R.toInterpreter position = some (job, pool')) :
      Move R ⟨pool, callers, jobs⟩ [.begun job.fiber] ⟨pool', callers, job :: jobs⟩

/-- One step: a move, or something from outside. -/
inductive Step (R : Runtime S W) : Scene S W α → List (Deed S) → Scene S W α → Prop
  | move {scene scene' : Scene S W α} {deeds : List (Deed S)} (move : Move R scene deeds scene') :
      Step R scene deeds scene'
  /-- A computation is begun. -/
  | call (pool : Pool S W) (callers : List (Main S α)) (jobs : List (Job S)) (main : Main S α) :
      Step R ⟨pool, callers, jobs⟩ [] ⟨pool, main :: callers, jobs⟩
  /-- A computation is abandoned, whether it has ended or not. -/
  | hangUp (pool : Pool S W) (before after : List (Main S α)) (main : Main S α)
      (jobs : List (Job S)) :
      Step R ⟨pool, before ++ main :: after, jobs⟩ [] ⟨pool, before ++ after, jobs⟩
  /-- A job that waits in the queue is thrown away. -/
  | drop {pool : Pool S W} {position : Nat} {fiber : FiberId} (callers : List (Main S α))
      (jobs : List (Job S)) (queued : pool.queue[position]? = some fiber) :
      Step R ⟨pool, callers, jobs⟩ [.dropped fiber]
        ⟨{ pool with queue := pool.queue.eraseIdxIfInBounds position }.release R.level fiber,
          callers, jobs⟩
  /-- Something is changed that is neither a fiber nor in the queue. -/
  | outside {pool pool' : Pool S W} (callers : List (Main S α)) (jobs : List (Job S))
      (fibers : pool'.fibers = pool.fibers) (queue : pool'.queue = pool.queue) :
      Step R ⟨pool, callers, jobs⟩ [] ⟨pool', callers, jobs⟩

end Scene

/-! ## Schedules are interleavings -/

/-- A computation that waits leaves everything as it is. -/
theorem Comp.pool_eq_of_blocked {R : Runtime S W} {pool pool' : Pool S W} {c : Comp S α}
    (h : c.react R pool = (.blocked, pool')) : pool' = pool := by
  unfold react at h
  grind

theorem Thread.pool_eq_of_blocked {R : Runtime S W} {pool pool' : Pool S W} {thread : Thread S α}
    (h : thread.move R pool = (.blocked, pool')) : pool' = pool := by
  unfold move at h
  grind [Comp.pool_eq_of_blocked]

/-- If no job can move, everything is as it was. -/
theorem pool_eq_of_moveJobs {R : Runtime S W} {pool pool' : Pool S W} {jobs : List (Job S)}
    (h : moveJobs R pool jobs = (none, pool')) : pool' = pool := by
  induction jobs generalizing pool with
  | nil =>
    cases h
    rfl
  | cons job jobs ih =>
    rw [moveJobs] at h
    cases hmove : job.thread.move R pool with
    | mk motion pool₁ =>
      rw [hmove] at h
      cases motion with
      | moved thread launch => cases h
      | ended outcome => cases h
      | blocked =>
        obtain rfl := Thread.pool_eq_of_blocked hmove
        cases hjobs : moveJobs R pool₁ jobs with
        | mk moved pool₂ =>
          cases moved with
          | none =>
            simp only [hjobs, Prod.mk.injEq, true_and] at h
            subst h
            exact ih hjobs
          | some moved =>
            simp only [hjobs] at h
            cases h

/-- If the first job that can move does so, some job among all of them does. -/
theorem move_of_moveJobs {R : Runtime S W} {pool pool' : Pool S W} {jobs jobs' : List (Job S)}
    {launch : Launch S} (h : moveJobs R pool jobs = (some (jobs', launch), pool'))
    (callers : List (Main S α)) (before after : List (Job S)) :
    ∃ deeds, Scene.Move R ⟨pool, callers, before ++ jobs ++ after⟩ deeds
      ⟨pool', callers, launch.onto (before ++ jobs' ++ after)⟩ := by
  induction jobs generalizing pool before jobs' with
  | nil => cases h
  | cons job jobs ih =>
    rw [moveJobs] at h
    cases hmove : job.thread.move R pool with
    | mk motion pool₁ =>
      rw [hmove] at h
      cases motion with
      | moved thread launch' =>
        cases h
        exact ⟨_, by simpa using Scene.Move.job callers before (jobs ++ after) hmove⟩
      | ended outcome =>
        cases h
        exact ⟨_, by simpa [Launch.onto] using
          Scene.Move.jobEnded callers before (jobs ++ after) hmove⟩
      | blocked =>
        obtain rfl := Thread.pool_eq_of_blocked hmove
        cases hjobs : moveJobs R pool₁ jobs with
        | mk moved pool₂ =>
          cases moved with
          | none =>
            simp only [hjobs] at h
            cases h
          | some moved =>
            simp only [hjobs] at h
            cases h
            -- A job that waits is passed over and keeps its place.
            obtain ⟨deeds, hmoved⟩ := ih hjobs (before ++ [job])
            exact ⟨deeds, by simpa using hmoved⟩

namespace Config

/-- The scene of a configuration. -/
def scene (config : Config S W α) : Scene S W α where
  pool := config.pool
  callers := [config.main]
  jobs := config.ahead ++ config.behind

theorem scene_launch (config : Config S W α) (launch : Launch S) :
    (config.launch launch).scene =
      { config.scene with jobs := launch.onto (config.ahead ++ config.behind) } := by
  cases launch <;> simp [Config.launch, scene, Launch.onto]

/-- The first job behind the main thread that can move does, or none can and nothing changes. -/
theorem behind_cases {R : Runtime S W} {pool pool' : Pool S W} {ahead behind : List (Job S)}
    {found : Option (List (Job S) × Launch S)} (hjobs : moveJobs R pool behind = (found, pool'))
    (main : Main S α) :
    (found = none ∧ pool' = pool) ∨ ∃ behind' launch, found = some (behind', launch) ∧
      ∃ deeds, Scene.Move R (Config.mk pool main ahead behind).scene deeds
        ((Config.mk pool' main ahead behind').launch launch).scene := by
  cases found with
  | none => exact .inl ⟨rfl, pool_eq_of_moveJobs hjobs⟩
  | some found =>
    obtain ⟨behind', launch⟩ := found
    obtain ⟨deeds, hmove⟩ := move_of_moveJobs hjobs [main] ahead []
    refine .inr ⟨behind', launch, rfl, deeds, ?_⟩
    rw [scene_launch]
    simpa [scene] using hmove

/-- The move that a schedule picks is one of those that can be made; if it picks none, nothing
changes. -/
theorem tick_cases {R : Runtime S W} {config config' : Config S W α} {moved : Bool}
    (h : config.tick R = (moved, config')) :
    (moved = false ∧ config' = config) ∨
      (moved = true ∧ ∃ deeds, Scene.Move R config.scene deeds config'.scene) := by
  obtain ⟨pool, main, ahead, behind⟩ := config
  rw [tick] at h
  cases hahead : moveJobs R pool ahead with
  | mk found pool₁ =>
    simp only [hahead] at h
    cases found with
    | some found =>
      cases h
      obtain ⟨deeds, hmove⟩ := move_of_moveJobs hahead [main] [] behind
      rw [scene_launch]
      exact .inr ⟨rfl, deeds, by simpa [scene] using hmove⟩
    | none =>
      obtain rfl := pool_eq_of_moveJobs hahead
      cases main with
      | ended outcome =>
        cases hjobs : moveJobs R pool₁ behind with
        | mk found pool₂ =>
          simp only [hjobs] at h
          obtain ⟨rfl, rfl⟩ | ⟨behind', launch, rfl, hmove⟩ := behind_cases hjobs _ <;> cases h
          · exact .inl ⟨rfl, rfl⟩
          · exact .inr ⟨rfl, hmove⟩
      | running thread =>
        cases hmove : thread.move R pool₁ with
        | mk motion pool₂ =>
          simp only [hmove] at h
          cases motion with
          | moved thread' launch =>
            cases h
            rw [scene_launch]
            exact .inr ⟨rfl, _, .caller [] [] (ahead ++ behind) hmove⟩
          | ended outcome =>
            cases h
            exact .inr ⟨rfl, _, .callerEnded [] [] (ahead ++ behind) hmove⟩
          | blocked =>
            obtain rfl := Thread.pool_eq_of_blocked hmove
            -- The jobs behind come last, also if the main thread only waits.
            cases hjobs : moveJobs R pool₂ behind with
            | mk found pool₃ =>
              simp only [hjobs] at h
              obtain ⟨rfl, rfl⟩ | ⟨behind', launch, rfl, hmove⟩ := behind_cases hjobs _ <;> cases h
              · exact .inl ⟨rfl, rfl⟩
              · exact .inr ⟨rfl, hmove⟩

/-- However far a schedule runs, it has run one of the interleavings. -/
theorem trail_run (R : Runtime S W) (fuel : Nat) (config : Config S W α) :
    ∃ deeds, Trail (Scene.Move R) config.scene deeds (config.run R fuel).scene := by
  induction fuel generalizing config with
  | zero => exact ⟨[], .refl⟩
  | succ fuel ih =>
    rw [run]
    cases config.main with
    | ended outcome => exact ⟨[], .refl⟩
    | running thread =>
      cases htick : config.tick R with
      | mk moved config' =>
        obtain ⟨rfl, rfl⟩ | ⟨rfl, deeds, hmove⟩ := tick_cases htick
        · exact ⟨[], .refl⟩
        · obtain ⟨more, htrail⟩ := ih config'
          exact ⟨deeds ++ more, (Trail.single hmove).trans htrail⟩

end Config

end FiberPrograms
