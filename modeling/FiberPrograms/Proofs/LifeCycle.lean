import FiberPrograms.Proofs.Interleaving
import FiberPrograms.Scalar
import Mathlib.Data.List.Perm.Basic

/-!
# The life of a fiber

A fiber that memoizes is handed to the spawner once. Its job begins once or is thrown away, and if
it has begun it ends once; then the fiber has ended, and nothing that happens later changes how.
Two writers are after its ending, the job with an outcome and whoever lets go of the job, and any
number of readers wait for it. Who holds a handle to a fiber makes no difference to any of this:
a fiber is known by its name, and scenes have no handles.

The record of what was done to a fiber says in which stage it is, and that it went through the
stages in their order.

## Main definitions

* `Deed.lifeline`: what was done to one fiber
* `Thread.Yields`: the outcomes to which a thread can come
* `Fiber.Life`: the stages of a fiber, each with the record of what led to it
* `Fiber.Passes`, `Pool.Change`: what one move can do to a fiber and to the pool
* `Scene.Recorded`: the invariant of scenes and their records

## Main results

* `Comp.change_of_react`: a move changes at most one fiber, and that to its next stage
* `Scene.Recorded.step`: one step keeps the record true
* `Scene.write_once`: fibers end at most once, and all readers are told of the same ending
-/

namespace FiberPrograms

variable {S : Signature} {W α : Type}

namespace Deed

/-- The fiber that a deed is about. -/
def fiber : Deed S → FiberId
  | handed fiber _ => fiber
  | begun fiber => fiber
  | ended fiber _ => fiber
  | dropped fiber => fiber
  | read fiber _ => fiber

/-- Whether a deed leaves the fiber as it is. -/
def isRead : Deed S → Bool
  | read _ _ => true
  | _ => false

/-- What was done to a fiber, in order. -/
def lifeline (fiber : FiberId) (deeds : List (Deed S)) : List (Deed S) :=
  deeds.filter fun deed => deed.fiber = fiber && !deed.isRead

@[simp] theorem lifeline_append (fiber : FiberId) (deeds more : List (Deed S)) :
    lifeline fiber (deeds ++ more) = lifeline fiber deeds ++ lifeline fiber more :=
  List.filter_append ..

theorem mem_lifeline {fiber : FiberId} {deed : Deed S} {deeds : List (Deed S)} :
    deed ∈ lifeline fiber deeds ↔ deed ∈ deeds ∧ deed.fiber = fiber ∧ deed.isRead = false := by
  simp [lifeline]

end Deed

/-- A thread can come to an outcome, in surroundings that answer its requests somehow. -/
inductive Thread.Yields (R : Runtime S W) : Thread S α → Except Fault α → Prop
  | ended {pool pool' : Pool S W} {thread : Thread S α} {outcome : Except Fault α}
      (ended : thread.move R pool = (.ended outcome, pool')) : Yields R thread outcome
  | moved {pool pool' : Pool S W} {thread thread' : Thread S α} {launch : Launch S}
      {outcome : Except Fault α} (moved : thread.move R pool = (.moved thread' launch, pool'))
      (rest : Yields R thread' outcome) : Yields R thread outcome

namespace Fiber

/-- The stages of a fiber, each with the record of what was done to the fiber by then. -/
inductive Life (R : Runtime S W) (fiber : FiberId) : Option (Fiber S) → List (Deed S) → Prop
  | unmade : Life R fiber none []
  | named : Life R fiber (some .named) []
  | recomputing (action : S.Action) : Life R fiber (some (.recomputing action)) []
  | waiting (action : S.Action) :
      Life R fiber (some (.waiting action)) [.handed fiber action]
  | running (action : S.Action) :
      Life R fiber (some .running) [.handed fiber action, .begun fiber]
  /-- The ending is the outcome to which a run of the action came. -/
  | ended (action : S.Action) (outcome : Except Fault S.Value)
      (yields : (Thread.base (R.act action)).Yields R outcome) :
      Life R fiber (some (.ended (.ofOutcome outcome)))
        [.handed fiber action, .begun fiber, .ended fiber outcome]
  | dropped (action : S.Action) :
      Life R fiber (some (.ended .dropped)) [.handed fiber action, .dropped fiber]

/-- How a fiber gets from one stage to the next: what is done to it, and the jobs that begin. -/
inductive Passes (R : Runtime S W) (fiber : FiberId) :
    Fiber S → List (Deed S) → List (Job S) → Fiber S → Prop
  | kept (action : S.Action) : Passes R fiber .named [] [] (.recomputing action)
  | queued (action : S.Action) :
      Passes R fiber .named [.handed fiber action] [] (.waiting action)
  | launched (action : S.Action) :
      Passes R fiber .named [.handed fiber action, .begun fiber]
        [Pool.jobOf R.toInterpreter fiber action] .running
  | discarded (action : S.Action) :
      Passes R fiber .named [.handed fiber action, .dropped fiber] [] (.ended .dropped)
  | begun (action : S.Action) :
      Passes R fiber (.waiting action) [.begun fiber]
        [Pool.jobOf R.toInterpreter fiber action] .running
  | thrownAway (action : S.Action) :
      Passes R fiber (.waiting action) [.dropped fiber] [] (.ended .dropped)
  | ended (outcome : Except Fault S.Value) :
      Passes R fiber .running [.ended fiber outcome] [] (.ended (.ofOutcome outcome))

/-- Whether the job of a fiber is in the queue. -/
def isWaiting : Fiber S → Bool
  | waiting _ => true
  | _ => false

/-- Whether the job of a fiber has begun and has not ended. -/
def isRunning : Fiber S → Bool
  | running => true
  | _ => false

namespace Passes

variable {R : Runtime S W} {fiber other : FiberId} {stage stage' : Fiber S}
  {deeds : List (Deed S)} {launched : List (Job S)}

/-- A fiber that need not be waited for stays as it is. -/
theorem not_isReady (h : Passes R fiber stage deeds launched stage') : ¬ stage.isReady := by
  cases h <;> exact Bool.false_ne_true

theorem lifeline_self (h : Passes R fiber stage deeds launched stage') :
    Deed.lifeline fiber deeds = deeds := by
  cases h <;> simp [Deed.lifeline, Deed.fiber, Deed.isRead]

theorem lifeline_of_ne (h : Passes R fiber stage deeds launched stage') (hne : other ≠ fiber) :
    Deed.lifeline other deeds = [] := by
  cases h <;> simp [Deed.lifeline, Deed.fiber, hne.symm]

theorem not_read (h : Passes R fiber stage deeds launched stage')
    (outcome : Except Fault S.Value) : .read other outcome ∉ deeds := by
  cases h <;> simp

/-- An action is handed over only while the fiber is merely named. -/
theorem of_handed (h : Passes R fiber stage deeds launched stage') {action : S.Action}
    (hhanded : .handed other action ∈ deeds) : other = fiber ∧ stage = .named := by
  cases h <;> simp at hhanded <;> exact ⟨hhanded.1, rfl⟩

/-- The job that begins runs the action that was handed over. -/
theorem of_launched (h : Passes R fiber stage deeds launched stage') {before : List (Deed S)}
    (hlife : Life R fiber (some stage) before) {job : Job S} (hjob : job ∈ launched) :
    job.fiber = fiber ∧ ∀ action, .handed fiber action ∈ before ++ deeds →
      job.thread = .base (R.act action) := by
  cases h <;> simp at hjob <;> subst hjob
  · cases hlife
    simp [Pool.jobOf]
  · cases hlife
    simp [Pool.jobOf]

/-- Unless a job ends, there is one more job under way just if the fiber runs after that. -/
theorem count_launched (h : Passes R fiber stage deeds launched stage')
    (hended : ∀ outcome, .ended fiber outcome ∉ deeds) (other : FiberId) :
    (launched.map Job.fiber).count other +
        (if other = fiber then stage.isRunning.toNat else 0) =
      if other = fiber then stage'.isRunning.toNat else 0 := by
  cases h with
  | launched action | begun action =>
    by_cases hother : other = fiber <;> simp [isRunning, Pool.jobOf, hother, Ne.symm]
  | ended outcome => exact absurd (List.mem_singleton_self _) (hended outcome)
  | _ => simp [isRunning]

/-- The record follows the fiber to its next stage. -/
theorem life (h : Passes R fiber stage deeds launched stage') {before : List (Deed S)}
    (hlife : Life R fiber (some stage) before)
    (hyields : ∀ outcome, .ended fiber outcome ∈ deeds → ∀ action, .handed fiber action ∈ before →
      (Thread.base (R.act action)).Yields R outcome) :
    Life R fiber (some stage') (before ++ deeds) := by
  cases h with
  | kept action =>
    cases hlife
    exact .recomputing action
  | queued action =>
    cases hlife
    exact .waiting action
  | launched action =>
    cases hlife
    exact .running action
  | discarded action =>
    cases hlife
    exact .dropped action
  | begun action =>
    cases hlife
    exact .running action
  | thrownAway action =>
    cases hlife
    exact .dropped action
  | ended outcome =>
    cases hlife with
    | running action => exact .ended action outcome (hyields outcome (by simp) action (by simp))

end Passes

end Fiber

/-! ## What one move can do to the pool -/

/-- The jobs that are launched. -/
def Launch.jobs : Launch S → List (Job S)
  | none => []
  | ahead job => [job]
  | behind job => [job]

namespace Pool

variable {R : Runtime S W} {pool pool' : Pool S W}

/-- What one move can do to the fibers and the queue: nothing, or a reader is told of an ending,
or a fiber is made, or one fiber passes to its next stage. -/
inductive Change (R : Runtime S W) (pool pool' : Pool S W) :
    List (Deed S) → List (Job S) → Prop
  | quiet (fibers : pool'.fibers = pool.fibers) (queue : pool'.queue = pool.queue) :
      Change R pool pool' [] []
  | told {fiber : FiberId} {ending : Ending S} (stage : pool.get? fiber = some (.ended ending))
      (fibers : pool'.fibers = pool.fibers) (queue : pool'.queue = pool.queue) :
      Change R pool pool' [.read fiber (ending.read fiber)] []
  | made (fibers : pool'.fibers = pool.fibers.push .named) (queue : pool'.queue = pool.queue) :
      Change R pool pool' [] []
  | passed {fiber : FiberId} {stage stage' : Fiber S} {deeds : List (Deed S)}
      {launched : List (Job S)} (before : pool.get? fiber = some stage)
      (passes : Fiber.Passes R fiber stage deeds launched stage')
      (after : pool'.fibers = (pool.set fiber stage').fibers)
      (queue : ∀ other, pool'.queue.toList.count other +
          (if other = fiber then stage.isWaiting.toNat else 0) =
        pool.queue.toList.count other + if other = fiber then stage'.isWaiting.toNat else 0) :
      Change R pool pool' deeds launched

/-- Who is taken out of the queue stands in it once less. -/
theorem count_eraseIdx {queue : Array FiberId} {position : Nat} {fiber : FiberId}
    (h : queue[position]? = some fiber) (other : FiberId) :
    (queue.eraseIdxIfInBounds position).toList.count other + (if other = fiber then 1 else 0) =
      queue.toList.count other := by
  obtain ⟨hposition, rfl⟩ := Array.getElem?_eq_some_iff.mp h
  have hperm := List.getElem_cons_eraseIdx_perm (l := queue.toList) (n := position) hposition
  rw [Array.toList_eraseIdxIfInBounds, ← hperm.count_eq other, List.count_cons]
  by_cases hother : other = queue[position]
  · simp [hother]
  · simp [hother, Ne.symm hother]

/-- A fiber that need not be waited for is changed by no move. -/
theorem Change.get?_of_isReady {deeds : List (Deed S)} {launched : List (Job S)}
    (h : Change R pool pool' deeds launched) {fiber : FiberId} {stage : Fiber S}
    (hstage : pool.get? fiber = some stage) (hready : stage.isReady) :
    pool'.get? fiber = some stage := by
  cases h with
  | quiet fibers queue => rwa [get?_congr fibers]
  | told _ fibers queue => rwa [get?_congr fibers]
  | made fibers queue => exact get?_push_of_get? fibers hstage
  | passed before passes after queue =>
    -- No stage follows that of a fiber that is ready, so it is another fiber that passes.
    rw [get?_congr after, get?_set]
    split
    · subst_vars
      obtain rfl := Option.some.inj (before.symm.trans hstage)
      exact absurd hready passes.not_isReady
    · exact hstage

/-- Handing an action to the spawner starts the life of a fiber that is merely named. -/
theorem change_start (R : Runtime S W) (fiber : FiberId) (action : S.Action) (pool : Pool S W) :
    Change R pool (pool.start R fiber action).2 (pool.startDeeds R fiber action)
      (pool.start R fiber action).1.jobs := by
  by_cases hnamed : pool.get? fiber = some .named
  · rw [start, startDeeds, hnamed]
    cases hspawner : R.spawner with
    | inline =>
      exact .passed hnamed (.launched action) (by simp [set]) (by simp [Fiber.isWaiting])
    | background =>
      exact .passed hnamed (.launched action) (by simp [set]) (by simp [Fiber.isWaiting])
    | queued =>
      refine .passed hnamed (.queued action) (by simp [set]) fun other => ?_
      by_cases hother : other = fiber <;> simp [Fiber.isWaiting, hother, Ne.symm]
    | discarding =>
      refine .passed hnamed (.discarded action) ?_ (by simp [Fiber.isWaiting])
      have hended (ending : Ending S) :
          (pool.log R.level (.starting fiber)).get? fiber ≠ some (.ended ending) := by
        simp [hnamed]
      exact (fibers_release hended).trans (by simp [set])
  · -- The fiber has been started before, so there is nothing more to be done to it.
    have hdeeds : pool.startDeeds R fiber action = [] := by
      unfold startDeeds
      split
      · exact absurd ‹_› hnamed
      · rfl
    rw [start_of_ne_named hnamed, hdeeds]
    exact .quiet rfl rfl

/-- Keeping an action with a fiber that is merely named makes it one that recomputes. -/
theorem change_keep (R : Runtime S W) (fiber : FiberId) (action : S.Action) (pool : Pool S W) :
    Change R pool (pool.keep fiber action) [] [] := by
  unfold keep
  split
  · exact .passed ‹_› (.kept action) rfl (by simp [Fiber.isWaiting])
  · exact .quiet rfl rfl

/-- A job that begins leaves the queue. -/
theorem change_startAt {position : Nat} {job : Job S}
    (h : pool.startAt? R.toInterpreter position = some (job, pool')) :
    Change R pool pool' [.begun job.fiber] [job] := by
  unfold startAt? at h
  split at h
  · cases h
  · rename_i fiber hqueue
    dsimp only at h
    split at h
    · rename_i action hwaiting
      cases h
      exact .passed hwaiting (.begun action) rfl fun other => by
        simpa [Fiber.isWaiting] using count_eraseIdx hqueue other
    · cases h

/-- A job that waits and is thrown away leaves the queue, and its fiber has ended. -/
theorem change_release {position : Nat} {fiber : FiberId} {action : S.Action}
    (hqueue : pool.queue[position]? = some fiber)
    (hwaiting : pool.get? fiber = some (.waiting action)) (level : Option Level) :
    Change R pool
      ({ pool with queue := pool.queue.eraseIdxIfInBounds position }.release level fiber)
      [.dropped fiber] [] := by
  refine .passed hwaiting (.thrownAway action) ?_ fun other => ?_
  · refine fibers_release fun ending hended => ?_
    cases hwaiting.symm.trans hended
  · rw [queue_release]
    simpa [Fiber.isWaiting] using count_eraseIdx hqueue other

/-- A job that ends writes its outcome into its fiber. -/
theorem change_finish {fiber : FiberId} (hrunning : pool.get? fiber = some .running)
    (level : Option Level) (outcome : Except Fault S.Value) :
    Change R pool (pool.finish level fiber outcome) [.ended fiber outcome] [] :=
  .passed hrunning (.ended outcome) (fibers_finish hrunning) (by simp [Fiber.isWaiting])

end Pool

/-- The jobs that the move of a computation launches. -/
def Reaction.launched : Reaction S α → List (Job S)
  | next _ launch => launch.jobs
  | _ => []

/-- The jobs that the move of a thread launches. -/
def Motion.launched : Motion S α → List (Job S)
  | moved _ launch => launch.jobs
  | _ => []

/-- Answering a request changes at most one fiber. -/
theorem Pool.change_answer (R : Runtime S W) (pool : Pool S W) (request : Request S)
    (k : request.Reply → Comp S α) :
    Change R pool (pool.answer R request).2.2 ((Comp.ask request k).deeds R pool)
      (pool.answer R request).2.1.jobs := by
  cases request with
  | newFiber => exact .made rfl rfl
  | start fiber action => exact change_start R fiber action pool
  | keep fiber action => exact change_keep R fiber action pool
  | ended fiber => exact .quiet rfl rfl
  | note event => exact .quiet rfl rfl
  | sight fiber => exact .quiet rfl rfl
  | log record => exact .quiet (fibers_log ..) (queue_log ..)
  | perform effect => exact .quiet rfl rfl

/-- A move changes at most one fiber, and that to its next stage. -/
theorem Comp.change_of_react {R : Runtime S W} {pool pool' : Pool S W} {c : Comp S α}
    {reaction : Reaction S α} (h : c.react R pool = (reaction, pool')) :
    Pool.Change R pool pool' (c.deeds R pool) reaction.launched := by
  cases c with
  | done a =>
    cases h
    exact .quiet rfl rfl
  | fail fault =>
    cases h
    exact .quiet rfl rfl
  | ask request k =>
    cases h
    exact Pool.change_answer R pool request k
  | demand d k =>
    cases d with
    | read fiber =>
      rw [react] at h
      rw [deeds, Pool.readDeeds]
      -- Only the reader of a fiber that has ended is told anything.
      rcases hstage : pool.get? fiber with _ | (_ | action | action | _ | ending) <;>
        rw [hstage] at h <;> cases h
      case some.ended.refl => exact .told hstage rfl rfl
      all_goals exact .quiet rfl rfl
    | interpret yields machine =>
      cases h
      exact .quiet rfl rfl
  | runQueue k =>
    rw [react] at h
    rw [deeds, Pool.queueDeeds]
    by_cases hempty : pool.queue.isEmpty
    · rw [if_pos hempty] at h ⊢
      cases h
      exact .quiet rfl rfl
    · rw [if_neg hempty] at h ⊢
      cases hstart : pool.startAt? R.toInterpreter (pool.nextPosition R.newestFirst) with
      | none =>
        rw [hstart] at h
        cases h
        exact .quiet rfl rfl
      | some started =>
        rw [hstart] at h
        cases h
        exact Pool.change_startAt hstart

theorem Thread.change_of_move {R : Runtime S W} {pool pool' : Pool S W} {thread : Thread S α}
    {motion : Motion S α} (h : thread.move R pool = (motion, pool')) :
    Pool.Change R pool pool' (thread.deeds R pool) motion.launched := by
  cases thread with
  | base c =>
    rw [move] at h
    cases hreact : c.react R pool with
    | mk reaction pool₁ =>
      have hchange := Comp.change_of_react hreact
      rw [hreact] at h
      cases reaction <;> cases h <;> exact hchange
  | nested c callers outer =>
    rw [move] at h
    cases hreact : c.react R pool with
    | mk reaction pool₁ =>
      have hchange := Comp.change_of_react hreact
      rw [hreact] at h
      match reaction with
      | .next _ _ | .enter _ _ | .blocked | .ended (.ok (.value _)) | .ended (.ok (.again _ _))
      | .ended (.error _) =>
        cases h
        exact hchange

theorem Launch.onto_perm (launch : Launch S) (jobs : List (Job S)) :
    (launch.onto jobs).Perm (launch.jobs ++ jobs) := by
  cases launch with
  | none => exact .refl _
  | ahead job => exact .refl _
  | behind job => exact List.perm_append_comm

/-- A computation ends on its own account, and leaves everything as it is. -/
theorem Comp.of_ended {R : Runtime S W} {pool pool' : Pool S W} {c : Comp S α}
    {outcome : Except Fault α} (h : c.react R pool = (.ended outcome, pool')) :
    c.deeds R pool = [] ∧ pool' = pool := by
  cases c with
  | done a | fail fault =>
    cases h
    exact ⟨rfl, rfl⟩
  | _ =>
    unfold react at h
    grind

/-- So does a thread. -/
theorem Thread.of_ended {R : Runtime S W} {pool pool' : Pool S W} {thread : Thread S α}
    {outcome : Except Fault α} (h : thread.move R pool = (.ended outcome, pool')) :
    thread.deeds R pool = [] ∧ pool' = pool := by
  cases thread with
  | base c =>
    rw [move] at h
    cases hreact : c.react R pool with
    | mk reaction pool₁ =>
      rw [hreact] at h
      cases reaction <;> cases h
      exact Comp.of_ended hreact
  | nested c callers outer =>
    unfold move at h
    grind

/-- No job ends because some thread goes on. -/
theorem Comp.ended_not_mem_deeds (R : Runtime S W) (pool : Pool S W) (c : Comp S α)
    (fiber : FiberId) (outcome : Except Fault S.Value) :
    .ended fiber outcome ∉ c.deeds R pool := by
  unfold deeds
  split
  · unfold Pool.startDeeds
    grind
  · unfold Pool.readDeeds
    grind
  · unfold Pool.queueDeeds
    grind
  · simp

theorem Thread.ended_not_mem_deeds (R : Runtime S W) (pool : Pool S W) (thread : Thread S α)
    (fiber : FiberId) (outcome : Except Fault S.Value) :
    .ended fiber outcome ∉ thread.deeds R pool := by
  cases thread <;> exact Comp.ended_not_mem_deeds R pool _ fiber outcome

/-- If there have been as many of something as fibers in certain stages, and one fiber gets on,
there are still as many if their number has followed that fiber. -/
theorem Pool.any_of_set {pool pool' : Pool S W} {fiber other : FiberId} {stage stage' : Fiber S}
    (before : pool.get? fiber = some stage) (after : pool'.fibers = (pool.set fiber stage').fibers)
    (p : Fiber S → Bool) {n : Nat}
    (hcount : n + (if other = fiber then (p stage).toNat else 0) =
      ((pool.get? other).any p).toNat + if other = fiber then (p stage').toNat else 0) :
    n = ((pool'.get? other).any p).toNat := by
  by_cases hother : other = fiber
  · subst hother
    rw [get?_of_set after before]
    simp only [before, if_true, Option.any_some] at hcount ⊢
    omega
  · rw [get?_of_set_of_ne after hother]
    simpa [hother] using hcount

/-! ## The record of a scene -/

namespace Scene

/-- The record of a scene is true: it says in which stage each fiber is, what readers were told is
still what there is to be told, and those jobs are in the queue or under way whose fibers wait or
run. A job under way comes to nothing that its action does not come to. -/
structure Recorded (R : Runtime S W) (scene : Scene S W α) (deeds : List (Deed S)) : Prop where
  life : ∀ fiber, Fiber.Life R fiber (scene.pool.get? fiber) (Deed.lifeline fiber deeds)
  told : ∀ {fiber outcome}, .read fiber outcome ∈ deeds →
    ∃ ending, scene.pool.get? fiber = some (.ended ending) ∧ outcome = ending.read fiber
  queue : ∀ fiber, scene.pool.queue.toList.count fiber =
    ((scene.pool.get? fiber).any Fiber.isWaiting).toNat
  jobs : ∀ fiber, (scene.jobs.map Job.fiber).count fiber =
    ((scene.pool.get? fiber).any Fiber.isRunning).toNat
  runs : ∀ job ∈ scene.jobs, ∀ action, .handed job.fiber action ∈ deeds → ∀ outcome,
    job.thread.Yields R outcome → (Thread.base (R.act action)).Yields R outcome

/-- Nothing has happened, and nothing is on record. -/
theorem recorded_opening (R : Runtime S W) (world : W) :
    Recorded R (opening world : Scene S W α) [] where
  life fiber := by
    have hnone : (opening world : Scene S W α).pool.get? fiber = none := by
      simp [opening, Pool.empty, Pool.get?]
    rw [hnone]
    exact .unmade
  told := by simp
  queue fiber := by simp [opening, Pool.empty, Pool.get?]
  jobs fiber := by simp [opening, Pool.empty, Pool.get?]
  runs := by simp [opening]

/-- The jobs that go on: each was launched just now, or comes to nothing to which it could not
come before. -/
def GoOn (R : Runtime S W) (launched jobs jobs' : List (Job S)) : Prop :=
  ∀ job ∈ jobs', job ∈ launched ∨ ∃ job₀ ∈ jobs, job₀.fiber = job.fiber ∧
    ∀ outcome, job.thread.Yields R outcome → job₀.thread.Yields R outcome

namespace Recorded

variable {R : Runtime S W} {scene : Scene S W α} {deeds more : List (Deed S)} {pool' : Pool S W}
  {launched jobs' : List (Job S)} {callers' : List (Main S α)} {fiber : FiberId}

/-- A job under way is that of a fiber that runs. -/
theorem running (h : Recorded R scene deeds) {job : Job S} (hjob : job ∈ scene.jobs) :
    scene.pool.get? job.fiber = some .running := by
  have hcount := List.count_pos_iff.mpr (List.mem_map_of_mem (f := Job.fiber) hjob)
  rw [h.jobs] at hcount
  cases hstage : scene.pool.get? job.fiber with
  | none => simp [hstage] at hcount
  | some stage => cases stage <;> simp [hstage, Fiber.isRunning] at hcount ⊢

/-- A job in the queue is that of a fiber that waits. -/
theorem waiting (h : Recorded R scene deeds) (hfiber : fiber ∈ scene.pool.queue.toList) :
    ∃ action, scene.pool.get? fiber = some (.waiting action) := by
  have hcount := List.count_pos_iff.mpr hfiber
  rw [h.queue] at hcount
  cases hstage : scene.pool.get? fiber with
  | none => simp [hstage] at hcount
  | some stage => cases stage <;> simp [hstage, Fiber.isWaiting] at hcount ⊢

section Pass

variable {stage stage' : Fiber S} (before : scene.pool.get? fiber = some stage)
  (passes : Fiber.Passes R fiber stage more launched stage')
  (after : pool'.fibers = (scene.pool.set fiber stage').fibers)

include before passes

/-- A job is new and runs the action that its fiber was handed over with, or goes on. -/
theorem runs_of_passes (h : Recorded R scene deeds) (runs : GoOn R launched scene.jobs jobs')
    {job : Job S} (hjob : job ∈ jobs') {action : S.Action}
    (hmem : .handed job.fiber action ∈ deeds ++ more) {outcome : Except Fault S.Value}
    (hyields : job.thread.Yields R outcome) : (Thread.base (R.act action)).Yields R outcome := by
  have hlife := h.life fiber
  rw [before] at hlife
  obtain hlaunched | ⟨job₀, hjob₀, hfiber, hcomes⟩ := runs job hjob
  · obtain ⟨hfiber, hbegun⟩ := passes.of_launched hlife hlaunched
    rw [hfiber] at hmem
    have hhanded (hmem : .handed fiber action ∈ deeds) :
        .handed fiber action ∈ Deed.lifeline fiber deeds := Deed.mem_lifeline.mpr ⟨hmem, rfl, rfl⟩
    rw [← hbegun action (List.mem_append.mpr ((List.mem_append.mp hmem).imp_left hhanded))]
    exact hyields
  · rw [← hfiber] at hmem
    obtain hmem | hmem := List.mem_append.mp hmem
    · exact h.runs job₀ hjob₀ action hmem outcome (hcomes outcome hyields)
    · -- A fiber with a job under way runs, so its action is not handed over again.
      obtain ⟨hsame, rfl⟩ := passes.of_handed hmem
      have hrunning := h.running hjob₀
      rw [hsame, before] at hrunning
      cases hrunning

include after

/-- Only the one fiber gets on, and the new deeds are all on its record. -/
theorem life_of_passes (h : Recorded R scene deeds)
    (yields : ∀ outcome, .ended fiber outcome ∈ more →
      ∃ job ∈ scene.jobs, job.fiber = fiber ∧ job.thread.Yields R outcome) (other : FiberId) :
    Fiber.Life R other (pool'.get? other) (Deed.lifeline other (deeds ++ more)) := by
  rw [Deed.lifeline_append]
  by_cases hother : other = fiber
  · subst hother
    have hlife := h.life other
    rw [before] at hlife
    rw [Pool.get?_of_set after before, passes.lifeline_self]
    refine passes.life hlife fun outcome hended action hmem => ?_
    obtain ⟨job, hjob, rfl, hyields⟩ := yields outcome hended
    exact h.runs job hjob action (Deed.mem_lifeline.mp hmem).1 outcome hyields
  · rw [Pool.get?_of_set_of_ne after hother, passes.lifeline_of_ne hother, List.append_nil]
    exact h.life other

/-- Readers are told of endings only, and no fiber that has ended gets on. -/
theorem told_of_passes (h : Recorded R scene deeds) {other : FiberId}
    {outcome : Except Fault S.Value} (hread : .read other outcome ∈ deeds ++ more) :
    ∃ ending, pool'.get? other = some (.ended ending) ∧ outcome = ending.read other := by
  obtain hread | hread := List.mem_append.mp hread
  · obtain ⟨ending, hended, htold⟩ := h.told hread
    have hother : other ≠ fiber := by
      rintro rfl
      obtain rfl := Option.some.inj (before.symm.trans hended)
      exact passes.not_isReady rfl
    exact ⟨ending, (Pool.get?_of_set_of_ne after hother).trans hended, htold⟩
  · exact absurd hread (passes.not_read outcome)

/-- The record stays true if one fiber passes to its next stage. -/
theorem pass (h : Recorded R scene deeds)
    (queue : ∀ other, pool'.queue.toList.count other +
        (if other = fiber then stage.isWaiting.toNat else 0) =
      scene.pool.queue.toList.count other + if other = fiber then stage'.isWaiting.toNat else 0)
    (jobs : ∀ other, (jobs'.map Job.fiber).count other +
        (if other = fiber then stage.isRunning.toNat else 0) =
      (scene.jobs.map Job.fiber).count other + if other = fiber then stage'.isRunning.toNat else 0)
    (runs : GoOn R launched scene.jobs jobs')
    (yields : ∀ outcome, .ended fiber outcome ∈ more →
      ∃ job ∈ scene.jobs, job.fiber = fiber ∧ job.thread.Yields R outcome) :
    Recorded R ⟨pool', callers', jobs'⟩ (deeds ++ more) where
  life := life_of_passes before passes after h yields
  told := told_of_passes before passes after h
  queue other := Pool.any_of_set before after _ ((queue other).trans (by rw [h.queue]))
  jobs other := Pool.any_of_set before after _ ((jobs other).trans (by rw [h.jobs]))
  runs _ hjob _ hmem _ := runs_of_passes before passes h runs hjob hmem

end Pass

/-- The record stays true if no fiber gets on, though a new one may be made and readers may be
told of endings. -/
theorem still (h : Recorded R scene deeds)
    (hget : ∀ other, pool'.get? other = scene.pool.get? other ∨
      scene.pool.get? other = none ∧ pool'.get? other = some .named)
    (hmore : ∀ deed ∈ more, ∃ other ending, deed = .read other (ending.read other) ∧
      scene.pool.get? other = some (.ended ending))
    (queue : pool'.queue = scene.pool.queue)
    (jobs : (jobs'.map Job.fiber).Perm (scene.jobs.map Job.fiber))
    (runs : GoOn R [] scene.jobs jobs') : Recorded R ⟨pool', callers', jobs'⟩ (deeds ++ more) := by
  have hlifeline (other : FiberId) : Deed.lifeline other more = [] := by
    refine List.filter_eq_nil_iff.mpr fun deed hdeed => ?_
    obtain ⟨_, _, rfl, -⟩ := hmore deed hdeed
    simp [Deed.isRead]
  -- A name by itself is neither queued nor under way, so the counts stay as they are.
  have hany (p : Fiber S → Bool) (hp : p .named = false) (other : FiberId) :
      (scene.pool.get? other).any p = (pool'.get? other).any p := by
    obtain hsame | ⟨hnone, hnamed⟩ := hget other
    · rw [hsame]
    · simp [hnone, hnamed, hp]
  refine ⟨fun other => ?_, fun {other outcome} hread => ?_, fun other => ?_, fun other => ?_,
    fun job hjob action hmem outcome hyields => ?_⟩
  · rw [Deed.lifeline_append, hlifeline, List.append_nil]
    have hlife := h.life other
    obtain hsame | ⟨hnone, hnamed⟩ := hget other
    · rw [hsame]
      exact hlife
    · -- Nothing can have been done to a fiber before it was made.
      rw [hnone] at hlife
      rw [hnamed]
      generalize Deed.lifeline other deeds = before at hlife
      cases hlife
      exact .named
  · obtain ⟨ending, hended, htold⟩ : ∃ ending,
        scene.pool.get? other = some (.ended ending) ∧ outcome = ending.read other := by
      obtain hread | hread := List.mem_append.mp hread
      · exact h.told hread
      · obtain ⟨_, ending, hdeed, hended⟩ := hmore _ hread
        cases hdeed
        exact ⟨ending, hended, rfl⟩
    obtain hsame | ⟨hnone, -⟩ := hget other
    · exact ⟨ending, hsame.trans hended, htold⟩
    · cases hnone.symm.trans hended
  · show pool'.queue.toList.count other = ((pool'.get? other).any Fiber.isWaiting).toNat
    rw [queue, h.queue, hany _ rfl]
  · show (jobs'.map Job.fiber).count other = ((pool'.get? other).any Fiber.isRunning).toNat
    rw [jobs.count_eq, h.jobs, hany _ rfl]
  · obtain hlaunched | ⟨job₀, hjob₀, hfiber, hcomes⟩ := runs job hjob
    · cases hlaunched
    · rw [← hfiber] at hmem
      obtain hmem | hmem := List.mem_append.mp hmem
      · exact h.runs job₀ hjob₀ action hmem outcome (hcomes outcome hyields)
      · obtain ⟨_, _, hdeed, -⟩ := hmore _ hmem
        cases hdeed

/-- The record stays true if the pool changes by one move and no job ends. -/
theorem change (h : Recorded R scene deeds) (hchange : Pool.Change R scene.pool pool' more launched)
    (hended : ∀ other outcome, .ended other outcome ∉ more)
    (jobs : (jobs'.map Job.fiber).Perm (launched.map Job.fiber ++ scene.jobs.map Job.fiber))
    (runs : GoOn R launched scene.jobs jobs') :
    Recorded R ⟨pool', callers', jobs'⟩ (deeds ++ more) := by
  cases hchange with
  | quiet fibers queue =>
    exact h.still (fun other => .inl (Pool.get?_congr fibers other)) (by simp) queue jobs runs
  | told stage fibers queue =>
    refine h.still (fun other => .inl (Pool.get?_congr fibers other)) (fun deed hdeed => ?_) queue
      jobs runs
    exact ⟨_, _, List.mem_singleton.mp hdeed, stage⟩
  | made fibers queue =>
    refine h.still (fun other => ?_) (by simp) queue jobs runs
    rw [Pool.get?_push fibers]
    by_cases hnew : other = ⟨scene.pool.fibers.size⟩
    · exact .inr ⟨by simp [Pool.get?, hnew], if_pos hnew⟩
    · exact .inl (if_neg hnew)
  | passed before passes after queue =>
    refine h.pass before passes after queue (fun other => ?_) runs fun outcome hmem =>
      absurd hmem (hended _ outcome)
    rw [jobs.count_eq, List.count_append, ← passes.count_launched (hended _) other]
    omega

/-- The record stays true if nothing happens to the pool. -/
theorem same (h : Recorded R scene deeds) (callers' : List (Main S α)) :
    Recorded R ⟨scene.pool, callers', scene.jobs⟩ (deeds ++ []) :=
  h.change (.quiet rfl rfl) (by simp) (.refl _) fun job hjob =>
    .inr ⟨job, hjob, rfl, fun _ hyields => hyields⟩

end Recorded

theorem goOn_onto (R : Runtime S W) {jobs jobs' : List (Job S)} (launch : Launch S)
    (runs : GoOn R [] jobs jobs') : GoOn R launch.jobs jobs (launch.onto jobs') := by
  intro job hjob
  obtain hlaunched | hold := List.mem_append.mp ((launch.onto_perm jobs').mem_iff.mp hjob)
  · exact .inl hlaunched
  · obtain hnone | hcomes := runs job hold
    · cases hnone
    · exact .inr hcomes

theorem goOn_self (R : Runtime S W) (jobs : List (Job S)) : GoOn R [] jobs jobs :=
  fun job hjob => .inr ⟨job, hjob, rfl, fun _ hyields => hyields⟩

/-- One move of a job takes it to nothing to which it could not come before. -/
theorem goOn_move {R : Runtime S W} {pool pool' : Pool S W} {thread thread' : Thread S S.Value}
    {launch : Launch S} (moved : thread.move R pool = (.moved thread' launch, pool'))
    (before after : List (Job S)) (fiber : FiberId) :
    GoOn R [] (before ++ ⟨fiber, thread⟩ :: after) (before ++ ⟨fiber, thread'⟩ :: after) := by
  intro job hjob
  obtain hbefore | rfl | hafter : job ∈ before ∨ job = ⟨fiber, thread'⟩ ∨ job ∈ after := by
    simpa using hjob
  · exact .inr ⟨job, by simp [hbefore], rfl, fun _ hyields => hyields⟩
  · exact .inr ⟨⟨fiber, thread⟩, by simp, rfl, fun _ hyields => .moved moved hyields⟩
  · exact .inr ⟨job, by simp [hafter], rfl, fun _ hyields => hyields⟩

/-- One step changes the pool by at most one move. -/
theorem Recorded.step {R : Runtime S W} {scene scene' : Scene S W α} {deeds more : List (Deed S)}
    (h : Recorded R scene deeds) (step : Step R scene more scene') :
    Recorded R scene' (deeds ++ more) ∧
      ∃ launched, Pool.Change R scene.pool scene'.pool more launched := by
  cases step with
  | move move =>
    cases move with
    | caller before after jobs moved =>
      have hchange := Thread.change_of_move moved
      refine ⟨h.change hchange (Thread.ended_not_mem_deeds R _ _) ?_ ?_, _, hchange⟩
      · rw [← List.map_append]
        exact (Launch.onto_perm _ _).map _
      · exact goOn_onto R _ (goOn_self R _)
    | callerEnded before after jobs ended =>
      obtain ⟨-, rfl⟩ := Thread.of_ended ended
      exact ⟨h.same _, [], .quiet rfl rfl⟩
    | job callers before after moved =>
      have hchange := Thread.change_of_move moved
      refine ⟨h.change hchange (Thread.ended_not_mem_deeds R _ _) ?_ ?_, _, hchange⟩
      · rw [← List.map_append]
        refine ((Launch.onto_perm _ _).map _).trans ?_
        simp [Motion.launched]
      · exact goOn_onto R _ (goOn_move moved before after _)
    | @jobEnded pool _ callers before after fiber thread outcome ended =>
      obtain ⟨-, rfl⟩ := Thread.of_ended ended
      have hjob : ⟨fiber, thread⟩ ∈ before ++ ⟨fiber, thread⟩ :: after := by simp
      have hrunning := h.running hjob
      -- The job goes, and with it its fiber passes from running to its end.
      refine ⟨h.pass hrunning (.ended outcome) (Pool.fibers_finish hrunning) ?_ ?_ ?_ ?_, [],
        Pool.change_finish hrunning R.level outcome⟩
      · simp [Fiber.isWaiting]
      · intro other
        by_cases hother : other = fiber <;>
          simp [Fiber.isRunning, hother, Ne.symm, Nat.add_assoc]
      · intro job hrest
        have hold : job ∈ before ++ ⟨fiber, thread⟩ :: after :=
          ((List.sublist_cons_self _ after).append_left before).subset hrest
        exact .inr ⟨job, hold, rfl, fun _ hyields => hyields⟩
      · intro outcome' hended
        cases List.mem_singleton.mp hended
        exact ⟨_, hjob, rfl, .ended ended⟩
    | jobBegun callers jobs started =>
      have hchange := Pool.change_startAt started
      refine ⟨h.change hchange (by simp) (by simp) ?_, _, hchange⟩
      exact goOn_onto R (.ahead _) (goOn_self R _)
  | call pool callers jobs main => exact ⟨h.same _, [], .quiet rfl rfl⟩
  | hangUp pool before after main jobs => exact ⟨h.same _, [], .quiet rfl rfl⟩
  | @drop pool position fiber callers jobs queued =>
    obtain ⟨action, hwaiting⟩ := h.waiting (Array.mem_toList_iff.mpr (Array.mem_of_getElem? queued))
    have hchange := Pool.change_release (R := R) queued hwaiting R.level
    exact ⟨h.change hchange (by simp) (.refl _) (goOn_self R _), _, hchange⟩
  | outside callers jobs fibers queue =>
    have hchange := Pool.Change.quiet (R := R) fibers queue
    exact ⟨h.change hchange (by simp) (.refl _) (goOn_self R _), _, hchange⟩

/-- The record of a story is true. -/
theorem recorded_of_trail {R : Runtime S W} {world : W} {scene : Scene S W α}
    {deeds : List (Deed S)} (story : Trail (Step R) (opening world) deeds scene) :
    Recorded R scene deeds := by
  induction story with
  | refl => exact recorded_opening R world
  | tail _ last ih => exact (ih.step last).1

/-- A fiber that has ended stays as it ended. -/
theorem Recorded.ended_stays {R : Runtime S W} {scene scene' : Scene S W α}
    {deeds more : List (Deed S)} (h : Recorded R scene deeds)
    (later : Trail (Step R) scene more scene') {fiber : FiberId} {ending : Ending S}
    (hended : scene.pool.get? fiber = some (.ended ending)) :
    Recorded R scene' (deeds ++ more) ∧ scene'.pool.get? fiber = some (.ended ending) := by
  induction later with
  | refl => exact ⟨by simpa using h, hended⟩
  | tail _ last ih =>
    obtain ⟨h, hended⟩ := ih
    obtain ⟨h', launched, hchange⟩ := h.step last
    exact ⟨by simpa using h', hchange.get?_of_isReady hended rfl⟩

/-- Once its action has been handed over, a fiber is ready just if its job has ended or was thrown
away, and a reader waits just as long as it is not. -/
theorem Recorded.ready_iff {R : Runtime S W} {scene : Scene S W α} {deeds : List (Deed S)}
    (h : Recorded R scene deeds) {fiber : FiberId} {action : S.Action}
    (hhanded : .handed fiber action ∈ deeds) :
    (scene.pool.isReady fiber = true ↔
      (∃ outcome, .ended fiber outcome ∈ deeds) ∨ .dropped fiber ∈ deeds) ∧
    ∀ k : Except Fault S.Value → Comp S α,
      ((Comp.demand (.read fiber) k).react R scene.pool).1 = .blocked ↔
        scene.pool.isReady fiber = false := by
  have hmem {deed : Deed S} (hfiber : deed.fiber = fiber) (hread : deed.isRead = false) :
      deed ∈ deeds ↔ deed ∈ Deed.lifeline fiber deeds := by
    simp [Deed.mem_lifeline, hfiber, hread]
  have hended (outcome : Except Fault S.Value) :
      .ended fiber outcome ∈ deeds ↔ .ended fiber outcome ∈ Deed.lifeline fiber deeds :=
    hmem rfl rfl
  have hdropped : .dropped fiber ∈ deeds ↔ .dropped fiber ∈ Deed.lifeline fiber deeds :=
    hmem rfl rfl
  rw [hmem rfl rfl] at hhanded
  simp only [hended, hdropped, Pool.isReady]
  have hlife := h.life fiber
  generalize Deed.lifeline fiber deeds = before at hlife hhanded
  cases hstage : scene.pool.get? fiber with
  | none =>
    rw [hstage] at hlife
    cases hlife
    cases hhanded
  | some stage =>
    rw [hstage] at hlife
    cases hlife <;> simp [Comp.react, hstage, Fiber.isReady] at hhanded ⊢

/-- **Fibers are written once.** Whatever is done in whatever order, by whichever computations and
jobs: a fiber is at the stage that the record of what was done to it says, so that its action is
handed over once, its job begins at most once and then ends at most once, or is thrown away and
never begins. It is ready just if its job has ended or was thrown away, and until then its readers
wait. What readers are told, early or late, is the ending that it has. And once it has ended, it
stays as it ended. -/
theorem write_once {R : Runtime S W} {world : W} {scene : Scene S W α} {deeds : List (Deed S)}
    (story : Trail (Step R) (opening world) deeds scene) (fiber : FiberId) :
    Fiber.Life R fiber (scene.pool.get? fiber) (Deed.lifeline fiber deeds) ∧
    (scene.jobs.map Job.fiber).count fiber =
      ((scene.pool.get? fiber).any Fiber.isRunning).toNat ∧
    (∀ action, .handed fiber action ∈ deeds →
      (scene.pool.isReady fiber = true ↔
        (∃ outcome, .ended fiber outcome ∈ deeds) ∨ .dropped fiber ∈ deeds) ∧
      ∀ k : Except Fault S.Value → Comp S α,
        ((Comp.demand (.read fiber) k).react R scene.pool).1 = .blocked ↔
          scene.pool.isReady fiber = false) ∧
    (∀ outcome, .read fiber outcome ∈ deeds →
      ∃ ending, scene.pool.get? fiber = some (.ended ending) ∧ outcome = ending.read fiber) ∧
    ∀ more scene', Trail (Step R) scene more scene' → ∀ ending,
      scene.pool.get? fiber = some (.ended ending) →
      scene'.pool.get? fiber = some (.ended ending) := by
  have h := recorded_of_trail story
  refine ⟨h.life fiber, h.jobs fiber, ?_, ?_, ?_⟩
  · intro action hhanded
    exact h.ready_iff hhanded
  · intro outcome hread
    exact h.told hread
  · intro more scene' later ending hended
    exact (h.ended_stays later hended).2

/-- Numbers and nothing else: one action, and neither code nor effects. -/
def plain : Signature where
  Base := Scalar
  Code := Empty
  Action := Unit
  Effect := Empty
  Reply := Empty.elim

/-- The one action yields seven, beside whoever starts it. -/
def sevens : Runtime plain Unit where
  build code := code.elim
  compute code := code.elim
  act _ := .done (.of (.ground .int64) (7 : Int64))
  observer := .recording
  spawner := .background
  newestFirst := false
  level := none
  effect e := e.elim

/-- A fiber is started, its job ends, and it is read after that. -/
theorem write_once_sevens :
    ∃ (scene : Scene plain Unit plain.Value) (deeds : List (Deed plain)),
      Trail (Step sevens) (opening ()) deeds scene ∧
      Fiber.Life sevens ⟨0⟩ (some (.ended (.value (.of (.ground .int64) (7 : Int64)))))
        [.handed ⟨0⟩ (), .begun ⟨0⟩, .ended ⟨0⟩ (.ok (.of (.ground .int64) (7 : Int64)))] ∧
      ∀ outcome, .read ⟨0⟩ outcome ∈ deeds →
        ∃ ending, scene.pool.get? ⟨0⟩ = some (.ended ending) ∧ outcome = ending.read ⟨0⟩ := by
  have start : Trail (Step sevens) (opening () : Scene plain Unit plain.Value) [] _ := .refl
  have story := start
    |>.tail (.call _ [] [] (.running (.base (.ask .newFiber fun fiber =>
      .ask (.start fiber ()) fun _ => .read fiber))))
    |>.tail (.move (.caller [] [] [] rfl))
    |>.tail (.move (.caller [] [] [] rfl))
    |>.tail (.move (.jobEnded _ [] [] rfl))
    |>.tail (.move (.caller [] [] [] rfl))
  obtain ⟨hlife, -, -, htold, -⟩ := write_once story ⟨0⟩
  exact ⟨_, _, story, hlife, htold⟩

end Scene

end FiberPrograms
