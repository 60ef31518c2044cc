import FiberPrograms.Proofs.Confinement
import FiberPrograms.Proofs.Holdings

/-!
# Fibers that are left to themselves

Let some fibers be left to themselves. What happens to their jobs is anybody's guess: besides going
on as jobs do, such a job may come to any end at any moment, whether it has begun or not. All else
happens as ever.

In an execution of programs with pure user code, the threads of programs and those of jobs are of a
simple kind. The former read fibers, run programs, start actions and report; the latter only read.
And whatever becomes of a job, each fiber that waits is in the queue once, and each that runs has
one job under way.

## Main definitions

* `Comp.Plain`, `Thread.Plain`: what programs, and what jobs, do at most
* `Scene.Counted`: the jobs in the queue and those under way are those of the fibers that wait and
  run
* `Scene.Drift`: an incident, or the end of a job that is left to itself
* `Scene.Tidy`: the threads of a scene are plain, and its jobs are counted

## Main results

* `Interpreter.plain`: interpreters of pure user code are plain
* `Thread.Confined.still`: jobs change nothing by what they do
* `Scene.Tidy.drift`: scenes stay tidy
-/

namespace FiberPrograms

variable {S : Signature} {W α β : Type} {H : Holdings S}

/-! ## Plain computations -/

/-- Whether programs with pure user code make such a request. -/
def Request.Plain : Request S → Prop
  | keep _ _ | ended _ => False
  | _ => True

/-- What programs with pure user code do, who are busy, and what is left to their actions. -/
def Permit.plain (busy : Prop) : Permit S where
  asks request := busy ∧ request.Plain
  calls := busy

/-- A computation that reads fibers. If it is `busy` it also makes such requests as programs do, and
has programs run. What it yields is as `post` says. -/
abbrev Comp.Plain (busy : Prop) (post : α → Prop) (c : Comp S α) : Prop :=
  c.Confined (.plain busy) post

namespace Comp

variable {busy : Prop}

/-- Pure user code is plain. -/
theorem PureWithin.plain {c : Comp S α} {holds : α → Prop}
    (h : c.PureWithin H Set.univ holds) : c.Plain busy fun _ => True := by
  induction c with
  | done a => trivial
  | fail fault => trivial
  | ask request k => exact h.elim
  | demand d k ih =>
    cases d with
    | read fiber => exact fun outcome => ih outcome (h.2 outcome fun _ _ => Set.subset_univ _)
    | interpret yields machine => exact h.elim
  | runQueue k => exact h.elim

/-- So are tame computations, if they may be busy. -/
theorem Tame.plain {c : Comp S α} {holds : Set FiberId → α → Prop}
    (h : c.Tame H holds Set.univ Set.univ) : c.Plain True fun _ => True := by
  have hinsert (fiber : FiberId) : insert fiber Set.univ = (Set.univ : Set FiberId) :=
    Set.insert_eq_of_mem (Set.mem_univ fiber)
  induction c with
  | done a => trivial
  | fail fault => trivial
  | ask request k ih =>
    refine ⟨⟨trivial, ?_⟩, fun reply => ih reply ?_⟩
    · cases request with
      | keep | ended => exact h.elim
      | _ => trivial
    · cases request with
      | newFiber =>
        have hmade (fiber : FiberId) : (k fiber).Tame H holds Set.univ Set.univ := by
          have hfiber := h fiber
          rw [hinsert] at hfiber
          exact hfiber
        exact hmade reply
      | start fiber action =>
        have hstarted := h.2.2
        rw [hinsert] at hstarted
        exact hstarted
      | keep | ended => exact h.elim
      | perform e => exact h reply
      | note | sight | log => exact h
  | demand d k ih =>
    cases d with
    | read fiber => exact fun outcome => ih outcome (h.2 outcome fun _ _ => Set.subset_univ _)
    | interpret yields machine => exact h.elim
  | runQueue k => exact h.elim

end Comp

mutual

/-- All that is held is held by somebody. -/
theorem Tree.within_univ : (tree : S.Program) → tree.Within H Set.univ
  | .ret _ => .ret (Set.subset_univ _)
  | .instr (.forkAt _ _ _) => .instr (Set.subset_univ _)
  | .instr (.await _) => .instr (Set.mem_univ _)
  | .andThen first next => .andThen first.within_univ next.within_univ

theorem Cont.within_univ : (next : Cont S.Base (ForkJoin S.Base S.Action) S.Code) →
    next.Within H Set.univ
  | .bind _ _ => .bind (Set.subset_univ _)
  | .map _ _ => .map (Set.subset_univ _)
  | .next _ program => .next program.within_univ
  | .zip _ _ other => .zip other.within_univ
  | .pairWith _ _ _ => .pairWith (Set.subset_univ _)
  | .gather _ program => .gather program.within_univ
  | .push _ _ => .push (Set.subset_univ _)
  | .collect _ => .collect

end

/-- The machines of an interpreter take plain steps, and its actions only read. -/
structure Interpreter.Plain (I : Interpreter S) : Prop where
  turn : ∀ yields machine, (I.turn yields machine).Plain True fun _ => True
  act : ∀ action, (I.act action).Plain False fun _ => True

/-- So it is if user code is pure and the observer reports. -/
theorem Interpreter.plain {I : Interpreter S} (hpure : I.toMeaning.Pure H)
    (hreports : ∀ event, (I.observer event).Reports) : I.Plain where
  turn yields machine := by
    have hmachine : machine.Within H Set.univ :=
      ⟨fun tree _ => tree.within_univ, fun next _ => next.within_univ⟩
    exact Comp.Tame.plain (Interpreter.tame_turn hpure hreports hmachine)
  act action := (hpure.act (Set.subset_univ _)).plain

/-- Whether somebody is busy or not, plain interpreters permit what is plain. -/
theorem Interpreter.Plain.confined {I : Interpreter S} (hI : I.Plain) (busy : Prop) :
    I.Confined (.plain busy) where
  turn hbusy yields machine := by
    refine (hI.turn yields machine).mono (fun request h => ⟨hbusy, h.2⟩) (fun _ => hbusy) ?_
    rintro (v | _) -
    · trivial
    · exact hbusy
  act action := (hI.act action).mono (fun request h => h.1.elim) False.elim fun _ => id

/-! ## Plain threads -/

/-- A thread all of whose computations are plain. -/
abbrev Thread.Plain (busy : Prop) (thread : Thread S α) : Prop :=
  thread.Confined (.plain busy)

section Moves

variable {R : Runtime S W} {pool pool' : Pool S W}

/-- What only reads changes nothing, starts nothing and reports nothing. -/
theorem Comp.Confined.still {post : α → Prop} {c : Comp S α} (h : c.Plain False post)
    {reaction : Reaction S α} (hreact : c.react R pool = (reaction, pool')) :
    pool' = pool ∧ reaction.launched = [] ∧ (c.activity R pool).events = [] := by
  cases c with
  | done a | fail fault =>
    cases hreact
    exact ⟨rfl, rfl, rfl⟩
  | ask request k => exact h.1.1.elim
  | demand d k =>
    cases d with
    | read fiber =>
      rw [react] at hreact
      split at hreact <;> cases hreact <;> exact ⟨rfl, rfl, rfl⟩
    | interpret yields machine => exact h.1.elim
  | runQueue k => exact h.elim

/-- So it is with threads, and with jobs in particular. -/
theorem Thread.Confined.still {thread : Thread S α} (h : thread.Plain False) {motion : Motion S α}
    (hmove : thread.move R pool = (motion, pool')) :
    pool' = pool ∧ motion.launched = [] ∧ (thread.activity R pool).events = [] := by
  cases h with
  | @base c h =>
    cases hreact : c.react R pool with
    | mk reaction pool₁ =>
      have hstill := h.still hreact
      rw [move, hreact] at hmove
      cases reaction <;> cases hmove <;> exact hstill
  | @nested c callers outer h hcallers houter =>
    cases hreact : c.react R pool with
    | mk reaction pool₁ =>
      have hstill := h.still hreact
      rw [move, hreact] at hmove
      rcases reaction with _ | _ | (_ | (_ | _)) | _ <;> cases hmove <;> exact hstill

end Moves

/-! ## Jobs are counted -/

/-- The fiber whose job ends with a deed. -/
def Deed.over? : Deed S → Option FiberId
  | ended fiber _ => some fiber
  | _ => none

/-- The jobs under way become more by those that are launched, and fewer by one that ends. -/
theorem Fiber.Passes.count_over {R : Runtime S W} {fiber : FiberId} {stage stage' : Fiber S}
    {deeds : List (Deed S)} {launched : List (Job S)}
    (h : Passes R fiber stage deeds launched stage') (other : FiberId) :
    (launched.map Job.fiber).count other +
        (if other = fiber then stage.isRunning.toNat else 0) =
      (deeds.filterMap Deed.over?).count other +
        if other = fiber then stage'.isRunning.toNat else 0 := by
  by_cases hother : other = fiber
  · cases h <;> simp [List.filterMap_cons, Deed.over?, isRunning, Pool.jobOf, hother]
  · cases h <;> simp [List.filterMap_cons, Deed.over?, Pool.jobOf, hother, Ne.symm hother]

namespace Scene

/-- Each fiber that waits is in the queue once, each that runs has one job under way, and there are
no others. -/
structure Counted (scene : Scene S W α) : Prop where
  queue : ∀ fiber, scene.pool.queue.toList.count fiber =
    ((scene.pool.get? fiber).any Fiber.isWaiting).toNat
  jobs : ∀ fiber, (scene.jobs.map Job.fiber).count fiber =
    ((scene.pool.get? fiber).any Fiber.isRunning).toNat

namespace Counted

variable {R : Runtime S W} {scene : Scene S W α} {fiber : FiberId}

theorem running (h : scene.Counted) {job : Job S} (hjob : job ∈ scene.jobs) :
    scene.pool.get? job.fiber = some .running := by
  have hcount := List.count_pos_iff.mpr (List.mem_map_of_mem (f := Job.fiber) hjob)
  rw [h.jobs] at hcount
  cases hstage : scene.pool.get? job.fiber with
  | none => simp [hstage] at hcount
  | some stage => cases stage <;> simp [hstage, Fiber.isRunning] at hcount ⊢

theorem waiting (h : scene.Counted) (hfiber : fiber ∈ scene.pool.queue.toList) :
    ∃ action, scene.pool.get? fiber = some (.waiting action) := by
  have hcount := List.count_pos_iff.mpr hfiber
  rw [h.queue] at hcount
  cases hstage : scene.pool.get? fiber with
  | none => simp [hstage] at hcount
  | some stage => cases stage <;> simp [hstage, Fiber.isWaiting] at hcount ⊢

theorem queue_nodup (h : scene.Counted) : scene.pool.queue.toList.Nodup := by
  rw [List.nodup_iff_count]
  intro fiber
  rw [h.queue]
  exact Bool.toNat_le _

theorem jobs_nodup (h : scene.Counted) : (scene.jobs.map Job.fiber).Nodup := by
  rw [List.nodup_iff_count]
  intro fiber
  rw [h.jobs]
  exact Bool.toNat_le _

/-- Whatever changes, the count is right if the jobs under way have become more by those that are
launched, and fewer by one that ends. -/
theorem change {pool pool' : Pool S W} {callers callers' : List (Main S α)}
    {jobs jobs' launched : List (Job S)} {deeds : List (Deed S)}
    (h : Counted ⟨pool, callers, jobs⟩) (hchange : Pool.Change R pool pool' deeds launched)
    (hjobs : (jobs'.map Job.fiber ++ deeds.filterMap Deed.over?).Perm
      (launched.map Job.fiber ++ jobs.map Job.fiber)) : Counted ⟨pool', callers', jobs'⟩ := by
  -- Unless a fiber passes to another stage, no fiber comes to wait or to run.
  have hstill (hstage : ∀ (is : Fiber S → Bool), is .named = false →
        ∀ other, (pool'.get? other).any is = (pool.get? other).any is)
      (hqueue : pool'.queue = pool.queue)
      (hjobs : (jobs'.map Job.fiber).Perm (jobs.map Job.fiber)) :
      Counted ⟨pool', callers', jobs'⟩ :=
    ⟨fun other => by rw [hqueue, hstage _ rfl]; exact h.queue other,
      fun other => by rw [hjobs.count_eq, hstage _ rfl]; exact h.jobs other⟩
  cases hchange with
  | quiet fibers queue =>
    exact hstill (fun _ _ other => by rw [Pool.get?_congr fibers]) queue (by simpa using hjobs)
  | told stage fibers queue =>
    refine hstill (fun _ _ other => by rw [Pool.get?_congr fibers]) queue ?_
    simpa [List.filterMap_cons, Deed.over?] using hjobs
  | made fibers queue =>
    refine hstill (fun is his other => ?_) queue (by simpa using hjobs)
    rw [Pool.get?_push fibers]
    split
    · subst_vars
      simp [Pool.get?, his]
    · rfl
  | @passed fiber stage stage' _ _ before passes after queue =>
    have hget (other : FiberId) : pool'.get? other =
        if other = fiber then some stage' else pool.get? other := by
      rw [Pool.get?_congr after, Pool.get?_set, before]
      rfl
    refine ⟨fun other => ?_, fun other => ?_⟩
    · have hcount := queue other
      have hbefore := h.queue other
      change pool'.queue.toList.count other = ((pool'.get? other).any Fiber.isWaiting).toNat
      change pool.queue.toList.count other = ((pool.get? other).any _).toNat at hbefore
      rw [hget]
      by_cases hother : other = fiber
      · subst hother
        simp only [before, if_true, Option.any_some] at hcount hbefore ⊢
        omega
      · simp only [hother, if_false] at hcount ⊢
        omega
    · have hcount := hjobs.count_eq other
      have hpassed := passes.count_over other
      have hbefore := h.jobs other
      change (jobs'.map Job.fiber).count other = ((pool'.get? other).any Fiber.isRunning).toNat
      change (jobs.map Job.fiber).count other = ((pool.get? other).any _).toNat at hbefore
      rw [List.count_append, List.count_append] at hcount
      rw [hget]
      by_cases hother : other = fiber
      · subst hother
        simp only [before, if_true, Option.any_some] at hpassed hbefore ⊢
        omega
      · simp only [hother, if_false] at hpassed ⊢
        omega

end Counted

/-- No job ends with a move of somebody who goes on. -/
theorem over_of_move (R : Runtime S W) (pool : Pool S W) (thread : Thread S β) :
    (thread.deeds R pool).filterMap Deed.over? = [] := by
  refine List.filterMap_eq_nil_iff.mpr fun deed hdeed => ?_
  cases deed with
  | ended fiber outcome =>
    exact absurd hdeed (Thread.ended_not_mem_deeds R pool thread fiber outcome)
  | _ => rfl

/-- Jobs stay counted. -/
theorem Counted.incident {R : Runtime S W} {scene scene' : Scene S W α} {entries : List (Entry S)}
    (h : scene.Counted) (incident : Incident R scene entries scene') : scene'.Counted := by
  cases incident with
  | @caller pool pool' before after thread thread' launch jobs moved =>
    refine h.change (Thread.change_of_move moved) ?_
    rw [over_of_move, List.append_nil, ← List.map_append]
    exact (launch.onto_perm jobs).map _
  | callerEnded before after jobs ended =>
    obtain ⟨-, rfl⟩ := Thread.of_ended ended
    exact h.change (R := R) (.quiet rfl rfl) (by simp)
  | @job pool pool' callers before after fiber thread thread' launch moved =>
    refine h.change (Thread.change_of_move moved) ?_
    rw [over_of_move, List.append_nil, ← List.map_append]
    refine ((launch.onto_perm _).map _).trans ?_
    simp [Motion.launched]
  | @jobEnded pool pool' callers before after fiber thread outcome ended =>
    obtain ⟨-, rfl⟩ := Thread.of_ended ended
    have hrunning := h.running (show ⟨fiber, thread⟩ ∈ before ++ ⟨fiber, thread⟩ :: after by simp)
    refine h.change (R := R) (Pool.change_finish hrunning R.level outcome) ?_
    have hperm := (List.perm_append_singleton fiber (after.map Job.fiber)).append_left
      (before.map Job.fiber)
    simpa [List.filterMap_cons, Deed.over?] using hperm
  | jobBegun callers jobs started =>
    exact h.change (Pool.change_startAt started) (by simp [List.filterMap_cons, Deed.over?])
  | @drop pool position fiber callers jobs queued =>
    obtain ⟨action, hwaiting⟩ :=
      h.waiting (Array.mem_toList_iff.mpr (Array.mem_of_getElem? queued))
    exact h.change (R := R) (Pool.change_release queued hwaiting R.level)
      (by simp [List.filterMap_cons, Deed.over?])

end Scene

/-- The job of a fiber has come to some end, and if it was in the queue it is there no more. -/
def Pool.cutShort (fiber : FiberId) (ending : Ending S) (pool : Pool S W) : Pool S W :=
  { pool.fill fiber ending with queue := pool.queue.filter (· ≠ fiber) }

theorem Pool.get?_cutShort {pool : Pool S W} {fiber : FiberId} {stage : Fiber S}
    (before : pool.get? fiber = some stage) (ending : Ending S) (other : FiberId) :
    (pool.cutShort fiber ending).get? other =
      if other = fiber then some (.ended ending) else pool.get? other := by
  change (pool.set fiber (.ended ending)).get? other = _
  rw [get?_set, before]
  rfl

namespace Scene

/-- One incident, or the end of a job that is left to itself: whatever has become of it, its fiber
has ended, and nobody tells of it. -/
inductive Drift (R : Runtime S W) (U : Set FiberId) :
    Scene S W α → List (Entry S) → Scene S W α → Prop
  | incident {scene scene' : Scene S W α} {entries : List (Entry S)}
      (incident : Incident R scene entries scene') : Drift R U scene entries scene'
  | fate {pool : Pool S W} {fiber : FiberId} {stage : Fiber S} (callers : List (Main S α))
      (jobs : List (Job S)) (apart : fiber ∈ U) (before : pool.get? fiber = some stage)
      (pending : stage.isWaiting ∨ stage.isRunning) (ending : Ending S) :
      Drift R U ⟨pool, callers, jobs⟩ []
        ⟨pool.cutShort fiber ending, callers, jobs.filter (·.fiber ≠ fiber)⟩

/-- All threads are plain, those of jobs only read, and jobs are counted. -/
structure Tidy (scene : Scene S W α) : Prop extends
  scene.Counted, scene.Confined (.plain True) (.plain False)

/-- Scenes stay tidy. -/
theorem Tidy.drift {R : Runtime S W} (hR : R.toInterpreter.Plain) {U : Set FiberId}
    {scene scene' : Scene S W α} {entries : List (Entry S)} (h : scene.Tidy)
    (drift : Drift R U scene entries scene') : scene'.Tidy := by
  cases drift with
  | incident incident =>
    exact ⟨h.toCounted.incident incident,
      h.toConfined.incident (hR.confined True) (hR.confined False) incident⟩
  | @fate pool fiber stage callers jobs apart before pending ending =>
    -- The fiber that has ended is nowhere any more, and all others are where they were.
    refine ⟨⟨fun other => ?_, fun other => ?_⟩, ⟨h.callersConfined, fun job hjob => ?_⟩⟩
    · have hcount := h.queue other
      change (pool.queue.filter (· ≠ fiber)).toList.count other = _
      change pool.queue.toList.count other = ((pool.get? other).any _).toNat at hcount
      rw [Pool.get?_cutShort before, Array.toList_filter]
      by_cases hother : other = fiber
      · simp [hother, Fiber.isWaiting, List.count_eq_zero]
      · rw [if_neg hother, List.count_filter (by simpa using hother), hcount]
    · have hcount := h.jobs other
      change ((jobs.filter (·.fiber ≠ fiber)).map Job.fiber).count other = _
      change (jobs.map Job.fiber).count other = ((pool.get? other).any _).toNat at hcount
      have hmap : (jobs.filter (·.fiber ≠ fiber)).map Job.fiber =
          (jobs.map Job.fiber).filter (· ≠ fiber) := by
        rw [List.filter_map]
        rfl
      rw [Pool.get?_cutShort before, hmap]
      by_cases hother : other = fiber
      · simp [hother, Fiber.isRunning, List.count_eq_zero]
      · rw [if_neg hother, List.count_filter (by simpa using hother), hcount]
    · exact h.jobsConfined job (List.mem_filter.mp hjob).1

end Scene

end FiberPrograms
