import FiberPrograms.Proofs.Ranks
import FiberPrograms.Proofs.TypeSafety

/-!
# The oldest job never waits

A thread waits only for a fiber that it holds and whose job has not ended. A job holds older fibers
than its own, so the oldest job that has not ended waits for nothing: by itself, it runs to its end,
unless it goes on forever. If a computation has to wait then some job has not ended, so that there
is an oldest one; hence threads are never stuck all together.

This is so in whatever order threads move and jobs begin, as long as actions start no fibers and no
fiber comes from the world outside. An action that started a fiber might wait for it, and one that
got fibers from elsewhere might wait for a younger one.

## Main definitions

* `Scene.Oldest`: the first of the started fibers that has not ended
* `Scene.Alone`: what a job does by itself

## Main results

* `Scene.Ranked.not_blocked`: the oldest job can move
* `Scene.no_deadlock`: who waits does so for a job that can run to its end
-/

namespace FiberPrograms

variable {S : Signature} {W α : Type} {T : Typing S} {L : Licence S} {calm : S.Code → Prop}

/-- Good states can be left for good states until it is over, so it comes to that, or never
does. -/
theorem Trail.over_or_forever {σ δ : Type} {step : σ → List δ → σ → Prop} {good final : σ → Prop}
    (hstep : ∀ s, good s → ∃ more t, step s more t ∧ (final t ∨ good t)) {s : σ} (hs : good s) :
    (∃ deeds t, Trail step s deeds t ∧ final t) ∨
      ∃ run : Nat → σ, run 0 = s ∧ ∀ n, ∃ more, step (run n) more (run (n + 1)) := by
  by_cases hover : ∃ deeds t, Trail step s deeds t ∧ final t
  · exact .inl hover
  · -- All that can be reached is good, and each has a next.
    have hnext (t : {t // good t ∧ ∃ deeds, Trail step s deeds t}) :
        ∃ u : {t // good t ∧ ∃ deeds, Trail step s deeds t}, ∃ more, step t more u := by
      obtain ⟨t, hgood, deeds, htrail⟩ := t
      obtain ⟨more, u, hstep, hu⟩ := hstep t hgood
      have htrail' := htrail.tail hstep
      obtain hu | hu := hu
      · exact absurd ⟨_, u, htrail', hu⟩ hover
      · exact ⟨⟨u, hu, _, htrail'⟩, more, hstep⟩
    choose next hnext using hnext
    refine .inr ⟨fun n => (next^[n] ⟨s, hs, [], .refl⟩).1, rfl, fun n => ?_⟩
    obtain ⟨more, hmore⟩ := hnext (next^[n] ⟨s, hs, [], .refl⟩)
    exact ⟨more, by simpa only [Function.iterate_succ_apply'] using hmore⟩

/-! ## Who waits -/

/-- A fiber whose job has not ended. -/
def Fiber.Pending (stage : Fiber S) : Prop :=
  stage.HasJob ∧ ∀ ending, stage ≠ .ended ending

section Waits

variable {R : Runtime S W} {pool pool' : Pool S W} {Γ : Set (Handle S.Base)} {q : Phase}
  {post : Set (Handle S.Base) → Phase → α → Prop}

/-- A computation that cannot move waits for a fiber that it holds and whose job has not ended. -/
theorem Comp.Sound.exists_pending (hpool : pool.Supports T L Γ)
    (hqueue : ∀ fiber ∈ pool.queue.toList, ∃ action, pool.get? fiber = some (.waiting action))
    {c : Comp S α} (hc : c.Sound T L post Γ q) (h : (c.react R pool).1 = .blocked) :
    ∃ handle ∈ Γ, ∃ stage, pool.get? handle.fiber = some stage ∧ stage.Pending := by
  cases c with
  | done a => cases h
  | fail fault => cases h
  | ask request k => cases h
  | demand d k =>
    cases d with
    | interpret yields machine => cases h
    | read fiber =>
      obtain ⟨-, τ, hfiber, -⟩ := hc
      obtain ⟨stage, hstage, hsuits⟩ := hpool _ hfiber
      refine ⟨_, hfiber, stage, hstage, ?_⟩
      rw [react, hstage] at h
      cases stage with
      | named => exact hsuits.elim
      | recomputing action => cases h
      | waiting action => exact ⟨trivial, (by simp)⟩
      | running => exact ⟨trivial, (by simp)⟩
      | ended ending => cases h
  | runQueue k =>
    -- A queue that is not empty has a job that can begin.
    rw [react] at h
    by_cases hempty : pool.queue.isEmpty
    · rw [if_pos hempty] at h
      cases h
    · have hlt : pool.nextPosition R.newestFirst < pool.queue.size := by
        have hsize : pool.queue.size ≠ 0 := by simpa [Array.isEmpty] using hempty
        unfold Pool.nextPosition
        split <;> omega
      have hposition := Array.getElem?_eq_getElem hlt
      have hqueued := Array.mem_toList_iff.mpr (Array.mem_of_getElem? hposition)
      obtain ⟨action, hwaiting⟩ := hqueue _ hqueued
      obtain ⟨pool', hstart⟩ := Pool.exists_startAt R.toInterpreter hposition hwaiting
      rw [if_neg hempty, hstart] at h
      cases h

/-- So does a thread. -/
theorem Thread.Sound.exists_pending (hpool : pool.Supports T L Γ)
    (hqueue : ∀ fiber ∈ pool.queue.toList, ∃ action, pool.get? fiber = some (.waiting action))
    {thread : Thread S α} (hthread : thread.Sound T L post Γ q)
    (h : (thread.move R pool).1 = .blocked) :
    ∃ handle ∈ Γ, ∃ stage, pool.get? handle.fiber = some stage ∧ stage.Pending := by
  cases thread with
  | base c =>
    refine Comp.Sound.exists_pending hpool hqueue hthread (R := R) ?_
    unfold Thread.move at h
    grind
  | nested c callers outer =>
    obtain ⟨τ, hc, -⟩ := hthread
    refine hc.exists_pending hpool hqueue (R := R) ?_
    unfold Thread.move at h
    grind

end Waits

/-! ## The oldest job -/

/-- Whether an entry tells of the job of a fiber, that it begins, moves or ends. -/
def Entry.IsOf (fiber : FiberId) (entry : Entry S) : Prop :=
  entry.who? = some (.job fiber) ∨ entry = .queued (.begun fiber)

namespace Scene

/-- The first of the started fibers that has not ended. -/
def Oldest (scene : Scene S W α) (started : List FiberId) (fiber : FiberId) : Prop :=
  ∃ older younger, started = older ++ fiber :: younger ∧
    (∀ other ∈ older, other ∈ scene.pool.ended) ∧ fiber ∉ scene.pool.ended

/-- What the job of a fiber does by itself. -/
def Alone (R : Runtime S W) (fiber : FiberId) (scene : Scene S W α) (entries : List (Entry S))
    (scene' : Scene S W α) : Prop :=
  Incident R scene entries scene' ∧ ∀ entry ∈ entries, entry.IsOf fiber

variable {R : Runtime S W} {scene scene' : Scene S W α} {started : List FiberId} {fiber : FiberId}
  {Γ : Set (Handle S.Base)} {phase : Actor → Phase} {rank : FiberId → Nat}
  {deeds : List (Deed S)} {entries more : List (Entry S)}

/-- If some started fiber has not ended, there is a first one. -/
theorem exists_oldest (hstarted : ∃ fiber ∈ started, fiber ∉ scene.pool.ended) :
    ∃ fiber, scene.Oldest started fiber := by
  classical
  obtain ⟨fiber, hfiber⟩ : ∃ fiber, started.find? (· ∉ scene.pool.ended) = some fiber := by
    rw [← Option.isSome_iff_exists, List.find?_isSome]
    simpa using hstarted
  obtain ⟨hnot, older, younger, hsplit, holder⟩ := List.find?_eq_some_iff_append.mp hfiber
  exact ⟨fiber, older, younger, hsplit, by simpa using holder, by simpa using hnot⟩

/-- It stays the first one until it has ended. -/
theorem Oldest.stays (h : scene.Oldest started fiber) (hrecorded : Recorded R scene deeds)
    (later : Trail (Incident R) scene more scene') (hnot : fiber ∉ scene'.pool.ended) :
    scene'.Oldest (started ++ handedFibers more) fiber := by
  obtain ⟨older, younger, rfl, holder, -⟩ := h
  refine ⟨older, younger ++ handedFibers more, by simp, fun other hother => ?_, hnot⟩
  obtain ⟨ending, hended⟩ := holder other hother
  exact ⟨ending, (hrecorded.ended_stays (trail_of_story later) hended).2⟩

/-- The job of the oldest fiber that has not ended never waits. -/
theorem Ranked.not_blocked (h : scene.Ranked T L Γ phase started rank)
    (hrecorded : Recorded R scene deeds) (holdest : scene.Oldest started fiber) {job : Job S}
    (hjob : job ∈ scene.jobs) (hfiber : job.fiber = fiber) :
    (job.thread.move R scene.pool).1 ≠ .blocked := by
  intro hblocked
  obtain ⟨older, younger, hsplit, holder, -⟩ := holdest
  obtain ⟨i, hi, τ, -, hthread⟩ := h.jobs job hjob
  obtain ⟨handle, ⟨-, hrank⟩, stage, hstage, hhas, hnot⟩ :=
    hthread.exists_pending (h.pool.supports i) (fun _ hqueued => hrecorded.waiting hqueued) hblocked
  -- What it waits for was started before it, and so has ended.
  have hplace : rank fiber = older.length + 1 := h.pool.place (by simp [hsplit])
  have hmem := (h.pool.hasJob handle.fiber).mpr ⟨stage, hstage, hhas⟩
  obtain ⟨j, hj⟩ := List.mem_iff_getElem?.mp hmem
  have hlt : j < older.length := by
    have hself := h.pool.place hi
    have hother := h.pool.place hj
    rw [hfiber] at hself
    omega
  rw [hsplit, List.getElem?_append_left hlt] at hj
  obtain ⟨ending, hended⟩ := holder _ (List.mem_of_getElem? hj)
  exact hnot ending (Option.some.inj (hstage.symm.trans hended))

/-- By itself, the job of the oldest fiber that has not ended can begin, or move, or end. -/
theorem Ranked.exists_alone (h : scene.Ranked T L Γ phase started rank)
    (hrecorded : Recorded R scene deeds) (holdest : scene.Oldest started fiber) :
    ∃ entries scene', Alone R fiber scene entries scene' := by
  have hnot : fiber ∉ scene.pool.ended := by
    obtain ⟨_, _, -, -, hnot⟩ := holdest
    exact hnot
  obtain ⟨stage, hstage, hhas⟩ := (h.pool.hasJob fiber).mp (by
    obtain ⟨older, younger, rfl, -⟩ := holdest
    simp)
  obtain ⟨pool, callers, jobs⟩ := scene
  -- The stage of the fiber tells where its job is: in the queue, or under way.
  cases stage with
  | named => exact hhas.elim
  | recomputing action => exact hhas.elim
  | ended ending => exact absurd ⟨ending, hstage⟩ hnot
  | waiting action =>
    have hqueue : fiber ∈ pool.queue.toList := by
      rw [← List.count_pos_iff, hrecorded.queue fiber, hstage]
      exact Nat.one_pos
    obtain ⟨position, hposition⟩ := List.mem_iff_getElem?.mp hqueue
    rw [Array.getElem?_toList] at hposition
    obtain ⟨pool', hstart⟩ := Pool.exists_startAt R.toInterpreter hposition hstage
    exact ⟨_, _, .jobBegun callers jobs hstart, by simp [Entry.IsOf, Pool.jobOf]⟩
  | running =>
    obtain ⟨job, hjob, hfiber⟩ : ∃ job ∈ jobs, job.fiber = fiber := by
      have hmem : fiber ∈ jobs.map Job.fiber := by
        rw [← List.count_pos_iff, hrecorded.jobs fiber, hstage]
        exact Nat.one_pos
      simpa using hmem
    -- The job could only wait for an older fiber, and all of these have ended.
    have hmoves := h.not_blocked hrecorded holdest hjob hfiber
    obtain ⟨before, after, rfl⟩ := List.append_of_mem hjob
    obtain ⟨other, thread⟩ := job
    obtain rfl : other = fiber := hfiber
    cases hmove : thread.move R pool with
    | mk motion pool' =>
      rw [hmove] at hmoves
      cases motion with
      | moved thread' launch =>
        exact ⟨_, _, .job callers before after hmove, by simp [Entry.IsOf, Entry.who?]⟩
      | ended outcome =>
        exact ⟨_, _, .jobEnded callers before after hmove, by simp [Entry.IsOf, Entry.who?]⟩
      | blocked => exact absurd rfl hmoves

/-- **Jobs never wait for one another in a circle.** Take computations that begin where there are no
fibers, and that wait only for fibers that they hold; so do actions, and these start no fibers. In
whatever order threads move and jobs begin or are thrown away: if a computation has to wait then
some job has not ended, and there is an oldest one. That never waits: by itself it begins, unless it
has begun already, and runs to its end, or it goes on forever. -/
theorem no_deadlock (hworld : ∀ e w, T.replied e (R.effect e w).1 = ∅)
    (hloud : R.toInterpreter.Sound T (.lenient S True fun _ => True))
    (hquiet : R.toInterpreter.Sound T (.lenient S False calm)) {world : W}
    {computations : List (Comp S α)}
    (hcomputations : ∀ c ∈ computations,
      c.Sound T (.lenient S True fun _ => True) (fun _ _ _ => True) ∅ .idle)
    (story : Trail (Incident R) (start world computations) entries scene) :
    (∀ thread, .running thread ∈ scene.callers → (thread.move R scene.pool).1 = .blocked →
      ∃ fiber ∈ handedFibers entries, fiber ∉ scene.pool.ended) ∧
    ((∃ fiber ∈ handedFibers entries, fiber ∉ scene.pool.ended) →
      ∃ fiber, scene.Oldest (handedFibers entries) fiber) ∧
    ∀ fiber, scene.Oldest (handedFibers entries) fiber →
      (∀ job ∈ scene.jobs, job.fiber = fiber → (job.thread.move R scene.pool).1 ≠ .blocked) ∧
      ((∃ more scene', Trail (Alone R fiber) scene more scene' ∧ fiber ∈ scene'.pool.ended) ∨
        ∃ run : Nat → Scene S W α, run 0 = scene ∧
          ∀ n, ∃ more, Alone R fiber (run n) more (run (n + 1))) := by
  have hR : R.Sound T (.lenient S True fun _ => True) fun _ => ∅ :=
    { toInterpreterSound := hloud
      replied := fun e w => by rw [hworld]; exact Set.empty_subset _
      kept := fun _ _ => Set.empty_subset _ }
  have hranked {entries : List (Entry S)} {scene : Scene S W α}
      (story : Trail (Incident R) (start world computations) entries scene) :=
    exists_ranked_of_story hworld hR hquiet (fun _ _ _ _ _ _ => trivial) rfl hcomputations story
  refine ⟨fun thread hthread hblocked => ?_, exists_oldest, fun fiber holdest => ⟨?_, ?_⟩⟩
  · -- What is waited for has been given out as a handle, so it has got a job, which has not ended.
    obtain ⟨hsound, -⟩ :=
      sound_of_story (fun _ _ _ _ _ _ => trivial) hR rfl hcomputations story
    obtain ⟨place, hplace⟩ := List.mem_iff_getElem?.mp hthread
    have hrecorded := recorded_of_story story
    obtain ⟨handle, -, stage, hstage, hhas, hnot⟩ := (hsound.running hplace).exists_pending
      hsound.pool.supports (fun _ hqueued => hrecorded.waiting hqueued) hblocked
    obtain ⟨rank, h⟩ := hranked story
    refine ⟨handle.fiber, (h.pool.hasJob _).mpr ⟨stage, hstage, hhas⟩, ?_⟩
    rintro ⟨ending, hended⟩
    exact hnot ending (Option.some.inj (hstage.symm.trans hended))
  · intro job hjob hfiber
    obtain ⟨rank, h⟩ := hranked story
    exact h.not_blocked (recorded_of_story story) holdest hjob hfiber
  · -- As long as it has not ended, it is the oldest in a longer story.
    have hstep (s : Scene S W α)
        (hs : ∃ entries, Trail (Incident R) (start world computations) entries s ∧
          s.Oldest (handedFibers entries) fiber) :
        ∃ more t, Alone R fiber s more t ∧ (fiber ∈ t.pool.ended ∨
          ∃ entries, Trail (Incident R) (start world computations) entries t ∧
            t.Oldest (handedFibers entries) fiber) := by
      obtain ⟨entries, story, holdest⟩ := hs
      obtain ⟨rank, h⟩ := hranked story
      have hrecorded := recorded_of_story story
      obtain ⟨more, t, halone⟩ := h.exists_alone hrecorded holdest
      refine ⟨more, t, halone, or_iff_not_imp_left.mpr fun hnot => ?_⟩
      refine ⟨entries ++ more, story.tail halone.1, ?_⟩
      rw [handedFibers_append]
      exact holdest.stays hrecorded (.single halone.1) hnot
    exact Trail.over_or_forever hstep ⟨entries, story, holdest⟩

/-- Once the second fiber is waited for, neither of the two has ended, and the older one can. -/
theorem no_deadlock_relays :
    ∃ (entries : List (Entry relay)) (scene : Scene relay Unit relay.Value)
      (thread : Thread relay relay.Value),
      Trail (Incident relays) (start () [.interpret relay.number relay.program]) entries scene ∧
      scene.callers = [.running thread] ∧ (thread.move relays scene.pool).1 = .blocked ∧
      ∃ fiber, scene.Oldest (handedFibers entries) fiber ∧
        ((∃ more scene', Trail (Alone relays fiber) scene more scene' ∧
            fiber ∈ scene'.pool.ended) ∨
          ∃ run : Nat → Scene relay Unit relay.Value, run 0 = scene ∧
            ∀ n, ∃ more, Alone relays fiber (run n) more (run (n + 1))) := by
  obtain ⟨deeds, moves⟩ := Config.trail_run relays 17
    (Config.start (.empty ()) (.interpret relay.number relay.program))
  obtain ⟨entries, story, -⟩ := story_of_moves moves
  have hloud : relays.Sound relay.typing (.lenient relay True fun _ => True) fun _ => ∅ :=
    relays_sound (fun _ => ⟨trivial, trivial⟩)
      (fun _ _ _ _ => ⟨trivial, fun _ => ⟨trivial, .inl rfl⟩⟩)
      (fun _ => ⟨trivial, .inl rfl⟩) fun _ _ => ⟨trivial, rfl⟩
  -- Only the code that waits is used by whoever may not fork.
  have hquiet : relays.Sound relay.typing (.lenient relay False (· = .wait)) fun _ => ∅ :=
    relays_sound nofun nofun (fun _ => ⟨trivial, .inl rfl⟩) fun _ _ => ⟨trivial, rfl⟩
  have hstart : ∀ c ∈ [Comp.interpret relay.number relay.program],
      c.Sound relay.typing (.lenient relay True fun _ => True) (fun _ _ _ => True) ∅ .idle := by
    intro c hc
    obtain rfl := List.mem_singleton.mp hc
    have hprogram :=
      relay.program_yields (L := .lenient relay True fun _ => True) trivial (fun _ => trivial) ∅
    exact (Comp.sound_interpret hprogram).mono subset_rfl fun _ _ _ _ _ _ => trivial
  obtain ⟨hblocked, holdest, halone⟩ := no_deadlock nofun hloud.toInterpreterSound
    hquiet.toInterpreterSound hstart story
  obtain ⟨fiber, hfiber⟩ := holdest (hblocked _ (List.mem_singleton_self _) rfl)
  exact ⟨entries, _, _, story, rfl, rfl, fiber, hfiber, (halone fiber hfiber).2⟩

end Scene

end FiberPrograms
