import FiberPrograms.Proofs.Backends

/-!
# Steps of fibers that recompute and of fibers that memoize

Let two executions stand side by side of which the first has a fiber that recomputes where that of
the second memoizes. Whatever happens in one of them, the other can keep up: what has nothing to do
with the fiber happens in both; while the action runs on top of a reader in the first execution, or
as the job of the fiber in the second, the other one waits; and when a reader comes to the outcome
of the action in the first, its counterpart is told of the ending in the second.

This goes on until a reader comes to a failure of the action. From then on the executions differ,
since the fiber that memoizes puts the failure into words of its own.

## Main definitions

* `Scene.Parts`: the moment in which the executions part
* `Scene.Followed`: how the second execution follows an incident of the first
* `Scene.Matched`: how the first execution keeps up with an incident of the second

## Main results

* `Scene.Beside.both`: what has nothing to do with the fiber happens in both executions
* `Scene.Beside.follow`: the second execution can follow the first
* `Scene.Beside.matched`: the first can keep up with the second
-/

namespace FiberPrograms

variable {S : Signature} {W α β : Type}

namespace Scene

section Definitions

variable (R : Runtime S W) (fiber : FiberId) (action : S.Action)

/-- The moment in which the two executions part: the action has failed, which its reader in the
first is told with the fault itself, and its reader in the second as the failure of the fiber. -/
inductive Parts : Scene S W α → Entry S → Scene S W α →
    Scene S W α → Entry S → Scene S W α → Prop
  | mk {β : Type} {seat seat' : Seat S α β} {reader : Thread S β}
      {callers : List (Except Fault S.Value → Comp S (Turn S))}
      {outer : Except Fault S.Value → Comp S β} {cause : Fault} {pool pool' : Pool S W}
      (who : seat'.who = seat.who) (reads : reader.AtRead fiber callers outer)
      (fails : (Thread.base (R.act action)).Runs R pool (.base (.fail cause)))
      (failed : pool'.get? fiber = some (.ended (.failed cause))) :
      Parts (seat.scene pool .none ((Thread.base (.fail cause)).onTop callers outer))
        (.did seat.who (.raised cause) [])
        (seat.scene pool .none (Thread.answer callers outer (.error cause)))
        (seat'.scene pool' .none reader)
        (.did seat'.who (.read fiber) [.read fiber (.error (.fiberFailed fiber cause))])
        (seat'.scene pool' .none
          (Thread.answer callers outer (.error (.fiberFailed fiber cause))))

/-- How the second execution follows the first: it remains beside it, or they part. -/
inductive Followed (n : Nat) (scene : Scene S W α) (entry : Entry S)
    (scene₁ scene' : Scene S W α) : Prop
  | along {k : Nat} {entries : List (Entry S)} {scene₁' : Scene S W α}
      (story : Trail (Incident R) scene' entries scene₁')
      (beside : scene₁.Beside R fiber action k scene₁')
      (shared : sharedEntries fiber entries = sharedEntries fiber [entry])
      (reads : (readFibers [entry]).count fiber + n = (readFibers entries).count fiber + k)
      (value : 0 < (readFibers entries).count fiber →
        ∃ v, (Thread.base (R.act action)).Runs R scene₁.pool (.base (.done v)))
  | parted {entries : List (Entry S)} {entry' : Entry S} {scene₀' scene₁' : Scene S W α}
      (story : Trail (Incident R) scene' entries scene₀')
      (beside : scene.Beside R fiber action n scene₀') (silent : Silent fiber entries)
      (incident : Incident R scene₀' [entry'] scene₁')
      (parts : Parts R fiber action scene entry scene₁ scene₀' entry' scene₁')

/-- How the first execution keeps up with the second. -/
inductive Matched (n : Nat) (scene scene' : Scene S W α) (entry' : Entry S)
    (scene₁' : Scene S W α) : Prop
  | along {k : Nat} {entries : List (Entry S)} {scene₁ : Scene S W α}
      (story : Trail (Incident R) scene entries scene₁)
      (beside : scene₁.Beside R fiber action k scene₁')
      (shared : sharedEntries fiber [entry'] = sharedEntries fiber entries)
      (reads : (readFibers entries).count fiber + n = (readFibers [entry']).count fiber + k)
      (value : 0 < (readFibers [entry']).count fiber →
        ∃ v, (Thread.base (R.act action)).Runs R scene₁.pool (.base (.done v)))
  | parted {k : Nat} {entries : List (Entry S)} {entry : Entry S} {scene₀ scene₁ : Scene S W α}
      (story : Trail (Incident R) scene entries scene₀)
      (beside : scene₀.Beside R fiber action k scene') (shared : sharedEntries fiber entries = [])
      (reads : (readFibers entries).count fiber + n = k)
      (incident : Incident R scene₀ [entry] scene₁)
      (parts : Parts R fiber action scene₀ entry scene₁ scene' entry' scene₁')

end Definitions

section Steps

variable {R : Runtime S W} {fiber : FiberId} {action : S.Action} {n : Nat}
  {scene scene₁ scene' scene₁' : Scene S W α} {pool pool' pool₁ : Pool S W} {H : Holdings S}
  {P : Set FiberId}

section Both

variable {pool₁' : Pool S W} {other : FiberId}
  (hact : (R.act action).PureWithin H P (Value.Within H P))
  (hpool : pool.PureOn H R.toMeaning P) (hpools : pool.Beside R fiber action pool')

include hact hpool hpools

/-- The job of another fiber ends in both executions. -/
theorem beside_finish (hother : other ≠ fiber) (hrunning : pool.get? other = some .running)
    (outcome : Except Fault S.Value) :
    (pool.finish R.level other outcome).Beside R fiber action
        (pool'.finish R.level other outcome) ∧
      pool.KeepsReady Set.univ (pool.finish R.level other outcome) := by
  have hkeeps := (Pool.change_finish (R := R) hrunning R.level outcome).keepsReady
  refine ⟨hpools.change hact hpool hkeeps (hpools.twins.finish hother R.level outcome) ?_ ?_,
    hkeeps⟩
  · simpa using hpools.events
  · exact (Pool.twins_finish (Set.mem_singleton other) R.level outcome pool').get? hother.symm

/-- The job of another fiber begins in both. -/
theorem beside_startAt {job : Job S} {position position' : Nat} (hother : job.fiber ≠ fiber)
    (started : pool.startAt? R.toInterpreter position = some (job, pool₁))
    (started' : pool'.startAt? R.toInterpreter position' = some (job, pool₁'))
    (htwins : pool₁.Twins {fiber} Eq pool₁') :
    pool₁.Beside R fiber action pool₁' ∧ pool.KeepsReady Set.univ pool₁ := by
  have hkeeps := (Pool.change_startAt started).keepsReady
  refine ⟨hpools.change hact hpool hkeeps htwins ?_ ?_, hkeeps⟩
  · rw [(Pool.told_startAt started).2, (Pool.told_startAt started').2]
    exact hpools.events
  · exact (Pool.twins_startAt (Set.mem_singleton job.fiber) started').get? hother.symm

/-- The job of another fiber is thrown away in both. -/
theorem beside_drop {position position' : Nat} {action' : S.Action} (hother : other ≠ fiber)
    (hwaiting : pool.get? other = some (.waiting action'))
    (queued : pool.queue[position]? = some other) (queued' : pool'.queue[position']? = some other)
    (htwins : Pool.Twins {fiber} Eq
      ({ pool with queue := pool.queue.eraseIdxIfInBounds position }.release R.level other)
      ({ pool' with queue := pool'.queue.eraseIdxIfInBounds position' }.release R.level other)) :
    Pool.Beside R fiber action
        ({ pool with queue := pool.queue.eraseIdxIfInBounds position }.release R.level other)
        ({ pool' with queue := pool'.queue.eraseIdxIfInBounds position' }.release R.level other) ∧
      pool.KeepsReady Set.univ
        ({ pool with queue := pool.queue.eraseIdxIfInBounds position }.release R.level other) := by
  have hkeeps := (Pool.change_release (R := R) queued hwaiting R.level).keepsReady
  refine ⟨hpools.change hact hpool hkeeps htwins ?_ ?_, hkeeps⟩
  · simpa using hpools.events
  · exact ((Pool.twins_erase (Set.mem_singleton other) queued').trans
      (Pool.twins_release (Set.mem_singleton other) R.level _) Eq.trans).get? hother.symm

end Both

/-- What stood side by side does so over later pools too. -/
theorem beside_later {pool₁' : Pool S W} {callers callers' : List (Main S α)}
    {jobs jobs' : List (Job S)} {m k : Nat}
    (hact : (R.act action).PureWithin H P (Value.Within H P))
    (hpool : pool.PureOn H R.toMeaning P) (hkeeps : pool.KeepsReady Set.univ pool₁)
    (hpools : pool₁.Beside R fiber action pool₁')
    (hcallers : Aligned (Main.Beside R fiber action pool) m callers callers')
    (hjobs : Jobs.Beside R fiber action pool k jobs jobs') :
    Beside R fiber action (m + k) ⟨pool₁, callers, jobs⟩ ⟨pool₁', callers', jobs'⟩ := by
  have hlater := hkeeps.subset (P := P)
  exact ⟨hpools, m, k, rfl, hcallers.mono fun h => h.later hact hpool hlater,
    hjobs.later hact hpool hlater⟩

section Followed

variable {entry : Entry S} {entries : List (Entry S)} {scene₀' : Scene S W α}

/-- Both executions tell the same. -/
theorem Followed.same (story : Trail (Incident R) scene' entries scene₀')
    (hsilent : Silent fiber entries) (incident' : Incident R scene₀' [entry] scene₁')
    (beside : scene₁.Beside R fiber action n scene₁') (hread : entry.read? ≠ some fiber) :
    Followed R fiber action n scene entry scene₁ scene' := by
  have hnone := count_readFibers_of_ne hread
  refine .along (story.tail incident') beside (hsilent.shared_append _) ?_ fun h => ?_
  · rw [hsilent.count_append]
  · rw [hsilent.count_append, hnone] at h
    exact absurd h (Nat.lt_irrefl 0)

/-- Nobody can tell that the first execution has gone on. -/
theorem Followed.alone (story : Trail (Incident R) scene' entries scene₁')
    (hsilent : Silent fiber entries) (beside : scene₁.Beside R fiber action n scene₁')
    (hentry : Silent fiber [entry]) : Followed R fiber action n scene entry scene₁ scene' := by
  refine .along story beside (hsilent.shared.trans hentry.shared.symm) ?_ fun h => ?_
  · rw [hentry.reads, hsilent.reads]
  · rw [hsilent.reads] at h
    exact absurd h (Nat.lt_irrefl 0)

end Followed

/-- A move that has nothing to do with the fiber is made in both executions. -/
theorem Beside.both {seat seat' : Seat S α β} {thread thread₁ : Thread S β} {launch : Launch S}
    (hact : (R.act action).PureWithin H P (Value.Within H P))
    (hpool : pool.PureOn H R.toMeaning P)
    (hseat : seat.Beside R fiber action pool n seat') (hpools : pool.Beside R fiber action pool')
    (hheeds : ¬ thread.Heeds {fiber})
    (hlaunch : ∀ job ∈ launch.jobs, job.fiber ≠ fiber)
    (moved : thread.move R pool = (.moved thread₁ launch, pool₁)) :
    ∃ pool₁', thread.move R pool' = (.moved thread₁ launch, pool₁') ∧
      Entry.did seat'.who (thread.activity R pool') (thread.deeds R pool') =
        .did seat.who (thread.activity R pool) (thread.deeds R pool) ∧
      (seat.scene pool₁ launch thread₁).Beside R fiber action n
        (seat'.scene pool₁' launch thread₁) := by
  obtain ⟨⟨pool₁', moved', htwins⟩, hactivity, hdeeds⟩ :=
    Thread.move_twins (s := R.spawner) R.blind_eq hpools.twins hheeds (.inl rfl) moved
  have hkeeps : pool.KeepsReady Set.univ pool₁ := (Thread.change_of_move moved).keepsReady
  have hstage : pool₁'.get? fiber = pool'.get? fiber := by
    have hbacks := hpools.backs
    generalize hget : pool'.get? fiber = stage at hbacks ⊢
    cases hbacks <;> exact Thread.get?_move hheeds hget moved'
  have hpools₁ := hpools.change hact hpool hkeeps htwins
    (Thread.events_congr moved moved' hactivity hpools.events) hstage
  refine ⟨pool₁', moved', by rw [hseat.who_eq, hactivity, hdeeds], ?_⟩
  exact (hseat.later hact hpool fun _ _ _ => hkeeps (Set.mem_univ _)).scene hpools₁
    (.same thread₁) hlaunch

/-- A discreet thread reads the fiber, or its move is made in both executions. -/
theorem Beside.both_or_atRead {seat seat' : Seat S α β} {thread thread₁ : Thread S β}
    {launch : Launch S} (hact : (R.act action).PureWithin H P (Value.Within H P))
    (hpool : pool.PureOn H R.toMeaning P)
    (hseat : seat.Beside R fiber action pool n seat') (hpools : pool.Beside R fiber action pool')
    (hdiscreet : thread.Confined (.discreet fiber))
    (hlaunch : ∀ job ∈ launch.jobs, job.fiber ≠ fiber)
    (moved : thread.move R pool = (.moved thread₁ launch, pool₁)) :
    (∃ callers outer, thread.AtRead fiber callers outer) ∨
      thread.activity R pool ≠ .read fiber ∧
      ∃ pool₁', thread.move R pool' = (.moved thread₁ launch, pool₁') ∧
        Entry.did seat'.who (thread.activity R pool') (thread.deeds R pool') =
          .did seat.who (thread.activity R pool) (thread.deeds R pool) ∧
        (seat.scene pool₁ launch thread₁).Beside R fiber action n
          (seat'.scene pool₁' launch thread₁) := by
  by_cases hheeds : thread.Heeds {fiber}
  · refine (hdiscreet.cases_heeds (W := W) (R := R) hheeds).imp_right ?_
    -- Somebody tries to build the fiber once more, in vain.
    rintro ⟨thread₂, activity, hread, hmove⟩
    obtain ⟨hbuilt, hbuilt'⟩ := hpools.ne_named
    obtain ⟨moved₂, hactivity, hdeeds⟩ := hmove hbuilt
    obtain ⟨moved', hactivity', hdeeds'⟩ := hmove hbuilt'
    cases moved₂.symm.trans moved
    rw [hactivity, hdeeds, hactivity', hdeeds', hseat.who_eq]
    exact ⟨hread, pool', moved', rfl, hseat.scene hpools (.same thread₁) hlaunch⟩
  · refine .inr ⟨fun hread => hheeds (Thread.heeds_of_read hread), ?_⟩
    exact both hact hpool hseat hpools hheeds hlaunch moved

/-- A fiber that recomputes has no job that could be launched. -/
theorem ne_of_launched {callers : List (Main S α)} {launch : Launch S} {jobs : List (Job S)}
    (hcounted : Counted ⟨pool, callers, launch.onto jobs⟩)
    (hstage : pool.get? fiber = some (.recomputing action)) :
    ∀ job ∈ launch.jobs, job.fiber ≠ fiber := by
  rintro job hjob rfl
  have hmem : job ∈ launch.onto jobs :=
    (launch.onto_perm jobs).mem_iff.mpr (List.mem_append_left _ hjob)
  cases hstage.symm.trans (hcounted.running hmem)

/-- Whoever has a place in a confined scene is confined. -/
theorem Confined.of_seat {L : Permit S} (seat : Seat S α β) {thread : Thread S β}
    (h : (seat.scene pool .none thread).Confined L L) : thread.Confined L := by
  cases seat with
  | caller before after jobs => exact h.callersConfined thread (by simp [Seat.scene])
  | job callers before after other =>
    exact h.jobsConfined ⟨other, thread⟩ (by simp [Seat.scene, Launch.onto])

/-- A program or job that has come to its end has one like it as its counterpart. -/
theorem of_ofExcept {thread : Thread S β} {outcome : Except Fault β}
    (h : Thread.Beside R fiber action pool n (.base (.ofExcept outcome)) thread) :
    thread = .base (.ofExcept outcome) ∧ n = 0 := by
  generalize hthread : Thread.base (.ofExcept outcome) = ended at h
  cases h with
  | same => exact ⟨rfl, rfl⟩
  | @reading running reader callers outer reads runs => cases running <;> cases hthread

/-- There is nothing to be seen of it when a value is returned to what runs below. -/
theorem silent_of_returned (who : Actor) (v : S.Value)
    (callers : List (Except Fault S.Value → Comp S (Turn S)))
    (outer : Except Fault S.Value → Comp S β) (pool : Pool S W) (deeds : List (Deed S)) :
    Silent fiber
      [.did who (((Thread.base (.ofExcept (.ok v))).onTop callers outer).activity R pool) deeds] := by
  rw [Thread.activity_onTop]
  exact .of_not_shared rfl (fun h => by cases h) _ _

/-- The reader in the first execution comes to the outcome of the action. Its counterpart is told of
the ending, and if that is a failure, the executions part. -/
theorem Followed.of_outcome {seat seat' : Seat S α β} {reader : Thread S β}
    {callers : List (Except Fault S.Value → Comp S (Turn S))}
    {outer : Except Fault S.Value → Comp S β} {outcome : Except Fault S.Value}
    {entries : List (Entry S)} (hpools : pool.Beside R fiber action pool')
    (hseat : seat.Beside R fiber action pool n seat')
    (reads : reader.AtRead fiber callers outer)
    (runs : (Thread.base (R.act action)).Runs R pool (.base (.ofExcept outcome)))
    (hended : pool'.get? fiber = some (.ended (.ofOutcome outcome)))
    (story : Trail (Incident R) scene' entries (seat'.scene pool' .none reader))
    (hsilent : Silent fiber entries) :
    Followed R fiber action (n + 1)
      (seat.scene pool .none ((Thread.base (.ofExcept outcome)).onTop callers outer))
      (.did seat.who (((Thread.base (.ofExcept outcome)).onTop callers outer).activity R pool)
        (((Thread.base (.ofExcept outcome)).onTop callers outer).deeds R pool))
      (seat.scene pool .none (Thread.answer callers outer outcome)) scene' := by
  have hnone : ∀ job ∈ (Launch.none : Launch S).jobs, job.fiber ≠ fiber := by simp [Launch.jobs]
  have incident' := seat'.incident (reads.move_of_ended (R := R) hended)
  rw [reads.activity, reads.deeds hended] at incident'
  cases outcome with
  | ok v =>
    have hentry : Silent fiber _ := silent_of_returned (R := R) seat.who v callers outer pool
      (((Thread.base (.ofExcept (.ok v))).onTop callers outer).deeds R pool)
    refine .along (story.tail incident') (hseat.scene hpools (.same _) hnone) ?_ ?_
      fun _ => ⟨v, by rwa [Seat.pool_scene]⟩
    · rw [hsilent.shared_append, hentry.shared]
      simp [sharedEntries, Entry.isShared, Activity.isShared]
    · rw [hentry.reads, hsilent.count_append, count_readFibers_of_read]
      omega
  | error cause =>
    refine .parted story ?_ hsilent incident' (.mk hseat.who_eq reads runs hended)
    exact hseat.scene hpools (.reading reads runs) hnone

/-- A program ends in both executions. -/
theorem Beside.follow_callerEnded {before after : List (Main S α)} {jobs : List (Job S)}
    {outcome : Except Fault α}
    (h : Beside R fiber action n
      ⟨pool, before ++ .running (.base (.ofExcept outcome)) :: after, jobs⟩ scene') :
    Followed R fiber action n
      ⟨pool, before ++ .running (.base (.ofExcept outcome)) :: after, jobs⟩
      (.ended (.caller before.length) (outcomeFault outcome) [])
      ⟨pool, before ++ .ended outcome :: after, jobs⟩ scene' := by
  obtain ⟨pool', callers', jobs'⟩ := scene'
  obtain ⟨hpools, m, k, rfl, hcallers, hjobs⟩ := h
  obtain ⟨before', main', after', b, c, a, rfl, hlength, hbefore, hmain, hafter, rfl⟩ :=
    hcallers.exists_split
  cases hmain with
  | running hthread =>
    obtain ⟨rfl, rfl⟩ := of_ofExcept hthread
    have incident' :=
      Incident.callerEnded before' after' jobs' (Thread.move_ofExcept R pool' outcome)
    rw [hlength] at incident'
    refine .same .refl .nil incident' ?_ (by simp [Entry.read?])
    exact ⟨hpools, _, k, rfl, hbefore.exchange (.ended outcome) hafter, hjobs⟩

section Forth

variable (hact : (R.act action).PureWithin H P (Value.Within H P)) (hfiber : fiber ∉ P)

include hact

/-- The job of another fiber ends in both executions. -/
theorem Beside.follow_jobEnded {callers : List (Main S α)} {before after : List (Job S)}
    {other : FiberId} {outcome : Except Fault S.Value} (hpool : pool.PureOn H R.toMeaning P)
    (h : Beside R fiber action n
      ⟨pool, callers, before ++ ⟨other, .base (.ofExcept outcome)⟩ :: after⟩ scene')
    (hrunning : pool.get? other = some .running) :
    Followed R fiber action n
      ⟨pool, callers, before ++ ⟨other, .base (.ofExcept outcome)⟩ :: after⟩
      (.ended (.job other) (outcomeFault outcome) [.ended other outcome])
      ⟨pool.finish R.level other outcome, callers, before ++ after⟩ scene' := by
  obtain ⟨pool', callers', jobs'⟩ := scene'
  obtain ⟨hpools, m, k, rfl, hcallers, hjobs⟩ := h
  obtain ⟨before', job', after', b, c, a, rfl, hbefore, hjob, hafter, rfl⟩ := hjobs.exists_split
  cases hjob with
  | mk hother hthread =>
    obtain ⟨rfl, rfl⟩ := of_ofExcept hthread
    obtain ⟨hpools₁, hkeeps⟩ := beside_finish hact hpool hpools hother hrunning outcome
    refine .same .refl .nil (.jobEnded callers' before' after'
      (Thread.move_ofExcept R pool' outcome)) (n := m + (b + a)) ?_ (by simp [Entry.read?])
    exact beside_later hact hpool hkeeps hpools₁ hcallers (hbefore.append hafter)

include hfiber

/-- A reader in the midst of running the action makes a move, of which there is nothing to be seen
unless it comes to the outcome. -/
theorem Followed.of_reading {seat seat' : Seat S α β} {reader thread₁ : Thread S β}
    {callers : List (Except Fault S.Value → Comp S (Turn S))}
    {outer : Except Fault S.Value → Comp S β} {running : Thread S S.Value}
    {entries : List (Entry S)} {launch : Launch S} (hpool : pool.PureOn H R.toMeaning P)
    (hpools : pool.Beside R fiber action pool') (hseat : seat.Beside R fiber action pool n seat')
    (reads : reader.AtRead fiber callers outer)
    (runs : (Thread.base (R.act action)).Runs R pool running)
    (hready : ∀ outcome, (Thread.base (R.act action)).Runs R pool (.base (.ofExcept outcome)) →
      pool'.get? fiber = some (.ended (.ofOutcome outcome)))
    (story : Trail (Incident R) scene' entries (seat'.scene pool' .none reader))
    (hsilent : Silent fiber entries)
    (hlaunch : ∀ job ∈ launch.jobs, job.fiber ≠ fiber)
    (moved : (running.onTop callers outer).move R pool = (.moved thread₁ launch, pool₁)) :
    Followed R fiber action (n + 1) (seat.scene pool .none (running.onTop callers outer))
      (.did seat.who ((running.onTop callers outer).activity R pool)
        ((running.onTop callers outer).deeds R pool))
      (seat.scene pool₁ launch thread₁) scene' := by
  have hpure := (runs.mono hpool (Pool.keepsReady_refl pool) (.base hact)).2
  rw [Thread.move_onTop] at moved
  obtain hblocked | ⟨outcome, rfl⟩ | ⟨running₁, -, hmove⟩ := hpure.move hpool
  · rw [hblocked] at moved
    cases moved
  · rw [Thread.move_ofExcept] at moved
    cases moved
    exact .of_outcome hpools hseat reads runs (hready outcome runs) story hsilent
  · have hmoved := hmove (Pool.keepsReady_refl pool)
    rw [hmoved] at moved
    cases moved
    refine .alone story hsilent (hseat.scene hpools (.reading reads (runs.tail hmoved)) hlaunch) ?_
    rw [Thread.activity_onTop]
    exact .of_not_shared hpure.not_shared (fun h => hfiber (hpure.mem_of_read h)) _ _

/-- Whatever a thread does in the first execution, the second can follow. -/
theorem Beside.follow_move {seat : Seat S α β} {thread thread₁ : Thread S β} {launch : Launch S}
    (hpool : pool.PureOn H R.toMeaning P) (hcounted : scene'.Counted)
    (h : (seat.scene pool .none thread).Beside R fiber action n scene')
    (hdiscreet : thread.Confined (.discreet fiber))
    (hlaunch : ∀ job ∈ launch.jobs, job.fiber ≠ fiber)
    (moved : thread.move R pool = (.moved thread₁ launch, pool₁)) :
    Followed R fiber action n (seat.scene pool .none thread)
      (.did seat.who (thread.activity R pool) (thread.deeds R pool))
      (seat.scene pool₁ launch thread₁) scene' := by
  -- If the action has come to an outcome, the fiber shall have come to it too.
  obtain ⟨es, scene'', story, hbeside, hsilent, hready⟩ :=
    h.exists_ready hact (by rwa [Seat.pool_scene]) hfiber hcounted
  have hpools := hbeside.pools
  rw [Seat.pool_scene] at hready hpools
  obtain ⟨seat', thread', rest, m, heq, hseat, hthread, rfl⟩ := hbeside.exists_seat
  rw [heq] at story
  generalize scene''.pool = pool'' at story hpools hready
  cases hthread with
  | same =>
    obtain ⟨callers, outer, reads⟩ | ⟨hread, pool₁', moved', hentry, hbeside₁⟩ :=
      both_or_atRead hact hpool hseat hpools hdiscreet hlaunch moved
    · -- The reader begins to run the action, of which there is nothing to be seen.
      rw [reads.move_of_recomputing hpools.recomputing] at moved
      cases moved
      rw [reads.activity]
      refine .along story (hseat.scene hpools (.reading reads .refl) hlaunch) ?_ ?_ fun h => ?_
      · rw [hsilent.shared]
        simp [sharedEntries, Entry.isShared, Activity.isShared]
      · rw [count_readFibers_of_read, hsilent.reads]
        omega
      · rw [hsilent.reads] at h
        exact absurd h (Nat.lt_irrefl 0)
    · have incident' := seat'.incident moved'
      rw [hentry] at incident'
      exact .same story hsilent incident' hbeside₁ fun h => hread (Entry.read?_did h)
  | reading reads runs =>
    exact .of_reading hact hfiber hpool hpools hseat reads runs hready story hsilent hlaunch moved

/-- Whatever happens in the first execution, the second can follow. -/
theorem Beside.follow {entry : Entry S} (hpool : scene.pool.PureOn H R.toMeaning P)
    (hcounted : scene.Counted) (hcounted' : scene'.Counted)
    (hconfined : scene.Confined (.discreet fiber) (.discreet fiber))
    (h : scene.Beside R fiber action n scene')
    (incident : Incident R scene [entry] scene₁) :
    Followed R fiber action n scene entry scene₁ scene' := by
  have hcounted₁ := hcounted.incident incident
  have hrecomputing := h.pools.recomputing
  cases incident with
  | @caller pool pool₁ before after thread thread₁ launch jobs moved =>
    have hstage := (Thread.change_of_move moved).keepsReady (Set.mem_univ fiber) hrecomputing rfl
    have hseat : ((Seat.caller before after jobs).scene pool .none thread).Beside R fiber action n
      scene' := h
    have hthread : thread.Confined (.discreet fiber) := hconfined.callersConfined thread (by simp)
    exact hseat.follow_move hact hfiber hpool hcounted' hthread
      (ne_of_launched hcounted₁ hstage) moved
  | @job pool pool₁ callers before after other thread thread₁ launch moved =>
    have hstage := (Thread.change_of_move moved).keepsReady (Set.mem_univ fiber) hrecomputing rfl
    have hseat : ((Seat.job callers before after other).scene pool .none thread).Beside R fiber
      action n scene' := h
    have hthread : thread.Confined (.discreet fiber) :=
      hconfined.jobsConfined ⟨other, thread⟩ (by simp)
    exact hseat.follow_move hact hfiber hpool hcounted' hthread
      (ne_of_launched hcounted₁ hstage) moved
  | callerEnded before after jobs ended =>
    obtain ⟨-, rfl⟩ := Thread.of_ended ended
    obtain rfl := Thread.eq_of_ended ended
    exact h.follow_callerEnded
  | jobEnded callers before after ended =>
    obtain ⟨-, rfl⟩ := Thread.of_ended ended
    obtain rfl := Thread.eq_of_ended ended
    exact h.follow_jobEnded hact hpool (hcounted.running (List.mem_append_cons_self ..))
  | @jobBegun pool pool₁ callers jobs position job started =>
    obtain ⟨pool', callers', jobs'⟩ := scene'
    -- A fiber that recomputes does not wait in the queue.
    have hother : job.fiber ≠ fiber := by
      rintro rfl
      obtain ⟨action', hwaiting⟩ := hcounted.waiting
        (Array.mem_toList_iff.mpr (Array.mem_of_getElem? (Pool.queued_of_startAt started)))
      cases hrecomputing.symm.trans hwaiting
    obtain ⟨hpools, m, k, rfl, hcallers, hjobs⟩ := h
    obtain ⟨position', pool₁', started', htwins⟩ := hpools.twins.startAt started hother
    obtain ⟨hpools₁, hkeeps⟩ := beside_startAt hact hpool hpools hother started started' htwins
    refine .same .refl .nil (.jobBegun callers' jobs' started') ?_ (by simp [Entry.read?])
    refine beside_later hact hpool hkeeps hpools₁ hcallers ?_
    rw [← Nat.zero_add k]
    exact hjobs.cons (.mk hother (.same _))
  | @drop pool position other callers jobs queued =>
    obtain ⟨pool', callers', jobs'⟩ := scene'
    obtain ⟨action', hwaiting⟩ :=
      hcounted.waiting (Array.mem_toList_iff.mpr (Array.mem_of_getElem? queued))
    have hother : other ≠ fiber := by
      rintro rfl
      cases hrecomputing.symm.trans hwaiting
    obtain ⟨hpools, m, k, rfl, hcallers, hjobs⟩ := h
    obtain ⟨position', queued', htwins⟩ := hpools.twins.drop R.level queued hother
    obtain ⟨hpools₁, hkeeps⟩ := beside_drop hact hpool hpools hother hwaiting queued queued' htwins
    refine .same .refl .nil (.drop callers' jobs' queued') ?_ (by simp [Entry.read?])
    exact beside_later hact hpool hkeeps hpools₁ hcallers hjobs

end Forth

/-! ### The first execution keeps up -/

section Matched

variable {entry' : Entry S}

theorem Matched.same (incident : Incident R scene [entry'] scene₁)
    (beside : scene₁.Beside R fiber action n scene₁') (hread : entry'.read? ≠ some fiber) :
    Matched R fiber action n scene scene' entry' scene₁' := by
  have hnone := count_readFibers_of_ne hread
  refine .along (.single incident) beside rfl rfl fun h => ?_
  rw [hnone] at h
  exact absurd h (Nat.lt_irrefl 0)

/-- Nobody can tell that the second execution has gone on. -/
theorem Matched.alone (beside : scene.Beside R fiber action n scene₁')
    (hentry : Silent fiber [entry']) : Matched R fiber action n scene scene' entry' scene₁' := by
  refine .along .refl beside hentry.shared ?_ fun h => ?_
  · rw [hentry.reads]
    rfl
  · rw [hentry.reads] at h
    exact absurd h (Nat.lt_irrefl 0)

end Matched

/-- No counterpart of a program or job that has come to its end is in the midst of reading. -/
theorem of_ofExcept_back {thread : Thread S β} {outcome : Except Fault β}
    (h : Thread.Beside R fiber action pool n thread (.base (.ofExcept outcome))) :
    thread = .base (.ofExcept outcome) ∧ n = 0 := by
  generalize hthread : Thread.base (.ofExcept outcome) = ended at h
  cases h with
  | same => exact ⟨rfl, rfl⟩
  | reading reads runs =>
    subst hthread
    cases outcome <;> cases reads

/-- A program ends in both executions. -/
theorem Beside.match_callerEnded {before' after' : List (Main S α)} {jobs' : List (Job S)}
    {outcome : Except Fault α}
    (h : scene.Beside R fiber action n
      ⟨pool', before' ++ .running (.base (.ofExcept outcome)) :: after', jobs'⟩) :
    Matched R fiber action n scene
      ⟨pool', before' ++ .running (.base (.ofExcept outcome)) :: after', jobs'⟩
      (.ended (.caller before'.length) (outcomeFault outcome) [])
      ⟨pool', before' ++ .ended outcome :: after', jobs'⟩ := by
  obtain ⟨pool, callers, jobs⟩ := scene
  obtain ⟨hpools, m, k, rfl, hcallers, hjobs⟩ := h
  obtain ⟨before, main, after, b, c, a, rfl, hlength, hbefore, hmain, hafter, rfl⟩ :=
    hcallers.flip.exists_split
  cases hmain with
  | running hthread =>
    obtain ⟨rfl, rfl⟩ := of_ofExcept_back hthread
    have incident := Incident.callerEnded before after jobs (Thread.move_ofExcept R pool outcome)
    rw [hlength] at incident
    refine .same incident ?_ (by simp [Entry.read?])
    exact ⟨hpools, _, k, rfl, hbefore.flip.exchange (.ended outcome) hafter.flip, hjobs⟩

section Back

variable (hact : (R.act action).PureWithin H P (Value.Within H P)) (hfiber : fiber ∉ P)

include hact

/-- A move of the second execution that has nothing to do with the fiber is made in both. -/
theorem Beside.both_back {seat seat' : Seat S α β} {thread thread₁ : Thread S β}
    {launch : Launch S} {pool₁' : Pool S W} (hpool : pool.PureOn H R.toMeaning P)
    (hcounted : (seat.scene pool .none thread).Counted)
    (hseat : seat.Beside R fiber action pool n seat') (hpools : pool.Beside R fiber action pool')
    (hheeds : ¬ thread.Heeds {fiber})
    (moved' : thread.move R pool' = (.moved thread₁ launch, pool₁')) :
    ∃ pool₁, thread.move R pool = (.moved thread₁ launch, pool₁) ∧
      Entry.did seat.who (thread.activity R pool) (thread.deeds R pool) =
        .did seat'.who (thread.activity R pool') (thread.deeds R pool') ∧
      (seat.scene pool₁ launch thread₁).Beside R fiber action n
        (seat'.scene pool₁' launch thread₁) := by
  obtain ⟨⟨pool₁, moved, -⟩, -⟩ :=
    Thread.move_twins (s := R.spawner) R.blind_eq (hpools.twins.symm Eq.symm) hheeds (.inl rfl) moved'
  have hstage : pool₁.get? fiber = some (.recomputing action) :=
    (Thread.change_of_move moved).keepsReady (Set.mem_univ fiber) hpools.recomputing rfl
  have hcounted₁ := hcounted.incident (seat.incident moved)
  have hlaunch : ∀ job ∈ launch.jobs, job.fiber ≠ fiber := by
    cases seat <;> exact ne_of_launched hcounted₁ hstage
  obtain ⟨pool₂', moved₂', hentry, hbeside⟩ :=
    both hact hpool hseat hpools hheeds hlaunch moved
  cases moved₂'.symm.trans moved'
  exact ⟨pool₁, moved, hentry.symm, hbeside⟩

/-- A discreet thread of the second execution reads the fiber, or its move is made in both. -/
theorem Beside.both_back_or_atRead {seat seat' : Seat S α β} {thread thread₁ : Thread S β}
    {launch : Launch S} {pool₁' : Pool S W} (hpool : pool.PureOn H R.toMeaning P)
    (hcounted : (seat.scene pool .none thread).Counted)
    (hseat : seat.Beside R fiber action pool n seat') (hpools : pool.Beside R fiber action pool')
    (hdiscreet : thread.Confined (.discreet fiber))
    (moved' : thread.move R pool' = (.moved thread₁ launch, pool₁')) :
    (∃ callers outer, thread.AtRead fiber callers outer) ∨
      thread.activity R pool' ≠ .read fiber ∧
      ∃ pool₁, thread.move R pool = (.moved thread₁ launch, pool₁) ∧
        Entry.did seat.who (thread.activity R pool) (thread.deeds R pool) =
          .did seat'.who (thread.activity R pool') (thread.deeds R pool') ∧
        (seat.scene pool₁ launch thread₁).Beside R fiber action n
          (seat'.scene pool₁' launch thread₁) := by
  by_cases hheeds : thread.Heeds {fiber}
  · refine (hdiscreet.cases_heeds (W := W) (R := R) hheeds).imp_right ?_
    -- Somebody tries to build the fiber once more, in vain.
    rintro ⟨thread₂, activity, hread, hmove⟩
    obtain ⟨hbuilt, hbuilt'⟩ := hpools.ne_named
    obtain ⟨moved, hactivity, hdeeds⟩ := hmove hbuilt
    obtain ⟨moved₂', hactivity', hdeeds'⟩ := hmove hbuilt'
    cases moved₂'.symm.trans moved'
    rw [hactivity, hdeeds, hactivity', hdeeds', hseat.who_eq]
    exact ⟨hread, pool, moved, rfl, hseat.scene hpools (.same thread₁) (by simp [Launch.jobs])⟩
  · refine .inr ⟨fun hread => hheeds (Thread.heeds_of_read hread), ?_⟩
    exact both_back hact hpool hcounted hseat hpools hheeds moved'

/-- The job of another fiber ends in both executions. -/
theorem Beside.match_jobEnded {callers' : List (Main S α)} {before' after' : List (Job S)}
    {other : FiberId} {outcome : Except Fault S.Value}
    (hpool : scene.pool.PureOn H R.toMeaning P) (hcounted : scene.Counted) (hother : other ≠ fiber)
    (h : scene.Beside R fiber action n
      ⟨pool', callers', before' ++ ⟨other, .base (.ofExcept outcome)⟩ :: after'⟩) :
    Matched R fiber action n scene
      ⟨pool', callers', before' ++ ⟨other, .base (.ofExcept outcome)⟩ :: after'⟩
      (.ended (.job other) (outcomeFault outcome) [.ended other outcome])
      ⟨pool'.finish R.level other outcome, callers', before' ++ after'⟩ := by
  obtain ⟨pool, callers, jobs⟩ := scene
  obtain ⟨hpools, m, k, rfl, hcallers, hjobs⟩ := h
  obtain ⟨before, job, after, b, c, a, rfl, hbefore, hjob, hafter, rfl⟩ :=
    hjobs.exists_split_back hother
  cases hjob with
  | mk _ hthread =>
    obtain ⟨rfl, rfl⟩ := of_ofExcept_back hthread
    have hrunning : pool.get? other = some .running :=
      hcounted.running (List.mem_append_cons_self ..)
    obtain ⟨hpools₁, hkeeps⟩ := beside_finish hact hpool hpools hother hrunning outcome
    refine .same (.jobEnded callers before after (Thread.move_ofExcept R pool outcome))
      (n := m + (b + 0 + a)) ?_ (by simp [Entry.read?])
    exact beside_later hact hpool hkeeps hpools₁ hcallers (hbefore.append hafter)

include hfiber

/-- Once the fiber has ended, whoever reads it is told, and the counterpart of the reader, which is
in the midst of running the action, comes to the same outcome. -/
theorem Matched.of_ended {seat seat' : Seat S α β} {reader thread₁' : Thread S β}
    {callers : List (Except Fault S.Value → Comp S (Turn S))}
    {outer : Except Fault S.Value → Comp S β} {running : Thread S S.Value} {ending : Ending S}
    {entries : List (Entry S)} {launch : Launch S} {pool₁' : Pool S W} {rest : Nat}
    (hpool : pool.PureOn H R.toMeaning P) (hpools : pool.Beside R fiber action pool')
    (hseat : seat.Beside R fiber action pool rest seat')
    (reads : reader.AtRead fiber callers outer)
    (runs : (Thread.base (R.act action)).Runs R pool running)
    (hended : pool'.get? fiber = some (.ended ending))
    (story : Trail (Incident R) scene entries
      (seat.scene pool .none (running.onTop callers outer)))
    (hshared : sharedEntries fiber entries = [])
    (hreads : (readFibers entries).count fiber + n = rest + 1)
    (moved' : reader.move R pool' = (.moved thread₁' launch, pool₁')) :
    Matched R fiber action n scene (seat'.scene pool' .none reader)
      (.did seat'.who (reader.activity R pool') (reader.deeds R pool'))
      (seat'.scene pool₁' launch thread₁') := by
  -- The outcome of the fiber is the one to which the action comes.
  obtain ⟨outcome, hruns, rfl⟩ : ∃ outcome,
      (Thread.base (R.act action)).Runs R pool (.base (.ofExcept outcome)) ∧
        ending = .ofOutcome outcome := by
    have hbacks := hpools.backs
    rw [hended] at hbacks
    cases hbacks with
    | ended hruns => exact ⟨_, hruns, rfl⟩
  cases (reads.move_of_ended (R := R) hended).symm.trans moved'
  have hpure := (runs.mono hpool (Pool.keepsReady_refl pool) (.base hact)).2
  obtain ⟨more, hmore, hsilent⟩ := seat.trail_of_runs (Thread.onTop callers outer) hpool hfiber
    (fun moved => ⟨by rw [Thread.move_onTop, moved]; rfl, Thread.activity_onTop R pool _ _ _⟩)
    hpure (runs.determined hruns)
  have moved : ((Thread.base (.ofExcept outcome)).onTop callers outer).move R pool =
      (.moved (Thread.answer callers outer outcome) .none, pool) := by
    rw [Thread.move_onTop, Thread.move_ofExcept]
    rfl
  have incident := seat.incident moved
  have hnone : sharedEntries fiber (entries ++ more) = [] := by
    rw [sharedEntries_append, hshared, hsilent.shared, List.append_nil]
  have hcount : (readFibers (entries ++ more)).count fiber + n = rest + 1 := by
    rw [readFibers_append, List.count_append, hsilent.reads, Nat.add_zero, hreads]
  rw [reads.activity, reads.deeds hended]
  cases outcome with
  | ok v =>
    have hlast : Silent fiber _ := silent_of_returned (R := R) seat.who v callers outer pool
      (((Thread.base (.ofExcept (.ok v))).onTop callers outer).deeds R pool)
    refine .along ((story.trans hmore).tail incident)
      (hseat.scene hpools (.same _) (by simp [Launch.jobs])) ?_ ?_
      fun _ => ⟨v, by rwa [Seat.pool_scene]⟩
    · rw [sharedEntries_append, hnone, hlast.shared]
      simp [sharedEntries, Entry.isShared, Activity.isShared]
    · rw [readFibers_append, List.count_append, hlast.reads, count_readFibers_of_read]
      omega
  | error cause =>
    refine .parted (story.trans hmore) ?_ hnone hcount incident
      (.mk hseat.who_eq reads hruns hended)
    exact hseat.scene hpools (.reading reads hruns) (by simp [Launch.jobs])

/-- Whatever a thread does in the second execution, other than the job of the fiber, the first can
keep up with it. -/
theorem Beside.match_move {seat' : Seat S α β} {thread' thread₁' : Thread S β} {launch : Launch S}
    {pool₁' : Pool S W} (hpool : scene.pool.PureOn H R.toMeaning P) (hcounted : scene.Counted)
    (hconfined : scene.Confined (.discreet fiber) (.discreet fiber))
    (h : scene.Beside R fiber action n (seat'.scene pool' .none thread'))
    (hwho : seat'.who ≠ .job fiber)
    (moved' : thread'.move R pool' = (.moved thread₁' launch, pool₁')) :
    Matched R fiber action n scene (seat'.scene pool' .none thread')
      (.did seat'.who (thread'.activity R pool') (thread'.deeds R pool'))
      (seat'.scene pool₁' launch thread₁') := by
  obtain ⟨seat, thread, rest, m, heq, hseat, hthread, rfl⟩ := h.exists_seat_back hwho
  have hpools := h.pools
  rw [Seat.pool_scene] at hpools
  rw [heq] at hcounted hconfined ⊢
  generalize scene.pool = pool at hpool hseat hthread hpools hcounted hconfined
  -- Whoever is told of the fiber in the second execution is told of an outcome.
  have hended {callers : List (Except Fault S.Value → Comp S (Turn S))}
      {outer : Except Fault S.Value → Comp S β} (reads : thread'.AtRead fiber callers outer) :
      ∃ ending, pool'.get? fiber = some (.ended ending) := by
    obtain ⟨stage, hstage, hready⟩ := reads.ready_of_move moved'
    have hbacks := hpools.backs
    rw [hstage] at hbacks
    cases hbacks with
    | waiting | running => cases hready
    | ended => exact ⟨_, hstage⟩
  cases hthread with
  | same =>
    obtain ⟨callers, outer, reads⟩ | ⟨hread, pool₁, moved, hentry, hbeside⟩ :=
      both_back_or_atRead hact hpool hcounted hseat hpools (hconfined.of_seat seat) moved'
    · -- Its counterpart begins to run the action, which has come to an outcome by itself.
      obtain ⟨ending, hending⟩ := hended reads
      have incident := seat.incident (reads.move_of_recomputing (R := R) hpools.recomputing)
      rw [reads.activity R pool] at incident
      refine .of_ended hact hfiber hpool hpools hseat reads .refl hending (.single incident) ?_ ?_
        moved'
      · simp [sharedEntries, Entry.isShared, Activity.isShared]
      · rw [count_readFibers_of_read]
        omega
    · have incident := seat.incident moved
      rw [hentry] at incident
      exact .same incident hbeside fun h => hread (Entry.read?_did h)
  | @reading running reader callers outer reads runs =>
    obtain ⟨ending, hending⟩ := hended reads
    refine .of_ended hact hfiber hpool hpools hseat reads runs hending .refl rfl ?_ moved'
    simp only [readFibers, List.filterMap_nil, List.count_nil]
    omega

/-- The job of the fiber goes on in the second execution, of which the first knows nothing. -/
theorem Beside.move_own {callers' : List (Main S α)} {before' after' : List (Job S)}
    {thread' thread₁' : Thread S S.Value} {launch : Launch S} {pool₁' : Pool S W}
    (hpool : scene.pool.PureOn H R.toMeaning P)
    (h : scene.Beside R fiber action n ⟨pool', callers', before' ++ ⟨fiber, thread'⟩ :: after'⟩)
    (moved' : thread'.move R pool' = (.moved thread₁' launch, pool₁')) :
    scene.Beside R fiber action n
        ⟨pool₁', callers', launch.onto (before' ++ ⟨fiber, thread₁'⟩ :: after')⟩ ∧
      thread'.activity R pool' ≠ .read fiber := by
  obtain ⟨hpools, m, k, rfl, hcallers, hjobs⟩ := h
  have hown := hjobs.own ⟨fiber, thread'⟩ (by simp) rfl
  have hpure := (hown.mono hpool (Pool.keepsReady_refl _) (.base hact)).2
  have hback := (hpools.twins.symm Eq.symm).keepsReady hfiber
  obtain hblocked | ⟨outcome, rfl⟩ | ⟨next, -, hmove⟩ :=
    hpure.move (hpool.of_twins hpools.twins hfiber)
  · cases hblocked.symm.trans moved'
  · rw [Thread.move_ofExcept] at moved'
    cases moved'
  · cases (hmove (Pool.keepsReady_refl pool')).symm.trans moved'
    exact ⟨⟨hpools, m, k, rfl, hcallers, hjobs.exchange_own (hown.tail (hmove hback))⟩,
      fun hread => hfiber (hpure.mem_of_read hread)⟩

/-- Whatever happens in the second execution, the first can keep up with it. -/
theorem Beside.matched {entry' : Entry S} (hpool : scene.pool.PureOn H R.toMeaning P)
    (hcounted : scene.Counted) (hcounted' : scene'.Counted)
    (hconfined : scene.Confined (.discreet fiber) (.discreet fiber))
    (h : scene.Beside R fiber action n scene')
    (incident' : Incident R scene' [entry'] scene₁') (hkept : .dropped fiber ∉ entry'.deeds) :
    Matched R fiber action n scene scene' entry' scene₁' := by
  cases incident' with
  | @caller pool' pool₁' before' after' thread' thread₁' launch jobs' moved' =>
    have hseat : scene.Beside R fiber action n
      ((Seat.caller before' after' jobs').scene pool' .none thread') := h
    exact hseat.match_move hact hfiber hpool hcounted hconfined (by simp [Seat.who]) moved'
  | @job pool' pool₁' callers' before' after' other thread' thread₁' launch moved' =>
    -- The job of the fiber itself has no counterpart in the first execution, which stays where it
    -- is.
    by_cases hother : other = fiber
    · subst hother
      obtain ⟨hbeside, hread⟩ := h.move_own hact hfiber hpool moved'
      exact .alone hbeside (.of_job hread _)
    · have hseat : scene.Beside R fiber action n
        ((Seat.job callers' before' after' other).scene pool' .none thread') := h
      exact hseat.match_move hact hfiber hpool hcounted hconfined (by simp [Seat.who, hother])
        moved'
  | callerEnded before' after' jobs' ended' =>
    obtain ⟨-, rfl⟩ := Thread.of_ended ended'
    obtain rfl := Thread.eq_of_ended ended'
    exact h.match_callerEnded
  | @jobEnded _ pool' callers' before' after' other thread' outcome ended' =>
    obtain ⟨-, rfl⟩ := Thread.of_ended ended'
    obtain rfl := Thread.eq_of_ended ended'
    by_cases hother : other = fiber
    · subst hother
      have hrunning : pool'.get? other = some .running :=
        hcounted'.running (List.mem_append_cons_self ..)
      exact .alone (h.finished hrunning).1 (.of_job_ended _ _)
    · exact h.match_jobEnded hact hpool hcounted hother
  | @jobBegun pool' pool₁' callers' jobs' position' job started' =>
    by_cases hother : job.fiber = fiber
    · exact .alone (h.begun hother started').1 (.of_queued hother)
    · obtain ⟨pool, callers, jobs⟩ := scene
      obtain ⟨hpools, m, k, rfl, hcallers, hjobs⟩ := h
      obtain ⟨position, pool₁, started, htwins⟩ :=
        (hpools.twins.symm Eq.symm).startAt started' hother
      obtain ⟨hpools₁, hkeeps⟩ :=
        beside_startAt hact hpool hpools hother started started' (htwins.symm Eq.symm)
      refine .same (.jobBegun callers jobs started) ?_ (by simp [Entry.read?])
      refine beside_later hact hpool hkeeps hpools₁ hcallers ?_
      rw [← Nat.zero_add k]
      exact hjobs.cons (.mk hother (.same _))
  | @drop pool' position' other callers' jobs' queued' =>
    -- The job of the fiber is not the one that is dropped, so the first queue has the same job.
    have hother : other ≠ fiber := by
      rintro rfl
      exact hkept List.mem_cons_self
    obtain ⟨pool, callers, jobs⟩ := scene
    obtain ⟨hpools, m, k, rfl, hcallers, hjobs⟩ := h
    obtain ⟨position, queued, htwins⟩ :=
      (hpools.twins.symm Eq.symm).drop R.level queued' hother
    obtain ⟨action', hwaiting⟩ :=
      hcounted.waiting (Array.mem_toList_iff.mpr (Array.mem_of_getElem? queued))
    obtain ⟨hpools₁, hkeeps⟩ :=
      beside_drop hact hpool hpools hother hwaiting queued queued' (htwins.symm Eq.symm)
    refine .same (.drop callers jobs queued) ?_ (by simp [Entry.read?])
    exact beside_later hact hpool hkeeps hpools₁ hcallers hjobs

end Back

end Steps

end Scene

end FiberPrograms
