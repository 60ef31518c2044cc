import FiberPrograms.Proofs.Stories

/-!
# Whose turn it is

A story tells what has happened. What is to happen next is decided by somebody who does not know
programs: it says whose turn it is among the computations and the started jobs, by their place, or
which job of the queue is to begin or is thrown away, by its position. Such a decision leaves one
way to go on, or none if it cannot be followed. So decisions make schedules under which two
executions can be compared, and whatever happens in a story has been decided by one of them.

## Main definitions

* `Choice`: what can be decided
* `Scene.take?`: what happens by a decision
* `Scene.follow?`: what happens by a schedule

## Main results

* `Scene.incident_iff_take?`: incidents are what happens by decisions
* `Scene.story_iff_follow?`: stories are what happens by schedules
-/

namespace FiberPrograms

variable {S : Signature} {W α : Type}

/-- What can be decided next. -/
inductive Choice where
  /-- The computation at a place makes a move. -/
  | caller (place : Nat)
  /-- The started job at a place makes a move. -/
  | job (place : Nat)
  /-- The job at a position of the queue begins. -/
  | begin (position : Nat)
  /-- The job at a position of the queue is thrown away. -/
  | drop (position : Nat)
deriving DecidableEq, Repr

namespace Scene

/-- What happens by a decision, and what is told of it, unless the decision cannot be followed. -/
def take? (R : Runtime S W) (scene : Scene S W α) : Choice → Option (Entry S × Scene S W α)
  | .caller place =>
    match scene.callers[place]? with
    | some (.running thread) =>
      match thread.move R scene.pool with
      | (.moved thread' launch, pool) =>
        some (.did (.caller place) (thread.activity R scene.pool) (thread.deeds R scene.pool),
          ⟨pool, scene.callers.set place (.running thread'), launch.onto scene.jobs⟩)
      | (.ended outcome, pool) =>
        some (.ended (.caller place) (outcomeFault outcome) [],
          ⟨pool, scene.callers.set place (.ended outcome), scene.jobs⟩)
      | (.blocked, _) => none
    | _ => none
  | .job place =>
    match scene.jobs[place]? with
    | some ⟨fiber, thread⟩ =>
      match thread.move R scene.pool with
      | (.moved thread' launch, pool) =>
        some (.did (.job fiber) (thread.activity R scene.pool) (thread.deeds R scene.pool),
          ⟨pool, scene.callers, launch.onto (scene.jobs.set place ⟨fiber, thread'⟩)⟩)
      | (.ended outcome, pool) =>
        some (.ended (.job fiber) (outcomeFault outcome) [.ended fiber outcome],
          ⟨pool.finish R.level fiber outcome, scene.callers, scene.jobs.eraseIdx place⟩)
      | (.blocked, _) => none
    | none => none
  | .begin position =>
    match scene.pool.startAt? R.toInterpreter position with
    | some (job, pool) =>
      some (.queued (.begun job.fiber), ⟨pool, scene.callers, job :: scene.jobs⟩)
    | none => none
  | .drop position =>
    match scene.pool.queue[position]? with
    | some fiber =>
      some (.queued (.dropped fiber),
        { scene with
          pool := { scene.pool with
            queue := scene.pool.queue.eraseIdxIfInBounds position }.release R.level fiber })
    | none => none

/-- What happens by a schedule, and what is told of it, unless the schedule cannot be followed. -/
def follow? (R : Runtime S W) : List Choice → Scene S W α → Option (List (Entry S) × Scene S W α)
  | [], scene => some ([], scene)
  | choice :: choices, scene =>
    match scene.take? R choice with
    | none => none
    | some (entry, scene₁) =>
      (follow? R choices scene₁).map fun (entries, scene₂) => (entry :: entries, scene₂)

/-- A list can be split where one of its items stands. -/
theorem exists_split_of_getElem? {σ : Type} {items : List σ} {place : Nat} {item : σ}
    (h : items[place]? = some item) :
    ∃ before after, items = before ++ item :: after ∧ before.length = place := by
  obtain ⟨hplace, rfl⟩ := List.getElem?_eq_some_iff.mp h
  refine ⟨items.take place, items.drop (place + 1), ?_, List.length_take_of_le hplace.le⟩
  simp

variable {R : Runtime S W} {scene scene' scene'' : Scene S W α} {choice : Choice}
  {entry : Entry S} {schedule more : List Choice} {entries told : List (Entry S)}

/-- What happens by a decision is an incident. -/
theorem incident_of_take? (h : scene.take? R choice = some (entry, scene')) :
    Incident R scene [entry] scene' := by
  obtain ⟨pool, callers, jobs⟩ := scene
  -- Each choice is of an actor or of a job of the queue; if it can be taken, it is found at its
  -- place, with the others before and after it.
  cases choice with
  | caller place =>
    simp only [take?] at h
    split at h
    · next thread hthread =>
      obtain ⟨before, after, rfl, rfl⟩ := exists_split_of_getElem? hthread
      split at h
      · next moved =>
        cases h
        simpa using Incident.caller before after jobs moved
      · next ended =>
        cases h
        simpa using Incident.callerEnded before after jobs ended
      · cases h
    · cases h
  | job place =>
    simp only [take?] at h
    split at h
    · next fiber thread hthread =>
      obtain ⟨before, after, rfl, rfl⟩ := exists_split_of_getElem? hthread
      split at h
      · next moved =>
        cases h
        simpa using Incident.job callers before after moved
      · next ended =>
        cases h
        rw [List.eraseIdx_append_of_length_le le_rfl]
        simpa using Incident.jobEnded callers before after ended
      · cases h
    · cases h
  | begin position =>
    simp only [take?] at h
    split at h
    · next job pool' started =>
      cases h
      exact .jobBegun callers jobs started
    · cases h
  | drop position =>
    simp only [take?] at h
    split at h
    · next fiber queued =>
      cases h
      exact .drop callers jobs queued
    · cases h

/-- An incident is decided by whose turn it is. -/
theorem exists_take?_of_incident (h : Incident R scene entries scene') :
    ∃ choice entry, entries = [entry] ∧ scene.take? R choice = some (entry, scene') := by
  -- Whoever has made a move stands at the place that as many others precede.
  cases h with
  | caller before after jobs moved =>
    exact ⟨.caller before.length, _, rfl, by simp [take?, moved]⟩
  | callerEnded before after jobs ended =>
    exact ⟨.caller before.length, _, rfl, by simp [take?, ended]⟩
  | job callers before after moved =>
    exact ⟨.job before.length, _, rfl, by simp [take?, moved]⟩
  | jobEnded callers before after ended =>
    refine ⟨.job before.length, _, rfl, ?_⟩
    simp [take?, ended, List.eraseIdx_append_of_length_le]
  | @jobBegun _ _ callers jobs position job started =>
    exact ⟨.begin position, _, rfl, by simp [take?, started]⟩
  | @drop _ position fiber callers jobs queued =>
    exact ⟨.drop position, _, rfl, by simp [take?, queued]⟩

/-- Incidents are what happens by decisions. -/
theorem incident_iff_take? :
    Incident R scene [entry] scene' ↔ ∃ choice, scene.take? R choice = some (entry, scene') := by
  constructor
  · intro h
    obtain ⟨choice, _, ⟨⟩, htake⟩ := exists_take?_of_incident h
    exact ⟨choice, htake⟩
  · rintro ⟨choice, htake⟩
    exact incident_of_take? htake

/-- A schedule is followed from its first decision on. -/
theorem follow?_cons_eq_some_iff :
    scene.follow? R (choice :: schedule) = some (entries, scene') ↔
      ∃ entry scene₁ rest, scene.take? R choice = some (entry, scene₁) ∧
        scene₁.follow? R schedule = some (rest, scene') ∧ entries = entry :: rest := by
  rw [follow?]
  cases scene.take? R choice with
  | none => simp
  | some taken =>
    obtain ⟨entry, scene₁⟩ := taken
    constructor
    · intro h
      obtain ⟨⟨rest, _⟩, hfollow, hsame⟩ := Option.map_eq_some_iff.mp h
      cases hsame
      exact ⟨entry, scene₁, rest, rfl, hfollow, rfl⟩
    · rintro ⟨_, _, rest, ⟨⟩, hfollow, rfl⟩
      simp [hfollow]

/-- A schedule can go on where another has got to. -/
theorem follow?_append (h : scene.follow? R schedule = some (entries, scene'))
    (hmore : scene'.follow? R more = some (told, scene'')) :
    scene.follow? R (schedule ++ more) = some (entries ++ told, scene'') := by
  induction schedule generalizing scene entries with
  | nil =>
    cases h
    exact hmore
  | cons choice schedule ih =>
    obtain ⟨entry, scene₁, rest, htake, hfollow, rfl⟩ := follow?_cons_eq_some_iff.mp h
    exact follow?_cons_eq_some_iff.mpr ⟨entry, scene₁, rest ++ told, htake, ih hfollow, rfl⟩

/-- Stories are what happens by schedules. -/
theorem story_iff_follow? :
    Trail (Incident R) scene entries scene' ↔
      ∃ schedule, scene.follow? R schedule = some (entries, scene') := by
  constructor
  · intro story
    -- A story is told from its beginning on, so decisions are added at the end of the schedule.
    induction story with
    | refl => exact ⟨[], rfl⟩
    | tail _ last ih =>
      obtain ⟨schedule, hfollow⟩ := ih
      obtain ⟨choice, entry, rfl, htake⟩ := exists_take?_of_incident last
      have hnext : Scene.follow? R [choice] _ = some ([entry], _) :=
        follow?_cons_eq_some_iff.mpr ⟨entry, _, [], htake, rfl, rfl⟩
      exact ⟨schedule ++ [choice], follow?_append hfollow hnext⟩
  · rintro ⟨schedule, hfollow⟩
    induction schedule generalizing scene entries with
    | nil =>
      cases hfollow
      exact .refl
    | cons choice schedule ih =>
      obtain ⟨entry, scene₁, rest, htake, hrest, rfl⟩ := follow?_cons_eq_some_iff.mp hfollow
      exact (Trail.single (incident_of_take? htake)).trans (ih hrest)

end Scene

end FiberPrograms
