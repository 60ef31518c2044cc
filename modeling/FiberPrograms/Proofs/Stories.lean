import FiberPrograms.Proofs.TypedThreads

/-!
# Stories

A story tells how a number of computations, begun where there are no fibers yet, and the jobs that
come of them have gone on side by side: who made which move, what became of whom, and which jobs the
spawner had begin or threw away. Any thread that can move may be the next to do so. What was done to
fibers can be read off a story, so what holds of the record of a scene holds of stories too.

## Main definitions

* `Actor`, `Entry`: whose move it was, and what is told of it
* `handedFibers`: the fibers that have been started, in that order
* `Scene.Incident`: one move, or something that the spawner does
* `Scene.start`: the scene in which a story begins

## Main results

* `Scene.recorded_of_story`: the record of a scene that is read off its story is true
* `Scene.events_of_trail`: the events that are put down are those that the story tells of
-/

namespace FiberPrograms

variable {S : Signature} {W α : Type}

/-- Who makes a move: one of the computations that a story begins with, by its place among them, or
the job of a fiber. -/
inductive Actor where
  | caller (place : Nat)
  | job (fiber : FiberId)
deriving DecidableEq

/-- What is told of one incident. -/
inductive Entry (S : Signature) where
  /-- An actor makes a move. -/
  | did (who : Actor) (activity : Activity S) (deeds : List (Deed S))
  /-- An actor has come to its value, or has failed. -/
  | ended (who : Actor) (fault? : Option Fault) (deeds : List (Deed S))
  /-- The spawner has a job of the queue begin, or throws it away. -/
  | queued (deed : Deed S)

/-- What is done to fibers. -/
def Entry.deeds : Entry S → List (Deed S)
  | did _ _ deeds => deeds
  | ended _ _ deeds => deeds
  | queued deed => [deed]

/-- Who has made the move that an entry tells of. -/
def Entry.who? : Entry S → Option Actor
  | did who _ _ => some who
  | ended who _ _ => some who
  | queued _ => none

/-- The events that are put down. -/
def Entry.events : Entry S → List Event
  | did _ activity _ => activity.events
  | ended _ _ _ => []
  | queued _ => []

/-- The fiber whose action is handed to the spawner. -/
def Entry.handed? : Entry S → Option FiberId
  | did _ (.handed fiber _) _ => some fiber
  | _ => none

/-- The fibers whose actions have been handed to the spawner in a story, from the oldest on. -/
def handedFibers (entries : List (Entry S)) : List FiberId :=
  entries.filterMap Entry.handed?

@[simp] theorem handedFibers_append (entries more : List (Entry S)) :
    handedFibers (entries ++ more) = handedFibers entries ++ handedFibers more :=
  List.filterMap_append

/-- The fiber that is read. -/
def Entry.read? : Entry S → Option FiberId
  | did _ (.read fiber) _ => some fiber
  | _ => none

/-- The fibers that have been read in a story, from the oldest reading on. -/
def readFibers (entries : List (Entry S)) : List FiberId :=
  entries.filterMap Entry.read?

@[simp] theorem readFibers_append (entries more : List (Entry S)) :
    readFibers (entries ++ more) = readFibers entries ++ readFibers more :=
  List.filterMap_append

/-- The fault of an outcome. -/
def outcomeFault : Except Fault α → Option Fault
  | .ok _ => none
  | .error fault => some fault

namespace Scene

/-- One move of any computation or started job, or a job of the queue that begins or is thrown
away. -/
inductive Incident (R : Runtime S W) : Scene S W α → List (Entry S) → Scene S W α → Prop
  | caller {pool pool' : Pool S W} (before after : List (Main S α)) {thread thread' : Thread S α}
      {launch : Launch S} (jobs : List (Job S))
      (moved : thread.move R pool = (.moved thread' launch, pool')) :
      Incident R ⟨pool, before ++ .running thread :: after, jobs⟩
        [.did (.caller before.length) (thread.activity R pool) (thread.deeds R pool)]
        ⟨pool', before ++ .running thread' :: after, launch.onto jobs⟩
  | callerEnded {pool pool' : Pool S W} (before after : List (Main S α)) {thread : Thread S α}
      {outcome : Except Fault α} (jobs : List (Job S))
      (ended : thread.move R pool = (.ended outcome, pool')) :
      Incident R ⟨pool, before ++ .running thread :: after, jobs⟩
        [.ended (.caller before.length) (outcomeFault outcome) []]
        ⟨pool', before ++ .ended outcome :: after, jobs⟩
  | job {pool pool' : Pool S W} (callers : List (Main S α)) (before after : List (Job S))
      {fiber : FiberId} {thread thread' : Thread S S.Value} {launch : Launch S}
      (moved : thread.move R pool = (.moved thread' launch, pool')) :
      Incident R ⟨pool, callers, before ++ ⟨fiber, thread⟩ :: after⟩
        [.did (.job fiber) (thread.activity R pool) (thread.deeds R pool)]
        ⟨pool', callers, launch.onto (before ++ ⟨fiber, thread'⟩ :: after)⟩
  | jobEnded {pool pool' : Pool S W} (callers : List (Main S α)) (before after : List (Job S))
      {fiber : FiberId} {thread : Thread S S.Value} {outcome : Except Fault S.Value}
      (ended : thread.move R pool = (.ended outcome, pool')) :
      Incident R ⟨pool, callers, before ++ ⟨fiber, thread⟩ :: after⟩
        [.ended (.job fiber) (outcomeFault outcome) [.ended fiber outcome]]
        ⟨pool'.finish R.level fiber outcome, callers, before ++ after⟩
  | jobBegun {pool pool' : Pool S W} (callers : List (Main S α)) (jobs : List (Job S))
      {position : Nat} {job : Job S}
      (started : pool.startAt? R.toInterpreter position = some (job, pool')) :
      Incident R ⟨pool, callers, jobs⟩ [.queued (.begun job.fiber)] ⟨pool', callers, job :: jobs⟩
  | drop {pool : Pool S W} {position : Nat} {fiber : FiberId} (callers : List (Main S α))
      (jobs : List (Job S)) (queued : pool.queue[position]? = some fiber) :
      Incident R ⟨pool, callers, jobs⟩ [.queued (.dropped fiber)]
        ⟨{ pool with queue := pool.queue.eraseIdxIfInBounds position }.release R.level fiber,
          callers, jobs⟩

/-- The scene in which a story begins: no fibers, and computations that are about to run. -/
def start (world : W) (computations : List (Comp S α)) : Scene S W α where
  pool := .empty world
  callers := computations.map fun c => .running (.base c)
  jobs := []

/-- Only the computation that is exchanged is another. -/
theorem getElem?_exchange {σ : Type} (before after : List σ) (a b : σ) {place : Nat}
    (hne : place ≠ before.length) :
    (before ++ a :: after)[place]? = (before ++ b :: after)[place]? := by
  rcases Nat.lt_or_ge place before.length with hlt | hge
  · rw [List.getElem?_append_left hlt, List.getElem?_append_left hlt]
  · obtain ⟨rest, hrest⟩ : ∃ rest, place - before.length = rest + 1 :=
      Nat.exists_eq_add_one.mpr (by omega)
    rw [List.getElem?_append_right hge, List.getElem?_append_right hge, hrest,
      List.getElem?_cons_succ, List.getElem?_cons_succ]

variable {R : Runtime S W} {scene scene' : Scene S W α} {entries : List (Entry S)}

/-- An incident is a step of the scene. -/
theorem Incident.step (h : Incident R scene entries scene') :
    Step R scene (entries.flatMap Entry.deeds) scene' := by
  cases h with
  | caller before after jobs moved =>
    simpa [Entry.deeds] using Step.move (.caller before after jobs moved)
  | callerEnded before after jobs ended =>
    simpa [Entry.deeds] using Step.move (.callerEnded before after jobs ended)
  | job callers before after moved =>
    simpa [Entry.deeds] using Step.move (.job callers before after moved)
  | jobEnded callers before after ended =>
    simpa [Entry.deeds] using Step.move (.jobEnded callers before after ended)
  | jobBegun callers jobs started =>
    simpa [Entry.deeds] using Step.move (.jobBegun callers jobs started)
  | drop callers jobs queued => simpa [Entry.deeds] using Step.drop callers jobs queued

/-- One thing is told of an incident. -/
theorem Incident.exists_entry (h : Incident R scene entries scene') : ∃ entry, entries = [entry] := by
  cases h <;> exact ⟨_, rfl⟩

/-- So is every move that is made, whoever tells of it. -/
theorem Move.incident {deeds : List (Deed S)} (h : Move R scene deeds scene') :
    ∃ entries, Incident R scene entries scene' ∧ entries.flatMap Entry.deeds = deeds := by
  cases h with
  | caller before after jobs moved =>
    exact ⟨_, .caller before after jobs moved, by simp [Entry.deeds]⟩
  | callerEnded before after jobs ended =>
    exact ⟨_, .callerEnded before after jobs ended, by simp [Entry.deeds]⟩
  | job callers before after moved =>
    exact ⟨_, .job callers before after moved, by simp [Entry.deeds]⟩
  | jobEnded callers before after ended =>
    exact ⟨_, .jobEnded callers before after ended, by simp [Entry.deeds]⟩
  | jobBegun callers jobs started =>
    exact ⟨_, .jobBegun callers jobs started, by simp [Entry.deeds]⟩

/-- Whatever is done in moves, there is a story that tells of it. -/
theorem story_of_moves {deeds : List (Deed S)} (moves : Trail (Move R) scene deeds scene') :
    ∃ entries, Trail (Incident R) scene entries scene' ∧ entries.flatMap Entry.deeds = deeds := by
  induction moves with
  | refl => exact ⟨[], .refl, rfl⟩
  | tail _ last ih =>
    obtain ⟨entries, story, rfl⟩ := ih
    obtain ⟨more, incident, rfl⟩ := last.incident
    exact ⟨entries ++ more, .tail story incident, List.flatMap_append ..⟩

/-- The record that is read off a story is one of steps of the scene. -/
theorem trail_of_story (story : Trail (Incident R) scene entries scene') :
    Trail (Step R) scene (entries.flatMap Entry.deeds) scene' := by
  induction story with
  | refl => exact .refl
  | tail _ last ih =>
    rw [List.flatMap_append]
    exact .tail ih last.step

/-- The record that is read off a story is true. -/
theorem recorded_of_story {world : W} {computations : List (Comp S α)}
    (story : Trail (Incident R) (start world computations) entries scene) :
    Recorded R scene (entries.flatMap Entry.deeds) := by
  induction story with
  | refl => exact (recorded_opening R world).same _
  | tail _ last ih =>
    rw [List.flatMap_append]
    exact (ih.step last.step).1

/-- The events that are put down in a scene are those that its story tells of. -/
theorem events_of_trail (story : Trail (Incident R) scene entries scene') :
    scene'.pool.events.toList = scene.pool.events.toList ++ entries.flatMap Entry.events := by
  induction story with
  | refl => simp
  | tail story last ih =>
    rw [List.flatMap_append, ← List.append_assoc, ← ih]
    cases last with
    | caller before after jobs moved => simpa [Entry.events] using (Thread.told_of_move moved).2
    | callerEnded before after jobs ended =>
      obtain ⟨-, rfl⟩ := Thread.of_ended ended
      simp [Entry.events]
    | job callers before after moved => simpa [Entry.events] using (Thread.told_of_move moved).2
    | jobEnded callers before after ended =>
      obtain ⟨-, rfl⟩ := Thread.of_ended ended
      simp [Entry.events]
    | jobBegun callers jobs started =>
      obtain ⟨-, hevents⟩ := Pool.told_startAt started
      simp [Entry.events, hevents]
    | drop callers jobs queued => simp [Entry.events]

/-- Where a story begins, no event has been put down. -/
theorem events_of_story {world : W} {computations : List (Comp S α)}
    (story : Trail (Incident R) (start world computations) entries scene) :
    scene.pool.events.toList = entries.flatMap Entry.events :=
  events_of_trail story

end Scene

end FiberPrograms
