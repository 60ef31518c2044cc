import FiberPrograms.Proofs.BackendSteps
import FiberPrograms.Proofs.UnreadFibers
import Mathlib.Algebra.GroupWithZero.Nat

/-!
# Backends agree on pure actions

A fiber is built, and its action is pure. Whether it recomputes or memoizes, programs that read it
come to the same values and faults and put down the same events; the difference is how often the
action is run. Only if the action fails, what its readers are told is worded differently.

## Main definitions

* `Entry.executions`, `executions`: how often the action of a fiber is run in a story
* `Scene.recomputing`, `Scene.memoizing`: the scene once one more fiber has been built
* `Scene.Alongside`: how far two executions have got side by side
* `Scene.Alike`: what can be seen of them is alike
* `Scene.Parting`: the moment up to which they have been alike

## Main results

* `Scene.executions_of_recomputing`, `Scene.executions_of_handed`: how often actions are run
* `Scene.trail_building`: how fibers are built
* `Scene.Alongside.follow`, `Scene.exists_alongside`: whole stories can be kept up with
* `Scene.backends_agree`: backends agree on pure actions
-/

namespace FiberPrograms

variable {S : Signature} {W α β : Type}

/-! ## How often an action is run -/

/-- Whether a deed is that the job of a fiber begins. -/
def Deed.begins (fiber : FiberId) : Deed S → Bool
  | begun other => other = fiber
  | _ => false

/-- How often one incident has the action of a fiber begin to be run: as the job of the fiber, or by
a reader who is told of no ending. -/
def Entry.executions (fiber : FiberId) (entry : Entry S) : Nat :=
  entry.deeds.countP (Deed.begins fiber) +
    if entry.read? = some fiber ∧ entry.deeds.isEmpty then 1 else 0

/-- How often the action of a fiber has begun to be run in a story. -/
def executions (fiber : FiberId) (entries : List (Entry S)) : Nat :=
  (entries.map (Entry.executions fiber)).sum

theorem executions_append (fiber : FiberId) (entries : List (Entry S)) (entry : Entry S) :
    executions fiber (entries ++ [entry]) = executions fiber entries + entry.executions fiber := by
  simp [executions]

/-- The jobs that begin are on the record of their fibers. -/
theorem Deed.countP_begins_lifeline (fiber : FiberId) (deeds : List (Deed S)) :
    (lifeline fiber deeds).countP (begins fiber) = deeds.countP (begins fiber) := by
  rw [lifeline, List.countP_filter]
  congr 1
  funext deed
  cases deed with
  | begun other => by_cases hother : other = fiber <;> simp [begins, Deed.fiber, isRead, hother]
  | _ => rfl

/-- Whoever reads a fiber is about to do so. -/
theorem Thread.exists_atRead {R : Runtime S W} {pool : Pool S W} {thread : Thread S α}
    {fiber : FiberId} (h : thread.activity R pool = .read fiber) :
    ∃ callers outer, thread.AtRead fiber callers outer := by
  have hcomp {γ : Type} {c : Comp S γ} (h : c.activity R pool = .read fiber) :
      ∃ k, c = .demand (.read fiber) k := by
    cases c with
    | demand d k =>
      cases d with
      | read other =>
        cases h
        exact ⟨k, rfl⟩
      | interpret yields machine => cases h
    | ask request k => cases request <;> cases h
    | _ => cases h
  cases thread with
  | base c =>
    obtain ⟨k, rfl⟩ := hcomp h
    exact ⟨_, _, .base k⟩
  | nested c callers outer =>
    obtain ⟨k, rfl⟩ := hcomp h
    exact ⟨_, _, .nested k callers outer⟩

/-- Nobody begins the job of a fiber that recomputes. -/
theorem Pool.Change.countP_begins {R : Runtime S W} {pool pool' : Pool S W} {deeds : List (Deed S)}
    {launched : List (Job S)} (h : Change R pool pool' deeds launched) {fiber : FiberId}
    {action : S.Action} (hstage : pool.get? fiber = some (.recomputing action)) :
    deeds.countP (Deed.begins fiber) = 0 := by
  cases h with
  | quiet | told | made => rfl
  | @passed other stage stage' _ _ before passes =>
    rw [← Deed.countP_begins_lifeline, passes.lifeline_of_ne]
    · rfl
    · rintro rfl
      cases before.symm.trans hstage
      cases passes

namespace Scene

variable {R : Runtime S W} {fiber : FiberId} {action : S.Action} {scene scene₁ : Scene S W α}
  {entry : Entry S} {entries : List (Entry S)}

/-- A fiber that is read is ready, and the reader is told of its ending, if it has ended. -/
theorem Incident.of_read (incident : Incident R scene [entry] scene₁)
    (hread : entry.read? = some fiber) :
    (∃ stage, scene.pool.get? fiber = some stage ∧ stage.isReady) ∧
      entry.deeds = scene.pool.readDeeds fiber := by
  have hmove {γ : Type} {pool pool₁ : Pool S W} {thread thread₁ : Thread S γ} {launch : Launch S}
      (moved : thread.move R pool = (.moved thread₁ launch, pool₁))
      (hactivity : thread.activity R pool = .read fiber) :
      (∃ stage, pool.get? fiber = some stage ∧ stage.isReady) ∧
        thread.deeds R pool = pool.readDeeds fiber := by
    obtain ⟨callers, outer, reads⟩ := Thread.exists_atRead hactivity
    exact ⟨reads.ready_of_move moved, by cases reads <;> rfl⟩
  cases incident with
  | caller before after jobs moved => exact hmove moved (Entry.read?_did hread)
  | job callers before after moved => exact hmove moved (Entry.read?_did hread)
  | callerEnded | jobEnded | jobBegun | drop => cases hread

/-- The action of a fiber that recomputes is run once for each reader. -/
theorem Incident.executions_of_recomputing (incident : Incident R scene [entry] scene₁)
    (hstage : scene.pool.get? fiber = some (.recomputing action)) :
    entry.executions fiber = (readFibers [entry]).count fiber := by
  have hbegins : entry.deeds.countP (Deed.begins fiber) = 0 := by
    cases incident with
    | caller before after jobs moved => exact (Thread.change_of_move moved).countP_begins hstage
    | job callers before after moved => exact (Thread.change_of_move moved).countP_begins hstage
    | jobBegun callers jobs started => exact (Pool.change_startAt started).countP_begins hstage
    | callerEnded | jobEnded | drop => rfl
  rw [Entry.executions, hbegins, Nat.zero_add]
  by_cases hread : entry.read? = some fiber
  · have hdeeds : entry.deeds = [] := by
      rw [(incident.of_read hread).2, Pool.readDeeds, hstage]
    simp [readFibers, hread, hdeeds]
  · simp [hread, count_readFibers_of_ne hread]

/-- What is ready stays as it is. -/
theorem Incident.keepsReady (hcounted : scene.Counted)
    (incident : Incident R scene entries scene₁) :
    scene.pool.KeepsReady Set.univ scene₁.pool := by
  cases incident with
  | caller before after jobs moved => exact (Thread.change_of_move moved).keepsReady
  | job callers before after moved => exact (Thread.change_of_move moved).keepsReady
  | callerEnded before after jobs ended =>
    obtain ⟨-, rfl⟩ := Thread.of_ended ended
    exact Pool.keepsReady_refl _
  | @jobEnded pool pool' callers before after other thread outcome ended =>
    obtain ⟨-, rfl⟩ := Thread.of_ended ended
    have hrunning := hcounted.running
      (show ⟨other, thread⟩ ∈ before ++ ⟨other, thread⟩ :: after by simp)
    exact (Pool.change_finish (R := R) hrunning R.level outcome).keepsReady
  | jobBegun callers jobs started => exact (Pool.change_startAt started).keepsReady
  | drop callers jobs queued =>
    obtain ⟨action', hwaiting⟩ :=
      hcounted.waiting (Array.mem_toList_iff.mpr (Array.mem_of_getElem? queued))
    exact (Pool.change_release (R := R) queued hwaiting R.level).keepsReady

theorem Counted.story (h : scene.Counted) (story : Trail (Incident R) scene entries scene₁) :
    scene₁.Counted := by
  induction story with
  | refl => exact h
  | tail _ last ih => exact ih.incident last

theorem keepsReady_of_story (hcounted : scene.Counted)
    (story : Trail (Incident R) scene entries scene₁) :
    scene.pool.KeepsReady Set.univ scene₁.pool := by
  induction story with
  | refl => exact Pool.keepsReady_refl _
  | tail first last ih =>
    have hlast := last.keepsReady (hcounted.story first)
    exact fun _ _ hmem hstage hready => hlast hmem (ih hmem hstage hready) hready

theorem executions_of_recomputing (hcounted : scene.Counted)
    (hstage : scene.pool.get? fiber = some (.recomputing action))
    (story : Trail (Incident R) scene entries scene₁) :
    executions fiber entries = (readFibers entries).count fiber := by
  induction story with
  | refl => rfl
  | tail first last ih =>
    obtain ⟨entry, rfl⟩ := last.exists_entry
    have hstage₁ := keepsReady_of_story hcounted first (Set.mem_univ fiber) hstage rfl
    rw [executions_append, readFibers_append, List.count_append, ih,
      last.executions_of_recomputing hstage₁]

/-- The record stays true as the story goes on. -/
theorem Recorded.story {deeds : List (Deed S)} (h : Recorded R scene deeds)
    (story : Trail (Incident R) scene entries scene₁) :
    Recorded R scene₁ (deeds ++ entries.flatMap Entry.deeds) := by
  induction story with
  | refl => simpa using h
  | tail _ last ih =>
    rw [List.flatMap_append, ← List.append_assoc]
    exact (ih.step last.step).1

/-- A fiber whose action has been handed over does not recompute. -/
theorem Recorded.not_recomputing {deeds : List (Deed S)} (h : Recorded R scene deeds)
    (hhanded : .handed fiber action ∈ deeds) (action' : S.Action) :
    scene.pool.get? fiber ≠ some (.recomputing action') := by
  intro hstage
  have hlife := h.life fiber
  rw [hstage] at hlife
  have hmem : .handed fiber action ∈ Deed.lifeline fiber deeds :=
    Deed.mem_lifeline.mpr ⟨hhanded, rfl, rfl⟩
  generalize Deed.lifeline fiber deeds = before at hlife hmem
  cases hlife
  cases hmem

/-- Whoever reads a fiber whose action has been handed over is told of its ending. -/
theorem Incident.told_of_read {deeds : List (Deed S)} (hrecorded : Recorded R scene deeds)
    (hhanded : .handed fiber action ∈ deeds) (incident : Incident R scene [entry] scene₁)
    (hread : entry.read? = some fiber) :
    ∃ ending : Ending S, entry.deeds = [.read fiber (ending.read fiber)] := by
  obtain ⟨⟨stage, hstage, hready⟩, hdeeds⟩ := incident.of_read hread
  rw [Pool.readDeeds, hstage] at hdeeds
  cases stage with
  | recomputing action' => exact absurd hstage (hrecorded.not_recomputing hhanded action')
  | ended ending => exact ⟨ending, hdeeds⟩
  | named | waiting | running => cases hready

section Handed

variable {deeds : List (Deed S)} (hrecorded : Recorded R scene deeds)
  (hhanded : .handed fiber action ∈ deeds) (story : Trail (Incident R) scene entries scene₁)

include hrecorded hhanded story

/-- The action of a fiber that memoizes is run as its job only. -/
theorem executions_of_handed :
    executions fiber entries = (entries.flatMap Entry.deeds).countP (Deed.begins fiber) := by
  induction story with
  | refl => rfl
  | tail first last ih =>
    obtain ⟨entry, rfl⟩ := last.exists_entry
    rw [executions_append, List.flatMap_append, List.countP_append, ih, Entry.executions, if_neg]
    · simp
    · rintro ⟨hread, hempty⟩
      obtain ⟨ending, hdeeds⟩ :=
        last.told_of_read (hrecorded.story first) (List.mem_append_left _ hhanded) hread
      rw [hdeeds] at hempty
      cases hempty

/-- If it has been read, it is on record what was read. -/
theorem exists_told (hread : fiber ∈ readFibers entries) :
    ∃ outcome, .read fiber outcome ∈ entries.flatMap Entry.deeds := by
  induction story with
  | refl => cases hread
  | tail first last ih =>
    obtain ⟨entry, rfl⟩ := last.exists_entry
    rw [readFibers_append] at hread
    obtain hread | hread := List.mem_append.mp hread
    · obtain ⟨outcome, hmem⟩ := ih hread
      exact ⟨outcome, by simp [hmem]⟩
    · have hentry : entry.read? = some fiber := by simpa [readFibers] using hread
      obtain ⟨ending, hdeeds⟩ :=
        last.told_of_read (hrecorded.story first) (List.mem_append_left _ hhanded) hentry
      refine ⟨ending.read fiber, ?_⟩
      rw [List.flatMap_append]
      simp [hdeeds]

end Handed

end Scene

/-! ## Building a fiber -/

/-- The name of the fiber that is made next. -/
def Pool.next (pool : Pool S W) : FiberId :=
  ⟨pool.fibers.size⟩

/-- The pool once that fiber has been made. -/
def Pool.named (pool : Pool S W) : Pool S W :=
  { pool with fibers := pool.fibers.push .named }

namespace Pool

/-- A fiber that has just been made has a name and nothing behind it. -/
theorem get?_named (pool : Pool S W) : pool.named.get? pool.next = some .named := by
  simp [named, next, get?]

/-- There has been no fiber of that name before. -/
theorem get?_next (pool : Pool S W) : pool.get? pool.next = none := by
  simp [next, get?]

end Pool

/-- What a change is does not depend on the spawner. -/
theorem Pool.Change.congr {R : Runtime S W} {s : Spawner} {pool pool' : Pool S W}
    {deeds : List (Deed S)} {launched : List (Job S)}
    (h : Change { R with spawner := s } pool pool' deeds launched) :
    Change R pool pool' deeds launched := by
  cases h with
  | quiet fibers queue => exact .quiet fibers queue
  | told stage fibers queue => exact .told stage fibers queue
  | made fibers queue => exact .made fibers queue
  | passed before passes after queue =>
    refine .passed before ?_ after queue
    cases passes with
    | kept action => exact .kept action
    | queued action => exact .queued action
    | launched action => exact .launched action
    | discarded action => exact .discarded action
    | begun action => exact .begun action
    | thrownAway action => exact .thrownAway action
    | ended outcome => exact .ended outcome

namespace Scene

/-- The scene in which one more fiber has just been built, which recomputes. -/
def recomputing (scene : Scene S W α) (action : S.Action) : Scene S W α where
  pool := scene.pool.named.keep scene.pool.next action
  callers := scene.callers
  jobs := scene.jobs

/-- The scene in which one more fiber has just been built, which memoizes. -/
def memoizing (R : Runtime S W) (scene : Scene S W α) (action : S.Action) : Scene S W α where
  pool := (scene.pool.named.start R scene.pool.next action).2
  callers := scene.callers
  jobs := (scene.pool.named.start R scene.pool.next action).1.onto scene.jobs

variable {R : Runtime S W} {action : S.Action} {scene : Scene S W α}

/-- A computation that builds a fiber comes to such scenes by its next moves, and goes on with the
fiber at hand. -/
theorem trail_building (R : Runtime S W) (pool : Pool S W) (seat : Seat S α β) (action : S.Action)
    (rest : FiberId → Comp S β) :
    (∃ entries, Trail (Incident R)
      (seat.scene pool .none (.base (Comp.newFiber.bind fun fiber =>
        (Comp.keep fiber action).bind fun _ => rest fiber))) entries
      ((seat.scene pool .none (.base (rest pool.next))).recomputing action)) ∧
    ∃ entries, Trail (Incident R)
      (seat.scene pool .none (.base (Comp.newFiber.bind fun fiber =>
        (Comp.start fiber action).bind fun _ => rest fiber))) entries
      ((seat.scene pool .none (.base (rest pool.next))).memoizing R action) := by
  have hmade (build : FiberId → Comp S Unit) :
      (Thread.base (Comp.newFiber.bind fun fiber => (build fiber).bind fun _ => rest fiber)).move
          R pool =
        (.moved (.base ((build pool.next).bind fun _ => rest pool.next)) .none, pool.named) := rfl
  constructor
  · have hkept : (Thread.base ((Comp.keep pool.next action).bind fun _ => rest pool.next)).move
          R pool.named =
        (.moved (.base (rest pool.next)) .none, pool.named.keep pool.next action) := rfl
    have htrail := (Trail.single (seat.incident (hmade fun fiber => .keep fiber action))).tail
      (seat.incident hkept)
    cases seat <;> exact ⟨_, htrail⟩
  · have hstarted : (Thread.base ((Comp.start pool.next action).bind fun _ => rest pool.next)).move
          R pool.named =
        (.moved (.base (rest pool.next)) (pool.named.start R pool.next action).1,
          (pool.named.start R pool.next action).2) := rfl
    have htrail := (Trail.single (seat.incident (hmade fun fiber => .start fiber action))).tail
      (seat.incident hstarted)
    cases seat <;> exact ⟨_, htrail⟩

/-- What it takes to build a fiber that memoizes. -/
def buildDeeds (R : Runtime S W) (scene : Scene S W α) (action : S.Action) : List (Deed S) :=
  scene.pool.named.startDeeds R scene.pool.next action

theorem Recorded.named {deeds : List (Deed S)} (h : Recorded R scene deeds) :
    Recorded R ⟨scene.pool.named, scene.callers, scene.jobs⟩ deeds := by
  have hmade : Pool.Change R scene.pool scene.pool.named [] [] := .made rfl rfl
  rw [← List.append_nil deeds]
  exact h.change hmade (by simp) (.refl _) (goOn_self R _)

theorem Recorded.recomputing {deeds : List (Deed S)} (h : Recorded R scene deeds)
    (action : S.Action) : Recorded R (scene.recomputing action) deeds := by
  rw [← List.append_nil deeds]
  exact h.named.change (Pool.change_keep R scene.pool.next action scene.pool.named) (by simp)
    (.refl _) (goOn_self R _)

theorem Recorded.memoizing {deeds : List (Deed S)} (h : Recorded R scene deeds) (s : Spawner)
    (action : S.Action) :
    Recorded R (scene.memoizing { R with spawner := s } action)
      (deeds ++ scene.buildDeeds { R with spawner := s } action) := by
  refine h.named.change (Pool.change_start { R with spawner := s } scene.pool.next action
    scene.pool.named).congr ?_ ?_ (goOn_onto R _ (goOn_self R _))
  · exact Comp.ended_not_mem_deeds { R with spawner := s } scene.pool.named
      (Comp.start scene.pool.next action)
  · rw [← List.map_append]
    exact (Launch.onto_perm _ _).map _

theorem Recorded.counted {deeds : List (Deed S)} (h : Recorded R scene deeds) : scene.Counted :=
  ⟨h.queue, h.jobs⟩

/-- The action of the fiber is handed over, and if the spawner does not throw away its job, the
fiber waits or runs from then on. -/
theorem buildDeeds_eq {s : Spawner} (hs : s ≠ .discarding) (R : Runtime S W) (action : S.Action)
    (scene : Scene S W α) :
    .handed scene.pool.next action ∈ scene.buildDeeds { R with spawner := s } action ∧
    ((scene.memoizing { R with spawner := s } action).pool.get? scene.pool.next = some .running ∨
      (scene.memoizing { R with spawner := s } action).pool.get? scene.pool.next =
        some (.waiting action)) := by
  have hnamed := scene.pool.get?_named
  rw [buildDeeds, Pool.startDeeds, memoizing, Pool.start, hnamed]
  cases s with
  | inline | background =>
    exact ⟨by simp, .inl (Pool.get?_of_set rfl (by simpa using hnamed))⟩
  | queued =>
    exact ⟨by simp, .inr (Pool.get?_of_set rfl (by simpa using hnamed))⟩
  | discarding => exact absurd rfl hs

/-- At first the executions differ in the fiber only that has been built. -/
theorem beside_of_built {deeds : List (Deed S)} (hrecorded : Recorded R scene deeds) {s : Spawner}
    (hs : s ≠ .discarding) (action : S.Action) :
    (scene.recomputing action).Beside R scene.pool.next action 0
      (scene.memoizing { R with spawner := s } action) := by
  have hnamed := scene.pool.get?_named
  have hkept : scene.pool.named.keep scene.pool.next action =
      scene.pool.named.set scene.pool.next (.recomputing action) := by
    rw [Pool.keep, hnamed]
  have hmem : scene.pool.next ∈ ({scene.pool.next} : Set FiberId) := Set.mem_singleton _
  -- No job under way is that of the fiber.
  have hjobs : ∀ job ∈ scene.jobs, job.fiber ≠ scene.pool.next := by
    intro job hjob hfiber
    have hrunning := hrecorded.running hjob
    rw [hfiber, scene.pool.get?_next] at hrunning
    cases hrunning
  refine ⟨⟨?_, ?_, ?_, ?_⟩, 0, 0, rfl, ?_, ?_⟩
  · rw [recomputing, hkept]
    exact ((Pool.twins_set hmem _ _).symm Eq.symm).trans
      (Pool.twins_start { R with spawner := s } hmem action _) Eq.trans
  · rw [recomputing, hkept, memoizing, (Pool.told_start ..).2]
    rfl
  · rw [recomputing, hkept]
    exact Pool.get?_of_set rfl hnamed
  · obtain hrunning | hwaiting := (buildDeeds_eq hs R action scene).2
    · rw [hrunning]
      exact .running
    · rw [hwaiting]
      exact .waiting
  · refine .refl _ fun main _ => ?_
    cases main with
    | running thread => exact .running (.same thread)
    | ended outcome => exact .ended outcome
  · refine Jobs.Beside.launch_own ⟨?_, ?_⟩ fun job hjob =>
      Pool.eq_of_start_launched (R := { R with spawner := s }) hjob
    · have hothers : otherJobs {scene.pool.next} scene.jobs = scene.jobs := by
        refine List.filter_eq_self.mpr fun job hjob => ?_
        simpa using hjobs job hjob
      rw [hothers]
      exact .refl _ fun job hjob => .mk (hjobs job hjob) (.same job.thread)
    · exact fun job hjob hfiber => absurd hfiber (hjobs job hjob)

/-! ## Whole stories -/

/-- How far two executions have got side by side. -/
structure Alongside (R : Runtime S W) (fiber : FiberId) (action : S.Action) (n : Nat)
    (entries entries' : List (Entry S)) (scene scene' : Scene S W α) : Prop where
  beside : scene.Beside R fiber action n scene'
  shared : sharedEntries fiber entries' = sharedEntries fiber entries
  reads : (readFibers entries).count fiber = (readFibers entries').count fiber + n
  value : 0 < (readFibers entries').count fiber →
    ∃ v, (Thread.base (R.act action)).Runs R scene.pool (.base (.done v))

/-- What can be seen of two executions is alike, of which one builds a fiber that recomputes, and
the other one that memoizes. -/
structure Alike (R : Runtime S W) (s : Spawner) (scene : Scene S W α) (action : S.Action)
    (entries entries' : List (Entry S)) (later later' : Scene S W α) : Prop where
  /-- Each program has ended in both executions, with the same value or fault, or in neither. -/
  outcomes : ∀ (place : Nat) (outcome : Except Fault α),
    later'.callers[place]? = some (.ended outcome) ↔ later.callers[place]? = some (.ended outcome)
  length : later'.callers.length = later.callers.length
  /-- The same incidents have taken place in the same order, but for the job of the fiber, and for
  what is read and returned. -/
  shared : sharedEntries scene.pool.next entries' = sharedEntries scene.pool.next entries
  events : later'.pool.events = later.pool.events
  names : later'.pool.nameOf = later.pool.nameOf
  world : later'.pool.world = later.pool.world
  /-- All other fibers are at the same stages. -/
  stages : ∀ other, other ≠ scene.pool.next → later'.pool.get? other = later.pool.get? other
  /-- Readers that are about to run the action in the first execution have not been told yet in the
  second. -/
  reads : (readFibers entries').count scene.pool.next ≤ (readFibers entries).count scene.pool.next
  /-- If nothing is left to be done, there are no such readers. -/
  reads_eq : (∀ main ∈ later.callers, ∃ outcome, main = .ended outcome) → later.jobs = [] →
    (readFibers entries').count scene.pool.next = (readFibers entries).count scene.pool.next
  /-- Whoever has been told in the second execution has been told of the value of the action. -/
  value : scene.pool.next ∈ readFibers entries' →
    ∃ v, (Thread.base (R.act action)).Runs R later.pool (.base (.done v)) ∧
      later'.pool.get? scene.pool.next = some (.ended (.value v))
  /-- In the first execution the action is run once for each reader. -/
  executions : executions scene.pool.next entries = (readFibers entries).count scene.pool.next
  /-- In the second it is run once, unless it still waits in the queue. -/
  executions_eq :
    (scene.buildDeeds { R with spawner := s } action).countP (Deed.begins scene.pool.next) +
      FiberPrograms.executions scene.pool.next entries' +
      later'.pool.queue.toList.count scene.pool.next = 1

/-- Both executions go on, and remain side by side. -/
theorem Alongside.extend {fiber : FiberId} {H : Holdings S} {P : Set FiberId} {n k : Nat}
    {scene' scene₁ scene₁' : Scene S W α} {entries entries' more more' : List (Entry S)}
    (hact : (R.act action).PureWithin H P (Value.Within H P))
    (hpool : scene.pool.PureOn H R.toMeaning P)
    (hkeeps : scene.pool.KeepsReady Set.univ scene₁.pool)
    (h : Alongside R fiber action n entries entries' scene scene')
    (beside : scene₁.Beside R fiber action k scene₁')
    (shared : sharedEntries fiber more' = sharedEntries fiber more)
    (reads : (readFibers more).count fiber + n = (readFibers more').count fiber + k)
    (value : 0 < (readFibers more').count fiber →
      ∃ v, (Thread.base (R.act action)).Runs R scene₁.pool (.base (.done v))) :
    Alongside R fiber action k (entries ++ more) (entries' ++ more') scene₁ scene₁' where
  beside := beside
  shared := by rw [sharedEntries_append, sharedEntries_append, h.shared, shared]
  reads := by
    have hreads := h.reads
    rw [readFibers_append, readFibers_append, List.count_append, List.count_append]
    omega
  value hread := by
    rw [readFibers_append, List.count_append] at hread
    by_cases hmore : 0 < (readFibers more').count fiber
    · exact value hmore
    · obtain ⟨v, hruns⟩ := h.value (by omega)
      exact ⟨v, hruns.later hact hpool hkeeps.subset⟩

/-- When the executions part, the action has failed. -/
theorem Parts.exists_fails {fiber : FiberId} {entry entry' : Entry S}
    {scene₁ scene' scene₁' : Scene S W α}
    (h : Parts R fiber action scene entry scene₁ scene' entry' scene₁') :
    ∃ cause, (Thread.base (R.act action)).Runs R scene.pool (.base (.fail cause)) := by
  obtain ⟨-, -, fails, -⟩ := h
  exact ⟨_, by rwa [Seat.pool_scene]⟩

/-- If the action has failed, nobody has been told of a value. -/
theorem Alongside.untold {fiber : FiberId} {n : Nat} {scene' : Scene S W α}
    {entries entries' : List (Entry S)} {cause : Fault}
    (h : Alongside R fiber action n entries entries' scene scene')
    (fails : (Thread.base (R.act action)).Runs R scene.pool (.base (.fail cause))) :
    fiber ∉ readFibers entries' := by
  intro hread
  obtain ⟨v, hruns⟩ := h.value (List.count_pos_iff.mpr hread)
  exact fails.not_value hruns

/-- What the execution has to be like in which the fiber recomputes: all code finds out about the
fiber by reading it only, and whatever happens, the fibers that its action may read do as pure
actions do. -/
structure Steady (R : Runtime S W) (fiber : FiberId) (H : Holdings S) (P : Set FiberId)
    (scene : Scene S W α) : Prop where
  counted : scene.Counted
  confined : scene.Confined (.discreet fiber) (.discreet fiber)
  pure : ∀ {entries later}, Trail (Incident R) scene entries later →
    later.pool.PureOn H R.toMeaning P

theorem Steady.story {H : Holdings S} {P : Set FiberId} {fiber : FiberId}
    {entries : List (Entry S)} {later : Scene S W α}
    (hcode : R.toInterpreter.CodeConfined (.discreet fiber)) (h : scene.Steady R fiber H P)
    (story : Trail (Incident R) scene entries later) : later.Steady R fiber H P where
  counted := h.counted.story story
  confined := by
    have hR := Interpreter.confined_of_code hcode (Permit.interprets_discreet fiber)
    induction story with
    | refl => exact h.confined
    | tail _ last ih => exact ih.incident hR hR last
  pure more := h.pure (story.trans more)

/-- The moment in which two executions part, which have been alike until then: nobody has been told
of the fiber in the second, and now the action has failed. -/
inductive Parting (R : Runtime S W) (s : Spawner) (scene : Scene S W α) (action : S.Action)
    (entries : List (Entry S)) (entry : Entry S) (entries' : List (Entry S)) (entry' : Entry S) :
    Prop
  | mk {later later₁ later' later₁' : Scene S W α}
      (story : Trail (Incident R) (scene.recomputing action) entries later)
      (story' : Trail (Incident R) (scene.memoizing { R with spawner := s } action) entries' later')
      (alike : Alike R s scene action entries entries' later later')
      (untold : scene.pool.next ∉ readFibers entries') (incident : Incident R later [entry] later₁)
      (incident' : Incident R later' [entry'] later₁')
      (parts : Parts R scene.pool.next action later entry later₁ later' entry' later₁')

section Stories

variable {deeds : List (Deed S)} (hrecorded : Recorded R scene deeds) {s : Spawner}
  (hs : s ≠ .discarding)
  {later later' : Scene S W α} {entries entries' : List (Entry S)} {n : Nat}

include hrecorded

/-- A fiber is on no record before it is built. -/
theorem countP_begins_next : deeds.countP (Deed.begins scene.pool.next) = 0 := by
  have hbefore := hrecorded.life scene.pool.next
  rw [scene.pool.get?_next] at hbefore
  rw [← Deed.countP_begins_lifeline]
  generalize Deed.lifeline scene.pool.next deeds = before at hbefore ⊢
  cases hbefore
  rfl

include hs

/-- Whoever has been told of the fiber that memoizes has been told of its value. -/
theorem Alongside.told_value
    (story' : Trail (Incident R) (scene.memoizing { R with spawner := s } action) entries' later')
    (h : Alongside R scene.pool.next action n entries entries' later later')
    (hread : scene.pool.next ∈ readFibers entries') :
    ∃ v, (Thread.base (R.act action)).Runs R later.pool (.base (.done v)) ∧
      later'.pool.get? scene.pool.next = some (.ended (.value v)) := by
  have hhanded := List.mem_append_right deeds (buildDeeds_eq hs R action scene).1
  have hrecorded' := (hrecorded.memoizing s action).story story'
  have hbacks := h.beside.pools.backs
  obtain ⟨v, hruns⟩ := h.value (List.count_pos_iff.mpr hread)
  obtain ⟨outcome, htold⟩ := exists_told (hrecorded.memoizing s action) hhanded story' hread
  obtain ⟨ending, hended, -⟩ := hrecorded'.told (List.mem_append_right _ htold)
  refine ⟨v, hruns, ?_⟩
  rw [hended] at hbacks ⊢
  cases hbacks with
  | @ended outcome hruns' =>
    obtain rfl : .ok v = outcome := hruns'.outcome_unique hruns
    rfl

/-- The action of the fiber that memoizes is run once, unless it still waits in the queue. -/
theorem executions_of_memoizing
    (story' : Trail (Incident R) (scene.memoizing { R with spawner := s } action) entries' later')
    (hbacks : Fiber.Backs R action later.pool (later'.pool.get? scene.pool.next)) :
    (scene.buildDeeds { R with spawner := s } action).countP (Deed.begins scene.pool.next) +
      executions scene.pool.next entries' + later'.pool.queue.toList.count scene.pool.next = 1 := by
  have hhanded := List.mem_append_right deeds (buildDeeds_eq hs R action scene).1
  have hrecorded' := (hrecorded.memoizing s action).story story'
  have hlife := hrecorded'.life scene.pool.next
  have hcount := Deed.countP_begins_lifeline scene.pool.next
    (deeds ++ scene.buildDeeds { R with spawner := s } action ++ entries'.flatMap Entry.deeds)
  rw [List.countP_append, List.countP_append, countP_begins_next hrecorded, Nat.zero_add] at hcount
  rw [executions_of_handed (hrecorded.memoizing s action) hhanded story', ← hcount,
    hrecorded'.queue]
  -- By cases on the life of the fiber so far, which has begun with its action being handed over.
  generalize later'.pool.get? scene.pool.next = stage at hbacks hlife ⊢
  generalize Deed.lifeline scene.pool.next _ = total at hlife ⊢
  cases hlife with
  | unmade | named | recomputing => cases hbacks
  | waiting | running | ended => simp [Deed.begins, Fiber.isWaiting]
  | dropped action =>
    generalize hstage : some (Fiber.ended Ending.dropped) = stage at hbacks
    cases hbacks with
    | waiting | running => cases hstage
    | @ended outcome => cases outcome <;> cases hstage

/-- Executions that have got side by side are alike. -/
theorem Alongside.alike
    (story : Trail (Incident R) (scene.recomputing action) entries later)
    (story' : Trail (Incident R) (scene.memoizing { R with spawner := s } action) entries' later')
    (h : Alongside R scene.pool.next action n entries entries' later later') :
    Alike R s scene action entries entries' later later' := by
  have hreads := h.reads
  obtain ⟨hpools, m, k, rfl, hcallers, hjobs⟩ := h.beside
  exact {
    outcomes := outcomes_of_beside hcallers
    length := hcallers.length_eq
    shared := h.shared
    events := hpools.events
    names := by
      funext fiber
      rw [Pool.nameOf, Pool.nameOf, hpools.twins.sighted]
    world := hpools.twins.world.symm
    stages := fun other hother => hpools.twins.get? hother
    reads := by omega
    reads_eq := fun hended hnone => by
      have hm : m = 0 := hcallers.eq_zero fun hmem hmain => by
        obtain ⟨outcome, heq⟩ := hended _ hmem
        exact hmain.eq_zero heq
      have hk : k = 0 := hjobs.others.eq_zero fun hmem => by
        rw [hnone] at hmem
        cases hmem
      omega
    value := h.told_value hrecorded hs story'
    executions := executions_of_recomputing (hrecorded.recomputing action).counted
      (beside_of_built hrecorded hs action).pools.recomputing story
    executions_eq := executions_of_memoizing hrecorded hs story' hpools.backs }

variable {H : Holdings S} {P : Set FiberId} {last last' : Scene S W α} {more more' : List (Entry S)}
  (hcode : R.toInterpreter.CodeConfined (.discreet scene.pool.next))
  (hact : (R.act action).PureWithin H P (Value.Within H P)) (hapart : scene.pool.next ∉ P)
  (hsteady : (scene.recomputing action).Steady R scene.pool.next H P)

include hcode hact hapart hsteady

/-- Whatever the first execution goes on to, the second goes on to as well, or they part. -/
theorem Alongside.follow (story : Trail (Incident R) (scene.recomputing action) entries later)
    (story' : Trail (Incident R) (scene.memoizing { R with spawner := s } action) entries' later')
    (h : Alongside R scene.pool.next action n entries entries' later later')
    (goesOn : Trail (Incident R) later more last) :
    (∃ more' last' n, Trail (Incident R) later' more' last' ∧
      Alongside R scene.pool.next action n (entries ++ more) (entries' ++ more') last last') ∨
    ∃ es entry rest es' entry', entries ++ more = es ++ entry :: rest ∧
      Parting R s scene action es entry es' entry' := by
  -- By induction on what the first execution goes on to: once they have parted, that stays so.
  induction goesOn with
  | refl => exact .inl ⟨[], later', n, .refl, by simpa using h⟩
  | @tail last last₁ more step goesOn incident ih =>
    obtain ⟨entry, rfl⟩ := incident.exists_entry
    obtain ⟨more', last', n, goesOn', h⟩ | ⟨es, entry₁, rest, es', entry', heq, hparting⟩ := ih
    · have hlast := hsteady.story hcode (story.trans goesOn)
      have hlast' := (((hrecorded.memoizing s action).story story').story goesOn').counted
      obtain ⟨story₁, hbeside, hshared, hreads, hvalue⟩ |
          ⟨story₁, hbeside, hsilent, hincident, hparts⟩ :=
        h.beside.follow hact hapart (hlast.pure .refl) hlast.counted hlast' hlast.confined incident
      · exact .inl ⟨_, _, _, goesOn'.trans story₁, by
          simpa using h.extend hact (hlast.pure .refl) (incident.keepsReady hlast.counted) hbeside
            hshared hreads hvalue⟩
      · have hnone : Alongside R scene.pool.next action n (entries ++ more ++ []) _ last _ :=
          h.extend hact (hlast.pure .refl) (Pool.keepsReady_refl _) hbeside hsilent.shared
            (by rw [hsilent.reads]; rfl) (fun hread => by rw [hsilent.reads] at hread; cases hread)
        rw [List.append_nil] at hnone
        have hstory := story.trans goesOn
        have hstory' := (story'.trans goesOn').trans story₁
        obtain ⟨cause, hfails⟩ := hparts.exists_fails
        have hparting := Parting.mk hstory hstory' (hnone.alike hrecorded hs hstory hstory')
          (hnone.untold hfails) incident hincident hparts
        exact .inr ⟨entries ++ more, entry, [], _, _, by simp, hparting⟩
    · refine .inr ⟨es, entry₁, rest ++ [entry], es', entry', ?_, hparting⟩
      rw [← List.append_assoc, heq]
      simp

/-- Whatever the second execution goes on to, in which the job of the fiber is not thrown away, the
first goes on to as well, or they part. -/
theorem exists_alongside
    (story' : Trail (Incident R) (scene.memoizing { R with spawner := s } action) entries' later')
    (hkept : ∀ entry' ∈ entries', .dropped scene.pool.next ∉ entry'.deeds) :
    (∃ entries later n, Trail (Incident R) (scene.recomputing action) entries later ∧
      Alongside R scene.pool.next action n entries entries' later later') ∨
    ∃ es entry es' entry' rest', entries' = es' ++ entry' :: rest' ∧
      Parting R s scene action es entry es' entry' := by
  -- By induction on the second execution, from where the fiber is built in both.
  induction story' with
  | refl =>
    exact .inl ⟨[], _, 0, .refl, beside_of_built hrecorded hs action, rfl, rfl,
      fun h => by cases h⟩
  | @tail later' later₁' entries' last story' incident' ih =>
    obtain ⟨entry', rfl⟩ := incident'.exists_entry
    obtain ⟨entries, later, n, story, h⟩ | ⟨es, entry, es', entry₁', rest', heq, hparting⟩ :=
      ih fun entry' hentry' => hkept entry' (List.mem_append_left _ hentry')
    · have hlater := hsteady.story hcode story
      have hlater' := ((hrecorded.memoizing s action).story story').counted
      have hdropped := hkept entry' (List.mem_append_right _ List.mem_cons_self)
      obtain ⟨story₁, hbeside, hshared, hreads, hvalue⟩ |
          ⟨story₁, hbeside, hshared, hreads, incident, hparts⟩ :=
        h.beside.matched hact hapart (hlater.pure .refl) hlater.counted hlater' hlater.confined
          incident' hdropped
      · exact .inl ⟨_, _, _, story.trans story₁, h.extend hact (hlater.pure .refl)
          (keepsReady_of_story hlater.counted story₁) hbeside hshared hreads hvalue⟩
      · have hnone : Alongside R scene.pool.next action _ _ (entries' ++ []) _ later' :=
          h.extend hact (hlater.pure .refl) (keepsReady_of_story hlater.counted story₁) hbeside
            hshared.symm (by rw [hreads]; simp [readFibers]) (fun hread => by cases hread)
        rw [List.append_nil] at hnone
        have hstory := story.trans story₁
        obtain ⟨cause, hfails⟩ := hparts.exists_fails
        have hparting := Parting.mk hstory story' (hnone.alike hrecorded hs hstory story')
          (hnone.untold hfails) incident incident' hparts
        exact .inr ⟨_, _, entries', entry', [], rfl, hparting⟩
    · refine .inr ⟨es, entry, es', entry₁', rest' ++ [entry'], ?_, hparting⟩
      rw [heq]
      simp

end Stories

/-- Fibers that are ready do as pure actions do for good, if they do so now. -/
theorem pureOn_of_ready {H : Holdings S} {P : Set FiberId} {entries : List (Entry S)}
    {later : Scene S W α} (hcounted : scene.Counted) (hpure : scene.pool.PureOn H R.toMeaning P)
    (hready : ∀ fiber ∈ P, ∃ stage, scene.pool.get? fiber = some stage ∧ stage.isReady)
    (story : Trail (Incident R) scene entries later) : later.pool.PureOn H R.toMeaning P := by
  have hsame {fiber : FiberId} (hfiber : fiber ∈ P) :
      later.pool.get? fiber = scene.pool.get? fiber := by
    obtain ⟨stage, hstage, hready⟩ := hready fiber hfiber
    rw [hstage, keepsReady_of_story hcounted story (Set.mem_univ fiber) hstage hready]
  constructor
  · intro fiber action hfiber hstage
    exact hpure.recomputing hfiber ((hsame hfiber).symm.trans hstage)
  · intro fiber v hfiber hstage
    exact hpure.value hfiber ((hsame hfiber).symm.trans hstage)

/-- **Backends agree on pure actions.** Let a fiber be built at any moment. Its action is pure: it
has no effects and starts nothing, but may read fibers of a set that do as pure actions do. Whatever
programs find out about the fiber, they find out by reading it or waiting for it, in any order and
as often as they like. In one execution it recomputes, in the other one it memoizes, with a spawner
that does not throw its job away.

Then whatever happens in the first can happen in the second, and whatever happens in the second can
happen in the first: programs come to the same values and faults, with the same events. And wherever
the second has got, whatever is to be expected of the first is to be expected of it, too. The action
is run once for each reader in the first execution, and exactly once in the second.

If the action fails, this holds until somebody is told of the fiber for the first time. That reader
is told of the fault itself in the first execution, and in the second of a fault that reads "fiber …
panicked: …". If the action never fails, the executions never part. -/
theorem backends_agree {R : Runtime S W} {s : Spawner} (hs : s ≠ .discarding) {world : W}
    {scene : Scene S W α} {deeds : List (Deed S)}
    (history : Trail (Step R) (opening world) deeds scene) {action : S.Action} {H : Holdings S}
    {P : Set FiberId} (hcode : R.toInterpreter.CodeConfined (.discreet scene.pool.next))
    (hscene : scene.Confined (.discreet scene.pool.next) (.discreet scene.pool.next))
    (hact : (R.act action).PureWithin H P (Value.Within H P)) (hapart : scene.pool.next ∉ P)
    (hpure : ∀ {entries later}, Trail (Incident R) (scene.recomputing action) entries later →
      later.pool.PureOn H R.toMeaning P) :
    (∀ {entries later}, Trail (Incident R) (scene.recomputing action) entries later →
      (∃ entries' later',
        Trail (Incident R) (scene.memoizing { R with spawner := s } action) entries' later' ∧
          Alike R s scene action entries entries' later later') ∨
      ∃ es entry rest es' entry', entries = es ++ entry :: rest ∧
        Parting R s scene action es entry es' entry') ∧
    (∀ {entries' later'},
      Trail (Incident R) (scene.memoizing { R with spawner := s } action) entries' later' →
      (∀ entry' ∈ entries', .dropped scene.pool.next ∉ entry'.deeds) →
      (∃ entries later, Trail (Incident R) (scene.recomputing action) entries later ∧
        Alike R s scene action entries entries' later later' ∧
        ∀ {more last}, Trail (Incident R) later more last →
          (∃ more' last', Trail (Incident R) later' more' last' ∧
            Alike R s scene action (entries ++ more) (entries' ++ more') last last') ∨
          ∃ es entry rest es' entry', entries ++ more = es ++ entry :: rest ∧
            Parting R s scene action es entry es' entry') ∨
      ∃ es entry es' entry' rest', entries' = es' ++ entry' :: rest' ∧
        Parting R s scene action es entry es' entry') ∧
    ((∀ {entries later cause}, Trail (Incident R) (scene.recomputing action) entries later →
        ¬ (Thread.base (R.act action)).Runs R later.pool (.base (.fail cause))) →
      ∀ es entry es' entry', ¬ Parting R s scene action es entry es' entry') ∧
    ∀ (name : FiberId → String) {cause : Fault} {words : String}, cause.text? name = some words →
      (Fault.fiberFailed scene.pool.next cause).text? name =
        some ("fiber " ++ name scene.pool.next ++ " panicked: " ++ words) := by
  have hrecorded := recorded_of_trail history
  have hsteady : (scene.recomputing action).Steady R scene.pool.next H P :=
    ⟨(hrecorded.recomputing action).counted, ⟨hscene.callersConfined, hscene.jobsConfined⟩, hpure⟩
  refine ⟨fun {entries later} story => ?_, fun {entries' later'} story' hkept => ?_, ?_, ?_⟩
  · have hstart : Alongside R scene.pool.next action 0 [] [] (scene.recomputing action)
        (scene.memoizing { R with spawner := s } action) :=
      ⟨beside_of_built hrecorded hs action, rfl, rfl, fun h => by cases h⟩
    obtain ⟨entries', later', n, story', h⟩ | hparts :=
      hstart.follow hrecorded hs hcode hact hapart hsteady .refl .refl story
    · exact .inl ⟨entries', later', story', h.alike hrecorded hs story story'⟩
    · exact .inr hparts
  · obtain ⟨entries, later, n, story, h⟩ | hparts :=
      exists_alongside hrecorded hs hcode hact hapart hsteady story' hkept
    · refine .inl ⟨entries, later, story, h.alike hrecorded hs story story', ?_⟩
      intro more last goesOn
      obtain ⟨more', last', n, goesOn', hlast⟩ | hparts :=
        h.follow hrecorded hs hcode hact hapart hsteady story story' goesOn
      · exact .inl ⟨more', last', goesOn',
          hlast.alike hrecorded hs (story.trans goesOn) (story'.trans goesOn')⟩
      · exact .inr hparts
    · exact .inr hparts
  · rintro hnever es entry es' entry' ⟨story, -, -, -, -, -, parts⟩
    obtain ⟨cause, hfails⟩ := parts.exists_fails
    exact hnever story hfails
  · intro name cause words hwords
    rw [Fault.text?_fiberFailed, Fault.message, hwords, Option.getD_some]

/-- The code of relays finds out about fibers by reading them only. -/
theorem relays_discreet (fiber : FiberId) :
    relays.toInterpreter.CodeConfined (.discreet fiber) where
  build code v := Comp.confined_ofExcept _
  compute code v := trivial
  act action := by
    cases action with
    | seven => trivial
    | after other => exact fun outcome => Comp.confined_ofExcept outcome
  observer event := by
    cases event with
    | fork other place => exact ⟨trivial, fun _ => ⟨trivial, fun _ => trivial⟩⟩
    | _ => exact ⟨trivial, fun _ => trivial⟩

/-- A program that reads the second fiber, and then waits for it once more. -/
def rereading : Comp relay relay.Value :=
  (Comp.read ⟨1⟩).bind fun _ => .interpret relay.number (.instr (.await ⟨1⟩))

/-- It is about to do so, and the first fiber has been built, which recomputes. -/
def rereadings : Scene relay Unit relay.Value :=
  recomputing ⟨.empty (), [.running (.base rereading)], []⟩ .seven

/-- The second fiber hands on what the first yields. If it recomputes too, it is run twice, and if
it memoizes, once, though its job waits in the queue at first. -/
theorem backends_agree_rereading :
    ∃ (entries entries' : List (Entry relay)) (later later' : Scene relay Unit relay.Value),
      Trail (Incident relays) (rereadings.recomputing (.after ⟨0⟩)) entries later ∧
      Trail (Incident relays)
        (rereadings.memoizing { relays with spawner := .queued } (.after ⟨0⟩)) entries' later' ∧
      later.callers = [.ended (.ok (.of relay.number (7 : Int64)))] ∧
      executions ⟨1⟩ entries = 2 ∧
      Alike relays .queued rereadings (.after ⟨0⟩) entries entries' later later' := by
  obtain ⟨built, hbuilt⟩ := (trail_building relays (.empty ()) (.caller [] [] [])
    RelayAction.seven fun _ => rereading).1
  have history : Trail (Step relays) (opening ()) _ rereadings :=
    (Trail.single (.call _ [] [] _)).trans (trail_of_story hbuilt)
  have hcounted := ((recorded_of_trail history).recomputing (.after ⟨0⟩)).counted
  have hconfined : rereadings.Confined (.discreet ⟨1⟩) (.discreet ⟨1⟩) := by
    constructor
    · intro thread hthread
      cases List.mem_singleton.mp hthread
      refine .base fun outcome => ?_
      cases outcome with
      | ok v => exact ⟨trivial, fun outcome => Comp.confined_ofExcept outcome⟩
      | error fault => trivial
    · intro job hjob
      cases hjob
  -- The first fiber is there to be read, and it is all that the action reads.
  have hfirst : (rereadings.recomputing (.after ⟨0⟩)).pool.get? ⟨0⟩ = some (.recomputing .seven) :=
    rfl
  have hact : (relays.act (.after ⟨0⟩)).PureWithin relay.holdings {⟨0⟩}
      (Value.Within relay.holdings {⟨0⟩}) := relays_pure.act (Set.Subset.refl _)
  have hpure : (rereadings.recomputing (.after ⟨0⟩)).pool.PureOn relay.holdings
      relays.toMeaning {⟨0⟩} := by
    constructor
    · rintro _ action rfl hstage
      cases hfirst.symm.trans hstage
      exact relays_pure.act (Set.empty_subset _)
    · rintro _ v rfl hstage
      cases hfirst.symm.trans hstage
  have hready : ∀ fiber ∈ ({⟨0⟩} : Set FiberId), ∃ stage,
      (rereadings.recomputing (.after ⟨0⟩)).pool.get? fiber = some stage ∧ stage.isReady := by
    rintro _ rfl
    exact ⟨_, hfirst, rfl⟩
  have hruns : (Thread.base (relays.act (.after ⟨0⟩))).Runs relays
      (rereadings.recomputing (.after ⟨0⟩)).pool
      (.base (.ofExcept (.ok (.of relay.number (7 : Int64))))) := .head rfl (.head rfl .refl)
  obtain ⟨hforth, -, hnever, -⟩ := backends_agree (s := .queued) (by decide) history
    (relays_discreet _) hconfined hact (by decide)
    (pureOn_of_ready hcounted hpure hready)
  have story := trail_alone relays 20 (rereadings.recomputing (.after ⟨0⟩))
  obtain ⟨entries', later', story', halike⟩ | ⟨es, entry, rest, es', entry', -, hparting⟩ :=
    hforth story
  · exact ⟨_, entries', _, later', story, story', rfl, rfl, halike⟩
  · refine absurd hparting (hnever ?_ es entry es' entry')
    intro entries later cause story hfails
    exact hfails.not_value (hruns.later hact hpure (keepsReady_of_story hcounted story).subset)

end Scene

end FiberPrograms
