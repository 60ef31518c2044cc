import FiberPrograms.Proofs.FailingReads
import FiberPrograms.Proofs.Reinterpretation
import FiberPrograms.Scalar

/-!
# Faults that go through chains of fibers

The action of a fiber reads another fiber, whose action reads another, and so on, until there is one
that fails. A fiber that memoizes tells its readers that it has failed, and why; one that recomputes
fails in front of its reader as its action does. So whoever reads the last fiber of the chain is
told of the first fault, with one preface for each fiber in between that memoizes.

## Main definitions

* `Link`, `Link.Chain`: the fibers of a chain, from the last to the first
* `Link.fault`, `Link.preamble`: what the readers of the last fiber are told, and how it is put
* `Link.Stands`: a fiber of the chain is there, and its job has been run if there is one

## Main results

* `Link.message_fault`, `Link.text?_fault`, `Link.fault_of_recomputing`: how the fault is put
* `Link.bound_of_atRead`: readers of the last fiber are bound to be told of it
* `Link.upheld_of_trail`: what holds of the fibers of a chain all through a story
* `Link.chain_fails`: every read of the last fiber fails alike, and nobody else does
-/

namespace FiberPrograms

variable {S : Signature} {W α β : Type}

/-- A fiber of a chain: its action, and whether it memoizes or recomputes. -/
structure Link (S : Signature) where
  fiber : FiberId
  action : S.Action
  memoizing : Bool

namespace Link

variable {R : Runtime S W} {x : Fault} {link : Link S} {links earlier : List (Link S)}

/-! ## What readers are told -/

/-- What readers of the fiber are told if its action fails. -/
def passOn (link : Link S) (cause : Fault) : Fault :=
  if link.memoizing then .fiberFailed link.fiber cause else cause

/-- What readers of the last fiber of a chain are told, when the first action fails. -/
def fault (x : Fault) (links : List (Link S)) : Fault :=
  links.foldr passOn x

/-- What a fiber says before it says why its action failed. -/
def preface (name : FiberId → String) (link : Link S) : String :=
  if link.memoizing then "fiber " ++ name link.fiber ++ " panicked: " else ""

/-- What the fibers of a chain say, one after the other. -/
def preamble (name : FiberId → String) (links : List (Link S)) : String :=
  String.join (links.map (preface name))

theorem fault_cons (x : Fault) (link : Link S) (earlier : List (Link S)) :
    fault x (link :: earlier) = link.passOn (fault x earlier) := rfl

theorem message_passOn (name : FiberId → String) (link : Link S) (cause : Fault) :
    (link.passOn cause).message name = link.preface name ++ cause.message name := by
  cases hlink : link.memoizing <;> simp [passOn, preface, hlink, Fault.message]

theorem preamble_cons (name : FiberId → String) (link : Link S) (earlier : List (Link S)) :
    preamble name (link :: earlier) = link.preface name ++ preamble name earlier := by
  simp [preamble]

/-- The fault is put in the words of each fiber that memoizes, and then in its own. -/
theorem message_fault (name : FiberId → String) (x : Fault) (links : List (Link S)) :
    (fault x links).message name = preamble name links ++ x.message name := by
  induction links with
  | nil => simp [fault, preamble]
  | cons link earlier ih =>
    rw [fault_cons, message_passOn, ih, preamble_cons, String.append_assoc]

/-- Once it has gone through a fiber that memoizes, a fault has words. -/
theorem text?_fault (name : FiberId → String) (x : Fault) (h : ∃ link ∈ links, link.memoizing) :
    (fault x links).text? name = some (preamble name links ++ x.message name) := by
  rw [← message_fault]
  induction links with
  | nil => simp at h
  | cons link earlier ih =>
    rw [fault_cons, passOn]
    cases hlink : link.memoizing with
    | true => simp [Fault.message]
    | false => exact ih (by simpa [hlink] using h)

/-- A fault that goes through no fiber that memoizes stays as it is. -/
theorem fault_of_recomputing (x : Fault) (h : ∀ link ∈ links, link.memoizing = false) :
    fault x links = x := by
  induction links with
  | nil => rfl
  | cons link earlier ih =>
    rw [fault_cons, passOn, h link List.mem_cons_self]
    exact ih fun link hlink => h link (List.mem_cons_of_mem _ hlink)

/-! ## What readers are bound for -/

/-- The stage of a fiber that is ready, if its action comes to a fault. -/
def stage (link : Link S) (cause : Fault) : Fiber S :=
  if link.memoizing then .ended (.failed cause) else .recomputing link.action

/-- A computation that raises a fault by itself, or reads the last fiber of a chain. -/
def Follows (x : Fault) (earlier : List (Link S)) (c : Comp S β) : Prop :=
  match earlier with
  | [] => c.Raises x
  | previous :: _ => c.Reads previous.fiber

/-- In a chain, the first action raises a fault, and each of the others reads the fiber before. The
fibers are listed from the last to the first. -/
def Chain (I : Interpreter S) (x : Fault) : List (Link S) → Prop
  | [] => True
  | link :: earlier => Follows x earlier (I.act link.action) ∧ Chain I x earlier

/-- Those fibers of a chain that are ready are in the stages that befit them. -/
def Sound (x : Fault) : List (Link S) → Pool S W → Prop
  | [], _ => True
  | link :: earlier, pool =>
    (∀ {stage}, pool.get? link.fiber = some stage → stage.isReady →
      stage = link.stage (fault x earlier)) ∧ Sound x earlier pool

/-- Some fiber of a chain is not ready. -/
def Waits (links : List (Link S)) (pool : Pool S W) : Prop :=
  ∃ link ∈ links, ∀ stage, pool.get? link.fiber = some stage → ¬ stage.isReady

theorem Follows.bind {c : Comp S α} (h : Follows x earlier c) (f : α → Comp S β) :
    Follows x earlier (c.bind f) := by
  cases earlier with
  | nil => exact Comp.Raises.bind h f
  | cons previous earlier => exact Comp.Reads.bind h f

/-- Readers of the last fiber are bound to be told of the fault, if its action is bound for it on
top of them. -/
theorem bound_of_act {thread : Thread S α}
    {callers : List (Except Fault S.Value → Comp S (Turn S))}
    {outer : Except Fault S.Value → Comp S α} (hread : thread.AtRead link.fiber callers outer)
    (hact : (Thread.nested (R.act link.action).valued callers outer).BoundFor R
      (Sound x earlier) (Waits earlier) (· = .nested (.fail (fault x earlier)) callers outer)) :
    thread.BoundFor R (Sound x (link :: earlier)) (Waits (link :: earlier))
      (· = .answer callers outer (.error (fault x (link :: earlier)))) := by
  have hmove {pool : Pool S W} {stage : Fiber S} (hpool : Sound x (link :: earlier) pool)
      (hstage : pool.get? link.fiber = some stage) (hready : stage.isReady) :
      thread.move R pool = (.moved (if link.memoizing then
        .answer callers outer (.error (fault x (link :: earlier)))
        else .nested (R.act link.action).valued callers outer) .none, pool) := by
    obtain rfl := hpool.1 hstage hready
    rw [Link.stage] at hstage
    rw [fault_cons, passOn]
    cases hlink : link.memoizing with
    | true =>
      rw [hlink] at hstage
      exact hread.move_of_ended hstage
    | false =>
      rw [hlink] at hstage
      exact hread.move_of_recomputing hstage
  refine .moves (fun pool hpool => ?_) fun pool thread' launch pool' hpool moved => ?_
  · by_cases hready : ∃ stage, pool.get? link.fiber = some stage ∧ stage.isReady
    · obtain ⟨stage, hstage, hready⟩ := hready
      exact .inr ⟨_, _, _, hmove hpool hstage hready⟩
    · have hnot (stage : Fiber S) (hstage : pool.get? link.fiber = some stage) : ¬ stage.isReady :=
        fun hready' => hready ⟨stage, hstage, hready'⟩
      exact .inl ⟨hread.move_of_not_ready hnot, link, List.mem_cons_self, hnot⟩
  · obtain ⟨stage, hstage, hready⟩ := hread.ready_of_move moved
    cases (hmove hpool hstage hready).symm.trans moved
    cases hlink : link.memoizing with
    | true => exact .there rfl
    | false =>
      -- The action fails on top of the reader, who is told.
      have hwaits (pool : Pool S W) : Waits earlier pool → Waits (link :: earlier) pool :=
        fun ⟨other, hother, hnot⟩ => ⟨other, List.mem_cons_of_mem _ hother, hnot⟩
      refine (hact.mono (fun _ hpool => hpool.2) fun pool _ => hwaits pool).trans ?_
      rintro _ rfl
      refine .move (fun pool _ => ⟨_, _, rfl⟩) (.there ?_)
      rw [fault_cons, passOn, hlink]
      rfl

/-- A computation that follows a chain is bound for its fault. -/
theorem bound_of_follows (hobserver : R.observer.Unfailing) (chain : Chain R.toInterpreter x links)
    {host : Comp S β → Thread S α} (hhost : Thread.Hosts host) {c : Comp S β}
    (h : Follows x links c) :
    (host c).BoundFor R (Sound x links) (Waits links) (· = host (.fail (fault x links))) := by
  induction links generalizing β with
  | nil => exact .of_raises hhost h
  | cons link earlier ih =>
    refine .of_reads hhost hobserver h fun {thread callers outer} hread => ?_
    exact bound_of_act hread (ih chain.2 (Thread.hosts_nested callers outer) (chain.1.bind _))

end Link

/-! ## What one step does to fibers and jobs -/

namespace Pool.Change

variable {R : Runtime S W} {pool pool' : Pool S W} {deeds : List (Deed S)} {launched : List (Job S)}
  {fiber : FiberId} {stage : Fiber S} {outcome : Except Fault S.Value}

/-- A fiber whose job has been run had ended before, or its job has ended just now. -/
theorem ended_before (h : Change R pool pool' deeds launched)
    (hended : pool'.get? fiber = some (.ended (.ofOutcome outcome))) :
    pool.get? fiber = some (.ended (.ofOutcome outcome)) ∨ .ended fiber outcome ∈ deeds := by
  cases h with
  | quiet fibers queue => exact .inl (by rwa [get?_congr fibers] at hended)
  | told stage fibers queue => exact .inl (by rwa [get?_congr fibers] at hended)
  | made fibers queue =>
    rw [get?_push fibers] at hended
    split at hended
    · cases hended
    · exact .inl hended
  | @passed other _ stage' _ _ before passes after queue =>
    rw [get?_congr after, get?_set] at hended
    split at hended
    · rename_i hfiber
      obtain rfl := hfiber
      rw [before] at hended
      -- The ways in which a job comes to nothing are no outcomes of jobs.
      generalize hending : Ending.ofOutcome outcome = ending at hended
      cases passes with
      | ended outcome' =>
        cases hended
        obtain rfl := Ending.ofOutcome_injective hending
        exact .inr (List.mem_singleton_self _)
      | discarded action | thrownAway action =>
        cases hended
        cases outcome <;> cases hending
      | _ => cases hended
    · exact .inl hended

end Pool.Change

/-- A computation is where it was, or it has made a move of its own. -/
inductive Main.Next (R : Runtime S W) (pool pool' : Pool S W) (thread : Thread S α) :
    Main S α → Prop
  | still : Next R pool pool' thread (.running thread)
  | moved {thread' : Thread S α} {launch : Launch S}
      (moved : thread.move R pool = (.moved thread' launch, pool')) :
      Next R pool pool' thread (.running thread')
  | ended {outcome : Except Fault α} (ended : thread.move R pool = (.ended outcome, pool')) :
      Next R pool pool' thread (.ended outcome)

namespace Scene

variable {R : Runtime S W} {scene scene' : Scene S W α} {deeds more : List (Deed S)}

/-- A job that begins runs the action that has been handed over for its fiber. -/
theorem Recorded.thread_of_launched {pool' : Pool S W} {launched : List (Job S)}
    (h : Recorded R scene deeds) (hchange : Pool.Change R scene.pool pool' more launched)
    {job : Job S} (hjob : job ∈ launched) :
    ∃ action, .handed job.fiber action ∈ deeds ++ more ∧ job.thread = .base (R.act action) := by
  cases hchange with
  | quiet fibers queue | told stage fibers queue | made fibers queue => cases hjob
  | @passed fiber stage _ _ _ before passes after queue =>
    have hlife := h.life fiber
    rw [before] at hlife
    cases passes with
    | launched action =>
      obtain rfl := List.mem_singleton.mp hjob
      exact ⟨action, by simp [Pool.jobOf], rfl⟩
    | begun action =>
      -- The job comes out of the queue, where it was put when its action was handed over.
      obtain rfl := List.mem_singleton.mp hjob
      generalize hlifeline : Deed.lifeline fiber deeds = lifeline at hlife
      cases hlife
      have hhanded : .handed fiber action ∈ Deed.lifeline fiber deeds := by simp [hlifeline]
      exact ⟨action, List.mem_append_left _ (Deed.mem_lifeline.mp hhanded).1, rfl⟩
    | _ => cases hjob

/-- One step changes the pool by at most one move. Each job after it has begun just now, or was
under way before it, and has made that move if it is not where it was; and it is by that move that a
job ends. -/
theorem Recorded.follow_jobs (h : Recorded R scene deeds) (step : Step R scene more scene') :
    ∃ launched, Pool.Change R scene.pool scene'.pool more launched ∧
      (∀ job ∈ scene'.jobs, job ∈ launched ∨ job ∈ scene.jobs ∨ ∃ thread launch pool',
        ⟨job.fiber, thread⟩ ∈ scene.jobs ∧
          thread.move R scene.pool = (.moved job.thread launch, pool')) ∧
      ∀ {fiber outcome}, .ended fiber outcome ∈ more → ∃ thread pool',
        ⟨fiber, thread⟩ ∈ scene.jobs ∧ thread.move R scene.pool = (.ended outcome, pool') := by
  have honto {jobs : List (Job S)} {launch : Launch S} {job : Job S}
      (hjob : job ∈ launch.onto jobs) : job ∈ launch.jobs ∨ job ∈ jobs :=
    List.mem_append.mp ((launch.onto_perm jobs).mem_iff.mp hjob)
  have hnone {fiber : FiberId} {outcome : Except Fault S.Value} {P : Prop}
      (hended : .ended fiber outcome ∈ ([] : List (Deed S))) : P := by cases hended
  cases step with
  | move move =>
    cases move with
    | caller before after jobs moved =>
      refine ⟨_, Thread.change_of_move moved, fun job hjob => ?_, fun hended => ?_⟩
      · exact (honto hjob).imp_right .inl
      · exact absurd hended (Thread.ended_not_mem_deeds R _ _ _ _)
    | callerEnded before after jobs ended =>
      obtain ⟨-, rfl⟩ := Thread.of_ended ended
      exact ⟨[], .quiet rfl rfl, fun job hjob => .inr (.inl hjob), hnone⟩
    | @job _ _ callers before after fiber thread thread' launch moved =>
      refine ⟨_, Thread.change_of_move moved, fun job hjob => ?_, fun hended => ?_⟩
      · obtain hnew | hold := honto hjob
        · exact .inl hnew
        · -- Of the jobs that were under way, one has moved, and the others are where they were.
          obtain hmem | rfl | hmem : job ∈ before ∨ job = ⟨fiber, thread'⟩ ∨ job ∈ after := by
            simpa using hold
          · exact .inr (.inl (by simp [hmem]))
          · exact .inr (.inr ⟨thread, launch, _, by simp, moved⟩)
          · exact .inr (.inl (by simp [hmem]))
      · exact absurd hended (Thread.ended_not_mem_deeds R _ _ _ _)
    | @jobEnded _ _ callers before after fiber thread outcome ended =>
      obtain ⟨-, rfl⟩ := Thread.of_ended ended
      have hjob : ⟨fiber, thread⟩ ∈ before ++ ⟨fiber, thread⟩ :: after := by simp
      refine ⟨[], Pool.change_finish (h.running hjob) R.level outcome, fun job hrest => ?_,
        fun hended => ?_⟩
      · refine .inr (.inl ?_)
        obtain hmem | hmem := List.mem_append.mp hrest <;> simp [hmem]
      · cases List.mem_singleton.mp hended
        exact ⟨thread, _, hjob, ended⟩
    | jobBegun callers jobs started =>
      refine ⟨_, Pool.change_startAt started, fun job hjob => ?_, by simp⟩
      exact (List.mem_cons.mp hjob).imp List.mem_singleton.mpr .inl
  | call pool callers jobs main =>
    exact ⟨[], .quiet rfl rfl, fun job hjob => .inr (.inl hjob), hnone⟩
  | hangUp pool before after main jobs =>
    exact ⟨[], .quiet rfl rfl, fun job hjob => .inr (.inl hjob), hnone⟩
  | @drop pool position fiber callers jobs queued =>
    obtain ⟨action, hwaiting⟩ := h.waiting (Array.mem_toList_iff.mpr (Array.mem_of_getElem? queued))
    exact ⟨[], Pool.change_release queued hwaiting R.level, fun job hjob => .inr (.inl hjob),
      by simp⟩
  | outside callers jobs fibers queue =>
    exact ⟨[], .quiet fibers queue, fun job hjob => .inr (.inl hjob), hnone⟩

/-- A computation that uses the fibers is where it was, or it has made a move of its own. -/
theorem Move.exists_next (h : Move R scene deeds scene') {place : Nat} {thread : Thread S α}
    (hthread : scene.callers[place]? = some (.running thread)) :
    ∃ main, scene'.callers[place]? = some main ∧ main.Next R scene.pool scene'.pool thread := by
  cases h with
  | caller before after jobs moved =>
    by_cases hplace : place = before.length
    · subst hplace
      obtain rfl : _ = thread := by simpa using hthread
      exact ⟨_, by simp, .moved moved⟩
    · rw [getElem?_exchange before after _ _ hplace] at hthread
      exact ⟨_, hthread, .still⟩
  | callerEnded before after jobs ended =>
    by_cases hplace : place = before.length
    · subst hplace
      obtain rfl : _ = thread := by simpa using hthread
      exact ⟨_, by simp, .ended ended⟩
    · rw [getElem?_exchange before after _ _ hplace] at hthread
      exact ⟨_, hthread, .still⟩
  | job callers before after moved => exact ⟨_, hthread, .still⟩
  | jobEnded callers before after ended => exact ⟨_, hthread, .still⟩
  | jobBegun callers jobs started => exact ⟨_, hthread, .still⟩

end Scene

namespace Link

variable {R : Runtime S W} {x : Fault} {link : Link S} {links earlier : List (Link S)}
  {pool pool' : Pool S W} {deeds more : List (Deed S)} {launched : List (Job S)}

/-! ## What holds of a chain all through a story -/

/-- A fiber of the chain is there: it recomputes, or its action has been handed over, and its job
has been run. -/
inductive Stands (pool : Pool S W) (deeds : List (Deed S)) (link : Link S) : Prop
  | recomputing (h : link.memoizing = false)
      (kept : pool.get? link.fiber = some (.recomputing link.action)) : Stands pool deeds link
  | memoizing {outcome : Except Fault S.Value} (h : link.memoizing = true)
      (handed : .handed link.fiber link.action ∈ deeds)
      (ended : .ended link.fiber outcome ∈ deeds) : Stands pool deeds link

/-- Nothing is known of the fiber but what is so when it stands: no other action is handed over for
it, and if it is ready then it recomputes, or its job has been run. -/
structure Fits (pool : Pool S W) (deeds : List (Deed S)) (link : Link S) : Prop where
  handed : link.memoizing = true → ∀ {action}, .handed link.fiber action ∈ deeds →
    action = link.action
  memoizing : link.memoizing = true → ∀ {stage}, pool.get? link.fiber = some stage →
    stage.isReady → ∃ outcome, stage = .ended (.ofOutcome outcome)
  recomputing : link.memoizing = false → ∀ {stage}, pool.get? link.fiber = some stage →
    stage.isReady → stage = .recomputing link.action

/-- What was so later was so before. -/
theorem Fits.before (h : link.Fits pool' (deeds ++ more))
    (hchange : Pool.Change R pool pool' more launched) : link.Fits pool deeds where
  handed hlink _ hhanded := h.handed hlink (List.mem_append_left _ hhanded)
  memoizing hlink _ hstage hready :=
    h.memoizing hlink (hchange.get?_of_isReady hstage hready) hready
  recomputing hlink _ hstage hready :=
    h.recomputing hlink (hchange.get?_of_isReady hstage hready) hready

/-- The job of a fiber that memoizes has been run once, and that was its action. -/
theorem Stands.of_memoizing {scene : Scene S W α} (hrecorded : scene.Recorded R deeds)
    (h : link.Stands scene.pool deeds) (hlink : link.memoizing = true) :
    (∃ outcome, scene.pool.get? link.fiber = some (.ended (.ofOutcome outcome))) ∧
      ∀ {action}, .handed link.fiber action ∈ deeds → action = link.action := by
  cases h with
  | recomputing h kept => cases h.symm.trans hlink
  | memoizing h handed ended =>
    have hmem {deed : Deed S} (hdeed : deed ∈ deeds) (hfiber : deed.fiber = link.fiber)
        (hread : deed.isRead = false) : deed ∈ Deed.lifeline link.fiber deeds :=
      Deed.mem_lifeline.mpr ⟨hdeed, hfiber, hread⟩
    have hlife := hrecorded.life link.fiber
    have hhanded := hmem handed rfl rfl
    have hended := hmem ended rfl rfl
    have hother {action : S.Action} (h : .handed link.fiber action ∈ deeds) := hmem h rfl rfl
    generalize Deed.lifeline link.fiber deeds = lifeline at hlife hhanded hended hother
    generalize scene.pool.get? link.fiber = stage at hlife
    cases hlife with
    | ended action outcome yields =>
      obtain rfl : link.action = action := by simpa using hhanded
      exact ⟨⟨outcome, rfl⟩, fun h => by simpa using hother h⟩
    | _ => simp at hended

theorem Stands.fits {scene : Scene S W α} (hrecorded : scene.Recorded R deeds)
    (h : link.Stands scene.pool deeds) : link.Fits scene.pool deeds where
  handed hlink _ hhanded := (h.of_memoizing hrecorded hlink).2 hhanded
  memoizing hlink stage hstage _ := by
    obtain ⟨⟨outcome, hended⟩, -⟩ := h.of_memoizing hrecorded hlink
    exact ⟨outcome, Option.some.inj (hstage.symm.trans hended)⟩
  recomputing hlink stage hstage _ := by
    cases h with
    | recomputing _ kept => exact Option.some.inj (hstage.symm.trans kept)
    | memoizing h => cases h.symm.trans hlink

/-- In a scene the fibers of a chain that are ready are in the stages that befit them, and the jobs
of the others are bound for the fault. -/
def Upheld (R : Runtime S W) (x : Fault) (scene : Scene S W α) : List (Link S) → Prop
  | [] => True
  | link :: earlier =>
    (∀ {stage}, scene.pool.get? link.fiber = some stage → stage.isReady →
      stage = link.stage (fault x earlier)) ∧
    (link.memoizing = true → ∀ job ∈ scene.jobs, job.fiber = link.fiber →
      job.thread.BoundFor R (Sound x earlier) (Waits earlier)
        (· = .base (.ofExcept (.error (fault x earlier))))) ∧
    Upheld R x scene earlier

theorem Upheld.sound {scene : Scene S W α} (h : Upheld R x scene links) :
    Sound x links scene.pool := by
  induction links with
  | nil => trivial
  | cons link earlier ih => exact ⟨h.1, ih h.2.2⟩

theorem upheld_opening (R : Runtime S W) (x : Fault) (world : W) (links : List (Link S)) :
    Upheld R x (.opening world : Scene S W α) links := by
  induction links with
  | nil => trivial
  | cons link earlier ih =>
    refine ⟨fun hstage => ?_, by simp [Scene.opening], ih⟩
    simp [Scene.opening, Pool.empty, Pool.get?] at hstage

/-- What holds of a chain still holds after one more step. -/
theorem Upheld.step {scene scene' : Scene S W α} (hobserver : R.observer.Unfailing)
    (chain : Chain R.toInterpreter x links) (hrecorded : scene.Recorded R deeds)
    (step : scene.Step R more scene')
    (hfits : ∀ link ∈ links, link.Fits scene'.pool (deeds ++ more))
    (h : Upheld R x scene links) : Upheld R x scene' links := by
  obtain ⟨launched, hchange, hjobs, hended⟩ := hrecorded.follow_jobs step
  -- By induction on the chain, so that each link can rely on the earlier ones as they stood before
  -- the step.
  induction links with
  | nil => trivial
  | cons link earlier ih =>
    have hlink := hfits link List.mem_cons_self
    obtain ⟨hstages, hbound, hearlier⟩ := h
    refine ⟨fun {stage} hstage hready => ?_, fun hmemoizing job hjob hfiber => ?_, ?_⟩
    · cases hmemoizing : link.memoizing with
      | false =>
        rw [hlink.recomputing hmemoizing hstage hready, Link.stage, hmemoizing]
        rfl
      | true =>
        obtain ⟨outcome, rfl⟩ := hlink.memoizing hmemoizing hstage hready
        obtain hbefore | hjust := hchange.ended_before hstage
        · exact hstages hbefore rfl
        · -- The job has ended as it was bound to.
          obtain ⟨thread, pool', hmem, hmoved⟩ := hended hjust
          obtain rfl := (hbound hmemoizing _ hmem rfl).ended hearlier.sound hmoved
          rw [Link.stage, hmemoizing]
          rfl
    · obtain hnew | hold | ⟨thread, launch, pool', hmem, hmoved⟩ := hjobs job hjob
      · -- A job that begins does what the link says, since that is what has been handed over.
        obtain ⟨action, hhanded, hthread⟩ := hrecorded.thread_of_launched hchange hnew
        rw [hfiber] at hhanded
        rw [hthread, hlink.handed hmemoizing hhanded]
        exact bound_of_follows hobserver chain.2 Thread.hosts_base chain.1
      · exact hbound hmemoizing job hold hfiber
      · exact (hbound hmemoizing _ hmem hfiber).moved hearlier.sound hmoved
    · exact ih chain.2 (fun link hlink => hfits link (List.mem_cons_of_mem _ hlink)) hearlier

/-- What holds of a chain holds all through a story. -/
theorem upheld_of_trail (hobserver : R.observer.Unfailing) (chain : Chain R.toInterpreter x links)
    {world : W} {scene : Scene S W α} (story : Trail (Scene.Step R) (.opening world) deeds scene)
    (hfits : ∀ link ∈ links, link.Fits scene.pool deeds) : Upheld R x scene links := by
  induction story with
  | refl => exact upheld_opening R x world links
  | tail story last ih =>
    have hrecorded := Scene.recorded_of_trail story
    obtain ⟨launched, hchange, -⟩ := hrecorded.follow_jobs last
    have hbefore := ih fun link hlink => (hfits link hlink).before hchange
    exact hbefore.step hobserver chain hrecorded last hfits

/-- A fiber that stands goes on standing. -/
theorem Stands.later {scene scene' : Scene S W α} (hrecorded : scene.Recorded R deeds)
    (h : link.Stands scene.pool deeds) (later : Trail (Scene.Step R) scene more scene') :
    scene'.Recorded R (deeds ++ more) ∧ link.Stands scene'.pool (deeds ++ more) := by
  induction later with
  | refl => simpa using ⟨hrecorded, h⟩
  | tail _ last ih =>
    obtain ⟨hrecorded, h⟩ := ih
    obtain ⟨launched, hchange, -⟩ := hrecorded.follow_jobs last
    rw [← List.append_assoc]
    refine ⟨(hrecorded.step last).1, ?_⟩
    cases h with
    | recomputing h kept => exact .recomputing h (hchange.get?_of_isReady kept rfl)
    | memoizing h handed ended =>
      exact .memoizing h (List.mem_append_left _ handed) (List.mem_append_left _ ended)

/-- Nobody has to wait for fibers that stand. -/
theorem not_waits {scene : Scene S W α} (hrecorded : scene.Recorded R deeds)
    (hstands : ∀ link ∈ links, link.Stands scene.pool deeds) : ¬ Waits links scene.pool := by
  rintro ⟨link, hmem, hnot⟩
  have h := hstands link hmem
  cases hlink : link.memoizing with
  | false =>
    cases h with
    | recomputing _ kept => exact hnot _ kept rfl
    | memoizing h => cases h.symm.trans hlink
  | true =>
    obtain ⟨⟨outcome, hended⟩, -⟩ := h.of_memoizing hrecorded hlink
    exact hnot _ hended rfl

/-- **A fault goes through a chain of fibers.** The first action raises a fault, and each of the
others reads the fiber before, itself or by a program that awaits it. Once all these fibers stand,
whatever else is going on, from then on:

* whoever reads the last fiber, be it for the first time or again, never has to wait, and is told of
  a fault after finitely many moves of its own;
* that is put as what each fiber that memoizes says of itself, from the last to the first, and then
  what the first fault says, or that its payload is unknown if it says nothing; if all the fibers
  recompute, it is the first fault itself;
* it is told to nobody else: a computation that uses the fibers ends with a fault by no move but its
  own, and if it forks one of the actions then it is bound to go on with the fiber. -/
theorem chain_fails {last : Link S} (hobserver : R.observer.Unfailing)
    (chain : Chain R.toInterpreter x (last :: earlier)) {world : W} {scene : Scene S W α}
    (story : Trail (Scene.Step R) (.opening world) deeds scene)
    (hstands : ∀ link ∈ last :: earlier, link.Stands scene.pool deeds) :
    (∀ {β : Type} (thread : Thread S β) callers outer, thread.AtRead last.fiber callers outer →
      thread.BoundFor R
        (fun pool => ∃ more later, Trail (Scene.Step R) scene more later ∧ later.pool = pool)
        (fun _ => False) (· = .answer callers outer (.error (fault x (last :: earlier))))) ∧
    ((∃ link ∈ last :: earlier, link.memoizing) → ∀ name,
      (fault x (last :: earlier)).text? name =
        some (preamble name (last :: earlier) ++ x.message name)) ∧
    ((∀ link ∈ last :: earlier, link.memoizing = false) → fault x (last :: earlier) = x) ∧
    (∀ (before after : Scene S W α) more, before.Move R more after → ∀ (place : Nat) thread,
      before.callers[place]? = some (.running thread) →
      ∃ main, after.callers[place]? = some main ∧ main.Next R before.pool after.pool thread) ∧
    ∀ link ∈ last :: earlier, ∀ {β : Type} callers (outer : _ → Comp S β) place τ yields pending,
      (Thread.nested (R.turn yields ((Tree.instr (.forkAt place τ link.action)).under pending))
        callers outer).BoundFor R (fun _ => True) (fun _ => False) fun thread =>
          ∃ fiber : FiberId, thread =
            .nested (R.goOn yields pending (.of (.fiber τ) fiber)) callers outer := by
  have hrecorded := Scene.recorded_of_trail story
  refine ⟨fun thread callers outer hread => ?_, fun h name => text?_fault name x h,
    fault_of_recomputing x, fun _ _ _ hmove _ _ hthread => hmove.exists_next hthread, ?_⟩
  · have hbound := bound_of_act hread (bound_of_follows hobserver chain.2
      (Thread.hosts_nested callers outer) (chain.1.bind _))
    refine hbound.mono ?_ ?_
    · rintro _ ⟨more, later, hlater, rfl⟩
      refine (upheld_of_trail hobserver chain (story.trans hlater) fun link hlink => ?_).sound
      obtain ⟨hrecorded', hlinks⟩ := (hstands link hlink).later hrecorded hlater
      exact hlinks.fits hrecorded'
    · rintro _ ⟨more, later, hlater, rfl⟩
      have hrecorded' := ((hstands last List.mem_cons_self).later hrecorded hlater).1
      exact not_waits hrecorded' fun link hlink => ((hstands link hlink).later hrecorded hlater).2
  · intro link _ β callers outer place τ yields pending
    exact .fork (Thread.hosts_nested callers outer) hobserver place τ link.action yields pending

end Link

/-- The actions of a chain: one that fails, and such as hand on what another fiber comes to. -/
inductive HopAction where
  | crash
  | reads (fiber : FiberId)
  | awaits (fiber : FiberId)

/-- Actions that read other fibers, and no code. -/
def hop : Signature where
  Base := Scalar
  Code := Empty
  Action := HopAction
  Effect := Empty
  Reply := Empty.elim

/-- Fibers come to numbers. -/
abbrev hop.number : Ty hop.Base := .ground Scalar.int64

/-- Jobs run beside whoever starts them, and the first action raises what is no message. -/
def hops : Runtime hop Unit where
  build code := code.elim
  compute code := code.elim
  act
    | .crash => .fail (.other 7)
    | .reads fiber => .read fiber
    | .awaits fiber => .interpret hop.number (.ofInstr (.await fiber))
  observer _ := .done ()
  spawner := .background
  newestFirst := false
  level := none
  effect e := e.elim

namespace Link

/-- A fiber that memoizes reads one that recomputes, and that awaits one that memoizes. -/
def threeHops : List (Link hop) :=
  [⟨⟨2⟩, .reads ⟨1⟩, true⟩, ⟨⟨1⟩, .awaits ⟨0⟩, false⟩, ⟨⟨0⟩, .crash, true⟩]

/-- The three fibers are made. -/
def building : Comp hop hop.Value := do
  let first ← .newFiber
  Comp.start first .crash
  let second ← .newFiber
  Comp.keep second (.awaits first)
  let third ← .newFiber
  Comp.start third (.reads second)
  return .of (.fiber hop.number) third

/-- The three fibers, the second of which recomputes. -/
def hopPool (first third : Fiber hop) : Pool hop Unit :=
  { (Pool.empty () : Pool hop Unit) with fibers := #[first, .recomputing (.awaits ⟨0⟩), third] }

theorem threeHops_chain : Chain hops.toInterpreter (.other 7) threeHops :=
  ⟨Comp.reads_read ⟨1⟩, Comp.reads_await hop.number ⟨0⟩, .fail, trivial⟩

/-- What is done to the fibers until both jobs have been run. -/
def hopDeeds : List (Deed hop) :=
  [.handed ⟨0⟩ .crash, .begun ⟨0⟩, .handed ⟨2⟩ (.reads ⟨1⟩), .begun ⟨2⟩,
    .ended ⟨0⟩ (.error (.other 7)), .read ⟨0⟩ (.error (.fiberFailed ⟨0⟩ (.other 7))),
    .ended ⟨2⟩ (.error (.fiberFailed ⟨0⟩ (.other 7)))]

theorem threeHops_stands : ∀ link ∈ threeHops, link.Stands
    (hopPool (.ended (.failed (.other 7))) (.ended (.failed (.fiberFailed ⟨0⟩ (.other 7)))))
    hopDeeds := by
  have hthird : .ended ⟨2⟩ (.error (.fiberFailed ⟨0⟩ (.other 7))) ∈ hopDeeds := by simp [hopDeeds]
  have hfirst : .ended ⟨0⟩ (.error (.other 7)) ∈ hopDeeds := by simp [hopDeeds]
  rw [threeHops, List.forall_mem_cons, List.forall_mem_cons, List.forall_mem_singleton]
  exact ⟨.memoizing rfl (by simp [hopDeeds]) hthird, .recomputing rfl rfl,
    .memoizing rfl (by simp [hopDeeds]) hfirst⟩

/-- The jobs have been run, and the last fiber fails in the words of two of the three. -/
theorem chain_fails_threeHops : ∃ (scene : Scene hop Unit hop.Value) (deeds : List (Deed hop)),
    Trail (Scene.Step hops) (.opening ()) deeds scene ∧
    (∀ link ∈ threeHops, link.Stands scene.pool deeds) ∧
    (Thread.base (Comp.read ⟨2⟩) : Thread hop hop.Value).BoundFor hops
      (fun pool => ∃ more later, Trail (Scene.Step hops) scene more later ∧ later.pool = pool)
      (fun _ => False) (· = .base (.fail (.fiberFailed ⟨2⟩ (.fiberFailed ⟨0⟩ (.other 7))))) ∧
    (Fault.fiberFailed ⟨2⟩ (.fiberFailed ⟨0⟩ (.other 7))).text?
        (fun fiber => toString fiber.index) =
      some "fiber 2 panicked: fiber 0 panicked: unknown panic payload" := by
  have hobserver : hops.observer.Unfailing := fun _ => ⟨[], .done⟩
  -- The computation makes the fibers and starts two jobs.
  have called : Trail (Scene.Step hops) (.opening ()) []
      (⟨.empty (), [.running (.base building)], []⟩ : Scene hop Unit hop.Value) :=
    .single (.call _ [] [] _)
  have named := (called.tail (.move (.caller [] [] _ rfl))).tail (.move (.caller [] [] _ rfl))
  have kept := (named.tail (.move (.caller [] [] _ rfl))).tail (.move (.caller [] [] _ rfl))
  have started := (kept.tail (.move (.caller [] [] _ rfl))).tail (.move (.caller [] [] _ rfl))
  have built : Trail (Scene.Step hops) (.opening ())
      [.handed ⟨0⟩ .crash, .begun ⟨0⟩, .handed ⟨2⟩ (.reads ⟨1⟩), .begun ⟨2⟩]
      (⟨hopPool .running .running,
        [.running (.base (.done (.of (.fiber hop.number) (⟨2⟩ : FiberId))))],
        [⟨⟨0⟩, .base (.fail (.other 7))⟩, ⟨⟨2⟩, .base (.read ⟨1⟩)⟩]⟩ : Scene hop Unit hop.Value) :=
    started
  -- The first job fails, and the other reads the second fiber, which awaits the first.
  have crashed := built.tail (.move (.jobEnded _ [] [_] rfl))
  have awaited := ((crashed.tail (.move (.job _ [] [] rfl))).tail (.move (.job _ [] [] rfl))).tail
    (.move (.job _ [] [] rfl))
  have told := ((awaited.tail (.move (.job _ [] [] rfl))).tail (.move (.job _ [] [] rfl))).tail
    (.move (.job _ [] [] rfl))
  have story := told.tail (.move (.jobEnded _ [] [] rfl))
  obtain ⟨hreads, htext, -⟩ := chain_fails hobserver threeHops_chain story threeHops_stands
  exact ⟨_, _, story, threeHops_stands, hreads _ [] .ofExcept (.base _),
    htext ⟨_, List.mem_cons_self, rfl⟩ _⟩

end Link

end FiberPrograms
