import FiberPrograms.Proofs.Drifts
import FiberPrograms.Proofs.Recomputation

/-!
# Fibers that recompute and fibers that memoize

Two executions are set side by side that differ in one fiber: in the first it recomputes, and in the
second it memoizes. Whoever reads it runs its action in the first, and in the second waits until the
job of the fiber has ended, or is told of the ending at once. So a thread may be in the midst of
running the action in the first execution while its counterpart has not been told yet, and the
second execution has a job more than the first; otherwise they are the same.

If the action is pure, it comes to the same outcome wherever it is run. So the second execution can
always go on until the fiber has ended with the outcome to which the action comes, if it comes to
any, and nobody can tell.

## Main definitions

* `Fiber.Backs`, `Pool.Beside`, `Thread.Beside`, `Scene.Beside`: what is side by side; the number
  says how many readers have not been told yet
* `Seat`: a place in a scene where a thread stands
* `Entry.isShared`, `Silent`: what both executions tell, and stories in which there is nothing of it
* `Permit.discreet`: whatever code finds out about a fiber it finds out by reading it

## Main results

* `Scene.Beside.exists_seat`, `Scene.Beside.exists_seat_back`: each thread has its counterpart
* `Comp.Confined.cases_heeds`: what discreet code does with a fiber
* `Scene.Beside.begun`, `Scene.Beside.finished`: the job of the fiber leaves the scenes side by side
* `Scene.Beside.exists_ready`: the fiber comes to what its action comes to
-/

namespace FiberPrograms

variable {S : Signature} {W α β : Type}

/-! ## Lists side by side -/

section Aligned

variable {σ : Type} {rel rel' : Nat → σ → σ → Prop} {n : Nat}

/-- Lists whose elements are related one by one, each by a number, and the sum of these numbers. -/
inductive Aligned (rel : Nat → σ → σ → Prop) : Nat → List σ → List σ → Prop
  | nil : Aligned rel 0 [] []
  | cons {n m : Nat} {x y : σ} {xs ys : List σ} (head : rel n x y) (tail : Aligned rel m xs ys) :
      Aligned rel (n + m) (x :: xs) (y :: ys)

namespace Aligned

variable {xs ys xs' ys' : List σ} {m : Nat} {x y : σ}

theorem append (h : Aligned rel n xs ys) (h' : Aligned rel m xs' ys') :
    Aligned rel (n + m) (xs ++ xs') (ys ++ ys') := by
  induction h with
  | nil => simpa using h'
  | cons head tail ih =>
    rw [Nat.add_assoc]
    exact .cons head ih

theorem mono (h : Aligned rel n xs ys) (hrel : ∀ {n x y}, rel n x y → rel' n x y) :
    Aligned rel' n xs ys := by
  induction h with
  | nil => exact .nil
  | cons head tail ih => exact .cons (hrel head) ih

/-- Each element may have itself as its counterpart. -/
theorem refl (xs : List σ) (hrel : ∀ x ∈ xs, rel 0 x x) : Aligned rel 0 xs xs := by
  induction xs with
  | nil => exact .nil
  | cons x xs ih =>
    exact .cons (hrel x List.mem_cons_self) (ih fun y hy => hrel y (List.mem_cons_of_mem x hy))

theorem flip (h : Aligned rel n xs ys) : Aligned (fun n y x => rel n x y) n ys xs := by
  induction h with
  | nil => exact .nil
  | cons head tail ih => exact .cons head ih

theorem length_eq (h : Aligned rel n xs ys) : ys.length = xs.length := by
  induction h with
  | nil => rfl
  | cons head tail ih => simp [ih]

theorem eq_zero (h : Aligned rel n xs ys) (hrel : ∀ {k x y}, x ∈ xs → rel k x y → k = 0) :
    n = 0 := by
  induction h with
  | nil => rfl
  | cons head tail ih =>
    have hhead := hrel List.mem_cons_self head
    have htail := ih fun hmem => hrel (List.mem_cons_of_mem _ hmem)
    omega

/-- What stands in one of the lists has its counterpart in the other. -/
theorem exists_split {before after : List σ} (h : Aligned rel n (before ++ x :: after) ys) :
    ∃ before' y after' b k a, ys = before' ++ y :: after' ∧ before'.length = before.length ∧
      Aligned rel b before before' ∧ rel k x y ∧ Aligned rel a after after' ∧
      n = b + k + a := by
  induction before generalizing n ys with
  | nil =>
    cases h with
    | @cons k a _ y _ ys head tail =>
      exact ⟨[], y, ys, 0, k, a, rfl, rfl, .nil, head, tail, by omega⟩
  | cons z before ih =>
    cases h with
    | @cons m rest _ z' _ ys head tail =>
      obtain ⟨before', y, after', b, k, a, rfl, hlength, hbefore, hxy, hafter, rfl⟩ := ih tail
      refine ⟨z' :: before', y, after', m + b, k, a, rfl, by simp [hlength],
        .cons head hbefore, hxy, hafter, by omega⟩

/-- Another pair takes the place of one. -/
theorem exchange {before after before' after' : List σ} {b k a : Nat}
    (hbefore : Aligned rel b before before') (hxy : rel k x y)
    (hafter : Aligned rel a after after') :
    Aligned rel (b + k + a) (before ++ x :: after) (before' ++ y :: after') := by
  rw [Nat.add_assoc]
  exact hbefore.append (.cons hxy hafter)

end Aligned

end Aligned

/-! ## The two executions side by side -/

section Beside

variable (R : Runtime S W) (fiber : FiberId) (action : S.Action)

/-- How far a fiber is that memoizes. If it has ended, its outcome is the one that the action comes
to by itself over the given pool. -/
inductive Fiber.Backs (pool : Pool S W) : Option (Fiber S) → Prop
  | waiting : Backs pool (some (.waiting action))
  | running : Backs pool (some .running)
  | ended {outcome : Except Fault S.Value}
      (runs : (Thread.base (R.act action)).Runs R pool (.base (.ofExcept outcome))) :
      Backs pool (some (.ended (.ofOutcome outcome)))

/-- The pools differ in one fiber, which recomputes in the first and memoizes in the second. -/
structure Pool.Beside (pool pool' : Pool S W) : Prop where
  twins : pool.Twins {fiber} Eq pool'
  events : pool'.events = pool.events
  recomputing : pool.get? fiber = some (.recomputing action)
  backs : Fiber.Backs R action pool (pool'.get? fiber)

/-- A thread and its counterpart: it is the same, or it is in the midst of running the action for
somebody who waits for the fiber in the counterpart. The number is that of the readers that have not
been told. -/
inductive Thread.Beside (pool : Pool S W) : Nat → Thread S β → Thread S β → Prop
  | same (thread : Thread S β) : Beside pool 0 thread thread
  | reading {thread : Thread S S.Value} {reader : Thread S β}
      {callers : List (Except Fault S.Value → Comp S (Turn S))}
      {outer : Except Fault S.Value → Comp S β} (reads : reader.AtRead fiber callers outer)
      (runs : (Thread.base (R.act action)).Runs R pool thread) :
      Beside pool 1 (thread.onTop callers outer) reader

/-- A program and its counterpart. -/
inductive Main.Beside (pool : Pool S W) : Nat → Main S α → Main S α → Prop
  | running {n : Nat} {thread thread' : Thread S α}
      (h : Thread.Beside R fiber action pool n thread thread') :
      Beside pool n (.running thread) (.running thread')
  | ended (outcome : Except Fault α) : Beside pool 0 (.ended outcome) (.ended outcome)

/-- A job and its counterpart. -/
inductive Job.Beside (pool : Pool S W) : Nat → Job S → Job S → Prop
  | mk {n : Nat} {thread thread' : Thread S S.Value} {other : FiberId} (hother : other ≠ fiber)
      (h : Thread.Beside R fiber action pool n thread thread') :
      Beside pool n ⟨other, thread⟩ ⟨other, thread'⟩

/-- Jobs and their counterparts, besides which there may be the job of the fiber. -/
structure Jobs.Beside (pool : Pool S W) (n : Nat) (jobs jobs' : List (Job S)) : Prop where
  others : Aligned (Job.Beside R fiber action pool) n jobs (otherJobs {fiber} jobs')
  own : ∀ job ∈ jobs', job.fiber = fiber →
    (Thread.base (R.act action)).Runs R pool job.thread

/-- Two scenes in which the same has happened, but that the fiber recomputes in the first and
memoizes in the second. -/
structure Scene.Beside (n : Nat) (scene scene' : Scene S W α) : Prop where
  pools : Pool.Beside R fiber action scene.pool scene'.pool
  threads : ∃ m k, n = m + k ∧
    Aligned (Main.Beside R fiber action scene.pool) m scene.callers scene'.callers ∧
    Jobs.Beside R fiber action scene.pool k scene.jobs scene'.jobs

end Beside

/-! ## Places -/

/-- A place in a scene where a thread stands, with everything around it. -/
inductive Seat (S : Signature) (α : Type) : Type → Type
  | caller (before after : List (Main S α)) (jobs : List (Job S)) : Seat S α α
  | job (callers : List (Main S α)) (before after : List (Job S)) (fiber : FiberId) :
      Seat S α S.Value

namespace Seat

/-- The scene in which a thread stands there, once something has been launched. -/
def scene (pool : Pool S W) (launch : Launch S) : Seat S α β → Thread S β → Scene S W α
  | caller before after jobs, thread =>
    ⟨pool, before ++ .running thread :: after, launch.onto jobs⟩
  | job callers before after fiber, thread =>
    ⟨pool, callers, launch.onto (before ++ ⟨fiber, thread⟩ :: after)⟩

@[simp] theorem pool_scene (pool : Pool S W) (launch : Launch S) (seat : Seat S α β)
    (thread : Thread S β) : (seat.scene pool launch thread).pool = pool := by
  cases seat <;> rfl

/-- Who moves there. -/
def who : Seat S α β → Actor
  | caller before _ _ => .caller before.length
  | job _ _ _ fiber => .job fiber

/-- Whoever stands there makes the moves of the thread. -/
theorem incident {R : Runtime S W} {pool pool' : Pool S W} {thread thread' : Thread S β}
    {launch : Launch S} (seat : Seat S α β)
    (moved : thread.move R pool = (.moved thread' launch, pool')) :
    Scene.Incident R (seat.scene pool .none thread)
      [.did seat.who (thread.activity R pool) (thread.deeds R pool)]
      (seat.scene pool' launch thread') := by
  cases seat with
  | caller before after jobs => exact .caller before after jobs moved
  | job callers before after fiber => exact .job callers before after moved

end Seat

section Beside

variable {R : Runtime S W} {fiber : FiberId} {action : S.Action} {pool pool' pool₁ : Pool S W}
  {n m : Nat}

/-- Programs end alike. -/
theorem Main.Beside.ended_iff {main main' : Main S α}
    (h : main.Beside R fiber action pool n main') (outcome : Except Fault α) :
    main' = .ended outcome ↔ main = .ended outcome := by
  cases h with
  | running => simp
  | ended => exact Iff.rfl

theorem Main.Beside.eq_zero {main main' : Main S α}
    (h : main.Beside R fiber action pool n main') {outcome : Except Fault α}
    (hended : main = .ended outcome) : n = 0 := by
  cases h with
  | running => cases hended
  | ended => rfl

/-- So do programs side by side. -/
theorem outcomes_of_beside {callers callers' : List (Main S α)}
    (h : Aligned (Main.Beside R fiber action pool) n callers callers') (place : Nat)
    (outcome : Except Fault α) :
    callers'[place]? = some (.ended outcome) ↔ callers[place]? = some (.ended outcome) := by
  induction h generalizing place with
  | nil => simp
  | cons head tail ih =>
    cases place with
    | zero => simpa using head.ended_iff outcome
    | succ place => simpa using ih place

namespace Jobs.Beside

variable {jobs jobs' more more' : List (Job S)}

theorem append (h : Jobs.Beside R fiber action pool n jobs jobs')
    (h' : Jobs.Beside R fiber action pool m more more') :
    Jobs.Beside R fiber action pool (n + m) (jobs ++ more) (jobs' ++ more') where
  others := by
    rw [otherJobs, List.filter_append]
    exact h.others.append h'.others
  own job hjob hfiber := by
    obtain hjob | hjob := List.mem_append.mp hjob
    · exact h.own job hjob hfiber
    · exact h'.own job hjob hfiber

theorem cons {job job' : Job S} (hjob : Job.Beside R fiber action pool n job job')
    (h : Jobs.Beside R fiber action pool m jobs jobs') :
    Jobs.Beside R fiber action pool (n + m) (job :: jobs) (job' :: jobs') := by
  cases hjob with
  | mk hother hthread =>
    constructor
    · rw [otherJobs, List.filter_cons_of_pos (by simpa using hother)]
      exact .cons (.mk hother hthread) h.others
    · intro job hjob hfiber
      obtain rfl | hjob := List.mem_cons.mp hjob
      · exact absurd hfiber hother
      · exact h.own job hjob hfiber

theorem nil : Jobs.Beside R fiber action pool 0 [] [] where
  others := .nil
  own := by simp

/-- Jobs that are launched have themselves as their counterparts. -/
theorem onto (h : Jobs.Beside R fiber action pool n jobs jobs') {launch : Launch S}
    (hlaunch : ∀ job ∈ launch.jobs, job.fiber ≠ fiber) :
    Jobs.Beside R fiber action pool n (launch.onto jobs) (launch.onto jobs') := by
  cases launch with
  | none => exact h
  | ahead job =>
    have hjob := hlaunch job List.mem_cons_self
    rw [← Nat.zero_add n]
    exact h.cons (.mk hjob (.same _))
  | behind job =>
    have hjob := hlaunch job List.mem_cons_self
    exact h.append (nil.cons (.mk hjob (.same _)))

/-- Each job has its counterpart. -/
theorem exists_split {before after : List (Job S)} {job : Job S}
    (h : Jobs.Beside R fiber action pool n (before ++ job :: after) jobs') :
    ∃ before' job' after' b k a, jobs' = before' ++ job' :: after' ∧
      Jobs.Beside R fiber action pool b before before' ∧ Job.Beside R fiber action pool k job job' ∧
      Jobs.Beside R fiber action pool a after after' ∧ n = b + k + a := by
  obtain ⟨before₁, job', after₁, b, k, a, hothers, -, hbefore, hjob, hafter, rfl⟩ :=
    h.others.exists_split
  obtain ⟨before', after', rfl, rfl, rfl⟩ := exists_split_job hothers
  refine ⟨before', job', after', b, k, a, rfl, ⟨hbefore, ?_⟩, hjob, ⟨hafter, ?_⟩, rfl⟩
  · exact fun job hjob => h.own job (List.mem_append_left _ hjob)
  · exact fun job hjob => h.own job (List.mem_append_right _ (List.mem_cons_of_mem _ hjob))

/-- Each job of another fiber is the counterpart of one. -/
theorem exists_split_back {before' after' : List (Job S)} {job' : Job S}
    (h : Jobs.Beside R fiber action pool n jobs (before' ++ job' :: after'))
    (hother : job'.fiber ≠ fiber) :
    ∃ before job after b k a, jobs = before ++ job :: after ∧
      Jobs.Beside R fiber action pool b before before' ∧ Job.Beside R fiber action pool k job job' ∧
      Jobs.Beside R fiber action pool a after after' ∧ n = b + k + a := by
  have hothers := h.others
  rw [otherJobs_middle (U := {fiber}) hother] at hothers
  obtain ⟨before, job, after, b, k, a, rfl, -, hbefore, hjob, hafter, rfl⟩ :=
    hothers.flip.exists_split
  refine ⟨before, job, after, b, k, a, rfl, ⟨hbefore.flip, ?_⟩, hjob, ⟨hafter.flip, ?_⟩, rfl⟩
  · exact fun job hjob => h.own job (List.mem_append_left _ hjob)
  · exact fun job hjob => h.own job (List.mem_append_right _ (List.mem_cons_of_mem _ hjob))

end Jobs.Beside

/-- Two places with everything around them, side by side. -/
inductive Seat.Beside (R : Runtime S W) (fiber : FiberId) (action : S.Action) (pool : Pool S W) :
    {β : Type} → Nat → Seat S α β → Seat S α β → Prop
  | caller {before after before' after' : List (Main S α)} {jobs jobs' : List (Job S)}
      {b a k : Nat} (hlength : before'.length = before.length)
      (hbefore : Aligned (Main.Beside R fiber action pool) b before before')
      (hafter : Aligned (Main.Beside R fiber action pool) a after after')
      (hjobs : Jobs.Beside R fiber action pool k jobs jobs') :
      Beside R fiber action pool (b + a + k) (.caller before after jobs)
        (.caller before' after' jobs')
  | job {callers callers' : List (Main S α)} {before after before' after' : List (Job S)}
      {other : FiberId} {c b a : Nat}
      (hcallers : Aligned (Main.Beside R fiber action pool) c callers callers')
      (hbefore : Jobs.Beside R fiber action pool b before before')
      (hafter : Jobs.Beside R fiber action pool a after after') (hother : other ≠ fiber) :
      Beside R fiber action pool (c + b + a) (.job callers before after other)
        (.job callers' before' after' other)

namespace Seat.Beside

variable {seat seat' : Seat S α β} {thread thread' : Thread S β} {launch : Launch S}

theorem who_eq (h : seat.Beside R fiber action pool n seat') : seat'.who = seat.who := by
  cases h with
  | caller hlength => exact congrArg Actor.caller hlength
  | job => rfl

/-- Whoever takes these places, the scenes are side by side. -/
theorem scene (h : seat.Beside R fiber action pool n seat')
    (hpools : pool.Beside R fiber action pool')
    (hthread : thread.Beside R fiber action pool m thread')
    (hlaunch : ∀ job ∈ launch.jobs, job.fiber ≠ fiber) :
    (seat.scene pool launch thread).Beside R fiber action (n + m)
      (seat'.scene pool' launch thread') := by
  cases h with
  | @caller _ _ _ _ _ _ b a k hlength hbefore hafter hjobs =>
    refine ⟨hpools, b + m + a, k, by omega, ?_, hjobs.onto hlaunch⟩
    exact hbefore.exchange (.running hthread) hafter
  | @job _ _ _ _ _ _ _ c b a hcallers hbefore hafter hother =>
    refine ⟨hpools, c, b + (m + a), by omega, hcallers, ?_⟩
    exact (hbefore.append (hafter.cons (.mk hother hthread))).onto hlaunch

end Seat.Beside

namespace Scene.Beside

variable {scene scene' : Scene S W α}

/-- Whoever moves in the first scene has a counterpart in the second. -/
theorem exists_seat {seat : Seat S α β} {thread : Thread S β}
    (h : (seat.scene pool .none thread).Beside R fiber action n scene') :
    ∃ seat' thread' rest m, scene' = Seat.scene scene'.pool .none seat' thread' ∧
      seat.Beside R fiber action pool rest seat' ∧
      thread.Beside R fiber action pool m thread' ∧ n = rest + m := by
  obtain ⟨pool', callers', jobs'⟩ := scene'
  obtain ⟨-, c, k, rfl, hcallers, hjobs⟩ := h
  cases seat with
  | caller before after jobs =>
    obtain ⟨before', main', after', b, m, a, rfl, hlength, hbefore, hmain, hafter, rfl⟩ :=
      hcallers.exists_split
    cases hmain with
    | running hthread =>
      exact ⟨.caller before' after' jobs', _, _, m, rfl, .caller hlength hbefore hafter hjobs,
        hthread, by omega⟩
  | job callers before after other =>
    obtain ⟨before', job', after', b, m, a, rfl, hbefore, hjob, hafter, rfl⟩ := hjobs.exists_split
    cases hjob with
    | mk hother hthread =>
      exact ⟨.job callers' before' after' other, _, _, m, rfl,
        .job hcallers hbefore hafter hother, hthread, by omega⟩

/-- Whoever moves in the second scene is the counterpart of somebody in the first, unless it is the
job of the fiber. -/
theorem exists_seat_back {seat' : Seat S α β} {thread' : Thread S β}
    (h : scene.Beside R fiber action n (seat'.scene pool' .none thread'))
    (hwho : seat'.who ≠ .job fiber) :
    ∃ seat thread rest m, scene = Seat.scene scene.pool .none seat thread ∧
      Seat.Beside R fiber action scene.pool rest seat seat' ∧
      Thread.Beside R fiber action scene.pool m thread thread' ∧ n = rest + m := by
  obtain ⟨pool, callers, jobs⟩ := scene
  obtain ⟨-, c, k, rfl, hcallers, hjobs⟩ := h
  cases seat' with
  | caller before' after' jobs' =>
    obtain ⟨before, main, after, b, m, a, rfl, hlength, hbefore, hmain, hafter, rfl⟩ :=
      hcallers.flip.exists_split
    cases hmain with
    | running hthread =>
      exact ⟨.caller before after jobs, _, _, m, rfl,
        .caller hlength.symm hbefore.flip hafter.flip hjobs, hthread, by omega⟩
  | job callers' before' after' other =>
    have hother : other ≠ fiber := fun h => hwho (congrArg Actor.job h)
    obtain ⟨before, job, after, b, m, a, rfl, hbefore, hjob, hafter, rfl⟩ :=
      hjobs.exists_split_back hother
    cases hjob with
    | mk hother hthread =>
      exact ⟨.job callers before after other, _, _, m, rfl,
        .job hcallers hbefore hafter hother, hthread, by omega⟩

end Scene.Beside

/-! ## As time goes by -/

section Later

variable {H : Holdings S} {P : Set FiberId}
  (hact : (R.act action).PureWithin H P (Value.Within H P))
  (hpool : pool.PureOn H R.toMeaning P) (hkeeps : pool.KeepsReady P pool₁)

include hact hpool hkeeps

/-- What the action has come to by itself it comes to later too. -/
theorem Thread.Runs.later {thread : Thread S S.Value}
    (h : (Thread.base (R.act action)).Runs R pool thread) :
    (Thread.base (R.act action)).Runs R pool₁ thread :=
  (h.mono hpool hkeeps (.base hact)).1

theorem Fiber.Backs.later {stage : Option (Fiber S)} (h : Fiber.Backs R action pool stage) :
    Fiber.Backs R action pool₁ stage := by
  cases h with
  | waiting => exact .waiting
  | running => exact .running
  | ended runs => exact .ended (runs.later hact hpool hkeeps)

theorem Thread.Beside.later {thread thread' : Thread S β}
    (h : thread.Beside R fiber action pool n thread') :
    thread.Beside R fiber action pool₁ n thread' := by
  cases h with
  | same => exact .same thread
  | reading reads runs => exact .reading reads (runs.later hact hpool hkeeps)

theorem Main.Beside.later {main main' : Main S α} (h : main.Beside R fiber action pool n main') :
    main.Beside R fiber action pool₁ n main' := by
  cases h with
  | running h => exact .running (h.later hact hpool hkeeps)
  | ended outcome => exact .ended outcome

theorem Jobs.Beside.later {jobs jobs' : List (Job S)}
    (h : Jobs.Beside R fiber action pool n jobs jobs') :
    Jobs.Beside R fiber action pool₁ n jobs jobs' where
  others := h.others.mono fun hjob => by
    cases hjob with
    | mk hother h => exact .mk hother (h.later hact hpool hkeeps)
  own job hjob hfiber := (h.own job hjob hfiber).later hact hpool hkeeps

theorem Seat.Beside.later {seat seat' : Seat S α β}
    (h : seat.Beside R fiber action pool n seat') :
    seat.Beside R fiber action pool₁ n seat' := by
  cases h with
  | caller hlength hbefore hafter hjobs =>
    exact .caller hlength (hbefore.mono fun h => h.later hact hpool hkeeps)
      (hafter.mono fun h => h.later hact hpool hkeeps) (hjobs.later hact hpool hkeeps)
  | job hcallers hbefore hafter hother =>
    exact .job (hcallers.mono fun h => h.later hact hpool hkeeps)
      (hbefore.later hact hpool hkeeps) (hafter.later hact hpool hkeeps) hother

end Later

/-- In neither pool the fiber is a mere name, so nobody can build it any more. -/
theorem Pool.Beside.ne_named (h : pool.Beside R fiber action pool') :
    pool.get? fiber ≠ some .named ∧ pool'.get? fiber ≠ some .named := by
  refine ⟨by simp [h.recomputing], ?_⟩
  have hbacks := h.backs
  generalize pool'.get? fiber = stage at hbacks
  cases hbacks <;> simp

/-- If both pools change alike, and not in the fiber, they still differ in nothing else. -/
theorem Pool.Beside.change {H : Holdings S} {P : Set FiberId} {pool₁' : Pool S W}
    (hact : (R.act action).PureWithin H P (Value.Within H P))
    (hpool : pool.PureOn H R.toMeaning P) (hkeeps : pool.KeepsReady Set.univ pool₁)
    (h : pool.Beside R fiber action pool') (htwins : pool₁.Twins {fiber} Eq pool₁')
    (hevents : pool₁'.events = pool₁.events) (hstage : pool₁'.get? fiber = pool'.get? fiber) :
    pool₁.Beside R fiber action pool₁' where
  twins := htwins
  events := hevents
  recomputing := hkeeps (Set.mem_univ fiber) h.recomputing rfl
  backs := by
    rw [hstage]
    exact h.backs.later hact hpool fun _ _ _ => hkeeps (Set.mem_univ _)

end Beside

/-! ## What both executions tell -/

/-- Whether a move of this kind has its counterpart. Wherever an action is run, fibers are read and
outcomes are returned, of which there is nothing to be seen elsewhere. -/
def Activity.isShared : Activity S → Bool
  | .read _ | .returned | .raised _ => false
  | _ => true

/-- Whether an incident is shared by both executions, which those that make up the job of the fiber
are not. -/
def Entry.isShared (fiber : FiberId) : Entry S → Bool
  | did who activity _ => who ≠ .job fiber && activity.isShared
  | ended who _ _ => who ≠ .job fiber
  | queued deed => deed.fiber ≠ fiber

/-- What is told in a story of incidents that are shared. -/
def sharedEntries (fiber : FiberId) (entries : List (Entry S)) : List (Entry S) :=
  entries.filter (Entry.isShared fiber)

@[simp] theorem sharedEntries_append (fiber : FiberId) (entries more : List (Entry S)) :
    sharedEntries fiber (entries ++ more) =
      sharedEntries fiber entries ++ sharedEntries fiber more :=
  List.filter_append ..

/-- Nothing is told that is shared, and the fiber is not read. -/
structure Silent (fiber : FiberId) (entries : List (Entry S)) : Prop where
  reads : (readFibers entries).count fiber = 0
  shared : sharedEntries fiber entries = []

theorem Entry.read?_did {who : Actor} {activity : Activity S} {deeds : List (Deed S)}
    {fiber : FiberId} (h : (did who activity deeds).read? = some fiber) :
    activity = .read fiber := by
  cases activity <;> cases h
  rfl

theorem count_readFibers_of_read (fiber : FiberId) (who : Actor) (deeds : List (Deed S)) :
    (readFibers [.did who (.read fiber) deeds]).count fiber = 1 := by
  simp [readFibers, Entry.read?]

/-- Only who reads a fiber is told to read it. -/
theorem count_readFibers_of_ne {fiber : FiberId} {entry : Entry S}
    (h : entry.read? ≠ some fiber) : (readFibers [entry]).count fiber = 0 := by
  refine List.count_eq_zero.mpr fun hmem => h ?_
  simpa [readFibers] using hmem

namespace Silent

variable {fiber : FiberId} {entries more : List (Entry S)}

theorem nil : Silent fiber ([] : List (Entry S)) :=
  ⟨rfl, rfl⟩

theorem append (h : Silent fiber entries) (h' : Silent fiber more) :
    Silent fiber (entries ++ more) := by
  constructor
  · rw [readFibers_append, List.count_append, h.reads, h'.reads]
  · rw [sharedEntries_append, h.shared, h'.shared, List.append_nil]

theorem count_append (h : Silent fiber entries) (more : List (Entry S)) :
    (readFibers (entries ++ more)).count fiber = (readFibers more).count fiber := by
  rw [readFibers_append, List.count_append, h.reads, Nat.zero_add]

theorem shared_append (h : Silent fiber entries) (more : List (Entry S)) :
    sharedEntries fiber (entries ++ more) = sharedEntries fiber more := by
  rw [sharedEntries_append, h.shared, List.nil_append]

/-- The moves of pure actions are silent, unless they read the fiber. -/
theorem of_not_shared {activity : Activity S} (hshared : activity.isShared = false)
    (hread : activity ≠ .read fiber) (who : Actor) (deeds : List (Deed S)) :
    Silent fiber [.did who activity deeds] where
  reads := count_readFibers_of_ne fun h => hread (Entry.read?_did h)
  shared := by simp [sharedEntries, Entry.isShared, hshared]

/-- So are the moves of the job of the fiber. -/
theorem of_job {activity : Activity S} (hread : activity ≠ .read fiber) (deeds : List (Deed S)) :
    Silent fiber [.did (.job fiber) activity deeds] where
  reads := count_readFibers_of_ne fun h => hread (Entry.read?_did h)
  shared := by simp [sharedEntries, Entry.isShared]

theorem of_job_ended (fault? : Option Fault) (deeds : List (Deed S)) :
    Silent fiber [.ended (.job fiber) fault? deeds] where
  reads := rfl
  shared := by simp [sharedEntries, Entry.isShared]

theorem of_queued {deed : Deed S} (hdeed : deed.fiber = fiber) : Silent fiber [.queued deed] where
  reads := rfl
  shared := by simp [sharedEntries, Entry.isShared, hdeed]

end Silent

/-- A pure thread reads fibers and returns outcomes only. -/
theorem Thread.PureWithin.not_shared {R : Runtime S W} {pool : Pool S W} {H : Holdings S}
    {P : Set FiberId} {thread : Thread S S.Value} (h : thread.PureWithin H P) :
    (thread.activity R pool).isShared = false := by
  have hcomp {γ : Type} {c : Comp S γ} {post : γ → Prop} (h : c.PureWithin H P post) :
      (c.activity R pool).isShared = false := by
    cases c with
    | done a | fail fault => rfl
    | ask request k => exact h.elim
    | demand d k =>
      cases d with
      | read other => rfl
      | interpret yields machine => exact h.elim
    | runQueue k => exact h.elim
  cases h with
  | base h => exact hcomp h
  | nested h => exact hcomp h

/-! ## Discreet code -/

/-- Whether a request lets nobody know if a fiber has ended. -/
def Request.Discreet (fiber : FiberId) : Request S → Prop
  | ended other => other ≠ fiber
  | _ => True

/-- All that programs do, but that whatever they find out about a fiber they find out by reading
it. -/
def Permit.discreet (fiber : FiberId) : Permit S where
  asks := Request.Discreet fiber
  calls := True

theorem Permit.interprets_discreet (fiber : FiberId) : (discreet fiber : Permit S).Interprets :=
  ⟨trivial, fun _ _ => trivial, fun _ => trivial⟩

section Moves

variable {R : Runtime S W} {fiber : FiberId} {pool : Pool S W}

theorem Pool.keep_of_ne_named (hstage : pool.get? fiber ≠ some .named) (action : S.Action) :
    pool.keep fiber action = pool := by
  unfold keep
  split
  · exact absurd ‹_› hstage
  · rfl

/-- What a discreet computation does with a fiber that has been built: it reads it, or it does
nothing. -/
theorem Comp.Confined.cases_heeds {c : Comp S α} {post : α → Prop}
    (h : c.Confined (.discreet fiber) post) (hheeds : c.Heeds {fiber}) :
    (∃ k, c = .demand (.read fiber) k) ∨
      ∃ c' activity, activity ≠ .read fiber ∧ ∀ {pool : Pool S W},
        pool.get? fiber ≠ some .named → c.react R pool = (.next c' .none, pool) ∧
          c.activity R pool = activity ∧ c.deeds R pool = [] := by
  cases c with
  | done a | fail fault => exact hheeds.elim
  | ask request k =>
    -- A fiber that has been built has an action already, so starting it again does nothing.
    right
    cases request with
    | start other action =>
      obtain rfl : other = fiber := hheeds
      refine ⟨k (), .handed other action, by simp, fun {pool} hstage => ⟨?_, rfl, ?_⟩⟩
      · rw [react_ask, Pool.answer, Pool.start_of_ne_named hstage]
      · change pool.startDeeds R other action = []
        unfold Pool.startDeeds
        split
        · exact absurd ‹_› hstage
        · rfl
    | keep other action =>
      obtain rfl : other = fiber := hheeds
      refine ⟨k (), .kept other action, by simp, fun {pool} hstage => ⟨?_, rfl, rfl⟩⟩
      rw [react_ask, Pool.answer, Pool.keep_of_ne_named hstage]
    | ended other => exact absurd hheeds h.1
    | newFiber | note event | sight other | log record | perform e => exact hheeds.elim
  | demand d k =>
    cases d with
    | read other =>
      obtain rfl : other = fiber := hheeds
      exact .inl ⟨k, rfl⟩
    | interpret yields machine => exact hheeds.elim
  | runQueue k => exact h.elim

theorem Thread.Confined.cases_heeds {thread : Thread S α} (h : thread.Confined (.discreet fiber))
    (hheeds : thread.Heeds {fiber}) :
    (∃ callers outer, thread.AtRead fiber callers outer) ∨
      ∃ thread' activity, activity ≠ .read fiber ∧ ∀ {pool : Pool S W},
        pool.get? fiber ≠ some .named → thread.move R pool = (.moved thread' .none, pool) ∧
          thread.activity R pool = activity ∧ thread.deeds R pool = [] := by
  cases h with
  | base h =>
    obtain ⟨k, rfl⟩ | ⟨c', activity, hread, hc⟩ := h.cases_heeds (W := W) (R := R) hheeds
    · exact .inl ⟨_, _, .base k⟩
    · refine .inr ⟨.base c', activity, hread, fun {pool} hstage => ?_⟩
      obtain ⟨hreact, hactivity⟩ := hc hstage
      exact ⟨by rw [move, hreact], hactivity⟩
  | @nested c callers outer h hcallers houter =>
    obtain ⟨k, rfl⟩ | ⟨c', activity, hread, hc⟩ := h.cases_heeds (W := W) (R := R) hheeds
    · exact .inl ⟨_, _, .nested k callers outer⟩
    · refine .inr ⟨.nested c' callers outer, activity, hread, fun {pool} hstage => ?_⟩
      obtain ⟨hreact, hactivity⟩ := hc hstage
      exact ⟨by rw [move, hreact], hactivity⟩

/-- Whoever reads a fiber heeds it. -/
theorem Thread.heeds_of_read {thread : Thread S α}
    (h : thread.activity R pool = .read fiber) : thread.Heeds {fiber} := by
  have hcomp {γ : Type} {c : Comp S γ} (h : c.activity R pool = .read fiber) :
      c.Heeds {fiber} := by
    cases c with
    | demand d k =>
      cases d with
      | read other =>
        cases h
        exact Set.mem_singleton fiber
      | interpret yields machine => cases h
    | ask request k => cases request <;> cases h
    | _ => cases h
  cases thread with
  | base c | nested c callers outer => exact hcomp h

/-- Computations that do not heed a fiber leave it at its stage. -/
theorem Comp.get?_react {c : Comp S α} (hheeds : ¬ c.Heeds {fiber}) {stage : Fiber S}
    (hstage : pool.get? fiber = some stage) : (c.react R pool).2.get? fiber = some stage := by
  cases c with
  | done a | fail fault => exact hstage
  | ask request k =>
    rw [react_ask]
    cases request with
    | newFiber => exact Pool.get?_push_of_get? rfl hstage
    | start other action =>
      have hother : fiber ∉ ({other} : Set FiberId) := fun h => hheeds (Eq.symm h)
      exact ((Pool.twins_start R (Set.mem_singleton other) action pool).get? hother).trans hstage
    | keep other action =>
      have hother : fiber ≠ other := fun h => hheeds h.symm
      change (pool.keep other action).get? fiber = _
      unfold Pool.keep
      split
      · exact (Pool.get?_of_set_of_ne rfl hother).trans hstage
      · exact hstage
    | log record => exact (Pool.get?_log ..).trans hstage
    | ended other | note event | sight other | perform e => exact hstage
  | demand d k =>
    cases d with
    | read other =>
      rw [react]
      cases pool.get? other with
      | none => exact hstage
      | some stage' => cases stage' <;> exact hstage
    | interpret yields machine => exact hstage
  | runQueue k => exact absurd (Set.singleton_nonempty fiber) hheeds

theorem Thread.get?_move {thread thread' : Thread S α} {launch : Launch S} {pool₁ : Pool S W}
    (hheeds : ¬ thread.Heeds {fiber}) {stage : Fiber S} (hstage : pool.get? fiber = some stage)
    (moved : thread.move R pool = (.moved thread' launch, pool₁)) :
    pool₁.get? fiber = some stage := by
  cases thread with
  | base c =>
    have hreact := Comp.get?_react (R := R) (c := c) hheeds hstage
    rw [move] at moved
    generalize c.react R pool = reacted at moved hreact
    obtain ⟨reaction, pool₂⟩ := reacted
    cases reaction <;> cases moved <;> exact hreact
  | nested c callers outer =>
    have hreact := Comp.get?_react (R := R) (c := c) hheeds hstage
    rw [move] at moved
    generalize c.react R pool = reacted at moved hreact
    obtain ⟨reaction, pool₂⟩ := reacted
    rcases reaction with _ | _ | (_ | (_ | _)) | _ <;> cases moved <;> exact hreact

/-- What is ready stays as it is, whatever is done. -/
theorem Pool.Change.keepsReady {pool' : Pool S W} {deeds : List (Deed S)}
    {launched : List (Job S)} (h : Change R pool pool' deeds launched) :
    pool.KeepsReady Set.univ pool' :=
  fun _ _ _ hstage hready => h.get?_of_isReady hstage hready

/-- Pools that differ in one fiber tell the same of others. -/
theorem Pool.Twins.keepsReady {pool' : Pool S W} {same : W → W → Prop} {P : Set FiberId}
    (h : pool.Twins {fiber} same pool') (hfiber : fiber ∉ P) : pool.KeepsReady P pool' := by
  intro other stage hother hstage _
  refine (h.get? ?_).trans hstage
  rintro rfl
  exact hfiber hother

theorem Pool.PureOn.of_twins {pool' : Pool S W} {same : W → W → Prop} {H : Holdings S}
    {M : Meaning S} {P : Set FiberId} (hpool : pool.PureOn H M P)
    (h : pool.Twins {fiber} same pool') (hfiber : fiber ∉ P) : pool'.PureOn H M P := by
  have hget {other : FiberId} (hother : other ∈ P) : pool'.get? other = pool.get? other := by
    refine h.get? ?_
    rintro rfl
    exact hfiber hother
  constructor
  · intro other action hother hstage
    exact hpool.recomputing hother ((hget hother).symm.trans hstage)
  · intro other v hother hstage
    exact hpool.value hother ((hget hother).symm.trans hstage)

/-- A pure thread that runs by itself does so wherever it has its place, and reads no other fibers
than it may. -/
theorem Seat.trail_of_runs (seat : Seat S α β) (on : Thread S S.Value → Thread S β)
    {H : Holdings S} {P : Set FiberId} (hpool : pool.PureOn H R.toMeaning P)
    (hfiber : fiber ∉ P)
    (hon : ∀ {thread thread'}, thread.move R pool = (.moved thread' .none, pool) →
      (on thread).move R pool = (.moved (on thread') .none, pool) ∧
        (on thread).activity R pool = thread.activity R pool)
    {thread thread' : Thread S S.Value} (hpure : thread.PureWithin H P)
    (runs : thread.Runs R pool thread') :
    ∃ entries, Trail (Scene.Incident R) (seat.scene pool .none (on thread)) entries
      (seat.scene pool .none (on thread')) ∧ Silent fiber entries := by
  induction runs with
  | refl => exact ⟨[], .refl, .nil⟩
  | @tail thread₁ thread₂ runs last ih =>
    obtain ⟨entries, htrail, hsilent⟩ := ih
    have hpure₁ : thread₁.PureWithin H P :=
      (Thread.Runs.mono hpool (Pool.keepsReady_refl pool) hpure runs).2
    obtain ⟨moved, hactivity⟩ := hon last
    refine ⟨_, htrail.tail (seat.incident moved), hsilent.append ?_⟩
    rw [hactivity]
    exact .of_not_shared hpure₁.not_shared (fun hread => hfiber (hpure₁.mem_of_read hread)) _ _

end Moves

/-! ## The job of the fiber -/

section Beside

variable {R : Runtime S W} {fiber : FiberId} {action : S.Action} {pool pool' pool₁ : Pool S W}
  {n m : Nat}

theorem otherJobs_own (fiber : FiberId) (before after : List (Job S)) (thread : Thread S S.Value) :
    otherJobs {fiber} (before ++ ⟨fiber, thread⟩ :: after) = otherJobs {fiber} (before ++ after) :=
  otherJobs_skip (Set.mem_singleton fiber) before after

namespace Jobs.Beside

variable {jobs before after : List (Job S)} {thread thread' : Thread S S.Value}

/-- The job of the fiber goes on. -/
theorem exchange_own
    (h : Jobs.Beside R fiber action pool n jobs (before ++ ⟨fiber, thread⟩ :: after))
    (runs : (Thread.base (R.act action)).Runs R pool thread') :
    Jobs.Beside R fiber action pool n jobs (before ++ ⟨fiber, thread'⟩ :: after) where
  others := by
    have hothers := h.others
    rw [otherJobs_own] at hothers ⊢
    exact hothers
  own job hjob hfiber := by
    obtain hbefore | rfl | hafter : job ∈ before ∨ job = ⟨fiber, thread'⟩ ∨ job ∈ after := by
      simpa using hjob
    · exact h.own job (by simp [hbefore]) hfiber
    · exact runs
    · exact h.own job (by simp [hafter]) hfiber

/-- The job of the fiber is over. -/
theorem remove_own
    (h : Jobs.Beside R fiber action pool n jobs (before ++ ⟨fiber, thread⟩ :: after)) :
    Jobs.Beside R fiber action pool n jobs (before ++ after) where
  others := by
    rw [← otherJobs_own fiber before after thread]
    exact h.others
  own job hjob hfiber := by
    obtain hbefore | hafter := List.mem_append.mp hjob
    · exact h.own job (by simp [hbefore]) hfiber
    · exact h.own job (by simp [hafter]) hfiber

/-- The job of the fiber is launched. -/
theorem launch_own {jobs' : List (Job S)} (h : Jobs.Beside R fiber action pool n jobs jobs')
    {launch : Launch S}
    (hlaunch : ∀ job ∈ launch.jobs, job = Pool.jobOf R.toInterpreter fiber action) :
    Jobs.Beside R fiber action pool n jobs (launch.onto jobs') where
  others := by
    have hapart : launch.Apart {fiber} := by
      intro job hjob
      rw [hlaunch job hjob]
      exact Set.mem_singleton fiber
    rw [otherJobs_onto hapart]
    exact h.others
  own job hjob hfiber := by
    obtain hjob | hjob := List.mem_append.mp ((launch.onto_perm jobs').mem_iff.mp hjob)
    · rw [hlaunch job hjob]
      exact .refl
    · exact h.own job hjob hfiber

end Jobs.Beside

namespace Scene.Beside

variable {scene : Scene S W α} {callers' : List (Main S α)} {jobs' before after : List (Job S)}
  {thread : Thread S S.Value}

/-- If the job of the fiber begins, nothing is different. -/
theorem begun (h : scene.Beside R fiber action n ⟨pool', callers', jobs'⟩) {position : Nat}
    {job : Job S} {pool₁' : Pool S W} (hjob : job.fiber = fiber)
    (started : pool'.startAt? R.toInterpreter position = some (job, pool₁')) :
    scene.Beside R fiber action n ⟨pool₁', callers', job :: jobs'⟩ ∧
      pool₁'.get? fiber = some .running := by
  obtain ⟨hpools, m, k, rfl, hcallers, hjobs⟩ := h
  have hevents := (Pool.told_startAt started).2
  have htwins := hpools.twins.trans (Pool.twins_startAt (Set.mem_singleton_iff.mpr hjob) started)
    Eq.trans
  have hstage := hpools.backs
  unfold Pool.startAt? at started
  split at started
  · cases started
  · next other hqueued =>
    dsimp only at started
    split at started
    · next action' hwaiting =>
      cases started
      obtain rfl : other = fiber := hjob
      -- What waits is the action of the fiber, since nothing else was handed over for it.
      have hwaiting' : pool'.get? other = some (.waiting action') := hwaiting
      change Fiber.Backs R action _ (pool'.get? other) at hstage
      rw [hwaiting'] at hstage
      cases hstage
      have hrunning : (Pool.set { pool' with
          queue := pool'.queue.eraseIdxIfInBounds position } other .running).get? other =
          some .running := Pool.get?_of_set rfl hwaiting
      have hlaunched := hjobs.launch_own
        (show ∀ job ∈ (Launch.ahead (Pool.jobOf R.toInterpreter other action)).jobs, _ by
          simp [Launch.jobs])
      refine ⟨⟨⟨htwins, hevents.trans hpools.events, hpools.recomputing, ?_⟩, m, k, rfl, hcallers,
        hlaunched⟩, hrunning⟩
      rw [hrunning]
      exact .running
    · cases started

/-- If it ends, it has come to what the action comes to. -/
theorem finished {outcome : Except Fault S.Value}
    (h : scene.Beside R fiber action n
      ⟨pool', callers', before ++ ⟨fiber, .base (.ofExcept outcome)⟩ :: after⟩)
    (hrunning : pool'.get? fiber = some .running) :
    scene.Beside R fiber action n
        ⟨pool'.finish R.level fiber outcome, callers', before ++ after⟩ ∧
      (pool'.finish R.level fiber outcome).get? fiber = some (.ended (.ofOutcome outcome)) := by
  obtain ⟨hpools, m, k, rfl, hcallers, hjobs⟩ := h
  have hended : (pool'.finish R.level fiber outcome).get? fiber =
      some (.ended (.ofOutcome outcome)) :=
    Pool.get?_of_set (Pool.fibers_finish hrunning) hrunning
  refine ⟨⟨⟨?_, ?_, hpools.recomputing, ?_⟩, m, k, rfl, hcallers, hjobs.remove_own⟩, hended⟩
  · exact hpools.twins.trans
      (Pool.twins_finish (Set.mem_singleton fiber) R.level outcome pool') Eq.trans
  · exact Pool.events_finish.trans hpools.events
  · rw [hended]
    exact .ended (hjobs.own _ (List.mem_append_right _ List.mem_cons_self) rfl)

section Ready

variable {scene' : Scene S W α} {H : Holdings S} {P : Set FiberId}
  (hact : (R.act action).PureWithin H P (Value.Within H P))
  (hpool : scene.pool.PureOn H R.toMeaning P) (hfiber : fiber ∉ P)

include hact hpool hfiber

/-- The job of the fiber, once begun, can be run to the outcome that the action comes to. -/
theorem exists_finished (h : scene.Beside R fiber action n scene') (hcounted : scene'.Counted)
    (hrunning : scene'.pool.get? fiber = some .running) {outcome : Except Fault S.Value}
    (runs : (Thread.base (R.act action)).Runs R scene.pool (.base (.ofExcept outcome))) :
    ∃ entries scene'', Trail (Incident R) scene' entries scene'' ∧
      scene.Beside R fiber action n scene'' ∧ Silent fiber entries ∧
      scene''.pool.get? fiber = some (.ended (.ofOutcome outcome)) := by
  obtain ⟨pool', callers', jobs'⟩ := scene'
  have hmem : fiber ∈ jobs'.map Job.fiber := by
    have hcount : (jobs'.map Job.fiber).count fiber = 1 := by
      rw [hcounted.jobs, hrunning]
      rfl
    exact List.count_pos_iff.mp (hcount ▸ Nat.one_pos)
  obtain ⟨⟨other, thread⟩, hjob, hother⟩ := List.mem_map.mp hmem
  obtain rfl : fiber = other := hother.symm
  obtain ⟨before, after, rfl⟩ := List.append_of_mem hjob
  have htwins := h.pools.twins
  obtain ⟨hpools, m, k, rfl, hcallers, hjobs⟩ := h
  have hown := hjobs.own _ hjob rfl
  have hpure := (hown.mono hpool (Pool.keepsReady_refl _) (.base hact)).2
  -- The job is on its way to the outcome, and the fibers that it reads are the same here.
  have hruns := (Thread.Runs.mono hpool (htwins.keepsReady hfiber) hpure
    (hown.determined runs)).1
  obtain ⟨entries, htrail, hsilent⟩ :=
    (Seat.job callers' before after fiber).trail_of_runs id (hpool.of_twins htwins hfiber) hfiber
      (fun {_ _} moved => ⟨moved, rfl⟩) hpure hruns
  have hmoved : scene.Beside R fiber action (m + k)
      ⟨pool', callers', before ++ ⟨fiber, .base (.ofExcept outcome)⟩ :: after⟩ :=
    ⟨hpools, m, k, rfl, hcallers, hjobs.exchange_own runs⟩
  obtain ⟨hfinished, hended⟩ := hmoved.finished hrunning
  have hlast : Incident R ⟨pool', callers', before ++ ⟨fiber, .base (.ofExcept outcome)⟩ :: after⟩
      [.ended (.job fiber) (outcomeFault outcome) [.ended fiber outcome]]
      ⟨pool'.finish R.level fiber outcome, callers', before ++ after⟩ :=
    .jobEnded callers' before after (Thread.move_ofExcept R pool' outcome)
  exact ⟨_, _, htrail.tail hlast, hfinished, hsilent.append (.of_job_ended _ _), hended⟩

/-- The second execution can go on until the fiber has ended, if it ever does. -/
theorem exists_ready (h : scene.Beside R fiber action n scene') (hcounted : scene'.Counted) :
    ∃ entries scene'', Trail (Incident R) scene' entries scene'' ∧
      scene.Beside R fiber action n scene'' ∧ Silent fiber entries ∧
      ∀ outcome, (Thread.base (R.act action)).Runs R scene.pool (.base (.ofExcept outcome)) →
        scene''.pool.get? fiber = some (.ended (.ofOutcome outcome)) := by
  by_cases hends : ∃ outcome,
      (Thread.base (R.act action)).Runs R scene.pool (.base (.ofExcept outcome))
  · obtain ⟨outcome, runs⟩ := hends
    have honly {outcome' : Except Fault S.Value}
        (runs' : (Thread.base (R.act action)).Runs R scene.pool (.base (.ofExcept outcome'))) :
        outcome' = outcome := runs.outcome_unique runs'
    have hbacks := h.pools.backs
    generalize hstage : scene'.pool.get? fiber = stage at hbacks
    -- Its job can be brought to its end from wherever it is: from the queue, or from where it has
    -- got.
    cases hbacks with
    | waiting =>
      obtain ⟨position, hqueued⟩ : ∃ position, scene'.pool.queue[position]? = some fiber := by
        have hcount : scene'.pool.queue.toList.count fiber = 1 := by
          rw [hcounted.queue, hstage]
          rfl
        have hmem := List.count_pos_iff.mp (hcount ▸ Nat.one_pos)
        obtain ⟨position, hposition⟩ := List.getElem?_of_mem hmem
        exact ⟨position, by rwa [Array.getElem?_toList] at hposition⟩
      obtain ⟨pool', callers', jobs'⟩ := scene'
      obtain ⟨pool₁', started⟩ := Pool.exists_startAt R.toInterpreter hqueued hstage
      have hbegins := Incident.jobBegun callers' jobs' started
      obtain ⟨hbegun, hrunning⟩ := h.begun rfl started
      obtain ⟨entries, scene'', htrail, hbeside, hsilent, hended⟩ :=
        exists_finished hact hpool hfiber hbegun (hcounted.incident hbegins) hrunning runs
      refine ⟨_, scene'', (Trail.single hbegins).trans htrail, hbeside, ?_, ?_⟩
      · exact Silent.append (.of_queued rfl) hsilent
      · intro outcome' runs'
        rw [honly runs', hended]
    | running =>
      obtain ⟨entries, scene'', htrail, hbeside, hsilent, hended⟩ :=
        exists_finished hact hpool hfiber h hcounted hstage runs
      refine ⟨entries, scene'', htrail, hbeside, hsilent, fun outcome' runs' => ?_⟩
      rw [honly runs', hended]
    | @ended outcome₁ runs₁ =>
      refine ⟨[], scene', .refl, h, .nil, fun outcome' runs' => ?_⟩
      rw [runs₁.outcome_unique runs', hstage]
  · exact ⟨[], scene', .refl, h, .nil, fun outcome runs => absurd ⟨outcome, runs⟩ hends⟩

end Ready

end Scene.Beside

end Beside

end FiberPrograms
