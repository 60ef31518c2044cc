import FiberPrograms.Policy
import FiberPrograms.Proofs.LifeCycle
import FiberPrograms.Proofs.Mirrors

/-!
# Forecasts

Where actions read no fibers but such as have ended long since, it is known what a fiber will come
to as soon as its action is handed over. Then a run can be foretold without running any job: a
ledger says which fibers have been made, which actions have been handed over and with what outcome,
and which events have been put down, and a reader is told what the ledger says.

## Main definitions

* `Observer.Faithful`: an observer puts down each event once, and does nothing to fibers
* `Errand`, `Ledger`: what is known of a run by the actions that have been handed over
* `Comp.Forecast`: what a computation comes to, by the ledger
* `Pool.Follows`: a pool and the jobs under way are as the ledger says

## Main results

* `Pool.Follows.answer`: what is asked for is answered as the ledger says
* `Pool.Follows.begin`, `Pool.Follows.finish`: what jobs do is as the ledger says
-/

namespace FiberPrograms

variable {S : Signature} {W : Type}

/-! ## Observers that put down each event once -/

/-- A computation that puts down the given events in order and does nothing to fibers. -/
inductive Comp.PutsDown : (events : List Event) → Comp S Unit → Prop
  | done : PutsDown [] (.done ())
  | note {event : Event} {events : List Event} {k : (Request.note event).Reply → Comp S Unit}
      (rest : PutsDown events (k ())) : PutsDown (event :: events) (.ask (.note event) k)
  | sight {fiber : FiberId} {events : List Event} {k : (Request.sight fiber).Reply → Comp S Unit}
      (rest : PutsDown events (k ())) : PutsDown events (.ask (.sight fiber) k)
  | log {record : Record} {events : List Event} {k : (Request.log record).Reply → Comp S Unit}
      (rest : PutsDown events (k ())) : PutsDown events (.ask (.log record) k)
  | perform {e : S.Effect} {events : List Event} {k : (Request.perform e).Reply → Comp S Unit}
      (rest : ∀ reply, PutsDown events (k reply)) : PutsDown events (.ask (.perform e) k)

theorem Comp.PutsDown.bind {events more : List Event} {c c' : Comp S Unit}
    (h : c.PutsDown events) (h' : c'.PutsDown more) :
    (c.bind fun _ => c').PutsDown (events ++ more) := by
  induction h with
  | done => exact h'
  | note rest ih => exact .note ih
  | sight rest ih => exact .sight ih
  | log rest ih => exact .log ih
  | perform rest ih => exact .perform ih

namespace Observer

/-- An observer that puts down each event once. -/
def Faithful (observer : Observer S) : Prop :=
  ∀ event, (observer event).PutsDown [event]

theorem faithful_recording : Faithful (recording : Observer S)
  | .fork _ _ => .sight (.note .done)
  | .await _ => .note .done
  | .finished _ => .note .done

theorem putsDown_all {observers : List (Observer S)} {event : Event}
    (h : ∀ other ∈ observers, (other event).PutsDown []) : (all observers event).PutsDown [] := by
  induction observers with
  | nil => exact .done
  | cons first rest ih =>
    have hrest := ih fun other hother => h other (List.mem_cons_of_mem _ hother)
    exact (h first List.mem_cons_self).bind hrest

/-- One among several observers puts down the events, and the others do not. -/
theorem faithful_all {earlier later : List (Observer S)} {observer : Observer S}
    (h : observer.Faithful)
    (hothers : ∀ other ∈ earlier ++ later, ∀ event, (other event).PutsDown []) :
    Faithful (all (earlier ++ observer :: later)) := by
  intro event
  induction earlier with
  | nil =>
    have hlater := putsDown_all fun other hother => hothers other hother event
    exact (h event).bind hlater
  | cons first earlier ih =>
    have hrest := ih fun other hother => hothers other (List.mem_cons_of_mem _ hother)
    exact (hothers first List.mem_cons_self event).bind hrest

end Observer

/-- Where no job waits in a queue, the observers that a policy provides put down each event once. -/
theorem Policy.faithful_runtime {policy : Policy} (hpolicy : policy.spawner ≠ .queued)
    (meaning : Meaning S) (level : Option Level) (effect : (e : S.Effect) → W → S.Reply e × W) :
    Observer.Faithful (policy.runtime meaning level effect).observer := by
  have hreaction (event : Event) : (policy.reaction event : Comp S Unit).PutsDown [] := by
    cases policy with
    | inline | background | discarding => cases event <;> exact .done
    | oldestFirst | newestFirst | byHand => exact absurd rfl hpolicy
  have hothers : ∀ other ∈ [.logging] ++ [policy.reaction], ∀ event,
      (other event : Comp S Unit).PutsDown [] := by
    intro other hother event
    obtain rfl | rfl : other = .logging ∨ other = policy.reaction := by simpa using hother
    · exact .log .done
    · exact hreaction event
  exact Observer.faithful_all Observer.faithful_recording hothers

/-! ## Forecasts -/

/-- An action that has been handed over for a fiber, and what it will come to. -/
structure Errand (S : Signature) where
  fiber : FiberId
  action : S.Action
  outcome : Except Fault S.Value

namespace Errand

variable (errand : Errand S)

/-- What the reader of the fiber will be told. -/
def told : Except Fault S.Value :=
  (Ending.ofOutcome errand.outcome).read errand.fiber

/-- The action is handed over. -/
def deed : Deed S :=
  .handed errand.fiber errand.action

/-- What is done to the fiber of an action that is run once. -/
def lifeline : List (Deed S) :=
  [.handed errand.fiber errand.action, .begun errand.fiber, .ended errand.fiber errand.outcome]

end Errand

theorem Ending.ofOutcome_injective : Function.Injective (ofOutcome (S := S))
  | .ok _, .ok _, rfl => rfl
  | .error _, .error _, rfl => rfl

/-- Whether an action is handed over. -/
def Deed.isHanded : Deed S → Bool
  | handed _ _ => true
  | _ => false

/-- What is known of a run: how many fibers there are, the one of them that has got a name and
nothing else, the actions that have been handed over, and the events that have been put down. -/
structure Ledger (S : Signature) where
  made : Nat
  fresh : Option FiberId
  errands : List (Errand S)
  events : List Event

namespace Ledger

/-- A fiber is made. -/
def name (L : Ledger S) : Ledger S :=
  { L with made := L.made + 1, fresh := some ⟨L.made⟩ }

/-- The action of the new fiber is handed over. -/
def hand (L : Ledger S) (errand : Errand S) : Ledger S :=
  { L with fresh := none, errands := L.errands ++ [errand] }

/-- An event is put down. -/
def note (L : Ledger S) (event : Event) : Ledger S :=
  { L with events := L.events ++ [event] }

/-- What may be asked for in a run that can be foretold. Actions are handed over for new fibers, and
they read no fibers but such as have ended in the pool in which the run has begun. -/
def Allows (I : Interpreter S) (base : Pool S W) (L : Ledger S) : Request S → Prop
  | .start fiber action =>
    L.fresh = some fiber ∧ ∃ outcome, (I.act action).Settles base outcome
  | .keep _ _ => False
  | .ended _ => False
  | _ => True

/-- How a request is answered, and what the ledger says afterwards. -/
inductive Answers (I : Interpreter S) (base : Pool S W) (L : Ledger S) :
    (request : Request S) → request.Reply → Ledger S → Prop
  | newFiber : Answers I base L .newFiber ⟨L.made⟩ L.name
  | start {fiber : FiberId} {action : S.Action} {outcome : Except Fault S.Value}
      (settles : (I.act action).Settles base outcome) :
      Answers I base L (.start fiber action) () (L.hand ⟨fiber, action, outcome⟩)
  | note (event : Event) : Answers I base L (.note event) () (L.note event)
  | sight (fiber : FiberId) : Answers I base L (.sight fiber) () L
  | log (record : Record) : Answers I base L (.log record) () L
  | perform (e : S.Effect) (reply : S.Reply e) : Answers I base L (.perform e) reply L

end Ledger

/-- What is known of a pool in which no job waits or runs. -/
def Pool.ledger (pool : Pool S W) : Ledger S where
  made := pool.fibers.size
  fresh := none
  errands := []
  events := pool.events.toList

/-- By the ledger, the machine whose step is under way comes to an outcome, and leaves another
ledger. -/
inductive Comp.Forecast (I : Interpreter S) (base : Pool S W) :
    Ledger S → Comp S (Turn S) → Ledger S → Except Fault S.Value → Prop
  | value {L : Ledger S} (v : S.Value) : Forecast I base L (.done (.value v)) L (.ok v)
  | fail {L : Ledger S} (fault : Fault) : Forecast I base L (.fail fault) L (.error fault)
  | again {L L' : Ledger S} {yields : Ty S.Base} {machine : S.Machine}
      {outcome : Except Fault S.Value}
      (rest : Forecast I base L (I.turn yields machine) L' outcome) :
      Forecast I base L (.done (.again yields machine)) L' outcome
  | ask {L L' : Ledger S} {request : Request S} {k : request.Reply → Comp S (Turn S)}
      {outcome : Except Fault S.Value} (allowed : L.Allows I base request)
      (rest : ∀ reply L₁, L.Answers I base request reply L₁ →
        Forecast I base L₁ (k reply) L' outcome) :
      Forecast I base L (.ask request k) L' outcome
  | known {L L' : Ledger S} {fiber : FiberId} {ending : Ending S}
      {k : Except Fault S.Value → Comp S (Turn S)} {outcome : Except Fault S.Value}
      (ended : base.get? fiber = some (.ended ending))
      (rest : Forecast I base L (k (ending.read fiber)) L' outcome) :
      Forecast I base L (.demand (.read fiber) k) L' outcome
  | read {L L' : Ledger S} {errand : Errand S} {k : Except Fault S.Value → Comp S (Turn S)}
      {outcome : Except Fault S.Value} (mem : errand ∈ L.errands)
      (rest : Forecast I base L (k errand.told) L' outcome) :
      Forecast I base L (.demand (.read errand.fiber) k) L' outcome

/-! ## Pools that are as the ledger says -/

/-- The stages in which a fiber can be whose action has been handed over. -/
inductive Errand.Stands (errand : Errand S) : Fiber S → Prop
  | waiting : Stands errand (.waiting errand.action)
  | running : Stands errand .running
  | ended : Stands errand (.ended (.ofOutcome errand.outcome))

/-- A job is on its way to the outcome that is known of its fiber. -/
def Errand.RunBy (base : Pool S W) (errand : Errand S) (job : Job S) : Prop :=
  errand.fiber = job.fiber ∧ ∃ c, job.thread = .base c ∧ c.Settles base errand.outcome

/-- A pool, and the jobs under way, are as the ledger says. -/
structure Pool.Follows (I : Interpreter S) (pool base : Pool S W) (jobs : List (Job S))
    (L : Ledger S) : Prop where
  made : pool.fibers.size = L.made
  events : pool.events.toList = L.events
  kept : base.Keeps pool
  fresh : ∀ {fiber}, L.fresh = some fiber → pool.get? fiber = some .named
  stands : ∀ errand ∈ L.errands, ∃ stage, pool.get? errand.fiber = some stage ∧ errand.Stands stage
  settles : ∀ errand ∈ L.errands, (I.act errand.action).Settles base errand.outcome
  queue : ∀ fiber ∈ pool.queue.toList, ∃ errand ∈ L.errands, errand.fiber = fiber
  jobs : ∀ job ∈ jobs, ∃ errand ∈ L.errands, errand.RunBy base job
  distinct : ∀ errand ∈ L.errands, ∀ other ∈ L.errands, other.fiber = errand.fiber → other = errand

/-- An action is on a ledger, whether it was before or has been handed over just now, and nothing
else has come or gone. -/
structure Ledger.Has (L : Ledger S) (errand : Errand S) (L' : Ledger S) : Prop where
  made : L'.made = L.made
  events : L'.events = L.events
  mem : errand ∈ L'.errands
  fresh : ∀ {fiber}, L'.fresh = some fiber → L.fresh = some fiber ∧ fiber ≠ errand.fiber
  sub : ∀ {other}, other ∈ L.errands → other ∈ L'.errands
  old : ∀ {other}, other ∈ L'.errands →
    other = errand ∨ other ∈ L.errands ∧ other.fiber ≠ errand.fiber

namespace Pool.Follows

variable {I : Interpreter S} {base pool pool' : Pool S W} {jobs jobs' : List (Job S)}
  {L L' : Ledger S} {errand : Errand S} {stage stage' : Fiber S}

/-- A run begins with what is known of the pool. -/
theorem start (hqueue : pool.queue = #[]) : pool.Follows I pool [] pool.ledger where
  made := rfl
  events := rfl
  kept := fun _ _ hended => hended
  fresh := nofun
  stands := by simp [ledger]
  settles := by simp [ledger]
  queue := by simp [hqueue]
  jobs := by simp
  distinct := by simp [ledger]

/-- Nothing is done to fibers. -/
theorem still (h : pool.Follows I base jobs L) (fibers : pool'.fibers = pool.fibers)
    (queue : pool'.queue = pool.queue) (events : pool'.events.toList = L'.events)
    (hL : L'.made = L.made ∧ L'.fresh = L.fresh ∧ L'.errands = L.errands) :
    pool'.Follows I base jobs L' := by
  obtain ⟨hmade, hfresh, herrands⟩ := hL
  refine ⟨?_, events, fun fiber ending hended => ?_, fun {fiber} hfiber => ?_, ?_, ?_, ?_, ?_, ?_⟩
  · rw [fibers, hmade, h.made]
  · rw [get?_congr fibers]
    exact h.kept hended
  · rw [get?_congr fibers]
    exact h.fresh (hfresh ▸ hfiber)
  · simp only [herrands, get?_congr fibers]
    exact h.stands
  · rw [herrands]
    exact h.settles
  · rw [herrands, queue]
    exact h.queue
  · rw [herrands]
    exact h.jobs
  · rw [herrands]
    exact h.distinct

/-- A fiber is made. -/
theorem name (h : pool.Follows I base jobs L) (fibers : pool'.fibers = pool.fibers.push .named)
    (queue : pool'.queue = pool.queue) (events : pool'.events = pool.events) :
    pool'.Follows I base jobs L.name := by
  have hkept {fiber stage} (hstage : pool.get? fiber = some stage) :
      pool'.get? fiber = some stage := get?_push_of_get? fibers hstage
  refine ⟨?_, ?_, fun fiber ending hended => hkept (h.kept hended), fun {fiber} hfiber => ?_,
    fun errand herrand => ?_, h.settles, ?_, h.jobs, h.distinct⟩
  · rw [fibers, Array.size_push, h.made]
    rfl
  · rw [events, h.events]
    rfl
  · cases hfiber
    rw [get?_push fibers, h.made]
    exact if_pos rfl
  · obtain ⟨stage, hstage, hstands⟩ := h.stands errand herrand
    exact ⟨stage, hkept hstage, hstands⟩
  · rw [queue]
    exact h.queue

/-- Fibers whose actions have been handed over have got further than having a name. -/
theorem ne_named (h : pool.Follows I base jobs L) (hmem : errand ∈ L.errands) :
    pool.get? errand.fiber ≠ some .named := by
  intro hnamed
  obtain ⟨stage, hstage, hstands⟩ := h.stands errand hmem
  rw [hnamed] at hstage
  cases hstage
  cases hstands

theorem has_self (h : pool.Follows I base jobs L) (hmem : errand ∈ L.errands) :
    L.Has errand L where
  made := rfl
  events := rfl
  mem := hmem
  fresh hfresh := by
    refine ⟨hfresh, ?_⟩
    rintro rfl
    exact h.ne_named hmem (h.fresh hfresh)
  sub hother := hother
  old {other} hother := by
    by_cases hfiber : other.fiber = errand.fiber
    · exact .inl (h.distinct errand hmem other hother hfiber)
    · exact .inr ⟨hother, hfiber⟩

theorem has_hand (h : pool.Follows I base jobs L) (hnamed : pool.get? errand.fiber = some .named) :
    L.Has errand (L.hand errand) where
  made := rfl
  events := rfl
  mem := by simp [Ledger.hand]
  fresh := nofun
  sub hother := by simp [Ledger.hand, hother]
  old {other} hother := by
    obtain hother | rfl : other ∈ L.errands ∨ other = errand := by
      simpa [Ledger.hand] using hother
    · refine .inr ⟨hother, fun hfiber => h.ne_named hother ?_⟩
      rw [hfiber, hnamed]
    · exact .inl rfl

/-- One fiber passes to a stage in which it can be when its action has been handed over. -/
theorem pass (h : pool.Follows I base jobs L) (hL : L.Has errand L')
    (before : pool.get? errand.fiber = some stage) (hopen : ∀ ending, stage ≠ .ended ending)
    (settles : (I.act errand.action).Settles base errand.outcome) (stands : errand.Stands stage')
    (fibers : pool'.fibers = (pool.set errand.fiber stage').fibers)
    (events : pool'.events = pool.events)
    (queue : ∀ fiber ∈ pool'.queue.toList, fiber ∈ pool.queue.toList ∨ fiber = errand.fiber)
    (jobs : ∀ job ∈ jobs', job ∈ jobs ∨ errand.RunBy base job) :
    pool'.Follows I base jobs' L' := by
  have hget (fiber : FiberId) : pool'.get? fiber =
      if fiber = errand.fiber then some stage' else pool.get? fiber := by
    rw [get?_congr fibers, get?_set, before]
    rfl
  refine ⟨?_, ?_, fun fiber ending hended => ?_, fun {fiber} hfiber => ?_, fun other hother => ?_,
    fun other hother => ?_, fun fiber hfiber => ?_, fun job hjob => ?_,
    fun first hfirst second hsecond hfiber => ?_⟩
  · rw [fibers, size_set, h.made, hL.made]
  · rw [events, h.events, hL.events]
  · -- What has ended passes to no other stage.
    have hended' := h.kept hended
    rw [hget, if_neg]
    · exact hended'
    · rintro rfl
      exact hopen ending (Option.some.inj (before.symm.trans hended'))
  · -- A fiber with a fresh name is another than this one.
    obtain ⟨hfresh, hne⟩ := hL.fresh hfiber
    rw [hget, if_neg hne]
    exact h.fresh hfresh
  · obtain rfl | ⟨hother, hne⟩ := hL.old hother
    · exact ⟨stage', (hget _).trans (if_pos rfl), stands⟩
    · rw [hget, if_neg hne]
      exact h.stands other hother
  · obtain rfl | ⟨hother, -⟩ := hL.old hother
    · exact settles
    · exact h.settles other hother
  · -- Whatever is in the queue or under way was so before, or is on this errand.
    obtain hfiber | rfl := queue fiber hfiber
    · obtain ⟨other, hother, hfiber⟩ := h.queue fiber hfiber
      exact ⟨other, hL.sub hother, hfiber⟩
    · exact ⟨errand, hL.mem, rfl⟩
  · obtain hjob | hjob := jobs job hjob
    · obtain ⟨other, hother, hruns⟩ := h.jobs job hjob
      exact ⟨other, hL.sub hother, hruns⟩
    · exact ⟨errand, hL.mem, hjob⟩
  · -- No two errands are of one fiber, as the new one is of a fiber that had none.
    obtain rfl | ⟨hfirst, hne⟩ := hL.old hfirst
    · obtain rfl | ⟨-, hne⟩ := hL.old hsecond
      · rfl
      · exact absurd hfiber hne
    · obtain rfl | ⟨hsecond, -⟩ := hL.old hsecond
      · exact absurd hfiber.symm hne
      · exact h.distinct first hfirst second hsecond hfiber

end Pool.Follows

namespace Pool.Follows

variable {R : Runtime S W} {base pool pool' : Pool S W} {jobs : List (Job S)} {L : Ledger S}

/-- The action of a new fiber is handed over. -/
theorem hand (h : pool.Follows R.toInterpreter base jobs L) (hspawner : R.spawner ≠ .discarding)
    (errand : Errand S) (hfresh : L.fresh = some errand.fiber)
    (settles : (R.act errand.action).Settles base errand.outcome) :
    (pool.start R errand.fiber errand.action).2.Follows R.toInterpreter base
      ((pool.start R errand.fiber errand.action).1.onto jobs) (L.hand errand) ∧
    (pool.startDeeds R errand.fiber errand.action).filter Deed.isHanded = [errand.deed] := by
  have hnamed := h.fresh hfresh
  have hopen (ending : Ending S) : Fiber.named ≠ .ended ending := by simp
  have hjob : errand.RunBy base (jobOf R.toInterpreter errand.fiber errand.action) :=
    ⟨rfl, _, rfl, settles⟩
  rw [Pool.start, Pool.startDeeds, hnamed]
  -- The spawner decides whether the job is under way at once or waits, but it keeps to the errand.
  cases hspawner' : R.spawner with
  | inline =>
    refine ⟨h.pass (h.has_hand hnamed) hnamed hopen settles .running ?_ ?_ (fun fiber => ?_) ?_,
      rfl⟩
    · simp [set]
    · simp
    · simpa using .inl
    · simpa [Launch.onto] using ⟨.inr hjob, fun job hjob => .inl hjob⟩
  | background =>
    refine ⟨h.pass (h.has_hand hnamed) hnamed hopen settles .running ?_ ?_ (fun fiber => ?_)
      fun job hmem => ?_, rfl⟩
    · simp [set]
    · simp
    · simpa using .inl
    · obtain hmem | hmem := List.mem_append.mp hmem
      · exact .inl hmem
      · obtain rfl := List.mem_singleton.mp hmem
        exact .inr hjob
  | queued =>
    refine ⟨h.pass (h.has_hand hnamed) hnamed hopen settles .waiting ?_ ?_ ?_ ?_, rfl⟩
    · simp [set]
    · simp
    · simp
    · exact fun job hjob => .inl hjob
  | discarding => exact absurd hspawner' hspawner

/-- What is asked for is answered as the ledger says. -/
theorem answer (h : pool.Follows R.toInterpreter base jobs L) (hspawner : R.spawner ≠ .discarding)
    {request : Request S} (allowed : L.Allows R.toInterpreter base request)
    (k : request.Reply → Comp S (Turn S)) :
    ∃ L', L.Answers R.toInterpreter base request (pool.answer R request).1 L' ∧
      (pool.answer R request).2.2.Follows R.toInterpreter base
        ((pool.answer R request).2.1.onto jobs) L' ∧
      L'.errands.map Errand.deed =
        L.errands.map Errand.deed ++ ((Comp.ask request k).deeds R pool).filter Deed.isHanded := by
  have hsame : L.errands.map Errand.deed = L.errands.map Errand.deed ++ [] :=
    (List.append_nil _).symm
  cases request with
  | newFiber =>
    rw [show (pool.answer R .newFiber).1 = (⟨L.made⟩ : FiberId) from congrArg FiberId.mk h.made]
    exact ⟨_, .newFiber, h.name rfl rfl rfl, hsame⟩
  | start fiber action =>
    obtain ⟨hfresh, outcome, settles⟩ := allowed
    obtain ⟨hfollows, hhanded⟩ := h.hand hspawner ⟨fiber, action, outcome⟩ hfresh settles
    refine ⟨_, .start settles, hfollows, ?_⟩
    rw [Comp.deeds, hhanded]
    simp [Ledger.hand]
  | keep fiber action => exact allowed.elim
  | ended fiber => exact allowed.elim
  | note event =>
    refine ⟨_, .note event, h.still rfl rfl ?_ ⟨rfl, rfl, rfl⟩, hsame⟩
    simp [Pool.answer, Ledger.note, h.events]
  | sight fiber => exact ⟨_, .sight fiber, h.still rfl rfl h.events ⟨rfl, rfl, rfl⟩, hsame⟩
  | log record =>
    refine ⟨_, .log record, h.still (fibers_log ..) (queue_log ..) ?_ ⟨rfl, rfl, rfl⟩, hsame⟩
    rw [show (pool.answer R (.log record)).2.2.events = pool.events from events_log ..]
    exact h.events
  | perform e => exact ⟨_, .perform e _, h.still rfl rfl h.events ⟨rfl, rfl, rfl⟩, hsame⟩

end Pool.Follows

/-! ## Jobs under way -/

/-- How many fibers are read by code that reads such as have ended. -/
def Comp.reads {α : Type} (pool : Pool S W) : Comp S α → Nat
  | .demand (.read fiber) k =>
    match pool.get? fiber with
    | some (.ended ending) => (k (ending.read fiber)).reads pool + 1
    | _ => 0
  | _ => 0

/-- Code that reads fibers that have ended is told of their endings, wherever those are kept. -/
theorem Comp.Settles.react {α : Type} {R : Runtime S W} {base pool : Pool S W} {c : Comp S α}
    {outcome : Except Fault α} (h : c.Settles base outcome) (hkept : base.Keeps pool) :
    c.react R pool = (.ended outcome, pool) ∨
      ∃ c', c.react R pool = (.next c' .none, pool) ∧ c'.Settles base outcome ∧
        c'.reads base < c.reads base ∧ ∀ {deed}, deed ∈ c.deeds R pool → deed.isHanded = false := by
  cases h with
  | done a => exact .inl rfl
  | fail fault => exact .inl rfl
  | @read fiber ending k outcome ended rest =>
    refine .inr ⟨k (ending.read fiber), ?_, rest, ?_, ?_⟩
    · rw [Comp.react, hkept ended]
    · simp only [Comp.reads, ended]
      exact Nat.lt_succ_self _
    · intro deed hdeed
      simp only [Comp.deeds, Pool.readDeeds, hkept ended, List.mem_singleton] at hdeed
      rw [hdeed]
      rfl

/-- What is left to be done by a job. -/
def Job.work (base : Pool S W) (job : Job S) : Nat :=
  match job.thread with
  | .base c => c.reads base + 1
  | .nested _ _ _ => 0

namespace Pool.Follows

variable {R : Runtime S W} {base pool pool' : Pool S W} {jobs jobs' before after : List (Job S)}
  {L : Ledger S} {errand : Errand S} {fiber : FiberId}

/-- A job that waits in the queue begins. -/
theorem begin (h : pool.Follows R.toInterpreter base jobs L) {position : Nat} {job : Job S}
    (started : pool.startAt? R.toInterpreter position = some (job, pool')) :
    pool'.Follows R.toInterpreter base (job :: jobs) L ∧ pool'.queue.size < pool.queue.size := by
  unfold startAt? at started
  split at started
  · cases started
  · rename_i fiber hqueue
    dsimp only at started
    split at started
    · rename_i action hwaiting
      cases started
      obtain ⟨errand, hmem, rfl⟩ :=
        h.queue fiber (Array.mem_toList_iff.mpr (Array.mem_of_getElem? hqueue))
      obtain ⟨stage, hstage, hstands⟩ := h.stands errand hmem
      obtain rfl : stage = .waiting action := Option.some.inj (hstage.symm.trans hwaiting)
      cases hstands
      obtain ⟨hposition, -⟩ := Array.getElem?_eq_some_iff.mp hqueue
      refine ⟨h.pass (h.has_self hmem) hstage nofun (h.settles errand hmem) .running rfl rfl
        (fun fiber hfiber => .inl ?_) fun job hjob => ?_, ?_⟩
      · -- Nobody gets into the queue.
        have hcount := count_eraseIdx hqueue fiber
        have hpos := List.count_pos_iff.mpr hfiber
        rw [← List.count_pos_iff]
        simp only [queue_set] at hpos
        omega
      · obtain rfl | hjob := List.mem_cons.mp hjob
        · exact .inr ⟨rfl, _, rfl, h.settles errand hmem⟩
        · exact .inl hjob
      · rw [queue_set, ← Array.length_toList, Array.toList_eraseIdxIfInBounds,
          List.length_eraseIdx_of_lt hposition, Array.length_toList]
        omega
    · cases started

/-- A job under way ends. -/
theorem finish (h : pool.Follows R.toInterpreter base jobs L) (hmem : errand ∈ L.errands)
    (hrunning : pool.get? errand.fiber = some .running) (level : Option Level)
    (hjobs : ∀ job ∈ jobs', job ∈ jobs) :
    (pool.finish level errand.fiber errand.outcome).Follows R.toInterpreter base jobs' L := by
  refine h.pass (h.has_self hmem) hrunning nofun (h.settles errand hmem) .ended
    (fibers_finish hrunning) events_finish (fun fiber => ?_) fun job hjob => .inl (hjobs job hjob)
  simpa using .inl

end Pool.Follows

end FiberPrograms
