import FiberPrograms.Pool
import FiberPrograms.Proofs.Holdings

/-!
# Pools that mirror one another

If user code is pure, the ending of a fiber is settled as soon as it is started: it depends on
nothing but the endings of fibers that have been started before. So there is a pool that is ahead
of all others, in which every fiber that has been started has ended. Any other pool that has come
about in the same way mirrors it: what waits or runs there is on its way to the ending that is
known, and what has ended has ended that way.

## Main definitions

* `Pool.ended`, `Pool.startable`: the fibers that have ended, and those that may be started
* `Pool.Agrees`: pools of which the same has been reported
* `Comp.Settles`: the outcome that pure code comes to
* `Pool.Mirrors`: a pool whose fibers are on their way to the endings that are known

## Main results

* `Comp.PureWithin.exists_settles`: pure code comes to an outcome if what it holds has ended
* `Pool.Mirrors.report`, `Pool.Mirrors.newFiber`, `Pool.Mirrors.goOn`, `Pool.Mirrors.learn`: what
  can be done to a pool so that it goes on mirroring the other
-/

namespace FiberPrograms

variable {S : Signature} {W α : Type} {H : Holdings S}

/-! ## Fibers that have ended -/

namespace Pool

variable {pool pool' : Pool S W} {fiber : FiberId} {ending : Ending S}

/-- The fibers that have ended. -/
def ended (pool : Pool S W) : Set FiberId :=
  {fiber | ∃ ending, pool.get? fiber = some (.ended ending)}

/-- The fibers that have ended or have nothing behind them yet. -/
def startable (pool : Pool S W) : Set FiberId :=
  {fiber | pool.get? fiber = some .named ∨ fiber ∈ pool.ended}

/-- What has ended in one pool has ended alike in the other. -/
def Keeps (pool pool' : Pool S W) : Prop :=
  ∀ ⦃fiber ending⦄, pool.get? fiber = some (.ended ending) → pool'.get? fiber = some (.ended ending)

/-- Whoever holds fibers that have ended, and reads them, gets to hold no others. -/
def Closed (H : Holdings S) (pool : Pool S W) : Prop :=
  ∀ ⦃fiber v⦄, pool.get? fiber = some (.ended (.value v)) → v.Within H pool.ended

/-- Two pools that cannot be told apart by what has been reported. -/
structure Agrees (pool pool' : Pool S W) : Prop where
  events : pool.events = pool'.events
  sighted : pool.sighted = pool'.sighted
  world : pool.world = pool'.world

theorem agrees_of_log (level : Option Level) (record : Record) (pool : Pool S W) :
    (pool.log level record).Agrees pool :=
  ⟨events_log .., sighted_log .., world_log ..⟩

theorem agrees_of_set_log (level : Option Level) (record : Record) (fiber : FiberId)
    (stage : Fiber S) (pool : Pool S W) : ((pool.log level record).set fiber stage).Agrees pool :=
  ⟨events_log .., sighted_log .., world_log ..⟩

theorem agrees_of_finish (level : Option Level) (fiber : FiberId)
    (outcome : Except Fault S.Value) (pool : Pool S W) :
    (pool.finish level fiber outcome).Agrees pool :=
  ⟨events_finish, sighted_finish, world_finish⟩

namespace Agrees

/-- Fibers are called the same. -/
theorem nameOf_eq (h : pool.Agrees pool') : pool.nameOf = pool'.nameOf := by
  funext fiber
  rw [nameOf, h.sighted, nameOf]

theorem symm (h : pool.Agrees pool') : pool'.Agrees pool :=
  ⟨h.events.symm, h.sighted.symm, h.world.symm⟩

theorem trans {pool'' : Pool S W} (h : pool.Agrees pool') (h' : pool'.Agrees pool'') :
    pool.Agrees pool'' :=
  ⟨h.events.trans h'.events, h.sighted.trans h'.sighted, h.world.trans h'.world⟩

end Agrees

theorem keeps_of_fibers (hfibers : pool'.fibers = pool.fibers) : pool.Keeps pool' := by
  intro fiber ending hended
  rwa [get?_congr hfibers]

theorem Keeps.ended_subset (h : pool.Keeps pool') : pool.ended ⊆ pool'.ended := by
  rintro fiber ⟨ending, hending⟩
  exact ⟨ending, h hending⟩

theorem Closed.read (h : pool.Closed H) (hended : pool.get? fiber = some (.ended ending)) :
    Value.OutcomeWithin H pool.ended (ending.read fiber) := by
  intro v hv
  cases ending with
  | value v' =>
    cases hv
    exact h hended
  | failed cause => cases hv
  | dropped => cases hv

theorem ended_congr (hfibers : pool'.fibers = pool.fibers) : pool'.ended = pool.ended := by
  simp only [ended, get?_congr hfibers]

theorem startable_congr (hfibers : pool'.fibers = pool.fibers) :
    pool'.startable = pool.startable := by
  simp only [startable, ended_congr hfibers, get?_congr hfibers]

/-! ### One more fiber that has been made -/

section MakeOne

variable (hfibers : pool'.fibers = pool.fibers.push .named)

include hfibers

theorem keeps_of_push : pool.Keeps pool' :=
  fun _ _ hended => get?_push_of_get? hfibers hended

theorem ended_of_push : pool'.ended = pool.ended := by
  refine (keeps_of_push hfibers).ended_subset.antisymm' ?_
  rintro fiber ⟨ending, hended⟩
  rw [get?_push hfibers] at hended
  split at hended
  · cases hended
  · exact ⟨ending, hended⟩

theorem startable_of_push : pool'.startable = insert ⟨pool.fibers.size⟩ pool.startable := by
  ext fiber
  by_cases hfiber : fiber = ⟨pool.fibers.size⟩
  · simp [startable, get?_push hfibers, hfiber]
  · simp [startable, ended_of_push hfibers, get?_push hfibers, hfiber]

end MakeOne

/-! ### One more fiber that has ended -/

section EndOne

variable (hnamed : pool.get? fiber = some .named)
  (hfibers : pool'.fibers = (pool.set fiber (.ended ending)).fibers)

include hnamed hfibers

theorem get?_of_endOne (other : FiberId) :
    pool'.get? other = if other = fiber then some (.ended ending) else pool.get? other := by
  rw [get?_congr hfibers, get?_set, hnamed]
  rfl

theorem keeps_of_endOne : pool.Keeps pool' := by
  intro other ending' hended
  rw [get?_of_endOne hnamed hfibers, if_neg]
  · exact hended
  · rintro rfl
    cases hnamed.symm.trans hended

theorem ended_of_endOne : pool'.ended = insert fiber pool.ended := by
  ext other
  by_cases hother : other = fiber
  · simp [ended, get?_of_endOne hnamed hfibers, hother]
  · simp [ended, get?_of_endOne hnamed hfibers, hother]

theorem startable_of_endOne : pool'.startable = pool.startable := by
  ext other
  by_cases hother : other = fiber
  · subst hother
    simp [startable, ended_of_endOne hnamed hfibers, hnamed]
  · simp [startable, ended_of_endOne hnamed hfibers, get?_of_endOne hnamed hfibers, hother]

end EndOne

end Pool

/-! ## What pure code comes to -/

/-- Pure code comes to an outcome, reading no fibers but such as have ended. -/
inductive Comp.Settles (pool : Pool S W) : Comp S α → Except Fault α → Prop
  | done (a : α) : Settles pool (.done a) (.ok a)
  | fail (fault : Fault) : Settles pool (.fail fault) (.error fault)
  | read {fiber : FiberId} {ending : Ending S} {k : Except Fault S.Value → Comp S α}
      {outcome : Except Fault α} (ended : pool.get? fiber = some (.ended ending))
      (rest : (k (ending.read fiber)).Settles pool outcome) :
      Settles pool (.demand (.read fiber) k) outcome

namespace Comp.Settles

variable {pool pool' : Pool S W} {c : Comp S α} {outcome : Except Fault α}

theorem mono (hc : c.Settles pool outcome) (hkeeps : pool.Keeps pool') :
    c.Settles pool' outcome := by
  induction hc with
  | done a => exact .done a
  | fail fault => exact .fail fault
  | read ended rest ih => exact .read (hkeeps ended) ih

end Comp.Settles

/-- Pure code comes to an outcome if all fibers that it holds have ended. -/
theorem Comp.PureWithin.exists_settles {pool : Pool S W} {c : Comp S α} {holds : α → Prop}
    (hc : c.PureWithin H pool.ended holds) (hclosed : pool.Closed H) :
    ∃ outcome, c.Settles pool outcome ∧ ∀ a, outcome = .ok a → holds a := by
  induction c with
  | done a =>
    refine ⟨.ok a, .done a, ?_⟩
    rintro _ ⟨⟩
    exact hc
  | fail fault => exact ⟨.error fault, .fail fault, fun a ha => by cases ha⟩
  | ask request k => exact hc.elim
  | demand d k ih =>
    cases d with
    | read fiber =>
      obtain ⟨⟨ending, hended⟩, hc⟩ := hc
      obtain ⟨outcome, hsettles, hholds⟩ := ih _ (hc _ (hclosed.read hended))
      exact ⟨outcome, .read hended hsettles, hholds⟩
    | interpret yields machine => exact hc.elim
  | runQueue k => exact hc.elim

/-! ## Mirrors -/

/-- What there may be of a fiber whose ending is known, and of others: a fiber that waits or runs
is on its way to its ending, and a fiber that has ended has ended that way. -/
inductive Fiber.Mirrors (I : Interpreter S) (inline : Pool S W) :
    Option (Fiber S) → Option (Fiber S) → Prop
  | unmade : Mirrors I inline none none
  | named : Mirrors I inline (some .named) (some .named)
  | recomputing (action : S.Action) :
      Mirrors I inline (some (.recomputing action)) (some (.recomputing action))
  | waiting {action : S.Action} {outcome : Except Fault S.Value}
      (settles : (I.act action).Settles inline outcome) :
      Mirrors I inline (some (.waiting action)) (some (.ended (.ofOutcome outcome)))
  | running (ending : Ending S) : Mirrors I inline (some .running) (some (.ended ending))
  | ended (ending : Ending S) : Mirrors I inline (some (.ended ending)) (some (.ended ending))

/-- A job on its way to the ending that is known of its fiber. -/
def Job.Mirrors (inline : Pool S W) (job : Job S) : Prop :=
  ∃ c outcome, job.thread = .base c ∧ c.Settles inline outcome ∧
    inline.get? job.fiber = some (.ended (.ofOutcome outcome))

/-- A pool whose fibers and jobs are on their way to the endings that are known, and of which the
same has been reported. -/
structure Pool.Mirrors (H : Holdings S) (I : Interpreter S) (pool : Pool S W) (jobs : List (Job S))
    (inline : Pool S W) : Prop where
  agrees : pool.Agrees inline
  size : pool.fibers.size = inline.fibers.size
  stages : ∀ fiber, Fiber.Mirrors I inline (pool.get? fiber) (inline.get? fiber)
  jobs : ∀ job ∈ jobs, job.Mirrors inline
  closed : inline.Closed H

theorem Fiber.Mirrors.mono {I : Interpreter S} {inline inline' : Pool S W}
    {stage known : Option (Fiber S)} (h : Fiber.Mirrors I inline stage known)
    (hkeeps : inline.Keeps inline') : Fiber.Mirrors I inline' stage known := by
  cases h with
  | unmade => exact .unmade
  | named => exact .named
  | recomputing action => exact .recomputing action
  | waiting settles => exact .waiting (settles.mono hkeeps)
  | running ending => exact .running ending
  | ended ending => exact .ended ending

theorem Job.Mirrors.mono {inline inline' : Pool S W} {job : Job S} (h : job.Mirrors inline)
    (hkeeps : inline.Keeps inline') : job.Mirrors inline' := by
  obtain ⟨c, outcome, hthread, hsettles, hended⟩ := h
  exact ⟨c, outcome, hthread, hsettles.mono hkeeps, hkeeps hended⟩

namespace Pool.Mirrors

variable {I : Interpreter S} {pool pool' inline inline' : Pool S W} {jobs jobs' : List (Job S)}
  {fiber : FiberId} {stage known : Fiber S} {ending : Ending S}

/-- A fiber with nothing behind it is mirrored by such a one. -/
theorem get?_of_named (h : pool.Mirrors H I jobs inline)
    (hnamed : inline.get? fiber = some .named) : pool.get? fiber = some .named := by
  have hstage := h.stages fiber
  rw [hnamed] at hstage
  generalize pool.get? fiber = stage at hstage ⊢
  cases hstage
  rfl

/-- Only the jobs are others. -/
theorem withJobs (h : pool.Mirrors H I jobs inline) (hjobs : ∀ job ∈ jobs', job.Mirrors inline) :
    pool.Mirrors H I jobs' inline :=
  ⟨h.agrees, h.size, h.stages, hjobs, h.closed⟩

/-- Something is reported of both pools, and nothing is done to fibers. -/
theorem report (h : pool.Mirrors H I jobs inline) (hpool : pool'.fibers = pool.fibers)
    (hinline : inline'.fibers = inline.fibers) (hagrees : pool'.Agrees inline') :
    pool'.Mirrors H I jobs inline' := by
  have hkeeps := keeps_of_fibers hinline
  refine ⟨hagrees, by rw [hpool, hinline, h.size], fun fiber => ?_, fun job hjob => ?_, ?_⟩
  · rw [get?_congr hpool, get?_congr hinline]
    exact (h.stages fiber).mono hkeeps
  · exact (h.jobs job hjob).mono hkeeps
  · intro fiber v hv
    rw [get?_congr hinline] at hv
    exact (h.closed hv).trans hkeeps.ended_subset

/-- A fiber is made in both pools. -/
theorem newFiber (h : pool.Mirrors H I jobs inline) (hpool : pool'.fibers = pool.fibers.push .named)
    (hinline : inline'.fibers = inline.fibers.push .named) (hagrees : pool'.Agrees inline') :
    pool'.Mirrors H I jobs inline' := by
  have hkeeps := keeps_of_push hinline
  refine ⟨hagrees, by simp [hpool, hinline, h.size], fun fiber => ?_, fun job hjob => ?_, ?_⟩
  · -- Pools of one size give the new fiber one name.
    rw [get?_push hpool, get?_push hinline, h.size]
    split
    · exact .named
    · exact (h.stages fiber).mono hkeeps
  · exact (h.jobs job hjob).mono hkeeps
  · intro fiber v hv
    rw [get?_push hinline] at hv
    split at hv
    · cases hv
    · exact (h.closed hv).trans hkeeps.ended_subset

/-- A fiber goes on towards its ending, which is known already. -/
theorem goOn (h : pool.Mirrors H I jobs inline)
    (hpool : pool'.fibers = (pool.set fiber stage).fibers) (hagrees : pool'.Agrees pool)
    (hstage : Fiber.Mirrors I inline (some stage) (inline.get? fiber))
    (hjobs : ∀ job ∈ jobs', job.Mirrors inline) : pool'.Mirrors H I jobs' inline := by
  refine ⟨hagrees.trans h.agrees, by rw [hpool, size_set, h.size], fun other => ?_, hjobs, h.closed⟩
  rw [get?_congr hpool, get?_set]
  by_cases hother : other = fiber
  · subst hother
    have hbefore := h.stages other
    rw [if_pos rfl]
    cases hget : pool.get? other with
    | none =>
      -- A fiber that is not there cannot go on.
      rw [hget] at hbefore
      generalize inline.get? other = known at hstage hbefore
      cases hbefore
      cases hstage
    | some before => exact hstage
  · rw [if_neg hother]
    exact h.stages other

/-- A fiber is started, and its ending is known from then on. -/
theorem learn (h : pool.Mirrors H I jobs inline) (hnamed : inline.get? fiber = some .named)
    (hpool : pool'.fibers = (pool.set fiber stage).fibers)
    (hinline : inline'.fibers = (inline.set fiber (.ended ending)).fibers)
    (hagrees : pool'.Agrees inline')
    (hstage : Fiber.Mirrors I inline' (some stage) (some (.ended ending)))
    (hheld : ∀ v, ending = .value v → v.Within H inline.ended)
    (hjobs : ∀ job ∈ jobs', job ∈ jobs ∨ job.Mirrors inline') :
    pool'.Mirrors H I jobs' inline' := by
  -- Whatever was known before does not depend on the fiber, of which nothing was known.
  have hkeeps := keeps_of_endOne hnamed hinline
  refine ⟨hagrees, by rw [hpool, hinline, size_set, size_set, h.size], fun other => ?_,
    fun job hjob => ?_, ?_⟩
  · rw [get?_of_endOne hnamed hinline, get?_congr hpool, get?_set, h.get?_of_named hnamed]
    split
    · exact hstage
    · exact (h.stages other).mono hkeeps
  · obtain hjob | hjob := hjobs job hjob
    · exact (h.jobs job hjob).mono hkeeps
    · exact hjob
  · intro other v hv
    rw [get?_of_endOne hnamed hinline] at hv
    split at hv
    · cases hv
      exact (hheld v rfl).trans hkeeps.ended_subset
    · exact (h.closed hv).trans hkeeps.ended_subset

end Pool.Mirrors

end FiberPrograms
