import FiberPrograms.Proofs.Depths
import FiberPrograms.Proofs.Forecasts
import FiberPrograms.Proofs.NestedCode
import FiberPrograms.Proofs.Recomputation

/-!
# Reads that fail

A thread that reads a fiber, or runs a program that awaits it, fails if it is told of a fault and
does nothing about it. Before that it may make requests of its own. So it is bound to fail, and that
is up to its own moves alone: whatever others do between them, it comes a little closer with each.

## Main definitions

* `Thread.BoundFor`: a thread comes to a goal by its own moves
* `Comp.Raises`, `Comp.Reads`: computations that fail, and such as fail if a fiber does
* `Thread.Hosts`: the places for a computation in a thread

## Main results

* `Thread.BoundFor.of_raises`, `Thread.BoundFor.of_reads`: such computations are bound to fail
* `Thread.BoundFor.fork`: whoever forks an action is bound to go on
-/

namespace FiberPrograms

variable {S : Signature} {W α β : Type}

/-! ## What a thread comes to by its own moves -/

/-- By its own moves a thread comes to the goal, whatever is done between them, as long as it makes
each of them in a pool that is proper. It has to wait for others in such pools only as are said. -/
inductive Thread.BoundFor (R : Runtime S W) (proper waiting : Pool S W → Prop)
    (goal : Thread S α → Prop) : Thread S α → Prop
  | there {thread : Thread S α} (h : goal thread) : BoundFor R proper waiting goal thread
  | moves {thread : Thread S α}
      (next : ∀ pool, proper pool → thread.move R pool = (.blocked, pool) ∧ waiting pool ∨
        ∃ thread' launch pool', thread.move R pool = (.moved thread' launch, pool'))
      (rest : ∀ pool thread' launch pool', proper pool →
        thread.move R pool = (.moved thread' launch, pool') →
        BoundFor R proper waiting goal thread') :
      BoundFor R proper waiting goal thread

namespace Thread.BoundFor

variable {R : Runtime S W} {proper proper' waiting waiting' : Pool S W → Prop}
  {goal goal' : Thread S α → Prop} {thread thread' : Thread S α}

theorem trans (h : thread.BoundFor R proper waiting goal)
    (hgoal : ∀ thread, goal thread → thread.BoundFor R proper waiting goal') :
    thread.BoundFor R proper waiting goal' := by
  induction h with
  | there h => exact hgoal _ h
  | moves next _ ih => exact .moves next ih

theorem mono (h : thread.BoundFor R proper waiting goal)
    (hproper : ∀ pool, proper' pool → proper pool)
    (hwaiting : ∀ pool, proper' pool → waiting pool → waiting' pool) :
    thread.BoundFor R proper' waiting' goal := by
  induction h with
  | there h => exact .there h
  | moves next _ ih =>
    refine .moves (fun pool hpool => ?_) fun pool thread' launch pool' hpool moved =>
      ih pool thread' launch pool' (hproper pool hpool) moved
    exact (next pool (hproper pool hpool)).imp (.imp_right (hwaiting pool hpool)) id

/-- The thread makes the same move in every pool that is proper. -/
theorem move (hmove : ∀ pool, proper pool → ∃ launch pool',
      thread.move R pool = (.moved thread' launch, pool'))
    (h : thread'.BoundFor R proper waiting goal) : thread.BoundFor R proper waiting goal := by
  refine .moves (fun pool hpool => .inr ⟨thread', hmove pool hpool⟩)
    fun pool next launch pool' hpool moved => ?_
  obtain ⟨launch', pool'', hmove⟩ := hmove pool hpool
  cases hmove.symm.trans moved
  exact h

section Ending

variable {pool pool' : Pool S W} {launch : Launch S} {outcome outcome' : Except Fault α}
  (h : thread.BoundFor R proper waiting (· = .base (.ofExcept outcome))) (hpool : proper pool)

include h hpool

/-- A thread that is bound for an outcome is so after its next move. -/
theorem moved (moved : thread.move R pool = (.moved thread' launch, pool')) :
    thread'.BoundFor R proper waiting (· = .base (.ofExcept outcome)) := by
  cases h with
  | there h =>
    rw [h, move_ofExcept] at moved
    cases moved
  | moves _ rest => exact rest pool thread' launch pool' hpool moved

/-- A thread that is bound for an outcome ends with no other. -/
theorem ended (ended : thread.move R pool = (.ended outcome', pool')) : outcome' = outcome := by
  cases h with
  | there h =>
    rw [h, move_ofExcept] at ended
    cases ended
    rfl
  | moves next _ =>
    obtain ⟨hblocked, -⟩ | ⟨_, _, _, hmoved⟩ := next pool hpool
    · cases hblocked.symm.trans ended
    · cases hmoved.symm.trans ended

end Ending

end Thread.BoundFor

/-! ## Computations that fail -/

namespace Comp

variable {fault : Fault} {d : Demand S} {fiber : FiberId} {c : Comp S α}

/-- A computation that makes requests, if any, and then fails. -/
inductive Raises (fault : Fault) : Comp S α → Prop
  | fail : Raises fault (.fail fault)
  | ask {request : Request S} {k : request.Reply → Comp S α}
      (rest : ∀ reply, Raises fault (k reply)) : Raises fault (.ask request k)

/-- A computation that makes requests, if any, and then a demand, and does nothing about it if that
fails. -/
inductive Relays (d : Demand S) : Comp S α → Prop
  | demand {k : Except Fault S.Value → Comp S α} (fails : ∀ fault, k (.error fault) = .fail fault) :
      Relays d (.demand d k)
  | ask {request : Request S} {k : request.Reply → Comp S α}
      (rest : ∀ reply, Relays d (k reply)) : Relays d (.ask request k)

/-- A computation that reads a fiber, or runs the program that awaits it, and does nothing about it
if that fails. -/
def Reads (fiber : FiberId) (c : Comp S α) : Prop :=
  c.Relays (.read fiber) ∨
    ∃ yields, c.Relays (.interpret yields (.start (.instr (.await fiber))))

theorem Raises.bind (h : c.Raises fault) (f : α → Comp S β) : (c.bind f).Raises fault := by
  induction h with
  | fail => exact .fail
  | ask _ ih => exact .ask ih

theorem Relays.bind (h : c.Relays d) (f : α → Comp S β) : (c.bind f).Relays d := by
  induction h with
  | demand fails => exact .demand fun fault => by rw [fails, Comp.bind]
  | ask _ ih => exact .ask ih

theorem Reads.bind (h : c.Reads fiber) (f : α → Comp S β) : (c.bind f).Reads fiber :=
  h.imp (·.bind f) (.imp fun _ h => h.bind f)

theorem reads_read (fiber : FiberId) : (Comp.read fiber : Comp S S.Value).Reads fiber :=
  .inl (.demand fun _ => rfl)

theorem reads_await (yields : Ty S.Base) (fiber : FiberId) :
    (Comp.interpret yields (.ofInstr (.await fiber)) : Comp S S.Value).Reads fiber :=
  .inr ⟨yields, .demand fun _ => rfl⟩

theorem PutsDown.relays {c : Comp S Unit} {events : List Event} (h : c.PutsDown events)
    {f : Unit → Comp S α} (hf : (f ()).Relays d) : (c.bind f).Relays d := by
  induction h with
  | done => exact hf
  | note _ ih | sight _ ih | log _ ih => exact .ask fun _ => ih
  | perform _ ih => exact .ask ih

end Comp

/-- An observer that never fails, whatever it puts down. -/
def Observer.Unfailing (observer : Observer S) : Prop :=
  ∀ event, ∃ events, (observer event).PutsDown events

/-- A program that awaits a fiber reads it, once that has been reported. -/
theorem Interpreter.relays_await {I : Interpreter S} (hobserver : I.observer.Unfailing)
    (yields : Ty S.Base) (fiber : FiberId) :
    (I.turn yields (.start (.instr (.await fiber)))).Relays (.read fiber) := by
  obtain ⟨events, hevents⟩ := hobserver (.await fiber)
  have hread : (Comp.read fiber : Comp S S.Value).Relays (.read fiber) := .demand fun _ => rfl
  rw [← Tree.under_nil, Interpreter.turn_instr]
  exact .ask fun _ => (hevents.relays hread).bind _

/-! ## Computations in their places -/

namespace Thread

/-- A place for a computation in a thread: there it is told what it asks for, and what it demands is
found out on top of it. -/
structure Hosts (host : Comp S β → Thread S α) : Prop where
  ask : ∀ {W : Type} (R : Runtime S W) (pool : Pool S W) (request : Request S)
    (k : request.Reply → Comp S β), (host (.ask request k)).move R pool =
      (.moved (host (k (pool.answer R request).1)) (pool.answer R request).2.1,
        (pool.answer R request).2.2)
  demand : ∀ k : Except Fault S.Value → Comp S β, ∃ callers outer,
    (∀ outcome, answer callers outer outcome = host (k outcome)) ∧
    (∀ fiber, (host (.demand (.read fiber) k)).AtRead fiber callers outer) ∧
    ∀ {W : Type} (R : Runtime S W) (pool : Pool S W) (yields : Ty S.Base) (machine : S.Machine),
      (host (.demand (.interpret yields machine) k)).move R pool =
        (.moved (.nested (R.turn yields machine) callers outer) .none, pool)

theorem hosts_base : Hosts (base : Comp S α → Thread S α) where
  ask _ _ _ _ := rfl
  demand k := ⟨[], k, fun _ => rfl, fun _ => .base k, fun _ _ _ _ => rfl⟩

theorem hosts_nested (callers : List (Except Fault S.Value → Comp S (Turn S)))
    (outer : Except Fault S.Value → Comp S α) : Hosts fun c => nested c callers outer where
  ask _ _ _ _ := rfl
  demand k := ⟨k :: callers, outer, fun _ => rfl, fun _ => .nested k callers outer,
    fun _ _ _ _ => rfl⟩

namespace BoundFor

variable {R : Runtime S W} {proper waiting : Pool S W → Prop} {goal : Thread S α → Prop}
  {host : Comp S β → Thread S α} (hhost : Hosts host) {c : Comp S β} {fault : Fault}
  {fiber : FiberId}

include hhost

theorem ask {request : Request S} {k : request.Reply → Comp S β}
    (rest : ∀ reply, (host (k reply)).BoundFor R proper waiting goal) :
    (host (.ask request k)).BoundFor R proper waiting goal := by
  refine .moves (fun pool _ => .inr ⟨_, _, _, hhost.ask R pool request k⟩)
    fun pool thread' launch pool' _ moved => ?_
  cases (hhost.ask R pool request k).symm.trans moved
  exact rest _

theorem of_raises (h : c.Raises fault) :
    (host c).BoundFor R proper waiting (· = host (.fail fault)) := by
  induction h with
  | fail => exact .there rfl
  | ask _ ih => exact .ask hhost ih

theorem of_relays {d : Demand S} (h : c.Relays d)
    (hdemand : ∀ k, (host (.demand d k)).BoundFor R proper waiting (· = host (k (.error fault)))) :
    (host c).BoundFor R proper waiting (· = host (.fail fault)) := by
  induction h with
  | demand fails =>
    rw [← fails]
    exact hdemand _
  | ask _ ih => exact .ask hhost ih

/-- Whoever reads a fiber is bound to fail if all that are about to read it are bound to be told of
a fault. -/
theorem of_reads (hobserver : R.observer.Unfailing) (h : c.Reads fiber)
    (hread : ∀ {thread : Thread S α} {callers outer}, thread.AtRead fiber callers outer →
      thread.BoundFor R proper waiting (· = answer callers outer (.error fault))) :
    (host c).BoundFor R proper waiting (· = host (.fail fault)) := by
  have hdemand {γ : Type} {host : Comp S γ → Thread S α} (hhost : Hosts host)
      (k : Except Fault S.Value → Comp S γ) :
      (host (.demand (.read fiber) k)).BoundFor R proper waiting (· = host (k (.error fault))) := by
    obtain ⟨callers, outer, hanswer, hatRead, -⟩ := hhost.demand k
    rw [← hanswer]
    exact hread (hatRead fiber)
  obtain h | ⟨yields, h⟩ := h
  · exact of_relays hhost h (hdemand hhost)
  · refine of_relays hhost h fun k => ?_
    obtain ⟨callers, outer, hanswer, -, hmove⟩ := hhost.demand k
    refine .move (fun pool _ => ⟨_, _, hmove R pool yields _⟩) ?_
    -- The program that awaits the fiber fails first, and tells whoever runs it.
    have hnested := hosts_nested callers outer
    have hprogram := R.relays_await hobserver yields fiber
    refine (of_relays hnested hprogram (hdemand hnested)).trans ?_
    rintro _ rfl
    refine .move (fun pool _ => ⟨_, _, rfl⟩) (.there ?_)
    rw [hanswer]

theorem putsDown {c : Comp S Unit} {events : List Event} (h : c.PutsDown events)
    {f : Unit → Comp S β} (rest : (host (f ())).BoundFor R proper waiting goal) :
    (host (c.bind f)).BoundFor R proper waiting goal := by
  induction h with
  | done => exact rest
  | note _ ih | sight _ ih | log _ ih => exact .ask hhost fun _ => ih
  | perform _ ih => exact .ask hhost ih

end BoundFor

/-- Whoever forks an action is bound to go on with its fiber, whatever the action comes to. -/
theorem BoundFor.fork {R : Runtime S W} {proper waiting : Pool S W → Prop}
    {host : Comp S (Turn S) → Thread S α} (hhost : Hosts host)
    (hobserver : R.observer.Unfailing) (place : Place) (τ : Ty S.Base) (action : S.Action)
    (yields : Ty S.Base) (pending : List S.Cont) :
    (host (R.turn yields ((Tree.instr (.forkAt place τ action)).under pending))).BoundFor R proper
      waiting fun thread => ∃ fiber : FiberId,
        thread = host (R.goOn yields pending (.of (.fiber τ) fiber)) := by
  rw [Interpreter.turn_instr]
  refine .ask hhost fun _ => .ask hhost fun (fiber : FiberId) => ?_
  obtain ⟨events, hevents⟩ := hobserver (.fork fiber place)
  change (host (((R.observer _).bind _).bind _)).BoundFor R proper waiting _
  rw [Comp.bind_assoc]
  exact .putsDown hhost hevents (.ask hhost fun _ => .there ⟨fiber, rfl⟩)

end Thread

end FiberPrograms
