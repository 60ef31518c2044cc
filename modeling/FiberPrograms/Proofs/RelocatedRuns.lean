import FiberPrograms.Proofs.Relocation
import FiberPrograms.Proofs.Stories
import Mathlib.Data.List.Forall2

/-!
# Runs in other places

Two runtimes are laid side by side, each with user code of its own, that do the same but for places.
Whatever thread of the one makes a move, the thread that is the same but for places makes the same
move in the other: it does the same thing to the same fibers, launches a job or goes on just as the
first does, and leaves a pool that is the same but for places again.

## Main definitions

* `Runtime.Relocated`: runtimes that do the same but for places
* `Thread.Relocated`, `Pool.Relocated`: threads and pools that are the same but for places
* `Activity.Relocated`, `Deed.Relocated`: what is told of their moves

## Main results

* `Policy.relocated_runtime`: places make no difference to what runs depend on besides user code
* `Pool.Relocated.answer`: requests get the same answers
* `Comp.Relocated.react`, `Thread.Relocated.move`: moves are the same but for places
* `Thread.Relocated.activity`, `Thread.Relocated.deeds`: so is what is told of them
-/

namespace FiberPrograms

variable {S : Signature} {W α β : Type} {L : Relocation S}

/-- User code that does the same but for places, and observers that do not look at places; whatever
else a run depends on is the same. -/
structure Runtime.Relocated (L : Relocation S) (R R' : Runtime S W) : Prop
    extends toInterpreterRelocated : Interpreter.Relocated L R.toInterpreter R'.toInterpreter where
  spawner : R'.spawner = R.spawner
  newestFirst : R'.newestFirst = R.newestFirst
  level : R'.level = R.level
  effect : R'.effect = R.effect

/-- Under any policy, what is the same but for places in user code is so in a run: neither the log,
nor the record of events, nor whoever has queued jobs run looks at places. -/
theorem Policy.relocated_runtime (policy : Policy) {meaning meaning' : Meaning S}
    (h : meaning.Relocated L meaning') (level : Option Level)
    (effect : (e : S.Effect) → W → S.Reply e × W) :
    (policy.runtime meaning level effect).Relocated L (policy.runtime meaning' level effect) where
  toMeaningRelocated := h
  observer := Observer.relocated_all
    (.cons Observer.relocated_logging
      (.cons Observer.relocated_recording (.cons policy.relocated_reaction .nil)))
  spawner := rfl
  newestFirst := rfl
  level := rfl
  effect := rfl

/-! ## Threads -/

/-- Threads whose computations do the same but for places. -/
inductive Thread.Relocated (L : Relocation S) (r : α → β → Prop) : Thread S α → Thread S β → Prop
  | base {c : Comp S α} {c' : Comp S β} (h : c.Relocated L r c') :
      Relocated L r (.base c) (.base c')
  | nested {inner inner' : Comp S (Turn S)}
      {callers callers' : List (Except Fault S.Value → Comp S (Turn S))}
      {outer : Except Fault S.Value → Comp S α} {outer' : Except Fault S.Value → Comp S β}
      (hinner : inner.Relocated L (Turn.Relocated L) inner')
      (hcallers : List.Forall₂
        (fun k k' => ∀ outcome, (k outcome).Relocated L (Turn.Relocated L) (k' outcome))
        callers callers')
      (houter : ∀ outcome, (outer outcome).Relocated L r (outer' outcome)) :
      Relocated L r (.nested inner callers outer) (.nested inner' callers' outer')

/-- Jobs of one fiber that do the same but for places. -/
structure Job.Relocated (L : Relocation S) (job job' : Job S) : Prop where
  fiber : job'.fiber = job.fiber
  thread : job.thread.Relocated L Eq job'.thread

/-- Jobs that are launched alike. -/
inductive Launch.Relocated (L : Relocation S) : Launch S → Launch S → Prop
  | none : Relocated L .none .none
  | ahead {job job' : Job S} (h : job.Relocated L job') : Relocated L (.ahead job) (.ahead job')
  | behind {job job' : Job S} (h : job.Relocated L job') : Relocated L (.behind job) (.behind job')

/-- Reactions that are the same but for places. -/
inductive Reaction.Relocated (L : Relocation S) (r : α → β → Prop) :
    Reaction S α → Reaction S β → Prop
  | next {c : Comp S α} {c' : Comp S β} {launch launch' : Launch S} (hc : c.Relocated L r c')
      (hlaunch : launch.Relocated L launch') : Relocated L r (.next c launch) (.next c' launch')
  | enter {inner inner' : Comp S (Turn S)} {k : Except Fault S.Value → Comp S α}
      {k' : Except Fault S.Value → Comp S β} (hinner : inner.Relocated L (Turn.Relocated L) inner')
      (hk : ∀ outcome, (k outcome).Relocated L r (k' outcome)) :
      Relocated L r (.enter inner k) (.enter inner' k')
  | ended {outcome : Except Fault α} {outcome' : Except Fault β}
      (h : OutcomeRel r outcome outcome') : Relocated L r (.ended outcome) (.ended outcome')
  | blocked : Relocated L r .blocked .blocked

/-- Moves that are the same but for places. -/
inductive Motion.Relocated (L : Relocation S) (r : α → β → Prop) : Motion S α → Motion S β → Prop
  | moved {thread : Thread S α} {thread' : Thread S β} {launch launch' : Launch S}
      (hthread : thread.Relocated L r thread') (hlaunch : launch.Relocated L launch') :
      Relocated L r (.moved thread launch) (.moved thread' launch')
  | ended {outcome : Except Fault α} {outcome' : Except Fault β}
      (h : OutcomeRel r outcome outcome') : Relocated L r (.ended outcome) (.ended outcome')
  | blocked : Relocated L r .blocked .blocked

/-- The innermost waiting computation goes on with the outcome that it has waited for. -/
theorem Thread.relocated_answer {r : α → β → Prop}
    {callers callers' : List (Except Fault S.Value → Comp S (Turn S))}
    {outer : Except Fault S.Value → Comp S α} {outer' : Except Fault S.Value → Comp S β}
    (hcallers : List.Forall₂
      (fun k k' => ∀ outcome, (k outcome).Relocated L (Turn.Relocated L) (k' outcome))
      callers callers')
    (houter : ∀ outcome, (outer outcome).Relocated L r (outer' outcome))
    (outcome : Except Fault S.Value) :
    (answer callers outer outcome).Relocated L r (answer callers' outer' outcome) := by
  cases hcallers with
  | nil => exact .base (houter outcome)
  | cons hk hrest => exact .nested (hk outcome) hrest houter

/-! ## Pools -/

/-- Fibers in the same stage, with actions that are the same but for places. -/
inductive Fiber.Relocated (L : Relocation S) : Fiber S → Fiber S → Prop
  | named : Relocated L .named .named
  | recomputing {action action' : S.Action} (h : L.action action action') :
      Relocated L (.recomputing action) (.recomputing action')
  | waiting {action action' : S.Action} (h : L.action action action') :
      Relocated L (.waiting action) (.waiting action')
  | running : Relocated L .running .running
  | ended (ending : Ending S) : Relocated L (.ended ending) (.ended ending)

/-- Pools that are the same but for places. -/
structure Pool.Relocated (L : Relocation S) (level : Option Level) (pool pool' : Pool S W) :
    Prop where
  size : pool'.fibers.size = pool.fibers.size
  get? : ∀ fiber, Option.Rel (Fiber.Relocated L) (pool.get? fiber) (pool'.get? fiber)
  queue : pool'.queue = pool.queue
  sighted : pool'.sighted = pool.sighted
  events : List.Forall₂ Event.Relocated pool.events.toList pool'.events.toList
  records : List.Forall₂ (Record.Relocated (level = some .trace)) pool.records.toList
    pool'.records.toList
  world : pool'.world = pool.world

namespace Pool.Relocated

variable {R R' : Runtime S W} {level : Option Level} {pool pool' : Pool S W} {fiber : FiberId}

theorem empty (L : Relocation S) (level : Option Level) (world : W) :
    (Pool.empty world : Pool S W).Relocated L level (.empty world) where
  size := rfl
  get? fiber := by simp [Pool.get?, Pool.empty]
  queue := rfl
  sighted := rfl
  events := .nil
  records := .nil
  world := rfl

/-- What is pushed onto two lists one beside the other is related if the lists are. -/
theorem forall₂_push {γ : Type} {r : γ → γ → Prop} {as bs : Array γ} {a b : γ}
    (h : List.Forall₂ r as.toList bs.toList) (hab : r a b) :
    List.Forall₂ r (as.push a).toList (bs.push b).toList := by
  rw [Array.toList_push, Array.toList_push]
  exact List.rel_append h (.cons hab .nil)

/-- Operations are written to the log at its deepest level only. -/
theorem log (h : pool.Relocated L level pool') {record record' : Record}
    (hrecord : record.Relocated True record') :
    (pool.log level record).Relocated L level (pool'.log level record') := by
  unfold Pool.log
  cases level with
  | none => exact h
  | some level =>
    simp only [hrecord.level_eq]
    split
    · next htold =>
      have hdeep : record.Relocated (some level = some .trace) record' := by
        simpa using hrecord.of_told htold
      exact { h with records := forall₂_push h.records hdeep }
    · exact h

/-- A fiber gets to another stage. -/
theorem set (h : pool.Relocated L level pool') (fiber : FiberId) {stage stage' : Fiber S}
    (hstage : stage.Relocated L stage') :
    (pool.set fiber stage).Relocated L level (pool'.set fiber stage') := by
  refine { h with size := ?_, get? := fun other => ?_ }
  · rw [Pool.size_set, Pool.size_set]
    exact h.size
  · rw [Pool.get?_set, Pool.get?_set]
    split
    · have hfiber := h.get? fiber
      generalize pool.get? fiber = found at hfiber
      generalize pool'.get? fiber = found' at hfiber
      cases hfiber with
      | none => exact .none
      | some => exact .some hstage
    · exact h.get? other

/-- A fiber is made. -/
theorem push (h : pool.Relocated L level pool') :
    ({ pool with fibers := pool.fibers.push .named }).Relocated L level
      { pool' with fibers := pool'.fibers.push .named } := by
  refine { h with size := ?_, get? := fun other => ?_ }
  · rw [Array.size_push, Array.size_push, h.size]
  · have hpush (pool : Pool S W) :
        ({ pool with fibers := pool.fibers.push .named } : Pool S W).get? other =
          if other = ⟨pool.fibers.size⟩ then some .named else pool.get? other :=
      Pool.get?_push rfl
    rw [hpush, hpush, h.size]
    split
    · exact .some .named
    · exact h.get? other

theorem release (h : pool.Relocated L level pool') (fiber : FiberId) :
    (pool.release level fiber).Relocated L level (pool'.release level fiber) := by
  have hdropped : ((pool.fill fiber .dropped).log level (.dropped fiber)).Relocated L level
      ((pool'.fill fiber .dropped).log level (.dropped fiber)) :=
    (h.set fiber (.ended .dropped)).log (.same _)
  have hfiber := h.get? fiber
  unfold Pool.release
  generalize pool.get? fiber = found at hfiber
  generalize pool'.get? fiber = found' at hfiber
  cases hfiber with
  | none => exact hdropped
  | some hstage =>
    cases hstage with
    | ended ending => exact h
    | _ => exact hdropped

theorem finish (h : pool.Relocated L level pool') (fiber : FiberId)
    (outcome : Except Fault S.Value) :
    (pool.finish level fiber outcome).Relocated L level (pool'.finish level fiber outcome) := by
  unfold Pool.finish
  cases outcome with
  | ok v => exact (h.set fiber (.ended (.value v))).release fiber
  | error cause =>
    have hlogged := h.log (.same (.failed fiber cause))
    exact (hlogged.set fiber (.ended (.failed cause))).release fiber

theorem isReady (h : pool.Relocated L level pool') (fiber : FiberId) :
    pool'.isReady fiber = pool.isReady fiber := by
  have hfiber := h.get? fiber
  rw [Pool.isReady, Pool.isReady]
  generalize pool.get? fiber = found at hfiber
  generalize pool'.get? fiber = found' at hfiber
  cases hfiber with
  | none => rfl
  | some hstage => cases hstage <;> rfl

theorem keep (h : pool.Relocated L level pool') (fiber : FiberId) {action action' : S.Action}
    (haction : L.action action action') :
    (pool.keep fiber action).Relocated L level (pool'.keep fiber action') := by
  have hfiber := h.get? fiber
  unfold Pool.keep
  generalize pool.get? fiber = found at hfiber
  generalize pool'.get? fiber = found' at hfiber
  cases hfiber with
  | none => exact h
  | some hstage =>
    cases hstage with
    | named => exact h.set fiber (.recomputing haction)
    | _ => exact h

variable (hR : R.Relocated L R')

include hR

/-- The jobs of one fiber are the same but for places. -/
theorem jobOf (fiber : FiberId) {action action' : S.Action} (haction : L.action action action') :
    (Pool.jobOf R.toInterpreter fiber action).Relocated L
      (Pool.jobOf R'.toInterpreter fiber action') :=
  ⟨rfl, .base (hR.act haction)⟩

theorem start (h : pool.Relocated L R.level pool') (fiber : FiberId) {action action' : S.Action}
    (haction : L.action action action') :
    (pool.start R fiber action).1.Relocated L (pool'.start R' fiber action').1 ∧
      (pool.start R fiber action).2.Relocated L R.level (pool'.start R' fiber action').2 := by
  have hjob := jobOf hR fiber haction
  have hlogged := h.log (.same (.starting fiber))
  have hfiber := h.get? fiber
  unfold Pool.start
  rw [hR.spawner, hR.level]
  generalize pool.get? fiber = found at hfiber
  generalize pool'.get? fiber = found' at hfiber
  cases hfiber with
  | none => exact ⟨.none, h⟩
  | some hstage =>
    cases hstage with
    | named =>
      cases R.spawner with
      | inline => exact ⟨.ahead hjob, hlogged.set fiber .running⟩
      | background => exact ⟨.behind hjob, hlogged.set fiber .running⟩
      | queued =>
        have hwaiting := hlogged.set fiber (.waiting haction)
        exact ⟨.none, { hwaiting with queue := congrArg (·.push fiber) hwaiting.queue }⟩
      | discarding => exact ⟨.none, hlogged.release fiber⟩
    | _ => exact ⟨.none, h⟩

/-- Requests that are the same but for places get the same answers. -/
theorem answer (h : pool.Relocated L R.level pool') {request request' : Request S}
    {same : request.Reply → request'.Reply → Prop} (hrequest : request.Relocated L request' same) :
    same (pool.answer R request).1 (pool'.answer R' request').1 ∧
      (pool.answer R request).2.1.Relocated L (pool'.answer R' request').2.1 ∧
      (pool.answer R request).2.2.Relocated L R.level (pool'.answer R' request').2.2 := by
  cases hrequest with
  | newFiber => exact ⟨congrArg FiberId.mk h.size.symm, .none, h.push⟩
  | start fiber haction => exact ⟨trivial, h.start hR fiber haction⟩
  | keep fiber haction => exact ⟨trivial, .none, h.keep fiber haction⟩
  | ended fiber => exact ⟨(h.isReady fiber).symm, .none, h⟩
  | note hevent => exact ⟨trivial, .none, { h with events := forall₂_push h.events hevent }⟩
  | sight fiber =>
    exact ⟨trivial, .none, { h with sighted := congrArg (·.push fiber) h.sighted }⟩
  | log hrecord =>
    refine ⟨trivial, .none, ?_⟩
    simp only [Pool.answer, hR.level]
    exact h.log hrecord
  | perform e =>
    have heffect : R'.effect e pool'.world = R.effect e pool.world := by rw [hR.effect, h.world]
    have hreply : (R'.effect e pool'.world).1 = (R.effect e pool.world).1 := by rw [heffect]
    exact ⟨hreply.symm, .none, { h with world := congrArg Prod.snd heffect }⟩

/-- The job that is taken from the queue is the same but for places. -/
theorem startAt (h : pool.Relocated L R.level pool') (position : Nat) :
    Option.Rel (fun started started' => started.1.Relocated L started'.1 ∧
        started.2.Relocated L R.level started'.2)
      (pool.startAt? R.toInterpreter position) (pool'.startAt? R'.toInterpreter position) := by
  unfold Pool.startAt?
  rw [h.queue]
  cases pool.queue[position]? with
  | none => exact .none
  | some fiber =>
    have hless : ({ pool with queue := pool.queue.eraseIdxIfInBounds position }).Relocated L R.level
        { pool' with queue := pool.queue.eraseIdxIfInBounds position } := { h with queue := rfl }
    have hfiber := hless.get? fiber
    dsimp only
    generalize Pool.get? _ fiber = found at hfiber ⊢
    generalize Pool.get? _ fiber = found' at hfiber ⊢
    cases hfiber with
    | none => exact .none
    | some hstage =>
      cases hstage with
      | waiting haction => exact .some ⟨jobOf hR fiber haction, hless.set fiber .running⟩
      | _ => exact .none

end Pool.Relocated

/-! ## Moves -/

/-- A deed is the same but for the places in what an action builds. -/
inductive Deed.Relocated (L : Relocation S) : Deed S → Deed S → Prop
  | same (deed : Deed S) : Relocated L deed deed
  | handed (fiber : FiberId) {action action' : S.Action} (h : L.action action action') :
      Relocated L (.handed fiber action) (.handed fiber action')

/-- An activity is the same but for places. -/
inductive Activity.Relocated (L : Relocation S) : Activity S → Activity S → Prop
  | same (activity : Activity S) : Relocated L activity activity
  | handed (fiber : FiberId) {action action' : S.Action} (h : L.action action action') :
      Relocated L (.handed fiber action) (.handed fiber action')
  | kept (fiber : FiberId) {action action' : S.Action} (h : L.action action action') :
      Relocated L (.kept fiber action) (.kept fiber action')
  | noted {event event' : Event} (h : event.Relocated event') :
      Relocated L (.noted event) (.noted event')

section Moves

variable {R R' : Runtime S W} {pool pool' : Pool S W} {r : α → β → Prop}
  (hR : R.Relocated L R')

include hR

/-- The queue is run alike. -/
theorem Pool.Relocated.queueNext (h : pool.Relocated L R.level pool') :
    Option.Rel (fun started started' => started.1.Relocated L started'.1 ∧
        started.2.Relocated L R.level started'.2)
      (pool.startAt? R.toInterpreter (pool.nextPosition R.newestFirst))
      (pool'.startAt? R'.toInterpreter (pool'.nextPosition R'.newestFirst)) := by
  have hnext : pool'.nextPosition R'.newestFirst = pool.nextPosition R.newestFirst := by
    rw [nextPosition, nextPosition, hR.newestFirst, h.queue]
  rw [hnext]
  exact h.startAt hR _

/-- Computations that do the same but for places make moves that are the same but for places. -/
theorem Comp.Relocated.react {c : Comp S α} {c' : Comp S β} (hc : c.Relocated L r c')
    (h : pool.Relocated L R.level pool') :
    (c.react R pool).1.Relocated L r (c'.react R' pool').1 ∧
      (c.react R pool).2.Relocated L R.level (c'.react R' pool').2 := by
  cases hc with
  | done hab => exact ⟨.ended (.ok hab), h⟩
  | fail fault => exact ⟨.ended (.error fault), h⟩
  | ask hrequest hk =>
    obtain ⟨hreply, hlaunch, hpool⟩ := h.answer hR hrequest
    exact ⟨.next (hk _ _ hreply) hlaunch, hpool⟩
  | read fiber hk =>
    have hfiber := h.get? fiber
    rw [Comp.react, Comp.react]
    generalize pool.get? fiber = found at hfiber
    generalize pool'.get? fiber = found' at hfiber
    cases hfiber with
    | none => exact ⟨.blocked, h⟩
    | some hstage =>
      cases hstage with
      | ended ending => exact ⟨.next (hk _) .none, h⟩
      | recomputing haction =>
        -- The action is run anew for this reader, with the places of its own runtime.
        refine ⟨.enter ((hR.act haction).bind ?_) hk, h⟩
        intro v _ hv
        obtain rfl := hv
        exact .done (.value v)
      | _ => exact ⟨.blocked, h⟩
  | interpret yields hmachine hk => exact ⟨.enter (hR.turn yields hmachine) hk, h⟩
  | runQueue hk =>
    have hnext := h.queueNext hR
    rw [Comp.react, Comp.react, h.queue]
    split
    · exact ⟨.next hk .none, h⟩
    · generalize pool.startAt? _ _ = started at hnext ⊢
      generalize pool'.startAt? _ _ = started' at hnext ⊢
      cases hnext with
      | none => exact ⟨.blocked, h⟩
      | some hstarted => exact ⟨.next (.runQueue hk) (.ahead hstarted.1), hstarted.2⟩

/-- So do threads. -/
theorem Thread.Relocated.move {thread : Thread S α} {thread' : Thread S β}
    (hthread : thread.Relocated L r thread') (h : pool.Relocated L R.level pool') :
    (thread.move R pool).1.Relocated L r (thread'.move R' pool').1 ∧
      (thread.move R pool).2.Relocated L R.level (thread'.move R' pool').2 := by
  cases hthread with
  | @base c c' hc =>
    obtain ⟨hreaction, hpool⟩ := hc.react hR h
    rw [Thread.move, Thread.move]
    generalize c.react R pool = reacted at hreaction hpool ⊢
    generalize c'.react R' pool' = reacted' at hreaction hpool ⊢
    obtain ⟨reaction, pool₁⟩ := reacted
    obtain ⟨reaction', pool₁'⟩ := reacted'
    cases hreaction with
    | next hc hlaunch => exact ⟨.moved (.base hc) hlaunch, hpool⟩
    | enter hinner hk => exact ⟨.moved (.nested hinner .nil hk) .none, hpool⟩
    | ended houtcome => exact ⟨.ended houtcome, hpool⟩
    | blocked => exact ⟨.blocked, hpool⟩
  | @nested inner inner' callers callers' outer outer' hinner hcallers houter =>
    obtain ⟨hreaction, hpool⟩ := hinner.react hR h
    rw [Thread.move, Thread.move]
    generalize inner.react R pool = reacted at hreaction hpool ⊢
    generalize inner'.react R' pool' = reacted' at hreaction hpool ⊢
    obtain ⟨reaction, pool₁⟩ := reacted
    obtain ⟨reaction', pool₁'⟩ := reacted'
    cases hreaction with
    | next hc hlaunch => exact ⟨.moved (.nested hc hcallers houter) hlaunch, hpool⟩
    | enter hinner hk => exact ⟨.moved (.nested hinner (.cons hk hcallers) houter) .none, hpool⟩
    | blocked => exact ⟨.blocked, hpool⟩
    | ended houtcome =>
      -- A step of the innermost program is over: there is more, or its caller goes on.
      cases houtcome with
      | ok hturn =>
        cases hturn with
        | value v => exact ⟨.moved (Thread.relocated_answer hcallers houter (.ok v)) .none, hpool⟩
        | again yields hmachine =>
          exact ⟨.moved (.nested (hR.turn yields hmachine) hcallers houter) .none, hpool⟩
      | error fault =>
        exact ⟨.moved (Thread.relocated_answer hcallers houter (.error fault)) .none, hpool⟩

theorem Comp.Relocated.activity {c : Comp S α} {c' : Comp S β} (hc : c.Relocated L r c')
    (h : pool.Relocated L R.level pool') :
    (c.activity R pool).Relocated L (c'.activity R' pool') := by
  cases hc with
  | ask hrequest =>
    cases hrequest with
    | newFiber =>
      rw [Comp.activity, Comp.activity, h.size]
      exact .same _
    | start fiber haction => exact .handed fiber haction
    | keep fiber haction => exact .kept fiber haction
    | note hevent => exact .noted hevent
    | perform e =>
      rw [Comp.activity, Comp.activity, hR.effect, h.world]
      exact .same _
    | _ => exact .same _
  | _ => exact .same _

theorem Thread.Relocated.activity {thread : Thread S α} {thread' : Thread S β}
    (hthread : thread.Relocated L r thread') (h : pool.Relocated L R.level pool') :
    (thread.activity R pool).Relocated L (thread'.activity R' pool') := by
  cases hthread with
  | base hc => exact hc.activity hR h
  | nested hinner => exact hinner.activity hR h

/-- What is done to fibers is the same but for places. -/
theorem Comp.Relocated.deeds {c : Comp S α} {c' : Comp S β} (hc : c.Relocated L r c')
    (h : pool.Relocated L R.level pool') :
    List.Forall₂ (Deed.Relocated L) (c.deeds R pool) (c'.deeds R' pool') := by
  -- What does something to a fiber is a start, a read or a turn of the queue, and which stage a fiber
  -- has reached does not depend on places.
  cases hc with
  | ask hrequest =>
    cases hrequest with
    | start fiber haction =>
      have hfiber := h.get? fiber
      rw [Comp.deeds, Comp.deeds, Pool.startDeeds, Pool.startDeeds, hR.spawner]
      generalize pool.get? fiber = found at hfiber
      generalize pool'.get? fiber = found' at hfiber
      cases hfiber with
      | none => exact .nil
      | some hstage =>
        cases hstage with
        | named =>
          have hhanded := Deed.Relocated.handed fiber haction
          cases R.spawner with
          | queued => exact .cons hhanded .nil
          | inline | background | discarding => exact .cons hhanded (.cons (.same _) .nil)
        | _ => exact .nil
    | _ => exact .nil
  | read fiber =>
    have hfiber := h.get? fiber
    rw [Comp.deeds, Comp.deeds, Pool.readDeeds, Pool.readDeeds]
    generalize pool.get? fiber = found at hfiber
    generalize pool'.get? fiber = found' at hfiber
    cases hfiber with
    | none => exact .nil
    | some hstage =>
      cases hstage with
      | ended ending => exact .cons (.same _) .nil
      | _ => exact .nil
  | runQueue =>
    have hnext := h.queueNext hR
    rw [Comp.deeds, Comp.deeds, Pool.queueDeeds, Pool.queueDeeds, h.queue]
    split
    · exact .nil
    · generalize pool.startAt? _ _ = started at hnext ⊢
      generalize pool'.startAt? _ _ = started' at hnext ⊢
      cases hnext with
      | none => exact .nil
      | @some started started' hstarted =>
        dsimp only
        rw [hstarted.1.fiber]
        exact .cons (.same _) .nil
  | _ => exact .nil

theorem Thread.Relocated.deeds {thread : Thread S α} {thread' : Thread S β}
    (hthread : thread.Relocated L r thread') (h : pool.Relocated L R.level pool') :
    List.Forall₂ (Deed.Relocated L) (thread.deeds R pool) (thread'.deeds R' pool') := by
  cases hthread with
  | base hc => exact hc.deeds hR h
  | nested hinner => exact hinner.deeds hR h

end Moves

end FiberPrograms
