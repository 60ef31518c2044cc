import FiberPrograms.Proofs.Equivariance
import FiberPrograms.Proofs.Interleaving
import Mathlib.Data.List.Forall2

/-!
# Runs that differ in names only

If user code does not look at names then a program that is run where other fibers have been made in
the meantime goes through the same moves: names that were there before stay what they are, and the
new ones are as many further on as fibers have been made. All jobs are run at once, so there is no
queue. Which worlds are alike but for names has to be told; in worlds that are, effects answer the
same.

Two runs like that are kept side by side, move by move.

## Main definitions

* `shift`: the names of fibers, the new ones moved further on
* `Runtime.Equivariant`: a runtime that does not look at names, nor do its effects
* `Pool.Renamed`, `Thread.Renamed`, `Config.Renamed`: what differs in names only
* `Config.history`: what is asked for in a run

## Main results

* `Config.Renamed.tick`, `Config.Renamed.run`: what differs in names only goes on to do so
* `Config.Renamed.history`: and asks for the same, in the same order
-/

namespace FiberPrograms

variable {S : Signature} {W α β : Type} {N : Naming S} {alike : (FiberId → FiberId) → W → W → Prop}

/-- Names from `n` on are moved further by `d`. -/
def shift (n d : Nat) (fiber : FiberId) : FiberId :=
  if fiber.index < n then fiber else ⟨fiber.index + d⟩

theorem shift_of_lt {n d : Nat} {fiber : FiberId} (h : fiber.index < n) :
    shift n d fiber = fiber :=
  if_pos h

theorem shift_of_le {n d i : Nat} (h : n ≤ i) : shift n d ⟨i⟩ = ⟨i + d⟩ :=
  if_neg (Nat.not_lt.mpr h)

theorem shift_injective (n d : Nat) : Function.Injective (shift n d) := by
  rintro ⟨i⟩ ⟨j⟩ h
  simp only [shift] at h
  grind

/-- User code and observers do not look at names, and in worlds that are alike but for names effects
answer the same but for names, and leave them alike. -/
structure Runtime.Equivariant (N : Naming S) (alike : (FiberId → FiberId) → W → W → Prop)
    (R : Runtime S W) : Prop
    extends toInterpreterEquivariant : Interpreter.Equivariant N R.toInterpreter where
  effect : ∀ {ρ}, Function.Injective ρ → ∀ e {w w'}, alike ρ w w' →
    (R.effect (N.effect ρ e) w').1 = N.reply ρ e (R.effect e w).1 ∧
      alike ρ (R.effect e w).2 (R.effect (N.effect ρ e) w').2

/-! ## Renamed threads -/

section Threads

variable {ρ : FiberId → FiberId}

/-- Threads whose computations differ in names only. -/
inductive Thread.Renamed (N : Naming S) (ρ : FiberId → FiberId) (f : α → β) :
    Thread S α → Thread S β → Prop
  | base {c : Comp S α} {c' : Comp S β} (h : c.Renamed N ρ f c') :
      Renamed N ρ f (.base c) (.base c')
  | nested {inner inner' : Comp S (Turn S)}
      {callers callers' : List (Except Fault S.Value → Comp S (Turn S))}
      {outer : Except Fault S.Value → Comp S α} {outer' : Except Fault S.Value → Comp S β}
      (hinner : inner.Renamed N ρ (Turn.rename N ρ) inner')
      (hcallers : List.Forall₂ (fun k k' => ∀ outcome,
        (k outcome).Renamed N ρ (Turn.rename N ρ) (k' (N.outcome ρ outcome))) callers callers')
      (houter : ∀ outcome, (outer outcome).Renamed N ρ f (outer' (N.outcome ρ outcome))) :
      Renamed N ρ f (.nested inner callers outer) (.nested inner' callers' outer')

/-- Jobs of fibers that differ in names only. -/
structure Job.Renamed (N : Naming S) (ρ : FiberId → FiberId) (job job' : Job S) : Prop where
  fiber : job'.fiber = ρ job.fiber
  thread : job.thread.Renamed N ρ (Value.rename N ρ) job'.thread

/-- A job may be launched ahead of everything else. -/
inductive Launch.Renamed (N : Naming S) (ρ : FiberId → FiberId) : Launch S → Launch S → Prop
  | none : Renamed N ρ .none .none
  | ahead {job job' : Job S} (h : job.Renamed N ρ job') : Renamed N ρ (.ahead job) (.ahead job')

/-- Reactions that differ in names only. -/
inductive Reaction.Renamed (N : Naming S) (ρ : FiberId → FiberId) (f : α → β) :
    Reaction S α → Reaction S β → Prop
  | next {c : Comp S α} {c' : Comp S β} {launch launch' : Launch S} (hc : c.Renamed N ρ f c')
      (hlaunch : launch.Renamed N ρ launch') : Renamed N ρ f (.next c launch) (.next c' launch')
  | enter {inner inner' : Comp S (Turn S)} {k : Except Fault S.Value → Comp S α}
      {k' : Except Fault S.Value → Comp S β} (hinner : inner.Renamed N ρ (Turn.rename N ρ) inner')
      (hk : ∀ outcome, (k outcome).Renamed N ρ f (k' (N.outcome ρ outcome))) :
      Renamed N ρ f (.enter inner k) (.enter inner' k')
  | ended (outcome : Except Fault α) :
      Renamed N ρ f (.ended outcome) (.ended (renameOutcome ρ f outcome))
  | blocked : Renamed N ρ f .blocked .blocked

/-- Moves that differ in names only. -/
inductive Motion.Renamed (N : Naming S) (ρ : FiberId → FiberId) (f : α → β) :
    Motion S α → Motion S β → Prop
  | moved {thread : Thread S α} {thread' : Thread S β} {launch launch' : Launch S}
      (hthread : thread.Renamed N ρ f thread') (hlaunch : launch.Renamed N ρ launch') :
      Renamed N ρ f (.moved thread launch) (.moved thread' launch')
  | ended (outcome : Except Fault α) :
      Renamed N ρ f (.ended outcome) (.ended (renameOutcome ρ f outcome))
  | blocked : Renamed N ρ f .blocked .blocked

/-- The innermost waiting computation goes on with the outcome that it has waited for. -/
theorem Thread.renamed_answer {f : α → β}
    {callers callers' : List (Except Fault S.Value → Comp S (Turn S))}
    {outer : Except Fault S.Value → Comp S α} {outer' : Except Fault S.Value → Comp S β}
    (hcallers : List.Forall₂ (fun k k' => ∀ outcome,
      (k outcome).Renamed N ρ (Turn.rename N ρ) (k' (N.outcome ρ outcome))) callers callers')
    (houter : ∀ outcome, (outer outcome).Renamed N ρ f (outer' (N.outcome ρ outcome)))
    (outcome : Except Fault S.Value) :
    (answer callers outer outcome).Renamed N ρ f
      (answer callers' outer' (N.outcome ρ outcome)) := by
  cases hcallers with
  | nil => exact .base (houter outcome)
  | cons hk hrest => exact .nested (hk outcome) hrest houter

end Threads

/-! ## Renamed pools -/

/-- Pools that differ in the names of fibers from `n` on, over worlds that are alike but for
names. -/
structure Pool.Renamed (N : Naming S) (alike : (FiberId → FiberId) → W → W → Prop) (n d : Nat)
    (pool pool' : Pool S W) : Prop where
  grown : n ≤ pool.fibers.size
  size : pool'.fibers.size = pool.fibers.size + d
  get? : ∀ fiber, pool'.get? (shift n d fiber) =
    (pool.get? fiber).map (Fiber.rename N (shift n d))
  queue : pool.queue = #[]
  queue' : pool'.queue = #[]
  events : pool'.events = pool.events.map (Event.rename (shift n d))
  records : pool'.records = pool.records.map (Record.rename (shift n d))
  world : alike (shift n d) pool.world pool'.world

namespace Pool.Renamed

variable {R : Runtime S W} {n d : Nat} {pool pool' : Pool S W} {fiber : FiberId}

theorem log (h : pool.Renamed N alike n d pool') (level : Option Level) (record : Record) :
    (pool.log level record).Renamed N alike n d
      (pool'.log level (record.rename (shift n d))) := by
  unfold Pool.log
  cases level with
  | none => exact h
  | some level =>
    simp only [Record.level_rename]
    split
    · exact { h with records := by simp [h.records] }
    · exact h

/-- A fiber gets to another stage. -/
theorem set (h : pool.Renamed N alike n d pool') (fiber : FiberId) (stage : Fiber S) :
    (pool.set fiber stage).Renamed N alike n d
      (pool'.set (shift n d fiber) (stage.rename N (shift n d))) := by
  refine { h with grown := ?_, size := ?_, get? := fun other => ?_ }
  · rw [Pool.size_set]
    exact h.grown
  · rw [Pool.size_set, Pool.size_set]
    exact h.size
  · rw [Pool.get?_set, Pool.get?_set, h.get?, h.get?]
    simp only [(shift_injective n d).eq_iff]
    split
    · cases pool.get? fiber <;> rfl
    · rfl

/-- A fiber is made. -/
theorem push (h : pool.Renamed N alike n d pool') :
    ({ pool with fibers := pool.fibers.push .named }).Renamed N alike n d
      { pool' with fibers := pool'.fibers.push .named } := by
  refine { h with grown := ?_, size := ?_, get? := fun other => ?_ }
  · simpa using Nat.le_succ_of_le h.grown
  · simp only [Array.size_push, h.size]
    omega
  · have hnew : shift n d ⟨pool.fibers.size⟩ = ⟨pool'.fibers.size⟩ := by
      rw [shift_of_le h.grown, h.size]
    have hpush (pool : Pool S W) (other : FiberId) :
        ({ pool with fibers := pool.fibers.push .named } : Pool S W).get? other =
          if other = ⟨pool.fibers.size⟩ then some .named else pool.get? other :=
      Pool.get?_push rfl
    rw [hpush, hpush, ← hnew, h.get?]
    simp only [(shift_injective n d).eq_iff]
    split <;> rfl

theorem release (h : pool.Renamed N alike n d pool') (level : Option Level) (fiber : FiberId) :
    (pool.release level fiber).Renamed N alike n d
      (pool'.release level (shift n d fiber)) := by
  have hdropped : ((pool.fill fiber .dropped).log level (.dropped fiber)).Renamed N alike n d
      ((pool'.fill (shift n d fiber) .dropped).log level (.dropped (shift n d fiber))) :=
    (h.set fiber (.ended .dropped)).log level (.dropped fiber)
  unfold Pool.release
  rw [h.get?]
  cases pool.get? fiber with
  | none => exact hdropped
  | some stage =>
    cases stage with
    | ended ending => exact h
    | _ => exact hdropped

theorem finish (h : pool.Renamed N alike n d pool') (level : Option Level) (fiber : FiberId)
    (outcome : Except Fault S.Value) :
    (pool.finish level fiber outcome).Renamed N alike n d
      (pool'.finish level (shift n d fiber) (N.outcome (shift n d) outcome)) := by
  unfold Pool.finish
  rw [Ending.ofOutcome_rename]
  cases outcome with
  | ok v => exact (h.set fiber (.ended (.value v))).release level fiber
  | error cause =>
    have hlogged := h.log level (.failed fiber cause)
    exact (hlogged.set fiber (.ended (.failed cause))).release level fiber

theorem isReady (h : pool.Renamed N alike n d pool') (fiber : FiberId) :
    pool'.isReady (shift n d fiber) = pool.isReady fiber := by
  rw [Pool.isReady, h.get?, Pool.isReady]
  cases pool.get? fiber <;> simp

variable (hR : R.Equivariant N alike)

include hR in
theorem start (hinline : R.spawner = .inline) (h : pool.Renamed N alike n d pool')
    (fiber : FiberId) (action : S.Action) :
    (pool.start R fiber action).1.Renamed N (shift n d)
        (pool'.start R (shift n d fiber) (N.action (shift n d) action)).1 ∧
      (pool.start R fiber action).2.Renamed N alike n d
        (pool'.start R (shift n d fiber) (N.action (shift n d) action)).2 := by
  unfold Pool.start
  rw [h.get?, hinline]
  cases pool.get? fiber with
  | none => exact ⟨.none, h⟩
  | some stage =>
    cases stage with
    | named =>
      refine ⟨.ahead ⟨rfl, .base (hR.act (shift_injective n d) action)⟩, ?_⟩
      exact (h.log R.level (.starting fiber)).set fiber .running
    | _ => exact ⟨.none, h⟩

theorem keep (h : pool.Renamed N alike n d pool') (fiber : FiberId) (action : S.Action) :
    (pool.keep fiber action).Renamed N alike n d
      (pool'.keep (shift n d fiber) (N.action (shift n d) action)) := by
  unfold Pool.keep
  rw [h.get?]
  cases pool.get? fiber with
  | none => exact h
  | some stage =>
    cases stage with
    | named => exact h.set fiber (.recomputing action)
    | _ => exact h

/-- An event is put down. -/
theorem note (h : pool.Renamed N alike n d pool') (event : Event) :
    ({ pool with events := pool.events.push event }).Renamed N alike n d
      { pool' with events := pool'.events.push (event.rename (shift n d)) } :=
  { h with events := by simp [h.events] }

include hR in
/-- Requests are answered the same, but for names. -/
theorem answer (hinline : R.spawner = .inline) (h : pool.Renamed N alike n d pool')
    (request : Request S) :
    (pool'.answer R (request.rename N (shift n d))).1 =
        request.renameReply N (shift n d) (pool.answer R request).1 ∧
      (pool.answer R request).2.1.Renamed N (shift n d)
        (pool'.answer R (request.rename N (shift n d))).2.1 ∧
      (pool.answer R request).2.2.Renamed N alike n d
        (pool'.answer R (request.rename N (shift n d))).2.2 := by
  cases request with
  | newFiber =>
    have hnew : shift n d ⟨pool.fibers.size⟩ = ⟨pool'.fibers.size⟩ := by
      rw [shift_of_le h.grown, h.size]
    exact ⟨hnew.symm, .none, h.push⟩
  | start fiber action => exact ⟨rfl, h.start hR hinline fiber action⟩
  | keep fiber action => exact ⟨rfl, .none, h.keep fiber action⟩
  | ended fiber => exact ⟨h.isReady fiber, .none, h⟩
  | note event => exact ⟨rfl, .none, h.note event⟩
  | sight fiber => exact ⟨rfl, .none, { h with }⟩
  | log record => exact ⟨rfl, .none, h.log R.level record⟩
  | perform e =>
    obtain ⟨hreply, hworld⟩ := hR.effect (shift_injective n d) e h.world
    exact ⟨hreply, .none, { h with world := hworld }⟩

end Pool.Renamed

/-! ## Moves -/

section Moves

variable {R : Runtime S W} {n d : Nat} {pool pool' : Pool S W} {f : α → β}
  (hR : R.Equivariant N alike) (hinline : R.spawner = .inline)

include hR hinline

/-- Computations that differ in names only make moves that differ in names only. -/
theorem Comp.Renamed.react {c : Comp S α} {c' : Comp S β} (hc : c.Renamed N (shift n d) f c')
    (h : pool.Renamed N alike n d pool') :
    (c.react R pool).1.Renamed N (shift n d) f (c'.react R pool').1 ∧
      (c.react R pool).2.Renamed N alike n d (c'.react R pool').2 := by
  cases hc with
  | done hb =>
    subst hb
    exact ⟨.ended (.ok _), h⟩
  | fail hfault =>
    subst hfault
    exact ⟨.ended (.error _), h⟩
  | @ask request k k' hk =>
    obtain ⟨hreply, hlaunch, hpool⟩ := h.answer hR hinline request
    have hnext := hk (pool.answer R request).1
    rw [← hreply] at hnext
    exact ⟨.next hnext hlaunch, hpool⟩
  | @demand d' k k' hk =>
    cases d' with
    | interpret yields machine =>
      exact ⟨.enter (hR.turn (shift_injective n d) machine) hk, h⟩
    | read fiber =>
      rw [Comp.react, Demand.rename, Comp.react, h.get?]
      cases pool.get? fiber with
      | none => exact ⟨.blocked, h⟩
      | some stage =>
        cases stage with
        | ended ending =>
          refine ⟨.next ?_ .none, h⟩
          rw [Ending.read_rename]
          exact hk _
        | recomputing action =>
          refine ⟨.enter ?_ hk, h⟩
          exact (hR.act (shift_injective n d) action).bind fun v => .done rfl
        | _ => exact ⟨.blocked, h⟩
  | runQueue hk =>
    rw [Comp.react, Comp.react, h.queue, h.queue']
    exact ⟨.next hk .none, h⟩

/-- So do threads. -/
theorem Thread.Renamed.move {thread : Thread S α} {thread' : Thread S β}
    (hthread : thread.Renamed N (shift n d) f thread')
    (h : pool.Renamed N alike n d pool') :
    (thread.move R pool).1.Renamed N (shift n d) f (thread'.move R pool').1 ∧
      (thread.move R pool).2.Renamed N alike n d (thread'.move R pool').2 := by
  cases hthread with
  | @base c c' hc =>
    obtain ⟨hreaction, hpool⟩ := hc.react hR hinline h
    rw [Thread.move, Thread.move]
    generalize c.react R pool = reacted at hreaction hpool ⊢
    generalize c'.react R pool' = reacted' at hreaction hpool ⊢
    obtain ⟨reaction, pool₁⟩ := reacted
    obtain ⟨reaction', pool₁'⟩ := reacted'
    -- What the computation at the top does, it does in both, and the callers below are kept.
    cases hreaction with
    | next hc hlaunch => exact ⟨.moved (.base hc) hlaunch, hpool⟩
    | enter hinner hk => exact ⟨.moved (.nested hinner .nil hk) .none, hpool⟩
    | ended outcome => exact ⟨.ended outcome, hpool⟩
    | blocked => exact ⟨.blocked, hpool⟩
  | @nested inner inner' callers callers' outer outer' hinner hcallers houter =>
    obtain ⟨hreaction, hpool⟩ := hinner.react hR hinline h
    rw [Thread.move, Thread.move]
    generalize inner.react R pool = reacted at hreaction hpool ⊢
    generalize inner'.react R pool' = reacted' at hreaction hpool ⊢
    obtain ⟨reaction, pool₁⟩ := reacted
    obtain ⟨reaction', pool₁'⟩ := reacted'
    cases hreaction with
    | next hc hlaunch => exact ⟨.moved (.nested hc hcallers houter) hlaunch, hpool⟩
    | enter hinner hk => exact ⟨.moved (.nested hinner (.cons hk hcallers) houter) .none, hpool⟩
    | blocked => exact ⟨.blocked, hpool⟩
    | ended outcome =>
      match outcome with
      | .ok (.value v) =>
        exact ⟨.moved (Thread.renamed_answer hcallers houter (.ok v)) .none, hpool⟩
      | .ok (.again yields machine) =>
        have hturn : (R.turn yields machine).Renamed N (shift n d) (Turn.rename N (shift n d))
            (R.turn yields (machine.rename N (shift n d))) :=
          hR.turn (shift_injective n d) machine
        exact ⟨.moved (.nested hturn hcallers houter) .none, hpool⟩
      | .error fault =>
        exact ⟨.moved (Thread.renamed_answer hcallers houter (.error fault)) .none, hpool⟩

/-- The first job that can move is the same but for names, and so is what becomes of it. -/
theorem renamed_moveJobs {jobs jobs' : List (Job S)}
    (hjobs : List.Forall₂ (Job.Renamed N (shift n d)) jobs jobs')
    (h : pool.Renamed N alike n d pool') :
    Option.Rel (fun found found' => List.Forall₂ (Job.Renamed N (shift n d)) found.1 found'.1 ∧
        found.2.Renamed N (shift n d) found'.2)
      (moveJobs R pool jobs).1 (moveJobs R pool' jobs').1 ∧
    (moveJobs R pool jobs).2.Renamed N alike n d (moveJobs R pool' jobs').2 := by
  -- By induction on the jobs: one that has to wait does so in both, and leaves the rest to the
  -- others.
  induction hjobs generalizing pool pool' with
  | nil => exact ⟨.none, h⟩
  | @cons job job' rest rest' hjob hrest ih =>
    obtain ⟨hmotion, hpool⟩ := hjob.thread.move hR hinline h
    rw [moveJobs, moveJobs]
    generalize job.thread.move R pool = moved at hmotion hpool ⊢
    generalize job'.thread.move R pool' = moved' at hmotion hpool ⊢
    obtain ⟨motion, pool₁⟩ := moved
    obtain ⟨motion', pool₁'⟩ := moved'
    cases hmotion with
    | moved hthread hlaunch =>
      exact ⟨.some ⟨.cons ⟨hjob.fiber, hthread⟩ hrest, hlaunch⟩, hpool⟩
    | ended outcome =>
      refine ⟨.some ⟨hrest, .none⟩, ?_⟩
      rw [hjob.fiber]
      exact hpool.finish R.level job.fiber outcome
    | blocked =>
      obtain ⟨hfound, hpool'⟩ := ih hpool
      dsimp only at hfound hpool' ⊢
      generalize moveJobs R pool₁ rest = others at hfound hpool' ⊢
      generalize moveJobs R pool₁' rest' = others' at hfound hpool' ⊢
      obtain ⟨found, pool₂⟩ := others
      obtain ⟨found', pool₂'⟩ := others'
      cases hfound with
      | none => exact ⟨.none, hpool'⟩
      | some hfound => exact ⟨.some ⟨.cons hjob hfound.1, hfound.2⟩, hpool'⟩

end Moves

/-! ## What is asked for -/

/-- What a thread asks for when it moves. -/
def Thread.asked : Thread S α → List (Request S)
  | base (.ask request _) => [request]
  | nested (.ask request _) _ _ => [request]
  | _ => []

/-- What a thread asks for with its next move, if it can move. -/
def Thread.asks? (R : Runtime S W) (pool : Pool S W) (thread : Thread S α) :
    Option (List (Request S)) :=
  match thread.move R pool with
  | (.blocked, _) => none
  | _ => some thread.asked

/-- What is asked for by the first job that can move, if one can. -/
def jobsAsk? (R : Runtime S W) (pool : Pool S W) (jobs : List (Job S)) :
    Option (List (Request S)) :=
  jobs.findSome? fun job => job.thread.asks? R pool

/-- What is asked for with the next move: the first thread that can move makes it. -/
def Config.asks (R : Runtime S W) (config : Config S W α) : List (Request S) :=
  let main :=
    match config.main with
    | .running thread => thread.asks? R config.pool
    | .ended _ => none
  (((jobsAsk? R config.pool config.ahead).or main).or
    (jobsAsk? R config.pool config.behind)).getD []

/-- What is asked for, move by move, until the main thread is over or nothing can move. -/
def Config.history (R : Runtime S W) : (fuel : Nat) → Config S W α → List (Request S)
  | 0, _ => []
  | fuel + 1, config =>
    match config.main with
    | .ended _ => []
    | .running _ =>
      match config.tick R with
      | (true, config') => config.asks R ++ history R fuel config'
      | (false, _) => []

section Asks

variable {R : Runtime S W} {n d : Nat} {pool pool' : Pool S W} {f : α → β}
  (hR : R.Equivariant N alike) (hinline : R.spawner = .inline)

theorem Thread.Renamed.asked {ρ : FiberId → FiberId} {thread : Thread S α} {thread' : Thread S β}
    (h : thread.Renamed N ρ f thread') : thread'.asked = thread.asked.map (Request.rename N ρ) := by
  cases h with
  | base hc => cases hc <;> rfl
  | nested hinner => cases hinner <;> rfl

include hR hinline

/-- Threads that differ in names only ask for the same, but for names. -/
theorem Thread.Renamed.asks? {thread : Thread S α} {thread' : Thread S β}
    (hthread : thread.Renamed N (shift n d) f thread') (h : pool.Renamed N alike n d pool') :
    thread'.asks? R pool' =
      (thread.asks? R pool).map (List.map (Request.rename N (shift n d))) := by
  obtain ⟨hmotion, -⟩ := hthread.move hR hinline h
  rw [Thread.asks?, Thread.asks?, hthread.asked]
  generalize thread.move R pool = moved at hmotion ⊢
  generalize thread'.move R pool' = moved' at hmotion ⊢
  obtain ⟨motion, pool₁⟩ := moved
  obtain ⟨motion', pool₁'⟩ := moved'
  cases hmotion <;> rfl

theorem renamed_jobsAsk {jobs jobs' : List (Job S)}
    (hjobs : List.Forall₂ (Job.Renamed N (shift n d)) jobs jobs')
    (h : pool.Renamed N alike n d pool') :
    jobsAsk? R pool' jobs' =
      (jobsAsk? R pool jobs).map (List.map (Request.rename N (shift n d))) := by
  induction hjobs with
  | nil => rfl
  | @cons job job' rest rest' hjob hrest ih =>
    have hasks := hjob.thread.asks? hR hinline h
    rw [jobsAsk?, List.findSome?_cons, hasks, jobsAsk?, List.findSome?_cons]
    cases job.thread.asks? R pool with
    | none => exact ih
    | some requests => rfl

end Asks

/-! ## Runs -/

/-- Main threads that differ in names only. -/
inductive Main.Renamed (N : Naming S) (ρ : FiberId → FiberId) (f : α → β) :
    Main S α → Main S β → Prop
  | running {thread : Thread S α} {thread' : Thread S β} (h : thread.Renamed N ρ f thread') :
      Renamed N ρ f (.running thread) (.running thread')
  | ended (outcome : Except Fault α) :
      Renamed N ρ f (.ended outcome) (.ended (renameOutcome ρ f outcome))

namespace Config

/-- Configurations that differ in names only. -/
structure Renamed (N : Naming S) (alike : (FiberId → FiberId) → W → W → Prop) (n d : Nat)
    (f : α → β) (config : Config S W α) (config' : Config S W β) : Prop where
  pool : config.pool.Renamed N alike n d config'.pool
  main : config.main.Renamed N (shift n d) f config'.main
  ahead : List.Forall₂ (Job.Renamed N (shift n d)) config.ahead config'.ahead
  behind : config.behind = []
  behind' : config'.behind = []

variable {R : Runtime S W} {n d : Nat} {f : α → β} {config : Config S W α}
  {config' : Config S W β} (hR : R.Equivariant N alike) (hinline : R.spawner = .inline)

theorem Renamed.launch (h : config.Renamed N alike n d f config') {launch launch' : Launch S}
    (hlaunch : launch.Renamed N (shift n d) launch') :
    (config.launch launch).Renamed N alike n d f (config'.launch launch') := by
  cases hlaunch with
  | none => exact h
  | ahead hjob => exact { h with ahead := .cons hjob h.ahead }

include hR hinline

/-- Configurations that differ in names only make moves that differ in names only. -/
theorem Renamed.tick (h : config.Renamed N alike n d f config') :
    (config'.tick R).1 = (config.tick R).1 ∧
      (config.tick R).2.Renamed N alike n d f (config'.tick R).2 := by
  obtain ⟨pool, main, ahead, behind⟩ := config
  obtain ⟨pool', main', ahead', behind'⟩ := config'
  obtain ⟨hpool, hmain, hahead, rfl, rfl⟩ := h
  obtain ⟨hfound, hpool₁⟩ := renamed_moveJobs hR hinline hahead hpool
  rw [Config.tick, Config.tick]
  generalize moveJobs R pool ahead = moved at hfound hpool₁ ⊢
  generalize moveJobs R pool' ahead' = moved' at hfound hpool₁ ⊢
  obtain ⟨found, pool₁⟩ := moved
  obtain ⟨found', pool₁'⟩ := moved'
  -- The main thread has its turn only if no job can move.
  cases hfound with
  | @some found found' hfound =>
    have hconfig : Renamed N alike n d f ⟨pool₁, main, found.1, []⟩ ⟨pool₁', main', found'.1, []⟩ :=
      ⟨hpool₁, hmain, hfound.1, rfl, rfl⟩
    exact ⟨rfl, hconfig.launch hfound.2⟩
  | none =>
    cases hmain with
    | ended outcome => exact ⟨rfl, hpool₁, .ended outcome, hahead, rfl, rfl⟩
    | @running thread thread' hthread =>
      obtain ⟨hmotion, hpool₂⟩ := hthread.move hR hinline hpool₁
      dsimp only at hmotion hpool₂ ⊢
      generalize thread.move R pool₁ = moved at hmotion hpool₂ ⊢
      generalize thread'.move R pool₁' = moved' at hmotion hpool₂ ⊢
      obtain ⟨motion, pool₂⟩ := moved
      obtain ⟨motion', pool₂'⟩ := moved'
      cases hmotion with
      | @moved thread thread' launch launch' hthread hlaunch =>
        have hconfig : Renamed N alike n d f ⟨pool₂, .running thread, ahead, []⟩
            ⟨pool₂', .running thread', ahead', []⟩ :=
          ⟨hpool₂, .running hthread, hahead, rfl, rfl⟩
        exact ⟨rfl, hconfig.launch hlaunch⟩
      | ended outcome => exact ⟨rfl, hpool₂, .ended outcome, hahead, rfl, rfl⟩
      | blocked => exact ⟨rfl, hpool₂, .running hthread, hahead, rfl, rfl⟩

/-- However far they are run, they differ in names only. -/
theorem Renamed.run (fuel : Nat) (h : config.Renamed N alike n d f config') :
    (config.run R fuel).Renamed N alike n d f (config'.run R fuel) := by
  induction fuel generalizing config config' with
  | zero => exact h
  | succ fuel ih =>
    obtain ⟨hmoved, hticked⟩ := h.tick hR hinline
    have hmain := h.main
    rw [Config.run, Config.run]
    generalize config.main = main at hmain ⊢
    generalize config'.main = main' at hmain ⊢
    cases hmain with
    | ended outcome => exact h
    | running hthread =>
      generalize config.tick R = ticked at hmoved hticked ⊢
      generalize config'.tick R = ticked' at hmoved hticked ⊢
      obtain ⟨moved, config₁⟩ := ticked
      obtain ⟨moved', config₁'⟩ := ticked'
      cases hmoved
      cases moved with
      | true => exact ih hticked
      | false => exact hticked

/-- With their next move they ask for the same, but for names. -/
theorem Renamed.asks (h : config.Renamed N alike n d f config') :
    config'.asks R = (config.asks R).map (Request.rename N (shift n d)) := by
  obtain ⟨pool, main, ahead, behind⟩ := config
  obtain ⟨pool', main', ahead', behind'⟩ := config'
  obtain ⟨hpool, hmain, hahead, rfl, rfl⟩ := h
  rw [Config.asks, Config.asks, renamed_jobsAsk hR hinline hahead hpool]
  cases jobsAsk? R pool ahead with
  | some requests => rfl
  | none =>
    cases hmain with
    | ended outcome => rfl
    | running hthread =>
      simp only [hthread.asks? hR hinline hpool]
      cases Thread.asks? R pool _ <;> rfl

/-- However far they are run, they ask for the same, but for names. -/
theorem Renamed.history (fuel : Nat) (h : config.Renamed N alike n d f config') :
    config'.history R fuel = (config.history R fuel).map (Request.rename N (shift n d)) := by
  induction fuel generalizing config config' with
  | zero => rfl
  | succ fuel ih =>
    obtain ⟨hmoved, hticked⟩ := h.tick hR hinline
    have hasks := h.asks hR hinline
    have hmain := h.main
    rw [Config.history, Config.history]
    generalize config.main = main at hmain ⊢
    generalize config'.main = main' at hmain ⊢
    cases hmain with
    | ended outcome => rfl
    | running hthread =>
      generalize config.tick R = ticked at hmoved hticked ⊢
      generalize config'.tick R = ticked' at hmoved hticked ⊢
      obtain ⟨moved, config₁⟩ := ticked
      obtain ⟨moved', config₁'⟩ := ticked'
      cases hmoved
      cases moved with
      | true =>
        dsimp only at hticked ⊢
        rw [hasks, ih hticked, List.map_append]
      | false => rfl

end Config

end FiberPrograms
