import FiberPrograms.Proofs.Stories

/-!
# Pools that differ in some fibers

Let some fibers be set apart. Two pools are twins if they agree on all others, on what waits in the
queue of the others, and on everything that names depend on; in the fibers set apart they may
differ as they like, and their worlds may differ as far as nobody can tell. A thread whose next
move has nothing to do with the fibers set apart makes the same move over both, and leaves twins.

## Main definitions

* `Pool.Twins`: pools that agree but for the fibers in a set
* `Comp.Heeds`, `Thread.Heeds`: the next move may have to do with the fibers in a set
* `Runtime.Blind`: effects answer alike in worlds that nobody can tell apart
* `Advance`: what the move of a computation comes to for those that wait below it

## Main results

* `Comp.react_twins`, `Thread.move_twins`: moves that do not heed them are the same over twins
* `Pool.Twins.startAt`, `Pool.Twins.drop`: so are jobs of the queue
* `Scene.Incident.twin`: what others do than one computation they do over a twin of the pool too
-/

namespace FiberPrograms

variable {S : Signature} {W α : Type} {U : Set FiberId} {same : W → W → Prop}

/-- Effects answer alike in worlds that nobody can tell apart, and leave worlds like that. -/
def Runtime.Blind (R : Runtime S W) (same : W → W → Prop) : Prop :=
  ∀ e {w w'}, same w w' →
    (R.effect e w').1 = (R.effect e w).1 ∧ same (R.effect e w).2 (R.effect e w').2

theorem Runtime.blind_eq (R : Runtime S W) : R.Blind Eq := by
  rintro e w _ rfl
  exact ⟨rfl, rfl⟩

open Classical in
/-- What waits in the queue, but for the fibers in a set. -/
noncomputable def Pool.queueBut (U : Set FiberId) (pool : Pool S W) : List FiberId :=
  pool.queue.toList.filter (· ∉ U)

/-- The pools agree but for the fibers in `U`, as far as anybody can tell. -/
structure Pool.Twins (U : Set FiberId) (same : W → W → Prop) (pool pool' : Pool S W) : Prop where
  size : pool'.fibers.size = pool.fibers.size
  get? : ∀ {fiber}, fiber ∉ U → pool'.get? fiber = pool.get? fiber
  queue : pool'.queueBut U = pool.queueBut U
  sighted : pool'.sighted = pool.sighted
  world : same pool.world pool'.world

/-- Whether the answer to a request may have to do with a fiber in a set. -/
def Request.Heeds (U : Set FiberId) : Request S → Prop
  | start fiber _ | keep fiber _ | ended fiber => fiber ∈ U
  | _ => False

/-- Whether the next move may have to do with a fiber in a set. -/
def Comp.Heeds (U : Set FiberId) : Comp S α → Prop
  | .ask request _ => request.Heeds U
  | .demand (.read fiber) _ => fiber ∈ U
  | .runQueue _ => U.Nonempty
  | _ => False

/-- Whether the next move of a thread may have to do with a fiber in a set. -/
def Thread.Heeds (U : Set FiberId) : Thread S α → Prop
  | base c => c.Heeds U
  | nested c _ _ => c.Heeds U

/-- Whether a request hands an action to the spawner. -/
def Request.Starts : Request S → Prop
  | start _ _ => True
  | _ => False

/-- Whether the next move hands an action to the spawner. -/
def Comp.Starts : Comp S α → Prop
  | .ask request _ => request.Starts
  | _ => False

/-- Whether the next move of a thread hands an action to the spawner. -/
def Thread.Starts : Thread S α → Prop
  | base c => c.Starts
  | nested c _ _ => c.Starts

/-- Where no fiber is set apart, none is heeded. -/
theorem Comp.not_heeds_empty (c : Comp S α) : ¬ c.Heeds ∅ := by
  rcases c with _ | _ | ⟨_ | _ | _ | _ | _ | _ | _ | _, _⟩ | ⟨_ | _, _⟩ | _ <;>
    simp [Heeds, Request.Heeds]

theorem Thread.not_heeds_empty (thread : Thread S α) : ¬ thread.Heeds ∅ := by
  cases thread <;> exact Comp.not_heeds_empty _

namespace Pool.Twins

variable {pool pool' pool₁ pool₁' : Pool S W} {fiber : FiberId} {stage : Fiber S}

theorem refl (hsame : ∀ w, same w w) (pool : Pool S W) : pool.Twins U same pool where
  size := rfl
  get? _ := rfl
  queue := rfl
  sighted := rfl
  world := hsame _

theorem symm (h : pool.Twins U same pool') (hsymm : ∀ {w w'}, same w w' → same w' w) :
    pool'.Twins U same pool where
  size := h.size.symm
  get? hfiber := (h.get? hfiber).symm
  queue := h.queue.symm
  sighted := h.sighted.symm
  world := hsymm h.world

theorem trans {pool'' : Pool S W} (h : pool.Twins U same pool') (h' : pool'.Twins U same pool'')
    (htrans : ∀ {w w' w''}, same w w' → same w' w'' → same w w'') : pool.Twins U same pool'' where
  size := h'.size.trans h.size
  get? hfiber := (h'.get? hfiber).trans (h.get? hfiber)
  queue := h'.queue.trans h.queue
  sighted := h'.sighted.trans h.sighted
  world := htrans h.world h'.world

/-- All that matters is what twins agree on. -/
theorem congr (h : pool.Twins U same pool') (hfibers : pool₁.fibers = pool.fibers)
    (hqueue : pool₁.queue = pool.queue) (hsighted : pool₁.sighted = pool.sighted)
    (hworld : pool₁.world = pool.world) (hfibers' : pool₁'.fibers = pool'.fibers)
    (hqueue' : pool₁'.queue = pool'.queue) (hsighted' : pool₁'.sighted = pool'.sighted)
    (hworld' : pool₁'.world = pool'.world) : pool₁.Twins U same pool₁' where
  size := by rw [hfibers, hfibers', h.size]
  get? hfiber := by rw [Pool.get?, Pool.get?, hfibers, hfibers']; exact h.get? hfiber
  queue := by rw [queueBut, queueBut, hqueue, hqueue']; exact h.queue
  sighted := by rw [hsighted, hsighted', h.sighted]
  world := by rw [hworld, hworld']; exact h.world

/-- What is written to the log makes no difference. -/
theorem log (h : pool.Twins U same pool') (level : Option Level) (record record' : Record) :
    (pool.log level record).Twins U same (pool'.log level record') :=
  h.congr (by simp) (by simp) (by simp) (by simp) (by simp) (by simp) (by simp) (by simp)

theorem set (h : pool.Twins U same pool') (fiber : FiberId) (stage : Fiber S) :
    (pool.set fiber stage).Twins U same (pool'.set fiber stage) where
  size := by rw [size_set, size_set, h.size]
  get? hother := by
    rw [get?_set, get?_set, h.get? hother]
    split
    · subst fiber
      rw [h.get? hother]
    · rfl
  queue := h.queue
  sighted := h.sighted
  world := h.world

/-- The fibers set apart are nobody's concern. -/
theorem set_apart (h : pool.Twins U same pool') (hfiber : fiber ∈ U) (stage : Fiber S) :
    (pool.set fiber stage).Twins U same pool' where
  size := by rw [size_set, h.size]
  get? hother := by
    rw [get?_set, if_neg]
    · exact h.get? hother
    · rintro rfl
      exact hother hfiber
  queue := h.queue
  sighted := h.sighted
  world := h.world

theorem push (h : pool.Twins U same pool') (stage : Fiber S) :
    { pool with fibers := pool.fibers.push stage }.Twins U same
      { pool' with fibers := pool'.fibers.push stage } where
  size := by simp [h.size]
  get? {fiber} hfiber := by
    have hpush (pool : Pool S W) :
        ({ pool with fibers := pool.fibers.push stage } : Pool S W).get? fiber =
          if fiber = ⟨pool.fibers.size⟩ then some stage else pool.get? fiber := get?_push rfl
    rw [hpush, hpush, h.size, h.get? hfiber]
  queue := h.queue
  sighted := h.sighted
  world := h.world

theorem enqueue (h : pool.Twins U same pool') (fiber : FiberId) :
    { pool with queue := pool.queue.push fiber }.Twins U same
      { pool' with queue := pool'.queue.push fiber } where
  size := h.size
  get? := h.get?
  queue := by
    rw [queueBut, queueBut, Array.toList_push, Array.toList_push, List.filter_append,
      List.filter_append]
    exact congrArg (· ++ _) h.queue
  sighted := h.sighted
  world := h.world

theorem release (h : pool.Twins U same pool') (hfiber : fiber ∉ U) (level : Option Level) :
    (pool.release level fiber).Twins U same (pool'.release level fiber) := by
  unfold Pool.release
  rw [h.get? hfiber]
  split
  · exact h
  · exact (h.set fiber _).log level _ _

theorem finish (h : pool.Twins U same pool') (hfiber : fiber ∉ U) (level : Option Level)
    (outcome : Except Fault S.Value) :
    (pool.finish level fiber outcome).Twins U same (pool'.finish level fiber outcome) := by
  cases outcome with
  | ok v => exact (h.set fiber _).release hfiber level
  | error cause => exact ((h.log level _ _).set fiber _).release hfiber level

theorem start {R : Runtime S W} (h : pool.Twins U same pool') (hfiber : fiber ∉ U)
    (action : S.Action) : ∃ pool₁',
      pool'.start R fiber action = ((pool.start R fiber action).1, pool₁') ∧
      (pool.start R fiber action).2.Twins U same pool₁' := by
  unfold Pool.start
  rw [h.get? hfiber]
  split
  · have hlogged := h.log R.level (.starting fiber) (.starting fiber)
    cases R.spawner with
    | inline => exact ⟨_, rfl, hlogged.set fiber _⟩
    | background => exact ⟨_, rfl, hlogged.set fiber _⟩
    | queued => exact ⟨_, rfl, (hlogged.set fiber _).enqueue fiber⟩
    | discarding => exact ⟨_, rfl, hlogged.release hfiber R.level⟩
  · exact ⟨_, rfl, h⟩

theorem keep (h : pool.Twins U same pool') (hfiber : fiber ∉ U) (action : S.Action) :
    (pool.keep fiber action).Twins U same (pool'.keep fiber action) := by
  unfold Pool.keep
  rw [h.get? hfiber]
  split
  · exact h.set fiber _
  · exact h

/-- A job of another fiber that waits in the queue waits in the queue of the twin, and may be taken
out of both. -/
theorem dequeue (h : pool.Twins U same pool') {position : Nat}
    (hqueued : pool.queue[position]? = some fiber) (hfiber : fiber ∉ U) :
    ∃ position', pool'.queue[position']? = some fiber ∧
      { pool with queue := pool.queue.eraseIdxIfInBounds position }.Twins U same
        { pool' with queue := pool'.queue.eraseIdxIfInBounds position' } := by
  classical
  -- What waits before and after it is the same in both, but for the fibers set apart.
  have hlist : pool.queue.toList[position]? = some fiber := by simpa using hqueued
  obtain ⟨hposition, hget⟩ := List.getElem?_eq_some_iff.mp hlist
  have hsplit : pool.queue.toList =
      pool.queue.toList.take position ++ fiber :: pool.queue.toList.drop (position + 1) := by
    rw [← hget, List.getElem_cons_drop, List.take_append_drop]
  have hqueue := h.queue
  rw [queueBut, queueBut, hsplit, List.filter_append,
    List.filter_cons_of_pos (by simpa using hfiber), List.filter_eq_append_iff] at hqueue
  obtain ⟨before, rest, hqueue', hbefore, hrest⟩ := hqueue
  rw [List.filter_eq_cons_iff] at hrest
  obtain ⟨skipped, after, rfl, hskipped, -, hafter⟩ := hrest
  have hqueue' : pool'.queue.toList = (before ++ skipped) ++ fiber :: after := by
    rw [hqueue', List.append_assoc]
  refine ⟨(before ++ skipped).length, ?_, h.size, h.get?, ?_, h.sighted, h.world⟩
  · have hget' : pool'.queue.toList[(before ++ skipped).length]? = some fiber := by
      rw [hqueue', List.getElem?_append_right (Nat.le_refl _)]
      simp
    simpa using hget'
  · have herase : (pool.queue.eraseIdxIfInBounds position).toList =
        pool.queue.toList.take position ++ pool.queue.toList.drop (position + 1) := by
      rw [Array.toList_eraseIdxIfInBounds, List.eraseIdx_eq_take_drop_succ]
    have herase' : (pool'.queue.eraseIdxIfInBounds (before ++ skipped).length).toList =
        (before ++ skipped) ++ after := by
      rw [Array.toList_eraseIdxIfInBounds, hqueue',
        List.eraseIdx_append_of_length_le (Nat.le_refl _)]
      simp
    have hnone : skipped.filter (· ∉ U) = [] := by
      rw [List.filter_eq_nil_iff]
      simpa using hskipped
    rw [queueBut, queueBut, herase, herase', List.filter_append, List.filter_append,
      List.filter_append, hbefore, hnone, hafter, List.append_nil]

/-- A job of another fiber may begin in both. -/
theorem startAt {I : Interpreter S} (h : pool.Twins U same pool') {position : Nat} {job : Job S}
    (hstart : pool.startAt? I position = some (job, pool₁)) (hfiber : job.fiber ∉ U) :
    ∃ position' pool₁', pool'.startAt? I position' = some (job, pool₁') ∧
      pool₁.Twins U same pool₁' := by
  unfold startAt? at hstart
  split at hstart
  · cases hstart
  · next fiber hqueued =>
    dsimp only at hstart
    split at hstart
    · next action hwaiting =>
      cases hstart
      obtain ⟨position', hqueued', htwins⟩ := h.dequeue hqueued hfiber
      refine ⟨position', _, ?_, htwins.set fiber .running⟩
      have hwaiting' : { pool' with queue := pool'.queue.eraseIdxIfInBounds position' }.get? fiber =
          some (.waiting action) := (htwins.get? hfiber).trans hwaiting
      rw [startAt?, hqueued']
      simp only [hwaiting']
    · cases hstart

/-- A job of another fiber may be thrown away in both. -/
theorem drop (h : pool.Twins U same pool') (level : Option Level) {position : Nat}
    (hqueued : pool.queue[position]? = some fiber) (hfiber : fiber ∉ U) :
    ∃ position', pool'.queue[position']? = some fiber ∧
      ({ pool with queue := pool.queue.eraseIdxIfInBounds position }.release level fiber).Twins U
        same ({ pool' with queue := pool'.queue.eraseIdxIfInBounds position' }.release level
          fiber) := by
  obtain ⟨position', hqueued', htwins⟩ := h.dequeue hqueued hfiber
  exact ⟨position', hqueued', htwins.release hfiber level⟩

/-- A request that does not heed the fibers set apart gets the same answer from both. -/
theorem answer {R : Runtime S W} {s : Spawner} (hblind : R.Blind same)
    (h : pool.Twins U same pool') {request : Request S} (hheeds : ¬ request.Heeds U)
    (hspawner : s = R.spawner ∨ ¬ request.Starts) :
    ∃ pool₁', pool'.answer { R with spawner := s } request =
      ((pool.answer R request).1, (pool.answer R request).2.1, pool₁') ∧
      (pool.answer R request).2.2.Twins U same pool₁' := by
  cases request with
  | newFiber =>
    refine ⟨_, ?_, h.push .named⟩
    simp only [Pool.answer, h.size]
  | start fiber action =>
    obtain rfl : s = R.spawner := hspawner.resolve_right fun hstarts => hstarts trivial
    obtain ⟨pool₁', hstart, htwins⟩ := Pool.Twins.start (R := R) h hheeds action
    refine ⟨pool₁', ?_, htwins⟩
    change ((), pool'.start R fiber action) = _
    rw [hstart]
    rfl
  | keep fiber action => exact ⟨_, rfl, h.keep hheeds action⟩
  | ended fiber =>
    refine ⟨_, ?_, h⟩
    simp only [Pool.answer, Pool.isReady, h.get? hheeds]
  | note event => exact ⟨_, rfl, h.congr rfl rfl rfl rfl rfl rfl rfl rfl⟩
  | sight fiber =>
    refine ⟨_, rfl, h.size, h.get?, h.queue, ?_, h.world⟩
    exact congrArg (·.push fiber) h.sighted
  | log record => exact ⟨_, rfl, h.log R.level record record⟩
  | perform e =>
    obtain ⟨hreply, hworld⟩ := hblind e h.world
    refine ⟨{ pool' with world := (R.effect e pool'.world).2 }, ?_, h.size, h.get?, h.queue,
      h.sighted, hworld⟩
    exact congrArg (fun reply => (reply, Launch.none, _)) hreply

/-- Where no fiber is set apart, twins agree on all fibers and on the queue. -/
theorem fibers_eq (h : pool.Twins ∅ same pool') : pool'.fibers = pool.fibers := by
  apply Array.ext_getElem?
  intro i
  exact h.get? (Set.notMem_empty (⟨i⟩ : FiberId))

theorem queue_eq (h : pool.Twins ∅ same pool') : pool'.queue = pool.queue := by
  have hqueue := h.queue
  simp only [queueBut, Set.mem_empty_iff_false, not_false_eq_true, decide_true,
    List.filter_true] at hqueue
  exact Array.toList_inj.mp hqueue

/-- Then the same jobs may begin. -/
theorem startAt_everywhere (h : pool.Twins ∅ same pool') (I : Interpreter S) (position : Nat) :
    pool.startAt? I position = none ∧ pool'.startAt? I position = none ∨
      ∃ job pool₁ pool₁', pool.startAt? I position = some (job, pool₁) ∧
        pool'.startAt? I position = some (job, pool₁') ∧ pool₁.Twins ∅ same pool₁' := by
  have hqueue := h.queue_eq
  unfold startAt?
  rw [hqueue]
  cases pool.queue[position]? with
  | none => exact .inl ⟨rfl, rfl⟩
  | some fiber =>
    have htaken (p : Pool S W) (queue : Array FiberId) :
        { p with queue := queue }.get? fiber = p.get? fiber := rfl
    simp only [htaken, h.get? (Set.notMem_empty fiber)]
    rcases pool.get? fiber with _ | (_ | _ | action | _ | _)
    case some.waiting =>
      have htwins (queue : Array FiberId) :
          { pool with queue := queue }.Twins ∅ same { pool' with queue := queue } :=
        ⟨h.size, h.get?, rfl, h.sighted, h.world⟩
      exact .inr ⟨_, _, _, rfl, rfl, (htwins _).set fiber .running⟩
    all_goals exact .inl ⟨rfl, rfl⟩

end Pool.Twins

/-! ## Threads in which others wait -/

/-- What the move of a computation comes to that runs above others: they have nothing to do with
it until it is their turn. -/
inductive Advance (S : Signature) where
  | moved (c : Comp S (Turn S)) (above : List (Except Fault S.Value → Comp S (Turn S)))
      (launch : Launch S)
  /-- There is an outcome for the first of those below. -/
  | answered (outcome : Except Fault S.Value)
  | blocked

namespace Advance

/-- An outcome goes to the innermost of those that wait. -/
def answer (outcome : Except Fault S.Value) :
    List (Except Fault S.Value → Comp S (Turn S)) → Advance S
  | [] => answered outcome
  | k :: rest => moved (k outcome) rest .none

/-- What a reaction comes to, with those that wait above the others. -/
def ofReaction (I : Interpreter S) (above : List (Except Fault S.Value → Comp S (Turn S))) :
    Reaction S (Turn S) → Advance S
  | .next c launch => moved c above launch
  | .enter inner k => moved inner (k :: above) .none
  | .ended (.ok (.value v)) => answer (.ok v) above
  | .ended (.ok (.again yields machine)) => moved (I.turn yields machine) above .none
  | .ended (.error fault) => answer (.error fault) above
  | .blocked => blocked

/-- The motion of a thread in which others wait below. -/
def motion (below : List (Except Fault S.Value → Comp S (Turn S)))
    (outer : Except Fault S.Value → Comp S α) : Advance S → Motion S α
  | moved c above launch => .moved (.nested c (above ++ below) outer) launch
  | answered outcome => .moved (Thread.answer below outer outcome) .none
  | blocked => .blocked

theorem motion_answer (outcome : Except Fault S.Value)
    (above below : List (Except Fault S.Value → Comp S (Turn S)))
    (outer : Except Fault S.Value → Comp S α) :
    (answer outcome above).motion below outer =
      .moved (Thread.answer (above ++ below) outer outcome) .none := by
  cases above <;> rfl

end Advance

/-- What a thread does whose innermost computation runs above others. -/
theorem Thread.move_append {R : Runtime S W} {pool pool₁ : Pool S W} {c : Comp S (Turn S)}
    {reaction : Reaction S (Turn S)} (hreact : c.react R pool = (reaction, pool₁))
    (above below : List (Except Fault S.Value → Comp S (Turn S)))
    (outer : Except Fault S.Value → Comp S α) :
    Thread.move R pool (.nested c (above ++ below) outer) =
      ((Advance.ofReaction R.toInterpreter above reaction).motion below outer, pool₁) := by
  rw [move, hreact]
  rcases reaction with _ | _ | (fault | (v | _)) | _
  case ended.error => rw [Advance.ofReaction, Advance.motion_answer]
  case ended.ok.value => rw [Advance.ofReaction, Advance.motion_answer]
  all_goals rfl

/-! ## Moves over twins -/

section Moves

variable {R : Runtime S W} {s : Spawner} {pool pool' pool₁ : Pool S W}

/-- A request is answered with the next move. -/
theorem Comp.react_ask (request : Request S) (k : request.Reply → Comp S α) :
    (Comp.ask request k).react R pool =
      (.next (k (pool.answer R request).1) (pool.answer R request).2.1,
        (pool.answer R request).2.2) := rfl

/-- The next move of a computation that does not heed the fibers set apart is the same over twins,
and so is what is done by it. -/
theorem Comp.react_twins (hblind : R.Blind same) (h : pool.Twins U same pool') {c : Comp S α}
    (hheeds : ¬ c.Heeds U) (hspawner : s = R.spawner ∨ ¬ c.Starts) {reaction : Reaction S α}
    (hreact : c.react R pool = (reaction, pool₁)) :
    (∃ pool₁', c.react { R with spawner := s } pool' = (reaction, pool₁') ∧
      pool₁.Twins U same pool₁') ∧
    c.activity { R with spawner := s } pool' = c.activity R pool ∧
    c.deeds { R with spawner := s } pool' = c.deeds R pool := by
  cases c with
  | done a | fail fault =>
    cases hreact
    exact ⟨⟨_, rfl, h⟩, rfl, rfl⟩
  | ask request k =>
    obtain ⟨pool₁', hanswer, htwins⟩ := h.answer hblind hheeds hspawner
    rw [react_ask] at hreact
    cases hreact
    refine ⟨⟨pool₁', ?_, htwins⟩, ?_, ?_⟩
    · rw [react_ask, hanswer]
    · cases request with
      | newFiber => simp only [activity, h.size]
      | perform e => simp only [activity, (hblind e h.world).1]
      | _ => rfl
    · cases request with
      | start fiber action =>
        obtain rfl : s = R.spawner := hspawner.resolve_right fun hstarts => hstarts trivial
        simp only [deeds, Pool.startDeeds, h.get? hheeds]
      | _ => rfl
  | demand d k =>
    cases d with
    | read fiber =>
      have hget := h.get? hheeds
      refine ⟨⟨pool', ?_, ?_⟩, rfl, by simp only [deeds, Pool.readDeeds, hget]⟩
      · rw [react] at hreact ⊢
        rw [hget]
        split at hreact <;> cases hreact <;> rfl
      · rw [react] at hreact
        split at hreact <;> cases hreact <;> exact h
    | interpret yields machine =>
      cases hreact
      exact ⟨⟨_, rfl, h⟩, rfl, rfl⟩
  | runQueue k =>
    -- Whoever runs the queue heeds all fibers, so none is set apart.
    obtain rfl : U = ∅ := Set.not_nonempty_iff_eq_empty.mp hheeds
    have hqueue := h.queue_eq
    have hnext : pool'.nextPosition R.newestFirst = pool.nextPosition R.newestFirst := by
      rw [Pool.nextPosition, hqueue, Pool.nextPosition]
    have hstart := h.startAt_everywhere R.toInterpreter (pool.nextPosition R.newestFirst)
    refine ⟨?_, rfl, ?_⟩
    · simp only [react, hqueue, hnext] at hreact ⊢
      by_cases hempty : pool.queue.isEmpty
      · simp only [hempty, if_true] at hreact ⊢
        cases hreact
        exact ⟨_, rfl, h⟩
      · simp only [hempty] at hreact ⊢
        obtain ⟨hnone, hnone'⟩ | ⟨job, pool₂, pool₂', hstart, hstart', htwins⟩ := hstart
        · simp only [hnone, hnone'] at hreact ⊢
          cases hreact
          exact ⟨_, rfl, h⟩
        · simp only [hstart, hstart'] at hreact ⊢
          cases hreact
          exact ⟨_, rfl, htwins⟩
    · simp only [deeds, Pool.queueDeeds, hqueue, hnext]
      obtain ⟨hnone, hnone'⟩ | ⟨job, pool₂, pool₂', hstart, hstart', -⟩ := hstart
      · rw [hnone, hnone']
      · rw [hstart, hstart']

/-- So it is for threads. -/
theorem Thread.move_twins (hblind : R.Blind same) (h : pool.Twins U same pool')
    {thread : Thread S α} (hheeds : ¬ thread.Heeds U) (hspawner : s = R.spawner ∨ ¬ thread.Starts)
    {motion : Motion S α} (hmove : thread.move R pool = (motion, pool₁)) :
    (∃ pool₁', thread.move { R with spawner := s } pool' = (motion, pool₁') ∧
      pool₁.Twins U same pool₁') ∧
    thread.activity { R with spawner := s } pool' = thread.activity R pool ∧
    thread.deeds { R with spawner := s } pool' = thread.deeds R pool := by
  cases thread with
  | base c =>
    cases hreact : c.react R pool with
    | mk reaction pool₂ =>
      obtain ⟨⟨pool₂', hreact', htwins⟩, hsame⟩ :=
        Comp.react_twins hblind h hheeds hspawner hreact
      refine ⟨⟨pool₂', ?_, ?_⟩, hsame⟩
      · rw [move, hreact] at hmove
        rw [move, hreact']
        cases reaction <;> cases hmove <;> rfl
      · rw [move, hreact] at hmove
        cases reaction <;> cases hmove <;> exact htwins
  | nested c callers outer =>
    cases hreact : c.react R pool with
    | mk reaction pool₂ =>
      obtain ⟨⟨pool₂', hreact', htwins⟩, hsame⟩ :=
        Comp.react_twins hblind h hheeds hspawner hreact
      refine ⟨⟨pool₂', ?_, ?_⟩, hsame⟩
      · rw [move, hreact] at hmove
        rw [move, hreact']
        rcases reaction with _ | _ | (_ | (_ | _)) | _ <;> cases hmove <;> rfl
      · rw [move, hreact] at hmove
        rcases reaction with _ | _ | (_ | (_ | _)) | _ <;> cases hmove <;> exact htwins

/-- A thread that has come to its end has nothing to do but to say how. -/
theorem Thread.eq_of_ended {thread : Thread S α} {outcome : Except Fault α}
    (h : thread.move R pool = (.ended outcome, pool₁)) : thread = .base (.ofExcept outcome) := by
  cases thread with
  | base c =>
    rw [move] at h
    cases hreact : c.react R pool with
    | mk reaction pool₂ =>
      rw [hreact] at h
      cases reaction <;> cases h
      obtain ⟨a, rfl, rfl⟩ | ⟨fault, rfl, rfl⟩ := Comp.cases_of_ended hreact <;> rfl
  | nested c callers outer =>
    unfold move at h
    grind

theorem Thread.move_ofExcept (R : Runtime S W) (pool : Pool S W) (outcome : Except Fault α) :
    (Thread.base (.ofExcept outcome)).move R pool = (.ended outcome, pool) := by
  cases outcome <;> rfl

end Moves

/-- Moves that are made alike put down the same events. -/
theorem Thread.events_congr {R R' : Runtime S W} {pool pool' pool₁ pool₁' : Pool S W}
    {thread thread' : Thread S α} {launch launch' : Launch S}
    (moved : thread.move R pool = (.moved thread' launch, pool₁))
    (moved' : thread.move R' pool' = (.moved thread' launch', pool₁'))
    (hactivity : thread.activity R' pool' = thread.activity R pool)
    (hevents : pool'.events = pool.events) : pool₁'.events = pool₁.events := by
  apply Array.toList_inj.mp
  rw [(Thread.told_of_move moved').2, (Thread.told_of_move moved).2, hactivity, hevents]

/-! ## What becomes of the fibers set apart -/

namespace Pool

variable {pool pool' : Pool S W} {fiber : FiberId}

/-- A pool is a twin of itself, however the log goes on. -/
theorem twins_log (level : Option Level) (record : Record) (pool : Pool S W) :
    pool.Twins U Eq (pool.log level record) :=
  (Twins.refl (fun _ => rfl) pool).congr rfl rfl rfl rfl (by simp) (by simp) (by simp) (by simp)

/-- It is so whatever stage a fiber set apart gets to. -/
theorem twins_set (hfiber : fiber ∈ U) (stage : Fiber S) (pool : Pool S W) :
    pool.Twins U Eq (pool.set fiber stage) :=
  ((Twins.refl (fun _ => rfl) pool).set_apart hfiber stage).symm Eq.symm

theorem twins_release (hfiber : fiber ∈ U) (level : Option Level) (pool : Pool S W) :
    pool.Twins U Eq (pool.release level fiber) := by
  unfold release
  split
  · exact .refl (fun _ => rfl) pool
  · exact (twins_set hfiber _ pool).trans (twins_log level _ _) Eq.trans

theorem twins_finish (hfiber : fiber ∈ U) (level : Option Level) (outcome : Except Fault S.Value)
    (pool : Pool S W) : pool.Twins U Eq (pool.finish level fiber outcome) := by
  have hfilled (pool : Pool S W) :
      pool.Twins U Eq ((pool.fill fiber (.ofOutcome outcome)).release level fiber) :=
    (twins_set hfiber _ pool).trans (twins_release hfiber level _) Eq.trans
  cases outcome with
  | ok v => exact hfilled pool
  | error cause => exact (twins_log level _ pool).trans (hfilled _) Eq.trans

/-- Whether a fiber set apart stands in the queue makes no difference. -/
theorem twins_queue (queue : Array FiberId)
    (hqueue : ({ pool with queue := queue } : Pool S W).queueBut U = pool.queueBut U) :
    pool.Twins U Eq { pool with queue := queue } where
  size := rfl
  get? _ := rfl
  queue := hqueue
  sighted := rfl
  world := rfl

theorem twins_push (hfiber : fiber ∈ U) (pool : Pool S W) :
    pool.Twins U Eq { pool with queue := pool.queue.push fiber } := by
  refine twins_queue _ ?_
  rw [queueBut, Array.toList_push, List.filter_append]
  simp [queueBut, hfiber]

theorem twins_erase (hfiber : fiber ∈ U) {position : Nat}
    (hqueued : pool.queue[position]? = some fiber) :
    pool.Twins U Eq { pool with queue := pool.queue.eraseIdxIfInBounds position } := by
  refine twins_queue _ ?_
  obtain ⟨hposition, hget⟩ := Array.getElem?_eq_some_iff.mp hqueued
  have hsplit : pool.queue.toList =
      pool.queue.toList.take position ++ fiber :: pool.queue.toList.drop (position + 1) := by
    rw [← hget, ← Array.getElem_toList, List.getElem_cons_drop, List.take_append_drop]
  rw [queueBut, queueBut, Array.toList_eraseIdxIfInBounds, List.eraseIdx_eq_take_drop_succ]
  conv_rhs => rw [hsplit]
  rw [List.filter_append, List.filter_append, List.filter_cons_of_neg (by simpa using hfiber)]

/-- A job that begins has stood in the queue. -/
theorem queued_of_startAt {I : Interpreter S} {position : Nat} {job : Job S}
    (h : pool.startAt? I position = some (job, pool')) :
    pool.queue[position]? = some job.fiber := by
  unfold startAt? at h
  split at h
  · cases h
  · next fiber hqueued =>
    dsimp only at h
    split at h
    · cases h
      exact hqueued
    · cases h

theorem twins_startAt {I : Interpreter S} {position : Nat} {job : Job S} (hjob : job.fiber ∈ U)
    (hstart : pool.startAt? I position = some (job, pool')) : pool.Twins U Eq pool' := by
  unfold startAt? at hstart
  split at hstart
  · cases hstart
  · next fiber hqueued =>
    dsimp only at hstart
    split at hstart
    · cases hstart
      exact (twins_erase hjob hqueued).trans (twins_set hjob _ _) Eq.trans
    · cases hstart

theorem twins_start (R : Runtime S W) (hfiber : fiber ∈ U) (action : S.Action) (pool : Pool S W) :
    pool.Twins U Eq (pool.start R fiber action).2 := by
  unfold start
  split
  · have hlogged := twins_log (U := U) R.level (.starting fiber) pool
    cases R.spawner with
    | inline | background => exact hlogged.trans (twins_set hfiber _ _) Eq.trans
    | queued =>
      exact hlogged.trans ((twins_set hfiber _ _).trans (twins_push hfiber _) Eq.trans) Eq.trans
    | discarding => exact hlogged.trans (twins_release hfiber R.level _) Eq.trans
  · exact .refl (fun _ => rfl) pool

end Pool

/-! ## Jobs of other fibers -/

open Classical in
/-- The jobs of all other fibers. -/
noncomputable def otherJobs (U : Set FiberId) (jobs : List (Job S)) : List (Job S) :=
  jobs.filter (·.fiber ∉ U)

/-- The jobs that are launched are those of fibers set apart. -/
def Launch.Apart (U : Set FiberId) (launch : Launch S) : Prop :=
  ∀ job ∈ launch.jobs, job.fiber ∈ U

theorem otherJobs_onto {launch : Launch S} (h : launch.Apart U) (jobs : List (Job S)) :
    otherJobs U (launch.onto jobs) = otherJobs U jobs := by
  cases launch with
  | none => rfl
  | ahead job | behind job =>
    have hjob : job.fiber ∈ U := h job List.mem_cons_self
    simp [Launch.onto, otherJobs, hjob]

theorem otherJobs_onto_congr (launch : Launch S) {jobs jobs' : List (Job S)}
    (h : otherJobs U jobs' = otherJobs U jobs) :
    otherJobs U (launch.onto jobs') = otherJobs U (launch.onto jobs) := by
  unfold otherJobs at h ⊢
  cases launch with
  | none => exact h
  | ahead job => simp only [Launch.onto, List.filter_cons, h]
  | behind job => simp only [Launch.onto, List.filter_append, h]

/-- Only the job of a fiber can be launched with its start. -/
theorem Pool.eq_of_start_launched {R : Runtime S W} {fiber : FiberId} {action : S.Action}
    {pool : Pool S W} {job : Job S} (hjob : job ∈ (pool.start R fiber action).1.jobs) :
    job = jobOf R.toInterpreter fiber action := by
  unfold start at hjob
  split at hjob
  · cases hspawner : R.spawner with
    | inline | background => simpa [hspawner, Launch.jobs] using hjob
    | queued | discarding => simp [hspawner, Launch.jobs] at hjob
  · simp [Launch.jobs] at hjob

theorem Pool.apart_start (R : Runtime S W) {fiber : FiberId} (hfiber : fiber ∈ U)
    (action : S.Action) (pool : Pool S W) : (pool.start R fiber action).1.Apart U := by
  intro job hjob
  rw [eq_of_start_launched hjob]
  exact hfiber

theorem otherJobs_append (before after : List (Job S)) :
    otherJobs U (before ++ after) = otherJobs U before ++ otherJobs U after := by
  unfold otherJobs
  exact List.filter_append before after

theorem otherJobs_middle {job : Job S} (hjob : job.fiber ∉ U) (before after : List (Job S)) :
    otherJobs U (before ++ job :: after) = otherJobs U before ++ job :: otherJobs U after := by
  unfold otherJobs
  rw [List.filter_append, List.filter_cons_of_pos (by simpa using hjob)]

theorem otherJobs_skip {job : Job S} (hjob : job.fiber ∈ U) (before after : List (Job S)) :
    otherJobs U (before ++ job :: after) = otherJobs U (before ++ after) := by
  unfold otherJobs
  rw [List.filter_append, List.filter_append, List.filter_cons_of_neg (by simpa using hjob)]

/-- A job of another fiber has its place among all jobs too. -/
theorem exists_split_job {jobs before after : List (Job S)} {job : Job S}
    (h : otherJobs U jobs = before ++ job :: after) :
    ∃ before' after', jobs = before' ++ job :: after' ∧
      otherJobs U before' = before ∧ otherJobs U after' = after := by
  classical
  unfold otherJobs at h
  rw [List.filter_eq_append_iff] at h
  obtain ⟨before', rest, rfl, hbefore, hrest⟩ := h
  rw [List.filter_eq_cons_iff] at hrest
  obtain ⟨skipped, after', rfl, hskipped, -, hafter⟩ := hrest
  have hnone : skipped.filter (·.fiber ∉ U) = [] := by
    rw [List.filter_eq_nil_iff]
    simpa using hskipped
  refine ⟨before' ++ skipped, after', (List.append_assoc ..).symm, ?_, hafter⟩
  rw [otherJobs_append, otherJobs, otherJobs, hbefore, hnone, List.append_nil]

/-! ## Scenes over twins -/

namespace Scene

/-- One element of a list is replaced; the others are as they were. -/
theorem exists_set_eq {σ : Type} (before after : List σ) {place : Nat} (y : σ)
    (hne : place ≠ before.length) :
    ∃ b a, b.length = before.length ∧ ∀ x, (before ++ x :: after).set place y = b ++ x :: a := by
  rcases Nat.lt_or_gt_of_ne hne with hlt | hgt
  · exact ⟨before.set place y, after, by simp, fun x => List.set_append_left _ _ hlt⟩
  · obtain ⟨rest, hrest⟩ : ∃ rest, place - before.length = rest + 1 :=
      Nat.exists_eq_add_one.mpr (by omega)
    refine ⟨before, after.set rest y, rfl, fun x => ?_⟩
    rw [List.set_append_right _ _ (Nat.le_of_lt hgt), hrest, List.set_cons_succ]

variable {R : Runtime S W} {scene scene₁ : Scene S W α} {entry : Entry S} {place : Nat}
  {pool' : Pool S W}

/-- What others do than one of the computations they do over a twin of the pool too, whatever that
computation is. -/
theorem Incident.twin (hblind : R.Blind same) (incident : Incident R scene [entry] scene₁)
    (hother : entry.who? ≠ some (.caller place)) (htwins : scene.pool.Twins ∅ same pool')
    (main : Main S α) :
    scene₁.callers[place]? = scene.callers[place]? ∧
    ∃ pool₁', scene₁.pool.Twins ∅ same pool₁' ∧
      Incident R ⟨pool', scene.callers.set place main, scene.jobs⟩ [entry]
        ⟨pool₁', scene₁.callers.set place main, scene₁.jobs⟩ := by
  have hmove {β : Type} {thread : Thread S β} {motion : Motion S β} {pool pool₁ : Pool S W}
      (htwins : pool.Twins ∅ same pool') (moved : thread.move R pool = (motion, pool₁)) :
      (∃ pool₁', thread.move R pool' = (motion, pool₁') ∧ pool₁.Twins ∅ same pool₁') ∧
        thread.activity R pool' = thread.activity R pool ∧
        thread.deeds R pool' = thread.deeds R pool :=
    Thread.move_twins (s := R.spawner) hblind htwins thread.not_heeds_empty (.inl rfl) moved
  have hnone (fiber : FiberId) : fiber ∉ (∅ : Set FiberId) := Set.notMem_empty fiber
  -- A caller that does something stands at another place, where it can still be found when the
  -- computation is replaced.
  cases incident with
  | caller before after jobs moved =>
    have hne : place ≠ before.length := fun h => hother (by rw [h]; rfl)
    obtain ⟨⟨pool₁', moved', htwins'⟩, hactivity, hdeeds⟩ := hmove htwins moved
    obtain ⟨b, a, hlength, hset⟩ := exists_set_eq before after main hne
    refine ⟨?_, pool₁', htwins', ?_⟩
    · exact getElem?_exchange before after _ _ hne
    · rw [hset, hset, ← hlength, ← hactivity, ← hdeeds]
      exact .caller b a jobs moved'
  | callerEnded before after jobs ended =>
    have hne : place ≠ before.length := fun h => hother (by rw [h]; rfl)
    obtain ⟨⟨pool₁', ended', htwins'⟩, -, -⟩ := hmove htwins ended
    obtain ⟨b, a, hlength, hset⟩ := exists_set_eq before after main hne
    refine ⟨?_, pool₁', htwins', ?_⟩
    · exact getElem?_exchange before after _ _ hne
    · rw [hset, hset, ← hlength]
      exact .callerEnded b a jobs ended'
  | job callers before after moved =>
    obtain ⟨⟨pool₁', moved', htwins'⟩, hactivity, hdeeds⟩ := hmove htwins moved
    refine ⟨rfl, pool₁', htwins', ?_⟩
    rw [← hactivity, ← hdeeds]
    exact .job _ before after moved'
  | @jobEnded _ _ callers before after fiber _ outcome ended =>
    obtain ⟨⟨pool₁', ended', htwins'⟩, -, -⟩ := hmove htwins ended
    exact ⟨rfl, _, htwins'.finish (hnone fiber) R.level outcome, .jobEnded _ before after ended'⟩
  | @jobBegun _ _ callers jobs position job started =>
    obtain ⟨hnone, -⟩ | ⟨job', pool₁, pool₁', started₁, started', htwins'⟩ :=
      htwins.startAt_everywhere R.toInterpreter position
    · cases hnone.symm.trans started
    · cases started.symm.trans started₁
      exact ⟨rfl, pool₁', htwins', .jobBegun _ jobs started'⟩
  | @drop _ position fiber callers jobs queued =>
    obtain ⟨position', queued', htwins'⟩ := htwins.drop R.level queued (hnone fiber)
    exact ⟨rfl, _, htwins', .drop _ jobs queued'⟩

end Scene

end FiberPrograms
