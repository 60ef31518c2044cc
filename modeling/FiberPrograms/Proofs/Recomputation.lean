import FiberPrograms.Proofs.Holdings
import FiberPrograms.Proofs.Twins
import Mathlib.Logic.Relation

/-!
# Actions that are run by themselves

Whoever reads a fiber that recomputes runs its action on top of what it is about. There the action
moves just as it would as the job of a fiber, until it comes to an outcome, which is handed to the
reader.

If the action is pure, its moves change nothing, and they depend on nothing but the fibers that it
reads. So wherever those are the same, it makes the same moves and comes to the same outcome.

## Main definitions

* `Thread.onTop`: the thread of a job on top of those who wait for its outcome
* `Thread.AtRead`: a thread that is about to read a fiber
* `Thread.Runs`: a thread moves by itself, changing nothing
* `Thread.PureWithin`, `Pool.PureOn`: threads that are pure, and pools in which they stay so

## Main results

* `Thread.move_onTop`: on top of others a job makes the same moves
* `Thread.PureWithin.move`: the moves of a pure thread
* `Thread.Runs.mono`: pure threads make the same moves wherever they are told the same
-/

namespace FiberPrograms

variable {S : Signature} {W α β : Type}

/-! ## Jobs on top of their readers -/

/-- A computation whose value ends the steps of whoever has it run. -/
def Comp.valued (c : Comp S S.Value) : Comp S (Turn S) :=
  c.bind fun v => .done (.value v)

/-- What the move of such a computation comes to. -/
def Reaction.valued : Reaction S S.Value → Reaction S (Turn S)
  | next c launch => .next c.valued launch
  | enter inner k => .enter inner fun outcome => (k outcome).valued
  | ended outcome => .ended (outcome.map .value)
  | blocked => .blocked

/-- The thread of a job on top of those who wait for its outcome. -/
def Thread.onTop (callers : List (Except Fault S.Value → Comp S (Turn S)))
    (outer : Except Fault S.Value → Comp S α) : Thread S S.Value → Thread S α
  | base c => .nested c.valued callers outer
  | nested c above own =>
    .nested c (above ++ (fun outcome => (own outcome).valued) :: callers) outer

/-- What its moves come to: the outcome goes to the first who waits for it. -/
def Motion.onTop (callers : List (Except Fault S.Value → Comp S (Turn S)))
    (outer : Except Fault S.Value → Comp S α) : Motion S S.Value → Motion S α
  | moved thread launch => .moved (thread.onTop callers outer) launch
  | ended outcome => .moved (Thread.answer callers outer outcome) .none
  | blocked => .blocked

section OnTop

variable (R : Runtime S W) (pool : Pool S W)

theorem Comp.react_valued (c : Comp S S.Value) :
    c.valued.react R pool = ((c.react R pool).1.valued, (c.react R pool).2) := by
  cases c with
  | done v | fail fault | ask request k => rfl
  | demand d k =>
    cases d with
    | read fiber =>
      change (Comp.demand (.read fiber) fun outcome => (k outcome).valued).react R pool = _
      rw [react, react]
      cases pool.get? fiber with
      | none => rfl
      | some stage => cases stage <;> rfl
    | interpret yields machine => rfl
  | runQueue k =>
    change (Comp.runQueue k.valued).react R pool = _
    rw [react, react]
    by_cases hempty : pool.queue.isEmpty
    · simp only [hempty, if_true]
      rfl
    · simp only [hempty]
      cases pool.startAt? R.toInterpreter (pool.nextPosition R.newestFirst) <;> rfl

theorem Comp.activity_valued (c : Comp S S.Value) :
    c.valued.activity R pool = c.activity R pool := by
  cases c with
  | ask request k => cases request <;> rfl
  | demand d k => cases d <;> rfl
  | _ => rfl

variable (callers : List (Except Fault S.Value → Comp S (Turn S)))
  (outer : Except Fault S.Value → Comp S α)

/-- On top of others a job makes the same moves, until its outcome goes to them. -/
theorem Thread.move_onTop (thread : Thread S S.Value) :
    (thread.onTop callers outer).move R pool =
      ((thread.move R pool).1.onTop callers outer, (thread.move R pool).2) := by
  cases thread with
  | base c =>
    rw [onTop, move, move, Comp.react_valued]
    cases c.react R pool with
    | mk reaction pool₁ =>
      rcases reaction with _ | _ | (_ | _) | _ <;> rfl
  | nested c above own =>
    cases hreact : c.react R pool with
    | mk reaction pool₁ =>
      rw [onTop, move, move, hreact]
      rcases reaction with _ | _ | (_ | (_ | _)) | _
      · rfl
      · rfl
      · cases above <;> rfl
      · cases above <;> rfl
      · rfl
      · rfl

theorem Thread.activity_onTop (thread : Thread S S.Value) :
    (thread.onTop callers outer).activity R pool = thread.activity R pool := by
  cases thread with
  | base c => exact Comp.activity_valued R pool c
  | nested c above own => rfl

end OnTop

/-! ## Readers -/

/-- A thread that is about to read a fiber, and those who wait for what it is told. -/
inductive Thread.AtRead (fiber : FiberId) : Thread S α →
    List (Except Fault S.Value → Comp S (Turn S)) → (Except Fault S.Value → Comp S α) → Prop
  | base (k : Except Fault S.Value → Comp S α) : AtRead fiber (.base (.demand (.read fiber) k)) [] k
  | nested (k : Except Fault S.Value → Comp S (Turn S))
      (callers : List (Except Fault S.Value → Comp S (Turn S)))
      (outer : Except Fault S.Value → Comp S α) :
      AtRead fiber (.nested (.demand (.read fiber) k) callers outer) (k :: callers) outer

namespace Thread.AtRead

variable {R : Runtime S W} {pool : Pool S W} {fiber : FiberId} {thread : Thread S α}
  {callers : List (Except Fault S.Value → Comp S (Turn S))}
  {outer : Except Fault S.Value → Comp S α} (h : thread.AtRead fiber callers outer)

include h

theorem activity (R : Runtime S W) (pool : Pool S W) : thread.activity R pool = .read fiber := by
  cases h <;> rfl

theorem deeds {ending : Ending S} (hstage : pool.get? fiber = some (.ended ending)) :
    thread.deeds R pool = [.read fiber (ending.read fiber)] := by
  have hdeeds : pool.readDeeds fiber = [.read fiber (ending.read fiber)] := by
    rw [Pool.readDeeds, hstage]
  cases h <;> exact hdeeds

/-- Whoever reads a fiber that recomputes runs its action. -/
theorem move_of_recomputing {action : S.Action}
    (hstage : pool.get? fiber = some (.recomputing action)) :
    thread.move R pool =
      (.moved ((Thread.base (R.act action)).onTop callers outer) .none, pool) := by
  cases h <;> rw [move, Comp.react, hstage] <;> rfl

/-- Whoever reads a fiber that has ended is told how. -/
theorem move_of_ended {ending : Ending S} (hstage : pool.get? fiber = some (.ended ending)) :
    thread.move R pool = (.moved (answer callers outer (ending.read fiber)) .none, pool) := by
  cases h <;> rw [move, Comp.react, hstage] <;> rfl

/-- Whoever reads a fiber that is not ready waits. -/
theorem move_of_not_ready (hstage : ∀ stage, pool.get? fiber = some stage → ¬ stage.isReady) :
    thread.move R pool = (.blocked, pool) := by
  cases h with
  | base k | nested k callers outer =>
    rw [move, Comp.react]
    cases hget : pool.get? fiber with
    | none => rfl
    | some stage =>
      have hnot := hstage stage hget
      cases stage with
      | recomputing action | ended ending => exact absurd rfl hnot
      | _ => rfl

/-- Of a fiber that is not ready, its readers are not told. -/
theorem ready_of_move {thread' : Thread S α} {launch : Launch S} {pool' : Pool S W}
    (moved : thread.move R pool = (.moved thread' launch, pool')) :
    ∃ stage, pool.get? fiber = some stage ∧ stage.isReady := by
  by_contra hnone
  rw [h.move_of_not_ready fun stage hstage hready => hnone ⟨stage, hstage, hready⟩] at moved
  cases moved

end Thread.AtRead

/-! ## Moves that change nothing -/

/-- A thread moves by itself for a while, and nothing else is changed by it. -/
def Thread.Runs (R : Runtime S W) (pool : Pool S W) : Thread S α → Thread S α → Prop :=
  Relation.ReflTransGen fun thread thread' => thread.move R pool = (.moved thread' .none, pool)

namespace Thread.Runs

variable {R : Runtime S W} {pool : Pool S W} {thread thread' : Thread S α}
  {outcome outcome' : Except Fault α}

/-- There is one way to go: what comes to an outcome does so from wherever it has got to. -/
theorem determined (h : Runs R pool thread thread')
    (hended : Runs R pool thread (.base (.ofExcept outcome))) :
    Runs R pool thread' (.base (.ofExcept outcome)) := by
  induction h using Relation.ReflTransGen.head_induction_on with
  | refl => exact hended
  | head first rest ih =>
    refine ih ?_
    obtain rfl | ⟨next, hnext, hrest⟩ := hended.cases_head
    · rw [move_ofExcept] at first
      cases first
    · cases first.symm.trans hnext
      exact hrest

theorem outcome_unique (h : Runs R pool thread (.base (.ofExcept outcome)))
    (h' : Runs R pool thread (.base (.ofExcept outcome'))) : outcome' = outcome := by
  obtain heq | ⟨next, hnext, -⟩ := (h.determined h').cases_head
  · cases outcome <;> cases outcome' <;> cases heq <;> rfl
  · rw [move_ofExcept] at hnext
    cases hnext

/-- What fails comes to no value. -/
theorem not_value {cause : Fault} {a : α} (h : Runs R pool thread (.base (.fail cause)))
    (h' : Runs R pool thread (.base (.done a))) : False := by
  have herror : Runs R pool thread (.base (.ofExcept (.error cause))) := h
  have hvalue : Runs R pool thread (.base (.ofExcept (.ok a))) := h'
  cases herror.outcome_unique hvalue

end Thread.Runs

/-! ## Pure threads -/

/-- A step that ends with a value, which holds no fibers but the given ones. -/
def Turn.PureWithin (H : Holdings S) (P : Set FiberId) : Turn S → Prop
  | value v => v.Within H P
  | again _ _ => False

/-- The thread of a job all of whose computations are pure. -/
inductive Thread.PureWithin (H : Holdings S) (P : Set FiberId) : Thread S S.Value → Prop
  | base {c : Comp S S.Value} (h : c.PureWithin H P (Value.Within H P)) : PureWithin H P (.base c)
  | nested {c : Comp S (Turn S)} {callers : List (Except Fault S.Value → Comp S (Turn S))}
      {outer : Except Fault S.Value → Comp S S.Value} (h : c.PureWithin H P (Turn.PureWithin H P))
      (hcallers : ∀ k ∈ callers, ∀ outcome, Value.OutcomeWithin H P outcome →
        (k outcome).PureWithin H P (Turn.PureWithin H P))
      (houter : ∀ outcome, Value.OutcomeWithin H P outcome →
        (outer outcome).PureWithin H P (Value.Within H P)) :
      PureWithin H P (.nested c callers outer)

/-- A pool in which what the given fibers come to holds no others, and those of them that recompute
are pure. -/
structure Pool.PureOn (H : Holdings S) (M : Meaning S) (P : Set FiberId) (pool : Pool S W) :
    Prop where
  recomputing : ∀ {fiber action}, fiber ∈ P → pool.get? fiber = some (.recomputing action) →
    (M.act action).PureWithin H P (Value.Within H P)
  value : ∀ {fiber v}, fiber ∈ P → pool.get? fiber = some (.ended (.value v)) → v.Within H P

/-- Those of the given fibers that are ready in one pool are ready in the other, in the same way. -/
def Pool.KeepsReady (P : Set FiberId) (pool pool' : Pool S W) : Prop :=
  ∀ ⦃fiber stage⦄, fiber ∈ P → pool.get? fiber = some stage → stage.isReady →
    pool'.get? fiber = some stage

theorem Pool.keepsReady_refl {P : Set FiberId} (pool : Pool S W) : pool.KeepsReady P pool :=
  fun _ _ _ hstage _ => hstage

theorem Pool.KeepsReady.subset {P : Set FiberId} {pool pool' : Pool S W}
    (h : pool.KeepsReady Set.univ pool') : pool.KeepsReady P pool' :=
  fun _ _ _ => h (Set.mem_univ _)

section Pure

variable {H : Holdings S} {P : Set FiberId} {R : Runtime S W} {pool pool' : Pool S W}

theorem Comp.PureWithin.bind {c : Comp S α} {f : α → Comp S β} {post : α → Prop}
    {post' : β → Prop} (h : c.PureWithin H P post)
    (hf : ∀ a, post a → (f a).PureWithin H P post') : (c.bind f).PureWithin H P post' := by
  induction c with
  | done a => exact hf a h
  | fail fault => trivial
  | ask request k => exact h.elim
  | demand d k ih =>
    cases d with
    | read fiber => exact ⟨h.1, fun outcome houtcome => ih outcome (h.2 outcome houtcome)⟩
    | interpret yields machine => exact h.elim
  | runQueue k => exact h.elim

/-- Pure computations read the given fibers only. -/
theorem Comp.PureWithin.mem_of_read {c : Comp S α} {post : α → Prop} (h : c.PureWithin H P post)
    {fiber : FiberId} (hread : c.activity R pool = .read fiber) : fiber ∈ P := by
  cases c with
  | done a | fail fault => cases hread
  | ask request k => exact h.elim
  | demand d k =>
    cases d with
    | read fiber' =>
      cases hread
      exact h.1
    | interpret yields machine => exact h.elim
  | runQueue k => exact h.elim

theorem Thread.PureWithin.mem_of_read {thread : Thread S S.Value} (h : thread.PureWithin H P)
    {fiber : FiberId} (hread : thread.activity R pool = .read fiber) : fiber ∈ P := by
  cases h with
  | base h => exact h.mem_of_read hread
  | nested h => exact h.mem_of_read hread

/-- How a pure computation goes on. -/
inductive Reaction.PureWithin (H : Holdings S) (P : Set FiberId) (post : α → Prop) :
    Reaction S α → Prop
  | next {c : Comp S α} (h : c.PureWithin H P post) : PureWithin H P post (.next c .none)
  | enter {inner : Comp S (Turn S)} {k : Except Fault S.Value → Comp S α}
      (h : inner.PureWithin H P (Turn.PureWithin H P))
      (hk : ∀ outcome, Value.OutcomeWithin H P outcome → (k outcome).PureWithin H P post) :
      PureWithin H P post (.enter inner k)
  | ended {outcome : Except Fault α} (h : ∀ a, outcome = .ok a → post a) :
      PureWithin H P post (.ended outcome)

/-- The next move of a pure computation, which it makes wherever it is told the same. -/
theorem Comp.PureWithin.react (hpool : pool.PureOn H R.toMeaning P) {c : Comp S α}
    {post : α → Prop} (h : c.PureWithin H P post) :
    c.react R pool = (.blocked, pool) ∨
      ∃ reaction : Reaction S α, reaction.PureWithin H P post ∧
        ∀ {pool' : Pool S W}, pool.KeepsReady P pool' → c.react R pool' = (reaction, pool') := by
  cases c with
  | done a =>
    refine .inr ⟨_, .ended ?_, fun _ => rfl⟩
    rintro _ ⟨⟩
    exact h
  | fail fault => exact .inr ⟨_, .ended (fun _ ha => by cases ha), fun _ => rfl⟩
  | ask request k => exact h.elim
  | demand d k =>
    cases d with
    | read fiber =>
      obtain ⟨hfiber, hk⟩ := h
      -- The fiber is among those that stay as they are once they are ready, so the answer is the
      -- same in every such pool.
      rcases hstage : pool.get? fiber with _ | (_ | action | _ | _ | ending)
      case some.recomputing =>
        refine .inr ⟨.enter (R.act action).valued k, .enter ?_ hk, fun {pool'} hkeeps => ?_⟩
        · exact (hpool.recomputing hfiber hstage).bind fun v hv => hv
        · rw [Comp.react, hkeeps hfiber hstage rfl]
          rfl
      case some.ended =>
        have hread : Value.OutcomeWithin H P (ending.read fiber) := by
          intro v hv
          cases ending with
          | value v' =>
            cases hv
            exact hpool.value hfiber hstage
          | failed cause | dropped => cases hv
        refine .inr ⟨_, .next (hk _ hread), fun {pool'} hkeeps => ?_⟩
        rw [Comp.react, hkeeps hfiber hstage rfl]
      all_goals
        left
        rw [Comp.react, hstage]
    | interpret yields machine => exact h.elim
  | runQueue k => exact h.elim

/-- A pure thread waits, or moves by itself, or has come to an outcome; wherever it is told the same
it does the same. -/
theorem Thread.PureWithin.move (hpool : pool.PureOn H R.toMeaning P) {thread : Thread S S.Value}
    (h : thread.PureWithin H P) :
    thread.move R pool = (.blocked, pool) ∨ (∃ outcome, thread = .base (.ofExcept outcome)) ∨
      ∃ thread', thread'.PureWithin H P ∧ ∀ {pool' : Pool S W}, pool.KeepsReady P pool' →
        thread.move R pool' = (.moved thread' .none, pool') := by
  cases h with
  | @base c h =>
    obtain hblocked | ⟨reaction, hreaction, hreact⟩ := h.react hpool
    · left
      rw [Thread.move, hblocked]
    · cases hreaction with
      | next h =>
        refine .inr (.inr ⟨_, .base h, fun hkeeps => ?_⟩)
        rw [Thread.move, hreact hkeeps]
      | enter h hk =>
        refine .inr (.inr ⟨_, .nested h (List.forall_mem_nil _) hk, fun hkeeps => ?_⟩)
        rw [Thread.move, hreact hkeeps]
      | @ended outcome _ =>
        obtain ⟨a, rfl, rfl⟩ | ⟨fault, rfl, rfl⟩ :=
          Comp.cases_of_ended (hreact (Pool.keepsReady_refl pool))
        · exact .inr (.inl ⟨.ok a, rfl⟩)
        · exact .inr (.inl ⟨.error fault, rfl⟩)
  | @nested c callers outer h hcallers houter =>
    -- Whatever the outcome, whoever waits for it is pure.
    have hanswer (outcome : Except Fault S.Value) (houtcome : Value.OutcomeWithin H P outcome) :
        (answer callers outer outcome).PureWithin H P := by
      cases callers with
      | nil => exact .base (houter outcome houtcome)
      | cons k rest =>
        refine .nested (hcallers k List.mem_cons_self outcome houtcome) (fun k' hk' => ?_) houter
        exact hcallers k' (List.mem_cons_of_mem k hk')
    obtain hblocked | ⟨reaction, hreaction, hreact⟩ := h.react hpool
    · left
      rw [Thread.move, hblocked]
    · right
      right
      cases hreaction with
      | next h =>
        refine ⟨_, .nested h hcallers houter, fun hkeeps => ?_⟩
        rw [Thread.move, hreact hkeeps]
      | @enter inner k h hk =>
        refine ⟨.nested inner (k :: callers) outer, .nested h (fun k' hk' => ?_) houter,
          fun hkeeps => ?_⟩
        · obtain rfl | hk' := List.mem_cons.mp hk'
          · exact hk
          · exact hcallers k' hk'
        · rw [Thread.move, hreact hkeeps]
      | @ended outcome hended =>
        rcases outcome with fault | v | ⟨yields, machine⟩
        · refine ⟨_, hanswer (.error fault) (fun _ hv => by cases hv), fun hkeeps => ?_⟩
          rw [Thread.move, hreact hkeeps]
        · refine ⟨_, hanswer (.ok v) ?_, fun hkeeps => ?_⟩
          · rintro _ ⟨⟩
            exact hended _ rfl
          · rw [Thread.move, hreact hkeeps]
        · exact (hended _ rfl).elim

/-- A pure thread makes the same moves wherever it is told the same, and stays pure. -/
theorem Thread.Runs.mono (hpool : pool.PureOn H R.toMeaning P) (hkeeps : pool.KeepsReady P pool')
    {thread thread' : Thread S S.Value} (hpure : thread.PureWithin H P)
    (h : thread.Runs R pool thread') : thread.Runs R pool' thread' ∧ thread'.PureWithin H P := by
  induction h with
  | refl => exact ⟨.refl, hpure⟩
  | tail _ last ih =>
    obtain ⟨hruns, hpure⟩ := ih
    obtain hblocked | ⟨outcome, rfl⟩ | ⟨next, hnext, hmove⟩ := hpure.move hpool
    · cases hblocked.symm.trans last
    · rw [move_ofExcept] at last
      cases last
    · cases (hmove (Pool.keepsReady_refl pool)).symm.trans last
      exact ⟨hruns.tail (hmove hkeeps), hnext⟩

end Pure

end FiberPrograms
