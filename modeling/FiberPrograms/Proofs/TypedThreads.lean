import FiberPrograms.Proofs.LifeCycle
import FiberPrograms.Proofs.TypedComputations

/-!
# Typed threads

A thread is a stack of computations, each of which waits for the value of the next. It is sound if
all of them are, each at the type of the value that it waits for. What a thread does with a move is
an activity: the name of a fiber that it makes, an action that it puts behind a name, an event that
it puts down, and so on. A move of a sound thread is an activity that its licence allows in its
phase, and leaves it sound over the handles that it has gained.

This takes a pool that supports the handles of the thread: what can be read through a handle is of
its type and holds no handles but those.

## Main definitions

* `Thread.Sound`: threads that keep to their types and to their licence
* `Activity`, `Thread.activity`: what a thread does with a move
* `Activity.Allowed`, `Licence.after`: what a licence allows in a phase, and the phase after that
* `Activity.Upshot`: what an activity does to fibers
* `Pool.Supports`: pools in which handles are worth their types

## Main results

* `Thread.Sound.move`: a move of a sound thread is allowed and leaves it sound
* `Thread.upshot_of_move`: what the move does to fibers
-/

namespace FiberPrograms

variable {S : Signature} {W α : Type} {T : Typing S} {L : Licence S} {Γ Γ' : Set (Handle S.Base)}
  {q q' : Phase}

/-! ## Sound threads -/

namespace Thread

variable {post : Set (Handle S.Base) → Phase → α → Prop}

/-- The computations of a thread that wait, where the innermost waits for a value of the given
type. -/
def Waits (T : Typing S) (L : Licence S) (post : Set (Handle S.Base) → Phase → α → Prop)
    (Γ : Set (Handle S.Base)) (outer : Except Fault S.Value → Comp S α) :
    List (Except Fault S.Value → Comp S (Turn S)) → Ty S.Base → Prop
  | [], τ => ∀ outcome Γ', Γ ⊆ Γ' → T.Outcome L Γ' τ outcome →
    (outer outcome).Sound T L post Γ' .idle
  | k :: rest, τ => ∃ υ, (∀ outcome Γ', Γ ⊆ Γ' → T.Outcome L Γ' τ outcome →
    (k outcome).Sound T L (Turn.Sound T L υ) Γ' .idle) ∧ Waits T L post Γ outer rest υ

/-- A thread whose computations keep to their types and to their licence if they hold the given
handles, where the innermost is in the given phase. -/
def Sound (T : Typing S) (L : Licence S) (post : Set (Handle S.Base) → Phase → α → Prop) :
    Thread S α → Set (Handle S.Base) → Phase → Prop
  | base c, Γ, q => c.Sound T L post Γ q
  | nested c callers outer, Γ, q =>
    ∃ τ, c.Sound T L (Turn.Sound T L τ) Γ q ∧ Waits T L post Γ outer callers τ

theorem Waits.mono {outer : Except Fault S.Value → Comp S α}
    {callers : List (Except Fault S.Value → Comp S (Turn S))} {τ : Ty S.Base} (hΓ : Γ ⊆ Γ')
    (h : Waits T L post Γ outer callers τ) : Waits T L post Γ' outer callers τ := by
  induction callers generalizing τ with
  | nil => exact fun outcome Γ₁ hΓ₁ => h outcome Γ₁ (hΓ.trans hΓ₁)
  | cons k rest ih =>
    obtain ⟨υ, hk, hrest⟩ := h
    exact ⟨υ, fun outcome Γ₁ hΓ₁ => hk outcome Γ₁ (hΓ.trans hΓ₁), ih hrest⟩

/-- A thread that is sound stays so if it holds more. -/
theorem Sound.mono {thread : Thread S α} (h : thread.Sound T L post Γ q) (hΓ : Γ ⊆ Γ')
    (hpost : ∀ Γ₁ Γ₁' q a, Γ₁ ⊆ Γ₁' → post Γ₁ q a → post Γ₁' q a) :
    thread.Sound T L post Γ' q := by
  cases thread with
  | base c => exact Comp.Sound.mono h hΓ hpost
  | nested c callers outer =>
    obtain ⟨τ, hc, hwaits⟩ := h
    exact ⟨τ, hc.mono hΓ fun _ _ _ _ hΓ => Turn.Sound.mono hΓ, hwaits.mono hΓ⟩

/-- The innermost waiting computation goes on with the outcome that it has waited for. -/
theorem Waits.answer {outer : Except Fault S.Value → Comp S α}
    {callers : List (Except Fault S.Value → Comp S (Turn S))} {τ : Ty S.Base}
    (h : Waits T L post Γ outer callers τ) {outcome : Except Fault S.Value}
    (houtcome : T.Outcome L Γ τ outcome) :
    (answer callers outer outcome).Sound T L post Γ .idle := by
  cases callers with
  | nil => exact h outcome Γ subset_rfl houtcome
  | cons k rest =>
    obtain ⟨υ, hk, hrest⟩ := h
    exact ⟨υ, hk outcome Γ subset_rfl houtcome, hrest⟩

end Thread

/-! ## Activities -/

/-- What a thread does with a move. -/
inductive Activity (S : Signature) where
  /-- It makes a name for a new fiber. -/
  | made (fiber : FiberId)
  /-- It hands the action of a fiber to the spawner. -/
  | handed (fiber : FiberId) (action : S.Action)
  /-- It keeps an action with a fiber. -/
  | kept (fiber : FiberId) (action : S.Action)
  /-- It puts down an event. -/
  | noted (event : Event)
  /-- It acts on the world outside, and gets a reply. -/
  | performed (e : S.Effect) (reply : S.Reply e)
  /-- It asks whether a fiber is ready, or brings one in sight, or writes to the log, or has a job
  of the queue begin. -/
  | attended
  /-- It reads a fiber. -/
  | read (fiber : FiberId)
  /-- It begins to run a program. -/
  | called
  /-- One step of the program that it runs is over, or the action that it runs anew. -/
  | returned
  /-- The program that it runs has failed, or the action that it runs anew. -/
  | raised (fault : Fault)

/-- What a computation does with its next move. -/
def Comp.activity (R : Runtime S W) (pool : Pool S W) : Comp S α → Activity S
  | .done _ => .returned
  | .fail fault => .raised fault
  | .ask .newFiber _ => .made ⟨pool.fibers.size⟩
  | .ask (.start fiber action) _ => .handed fiber action
  | .ask (.keep fiber action) _ => .kept fiber action
  | .ask (.note event) _ => .noted event
  | .ask (.perform e) _ => .performed e (R.effect e pool.world).1
  | .ask _ _ => .attended
  | .demand (.read fiber) _ => .read fiber
  | .demand (.interpret _ _) _ => .called
  | .runQueue _ => .attended

/-- What a thread does with its next move. -/
def Thread.activity (R : Runtime S W) (pool : Pool S W) : Thread S α → Activity S
  | base c => c.activity R pool
  | nested c _ _ => c.activity R pool

namespace Activity

/-- The handles that are gained by an activity. -/
def gained (T : Typing S) : Activity S → Set (Handle S.Base)
  | handed fiber action | kept fiber action => {⟨fiber, T.yields action⟩}
  | performed e reply => T.replied e reply
  | _ => ∅

/-- The events that are put down. -/
def events : Activity S → List Event
  | noted event => [event]
  | _ => []

/-- What becomes of the world outside. -/
def Turns (R : Runtime S W) (w w' : W) : Activity S → Prop
  | performed e reply => R.effect e w = (reply, w')
  | _ => w' = w

/-- What may be done, in which phase, by who holds the given handles and has the given licence. -/
def Allowed (T : Typing S) (L : Licence S) (Γ : Set (Handle S.Base)) :
    Activity S → Phase → Prop
  | made _, q => q = .idle
  | handed fiber action, q => L.hands q fiber action ∧ T.held action ⊆ Γ
  | kept fiber action, q => L.keeps q fiber ∧ T.held action ⊆ Γ
  | noted event, q => L.notes Γ q event
  | performed e _, _ => T.sent e ⊆ Γ
  | attended, _ => True
  | read fiber, q => q.MayRead fiber ∧ ∃ τ, ⟨fiber, τ⟩ ∈ Γ
  | called, q => q = .idle
  | returned, q => q = .idle
  | raised fault, q => L.raises q fault

end Activity

/-- The phase after an activity. -/
def Licence.after (L : Licence S) (q : Phase) : Activity S → Phase
  | .made fiber => .made fiber
  | .noted event => L.noted q event
  | .performed _ _ | .attended => q
  | _ => .idle

/-! ## Pools that support handles -/

/-- A fiber in a stage in which what can be read through a handle is of its type, and holds no
handles but the given ones. -/
def Fiber.Suits (T : Typing S) (L : Licence S) (Γ : Set (Handle S.Base)) (τ : Ty S.Base) :
    Fiber S → Prop
  | named => False
  | recomputing action => T.yields action = τ ∧ T.held action ⊆ Γ
  | waiting action => T.yields action = τ ∧ T.held action ⊆ Γ
  | running => True
  | ended (.value v) => v.Has T L Γ τ
  | ended (.failed cause) => L.raises .idle cause
  | ended .dropped => True

theorem Fiber.Suits.mono {stage : Fiber S} {τ : Ty S.Base} (hΓ : Γ ⊆ Γ')
    (h : stage.Suits T L Γ τ) : stage.Suits T L Γ' τ :=
  match stage, h with
  | recomputing _, h => ⟨h.1, h.2.trans hΓ⟩
  | waiting _, h => ⟨h.1, h.2.trans hΓ⟩
  | running, _ => trivial
  | ended (.value _), h => Value.Has.mono hΓ h
  | ended (.failed _), h => h
  | ended .dropped, _ => trivial

/-- The handles are those of fibers in stages that suit them. -/
def Pool.Supports (T : Typing S) (L : Licence S) (Γ : Set (Handle S.Base)) (pool : Pool S W) :
    Prop :=
  ∀ handle ∈ Γ, ∃ stage, pool.get? handle.fiber = some stage ∧ stage.Suits T L Γ handle.item

/-- What a reader is told of the ending of a fiber is of the type of its handle. -/
theorem Fiber.Suits.outcome {ending : Ending S} {τ : Ty S.Base}
    (h : (Fiber.ended ending).Suits T L Γ τ) (fiber : FiberId) :
    T.Outcome L Γ τ (ending.read fiber) := by
  cases ending with
  | value v => exact h
  | failed cause => exact L.raises_failed h
  | dropped => exact L.raises_dropped fiber

/-! ## The moves of sound threads -/

section Moves

variable {R : Runtime S W} {pool pool' : Pool S W} {post : Set (Handle S.Base) → Phase → α → Prop}

/-- A computation that ends has come to its value, or fails. -/
theorem Comp.cases_of_ended {c : Comp S α} {outcome : Except Fault α}
    (h : c.react R pool = (.ended outcome, pool')) :
    (∃ a, c = .done a ∧ outcome = .ok a) ∨ ∃ fault, c = .fail fault ∧ outcome = .error fault := by
  cases c with
  | done a =>
    cases h
    exact .inl ⟨a, rfl, rfl⟩
  | fail fault =>
    cases h
    exact .inr ⟨fault, rfl, rfl⟩
  | _ =>
    unfold react at h
    grind

/-- A computation that goes on stays sound, over the handles that it has gained. -/
theorem Comp.Sound.next (hpool : pool.Supports T L Γ) {c c' : Comp S α}
    (hc : c.Sound T L post Γ q) {launch : Launch S}
    (h : c.react R pool = (.next c' launch, pool')) :
    (c.activity R pool).Allowed T L Γ q ∧
      c'.Sound T L post (Γ ∪ (c.activity R pool).gained T) (L.after q (c.activity R pool)) := by
  -- Most activities gain nothing.
  have hsame {c' : Comp S α} {q' : Phase} (hc' : c'.Sound T L post Γ q') :
      c'.Sound T L post (Γ ∪ ∅) q' := by rwa [Set.union_empty]
  cases c with
  | done a => cases h
  | fail fault => cases h
  | ask request k =>
    cases request with
    | newFiber =>
      cases h
      obtain ⟨rfl, hc⟩ := hc
      exact ⟨rfl, hsame (hc _)⟩
    | start fiber action =>
      cases h
      obtain ⟨hhands, hheld, hc⟩ := hc
      refine ⟨⟨hhands, hheld⟩, ?_⟩
      rwa [activity, Activity.gained, Set.union_singleton]
    | keep fiber action =>
      cases h
      obtain ⟨hkeeps, hheld, hc⟩ := hc
      refine ⟨⟨hkeeps, hheld⟩, ?_⟩
      rwa [activity, Activity.gained, Set.union_singleton]
    | note event =>
      cases h
      exact ⟨hc.1, hsame hc.2⟩
    | perform e =>
      cases h
      exact ⟨hc.1, hc.2 _ _ Set.subset_union_left Set.subset_union_right⟩
    | ended fiber =>
      cases h
      exact ⟨trivial, hsame (hc _)⟩
    | sight fiber =>
      cases h
      exact ⟨trivial, hsame hc⟩
    | log record =>
      cases h
      exact ⟨trivial, hsame hc⟩
  | demand d k =>
    cases d with
    | interpret yields machine => cases h
    | read fiber =>
      obtain ⟨hread, τ, hfiber, hc⟩ := hc
      obtain ⟨stage, hstage, hsuits⟩ := hpool _ hfiber
      rw [react, hstage] at h
      cases stage with
      | ended ending =>
        cases h
        exact ⟨⟨hread, τ, hfiber⟩, hsame (hc _ Γ subset_rfl (hsuits.outcome fiber))⟩
      | _ => cases h
  | runQueue k =>
    refine ⟨trivial, hsame ?_⟩
    rw [react] at h
    split at h
    · cases h
      exact hc
    · split at h
      · cases h
      · cases h
        exact hc

/-- A computation that comes to wait for another does so for a value of some type. -/
theorem Comp.Sound.enter (hR : R.toInterpreter.Sound T L) (hpool : pool.Supports T L Γ)
    {c : Comp S α} (hc : c.Sound T L post Γ q) {inner : Comp S (Turn S)}
    {k : Except Fault S.Value → Comp S α} (h : c.react R pool = (.enter inner k, pool')) :
    (c.activity R pool).Allowed T L Γ q ∧ (c.activity R pool).gained T = ∅ ∧
      L.after q (c.activity R pool) = .idle ∧
      ∃ τ, inner.Sound T L (Turn.Sound T L τ) Γ .idle ∧
        ∀ outcome Γ', Γ ⊆ Γ' → T.Outcome L Γ' τ outcome → (k outcome).Sound T L post Γ' .idle := by
  -- It waits for a program to be interpreted, or for the action of a fiber that recomputes.
  cases c with
  | done a => cases h
  | fail fault => cases h
  | ask request k => cases h
  | demand d k =>
    cases d with
    | interpret yields machine =>
      cases h
      obtain ⟨hidle, hmachine, hc⟩ := hc
      exact ⟨hidle, rfl, rfl, yields, hR.turn hmachine, hc⟩
    | read fiber =>
      obtain ⟨hread, τ, hfiber, hc⟩ := hc
      obtain ⟨stage, hstage, hsuits⟩ := hpool _ hfiber
      rw [react, hstage] at h
      cases stage with
      | recomputing action =>
        cases h
        obtain ⟨rfl, hheld⟩ := hsuits
        refine ⟨⟨hread, _, hfiber⟩, rfl, rfl, _, ?_, hc⟩
        exact (hR.act hheld).bind fun Γ₁ q₁ v _ hv => ⟨hv.1, hv.2⟩
      | _ => cases h
  | runQueue k =>
    rw [react] at h
    split at h
    · cases h
    · split at h <;> cases h

/-- A move of a sound thread is allowed, and leaves it sound over the handles that it has gained. -/
theorem Thread.Sound.move (hR : R.toInterpreter.Sound T L) (hpool : pool.Supports T L Γ)
    {thread thread' : Thread S α} (hthread : thread.Sound T L post Γ q) {launch : Launch S}
    (moved : thread.move R pool = (.moved thread' launch, pool')) :
    (thread.activity R pool).Allowed T L Γ q ∧
      thread'.Sound T L post (Γ ∪ (thread.activity R pool).gained T)
        (L.after q (thread.activity R pool)) := by
  have hsame {thread' : Thread S α} (h : thread'.Sound T L post Γ .idle) :
      thread'.Sound T L post (Γ ∪ ∅) .idle := by rwa [Set.union_empty]
  cases thread with
  | base c =>
    rw [Thread.move] at moved
    cases hreact : c.react R pool with
    | mk reaction pool₁ =>
      rw [hreact] at moved
      cases reaction with
      | next c' launch' =>
        cases moved
        exact Comp.Sound.next hpool hthread hreact
      | enter inner k =>
        cases moved
        obtain ⟨hallowed, hgained, hidle, τ, hinner, hk⟩ :=
          Comp.Sound.enter hR hpool hthread hreact
        refine ⟨hallowed, ?_⟩
        rw [show (Thread.base c).activity R pool = c.activity R pool from rfl, hgained, hidle]
        exact hsame ⟨τ, hinner, hk⟩
      | ended outcome => cases moved
      | blocked => cases moved
  | nested c callers outer =>
    obtain ⟨τ, hc, hwaits⟩ := hthread
    rw [Thread.move] at moved
    cases hreact : c.react R pool with
    | mk reaction pool₁ =>
      rw [hreact] at moved
      cases reaction with
      | next c' launch' =>
        cases moved
        obtain ⟨hallowed, hc'⟩ := Comp.Sound.next hpool hc hreact
        exact ⟨hallowed, τ, hc', hwaits.mono Set.subset_union_left⟩
      | enter inner k =>
        cases moved
        obtain ⟨hallowed, hgained, hidle, υ, hinner, hk⟩ := Comp.Sound.enter hR hpool hc hreact
        refine ⟨hallowed, ?_⟩
        rw [show (Thread.nested c callers outer).activity R pool = c.activity R pool from rfl,
          hgained, hidle]
        exact hsame ⟨υ, hinner, τ, hk, hwaits⟩
      | ended outcome =>
        -- A step of a program is over, or the program has failed.
        obtain ⟨turn, rfl, rfl⟩ | ⟨fault, rfl, rfl⟩ := Comp.cases_of_ended hreact
        · obtain ⟨rfl, hturn⟩ := hc
          cases turn with
          | value v =>
            cases moved
            have houtcome : T.Outcome L Γ τ (.ok v) := hturn
            exact ⟨rfl, hsame (hwaits.answer houtcome)⟩
          | again yields machine =>
            cases moved
            obtain ⟨rfl, hmachine⟩ := hturn
            exact ⟨rfl, hsame ⟨yields, hR.turn hmachine, hwaits⟩⟩
        · cases moved
          have houtcome : T.Outcome L Γ τ (.error fault) := L.raises_idle hc
          exact ⟨hc, hsame (hwaits.answer houtcome)⟩
      | blocked => cases moved

/-- A sound thread ends with a value as `post` says, or with a fault that it may raise. -/
theorem Thread.Sound.ended {thread : Thread S α} (hthread : thread.Sound T L post Γ q)
    {outcome : Except Fault α} (ended : thread.move R pool = (.ended outcome, pool')) :
    Comp.Answered L post Γ q outcome := by
  cases thread with
  | base c =>
    rw [Thread.move] at ended
    cases hreact : c.react R pool with
    | mk reaction pool₁ =>
      rw [hreact] at ended
      cases reaction <;> cases ended
      obtain ⟨a, rfl, rfl⟩ | ⟨fault, rfl, rfl⟩ := Comp.cases_of_ended hreact
      · exact hthread
      · exact hthread
  | nested c callers outer =>
    unfold Thread.move at ended
    grind

end Moves

/-! ## What moves do to fibers -/

/-- What an activity does to fibers, with the jobs that begin because of it. -/
inductive Activity.Upshot (R : Runtime S W) (pool pool' : Pool S W) :
    Activity S → List (Job S) → Prop
  | still {activity : Activity S} (not_made : ∀ fiber, activity ≠ .made fiber)
      (not_named : ∀ fiber action, activity = .handed fiber action ∨ activity = .kept fiber action →
        pool.get? fiber ≠ some .named)
      (fibers : pool'.fibers = pool.fibers) : Upshot R pool pool' activity []
  | made (fibers : pool'.fibers = pool.fibers.push .named) :
      Upshot R pool pool' (.made ⟨pool.fibers.size⟩) []
  | kept {fiber : FiberId} {action : S.Action} (before : pool.get? fiber = some .named)
      (fibers : pool'.fibers = (pool.set fiber (.recomputing action)).fibers) :
      Upshot R pool pool' (.kept fiber action) []
  | handed {fiber : FiberId} {action : S.Action} {deeds : List (Deed S)}
      {launched : List (Job S)} {stage : Fiber S} (before : pool.get? fiber = some .named)
      (passes : Fiber.Passes R fiber .named deeds launched stage)
      (hhanded : .handed fiber action ∈ deeds)
      (fibers : pool'.fibers = (pool.set fiber stage).fibers) :
      Upshot R pool pool' (.handed fiber action) launched
  /-- A job of the queue begins. -/
  | began {fiber : FiberId} {action : S.Action} (before : pool.get? fiber = some (.waiting action))
      (fibers : pool'.fibers = (pool.set fiber .running).fibers) :
      Upshot R pool pool' .attended [Pool.jobOf R.toInterpreter fiber action]

section Upshot

variable {R : Runtime S W} {pool pool' : Pool S W}

theorem Pool.upshot_start (fiber : FiberId) (action : S.Action) :
    Activity.Upshot R pool (pool.start R fiber action).2 (.handed fiber action)
      (pool.start R fiber action).1.jobs := by
  by_cases hnamed : pool.get? fiber = some .named
  · rw [start, hnamed]
    cases hspawner : R.spawner with
    | inline => exact .handed hnamed (.launched action) (by simp) (by simp [set])
    | background => exact .handed hnamed (.launched action) (by simp) (by simp [set])
    | queued => exact .handed hnamed (.queued action) (by simp) (by simp [set])
    | discarding =>
      refine .handed hnamed (.discarded action) (by simp) ?_
      refine (fibers_release fun ending => ?_).trans (by simp [set])
      simp [hnamed]
  · rw [start_of_ne_named hnamed]
    refine .still (by simp) (fun _ _ hput => ?_) rfl
    obtain hput | hput := hput <;> cases hput
    exact hnamed

theorem Pool.upshot_keep (fiber : FiberId) (action : S.Action) :
    Activity.Upshot R pool (pool.keep fiber action) (.kept fiber action) [] := by
  by_cases hnamed : pool.get? fiber = some .named
  · rw [keep, hnamed]
    exact .kept hnamed rfl
  · have hsame : pool.keep fiber action = pool := by
      unfold keep
      split
      · exact absurd ‹_› hnamed
      · rfl
    rw [hsame]
    refine .still (by simp) (fun _ _ hput => ?_) rfl
    obtain hput | hput := hput <;> cases hput
    exact hnamed

theorem Pool.upshot_startAt {position : Nat} {job : Job S}
    (h : pool.startAt? R.toInterpreter position = some (job, pool')) :
    Activity.Upshot R pool pool' .attended [job] := by
  unfold startAt? at h
  split at h
  · cases h
  · dsimp only at h
    split at h
    · cases h
      exact .began ‹_› rfl
    · cases h

theorem Comp.upshot_of_react {c : Comp S α} {reaction : Reaction S α}
    (h : c.react R pool = (reaction, pool')) :
    (c.activity R pool).Upshot R pool pool' reaction.launched := by
  -- Most moves leave the fibers alone; what is left to say of those is that they are not among the
  -- three that do not.
  have hstill {activity : Activity S}
      (hother : ∀ fiber, activity ≠ .made fiber ∧
        ∀ action, activity ≠ .handed fiber action ∧ activity ≠ .kept fiber action)
      (hfibers : pool'.fibers = pool.fibers) : activity.Upshot R pool pool' [] := by
    refine .still (fun fiber => (hother fiber).1) ?_ hfibers
    rintro fiber action (hput | hput)
    · exact absurd hput ((hother fiber).2 action).1
    · exact absurd hput ((hother fiber).2 action).2
  cases c with
  | done a | fail fault =>
    cases h
    exact hstill (by simp [activity]) rfl
  | ask request k =>
    cases request with
    | newFiber =>
      cases h
      exact .made rfl
    | start fiber action =>
      cases h
      exact Pool.upshot_start fiber action
    | keep fiber action =>
      cases h
      exact Pool.upshot_keep fiber action
    | log record =>
      cases h
      exact hstill (by simp [activity]) (Pool.fibers_log ..)
    | _ =>
      cases h
      exact hstill (by simp [activity]) rfl
  | demand d k =>
    cases d with
    | read fiber =>
      rw [react] at h
      split at h <;> cases h <;> exact hstill (by simp [activity]) rfl
    | interpret yields machine =>
      cases h
      exact hstill (by simp [activity]) rfl
  | runQueue k =>
    rw [react] at h
    split at h
    · cases h
      exact hstill (by simp [activity]) rfl
    · split at h
      · cases h
        exact hstill (by simp [activity]) rfl
      · cases h
        exact Pool.upshot_startAt ‹_›

/-- What a thread does with a move is all that it does to fibers. -/
theorem Thread.upshot_of_move {thread : Thread S α} {motion : Motion S α}
    (h : thread.move R pool = (motion, pool')) :
    (thread.activity R pool).Upshot R pool pool' motion.launched := by
  cases thread with
  | base c =>
    rw [move] at h
    cases hreact : c.react R pool with
    | mk reaction pool₁ =>
      have hupshot := Comp.upshot_of_react hreact
      rw [hreact] at h
      cases reaction <;> cases h <;> exact hupshot
  | nested c callers outer =>
    rw [move] at h
    cases hreact : c.react R pool with
    | mk reaction pool₁ =>
      have hupshot := Comp.upshot_of_react hreact
      rw [hreact] at h
      rcases reaction with _ | _ | (_ | (_ | _)) | _ <;> cases h <;> exact hupshot

/-- Handing an action to the spawner leaves the events and the world as they are. -/
theorem Pool.told_start (fiber : FiberId) (action : S.Action) :
    (pool.start R fiber action).2.world = pool.world ∧
      (pool.start R fiber action).2.events = pool.events := by
  unfold start
  split
  · split <;> simp
  · exact ⟨rfl, rfl⟩

theorem Pool.told_keep (fiber : FiberId) (action : S.Action) :
    (pool.keep fiber action).world = pool.world ∧
      (pool.keep fiber action).events = pool.events := by
  unfold keep
  split <;> exact ⟨rfl, rfl⟩

theorem Pool.told_startAt {position : Nat} {job : Job S}
    (h : pool.startAt? R.toInterpreter position = some (job, pool')) :
    pool'.world = pool.world ∧ pool'.events = pool.events := by
  unfold startAt? at h
  split at h
  · cases h
  · dsimp only at h
    split at h <;> cases h
    exact ⟨rfl, rfl⟩

theorem Comp.told_of_react {c : Comp S α} {reaction : Reaction S α}
    (h : c.react R pool = (reaction, pool')) :
    (c.activity R pool).Turns R pool.world pool'.world ∧
      pool'.events.toList = pool.events.toList ++ (c.activity R pool).events := by
  -- All but two moves leave the world and the events as they are.
  have hstill {P : Prop} (htold : P ∧ pool'.events = pool.events) :
      P ∧ pool'.events.toList = pool.events.toList ++ [] :=
    ⟨htold.1, by rw [htold.2, List.append_nil]⟩
  cases c with
  | done a | fail fault =>
    cases h
    exact hstill ⟨rfl, rfl⟩
  | ask request k =>
    cases request with
    | start fiber action =>
      cases h
      exact hstill (Pool.told_start fiber action)
    | keep fiber action =>
      cases h
      exact hstill (Pool.told_keep fiber action)
    | note event =>
      cases h
      exact ⟨rfl, Array.toList_push⟩
    | perform e =>
      cases h
      exact ⟨rfl, (List.append_nil _).symm⟩
    | log record =>
      cases h
      exact hstill ⟨Pool.world_log .., Pool.events_log ..⟩
    | _ =>
      cases h
      exact hstill ⟨rfl, rfl⟩
  | demand d k =>
    cases d with
    | read fiber =>
      rw [react] at h
      split at h <;> cases h <;> exact hstill ⟨rfl, rfl⟩
    | interpret yields machine =>
      cases h
      exact hstill ⟨rfl, rfl⟩
  | runQueue k =>
    rw [react] at h
    split at h
    · cases h
      exact hstill ⟨rfl, rfl⟩
    · split at h
      · cases h
        exact hstill ⟨rfl, rfl⟩
      · cases h
        exact hstill (Pool.told_startAt ‹_›)

/-- What a thread does with a move is all that it does to the world and to the events. -/
theorem Thread.told_of_move {thread : Thread S α} {motion : Motion S α}
    (h : thread.move R pool = (motion, pool')) :
    (thread.activity R pool).Turns R pool.world pool'.world ∧
      pool'.events.toList = pool.events.toList ++ (thread.activity R pool).events := by
  cases thread with
  | base c =>
    rw [move] at h
    cases hreact : c.react R pool with
    | mk reaction pool₁ =>
      have htold := Comp.told_of_react hreact
      rw [hreact] at h
      cases reaction <;> cases h <;> exact htold
  | nested c callers outer =>
    rw [move] at h
    cases hreact : c.react R pool with
    | mk reaction pool₁ =>
      have htold := Comp.told_of_react hreact
      rw [hreact] at h
      rcases reaction with _ | _ | (_ | (_ | _)) | _ <;> cases h <;> exact htold

end Upshot

end FiberPrograms
