import FiberPrograms.Proofs.SoundScenes

/-!
# Observers

An interpreter reports to an observer what it is about to do, and does it once the observer has
heard of it. Reports are recorded by one observer; there may be others before it and after it, who
look on, write to the log, act on the world outside, have the jobs of the queue run, or fail.

If one of them fails, what was reported is not done, and the run fails with the same fault. If none
does, the report has been recorded by the time at which it is done.

## Main definitions

* `Comp.Leads`: what a computation asks of its surroundings on the way to another
* `Comp.Attends`: computations of an observer that only looks on
* `Licence.observed`: the licence of who is observed
* `Runtime.Observed`: user code and observers, of which one records what it hears

## Main results

* `Interpreter.fails_on_fork`, `Interpreter.fails_on_await`, `Interpreter.fails_on_finished`: what
  becomes of a run if its observer fails
* `Runtime.Observed.sound`: reports are recorded before what they announce is done
-/

namespace FiberPrograms

variable {S : Signature} {W α β : Type}

/-! ## What computations ask -/

/-- What a computation asks of its surroundings, and what it is told. -/
inductive Exchange (S : Signature) where
  | asked (request : Request S) (reply : request.Reply)
  | demanded (demand : Demand S) (outcome : Except Fault S.Value)
  | queueRun

namespace Comp

/-- A computation gets to where it goes on as another, and these are its exchanges on the way. -/
inductive Leads : Comp S α → List (Exchange S) → Comp S α → Prop
  | refl (c : Comp S α) : Leads c [] c
  | ask {request : Request S} {k : request.Reply → Comp S α} {reply : request.Reply}
      {rest : List (Exchange S)} {c : Comp S α} (h : Leads (k reply) rest c) :
      Leads (.ask request k) (.asked request reply :: rest) c
  | demand {d : Demand S} {k : Except Fault S.Value → Comp S α} {outcome : Except Fault S.Value}
      {rest : List (Exchange S)} {c : Comp S α} (h : Leads (k outcome) rest c) :
      Leads (.demand d k) (.demanded d outcome :: rest) c
  | runQueue {k c : Comp S α} {rest : List (Exchange S)} (h : Leads k rest c) :
      Leads (.runQueue k) (.queueRun :: rest) c

namespace Leads

variable {c c' : Comp S α} {exchanges : List (Exchange S)}

/-- What follows a computation makes no difference as long as it is on its way. -/
theorem bind (h : c.Leads exchanges c') (f : α → Comp S β) :
    (c.bind f).Leads exchanges (c'.bind f) := by
  induction h with
  | refl => exact .refl _
  | ask _ ih => exact .ask ih
  | demand _ ih => exact .demand ih
  | runQueue _ ih => exact .runQueue ih

theorem attempt (h : c.Leads exchanges c') : c.attempt.Leads exchanges c'.attempt := by
  induction h with
  | refl => exact .refl _
  | ask _ ih => exact .ask ih
  | demand _ ih => exact .demand ih
  | runQueue _ ih => exact .runQueue ih

end Leads

end Comp

/-! ## Observers that fail -/

namespace Interpreter

variable {I : Interpreter S} {yields : Ty S.Base} {exchanges : List (Exchange S)} {fault : Fault}
  {pending : List (Cont S.Base (ForkJoin S.Base S.Action) S.Code)}

/-- A machine fails with the fault with which its operation does. -/
theorem turn_leads_fail {op : ForkJoin S.Base S.Action}
    (h : (I.perform op).Leads exchanges (.fail fault)) :
    (I.turn yields ((Tree.instr op).under pending)).Leads
      (.asked (.log (.instruction op.shape pending.length)) () :: exchanges) (.fail fault) := by
  have hperform : (do
      Comp.log (.instruction op.shape pending.length)
      I.perform op : Comp S S.Value).Leads
        (.asked (.log (.instruction op.shape pending.length)) () :: exchanges) (.fail fault) :=
    .ask h
  rw [turn, Machine.step_instr]
  exact (hperform.attempt.bind _).bind _

/-- If the observer fails to hear of a fork, the fiber has a name, and that is all: its action is
not handed to anybody, and the run fails as the observer does. -/
theorem fails_on_fork {place : Place} {item : Ty S.Base} {action : S.Action} (fiber : FiberId)
    (h : (I.observer (.fork fiber place)).Leads exchanges (.fail fault)) :
    (I.turn yields ((Tree.instr (.forkAt place item action)).under pending)).Leads
      (.asked (.log (.instruction (ForkJoin.forkAt place item action).shape pending.length)) () ::
        .asked .newFiber fiber :: exchanges) (.fail fault) := by
  refine turn_leads_fail ?_
  have hreported : ((I.observer (.fork fiber place)).bind fun _ =>
      (Comp.start fiber action).bind fun _ =>
        Comp.done (Value.of (.fiber item) fiber)).Leads exchanges (.fail fault) := h.bind _
  exact .ask hreported

/-- If the observer fails to hear of an await, the fiber is not read, and the run fails as the
observer does. -/
theorem fails_on_await {fiber : FiberId}
    (h : (I.observer (.await fiber)).Leads exchanges (.fail fault)) :
    (I.turn yields ((Tree.instr (.await fiber)).under pending)).Leads
      (.asked (.log (.instruction (ForkJoin.await (B := S.Base) (A := S.Action) fiber).shape
        pending.length)) () :: exchanges) (.fail fault) := by
  have hperform : (I.perform (.await fiber)).Leads exchanges (.fail fault) :=
    h.bind fun _ => Comp.read fiber
  exact turn_leads_fail hperform

/-- If the observer fails to hear of a value, no continuation gets it, and the run fails as the
observer does. -/
theorem fails_on_finished {v : S.Value}
    (h : (I.observer (.finished pending.isEmpty)).Leads exchanges (.fail fault)) :
    (I.turn yields ((Tree.ret v).under pending)).Leads exchanges (.fail fault) := by
  rw [turn, Machine.step_ret]
  exact (h.attempt.bind _).bind _

end Interpreter

/-! ## Observers that look on -/

/-- A computation that does nothing to fibers and puts down no events. It may ask whether fibers are
ready, bring them in sight, write to the log, act on the world outside without giving anything to
it, have the jobs of the queue run, and raise some faults. -/
def Comp.Attends (T : Typing S) (raises : Fault → Prop) : Comp S Unit → Prop
  | done _ => True
  | fail fault => raises fault
  | ask (.ended _) k => ∀ reply : Bool, (k reply).Attends T raises
  | ask (.sight _) k => (k ()).Attends T raises
  | ask (.log _) k => (k ()).Attends T raises
  | ask (.perform e) k => T.sent e = ∅ ∧ ∀ reply, (k reply).Attends T raises
  | runQueue k => k.Attends T raises
  | _ => False

variable {T : Typing S} {L : Licence S} {Γ : Set (Handle S.Base)} {q : Phase}

/-- Whoever looks on stays in the phase in which it is. -/
theorem Comp.Attends.sound {raises : Fault → Prop} {c : Comp S Unit} (h : c.Attends T raises)
    (hraises : ∀ fault, raises fault → L.raises q fault) :
    c.Sound T L (fun _ q' _ => q' = q) Γ q := by
  induction c generalizing Γ with
  | done a => exact rfl
  | fail fault => exact hraises fault h
  | ask request k ih =>
    cases request with
    | ended fiber => exact fun reply => ih reply (h reply)
    | sight fiber => exact ih () h
    | log record => exact ih () h
    | perform e =>
      obtain ⟨hsent, hk⟩ := h
      exact ⟨hsent.subset.trans (Set.empty_subset Γ), fun reply Γ' _ _ => ih reply (hk reply)⟩
    | newFiber => exact h.elim
    | start fiber action => exact h.elim
    | keep fiber action => exact h.elim
    | note event => exact h.elim
  | demand d k ih => exact h.elim
  | runQueue k ih => exact ih h

namespace Observer

theorem all_append (observers more : List (Observer S)) (event : Event) :
    all (observers ++ more) event = (all observers event).bind fun _ => all more event := by
  induction observers with
  | nil => rfl
  | cons first rest ih =>
    rw [List.cons_append, all, ih, all, Comp.bind_assoc]

/-- Whoever records, and nobody else, records. -/
theorem all_recording : all [recording] = (recording : Observer S) := by
  funext event
  exact Comp.bind_done (recording event)

/-- Several observers look on if each does. -/
theorem sound_all {raises : Event → Fault → Prop} {observers : List (Observer S)}
    (h : ∀ other ∈ observers, ∀ event, (other event).Attends T (raises event)) {event : Event}
    (hraises : ∀ fault, raises event fault → L.raises q fault) :
    (all observers event).Sound T L (fun _ q' _ => q' = q) Γ q := by
  induction observers generalizing Γ with
  | nil => exact rfl
  | cons first rest ih =>
    have hfirst := (h first List.mem_cons_self event).sound (Γ := Γ) hraises
    refine hfirst.bind fun Γ₁ q₁ _ _ hq₁ => ?_
    subst hq₁
    exact ih fun other hother => h other (List.mem_cons_of_mem _ hother)

end Observer

/-! ## Whoever is observed -/

/-- The licence of who is observed. The start of a fiber is reported between its name and its start,
except that user code may start some actions without a report; and an await is reported before the
fiber is read. In between only an observer may fail, with the faults of `panics`. -/
def Licence.observed (direct : S.Action → Prop) (panics : Event → Fault → Prop) : Licence S where
  forks := True
  code _ := True
  hands q fiber action := (∃ place, q = .announced fiber place) ∨ q = .made fiber ∧ direct action
  keeps q fiber := q = .made fiber
  notes
    | _, q, .fork fiber _ => q = .made fiber
    | Γ, q, .await fiber => q = .idle ∧ ∃ τ, ⟨fiber, τ⟩ ∈ Γ
    | _, q, .finished _ => q = .idle
  noted
    | .made fiber, .fork _ place => .announced fiber place
    | .idle, .await fiber => .awaiting fiber
    | q, _ => q
  raises
    | .announced fiber place, fault => panics (.fork fiber place) fault
    | .awaiting fiber, fault => panics (.await fiber) fault
    | _, _ => True
  hands_names := by
    rintro q fiber action (h | ⟨h, -⟩)
    · exact .inr h
    · exact .inl h
  keeps_names := .inl
  notes_mono := by
    rintro Γ Γ' q (⟨fiber, place⟩ | fiber | outermost) hΓ hnotes
    · exact hnotes
    · obtain ⟨hq, τ, hτ⟩ := hnotes
      exact ⟨hq, τ, hΓ hτ⟩
    · exact hnotes
  noted_names := by
    rintro q event fiber hnames
    -- Only the report of a fork makes another phase of one in which there is a name.
    split at hnames
    · obtain h | ⟨_, h⟩ := hnames <;> cases h
      exact .inl rfl
    · obtain h | ⟨_, h⟩ := hnames <;> cases h
    · exact hnames
  raises_idle _ := trivial
  raises_failed _ := trivial
  raises_dropped _ := trivial

variable {direct : S.Action → Prop} {panics : Event → Fault → Prop}
  {stored : W → Set (Handle S.Base)} {R : Runtime S W}

/-- User code that keeps to the licence of who is observed, and observers of whom one records what
it hears and all others look on. -/
structure Runtime.Observed (T : Typing S) (direct : S.Action → Prop) (panics : Event → Fault → Prop)
    (stored : W → Set (Handle S.Base)) (R : Runtime S W) : Prop
    extends toMeaningSound : Meaning.Sound T (.observed direct panics) R.toMeaning where
  observer : ∃ earlier later, R.observer = .all (earlier ++ .recording :: later) ∧
    ∀ other ∈ earlier ++ later, ∀ event, (other event).Attends T (panics event)
  replied : ∀ e w, T.replied e (R.effect e w).1 ⊆ stored w ∪ T.sent e
  kept : ∀ e w, stored (R.effect e w).2 ⊆ stored w ∪ T.sent e

/-- What is reported is recorded before it is done. -/
theorem Runtime.Observed.sound (hR : R.Observed T direct panics stored) :
    R.Sound T (.observed direct panics) stored := by
  obtain ⟨earlier, later, hobserver, hattend⟩ := hR.observer
  -- The observers before the one that records, it itself, and those after it.
  have hall {event : Event} {Γ : Set (Handle S.Base)} {q q' : Phase}
      (hearlier : ∀ fault, panics event fault → (Licence.observed direct panics).raises q fault)
      (hrecording : ∀ Γ', Γ ⊆ Γ' → (Observer.recording event).Sound T (.observed direct panics)
        (fun _ q₁ _ => q₁ = q') Γ' q)
      (hlater : ∀ fault, panics event fault → (Licence.observed direct panics).raises q' fault) :
      (R.observer event).Sound T (.observed direct panics) (fun _ q₁ _ => q₁ = q') Γ q := by
    have hbefore := fun other hother => hattend other (List.mem_append_left later hother)
    have hafter := fun other hother => hattend other (List.mem_append_right earlier hother)
    rw [hobserver, Observer.all_append, Observer.all]
    refine (Observer.sound_all hbefore hearlier).bind fun Γ₁ q₁ _ hΓ₁ hq₁ => ?_
    subst hq₁
    refine (hrecording Γ₁ hΓ₁).bind fun Γ₂ q₂ _ _ hq₂ => ?_
    subst hq₂
    exact Observer.sound_all hafter hlater
  refine ⟨⟨hR.toMeaningSound, ?_, ?_, ?_⟩, hR.replied, hR.kept⟩
  · intro _ Γ fiber place
    have hfork : (R.observer (.fork fiber place)).Sound T (.observed direct panics)
        (fun _ q _ => q = .announced fiber place) Γ (.made fiber) := by
      refine hall (fun _ _ => trivial) (fun Γ' _ => ?_) fun fault hfault => hfault
      exact ⟨rfl, rfl⟩
    refine hfork.mono subset_rfl fun _ _ q _ _ hq action => ?_
    exact .inl ⟨place, hq⟩
  · intro Γ fiber τ hτ
    have hawait : (R.observer (.await fiber)).Sound T (.observed direct panics)
        (fun _ q _ => q = .awaiting fiber) Γ .idle := by
      refine hall (fun _ _ => trivial) (fun Γ' hΓ' => ?_) fun fault hfault => hfault
      exact ⟨⟨rfl, τ, hΓ' hτ⟩, rfl⟩
    refine hawait.mono subset_rfl fun _ _ q _ _ hq => ?_
    exact .inr hq
  · intro Γ outermost
    refine hall (fun _ _ => trivial) (fun Γ' _ => ?_) fun _ _ => trivial
    exact ⟨rfl, rfl⟩

end FiberPrograms
