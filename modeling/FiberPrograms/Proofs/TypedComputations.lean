import FiberPrograms.Interpreter
import FiberPrograms.Proofs.Evaluation
import FiberPrograms.Proofs.Typing
import Mathlib.Data.Set.Insert

/-!
# Typed computations

A handle is a fiber at the type that it yields. User code reads fibers through handles that it
holds, and holds what it has captured, what it was given inside a value, and what it has started
itself. What a piece of user code holds and at which types it is written is said by a typing; a
computation is sound over a set of handles if it needs no others.

Whatever makes a fiber goes through it in order: first there is a name, which may be reported, then
an action is put behind the name. A fiber that is awaited may be reported before it is read. How far
a computation has got with this is its phase; what may be done and reported in which phase, which
code may be used, and which faults may be raised is said by a licence.

## Main definitions

* `Handle`, `Typing`, `Phase`, `Licence`
* `Licence.lenient`: the licence to do anything, but perhaps fork and use some code
* `Licence.clean`: the licence to raise no fault that comes from the type of a value
* `Typing.rules`: the rules for programs that hold no handles but the given ones
* `Comp.Sound`: computations that keep to their types, to their licence and to the handles they hold
* `Meaning.Sound`, `Interpreter.Sound`: user code and observers that do

## Main results

* `Comp.Sound.bind`, `Comp.Sound.attempt`, `Comp.Sound.mono`
* `Interpreter.Sound.turn`: the steps of a typed machine are sound
-/

namespace FiberPrograms

/-- A fiber, at the type that it yields. -/
structure Handle (B : Type) where
  fiber : FiberId
  item : Ty B

/-- What user code holds, and the types at which it is written. -/
structure Typing (S : Signature) where
  /-- The handles inside a ground value. -/
  ground : (b : S.Base) → Universe.El b → Set (Handle S.Base)
  /-- The handles that the code of a continuation has captured. -/
  captured : S.Code → Set (Handle S.Base)
  /-- Code that takes the first type and makes a program that yields the second. -/
  build : S.Code → Ty S.Base → Ty S.Base → Prop
  /-- Code that takes the first type and yields the second. -/
  compute : S.Code → Ty S.Base → Ty S.Base → Prop
  /-- The handles that an action has captured. -/
  held : S.Action → Set (Handle S.Base)
  /-- The type that an action yields. -/
  yields : S.Action → Ty S.Base
  /-- The handles that an effect gives to the world outside. -/
  sent : S.Effect → Set (Handle S.Base)
  /-- The handles that the world gives in reply. -/
  replied : (e : S.Effect) → S.Reply e → Set (Handle S.Base)

/-- How far a computation has got with the fiber that it is about to start, or to read. -/
inductive Phase where
  | idle
  /-- The fiber has a name. -/
  | made (fiber : FiberId)
  /-- It has been reported that the fiber is about to be started, meant for some place. -/
  | announced (fiber : FiberId) (place : Place)
  /-- It has been reported that the fiber is about to be read. -/
  | awaiting (fiber : FiberId)

/-- Whether the fiber has a name and nothing behind it yet. -/
def Phase.Names (fiber : FiberId) (q : Phase) : Prop :=
  q = .made fiber ∨ ∃ place, q = .announced fiber place

theorem Phase.not_names_idle (fiber : FiberId) : ¬ Phase.idle.Names fiber := by
  rintro (h | ⟨_, h⟩) <;> cases h

/-- Whether the fiber may be read. -/
def Phase.MayRead (fiber : FiberId) (q : Phase) : Prop :=
  q = .idle ∨ q = .awaiting fiber

/-- What computations may do. -/
structure Licence (S : Signature) where
  /-- Whether programs may fork. -/
  forks : Prop
  /-- The code that may be used in programs. -/
  code : S.Code → Prop
  /-- When the action of a fiber may be handed to the spawner. -/
  hands : Phase → FiberId → S.Action → Prop
  /-- When an action may be kept with a fiber. -/
  keeps : Phase → FiberId → Prop
  /-- The events that may be put down by who holds the given handles. -/
  notes : Set (Handle S.Base) → Phase → Event → Prop
  /-- The phase after an event has been put down. -/
  noted : Phase → Event → Phase
  /-- The faults that may be raised. -/
  raises : Phase → Fault → Prop
  hands_names : ∀ {q fiber action}, hands q fiber action → q.Names fiber
  keeps_names : ∀ {q fiber}, keeps q fiber → q.Names fiber
  notes_mono : ∀ {Γ Γ' q event}, Γ ⊆ Γ' → notes Γ q event → notes Γ' q event
  /-- No name comes from putting down an event. -/
  noted_names : ∀ {q event fiber}, (noted q event).Names fiber → q.Names fiber
  /-- Nobody but who raises it knows in which phase that was. -/
  raises_idle : ∀ {q fault}, raises q fault → raises .idle fault
  /-- Readers of a fiber fail if it has failed or was dropped. -/
  raises_failed : ∀ {fiber cause}, raises .idle cause → raises .idle (.fiberFailed fiber cause)
  raises_dropped : ∀ fiber, raises .idle (.fiberDropped fiber)

/-- Anything may be done, but code may be used only as far as `code` says, and fibers may be
started only if `forks` says so. -/
def Licence.lenient (S : Signature) (forks : Prop) (code : S.Code → Prop) : Licence S where
  forks := forks
  code := code
  hands q fiber _ := forks ∧ q.Names fiber
  keeps q fiber := q.Names fiber
  notes _ _ _ := True
  noted q _ := q
  raises _ _ := True
  hands_names h := h.2
  keeps_names := id
  notes_mono _ := id
  noted_names := id
  raises_idle := id
  raises_failed := id
  raises_dropped _ := trivial

/-- Whether a fault does not come from the type of a value, not even by way of a fiber. -/
def Fault.Clean : Fault → Prop
  | wrongType _ => False
  | fiberFailed _ cause => cause.Clean
  | _ => True

/-- Anything may be done but raise a fault that comes from the type of a value. -/
def Licence.clean (S : Signature) : Licence S where
  forks := True
  code _ := True
  hands q fiber _ := q.Names fiber
  keeps q fiber := q.Names fiber
  notes _ _ _ := True
  noted q _ := q
  raises _ fault := fault.Clean
  hands_names := id
  keeps_names := id
  notes_mono _ := id
  noted_names := id
  raises_idle := id
  raises_failed := id
  raises_dropped _ := trivial

variable {S : Signature} {T : Typing S} {L : Licence S} {Γ Γ' : Set (Handle S.Base)} {q q' : Phase}

/-- The rules for programs that hold no handles but the given ones. -/
def Typing.rules (T : Typing S) (L : Licence S) (Γ : Set (Handle S.Base)) :
    Program.Rules S.Base (ForkJoin S.Base S.Action) S.Code where
  ground b a := T.ground b a ⊆ Γ
  fiber fiber τ := ⟨fiber, τ⟩ ∈ Γ
  op
    | .forkAt _ yields action, τ =>
      L.forks ∧ τ = .fiber yields ∧ T.yields action = yields ∧ T.held action ⊆ Γ
    | .await fiber, τ => ⟨fiber, τ⟩ ∈ Γ
  build code α β := L.code code ∧ T.captured code ⊆ Γ ∧ T.build code α β
  compute code α β := L.code code ∧ T.captured code ⊆ Γ ∧ T.compute code α β

/-- More is allowed to who holds more. -/
theorem Typing.rules_within (hΓ : Γ ⊆ Γ') : (T.rules L Γ).Within (T.rules L Γ') where
  ground ha := ha.trans hΓ
  fiber hfiber := hΓ hfiber
  op {op τ} hop := by
    cases op with
    | forkAt place yields action =>
      obtain ⟨hforks, hτ, hyields, hheld⟩ := hop
      exact ⟨hforks, hτ, hyields, hheld.trans hΓ⟩
    | await fiber => exact hΓ hop
  build := fun ⟨hcode, hcaptured, hbuild⟩ => ⟨hcode, hcaptured.trans hΓ, hbuild⟩
  compute := fun ⟨hcode, hcaptured, hcompute⟩ => ⟨hcode, hcaptured.trans hΓ, hcompute⟩

/-- A value of a type, holding no handles but the given ones. -/
structure Value.Has (T : Typing S) (L : Licence S) (Γ : Set (Handle S.Base)) (τ : Ty S.Base)
    (v : S.Value) : Prop where
  ty : v.ty = τ
  obeys : v.Obeys (T.rules L Γ)

theorem Value.Has.mono {τ : Ty S.Base} {v : S.Value} (hΓ : Γ ⊆ Γ') (h : v.Has T L Γ τ) :
    v.Has T L Γ' τ :=
  ⟨h.ty, Ty.Obeys.mono (Typing.rules_within hΓ) h.obeys⟩

/-- What a reader, or whoever runs a program, may be told: a value of the type, or a fault. -/
def Typing.Outcome (T : Typing S) (L : Licence S) (Γ : Set (Handle S.Base)) (τ : Ty S.Base) :
    Except Fault S.Value → Prop
  | .ok v => v.Has T L Γ τ
  | .error fault => L.raises .idle fault

/-! ## Sound computations -/

namespace Comp

variable {α β : Type} {post : Set (Handle S.Base) → Phase → α → Prop}
  {post' : Set (Handle S.Base) → Phase → β → Prop}

/-- A computation that keeps to its types and to its licence if it holds the given handles and is
in the given phase. What it yields is as `post` says of the handles and the phase in the end. -/
def Sound (T : Typing S) (L : Licence S) (post : Set (Handle S.Base) → Phase → α → Prop) :
    Comp S α → Set (Handle S.Base) → Phase → Prop
  | done a, Γ, q => post Γ q a
  | fail fault, _, q => L.raises q fault
  | ask .newFiber k, Γ, q =>
    q = .idle ∧ ∀ fiber : FiberId, (k fiber).Sound T L post Γ (.made fiber)
  | ask (.start fiber action) k, Γ, q =>
    L.hands q fiber action ∧ T.held action ⊆ Γ ∧
      (k ()).Sound T L post (insert ⟨fiber, T.yields action⟩ Γ) .idle
  | ask (.keep fiber action) k, Γ, q =>
    L.keeps q fiber ∧ T.held action ⊆ Γ ∧
      (k ()).Sound T L post (insert ⟨fiber, T.yields action⟩ Γ) .idle
  | ask (.ended _) k, Γ, q => ∀ reply : Bool, (k reply).Sound T L post Γ q
  | ask (.note event) k, Γ, q =>
    L.notes Γ q event ∧ (k ()).Sound T L post Γ (L.noted q event)
  | ask (.sight _) k, Γ, q => (k ()).Sound T L post Γ q
  | ask (.log _) k, Γ, q => (k ()).Sound T L post Γ q
  | ask (.perform e) k, Γ, q =>
    T.sent e ⊆ Γ ∧ ∀ reply Γ', Γ ⊆ Γ' → T.replied e reply ⊆ Γ' → (k reply).Sound T L post Γ' q
  | demand (.read fiber) k, Γ, q =>
    q.MayRead fiber ∧ ∃ τ, ⟨fiber, τ⟩ ∈ Γ ∧ ∀ outcome Γ', Γ ⊆ Γ' → T.Outcome L Γ' τ outcome →
      (k outcome).Sound T L post Γ' .idle
  | demand (.interpret yields machine) k, Γ, q =>
    q = .idle ∧ machine.Typed (T.rules L Γ) yields ∧
      ∀ outcome Γ', Γ ⊆ Γ' → T.Outcome L Γ' yields outcome → (k outcome).Sound T L post Γ' .idle
  | runQueue k, Γ, q => k.Sound T L post Γ q

/-- A computation that is sound stays so if it holds more, and if less is asked of its value. -/
theorem Sound.mono {c : Comp S α} {post' : Set (Handle S.Base) → Phase → α → Prop}
    (hc : c.Sound T L post Γ q) (hΓ : Γ ⊆ Γ')
    (hpost : ∀ Γ₁ Γ₁' q a, Γ₁ ⊆ Γ₁' → post Γ₁ q a → post' Γ₁' q a) : c.Sound T L post' Γ' q := by
  induction c generalizing Γ Γ' q with
  | done a => exact hpost Γ Γ' q a hΓ hc
  | fail fault => exact hc
  | ask request k ih =>
    cases request with
    | newFiber => exact ⟨hc.1, fun fiber => ih fiber (hc.2 fiber) hΓ⟩
    | start fiber action =>
      obtain ⟨hhands, hheld, hc⟩ := hc
      exact ⟨hhands, hheld.trans hΓ, ih () hc (Set.insert_subset_insert hΓ)⟩
    | keep fiber action =>
      obtain ⟨hkeeps, hheld, hc⟩ := hc
      exact ⟨hkeeps, hheld.trans hΓ, ih () hc (Set.insert_subset_insert hΓ)⟩
    | ended fiber => exact fun reply => ih reply (hc reply) hΓ
    | note event =>
      obtain ⟨hnotes, hc⟩ := hc
      exact ⟨L.notes_mono hΓ hnotes, ih () hc hΓ⟩
    | sight fiber => exact ih () hc hΓ
    | log record => exact ih () hc hΓ
    | perform e =>
      refine ⟨hc.1.trans hΓ, fun reply Γ₁ hΓ₁ hreplied => ?_⟩
      exact ih reply (hc.2 reply Γ₁ (hΓ.trans hΓ₁) hreplied) subset_rfl
  | demand d k ih =>
    cases d with
    | read fiber =>
      obtain ⟨hread, τ, hfiber, hc⟩ := hc
      refine ⟨hread, τ, hΓ hfiber, fun outcome Γ₁ hΓ₁ houtcome => ?_⟩
      exact ih outcome (hc outcome Γ₁ (hΓ.trans hΓ₁) houtcome) subset_rfl
    | interpret yields machine =>
      obtain ⟨hq, hmachine, hc⟩ := hc
      refine ⟨hq, hmachine.mono (Typing.rules_within hΓ), fun outcome Γ₁ hΓ₁ houtcome => ?_⟩
      exact ih outcome (hc outcome Γ₁ (hΓ.trans hΓ₁) houtcome) subset_rfl
  | runQueue k ih => exact ih hc hΓ

theorem Sound.bind {c : Comp S α} {f : α → Comp S β} (hc : c.Sound T L post Γ q)
    (hf : ∀ Γ' q' a, Γ ⊆ Γ' → post Γ' q' a → (f a).Sound T L post' Γ' q') :
    (c.bind f).Sound T L post' Γ q := by
  -- On the way to its value the first computation only gains handles.
  induction c generalizing Γ q with
  | done a => exact hf Γ q a subset_rfl hc
  | fail fault => exact hc
  | ask request k ih =>
    cases request with
    | newFiber => exact ⟨hc.1, fun fiber => ih fiber (hc.2 fiber) hf⟩
    | start fiber action =>
      obtain ⟨hhands, hheld, hc⟩ := hc
      refine ⟨hhands, hheld, ih () hc fun Γ' q' a hΓ => hf Γ' q' a ?_⟩
      exact (Set.subset_insert _ Γ).trans hΓ
    | keep fiber action =>
      obtain ⟨hkeeps, hheld, hc⟩ := hc
      refine ⟨hkeeps, hheld, ih () hc fun Γ' q' a hΓ => hf Γ' q' a ?_⟩
      exact (Set.subset_insert _ Γ).trans hΓ
    | ended fiber => exact fun reply => ih reply (hc reply) hf
    | note event =>
      obtain ⟨hnotes, hc⟩ := hc
      exact ⟨hnotes, ih () hc hf⟩
    | sight fiber => exact ih () hc hf
    | log record => exact ih () hc hf
    | perform e =>
      refine ⟨hc.1, fun reply Γ₁ hΓ₁ hreplied => ?_⟩
      exact ih reply (hc.2 reply Γ₁ hΓ₁ hreplied) fun Γ' q' a hΓ => hf Γ' q' a (hΓ₁.trans hΓ)
  | demand d k ih =>
    cases d with
    | read fiber =>
      obtain ⟨hread, τ, hfiber, hc⟩ := hc
      refine ⟨hread, τ, hfiber, fun outcome Γ₁ hΓ₁ houtcome => ?_⟩
      exact ih outcome (hc outcome Γ₁ hΓ₁ houtcome) fun Γ' q' a hΓ => hf Γ' q' a (hΓ₁.trans hΓ)
    | interpret yields machine =>
      obtain ⟨hq, hmachine, hc⟩ := hc
      refine ⟨hq, hmachine, fun outcome Γ₁ hΓ₁ houtcome => ?_⟩
      exact ih outcome (hc outcome Γ₁ hΓ₁ houtcome) fun Γ' q' a hΓ => hf Γ' q' a (hΓ₁.trans hΓ)
  | runQueue k ih => exact ih hc hf

/-- An answer is a value as `post` says, or a fault that may be raised in the phase that has been
reached. -/
def Answered (L : Licence S) (post : Set (Handle S.Base) → Phase → α → Prop)
    (Γ : Set (Handle S.Base)) (q : Phase) : Except Fault α → Prop
  | .ok a => post Γ q a
  | .error fault => L.raises q fault

theorem Sound.attempt {c : Comp S α} (hc : c.Sound T L post Γ q) :
    c.attempt.Sound T L (Answered L post) Γ q := by
  induction c generalizing Γ q with
  | done a => exact hc
  | fail fault => exact hc
  | ask request k ih =>
    cases request with
    | newFiber => exact ⟨hc.1, fun fiber => ih fiber (hc.2 fiber)⟩
    | start fiber action =>
      obtain ⟨hhands, hheld, hc⟩ := hc
      exact ⟨hhands, hheld, ih () hc⟩
    | keep fiber action =>
      obtain ⟨hkeeps, hheld, hc⟩ := hc
      exact ⟨hkeeps, hheld, ih () hc⟩
    | ended fiber => exact fun reply => ih reply (hc reply)
    | note event =>
      obtain ⟨hnotes, hc⟩ := hc
      exact ⟨hnotes, ih () hc⟩
    | sight fiber => exact ih () hc
    | log record => exact ih () hc
    | perform e =>
      exact ⟨hc.1, fun reply Γ₁ hΓ₁ hreplied => ih reply (hc.2 reply Γ₁ hΓ₁ hreplied)⟩
  | demand d k ih =>
    cases d with
    | read fiber =>
      obtain ⟨hread, τ, hfiber, hc⟩ := hc
      refine ⟨hread, τ, hfiber, fun outcome Γ₁ hΓ₁ houtcome => ?_⟩
      exact ih outcome (hc outcome Γ₁ hΓ₁ houtcome)
    | interpret yields machine =>
      obtain ⟨hq, hmachine, hc⟩ := hc
      refine ⟨hq, hmachine, fun outcome Γ₁ hΓ₁ houtcome => ?_⟩
      exact ih outcome (hc outcome Γ₁ hΓ₁ houtcome)
  | runQueue k ih => exact ih hc

/-- To be idle, with a value of the type. -/
def Yielded (T : Typing S) (L : Licence S) (τ : Ty S.Base) (Γ : Set (Handle S.Base)) (q : Phase)
    (v : S.Value) : Prop :=
  q = .idle ∧ v.Has T L Γ τ

theorem Yielded.mono {τ : Ty S.Base} {v : S.Value} (hΓ : Γ ⊆ Γ') (h : Yielded T L τ Γ q v) :
    Yielded T L τ Γ' q v :=
  ⟨h.1, h.2.mono hΓ⟩

/-- Fibers are read through handles, and yield values of their type. -/
theorem sound_read {fiber : FiberId} {τ : Ty S.Base} (hfiber : ⟨fiber, τ⟩ ∈ Γ)
    (hq : q.MayRead fiber) : (Comp.read fiber).Sound T L (Yielded T L τ) Γ q := by
  refine ⟨hq, τ, hfiber, fun outcome Γ₁ hΓ₁ houtcome => ?_⟩
  cases outcome with
  | ok v => exact ⟨rfl, houtcome⟩
  | error fault => exact houtcome

/-- The result of a fiber, used at the type of a handle to it. -/
def getResult (handle : Handle S.Base) : Comp S handle.item.El :=
  (Comp.read handle.fiber).bind fun v => .ofExcept (v.cast handle.item)

/-- The result of a fiber is of the type of every handle to it. -/
theorem sound_getResult {handle : Handle S.Base} (hhandle : handle ∈ Γ) :
    (getResult handle).Sound T L
      (fun Γ q a => q = .idle ∧ handle.item.Obeys (T.rules L Γ) a) Γ .idle := by
  refine (sound_read hhandle (.inl rfl)).bind fun Γ₁ q₁ v hΓ₁ hv => ?_
  obtain ⟨rfl, hty, hobeys⟩ := hv
  obtain ⟨fiber, item⟩ := handle
  obtain rfl : v.ty = item := hty
  rw [show v.cast v.ty = .ok v.get from Value.cast_self v.get]
  exact ⟨rfl, hobeys⟩

/-- A program is interpreted at the type that it yields. -/
theorem sound_interpret {yields : Ty S.Base} {program : S.Program}
    (hprogram : program.Yields (T.rules L Γ) yields) :
    (Comp.interpret yields program).Sound T L (Yielded T L yields) Γ .idle := by
  refine ⟨rfl, .start hprogram, fun outcome Γ₁ hΓ₁ houtcome => ?_⟩
  cases outcome with
  | ok v => exact ⟨rfl, houtcome⟩
  | error fault => exact houtcome

end Comp

/-! ## The steps of a machine -/

/-- User code that keeps to its types and to its licence. -/
structure Meaning.Sound (T : Typing S) (L : Licence S) (M : Meaning S) : Prop where
  build : ∀ {Γ code α β v}, (T.rules L Γ).build code α β → v.Has T L Γ α →
    (M.build code v).Sound T L
      (fun Γ q program => q = .idle ∧ program.Yields (T.rules L Γ) β) Γ .idle
  compute : ∀ {Γ code α β v}, (T.rules L Γ).compute code α β → v.Has T L Γ α →
    (M.compute code v).Sound T L (Comp.Yielded T L β) Γ .idle
  act : ∀ {Γ action}, T.held action ⊆ Γ →
    (M.act action).Sound T L (Comp.Yielded T L (T.yields action)) Γ .idle

/-- User code and observers that do. An observer may report a fork between the name and the start,
and an await before the read. -/
structure Interpreter.Sound (T : Typing S) (L : Licence S) (I : Interpreter S) : Prop
    extends toMeaningSound : Meaning.Sound T L I.toMeaning where
  fork : L.forks → ∀ Γ fiber place, (I.observer (.fork fiber place)).Sound T L
    (fun _ q _ => ∀ action, L.hands q fiber action) Γ (.made fiber)
  await : ∀ {Γ fiber τ}, ⟨fiber, τ⟩ ∈ Γ →
    (I.observer (.await fiber)).Sound T L (fun _ q _ => q.MayRead fiber) Γ .idle
  finished : ∀ Γ outermost,
    (I.observer (.finished outermost)).Sound T L (fun _ q _ => q = .idle) Γ .idle

/-- What a machine's step comes to for whoever drives it, in a run that yields the given type. -/
def Turn.Sound (T : Typing S) (L : Licence S) (τ : Ty S.Base) (Γ : Set (Handle S.Base)) (q : Phase)
    (turn : Turn S) : Prop :=
  q = .idle ∧
    match turn with
    | .value v => v.Has T L Γ τ
    | .again yields machine => yields = τ ∧ machine.Typed (T.rules L Γ) τ

theorem Turn.Sound.mono {τ : Ty S.Base} {turn : Turn S} (hΓ : Γ ⊆ Γ')
    (h : Turn.Sound T L τ Γ q turn) : Turn.Sound T L τ Γ' q turn := by
  refine ⟨h.1, ?_⟩
  cases turn with
  | value v => exact Value.Has.mono hΓ h.2
  | again yields machine => exact ⟨h.2.1, h.2.2.mono (Typing.rules_within hΓ)⟩

namespace Interpreter

variable {I : Interpreter S} {yields τ : Ty S.Base}

/-- What a step of a machine comes to, in a run that yields the given type. -/
def StepSound (T : Typing S) (L : Licence S) (yields : Ty S.Base) (Γ : Set (Handle S.Base))
    (q : Phase) : Except Fault (Progress S.Value) × S.Machine → Prop
  | (.ok (.done v), _) => q = .idle ∧ v.Has T L Γ yields
  | (.ok .more, machine) => q = .idle ∧ machine.Typed (T.rules L Γ) yields
  | (.error fault, _) => L.raises q fault

namespace Sound

/-- A fork yields a handle to the fiber that it has started, an await what the fiber has yielded. -/
theorem perform (hI : I.Sound T L) {op : ForkJoin S.Base S.Action}
    (hop : (T.rules L Γ).op op τ) :
    (I.perform op).Sound T L (Comp.Yielded T L τ) Γ .idle := by
  cases op with
  | forkAt place item action =>
    obtain ⟨hforks, rfl, rfl, hheld⟩ := hop
    refine ⟨rfl, fun fiber => (hI.fork hforks Γ fiber place).bind fun Γ₁ q₁ _ hΓ₁ hhands => ?_⟩
    refine ⟨hhands action, hheld.trans hΓ₁, rfl, rfl, ?_⟩
    exact Set.mem_insert (Handle.mk fiber (T.yields action)) Γ₁
  | await fiber =>
    refine (hI.await hop).bind fun Γ₁ q₁ _ hΓ₁ hq₁ => ?_
    exact Comp.sound_read (hΓ₁ hop) hq₁

/-- What a continuation makes of a value of its type yields the type to which it leads. -/
theorem resume (hI : I.Sound T L) {next : Cont S.Base (ForkJoin S.Base S.Action) S.Code}
    {α β : Ty S.Base} (hnext : next.Leads (T.rules L Γ) α β) {a : α.El}
    (ha : α.Obeys (T.rules L Γ) a) :
    (next.resume (fun code v => (I.build code v).attempt)
      (fun code v => (I.compute code v).attempt) (.of α a)).Sound T L
        (Comp.Answered L fun Γ q program => q = .idle ∧ program.Yields (T.rules L Γ) β) Γ
        .idle := by
  have hv : (Value.of α a).Has T L Γ α := ⟨rfl, ha⟩
  obtain ⟨code, hcode, hresume⟩ | ⟨code, hcode, hresume⟩ | ⟨made, hmade, hresume⟩ :=
    hnext.resume_cases ha
  · rw [hresume]
    exact (hI.build hcode hv).attempt
  · rw [hresume]
    refine (hI.compute hcode hv).attempt.bind fun Γ₁ q₁ outcome hΓ₁ houtcome => ?_
    cases outcome with
    | error fault => exact houtcome
    | ok v =>
      obtain ⟨rfl, hty, hobeys⟩ := houtcome
      subst hty
      exact ⟨rfl, .ret hobeys⟩
  · rw [hresume]
    exact ⟨rfl, hmade⟩

/-- A value of its type is taken by the innermost waiting continuation, or ends the run. -/
theorem deliver (hI : I.Sound T L) {tree : S.Program}
    {pending : List (Cont S.Base (ForkJoin S.Base S.Action) S.Code)}
    (hpending : Cont.Chain (T.rules L Γ) yields pending τ) {a : τ.El}
    (ha : τ.Obeys (T.rules L Γ) a) :
    ((tree.under pending).deliver (I.handler yields) (.of τ a)).Sound T L (StepSound T L yields) Γ
      .idle := by
  cases hpending with
  | nil =>
    have haccept : (I.handler yields).accept (.of yields a) = .ok (.of yields a) :=
      Value.check_self a
    rw [Machine.deliver_nil, haccept]
    exact ⟨rfl, rfl, ha⟩
  | cons hnext hrest =>
    rw [Machine.deliver_cons]
    refine (hI.resume hnext ha).bind fun Γ₁ q₁ made hΓ₁ hmade => ?_
    cases made with
    | error fault => exact hmade
    | ok made =>
      obtain ⟨rfl, hmade⟩ := hmade
      exact ⟨rfl, .under hmade (hrest.mono (Typing.rules_within hΓ₁))⟩

theorem step (hI : I.Sound T L) {machine : S.Machine}
    (hmachine : machine.Typed (T.rules L Γ) yields) :
    (machine.step (I.handler yields)).Sound T L (StepSound T L yields) Γ .idle := by
  obtain @⟨_, pending, υ, htree, hpending⟩ := hmachine
  cases htree with
  | @ret v hv =>
    rw [Machine.step_ret]
    refine (hI.finished Γ _).attempt.bind fun Γ₁ q₁ answer hΓ₁ hanswer => ?_
    cases answer with
    | error fault => exact hanswer
    | ok _ =>
      obtain rfl := hanswer
      have hrules := Typing.rules_within (T := T) (L := L) hΓ₁
      exact hI.deliver (a := v.get) (hpending.mono hrules) (Ty.Obeys.mono hrules hv)
  | @instr op _ hop =>
    rw [Machine.step_instr]
    have hperform : (do
        Comp.log (.instruction op.shape pending.length)
        I.perform op : Comp S S.Value).Sound T L (Comp.Yielded T L υ) Γ .idle := hI.perform hop
    refine hperform.attempt.bind fun Γ₁ q₁ answer hΓ₁ hanswer => ?_
    cases answer with
    | error fault => exact hanswer
    | ok v =>
      obtain ⟨rfl, rfl, hobeys⟩ := hanswer
      exact hI.deliver (a := v.get) (hpending.mono (Typing.rules_within hΓ₁)) hobeys
  | andThen hfirst hnext =>
    rw [Machine.step_andThen]
    exact ⟨rfl, .under hfirst (.cons hnext hpending)⟩

/-- The steps of a typed machine are sound. -/
theorem turn (hI : I.Sound T L) {machine : S.Machine}
    (hmachine : machine.Typed (T.rules L Γ) yields) :
    (I.turn yields machine).Sound T L (Turn.Sound T L yields) Γ .idle := by
  refine (hI.step hmachine).bind fun Γ₁ q₁ stepped hΓ₁ hstepped => ?_
  obtain ⟨progress, after⟩ := stepped
  cases progress with
  | error fault => exact hstepped
  | ok progress =>
    cases progress with
    | done v => exact ⟨hstepped.1, hstepped.2⟩
    | more => exact ⟨hstepped.1, rfl, hstepped.2⟩

end Sound

end Interpreter

end FiberPrograms
