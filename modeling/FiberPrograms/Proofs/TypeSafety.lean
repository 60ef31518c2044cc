import FiberPrograms.Proofs.Erasure
import FiberPrograms.Proofs.ScheduleIndependence
import FiberPrograms.Proofs.SoundScenes

/-!
# Values are of the types that they are used at

Trees, continuations and fibers forget the types of values, and every value is checked where it is
used. The check fails only if an operation has answered with a value of another type than the one
by which it is indexed. The operations of fork/join programs never do: a fork yields the fiber that
it has started, and what is read through a handle is of the type of the handle, however it got
there. So in whatever order threads move and whatever becomes of jobs, nothing ever fails because of
the type of a value.

## Main results

* `Scene.clean_of_story`: in no story does anything fail because of the type of a value
* `type_safety_of_erasure`: runs fail on the type of a value only because of their last operation,
  and those of fork/join programs do not
-/

namespace FiberPrograms

variable {S : Signature} {W α : Type}

namespace Scene

variable {T : Typing S} {stored : W → Set (Handle S.Base)} {R : Runtime S W}
  {post : Set (Handle S.Base) → Phase → α → Prop} {scene : Scene S W α} {entries : List (Entry S)}

/-- In whatever order threads move and whatever becomes of jobs: no computation and no action fails
because of the type of a value, and neither does any program that they run; and what an action has
yielded is of the type of the handles to its fiber. -/
theorem clean_of_story (hpost : ∀ Γ Γ' q a, Γ ⊆ Γ' → post Γ q a → post Γ' q a)
    (hR : R.Sound T (.clean S) stored) {world : W} (hworld : stored world = ∅)
    {computations : List (Comp S α)}
    (hcomputations : ∀ c ∈ computations, c.Sound T (.clean S) post ∅ .idle)
    (story : Trail (Incident R) (start world computations) entries scene) :
    (∀ fault, .ended (.error fault) ∈ scene.callers → fault.Clean) ∧
    (∀ fiber fault, scene.pool.get? fiber = some (.ended (.failed fault)) → fault.Clean) ∧
    (∀ who fault deeds, .did who (.raised fault) deeds ∈ entries → fault.Clean) ∧
    ∀ who fiber action deeds, .did who (.handed fiber action) deeds ∈ entries →
      ∀ v, scene.pool.get? fiber = some (.ended (.value v)) →
        ∃ a, v.cast (T.yields action) = .ok a := by
  obtain ⟨h, hallowed⟩ := sound_of_story hpost hR hworld hcomputations story
  refine ⟨?_, ?_, ?_, ?_⟩
  · intro fault hfault
    obtain ⟨place, hplace⟩ := List.mem_iff_getElem?.mp hfault
    obtain ⟨q, hclean⟩ := h.ended hplace
    exact hclean
  · intro fiber fault hended
    obtain ⟨τ, hτ⟩ := h.pool.given hended nofun
    obtain ⟨stage, hstage, hsuits⟩ := h.pool.supports _ hτ
    cases hended.symm.trans hstage
    exact hsuits
  · intro who fault deeds hentry
    obtain ⟨before, after, hsplit⟩ := List.append_of_mem hentry
    exact hallowed before _ after hsplit
  · intro who fiber action deeds hentry v hended
    have hτ : ⟨fiber, T.yields action⟩ ∈ T.given entries := ⟨_, hentry, rfl⟩
    obtain ⟨stage, hstage, hsuits⟩ := h.pool.supports _ hτ
    cases hended.symm.trans hstage
    obtain ⟨hty, -⟩ : v.Has T (.clean S) (T.given entries) (T.yields action) := hsuits
    obtain ⟨a⟩ := v
    subst hty
    exact ⟨a, Value.cast_self a⟩

end Scene

/-- **Erasure is type safe.** Take a program that is built of typed parts, and user code that is as
its types say. Whatever operations answer, a run fails on the type of a value just if some operation
has answered with a value of another type than the one by which it is indexed; and then that is the
last call of the run, be it of the handler or of user code, and everything before it stands.

Fork/join programs never fail like that. Take computations that begin where there are no fibers, and
that run programs, start fibers of their own and read fibers, as do actions and the code of
continuations, all through handles that they hold and as their types say. With any spawner, and in
whatever order threads move and whatever becomes of jobs, no computation, no action and no program
that they run fails because of the type of a value, and the result of a fiber can be used at the
type at which the fiber was started. -/
theorem type_safety_of_erasure :
    (∀ {B : Type} [Universe B] {Op F σ : Type} {sem : Program.Semantics (StateM σ) B Op F}
      {ι : Program.Index B Op F} {yields : Ty B} {program : Program B Op F},
      sem.Typed ι → program.Built ι.rules yields →
      ∀ fuel s answer M' s', runFrom s ((Machine.start program).run (sem.handler yields) fuel) =
        ((answer, M'), s') →
      ∃ log, runFrom (s, []) ((Machine.start program).run (sem.logged.handler yields) fuel) =
          ((answer, M'), s', log) ∧
        sem.Accounted ι yields (.start program) fuel s answer s' log) ∧
    ∀ {S : Signature} {W α : Type} {T : Typing S} {stored : W → Set (Handle S.Base)}
      {R : Runtime S W} {world : W} {computations : List (Comp S α)} {entries : List (Entry S)}
      {scene : Scene S W α},
      R.Sound T (.clean S) stored → stored world = ∅ →
      (∀ c ∈ computations, c.Sound T (.clean S) (fun _ _ _ => True) ∅ .idle) →
      Trail (Scene.Incident R) (Scene.start world computations) entries scene →
      (∀ fault, .ended (.error fault) ∈ scene.callers → fault.Clean) ∧
      (∀ fiber fault, scene.pool.get? fiber = some (.ended (.failed fault)) → fault.Clean) ∧
      (∀ who fault deeds, .did who (.raised fault) deeds ∈ entries → fault.Clean) ∧
      ∀ who fiber action deeds, .did who (.handed fiber action) deeds ∈ entries →
        ∀ v, scene.pool.get? fiber = some (.ended (.value v)) →
          ∃ a, v.cast (T.yields action) = .ok a := by
  constructor
  · intro B _ Op F σ sem ι yields program hsem hprogram fuel s answer M' s' hrun
    exact hsem.accounted hprogram hrun
  · intro S W α T stored R world computations entries scene hR hworld hcomputations story
    exact Scene.clean_of_story (fun _ _ _ _ _ _ => trivial) hR hworld hcomputations story

/-! ## Numbers that are handed on -/

namespace Scene

/-- Everything that is handed on is a number, and only the second action has captured a fiber. -/
def relay.typing : Typing relay where
  ground _ _ := ∅
  captured _ := ∅
  build _ α β := α = .fiber number ∧ β = number
  compute _ α β := α = β
  held
    | .seven => ∅
    | .after fiber => {⟨fiber, number⟩}
  yields _ := number
  sent e := e.elim
  replied e := e.elim

/-- Nothing is done but what its types say. -/
theorem relays_sound {L : Licence relay} (hpass : L.code .pass → L.forks ∧ L.code .wait)
    (hfork : L.forks → ∀ Γ fiber place, L.notes Γ (.made fiber) (.fork fiber place) ∧
      ∀ action, L.hands (L.noted (.made fiber) (.fork fiber place)) fiber action)
    (hawait : ∀ {Γ : Set (Handle relay.Base)} {fiber τ}, ⟨fiber, τ⟩ ∈ Γ →
      L.notes Γ .idle (.await fiber) ∧ (L.noted .idle (.await fiber)).MayRead fiber)
    (hfinished : ∀ Γ outermost, L.notes Γ .idle (.finished outermost) ∧
      L.noted .idle (.finished outermost) = .idle) :
    relays.Sound relay.typing L fun _ => ∅ where
  build {Γ code α β v} hbuild hv := by
    obtain ⟨hlicensed, -, rfl, rfl⟩ := hbuild
    obtain ⟨fiber⟩ := v
    obtain ⟨rfl, hfiber⟩ := hv
    have hfiber : ⟨fiber, relay.number⟩ ∈ Γ := hfiber
    change (Comp.done (RelayCode.apply code fiber)).Sound _ _ _ _ _
    cases code with
    | pass =>
      obtain ⟨hforks, hwait⟩ := hpass hlicensed
      refine ⟨rfl, .andThen (.instr ⟨hforks, rfl, rfl, ?_⟩) (.bind ⟨hwait, ?_, rfl, rfl⟩)⟩
      · exact Set.singleton_subset_iff.mpr hfiber
      · exact Set.empty_subset Γ
    | wait => exact ⟨rfl, .instr hfiber⟩
  compute {Γ code α β v} hcompute hv := by
    obtain ⟨-, -, rfl⟩ := hcompute
    exact ⟨rfl, hv⟩
  act {Γ action} hheld := by
    cases action with
    | seven => exact ⟨rfl, rfl, Set.empty_subset Γ⟩
    | after fiber => exact Comp.sound_read (hheld rfl) (.inl rfl)
  fork := hfork
  await hfiber := hawait hfiber
  finished := hfinished
  replied e := e.elim
  kept e := e.elim

/-- The licence to do anything but fail on the type of a value is kept to. -/
theorem relays_clean : relays.Sound relay.typing (.clean relay) fun _ => ∅ :=
  relays_sound (fun _ => ⟨trivial, trivial⟩) (fun _ _ _ _ => ⟨trivial, fun _ => .inl rfl⟩)
    (fun _ => ⟨trivial, .inl rfl⟩) fun _ _ => ⟨trivial, rfl⟩

theorem relay.program_yields {L : Licence relay} (hforks : L.forks) (hcode : ∀ code, L.code code)
    (Γ : Set (Handle relay.Base)) :
    relay.program.Yields (relay.typing.rules L Γ) relay.number :=
  .andThen (.instr ⟨hforks, rfl, rfl, Set.empty_subset Γ⟩)
    (.bind ⟨hcode _, Set.empty_subset Γ, rfl, rfl⟩)

/-- The one operation answers with text, and counts how often it has been performed. -/
def mislabelled : Program.Semantics (StateM Nat) Scalar Unit Empty where
  handle _ := do
    modify (· + 1)
    return .ok (.of (.ground .text) "seven")
  onReturn _ := return .ok ()
  build code := code.elim
  compute code := code.elim

/-- The one operation is indexed by numbers. -/
def mislabelled.index : Program.Index Scalar Unit Empty where
  op _ := .ground .int64
  build code := code.elim
  compute code := code.elim

/-- The operation is performed, and its value forgotten. -/
def mislabelled.program : Program Scalar Unit Empty :=
  .next (.ground .int64) (.ofInstr ()) (.ofValue (.ground .int64) (3 : Int64))

/-- A run fails on the text with which its operation has answered, though nobody looks at it; and a
fork/join program that hands on a number through two fibers runs to its end. -/
theorem type_safety_of_erasure_relays :
    (∃ M' log, runFrom (0, []) ((Machine.start mislabelled.program).run
        (mislabelled.logged.handler (.ground .int64)) 3) =
          ((some (.error (.wrongType "i64")), M'), 1, log) ∧
      mislabelled.Accounted mislabelled.index (.ground .int64) (.start mislabelled.program) 3 0
        (some (.error (.wrongType "i64"))) 1 log) ∧
    ∃ (entries : List (Entry relay)) (scene : Scene relay Unit relay.Value),
      Trail (Incident relays) (start () [.interpret relay.number relay.program]) entries scene ∧
      scene.callers = [.ended (.ok (.of relay.number (7 : Int64)))] ∧
      scene.pool.get? ⟨1⟩ = some (.ended (.value (.of relay.number (7 : Int64)))) ∧
      (∀ who fault deeds, .did who (.raised fault) deeds ∈ entries → fault.Clean) ∧
      ∀ who action deeds, .did who (.handed ⟨1⟩ action) deeds ∈ entries →
        ∃ a, (Value.of relay.number (7 : Int64)).cast (relay.typing.yields action) = .ok a := by
  constructor
  · have htyped : mislabelled.Typed mislabelled.index := ⟨nofun, nofun⟩
    have hbuilt : mislabelled.program.Built mislabelled.index.rules (.ground .int64) :=
      .next (.ofInstr rfl) (.ofValue _ _ trivial)
    obtain ⟨log, hlog, haccounted⟩ :=
      type_safety_of_erasure.1 htyped hbuilt 3 0 (some (.error (.wrongType "i64"))) _ 1 rfl
    exact ⟨_, log, hlog, haccounted⟩
  · obtain ⟨deeds, moves⟩ := Config.trail_run relays 60
      (Config.start (.empty ()) (.interpret relay.number relay.program))
    obtain ⟨entries, story, -⟩ := story_of_moves moves
    have hstart : ∀ c ∈ [Comp.interpret relay.number relay.program],
        c.Sound relay.typing (.clean relay) (fun _ _ _ => True) ∅ .idle := by
      intro c hc
      obtain rfl := List.mem_singleton.mp hc
      have hprogram := relay.program_yields (L := .clean relay) trivial (fun _ => trivial) ∅
      exact (Comp.sound_interpret hprogram).mono subset_rfl fun _ _ _ _ _ _ => trivial
    obtain ⟨-, -, hraised, hread⟩ := type_safety_of_erasure.2 relays_clean rfl hstart story
    exact ⟨entries, _, story, rfl, rfl, hraised,
      fun who action deeds hentry => hread who ⟨1⟩ action deeds hentry _ rfl⟩

end Scene

end FiberPrograms
