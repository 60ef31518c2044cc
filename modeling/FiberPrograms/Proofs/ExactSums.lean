import FiberPrograms.Demo
import FiberPrograms.Proofs.ForetoldPrograms

/-!
# The sum of two actions is exact

The first example program forks two actions, awaits both and adds their numbers. It yields their
sum as it is among the integers, or it fails since that is out of range. It never yields a sum that
has been wrapped around, and neither delays nor schedules make a difference.

## Main definitions

* `Demo.Plan.exact`: the sum of the two numbers as integers
* `Demo.Plan.Sums`: how a run has ended

## Main results

* `Demo.exists_addExact`, `Demo.addExact_of_outside`: numbers are added exactly or not at all
* `Demo.sum_exact`: so the program yields the exact sum or fails
-/

namespace FiberPrograms.Demo

open Program

/-! ## Adding two numbers -/

/-- Whether an integer is one of the numbers. -/
def InRange (exact : Int) : Prop :=
  Int64.minValue.toInt ≤ exact ∧ exact ≤ Int64.maxValue.toInt

instance (exact : Int) : Decidable (InRange exact) :=
  inferInstanceAs (Decidable (_ ∧ _))

/-- What is added within the range is not wrapped around. -/
theorem exists_addExact {a b : Int64} (h : InRange (a.toInt + b.toInt)) :
    ∃ total : Int64, addExact a b = .ok total ∧ total.toInt = a.toInt + b.toInt := by
  refine ⟨a + b, if_pos h, ?_⟩
  obtain ⟨hlow, hhigh⟩ := h
  rw [Int64.toInt_add]
  rw [Int64.toInt_minValue] at hlow
  rw [Int64.toInt_maxValue] at hhigh
  exact Int.bmod_eq_of_le (by omega) (by omega)

/-- What is out of range is not added. -/
theorem addExact_of_outside {a b : Int64} (h : ¬ InRange (a.toInt + b.toInt)) :
    addExact a b = .error (.literal "attempt to add with overflow") :=
  if_neg h

/-! ## The program -/

section Code

variable (action : Action) (left right : Int64) (fiber : FiberId)

theorem build_forkRight : meaning.build (.forkRight action) (.of (.fiber number) fiber) =
    .done (Program.bind (.fiber number) (ofInstr (.forkAt .remote number action))
      (.awaitLeft fiber)) := rfl

theorem build_awaitLeft (other : FiberId) :
    meaning.build (.awaitLeft fiber) (.of (.fiber number) other) =
      .done (Program.bind number (ofInstr (.await fiber)) (.awaitRight other)) := rfl

theorem build_awaitRight : meaning.build (.awaitRight fiber) (.of number left) =
    .done (Program.map number (ofInstr (.await fiber)) (.addTo left)) := rfl

theorem compute_addTo : meaning.compute (.addTo left) (.of number right) =
    .ofExcept ((addExact left right).map (.of number)) := by
  change Comp.ofExcept ((addExact left right).bind fun total => .ok (Value.of number total)) = _
  cases addExact left right <;> rfl

end Code

namespace Plan

variable {W : Type} (plan : Plan) (base : Pool signature W)

/-- The sum of the two numbers as integers. -/
def exact : Int :=
  plan.left.toInt + plan.right.toInt

/-- The action that yields the left number. -/
def leftAction : signature.Action :=
  Action.mk plan.left plan.leftDelay

/-- The action that yields the right number. -/
def rightAction : signature.Action :=
  Action.mk plan.right plan.rightDelay

/-- The left number is to be found out. -/
def leftErrand : Errand signature :=
  ⟨⟨base.fibers.size⟩, plan.leftAction, .ok (.of number plan.left)⟩

/-- The right number is to be found out. -/
def rightErrand : Errand signature :=
  ⟨⟨base.fibers.size + 1⟩, plan.rightAction, .ok (.of number plan.right)⟩

/-- What is known once both fibers have been forked. -/
def forked : Ledger signature :=
  (base.ledger.fork .here plan.leftAction (plan.leftErrand base).outcome).fork .remote
    plan.rightAction (plan.rightErrand base).outcome

/-- What is known once both fibers have been forked and awaited. -/
def ledger : Ledger signature :=
  ((plan.forked base).note (.await ⟨base.fibers.size⟩)).note (.await ⟨base.fibers.size + 1⟩)

theorem errands_ledger :
    (plan.ledger base).errands = [plan.leftErrand base, plan.rightErrand base] :=
  rfl

theorem events_ledger : (plan.ledger base).events = base.events.toList ++
    [.fork ⟨base.fibers.size⟩ .here, .fork ⟨base.fibers.size + 1⟩ .remote,
      .await ⟨base.fibers.size⟩, .await ⟨base.fibers.size + 1⟩] := by
  simp [ledger, forked, Pool.ledger]

/-- All is over: the run has ended with an outcome, after certain events; both actions have been
handed over, and each has been run once. -/
structure Sums (outcome : Except Fault (Value Scalar)) (closing : List Event)
    (scene : Scene signature W (Value Scalar)) (deeds : List (Deed signature)) : Prop where
  callers : scene.callers = [.ended outcome]
  jobs : scene.jobs = []
  queue : scene.pool.queue = #[]
  events : scene.pool.events.toList = base.events.toList ++
    [.fork ⟨base.fibers.size⟩ .here, .fork ⟨base.fibers.size + 1⟩ .remote,
      .await ⟨base.fibers.size⟩, .await ⟨base.fibers.size + 1⟩] ++ closing
  handed : deeds.filter Deed.isHanded =
    [.handed ⟨base.fibers.size⟩ plan.leftAction, .handed ⟨base.fibers.size + 1⟩ plan.rightAction]
  left : Deed.lifeline ⟨base.fibers.size⟩ deeds =
    [.handed ⟨base.fibers.size⟩ plan.leftAction, .begun ⟨base.fibers.size⟩,
      .ended ⟨base.fibers.size⟩ (.ok (.of number plan.left))]
  right : Deed.lifeline ⟨base.fibers.size + 1⟩ deeds =
    [.handed ⟨base.fibers.size + 1⟩ plan.rightAction, .begun ⟨base.fibers.size + 1⟩,
      .ended ⟨base.fibers.size + 1⟩ (.ok (.of number plan.right))]

variable {plan base}

/-- What the ledger says is what the scene shows in the end. -/
theorem sums_of_fulfils {outcome : Except Fault (Value Scalar)} {closing : List Event}
    {scene : Scene signature W (Value Scalar)} {deeds : List (Deed signature)}
    (h : scene.Fulfils ((plan.ledger base).notes closing) outcome deeds) :
    plan.Sums base outcome closing scene deeds where
  callers := h.callers
  jobs := h.jobs
  queue := h.queue
  events := by rw [h.events, Ledger.events_notes, events_ledger]
  handed := h.handed
  left := h.lifeline (plan.leftErrand base) (by simp [errands_ledger])
  right := h.lifeline (plan.rightErrand base) (by simp [errands_ledger])

/-- Once both fibers have been awaited, what is left to be foretold is the addition. -/
theorem forecast_sum {I : Interpreter signature} (hmeaning : I.toMeaning = meaning)
    (hobserver : I.observer.Faithful) {L' : Ledger signature}
    {outcome : Except Fault (Value Scalar)}
    (rest : (I.goOn number [.map number (.addTo plan.left)] (.of number plan.right)).Forecast I base
      (plan.ledger base) L' outcome) :
    (I.turn number (.start (sum plan))).Forecast I base base.ledger L' outcome := by
  rw [← Tree.under_nil]
  have hleft : (I.act plan.leftAction).Settles base (plan.leftErrand base).outcome := by
    rw [hmeaning]
    exact .done _
  have hright : (I.act plan.rightAction).Settles base (plan.rightErrand base).outcome := by
    rw [hmeaning]
    exact .done _
  refine forecast_andThen (comesTo_fork hobserver .here number hleft _ _ _ _ ?_)
  refine forecast_bind (hmeaning ▸ build_forkRight ..) ?_
  refine forecast_andThen (comesTo_fork hobserver .remote number hright _ _ _ _ ?_)
  refine forecast_bind (hmeaning ▸ build_awaitLeft ..) ?_
  have hmem : plan.leftErrand base ∈ (plan.forked base).errands := List.mem_cons_self
  refine forecast_andThen (comesTo_await hobserver hmem rfl _ _ _ _ ?_)
  refine forecast_bind (hmeaning ▸ build_awaitRight ..) ?_
  have hmem' : plan.rightErrand base ∈
      ((plan.forked base).note (.await ⟨base.fibers.size⟩)).errands :=
    List.mem_cons_of_mem _ List.mem_cons_self
  exact forecast_andThen (comesTo_await hobserver hmem' rfl _ _ _ _ rest)

end Plan

variable {W : Type} {R : Runtime signature W} {base : Pool signature W}

/-- **The sum is exact or there is none.** Whatever the two numbers and delays, whatever becomes of
jobs, unless they are thrown away, and in whatever order threads move and jobs begin, the run
inevitably comes to its end. If the sum of the two integers is in range, then that is what it
yields; if not, it fails and says so. Either way it has first reported two forks and two awaits, and
both actions have been run exactly once; that it has finished is reported only if it yields
something. -/
theorem sum_exact (hmeaning : R.toMeaning = meaning) (hobserver : R.observer.Faithful)
    (hspawner : R.spawner ≠ .discarding) {world : W} {before : List (Deed signature)}
    (story : Trail (Scene.Step R) (.opening world) before
      (⟨base, [], []⟩ : Scene signature W (Value Scalar)))
    (hqueue : base.queue = #[]) (plan : Plan) :
    Inevitable (Scene.Move R)
      (fun scene deeds =>
        (InRange plan.exact → ∃ total : Int64, total.toInt = plan.exact ∧
          plan.Sums base (.ok (.of number total)) [.finished true] scene deeds) ∧
        (¬ InRange plan.exact →
          plan.Sums base (.error (.literal "attempt to add with overflow")) [] scene deeds))
      ⟨base, [.running (.base (.interpret number (sum plan)))], []⟩ [] := by
  by_cases hrange : InRange plan.exact
  · obtain ⟨total, hadd, htotal⟩ := exists_addExact hrange
    have hcompute : R.compute (.addTo plan.left) (.of number plan.right) =
        .done (.of number total) := by
      rw [hmeaning, compute_addTo, hadd]
      rfl
    have hforecast : (R.turn number (.start (sum plan))).Forecast R.toInterpreter base base.ledger
        ((plan.ledger base).notes [.finished true]) (.ok (.of number total)) :=
      plan.forecast_sum hmeaning hobserver
        (forecast_map hcompute (forecast_ofValue hobserver forecast_nil))
    refine (hforecast.run hspawner story hqueue).mono fun scene deeds h => ?_
    exact ⟨fun _ => ⟨total, htotal, Plan.sums_of_fulfils h⟩, absurd hrange⟩
  · have hcompute : R.compute (.addTo plan.left) (.of number plan.right) =
        .fail (.literal "attempt to add with overflow") := by
      rw [hmeaning, compute_addTo, addExact_of_outside hrange]
      rfl
    have hforecast : (R.turn number (.start (sum plan))).Forecast R.toInterpreter base base.ledger
        ((plan.ledger base).notes []) (.error (.literal "attempt to add with overflow")) := by
      rw [Ledger.notes_nil]
      exact plan.forecast_sum hmeaning hobserver (forecast_map_fail hcompute)
    refine (hforecast.run hspawner story hqueue).mono fun scene deeds h => ?_
    exact ⟨fun hrange' => absurd hrange' hrange, fun _ => Plan.sums_of_fulfils h⟩

/-- The greatest number is still a sum, and the next one is none. -/
theorem sum_exact_boundary :
    Inevitable (Scene.Move (runtime .background none))
        (Plan.Sums ⟨Int64.maxValue, 0, 0, 5⟩ (.empty ()) (.ok (.of number Int64.maxValue))
          [.finished true])
        ⟨.empty (), [.running (.base (.interpret number (sum ⟨Int64.maxValue, 0, 0, 5⟩)))], []⟩ [] ∧
      Inevitable (Scene.Move (runtime .background none))
        (Plan.Sums ⟨Int64.maxValue, 1, 5, 0⟩ (.empty ())
          (.error (.literal "attempt to add with overflow")) [])
        ⟨.empty (), [.running (.base (.interpret number (sum ⟨Int64.maxValue, 1, 5, 0⟩)))], []⟩
        [] := by
  have hobserver : (runtime .background none).observer.Faithful :=
    Policy.faithful_runtime (by decide) meaning none _
  have story : Trail (Scene.Step (runtime .background none)) (.opening ()) []
      (⟨.empty (), [], []⟩ : Scene signature Unit (Value Scalar)) := .refl
  have hgoal := sum_exact rfl hobserver (by decide) story rfl
  refine ⟨(hgoal _).mono fun scene deeds h => ?_, (hgoal _).mono fun scene deeds h => ?_⟩
  · obtain ⟨total, htotal, hsums⟩ := h.1 (by decide)
    obtain rfl : total = Int64.maxValue := Int64.toInt_inj.mp htotal
    exact hsums
  · exact h.2 (by decide)

end FiberPrograms.Demo
