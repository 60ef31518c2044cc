import FiberPrograms.Demo
import FiberPrograms.Proofs.Forecasts

/-!
# A chain of steps, however long

The second example program never stands there as a whole: each of its steps is put together by the
one before, until as many have been taken as were asked for. A round of the chain leaves one
continuation waiting, reports the number of steps taken so far, and hands that number to the
continuation, after which none is waiting. So what a run takes grows with the number of rounds, but
for its depth. A round is begun only while fewer steps have been taken than were asked for; so the
number of steps taken is never wrapped around, not even if as many are asked for as there can be.

## Main definitions

* `Session.StepsTo`: what a step of a machine comes to, given moves enough
* `Session.DrivesTo`: what a machine comes to that is driven to its end

## Main results

* `Session.stepsTo_ret`: a step that reports a value and hands it on
* `Demo.drivesTo_countFrom`: the rounds that are left, and what follows them
* `Demo.countdown_counts`: what a run of the whole chain takes
-/

namespace FiberPrograms

variable {S : Signature} {W : Type}

/-! ## Computations that nothing stands in the way of -/

/-- An observer that puts down each returned value once, and does nothing to fibers then. -/
def Observer.TellsReturns (observer : Observer S) : Prop :=
  ∀ outermost, (observer (.finished outermost)).PutsDown [.finished outermost]

/-- No policy has an observer do anything more about a returned value. -/
theorem Policy.tellsReturns_runtime (policy : Policy) (meaning : Meaning S) (level : Option Level)
    (effect : (e : S.Effect) → W → S.Reply e × W) :
    Observer.TellsReturns (policy.runtime meaning level effect).observer := by
  intro outermost
  have hreaction : (policy.reaction (.finished outermost) : Comp S Unit).PutsDown [] := by
    cases policy <;> exact .done
  exact .log (.note (hreaction.bind .done))

namespace Config

variable {α : Type} {R : Runtime S W} {pool pool' : Pool S W} {jobs : List (Job S)}
  {c c' : Comp S α}

/-- The main thread makes a move of its own. -/
theorem run_next (hreact : c.react R pool = (.next c' .none, pool')) (fuel : Nat) :
    run R (fuel + 1) ⟨pool, .running (.base c), [], jobs⟩ =
      run R fuel ⟨pool', .running (.base c'), [], jobs⟩ := by
  have htick : tick R ⟨pool, .running (.base c), [], jobs⟩ =
      (true, ⟨pool', .running (.base c'), [], jobs⟩) := by
    simp only [tick, moveJobs, Thread.move, hreact, launch]
  rw [run]
  simp only [htick]

/-- The main thread ends with its next move. -/
theorem run_done (a : α) (fuel : Nat) :
    run R (fuel + 1) ⟨pool, .running (.base (.done a)), [], jobs⟩ =
      ⟨pool, .ended (.ok a), [], jobs⟩ := by
  have htick : tick R ⟨pool, .running (.base (.done a)), [], jobs⟩ =
      (true, ⟨pool, .ended (.ok a), [], jobs⟩) := rfl
  rw [run]
  simp only [htick]
  cases fuel <;> rfl

variable (R jobs) in
/-- Putting down events takes some moves of the main thread, and none of anybody else. -/
theorem exists_run_putsDown {events : List Event} {note : Comp S Unit}
    (h : note.PutsDown events) (f : Except Fault Unit → Comp S α) (pool : Pool S W) :
    ∃ moves pool', pool'.events.toList = pool.events.toList ++ events ∧ ∀ fuel,
      run R (fuel + moves) ⟨pool, .running (.base (note.attempt.bind f)), [], jobs⟩ =
        run R fuel ⟨pool', .running (.base (f (.ok ()))), [], jobs⟩ := by
  induction h generalizing pool with
  | done => exact ⟨0, pool, by simp, fun _ => rfl⟩
  | @note event events k rest ih =>
    obtain ⟨moves, pool', hevents, hrun⟩ := ih { pool with events := pool.events.push event }
    exact ⟨moves + 1, pool', by simp [hevents], fun fuel => (run_next rfl _).trans (hrun fuel)⟩
  | @sight fiber events k rest ih =>
    obtain ⟨moves, pool', hevents, hrun⟩ := ih { pool with sighted := pool.sighted.push fiber }
    exact ⟨moves + 1, pool', hevents, fun fuel => (run_next rfl _).trans (hrun fuel)⟩
  | @log record events k rest ih =>
    obtain ⟨moves, pool', hevents, hrun⟩ := ih (pool.log R.level record)
    rw [Pool.events_log] at hevents
    exact ⟨moves + 1, pool', hevents, fun fuel => (run_next rfl _).trans (hrun fuel)⟩
  | @perform e events k rest ih =>
    rcases hreply : R.effect e pool.world with ⟨reply, world⟩
    obtain ⟨moves, pool', hevents, hrun⟩ := ih reply { pool with world := world }
    have hreact : ((Comp.ask (.perform e) k).attempt.bind f).react R pool =
        (.next ((k reply).attempt.bind f) .none, { pool with world := world }) := by
      simp only [Comp.attempt, Comp.bind, Comp.react, Pool.answer, hreply]
    exact ⟨moves + 1, pool', hevents, fun fuel => (run_next hreact _).trans (hrun fuel)⟩

end Config

namespace Session

variable {V Op K : Type}

/-! ## Steps and runs in a session -/

/-- Given moves enough, a step of a machine comes to that. -/
def StepsTo (R : Runtime S W) (h : Handler (Comp S) V Op K) (M : Machine V Op K)
    (session : Session S W) (progress : Progress V) (M' : Machine V Op K)
    (session' : Session S W) : Prop :=
  ∃ enough, ∀ fuel, enough ≤ fuel →
    session.step R h fuel M = (some (.ok progress), M', session')

/-- Given moves enough, a machine that is driven to its end comes to that value, and this is how far
it has been driven by then. -/
def DrivesTo (R : Runtime S W) (h : Handler (Comp S) V Op K) (mileage : Mileage)
    (M : Machine V Op K) (session : Session S W) (v : V) (mileage' : Mileage)
    (M' : Machine V Op K) (session' : Session S W) : Prop :=
  ∃ enough, ∀ fuel, enough ≤ fuel →
    session.drive R h fuel mileage M = (some (.ok v), mileage', M', session')

section Steps

variable {R : Runtime S W} {h : Handler (Comp S) V Op K} {M M₁ M' : Machine V Op K}
  {session session₁ session' : Session S W} {mileage mileage' : Mileage} {v : V}

/-- A step after which there is more, and what the machine is driven to from there. -/
theorem DrivesTo.more (hstep : StepsTo R h M session .more M₁ session₁)
    (hrest : DrivesTo R h ⟨mileage.steps + 1, max mileage.deepest M₁.depth⟩ M₁ session₁ v mileage'
      M' session') : DrivesTo R h mileage M session v mileage' M' session' := by
  obtain ⟨first, hstep⟩ := hstep
  obtain ⟨rest, hrest⟩ := hrest
  refine ⟨max first rest + 1, fun fuel hfuel => ?_⟩
  obtain ⟨fuel, rfl⟩ := Nat.exists_eq_add_of_le' (Nat.le_of_add_left_le hfuel)
  rw [drive, hstep fuel (by omega)]
  exact hrest fuel (by omega)

/-- The step with which a run ends. -/
theorem DrivesTo.last (hstep : StepsTo R h M session (.done v) M' session') :
    DrivesTo R h mileage M session v { mileage with steps := mileage.steps + 1 } M' session' := by
  obtain ⟨enough, hstep⟩ := hstep
  refine ⟨enough + 1, fun fuel hfuel => ?_⟩
  obtain ⟨fuel, rfl⟩ := Nat.exists_eq_add_of_le' (Nat.le_of_add_left_le hfuel)
  rw [drive, hstep fuel (by omega)]

/-- A step that asks for nothing. -/
theorem stepsTo_of_eq_done {progress : Progress V}
    (hstep : M.step h = .done (.ok progress, M')) :
    StepsTo R h M session progress M' session := by
  refine ⟨1, fun fuel hfuel => ?_⟩
  obtain ⟨fuel, rfl⟩ := Nat.exists_eq_add_of_le' hfuel
  rw [step, hstep, exec]
  simp only [Config.run_done, List.nil_append]

/-- The first program of a node is entered without asking for anything. -/
theorem stepsTo_andThen (first : Tree V Op K) (next : K) (pending : List K) :
    StepsTo R h ((first.andThen next).under pending) session .more
      (first.under (next :: pending)) session :=
  stepsTo_of_eq_done (Machine.step_andThen h first next pending)

end Steps

/-- A value is put down by the observer, and then it goes where it has to. -/
theorem stepsTo_ret {R : Runtime S W} (hobserver : R.observer.TellsReturns) {yields : Ty S.Base}
    {v : S.Value} {pending : List (Cont S.Base (ForkJoin S.Base S.Action) S.Code)}
    {progress : Progress S.Value} {M' : S.Machine} (session : Session S W)
    (hdeliver : ((Tree.ret v).under pending).deliver (R.handler yields) v =
      .done (.ok progress, M')) :
    ∃ session', StepsTo R (R.handler yields) ((Tree.ret v).under pending) session progress M'
        session' ∧ session'.jobs = session.jobs ∧
      session'.pool.events.toList = session.pool.events.toList ++ [.finished pending.isEmpty] := by
  obtain ⟨pool, jobs⟩ := session
  -- The step puts down the value first, and the rest of it is what happens to the answer.
  obtain ⟨after, hstep, hafter⟩ : ∃ after : Except Fault Unit → Comp S _,
      ((Tree.ret v).under pending).step (R.handler yields) =
        (R.observer (.finished pending.isEmpty)).attempt.bind after ∧
      after (.ok ()) = .done (.ok progress, M') := ⟨_, rfl, hdeliver⟩
  obtain ⟨moves, pool', hevents, hrun⟩ :=
    Config.exists_run_putsDown R jobs (hobserver pending.isEmpty) after pool
  refine ⟨⟨pool', jobs⟩, ⟨moves + 1, fun fuel hfuel => ?_⟩, rfl, hevents⟩
  obtain ⟨fuel, rfl⟩ := Nat.exists_eq_add_of_le hfuel
  have hover : Config.run R (fuel + 1 + moves)
      ⟨pool, .running (.base (((Tree.ret v).under pending).step (R.handler yields))), [], jobs⟩ =
      ⟨pool', .ended (.ok (.ok progress, M')), [], jobs⟩ := by
    rw [hstep, hrun (fuel + 1), hafter]
    exact Config.run_done _ fuel
  rw [step, exec, show moves + 1 + fuel = fuel + 1 + moves by omega, hover]
  rfl

end Session

namespace Demo

/-! ## Rounds of a chain -/

variable {W : Type} {R : Runtime signature W} {steps : UInt64}

/-- What the continuation of a round makes of the number of steps taken so far. -/
def another (steps done : UInt64) : signature.Program :=
  if steps ≤ done then .ofValue stepCount done else countFrom (done + 1) steps

theorem build_count (steps done : UInt64) :
    meaning.build (.count steps) (.of stepCount done) = .done (another steps done) := rfl

/-- A round that is begun by a continuation takes one step more than the one before it, and the
number of steps has not been wrapped around. -/
theorem toNat_of_another_eq {done next : UInt64} (h : another steps done = countFrom next steps) :
    next.toNat = done.toNat + 1 := by
  unfold another at h
  split at h
  · cases h
  · rename_i hmore
    have hfirst := (Tree.andThen.inj h).1
    have hnext : done + 1 = next := eq_of_heq (Value.mk.inj (Tree.ret.inj hfirst)).2
    have hless : done.toNat < steps.toNat := by
      simpa [UInt64.le_iff_toNat_le] using hmore
    have hsteps : steps.toNat < 2 ^ 64 := steps.toNat_lt
    rw [← hnext, UInt64.toNat_add, UInt64.toNat_one, Nat.mod_eq_of_lt (by omega)]

/-- The two steps of a round leave no continuation waiting. -/
theorem drivesTo_round (hmeaning : R.toMeaning = meaning) (hobserver : R.observer.TellsReturns)
    (done steps : UInt64) (session : Session signature W) :
    ∃ session₁ : Session signature W, session₁.jobs = session.jobs ∧
      session₁.pool.events.toList = session.pool.events.toList ++ [.finished false] ∧
      ∀ {mileage mileage' : Mileage} {v : signature.Value} {M' : signature.Machine}
        {session' : Session signature W},
        Session.DrivesTo R (R.handler stepCount) ⟨mileage.steps + 2, max mileage.deepest 1⟩
          ((another steps done).under []) session₁ v mileage' M' session' →
        Session.DrivesTo R (R.handler stepCount) mileage ((countFrom done steps).under []) session
          v mileage' M' session' := by
  have hresume : (R.handler stepCount).resume (.bind stepCount (.count steps))
      (.of stepCount done) = .done (.ok (another steps done)) := by
    have hbuild : R.build (.count steps) (.of stepCount done) = .done (another steps done) := by
      rw [hmeaning, build_count]
    exact congrArg Comp.attempt hbuild
  have hdeliver : ((Tree.ret (.of stepCount done)).under
      [.bind stepCount (.count steps)]).deliver (R.handler stepCount) (.of stepCount done) =
      .done (.ok .more, (another steps done).under []) := by
    rw [Machine.deliver_cons, hresume]
    rfl
  obtain ⟨session₁, hret, hjobs, hevents⟩ := Session.stepsTo_ret hobserver session hdeliver
  refine ⟨session₁, hjobs, hevents, fun {mileage _ _ _ _} hrest => ?_⟩
  refine .more (Session.stepsTo_andThen _ _ _) (.more hret ?_)
  -- The depth after the first of the two steps is one, and after the second it is zero.
  change Session.DrivesTo R (R.handler stepCount)
    ⟨mileage.steps + 2, max (max mileage.deepest 1) 0⟩ _ _ _ _ _ _
  rw [Nat.max_zero]
  exact hrest

/-- The value of the chain is reported as the outermost one. -/
theorem drivesTo_ofValue (hobserver : R.observer.TellsReturns) (done : UInt64) (mileage : Mileage)
    (session : Session signature W) :
    ∃ session' : Session signature W,
      Session.DrivesTo R (R.handler stepCount) mileage
        ((Program.ofValue stepCount done : signature.Program).under []) session
        (.of stepCount done) { mileage with steps := mileage.steps + 1 } (.idle []) session' ∧
      session'.jobs = session.jobs ∧
      session'.pool.events.toList = session.pool.events.toList ++ [.finished true] := by
  have hdeliver : ((Tree.ret (.of stepCount done)).under []).deliver (R.handler stepCount)
      (.of stepCount done) = .done (.ok (.done (.of stepCount done)), .idle []) := by
    have haccept : (R.handler stepCount).accept (.of stepCount done) = .ok (.of stepCount done) :=
      Value.check_self (τ := stepCount) done
    rw [Machine.deliver_nil, haccept]
    rfl
  obtain ⟨session', hret, hjobs, hevents⟩ := Session.stepsTo_ret hobserver session hdeliver
  exact ⟨session', .last hret, hjobs, hevents⟩

/-- All rounds of a chain that are left, and the report of its value. -/
theorem drivesTo_countFrom (hmeaning : R.toMeaning = meaning)
    (hobserver : R.observer.TellsReturns) (left : Nat) (done : UInt64)
    (hleft : steps.toNat = done.toNat + left) (mileage : Mileage)
    (session : Session signature W) :
    ∃ session' : Session signature W,
      Session.DrivesTo R (R.handler stepCount) mileage ((countFrom done steps).under []) session
        (.of stepCount steps) ⟨mileage.steps + (2 * left + 3), max mileage.deepest 1⟩ (.idle [])
        session' ∧
      session'.jobs = session.jobs ∧
      session'.pool.events.toList = session.pool.events.toList ++
        (List.replicate (left + 1) (.finished false) ++ [.finished true]) := by
  -- By induction on the rounds that are left; the count goes up to the bound, so it does not
  -- overflow.
  induction left generalizing done mileage session with
  | zero =>
    obtain rfl : done = steps := UInt64.toNat_inj.mp hleft.symm
    obtain ⟨session₁, hjobs₁, hevents₁, hround⟩ :=
      drivesTo_round hmeaning hobserver done done session
    have hstop : another done done = .ofValue stepCount done := if_pos (UInt64.le_refl done)
    obtain ⟨session', hend, hjobs, hevents⟩ :=
      drivesTo_ofValue hobserver done ⟨mileage.steps + 2, max mileage.deepest 1⟩ session₁
    exact ⟨session', hround (hstop ▸ hend), hjobs.trans hjobs₁, by simp [hevents, hevents₁]⟩
  | succ left ih =>
    obtain ⟨session₁, hjobs₁, hevents₁, hround⟩ :=
      drivesTo_round hmeaning hobserver done steps session
    have hmore : ¬steps ≤ done := by
      rw [UInt64.le_iff_toNat_le]
      omega
    have hnext : another steps done = countFrom (done + 1) steps := if_neg hmore
    have hdone : (done + 1).toNat = done.toNat + 1 := toNat_of_another_eq hnext
    obtain ⟨session', hrest, hjobs, hevents⟩ :=
      ih (done + 1) (by omega) ⟨mileage.steps + 2, max mileage.deepest 1⟩ session₁
    refine ⟨session', ?_, hjobs.trans hjobs₁, ?_⟩
    · have hsteps : mileage.steps + 2 + (2 * left + 3) = mileage.steps + (2 * (left + 1) + 3) := by
        omega
      have hdeepest : max (max mileage.deepest 1) 1 = max mileage.deepest 1 := by omega
      rw [← hnext] at hrest
      simpa only [hsteps, hdeepest] using hround hrest
    · rw [hevents, hevents₁, List.replicate_succ, List.append_assoc]
      rfl

/-- **What a chain takes.** Whatever number of steps is asked for, and be it the largest there is,
a chain that is driven step by step comes to its end and yields that number. There is one round
more than steps, each takes two steps of the machine, and with one step more the run ends; the
depth never exceeds one. Each round puts down a value within, and the last step the value of the
run; nothing else is put down. And a round that follows another has really one step more behind it:
the number of steps is never wrapped around. -/
theorem countdown_counts (hmeaning : R.toMeaning = meaning)
    (hobserver : R.observer.TellsReturns) (session : Session signature W) (steps : UInt64) :
    (∃ M session', Session.DrivesTo R (R.handler stepCount) {} (.start (countdown steps)) session
        (.of stepCount steps) ⟨2 * steps.toNat + 3, 1⟩ M session' ∧
      M.isDone = true ∧ session'.jobs = session.jobs ∧
      session'.pool.events.toList = session.pool.events.toList ++
        (List.replicate (steps.toNat + 1) (.finished false) ++ [.finished true])) ∧
    ∀ done next : UInt64,
      R.build (.count steps) (.of stepCount done) = .done (countFrom next steps) →
        next.toNat = done.toNat + 1 := by
  constructor
  · obtain ⟨session', hdrive, hjobs, hevents⟩ :=
      drivesTo_countFrom hmeaning hobserver steps.toNat 0 (Nat.zero_add _).symm {} session
    rw [Nat.zero_add] at hdrive
    exact ⟨.idle [], session', hdrive, rfl, hjobs, hevents⟩
  · intro done next hnext
    have hbuild : R.build (.count steps) (.of stepCount done) = .done (another steps done) := by
      rw [hmeaning, build_count]
    exact toNat_of_another_eq (Comp.done.inj (hbuild.symm.trans hnext))

/-- A chain of as many steps as can be asked for. -/
theorem countdown_counts_greatest :
    (runtime .newestFirst none).toMeaning = meaning ∧
      Observer.TellsReturns (runtime .newestFirst none).observer ∧
      ∃ M session', Session.DrivesTo (runtime .newestFirst none)
          ((runtime .newestFirst none).handler stepCount) {}
          (.start (countdown 18446744073709551615)) (.start ())
          (.of stepCount (18446744073709551615 : UInt64)) ⟨36893488147419103233, 1⟩ M session' ∧
        M.isDone = true ∧ session'.jobs = [] ∧
        session'.pool.events.size = 18446744073709551617 := by
  have hobserver : Observer.TellsReturns (runtime .newestFirst none).observer :=
    Policy.tellsReturns_runtime _ _ _ _
  obtain ⟨⟨M, session', hdrive, hdone, hjobs, hevents⟩, -⟩ :=
    countdown_counts rfl hobserver (.start ()) 18446744073709551615
  refine ⟨rfl, hobserver, M, session', hdrive, hdone, hjobs, ?_⟩
  have hcount : (18446744073709551615 : UInt64).toNat = 18446744073709551615 := rfl
  rw [← Array.length_toList, hevents, hcount, List.length_append, List.length_append,
    List.length_replicate]
  rfl

end Demo

end FiberPrograms
