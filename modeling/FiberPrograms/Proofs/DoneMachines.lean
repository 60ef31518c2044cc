import FiberPrograms.Proofs.FinishedMachines

/-!
# What it says of a machine that it is done

A machine says that it is done if it has nothing left to evaluate. A step takes its node before
anything is performed, reported or resumed, so the node is gone even if that fails. Hence a machine
is done from its last step on, whatever that step has answered: with the value of its program, or
with a fault, be it that continuations still wait. That a machine is done tells that its program has
yielded a value just if no step has failed before.

## Main results

* `Machine.Drives.isDone_iff`: a machine is done once an answer was not that there is more
* `Machine.isDone_iff_ended`: and what that tells of its program
* `Machine.done_without_value`: a machine that is done, and whose program has yielded no value
-/

namespace FiberPrograms

variable {V Op K σ : Type}

namespace Machine

variable {h : Handler (StateM σ) V Op K} {M M' : Machine V Op K} {s s' : σ}
  {exchanges before later : List (Drive × Except Fault (Progress V))}

/-- A program has yielded its value in one of these exchanges. -/
def Yielded (exchanges : List (Drive × Except Fault (Progress V))) : Prop :=
  ∃ exchange ∈ exchanges, ∃ v, exchange.2 = .ok (.done v)

theorem isDone_iff : M.isDone ↔ M.current = none := by
  rw [isDone, Option.isNone_iff_eq_none]

/-- A machine that is driven over and over can be stopped in between. -/
theorem Drives.split (drives : Drives h (before ++ later) M s M' s') :
    ∃ M₁ s₁, Drives h before M s M₁ s₁ ∧ Drives h later M₁ s₁ M' s' := by
  induction before generalizing M s with
  | nil => exact ⟨M, s, .nil, drives⟩
  | cons exchange before ih =>
    cases drives with
    | cons driven rest =>
      obtain ⟨M₁, s₁, hbefore, hlater⟩ := ih rest
      exact ⟨M₁, s₁, .cons driven hbefore, hlater⟩

/-- The first answer that is not that there is more comes with the end of the machine. -/
theorem Drives.isDone_iff (drives : Drives h exchanges M s M' s') (here : M.current ≠ none) :
    M'.isDone ↔ ∃ exchange ∈ exchanges, exchange.2 ≠ .ok .more := by
  induction drives with
  | nil => simpa [Machine.isDone_iff] using here
  | @cons drive answer later M M₁ M' s s₁ s' driven rest ih =>
    by_cases hmore : answer = .ok .more
    · subst hmore
      have here₁ : M₁.current ≠ none :=
        (Drives.cons driven .nil).current_ne_none here (by simp)
      rw [ih here₁]
      simp
    · obtain ⟨hfinished, -⟩ := driven.exists_stops here hmore
      obtain ⟨-, rfl, -⟩ := (drives_of_finished hfinished).mp rest
      exact iff_of_true (Machine.isDone_iff.mpr hfinished) ⟨_, List.mem_cons_self, hmore⟩

/-- Nothing is yielded any more once a machine is done. -/
theorem Drives.not_yielded_of_isDone (drives : Drives h later M s M' s') (done : M.isDone) :
    ¬ Yielded later := by
  rintro ⟨exchange, hmem, v, hyielded⟩
  have hfault := ((drives_of_finished (Machine.isDone_iff.mp done)).mp drives).1 exchange hmem
  cases hyielded.symm.trans hfault

/-- A value that is yielded comes before all failures. -/
theorem Drives.yielded_before {drive : Drive} {fault : Fault}
    (drives : Drives h (before ++ (drive, .error fault) :: later) M s M' s')
    (here : M.current ≠ none) (yielded : Yielded (before ++ (drive, .error fault) :: later)) :
    Yielded before := by
  have drives : Drives h ((before ++ [(drive, .error fault)]) ++ later) M s M' s' := by
    simpa using drives
  obtain ⟨M₁, s₁, hbefore, hlater⟩ := drives.split
  have hdone : M₁.isDone := (hbefore.isDone_iff here).mpr ⟨(drive, .error fault), by simp, by simp⟩
  obtain ⟨exchange, hmem, v, hv⟩ := yielded
  obtain hmem | rfl | hmem : exchange ∈ before ∨ exchange = (drive, .error fault) ∨
      exchange ∈ later := by simpa using hmem
  · exact ⟨exchange, hmem, v, hv⟩
  · cases hv
  · exact absurd ⟨exchange, hmem, v, hv⟩ (hlater.not_yielded_of_isDone hdone)

/-- **What it tells that a machine is done.** Let a machine at the root of a program be driven in
any way, by single steps or by runs to the end, whoever drives it catching all faults. It says that
it is done just if some answer so far was not that there is more: it was the value of the program,
or a fault. So what it says is whether the program has yielded its value, just if no failure has
come before the value. -/
theorem isDone_iff_ended (h : Handler (StateM σ) V Op K) (tree : Tree V Op K) (s : σ)
    {exchanges : List (Drive × Except Fault (Progress V))} {M : Machine V Op K} {s' : σ}
    (drives : Drives h exchanges (start tree) s M s') :
    (M.isDone ↔ ∃ exchange ∈ exchanges, exchange.2 ≠ .ok .more) ∧
    ((M.isDone ↔ Yielded exchanges) ↔ ∀ before drive fault later,
      exchanges = before ++ (drive, .error fault) :: later → Yielded before) := by
  have here : (start tree : Machine V Op K).current ≠ none := by simp [start]
  have hdone := drives.isDone_iff here
  refine ⟨hdone, ?_⟩
  constructor
  · rintro htells before drive fault later rfl
    have hended : M.isDone := hdone.mpr ⟨(drive, .error fault), by simp, by simp⟩
    exact drives.yielded_before here (htells.mp hended)
  · intro hfailures
    rw [hdone]
    constructor
    · rintro ⟨⟨drive, answer⟩, hmem, hended⟩
      rcases answer with fault | progress
      · -- Whatever has failed, the value had been yielded before.
        obtain ⟨before, later, rfl⟩ := List.append_of_mem hmem
        obtain ⟨exchange, hearlier, hv⟩ := hfailures before drive fault later rfl
        exact ⟨exchange, List.mem_append_left _ hearlier, hv⟩
      · cases progress with
        | more => exact absurd rfl hended
        | done v => exact ⟨_, hmem, v, rfl⟩
    · rintro ⟨exchange, hmem, v, hv⟩
      exact ⟨exchange, hmem, by simp [hv]⟩

/-- A machine that has yielded its value and is stepped once more. -/
theorem isDone_iff_ended_twice :
    ∃ M, Drives jamming [(.step, .ok (.done 7)), (.step, .error .machineFinished)]
      (start (.instr true)) 0 M 1 ∧ M.isDone := by
  have hdrives : Drives jamming [(.step, .ok (.done 7)), (.step, .error .machineFinished)]
      (start (.instr true)) 0 (.idle []) 1 := .cons (.step rfl) (.cons (.step rfl) .nil)
  exact ⟨_, hdrives, (isDone_iff_ended jamming _ 0 hdrives).1.mpr ⟨_, List.mem_cons_self, by simp⟩⟩

/-- It is not so that a machine is done just if its program has yielded a value: here the operation
cannot be performed, the continuation goes on waiting, and the machine says that it is done. -/
theorem done_without_value :
    ∃ M, Drives jamming [(.step, .ok .more), (.step, .error (.literal "jammed"))]
      (start ((Tree.instr false).andThen ())) 0 M 1 ∧ M.isDone = true ∧ M.depth = 1 ∧
      ¬ Yielded [((.step : Drive), (.ok .more : Except Fault (Progress Nat))),
        (.step, .error (.literal "jammed"))] :=
  ⟨.idle [()], .cons (.step rfl) (.cons (.step rfl) .nil), rfl, rfl, by simp [Yielded]⟩

end Machine

end FiberPrograms
