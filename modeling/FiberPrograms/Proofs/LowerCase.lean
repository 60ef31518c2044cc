import FiberPrograms.Text.Case
import Mathlib.Data.List.Basic

/-!
# What lower case leaves alone

A text in lower case stays as it is when it is put in lower case once more. It does not matter for
that what stands around a character: the only letter whose lower case depends on others is the
capital sigma, and none of its lower cases is a capital letter.

## Main definitions

* `Text.IsLower`: characters that lower case leaves alone, wherever they stand
* `Text.LowerRun.misses`: no lower case of some capital letters is a capital letter of others

## Main results

* `Text.isLower_of_mem_lowerChar`: the lower case of a character is left alone
* `Text.lower_lower`: lower case is the same when it is applied again
-/

namespace FiberPrograms.Text

namespace LowerRun

/-- Whether a character is one of the capital letters. -/
def covers (run : LowerRun) (c : Char) : Bool :=
  run.first ≤ c.toNat && c.toNat ≤ run.last && (c.toNat - run.first) % run.step == 0

/-- The number of the first lower case. -/
def firstTarget (run : LowerRun) : Nat :=
  (run.first + run.shift).toNat

/-- The number of the last lower case. -/
def lastTarget (run : LowerRun) : Nat :=
  (run.last + run.shift).toNat

/-- No lower case of the capital letters is among some others: they come before or behind them, or
every other character is of one kind, and those between of the other. -/
def misses (run other : LowerRun) : Bool :=
  run.lastTarget < other.first || other.last < run.firstTarget ||
    ((run.step == 2 || run.first == run.last) && other.step == 2 &&
      (run.firstTarget + other.first) % 2 == 1)

theorem covers_eq_false_of_misses {run other : LowerRun} (h : run.misses other = true)
    (hshift : 0 ≤ run.first + run.shift) {c d : Char} (hc : run.covers c = true)
    (hd : d.toNat = (c.toNat + run.shift).toNat) : other.covers d = false := by
  rw [Bool.eq_false_iff]
  intro hother
  simp only [covers, Bool.and_eq_true, decide_eq_true_eq, beq_iff_eq] at hc hother
  simp only [misses, Bool.or_eq_true, Bool.and_eq_true, decide_eq_true_eq, beq_iff_eq] at h
  simp only [firstTarget, lastTarget] at h
  obtain ⟨⟨hfirst, hlast⟩, hstep⟩ := hc
  obtain ⟨⟨hfirst', hlast'⟩, hstep'⟩ := hother
  obtain (hbefore | hbehind) | ⟨⟨htwo | hone, htwo'⟩, hparity⟩ := h
  · omega
  · omega
  · -- Both take every other character, and the first ones are an odd number apart.
    rw [htwo] at hstep
    rw [htwo'] at hstep'
    omega
  · rw [htwo'] at hstep'
    omega

end LowerRun

/-- The capital letter that becomes two characters, on its own. -/
def dottedRun : LowerRun := ⟨0x130, 0x130, 1, 0⟩

theorem misses_of_mem :
    (lowerRuns.all fun run => (dottedRun :: lowerRuns).all run.misses) = true := by
  decide +kernel

theorem shift_of_mem : ∀ run ∈ lowerRuns, 0 ≤ run.first + run.shift := by
  decide +kernel

/-- Lower case leaves a character alone, wherever it stands. -/
def IsLower (c : Char) : Prop :=
  c ≠ 'Σ' ∧ lowerChar c = [c]

instance (c : Char) : Decidable (IsLower c) :=
  inferInstanceAs (Decidable (_ ∧ _))

theorem lowerChar_eq (c : Char) : lowerChar c =
    if c = '\u0130' then ['i', '\u0307']
    else
      match lowerRuns.find? (·.covers c) with
      | some run => [Char.ofNat (c.toNat + run.shift).toNat]
      | none => [c] := by
  simp only [lowerChar, beq_iff_eq]
  rfl

/-- What is no capital letter is left alone. -/
theorem isLower_of_covers {c : Char} (h : ∀ run ∈ dottedRun :: lowerRuns, run.covers c = false) :
    IsLower c := by
  have hruns : ∀ run ∈ lowerRuns, run.covers c = false := fun run hrun =>
    h run (List.mem_cons_of_mem _ hrun)
  have hfind : lowerRuns.find? (·.covers c) = none := by simpa using hruns
  refine ⟨?_, ?_⟩
  · rintro rfl
    exact absurd hruns (by decide +kernel)
  · have hdotted : c ≠ '\u0130' := by
      rintro rfl
      exact absurd (h dottedRun List.mem_cons_self) (by decide)
    rw [lowerChar_eq, if_neg hdotted, hfind]

/-- The lower case of a character is left alone. -/
theorem isLower_of_mem_lowerChar {c d : Char} (h : d ∈ lowerChar c) : IsLower d := by
  rw [lowerChar_eq] at h
  split at h
  next =>
    obtain rfl | rfl : d = 'i' ∨ d = '\u0307' := by simpa using h
    · decide +kernel
    · decide +kernel
  next hdotted =>
    split at h
    next run hfind =>
      obtain rfl := List.mem_singleton.mp h
      have hrun := List.mem_of_find?_eq_some hfind
      have hcovers := List.find?_some hfind
      have hmisses := List.all_eq_true.mp misses_of_mem run hrun
      by_cases hvalid : (c.toNat + run.shift).toNat.isValidChar
      · -- By the table, no run covers what another one gives.
        refine isLower_of_covers fun other hother => ?_
        exact LowerRun.covers_eq_false_of_misses (List.all_eq_true.mp hmisses other hother)
          (shift_of_mem run hrun) hcovers (by rw [Char.ofNat, dif_pos hvalid]; rfl)
      · -- What is no character becomes the first one there is, which is left alone.
        rw [Char.ofNat, dif_neg hvalid]
        decide +kernel
    next hfind =>
      obtain rfl := List.mem_singleton.mp h
      refine isLower_of_covers fun run hrun => ?_
      -- No run covers the character, apart from that of the dotted letter, which it is not.
      obtain rfl | hrun := List.mem_cons.mp hrun
      · rw [Bool.eq_false_iff]
        intro hcovers
        simp only [LowerRun.covers, Bool.and_eq_true, decide_eq_true_eq] at hcovers
        exact hdotted (Char.toNat_inj.mp (Nat.le_antisymm hcovers.1.2 hcovers.1.1))
      · simpa using List.find?_eq_none.mp hfind run hrun

theorem isLower_of_mem_lowerAfter {before cs : List Char} {d : Char}
    (h : d ∈ lowerAfter before cs) : IsLower d := by
  -- What stands before a character only decides between the two sigmas, so anything may.
  induction cs generalizing before with
  | nil => cases h
  | cons c cs ih =>
    rw [lowerAfter] at h
    obtain h | h := List.mem_append.mp h
    · split at h
      next =>
        have hsigma : d = 'ς' ∨ d = 'σ' := by
          obtain rfl := List.mem_singleton.mp h
          split
          · exact .inl rfl
          · exact .inr rfl
        obtain rfl | rfl := hsigma <;> decide +kernel
      next => exact isLower_of_mem_lowerChar h
    · exact ih h

theorem lowerAfter_of_isLower {before cs : List Char} (h : ∀ c ∈ cs, IsLower c) :
    lowerAfter before cs = cs := by
  induction cs generalizing before with
  | nil => rfl
  | cons c cs ih =>
    obtain ⟨hsigma, hc⟩ := h c List.mem_cons_self
    have hrest : lowerAfter (c :: before) cs = cs :=
      ih fun d hd => h d (List.mem_cons_of_mem c hd)
    simp [lowerAfter, hsigma, hc, hrest]

/-- **Lower case is the same when it is applied again.** -/
theorem lower_lower (s : String) : lower (lower s) = lower s := by
  simp only [lower, String.toList_ofList]
  rw [lowerAfter_of_isLower fun c hc => isLower_of_mem_lowerAfter hc]

end FiberPrograms.Text
