import FiberPrograms.Proofs.FinishedMachines
import Mathlib.Order.Bounds.Image

/-!
# How deep a run goes

A program that is evaluated as a part of another has more continuations waiting under it than it has
by itself, as many more in each of its states. For a handler that does not look at their number,
that is all the difference that it makes. So the depths through which a run goes are those of its
first program by itself, raised by what waits under that, and those of the program that is made of
its value.

## Main definitions

* `Handler.IgnoresDepth`: the handler does not look at how many continuations wait
* `Machine.depths`: how many wait in the states of a run
* `Machine.Peaks`: the most that wait in a state of a run

## Main results

* `Machine.depths_under_cons`: the depths of a run under waiting continuations
* `Machine.peaks_under_cons`: the peak of a run under waiting continuations
* `Machine.exists_peaks`: a program that comes to a value has a peak
-/

namespace FiberPrograms

variable {V Op K σ : Type}

/-- By itself a program is evaluated with nothing waiting. -/
theorem Tree.under_nil (tree : Tree V Op K) : tree.under [] = Machine.start tree := rfl

/-- The handler does not look at how many continuations wait. -/
def Handler.IgnoresDepth (h : Handler (StateM σ) V Op K) : Prop :=
  ∀ depth depth' op, h.handle depth op = h.handle depth' op

namespace Machine

variable {h : Handler (StateM σ) V Op K} {M M₁ : Machine V Op K} {s s₁ s₂ s' : σ}
  {tree first node made : Tree V Op K} {next : K} {rest : List K} {v : V} {depth d d' n : Nat}
  {outermost : Bool} {op : Op}

/-- How many continuations wait in the states of a run, the one from which it starts included. -/
def depths (h : Handler (StateM σ) V Op K) (M : Machine V Op K) (s : σ) : Set Nat :=
  {n | ∃ nodes M' s', Walks h M s nodes M' s' ∧ M'.depth = n}

/-- The most continuations that wait in a state of a run. -/
def Peaks (h : Handler (StateM σ) V Op K) (M : Machine V Op K) (s : σ) (d : Nat) : Prop :=
  IsGreatest (depths h M s) d

theorem depth_mem_depths : M.depth ∈ depths h M s :=
  ⟨[], M, s, .here, rfl⟩

theorem Peaks.unique (hpeak : Peaks h M s d) (hpeak' : Peaks h M s d') : d = d' :=
  IsGreatest.unique hpeak hpeak'

/-! ## Single steps -/

/-- A step after which there is more leads to the depths of what follows. -/
theorem depths_of_more (here : M.current = some node)
    (step : runFrom s (M.step h) = ((.ok .more, M₁), s₁)) :
    depths h M s = insert M.depth (depths h M₁ s₁) := by
  ext n
  constructor
  · rintro ⟨nodes, M', s', hwalk, rfl⟩
    cases hwalk with
    | here => exact .inl rfl
    | last here' step' ended =>
      rw [step] at step'
      cases step'
      exact absurd rfl ended
    | more here' step' walk =>
      rw [step] at step'
      cases step'
      exact .inr ⟨_, M', s', walk, rfl⟩
  · rintro (rfl | ⟨nodes, M', s', hwalk, rfl⟩)
    · exact depth_mem_depths
    · exact ⟨node :: nodes, M', s', .more here step hwalk, rfl⟩

/-- The last step leads to the depth at which it stops. -/
theorem depths_of_last {answer : Except Fault (Progress V)} (here : M.current = some node)
    (step : runFrom s (M.step h) = ((answer, M₁), s₁)) (ended : answer ≠ .ok .more) :
    depths h M s = {M.depth, M₁.depth} := by
  ext n
  constructor
  · rintro ⟨nodes, M', s', hwalk, rfl⟩
    cases hwalk with
    | here => exact .inl rfl
    | last here' step' ended' =>
      rw [step] at step'
      cases step'
      exact .inr rfl
    | more here' step' walk =>
      rw [step] at step'
      cases step'
      exact absurd rfl ended
  · rintro (rfl | rfl)
    · exact depth_mem_depths
    · exact ⟨[node], M₁, s₁, .last here step ended, rfl⟩

/-- Where a node is entered one more continuation waits from then on. -/
theorem depths_andThen :
    depths h ((first.andThen next).under rest) s =
      insert rest.length (depths h (first.under (next :: rest)) s) :=
  depths_of_more rfl (by rw [step_andThen]; rfl)

/-- What is deepest under a node is deeper than the node. -/
theorem peaks_andThen_iff :
    Peaks h ((first.andThen next).under rest) s d ↔ Peaks h (first.under (next :: rest)) s d := by
  rw [Peaks, Peaks, depths_andThen]
  have hdeeper : rest.length ≤ (first.under (next :: rest)).depth := Nat.le_succ _
  have hmem : (first.under (next :: rest)).depth ∈ depths h (first.under (next :: rest)) s :=
    depth_mem_depths
  constructor
  · rintro ⟨rfl | hd, hle⟩
    · exact absurd (hle (.inr hmem)) (Nat.not_succ_le_self _)
    · exact ⟨hd, fun n hn => hle (.inr hn)⟩
  · rintro ⟨hd, hle⟩
    refine ⟨.inr hd, ?_⟩
    rintro n (rfl | hn)
    · exact hdeeper.trans (hle hmem)
    · exact hle hn

theorem step_ret_more (told : runFrom s (h.onReturn false) = (.ok (), s₁))
    (resumed : runFrom s₁ (h.resume next v) = (.ok made, s₂)) :
    runFrom s (((Tree.ret v).under (next :: rest)).step h) = ((.ok .more, made.under rest), s₂) := by
  rw [step_ret, runFrom_bind, List.isEmpty_cons, told]
  simp only [deliver_cons, runFrom_bind, resumed, runFrom_pure]

theorem step_instr_more
    (performed : runFrom s (h.handle (next :: rest).length op) = (.ok v, s₁))
    (resumed : runFrom s₁ (h.resume next v) = (.ok made, s₂)) :
    runFrom s (((Tree.instr op).under (next :: rest)).step h) =
      ((.ok .more, made.under rest), s₂) := by
  rw [step_instr, runFrom_bind, performed]
  simp only [deliver_cons, runFrom_bind, resumed, runFrom_pure]

/-- A program that yields a value at once waits for nothing, however its run ends. -/
theorem depths_start_ret : depths h (start (.ret v)) s = {0} := by
  rcases htold : runFrom s (h.onReturn true) with ⟨told, s₁⟩
  have step : ∃ answer, runFrom s ((start (.ret v) : Machine V Op K).step h) =
      ((answer, idle []), s₁) ∧ answer ≠ .ok .more := by
    change ∃ answer, runFrom s (((Tree.ret v).under []).step h) = _ ∧ _
    rw [step_ret, runFrom_bind, List.isEmpty_nil, htold]
    cases told with
    | error fault => exact ⟨_, rfl, by simp⟩
    | ok => exact ⟨_, rfl, by cases h.accept v <;> simp [Except.map]⟩
  obtain ⟨answer, step, ended⟩ := step
  rw [depths_of_last rfl step ended]
  exact Set.pair_eq_singleton 0

/-- Neither does one that performs one operation. -/
theorem depths_start_instr : depths h (start (.instr op)) s = {0} := by
  rcases hperformed : runFrom s (h.handle 0 op) with ⟨performed, s₁⟩
  have step : ∃ answer, runFrom s ((start (.instr op) : Machine V Op K).step h) =
      ((answer, idle []), s₁) ∧ answer ≠ .ok .more := by
    change ∃ answer, runFrom s (((Tree.instr op).under []).step h) = _ ∧ _
    rw [step_instr, runFrom_bind, List.length_nil, hperformed]
    cases performed with
    | error fault => exact ⟨_, rfl, by simp⟩
    | ok v => exact ⟨_, rfl, by cases h.accept v <;> simp [Except.map]⟩
  obtain ⟨answer, step, ended⟩ := step
  rw [depths_of_last rfl step ended]
  exact Set.pair_eq_singleton 0

theorem peaks_start_ret : Peaks h (start (.ret v)) s 0 := by
  rw [Peaks, depths_start_ret]
  exact isGreatest_singleton

theorem peaks_start_instr : Peaks h (start (.instr op)) s 0 := by
  rw [Peaks, depths_start_instr]
  exact isGreatest_singleton

/-! ## Programs under waiting continuations -/

section Under

variable (hignores : h.IgnoresDepth)

include hignores

/-- The run of a program under waiting continuations goes through the depths of its run by itself,
raised by what waits, and then through those of the program that is made of its value. -/
theorem depths_under_cons (value : h.Evaluates false depth tree s n (.ok v) s₁)
    (resumed : runFrom s₁ (h.resume next v) = (.ok made, s₂)) :
    depths h (tree.under (next :: rest)) s =
      (· + (rest.length + 1)) '' depths h (start tree) s ∪ depths h (made.under rest) s₂ := by
  -- The program that is made of the value of the first one of a node stands where the node stood.
  generalize houter : false = outermost at value
  generalize houtcome : Except.ok v = outcome at value
  induction value generalizing next rest made s₂ v with
  | retFault told => cases houtcome
  | ret told =>
    subst houter
    cases houtcome
    rw [depths_of_more rfl (step_ret_more told resumed), depths_start_ret, Set.image_singleton,
      Set.singleton_union, Nat.zero_add]
    rfl
  | instr performed =>
    cases houtcome
    rw [hignores _ (next :: rest).length] at performed
    rw [depths_of_more rfl (step_instr_more performed resumed), depths_start_instr,
      Set.image_singleton, Set.singleton_union, Nat.zero_add]
    rfl
  | firstFault failed => cases houtcome
  | resumeFault value resumed' => cases houtcome
  | @andThen outermost depth a b first made' next' v' s s₁ s₁' s₃ outcome value resumed' _ ih₁ ih₂ =>
    have hfirst (rest : List K) : depths h (first.under (next' :: rest)) s =
        (· + (rest.length + 1)) '' depths h (start first) s ∪ depths h (made'.under rest) s₁' :=
      ih₁ resumed' rfl rfl
    have hmade : depths h (made'.under (next :: rest)) s₁' =
        (· + (rest.length + 1)) '' depths h (start made') s₁' ∪ depths h (made.under rest) s₂ :=
      ih₂ resumed houter houtcome
    have hself : depths h (start (first.andThen next')) s =
        insert 0 ((· + 1) '' depths h (start first) s ∪ depths h (start made') s₁') :=
      depths_andThen.trans (congrArg (insert 0) (by simpa [Tree.under_nil] using hfirst []))
    have hraised : (· + (rest.length + 1)) '' ((· + 1) '' depths h (start first) s) =
        (· + ((next :: rest).length + 1)) '' depths h (start first) s := by
      rw [Set.image_image]
      refine Set.image_congr fun n _ => ?_
      rw [List.length_cons]
      omega
    rw [depths_andThen, hfirst (next :: rest), hmade, hself, Set.image_insert_eq, Set.image_union,
      hraised, Set.insert_union, Set.union_assoc, Nat.zero_add, List.length_cons]

/-- The machine comes to the program that is made of the value of another one, as that was. -/
theorem exists_walks_under_cons (value : h.Evaluates false depth tree s n (.ok v) s₁)
    (resumed : runFrom s₁ (h.resume next v) = (.ok made, s₂)) :
    ∃ nodes, Walks h (tree.under (next :: rest)) s nodes (made.under rest) s₂ := by
  generalize houter : false = outermost at value
  generalize houtcome : Except.ok v = outcome at value
  induction value generalizing next rest made s₂ v with
  | retFault told => cases houtcome
  | ret told =>
    subst houter
    cases houtcome
    exact ⟨_, .more rfl (step_ret_more told resumed) .here⟩
  | instr performed =>
    cases houtcome
    rw [hignores _ (next :: rest).length] at performed
    exact ⟨_, .more rfl (step_instr_more performed resumed) .here⟩
  | firstFault failed => cases houtcome
  | resumeFault value resumed' => cases houtcome
  | andThen value resumed' later ih₁ ih₂ =>
    obtain ⟨nodes', hmade⟩ := ih₂ resumed houter houtcome
    obtain ⟨nodes, hfirst⟩ := ih₁ resumed' rfl rfl
    exact ⟨_, .more rfl (by rw [step_andThen]; rfl) (hfirst.trans hmade)⟩

/-- The peak of a run under waiting continuations is that of its program by itself, raised by what
waits, or that of the program which is made of its value. -/
theorem peaks_under_cons (value : h.Evaluates false depth tree s n (.ok v) s₁)
    (resumed : runFrom s₁ (h.resume next v) = (.ok made, s₂)) (hself : Peaks h (start tree) s d)
    (hmade : Peaks h (made.under rest) s₂ d') :
    Peaks h (tree.under (next :: rest)) s (max (rest.length + 1 + d) d') := by
  have hraised : IsGreatest ((· + (rest.length + 1)) '' depths h (start tree) s)
      (rest.length + 1 + d) := by
    rw [Nat.add_comm _ d]
    exact Monotone.map_isGreatest (fun _ _ hle => Nat.add_le_add_right hle _) hself
  rw [Peaks, depths_under_cons hignores value resumed]
  exact hraised.union hmade

/-- The peak of a program at whose root a continuation waits. -/
theorem peaks_start_andThen (value : h.Evaluates false depth tree s n (.ok v) s₁)
    (resumed : runFrom s₁ (h.resume next v) = (.ok made, s₂)) (hself : Peaks h (start tree) s d)
    (hmade : Peaks h (start made) s₂ d') :
    Peaks h (start (tree.andThen next)) s (max (1 + d) d') := by
  have hunder : Peaks h (tree.under [next]) s (max (0 + 1 + d) d') :=
    peaks_under_cons hignores value resumed hself hmade
  rw [Nat.zero_add] at hunder
  exact peaks_andThen_iff.mpr hunder

/-- A program that comes to a value does not go ever deeper. By itself it need not come to the value
too, for it may fail to report that. -/
theorem exists_peaks (value : h.Evaluates outermost depth tree s n (.ok v) s₁) :
    ∃ d, Peaks h (start tree) s d := by
  generalize houtcome : Except.ok v = outcome at value
  induction value generalizing v with
  | retFault told => cases houtcome
  | ret told => exact ⟨0, peaks_start_ret⟩
  | instr performed => exact ⟨0, peaks_start_instr⟩
  | firstFault failed => cases houtcome
  | resumeFault value resumed => cases houtcome
  | andThen value resumed later ih₁ ih₂ =>
    obtain ⟨d, hfirst⟩ := ih₁ rfl
    obtain ⟨d', hmade⟩ := ih₂ houtcome
    exact ⟨_, peaks_start_andThen hignores value resumed hfirst hmade⟩

end Under

/-- A run that comes to a value under waiting continuations is the evaluation of its program, and
the run of what the innermost of them makes of the value. -/
theorem exists_made_of_ends {w : V} (hends : h.Ends (tree.under (next :: rest)) s n (.ok w) s') :
    ∃ a v s₁ made s₂ b, h.Evaluates false (rest.length + 1) tree s a (.ok v) s₁ ∧
      runFrom s₁ (h.resume next v) = (.ok made, s₂) ∧
      h.Ends (made.under rest) s₂ b (.ok w) s' := by
  obtain ⟨a, b, outcome, s₁, -, value, hcompletes⟩ := Handler.ends_under_iff.mp hends
  cases outcome with
  | error fault =>
    obtain ⟨-, hfault, -⟩ := hcompletes
    cases hfault
  | ok v =>
    rcases hresumed : runFrom s₁ (h.resume next v) with ⟨fault | made, s₂⟩
    · obtain ⟨-, hfault, -⟩ := (Handler.continues_cons_error hresumed).mp hcompletes
      cases hfault
    · exact ⟨a, v, s₁, made, s₂, b, value, hresumed,
        (Handler.continues_cons_ok hresumed).mp hcompletes⟩

/-- A run that comes to a value is the evaluation of its program. -/
theorem exists_value_of_ends {w : V} (hends : h.Ends (start tree) s n (.ok w) s') :
    ∃ a v s₁, h.Evaluates true 0 tree s a (.ok v) s₁ := by
  obtain ⟨a, b, outcome, s₁, -, value, hcompletes⟩ :=
    Handler.ends_under_iff.mp (tree.under_nil ▸ hends)
  cases outcome with
  | error fault =>
    obtain ⟨-, hfault, -⟩ := hcompletes
    cases hfault
  | ok v => exact ⟨a, v, s₁, value⟩

end Machine

end FiberPrograms
