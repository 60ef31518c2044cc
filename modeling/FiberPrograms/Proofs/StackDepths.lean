import FiberPrograms.Proofs.Depths
import FiberPrograms.Proofs.MonadLaws
import Mathlib.Algebra.Order.Interval.Finset.SuccPred
import Mathlib.Data.Nat.SuccPred
import Mathlib.Order.Interval.Finset.Nat
import Mathlib.Order.Lattice.Nat

/-!
# The stack that programs need

How many continuations a run leaves waiting at most is a matter of how its program is nested. To
the left each continuation waits until all that is inside it is done, so it costs one. To the right
a continuation is gone before the program that it makes begins, so a loop that is nested to the
right needs no more than its worst iteration, however often it goes round. A sequence is nested to
the left: the first of its programs has the continuations of all the others waiting for it.

## Main definitions

* `Machine.Reaches`: a run comes to a program, under what waits there
* `Tree.nested`: a program in the midst of continuations, the first of them innermost
* `Handler.PlainAround`: these continuations yield values at once
* `Handler.StackDepth`: how deep runs go that come to a value

## Main results

* `Tree.exists_peaks_nested`, `Tree.exists_peaks_loop`, `Program.exists_peaks_sequence`: programs
  nested to the left and to the right, and sequences
* `Program.Semantics.stack_depth`: all of them for what operations and user code may mean
-/

namespace FiberPrograms

variable {V Op K σ : Type}

/-- The run of a machine comes to a program, to be evaluated under what waits there. -/
def Machine.Reaches (h : Handler (StateM σ) V Op K) (M : Machine V Op K) (s : σ)
    (part : Tree V Op K) (pending : List K) (s' : σ) : Prop :=
  ∃ nodes, Machine.Walks h M s nodes (part.under pending) s'

namespace Machine

variable {h : Handler (StateM σ) V Op K} {M : Machine V Op K} {tree part : Tree V Op K}
  {next : K} {pending rest : List K} {s s₁ s' : σ}

theorem Reaches.here : Reaches h (tree.under pending) s tree pending s :=
  ⟨[], .here⟩

theorem Reaches.trans (hreaches : Reaches h M s tree pending s₁)
    (hthen : Reaches h (tree.under pending) s₁ part rest s') : Reaches h M s part rest s' := by
  obtain ⟨nodes, hwalk⟩ := hreaches
  obtain ⟨further, hwalk'⟩ := hthen
  exact ⟨nodes ++ further, hwalk.trans hwalk'⟩

/-- The first program of a node is come to first. -/
theorem Reaches.first :
    Reaches h ((tree.andThen next).under pending) s tree (next :: pending) s :=
  ⟨_, .more rfl (by rw [step_andThen]; rfl) .here⟩

end Machine

namespace Tree

open Machine

variable {h : Handler (StateM σ) V Op K} {conts pending : List K} {next : K} {tree : Tree V Op K}
  {outermost : Bool} {depth d n : Nat} {v : V} {outcome : Except Fault V} {s s' : σ}

/-! ## Nests -/

/-- A program in the midst of continuations, the first of them innermost. -/
def nested (conts : List K) (tree : Tree V Op K) : Tree V Op K :=
  conts.foldl .andThen tree

theorem nested_concat : nested (conts ++ [next]) tree = (nested conts tree).andThen next :=
  List.foldl_concat ..

/-- The run of a nest leaves all of its continuations waiting before it does anything else. -/
theorem reaches_nested :
    Reaches h ((nested conts tree).under pending) s tree (conts ++ pending) s := by
  induction conts using List.reverseRecOn generalizing pending with
  | nil => exact .here
  | append_singleton conts next ih =>
    rw [nested_concat, List.append_assoc]
    exact Reaches.first.trans ih

theorem ends_of_nested (hends : h.Ends ((nested conts tree).under pending) s n outcome s') :
    ∃ b, h.Ends (tree.under (conts ++ pending)) s b outcome s' := by
  induction conts using List.reverseRecOn generalizing pending n with
  | nil => exact ⟨n, hends⟩
  | append_singleton conts next ih =>
    rw [nested_concat, Handler.ends_andThen_iff] at hends
    obtain ⟨b, -, hends⟩ := hends
    rw [List.append_assoc]
    exact ih hends

/-- Nothing is deeper than the program in the midst of a nest. -/
theorem peaks_nested_iff :
    Peaks h ((nested conts tree).under pending) s d ↔
      Peaks h (tree.under (conts ++ pending)) s d := by
  induction conts using List.reverseRecOn generalizing pending with
  | nil => rfl
  | append_singleton conts next ih =>
    rw [nested_concat, peaks_andThen_iff, ih, List.append_assoc]
    rfl

end Tree

/-- Each continuation around a program yields a value at once, when it is resumed with the value of
what is inside it. -/
def Handler.PlainAround (h : Handler (StateM σ) V Op K) (conts : List K) (tree : Tree V Op K)
    (s : σ) : Prop :=
  ∀ inner next outer, conts = inner ++ next :: outer → ∀ depth n v s₁ made s₂,
    h.Evaluates false depth (tree.nested inner) s n (.ok v) s₁ →
    runFrom s₁ (h.resume next v) = (.ok made, s₂) → ∃ u, made = .ret u

namespace Tree

open Machine

section Peaks

variable {h : Handler (StateM σ) V Op K} (hignores : h.IgnoresDepth) {conts : List K} {next : K}
  {tree : Tree V Op K} {outermost : Bool} {depth n : Nat} {v : V} {s s' : σ}

include hignores

/-- A nest needs one for each of its continuations, besides what the program in its midst needs;
and no more, if the continuations yield values at once. -/
theorem exists_peaks_nested
    (value : h.Evaluates outermost depth (nested conts tree) s n (.ok v) s') :
    ∃ inside d, Peaks h (start tree) s inside ∧ Peaks h (start (nested conts tree)) s d ∧
      conts.length + inside ≤ d ∧ (h.PlainAround conts tree s → d = conts.length + inside) := by
  induction conts using List.reverseRecOn generalizing outermost depth n v s' with
  | nil =>
    obtain ⟨d, hd⟩ := exists_peaks hignores value
    exact ⟨d, d, hd, hd, by simp, by simp⟩
  | append_singleton conts next ih =>
    rw [nested_concat] at value ⊢
    cases value with
    | andThen value resumed later =>
      obtain ⟨inside, d, hinside, hd, hle, heq⟩ := ih value
      obtain ⟨d', hd'⟩ := exists_peaks hignores later
      refine ⟨inside, _, hinside, peaks_start_andThen hignores value resumed hd hd', ?_, ?_⟩
      · rw [List.length_append, List.length_singleton]
        omega
      · intro hplain
        obtain ⟨u, rfl⟩ := hplain conts next [] rfl _ _ _ _ _ _ value resumed
        have hd'_eq : d' = 0 := hd'.unique peaks_start_ret
        have hd_eq := heq fun inner next' outer hconts =>
          hplain inner next' (outer ++ [next]) (by simp [hconts])
        rw [List.length_append, List.length_singleton]
        omega

/-! ## Loops -/

/-- A loop that is nested to the right, from its iteration `k` on, needs no more than one of its
iterations does by itself, and the one continuation that waits for that. -/
theorem exists_peaks_loop {body loop : Nat → Tree V Op K} {next : Nat → K} {u : V} {N : Nat}
    (round : ∀ k < N, loop k = (body k).andThen (next k)) (stop : loop N = .ret u)
    (goesOn : ∀ k < N, ∀ depth n v s s₁ made s₂, h.Evaluates false depth (body k) s n (.ok v) s₁ →
      runFrom s₁ (h.resume (next k) v) = (.ok made, s₂) → made = loop (k + 1))
    {k : Nat} (hk : k ≤ N) (value : h.Evaluates outermost depth (loop k) s n (.ok v) s') :
    ∃ (states : Nat → σ) (peaks : Nat → Nat),
      (∀ j ∈ Finset.Ico k N, Reaches h (start (loop k)) s (body j) [next j] (states j) ∧
        Peaks h (start (body j)) (states j) (peaks j)) ∧
      Peaks h (start (loop k)) s ((Finset.Ico k N).sup fun j => 1 + peaks j) := by
  -- By induction from the last iteration backwards, since the peaks of the later ones are those of
  -- what an iteration makes.
  induction hk using Nat.decreasingInduction generalizing depth n s with
  | self =>
    rw [stop]
    exact ⟨fun _ => s, fun _ => 0, by simp, by simpa using peaks_start_ret⟩
  | of_succ k hk ih =>
    rw [round k hk] at value
    cases value with
    | @andThen _ _ _ _ _ made _ _ _ s₁ s₂ _ _ value resumed later =>
      obtain rfl := goesOn k hk _ _ _ _ _ _ _ value resumed
      obtain ⟨d, hd⟩ := exists_peaks hignores value
      obtain ⟨states, peaks, hrounds, hpeaks⟩ := ih later
      have hmade : Reaches h (start (loop k)) s (loop (k + 1)) [] s₂ := by
        rw [round k hk]
        exact Reaches.first.trans (exists_walks_under_cons hignores value resumed)
      have hsplit : Finset.Ico k N = insert k (Finset.Ico (k + 1) N) :=
        (Finset.insert_Ico_add_one_left_eq_Ico hk).symm
      have hlater {j : Nat} (hj : j ∈ Finset.Ico (k + 1) N) : j ≠ k := by
        have := (Finset.mem_Ico.mp hj).1
        omega
      -- The later iterations keep their states and their peaks, and this one is put before them.
      refine ⟨Function.update states k s, Function.update peaks k d, ?_, ?_⟩
      · intro j hj
        rw [hsplit, Finset.mem_insert] at hj
        rcases hj with rfl | hj
        · simp only [Function.update_self]
          refine ⟨?_, hd⟩
          rw [round j hk]
          exact .first
        · simp only [Function.update_of_ne (hlater hj)]
          exact ⟨hmade.trans (hrounds j hj).1, (hrounds j hj).2⟩
      · have hsame : (Finset.Ico (k + 1) N).sup (fun j => 1 + Function.update peaks k d j) =
            (Finset.Ico (k + 1) N).sup fun j => 1 + peaks j :=
          Finset.sup_congr rfl fun j hj => by rw [Function.update_of_ne (hlater hj)]
        rw [hsplit, Finset.sup_insert, hsame, Function.update_self, round k hk]
        exact peaks_start_andThen hignores value resumed hd hpeaks

end Peaks

end Tree

/-! ## Sequences -/

namespace Program

open Machine

variable {B : Type} [Universe B] {Op F : Type} {σ : Type} {sem : Semantics (StateM σ) B Op F}
  {yields item : Ty B} {v w : Value B} {program made : Program B Op F}
  {programs : List (Program B Op F)} {s s' : σ} {n : Nat}

theorem ignoresDepth_handler (sem : Semantics (StateM σ) B Op F) (yields : Ty B) :
    (sem.handler yields).IgnoresDepth :=
  fun _ _ _ => rfl

/-- What is made of a value that is used at a type is made of an element of that type. -/
theorem made_of_cast (τ : Ty B) (make : τ.El → Program B Op F)
    (resumed : runFrom s (pure ((v.cast τ).map make)) = (.ok made, s')) : ∃ a, made = make a := by
  cases hcast : v.cast τ with
  | error fault => simp [hcast, Except.map] at resumed
  | ok a =>
    simp only [hcast, Except.map, runFrom_pure, Prod.mk.injEq, Except.ok.injEq] at resumed
    exact ⟨a, resumed.1.symm⟩

/-- What waits for the value of the program before the given ones of a sequence. -/
def gathering (item : Ty B) (programs : List (Program B Op F)) : List (Cont B Op F) :=
  programs.map (.gather item) ++ [.collect item]

theorem length_gathering : (gathering item programs).length = programs.length + 1 := by
  simp [gathering]

theorem sequence_eq_nested :
    sequence item programs =
      (ofValue (.gathered item) ([] : List item.El)).nested (gathering item programs) := by
  rw [gathering, Tree.nested_concat, Tree.nested, List.foldl_map]
  rfl

theorem sup_range_add_one (n : Nat) (f : Nat → Nat) :
    (Finset.range (n + 1)).sup f = max (f 0) ((Finset.range n).sup fun i => f (i + 1)) := by
  rw [Finset.range_add_one', Finset.sup_insert, Finset.sup_map]
  rfl

/-- From a value that has been gathered on, each program of a sequence needs what it needs by itself,
the continuations of those after it, and the two that take its own value and turn the list round. -/
theorem exists_peaks_gathering {M : Machine (Value B) Op (Cont B Op F)} {s₀ : σ}
    (reached : Reaches (sem.handler yields) M s₀ (.ret v) (gathering item programs) s)
    (hends : (sem.handler yields).Ends ((Tree.ret v).under (gathering item programs)) s n (.ok w)
      s') :
    ∃ (states : Nat → σ) (peaks : Nat → Nat),
      (∀ i (hi : i < programs.length), ∃ gathered,
        Reaches (sem.handler yields) M s₀ programs[i]
          (.push item gathered :: gathering item (programs.drop (i + 1))) (states i) ∧
        Peaks (sem.handler yields) (start programs[i]) (states i) (peaks i)) ∧
      Peaks (sem.handler yields) ((Tree.ret v).under (gathering item programs)) s
        (max (programs.length + 1)
          ((Finset.range programs.length).sup fun i => programs.length + 1 - i + peaks i)) := by
  have hignores := ignoresDepth_handler sem yields
  induction programs generalizing v s n with
  | nil =>
    obtain ⟨a, u, s₁, made, s₂, b, value, resumed, -⟩ := exists_made_of_ends hends
    obtain ⟨list, rfl⟩ := made_of_cast (.gathered item) _ resumed
    refine ⟨fun _ => s, fun _ => 0, by simp, ?_⟩
    exact peaks_under_cons hignores value resumed peaks_start_ret peaks_start_ret
  | cons program programs ih =>
    -- The value is gathered first, and then the next program is run for its own.
    obtain ⟨_, u, s₁, made, s₂, b, hgathered, resumed, hends⟩ := exists_made_of_ends hends
    obtain ⟨gathered, rfl⟩ := made_of_cast (.gathered item) _ resumed
    obtain ⟨b, -, hends⟩ := Handler.ends_andThen_iff.mp hends
    obtain ⟨_, u', s₃, made, s₄, b, value, resumed', hends⟩ := exists_made_of_ends hends
    obtain ⟨u'', rfl⟩ := made_of_cast item _ resumed'
    have hprogram : Reaches (sem.handler yields) M s₀ program
        (.push item gathered :: gathering item programs) s₂ :=
      (reached.trans (exists_walks_under_cons hignores hgathered resumed)).trans .first
    obtain ⟨states, peaks, hrest, hpeaks⟩ :=
      ih (hprogram.trans (exists_walks_under_cons hignores value resumed')) hends
    obtain ⟨d, hd⟩ := exists_peaks hignores value
    refine ⟨fun | 0 => s₂ | i + 1 => states i, fun | 0 => d | i + 1 => peaks i, ?_, ?_⟩
    · intro i hi
      cases i with
      | zero => exact ⟨gathered, hprogram, hd⟩
      | succ i => exact hrest i (Nat.lt_of_succ_lt_succ hi)
    · have hrun := peaks_under_cons hignores hgathered resumed peaks_start_ret
        (peaks_andThen_iff.mpr (peaks_under_cons hignores value resumed' hd hpeaks))
      rw [length_gathering] at hrun
      rw [List.length_cons, sup_range_add_one]
      simp only [Nat.sub_zero, Nat.add_sub_add_right]
      generalize ((Finset.range programs.length).sup fun i => programs.length + 1 - i + peaks i) =
        later at hrun ⊢
      have hmax : max (programs.length + 1 + 1) (max (programs.length + 1 + 1 + d) later) =
          max (programs.length + 1 + 1 + 0)
            (max (programs.length + 1 + 1 + d) (max (programs.length + 1) later)) := by
        omega
      rw [hmax]
      exact hrun

/-- The peak of a sequence: whatever program of it is the deepest, as deep as that is by itself and
as many more as programs follow it, and two. -/
theorem exists_peaks_sequence (hne : programs ≠ [])
    (hends : (sem.handler yields).Ends (start (sequence item programs)) s n (.ok w) s') :
    ∃ (states : Nat → σ) (peaks : Nat → Nat),
      (∀ i (hi : i < programs.length), ∃ gathered,
        Reaches (sem.handler yields) (start (sequence item programs)) s programs[i]
          (.push item gathered :: gathering item (programs.drop (i + 1))) (states i) ∧
        Peaks (sem.handler yields) (start programs[i]) (states i) (peaks i)) ∧
      Peaks (sem.handler yields) (start (sequence item programs)) s
        ((Finset.range programs.length).sup fun i => programs.length + 1 - i + peaks i) := by
  have hstart : (start (sequence item programs) : Machine (Value B) Op (Cont B Op F)) =
      ((ofValue (.gathered item) ([] : List item.El)).nested (gathering item programs)).under [] := by
    rw [← sequence_eq_nested]
    rfl
  rw [hstart] at hends ⊢
  obtain ⟨b, hends⟩ := Tree.ends_of_nested hends
  rw [List.append_nil] at hends
  obtain ⟨states, peaks, hreached, hpeaks⟩ :=
    exists_peaks_gathering (List.append_nil _ ▸ Tree.reaches_nested) hends
  refine ⟨states, peaks, hreached, ?_⟩
  -- What waits at first is no more than what waits for the first program.
  have hfirst : programs.length + 1 ≤
      (Finset.range programs.length).sup fun i => programs.length + 1 - i + peaks i := by
    have hle := Finset.le_sup (f := fun i => programs.length + 1 - i + peaks i)
      (Finset.mem_range.mpr (List.length_pos_iff.mpr hne))
    exact (Nat.le_add_right _ (peaks 0)).trans hle
  rw [Tree.peaks_nested_iff, List.append_nil]
  rwa [Nat.max_eq_right hfirst] at hpeaks

end Program

/-! ## All of them -/

open Machine in
/-- How deep the runs of a handler go that come to a value. -/
structure Handler.StackDepth {B : Type} [Universe B] {Op F σ : Type}
    (h : Handler (StateM σ) (Value B) Op (Cont B Op F)) : Prop where
  ret : ∀ v s, Peaks h (start (.ret v)) s 0
  instr : ∀ op s, Peaks h (start (.instr op)) s 0
  /-- What the continuation of a node makes stands in the place of the node, but the first program
  has the continuation waiting for it. -/
  andThen : ∀ {first next s n w s'}, h.Ends (start (first.andThen next)) s n (.ok w) s' →
    ∃ a v s₁ made s₂ d d', h.Evaluates false 1 first s a (.ok v) s₁ ∧
      runFrom s₁ (h.resume next v) = (.ok made, s₂) ∧
      Reaches h (start (first.andThen next)) s made [] s₂ ∧
      Peaks h (start first) s d ∧ Peaks h (start made) s₂ d' ∧
      Peaks h (start (first.andThen next)) s (max (1 + d) d')
  nested : ∀ conts tree {s n w s'}, h.Ends (start (Tree.nested conts tree)) s n (.ok w) s' →
    ∃ inside d, Peaks h (start tree) s inside ∧ Peaks h (start (Tree.nested conts tree)) s d ∧
      conts.length + inside ≤ d ∧ (h.PlainAround conts tree s → d = conts.length + inside)
  /-- A loop whose iteration `k`, with a program of its own, goes on to the iteration `k + 1`. -/
  loop : ∀ (body loop : Nat → Program B Op F) (next : Nat → Cont B Op F) (u : Value B) (N : Nat),
    (∀ k < N, loop k = (body k).andThen (next k)) → loop N = .ret u →
    (∀ k < N, ∀ depth n v s s₁ made s₂, h.Evaluates false depth (body k) s n (.ok v) s₁ →
      runFrom s₁ (h.resume (next k) v) = (.ok made, s₂) → made = loop (k + 1)) →
    ∀ {s n w s'}, h.Ends (start (loop 0)) s n (.ok w) s' →
      ∃ (states : Nat → σ) (peaks : Nat → Nat),
        (∀ k < N, Reaches h (start (loop 0)) s (body k) [next k] (states k) ∧
          Peaks h (start (body k)) (states k) (peaks k)) ∧
        Peaks h (start (loop 0)) s ((Finset.range N).sup fun k => 1 + peaks k)
  sequence : ∀ {item : Ty B} {programs : List (Program B Op F)}, programs ≠ [] →
    ∀ {s n w s'}, h.Ends (start (Program.sequence item programs)) s n (.ok w) s' →
      ∃ (states : Nat → σ) (peaks : Nat → Nat),
        (∀ i (hi : i < programs.length), ∃ gathered,
          Reaches h (start (Program.sequence item programs)) s programs[i]
            (.push item gathered :: Program.gathering item (programs.drop (i + 1))) (states i) ∧
          Peaks h (start programs[i]) (states i) (peaks i)) ∧
        Peaks h (start (Program.sequence item programs)) s
          ((Finset.range programs.length).sup fun i => programs.length + 1 - i + peaks i)

namespace Program.Semantics

open Machine

variable {B : Type} [Universe B] {Op F σ : Type}

/-- **The stack that programs need**, whatever operations and user code mean. -/
theorem stack_depth (sem : Semantics (StateM σ) B Op F) (yields : Ty B) :
    (sem.handler yields).StackDepth := by
  have hignores := ignoresDepth_handler sem yields
  refine ⟨fun _ _ => peaks_start_ret, fun _ _ => peaks_start_instr, ?_, ?_, ?_, ?_⟩
  · intro first next s n w s' hends
    obtain ⟨b, -, hends⟩ := Handler.ends_andThen_iff.mp hends
    obtain ⟨a, v, s₁, made, s₂, b, value, resumed, hends⟩ := exists_made_of_ends hends
    obtain ⟨_, _, _, later⟩ := exists_value_of_ends hends
    obtain ⟨d, hd⟩ := exists_peaks hignores value
    obtain ⟨d', hd'⟩ := exists_peaks hignores later
    exact ⟨a, v, s₁, made, s₂, d, d', value, resumed,
      Reaches.first.trans (exists_walks_under_cons hignores value resumed), hd, hd',
      peaks_start_andThen hignores value resumed hd hd'⟩
  · intro conts tree s n w s' hends
    obtain ⟨a, v, s₁, value⟩ := exists_value_of_ends hends
    exact Tree.exists_peaks_nested hignores value
  · intro body loop next u N round stop goesOn s n w s' hends
    obtain ⟨a, v, s₁, value⟩ := exists_value_of_ends hends
    obtain ⟨states, peaks, hrounds, hpeaks⟩ :=
      Tree.exists_peaks_loop hignores round stop goesOn (Nat.zero_le N) value
    rw [← Finset.range_eq_Ico] at hrounds hpeaks
    exact ⟨states, peaks, fun k hk => hrounds k (Finset.mem_range.mpr hk), hpeaks⟩
  · intro item programs hne s n w s' hends
    exact exists_peaks_sequence hne hends

/-- The continuation of a map yields its value at once. -/
theorem made_of_map {sem : Semantics (StateM σ) B Op F} {yields arg : Ty B} {code : F}
    {v : Value B} {made : Program B Op F} {s s' : σ}
    (resumed : runFrom s ((sem.handler yields).resume (.map arg code) v) = (.ok made, s')) :
    ∃ u, made = .ret u := by
  cases hcheck : v.check arg with
  | error fault => simp [handler, Cont.resume, hcheck] at resumed
  | ok v' =>
    simp only [handler, Cont.resume, hcheck, runFrom_bind, runFrom_pure] at resumed
    cases hcomputed : (runFrom s (sem.compute code v')).1 with
    | error fault => simp [hcomputed, Except.map] at resumed
    | ok u =>
      simp only [hcomputed, Except.map, Prod.mk.injEq, Except.ok.injEq] at resumed
      exact ⟨u, resumed.1.symm⟩

/-- So maps around a program yield values at once. -/
theorem plainAround_maps (sem : Semantics (StateM σ) B Op F) (yields : Ty B)
    {conts : List (Cont B Op F)} (hmaps : ∀ next ∈ conts, ∃ arg code, next = .map arg code)
    (program : Program B Op F) (s : σ) : (sem.handler yields).PlainAround conts program s := by
  rintro inner next outer rfl depth n v s₁ made s₂ - resumed
  obtain ⟨arg, code, rfl⟩ := hmaps next (by simp)
  exact made_of_map resumed

/-- The loop of the counting handler whose iterations each yield a value and go on with a smaller
code, down to the one that ends it. -/
def countdown (k : Nat) : Program Scalar Unit Nat :=
  if k < 3 then bind (.ground .int64) (ofValue (.ground Scalar.int64) (5 : Int64)) (4 - 2 * k)
  else ofValue (.ground Scalar.int64) (5 : Int64)

theorem goesOn_countdown : ∀ k < 3, ∀ depth n v s s₁ made s₂,
    (counting.handler (.ground .int64)).Evaluates false depth
      (ofValue (.ground Scalar.int64) (5 : Int64)) s n (.ok v) s₁ →
    runFrom s₁ ((counting.handler (.ground .int64)).resume (.bind (.ground .int64) (4 - 2 * k)) v) =
      (.ok made, s₂) → made = countdown (k + 1) := by
  intro k hk depth n v s s₁ made s₂ value resumed
  cases value
  match k with
  | 0 => cases resumed; rfl
  | 1 => cases resumed; rfl
  | 2 => cases resumed; rfl

/-- Two continuations around an operation need two, a loop of three iterations needs one, and a
sequence of two operations needs three. -/
theorem stack_depth_counting :
    Peaks (counting.handler (.ground .int64))
      (start (map (.ground .int64) (map (.ground .int64) (ofInstr ()) 0) 1)) (0, 0) 2 ∧
    Peaks (counting.handler (.ground .int64)) (start (countdown 0)) (0, 0) 1 ∧
    Peaks (counting.handler (.list (.ground .int64)))
      (start (sequence (.ground .int64) (List.replicate 2 (ofInstr ())))) (0, 0) 3 := by
  refine ⟨?_, ?_, ?_⟩
  · obtain ⟨n, -, hends⟩ := exists_run_eq_some_iff.mp ⟨_, (rfl : runFrom (0, 0)
      ((start (map (.ground .int64) (map (.ground .int64) (ofInstr ()) 0) 1)).run
        (counting.handler (.ground .int64)) 5) = ((some (.ok _), _), _))⟩
    obtain ⟨inside, d, hinside, hd, -, hplain⟩ := (stack_depth counting (.ground .int64)).nested
      [.map (.ground .int64) 0, .map (.ground .int64) 1] (ofInstr ()) hends
    obtain rfl : inside = 0 := hinside.unique peaks_start_instr
    obtain rfl : d = 2 := hplain (plainAround_maps _ _ (by simp) _ _)
    exact hd
  · obtain ⟨n, -, hends⟩ := exists_run_eq_some_iff.mp ⟨_, (rfl : runFrom (0, 0)
      ((start (countdown 0)).run (counting.handler (.ground .int64)) 7) = ((some (.ok _), _), _))⟩
    obtain ⟨states, peaks, hrounds, hpeaks⟩ := (stack_depth counting (.ground .int64)).loop
      (fun _ => ofValue (.ground Scalar.int64) (5 : Int64)) countdown
      (fun k => .bind (.ground .int64) (4 - 2 * k)) (.of (.ground Scalar.int64) (5 : Int64)) 3
      (fun k hk => if_pos hk) rfl goesOn_countdown hends
    have hsup : (Finset.range 3).sup (fun k => 1 + peaks k) = (Finset.range 3).sup fun _ => 1 :=
      Finset.sup_congr rfl fun k hk => by
        rw [(hrounds k (Finset.mem_range.mp hk)).2.unique peaks_start_ret]
    rw [hsup] at hpeaks
    exact hpeaks
  · obtain ⟨n, -, hends⟩ := exists_run_eq_some_iff.mp ⟨_, (rfl : runFrom (0, 0)
      ((start (sequence (.ground .int64) (List.replicate 2 (ofInstr ())))).run
        (counting.handler (.list (.ground .int64))) 12) = ((some (.ok _), _), _))⟩
    obtain ⟨states, peaks, hreached, hpeaks⟩ :=
      (stack_depth counting (.list (.ground .int64))).sequence (by simp) hends
    have hsup : (Finset.range 2).sup (fun i => 2 + 1 - i + peaks i) =
        (Finset.range 2).sup fun i => 2 + 1 - i :=
      Finset.sup_congr rfl fun i hi => by
        obtain ⟨gathered, -, hd⟩ := hreached i (Finset.mem_range.mp hi)
        rw [List.getElem_replicate] at hd
        rw [hd.unique peaks_start_instr, Nat.add_zero]
    rw [List.length_replicate, hsup] at hpeaks
    exact hpeaks

end Program.Semantics

end FiberPrograms
