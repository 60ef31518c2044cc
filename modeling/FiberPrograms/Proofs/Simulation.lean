import FiberPrograms.Proofs.Evaluation

/-!
# Handlers that answer alike

Two handlers over different states answer alike if related states get the same answers and stay
related. A machine driven by the one and a machine driven by the other then take the same steps,
and evaluations agree too, at whatever depths they are made: handlers that answer alike do not
look at the depth.

## Main definitions

* `Handler.Simulates`: handlers that answer alike on related states

## Main results

* `Handler.Simulates.evaluates`, `Handler.Simulates.ends`: evaluations and runs agree
-/

namespace FiberPrograms

variable {V Op K σ τ : Type}

namespace Handler

/-- From related states the two handlers answer alike, at any depths, and leave related states. -/
structure Simulates (h : Handler (StateM σ) V Op K) (g : Handler (StateM τ) V Op K)
    (rel : σ → τ → Prop) : Prop where
  handle : ∀ {s t}, rel s t → ∀ depth depth' op {answer s'},
    runFrom s (h.handle depth op) = (answer, s') →
    ∃ t', runFrom t (g.handle depth' op) = (answer, t') ∧ rel s' t'
  onReturn : ∀ {s t}, rel s t → ∀ outermost {answer s'},
    runFrom s (h.onReturn outermost) = (answer, s') →
    ∃ t', runFrom t (g.onReturn outermost) = (answer, t') ∧ rel s' t'
  resume : ∀ {s t}, rel s t → ∀ next v {answer s'},
    runFrom s (h.resume next v) = (answer, s') →
    ∃ t', runFrom t (g.resume next v) = (answer, t') ∧ rel s' t'
  accept : h.accept = g.accept

namespace Simulates

variable {h : Handler (StateM σ) V Op K} {g : Handler (StateM τ) V Op K} {rel : σ → τ → Prop}
  {s s' : σ} {t : τ}

/-- Evaluations agree, at whatever depths they are made. -/
theorem evaluates (hs : h.Simulates g rel) {outermost : Bool} {depth n : Nat}
    {tree : Tree V Op K} {outcome : Except Fault V}
    (he : h.Evaluates outermost depth tree s n outcome s') (hrel : rel s t) (depth' : Nat) :
    ∃ t', g.Evaluates outermost depth' tree t n outcome t' ∧ rel s' t' := by
  induction he generalizing t depth' with
  | retFault told =>
    obtain ⟨t', told', hrel'⟩ := hs.onReturn hrel _ told
    exact ⟨t', .retFault told', hrel'⟩
  | ret told =>
    obtain ⟨t', told', hrel'⟩ := hs.onReturn hrel _ told
    exact ⟨t', .ret told', hrel'⟩
  | instr performed =>
    obtain ⟨t', performed', hrel'⟩ := hs.handle hrel _ depth' _ performed
    exact ⟨t', .instr performed', hrel'⟩
  | firstFault failed ih =>
    obtain ⟨t', failed', hrel'⟩ := ih hrel (depth' + 1)
    exact ⟨t', .firstFault failed', hrel'⟩
  | resumeFault value resumed ih =>
    obtain ⟨t₁, value', hrel₁⟩ := ih hrel (depth' + 1)
    obtain ⟨t', resumed', hrel'⟩ := hs.resume hrel₁ _ _ resumed
    exact ⟨t', .resumeFault value' resumed', hrel'⟩
  | andThen value resumed rest ih₁ ih₂ =>
    obtain ⟨t₁, value', hrel₁⟩ := ih₁ hrel (depth' + 1)
    obtain ⟨t₂, resumed', hrel₂⟩ := hs.resume hrel₁ _ _ resumed
    obtain ⟨t', rest', hrel'⟩ := ih₂ hrel₂ depth'
    exact ⟨t', .andThen value' resumed' rest', hrel'⟩

/-- What follows an evaluation agrees, whatever is waiting. -/
theorem completes (hs : h.Simulates g rel) {pending : List K} {outcome final : Except Fault V}
    {b : Nat} (hc : h.Completes pending outcome s b final s') (hrel : rel s t) :
    ∃ t', g.Completes pending outcome t b final t' ∧ rel s' t' := by
  -- What a continuation makes is a tree under fewer continuations, so the induction is on these.
  induction pending generalizing outcome b s t with
  | nil =>
    cases outcome with
    | error fault =>
      obtain ⟨rfl, rfl, rfl⟩ := hc
      exact ⟨t, ⟨rfl, rfl, rfl⟩, hrel⟩
    | ok v =>
      obtain ⟨rfl, rfl, rfl⟩ := hc
      exact ⟨t, ⟨rfl, congrFun hs.accept v, rfl⟩, hrel⟩
  | cons next rest ih =>
    cases outcome with
    | error fault =>
      obtain ⟨rfl, rfl, rfl⟩ := hc
      exact ⟨t, ⟨rfl, rfl, rfl⟩, hrel⟩
    | ok v =>
      cases resumed : runFrom s (h.resume next v) with
      | mk answer s₁ =>
        obtain ⟨t₁, resumed', hrel₁⟩ := hs.resume hrel _ _ resumed
        cases answer with
        | error fault =>
          obtain ⟨rfl, rfl, rfl⟩ := (continues_cons_error resumed).mp hc
          exact ⟨t₁, (continues_cons_error resumed').mpr ⟨rfl, rfl, rfl⟩, hrel₁⟩
        | ok made =>
          have hends := (continues_cons_ok resumed).mp hc
          obtain ⟨a, c, first, s₂, rfl, hvalue, hc⟩ := ends_under_iff.mp hends
          obtain ⟨t₂, hvalue', hrel₂⟩ := hs.evaluates hvalue hrel₁ rest.length
          obtain ⟨t', hc', hrel'⟩ := ih hc hrel₂
          have hends' := hvalue'.ends rest rfl rfl hc'
          exact ⟨t', (continues_cons_ok resumed').mpr hends', hrel'⟩

/-- Runs of a machine agree. -/
theorem ends (hs : h.Simulates g rel) {n : Nat} {tree : Tree V Op K} {pending : List K}
    {outcome : Except Fault V} (he : h.Ends (tree.under pending) s n outcome s')
    (hrel : rel s t) : ∃ t', g.Ends (tree.under pending) t n outcome t' ∧ rel s' t' := by
  obtain ⟨a, b, first, s₁, rfl, hvalue, hc⟩ := ends_under_iff.mp he
  obtain ⟨t₁, hvalue', hrel₁⟩ := hs.evaluates hvalue hrel pending.length
  obtain ⟨t', hc', hrel'⟩ := hs.completes hc hrel₁
  exact ⟨t', hvalue'.ends pending rfl rfl hc', hrel'⟩

end Simulates

end Handler

end FiberPrograms
