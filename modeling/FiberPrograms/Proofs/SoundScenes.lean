import FiberPrograms.Proofs.Stories
import Mathlib.Logic.Function.Basic

/-!
# Sound scenes

A scene is sound if all threads in it are sound over the handles that have been given out, the pool
supports those handles, and fibers that have a name and nothing behind it yet are each known to one
actor only. Whatever happens, a sound scene stays sound over more handles.

## Main definitions

* `Runtime.Sound`: user code, observers and effects that keep to their types and to their licence
* `Typing.given`, `Licence.phases`: the handles given out in a story, and the phases of its actors
* `Entry.Allowed`: what may be told
* `Pool.Sound`, `Scene.Sound`: the invariant of pools and scenes

## Main results

* `Scene.Sound.incident`, `Scene.sound_of_story`: a sound scene stays sound, and what is told is
  allowed
-/

namespace FiberPrograms

variable {S : Signature} {W α : Type} {T : Typing S} {L : Licence S}
  {stored : W → Set (Handle S.Base)}

/-- User code and observers keep to their types and to their licence, and the world outside gives
no handles but those that it was given; `stored` are those that it has. -/
structure Runtime.Sound (T : Typing S) (L : Licence S) (stored : W → Set (Handle S.Base))
    (R : Runtime S W) : Prop extends toInterpreterSound : Interpreter.Sound T L R.toInterpreter where
  replied : ∀ e w, T.replied e (R.effect e w).1 ⊆ stored w ∪ T.sent e
  kept : ∀ e w, stored (R.effect e w).2 ⊆ stored w ∪ T.sent e

/-- A job under way stays so as long as it does not end. -/
theorem Activity.Upshot.running {R : Runtime S W} {pool pool' : Pool S W} {activity : Activity S}
    {launched : List (Job S)} (h : activity.Upshot R pool pool' launched) {fiber : FiberId}
    (hrunning : pool.get? fiber = some .running) : pool'.get? fiber = some .running := by
  have hset {other : FiberId} {stage stage' : Fiber S} (before : pool.get? other = some stage)
      (hne : stage ≠ .running) (fibers : pool'.fibers = (pool.set other stage').fibers) :
      pool'.get? fiber = some .running := by
    refine (Pool.get?_of_set_of_ne fibers ?_).trans hrunning
    rintro rfl
    exact hne (Option.some.inj (before.symm.trans hrunning))
  cases h with
  | still not_made not_named fibers => rwa [Pool.get?_congr fibers]
  | made fibers => exact Pool.get?_push_of_get? fibers hrunning
  | kept before fibers => exact hset before nofun fibers
  | handed before passes hhanded fibers => exact hset before nofun fibers
  | began before fibers => exact hset before nofun fibers

/-- Whoever knows a name after an actor has forgotten what it knew is another, and has known the
name before. -/
theorem Phase.names_of_forgotten {phase : Actor → Phase} {who other : Actor} {fiber : FiberId}
    (h : (Function.update phase who .idle other).Names fiber) :
    other ≠ who ∧ (phase other).Names fiber := by
  by_cases heq : other = who
  · subst heq
    rw [Function.update_self] at h
    exact absurd h (Phase.not_names_idle fiber)
  · rw [Function.update_of_ne heq] at h
    exact ⟨heq, h⟩

/-! ## Sound pools -/

/-- The pool supports the handles that have been given out, which are those of all fibers with
something behind their name; and a fiber with nothing behind its name is known to one actor only. -/
structure Pool.Sound (T : Typing S) (L : Licence S) (stored : W → Set (Handle S.Base))
    (pool : Pool S W) (Γ : Set (Handle S.Base)) (phase : Actor → Phase) : Prop where
  supports : pool.Supports T L Γ
  unique : ∀ {fiber τ υ}, ⟨fiber, τ⟩ ∈ Γ → ⟨fiber, υ⟩ ∈ Γ → τ = υ
  given : ∀ {fiber stage}, pool.get? fiber = some stage → stage ≠ .named → ∃ τ, ⟨fiber, τ⟩ ∈ Γ
  world : stored pool.world ⊆ Γ
  named : ∀ {who fiber}, (phase who).Names fiber → pool.get? fiber = some .named
  apart : ∀ {who other fiber}, (phase who).Names fiber → (phase other).Names fiber → who = other
  /-- A job that is not under way has got nowhere. -/
  fresh : ∀ {fiber}, pool.get? fiber ≠ some .running → phase (.job fiber) = .idle

namespace Pool.Sound

variable {R : Runtime S W} {pool pool' : Pool S W} {Γ : Set (Handle S.Base)}
  {phase phase' : Actor → Phase} {fiber : FiberId} {stage : Fiber S} {τ : Ty S.Base}

/-- The fiber of a handle has something behind its name. -/
theorem ne_named (h : pool.Sound T L stored Γ phase) {handle : Handle S.Base}
    (hhandle : handle ∈ Γ) : pool.get? handle.fiber ≠ some .named := by
  obtain ⟨stage, hstage, hsuits⟩ := h.supports handle hhandle
  rintro hnamed
  cases hstage.symm.trans hnamed
  exact hsuits

/-- If the fibers stay as they are, the pool stays sound as long as nobody comes to know a name. -/
theorem still (h : pool.Sound T L stored Γ phase) (hfibers : pool'.fibers = pool.fibers)
    (hworld : stored pool'.world ⊆ Γ)
    (hnames : ∀ {who fiber}, (phase' who).Names fiber → (phase who).Names fiber)
    (hfresh : ∀ {fiber}, pool'.get? fiber ≠ some .running → phase' (.job fiber) = .idle) :
    pool'.Sound T L stored Γ phase' where
  supports handle hhandle := by
    rw [Pool.get?_congr hfibers]
    exact h.supports handle hhandle
  unique := h.unique
  given hstage := by
    rw [Pool.get?_congr hfibers] at hstage
    exact h.given hstage
  world := hworld
  named hwho := by
    rw [Pool.get?_congr hfibers]
    exact h.named (hnames hwho)
  apart hwho hother := h.apart (hnames hwho) (hnames hother)
  fresh := hfresh

/-- If one fiber gets to another stage, which suits its handles, the pool stays sound over what it
is a handle to, as long as nobody knows it as a mere name any more. -/
theorem set (h : pool.Sound T L stored Γ phase)
    (hfibers : pool'.fibers = (pool.set fiber stage).fibers)
    (hworld : pool'.world = pool.world) (hbefore : pool.get? fiber ≠ none)
    (hitem : ∀ {υ}, ⟨fiber, υ⟩ ∈ Γ → υ = τ)
    (hsuits : stage.Suits T L (insert ⟨fiber, τ⟩ Γ) τ)
    (hnames : ∀ {who other}, (phase' who).Names other → other ≠ fiber ∧ (phase who).Names other)
    (hfresh : ∀ {other}, pool'.get? other ≠ some .running → phase' (.job other) = .idle) :
    pool'.Sound T L stored (insert ⟨fiber, τ⟩ Γ) phase' := by
  have hsub := Set.subset_insert (Handle.mk fiber τ) Γ
  obtain ⟨before, hbefore⟩ := Option.ne_none_iff_exists'.mp hbefore
  have hself := Pool.get?_of_set hfibers hbefore
  have hother {other : FiberId} (hne : other ≠ fiber) := Pool.get?_of_set_of_ne hfibers hne
  -- The other fibers are at the stages at which they were, and only the handles to this one are
  -- new.
  refine ⟨?_, ?_, ?_, ?_, ?_, ?_, hfresh⟩
  · rintro ⟨other, υ⟩ hhandle
    by_cases hne : other = fiber
    · subst hne
      obtain hnew | hold := hhandle
      · cases hnew
        exact ⟨stage, hself, hsuits⟩
      · obtain rfl := hitem hold
        exact ⟨stage, hself, hsuits⟩
    · obtain hnew | hold := hhandle
      · cases hnew
        exact absurd rfl hne
      · obtain ⟨stage', hstage, hsuits'⟩ := h.supports _ hold
        exact ⟨stage', (hother hne).trans hstage, hsuits'.mono hsub⟩
  · rintro other υ₁ υ₂ (h₁ | h₁) (h₂ | h₂)
    · cases h₁
      cases h₂
      rfl
    · cases h₁
      exact (hitem h₂).symm
    · cases h₂
      exact hitem h₁
    · exact h.unique h₁ h₂
  · intro other stage' hstage hne
    by_cases heq : other = fiber
    · subst heq
      exact ⟨τ, Set.mem_insert _ _⟩
    · rw [hother heq] at hstage
      obtain ⟨υ, hυ⟩ := h.given hstage hne
      exact ⟨υ, hsub hυ⟩
  · rw [hworld]
    exact h.world.trans hsub
  · intro who other hwho
    obtain ⟨hne, hwho⟩ := hnames hwho
    rw [hother hne]
    exact h.named hwho
  · intro who other _ hwho hother
    exact h.apart (hnames hwho).2 (hnames hother).2

/-- A fiber is made, and one actor comes to know its name. -/
theorem push (h : pool.Sound T L stored Γ phase) (hfibers : pool'.fibers = pool.fibers.push .named)
    (hworld : pool'.world = pool.world) {who : Actor}
    (hfresh : ∀ {other}, pool'.get? other ≠ some .running →
      Function.update phase who (.made ⟨pool.fibers.size⟩) (.job other) = .idle) :
    pool'.Sound T L stored Γ (Function.update phase who (.made ⟨pool.fibers.size⟩)) := by
  -- Nobody has known the new name before.
  have hnew (other : Actor) : ¬ (phase other).Names ⟨pool.fibers.size⟩ := by
    intro hnames
    have hnamed := h.named hnames
    simp [Pool.get?] at hnamed
  have hnames {other : Actor} {fiber : FiberId}
      (hother : (Function.update phase who (.made ⟨pool.fibers.size⟩) other).Names fiber) :
      other = who ∧ fiber = ⟨pool.fibers.size⟩ ∨ (phase other).Names fiber := by
    by_cases heq : other = who
    · subst heq
      rw [Function.update_self] at hother
      obtain hother | ⟨_, hother⟩ := hother <;> cases hother
      exact .inl ⟨rfl, rfl⟩
    · rw [Function.update_of_ne heq] at hother
      exact .inr hother
  refine ⟨?_, h.unique, ?_, ?_, ?_, ?_, hfresh⟩
  · intro handle hhandle
    obtain ⟨stage, hstage, hsuits⟩ := h.supports handle hhandle
    exact ⟨stage, Pool.get?_push_of_get? hfibers hstage, hsuits⟩
  · intro fiber stage hstage hne
    rw [Pool.get?_push hfibers] at hstage
    split at hstage
    · cases hstage
      exact absurd rfl hne
    · exact h.given hstage hne
  · rw [hworld]
    exact h.world
  · intro other fiber hother
    obtain ⟨-, rfl⟩ | hother := hnames hother
    · rw [Pool.get?_push hfibers, if_pos rfl]
    · exact Pool.get?_push_of_get? hfibers (h.named hother)
  · intro other other' fiber hother hother'
    obtain ⟨hwho, rfl⟩ | hold := hnames hother
    · obtain ⟨hwho', -⟩ | hold' := hnames hother'
      · rw [hwho, hwho']
      · exact absurd hold' (hnew _)
    · obtain ⟨-, rfl⟩ | hold' := hnames hother'
      · exact absurd hold (hnew _)
      · exact h.apart hold hold'

/-! ### What one move leaves -/

section Upshot

variable {who : Actor} {activity : Activity S} {q : Phase}

/-- Nobody else knows a name that an actor knows, so when it forgets the name all others are left
with theirs. -/
theorem names_of_forgotten (h : pool.Sound T L stored Γ phase) (hself : (phase who).Names fiber)
    {other : Actor} {fiber' : FiberId}
    (hother : (Function.update phase who .idle other).Names fiber') :
    fiber' ≠ fiber ∧ (phase other).Names fiber' := by
  obtain ⟨hne, hother⟩ := Phase.names_of_forgotten hother
  refine ⟨?_, hother⟩
  rintro rfl
  exact hne (h.apart hother hself)

/-- A job that is not under way after a move has not been so before, and the move was not its
own. -/
theorem fresh_after (h : pool.Sound T L stored Γ phase) {launched : List (Job S)}
    (hupshot : activity.Upshot R pool pool' launched)
    (hwho : ∀ fiber, who = .job fiber → pool.get? fiber = some .running)
    (hne : pool'.get? fiber ≠ some .running) :
    Function.update phase who q (.job fiber) = .idle := by
  have hnot : pool.get? fiber ≠ some .running := fun hrunning => hne (hupshot.running hrunning)
  rw [Function.update_of_ne]
  · exact h.fresh hnot
  · intro hsame
    exact hnot (hwho fiber hsame.symm)

/-- The handles that a move gains without changing a fiber have been given out before, and so have
those that the world has afterwards. -/
theorem gained_of_still (hR : R.Sound T L stored) (h : pool.Sound T L stored Γ phase)
    (hallowed : activity.Allowed T L Γ (phase who))
    (not_named : ∀ fiber action, activity = .handed fiber action ∨ activity = .kept fiber action →
      pool.get? fiber ≠ some .named)
    (hturns : activity.Turns R pool.world pool'.world) :
    activity.gained T ⊆ Γ ∧ stored pool'.world ⊆ Γ := by
  have hworld (hsame : pool'.world = pool.world) : stored pool'.world ⊆ Γ := by
    rw [hsame]
    exact h.world
  cases activity with
  | handed fiber action =>
    exact absurd (h.named (L.hands_names hallowed.1)) (not_named _ _ (.inl rfl))
  | kept fiber action =>
    exact absurd (h.named (L.keeps_names hallowed.1)) (not_named _ _ (.inr rfl))
  | performed e reply =>
    -- What comes from the world has been there, or has just been sent.
    obtain ⟨hreply, hkept⟩ : (R.effect e pool.world).1 = reply ∧
        (R.effect e pool.world).2 = pool'.world := by
      rw [show R.effect e pool.world = (reply, pool'.world) from hturns]
      exact ⟨rfl, rfl⟩
    have hsub : stored pool.world ∪ T.sent e ⊆ Γ := Set.union_subset h.world hallowed
    constructor
    · rw [Activity.gained, ← hreply]
      exact (hR.replied e pool.world).trans hsub
    · rw [← hkept]
      exact (hR.kept e pool.world).trans hsub
  | _ => exact ⟨Set.empty_subset Γ, hworld hturns⟩

/-- A move that changes no fiber leaves the pool sound. -/
theorem after_still (hR : R.Sound T L stored) (h : pool.Sound T L stored Γ phase)
    (hallowed : activity.Allowed T L Γ (phase who))
    (not_made : ∀ fiber, activity ≠ .made fiber)
    (not_named : ∀ fiber action, activity = .handed fiber action ∨ activity = .kept fiber action →
      pool.get? fiber ≠ some .named)
    (fibers : pool'.fibers = pool.fibers) (hturns : activity.Turns R pool.world pool'.world)
    (hfresh : ∀ {fiber}, pool'.get? fiber ≠ some .running →
      Function.update phase who (L.after (phase who) activity) (.job fiber) = .idle) :
    pool'.Sound T L stored (Γ ∪ activity.gained T)
      (Function.update phase who (L.after (phase who) activity)) := by
  obtain ⟨hgained, hworld⟩ := h.gained_of_still hR hallowed not_named hturns
  -- Only who makes a fiber comes to know a name.
  have hq {fiber : FiberId} (hnames : (L.after (phase who) activity).Names fiber) :
      (phase who).Names fiber := by
    cases activity with
    | made fiber => exact absurd rfl (not_made fiber)
    | noted event => exact L.noted_names hnames
    | performed e reply => exact hnames
    | attended => exact hnames
    | _ => exact absurd hnames (Phase.not_names_idle _)
  rw [Set.union_eq_self_of_subset_right hgained]
  refine h.still fibers hworld (fun {other fiber} hother => ?_) hfresh
  by_cases heq : other = who
  · subst heq
    rw [Function.update_self] at hother
    exact hq hother
  · rwa [Function.update_of_ne heq] at hother

/-- An action is put behind a name, and what can be got of the fiber from then on suits the action;
and so does the job that may begin because of it. -/
theorem after_handed (hR : R.Sound T L stored) (h : pool.Sound T L stored Γ phase)
    {action : S.Action} {deeds : List (Deed S)} {launched : List (Job S)}
    (hhands : L.hands (phase who) fiber action) (hheld : T.held action ⊆ Γ)
    (before : pool.get? fiber = some .named)
    (passes : Fiber.Passes R fiber .named deeds launched stage)
    (hhanded : .handed fiber action ∈ deeds) (fibers : pool'.fibers = (pool.set fiber stage).fibers)
    (hworld : pool'.world = pool.world)
    (hwho : ∀ fiber, who = .job fiber → pool.get? fiber = some .running)
    (hfresh : ∀ {fiber}, pool'.get? fiber ≠ some .running →
      Function.update phase who .idle (.job fiber) = .idle) :
    pool'.Sound T L stored (insert ⟨fiber, T.yields action⟩ Γ) (Function.update phase who .idle) ∧
      ∀ job ∈ launched, ∃ τ, ⟨job.fiber, τ⟩ ∈ insert (Handle.mk fiber (T.yields action)) Γ ∧
        Function.update phase who .idle (.job job.fiber) = .idle ∧
        job.thread.Sound T L (Comp.Yielded T L τ)
          (insert ⟨fiber, T.yields action⟩ Γ) .idle := by
  have hheld := hheld.trans (Set.subset_insert ⟨fiber, T.yields action⟩ Γ)
  have hset (hsuits : stage.Suits T L (insert ⟨fiber, T.yields action⟩ Γ) (T.yields action)) :=
    h.set fibers hworld (by simp [before]) (fun hυ => absurd before (h.ne_named hυ)) hsuits
      (h.names_of_forgotten (L.hands_names hhands)) hfresh
  cases passes with
  | kept => cases hhanded
  | queued =>
    cases List.mem_singleton.mp hhanded
    exact ⟨hset ⟨rfl, hheld⟩, by simp⟩
  | discarded =>
    obtain hhanded | hhanded := List.mem_cons.mp hhanded
    · cases hhanded
      exact ⟨hset trivial, by simp⟩
    · simp at hhanded
  | launched =>
    obtain hhanded | hhanded := List.mem_cons.mp hhanded
    · cases hhanded
      refine ⟨hset trivial, fun job hjob => ?_⟩
      obtain rfl := List.mem_singleton.mp hjob
      -- The fiber has only just got its job, so the actor is another.
      have hne : Actor.job fiber ≠ who := by
        intro hsame
        cases before.symm.trans (hwho fiber hsame.symm)
      refine ⟨T.yields action, Set.mem_insert _ _, ?_, hR.act hheld⟩
      rw [Pool.jobOf, Function.update_of_ne hne]
      exact h.fresh (by simp [before])
    · simp at hhanded

/-- A job of the queue begins, over the handles that its action holds. -/
theorem after_began (hR : R.Sound T L stored) (h : pool.Sound T L stored Γ phase)
    {action : S.Action} (before : pool.get? fiber = some (.waiting action))
    (fibers : pool'.fibers = (pool.set fiber .running).fibers)
    (hworld : pool'.world = pool.world)
    (hfresh : ∀ {fiber}, pool'.get? fiber ≠ some .running → phase (.job fiber) = .idle) :
    pool'.Sound T L stored Γ phase ∧ ⟨fiber, T.yields action⟩ ∈ Γ ∧
      phase (.job fiber) = .idle ∧
      (Thread.base (R.act action)).Sound T L (Comp.Yielded T L (T.yields action)) Γ .idle := by
  -- What waits in the queue suits the handles to its fiber.
  obtain ⟨τ, hτ⟩ := h.given before (by simp)
  obtain ⟨stage, hstage, hsuits⟩ := h.supports _ hτ
  cases before.symm.trans hstage
  obtain ⟨rfl, hheld⟩ := hsuits
  have hset : pool'.Sound T L stored (insert ⟨fiber, T.yields action⟩ Γ) phase := by
    refine h.set fibers hworld (by simp [before]) (h.unique · hτ) trivial ?_ hfresh
    intro other fiber' hother
    refine ⟨?_, hother⟩
    rintro rfl
    cases before.symm.trans (h.named hother)
  rw [Set.insert_eq_of_mem hτ] at hset
  exact ⟨hset, hτ, h.fresh (by simp [before]), hR.act hheld⟩

/-- A move that its licence allows leaves the pool sound, over the handles that are gained; and so
are the jobs that begin because of it. -/
theorem upshot (hR : R.Sound T L stored) (h : pool.Sound T L stored Γ phase) {who : Actor}
    {activity : Activity S} {launched : List (Job S)}
    (hallowed : activity.Allowed T L Γ (phase who))
    (hupshot : activity.Upshot R pool pool' launched)
    (hturns : activity.Turns R pool.world pool'.world)
    (hwho : ∀ fiber, who = .job fiber → pool.get? fiber = some .running) :
    pool'.Sound T L stored (Γ ∪ activity.gained T)
        (Function.update phase who (L.after (phase who) activity)) ∧
      ∀ job ∈ launched, ∃ τ, ⟨job.fiber, τ⟩ ∈ Γ ∪ activity.gained T ∧
        Function.update phase who (L.after (phase who) activity) (.job job.fiber) = .idle ∧
        job.thread.Sound T L (Comp.Yielded T L τ) (Γ ∪ activity.gained T) .idle := by
  have hfresh {fiber : FiberId} (hne : pool'.get? fiber ≠ some .running) :
      Function.update phase who (L.after (phase who) activity) (.job fiber) = .idle :=
    h.fresh_after hupshot hwho hne
  cases hupshot with
  | still not_made not_named fibers =>
    exact ⟨h.after_still hR hallowed not_made not_named fibers hturns hfresh, by simp⟩
  | made fibers =>
    rw [show (Activity.made ⟨pool.fibers.size⟩).gained T = ∅ from rfl, Set.union_empty]
    exact ⟨h.push fibers hturns hfresh, by simp⟩
  | @kept fiber action before fibers =>
    obtain ⟨hkeeps, hheld⟩ := hallowed
    rw [Activity.gained, Set.union_singleton]
    refine ⟨h.set fibers hturns (by simp [before]) (fun hυ => ?_) ⟨rfl, ?_⟩ ?_ hfresh, by simp⟩
    · exact absurd before (h.ne_named hυ)
    · exact hheld.trans (Set.subset_insert _ Γ)
    · exact h.names_of_forgotten (L.keeps_names hkeeps)
  | @handed fiber action deeds launched stage before passes hhanded fibers =>
    obtain ⟨hhands, hheld⟩ := hallowed
    rw [Activity.gained, Set.union_singleton]
    exact h.after_handed hR hhands hheld before passes hhanded fibers hturns hwho hfresh
  | @began fiber action before fibers =>
    -- Whoever has the job begin is left as it was.
    have hsame : Function.update phase who (L.after (phase who) .attended) = phase :=
      Function.update_eq_self who phase
    rw [hsame] at hfresh ⊢
    rw [show Activity.attended.gained T = ∅ from rfl, Set.union_empty]
    obtain ⟨hpool, hτ, hidle, hthread⟩ := h.after_began hR before fibers hturns hfresh
    refine ⟨hpool, fun job hjob => ?_⟩
    obtain rfl := List.mem_singleton.mp hjob
    exact ⟨T.yields action, hτ, hidle, hthread⟩

end Upshot

/-- An actor forgets the name that it knows. -/
theorem retire (h : pool.Sound T L stored Γ phase) {who : Actor}
    (hwho : ∀ fiber, who = .job fiber → pool.get? fiber = some .running) :
    pool.Sound T L stored Γ (Function.update phase who .idle) := by
  refine h.still rfl h.world (fun hother => (Phase.names_of_forgotten hother).2)
    fun {fiber} hne => ?_
  rw [Function.update_of_ne]
  · exact h.fresh hne
  · intro hsame
    exact hne (hwho fiber hsame.symm)

/-- A job ends, and what can be read of its fiber from then on is its outcome. -/
theorem finish (h : pool.Sound T L stored Γ phase) (hrunning : pool.get? fiber = some .running)
    (hτ : ⟨fiber, τ⟩ ∈ Γ) {outcome : Except Fault S.Value} {q : Phase}
    (houtcome : Comp.Answered L (Comp.Yielded T L τ) Γ q outcome) (level : Option Level) :
    (pool.finish level fiber outcome).Sound T L stored Γ
      (Function.update phase (.job fiber) .idle) := by
  have hset : (pool.finish level fiber outcome).Sound T L stored (insert (Handle.mk fiber τ) Γ)
      (Function.update phase (.job fiber) .idle) := by
    refine h.set (Pool.fibers_finish hrunning) (Pool.world_finish ..) (by simp [hrunning])
      (h.unique · hτ) ?_ ?_ ?_
    · rw [Set.insert_eq_of_mem hτ]
      cases outcome with
      | ok v => exact houtcome.2
      | error fault => exact L.raises_idle houtcome
    · intro who other hwho
      obtain ⟨-, hbefore⟩ := Phase.names_of_forgotten hwho
      refine ⟨?_, hbefore⟩
      rintro rfl
      cases hrunning.symm.trans (h.named hbefore)
    · intro other hother
      by_cases heq : other = fiber
      · subst heq
        exact Function.update_self ..
      · rw [Function.update_of_ne (by simpa using heq)]
        refine h.fresh ?_
        rwa [Pool.get?_of_set_of_ne (Pool.fibers_finish hrunning) heq] at hother
  rwa [Set.insert_eq_of_mem hτ] at hset

/-- A job of the queue is thrown away, and readers of its fiber fail from then on. -/
theorem release (h : pool.Sound T L stored Γ phase) {action : S.Action}
    (hwaiting : pool.get? fiber = some (.waiting action)) (queue : Array FiberId)
    (level : Option Level) :
    ({ pool with queue := queue }.release level fiber).Sound T L stored Γ phase := by
  obtain ⟨τ, hτ⟩ := h.given hwaiting nofun
  have hfibers : ({ pool with queue := queue }.release level fiber).fibers =
      (pool.set fiber (.ended .dropped)).fibers := by
    refine Pool.fibers_release fun ending hended => ?_
    cases hwaiting.symm.trans hended
  have hset : ({ pool with queue := queue }.release level fiber).Sound T L stored
      (insert (Handle.mk fiber τ) Γ) phase := by
    refine h.set hfibers (Pool.world_release ..) (by simp [hwaiting])
      (fun hυ => h.unique hυ hτ) trivial ?_ ?_
    · intro who other hwho
      refine ⟨?_, hwho⟩
      rintro rfl
      cases hwaiting.symm.trans (h.named hwho)
    · intro other hother
      refine h.fresh fun hrunning => hother ?_
      refine (Pool.get?_of_set_of_ne hfibers ?_).trans hrunning
      rintro rfl
      cases hwaiting.symm.trans hrunning
  rwa [Set.insert_eq_of_mem hτ] at hset

/-- A job of the queue begins. -/
theorem startAt (hR : R.Sound T L stored) (h : pool.Sound T L stored Γ phase) {position : Nat}
    {job : Job S} (started : pool.startAt? R.toInterpreter position = some (job, pool')) :
    pool'.Sound T L stored Γ phase ∧ ∃ τ, ⟨job.fiber, τ⟩ ∈ Γ ∧
      job.thread.Sound T L (Comp.Yielded T L τ) Γ (phase (.job job.fiber)) := by
  obtain ⟨hworld, -⟩ := Pool.told_startAt started
  -- It makes no difference who has it begin.
  have hattended : Activity.Allowed T L Γ .attended (phase (.caller 0)) := trivial
  have hsame : Function.update phase (.caller 0) (L.after (phase (.caller 0)) .attended) = phase :=
    Function.update_eq_self _ phase
  obtain ⟨hpool, hjobs⟩ := h.upshot hR hattended (Pool.upshot_startAt started) hworld (by simp)
  rw [hsame, show Activity.attended.gained T = ∅ from rfl, Set.union_empty] at hpool hjobs
  obtain ⟨τ, hτ, hidle, hthread⟩ := hjobs job (List.mem_singleton_self job)
  exact ⟨hpool, τ, hτ, by rwa [hidle]⟩

end Pool.Sound

/-! ## Sound scenes -/

/-- The handles that are gained with an entry. -/
def Entry.gained (T : Typing S) : Entry S → Set (Handle S.Base)
  | did _ activity _ => activity.gained T
  | ended _ _ _ => ∅
  | queued _ => ∅

/-- The handles that have been given out in a story. -/
def Typing.given (T : Typing S) (entries : List (Entry S)) : Set (Handle S.Base) :=
  {handle | ∃ entry ∈ entries, handle ∈ entry.gained T}

@[simp] theorem Typing.given_singleton (entry : Entry S) : T.given [entry] = entry.gained T := by
  simp [given]

@[simp] theorem Typing.given_append (entries more : List (Entry S)) :
    T.given (entries ++ more) = T.given entries ∪ T.given more := by
  ext handle
  simp [given, or_and_right, exists_or]

/-- The phases of actors after an entry. -/
def Licence.turn (L : Licence S) (phase : Actor → Phase) : Entry S → Actor → Phase
  | .did who activity _ => Function.update phase who (L.after (phase who) activity)
  | .ended who _ _ => Function.update phase who .idle
  | .queued _ => phase

/-- Only the phase of whoever the entry is about is another. -/
theorem Licence.turn_of_ne {phase : Actor → Phase} {entry : Entry S} {other : Actor}
    (hne : entry.who? ≠ some other) : L.turn phase entry other = phase other := by
  cases entry with
  | queued deed => rfl
  | _ =>
    refine Function.update_of_ne ?_ ..
    rintro rfl
    exact hne rfl

/-- The phases in which a story leaves the actors. -/
def Licence.phases (L : Licence S) (entries : List (Entry S)) : Actor → Phase :=
  entries.foldl L.turn fun _ => .idle

/-- What an entry may say, given the handles that have been given out and the phases of actors.
Computations may come to their value in the phases of `ends`. -/
def Entry.Allowed (T : Typing S) (L : Licence S) (ends : Phase → Prop) (Γ : Set (Handle S.Base))
    (phase : Actor → Phase) : Entry S → Prop
  | did who activity _ => activity.Allowed T L Γ (phase who)
  | ended who none _ => ends (phase who)
  | ended who (some fault) _ => L.raises (phase who) fault
  | queued _ => True

/-- The phases in which computations may come to a value as `post` says, and jobs to theirs. -/
def Phase.Ends (post : Set (Handle S.Base) → Phase → α → Prop) (q : Phase) : Prop :=
  q = .idle ∨ ∃ Γ a, post Γ q a

/-- To be idle, whatever the value. -/
def Comp.Idle (_ : Set (Handle S.Base)) (q : Phase) (_ : α) : Prop :=
  q = .idle

theorem Phase.Ends.idle {q : Phase} (h : q.Ends (Comp.Idle (S := S) (α := α))) : q = .idle := by
  rcases h with hq | ⟨Γ, a, hq⟩
  · exact hq
  · exact hq

namespace Scene

variable {R : Runtime S W} {post : Set (Handle S.Base) → Phase → α → Prop}
  {scene scene' : Scene S W α} {entries : List (Entry S)} {deeds : List (Deed S)}
  {Γ : Set (Handle S.Base)} {phase : Actor → Phase}

/-- All threads are sound over the handles that have been given out, and so is the pool. -/
structure Sound (T : Typing S) (L : Licence S) (stored : W → Set (Handle S.Base))
    (post : Set (Handle S.Base) → Phase → α → Prop) (scene : Scene S W α)
    (Γ : Set (Handle S.Base)) (phase : Actor → Phase) : Prop where
  pool : scene.pool.Sound T L stored Γ phase
  running : ∀ {place : Nat} {thread : Thread S α}, scene.callers[place]? = some (.running thread) →
    thread.Sound T L post Γ (phase (.caller place))
  ended : ∀ {place : Nat} {outcome : Except Fault α},
    scene.callers[place]? = some (.ended outcome) →
    ∃ q, Comp.Answered L post Γ q outcome
  jobs : ∀ job ∈ scene.jobs, ∃ τ, ⟨job.fiber, τ⟩ ∈ Γ ∧
    job.thread.Sound T L (Comp.Yielded T L τ) Γ (phase (.job job.fiber))

/-- No other job under way is that of the same fiber. -/
theorem Recorded.fiber_ne {pool : Pool S W} {callers : List (Main S α)}
    {before after : List (Job S)} {job other : Job S}
    (h : Recorded R ⟨pool, callers, before ++ job :: after⟩ deeds)
    (hother : other ∈ before ++ after) : other.fiber ≠ job.fiber := by
  intro hsame
  have hcount := h.jobs job.fiber
  have hpos : 0 < ((before ++ after).map Job.fiber).count job.fiber := by
    rw [List.count_pos_iff, ← hsame]
    exact List.mem_map_of_mem hother
  have hone : ((pool.get? job.fiber).any Fiber.isRunning).toNat ≤ 1 := Bool.toNat_le _
  simp only [List.map_append, List.map_cons, List.count_append, List.count_cons_self] at hcount hpos
  omega

section Steps

variable (hpost : ∀ Γ Γ' q a, Γ ⊆ Γ' → post Γ q a → post Γ' q a)

include hpost in
/-- What has ended stays sound over more handles. -/
theorem Sound.ended_mono (h : scene.Sound T L stored post Γ phase) {Γ' : Set (Handle S.Base)}
    (hΓ : Γ ⊆ Γ') {place : Nat} {outcome : Except Fault α}
    (hended : scene.callers[place]? = some (.ended outcome)) :
    ∃ q, Comp.Answered L post Γ' q outcome := by
  obtain ⟨q, hanswered⟩ := h.ended hended
  refine ⟨q, ?_⟩
  cases outcome with
  | ok a => exact hpost Γ Γ' q a hΓ hanswered
  | error fault => exact hanswered

/-- Jobs that do not move stay sound over more handles. -/
theorem Sound.job_mono (h : scene.Sound T L stored post Γ phase) {Γ' : Set (Handle S.Base)}
    (hΓ : Γ ⊆ Γ') {phase' : Actor → Phase} {job : Job S} (hjob : job ∈ scene.jobs)
    (hphase : phase' (.job job.fiber) = phase (.job job.fiber)) :
    ∃ τ, ⟨job.fiber, τ⟩ ∈ Γ' ∧
      job.thread.Sound T L (Comp.Yielded T L τ) Γ' (phase' (.job job.fiber)) := by
  obtain ⟨τ, hτ, hthread⟩ := h.jobs job hjob
  refine ⟨τ, hΓ hτ, ?_⟩
  rw [hphase]
  exact hthread.mono hΓ fun _ _ _ _ => Comp.Yielded.mono

include hpost in
/-- Callers that do not move stay sound over more handles. -/
theorem Sound.running_mono (h : scene.Sound T L stored post Γ phase) {Γ' : Set (Handle S.Base)}
    (hΓ : Γ ⊆ Γ') {phase' : Actor → Phase} {place : Nat} {thread : Thread S α}
    (hrunning : scene.callers[place]? = some (.running thread))
    (hphase : phase' (.caller place) = phase (.caller place)) :
    thread.Sound T L post Γ' (phase' (.caller place)) := by
  rw [hphase]
  exact (h.running hrunning).mono hΓ hpost

/-- If a job moves or ends, the others stay sound over more handles: they are jobs of other
fibers. -/
theorem Sound.otherJob_mono {pool : Pool S W} {callers : List (Main S α)}
    {before after : List (Job S)} {job : Job S}
    (h : Sound T L stored post ⟨pool, callers, before ++ job :: after⟩ Γ phase)
    (hrecorded : Recorded R ⟨pool, callers, before ++ job :: after⟩ deeds)
    {Γ' : Set (Handle S.Base)} (hΓ : Γ ⊆ Γ') {entry : Entry S}
    (hwho : entry.who? = some (.job job.fiber)) {other : Job S} (hother : other ∈ before ++ after) :
    ∃ τ, ⟨other.fiber, τ⟩ ∈ Γ' ∧
      other.thread.Sound T L (Comp.Yielded T L τ) Γ' (L.turn phase entry (.job other.fiber)) := by
  have hmem : other ∈ before ++ job :: after :=
    ((List.sublist_cons_self job after).append_left before).subset hother
  refine h.job_mono hΓ hmem (Licence.turn_of_ne ?_)
  rw [hwho]
  intro hsame
  have hfiber : job.fiber = other.fiber := by simpa using hsame
  exact hrecorded.fiber_ne hother hfiber.symm

include hpost in
/-- A caller moves. -/
theorem Sound.callerMoves (hR : R.Sound T L stored) {pool pool' : Pool S W}
    {before after : List (Main S α)} {thread thread' : Thread S α} {launch : Launch S}
    {jobs : List (Job S)}
    (h : Sound T L stored post ⟨pool, before ++ .running thread :: after, jobs⟩ Γ phase)
    (moved : thread.move R pool = (.moved thread' launch, pool')) :
    Entry.Allowed T L (Phase.Ends post) Γ phase
        (.did (.caller before.length) (thread.activity R pool) (thread.deeds R pool)) ∧
      Sound T L stored post ⟨pool', before ++ .running thread' :: after, launch.onto jobs⟩
        (Γ ∪ (thread.activity R pool).gained T)
        (L.turn phase
          (.did (.caller before.length) (thread.activity R pool) (thread.deeds R pool))) := by
  have hΓ : Γ ⊆ Γ ∪ (thread.activity R pool).gained T := Set.subset_union_left
  have hplace : (before ++ .running thread :: after)[before.length]? =
      some (Main.running thread) := by simp
  obtain ⟨hallowed, hthread'⟩ :=
    (h.running hplace).move hR.toInterpreterSound h.pool.supports moved
  obtain ⟨hpool, hjobs⟩ := h.pool.upshot hR hallowed (Thread.upshot_of_move moved)
    (Thread.told_of_move moved).1 (by simp)
  refine ⟨hallowed, hpool, ?_, ?_, ?_⟩
  · intro place other hother
    by_cases hplace : place = before.length
    · subst hplace
      obtain rfl : thread' = other := by simpa using hother
      rw [Licence.turn, Function.update_self]
      exact hthread'
    · change (before ++ .running thread' :: after)[place]? = _ at hother
      rw [getElem?_exchange before after _ (.running thread) hplace] at hother
      exact h.running_mono hpost hΓ hother
        (Licence.turn_of_ne (by simpa [Entry.who?] using Ne.symm hplace))
  · intro place outcome hended
    have hplace : place ≠ before.length := by
      rintro rfl
      simp at hended
    change (before ++ .running thread' :: after)[place]? = _ at hended
    rw [getElem?_exchange before after _ (.running thread) hplace] at hended
    exact h.ended_mono hpost hΓ hended
  · intro job hjob
    obtain hlaunched | hold := List.mem_append.mp ((launch.onto_perm jobs).mem_iff.mp hjob)
    · obtain ⟨τ, hτ, hidle, hsound⟩ := hjobs job hlaunched
      exact ⟨τ, hτ, by rwa [Licence.turn, hidle]⟩
    · exact h.job_mono hΓ hold (Licence.turn_of_ne (by simp [Entry.who?]))

/-- A caller ends. -/
theorem Sound.callerEnds {pool pool' : Pool S W} {before after : List (Main S α)}
    {thread : Thread S α} {outcome : Except Fault α} {jobs : List (Job S)} {fault? : Option Fault}
    (h : Sound T L stored post ⟨pool, before ++ .running thread :: after, jobs⟩ Γ phase)
    (ended : thread.move R pool = (.ended outcome, pool')) :
    Sound T L stored post ⟨pool, before ++ .ended outcome :: after, jobs⟩ Γ
      (L.turn phase (.ended (.caller before.length) fault? [])) := by
  have hplace : (before ++ .running thread :: after)[before.length]? =
      some (Main.running thread) := by simp
  refine ⟨h.pool.retire (by simp), ?_, ?_, ?_⟩
  · intro place other hother
    have hplace : place ≠ before.length := by
      rintro rfl
      simp at hother
    rw [Licence.turn_of_ne (by simpa [Entry.who?] using Ne.symm hplace)]
    change (before ++ .ended outcome :: after)[place]? = _ at hother
    rw [getElem?_exchange before after _ (.running thread) hplace] at hother
    exact h.running hother
  · intro place other hended
    by_cases hplace : place = before.length
    · subst hplace
      obtain rfl : outcome = other := by simpa using hended
      exact ⟨_, (h.running hplace).ended ended⟩
    · change (before ++ .ended outcome :: after)[place]? = _ at hended
      rw [getElem?_exchange before after _ (.running thread) hplace] at hended
      exact h.ended hended
  · exact fun job hjob => h.job_mono subset_rfl hjob (Licence.turn_of_ne (by simp [Entry.who?]))

include hpost in
/-- A job moves. -/
theorem Sound.jobMoves (hR : R.Sound T L stored) {pool pool' : Pool S W}
    {callers : List (Main S α)} {before after : List (Job S)} {fiber : FiberId}
    {thread thread' : Thread S S.Value} {launch : Launch S}
    (h : Sound T L stored post ⟨pool, callers, before ++ ⟨fiber, thread⟩ :: after⟩ Γ phase)
    (hrecorded : Recorded R ⟨pool, callers, before ++ ⟨fiber, thread⟩ :: after⟩ deeds)
    (moved : thread.move R pool = (.moved thread' launch, pool')) :
    Entry.Allowed T L (Phase.Ends post) Γ phase
        (.did (.job fiber) (thread.activity R pool) (thread.deeds R pool)) ∧
      Sound T L stored post
        ⟨pool', callers, launch.onto (before ++ ⟨fiber, thread'⟩ :: after)⟩
        (Γ ∪ (thread.activity R pool).gained T)
        (L.turn phase (.did (.job fiber) (thread.activity R pool) (thread.deeds R pool))) := by
  have hΓ : Γ ⊆ Γ ∪ (thread.activity R pool).gained T := Set.subset_union_left
  have hjob : ⟨fiber, thread⟩ ∈ before ++ ⟨fiber, thread⟩ :: after := by simp
  obtain ⟨τ, hτ, hthread⟩ := h.jobs _ hjob
  obtain ⟨hallowed, hthread'⟩ := hthread.move hR.toInterpreterSound h.pool.supports moved
  obtain ⟨hpool, hjobs⟩ := h.pool.upshot hR hallowed (Thread.upshot_of_move moved)
    (Thread.told_of_move moved).1 fun other hother => by
      cases hother
      exact hrecorded.running hjob
  refine ⟨hallowed, hpool, ?_, ?_, ?_⟩
  · intro place other hother
    exact h.running_mono hpost hΓ hother (Licence.turn_of_ne (by simp [Entry.who?]))
  · exact fun hended => h.ended_mono hpost hΓ hended
  · intro job hmem
    obtain hlaunched | hold := List.mem_append.mp ((launch.onto_perm _).mem_iff.mp hmem)
    · obtain ⟨υ, hυ, hidle, hsound⟩ := hjobs job hlaunched
      exact ⟨υ, hυ, by rwa [Licence.turn, hidle]⟩
    · obtain hother | rfl : job ∈ before ++ after ∨ job = ⟨fiber, thread'⟩ := by
        simpa [or_comm, or_assoc, or_left_comm] using hold
      · exact h.otherJob_mono hrecorded hΓ rfl hother
      · exact ⟨τ, hΓ hτ, by rwa [Licence.turn, Function.update_self]⟩

/-- A job ends. -/
theorem Sound.jobEnds {pool pool' : Pool S W} {callers : List (Main S α)}
    {before after : List (Job S)} {fiber : FiberId} {thread : Thread S S.Value}
    {outcome : Except Fault S.Value} {fault? : Option Fault} {more : List (Deed S)}
    (h : Sound T L stored post ⟨pool, callers, before ++ ⟨fiber, thread⟩ :: after⟩ Γ phase)
    (hrecorded : Recorded R ⟨pool, callers, before ++ ⟨fiber, thread⟩ :: after⟩ deeds)
    (ended : thread.move R pool = (.ended outcome, pool')) :
    (∃ τ, Comp.Answered L (Comp.Yielded T L τ) Γ (phase (.job fiber)) outcome) ∧
      Sound T L stored post ⟨pool.finish R.level fiber outcome, callers, before ++ after⟩ Γ
        (L.turn phase (.ended (.job fiber) fault? more)) := by
  have hjob : ⟨fiber, thread⟩ ∈ before ++ ⟨fiber, thread⟩ :: after := by simp
  obtain ⟨τ, hτ, hthread⟩ := h.jobs _ hjob
  have hanswered := hthread.ended ended
  refine ⟨⟨τ, hanswered⟩, h.pool.finish (hrecorded.running hjob) hτ hanswered R.level, ?_, h.ended,
    fun other hother => h.otherJob_mono hrecorded subset_rfl rfl hother⟩
  intro place other hother
  rw [Licence.turn_of_ne (by simp [Entry.who?])]
  exact h.running hother

include hpost in
/-- Whatever happens is allowed, and a sound scene stays sound over the handles that are gained. -/
theorem Sound.incident (hR : R.Sound T L stored) (h : scene.Sound T L stored post Γ phase)
    (hrecorded : Recorded R scene deeds) {entry : Entry S}
    (incident : Incident R scene [entry] scene') :
    entry.Allowed T L (Phase.Ends post) Γ phase ∧
      scene'.Sound T L stored post (Γ ∪ entry.gained T) (L.turn phase entry) := by
  cases incident with
  | caller before after jobs moved => exact h.callerMoves hpost hR moved
  | @callerEnded pool _ before after thread outcome jobs ended =>
    obtain ⟨-, rfl⟩ := Thread.of_ended ended
    rw [Entry.gained, Set.union_empty]
    refine ⟨?_, h.callerEnds ended⟩
    have hplace : (before ++ .running thread :: after)[before.length]? =
        some (Main.running thread) := by simp
    have hanswered := (h.running hplace).ended ended
    cases outcome with
    | ok a => exact .inr ⟨Γ, a, hanswered⟩
    | error fault => exact hanswered
  | job callers before after moved => exact h.jobMoves hpost hR hrecorded moved
  | @jobEnded pool _ callers before after fiber thread outcome ended =>
    obtain ⟨-, rfl⟩ := Thread.of_ended ended
    rw [Entry.gained, Set.union_empty]
    obtain ⟨⟨τ, hanswered⟩, hsound⟩ := h.jobEnds hrecorded ended
    refine ⟨?_, hsound⟩
    cases outcome with
    | ok v => exact .inl hanswered.1
    | error fault => exact hanswered
  | @jobBegun pool pool' callers jobs position job started =>
    obtain ⟨hpool, hjob⟩ := h.pool.startAt hR started
    rw [Entry.gained, Set.union_empty]
    refine ⟨trivial, hpool, h.running, h.ended, ?_⟩
    intro other hother
    obtain rfl | hold := List.mem_cons.mp hother
    · exact hjob
    · exact h.jobs other hold
  | @drop pool position fiber callers jobs queued =>
    obtain ⟨action, hwaiting⟩ :=
      hrecorded.waiting (Array.mem_toList_iff.mpr (Array.mem_of_getElem? queued))
    rw [Entry.gained, Set.union_empty]
    exact ⟨trivial, h.pool.release hwaiting _ R.level, h.running, h.ended, h.jobs⟩

end Steps

/-- A story begins with a sound scene if its computations need no handles. -/
theorem sound_start {world : W} (hworld : stored world = ∅) {computations : List (Comp S α)}
    (hcomputations : ∀ c ∈ computations, c.Sound T L post ∅ .idle) :
    (start world computations).Sound T L stored post ∅ fun _ => .idle where
  pool :=
    { supports := nofun
      unique := nofun
      given hstage := by simp [start, Pool.empty, Pool.get?] at hstage
      world := hworld.subset
      named hnames := absurd hnames (Phase.not_names_idle _)
      apart hnames := absurd hnames (Phase.not_names_idle _)
      fresh _ := rfl }
  running {place thread} hthread := by
    obtain ⟨c, hc, hthread⟩ : ∃ c, computations[place]? = some c ∧ .base c = thread := by
      simpa [start] using hthread
    subst hthread
    exact hcomputations c (List.mem_of_getElem? hc)
  ended {place outcome} hended := by simp [start] at hended
  jobs := nofun

/-- All scenes of a story are sound if the first one is, and all that is told is allowed. -/
theorem sound_of_story (hpost : ∀ Γ Γ' q a, Γ ⊆ Γ' → post Γ q a → post Γ' q a)
    (hR : R.Sound T L stored) {world : W} (hworld : stored world = ∅)
    {computations : List (Comp S α)} (hcomputations : ∀ c ∈ computations, c.Sound T L post ∅ .idle)
    (story : Trail (Incident R) (start world computations) entries scene) :
    scene.Sound T L stored post (T.given entries) (L.phases entries) ∧
      ∀ before entry after, entries = before ++ entry :: after →
        entry.Allowed T L (Phase.Ends post) (T.given before) (L.phases before) := by
  induction story with
  | refl =>
    have hnone : T.given ([] : List (Entry S)) = ∅ := by simp [Typing.given]
    rw [hnone]
    exact ⟨sound_start hworld hcomputations, by simp⟩
  | @tail _ _ earlier _ story last ih =>
    obtain ⟨h, hearlier⟩ := ih
    obtain ⟨entry, rfl⟩ := last.exists_entry
    obtain ⟨hallowed, h'⟩ := h.incident hpost hR (recorded_of_story story) last
    refine ⟨?_, fun before other after hsplit => ?_⟩
    · rw [Typing.given_append, Typing.given_singleton, Licence.phases, List.foldl_append]
      exact h'
    · -- It is the last entry, or stands in the story so far.
      obtain rfl | ⟨rest, final, rfl⟩ := List.eq_nil_or_concat after
      · obtain ⟨rfl, hsame⟩ := List.append_inj' hsplit rfl
        cases hsame
        exact hallowed
      · rw [List.concat_eq_append, ← List.cons_append, ← List.append_assoc] at hsplit
        exact hearlier before other rest (List.append_inj' hsplit rfl).1

end Scene

end FiberPrograms
