import FiberPrograms.Proofs.SoundScenes

/-!
# Fibers in the order of their start

Suppose that actions start no fibers. Then whatever an action holds, and whatever it can come to
hold through what it reads, are fibers that were started before its own: to start an action takes
handles to all fibers that the action has captured, so these are older, and what a fiber yields
comes from an action that holds older fibers only. A fiber that runs its action anew for every
reader is as old as the fibers that its action holds.

The age of a fiber is its rank, and the handles to fibers up to some rank are those that a job may
hold that comes next in the order.

## Main definitions

* `below`: the handles to fibers up to some rank
* `Pool.Ranked`, `Scene.Ranked`: jobs hold no handles but to fibers that are older than their own

## Main results

* `Scene.Ranked.incident`, `Scene.exists_ranked_of_story`: so it is in all scenes of a story
-/

namespace FiberPrograms

variable {S : Signature} {W α : Type} {T : Typing S} {L : Licence S} {calm : S.Code → Prop}

/-- Phases are the same whatever may be done. -/
theorem Licence.after_lenient (forks forks' : Prop) (code code' : S.Code → Prop) (q : Phase)
    (activity : Activity S) :
    (Licence.lenient S forks code).after q activity =
      (Licence.lenient S forks' code').after q activity := by
  cases activity <;> rfl

/-! ## Ranks -/

section Below

variable {B : Type} {rank : FiberId → Nat} {Γ : Set (Handle B)} {fiber : FiberId} {τ : Ty B}
  {i j r : Nat}

/-- The handles to fibers of at most some rank. -/
def below (rank : FiberId → Nat) (Γ : Set (Handle B)) (i : Nat) : Set (Handle B) :=
  {handle ∈ Γ | rank handle.fiber ≤ i}

theorem below_mono (hij : i ≤ j) : below rank Γ i ⊆ below rank Γ j :=
  fun _ ⟨hhandle, hrank⟩ => ⟨hhandle, hrank.trans hij⟩

/-- Everybody who may hold fibers of that rank may hold a new one. -/
theorem mem_below_found (hnew : ∀ υ, ⟨fiber, υ⟩ ∉ Γ) {handle : Handle B} :
    handle ∈ below (Function.update rank fiber r) (insert ⟨fiber, τ⟩ Γ) i ↔
      handle ∈ below rank Γ i ∨ handle = ⟨fiber, τ⟩ ∧ r ≤ i := by
  have hold (hhandle : handle ∈ Γ) :
      Function.update rank fiber r handle.fiber = rank handle.fiber := by
    refine Function.update_of_ne ?_ ..
    rintro rfl
    exact hnew handle.item hhandle
  constructor
  · rintro ⟨rfl | hhandle, hrank⟩
    · rw [Function.update_self] at hrank
      exact .inr ⟨rfl, hrank⟩
    · rw [hold hhandle] at hrank
      exact .inl ⟨hhandle, hrank⟩
  · rintro (⟨hhandle, hrank⟩ | ⟨rfl, hrank⟩)
    · exact ⟨.inr hhandle, by rwa [hold hhandle]⟩
    · exact ⟨.inl rfl, by rwa [Function.update_self]⟩

theorem below_subset_found (hnew : ∀ υ, ⟨fiber, υ⟩ ∉ Γ) :
    below rank Γ i ⊆ below (Function.update rank fiber r) (insert ⟨fiber, τ⟩ Γ) i :=
  fun _ hhandle => (mem_below_found hnew).mpr (.inl hhandle)

end Below

/-- Whether there is, or has been, a job for a fiber. -/
def Fiber.HasJob : Fiber S → Prop
  | waiting _ | running | ended _ => True
  | named | recomputing _ => False

/-! ## Places in the order of their start -/

/-- Who has a place in a list keeps it if the list goes on. -/
private theorem getElem?_of_prefix {σ : Type} {as bs : List σ} (h : as <+: bs) {i : Nat} {a : σ}
    (hi : as[i]? = some a) : bs[i]? = some a := by
  obtain ⟨rest, rfl⟩ := h
  rw [List.getElem?_append_left (List.getElem?_eq_some_iff.mp hi).1, hi]

/-- The place and the rank that a new fiber gets: the last ones if there is a job for it from now
on. Otherwise it gets no place, and may be as old as any fiber. -/
inductive Fiber.Placed (stage : Fiber S) (started : List FiberId) (fiber : FiberId) :
    List FiberId → Nat → Prop
  | apart {r : Nat} (jobless : ¬ stage.HasJob) (bounded : r ≤ started.length) :
      Placed stage started fiber started r
  | last (hasJob : stage.HasJob) :
      Placed stage started fiber (started ++ [fiber]) (started.length + 1)

namespace Fiber.Placed

variable {stage : Fiber S} {started started' : List FiberId} {fiber other : FiberId} {i r : Nat}

theorem isPrefix (h : stage.Placed started fiber started' r) : started <+: started' := by
  cases h with
  | apart jobless bounded => exact List.prefix_rfl
  | last hasJob => exact List.prefix_append started [fiber]

theorem rank_le (h : stage.Placed started fiber started' r) : r ≤ started'.length := by
  cases h with
  | apart jobless bounded => exact bounded
  | last hasJob => simp

theorem mem_iff (h : stage.Placed started fiber started' r) :
    other ∈ started' ↔ other ∈ started ∨ other = fiber ∧ stage.HasJob := by
  cases h with
  | apart jobless bounded => simp [jobless]
  | last hasJob => simp [hasJob]

/-- Ranks count the places from one. -/
theorem getElem? (h : stage.Placed started fiber started' r) (hnot : fiber ∉ started)
    (hi : started'[i]? = some other) :
    started[i]? = some other ∧ other ≠ fiber ∨ other = fiber ∧ r = i + 1 := by
  have hold (hi : started[i]? = some other) : started[i]? = some other ∧ other ≠ fiber := by
    refine ⟨hi, ?_⟩
    rintro rfl
    exact hnot (List.mem_of_getElem? hi)
  cases h with
  | apart jobless bounded => exact .inl (hold hi)
  | last hasJob =>
    rcases Nat.lt_trichotomy i started.length with hlt | rfl | hgt
    · rw [List.getElem?_append_left hlt] at hi
      exact .inl (hold hi)
    · have hfiber : fiber = other := by simpa using hi
      exact .inr ⟨hfiber.symm, rfl⟩
    · rw [List.getElem?_eq_none (by simp; omega)] at hi
      cases hi

end Fiber.Placed

/-! ## Pools in which fibers have ranks -/

/-- The fibers that have been started are ranked in that order, and what can be read through a
handle to a fiber of some rank holds no handles but to fibers of at most that rank. A job that waits
holds older fibers than its own. -/
structure Pool.Ranked (T : Typing S) (L : Licence S) (pool : Pool S W) (Γ : Set (Handle S.Base))
    (started : List FiberId) (rank : FiberId → Nat) : Prop where
  place : ∀ {i : Nat} {fiber}, started[i]? = some fiber → rank fiber = i + 1
  bounded : ∀ handle ∈ Γ, rank handle.fiber ≤ started.length
  hasJob : ∀ fiber, fiber ∈ started ↔ ∃ stage, pool.get? fiber = some stage ∧ stage.HasJob
  supports : ∀ i, pool.Supports T L (below rank Γ i)
  waiting : ∀ {fiber action}, pool.get? fiber = some (.waiting action) →
    ∃ i : Nat, started[i]? = some fiber ∧ T.held action ⊆ below rank Γ i

/-- A job keeps to its types and to its licence, and holds older fibers than its own. -/
def Job.Ranked (T : Typing S) (L : Licence S) (Γ : Set (Handle S.Base)) (started : List FiberId)
    (rank : FiberId → Nat) (job : Job S) (q : Phase) : Prop :=
  ∃ i : Nat, started[i]? = some job.fiber ∧ ∃ τ, ⟨job.fiber, τ⟩ ∈ Γ ∧
    job.thread.Sound T L (Comp.Yielded T L τ) (below rank Γ i) q

/-- More fibers may be ranked. -/
theorem Job.Ranked.mono {Γ Γ' : Set (Handle S.Base)} {started started' : List FiberId}
    {rank rank' : FiberId → Nat} {job : Job S} {q : Phase} (h : job.Ranked T L Γ started rank q)
    (hΓ : Γ ⊆ Γ') (hstarted : started <+: started')
    (hbelow : ∀ i, below rank Γ i ⊆ below rank' Γ' i) : job.Ranked T L Γ' started' rank' q := by
  obtain ⟨i, hi, τ, hτ, hthread⟩ := h
  refine ⟨i, getElem?_of_prefix hstarted hi, τ, hΓ hτ, ?_⟩
  exact hthread.mono (hbelow i) fun _ _ _ _ => Comp.Yielded.mono

namespace Pool.Ranked

variable {R : Runtime S W} {pool pool' : Pool S W} {Γ : Set (Handle S.Base)}
  {started started' : List FiberId} {rank : FiberId → Nat} {fiber : FiberId}
  {stage stage' : Fiber S} {τ : Ty S.Base} {r : Nat}

/-- All handles are those that a job may hold that comes last. -/
theorem below_length (h : pool.Ranked T L Γ started rank) : below rank Γ started.length = Γ :=
  Set.Subset.antisymm (fun _ hhandle => hhandle.1) fun handle hhandle =>
    ⟨hhandle, h.bounded handle hhandle⟩

/-- Nothing happens to fibers that have something behind their names. -/
theorem still (h : pool.Ranked T L Γ started rank)
    (hget : ∀ fiber, pool'.get? fiber = pool.get? fiber ∨
      pool.get? fiber = none ∧ pool'.get? fiber = some .named) :
    pool'.Ranked T L Γ started rank where
  place := h.place
  bounded := h.bounded
  hasJob fiber := by
    rw [h.hasJob]
    obtain hsame | ⟨hnone, hnamed⟩ := hget fiber
    · rw [hsame]
    · simp [hnone, hnamed, Fiber.HasJob]
  supports i handle hhandle := by
    obtain ⟨stage, hstage, hsuits⟩ := h.supports i handle hhandle
    obtain hsame | ⟨hnone, -⟩ := hget handle.fiber
    · exact ⟨stage, hsame.trans hstage, hsuits⟩
    · cases hnone.symm.trans hstage
  waiting {fiber action} hwaiting := by
    obtain hsame | ⟨-, hnamed⟩ := hget fiber
    · exact h.waiting (hsame.symm.trans hwaiting)
    · cases hnamed.symm.trans hwaiting

/-- The job of a fiber gets on. -/
theorem goOn (h : pool.Ranked T L Γ started rank) (hbefore : pool.get? fiber = some stage)
    (hfibers : pool'.fibers = (pool.set fiber stage').fibers) (hjob : stage.HasJob)
    (hjob' : stage'.HasJob) (hwaiting : ∀ action, stage' ≠ .waiting action)
    (hsuits : ∀ i υ, ⟨fiber, υ⟩ ∈ below rank Γ i → stage'.Suits T L (below rank Γ i) υ) :
    pool'.Ranked T L Γ started rank := by
  have hself := Pool.get?_of_set hfibers hbefore
  have hother {other : FiberId} (hne : other ≠ fiber) := Pool.get?_of_set_of_ne hfibers hne
  refine ⟨h.place, h.bounded, fun other => ?_, fun i handle hhandle => ?_,
    fun {other action} hget => ?_⟩
  · rw [h.hasJob]
    by_cases hne : other = fiber
    · subst hne
      simp [hbefore, hself, hjob, hjob']
    · rw [hother hne]
  · by_cases hne : handle.fiber = fiber
    · subst hne
      exact ⟨stage', hself, hsuits i handle.item hhandle⟩
    · rw [hother hne]
      exact h.supports i handle hhandle
  · by_cases hne : other = fiber
    · subst hne
      cases hself.symm.trans hget
      exact absurd rfl (hwaiting action)
    · rw [hother hne] at hget
      exact h.waiting hget

/-- A fiber that has nothing behind its name has no place in the order. -/
theorem not_mem_of_named (h : pool.Ranked T L Γ started rank)
    (hnamed : pool.get? fiber = some .named) : fiber ∉ started := by
  rw [h.hasJob]
  rintro ⟨stage, hstage, hjob⟩
  cases hnamed.symm.trans hstage
  exact hjob

/-- A new fiber is ranked above all that its action holds, and a job comes last in the order. -/
theorem found (h : pool.Ranked T L Γ started rank) (hnew : ∀ υ, ⟨fiber, υ⟩ ∉ Γ)
    (hbefore : pool.get? fiber = some .named)
    (hfibers : pool'.fibers = (pool.set fiber stage).fibers)
    (hplace : stage.Placed started fiber started' r)
    (hsuits : stage.Suits T L (below rank Γ r) τ)
    (hheld : ∀ action, stage = .waiting action → T.held action ⊆ Γ) :
    pool'.Ranked T L (insert ⟨fiber, τ⟩ Γ) started' (Function.update rank fiber r) := by
  have hself := Pool.get?_of_set hfibers hbefore
  have hother {other : FiberId} (hne : other ≠ fiber) := Pool.get?_of_set_of_ne hfibers hne
  have hbelow (i : Nat) : below rank Γ i ⊆ below (Function.update rank fiber r)
      (insert ⟨fiber, τ⟩ Γ) i := below_subset_found hnew
  have hne {handle : Handle S.Base} (hhandle : handle ∈ Γ) : handle.fiber ≠ fiber := by
    rintro rfl
    exact hnew handle.item hhandle
  refine ⟨fun {i other} hi => ?_, fun handle hhandle => ?_, fun other => ?_,
    fun i handle hhandle => ?_, fun {other action} hget => ?_⟩
  · obtain ⟨hold, hne⟩ | ⟨rfl, hr⟩ := hplace.getElem? (h.not_mem_of_named hbefore) hi
    · rw [Function.update_of_ne hne, h.place hold]
    · rw [Function.update_self, hr]
  · obtain rfl | hhandle := hhandle
    · rw [Function.update_self]
      exact hplace.rank_le
    · rw [Function.update_of_ne (hne hhandle)]
      exact (h.bounded handle hhandle).trans hplace.isPrefix.length_le
  · rw [hplace.mem_iff, h.hasJob]
    by_cases heq : other = fiber
    · subst heq
      simp [hbefore, hself, Fiber.HasJob]
    · simp [hother heq, heq]
  · obtain hold | ⟨rfl, hr⟩ := (mem_below_found hnew).mp hhandle
    · obtain ⟨stage', hstage, hsuits'⟩ := h.supports i handle hold
      exact ⟨stage', (hother (hne hold.1)).trans hstage, hsuits'.mono (hbelow i)⟩
    · exact ⟨stage, hself, hsuits.mono ((below_mono hr).trans (hbelow i))⟩
  · by_cases heq : other = fiber
    · subst heq
      cases hself.symm.trans hget
      -- Only a job waits, so the fiber comes last, above everything that its action holds.
      cases hplace with
      | apart jobless bounded => exact absurd trivial jobless
      | last hasJob =>
        refine ⟨started.length, by simp, Set.Subset.trans ?_ (hbelow _)⟩
        rw [h.below_length]
        exact hheld action rfl
    · rw [hother heq] at hget
      obtain ⟨i, hi, hheld⟩ := h.waiting hget
      exact ⟨i, getElem?_of_prefix hplace.isPrefix hi, hheld.trans (hbelow i)⟩

/-- The action of a fiber that comes next in the order is handed to the spawner, and the job that
begins because of it, if any, holds older fibers. -/
theorem handed (hR : R.toInterpreter.Sound T L) (h : pool.Ranked T L Γ started rank)
    (hnew : ∀ υ, ⟨fiber, υ⟩ ∉ Γ) (hbefore : pool.get? fiber = some .named) {action : S.Action}
    (hheld : T.held action ⊆ Γ) {deeds : List (Deed S)} {launched : List (Job S)}
    (hpasses : Fiber.Passes R fiber .named deeds launched stage)
    (hhanded : .handed fiber action ∈ deeds)
    (hfibers : pool'.fibers = (pool.set fiber stage).fibers) :
    pool'.Ranked T L (insert ⟨fiber, T.yields action⟩ Γ) (started ++ [fiber])
        (Function.update rank fiber (started.length + 1)) ∧
      ∀ job ∈ launched, job.Ranked T L (insert ⟨fiber, T.yields action⟩ Γ) (started ++ [fiber])
        (Function.update rank fiber (started.length + 1)) .idle := by
  have hall : T.held action ⊆ below rank Γ started.length := by rwa [h.below_length]
  have hfound (hjob : stage.HasJob)
      (hsuits : stage.Suits T L (below rank Γ (started.length + 1)) (T.yields action))
      (hwaiting : ∀ other, stage = .waiting other → T.held other ⊆ Γ) :=
    h.found hnew hbefore hfibers (.last hjob) hsuits hwaiting
  cases hpasses with
  | kept => cases hhanded
  | queued =>
    cases List.mem_singleton.mp hhanded
    refine ⟨hfound trivial ⟨rfl, hall.trans (below_mono (Nat.le_succ _))⟩ ?_, by simp⟩
    rintro other ⟨⟩
    exact hheld
  | discarded =>
    exact ⟨hfound trivial trivial fun _ => nofun, by simp⟩
  | launched =>
    obtain hhanded | hhanded := List.mem_cons.mp hhanded
    · cases hhanded
      refine ⟨hfound trivial trivial fun _ => nofun, fun job hjob => ?_⟩
      obtain rfl := List.mem_singleton.mp hjob
      refine ⟨started.length, by simp [Pool.jobOf], T.yields action, Set.mem_insert _ _, ?_⟩
      exact hR.act (hall.trans (below_subset_found hnew))
    · simp at hhanded

/-- The job of the queue that begins holds older fibers than its own. -/
theorem began (hR : R.toInterpreter.Sound T L) (h : pool.Ranked T L Γ started rank)
    {action : S.Action} (hbefore : pool.get? fiber = some (.waiting action))
    (hfibers : pool'.fibers = (pool.set fiber .running).fibers)
    (hfiber : ⟨fiber, T.yields action⟩ ∈ Γ) :
    pool'.Ranked T L Γ started rank ∧
      (Pool.jobOf R.toInterpreter fiber action).Ranked T L Γ started rank .idle := by
  obtain ⟨i, hi, hheld⟩ := h.waiting hbefore
  refine ⟨h.goOn hbefore hfibers trivial trivial (fun _ => nofun) fun _ _ _ => trivial, ?_⟩
  exact ⟨i, hi, T.yields action, hfiber, hR.act hheld⟩

/-- A move keeps fibers ranked, and so are the jobs that begin because of it. Whoever makes the
move holds fibers of rank `reach` at most, and still does after that unless it may fork. -/
theorem upshot {forks forks' : Prop} {code code' : S.Code → Prop}
    {stored : W → Set (Handle S.Base)} {phase : Actor → Phase} {who : Actor}
    {activity : Activity S} {launched : List (Job S)} {reach : Nat}
    (hR : R.toInterpreter.Sound T L) (hsound : pool.Sound T (.lenient S forks code) stored Γ phase)
    (h : pool.Ranked T L Γ started rank)
    (hallowed : activity.Allowed T (.lenient S forks' code') (below rank Γ reach) (phase who))
    (hreach : reach ≤ started.length)
    (hreplied : ∀ e reply, activity = .performed e reply → T.replied e reply = ∅)
    (hupshot : activity.Upshot R pool pool' launched) (deeds : List (Deed S)) :
    ∃ rank', pool'.Ranked T L (Γ ∪ activity.gained T)
        (started ++ handedFibers [.did who activity deeds]) rank' ∧
      (∀ i, below rank Γ i ⊆ below rank' (Γ ∪ activity.gained T) i) ∧
      (¬ forks' → activity.gained T ⊆ below rank' (Γ ∪ activity.gained T) reach) ∧
      ∀ job ∈ launched, job.Ranked T L (Γ ∪ activity.gained T)
        (started ++ handedFibers [.did who activity deeds]) rank' .idle := by
  -- Nobody holds a fiber that has nothing behind its name.
  have hnew {fiber : FiberId} (hnamed : pool.get? fiber = some .named) (υ : Ty S.Base) :
      ⟨fiber, υ⟩ ∉ Γ := fun hυ => hsound.ne_named hυ hnamed
  have hquiet (hgained : activity.gained T = ∅)
      (hhanded : handedFibers [.did who activity deeds] = [])
      (hranked : pool'.Ranked T L Γ started rank)
      (hjobs : ∀ job ∈ launched, job.Ranked T L Γ started rank .idle) :
      ∃ rank', pool'.Ranked T L (Γ ∪ activity.gained T)
          (started ++ handedFibers [.did who activity deeds]) rank' ∧
        (∀ i, below rank Γ i ⊆ below rank' (Γ ∪ activity.gained T) i) ∧
        (¬ forks' → activity.gained T ⊆ below rank' (Γ ∪ activity.gained T) reach) ∧
        ∀ job ∈ launched, job.Ranked T L (Γ ∪ activity.gained T)
          (started ++ handedFibers [.did who activity deeds]) rank' .idle := by
    rw [hgained, hhanded, Set.union_empty, List.append_nil]
    exact ⟨rank, hranked, fun _ => subset_rfl, fun _ => Set.empty_subset _, hjobs⟩
  cases hupshot with
  | still not_made not_named fibers =>
    have hstill := h.still fun fiber => .inl (Pool.get?_congr fibers fiber)
    cases activity with
    | handed fiber action =>
      exact absurd (hsound.named hallowed.1.2) (not_named _ _ (.inl rfl))
    | kept fiber action => exact absurd (hsound.named hallowed.1) (not_named _ _ (.inr rfl))
    | performed e reply => exact hquiet (hreplied e reply rfl) rfl hstill (by simp)
    | _ => exact hquiet rfl rfl hstill (by simp)
  | made fibers =>
    refine hquiet rfl rfl (h.still fun fiber => ?_) (by simp)
    rw [Pool.get?_push fibers]
    split
    · subst_vars
      exact .inr ⟨by simp [Pool.get?], rfl⟩
    · exact .inl rfl
  | @kept fiber action before fibers =>
    obtain ⟨-, hheld⟩ := hallowed
    rw [Activity.gained, Set.union_singleton,
      show handedFibers [.did who (.kept fiber action) deeds] = [] from rfl, List.append_nil]
    refine ⟨Function.update rank fiber reach, ?_, fun i => below_subset_found (hnew before), ?_,
      by simp⟩
    · exact h.found (hnew before) before fibers (.apart id hreach) ⟨rfl, hheld⟩ (by simp)
    · rintro - handle rfl
      exact (mem_below_found (hnew before)).mpr (.inr ⟨rfl, Nat.le_refl _⟩)
  | @handed fiber action more launched stage before passes hhanded fibers =>
    obtain ⟨⟨hmay, -⟩, hheld⟩ := hallowed
    have hheld : T.held action ⊆ Γ := hheld.trans fun _ hhandle => hhandle.1
    obtain ⟨hranked, hjobs⟩ := h.handed hR (hnew before) before hheld passes hhanded fibers
    rw [Activity.gained, Set.union_singleton,
      show handedFibers [.did who (.handed fiber action) deeds] = [fiber] from rfl]
    exact ⟨_, hranked, fun i => below_subset_found (hnew before), absurd hmay, hjobs⟩
  | @began fiber action before fibers =>
    obtain ⟨τ, hτ⟩ := hsound.given before (by simp)
    obtain ⟨stage, hstage, hsuits⟩ := hsound.supports _ hτ
    cases before.symm.trans hstage
    obtain ⟨rfl, -⟩ := hsuits
    obtain ⟨hranked, hjob⟩ := h.began hR before fibers hτ
    exact hquiet rfl rfl hranked (by simpa using hjob)

end Pool.Ranked

/-! ## Scenes in which fibers have ranks -/

namespace Scene

/-- Fibers are ranked, and all jobs under way hold older fibers than their own. -/
structure Ranked (T : Typing S) (L : Licence S) (scene : Scene S W α) (Γ : Set (Handle S.Base))
    (phase : Actor → Phase) (started : List FiberId) (rank : FiberId → Nat) : Prop where
  pool : scene.pool.Ranked T L Γ started rank
  jobs : ∀ job ∈ scene.jobs, job.Ranked T L Γ started rank (phase (.job job.fiber))

variable {R : Runtime S W} {stored : W → Set (Handle S.Base)}
  {post : Set (Handle S.Base) → Phase → α → Prop} {scene scene' : Scene S W α}
  {Γ : Set (Handle S.Base)} {phase : Actor → Phase} {started : List FiberId}
  {rank : FiberId → Nat} {entry : Entry S} {entries : List (Entry S)} {deeds : List (Deed S)}

section Steps

variable (hworld : ∀ e w, T.replied e (R.effect e w).1 = ∅)
  (hloud : R.Sound T (.lenient S True fun _ => True) stored)
  (hquiet : R.toInterpreter.Sound T (.lenient S False calm))

include hworld in
/-- No fiber comes from the world outside. -/
theorem replied_eq_empty {activity : Activity S} {w w' : W} (hturns : activity.Turns R w w')
    (e : S.Effect) (reply : S.Reply e) (hactivity : activity = .performed e reply) :
    T.replied e reply = ∅ := by
  subst hactivity
  have hreply : (R.effect e w).1 = reply := congrArg Prod.fst hturns
  rw [← hreply]
  exact hworld e w

/-- If a job moves or ends, the others hold what they held: they are jobs of other fibers. -/
theorem Ranked.otherJob {pool : Pool S W} {callers : List (Main S α)} {before after : List (Job S)}
    {job other : Job S}
    (h : Ranked T L ⟨pool, callers, before ++ job :: after⟩ Γ phase started rank)
    (hrecorded : Recorded R ⟨pool, callers, before ++ job :: after⟩ deeds)
    (hwho : entry.who? = some (.job job.fiber)) (hother : other ∈ before ++ after)
    (L' : Licence S) :
    other.Ranked T L Γ started rank (L'.turn phase entry (.job other.fiber)) := by
  rw [Licence.turn_of_ne]
  · exact h.jobs other (((List.sublist_cons_self job after).append_left before).subset hother)
  · rw [hwho]
    intro hsame
    have hfiber : job.fiber = other.fiber := by simpa using hsame
    exact hrecorded.fiber_ne hother hfiber.symm

include hworld hloud hquiet in
/-- A caller moves. It may start fibers, so it may hold all that have been started. -/
theorem Ranked.callerMoves {pool pool' : Pool S W} {before after : List (Main S α)}
    {thread thread' : Thread S α} {launch : Launch S} {jobs : List (Job S)}
    (hsound : Sound T (.lenient S True fun _ => True) stored post
      ⟨pool, before ++ .running thread :: after, jobs⟩ Γ phase)
    (h : Ranked T (.lenient S False calm) ⟨pool, before ++ .running thread :: after, jobs⟩ Γ phase
      started rank)
    (moved : thread.move R pool = (.moved thread' launch, pool')) :
    ∃ rank', Ranked T (.lenient S False calm)
      ⟨pool', before ++ .running thread' :: after, launch.onto jobs⟩
      (Γ ∪ (thread.activity R pool).gained T)
      (Licence.turn (.lenient S True fun _ => True) phase
        (.did (.caller before.length) (thread.activity R pool) (thread.deeds R pool)))
      (started ++ handedFibers
        [.did (.caller before.length) (thread.activity R pool) (thread.deeds R pool)]) rank' := by
  have hplace : (before ++ .running thread :: after)[before.length]? =
      some (Main.running thread) := by simp
  have hturns := (Thread.told_of_move moved).1
  have hupshot := Thread.upshot_of_move moved
  obtain ⟨hallowed, -⟩ :=
    (hsound.running hplace).move hloud.toInterpreterSound hsound.pool.supports moved
  obtain ⟨-, hidle⟩ := hsound.pool.upshot hloud hallowed hupshot hturns (by simp)
  have hallowed' := hallowed
  rw [← h.pool.below_length] at hallowed'
  obtain ⟨rank', hpool, hbelow, -, hjobs⟩ := h.pool.upshot hquiet hsound.pool hallowed'
    (Nat.le_refl _) (replied_eq_empty hworld hturns) hupshot (thread.deeds R pool)
  refine ⟨rank', hpool, fun job hjob => ?_⟩
  obtain hlaunched | hold := List.mem_append.mp ((launch.onto_perm jobs).mem_iff.mp hjob)
  · obtain ⟨-, -, hphase, -⟩ := hidle job hlaunched
    rw [Licence.turn, hphase]
    exact hjobs job hlaunched
  · rw [Licence.turn_of_ne (by simp [Entry.who?])]
    exact (h.jobs job hold).mono Set.subset_union_left (List.prefix_append ..) hbelow

include hworld hloud hquiet in
/-- A job moves. It holds older fibers than its own before that, and starts none. -/
theorem Ranked.jobMoves {pool pool' : Pool S W} {callers : List (Main S α)}
    {before after : List (Job S)} {fiber : FiberId} {thread thread' : Thread S S.Value}
    {launch : Launch S}
    (hsound : Sound T (.lenient S True fun _ => True) stored post
      ⟨pool, callers, before ++ ⟨fiber, thread⟩ :: after⟩ Γ phase)
    (h : Ranked T (.lenient S False calm) ⟨pool, callers, before ++ ⟨fiber, thread⟩ :: after⟩ Γ
      phase started rank)
    (hrecorded : Recorded R ⟨pool, callers, before ++ ⟨fiber, thread⟩ :: after⟩ deeds)
    (moved : thread.move R pool = (.moved thread' launch, pool')) :
    ∃ rank', Ranked T (.lenient S False calm)
      ⟨pool', callers, launch.onto (before ++ ⟨fiber, thread'⟩ :: after)⟩
      (Γ ∪ (thread.activity R pool).gained T)
      (Licence.turn (.lenient S True fun _ => True) phase
        (.did (.job fiber) (thread.activity R pool) (thread.deeds R pool)))
      (started ++ handedFibers
        [.did (.job fiber) (thread.activity R pool) (thread.deeds R pool)]) rank' := by
  have hjob : ⟨fiber, thread⟩ ∈ before ++ ⟨fiber, thread⟩ :: after := by simp
  have hturns := (Thread.told_of_move moved).1
  have hupshot := Thread.upshot_of_move moved
  obtain ⟨υ, -, hthread⟩ := hsound.jobs _ hjob
  obtain ⟨hallowed, -⟩ := hthread.move hloud.toInterpreterSound hsound.pool.supports moved
  obtain ⟨-, hidle⟩ := hsound.pool.upshot hloud hallowed hupshot hturns fun other hother => by
    cases hother
    exact hrecorded.running hjob
  -- What the job gains by its move is no younger than what it holds.
  obtain ⟨i, hi, τ, hτ, hthread⟩ := h.jobs _ hjob
  obtain ⟨hallowed, hthread'⟩ := hthread.move hquiet (h.pool.supports i) moved
  have hreach : i ≤ started.length := (List.getElem?_eq_some_iff.mp hi).1.le
  obtain ⟨rank', hpool, hbelow, hgained, hjobs⟩ := h.pool.upshot hquiet hsound.pool hallowed
    hreach (replied_eq_empty hworld hturns) hupshot (thread.deeds R pool)
  refine ⟨rank', hpool, fun job hmem => ?_⟩
  obtain hlaunched | hold := List.mem_append.mp ((launch.onto_perm _).mem_iff.mp hmem)
  · obtain ⟨-, -, hphase, -⟩ := hidle job hlaunched
    rw [Licence.turn, hphase]
    exact hjobs job hlaunched
  · obtain hother | rfl : job ∈ before ++ after ∨ job = ⟨fiber, thread'⟩ := by
      simpa [or_comm, or_assoc, or_left_comm] using hold
    · exact (h.otherJob hrecorded rfl hother _).mono Set.subset_union_left
        (List.prefix_append ..) hbelow
    · refine ⟨i, getElem?_of_prefix (List.prefix_append ..) hi, τ, .inl hτ, ?_⟩
      rw [Licence.turn, Function.update_self, Licence.after_lenient _ False _ calm]
      refine hthread'.mono ?_ fun _ _ _ _ => Comp.Yielded.mono
      exact Set.union_subset (hbelow i) (hgained id)

/-- A job ends. What it yields holds older fibers than the one that yields it. -/
theorem Ranked.jobEnds {pool pool' : Pool S W} {callers : List (Main S α)}
    {before after : List (Job S)} {fiber : FiberId} {thread : Thread S S.Value}
    {outcome : Except Fault S.Value} {fault? : Option Fault} {more : List (Deed S)}
    (hunique : ∀ {fiber τ υ}, ⟨fiber, τ⟩ ∈ Γ → ⟨fiber, υ⟩ ∈ Γ → τ = υ)
    (h : Ranked T (.lenient S False calm) ⟨pool, callers, before ++ ⟨fiber, thread⟩ :: after⟩ Γ
      phase started rank)
    (hrecorded : Recorded R ⟨pool, callers, before ++ ⟨fiber, thread⟩ :: after⟩ deeds)
    (ended : thread.move R pool = (.ended outcome, pool')) (L' : Licence S) :
    Ranked T (.lenient S False calm)
      ⟨pool.finish R.level fiber outcome, callers, before ++ after⟩ Γ
      (L'.turn phase (.ended (.job fiber) fault? more)) started rank := by
  have hjob : ⟨fiber, thread⟩ ∈ before ++ ⟨fiber, thread⟩ :: after := by simp
  have hrunning := hrecorded.running hjob
  obtain ⟨i, hi, τ, hτ, hthread⟩ := h.jobs _ hjob
  have hanswered := hthread.ended ended
  refine ⟨h.pool.goOn hrunning (Pool.fibers_finish hrunning) trivial trivial (by simp) ?_,
    fun job hother => h.otherJob hrecorded rfl hother L'⟩
  intro j υ hυ
  obtain rfl := hunique hυ.1 hτ
  cases outcome with
  | error fault => trivial
  | ok v =>
    refine hanswered.2.mono (below_mono ?_)
    have hrank := hυ.2
    rw [h.pool.place hi] at hrank
    omega

include hworld hloud hquiet in
/-- Whatever happens, jobs hold older fibers than their own. -/
theorem Ranked.incident (hsound : scene.Sound T (.lenient S True fun _ => True) stored post Γ phase)
    (h : scene.Ranked T (.lenient S False calm) Γ phase started rank)
    (hrecorded : Recorded R scene deeds) (incident : Incident R scene [entry] scene') :
    ∃ rank', scene'.Ranked T (.lenient S False calm) (Γ ∪ entry.gained T)
      (Licence.turn (.lenient S True fun _ => True) phase entry)
      (started ++ handedFibers [entry]) rank' := by
  cases incident with
  | caller before after jobs moved => exact h.callerMoves hworld hloud hquiet hsound moved
  | @callerEnded pool _ before after thread outcome jobs ended =>
    obtain ⟨-, rfl⟩ := Thread.of_ended ended
    have hnone : handedFibers
        [Entry.ended (S := S) (.caller before.length) (outcomeFault outcome) []] = [] := rfl
    rw [Entry.gained, Set.union_empty, hnone, List.append_nil]
    refine ⟨rank, h.pool, fun job hjob => ?_⟩
    rw [Licence.turn_of_ne (by simp [Entry.who?])]
    exact h.jobs job hjob
  | job callers before after moved => exact h.jobMoves hworld hloud hquiet hsound hrecorded moved
  | @jobEnded pool _ callers before after fiber thread outcome ended =>
    obtain ⟨-, rfl⟩ := Thread.of_ended ended
    have hnone : handedFibers
        [Entry.ended (.job fiber) (outcomeFault outcome) [.ended fiber outcome]] = [] := rfl
    rw [Entry.gained, Set.union_empty, hnone, List.append_nil]
    exact ⟨rank, h.jobEnds hsound.pool.unique hrecorded ended _⟩
  | @jobBegun pool pool' callers jobs position job started =>
    have hupshot := Pool.upshot_startAt started
    have hturns := (Pool.told_startAt started).1
    -- It makes no difference who has it begin.
    have hallowed : Activity.Allowed T (.lenient S True fun _ => True) Γ .attended
      (phase (.caller 0)) := trivial
    obtain ⟨-, hidle⟩ := hsound.pool.upshot hloud hallowed hupshot hturns (by simp)
    have hallowed' := hallowed
    rw [← h.pool.below_length] at hallowed'
    obtain ⟨rank', hpool, hbelow, -, hjobs⟩ := h.pool.upshot hquiet hsound.pool hallowed'
      (Nat.le_refl _) (by simp) hupshot []
    refine ⟨rank', hpool, fun other hother => ?_⟩
    obtain rfl | hold := List.mem_cons.mp hother
    · obtain ⟨-, -, hphase, -⟩ := hidle other (List.mem_singleton_self other)
      rw [Function.update_of_ne (by simp)] at hphase
      rw [Licence.turn, hphase]
      exact hjobs other (List.mem_singleton_self other)
    · exact (h.jobs other hold).mono Set.subset_union_left (List.prefix_append ..) hbelow
  | @drop pool position fiber callers jobs queued =>
    obtain ⟨action, hwaiting⟩ :=
      hrecorded.waiting (Array.mem_toList_iff.mpr (Array.mem_of_getElem? queued))
    rw [Entry.gained, Set.union_empty,
      show handedFibers [Entry.queued (.dropped fiber : Deed S)] = [] from rfl, List.append_nil]
    refine ⟨rank, h.pool.goOn hwaiting (Pool.fibers_release fun ending hended => ?_) trivial
      trivial (by simp) fun _ _ _ => trivial, h.jobs⟩
    cases hwaiting.symm.trans hended

include hworld hloud hquiet in
/-- In all scenes of a story, jobs hold older fibers than their own. -/
theorem exists_ranked_of_story (hpost : ∀ Γ Γ' q a, Γ ⊆ Γ' → post Γ q a → post Γ' q a) {world : W}
    (hstored : stored world = ∅) {computations : List (Comp S α)}
    (hcomputations : ∀ c ∈ computations, c.Sound T (.lenient S True fun _ => True) post ∅ .idle)
    (story : Trail (Incident R) (start world computations) entries scene) :
    ∃ rank, scene.Ranked T (.lenient S False calm) (T.given entries)
      (Licence.phases (.lenient S True fun _ => True) entries) (handedFibers entries) rank := by
  induction story with
  | refl =>
    have hnone (fiber : FiberId) : (start world computations).pool.get? fiber = none := by
      simp [start, Pool.empty, Pool.get?]
    have hgiven : T.given ([] : List (Entry S)) = ∅ := by simp [Typing.given]
    rw [hgiven]
    refine ⟨fun _ => 0, ⟨?_, ?_, fun fiber => ?_, fun i => ?_, fun hwaiting => ?_⟩, ?_⟩
    · simp [handedFibers]
    · simp [handedFibers]
    · simp [hnone, handedFibers]
    · rintro handle ⟨hhandle, -⟩
      exact hhandle.elim
    · cases (hnone _).symm.trans hwaiting
    · simp [start]
  | tail story last ih =>
    obtain ⟨rank, h⟩ := ih
    obtain ⟨entry, rfl⟩ := last.exists_entry
    obtain ⟨hsound, -⟩ := sound_of_story hpost hloud hstored hcomputations story
    obtain ⟨rank', h'⟩ :=
      h.incident hworld hloud hquiet hsound (recorded_of_story story) last
    refine ⟨rank', ?_⟩
    rw [Typing.given_append, Typing.given_singleton, Licence.phases, List.foldl_append,
      handedFibers_append]
    exact h'

end Steps

end Scene

end FiberPrograms
