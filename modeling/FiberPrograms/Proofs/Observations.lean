import FiberPrograms.Proofs.Observers
import FiberPrograms.Proofs.TypeSafety
import Mathlib.Data.List.Nodup

/-!
# What is observed, and in which order

A fiber comes about in steps: somebody makes a name for it, reports that it is about to be started,
and hands its action to the spawner. In a story in which reports are recorded, each of these steps
is taken once, by the same actor, with nothing of what the fiber does before them, unless an
observer fails after the report: then the fiber is never started. So the reports of forks account
for all jobs that programs have handed to the spawner.

How far a fiber has got with this is its standing, and a story is read once for each fiber.

## Main definitions

* `Entry.About`, `Entry.Founds`: entries that have to do with a fiber, and with how it comes about
* `Standing`, `Standing.Step`, `Standing.Runs`: how far a fiber has got
* `Fork.Fate`, `Await.Fate`: what may follow the report of a fork, and that of an await

## Main results

* `Scene.exists_standing_step`: every incident takes every fiber from one standing to the next
* `Scene.observation_order`: order of events, and which jobs they account for
-/

namespace FiberPrograms

variable {S : Signature} {W α : Type} {T : Typing S} {direct : S.Action → Prop}
  {panics : Event → Fault → Prop} {stored : W → Set (Handle S.Base)} {fiber : FiberId}

/-! ## What entries tell -/

/-- The fiber of whose start an event reports. -/
def Event.forked? : Event → Option FiberId
  | fork fiber _ => some fiber
  | _ => none

/-- The fiber that an activity is about. -/
def Activity.fiber? : Activity S → Option FiberId
  | made fiber => some fiber
  | handed fiber _ => some fiber
  | kept fiber _ => some fiber
  | noted (.fork fiber _) => some fiber
  | noted (.await fiber) => some fiber
  | read fiber => some fiber
  | _ => none

namespace Entry

/-- Whether an entry tells of a fiber, or of anything that its job does. -/
def About (fiber : FiberId) : Entry S → Prop
  | did who activity deeds =>
    who = .job fiber ∨ activity.fiber? = some fiber ∨ ∃ deed ∈ deeds, deed.fiber = fiber
  | ended who _ _ => who = .job fiber
  | queued deed => deed.fiber = fiber

/-- Whether an action is put behind the name of a fiber. -/
def Puts (fiber : FiberId) : Entry S → Prop
  | did _ (.handed other _) _ => other = fiber
  | did _ (.kept other _) _ => other = fiber
  | _ => False

/-- Whether an entry tells of how a fiber comes about: it is named, or it is reported that it is
about to be started, or an action is put behind its name. -/
def Founds (fiber : FiberId) : Entry S → Prop
  | did _ (.made other) _ => other = fiber
  | did _ (.handed other _) _ => other = fiber
  | did _ (.kept other _) _ => other = fiber
  | did _ (.noted (.fork other _)) _ => other = fiber
  | _ => False

theorem Puts.founds {entry : Entry S} (h : entry.Puts fiber) : entry.Founds fiber := by
  unfold Puts at h
  split at h
  · exact h
  · exact h
  · exact h.elim

/-- How a fiber comes about is about the fiber. -/
theorem Founds.about {entry : Entry S} (h : entry.Founds fiber) : entry.About fiber := by
  unfold Founds at h
  split at h
  · exact .inr (.inl (congrArg some h))
  · exact .inr (.inl (congrArg some h))
  · exact .inr (.inl (congrArg some h))
  · exact .inr (.inl (congrArg some h))
  · exact h.elim

/-- Whether an actor has only looked on. -/
def Attends : Entry S → Prop
  | did _ .attended _ => True
  | did _ (.performed _ _) _ => True
  | _ => False

/-- An actor, or the program that it runs, has failed. -/
inductive Raises (who : Actor) (fault : Fault) : Entry S → Prop
  | did (deeds : List (Deed S)) : Raises who fault (.did who (.raised fault) deeds)
  | ended (deeds : List (Deed S)) : Raises who fault (.ended who (some fault) deeds)

end Entry

/-- The fibers of whose starts a story reports. -/
def forkedFibers (entries : List (Entry S)) : List FiberId :=
  (entries.flatMap Entry.events).filterMap Event.forked?

/-- Whoever does not tell of how a fiber comes about neither reports its start nor hands its action
to the spawner. -/
theorem Entry.not_mem_of_not_founds {entry : Entry S} (h : ¬ entry.Founds fiber) :
    fiber ∉ forkedFibers [entry] ∧ fiber ∉ handedFibers [entry] := by
  constructor
  · intro hmem
    -- Only a report of a fork tells of a start.
    obtain ⟨event, hevent, hforked⟩ : ∃ event ∈ entry.events, event.forked? = some fiber := by
      simpa [forkedFibers] using hmem
    cases entry with
    | did who activity deeds =>
      cases activity with
      | noted event' =>
        obtain rfl := List.mem_singleton.mp hevent
        cases event with
        | fork other place => exact h (Option.some.inj hforked)
        | await other => cases hforked
        | finished outermost => cases hforked
      | _ => cases hevent
    | ended who fault? deeds => cases hevent
    | queued deed => cases hevent
  · intro hmem
    obtain hhanded : entry.handed? = some fiber := by simpa [handedFibers] using hmem
    cases entry with
    | did who activity deeds =>
      cases activity with
      | handed other action => exact h (Option.some.inj hhanded)
      | _ => cases hhanded
    | ended who fault? deeds => cases hhanded
    | queued deed => cases hhanded

/-! ## The standing of a fiber -/

/-- How far a fiber has got. -/
inductive Standing where
  | unmade
  /-- An actor has made a name for it. -/
  | made (who : Actor)
  /-- It has reported that the fiber is about to be started. -/
  | announced (who : Actor) (place : Place)
  /-- An action has been put behind the name. -/
  | founded
  /-- The fiber has a name, and there will never be anything behind it. -/
  | lost

namespace Standing

/-- What leaves the standing of a fiber as it is. -/
def Quiet (fiber : FiberId) (entry : Entry S) : Standing → Prop
  | unmade => ¬ entry.About fiber
  | made who => ¬ entry.About fiber ∧ (entry.who? = some who → entry.Attends)
  | announced who _ => ¬ entry.About fiber ∧ (entry.who? = some who → entry.Attends)
  | founded => ¬ entry.Founds fiber
  | lost => ¬ entry.About fiber

/-- How a fiber gets from one standing to the next. -/
inductive Step (direct : S.Action → Prop) (panics : Event → Fault → Prop) (fiber : FiberId) :
    Standing → Entry S → Standing → Prop
  | named (who : Actor) (deeds : List (Deed S)) :
      Step direct panics fiber .unmade (.did who (.made fiber) deeds) (.made who)
  | forked (who : Actor) (place : Place) (deeds : List (Deed S)) :
      Step direct panics fiber (.made who) (.did who (.noted (.fork fiber place)) deeds)
        (.announced who place)
  | handed (who : Actor) (place : Place) (action : S.Action) (deeds : List (Deed S)) :
      Step direct panics fiber (.announced who place) (.did who (.handed fiber action) deeds)
        .founded
  /-- User code starts the action without a report. -/
  | started (who : Actor) {action : S.Action} (hdirect : direct action) (deeds : List (Deed S)) :
      Step direct panics fiber (.made who) (.did who (.handed fiber action) deeds) .founded
  | kept (who : Actor) (action : S.Action) (deeds : List (Deed S)) :
      Step direct panics fiber (.made who) (.did who (.kept fiber action) deeds) .founded
  | givenUp {who : Actor} {entry : Entry S} {fault : Fault} (hraises : entry.Raises who fault)
      (hnot : ¬ entry.About fiber) : Step direct panics fiber (.made who) entry .lost
  | panicked {who : Actor} {place : Place} {entry : Entry S} {fault : Fault}
      (hraises : entry.Raises who fault) (hnot : ¬ entry.About fiber)
      (hpanics : panics (.fork fiber place) fault) :
      Step direct panics fiber (.announced who place) entry .lost
  | quiet {s : Standing} {entry : Entry S} (hquiet : s.Quiet fiber entry) :
      Step direct panics fiber s entry s

/-- What a fiber goes through while a story is told. -/
inductive Runs (direct : S.Action → Prop) (panics : Event → Fault → Prop) (fiber : FiberId) :
    Standing → List (Entry S) → Standing → Prop
  | nil (s : Standing) : Runs direct panics fiber s [] s
  | cons {s t u : Standing} {entry : Entry S} {rest : List (Entry S)}
      (hstep : Step direct panics fiber s entry t) (hrest : Runs direct panics fiber t rest u) :
      Runs direct panics fiber s (entry :: rest) u

namespace Runs

variable {s t u : Standing} {entry : Entry S} {entries more : List (Entry S)}

theorem append (h : Runs direct panics fiber s entries t) (h' : Runs direct panics fiber t more u) :
    Runs direct panics fiber s (entries ++ more) u := by
  induction h with
  | nil => exact h'
  | cons hstep _ ih => exact .cons hstep (ih h')

theorem of_append (h : Runs direct panics fiber s (entries ++ more) u) :
    ∃ t, Runs direct panics fiber s entries t ∧ Runs direct panics fiber t more u := by
  induction entries generalizing s with
  | nil => exact ⟨s, .nil s, h⟩
  | cons entry rest ih =>
    cases h with
    | cons hstep hrest =>
      obtain ⟨t, hfirst, hmore⟩ := ih hrest
      exact ⟨t, .cons hstep hfirst, hmore⟩

end Runs

/-- The place of a standing in the order in which fibers go through them. -/
def rank : Standing → Nat
  | unmade => 0
  | made _ => 1
  | announced _ _ => 2
  | founded => 3
  | lost => 3

variable {s t : Standing} {entry : Entry S} {entries : List (Entry S)}

/-- A step that is not quiet takes the fiber further. -/
theorem Step.quiet_or_lt (h : Step direct panics fiber s entry t) :
    s = t ∧ s.Quiet fiber entry ∨ s.rank < t.rank := by
  cases h with
  | quiet hquiet => exact .inl ⟨rfl, hquiet⟩
  | _ => exact .inr (by simp [rank])

theorem Runs.rank_le (h : Runs direct panics fiber s entries t) : s.rank ≤ t.rank := by
  induction h with
  | nil => exact Nat.le_refl _
  | cons hstep _ ih =>
    obtain ⟨rfl, -⟩ | hlt := hstep.quiet_or_lt
    · exact ih
    · omega

/-- As long as a fiber gets no further, everything is quiet about it. -/
theorem Runs.quiet (h : Runs direct panics fiber s entries t) (hrank : t.rank ≤ s.rank) :
    s = t ∧ ∀ entry ∈ entries, s.Quiet fiber entry := by
  induction h with
  | nil => simp
  | cons hstep hrest ih =>
    obtain ⟨rfl, hquiet⟩ | hlt := hstep.quiet_or_lt
    · obtain ⟨rfl, hall⟩ := ih hrank
      exact ⟨rfl, List.forall_mem_cons.mpr ⟨hquiet, hall⟩⟩
    · have hle := hrest.rank_le
      omega

/-- A fiber that has a name and no more has been named once, and nothing else is told of it. -/
theorem Runs.exists_named {who : Actor}
    (h : Runs direct panics fiber .unmade entries (.made who)) :
    ∃ earlier deeds later, entries = earlier ++ .did who (.made fiber) deeds :: later ∧
      ∀ entry ∈ earlier ++ later, ¬ entry.About fiber := by
  generalize hs : Standing.unmade = s at h
  generalize ht : Standing.made who = t at h
  induction h with
  | nil => cases hs.trans ht.symm
  | @cons _ _ _ entry rest hstep hrest ih =>
    subst hs ht
    cases hstep with
    | named who' deeds =>
      obtain ⟨hsame, hquiet⟩ := hrest.quiet (Nat.le_refl _)
      cases hsame
      exact ⟨[], deeds, rest, rfl, fun other hother => (hquiet other hother).1⟩
    | quiet hquiet =>
      obtain ⟨earlier, deeds, later, rfl, hnot⟩ := ih rfl rfl
      exact ⟨entry :: earlier, deeds, later, rfl, List.forall_mem_cons.mpr ⟨hquiet, hnot⟩⟩

/-- It has been reported of an announced fiber that it is about to be started. -/
theorem Runs.exists_forked {who : Actor} {place : Place}
    (h : Runs direct panics fiber s entries (.announced who place)) (hs : s.rank < 2) :
    ∃ deeds, .did who (.noted (.fork fiber place)) deeds ∈ entries := by
  generalize ht : Standing.announced who place = t at h
  induction h with
  | nil =>
    subst ht
    exact absurd hs (by simp [rank])
  | @cons s t u entry rest hstep hrest ih =>
    subst ht
    by_cases hrank : t.rank < 2
    · obtain ⟨deeds, hmem⟩ := ih hrank rfl
      exact ⟨deeds, List.mem_cons_of_mem _ hmem⟩
    · -- This is the step at which it is announced.
      obtain ⟨rfl, -⟩ := hrest.quiet (Nat.not_lt.mp hrank)
      cases hstep with
      | forked who place deeds => exact ⟨deeds, List.mem_cons_self⟩
      | quiet => exact absurd hs hrank

/-- How often the start of a fiber has been reported, at most. -/
def reports : Standing → Nat
  | unmade | made _ => 0
  | announced _ _ | founded | lost => 1

/-- How often the action of a fiber has been handed to the spawner, at most. -/
def handings : Standing → Nat
  | founded => 1
  | _ => 0

theorem Quiet.not_founds (h : s.Quiet fiber entry) : ¬ entry.Founds fiber := by
  intro hfounds
  cases s with
  | made who | announced who place => exact h.1 hfounds.about
  | founded => exact h hfounds
  | unmade | lost => exact h hfounds.about

/-- The start of a fiber is reported at most once, and its action is handed over at most once. -/
theorem Step.count_le (h : Step direct panics fiber s entry t) :
    (forkedFibers [entry]).count fiber + s.reports ≤ t.reports ∧
      (handedFibers [entry]).count fiber + s.handings ≤ t.handings := by
  have hnone (hnot : ¬ entry.Founds fiber) :
      (forkedFibers [entry]).count fiber = 0 ∧ (handedFibers [entry]).count fiber = 0 := by
    obtain ⟨hforked, hhanded⟩ := Entry.not_mem_of_not_founds hnot
    exact ⟨List.count_eq_zero.mpr hforked, List.count_eq_zero.mpr hhanded⟩
  cases h with
  | quiet hquiet =>
    obtain ⟨hforked, hhanded⟩ := hnone hquiet.not_founds
    omega
  | givenUp _ hnot | panicked _ hnot =>
    obtain ⟨hforked, hhanded⟩ := hnone fun hfounds => hnot hfounds.about
    simp only [reports, handings]
    omega
  | _ => simp [forkedFibers, handedFibers, List.filterMap_cons, Entry.events, Activity.events,
      Event.forked?, Entry.handed?, reports, handings]

theorem Runs.count_le (h : Runs direct panics fiber s entries t) :
    (forkedFibers entries).count fiber + s.reports ≤ t.reports ∧
      (handedFibers entries).count fiber + s.handings ≤ t.handings := by
  induction h with
  | nil => simp [forkedFibers, handedFibers]
  | @cons _ _ _ entry rest hstep _ ih =>
    have hfirst := hstep.count_le
    have hforked : forkedFibers (entry :: rest) = forkedFibers [entry] ++ forkedFibers rest := by
      simp [forkedFibers]
    have hhanded : handedFibers (entry :: rest) = handedFibers [entry] ++ handedFibers rest := by
      rw [← handedFibers_append, List.singleton_append]
    rw [hforked, hhanded, List.count_append, List.count_append]
    omega

end Standing

/-! ## What follows a report -/

/-- What may follow the report of a fork. -/
inductive ForkFate (panics : Event → Fault → Prop) (who : Actor) (fiber : FiberId) (place : Place) :
    List (Entry S) → Prop
  /-- Whoever is to start the fiber has not got to it yet: some observer still looks on. -/
  | inProgress {after : List (Entry S)} (hnot : ∀ entry ∈ after, ¬ entry.About fiber)
      (hattends : ∀ entry ∈ after, entry.who? = some who → entry.Attends) :
      ForkFate panics who fiber place after
  /-- The action has been handed to the spawner, once. -/
  | handed (meanwhile rest : List (Entry S)) (action : S.Action) (deeds : List (Deed S))
      (hnot : ∀ entry ∈ meanwhile, ¬ entry.About fiber)
      (hattends : ∀ entry ∈ meanwhile, entry.who? = some who → entry.Attends)
      (hfounded : ∀ entry ∈ rest, ¬ entry.Founds fiber) :
      ForkFate panics who fiber place (meanwhile ++ .did who (.handed fiber action) deeds :: rest)
  /-- An observer has failed, and the fiber is never told of again. -/
  | panicked (meanwhile rest : List (Entry S)) {entry : Entry S} {fault : Fault}
      (hraises : entry.Raises who fault) (hpanics : panics (.fork fiber place) fault)
      (hnot : ∀ other ∈ meanwhile ++ entry :: rest, ¬ other.About fiber)
      (hattends : ∀ other ∈ meanwhile, other.who? = some who → other.Attends) :
      ForkFate panics who fiber place (meanwhile ++ entry :: rest)

/-- What may follow the report of an await. -/
inductive AwaitFate (panics : Event → Fault → Prop) (who : Actor) (fiber : FiberId) :
    List (Entry S) → Prop
  /-- Whoever is to read the fiber has not got to it yet: some observer still looks on, or the fiber
  has not ended. -/
  | inProgress {after : List (Entry S)}
      (hattends : ∀ entry ∈ after, entry.who? = some who → entry.Attends) :
      AwaitFate panics who fiber after
  | read (meanwhile rest : List (Entry S)) (deeds : List (Deed S))
      (hattends : ∀ entry ∈ meanwhile, entry.who? = some who → entry.Attends) :
      AwaitFate panics who fiber (meanwhile ++ .did who (.read fiber) deeds :: rest)
  /-- An observer has failed, and the fiber has not been read. -/
  | panicked (meanwhile rest : List (Entry S)) {entry : Entry S} {fault : Fault}
      (hraises : entry.Raises who fault) (hpanics : panics (.await fiber) fault)
      (hattends : ∀ other ∈ meanwhile, other.who? = some who → other.Attends) :
      AwaitFate panics who fiber (meanwhile ++ entry :: rest)

/-- Something else is told first, while whoever has reported the fork looks on. -/
theorem ForkFate.cons {who : Actor} {place : Place} {entry : Entry S} {rest : List (Entry S)}
    (hnot : ¬ entry.About fiber) (hattends : entry.who? = some who → entry.Attends)
    (h : ForkFate panics who fiber place rest) : ForkFate panics who fiber place (entry :: rest) := by
  cases h with
  | inProgress hnots hattend =>
    exact .inProgress (List.forall_mem_cons.mpr ⟨hnot, hnots⟩)
      (List.forall_mem_cons.mpr ⟨hattends, hattend⟩)
  | handed meanwhile rest action deeds hnots hattend hfounded =>
    exact .handed (entry :: meanwhile) rest action deeds (List.forall_mem_cons.mpr ⟨hnot, hnots⟩)
      (List.forall_mem_cons.mpr ⟨hattends, hattend⟩) hfounded
  | panicked meanwhile rest hraises hpanics hnots hattend =>
    exact .panicked (entry :: meanwhile) rest hraises hpanics
      (List.forall_mem_cons.mpr ⟨hnot, hnots⟩) (List.forall_mem_cons.mpr ⟨hattends, hattend⟩)

/-- Something else is told first, while whoever has reported the await looks on. -/
theorem AwaitFate.cons {who : Actor} {entry : Entry S} {rest : List (Entry S)}
    (hattends : entry.who? = some who → entry.Attends) (h : AwaitFate panics who fiber rest) :
    AwaitFate panics who fiber (entry :: rest) := by
  cases h with
  | inProgress hattend => exact .inProgress (List.forall_mem_cons.mpr ⟨hattends, hattend⟩)
  | read meanwhile rest deeds hattend =>
    exact .read (entry :: meanwhile) rest deeds (List.forall_mem_cons.mpr ⟨hattends, hattend⟩)
  | panicked meanwhile rest hraises hpanics hattend =>
    exact .panicked (entry :: meanwhile) rest hraises hpanics
      (List.forall_mem_cons.mpr ⟨hattends, hattend⟩)

namespace Standing

variable {s t : Standing} {entries : List (Entry S)}

/-- What becomes of a fiber that has been announced. -/
theorem Runs.forkFate {who : Actor} {place : Place}
    (h : Runs direct panics fiber (.announced who place) entries t) :
    ForkFate panics who fiber place entries := by
  generalize hs : Standing.announced who place = s at h
  induction h with
  | nil => exact .inProgress (by simp) (by simp)
  | @cons _ _ u entry rest hstep hrest ih =>
    subst hs
    have hlast : u.rank ≤ 3 := by cases u <;> simp [rank]
    cases hstep with
    | handed _ _ action deeds =>
      obtain ⟨-, hfounded⟩ := hrest.quiet hlast
      exact .handed [] rest action deeds (by simp) (by simp) hfounded
    | panicked hraises hnot hpanics =>
      obtain ⟨-, hlost⟩ := hrest.quiet hlast
      exact .panicked [] rest hraises hpanics (List.forall_mem_cons.mpr ⟨hnot, hlost⟩) (by simp)
    | quiet hquiet => exact (ih rfl).cons hquiet.1 hquiet.2

end Standing

/-! ## What an incident does to a fiber -/

/-- There is something behind the name of a fiber. -/
def Pool.Founded (pool : Pool S W) (fiber : FiberId) : Prop :=
  ∃ stage, pool.get? fiber = some stage ∧ stage ≠ .named

section Incidents

variable {R : Runtime S W} {pool pool' : Pool S W}

/-- What is done to a fiber is done to one with something behind its name, unless its action is
handed to the spawner. -/
theorem Comp.of_mem_deeds {c : Comp S α} {deed : Deed S} (h : deed ∈ c.deeds R pool) :
    (∃ action, c.activity R pool = .handed deed.fiber action) ∨ pool.Founded deed.fiber := by
  unfold deeds at h
  -- A computation does something to a fiber if it hands an action over, reads, or runs a job of the
  -- queue.
  split at h
  · rename_i fiber action k
    refine .inl ⟨action, ?_⟩
    have hfiber : deed.fiber = fiber := by
      unfold Pool.startDeeds at h
      split at h
      · split at h <;> simp at h <;> grind [Deed.fiber]
      · cases h
    rw [hfiber]
    rfl
  · rename_i fiber k
    unfold Pool.readDeeds at h
    split at h
    · rename_i ending hended
      obtain rfl := List.mem_singleton.mp h
      exact .inr ⟨_, hended, (by simp)⟩
    · cases h
  · unfold Pool.queueDeeds at h
    split at h
    · cases h
    · split at h
      · cases h
      · rename_i job _ hstart
        obtain rfl := List.mem_singleton.mp h
        cases Pool.upshot_startAt hstart with
        | began before fibers => exact .inr ⟨_, before, (by simp)⟩
  · cases h

theorem Thread.of_mem_deeds {thread : Thread S α} {deed : Deed S}
    (h : deed ∈ thread.deeds R pool) :
    (∃ action, thread.activity R pool = .handed deed.fiber action) ∨ pool.Founded deed.fiber := by
  cases thread <;> exact Comp.of_mem_deeds h

/-- How the stage of a fiber is changed, if at all. -/
inductive Entry.Passage (pool pool' : Pool S W) (fiber : FiberId) (entry : Entry S) : Prop
  | same (get? : pool'.get? fiber = pool.get? fiber)
      (not_made : ∀ who deeds, entry ≠ .did who (.made fiber) deeds)
      (not_named : entry.Puts fiber → pool.get? fiber ≠ some .named)
  | made (who : Actor) (deeds : List (Deed S)) (hentry : entry = .did who (.made fiber) deeds)
      (before : pool.get? fiber = none) (after : pool'.get? fiber = some .named)
  | put (hentry : entry.Puts fiber) (before : pool.get? fiber = some .named)
      (after : pool'.Founded fiber)
  | goesOn (before : pool.Founded fiber) (after : pool'.Founded fiber)
      (not_made : ∀ who deeds, entry ≠ .did who (.made fiber) deeds)

/-- One fiber is set to a stage in which there is something behind its name, either because an
action is put behind it, or as there has been something before. -/
theorem Entry.Passage.of_set {entry : Entry S} {other : FiberId} {stage stage' : Fiber S}
    (before : pool.get? other = some stage)
    (fibers : pool'.fibers = (pool.set other stage').fibers) (hne : stage' ≠ .named)
    (not_made : ∀ who deeds, entry ≠ .did who (.made fiber) deeds)
    (hputs : entry.Puts fiber → fiber = other)
    (hself : fiber = other → stage = .named ∧ entry.Puts fiber ∨ stage ≠ .named) :
    entry.Passage pool pool' fiber := by
  by_cases hother : fiber = other
  · subst hother
    have hfounded : pool'.Founded fiber := ⟨stage', Pool.get?_of_set fibers before, hne⟩
    obtain ⟨rfl, hentry⟩ | hstage := hself rfl
    · exact .put hentry before hfounded
    · exact .goesOn ⟨stage, before, hstage⟩ hfounded not_made
  · exact .same (Pool.get?_of_set_of_ne fibers hother) not_made fun h => absurd (hputs h) hother

/-- What a move does to a fiber. -/
theorem Activity.Upshot.passage {activity : Activity S} {launched : List (Job S)}
    (h : activity.Upshot R pool pool' launched) (who : Actor) (deeds : List (Deed S))
    (fiber : FiberId) : (Entry.did who activity deeds).Passage pool pool' fiber := by
  cases h with
  | still not_made not_named fibers =>
    refine .same (Pool.get?_congr fibers fiber) (fun who' deeds' hentry => ?_) fun hputs => ?_
    · cases hentry
      exact not_made fiber rfl
    · -- An action is put behind a mere name only by a move that changes the stage of the fiber.
      unfold Entry.Puts at hputs
      split at hputs
      · rename_i hentry
        cases hentry
        exact hputs ▸ not_named _ _ (.inl rfl)
      · rename_i hentry
        cases hentry
        exact hputs ▸ not_named _ _ (.inr rfl)
      · exact hputs.elim
  | made fibers =>
    by_cases hnew : fiber = ⟨pool.fibers.size⟩
    · subst hnew
      refine .made who deeds rfl (by simp [Pool.get?]) ?_
      rw [Pool.get?_push fibers, if_pos rfl]
    · refine .same ?_ (fun who' deeds' hentry => ?_) fun hputs => hputs.elim
      · rw [Pool.get?_push fibers, if_neg hnew]
      · cases hentry
        exact hnew rfl
  | kept before fibers =>
    exact .of_set before fibers (by simp) (by simp) Eq.symm fun h => .inl ⟨rfl, h.symm⟩
  | handed before passes hhanded fibers =>
    refine .of_set before fibers ?_ (by simp) Eq.symm fun h => .inl ⟨rfl, h.symm⟩
    rintro rfl
    cases passes
  | began before fibers =>
    exact .of_set before fibers (by simp) (by simp) (fun h => h.elim) fun _ => .inr (by simp)

namespace Scene

variable {scene scene' : Scene S W α} {entry : Entry S} {deeds : List (Deed S)}

/-- What an incident does to a fiber. -/
theorem Incident.passage (hrecorded : Recorded R scene deeds)
    (incident : Incident R scene [entry] scene') (fiber : FiberId) :
    entry.Passage scene.pool scene'.pool fiber := by
  cases incident with
  | caller before after jobs moved => exact (Thread.upshot_of_move moved).passage ..
  | callerEnded before after jobs ended =>
    obtain ⟨-, rfl⟩ := Thread.of_ended ended
    exact .same rfl (by simp) fun h => h.elim
  | job callers before after moved => exact (Thread.upshot_of_move moved).passage ..
  | @jobEnded pool _ callers before after other thread outcome ended =>
    obtain ⟨-, rfl⟩ := Thread.of_ended ended
    have hjob : ⟨other, thread⟩ ∈ before ++ ⟨other, thread⟩ :: after := by simp
    have hrunning := hrecorded.running hjob
    exact .of_set hrunning (Pool.fibers_finish hrunning) (by simp) (by simp) (fun h => h.elim)
      fun _ => .inr (by simp)
  | jobBegun callers jobs started =>
    cases Pool.upshot_startAt started with
    | began before fibers =>
      exact .of_set before fibers (by simp) (by simp) (fun h => h.elim) fun _ => .inr (by simp)
  | @drop pool position other callers jobs queued =>
    obtain ⟨action, hwaiting⟩ :=
      hrecorded.waiting (Array.mem_toList_iff.mpr (Array.mem_of_getElem? queued))
    have hdropped : (Fiber.ended Ending.dropped : Fiber S) ≠ .named := by simp
    refine .of_set hwaiting (Pool.fibers_release fun ending hended => ?_) hdropped (by simp)
      (fun h => h.elim) fun _ => .inr (by simp)
    cases hwaiting.symm.trans hended

variable {post : Set (Handle S.Base) → Phase → α → Prop} {ends : Phase → Prop}
  {Γ : Set (Handle S.Base)} {phase : Actor → Phase}

/-- Whoever does something towards the start of a fiber makes its name, or has made it. -/
theorem cases_of_founds (hallowed : entry.Allowed T (.observed direct panics) ends Γ phase)
    (hfounds : entry.Founds fiber) :
    (∃ who deeds, entry = .did who (.made fiber) deeds) ∨
      ∃ who, entry.who? = some who ∧ (phase who).Names fiber := by
  unfold Entry.Founds at hfounds
  split at hfounds
  · subst hfounds
    exact .inl ⟨_, _, rfl⟩
  · subst hfounds
    exact .inr ⟨_, rfl, (Licence.observed direct panics).hands_names hallowed.1⟩
  · subst hfounds
    exact .inr ⟨_, rfl, (Licence.observed direct panics).keeps_names hallowed.1⟩
  · subst hfounds
    exact .inr ⟨_, rfl, .inl hallowed⟩
  · exact hfounds.elim

/-- There is something behind the name of a fiber to which there is a handle. -/
theorem Sound.founded {L : Licence S} (h : scene.Sound T L stored post Γ phase) {τ : Ty S.Base}
    (hτ : ⟨fiber, τ⟩ ∈ Γ) : scene.pool.Founded fiber := by
  obtain ⟨stage, hstage, hsuits⟩ := h.pool.supports _ hτ
  refine ⟨stage, hstage, ?_⟩
  rintro rfl
  exact hsuits

/-- A move is about a fiber if it is made towards its start, or there is something behind its name,
as there is if it is the job of the fiber that moves. -/
theorem Sound.founds_or_founded (h : scene.Sound T (.observed direct panics) stored post Γ phase)
    {β : Type} {thread : Thread S β} {who : Actor}
    (hallowed : (thread.activity R scene.pool).Allowed T (.observed direct panics) Γ (phase who))
    (hwho : who = .job fiber → scene.pool.Founded fiber)
    (habout : (Entry.did who (thread.activity R scene.pool)
      (thread.deeds R scene.pool)).About fiber) :
    (Entry.did who (thread.activity R scene.pool) (thread.deeds R scene.pool)).Founds fiber ∨
      scene.pool.Founded fiber := by
  rcases habout with hjob | hfiber | ⟨deed, hdeed, rfl⟩
  · exact .inr (hwho hjob)
  · generalize thread.activity R scene.pool = activity at hallowed hfiber
    unfold Activity.fiber? at hfiber
    split at hfiber <;> cases hfiber
    · exact .inl rfl
    · exact .inl rfl
    · exact .inl rfl
    · exact .inl rfl
    -- Whoever waits for a fiber, or reads it, has a handle to it.
    · obtain ⟨-, τ, hτ⟩ := hallowed
      exact .inr (h.founded hτ)
    · obtain ⟨-, τ, hτ⟩ := hallowed
      exact .inr (h.founded hτ)
  · obtain ⟨action, hhanded⟩ | hfounded := Thread.of_mem_deeds hdeed
    · rw [hhanded]
      exact .inl rfl
    · exact .inr hfounded

/-- What is told of a fiber is how it comes about, or there is something behind its name. -/
theorem Incident.founds_or_founded (h : scene.Sound T (.observed direct panics) stored post Γ phase)
    (hrecorded : Recorded R scene deeds)
    (hallowed : entry.Allowed T (.observed direct panics) ends Γ phase)
    (incident : Incident R scene [entry] scene') (habout : entry.About fiber) :
    entry.Founds fiber ∨ scene.pool.Founded fiber := by
  cases incident with
  | caller before after jobs moved => exact h.founds_or_founded hallowed nofun habout
  | callerEnded before after jobs ended => cases habout
  | @job pool _ callers before after other thread thread' launch moved =>
    have hjob : ⟨other, thread⟩ ∈ before ++ ⟨other, thread⟩ :: after := by simp
    have hrunning := hrecorded.running hjob
    refine h.founds_or_founded hallowed (fun hother => ?_) habout
    cases hother
    exact ⟨.running, hrunning, nofun⟩
  | @jobEnded pool _ callers before after other thread outcome ended =>
    have hjob : ⟨other, thread⟩ ∈ before ++ ⟨other, thread⟩ :: after := by simp
    have hrunning := hrecorded.running hjob
    cases habout
    exact .inr ⟨.running, hrunning, nofun⟩
  | jobBegun callers jobs started =>
    cases habout
    cases Pool.upshot_startAt started with
    | began before fibers => exact .inr ⟨_, before, nofun⟩
  | drop callers jobs queued =>
    cases habout
    obtain ⟨action, hwaiting⟩ :=
      hrecorded.waiting (Array.mem_toList_iff.mpr (Array.mem_of_getElem? queued))
    exact .inr ⟨_, hwaiting, nofun⟩

end Scene

end Incidents

/-- An actor that knows a mere name has known it before, or has just made it. -/
theorem Licence.names_turn {L : Licence S} {phase : Actor → Phase} {entry : Entry S} {who : Actor}
    (h : (L.turn phase entry who).Names fiber) :
    (phase who).Names fiber ∨ ∃ deeds, entry = .did who (.made fiber) deeds := by
  by_cases hwho : entry.who? = some who
  · cases entry with
    | queued deed => cases hwho
    | ended who' fault? deeds =>
      cases hwho
      rw [turn, Function.update_self] at h
      exact absurd h (Phase.not_names_idle fiber)
    | did who' activity deeds =>
      cases hwho
      rw [turn, Function.update_self] at h
      cases activity with
      | made other =>
        obtain h | ⟨_, h⟩ := h <;> cases h
        exact .inr ⟨deeds, rfl⟩
      | noted event => exact .inl (L.noted_names h)
      | performed e reply => exact .inl h
      | attended => exact .inl h
      | _ => exact absurd h (Phase.not_names_idle fiber)
  · rw [L.turn_of_ne hwho] at h
    exact .inl h

/-! ## The standing of fibers in a scene -/

/-- How a fiber is found that has got so far, and in which phase whoever makes it is. -/
def Standing.Fits (fiber : FiberId) (stage? : Option (Fiber S)) (phase : Actor → Phase) :
    Standing → Prop
  | unmade => stage? = none
  | made who => stage? = some .named ∧ phase who = .made fiber
  | announced who place => stage? = some .named ∧ phase who = .announced fiber place
  | founded => ∃ stage, stage? = some stage ∧ stage ≠ .named
  | lost => stage? = some .named ∧ ∀ who, ¬ (phase who).Names fiber

namespace Scene

section Standings

variable {R : Runtime S W} {scene scene' : Scene S W α} {entry : Entry S} {deeds : List (Deed S)}
  {post : Set (Handle S.Base) → Phase → α → Prop} {ends : Phase → Prop}
  {Γ : Set (Handle S.Base)} {phase : Actor → Phase} {who : Actor}

/-- A fiber that has a name and nothing behind it stays so, and is not told of, unless something is
done towards its start. -/
theorem Incident.named_stays (h : scene.Sound T (.observed direct panics) stored post Γ phase)
    (hrecorded : Recorded R scene deeds)
    (hallowed : entry.Allowed T (.observed direct panics) ends Γ phase)
    (incident : Incident R scene [entry] scene') (hnamed : scene.pool.get? fiber = some .named)
    (hnot : ¬ entry.Founds fiber) :
    ¬ entry.About fiber ∧ scene'.pool.get? fiber = some .named := by
  have hunfounded : ¬ scene.pool.Founded fiber := by
    rintro ⟨stage, hstage, hne⟩
    exact hne (Option.some.inj (hstage.symm.trans hnamed))
  constructor
  · intro habout
    obtain hfounds | hfounded := incident.founds_or_founded h hrecorded hallowed habout
    · exact hnot hfounds
    · exact hunfounded hfounded
  · cases incident.passage hrecorded fiber with
    | same get? not_made not_named => exact get?.trans hnamed
    | made who deeds hentry before after => cases before.symm.trans hnamed
    | put hentry before after => exact absurd hentry.founds hnot
    | goesOn before after not_made => exact absurd before hunfounded

/-- A fiber that has been made is not made again. -/
theorem Incident.ne_made (hrecorded : Recorded R scene deeds)
    (incident : Incident R scene [entry] scene') (hmade : scene.pool.get? fiber ≠ none)
    (who : Actor) (deeds' : List (Deed S)) : entry ≠ .did who (.made fiber) deeds' := by
  cases incident.passage hrecorded fiber with
  | same get? not_made not_named => exact not_made who deeds'
  | made who deeds hentry before after => exact absurd before hmade
  | put hentry before after =>
    rintro rfl
    exact hentry
  | goesOn before after not_made => exact not_made who deeds'

/-- Nobody but whoever has made the name of a fiber does anything towards its start. -/
theorem Incident.who_of_founds (hrecorded : Recorded R scene deeds)
    (hallowed : entry.Allowed T (.observed direct panics) ends Γ phase)
    (incident : Incident R scene [entry] scene') (hmade : scene.pool.get? fiber ≠ none)
    (hfounds : entry.Founds fiber) : ∃ who, entry.who? = some who ∧ (phase who).Names fiber := by
  obtain ⟨who, deeds', rfl⟩ | hnames := cases_of_founds hallowed hfounds
  · exact absurd rfl (incident.ne_made hrecorded hmade who deeds')
  · exact hnames

/-- If whoever is to start a fiber fails, the fiber is lost. -/
theorem Incident.lost_of_raises (h : scene.Sound T (.observed direct panics) stored post Γ phase)
    (hrecorded : Recorded R scene deeds)
    (hallowed : entry.Allowed T (.observed direct panics) ends Γ phase)
    (incident : Incident R scene [entry] scene') (hnames : (phase who).Names fiber) {fault : Fault}
    (hraises : entry.Raises who fault) :
    ¬ entry.About fiber ∧ Standing.lost.Fits fiber (scene'.pool.get? fiber)
      ((Licence.observed direct panics).turn phase entry) := by
  have hnamed := h.pool.named hnames
  have hnot : ¬ entry.Founds fiber := by
    cases hraises <;> exact id
  have hidle : (Licence.observed direct panics).turn phase entry who = .idle := by
    cases hraises <;> exact Function.update_self ..
  obtain ⟨habout, hnamed'⟩ := incident.named_stays h hrecorded hallowed hnamed hnot
  refine ⟨habout, hnamed', fun other hother => ?_⟩
  obtain hbefore | ⟨deeds', rfl⟩ := Licence.names_turn hother
  · obtain rfl := h.pool.apart hbefore hnames
    rw [hidle] at hother
    exact Phase.not_names_idle fiber hother
  · exact hnot rfl

/-- An actor that has not made the name of a fiber leaves it as it is. -/
theorem Incident.quiet_of_ne (h : scene.Sound T (.observed direct panics) stored post Γ phase)
    (hrecorded : Recorded R scene deeds)
    (hallowed : entry.Allowed T (.observed direct panics) ends Γ phase)
    (incident : Incident R scene [entry] scene') (hnames : (phase who).Names fiber)
    (hwho : entry.who? ≠ some who) :
    ¬ entry.About fiber ∧ scene'.pool.get? fiber = some .named ∧
      (Licence.observed direct panics).turn phase entry who = phase who := by
  have hnamed := h.pool.named hnames
  have hnot : ¬ entry.Founds fiber := by
    intro hfounds
    obtain ⟨other, hother, hnames'⟩ :=
      incident.who_of_founds hrecorded hallowed (by simp [hnamed]) hfounds
    obtain rfl := h.pool.apart hnames hnames'
    exact hwho hother
  obtain ⟨habout, hnamed'⟩ := incident.named_stays h hrecorded hallowed hnamed hnot
  exact ⟨habout, hnamed', Licence.turn_of_ne hwho⟩

/-- An action is put behind a mere name. -/
theorem Incident.founded_of_puts (hrecorded : Recorded R scene deeds)
    (incident : Incident R scene [entry] scene') (hnamed : scene.pool.get? fiber = some .named)
    (hputs : entry.Puts fiber) : scene'.pool.Founded fiber := by
  cases incident.passage hrecorded fiber with
  | same get? not_made not_named => exact absurd hnamed (not_named hputs)
  | made who deeds hentry before after => cases before.symm.trans hnamed
  | put hentry before after => exact after
  | goesOn before after not_made => exact after

/-- A mere name stays one if no action is put behind it. -/
theorem Incident.named_of_not_puts (hrecorded : Recorded R scene deeds)
    (incident : Incident R scene [entry] scene') (hnamed : scene.pool.get? fiber = some .named)
    (hputs : ¬ entry.Puts fiber) : scene'.pool.get? fiber = some .named := by
  cases incident.passage hrecorded fiber with
  | same get? not_made not_named => exact get?.trans hnamed
  | made who deeds hentry before after => cases before.symm.trans hnamed
  | put hentry before after => exact absurd hentry hputs
  | goesOn before after not_made =>
    obtain ⟨stage, hstage, hne⟩ := before
    exact absurd (Option.some.inj (hstage.symm.trans hnamed)) hne

/-- What an actor may do in its turn that knows a mere name: fail, or look on, or report that the
fiber is about to be started, or put an action behind the name. -/
inductive TurnOfMaker (direct : S.Action → Prop) (panics : Event → Fault → Prop) (fiber : FiberId)
    (who : Actor) (phase : Actor → Phase) : Entry S → Prop
  | fails {entry : Entry S} {fault : Fault} (hraises : entry.Raises who fault)
      (hallowed : (Licence.observed direct panics).raises (phase who) fault) :
      TurnOfMaker direct panics fiber who phase entry
  | attends {entry : Entry S} (hattends : entry.Attends) (hnot : ¬ entry.Founds fiber)
      (hstays : (Licence.observed direct panics).turn phase entry who = phase who) :
      TurnOfMaker direct panics fiber who phase entry
  | forked {place : Place} {deeds : List (Deed S)} (hphase : phase who = .made fiber) :
      TurnOfMaker direct panics fiber who phase (.did who (.noted (.fork fiber place)) deeds)
  | handed {action : S.Action} {deeds : List (Deed S)}
      (hphase : (∃ place, phase who = .announced fiber place) ∨
        phase who = .made fiber ∧ direct action) :
      TurnOfMaker direct panics fiber who phase (.did who (.handed fiber action) deeds)
  | kept {action : S.Action} {deeds : List (Deed S)} (hphase : phase who = .made fiber) :
      TurnOfMaker direct panics fiber who phase (.did who (.kept fiber action) deeds)

/-- An actor that knows a mere name is not idle, and it is the name of one fiber only. -/
theorem turnOfMaker (hends : ∀ q, ends q → q = .idle)
    (hallowed : entry.Allowed T (.observed direct panics) ends Γ phase)
    (hnames : (phase who).Names fiber) (hwho : entry.who? = some who) :
    TurnOfMaker direct panics fiber who phase entry := by
  have hidle : phase who ≠ .idle := by
    intro hidle
    rw [hidle] at hnames
    exact Phase.not_names_idle fiber hnames
  have hmade {other : FiberId} (h : phase who = .made other) : other = fiber := by
    obtain hphase | ⟨place, hphase⟩ := hnames <;> cases hphase.symm.trans h
    rfl
  have hannounced {other : FiberId} {place : Place} (h : phase who = .announced other place) :
      other = fiber := by
    obtain hphase | ⟨place, hphase⟩ := hnames <;> cases hphase.symm.trans h
    rfl
  -- The phase allows few turns: whatever takes an idle actor, or one that knows another name, is
  -- excluded.
  cases entry with
  | queued deed => cases hwho
  | ended who' fault? deeds =>
    cases hwho
    cases fault? with
    | none => exact absurd (hends _ hallowed) hidle
    | some fault => exact .fails (.ended deeds) hallowed
  | did who' activity deeds =>
    cases hwho
    cases activity with
    | performed e reply => exact .attends trivial id (Function.update_self ..)
    | attended => exact .attends trivial id (Function.update_self ..)
    | raised fault => exact .fails (.did deeds) hallowed
    | kept other action =>
      obtain rfl := hmade hallowed.1
      exact .kept hallowed.1
    | handed other action =>
      have hphase := hallowed.1
      obtain rfl : other = fiber := by
        obtain ⟨place, h⟩ | ⟨h, -⟩ := hphase
        · exact hannounced h
        · exact hmade h
      exact .handed hphase
    | noted event =>
      cases event with
      | fork other place =>
        obtain rfl := hmade hallowed
        exact .forked hallowed
      | await other => exact absurd hallowed.1 hidle
      | finished outermost => exact absurd hallowed hidle
    | read other =>
      obtain ⟨hread | hread, -⟩ := hallowed
      · exact absurd hread hidle
      · obtain hphase | ⟨place, hphase⟩ := hnames <;> cases hphase.symm.trans hread
    | made other => exact absurd hallowed hidle
    | called => exact absurd hallowed hidle
    | returned => exact absurd hallowed hidle

/-- Whoever has made the name of a fiber reports that it is about to start it, or puts an action
behind the name, or looks on, or fails. -/
theorem Incident.step_of_made (h : scene.Sound T (.observed direct panics) stored post Γ phase)
    (hrecorded : Recorded R scene deeds) (hends : ∀ q, ends q → q = .idle)
    (hallowed : entry.Allowed T (.observed direct panics) ends Γ phase)
    (incident : Incident R scene [entry] scene') (hphase : phase who = .made fiber) :
    ∃ t, (Standing.made who).Step direct panics fiber entry t ∧
      t.Fits fiber (scene'.pool.get? fiber) ((Licence.observed direct panics).turn phase entry) := by
  have hnames : (phase who).Names fiber := .inl hphase
  have hnamed := h.pool.named hnames
  -- Either it is the turn of the maker, or of someone who does not know the name.
  by_cases hwho : entry.who? = some who
  · cases turnOfMaker hends hallowed hnames hwho with
    | fails hraises =>
      obtain ⟨habout, hfits⟩ := incident.lost_of_raises h hrecorded hallowed hnames hraises
      exact ⟨.lost, .givenUp hraises habout, hfits⟩
    | attends hattends hnot hstays =>
      obtain ⟨habout, hnamed'⟩ := incident.named_stays h hrecorded hallowed hnamed hnot
      exact ⟨.made who, .quiet ⟨habout, fun _ => hattends⟩, hnamed', hstays.trans hphase⟩
    | @forked place deeds' =>
      refine ⟨.announced who place, .forked who place deeds',
        incident.named_of_not_puts hrecorded hnamed id, ?_⟩
      rw [Licence.turn, Function.update_self, hphase]
      rfl
    | @handed action deeds' hhands =>
      obtain ⟨place, hannounced⟩ | ⟨-, hdirect⟩ := hhands
      · cases hphase.symm.trans hannounced
      · exact ⟨.founded, .started who hdirect deeds',
          incident.founded_of_puts hrecorded hnamed rfl⟩
    | @kept action deeds' =>
      exact ⟨.founded, .kept who action deeds', incident.founded_of_puts hrecorded hnamed rfl⟩
  · obtain ⟨habout, hnamed', hsame⟩ := incident.quiet_of_ne h hrecorded hallowed hnames hwho
    exact ⟨.made who, .quiet ⟨habout, fun h => absurd h hwho⟩, hnamed', hsame.trans hphase⟩

/-- Whoever has reported that it is about to start a fiber does so, or looks on, or fails. -/
theorem Incident.step_of_announced
    (h : scene.Sound T (.observed direct panics) stored post Γ phase)
    (hrecorded : Recorded R scene deeds) (hends : ∀ q, ends q → q = .idle)
    (hallowed : entry.Allowed T (.observed direct panics) ends Γ phase)
    (incident : Incident R scene [entry] scene') {place : Place}
    (hphase : phase who = .announced fiber place) :
    ∃ t, (Standing.announced who place).Step direct panics fiber entry t ∧
      t.Fits fiber (scene'.pool.get? fiber) ((Licence.observed direct panics).turn phase entry) := by
  have hnames : (phase who).Names fiber := .inr ⟨place, hphase⟩
  have hnamed := h.pool.named hnames
  by_cases hwho : entry.who? = some who
  · cases turnOfMaker hends hallowed hnames hwho with
    | fails hraises hfault =>
      obtain ⟨habout, hfits⟩ := incident.lost_of_raises h hrecorded hallowed hnames hraises
      rw [hphase] at hfault
      exact ⟨.lost, .panicked hraises habout hfault, hfits⟩
    | attends hattends hnot hstays =>
      obtain ⟨habout, hnamed'⟩ := incident.named_stays h hrecorded hallowed hnamed hnot
      exact ⟨.announced who place, .quiet ⟨habout, fun _ => hattends⟩, hnamed',
        hstays.trans hphase⟩
    | @handed action deeds' =>
      exact ⟨.founded, .handed who place action deeds',
        incident.founded_of_puts hrecorded hnamed rfl⟩
    -- The fork of this fiber has been reported before.
    | forked hmade | kept hmade => cases hphase.symm.trans hmade
  · obtain ⟨habout, hnamed', hsame⟩ := incident.quiet_of_ne h hrecorded hallowed hnames hwho
    exact ⟨.announced who place, .quiet ⟨habout, fun h => absurd h hwho⟩, hnamed',
      hsame.trans hphase⟩

/-- Every incident takes every fiber from one standing to the next. -/
theorem exists_standing_step (h : scene.Sound T (.observed direct panics) stored post Γ phase)
    (hrecorded : Recorded R scene deeds) (hends : ∀ q, ends q → q = .idle)
    (hallowed : entry.Allowed T (.observed direct panics) ends Γ phase)
    (incident : Incident R scene [entry] scene') {s : Standing}
    (hfits : s.Fits fiber (scene.pool.get? fiber) phase) :
    ∃ t, s.Step direct panics fiber entry t ∧
      t.Fits fiber (scene'.pool.get? fiber) ((Licence.observed direct panics).turn phase entry) := by
  cases s with
  | unmade =>
    -- Nobody knows the name of a fiber that has not been made, so nothing can be told of it but
    -- that it is.
    have hnobody : ¬ ∃ who, entry.who? = some who ∧ (phase who).Names fiber := by
      rintro ⟨who, -, hnames⟩
      cases hfits.symm.trans (h.pool.named hnames)
    cases incident.passage hrecorded fiber with
    | made who deeds' hentry before after =>
      subst hentry
      exact ⟨.made who, .named who deeds', after, Function.update_self ..⟩
    | same get? not_made not_named =>
      refine ⟨.unmade, .quiet fun habout => ?_, get?.trans hfits⟩
      obtain hfounds | ⟨stage, hstage, -⟩ :=
        incident.founds_or_founded h hrecorded hallowed habout
      · obtain ⟨who, deeds', hentry⟩ | hnames := cases_of_founds hallowed hfounds
        · exact not_made who deeds' hentry
        · exact hnobody hnames
      · cases hfits.symm.trans hstage
    | put hentry before after => cases hfits.symm.trans before
    | goesOn before after not_made =>
      obtain ⟨stage, hstage, -⟩ := before
      cases hfits.symm.trans hstage
  | made who => exact incident.step_of_made h hrecorded hends hallowed hfits.2
  | announced who place => exact incident.step_of_announced h hrecorded hends hallowed hfits.2
  | founded =>
    -- Only who knows it as a mere name would start it again, and there is more behind the name by
    -- now.
    obtain ⟨stage, hstage, hne⟩ := hfits
    refine ⟨.founded, .quiet fun hfounds => ?_, ?_⟩
    · obtain ⟨who, -, hnames⟩ :=
        incident.who_of_founds hrecorded hallowed (by simp [hstage]) hfounds
      exact hne (Option.some.inj (hstage.symm.trans (h.pool.named hnames)))
    · cases incident.passage hrecorded fiber with
      | same get? not_made not_named => exact ⟨stage, get?.trans hstage, hne⟩
      | made who deeds' hentry before after => cases before.symm.trans hstage
      | put hentry before after => exact after
      | goesOn before after not_made => exact after
  | lost =>
    -- The name is known to nobody any more, and as it is given out only once, to nobody ever after.
    obtain ⟨hnamed, hnobody⟩ := hfits
    have hmade : scene.pool.get? fiber ≠ none := by simp [hnamed]
    have hnot : ¬ entry.Founds fiber := by
      intro hfounds
      obtain ⟨who, -, hnames⟩ := incident.who_of_founds hrecorded hallowed hmade hfounds
      exact hnobody who hnames
    obtain ⟨habout, hnamed'⟩ := incident.named_stays h hrecorded hallowed hnamed hnot
    refine ⟨.lost, .quiet habout, hnamed', fun who hnames => ?_⟩
    obtain hbefore | ⟨deeds', hentry⟩ := Licence.names_turn hnames
    · exact hnobody who hbefore
    · exact incident.ne_made hrecorded hmade who deeds' hentry

end Standings

section Stories

variable {R : Runtime S W} {scene : Scene S W α} {entries : List (Entry S)} {world : W}
  {computations : List (Comp S α)}

/-- An entry of a story tells of an incident, before which the story has been told so far. -/
theorem exists_incident (story : Trail (Incident R) (start world computations) entries scene)
    {before : List (Entry S)} {entry : Entry S} {after : List (Entry S)}
    (hsplit : entries = before ++ entry :: after) :
    ∃ scene₁ scene₂, Trail (Incident R) (start world computations) before scene₁ ∧
      Incident R scene₁ [entry] scene₂ := by
  induction story generalizing after with
  | refl => simp at hsplit
  | @tail scene₁ scene₂ earlier _ story last ih =>
    obtain ⟨final, rfl⟩ := last.exists_entry
    obtain rfl | ⟨rest, other, rfl⟩ := List.eq_nil_or_concat after
    · obtain ⟨rfl, hsame⟩ := List.append_inj' hsplit rfl
      cases hsame
      exact ⟨scene₁, scene₂, story, last⟩
    · rw [List.concat_eq_append, ← List.cons_append, ← List.append_assoc] at hsplit
      exact ih (List.append_inj' hsplit rfl).1

/-- Whoever hands over the action of a mere name has it done. -/
theorem Incident.handed_mem_deeds {scene' : Scene S W α} {who : Actor} {action : S.Action}
    {deeds : List (Deed S)}
    (incident : Incident R scene [.did who (.handed fiber action) deeds] scene')
    (hnamed : scene.pool.get? fiber = some .named) : .handed fiber action ∈ deeds := by
  have hcomp {β : Type} {c : Comp S β} {pool : Pool S W} (hnamed : pool.get? fiber = some .named)
      (hactivity : .handed fiber action = c.activity R pool) :
      .handed fiber action ∈ c.deeds R pool := by
    unfold Comp.activity at hactivity
    split at hactivity <;> cases hactivity
    rw [Comp.deeds, Pool.startDeeds, hnamed]
    cases R.spawner <;> simp
  have hthread {β : Type} {thread : Thread S β} {pool : Pool S W}
      (hnamed : pool.get? fiber = some .named)
      (hactivity : .handed fiber action = thread.activity R pool) :
      .handed fiber action ∈ thread.deeds R pool := by
    cases thread <;> exact hcomp hnamed hactivity
  -- Only a thread that moves hands an action over.
  generalize hentry : Entry.did who (.handed fiber action) deeds = entry at incident
  cases incident with
  | caller before after jobs moved =>
    injection hentry with _ hactivity hdeeds
    exact hdeeds ▸ hthread hnamed hactivity
  | job callers before after moved =>
    injection hentry with _ hactivity hdeeds
    exact hdeeds ▸ hthread hnamed hactivity
  | callerEnded before after jobs ended => cases hentry
  | jobEnded callers before after ended => cases hentry
  | jobBegun callers jobs started => cases hentry
  | drop callers jobs queued => cases hentry

/-- Whoever has reported that it is about to wait for a fiber reads it, or looks on, or fails. -/
theorem cases_turn_of_awaiting {entry : Entry S} {who : Actor} {ends : Phase → Prop}
    {Γ : Set (Handle S.Base)} {phase : Actor → Phase} (hends : ∀ q, ends q → q = .idle)
    (hallowed : entry.Allowed T (.observed direct panics) ends Γ phase)
    (hphase : phase who = .awaiting fiber) (hwho : entry.who? = some who) :
    (∃ deeds, entry = .did who (.read fiber) deeds) ∨
      (∃ fault, entry.Raises who fault ∧ panics (.await fiber) fault) ∨
      entry.Attends ∧ (Licence.observed direct panics).turn phase entry who = .awaiting fiber := by
  cases entry with
  | queued deed => cases hwho
  | ended who' fault? deeds =>
    cases hwho
    cases fault? with
    | none => cases hphase.symm.trans (hends _ hallowed)
    | some fault =>
      rw [Entry.Allowed, hphase] at hallowed
      exact .inr (.inl ⟨fault, .ended deeds, hallowed⟩)
  | did who' activity deeds =>
    cases hwho
    have hstays (hsame : (Licence.observed direct panics).after (phase who) activity = phase who) :
        (Licence.observed direct panics).turn phase (.did who activity deeds) who =
          .awaiting fiber := by
      rw [Licence.turn, Function.update_self, hsame, hphase]
    rw [Entry.Allowed, hphase] at hallowed
    cases activity with
    | read other =>
      obtain ⟨hread | hread, -⟩ := hallowed <;> cases hread
      exact .inl ⟨deeds, rfl⟩
    | performed e reply => exact .inr (.inr ⟨trivial, hstays rfl⟩)
    | attended => exact .inr (.inr ⟨trivial, hstays rfl⟩)
    | raised fault => exact .inr (.inl ⟨fault, .did deeds, hallowed⟩)
    | made other => cases hallowed
    | handed other action => obtain ⟨⟨_, h⟩ | ⟨h, -⟩, -⟩ := hallowed <;> cases h
    | kept other action => cases hallowed.1
    | noted event =>
      cases event with
      | fork other place => cases hallowed
      | await other => cases hallowed.1
      | finished outermost => cases hallowed
    | called => cases hallowed
    | returned => cases hallowed

/-- What becomes of an await that has been reported. -/
theorem awaitFate {before after : List (Entry S)} {who : Actor} {ends : Phase → Prop}
    (hends : ∀ q, ends q → q = .idle)
    (hallowed : ∀ earlier entry later, after = earlier ++ entry :: later →
      entry.Allowed T (.observed direct panics) ends (T.given (before ++ earlier))
        ((Licence.observed direct panics).phases (before ++ earlier)))
    (hphase : (Licence.observed direct panics).phases before who = .awaiting fiber) :
    AwaitFate panics who fiber after := by
  induction after generalizing before with
  | nil => exact .inProgress (by simp)
  | cons entry rest ih =>
    have hentry := hallowed [] entry rest rfl
    rw [List.append_nil] at hentry
    -- As long as it does nothing but look on, it stays in the phase in which it is.
    have hgoesOn (hattends : entry.who? = some who → entry.Attends)
        (hturn : (Licence.observed direct panics).turn
          ((Licence.observed direct panics).phases before) entry who = .awaiting fiber) :
        AwaitFate panics who fiber (entry :: rest) := by
      refine .cons hattends (@ih (before ++ [entry]) (fun earlier other later hsplit => ?_) ?_)
      · rw [List.append_assoc]
        exact hallowed (entry :: earlier) other later (congrArg (entry :: ·) hsplit)
      · rw [Licence.phases, List.foldl_append]
        exact hturn
    by_cases hwho : entry.who? = some who
    · obtain ⟨deeds, rfl⟩ | ⟨fault, hraises, hpanics⟩ | ⟨hattends, hturn⟩ :=
        cases_turn_of_awaiting hends hentry hphase hwho
      · exact .read [] rest deeds (by simp)
      · exact .panicked [] rest hraises hpanics (by simp)
      · exact hgoesOn (fun _ => hattends) hturn
    · refine hgoesOn (fun h => absurd h hwho) ?_
      rw [Licence.turn_of_ne hwho]
      exact hphase

/-- Events are in order, and account for the jobs that have been handed to the spawner. -/
structure WellObserved (R : Runtime S W) (direct : S.Action → Prop)
    (panics : Event → Fault → Prop) (entries : List (Entry S)) (scene : Scene S W α) : Prop where
  /-- All events that have been put down are told of, in their order. -/
  recorded : scene.pool.events.toList = entries.flatMap Entry.events
  /-- No two forks that are reported are those of one fiber. -/
  forks_nodup : (forkedFibers entries).Nodup
  /-- When a fork is reported, whoever reports it has made the name of the fiber, and that is all
  that has been told of the fiber, of what its job does, or of anybody's waiting for it. -/
  fork_first : ∀ {before who fiber place deeds after},
    entries = before ++ .did who (.noted (.fork fiber place)) deeds :: after →
    ∃ earlier deeds' later, before = earlier ++ .did who (.made fiber) deeds' :: later ∧
      ∀ entry ∈ earlier ++ later, ¬ entry.About fiber
  fork_fate : ∀ {before who fiber place deeds after},
    entries = before ++ .did who (.noted (.fork fiber place)) deeds :: after →
    ForkFate panics who fiber place after
  handed_nodup : (handedFibers entries).Nodup
  /-- An action that is handed to the spawner has been announced, or it is one that user code starts
  by itself. -/
  handed_forked : ∀ {before who fiber action deeds after},
    entries = before ++ .did who (.handed fiber action) deeds :: after →
    (∃ place deeds', .did who (.noted (.fork fiber place)) deeds' ∈ before) ∨ direct action
  /-- There are as many jobs of reported forks as there are reports of forks, but for those whose
  observers still look on or have failed. -/
  handed_count : (forkedFibers entries).length =
    ((handedFibers entries).filter (· ∈ forkedFibers entries)).length +
      ((forkedFibers entries).filter (· ∉ handedFibers entries)).length
  /-- A job that has been handed over waits, or is under way, or has ended once, or was dropped. -/
  handed_life : ∀ {who fiber action deeds}, .did who (.handed fiber action) deeds ∈ entries →
    .handed fiber action ∈ Deed.lifeline fiber (entries.flatMap Entry.deeds) ∧
      Fiber.Life R fiber (scene.pool.get? fiber)
        (Deed.lifeline fiber (entries.flatMap Entry.deeds))
  await_fate : ∀ {before who fiber deeds after},
    entries = before ++ .did who (.noted (.await fiber)) deeds :: after →
    AwaitFate panics who fiber after

/-- Reports of forks are those whose fibers have been handed to the spawner, and the others. -/
theorem length_forkedFibers (hforked : (forkedFibers entries).Nodup)
    (hhanded : (handedFibers entries).Nodup) :
    (forkedFibers entries).length =
      ((handedFibers entries).filter (· ∈ forkedFibers entries)).length +
        ((forkedFibers entries).filter (· ∉ handedFibers entries)).length := by
  -- The fibers that have been reported and handed over are the same ones on both lists.
  have hsame : ((forkedFibers entries).filter (· ∈ handedFibers entries)).Perm
      ((handedFibers entries).filter (· ∈ forkedFibers entries)) := by
    refine (List.perm_ext_iff_of_nodup (hforked.filter _) (hhanded.filter _)).mpr ?_
    intro fiber
    simp [and_comm]
  rw [← hsame.length_eq, ← List.countP_eq_length_filter, ← List.countP_eq_length_filter,
    List.length_eq_countP_add_countP fun fiber => decide (fiber ∈ handedFibers entries)]
  simp

section Order

variable (hR : R.Observed T direct panics stored) (hworld : stored world = ∅)
  (hcomputations : ∀ c ∈ computations, c.Sound T (.observed direct panics) Comp.Idle ∅ .idle)
  (story : Trail (Incident R) (start world computations) entries scene)

include hR hworld hcomputations story

/-- What is told of a story of sound computations that end idle is allowed. -/
theorem allowed_of_story :
    scene.Sound T (.observed direct panics) stored Comp.Idle (T.given entries)
        ((Licence.observed direct panics).phases entries) ∧
      ∀ before entry after, entries = before ++ entry :: after →
        entry.Allowed T (.observed direct panics) (Phase.Ends (Comp.Idle (S := S) (α := α)))
          (T.given before) ((Licence.observed direct panics).phases before) :=
  sound_of_story (fun _ _ _ _ _ hq => hq) hR.sound hworld hcomputations story

/-- What a fiber goes through in a story, and how it is found after that. -/
theorem exists_standing (fiber : FiberId) :
    ∃ s, Standing.unmade.Runs direct panics fiber entries s ∧
      s.Fits fiber (scene.pool.get? fiber) ((Licence.observed direct panics).phases entries) := by
  induction story with
  | refl => exact ⟨.unmade, .nil _, by simp [Standing.Fits, start, Pool.empty, Pool.get?]⟩
  | @tail _ _ earlier _ story last ih =>
    obtain ⟨s, hruns, hfits⟩ := ih
    obtain ⟨entry, rfl⟩ := last.exists_entry
    obtain ⟨h, -⟩ := allowed_of_story hR hworld hcomputations story
    obtain ⟨-, hallowed⟩ := allowed_of_story hR hworld hcomputations (.tail story last)
    obtain ⟨t, hstep, hfits'⟩ := exists_standing_step h (recorded_of_story story)
      (fun _ => Phase.Ends.idle) (hallowed earlier entry [] rfl) last hfits
    refine ⟨t, hruns.append (.cons hstep (.nil t)), ?_⟩
    rw [Licence.phases, List.foldl_append]
    exact hfits'

/-- A fiber goes through the first part of a story, through one entry, and through the rest. -/
theorem exists_standings (fiber : FiberId) {before : List (Entry S)} {entry : Entry S}
    {after : List (Entry S)} (hsplit : entries = before ++ entry :: after) :
    ∃ s t u, Standing.unmade.Runs direct panics fiber before s ∧
      s.Step direct panics fiber entry t ∧ t.Runs direct panics fiber after u := by
  obtain ⟨u, hruns, -⟩ := exists_standing hR hworld hcomputations story fiber
  rw [hsplit] at hruns
  obtain ⟨s, hbefore, hrest⟩ := hruns.of_append
  cases hrest with
  | cons hstep hafter => exact ⟨s, _, u, hbefore, hstep, hafter⟩

/-- When a fork is reported, its fiber has been made by whoever reports it. -/
theorem standings_of_forked {before : List (Entry S)} {who : Actor} {fiber : FiberId}
    {place : Place} {deeds : List (Deed S)} {after : List (Entry S)}
    (hsplit : entries = before ++ .did who (.noted (.fork fiber place)) deeds :: after) :
    Standing.unmade.Runs direct panics fiber before (.made who) ∧
      ∃ u, (Standing.announced who place).Runs direct panics fiber after u := by
  obtain ⟨s, t, u, hbefore, hstep, hafter⟩ :=
    exists_standings hR hworld hcomputations story fiber hsplit
  have hfounds : (Entry.did who (.noted (.fork fiber place)) deeds).Founds fiber := rfl
  cases hstep with
  | forked => exact ⟨hbefore, u, hafter⟩
  | givenUp hraises hnot => exact absurd hfounds.about hnot
  | panicked hraises hnot hpanics => exact absurd hfounds.about hnot
  | quiet hquiet => exact absurd hfounds hquiet.not_founds

/-- When an action is handed to the spawner, it has been announced, or user code starts it by
itself. -/
theorem forked_of_handed {before : List (Entry S)} {who : Actor} {fiber : FiberId}
    {action : S.Action} {deeds : List (Deed S)} {after : List (Entry S)}
    (hsplit : entries = before ++ .did who (.handed fiber action) deeds :: after) :
    (∃ place deeds', .did who (.noted (.fork fiber place)) deeds' ∈ before) ∨ direct action := by
  obtain ⟨s, t, u, hbefore, hstep, hafter⟩ :=
    exists_standings hR hworld hcomputations story fiber hsplit
  have hfounds : (Entry.did who (.handed fiber action) deeds).Founds fiber := rfl
  cases hstep with
  | handed _ place => exact .inl ⟨place, hbefore.exists_forked (by simp [Standing.rank])⟩
  | started _ hdirect => exact .inr hdirect
  | givenUp hraises hnot => exact absurd hfounds.about hnot
  | panicked hraises hnot hpanics => exact absurd hfounds.about hnot
  | quiet hquiet => exact absurd hfounds hquiet.not_founds

/-- Each fork is reported once, and each action is handed to the spawner once. -/
theorem forked_handed_nodup : (forkedFibers entries).Nodup ∧ (handedFibers entries).Nodup := by
  have hcount (fiber : FiberId) :
      (forkedFibers entries).count fiber ≤ 1 ∧ (handedFibers entries).count fiber ≤ 1 := by
    obtain ⟨s, hruns, -⟩ := exists_standing hR hworld hcomputations story fiber
    have hle := hruns.count_le
    cases s <;> simp only [Standing.reports, Standing.handings] at hle <;> omega
  exact ⟨List.nodup_iff_count_le_one.mpr fun fiber => (hcount fiber).1,
    List.nodup_iff_count_le_one.mpr fun fiber => (hcount fiber).2⟩

/-- An action that is handed to the spawner gets on the record of its fiber. -/
theorem handed_mem_lifeline {who : Actor} {fiber : FiberId} {action : S.Action}
    {deeds : List (Deed S)} (hentry : .did who (.handed fiber action) deeds ∈ entries) :
    .handed fiber action ∈ Deed.lifeline fiber (entries.flatMap Entry.deeds) := by
  obtain ⟨before, after, hsplit⟩ := List.append_of_mem hentry
  obtain ⟨scene₁, scene₂, earlier, incident⟩ := exists_incident story hsplit
  obtain ⟨-, hallowed⟩ := allowed_of_story hR hworld hcomputations story
  obtain ⟨h, -⟩ := allowed_of_story hR hworld hcomputations earlier
  have hnames := (Licence.observed direct panics).hands_names (hallowed before _ after hsplit).1
  have hhanded := incident.handed_mem_deeds (h.pool.named hnames)
  exact Deed.mem_lifeline.mpr ⟨List.mem_flatMap.mpr ⟨_, hentry, hhanded⟩, rfl, rfl⟩

/-- What becomes of an await that is reported in a story. -/
theorem awaitFate_of_story {before : List (Entry S)} {who : Actor} {fiber : FiberId}
    {deeds : List (Deed S)} {after : List (Entry S)}
    (hsplit : entries = before ++ .did who (.noted (.await fiber)) deeds :: after) :
    AwaitFate panics who fiber after := by
  obtain ⟨-, hallowed⟩ := allowed_of_story hR hworld hcomputations story
  have hnoted : (Licence.observed direct panics).phases before who = .idle :=
    (hallowed before _ after hsplit).1
  have hawaiting : (Licence.observed direct panics).phases
      (before ++ [.did who (.noted (.await fiber)) deeds]) who = .awaiting fiber := by
    rw [Licence.phases, List.foldl_append]
    refine (Function.update_self ..).trans ?_
    change (Licence.observed direct panics).noted _ (.await fiber) = _
    rw [← Licence.phases, hnoted]
    rfl
  have hlater (earlier : List (Entry S)) (entry : Entry S) (later : List (Entry S))
      (hafter : after = earlier ++ entry :: later) :=
    hallowed (before ++ [.did who (.noted (.await fiber)) deeds] ++ earlier) entry later
      (by simp [hsplit, hafter])
  exact awaitFate (fun _ => Phase.Ends.idle) hlater hawaiting

/-- Events are in order and account for jobs in every story. -/
theorem wellObserved_of_story : WellObserved R direct panics entries scene := by
  obtain ⟨hforked, hhanded⟩ := forked_handed_nodup hR hworld hcomputations story
  exact {
    recorded := events_of_story story
    forks_nodup := hforked
    fork_first := fun hsplit =>
      (standings_of_forked hR hworld hcomputations story hsplit).1.exists_named
    fork_fate := fun hsplit => by
      obtain ⟨-, u, hafter⟩ := standings_of_forked hR hworld hcomputations story hsplit
      exact hafter.forkFate
    handed_nodup := hhanded
    handed_forked := forked_of_handed hR hworld hcomputations story
    handed_count := length_forkedFibers hforked hhanded
    handed_life := fun hentry => ⟨handed_mem_lifeline hR hworld hcomputations story hentry,
      (recorded_of_story story).life _⟩
    await_fate := awaitFate_of_story hR hworld hcomputations story }

end Order

/-- **What is observed is in order, and accounts for all jobs.** Take computations that begin where
there are no fibers, with an observer that records what it hears among others that look on. User
code may start some actions by itself, without a report. With any spawner, in whatever order threads
move and whatever becomes of jobs, at any moment: the forks that have been reported are those of
different fibers; when one is reported, its fiber has been named by whoever reports it, and there is
nothing else to tell of it; then the action of the fiber is handed to the spawner, once, unless an
observer fails, after which the fiber is never told of again. What is handed over has been reported,
and its job waits, or is under way, or has ended once, or was dropped. A fiber whose await has been
reported is read after that, unless an observer fails.

Whatever the observer is: if it fails on an event, the operation that it announces is not carried
out, and the run fails as the observer does. -/
theorem observation_order (hR : R.Observed T direct panics stored) (hworld : stored world = ∅)
    (hcomputations : ∀ c ∈ computations, c.Sound T (.observed direct panics) Comp.Idle ∅ .idle)
    (story : Trail (Incident R) (start world computations) entries scene) :
    WellObserved R direct panics entries scene ∧
    ∀ (I : Interpreter S) (yields : Ty S.Base) (exchanges : List (Exchange S)) (fault : Fault)
      (pending : List (Cont S.Base (ForkJoin S.Base S.Action) S.Code)),
      (∀ place item action fiber, (I.observer (.fork fiber place)).Leads exchanges (.fail fault) →
        (I.turn yields ((Tree.instr (.forkAt place item action)).under pending)).Leads
          (.asked (.log (.instruction (ForkJoin.forkAt place item action).shape pending.length)) ()
            :: .asked .newFiber fiber :: exchanges) (.fail fault)) ∧
      (∀ fiber, (I.observer (.await fiber)).Leads exchanges (.fail fault) →
        (I.turn yields ((Tree.instr (.await fiber)).under pending)).Leads
          (.asked (.log (.instruction (ForkJoin.await (B := S.Base) (A := S.Action) fiber).shape
            pending.length)) () :: exchanges) (.fail fault)) ∧
      ∀ v, (I.observer (.finished pending.isEmpty)).Leads exchanges (.fail fault) →
        (I.turn yields ((Tree.ret v).under pending)).Leads exchanges (.fail fault) := by
  refine ⟨wellObserved_of_story hR hworld hcomputations story, ?_⟩
  intro I yields exchanges fault pending
  refine ⟨?_, ?_, ?_⟩
  · intro place item action fiber hfails
    exact Interpreter.fails_on_fork fiber hfails
  · intro fiber hfails
    exact Interpreter.fails_on_await hfails
  · intro v hfails
    exact Interpreter.fails_on_finished hfails

/-- Fails when a fiber is waited for. -/
def refusal : Observer relay
  | .await _ => .fail (.text "no waiting")
  | _ => .done ()

/-- The faults of that observer. -/
def relay.refuses (_ : Event) (fault : Fault) : Prop :=
  fault = .text "no waiting"

/-- Numbers are handed on, with an observer that fails when a fiber is waited for. -/
def relays.refused : Runtime relay Unit :=
  { relays with observer := .all [.recording, refusal] }

theorem relays.observed :
    relays.refused.Observed relay.typing (fun _ => False) relay.refuses fun _ => ∅ where
  toMeaningSound := by
    have hsound : relays.Sound relay.typing (.observed (fun _ => False) relay.refuses) fun _ => ∅ :=
      relays_sound (fun _ => ⟨trivial, trivial⟩)
        (fun _ _ _ place => ⟨rfl, fun _ => .inl ⟨place, rfl⟩⟩)
        (fun hτ => ⟨⟨rfl, _, hτ⟩, .inr rfl⟩) fun _ _ => ⟨rfl, rfl⟩
    exact hsound.toMeaningSound
  observer := by
    refine ⟨[], [refusal], rfl, fun other hother event => ?_⟩
    obtain rfl := List.mem_singleton.mp hother
    cases event with
    | await fiber => exact rfl
    | fork fiber place => trivial
    | finished outermost => trivial
  replied e := e.elim
  kept e := e.elim

/-- Two fibers are started, and the run fails when the second is waited for. -/
theorem observation_order_relays :
    ∃ (entries : List (Entry relay)) (scene : Scene relay Unit relay.Value),
      Trail (Incident relays.refused) (start () [.interpret relay.number relay.program]) entries
        scene ∧
      scene.callers = [.ended (.error (.text "no waiting"))] ∧
      forkedFibers entries = [⟨0⟩, ⟨1⟩] ∧
      WellObserved relays.refused (fun _ => False) relay.refuses entries scene := by
  obtain ⟨deeds, moves⟩ := Config.trail_run relays.refused 60
    (Config.start (.empty ()) (.interpret relay.number relay.program))
  obtain ⟨entries, story, -⟩ := story_of_moves moves
  have hstart : ∀ c ∈ [Comp.interpret relay.number relay.program],
      c.Sound relay.typing (.observed (fun _ => False) relay.refuses) Comp.Idle ∅ .idle := by
    intro c hc
    obtain rfl := List.mem_singleton.mp hc
    have hprogram : relay.program.Yields
        (relay.typing.rules (.observed (fun _ => False) relay.refuses) ∅) relay.number :=
      relay.program_yields trivial (fun _ => trivial) ∅
    exact (Comp.sound_interpret hprogram).mono subset_rfl fun _ _ _ _ _ h => h.1
  obtain ⟨hwell, -⟩ := observation_order relays.observed rfl hstart story
  refine ⟨entries, _, story, rfl, ?_, hwell⟩
  rw [forkedFibers, ← hwell.recorded]
  rfl

end Stories

end Scene

end FiberPrograms
