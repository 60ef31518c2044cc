import FiberPrograms.Proofs.NestedCode
import FiberPrograms.Proofs.Twins

/-!
# Runs inside runs

A continuation may have the program that it makes of its value run inside, or go on with it. The two
runs are compared as wholes: whatever else is going on beside them, each incident of the one is
matched by incidents of the other. The run with the nested code has some moves to make that the
other has not, since it yields the value of the program once more; it makes them before the two go
on together. A relation between stories says what is told in both runs and what in one of them.

The run inside is a run like any other. Up to its end it has the story that it would have from the
outside.

## Main definitions

* `Nesting.Retold`: the story of the nested run beside that of the sequenced run
* `Nesting.Threads`, `Nesting.Abreast`: threads and scenes that have come equally far
* `Nesting.CatchesUp`: a thread moves alone until it is its turn to move with the other
* `Nesting.Alike`: what nobody can tell apart who does not look at returns
* `Scene.Along`: a run inside and the same run from the outside, with one story

## Main results

* `Nesting.Threads.catchesUp`: the nested run catches up with the sequenced run
* `Nesting.Abreast.forth`, `Nesting.Abreast.back`: incidents of each run are matched in the other
* `Scene.exists_along`: a run inside goes as it does from the outside
* `Nesting.nested_run_eq_sequenced_run`: to run a program inside and yield its value is to go on
  with it
-/

namespace FiberPrograms

variable {S : Signature} {W α : Type}

namespace Nesting

variable {N : Nesting S} {I : Interpreter S} {own : S.Effect → Prop} {times : Nat}

/-! ## Stories told in two ways -/

/-- What one actor does in the one run answers to what it does in the other. Unless `strict` holds,
returns may be put down with different flags, and something else be sent to where nobody looks. -/
inductive Counterpart (own : S.Effect → Prop) (strict : Bool) :
    Activity S → List (Deed S) → Activity S → List (Deed S) → Prop
  | same (activity : Activity S) (deeds : List (Deed S)) :
      Counterpart own strict activity deeds activity deeds
  | note (hstrict : strict = false) :
      Counterpart own strict (.noted (.finished true)) [] (.noted (.finished false)) []
  | perform (hstrict : strict = false) {e e' : S.Effect} (sent : own e) (sent' : own e')
      (reply : S.Reply e) (reply' : S.Reply e') :
      Counterpart own strict (.performed e reply) [] (.performed e' reply') []

theorem Counterpart.eq_of_strict {activity activity' : Activity S} {deeds deeds' : List (Deed S)}
    (h : Counterpart own true activity deeds activity' deeds') :
    activity' = activity ∧ deeds' = deeds := by
  cases h with
  | same => exact ⟨rfl, rfl⟩
  | note hstrict => cases hstrict
  | perform hstrict => cases hstrict

/-- Whether an activity goes unnoticed. -/
inductive Unseen (own : S.Effect → Prop) : Activity S → Prop
  | returned : Unseen own .returned
  | attended : Unseen own .attended
  | performed {e : S.Effect} (sent : own e) (reply : S.Reply e) : Unseen own (.performed e reply)

/-- The story of a run with the nested code, and the story of a run with the sequenced code, where
`me` is who runs the code: both tell the same of everybody else, and of `me` but for what is told of
returns while the program is run, and for one more return once it has come to its value. -/
inductive Retold (N : Nesting S) (own : S.Effect → Prop) (times : Nat) (me : Actor) :
    Stage → List (Entry S) → List (Entry S) → Prop
  | nil : Retold N own times me .before [] []
  /-- The same is told. While the program is closed, nothing is told of `me`. -/
  | both {stage : Stage} {es es' : List (Entry S)} (h : Retold N own times me stage es es')
      (entry : Entry S) (hstage : entry.who? = some me → ∀ told, stage ≠ .closing told) :
      Retold N own times me stage (es ++ [entry]) (es' ++ [entry])
  /-- The program that the continuation was to take a value from has failed. -/
  | missed {es es' : List (Entry S)} (h : Retold N own times me .before es es') (fault : Fault) :
      Retold N own times me .after (es ++ [.did me (.raised fault) []])
        (es' ++ [.did me (.raised fault) []])
  /-- The program has been made, and a run of its own is begun. -/
  | made {es es' : List (Entry S)} (h : Retold N own times me .before es es') :
      Retold N own times me .inside (es ++ [.did me .called []]) (es' ++ [.did me .returned []])
  | pair {es es' : List (Entry S)} (h : Retold N own times me .inside es es')
      {activity activity' : Activity S} {deeds deeds' : List (Deed S)}
      (hcounter : Counterpart own N.pending.isEmpty activity deeds activity' deeds') :
      Retold N own times me .inside (es ++ [.did me activity deeds])
        (es' ++ [.did me activity' deeds'])
  /-- The program has failed, and so fails whoever has had it run. -/
  | failed {es es' : List (Entry S)} (h : Retold N own times me .inside es es') (fault : Fault) :
      Retold N own times me .after (es ++ [.did me (.raised fault) []]) es'
  | yielded {es es' : List (Entry S)} (h : Retold N own times me .inside es es') :
      Retold N own times me (.closing 0) (es ++ [.did me .returned []]) es'
  | unseen {told : Nat} {es es' : List (Entry S)}
      (h : Retold N own times me (.closing told) es es') {activity : Activity S}
      (hunseen : Unseen own activity) :
      Retold N own times me (.closing told) (es ++ [.did me activity []]) es'
  /-- One more return is told of, with the flag of the sequenced run. -/
  | told {told : Nat} {es es' : List (Entry S)}
      (h : Retold N own times me (.closing told) es es') :
      Retold N own times me (.closing (told + 1))
        (es ++ [.did me (.noted (.finished N.pending.isEmpty)) []]) es'
  | closed {es es' : List (Entry S)} (h : Retold N own times me (.closing times) es es') :
      Retold N own times me .after es es'

/-! ## Threads abreast of each other -/

/-- A thread that runs the nested code, and one that runs the sequenced code as far as that; who
waits at the bottom is the same. -/
inductive Threads (N : Nesting S) (I : Interpreter S) (own : S.Effect → Prop) (times : Nat)
    (outer : Except Fault S.Value → Comp S α) : Stage → Thread S α → Thread S α → Prop
  | first (q : S.Program) :
      Threads N I own times outer .before
        (.base (.demand (.interpret N.yields ((q.bind N.arg N.nested).under N.pending)) outer))
        (.base (.demand (.interpret N.yields ((q.bind N.arg N.sequenced).under N.pending)) outer))
  | top {stage : Stage} {c c' : Comp S (Turn S)}
      {waiting : List (Except Fault S.Value → Comp S (Turn S))}
      (h : Frames N I own times stage c waiting c') :
      Threads N I own times outer stage (.nested c waiting outer) (.nested c' [] outer)
  /-- User code of the program has something else run. -/
  | under {stage : Stage} (c : Comp S (Turn S))
      (above : List (Except Fault S.Value → Comp S (Turn S)))
      {k k' : Except Fault S.Value → Comp S (Turn S)}
      {waiting : List (Except Fault S.Value → Comp S (Turn S))}
      (hstage : ∀ told, stage ≠ .closing told)
      (h : ∀ outcome, Frames N I own times stage (k outcome) waiting (k' outcome)) :
      Threads N I own times outer stage (.nested c (above ++ k :: waiting) outer)
        (.nested c (above ++ [k']) outer)
  | same (thread : Thread S α) : Threads N I own times outer .after thread thread

/-- Moves of threads that are abreast leave them abreast, or come to the same end. -/
inductive Motions (N : Nesting S) (I : Interpreter S) (own : S.Effect → Prop) (times : Nat)
    (outer : Except Fault S.Value → Comp S α) : Stage → Motion S α → Motion S α → Prop
  | moved {stage : Stage} {thread thread' : Thread S α}
      (h : Threads N I own times outer stage thread thread') (launch : Launch S) :
      Motions N I own times outer stage (.moved thread launch) (.moved thread' launch)
  | ended (outcome : Except Fault α) :
      Motions N I own times outer .after (.ended outcome) (.ended outcome)
  | blocked {stage : Stage} : Motions N I own times outer stage .blocked .blocked

/-- Computations in lockstep react in the same way. -/
inductive Reactions (lock : Comp S α → Comp S α → Prop) : Reaction S α → Reaction S α → Prop
  | next {c c' : Comp S α} (h : lock c c') (launch : Launch S) :
      Reactions lock (.next c launch) (.next c' launch)
  | enter (inner : Comp S (Turn S)) {k k' : Except Fault S.Value → Comp S α}
      (h : ∀ outcome, lock (k outcome) (k' outcome)) :
      Reactions lock (.enter inner k) (.enter inner k')
  | blocked : Reactions lock .blocked .blocked

section Moves

variable {R : Runtime S W} {same : W → W → Prop} {pool pool' : Pool S W}
  (hsame : Equivalence same) (hblind : R.Blind same) (hown : ∀ e w, own e → same w (R.effect e w).2)

/-- Computations do the same over a pool, and differ in nothing but in what they go on with. -/
structure StepsAlike (R : Runtime S W) (lock : Comp S α → Comp S α → Prop) (pool : Pool S W)
    (c c' : Comp S α) : Prop where
  reactions : Reactions lock (c.react R pool).1 (c'.react R pool).1
  pool_eq : (c'.react R pool).2 = (c.react R pool).2
  activity_eq : c'.activity R pool = c.activity R pool
  deeds_eq : c'.deeds R pool = c.deeds R pool

namespace StepsAlike

variable {lock : Comp S α → Comp S α → Prop} {c c' : Comp S α}

theorem ask {request : Request S} {k k' : request.Reply → Comp S α}
    (rest : ∀ reply, lock (k reply) (k' reply)) (pool : Pool S W) :
    StepsAlike R lock pool (.ask request k) (.ask request k') where
  reactions := .next (rest _) _
  pool_eq := rfl
  activity_eq := by cases request <;> rfl
  deeds_eq := by cases request <;> rfl

theorem read {fiber : FiberId} {k k' : Except Fault S.Value → Comp S α}
    (rest : ∀ outcome, lock (k outcome) (k' outcome)) (pool : Pool S W) :
    StepsAlike R lock pool (.demand (.read fiber) k) (.demand (.read fiber) k') where
  reactions := by
    rw [Comp.react, Comp.react]
    rcases pool.get? fiber with _ | (_ | action | action | _ | ending)
    case some.recomputing => exact .enter _ rest
    case some.ended => exact .next (rest _) .none
    all_goals exact .blocked
  pool_eq := by
    rw [Comp.react, Comp.react]
    rcases pool.get? fiber with _ | (_ | action | action | _ | ending) <;> rfl
  activity_eq := rfl
  deeds_eq := rfl

theorem runQueue {k k' : Comp S α} (rest : lock k k') (hlock : lock (.runQueue k) (.runQueue k'))
    (pool : Pool S W) : StepsAlike R lock pool (.runQueue k) (.runQueue k') := by
  by_cases hempty : pool.queue.isEmpty
  · refine ⟨?_, ?_, rfl, rfl⟩
    · simp only [Comp.react, hempty, if_true]
      exact .next rest .none
    · simp only [Comp.react, hempty, if_true]
  · rcases hstart : pool.startAt? R.toInterpreter (pool.nextPosition R.newestFirst) with
      _ | ⟨job, pool₁⟩
    · refine ⟨?_, ?_, rfl, rfl⟩ <;> simp [Comp.react, hempty, hstart, Reactions.blocked]
    · refine ⟨?_, ?_, rfl, rfl⟩
      · simp only [Comp.react, hempty, hstart]
        exact .next hlock (.ahead job)
      · simp [Comp.react, hempty, hstart]

include hblind in
/-- So they do over twins, since the first of them does the same over both. -/
theorem over_twins (htwins : pool.Twins ∅ same pool') (h : StepsAlike R lock pool' c c')
    (own : S.Effect → Prop) (strict : Bool) :
    ∃ reaction reaction' pool₁ pool₁', c.react R pool = (reaction, pool₁) ∧
      c'.react R pool' = (reaction', pool₁') ∧ pool₁.Twins ∅ same pool₁' ∧
      Reactions lock reaction reaction' ∧
      Counterpart own strict (c.activity R pool) (c.deeds R pool) (c'.activity R pool')
        (c'.deeds R pool') := by
  obtain ⟨⟨pool₁', hreact, htwins'⟩, hactivity, hdeeds⟩ :=
    Comp.react_twins (s := R.spawner) hblind htwins (Comp.not_heeds_empty c) (.inl rfl) rfl
  have hreactions := h.reactions
  have hpool := h.pool_eq
  rw [show c.react R pool' = _ from hreact] at hreactions hpool
  refine ⟨_, _, _, pool₁', rfl, Prod.ext rfl hpool, htwins', hreactions, ?_⟩
  rw [h.activity_eq.trans hactivity, h.deeds_eq.trans hdeeds]
  exact .same _ _

end StepsAlike

include hsame hblind hown in
/-- Computations in lockstep make the next move alike, unless they have come to their last part, or
fail. -/
theorem react_lockstep {strict : Bool} {last : Comp S α → Comp S α → Prop} {c c' : Comp S α}
    (h : c.Lockstep own strict last c') (htwins : pool.Twins ∅ same pool') :
    (last c c' ∨ ∃ fault, c = .fail fault ∧ c' = .fail fault) ∨
    ∃ reaction reaction' pool₁ pool₁', c.react R pool = (reaction, pool₁) ∧
      c'.react R pool' = (reaction', pool₁') ∧ pool₁.Twins ∅ same pool₁' ∧
      Reactions (Comp.Lockstep own strict last) reaction reaction' ∧
      Counterpart own strict (c.activity R pool) (c.deeds R pool) (c'.activity R pool')
        (c'.deeds R pool') := by
  cases h with
  | last h => exact .inl (.inl h)
  | fail fault => exact .inl (.inr ⟨fault, rfl, rfl⟩)
  | ask rest => exact .inr ((StepsAlike.ask rest pool').over_twins hblind htwins own strict)
  | @demand d k k' rest =>
    cases d with
    | read fiber => exact .inr ((StepsAlike.read rest pool').over_twins hblind htwins own strict)
    | interpret yields machine =>
      exact .inr ⟨_, _, pool, pool', rfl, rfl, htwins, .enter _ rest, .same _ _⟩
  | runQueue rest =>
    have hsteps := StepsAlike.runQueue (R := R) rest (.runQueue rest) pool'
    exact .inr (hsteps.over_twins hblind htwins own strict)
  | @note k k' hstrict rest =>
    refine .inr ⟨_, _, _, _, rfl, rfl, ?_, .next rest .none, .note hstrict⟩
    exact htwins.congr rfl rfl rfl rfl rfl rfl rfl rfl
  | @log record record' k k' hstrict rest =>
    exact .inr ⟨_, _, _, _, rfl, rfl, htwins.log R.level record record', .next rest .none,
      .same _ _⟩
  | @perform e e' k k' hstrict sent sent' rest =>
    have hmoved := Reactions.next (rest (R.effect e pool.world).1 (R.effect e' pool'.world).1) .none
    refine .inr ⟨_, _, { pool with world := (R.effect e pool.world).2 },
      { pool' with world := (R.effect e' pool'.world).2 }, rfl, rfl, ?_, hmoved,
      .perform hstrict sent sent' _ _⟩
    refine ⟨htwins.size, htwins.get?, htwins.queue, htwins.sighted, ?_⟩
    exact hsame.trans (hsame.symm (hown e _ sent)) (hsame.trans htwins.world (hown e' _ sent'))

/-- Both threads make a move and stay abreast, and their stories go on alike. -/
def Paired (N : Nesting S) (R : Runtime S W) (same : W → W → Prop) (own : S.Effect → Prop)
    (times : Nat) (me : Actor) (outer : Except Fault S.Value → Comp S α) (stage : Stage)
    (thread thread' : Thread S α) (pool pool' : Pool S W) : Prop :=
  ∃ motion motion' pool₁ pool₁' stage', thread.move R pool = (motion, pool₁) ∧
    thread'.move R pool' = (motion', pool₁') ∧ pool₁.Twins ∅ same pool₁' ∧
    Motions N R.toInterpreter own times outer stage' motion motion' ∧
    ∀ {es es'}, Retold N own times me stage es es' →
      Retold N own times me stage' (es ++ [.did me (thread.activity R pool) (thread.deeds R pool)])
        (es' ++ [.did me (thread'.activity R pool') (thread'.deeds R pool')])

/-- A thread may first have to make some moves alone, all of them told of in stages, before it is
its turn to move together with the other. -/
inductive CatchesUp (N : Nesting S) (R : Runtime S W) (same : W → W → Prop)
    (own : S.Effect → Prop) (times : Nat) (me : Actor) (outer : Except Fault S.Value → Comp S α)
    (thread' : Thread S α) (pool' : Pool S W) : Stage → Thread S α → Pool S W → Prop
  | paired {stage : Stage} {thread : Thread S α} {pool : Pool S W}
      (h : Paired N R same own times me outer stage thread thread' pool pool') :
      CatchesUp N R same own times me outer thread' pool' stage thread pool
  | alone {stage stage' : Stage} {thread thread₁ : Thread S α} {pool pool₁ : Pool S W}
      (moved : thread.move R pool = (.moved thread₁ .none, pool₁))
      (htwins : pool₁.Twins ∅ same pool')
      (h : Threads N R.toInterpreter own times outer stage' thread₁ thread')
      (hretold : ∀ {es es'}, Retold N own times me stage es es' →
        Retold N own times me stage'
          (es ++ [.did me (thread.activity R pool) (thread.deeds R pool)]) es')
      (rest : CatchesUp N R same own times me outer thread' pool' stage' thread₁ pool₁) :
      CatchesUp N R same own times me outer thread' pool' stage thread pool

variable {me : Actor} {outer : Except Fault S.Value → Comp S α}

include hblind in
/-- Where nothing is left of the program, both threads are the same. -/
theorem paired_same (htwins : pool.Twins ∅ same pool') (thread : Thread S α) :
    Paired N R same own times me outer .after thread thread pool pool' := by
  cases hmove : thread.move R pool with
  | mk motion pool₁ =>
    obtain ⟨⟨pool₁', hmove', htwins'⟩, hactivity, hdeeds⟩ :=
      Thread.move_twins (s := R.spawner) hblind htwins thread.not_heeds_empty (.inl rfl) hmove
    refine ⟨motion, motion, pool₁, pool₁', .after, hmove, hmove', htwins', ?_, fun h => ?_⟩
    · cases motion with
      | moved thread₁ launch => exact .moved (.same thread₁) launch
      | ended outcome => exact .ended outcome
      | blocked => exact .blocked
    · rw [hactivity, hdeeds]
      exact h.both _ fun _ told => by simp

/-- Both threads make the move that computations in lockstep make. -/
theorem paired_of_reactions {stage : Stage} {lock : Comp S (Turn S) → Comp S (Turn S) → Prop}
    {c c' : Comp S (Turn S)} {waiting : List (Except Fault S.Value → Comp S (Turn S))}
    {reaction reaction' : Reaction S (Turn S)} {pool₁ pool₁' : Pool S W}
    (hstage : ∀ told, stage ≠ .closing told)
    (hframes : ∀ {c c'}, lock c c' → Frames N R.toInterpreter own times stage c waiting c')
    (hreact : c.react R pool = (reaction, pool₁)) (hreact' : c'.react R pool' = (reaction', pool₁'))
    (htwins : pool₁.Twins ∅ same pool₁') (hreactions : Reactions lock reaction reaction')
    (hretold : ∀ {es es'}, Retold N own times me stage es es' →
      Retold N own times me stage (es ++ [.did me (c.activity R pool) (c.deeds R pool)])
        (es' ++ [.did me (c'.activity R pool') (c'.deeds R pool')])) :
    Paired N R same own times me outer stage (.nested c waiting outer) (.nested c' [] outer) pool
      pool' := by
  cases hreactions with
  | next h launch =>
    refine ⟨_, _, pool₁, pool₁', stage, ?_, ?_, htwins, .moved (.top (hframes h)) launch, hretold⟩
    · rw [Thread.move, hreact]
    · rw [Thread.move, hreact']
  | enter inner h =>
    refine ⟨_, _, pool₁, pool₁', stage, ?_, ?_, htwins,
      .moved (.under inner [] hstage fun outcome => hframes (h outcome)) .none, hretold⟩
    · rw [Thread.move, hreact]
      rfl
    · rw [Thread.move, hreact']
      rfl
  | blocked =>
    refine ⟨_, _, pool₁, pool₁', stage, ?_, ?_, htwins, .blocked, hretold⟩
    · rw [Thread.move, hreact]
    · rw [Thread.move, hreact']

include hblind in
/-- Both threads stand at the same computation, which user code has run above the program. -/
theorem paired_under (htwins : pool.Twins ∅ same pool') {stage : Stage}
    (hstage : ∀ told, stage ≠ .closing told) (c : Comp S (Turn S))
    (above : List (Except Fault S.Value → Comp S (Turn S)))
    {k k' : Except Fault S.Value → Comp S (Turn S)}
    {waiting : List (Except Fault S.Value → Comp S (Turn S))}
    (h : ∀ outcome, Frames N R.toInterpreter own times stage (k outcome) waiting (k' outcome)) :
    Paired N R same own times me outer stage (.nested c (above ++ k :: waiting) outer)
      (.nested c (above ++ [k']) outer) pool pool' := by
  cases hreact : c.react R pool with
  | mk reaction pool₁ =>
    obtain ⟨⟨pool₁', hreact', htwins'⟩, hactivity, hdeeds⟩ :=
      Comp.react_twins (s := R.spawner) hblind htwins c.not_heeds_empty (.inl rfl) hreact
    refine ⟨_, _, pool₁, pool₁', stage, Thread.move_append hreact above (k :: waiting) outer,
      Thread.move_append hreact' above [k'] outer, htwins', ?_, fun hes => ?_⟩
    · cases Advance.ofReaction R.toInterpreter above reaction with
      | moved c₁ above₁ launch => exact .moved (.under c₁ above₁ hstage h) launch
      | answered outcome => exact .moved (.top (h outcome)) .none
      | blocked => exact .blocked
    · have hentry : Entry.did me (c.activity R pool') (c.deeds R pool') =
          .did me (c.activity R pool) (c.deeds R pool) := by
        rw [← hactivity, ← hdeeds]
      exact hentry ▸ hes.both _ fun _ => hstage

variable (hlawful : N.Lawful R.toInterpreter)
  (htells : Comp.Tells own times fun b => R.observer (.finished b))

include hsame hblind hown hlawful htells in
/-- Before the program has been made, both threads move together. -/
theorem paired_before (htwins : pool.Twins ∅ same pool') {c c' : Comp S (Turn S)}
    (h : c.Lockstep own true N.LastBefore c') :
    Paired N R same own times me outer .before (.nested c [] outer) (.nested c' [] outer) pool
      pool' := by
  obtain (hlast | ⟨fault, rfl, rfl⟩) | ⟨reaction, reaction', pool₁, pool₁', hreact, hreact',
    htwins', hreactions, hcounter⟩ := react_lockstep hsame hblind hown h htwins
  · cases hlast with
    | again tree above =>
      refine ⟨_, _, pool, pool', .before, rfl, rfl, htwins, .moved (.top (.before ?_)) .none,
        fun h => h.both _ fun _ told => by simp⟩
      exact lockstep_turn_before hlawful tree above
    | made program =>
      refine ⟨_, _, pool, pool', .inside, rfl, rfl, htwins, .moved (.top (.inside ?_)) .none,
        .made⟩
      exact lockstep_turn_inside hlawful htells program []
  · exact ⟨_, _, pool, pool', .after, rfl, rfl, htwins, .moved (.same _) .none,
      fun h => h.missed fault⟩
  · refine paired_of_reactions (fun told => by simp) .before hreact hreact' htwins' hreactions ?_
    intro es es' hes
    rw [hcounter.eq_of_strict.1, hcounter.eq_of_strict.2]
    exact hes.both _ fun _ told => by simp

include hsame hblind hown hlawful htells in
/-- While the program is run, both threads move together until it has come to its value or has
failed. -/
theorem paired_inside (htwins : pool.Twins ∅ same pool') {c c' : Comp S (Turn S)}
    (h : c.Lockstep own N.pending.isEmpty (N.LastInside R.toInterpreter) c') :
    ((∃ v, c = .done (.value v) ∧ c' = R.goOn N.yields N.pending v) ∨
      ∃ fault, c = .fail fault ∧ c' = .fail fault) ∨
    Paired N R same own times me outer .inside (.nested c [N.resumed] outer) (.nested c' [] outer)
      pool pool' := by
  obtain (hlast | hfail) | ⟨reaction, reaction', pool₁, pool₁', hreact, hreact', htwins',
    hreactions, hcounter⟩ := react_lockstep hsame hblind hown h htwins
  · cases hlast with
    | again tree above =>
      refine .inr ⟨_, _, pool, pool', .inside, rfl, rfl, htwins, .moved (.top (.inside ?_)) .none,
        fun h => h.both _ fun _ told => by simp⟩
      exact lockstep_turn_inside hlawful htells tree above
    | value v => exact .inl (.inl ⟨v, rfl, rfl⟩)
  · exact .inl (.inr hfail)
  · exact .inr (paired_of_reactions (fun told => by simp) .inside hreact hreact' htwins'
      hreactions fun hes => hes.pair hcounter)

/-! ## Catching up -/

include hsame hblind hown in
/-- The return is told of anew, and then nothing is left of the program. -/
theorem catchesUp_closing {left : Nat} {c : Bool → Comp S Unit} (h : Comp.Tells own left c)
    {told : Nat} (htold : told + left = times) (v : S.Value) (htwins : pool.Twins ∅ same pool') :
    CatchesUp N R same own times me outer
      (.nested (R.goOn N.yields N.pending v) [] outer) pool' (.closing told)
      (.nested ((c N.pending.isEmpty).bind fun _ => R.goOn N.yields N.pending v) [] outer) pool := by
  induction h generalizing told pool with
  | done =>
    obtain rfl : told = times := htold
    have hpaired : Paired N R same own told me outer .after _ _ pool pool' :=
      paired_same hblind htwins (.nested (R.goOn N.yields N.pending v) [] outer)
    obtain ⟨motion, motion', pool₁, pool₁', stage, hmove, hmove', htwins', hmotions, hretold⟩ :=
      hpaired
    exact .paired ⟨motion, motion', pool₁, pool₁', stage, hmove, hmove', htwins', hmotions,
      fun h => hretold h.closed⟩
  | @note left c rest ih =>
    have htold' : told + 1 + left = times := by omega
    have htwins' : Pool.Twins ∅ same
        { pool with events := pool.events.push (.finished N.pending.isEmpty) } pool' :=
      htwins.congr rfl rfl rfl rfl rfl rfl rfl rfl
    exact .alone rfl htwins' (.top (.closing rest htold' v)) .told (ih htold' htwins')
  | @log left c rest ih =>
    have htwins' : Pool.Twins ∅ same
        (pool.log R.level (.ofEvent (.finished N.pending.isEmpty))) pool' :=
      htwins.congr (by simp) (by simp) (by simp) (by simp) rfl rfl rfl rfl
    exact .alone rfl htwins' (.top (.closing rest htold v)) (fun h => h.unseen .attended)
      (ih htold htwins')
  | @perform left e k sent rest ih =>
    have htwins' : Pool.Twins ∅ same
        { pool with world := (R.effect (e N.pending.isEmpty) pool.world).2 } pool' := by
      refine ⟨htwins.size, htwins.get?, htwins.queue, htwins.sighted, ?_⟩
      exact hsame.trans (hsame.symm (hown _ _ (sent _))) htwins.world
    -- Replies to the other flag are never asked for; any will do, and there is one.
    let reply (b : Bool) : S.Reply (e b) := (R.effect (e b) pool.world).1
    exact .alone rfl htwins' (.top (.closing (rest reply) htold v))
      (fun h => h.unseen (.performed (sent _) _)) (ih reply htold htwins')

include hsame hblind hown htells in
/-- The value of the program has been yielded anew, and its return is about to be told of. -/
theorem catchesUp_yielded (v : S.Value) (htwins : pool.Twins ∅ same pool') :
    CatchesUp N R same own times me outer (.nested (R.goOn N.yields N.pending v) [] outer) pool'
      (.closing 0) (.nested (.done (.again N.yields ((Tree.ret v).under N.pending))) [] outer)
      pool := by
  have hmove : Thread.move R pool
      (.nested (.done (.again N.yields ((Tree.ret v).under N.pending))) [] outer) =
      (.moved (.nested ((R.observer (.finished N.pending.isEmpty)).bind fun _ =>
        R.goOn N.yields N.pending v) [] outer) .none, pool) := by
    rw [← Interpreter.turn_ret]
    rfl
  exact .alone hmove htwins (.top (.closing htells (Nat.zero_add times) v))
    (fun h => h.unseen .returned)
    (catchesUp_closing hsame hblind hown htells (Nat.zero_add times) v htwins)

include hsame hblind hown hlawful htells in
/-- The thread that runs the nested code catches up with the other. -/
theorem Threads.catchesUp {stage : Stage} {thread thread' : Thread S α}
    (h : Threads N R.toInterpreter own times outer stage thread thread')
    (htwins : pool.Twins ∅ same pool') :
    CatchesUp N R same own times me outer thread' pool' stage thread pool := by
  cases h with
  | first q =>
    refine .paired ⟨_, _, pool, pool', .before, rfl, rfl, htwins, .moved (.top (.before ?_)) .none,
      fun h => h.both _ fun _ told => by simp⟩
    exact .last (.again q [])
  | top h =>
    cases h with
    | before h => exact .paired (paired_before hsame hblind hown hlawful htells htwins h)
    | inside h =>
      obtain (⟨v, rfl, rfl⟩ | ⟨fault, rfl, rfl⟩) | hpaired :=
        paired_inside hsame hblind hown hlawful htells htwins h
      · exact .alone rfl htwins (.top (.yielded v)) .yielded
          (catchesUp_yielded hsame hblind hown htells v htwins)
      · exact .alone rfl htwins (.same _) (fun h => h.failed fault)
          (.paired (paired_same hblind htwins _))
      · exact .paired hpaired
    | yielded v => exact catchesUp_yielded hsame hblind hown htells v htwins
    | closing h htold v => exact catchesUp_closing hsame hblind hown h htold v htwins
    | after c => exact .paired (paired_same hblind htwins _)
  | under c above hstage h => exact .paired (paired_under hblind htwins hstage c above h)
  | same => exact .paired (paired_same hblind htwins _)

end Moves

/-- A thread that has come to its end has nothing left of the program, nor has the other. -/
theorem Threads.eq_of_ended {outer : Except Fault S.Value → Comp S α} {stage : Stage}
    {thread thread' : Thread S α} {outcome : Except Fault α}
    (h : Threads N I own times outer stage thread thread')
    (ended : thread = .base (.ofExcept outcome) ∨ thread' = .base (.ofExcept outcome)) :
    stage = .after ∧ thread' = thread := by
  have hbase (d : Demand S) (k : Except Fault S.Value → Comp S α) :
      (Thread.base (.demand d k) : Thread S α) ≠ .base (.ofExcept outcome) := by
    cases outcome <;> simp [Comp.ofExcept]
  cases h with
  | first => exact absurd ended (not_or.mpr ⟨hbase _ _, hbase _ _⟩)
  | top => obtain ended | ended := ended <;> cases ended
  | under => obtain ended | ended := ended <;> cases ended
  | same => exact ⟨rfl, rfl⟩

/-- What a thread does to catch up with the other, nobody else has a part in. -/
theorem CatchesUp.trail {R : Runtime S W} {same : W → W → Prop}
    {outer : Except Fault S.Value → Comp S α} {before after : List (Main S α)}
    {jobs : List (Job S)} {stage : Stage} {thread thread' : Thread S α} {pool pool' : Pool S W}
    (h : CatchesUp N R same own times (.caller before.length) outer thread' pool' stage thread
      pool) :
    ∃ more thread₁ pool₁ stage₁,
      Trail (Scene.Incident R) ⟨pool, before ++ .running thread :: after, jobs⟩ more
        ⟨pool₁, before ++ .running thread₁ :: after, jobs⟩ ∧
      Paired N R same own times (.caller before.length) outer stage₁ thread₁ thread' pool₁ pool' ∧
      ∀ {es es'}, Retold N own times (.caller before.length) stage es es' →
        Retold N own times (.caller before.length) stage₁ (es ++ more) es' := by
  induction h with
  | @paired stage thread pool h =>
    exact ⟨[], thread, pool, stage, .refl, h, fun hes => by simpa using hes⟩
  | alone moved htwins h hretold rest ih =>
    obtain ⟨more, thread₁, pool₁, stage₁, htrail, hpaired, hmore⟩ := ih
    have hfirst := Trail.single (Scene.Incident.caller before after jobs moved)
    refine ⟨_, thread₁, pool₁, stage₁, hfirst.trans htrail, hpaired, fun hes => ?_⟩
    rw [← List.append_assoc]
    exact hmore (hretold hes)

/-! ## Scenes abreast of each other -/

/-- Computations that run the one code and the other are as far as each other. -/
inductive Mains (N : Nesting S) (I : Interpreter S) (own : S.Effect → Prop) (times : Nat)
    (outer : Except Fault S.Value → Comp S α) : Stage → Main S α → Main S α → Prop
  | running {stage : Stage} {thread thread' : Thread S α}
      (h : Threads N I own times outer stage thread thread') :
      Mains N I own times outer stage (.running thread) (.running thread')
  | ended (outcome : Except Fault α) :
      Mains N I own times outer .after (.ended outcome) (.ended outcome)

/-- Two scenes in which everything is the same but the computation in one place, which runs the
nested code in the first and the sequenced code in the second. -/
def Abreast (N : Nesting S) (R : Runtime S W) (same : W → W → Prop) (own : S.Effect → Prop)
    (times place : Nat) (outer : Except Fault S.Value → Comp S α) (stage : Stage)
    (scene scene' : Scene S W α) : Prop :=
  ∃ main main', scene.callers[place]? = some main ∧
    scene'.callers = scene.callers.set place main' ∧ scene'.jobs = scene.jobs ∧
    scene.pool.Twins ∅ same scene'.pool ∧
    Mains N R.toInterpreter own times outer stage main main'

section Scenes

variable {R : Runtime S W} {same : W → W → Prop} {place : Nat}
  {outer : Except Fault S.Value → Comp S α} {stage : Stage} {scene scene' : Scene S W α}
  {es es' more : List (Entry S)} (hsame : Equivalence same) (hblind : R.Blind same)
  (hown : ∀ e w, own e → same w (R.effect e w).2) (hlawful : N.Lawful R.toInterpreter)
  (htells : Comp.Tells own times fun b => R.observer (.finished b))

/-- Scenes are abreast if everything around the two computations is the same. -/
theorem abreast_of_mains {pool pool' : Pool S W} {before after : List (Main S α)}
    {main main' : Main S α} {jobs : List (Job S)} (htwins : pool.Twins ∅ same pool')
    (hmains : Mains N R.toInterpreter own times outer stage main main') :
    Abreast N R same own times before.length outer stage ⟨pool, before ++ main :: after, jobs⟩
      ⟨pool', before ++ main' :: after, jobs⟩ :=
  ⟨main, main', by simp, by simp, rfl, htwins, hmains⟩

section Turns

variable {pool pool' pool₁ pool₁' : Pool S W} {before after : List (Main S α)}
  {thread thread' thread₁ thread₁' : Thread S α} {jobs : List (Job S)} {launch : Launch S}

include hsame hblind hown hlawful htells in
/-- The computation with the nested code moves. The other one does too, or waits until the first
has caught up. -/
theorem forth_move (h : Threads N R.toInterpreter own times outer stage thread thread')
    (htwins : pool.Twins ∅ same pool')
    (hretold : Retold N own times (.caller before.length) stage es es')
    (moved : thread.move R pool = (.moved thread₁ launch, pool₁)) :
    ∃ more' scene₁' stage',
      Trail (Scene.Incident R) ⟨pool', before ++ .running thread' :: after, jobs⟩ more' scene₁' ∧
      Abreast N R same own times before.length outer stage'
        ⟨pool₁, before ++ .running thread₁ :: after, launch.onto jobs⟩ scene₁' ∧
      Retold N own times (.caller before.length) stage'
        (es ++ [.did (.caller before.length) (thread.activity R pool) (thread.deeds R pool)])
        (es' ++ more') := by
  have hcatches : CatchesUp N R same own times (.caller before.length) outer thread' pool' stage
      thread pool := h.catchesUp hsame hblind hown hlawful htells htwins
  cases hcatches with
  | paired hpaired =>
    obtain ⟨motion, motion', pool₂, pool₁', stage', hmove, hmove', htwins', hmotions, hretold'⟩ :=
      hpaired
    cases moved.symm.trans hmove
    cases hmotions with
    | moved h launch =>
      exact ⟨_, _, stage', .single (.caller before after jobs hmove'),
        abreast_of_mains htwins' (.running h), hretold' hretold⟩
  | @alone _ stage' _ thread₂ _ pool₂ moved' htwins' h hretold' rest =>
    cases moved.symm.trans moved'
    exact ⟨[], _, stage', .refl, abreast_of_mains htwins' (.running h),
      by simpa using hretold' hretold⟩

include hsame hblind hown hlawful htells in
/-- The computation with the sequenced code moves, once the other one has caught up, which then
does too. -/
theorem back_move (h : Threads N R.toInterpreter own times outer stage thread thread')
    (htwins : pool.Twins ∅ same pool')
    (hretold : Retold N own times (.caller before.length) stage es es')
    (moved : thread'.move R pool' = (.moved thread₁' launch, pool₁')) :
    ∃ more scene₁ stage',
      Trail (Scene.Incident R) ⟨pool, before ++ .running thread :: after, jobs⟩ more scene₁ ∧
      Abreast N R same own times before.length outer stage' scene₁
        ⟨pool₁', before ++ .running thread₁' :: after, launch.onto jobs⟩ ∧
      Retold N own times (.caller before.length) stage' (es ++ more)
        (es' ++ [.did (.caller before.length) (thread'.activity R pool')
          (thread'.deeds R pool')]) := by
  have hcatches : CatchesUp N R same own times (.caller before.length) outer thread' pool' stage
      thread pool := h.catchesUp hsame hblind hown hlawful htells htwins
  obtain ⟨more, thread₁, pool₁, stage₁, htrail, hpaired, hmore⟩ := hcatches.trail
  obtain ⟨motion, motion', pool₂, pool₂', stage', hmove, hmove', htwins', hmotions, hretold'⟩ :=
    hpaired
  cases moved.symm.trans hmove'
  cases hmotions with
  | moved h launch =>
    refine ⟨_, _, stage', htrail.tail (.caller before after jobs hmove),
      abreast_of_mains htwins' (.running h), ?_⟩
    rw [← List.append_assoc]
    exact hretold' (hmore hretold)

end Turns

include hsame hblind hown hlawful htells in
/-- What happens in the run with the nested code is matched in the run with the sequenced code. -/
theorem Abreast.forth {scene₁ : Scene S W α}
    (h : Abreast N R same own times place outer stage scene scene')
    (hretold : Retold N own times (.caller place) stage es es')
    (incident : Scene.Incident R scene more scene₁) :
    ∃ more' scene₁' stage', Trail (Scene.Incident R) scene' more' scene₁' ∧
      Abreast N R same own times place outer stage' scene₁ scene₁' ∧
      Retold N own times (.caller place) stage' (es ++ more) (es' ++ more') := by
  obtain ⟨main, main', hmain, hcallers, hjobs, htwins, hmains⟩ := h
  obtain ⟨entry, rfl⟩ := incident.exists_entry
  obtain ⟨pool', callers', jobs'⟩ := scene'
  obtain rfl : callers' = _ := hcallers
  obtain rfl : jobs' = _ := hjobs
  by_cases hwho : entry.who? = some (.caller place)
  · -- It is the computation in that place that moves, or ends.
    cases incident with
    | @caller pool pool₁ before after thread thread₁ launch jobs moved =>
      obtain rfl : before.length = place := by simpa [Entry.who?] using hwho
      obtain rfl : main = .running thread := by simpa using hmain.symm
      rw [List.set_append_right _ _ (Nat.le_refl _), Nat.sub_self, List.set_cons_zero]
      cases hmains with
      | running h => exact forth_move hsame hblind hown hlawful htells h htwins hretold moved
    | @callerEnded pool pool₁ before after thread outcome jobs ended =>
      obtain rfl : before.length = place := by simpa [Entry.who?] using hwho
      obtain rfl : main = .running thread := by simpa using hmain.symm
      rw [List.set_append_right _ _ (Nat.le_refl _), Nat.sub_self, List.set_cons_zero]
      obtain ⟨-, rfl⟩ := Thread.of_ended ended
      have hbase := Thread.eq_of_ended ended
      cases hmains with
      | running h =>
        obtain ⟨rfl, rfl⟩ := h.eq_of_ended (.inl hbase)
        have ended' : Thread.move R pool' _ = (.ended outcome, pool') :=
          (congrArg _ hbase).trans (Thread.move_ofExcept R pool' outcome)
        exact ⟨_, _, .after, .single (.callerEnded before after jobs ended'),
          abreast_of_mains htwins (.ended outcome), hretold.both _ fun _ told => by simp⟩
    | job => cases hwho
    | jobEnded => cases hwho
    | jobBegun => cases hwho
    | drop => cases hwho
  · -- Others do in the other run what they do in this one.
    obtain ⟨hget, pool₁', htwins', incident'⟩ := incident.twin hblind hwho htwins main'
    refine ⟨[entry], _, stage, .single incident', ?_, hretold.both entry fun h => absurd h hwho⟩
    exact ⟨main, main', hget.trans hmain, rfl, rfl, htwins', hmains⟩

include hsame hblind hown hlawful htells in
/-- What happens in the run with the sequenced code is matched in the run with the nested code,
which may have to catch up first. -/
theorem Abreast.back {more' : List (Entry S)} {scene₁' : Scene S W α}
    (h : Abreast N R same own times place outer stage scene scene')
    (hretold : Retold N own times (.caller place) stage es es')
    (incident : Scene.Incident R scene' more' scene₁') :
    ∃ more scene₁ stage', Trail (Scene.Incident R) scene more scene₁ ∧
      Abreast N R same own times place outer stage' scene₁ scene₁' ∧
      Retold N own times (.caller place) stage' (es ++ more) (es' ++ more') := by
  obtain ⟨main, main', hmain, hcallers, hjobs, htwins, hmains⟩ := h
  obtain ⟨entry, rfl⟩ := incident.exists_entry
  obtain ⟨pool, callers, jobs⟩ := scene
  obtain ⟨pool', callers', jobs'⟩ := scene'
  obtain rfl : jobs' = jobs := hjobs
  change callers[place]? = some main at hmain
  change callers' = callers.set place main' at hcallers
  obtain ⟨hplace, hget⟩ := List.getElem?_eq_some_iff.mp hmain
  have hmain' : callers'[place]? = some main' := by
    rw [hcallers, List.getElem?_set_self hplace]
  -- The nested run is the sequenced run with that computation exchanged.
  obtain rfl : callers = callers'.set place main := by
    rw [hcallers, List.set_set, ← hget, List.set_getElem_self]
  by_cases hwho : entry.who? = some (.caller place)
  · cases incident with
    | @caller _ pool₁' before after thread' thread₁' launch jobs moved =>
      obtain rfl : before.length = place := by simpa [Entry.who?] using hwho
      obtain rfl : main' = .running thread' := by simpa using hmain'.symm
      rw [List.set_append_right _ _ (Nat.le_refl _), Nat.sub_self, List.set_cons_zero]
      cases hmains with
      | running h => exact back_move hsame hblind hown hlawful htells h htwins hretold moved
    | @callerEnded _ pool₁' before after thread' outcome jobs ended =>
      obtain rfl : before.length = place := by simpa [Entry.who?] using hwho
      obtain rfl : main' = .running thread' := by simpa using hmain'.symm
      rw [List.set_append_right _ _ (Nat.le_refl _), Nat.sub_self, List.set_cons_zero]
      obtain ⟨-, rfl⟩ := Thread.of_ended ended
      have hbase := Thread.eq_of_ended ended
      cases hmains with
      | running h =>
        obtain ⟨rfl, rfl⟩ := h.eq_of_ended (.inr hbase)
        have ended' : Thread.move R pool _ = (.ended outcome, pool) :=
          (congrArg _ hbase).trans (Thread.move_ofExcept R pool outcome)
        exact ⟨_, _, .after, .single (.callerEnded before after jobs' ended'),
          abreast_of_mains htwins (.ended outcome), hretold.both _ fun _ told => by simp⟩
    | job => cases hwho
    | jobEnded => cases hwho
    | jobBegun => cases hwho
    | drop => cases hwho
  · have hsymm : pool'.Twins ∅ same pool := htwins.symm hsame.symm
    obtain ⟨hget', pool₁, htwins', incident'⟩ := incident.twin hblind hwho hsymm main
    have hmain₁ : scene₁'.callers[place]? = some main' := hget'.trans hmain'
    obtain ⟨hplace₁, hget₁⟩ := List.getElem?_eq_some_iff.mp hmain₁
    refine ⟨[entry], _, stage, .single incident', ?_, hretold.both entry fun h => absurd h hwho⟩
    refine ⟨main, main', ?_, ?_, rfl, htwins'.symm hsame.symm, hmains⟩
    · exact List.getElem?_set_self hplace₁
    · rw [List.set_set, ← hget₁, List.set_getElem_self]

end Scenes

/-- Two scenes with their stories, the first of a run with the nested code, the second of a run
with the sequenced code that has come as far. -/
def Matched (N : Nesting S) (R : Runtime S W) (same : W → W → Prop) (own : S.Effect → Prop)
    (times place : Nat) (outer : Except Fault S.Value → Comp S α) (scene : Scene S W α)
    (es : List (Entry S)) (scene' : Scene S W α) (es' : List (Entry S)) : Prop :=
  ∃ stage, Abreast N R same own times place outer stage scene scene' ∧
    Retold N own times (.caller place) stage es es'

section Runs

variable {R : Runtime S W} {same : W → W → Prop} {place : Nat}
  {outer : Except Fault S.Value → Comp S α} {start start' : Scene S W α} (hsame : Equivalence same)
  (hblind : R.Blind same) (hown : ∀ e w, own e → same w (R.effect e w).2)
  (hlawful : N.Lawful R.toInterpreter)
  (htells : Comp.Tells own times fun b => R.observer (.finished b))
  (hstart : Abreast N R same own times place outer .before start start')

include hsame hblind hown hlawful htells hstart

theorem exists_matched {scene : Scene S W α} {es : List (Entry S)}
    (story : Trail (Scene.Incident R) start es scene) :
    ∃ es' scene', Trail (Scene.Incident R) start' es' scene' ∧
      Matched N R same own times place outer scene es scene' es' := by
  refine story.simulated (fun h incident => ?_) ⟨.before, hstart, .nil⟩
  obtain ⟨stage, habreast, hretold⟩ := h
  obtain ⟨more', scene₁', stage', hmore, hmatched⟩ :=
    habreast.forth hsame hblind hown hlawful htells hretold incident
  exact ⟨more', scene₁', hmore, stage', hmatched⟩

theorem exists_matching {scene' : Scene S W α} {es' : List (Entry S)}
    (story : Trail (Scene.Incident R) start' es' scene') :
    ∃ es scene, Trail (Scene.Incident R) start es scene ∧
      Matched N R same own times place outer scene es scene' es' := by
  let matching (scene' : Scene S W α) (es' : List (Entry S)) (scene : Scene S W α)
      (es : List (Entry S)) : Prop := Matched N R same own times place outer scene es scene' es'
  have hmatching : matching start' [] start [] := ⟨.before, hstart, .nil⟩
  refine story.simulated (fun h incident => ?_) hmatching
  obtain ⟨stage, habreast, hretold⟩ := h
  obtain ⟨more, scene₁, stage', hmore, hmatched⟩ :=
    habreast.back hsame hblind hown hlawful htells hretold incident
  exact ⟨more, scene₁, hmore, stage', hmatched⟩

end Runs

/-! ## What both runs tell alike -/

/-- What an actor does without anybody else being the wiser: it yields values and takes them, and
has it put down that it does, or written to the log. -/
inductive Private (own : S.Effect → Prop) : Activity S → Prop
  | finished (outermost : Bool) : Private own (.noted (.finished outermost))
  | performed {e : S.Effect} (sent : own e) (reply : S.Reply e) : Private own (.performed e reply)
  | attended : Private own .attended
  | called : Private own .called
  | returned : Private own .returned
  | raised (fault : Fault) : Private own (.raised fault)

open Classical in
/-- An entry, unless it only tells of something that `me` does without anybody else being the
wiser. -/
noncomputable def seen (own : S.Effect → Prop) (me : Actor) (entry : Entry S) : List (Entry S) :=
  if ∃ activity, entry = .did me activity [] ∧ Private own activity then [] else [entry]

/-- The events of operations. -/
def heard (events : List Event) : List Event :=
  events.filter fun
    | .finished _ => false
    | _ => true

theorem Unseen.isPrivate {activity : Activity S} (h : Unseen own activity) :
    Private own activity := by
  cases h with
  | returned => exact .returned
  | attended => exact .attended
  | performed sent reply => exact .performed sent reply

section Told

variable {me : Actor} {stage : Stage} {es es' : List (Entry S)}

/-- Whatever does not depend on what `me` does without anybody else being the wiser is told alike in
both stories. -/
theorem Retold.flatMap_eq {β : Type} {f : Entry S → List β}
    (hf : ∀ {activity}, Private own activity → f (.did me activity []) = [])
    (h : Retold N own times me stage es es') : es'.flatMap f = es.flatMap f := by
  induction h with
  | nil => rfl
  | both _ entry _ ih => simp [ih]
  | missed _ fault ih => simp [ih]
  | made _ ih => simp [ih, hf .called, hf .returned]
  | pair _ hcounter ih =>
    cases hcounter with
    | same => simp [ih]
    | note => simp [ih, hf (.finished _)]
    | perform _ sent sent' => simp [ih, hf (.performed sent _), hf (.performed sent' _)]
  | failed _ fault ih => simp [ih, hf (.raised fault)]
  | yielded _ ih => simp [ih, hf .returned]
  | unseen _ hunseen ih => simp [ih, hf hunseen.isPrivate]
  | told _ ih => simp [ih, hf (.finished _)]
  | closed _ ih => exact ih

theorem Retold.seen_eq (h : Retold N own times me stage es es') :
    es'.flatMap (seen own me) = es.flatMap (seen own me) :=
  h.flatMap_eq fun hprivate => if_pos ⟨_, rfl, hprivate⟩

theorem Retold.heard_eq (h : Retold N own times me stage es es') :
    heard (es'.flatMap Entry.events) = heard (es.flatMap Entry.events) := by
  have hflat (es : List (Entry S)) :
      heard (es.flatMap Entry.events) = es.flatMap fun entry => heard entry.events := by
    rw [heard, List.filter_flatMap]
    rfl
  rw [hflat, hflat]
  refine h.flatMap_eq fun hprivate => ?_
  cases hprivate <;> rfl

end Told

/-- Two runs have come equally far, and nobody can tell the one from the other who does not look at
returns: the computation in the given place has ended in the same way, or in neither run; all
others are as far in the one as in the other, and everything that they share is the same. -/
structure Alike (same : W → W → Prop) (own : S.Effect → Prop) (place : Nat)
    (es es' : List (Entry S)) (scene scene' : Scene S W α) : Prop where
  outcome : ∀ outcome, scene'.callers[place]? = some (.ended outcome) ↔
    scene.callers[place]? = some (.ended outcome)
  others : ∀ {other}, other ≠ place → scene'.callers[other]? = scene.callers[other]?
  jobs : scene'.jobs = scene.jobs
  fibers : scene'.pool.fibers = scene.pool.fibers
  queue : scene'.pool.queue = scene.pool.queue
  sighted : scene'.pool.sighted = scene.pool.sighted
  world : same scene.pool.world scene'.pool.world
  told : es'.flatMap (seen own (.caller place)) = es.flatMap (seen own (.caller place))
  events : heard scene'.pool.events.toList = heard scene.pool.events.toList

theorem Abreast.alike {R : Runtime S W} {same : W → W → Prop} {place : Nat}
    {outer : Except Fault S.Value → Comp S α} {stage : Stage}
    {scene scene' start start' : Scene S W α}
    {es es' : List (Entry S)} (h : Abreast N R same own times place outer stage scene scene')
    (hretold : Retold N own times (.caller place) stage es es')
    (story : Trail (Scene.Incident R) start es scene)
    (story' : Trail (Scene.Incident R) start' es' scene')
    (hevents : start'.pool.events = start.pool.events) :
    Alike same own place es es' scene scene' := by
  obtain ⟨main, main', hmain, hcallers, hjobs, htwins, hmains⟩ := h
  obtain ⟨hplace, -⟩ := List.getElem?_eq_some_iff.mp hmain
  refine ⟨fun outcome => ?_, fun hother => ?_, hjobs, htwins.fibers_eq, htwins.queue_eq,
    htwins.sighted, htwins.world, hretold.seen_eq, ?_⟩
  · rw [hmain, hcallers, List.getElem?_set_self hplace]
    cases hmains with
    | running => simp
    | ended => rfl
  · rw [hcallers, List.getElem?_set_ne hother.symm]
  · have hheard := hretold.heard_eq
    unfold heard at hheard ⊢
    rw [Scene.events_of_trail story, Scene.events_of_trail story', List.filter_append,
      List.filter_append, hheard, hevents]

end Nesting

/-! ## Runs inside and runs from the outside -/

/-- A thread that has a program run from the outside, and a thread in which `k` has it run inside,
with others waiting below: they are as far as each other. -/
inductive Thread.Within (top : Except Fault S.Value → Comp S α)
    (k : Except Fault S.Value → Comp S (Turn S))
    (waiting : List (Except Fault S.Value → Comp S (Turn S)))
    (outer : Except Fault S.Value → Comp S α) : Thread S α → Thread S α → Prop
  | first (yields : Ty S.Base) (machine : S.Machine) :
      Within top k waiting outer (.base (.demand (.interpret yields machine) top))
        (.nested (.demand (.interpret yields machine) k) waiting outer)
  | under (c : Comp S (Turn S)) (above : List (Except Fault S.Value → Comp S (Turn S))) :
      Within top k waiting outer (.nested c above top) (.nested c (above ++ k :: waiting) outer)

/-- A move of the thread that has the program run inside is made from the outside too. After that
they are as far as each other, unless the program has come to its outcome. -/
theorem Thread.Within.move {R : Runtime S W} {pool pool₁ pool' : Pool S W}
    {top outer : Except Fault S.Value → Comp S α} {k : Except Fault S.Value → Comp S (Turn S)}
    {waiting : List (Except Fault S.Value → Comp S (Turn S))}
    {thread thread' thread₁' : Thread S α} {launch : Launch S}
    (hwithin : Thread.Within top k waiting outer thread thread')
    (htwins : pool.Twins ∅ Eq pool')
    (moved : thread'.move R pool = (.moved thread₁' launch, pool₁)) :
    ∃ thread₁ pool₁', thread.move R pool' = (.moved thread₁ launch, pool₁') ∧
      pool₁.Twins ∅ Eq pool₁' ∧ thread.activity R pool' = thread'.activity R pool ∧
      thread.deeds R pool' = thread'.deeds R pool ∧
      (Thread.Within top k waiting outer thread₁ thread₁' ∨
        ∃ outcome, thread₁ = .base (top outcome) ∧
          thread₁' = .nested (k outcome) waiting outer) := by
  cases hwithin with
  | first yields machine =>
    cases moved
    exact ⟨_, pool', rfl, htwins, rfl, rfl, .inl (.under _ [])⟩
  | under c above =>
    cases hreact : c.react R pool with
    | mk reaction pool₂ =>
      obtain ⟨⟨pool₂', hreact', htwins'⟩, hactivity, hdeeds⟩ :=
        Comp.react_twins (s := R.spawner) R.blind_eq htwins c.not_heeds_empty (.inl rfl) hreact
      -- The same move is made with more callers below it on the inside.
      have hinside := moved.symm.trans (Thread.move_append hreact above (k :: waiting) outer)
      have houtside := Thread.move_append hreact' above [] top
      rw [List.append_nil] at houtside
      cases hadvance : Advance.ofReaction R.toInterpreter above reaction with
      | moved c₁ above₁ launch =>
        rw [hadvance] at hinside houtside
        rw [Advance.motion, List.append_nil] at houtside
        cases hinside
        exact ⟨_, pool₂', houtside, htwins', hactivity, hdeeds, .inl (.under c₁ above₁)⟩
      | answered outcome =>
        rw [hadvance] at hinside houtside
        cases hinside
        exact ⟨_, pool₂', houtside, htwins', hactivity, hdeeds, .inr ⟨outcome, rfl, rfl⟩⟩
      | blocked =>
        rw [hadvance] at hinside
        cases hinside

namespace Scene

variable {R : Runtime S W} {place : Nat} {top outer : Except Fault S.Value → Comp S α}
  {k : Except Fault S.Value → Comp S (Turn S)}
  {waiting : List (Except Fault S.Value → Comp S (Turn S))} {scene scene₁ : Scene S W α}
  {es : List (Entry S)}

/-- What happens where the program is run inside happens where it is run from the outside, until it
has come to its outcome. -/
theorem Incident.within {entry : Entry S} {thread thread' : Thread S α} {pool' : Pool S W}
    (incident : Incident R scene [entry] scene₁)
    (hplace : scene.callers[place]? = some (.running thread'))
    (hwithin : Thread.Within top k waiting outer thread thread')
    (htwins : scene.pool.Twins ∅ Eq pool') :
    ∃ pool₁' main, Incident R ⟨pool', scene.callers.set place (.running thread), scene.jobs⟩ [entry]
        ⟨pool₁', scene₁.callers.set place main, scene₁.jobs⟩ ∧ scene₁.pool.Twins ∅ Eq pool₁' ∧
      ((∃ thread₁ thread₁', main = .running thread₁ ∧
          scene₁.callers[place]? = some (.running thread₁') ∧
          Thread.Within top k waiting outer thread₁ thread₁') ∨
        ∃ outcome, main = .running (.base (top outcome)) ∧
          scene₁.callers[place]? = some (.running (.nested (k outcome) waiting outer))) := by
  by_cases hwho : entry.who? = some (.caller place)
  · cases incident with
    | @caller pool pool₁ before after _ thread₁' launch jobs moved =>
      obtain rfl : before.length = place := by simpa [Entry.who?] using hwho
      obtain rfl : thread' = _ := by simpa using hplace.symm
      have hset (x y : Main S α) : (before ++ x :: after).set before.length y =
          before ++ y :: after := by simp
      simp only [hset]
      obtain ⟨thread₁, pool₁', moved', htwins', hactivity, hdeeds, hwithin'⟩ :=
        hwithin.move htwins moved
      refine ⟨pool₁', .running thread₁, ?_, htwins', ?_⟩
      · rw [← hactivity, ← hdeeds]
        exact .caller before after jobs moved'
      · obtain hwithin' | ⟨outcome, rfl, rfl⟩ := hwithin'
        · exact .inl ⟨thread₁, thread₁', rfl, by simp, hwithin'⟩
        · exact .inr ⟨outcome, rfl, by simp⟩
    | callerEnded before after jobs ended =>
      obtain rfl : before.length = place := by simpa [Entry.who?] using hwho
      obtain rfl : thread' = _ := by simpa using hplace.symm
      cases Thread.eq_of_ended ended
      cases hwithin
    | job => cases hwho
    | jobEnded => cases hwho
    | jobBegun => cases hwho
    | drop => cases hwho
  · -- Others do the same whatever stands in that place.
    obtain ⟨hget, pool₁', htwins', incident'⟩ :=
      incident.twin R.blind_eq hwho htwins (.running thread)
    exact ⟨pool₁', _, incident', htwins',
      .inl ⟨thread, thread', rfl, hget.trans hplace, hwithin⟩⟩

/-- A run inside, its story so far, and the story of the same run from the outside: the program is
run in the given place, where `top` waits for its outcome instead of `k`. -/
def Along (R : Runtime S W) (place : Nat) (yields : Ty S.Base) (machine : S.Machine)
    (top : Except Fault S.Value → Comp S α) (scene : Scene S W α) (es : List (Entry S))
    (scene₁ : Scene S W α) (main : Main S α) : Prop :=
  ∃ pool', Trail (Incident R) scene es scene₁ ∧
    Trail (Incident R) ⟨scene.pool, scene.callers.set place
        (.running (.base (.demand (.interpret yields machine) top))), scene.jobs⟩ es
      ⟨pool', scene₁.callers.set place main, scene₁.jobs⟩ ∧
    scene₁.pool.Twins ∅ Eq pool'

/-- The story of a run inside is up to its end the story of the same run from the outside. -/
theorem exists_along {yields : Ty S.Base} {machine : S.Machine}
    (hplace : scene.callers[place]? =
      some (.running (.nested (.demand (.interpret yields machine) k) waiting outer)))
    (story : Trail (Incident R) scene es scene₁) (top : Except Fault S.Value → Comp S α) :
    (∃ thread, Along R place yields machine top scene es scene₁ (.running thread)) ∨
    ∃ inside rest scene₂ outcome, es = inside ++ rest ∧
      Along R place yields machine top scene inside scene₂ (.running (.base (top outcome))) ∧
      scene₂.callers[place]? = some (.running (.nested (k outcome) waiting outer)) ∧
      Trail (Incident R) scene₂ rest scene₁ := by
  have hstory : (∃ thread thread₁, scene₁.callers[place]? = some (.running thread₁) ∧
      Thread.Within top k waiting outer thread thread₁ ∧
      Along R place yields machine top scene es scene₁ (.running thread)) ∨
      ∃ inside rest scene₂ outcome, es = inside ++ rest ∧
        Along R place yields machine top scene inside scene₂ (.running (.base (top outcome))) ∧
        scene₂.callers[place]? = some (.running (.nested (k outcome) waiting outer)) ∧
        Trail (Incident R) scene₂ rest scene₁ := by
    induction story with
    | refl =>
      exact .inl ⟨_, _, hplace, .first yields machine, scene.pool, .refl, .refl,
        .refl (fun _ => rfl) _⟩
    | @tail scene₁ scene₂ es more story last ih =>
      obtain ⟨thread, thread₁, hplace₁, hwithin, pool', -, houtside, htwins⟩ | hover := ih
      · obtain ⟨entry, rfl⟩ := last.exists_entry
        obtain ⟨pool₁', main, hincident, htwins', hmain⟩ := last.within hplace₁ hwithin htwins
        have halong : Along R place yields machine top scene (es ++ [entry]) scene₂ main :=
          ⟨pool₁', story.tail last, houtside.tail hincident, htwins'⟩
        obtain ⟨thread₂, thread₂', rfl, hplace₂, hwithin'⟩ | ⟨outcome, rfl, hplace₂⟩ := hmain
        · exact .inl ⟨thread₂, thread₂', hplace₂, hwithin', halong⟩
        · exact .inr ⟨_, [], scene₂, outcome, by simp, halong, hplace₂, .refl⟩
      · -- What comes after the run is no concern of it.
        obtain ⟨inside, rest, scene₃, outcome, rfl, halong, hplace₃, hrest⟩ := hover
        exact .inr ⟨inside, _, scene₃, outcome, List.append_assoc .., halong, hplace₃,
          hrest.tail last⟩
  obtain ⟨thread, thread₁, -, -, halong⟩ | hover := hstory
  · exact .inl ⟨thread, halong⟩
  · exact .inr hover

end Scene

/-! ## Nested runs and sequenced runs -/

namespace Nesting

/-- A computation that is about to have a machine run: the machine stands in a program whose value
goes to the given code, with the continuations that wait for what comes of it. -/
def ask (N : Nesting S) (code : S.Code) (q : S.Program) (outer : Except Fault S.Value → Comp S α) :
    Comp S α :=
  .demand (.interpret N.yields ((q.bind N.arg code).under N.pending)) outer

/-- The scene in which it does, whoever else is there and whatever has happened before. -/
def opening (N : Nesting S) (code : S.Code) (q : S.Program)
    (outer : Except Fault S.Value → Comp S α) (pool : Pool S W) (before after : List (Main S α))
    (jobs : List (Job S)) : Scene S W α where
  pool := pool
  callers := before ++ .running (.base (N.ask code q outer)) :: after
  jobs := jobs

/-- To run a program inside and yield its value is to go on with it. Whatever can happen where a
continuation does the one can happen where it does the other, with the same outcomes, the same
events of operations, the same jobs and the same effects, provided that an observer of returns only
puts them down, or tells of them where nobody looks. Only what is told of returns differs: inside,
the program has its returns put down with the flags of a run of its own, since its story there is
the story that it has from the outside; and the value is returned once more. -/
theorem nested_run_eq_sequenced_run {N : Nesting S} {R : Runtime S W} {same : W → W → Prop}
    {own : S.Effect → Prop} {times : Nat} (hsame : Equivalence same) (hblind : R.Blind same)
    (hown : ∀ e w, own e → same w (R.effect e w).2) (hlawful : N.Lawful R.toInterpreter)
    (htells : Comp.Tells own times fun outermost => R.observer (.finished outermost))
    (q : S.Program) (outer : Except Fault S.Value → Comp S α) (pool : Pool S W)
    (before after : List (Main S α)) (jobs : List (Job S)) :
    (∀ {es scene},
      Trail (Scene.Incident R) (N.opening N.nested q outer pool before after jobs) es scene →
      ∃ es' scene' stage,
        Trail (Scene.Incident R) (N.opening N.sequenced q outer pool before after jobs) es' scene' ∧
        Alike same own before.length es es' scene scene' ∧
        Retold N own times (.caller before.length) stage es es') ∧
    (∀ {es' scene'},
      Trail (Scene.Incident R) (N.opening N.sequenced q outer pool before after jobs) es' scene' →
      ∃ es scene stage,
        Trail (Scene.Incident R) (N.opening N.nested q outer pool before after jobs) es scene ∧
        Alike same own before.length es es' scene scene' ∧
        Retold N own times (.caller before.length) stage es es') ∧
    ∀ {scene scene₁ : Scene S W α} {es} (program : S.Program)
      (top : Except Fault S.Value → Comp S α),
      scene.callers[before.length]? = some (.running (.nested
        (.demand (.interpret N.inner (.start program)) N.resumed) [] outer)) →
      Trail (Scene.Incident R) scene es scene₁ →
      (∃ thread, Scene.Along R before.length N.inner (.start program) top scene es scene₁
        (.running thread)) ∨
      ∃ inside rest scene₂ outcome, es = inside ++ rest ∧
        Scene.Along R before.length N.inner (.start program) top scene inside scene₂
          (.running (.base (top outcome))) ∧
        scene₂.callers[before.length]? = some (.running (.nested (N.resumed outcome) [] outer)) ∧
        Trail (Scene.Incident R) scene₂ rest scene₁ := by
  have hstart : Abreast N R same own times before.length outer .before
      (N.opening N.nested q outer pool before after jobs)
      (N.opening N.sequenced q outer pool before after jobs) := by
    refine ⟨_, _, ?_, ?_, rfl, .refl hsame.refl pool, .running (.first q)⟩
    · simp [opening, ask]
    · simp [opening, ask]
  refine ⟨fun story => ?_, fun story' => ?_,
    fun program top hplace story => Scene.exists_along hplace story top⟩
  · obtain ⟨es', scene', story', stage, habreast, hretold⟩ :=
      exists_matched hsame hblind hown hlawful htells hstart story
    exact ⟨es', scene', stage, story', habreast.alike hretold story story' rfl, hretold⟩
  · obtain ⟨es, scene, story, stage, habreast, hretold⟩ :=
      exists_matching hsame hblind hown hlawful htells hstart story'
    exact ⟨es, scene, stage, story, habreast.alike hretold story story' rfl, hretold⟩

/-- The code of continuations: to have a program run inside, to go on with it, or to hand on the
value. -/
inductive InlayCode where
  | nested
  | sequenced
  | same

/-- Numbers that are yielded. -/
def inlay : Signature where
  Base := Scalar
  Code := InlayCode
  Action := Empty
  Effect := Empty
  Reply := Empty.elim

/-- The type of what is yielded. -/
abbrev inlay.number : Ty inlay.Base := .ground Scalar.int64

/-- A program that yields a value twice. -/
def inlay.program (v : inlay.Value) : inlay.Program :=
  Program.map number (.ret v) InlayCode.same

/-- Events are put down. -/
def inlays : Runtime inlay Unit where
  build
    | .nested, v => (Comp.interpret inlay.number (inlay.program v)).bind fun v => .done (.ret v)
    | _, v => .done (inlay.program v)
  compute _ v := .done v
  act action := action.elim
  observer := .recording
  spawner := .inline
  newestFirst := false
  level := none
  effect e := e.elim

/-- Something else waits for the value. -/
def inlay.nesting : Nesting inlay where
  arg := number
  inner := number
  yields := number
  nested := .nested
  sequenced := .sequenced
  pending := [.map number .same]

/-- The value that is yielded. -/
abbrev inlay.seven : inlay.Value := .of number (7 : Int64)

/-- Inside, the second return of the program ends a run; then the value is returned once more. -/
theorem nested_run_eq_sequenced_run_inlay :
    ∃ (es es' : List (Entry inlay)) (scene scene' : Scene inlay Unit inlay.Value),
      Trail (Scene.Incident inlays)
        (inlay.nesting.opening .nested (.ret inlay.seven) .ofExcept (.empty ()) [] [] []) es scene ∧
      Trail (Scene.Incident inlays)
        (inlay.nesting.opening .sequenced (.ret inlay.seven) .ofExcept (.empty ()) [] [] []) es'
        scene' ∧
      scene.callers[0]? = some (.ended (.ok inlay.seven)) ∧
      scene'.callers[0]? = some (.ended (.ok inlay.seven)) ∧
      scene.pool.events = #[.finished false, .finished false, .finished true, .finished false,
        .finished true] := by
  obtain ⟨deeds, hmoves⟩ := Config.trail_run inlays 30
    (Config.start (.empty ()) (inlay.nesting.ask .nested (.ret inlay.seven) .ofExcept))
  obtain ⟨es, story, -⟩ := Scene.story_of_moves hmoves
  have hblind : inlays.Blind Eq := fun e => e.elim
  have hlawful : inlay.nesting.Lawful inlays.toInterpreter := ⟨fun _ => rfl, rfl⟩
  have htells : Comp.Tells (fun e : inlay.Effect => e.elim) 1 fun outermost =>
      inlays.observer (.finished outermost) := .recording
  obtain ⟨hforth, -, -⟩ := nested_run_eq_sequenced_run ⟨fun _ => rfl, Eq.symm, Eq.trans⟩ hblind
    (fun e => e.elim) hlawful htells (.ret inlay.seven) Comp.ofExcept (.empty ()) [] [] []
  obtain ⟨es', scene', stage, story', halike, -⟩ := hforth story
  have hended : scene'.callers[0]? = some (.ended (.ok inlay.seven)) :=
    (halike.outcome (.ok inlay.seven)).mpr rfl
  exact ⟨es, es', _, scene', story, story', rfl, hended, rfl⟩

/-- The code of continuations: to have a program run inside, to go on with it, to yield the value,
or to fail. -/
inductive ClashCode where
  | nested
  | sequenced
  | same
  | late

/-- Fibers that yield numbers are forked. -/
def clash : Signature where
  Base := Scalar
  Code := ClashCode
  Action := Unit
  Effect := Empty
  Reply := Empty.elim

/-- The type of what fibers yield. -/
abbrev clash.number : Ty clash.Base := .ground Scalar.int64

/-- A program that forks a fiber and yields it. -/
def clash.program : clash.Program :=
  Program.bind (.fiber number) (.instr (.forkAt .here number ())) ClashCode.same

/-- Everything is logged; who waits for the fiber fails. -/
def clashes (observer : Observer clash) : Runtime clash Unit where
  build
    | .nested, _ => (Comp.interpret (.fiber clash.number) clash.program).bind fun v => .done (.ret v)
    | .sequenced, _ => .done clash.program
    | _, v => .done (.ret v)
  compute _ _ := .fail (.text "late")
  act _ := .done (.of clash.number (7 : Int64))
  observer := observer
  spawner := .queued
  newestFirst := false
  level := some .trace
  effect e := e.elim

/-- An observer that fails when it hears of the end of a run. -/
def clash.scolding : Observer clash
  | .finished true => .fail (.text "boom")
  | event => Observer.recording event

/-- Something else waits for the fiber. -/
def clash.nesting : Nesting clash where
  arg := number
  inner := .fiber number
  yields := number
  nested := .nested
  sequenced := .sequenced
  pending := [.map (.fiber number) .late]

/-- Where a run has come to in which the given code is asked for. -/
def clash.run (observer : Observer clash) (code : ClashCode) : Config clash Unit clash.Value :=
  (Config.start (.empty ()) (nesting.ask code (.ret (.of number (7 : Int64))) .ofExcept)).run
    (clashes observer) 30

/-- An observer may tell the two apart, and so may who reads the log. If the observer fails when it
hears of the end of a run, the program that is run inside fails with it, and the sequenced one fails
later, of something else. In the log an operation is written with the number of continuations that
wait in its own run. -/
theorem nested_run_ne_sequenced_run :
    (∀ observer, clash.nesting.Lawful (clashes observer).toInterpreter) ∧
    (clash.run clash.scolding .nested).main = .ended (.error (.text "boom")) ∧
    (clash.run clash.scolding .sequenced).main = .ended (.error (.text "late")) ∧
    ∃ op, (clash.run .recording .nested).pool.records[0]? = some (.instruction op 1) ∧
      (clash.run .recording .sequenced).pool.records[0]? = some (.instruction op 2) :=
  ⟨fun _ => ⟨fun _ => rfl, rfl⟩, rfl, rfl, _, rfl, rfl⟩

end Nesting

end FiberPrograms
