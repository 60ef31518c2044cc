import FiberPrograms.Script.Tally
import FiberPrograms.Session

/-!
# Trials

A trial puts the program of a script together once and runs it any number of times under given
conditions. If the program cannot be put together, there is no run, and only the log that was
written on the way is left.

## Main definitions

* `Conditions`, `Pace`: the conditions of a trial
* `Verdict`: what comes of a trial
* `Prog.tryForkJoin`, `Prog.tryTally`: trials of the two sets of programs
* `Prog.inspect`: how the program of a script is shown
-/

namespace FiberPrograms

/-- How a program is taken through a run: in one go, or stepped a number of times and, if
wished, then finished. -/
inductive Pace where
  | whole
  | stepped (steps : Nat) (finish : Bool)

/-- The conditions of a trial. -/
structure Conditions where
  policy : Policy := .inline
  level : Option Level := none
  runs : Nat := 1
  pace : Pace := .whole
  /-- Whether the jobs that are left in the queue after a run are dropped. -/
  dropRest : Bool := false
  /-- Whether the running total puts down returns. -/
  logReturns : Bool := false

/-- What comes of a trial. -/
inductive Verdict (V W : Type) where
  /-- The program was not put together: the fault, the world by then, and how fibers are called. -/
  | unbuilt (fault : Fault) (world : W) (name : FiberId → String)
  | reports (reports : List (Report V W))
  /-- The program could not be put together in the time given. -/
  | unended

/-- Run a fork/join program as the conditions say. -/
def Conditions.run {S : Signature} {W : Type} (conditions : Conditions) (R : Runtime S W)
    (fuel : Nat) (yields : Ty S.Base) (program : S.Program) (session : Session S W) :
    Course S.Value × Session S W :=
  match conditions.pace with
  | .whole => session.interpret R fuel yields program
  | .stepped steps finish =>
    session.runStepped R (R.handler yields) fuel ForkJoin.shape steps finish program

/-- Try a fork/join program under the given conditions. -/
def Conditions.tryProgram {S : Signature} {W : Type} (conditions : Conditions) (R : Runtime S W)
    (fuel : Nat) (renew : W → W) (yields : Ty S.Base) (program : S.Program)
    (session : Session S W) : List (Report S.Value W) :=
  (session.repeatRun R fuel conditions.dropRest renew
    (conditions.run R fuel yields program) conditions.runs).1

namespace Script

/-- Everything that a run of a script depends on. -/
def runtime (policy : Policy) (level : Option Level) : Runtime signature World :=
  policy.runtime (meaning policy.waits) level World.effect

/-- The world at the beginning of another run: counters and the total stay. -/
def World.renew (world : World) : World :=
  { counters := world.counters, total := world.total }

/-- Put the program of a script together; then go on if that succeeds. -/
def Prog.built {Op α : Type} (prog : Prog) (V : Vocabulary Op) (policy : Policy)
    (level : Option Level) (fuel : Nat)
    (unbuilt : Fault → Session signature World → α) (unended : α)
    (k : Built Op → Ty Ground → Session signature World → α) : α :=
  match (Session.start ({} : World)).exec (runtime policy level) fuel
      (prog.buildRoot policy.waits V) with
  | (some (.ok (program, yields)), session) => k program yields session
  | (some (.error fault), session) => unbuilt fault session
  | (none, _) => unended

/-- Try the fork/join program of a script under the given conditions. -/
def Prog.tryForkJoin (prog : Prog) (conditions : Conditions) (fuel : Nat) :
    Verdict (Value Ground) World :=
  let R := runtime conditions.policy conditions.level
  prog.built forkJoin conditions.policy conditions.level fuel
    (fun fault session => .unbuilt fault session.pool.world session.pool.nameOf) .unended
    fun program yields session =>
      .reports (conditions.tryProgram R fuel World.renew yields program session.clearEvents)

/-- Try the program over a running total of a script under the given conditions. -/
def Prog.tryTally (prog : Prog) (conditions : Conditions) (fuel : Nat) :
    Verdict (Value Ground) World :=
  let R := runtime conditions.policy conditions.level
  prog.built tallying conditions.policy conditions.level fuel
    (fun fault session => .unbuilt fault session.pool.world session.pool.nameOf) .unended
    fun program yields session =>
      let h := tallyHandler conditions.policy.waits conditions.logReturns yields
      let run (session : Session signature World) :
          Course (Value Ground) × Session signature World :=
        match conditions.pace with
        | .whole => session.runWhole R h fuel program
        | .stepped steps finish =>
          session.runStepped R h fuel TallyOp.shape steps finish program
      .reports (session.clearEvents.repeatRun R fuel conditions.dropRest World.renew run
        conditions.runs).1

/-- What is shown of a script's program, if it can be put together: the program, a machine at its
root, and its operation if it is one. -/
structure Inspection where
  program : Shape
  machine : Shape
  operation : Option Shape

/-- What is shown of a program. -/
def Inspection.of {Op : Type} (opShape : Op → Shape) (program : Built Op) : Inspection where
  program := program.programShape opShape
  machine := (Machine.start program).shape opShape
  operation :=
    match program with
    | .instr op => some (opShape op)
    | _ => none

/-- Put the program of a script together, and show it. -/
def Prog.inspect {Op : Type} (prog : Prog) (V : Vocabulary Op) (opShape : Op → Shape)
    (policy : Policy) (fuel : Nat) :
    Except (Option Fault × Array Val × (FiberId → String)) (Inspection × (FiberId → String)) :=
  prog.built V policy none fuel
    (fun fault session => .error (some fault, session.pool.world.log, session.pool.nameOf))
    (.error (none, #[], fun _ => ""))
    fun program _ session => .ok (.of opShape program, session.pool.nameOf)

end Script

end FiberPrograms
