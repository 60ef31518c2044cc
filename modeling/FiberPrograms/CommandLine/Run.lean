import FiberPrograms.CommandLine.Arguments
import FiberPrograms.Settings.DotEnv
import FiberPrograms.Settings.Load
import FiberPrograms.Settings.LogFilter

/-!
# Running the command line

An invocation is run in surroundings: files, of which `.env` may set further variables, and the
variables of the environment. The settings are loaded first, whatever the command is, and the
filter of the log is read; only then is the command run. A command prints nothing before it is
sure to succeed, so an outcome either has an output or says what went wrong.

## Main definitions

* `Outcome`: what running an invocation comes to
* `Labels`: how things are written that differ from run to run
* `Command.run`: what a command comes to under given settings
* `Invocation.run`: what an invocation comes to in given surroundings
-/

namespace FiberPrograms.CommandLine

/-- What running an invocation comes to. -/
inductive Outcome where
  /-- The command did what it is for, and printed a text. -/
  | printed (text : String)
  /-- There are no settings to run the command under. -/
  | refused (error : SettingsError)
  /-- The settings cannot be written down. -/
  | unwritable (why : String)
  /-- The computation ended in a fault. -/
  | faulted (fault : Fault)
  /-- The computation did not end within the moves it was given. -/
  | unended

/-- How things are written that differ from run to run: fibers, and the time at which the event
at a position was put down. -/
structure Labels where
  fiber : FiberId → String
  time : Nat → String

namespace Command

/-- The outcome of a computation that yields a value of the given type, and prints a text made
of it. -/
def outcome (τ : Ty Scalar) (text : τ.El → String) : Option (Except Fault (Value Scalar)) → Outcome
  | none => .unended
  | some (.error fault) => .faulted fault
  | some (.ok value) =>
    match value.cast τ with
    | .ok v => .printed (text v)
    | .error fault => .faulted fault

/-- The events that were put down, in writing. -/
def traceText (labels : Labels) (events : Array Event) : String :=
  let timed := events.toList.zipIdx.map fun (event, position) => (labels.time position, event)
  (trace labels.fiber timed).pretty ++ "\n"

/-- Run the sum of two actions. -/
def runDemo (labels : Labels) (fuel : Nat) (policy : Policy) (plan : Demo.Plan) (traced : Bool) :
    Outcome :=
  let (result, session) :=
    (Session.start ()).exec (Demo.runtime policy none) fuel
      (Comp.interpret Demo.number (Demo.sum plan))
  outcome Demo.number (fun (n : Int64) => "Result: " ++ toString n.toInt ++ "\n"
    ++ if traced then traceText labels session.pool.events else "") result

/-- Run a chain of steps. -/
def runChain (fuel : Nat) (policy : Policy) (steps : UInt64) : Outcome :=
  outcome Demo.stepCount (fun (n : UInt64) => "Completed " ++ toString n.toNat ++ " steps\n")
    (Demo.runCountdown policy fuel steps).outcome

/-- Run a command under the given settings. -/
def run (labels : Labels) (fuel : Nat) (settings : Settings) : Command → Outcome
  | .demo plan traced =>
    match settings.runtime.host with
    | .ok policy => runDemo labels fuel policy plan traced
    | .error fault => .faulted fault
  | .chain steps =>
    match settings.runtime.host with
    | .ok policy => runChain fuel policy steps
    | .error fault => .faulted fault
  | .config =>
    match settings.toToml? with
    | .ok text => .printed text
    | .error why => .unwritable why

end Command

/-- The file that may set further variables. -/
def variablesFile : String := ".env"

/-- Surroundings with the variables besides that their file of variables sets. -/
def withVariablesFile (surroundings : Surroundings) : Except Fault Surroundings :=
  match surroundings.file? variablesFile with
  | some text => do
    return { surroundings with bindings := ← DotEnv.load surroundings.bindings text }
  | none => .ok surroundings

/-- What an invocation asks of the settings. -/
def Invocation.request (invocation : Invocation) : SettingsRequest where
  path := invocation.configPath
  spawner := invocation.spawner

/-- Run an invocation under settings that have been loaded. -/
def Invocation.runUnder (labels : Labels) (fuel : Nat) (bindings : List (String × String))
    (settings : Settings) (invocation : Invocation) : Outcome :=
  match LogFilter.fault? bindings settings.filter with
  | some fault => .faulted fault
  | none => invocation.command.run labels fuel settings

/-- Run an invocation in the given surroundings. -/
def Invocation.run (labels : Labels) (fuel : Nat) (surroundings : Surroundings)
    (invocation : Invocation) : Outcome :=
  match withVariablesFile surroundings with
  | .error fault => .faulted fault
  | .ok surroundings =>
    match Settings.load surroundings invocation.request with
    | .error (.broken fault) => .faulted fault
    | .error error => .refused error
    | .ok settings => invocation.runUnder labels fuel surroundings.bindings settings

namespace Outcome

/-- What an outcome prints. -/
def output : Outcome → String
  | printed text => text
  | _ => ""

/-- What was tried when the settings could not be written. -/
def unwritableContext : String := "Failed to render configuration"

/-- What an outcome tells about what went wrong, if anything did. -/
def complaint? (fiber : FiberId → String) : Outcome → Option String
  | printed _ => none
  | refused error => some error.report
  | unwritable why => some ("Error: " ++ unwritableContext ++ ": " ++ why)
  | faulted fault => some (fault.message fiber)
  | unended => some "the computation did not end"

/-- What the program ends with. -/
def exitCode : Outcome → Nat
  | printed _ => 0
  | refused _ | unwritable _ => 1
  | faulted _ | unended => 101

end Outcome

end FiberPrograms.CommandLine
