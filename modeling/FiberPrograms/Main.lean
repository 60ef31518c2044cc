import FiberPrograms.CommandLine.Run
import FiberPrograms.Moment
import FiberPrograms.Uuid
import Std.Time.DateTime.Timestamp

/-!
# The program

This is the outer layer: it reads the arguments, the environment and the files that can matter,
has the invocation run, and prints what it comes to.
-/

namespace FiberPrograms.CommandLine

/-- More moves than any computation takes in a lifetime. -/
def lifetime : Nat := 1000000000000000000

/-- What is printed when help is asked for. -/
def usage : String := "Describe fork/join computations as data and interpret them

Usage: forkjoin [--config <CONFIG>] [--spawner <SPAWNER>] <COMMAND>

Commands:
  demo    Fork two computations, await both and print their sum
            [--left <N>] [--right <N>] [--left-delay-ms <N>] [--right-delay-ms <N>] [--trace]
  chain   Run a long chain of steps
            [--steps <N>]
  config  Print the settings in force"

/-- The text of a file, if it can be read. -/
def readText? (path : String) : IO (Option String) := do
  try return some (← IO.FS.readFile path)
  catch _ => return none

/-- The variables of the environment. -/
def readVariables : IO (List (String × String)) := do
  let text := (← readText? "/proc/self/environ").getD ""
  return (text.splitOn "\x00").filterMap fun entry =>
    match entry.toList.span (· != '=') with
    | (name, '=' :: value) => some (String.ofList name, String.ofList value)
    | _ => none

/-- The file that may set further variables: in the working directory, or else in the nearest of
the directories around it. -/
def readVariablesFile : IO (List (String × String)) := do
  for up in List.range 64 do
    let path := String.join (List.replicate up "../") ++ variablesFile
    if let some text ← readText? path then return [(variablesFile, text)]
  return []

/-- The surroundings of an invocation, as far as they matter to it. -/
def readSurroundings (invocation : Invocation) : IO Surroundings := do
  let known : Surroundings := { files := ← readVariablesFile, bindings := ← readVariables }
  let later :=
    match withVariablesFile known with
    | .ok surroundings => surroundings
    | .error _ => known
  let named := Settings.namedPath later invocation.request
  let paths := Surroundings.candidates (named.getD Settings.defaultPath)
  let read ← paths.filterMapM fun path =>
    return (← readText? path).map fun text => (path, text)
  return { known with files := known.files ++ read }

/-- Names for fibers, and the time. -/
def readLabels : IO Labels := do
  let names ← (List.range 8).mapM fun _ => do
    let bytes ← IO.getRandomBytes 16
    return (Uuid.ofRandom (bytes.toList.foldl (fun n byte => n * 256 + byte.toNat) 0)).text
  let now ← Std.Time.Timestamp.now
  let time := Moment.text ⟨now.toNanosecondsSinceUnixEpoch.val⟩
  return ⟨fun fiber => (names[fiber.index]?).getD "", fun _ => time⟩

end FiberPrograms.CommandLine

open FiberPrograms.CommandLine in
/-- Run the command line. -/
def main (arguments : List String) : IO UInt32 := do
  match Invocation.parse arguments with
  | .error error =>
    let out ← if error.toErrorOutput then IO.getStderr else IO.getStdout
    if let some message := error.message? then out.putStrLn message
    out.putStrLn usage
    return UInt32.ofNat error.exitCode
  | .ok invocation =>
    let labels ← readLabels
    let outcome := invocation.run labels lifetime (← readSurroundings invocation)
    IO.print outcome.output
    if let some complaint := outcome.complaint? labels.fiber then IO.eprintln complaint
    return UInt32.ofNat outcome.exitCode
