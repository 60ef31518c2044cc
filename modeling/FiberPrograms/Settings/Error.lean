import FiberPrograms.Binary64
import FiberPrograms.Fault
import FiberPrograms.Text.Quoted

/-!
# What can be wrong with settings

## Main definitions

* `Found`: what was found in the place of something else
* `SettingsError`: why there are no settings
* `SettingsError.detail?`, `SettingsError.message?`: the wording
-/

namespace FiberPrograms

/-- What was found in the place of something else. -/
inductive Found where
  | nothing
  | bool (b : Bool)
  | int (n : Int)
  | float (x : Binary64)
  | str (s : String)
  | list
  | table
deriving DecidableEq, Repr

/-- A number with a point in any case, if it is finite. -/
def Binary64.pointed (x : Binary64) : String :=
  match x with
  | .finite _ _ _ => if x.text.contains '.' then x.text else x.text ++ ".0"
  | _ => x.text

/-- What was found, in words that say how wide an integer is. -/
def Found.wide : Found → String
  | nothing => "unit value"
  | bool b => "boolean `" ++ toString b ++ "`"
  | int n => "64-bit integer `" ++ toString n ++ "`"
  | float x => "floating point `" ++ x.text ++ "`"
  | str s => "string " ++ Text.quoted s
  | list => "sequence"
  | table => "map"

/-- What was found, in words. -/
def Found.plain : Found → String
  | int n => "integer `" ++ toString n ++ "`"
  | float x => "floating point `" ++ x.pointed ++ "`"
  | found => found.wide

/-- Why there are no settings. -/
inductive SettingsError where
  /-- The file that has to be read does not exist. -/
  | notFound (path : String)
  /-- The name of the file does not say how it is to be read. -/
  | unknownFormat (path : String)
  /-- The file is not well formed. -/
  | malformed
  /-- A value cannot be used as what its key stands for. -/
  | wrongKind (found : Found) (expected key : String) (origin : Option String)
  /-- A group of settings is no group. -/
  | noGroup (found : Found) (group : String)
  /-- There is no such kind of spawner. -/
  | noSpawner (name : String)
  /-- This cannot be a kind of spawner. -/
  | noSpawnerForm
  /-- There have to be threads to run fibers. -/
  | noWorkers
  /-- Laying the sources over one another ended in a fault. -/
  | broken (fault : Fault)
deriving DecidableEq, Repr

namespace SettingsError

/-- What is wrong, as far as it can be told. -/
def detail? : SettingsError → Option String
  | notFound path => some ("configuration file \"" ++ path ++ "\" not found")
  | unknownFormat path =>
    some ("configuration file \"" ++ path ++ "\" is not of a registered file format")
  | malformed => none
  | wrongKind found expected key origin =>
    some ("invalid type: " ++ found.wide ++ ", expected " ++ expected ++ " for key `" ++ key ++ "`"
      ++ match origin with
        | none => ""
        | some origin => " in " ++ origin)
  | noGroup found group => some ("invalid type: " ++ found.plain ++ ", expected struct " ++ group)
  | noSpawner name => some ("enum SpawnerKind does not have variant constructor " ++ name)
  | noSpawnerForm =>
    some ("value of enum SpawnerKind should be represented by either string or table with exactly "
      ++ "one key")
  | noWorkers => some "runtime.worker_threads must be at least 1"
  | broken _ => none

/-- What was tried when it went wrong. -/
def context : SettingsError → String
  | noWorkers => "Invalid configuration"
  | _ => "Failed to load configuration"

/-- The wording of an error, as far as it can be told. -/
def message? (error : SettingsError) : Option String :=
  error.detail?.map fun detail => error.context ++ ": " ++ detail

/-- What the command line says of an error. An error of its own standing is told once more
behind the message that it is the cause of. -/
def report (error : SettingsError) : String :=
  match error.message?, error.detail? with
  | some message, some detail =>
    let chain := "Error: Failed to load configuration: " ++ message
    if error = noWorkers then chain else chain ++ ": " ++ detail
  | _, _ => "Failed to load configuration"

end SettingsError

end FiberPrograms
