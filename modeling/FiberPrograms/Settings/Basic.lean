import FiberPrograms.Json.Basic
import FiberPrograms.Policy
import FiberPrograms.Toml.Groups
import FiberPrograms.Trace

/-!
# Settings

What can be set: where forked fibers run, how many threads there are to run them, and what is
logged. A filter is kept as it is given; what it selects is nobody's business here.

## Main definitions

* `SpawnerKind`: the places where forked fibers run
* `RuntimeSettings`, `Settings`: the settings
* `SettingKey`: single settings, by where they stand
* `Settings.document`: the groups that settings are written as
* `RuntimeSettings.ofJson?`: settings of the runtime from a JSON document
* `RuntimeSettings.host`: what becomes of jobs under these settings
-/

namespace FiberPrograms

/-- Where forked fibers run. -/
inductive SpawnerKind where
  /-- Every fiber has a thread of its own. -/
  | thread
  /-- Fibers share the threads of a pool. -/
  | pool
  /-- Fibers run inside their fork. -/
  | inline
deriving DecidableEq, Repr, Inhabited

namespace SpawnerKind

/-- All kinds of spawners. -/
def all : List SpawnerKind := [thread, pool, inline]

/-- How a kind is written. -/
def name : SpawnerKind → String
  | thread => "thread"
  | pool => "tokio"
  | inline => "inline"

/-- How a kind is shown for diagnosis. -/
def shown : SpawnerKind → String
  | thread => "Thread"
  | pool => "Tokio"
  | inline => "Inline"

/-- The kind that is written as the given text. -/
def ofName? (name : String) : Option SpawnerKind :=
  all.find? fun kind => kind.name == name

/-- The kind that is written as the given text, in letters of either case. -/
def ofNameIgnoringCase? (name : String) : Option SpawnerKind :=
  ofName? (name.map Char.toLower)

/-- The kind that a document names. -/
def ofJson? (document : Json) : Option SpawnerKind :=
  document.variant?.bind ofName?

/-- What becomes of jobs. -/
def policy : SpawnerKind → Policy
  | inline => .inline
  | thread | pool => .background

theorem ofName?_name (kind : SpawnerKind) : ofName? kind.name = some kind := by
  cases kind <;> decide +kernel

end SpawnerKind

/-- The spawner of the pool that runs the code at hand, if it runs in a pool at all. -/
def Spawner.current? (inPool : Bool) : Option Spawner :=
  if inPool then some .background else none

/-- The settings of the runtime. -/
structure RuntimeSettings where
  spawner : SpawnerKind := .thread
  /-- How many threads a pool has, if that is set. -/
  workerThreads : Option UInt64 := none
deriving DecidableEq, Repr, Inhabited

/-- The settings. -/
structure Settings where
  runtime : RuntimeSettings := {}
  /-- What is logged. -/
  filter : String := "info"
deriving DecidableEq, Repr, Inhabited

/-- The settings, one by one. Each stands under a key in a group. -/
inductive SettingKey where
  | spawner
  | workerThreads
  | filter
deriving DecidableEq, Repr

namespace SettingKey

/-- The group in which a setting stands. -/
def group : SettingKey → String
  | spawner | workerThreads => "runtime"
  | filter => "log"

/-- The key under which a setting stands in its group. -/
def name : SettingKey → String
  | spawner => "spawner"
  | workerThreads => "worker_threads"
  | filter => "filter"

/-- The path to a setting. -/
def path (key : SettingKey) : String :=
  key.group ++ "." ++ key.name

end SettingKey

/-- A number as a setting, if it is in range. -/
def UInt64.ofInt? (n : Int) : Option UInt64 :=
  if 0 ≤ n ∧ n < UInt64.size then some (.ofNat n.toNat) else none

namespace RuntimeSettings

/-- The number of threads that a document gives; no number if it gives none. -/
def workersOfJson? : Json → Option (Option UInt64)
  | .null => some none
  | .int n => (UInt64.ofInt? n).map some
  | _ => none

/-- The settings that a document gives: an object, of which other members do not matter, or the
spawner and the number of threads in an array. What is missing has its default. -/
def ofJson? : Json → Option RuntimeSettings
  | .obj members => do
    let spawner ← ((Json.member? "spawner" members).map SpawnerKind.ofJson?).getD
      (some SpawnerKind.thread)
    let workers ← ((Json.member? "worker_threads" members).map workersOfJson?).getD (some none)
    return ⟨spawner, workers⟩
  | .arr [] => some {}
  | .arr [spawner] => do return { spawner := ← SpawnerKind.ofJson? spawner }
  | .arr [spawner, workers] => do
    return ⟨← SpawnerKind.ofJson? spawner, ← workersOfJson? workers⟩
  | _ => none

/-- How many threads a pool keeps besides, for calls that block. -/
def spareThreads : Nat := 512

/-- How many threads can be listed at most, at eight bytes each. -/
def threadLimit : Nat := 0x1000000000000000

/-- Why a pool of so many threads cannot be set up, if it cannot. -/
def poolFault? (threads : UInt64) : Option Fault :=
  if threads = 0 then some (.text "Worker threads cannot be set to 0")
  else if UInt64.size ≤ threads.toNat + spareThreads then
    some (.text "attempt to add with overflow")
  else if threadLimit ≤ threads.toNat then some (.text "capacity overflow")
  else none

/-- Set up the place where forked fibers run. Only a pool looks at the number of threads. -/
def host (settings : RuntimeSettings) : Except Fault Policy :=
  match settings.spawner, settings.workerThreads.bind poolFault? with
  | .pool, some fault => .error fault
  | kind, _ => .ok kind.policy

/-- A document that gives the settings. -/
def toJson (settings : RuntimeSettings) : Json :=
  .obj (("spawner", .str settings.spawner.name) ::
    match settings.workerThreads with
    | none => []
    | some n => [("worker_threads", .int n.toNat)])

end RuntimeSettings

namespace Settings

/-- A document that gives the settings. -/
def toJson (settings : Settings) : Json :=
  .obj [("runtime", settings.runtime.toJson), ("log", .obj [("filter", .str settings.filter)])]

/-- The groups that settings are written as. What is not set is left out. -/
def document (settings : Settings) : Toml.Groups :=
  [("runtime", ("spawner", .str settings.runtime.spawner.name) ::
      (settings.runtime.workerThreads.map fun n => ("worker_threads", .nat n.toNat)).toList),
    ("log", [("filter", .str settings.filter)])]

end Settings

end FiberPrograms
