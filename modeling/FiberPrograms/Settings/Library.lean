import FiberPrograms.Fault
import FiberPrograms.Settings.Basic
import FiberPrograms.Settings.Surroundings

/-!
# Loading settings with a library

Settings are laid over one another, each layer over those before it: the defaults, a file, the
environment, and what the caller asks for. The caller may name the file, or else the environment
may; a named file has to be there. Without a name, `forkjoin.toml` is read if it is there.

How files are found and read, what variables say, how layers are merged, how settings are read from
what comes of it, and how documents are written, all this is left to a library. What is fixed here
is what the library is asked for, in which order, and what is made of its answers.

## Main definitions

* `SettingsRequest`: what the caller asks for
* `Settings.Library`: what is left to a library
* `Settings.Failure`: why there are no settings
* `Settings.Library.load`: the settings
* `Settings.Library.write`: settings in writing
-/

namespace FiberPrograms

/-- What the caller asks for. -/
structure SettingsRequest where
  path : Option String := none
  spawner : Option SpawnerKind := none
  filter : Option String := none
  useEnvironment : Bool := true

namespace Settings

/-- What is left to a library. -/
structure Library where
  /-- Why the library has no answer. -/
  Error : Type
  /-- What sources of settings hold. -/
  Layer : Type
  /-- What layers come to when they have been merged. -/
  Tree : Type
  /-- What the file holds that a path leads to. If it is not required, there need not be one. -/
  file : Surroundings → (path : String) → (required : Bool) → Except Error Layer
  /-- What the variables hold whose names start with a word and a mark; another mark stands between
  the steps of a path in the rest of the name. -/
  ofVariables : (word mark between : String) → (bindings : List (String × String)) → Layer
  /-- Lay sources over texts at some paths, each source over those before it, and texts at other
  paths over them all. -/
  merge : (defaults : List (String × String)) → (sources : List Layer) →
    (overrides : List (String × String)) → Except Fault Tree
  /-- The settings that merged layers hold. -/
  read : Tree → Except Error Settings
  /-- Groups in writing. -/
  print : Toml.Groups → Except String String

/-- Why there are no settings. -/
inductive Failure (E : Type) where
  /-- The library has no answer. -/
  | loading (error : E)
  /-- There have to be threads to run fibers. -/
  | noWorkers
  /-- Merging ended in a fault. -/
  | broken (fault : Fault)
deriving DecidableEq, Repr

/-- The variable that may name a file. -/
def pathVariable : String := "FORKJOIN_CONFIG_PATH"

/-- The file that is read if no other is named. -/
def defaultPath : String := "forkjoin"

/-- The file that is named, if any is: by the caller, or else by the environment. -/
def namedPath (surroundings : Surroundings) (request : SettingsRequest) : Option String :=
  match request.path with
  | some path => some path
  | none => if request.useEnvironment then surroundings.valueOf? pathVariable else none

/-- What settings are if nothing is said of them. -/
def defaults : List (SettingKey × String) :=
  let default : Settings := {}
  [(.spawner, default.runtime.spawner.name), (.filter, default.filter)]

/-- What the caller says of settings. -/
def overrides (request : SettingsRequest) : List (SettingKey × String) :=
  (request.spawner.map fun kind => (.spawner, kind.name)).toList
    ++ (request.filter.map fun filter => (.filter, filter)).toList

/-- Texts at the paths to settings. -/
def atPaths (texts : List (SettingKey × String)) : List (String × String) :=
  texts.map fun entry => (entry.1.path, entry.2)

/-- Settings that make sense together. -/
def check {E : Type} (settings : Settings) : Except (Failure E) Settings :=
  if settings.runtime.workerThreads = some 0 then .error .noWorkers else .ok settings

namespace Library

variable (L : Library)

/-- The layer of the file. -/
def fileLayer (surroundings : Surroundings) (request : SettingsRequest) :
    Except L.Error L.Layer :=
  match namedPath surroundings request with
  | some path => L.file surroundings path true
  | none => L.file surroundings defaultPath false

/-- The layer of the environment. -/
def environment (surroundings : Surroundings) : L.Layer :=
  L.ofVariables "FORKJOIN" "_" "__" surroundings.bindings

/-- The layers of all sources, given that of the file. -/
def sources (surroundings : Surroundings) (request : SettingsRequest) (file : L.Layer) :
    List L.Layer :=
  file :: if request.useEnvironment then [L.environment surroundings] else []

/-- The settings. -/
def load (surroundings : Surroundings) (request : SettingsRequest) :
    Except (Failure L.Error) Settings := do
  let file ← (L.fileLayer surroundings request).mapError .loading
  let tree ← (L.merge (atPaths defaults) (L.sources surroundings request file)
    (atPaths (overrides request))).mapError .broken
  let settings ← (L.read tree).mapError .loading
  check settings

/-- Settings in writing. -/
def write (settings : Settings) : Except String String :=
  L.print settings.document

end Library

end Settings

end FiberPrograms
