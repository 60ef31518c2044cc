import FiberPrograms.Json.Parser
import FiberPrograms.Settings.Library
import FiberPrograms.Settings.Read
import FiberPrograms.Toml.Dated

/-!
# The settings in force

A library of settings: files are looked for under the path that is asked for, and else with one of
the endings of the formats that are known; names stand for paths, in letters of either case; layers
are merged name by name. With this library settings are loaded and written.

## Main definitions

* `FileFormat`: the formats of files that are known to this library
* `Surroundings.locate`: the file that a path leads to
* `Setting.ofVariables`, `Setting.merge`: the source that variables are, and sources merged
* `Settings.library`: the library
* `Settings.load`, `Settings.toToml?`: the settings, and settings in writing
-/

namespace FiberPrograms

/-- How a file is to be read. There are libraries that know other formats besides. -/
inductive FileFormat where
  | toml
  | json
deriving DecidableEq, Repr

namespace FileFormat

/-- The ends of the file names of a format. -/
def ending : FileFormat → String
  | toml => "toml"
  | json => "json"

/-- The formats that are known, in the order in which their files are looked for. -/
def all : List FileFormat := [toml, json]

/-- The format of the files with an ending. -/
def ofEnding? (ending : String) : Option FileFormat :=
  all.find? fun format => format.ending == ending

/-- How deep arrays and objects may be nested in a file. -/
def depthLimit : Nat := 127

/-- The text of a file without the mark that may stand at its beginning. -/
def withoutMark (text : String) : String :=
  match text.toList with
  | '\ufeff' :: rest => String.ofList rest
  | _ => text

/-- The source of settings that the text of a file is. A mark at its beginning belongs to the
format, or does not. -/
def read (format : FileFormat) (origin text : String) :
    Except SettingsError (List (String × Setting)) :=
  match format with
  | toml =>
    match (Toml.parse? (withoutMark text)).bind fun entries => (Toml.table entries).dated? with
    | some (.table entries) => .ok (Setting.ofTomlEntries origin entries)
    | _ => .error .malformed
  | json =>
    match (Json.parse? depthLimit text).bind (Setting.ofJson? origin) with
    | some (.table _ entries) => .ok entries
    | _ => .error .malformed

end FileFormat

namespace Surroundings

/-- The paths at which a file is looked for, given the path that is asked for. -/
def candidates (path : String) : List String :=
  path :: if isNamed path then FileFormat.all.map fun format => endedPath path format.ending else []

/-- The file that a path leads to: how to read it, where it is, and its text. If there is no such
file, one is looked for whose name has an ending besides. -/
def locate (surroundings : Surroundings) (path : String) :
    Except SettingsError (FileFormat × String × String) :=
  match surroundings.file? path with
  | some text =>
    match ((pathSteps path).getLast?.bind endingOf).bind FileFormat.ofEnding? with
    | some format => .ok (format, plainPath path, text)
    | none => .error (.unknownFormat path)
  | none =>
    let ended (format : FileFormat) : Option (FileFormat × String × String) :=
      (surroundings.file? (endedPath path format.ending)).map fun text =>
        (format, endedPath path format.ending, text)
    if !isNamed path then .error (.notFound path)
    else
      match FileFormat.all.findSome? ended with
      | some found => .ok found
      | none => .error (.notFound path)

end Surroundings

namespace Setting

/-- Characters with a dot for every mark that stands between two steps; so many characters of a mark
are still to come. -/
def dotted (between : List Char) : (skip : Nat) → List Char → List Char
  | _, [] => []
  | skip + 1, _ :: rest => dotted between skip rest
  | 0, c :: rest =>
    if !between.isEmpty && between.isPrefixOf (c :: rest) then
      '.' :: dotted between (between.length - 1) rest
    else c :: dotted between 0 rest

/-- The path that the name of a variable stands for, if it starts as it has to. Names are taken in
lower case. -/
def nameOf? (word mark between variableName : String) : Option String :=
  let start := (Text.lower (word ++ mark)).toList
  let name := (Text.lower variableName).toList
  if start.isPrefixOf name then
    some (String.ofList (dotted between.toList 0 (name.drop start.length)))
  else none

/-- The source of settings that variables are. -/
def ofVariables (word mark between : String) (bindings : List (String × String)) :
    List (String × Setting) :=
  bindings.filterMap fun binding =>
    (nameOf? word mark between binding.1).map fun name =>
      (name, atom (some "the environment") (.str binding.2))

/-- The source of settings that texts at paths are. -/
def ofTexts (texts : List (String × String)) : List (String × Setting) :=
  texts.map fun entry => (entry.1, atom none (.str entry.2))

/-- Merge sources: they are laid over one another on their own, and what comes of it over the
defaults, with the overrides on top. -/
def merge (defaults : List (String × String)) (sources : List (List (String × Setting)))
    (overrides : List (String × String)) : Except Fault Setting := do
  let below ← overlay (ofTexts defaults) .empty
  let between ← overlay sources.flatten .empty
  overlay (between.entries ++ ofTexts overrides) below

end Setting

/-- The error of a failure. -/
def SettingsError.ofFailure : Settings.Failure SettingsError → SettingsError
  | .loading error => error
  | .noWorkers => .noWorkers
  | .broken fault => .broken fault

namespace Settings

/-- The library of settings. -/
abbrev library : Library where
  Error := SettingsError
  Layer := List (String × Setting)
  Tree := Setting
  file surroundings path required :=
    match surroundings.locate path with
    | .ok (format, origin, text) => format.read origin text
    | .error error => if required then .error error else .ok []
  ofVariables := Setting.ofVariables
  merge := Setting.merge
  read := Setting.settings?
  print := Toml.print?

/-- The settings. -/
def load (surroundings : Surroundings) (request : SettingsRequest) :
    Except SettingsError Settings :=
  (library.load surroundings request).mapError .ofFailure

/-- The settings in writing. -/
def toToml? (settings : Settings) : Except String String :=
  library.write settings

end Settings

end FiberPrograms
