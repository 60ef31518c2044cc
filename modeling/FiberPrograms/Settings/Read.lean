import FiberPrograms.Settings.Basic
import FiberPrograms.Settings.Error
import FiberPrograms.Settings.Tree

/-!
# Reading settings from a tree

Values are taken for what their name stands for wherever that makes sense: a number can be given
in words or with a point, and text can be given as a number. A group of settings is a table, or a
list of the values in order.

## Main definitions

* `Setting.spawner?`, `Setting.workers?`, `Setting.text?`: single settings
* `Setting.settings?`: all settings
-/

namespace FiberPrograms.Setting

/-- What a value is, as seen where something else was expected. -/
def found : Setting → Found
  | atom _ .none => .nothing
  | atom _ (.bool b) => .bool b
  | atom _ (.int n) => .int n
  | atom _ (.float x) => .float x
  | atom _ (.str s) => .str s
  | list _ _ => .list
  | table _ _ => .table

/-- Where a value comes from. -/
def origin : Setting → Option String
  | atom origin _ => origin
  | list origin _ => origin
  | table origin _ => origin

/-- The error that a value is of the wrong kind. -/
def wrongKind (value : Setting) (expected key : String) : SettingsError :=
  .wrongKind value.found expected key value.origin

/-- The kind of spawner of a name, in letters of either case. -/
def spawnerNamed (name : String) : Except SettingsError SpawnerKind :=
  match SpawnerKind.all.find? fun kind => kind.name == Text.lower name with
  | some kind => .ok kind
  | none => .error (.noSpawner name)

/-- A kind of spawner: its name, or a table with that name as its only key. -/
def spawner? : Setting → Except SettingsError SpawnerKind
  | atom _ (.str name) => spawnerNamed name
  | table _ [(name, _)] => spawnerNamed name
  | _ => .error .noSpawnerForm

/-- The number of digits in base ten, with or without a plus, if it is in range. -/
def numberOf? (s : String) : Option UInt64 :=
  let digits :=
    match s.toList with
    | '+' :: rest => rest
    | cs => cs
  if digits.isEmpty || !digits.all Char.isDigit then none
  else UInt64.ofInt? (digits.foldl (fun n c => n * 10 + (c.toNat - '0'.toNat)) 0 : Nat)

/-- The number that a text stands for, in words or digits. -/
def numberIn? (s : String) : Option UInt64 :=
  let word := Text.lower s
  if ["true", "on", "yes"].contains word then some 1
  else if ["false", "off", "no"].contains word then some 0
  else numberOf? s

/-- The nearest number that is in range. -/
def nearest (x : Binary64) : UInt64 :=
  match x.round with
  | some n => .ofNat (min n.toNat (UInt64.size - 1))
  | none =>
    match x with
    | .infinite false => .ofNat (UInt64.size - 1)
    | _ => 0

/-- A number of threads, if it is given. -/
def workers? (key : String) (value : Setting) : Except SettingsError (Option UInt64) :=
  match value with
  | atom _ .none => .ok none
  | atom _ (.bool b) => .ok (some (if b then 1 else 0))
  | atom _ (.int n) =>
    match UInt64.ofInt? n with
    | some n => .ok (some n)
    | none => .error (value.wrongKind "an unsigned 64 bit or less integer" key)
  | atom _ (.float x) => .ok (some (nearest x))
  | atom _ (.str s) =>
    match numberIn? s with
    | some n => .ok (some n)
    | none => .error (value.wrongKind "an integer" key)
  | _ => .error (value.wrongKind "an integer" key)

/-- A text. -/
def text? (key : String) (value : Setting) : Except SettingsError String :=
  match value with
  | atom _ (.bool b) => .ok (toString b)
  | atom _ (.int n) => .ok (toString n)
  | atom _ (.float x) => .ok x.text
  | atom _ (.str s) => .ok s
  | _ => .error (value.wrongKind "a string" key)

/-- The settings of the runtime. -/
def runtime? (value : Setting) : Except SettingsError RuntimeSettings := do
  let default : RuntimeSettings := {}
  let read (spawner workers : Option Setting) (key : String) :
      Except SettingsError RuntimeSettings := do
    let spawner ← (spawner.map spawner?).getD (.ok default.spawner)
    let workers ← (workers.map (workers? key)).getD (.ok default.workerThreads)
    return ⟨spawner, workers⟩
  match value with
  | table _ entries =>
    read (entries.lookup "spawner") (entries.lookup "worker_threads") "runtime.worker_threads"
  | list _ items => read items[0]? items[1]? "runtime[1]"
  | value => .error (.noGroup value.found "RuntimeConfig")

/-- The filter of the log. -/
def filter? (value : Setting) : Except SettingsError String :=
  let default : Settings := {}
  match value with
  | table _ entries =>
    ((entries.lookup "filter").map (text? "log.filter")).getD (.ok default.filter)
  | list _ items => (items[0]?.map (text? "log[0]")).getD (.ok default.filter)
  | value => .error (.noGroup value.found "LogConfig")

/-- All settings. -/
def settings? (root : Setting) : Except SettingsError Settings := do
  let default : Settings := {}
  let runtime ← ((root.entries.lookup "runtime").map runtime?).getD (.ok default.runtime)
  let filter ← ((root.entries.lookup "log").map filter?).getD (.ok default.filter)
  return ⟨runtime, filter⟩

end FiberPrograms.Setting
