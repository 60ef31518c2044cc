import FiberPrograms.Settings.Library
import FiberPrograms.Text.Case
import Mathlib.Data.List.Basic
import Mathlib.Data.List.Infix

/-!
# What is expected of a library

Loading settings is left to a library for the most part. What it is trusted with is said here, one
matter after the other: that files are found by their names, that sources are merged setting by
setting, that settings are read from what comes of it one by one, that variables stand for
settings, and that what is written of groups is read as these groups. Nothing else is expected.

What a library deals with is told by what is seen of it. A layer may say of a setting which value it
is as a whole; or it says something that is merged with what the layers below it give, as a table
is. Sources are merged one at a time, so what becomes of a setting is known layer by layer.

## Main definitions

* `Settings.Library.View`, `Settings.Library.Search`: what is seen of layers and of files
* `Settings.Library.FindsFiles`, `Settings.Library.Merges`, `Settings.Library.ReadsSettings`,
  `Settings.Library.ReadsVariables`: what is expected when settings are loaded
* `Settings.Library.TakesDocuments`, `Settings.Library.ReadsWritten`,
  `Settings.Library.ReadsFields`: what is expected of documents of groups
* `Settings.Library.View.effective`: what a setting is, given what each layer says of it
* `Settings.Library.FileGives`, `Settings.Library.FileMissing`, `Settings.Library.FileMalformed`:
  what becomes of the file

## Main results

* `Settings.Library.Merges.effective_of_highest`: the highest layer hides the others
* `Settings.Library.Merges.holds_eq`: what becomes of a setting when all layers are merged
* `Settings.Library.FindsFiles.fileLayer_cases`: the file gives a layer, or there is an error
-/

namespace FiberPrograms

/-- The variable of a setting. -/
def SettingKey.binding : SettingKey → String
  | spawner => "FORKJOIN_RUNTIME__SPAWNER"
  | workerThreads => "FORKJOIN_RUNTIME__WORKER_THREADS"
  | filter => "FORKJOIN_LOG__FILTER"

/-- The name of a variable has nothing to do with a setting: the name of the setting does not occur
in it, in letters of either case. -/
def SettingKey.Misses (key : SettingKey) (variableName : String) : Prop :=
  ¬key.name.toList <:+: (Text.lower variableName).toList

/-- What the caller says of a setting. -/
def SettingsRequest.override? (request : SettingsRequest) : SettingKey → Option String
  | .spawner => request.spawner.map SpawnerKind.name
  | .workerThreads => none
  | .filter => request.filter

/-- What is said of a setting by default. -/
def SettingKey.default? : SettingKey → Option String
  | spawner => some "thread"
  | workerThreads => none
  | filter => some "info"

/-- What stands in groups of a setting. -/
def Toml.Groups.field? (groups : Toml.Groups) (key : SettingKey) : Option Toml.Field :=
  (groups.lookup key.group).bind fun fields => fields.lookup key.name

namespace Settings

/-- The file is named: by the caller, or else by the environment, if that is used. -/
def NamesFile (surroundings : Surroundings) (request : SettingsRequest) (path : String) : Prop :=
  request.path = some path ∨ request.path = none ∧ request.useEnvironment = true ∧
    surroundings.valueOf? "FORKJOIN_CONFIG_PATH" = some path

/-- The file is looked for at a path: the one that is named, or else the default. -/
def Seeks (surroundings : Surroundings) (request : SettingsRequest) (path : String) : Prop :=
  NamesFile surroundings request path ∨
    (∀ path, ¬NamesFile surroundings request path) ∧ path = "forkjoin"

/-- The text that is said of a setting last. -/
def textOf (texts : List (SettingKey × String)) (key : SettingKey) : Option String :=
  texts.reverse.lookup key

namespace Library

/-! ## What is seen -/

/-- What is seen of layers, and of what they come to. -/
structure View (L : Library) where
  /-- What a setting can be. -/
  Value : Type
  /-- What a layer can say of a setting. -/
  Said : Type
  /-- A setting is a value as a whole. -/
  whole : Value → Said
  /-- What comes of a setting of which something is said, given what it is in the layers below. -/
  lay : Said → (below : Option Value) → Value
  /-- What a layer says of a setting, all in all. -/
  tells : L.Layer → SettingKey → Option Said
  /-- What a setting is when layers have been merged. -/
  holds : L.Tree → SettingKey → Option Value
  text : String → Value
  number : Nat → Value
  spawner? : Value → Option SpawnerKind
  workers? : Value → Option (Option UInt64)
  filter? : Value → Option String
  /-- What stands under the name of a group in a layer is a table, if there is anything; and no name
  becomes a path by being put in lower case. -/
  Orderly : L.Layer → Prop
  /-- Some name in a layer is a path with a position in a list. -/
  HasPosition : L.Layer → Prop
  /-- The groups in a tree are tables. -/
  Grouped : L.Tree → Prop

/-- What is seen of files. -/
structure Search (L : Library) where
  File : Type
  /-- The endings of the files that can be read. -/
  endings : List String
  /-- The file that a path leads to. -/
  find? : Surroundings → (path : String) → Option File
  /-- What a file holds. -/
  read : File → Except L.Error L.Layer
  /-- What a text holds that stands in a file with an ending. -/
  document : (ending origin text : String) → Except L.Error L.Layer

variable {L : Library}

namespace View

variable (V : L.View)

/-- What a setting is of which a layer may say something. -/
def onto (below : Option V.Value) : Option V.Said → Option V.Value
  | none => below
  | some said => some (V.lay said below)

/-- What a setting is, given what each layer says of it, the highest first. -/
def effective : List (Option V.Said) → Option V.Value
  | [] => none
  | said :: below => V.onto (effective below) said

/-- What is said of a setting that is a text as a whole. -/
def textSaid (text : Option String) : Option V.Said :=
  text.map fun text => V.whole (V.text text)

/-- What the layers say of a setting, the highest first: the caller, the environment if it is used,
the file, and the defaults. -/
def sayings (surroundings : Surroundings) (request : SettingsRequest) (file : L.Layer)
    (key : SettingKey) : List (Option V.Said) :=
  [V.textSaid (request.override? key),
    if request.useEnvironment then V.tells (L.environment surroundings) key else none,
    V.tells file key, V.textSaid key.default?]

/-- What is read of a setting that may not be there. -/
def readOr {α : Type} (read : V.Value → Option α) (default : α) : Option V.Value → Option α
  | none => some default
  | some value => read value

/-- The settings that are read, given what each is. -/
structure ReadAs (seen : SettingKey → Option V.Value) (settings : Settings) : Prop where
  spawner : V.readOr V.spawner? .thread (seen .spawner) = some settings.runtime.spawner
  workers : V.readOr V.workers? none (seen .workerThreads) = some settings.runtime.workerThreads
  filter : V.readOr V.filter? "info" (seen .filter) = some settings.filter

/-- The value that an entry of a group is. -/
def ofField : Toml.Field → V.Value
  | .str s => V.text s
  | .nat n => V.number n

end View

/-- A path leads to a file with one of the endings: the one of that very name, or, if the name is
free, the one with the ending besides, if no other ending leads to a file. -/
inductive Search.Leads (F : L.Search) (surroundings : Surroundings) (path ending text : String) :
    Prop
  | itself (hfile : surroundings.file? path = some text)
      (hending : (pathSteps path).getLast?.bind endingOf = some ending)
      (hknown : ending ∈ F.endings)
  | ended (hfree : surroundings.file? path = none) (hnamed : Surroundings.isNamed path = true)
      (hfile : surroundings.file? (Surroundings.endedPath path ending) = some text)
      (hknown : ending ∈ F.endings)
      (hothers : ∀ other ∈ F.endings, other ≠ ending →
        surroundings.file? (Surroundings.endedPath path other) = none)

/-- A path leads to no file that can be read: the one of that very name has none of the endings, or
there is no such file, nor one with any of the endings besides. -/
inductive Search.LeadsNowhere (F : L.Search) (surroundings : Surroundings) (path : String) : Prop
  | unknown {text : String} (hfile : surroundings.file? path = some text)
      (hending : ∀ ending ∈ F.endings, (pathSteps path).getLast?.bind endingOf ≠ some ending)
  | free (hfree : surroundings.file? path = none)
      (hothers : ∀ ending ∈ F.endings,
        surroundings.file? (Surroundings.endedPath path ending) = none)

/-! ## What is expected -/

/-- Files are found by their names and read. A file that has to be there is an error if it is not;
one that does not have to be there then says nothing. -/
structure FindsFiles (V : L.View) (F : L.Search) : Prop where
  leads {surroundings : Surroundings} {path ending text : String}
    (h : F.Leads surroundings path ending text) :
    ∃ file origin, F.find? surroundings path = some file ∧
      F.read file = F.document ending origin text
  nowhere {surroundings : Surroundings} {path : String} (h : F.LeadsNowhere surroundings path) :
    F.find? surroundings path = none
  found {surroundings : Surroundings} {path : String} {file : F.File}
    (h : F.find? surroundings path = some file) (required : Bool) :
    L.file surroundings path required = F.read file
  missing {surroundings : Surroundings} {path : String} (h : F.find? surroundings path = none) :
    ∃ error, L.file surroundings path true = .error error
  spared {surroundings : Surroundings} {path : String} (h : F.find? surroundings path = none) :
    ∃ layer, L.file surroundings path false = .ok layer ∧ ∀ key, V.tells layer key = none

/-- Layers are merged one by one and setting by setting. What is a value as a whole takes the place
of whatever is below. A source goes over those before it, and a text at the path of a setting over
all sources, or below them. -/
structure Merges (V : L.View) : Prop where
  lay_whole (value : V.Value) (below : Option V.Value) : V.lay (V.whole value) below = value
  nothing {tree : L.Tree} (h : L.merge [] [] [] = .ok tree) (key : SettingKey) :
    V.holds tree key = none
  default {texts : List (SettingKey × String)} {key : SettingKey} {text : String} {tree : L.Tree}
    (h : L.merge (atPaths (texts ++ [(key, text)])) [] [] = .ok tree) :
    ∃ below, L.merge (atPaths texts) [] [] = .ok below ∧
      ∀ other, V.holds tree other = if other = key then some (V.text text) else V.holds below other
  source {texts : List (SettingKey × String)} {layers : List L.Layer} {layer : L.Layer}
    {tree : L.Tree} (horderly : ∀ layer' ∈ layers ++ [layer], V.Orderly layer')
    (h : L.merge (atPaths texts) (layers ++ [layer]) [] = .ok tree) :
    ∃ below, L.merge (atPaths texts) layers [] = .ok below ∧
      ∀ key, V.holds tree key = V.onto (V.holds below key) (V.tells layer key)
  override {texts more : List (SettingKey × String)} {layers : List L.Layer} {key : SettingKey}
    {text : String} {tree : L.Tree} (horderly : ∀ layer ∈ layers, V.Orderly layer)
    (h : L.merge (atPaths texts) layers (atPaths (more ++ [(key, text)])) = .ok tree) :
    ∃ below, L.merge (atPaths texts) layers (atPaths more) = .ok below ∧
      ∀ other, V.holds tree other = if other = key then some (V.text text) else V.holds below other
  grouped {texts more : List (SettingKey × String)} {layers : List L.Layer} {tree : L.Tree}
    (horderly : ∀ layer ∈ layers, V.Orderly layer)
    (h : L.merge (atPaths texts) layers (atPaths more) = .ok tree) : V.Grouped tree
  fault {texts more : List (SettingKey × String)} {layers : List L.Layer} {fault : Fault}
    (horderly : ∀ layer ∈ layers, V.Orderly layer)
    (h : L.merge (atPaths texts) layers (atPaths more) = .error fault) :
    ∃ layer ∈ layers, V.HasPosition layer

/-- Each setting is read on its own from where it stands. -/
structure ReadsSettings (V : L.View) : Prop where
  read_eq_ok_iff {tree : L.Tree} (hgrouped : V.Grouped tree) (settings : Settings) :
    L.read tree = .ok settings ↔ V.ReadAs (V.holds tree) settings

/-- A variable says of its setting that it is the text to which the variable is set. -/
structure ReadsVariables (V : L.View) : Prop where
  alone {key : SettingKey} {text : String} {before after : List (String × String)}
    (hothers : ∀ binding ∈ before ++ after, key.Misses binding.1) :
    V.tells (L.ofVariables "FORKJOIN" "_" "__" (before ++ (key.binding, text) :: after)) key =
      some (V.whole (V.text text))
  unsaid {key : SettingKey} {bindings : List (String × String)}
    (h : ∀ binding ∈ bindings, key.Misses binding.1) :
    V.tells (L.ofVariables "FORKJOIN" "_" "__" bindings) key = none

/-- A TOML document of groups says of each setting what stands there, and leaves groups what they
are. A text that is no document is no layer. -/
structure TakesDocuments (V : L.View) (F : L.Search)
    (parse? : String → Option (List (String × Toml))) : Prop where
  malformed {text : String} (h : parse? text = none) (origin : String) :
    ∃ error, F.document "toml" origin text = .error error
  document {groups : Toml.Groups} (hplain : groups.plain = true) {text : String}
    (h : parse? text = some (Toml.ofGroups groups)) (origin : String) :
    ∃ layer, F.document "toml" origin text = .ok layer ∧ V.Orderly layer ∧ ¬V.HasPosition layer ∧
      ∀ key : SettingKey, V.tells layer key =
        (groups.field? key).map fun field => V.whole (V.ofField field)

/-- What is written of groups is read as these groups. Numbers that have 63 bits can be written, and
larger ones cannot. -/
structure ReadsWritten (L : Library) (parse? : String → Option (List (String × Toml))) : Prop where
  parse_print {groups : Toml.Groups} (hplain : groups.plain = true) (hfit : groups.fit = true) :
    ∃ text, L.print groups = .ok text ∧ parse? text = some (Toml.ofGroups groups)
  print_large {groups : Toml.Groups} (hfit : groups.fit = false) (text : String) :
    L.print groups ≠ .ok text

/-- Names of spawners, numbers and texts are read as what they are. -/
structure ReadsFields (V : L.View) : Prop where
  spawner (kind : SpawnerKind) : V.spawner? (V.text kind.name) = some kind
  workers (n : UInt64) : V.workers? (V.number n.toNat) = some (some n)
  filter (text : String) : V.filter? (V.text text) = some text

end Library

/-! ## Where the file is looked for -/

section Path

variable {surroundings : Surroundings} {request : SettingsRequest}

theorem namedPath_eq_some_iff {path : String} :
    namedPath surroundings request = some path ↔ NamesFile surroundings request path := by
  rw [namedPath, NamesFile]
  cases request.path with
  | some given => simp
  | none => by_cases h : request.useEnvironment = true <;> simp [h, pathVariable]

theorem namedPath_eq_none (h : ∀ path, ¬NamesFile surroundings request path) :
    namedPath surroundings request = none :=
  Option.eq_none_iff_forall_ne_some.mpr fun path hpath => h path (namedPath_eq_some_iff.mp hpath)

/-- There is one place where the file is looked for. -/
theorem Seeks.unique {path path' : String} (h : Seeks surroundings request path)
    (h' : Seeks surroundings request path') : path = path' := by
  obtain h | ⟨hnone, rfl⟩ := h
  · obtain h' | ⟨hnone', -⟩ := h'
    · exact Option.some.inj
        ((namedPath_eq_some_iff.mpr h).symm.trans (namedPath_eq_some_iff.mpr h'))
    · exact absurd h (hnone' path)
  · obtain h' | ⟨-, rfl⟩ := h'
    · exact absurd h' (hnone path')
    · rfl

theorem exists_seeks (surroundings : Surroundings) (request : SettingsRequest) :
    ∃ path, Seeks surroundings request path := by
  cases hnamed : namedPath surroundings request with
  | some path => exact ⟨path, .inl (namedPath_eq_some_iff.mp hnamed)⟩
  | none =>
    refine ⟨"forkjoin", .inr ⟨fun path hpath => ?_, rfl⟩⟩
    exact nomatch hnamed.symm.trans (namedPath_eq_some_iff.mpr hpath)

end Path

/-! ## Layer by layer -/

theorem textOf_append (texts : List (SettingKey × String)) (key : SettingKey) (text : String)
    (other : SettingKey) : textOf (texts ++ [(key, text)]) other =
      if other = key then some text else textOf texts other := by
  rw [textOf, List.reverse_append, List.reverse_singleton, List.singleton_append, List.lookup_cons,
    textOf]
  by_cases h : other = key <;> simp [h, beq_false_of_ne]

theorem textOf_overrides (request : SettingsRequest) (key : SettingKey) :
    textOf (overrides request) key = request.override? key := by
  obtain ⟨path, spawner, filter, useEnvironment⟩ := request
  cases spawner <;> cases filter <;> cases key <;> rfl

theorem textOf_defaults (key : SettingKey) : textOf defaults key = key.default? := by
  cases key <;> rfl

namespace Library

variable {L : Library} {V : L.View} {F : L.Search}

namespace Merges

variable (h : L.Merges V)
include h

/-- The highest layer that says of a setting what it is as a whole hides the layers below. -/
theorem effective_of_highest {above : List (Option V.Said)} (habove : ∀ said ∈ above, said = none)
    (value : V.Value) (below : List (Option V.Said)) :
    V.effective (above ++ some (V.whole value) :: below) = some value := by
  induction above with
  | nil => exact congrArg some (h.lay_whole value _)
  | cons said above ih =>
    obtain rfl := habove said List.mem_cons_self
    exact ih fun said hsaid => habove said (List.mem_cons_of_mem _ hsaid)

/-- What is said last counts. -/
theorem onto_textSaid_append (below : Option V.Value) (texts : List (SettingKey × String))
    (key : SettingKey) (text : String) (other : SettingKey) :
    V.onto below (V.textSaid (textOf (texts ++ [(key, text)]) other)) =
      if other = key then some (V.text text)
      else V.onto below (V.textSaid (textOf texts other)) := by
  rw [textOf_append]
  split
  · exact congrArg some (h.lay_whole _ _)
  · rfl

theorem holds_defaults {texts : List (SettingKey × String)} {tree : L.Tree}
    (hmerge : L.merge (atPaths texts) [] [] = .ok tree) (key : SettingKey) :
    V.holds tree key = V.onto none (V.textSaid (textOf texts key)) := by
  induction texts using List.reverseRecOn generalizing tree with
  | nil => exact h.nothing hmerge key
  | append_singleton texts entry ih =>
    obtain ⟨below, hbelow, hholds⟩ := h.default hmerge
    rw [hholds, ih hbelow, h.onto_textSaid_append]

theorem holds_sources {texts : List (SettingKey × String)} {layers : List L.Layer} {tree : L.Tree}
    (horderly : ∀ layer ∈ layers, V.Orderly layer)
    (hmerge : L.merge (atPaths texts) layers [] = .ok tree) (key : SettingKey) :
    V.holds tree key = layers.foldl (fun below layer => V.onto below (V.tells layer key))
      (V.onto none (V.textSaid (textOf texts key))) := by
  induction layers using List.reverseRecOn generalizing tree with
  | nil => exact h.holds_defaults hmerge key
  | append_singleton layers layer ih =>
    obtain ⟨below, hbelow, hholds⟩ := h.source horderly hmerge
    rw [hholds, ih (fun layer hlayer => horderly layer (List.mem_append_left _ hlayer)) hbelow,
      List.foldl_append, List.foldl_cons, List.foldl_nil]

/-- What becomes of a setting when all layers are merged depends on what each says of it alone. -/
theorem holds_eq {texts more : List (SettingKey × String)} {layers : List L.Layer} {tree : L.Tree}
    (horderly : ∀ layer ∈ layers, V.Orderly layer)
    (hmerge : L.merge (atPaths texts) layers (atPaths more) = .ok tree) (key : SettingKey) :
    V.holds tree key = V.onto
      (layers.foldl (fun below layer => V.onto below (V.tells layer key))
        (V.onto none (V.textSaid (textOf texts key))))
      (V.textSaid (textOf more key)) := by
  induction more using List.reverseRecOn generalizing tree with
  | nil => exact h.holds_sources horderly hmerge key
  | append_singleton more entry ih =>
    obtain ⟨below, hbelow, hholds⟩ := h.override horderly hmerge
    rw [hholds, ih hbelow, h.onto_textSaid_append]

/-- The layers of the settings, in their order. -/
theorem holds_eq_effective {surroundings : Surroundings} {request : SettingsRequest}
    {file : L.Layer} {tree : L.Tree}
    (horderly : ∀ layer ∈ L.sources surroundings request file, V.Orderly layer)
    (hmerge : L.merge (atPaths defaults) (L.sources surroundings request file)
      (atPaths (overrides request)) = .ok tree) (key : SettingKey) :
    V.holds tree key = V.effective (V.sayings surroundings request file key) := by
  rw [h.holds_eq horderly hmerge, textOf_overrides, textOf_defaults, View.sayings, sources]
  split <;> rfl

end Merges

/-! ## The file -/

section File

variable (F) (surroundings : Surroundings) (request : SettingsRequest)

/-- What the file gives. Without a name there need not be one. -/
inductive FileGives : L.Layer → Prop
  | file {path : String} {file : F.File} {layer : L.Layer}
      (hpath : Seeks surroundings request path)
      (hfound : F.find? surroundings path = some file) (hread : F.read file = .ok layer) :
      FileGives layer
  | nothing {layer : L.Layer} (hpath : ∀ path, ¬NamesFile surroundings request path)
      (hfound : F.find? surroundings "forkjoin" = none)
      (hspared : L.file surroundings "forkjoin" false = .ok layer) : FileGives layer

/-- A file is named, but there is none. -/
def FileMissing : Prop :=
  ∃ path, NamesFile surroundings request path ∧ F.find? surroundings path = none

/-- The file that is found is not well formed. -/
def FileMalformed : Prop :=
  ∃ path file error, Seeks surroundings request path ∧ F.find? surroundings path = some file ∧
    F.read file = .error error

variable {F surroundings request}

namespace FindsFiles

variable (h : L.FindsFiles V F)
include h

/-- A file that is found is the layer that is read from it. -/
theorem fileLayer_of_found {path : String} {file : F.File} (hpath : Seeks surroundings request path)
    (hfound : F.find? surroundings path = some file) :
    L.fileLayer surroundings request = F.read file := by
  rw [fileLayer]
  obtain hnamed | ⟨hnone, rfl⟩ := hpath
  · rw [namedPath_eq_some_iff.mpr hnamed]
    exact h.found hfound true
  · rw [namedPath_eq_none hnone]
    exact h.found hfound false

/-- What becomes of the file: it gives a layer, or cannot be read. -/
theorem fileLayer_cases (surroundings : Surroundings) (request : SettingsRequest) :
    (∃ layer, FileGives F surroundings request layer ∧
        L.fileLayer surroundings request = .ok layer) ∨
      (FileMissing F surroundings request ∨ FileMalformed F surroundings request) ∧
        ∃ error, L.fileLayer surroundings request = .error error := by
  obtain ⟨path, hpath⟩ := exists_seeks surroundings request
  cases hfound : F.find? surroundings path with
  | some file =>
    rw [h.fileLayer_of_found hpath hfound]
    cases hread : F.read file with
    | ok layer => exact .inl ⟨layer, .file hpath hfound hread, rfl⟩
    | error error => exact .inr ⟨.inr ⟨path, file, error, hpath, hfound, hread⟩, error, rfl⟩
  | none =>
    rw [fileLayer]
    obtain hnamed | ⟨hnone, rfl⟩ := hpath
    · rw [namedPath_eq_some_iff.mpr hnamed]
      exact .inr ⟨.inl ⟨path, hnamed, hfound⟩, h.missing hfound⟩
    · rw [namedPath_eq_none hnone]
      obtain ⟨layer, hlayer, -⟩ := h.spared hfound
      exact .inl ⟨layer, .nothing hnone hfound hlayer, hlayer⟩

theorem fileLayer_of_gives {layer : L.Layer} (hgives : FileGives F surroundings request layer) :
    L.fileLayer surroundings request = .ok layer := by
  cases hgives with
  | file hpath hfound hread => rw [h.fileLayer_of_found hpath hfound, hread]
  | nothing hpath hfound hspared =>
    rw [fileLayer, namedPath_eq_none hpath]
    exact hspared

theorem fileLayer_of_bad
    (hbad : FileMissing F surroundings request ∨ FileMalformed F surroundings request) :
    ∃ error, L.fileLayer surroundings request = .error error := by
  obtain ⟨path, hnamed, hfound⟩ | ⟨path, file, error, hpath, hfound, hread⟩ := hbad
  · rw [fileLayer, namedPath_eq_some_iff.mpr hnamed]
    exact h.missing hfound
  · exact ⟨error, by rw [h.fileLayer_of_found hpath hfound, hread]⟩

end FindsFiles

end File

end Library

end Settings

end FiberPrograms
