import FiberPrograms.Proofs.Documents
import FiberPrograms.Proofs.Variables

/-!
# How loading settings ends

Whatever library is trusted with it, whether settings can be loaded, and what they are, is known
from where the file is looked for, what is found there, and what the layers say of each setting.
That a number of threads makes no sense is only noticed when everything has been read; whatever a
higher layer hides is never read at all.

## Main definitions

* `Settings.Library.View.valueIn`: what a setting is when all layers are laid over one another
* `Settings.Library.LayersRead`, `Settings.Library.LayersUnreadable`: what is read of the layers
* `Settings.Library.LoadsLayered`: how loading depends on the layers

## Main results

* `Settings.Library.FindsFiles.fileGives_iff`: what is found is what the file gives
* `Settings.Library.load_ends`: how loading ends once the file has given its layer
* `Settings.load_layered`: how loading ends, and why
-/

namespace FiberPrograms

namespace Settings

namespace Library

variable {L : Library} {V : L.View} {F : L.Search} {parse? : String → Option (List (String × Toml))}
  {surroundings : Surroundings} {request : SettingsRequest}

section Layers

variable (V F surroundings request)

/-- What a setting is when all layers are laid over one another. -/
def View.valueIn (file : L.Layer) (key : SettingKey) : Option V.Value :=
  V.effective (V.sayings surroundings request file key)

/-- The layers are read as settings. -/
def LayersRead (settings : Settings) : Prop :=
  ∃ file, FileGives F surroundings request file ∧
    V.ReadAs (V.valueIn surroundings request file) settings

/-- There are layers, but what they make of some setting cannot be read. -/
def LayersUnreadable : Prop :=
  ∃ file, FileGives F surroundings request file ∧
    ∀ settings, ¬V.ReadAs (V.valueIn surroundings request file) settings

/-- How loading depends on the layers. -/
structure LoadsLayered (parse? : String → Option (List (String × Toml))) : Prop where
  /-- The file is the one to which its path leads. -/
  leads {path ending text : String} (hpath : Seeks surroundings request path)
    (h : F.Leads surroundings path ending text) :
    ∃ origin, (∀ layer, FileGives F surroundings request layer ↔
        F.document ending origin text = .ok layer) ∧
      (FileMalformed F surroundings request ↔
        ∃ error, F.document ending origin text = .error error) ∧
      ¬FileMissing F surroundings request
  /-- There has to be a file just if one is named. -/
  nowhere {path : String} (hpath : Seeks surroundings request path)
    (h : F.LeadsNowhere surroundings path) :
    (FileMissing F surroundings request ↔ NamesFile surroundings request path) ∧
      ¬FileMalformed F surroundings request ∧
      ∀ layer, FileGives F surroundings request layer → ∀ key, V.tells layer key = none
  /-- A TOML file that holds no document is not well formed. -/
  malformed {path text : String} (hpath : Seeks surroundings request path)
    (hleads : F.Leads surroundings path "toml" text) (hparse : parse? text = none) :
    FileMalformed F surroundings request
  /-- The highest layer that says what a setting is as a whole hides the layers below. -/
  highest {file : L.Layer} {key : SettingKey} {above below : List (Option V.Said)}
    {value : V.Value}
    (hsayings : V.sayings surroundings request file key = above ++ some (V.whole value) :: below)
    (habove : ∀ said ∈ above, said = none) :
    V.valueIn surroundings request file key = some value
  /-- The variable of a setting counts, unless the caller says something. -/
  environment {key : SettingKey} {text : String} {before after : List (String × String)}
    (huse : request.useEnvironment = true) (hoverride : request.override? key = none)
    (hbindings : surroundings.bindings = before ++ (key.binding, text) :: after)
    (hothers : ∀ binding ∈ before ++ after, key.Misses binding.1) (file : L.Layer) :
    V.valueIn surroundings request file key = some (V.text text)
  /-- A document of groups counts if neither the caller nor a variable says anything; and what is
  not in it is what it is by default. -/
  document {key : SettingKey} {path text : String} {groups : Toml.Groups} {file : L.Layer}
    (hoverride : request.override? key = none)
    (hsilent : request.useEnvironment = true →
      ∀ binding ∈ surroundings.bindings, key.Misses binding.1)
    (hpath : Seeks surroundings request path) (hleads : F.Leads surroundings path "toml" text)
    (hplain : groups.plain = true) (hparse : parse? text = some (Toml.ofGroups groups))
    (hgives : FileGives F surroundings request file) :
    V.valueIn surroundings request file key =
      ((groups.field? key).map V.ofField <|> key.default?.map V.text)
  /-- A fault takes a name with a position in it. -/
  broken {fault : Fault} (h : L.load surroundings request = .error (.broken fault)) :
    ∃ file, FileGives F surroundings request file ∧
      ∃ layer ∈ L.sources surroundings request file, V.HasPosition layer
  /-- The library has no answer just if the file that is named is missing, or the file is not well
  formed, or what comes of some setting cannot be read. -/
  loading_iff (hcalm : ∀ fault, L.load surroundings request ≠ .error (.broken fault)) :
    (∃ error, L.load surroundings request = .error (.loading error)) ↔
      FileMissing F surroundings request ∨ FileMalformed F surroundings request ∨
        LayersUnreadable V F surroundings request
  /-- The number of threads is objected to just if all that is well and the number is zero. -/
  noWorkers_iff (hcalm : ∀ fault, L.load surroundings request ≠ .error (.broken fault)) :
    L.load surroundings request = .error .noWorkers ↔
      ∃ settings, LayersRead V F surroundings request settings ∧
        settings.runtime.workerThreads = some 0
  /-- Otherwise the settings are what has been read. -/
  ok_iff (hcalm : ∀ fault, L.load surroundings request ≠ .error (.broken fault))
    (settings : Settings) :
    L.load surroundings request = .ok settings ↔
      LayersRead V F surroundings request settings ∧ settings.runtime.workerThreads ≠ some 0

end Layers

/-! ## The file -/

section File

variable {path : String} (hpath : Seeks surroundings request path)
include hpath

/-- What is found is what the file gives. -/
theorem fileGives_iff {file : F.File} (hfound : F.find? surroundings path = some file)
    (layer : L.Layer) : FileGives F surroundings request layer ↔ F.read file = .ok layer := by
  refine ⟨fun hgives => ?_, .file hpath hfound⟩
  cases hgives with
  | file hpath' hfound' hread =>
    obtain rfl := hpath.unique hpath'
    exact Option.some.inj (hfound.symm.trans hfound') ▸ hread
  | nothing hnone hfree =>
    obtain rfl := hpath.unique (.inr ⟨hnone, rfl⟩)
    exact nomatch hfound.symm.trans hfree

theorem fileMalformed_iff {file : F.File} (hfound : F.find? surroundings path = some file) :
    FileMalformed F surroundings request ↔ ∃ error, F.read file = .error error := by
  constructor
  · rintro ⟨path', file', error, hpath', hfound', hread⟩
    obtain rfl := hpath.unique hpath'
    exact ⟨error, Option.some.inj (hfound.symm.trans hfound') ▸ hread⟩
  · rintro ⟨error, hread⟩
    exact ⟨path, file, error, hpath, hfound, hread⟩

theorem not_fileMissing {file : F.File} (hfound : F.find? surroundings path = some file) :
    ¬FileMissing F surroundings request := by
  rintro ⟨path', hnamed, hfree⟩
  obtain rfl := hpath.unique (.inl hnamed)
  exact nomatch hfound.symm.trans hfree

theorem fileMissing_iff (hfree : F.find? surroundings path = none) :
    FileMissing F surroundings request ↔ NamesFile surroundings request path := by
  constructor
  · rintro ⟨path', hnamed, -⟩
    obtain rfl := hpath.unique (.inl hnamed)
    exact hnamed
  · exact fun hnamed => ⟨path, hnamed, hfree⟩

theorem not_fileMalformed (hfree : F.find? surroundings path = none) :
    ¬FileMalformed F surroundings request := by
  rintro ⟨path', file, error, hpath', hfound, -⟩
  obtain rfl := hpath.unique hpath'
  exact nomatch hfree.symm.trans hfound

/-- Where there is no file, nothing is said. -/
theorem tells_of_free (hfiles : L.FindsFiles V F) (hfree : F.find? surroundings path = none)
    {layer : L.Layer} (hgives : FileGives F surroundings request layer) (key : SettingKey) :
    V.tells layer key = none := by
  cases hgives with
  | file hpath' hfound =>
    obtain rfl := hpath.unique hpath'
    exact nomatch hfree.symm.trans hfound
  | nothing hnone hfree' hspared =>
    obtain ⟨layer', hlayer, htells⟩ := hfiles.spared hfree'
    obtain rfl := Except.ok.inj (hspared.symm.trans hlayer)
    exact htells key

end File

theorem FileGives.unique (hfiles : L.FindsFiles V F) {file file' : L.Layer}
    (h : FileGives F surroundings request file) (h' : FileGives F surroundings request file') :
    file = file' :=
  Except.ok.inj ((hfiles.fileLayer_of_gives h).symm.trans (hfiles.fileLayer_of_gives h'))

theorem not_fileGives (hfiles : L.FindsFiles V F)
    (hbad : FileMissing F surroundings request ∨ FileMalformed F surroundings request)
    (file : L.Layer) : ¬FileGives F surroundings request file := by
  intro hgives
  obtain ⟨error, herror⟩ := hfiles.fileLayer_of_bad hbad
  exact nomatch herror.symm.trans (hfiles.fileLayer_of_gives hgives)

/-! ## How loading ends -/

theorem View.ReadAs.unique {seen : SettingKey → Option V.Value} {settings settings' : Settings}
    (h : V.ReadAs seen settings) (h' : V.ReadAs seen settings') : settings = settings' := by
  obtain ⟨⟨spawner, workers⟩, filter⟩ := settings
  obtain ⟨⟨spawner', workers'⟩, filter'⟩ := settings'
  obtain rfl : spawner = spawner' := Option.some.inj (h.spawner.symm.trans h'.spawner)
  obtain rfl : workers = workers' := Option.some.inj (h.workers.symm.trans h'.workers)
  obtain rfl : filter = filter' := Option.some.inj (h.filter.symm.trans h'.filter)
  rfl

/-- Nothing is loaded without the file. -/
theorem load_of_bad (hfiles : L.FindsFiles V F)
    (hbad : FileMissing F surroundings request ∨ FileMalformed F surroundings request) :
    ∃ error, L.load surroundings request = .error (.loading error) := by
  obtain ⟨error, herror⟩ := hfiles.fileLayer_of_bad hbad
  exact ⟨error, by rw [load, herror]; rfl⟩

/-- How loading ends once the file has given its layer. -/
theorem load_ends (hfiles : L.FindsFiles V F) (hmerges : L.Merges V) (hreads : L.ReadsSettings V)
    {file : L.Layer} (hgives : FileGives F surroundings request file)
    (horderly : ∀ layer ∈ L.sources surroundings request file, V.Orderly layer) :
    (∃ fault, L.load surroundings request = .error (.broken fault) ∧
        ∃ layer ∈ L.sources surroundings request file, V.HasPosition layer) ∨
      (∃ settings, V.ReadAs (V.valueIn surroundings request file) settings ∧
        L.load surroundings request = check settings) ∨
      (∀ settings, ¬V.ReadAs (V.valueIn surroundings request file) settings) ∧
        ∃ error, L.load surroundings request = .error (.loading error) := by
  rw [load, hfiles.fileLayer_of_gives hgives]
  cases hmerge : L.merge (atPaths defaults) (L.sources surroundings request file)
      (atPaths (overrides request)) with
  | error fault =>
    refine .inl ⟨fault, ?_, hmerges.fault horderly hmerge⟩
    simp only [bind, Except.bind, Except.mapError, hmerge]
  | ok tree =>
    have hholds : V.holds tree = V.valueIn surroundings request file :=
      funext (hmerges.holds_eq_effective horderly hmerge)
    have hiff := hreads.read_eq_ok_iff (hmerges.grouped horderly hmerge)
    rw [hholds] at hiff
    cases hread : L.read tree with
    | ok settings =>
      refine .inr (.inl ⟨settings, (hiff settings).mp hread, ?_⟩)
      simp only [bind, Except.bind, Except.mapError, hmerge, hread]
    | error error =>
      refine .inr (.inr ⟨fun settings h => ?_, error, ?_⟩)
      · exact nomatch hread.symm.trans ((hiff settings).mpr h)
      · simp only [bind, Except.bind, Except.mapError, hmerge, hread]

theorem check_eq_ok_iff {E : Type} {settings settings' : Settings} :
    (check settings : Except (Failure E) Settings) = .ok settings' ↔
      settings = settings' ∧ settings.runtime.workerThreads ≠ some 0 := by
  rw [check]
  split <;> simp [*]

theorem check_eq_error_iff {E : Type} {settings : Settings} {failure : Failure E} :
    check settings = .error failure ↔
      failure = .noWorkers ∧ settings.runtime.workerThreads = some 0 := by
  rw [check]
  split <;> simp [*, eq_comm]

/-- A result is told by why it comes about, if each reason leads to its own result. -/
theorem iff_of_ends {E : Type} {result : Except (Failure E) Settings} {fails : Prop}
    {reads : Settings → Prop} (hends : fails ∨ ∃ settings, reads settings)
    (hfails : fails → ∃ error, result = .error (.loading error))
    (hreads : ∀ settings, reads settings → result = check settings) :
    ((∃ error, result = .error (.loading error)) ↔ fails) ∧
      (result = .error .noWorkers ↔
        ∃ settings, reads settings ∧ settings.runtime.workerThreads = some 0) ∧
      ∀ settings, result = .ok settings ↔
        reads settings ∧ settings.runtime.workerThreads ≠ some 0 := by
  refine ⟨⟨?_, hfails⟩, ⟨fun heq => ?_, ?_⟩, fun settings => ⟨fun heq => ?_, ?_⟩⟩
  · rintro ⟨error, heq⟩
    obtain h | ⟨settings, h⟩ := hends
    · exact h
    · -- Whatever is read, what is said about the number of threads is no error of loading.
      exact nomatch (check_eq_error_iff.mp ((hreads settings h).symm.trans heq)).1
  · obtain h | ⟨settings, h⟩ := hends
    · obtain ⟨error, hresult⟩ := hfails h
      exact nomatch hresult.symm.trans heq
    · exact ⟨settings, h, (check_eq_error_iff.mp ((hreads settings h).symm.trans heq)).2⟩
  · rintro ⟨settings, h, hzero⟩
    exact (hreads settings h).trans (check_eq_error_iff.mpr ⟨rfl, hzero⟩)
  · obtain h | ⟨settings', h⟩ := hends
    · obtain ⟨error, hresult⟩ := hfails h
      exact nomatch hresult.symm.trans heq
    · obtain ⟨rfl, hpos⟩ := check_eq_ok_iff.mp ((hreads settings' h).symm.trans heq)
      exact ⟨h, hpos⟩
  · rintro ⟨h, hpos⟩
    exact (hreads settings h).trans (check_eq_ok_iff.mpr ⟨rfl, hpos⟩)

section Ends

variable (hfiles : L.FindsFiles V F) (hmerges : L.Merges V) (hreads : L.ReadsSettings V)
  (horderly : ∀ file, FileGives F surroundings request file →
    ∀ layer ∈ L.sources surroundings request file, V.Orderly layer)
include hfiles hmerges hreads horderly

theorem exists_hasPosition_of_broken {fault : Fault}
    (h : L.load surroundings request = .error (.broken fault)) :
    ∃ file, FileGives F surroundings request file ∧
      ∃ layer ∈ L.sources surroundings request file, V.HasPosition layer := by
  obtain ⟨file, hgives, -⟩ | ⟨hbad, -⟩ := hfiles.fileLayer_cases surroundings request
  · obtain ⟨-, -, hposition⟩ | ⟨settings, -, hload⟩ | ⟨-, error, hload⟩ :=
      load_ends hfiles hmerges hreads hgives (horderly file hgives)
    · exact ⟨file, hgives, hposition⟩
    · exact nomatch (check_eq_error_iff.mp (hload.symm.trans h)).1
    · exact nomatch h.symm.trans hload
  · obtain ⟨error, hload⟩ := load_of_bad hfiles hbad
    exact nomatch h.symm.trans hload

/-- Without a fault, loading ends as what is read of the layers has it. -/
theorem ends_of_calm
    (hcalm : ∀ fault, L.load surroundings request ≠ .error (.broken fault)) :
    ((∃ error, L.load surroundings request = .error (.loading error)) ↔
        FileMissing F surroundings request ∨ FileMalformed F surroundings request ∨
          LayersUnreadable V F surroundings request) ∧
      (L.load surroundings request = .error .noWorkers ↔
        ∃ settings, LayersRead V F surroundings request settings ∧
          settings.runtime.workerThreads = some 0) ∧
      ∀ settings, L.load surroundings request = .ok settings ↔
        LayersRead V F surroundings request settings ∧
          settings.runtime.workerThreads ≠ some 0 := by
  -- There is one file at most, so the ways in which loading ends exclude each other.
  obtain ⟨file, hgives, -⟩ | ⟨hbad, -⟩ := hfiles.fileLayer_cases surroundings request
  · have hunique {file' : L.Layer} (h : FileGives F surroundings request file') : file' = file :=
      h.unique hfiles hgives
    obtain ⟨fault, hload, -⟩ | ⟨settings, hread, hload⟩ | ⟨hnone, herror⟩ :=
      load_ends hfiles hmerges hreads hgives (horderly file hgives)
    · exact absurd hload (hcalm fault)
    · refine iff_of_ends (.inr ⟨settings, file, hgives, hread⟩) ?_ ?_
      · rintro (h | h | ⟨file', hgives', hnone⟩)
        · exact load_of_bad hfiles (.inl h)
        · exact load_of_bad hfiles (.inr h)
        · exact absurd (hunique hgives' ▸ hread) (hnone settings)
      · rintro settings' ⟨file', hgives', hread'⟩
        obtain rfl := hunique hgives'
        rw [hread'.unique hread, hload]
    · refine iff_of_ends (.inl (.inr (.inr ⟨file, hgives, hnone⟩))) (fun _ => herror) ?_
      rintro settings ⟨file', hgives', hread⟩
      exact absurd (hunique hgives' ▸ hread) (hnone settings)
  · refine iff_of_ends (.inl (hbad.imp id .inl)) (fun _ => load_of_bad hfiles hbad) ?_
    rintro settings ⟨file, hgives, -⟩
    exact absurd hgives (not_fileGives hfiles hbad file)

end Ends

/-! ## What a setting is -/

section Value

variable {key : SettingKey} {file : L.Layer}

/-- The variable of a setting counts, unless the caller says something. -/
theorem valueIn_of_variable (hmerges : L.Merges V) (hvariables : L.ReadsVariables V)
    {text : String} {before after : List (String × String)}
    (huse : request.useEnvironment = true) (hoverride : request.override? key = none)
    (hbindings : surroundings.bindings = before ++ (key.binding, text) :: after)
    (hothers : ∀ binding ∈ before ++ after, key.Misses binding.1) :
    V.valueIn surroundings request file key = some (V.text text) := by
  have htells : V.tells (L.environment surroundings) key = some (V.whole (V.text text)) := by
    rw [environment, hbindings]
    exact hvariables.alone hothers
  rw [View.valueIn, View.sayings, hoverride, if_pos huse, htells]
  have habove : ∀ said ∈ [(none : Option V.Said)], said = none := by simp
  exact hmerges.effective_of_highest habove _ _

/-- Where neither the caller nor the environment says anything, what the file says is laid over the
default. -/
theorem valueIn_of_silent (hoverride : request.override? key = none)
    (hsilent : request.useEnvironment = true → V.tells (L.environment surroundings) key = none) :
    V.valueIn surroundings request file key =
      V.effective [V.tells file key, V.textSaid key.default?] := by
  have henvironment : (if request.useEnvironment then V.tells (L.environment surroundings) key
      else none) = none := by
    split
    next huse => exact hsilent huse
    next => rfl
  rw [View.valueIn, View.sayings, hoverride, henvironment]
  rfl

/-- What is not in a document is what it is by default. -/
theorem effective_field (hmerges : L.Merges V) (field? : Option Toml.Field)
    (default? : Option String) :
    V.effective [field?.map fun field => V.whole (V.ofField field), V.textSaid default?] =
      (field?.map V.ofField <|> default?.map V.text) := by
  cases field? with
  | some field => exact congrArg some (hmerges.lay_whole _ _)
  | none =>
    cases default? with
    | some text => exact congrArg some (hmerges.lay_whole _ _)
    | none => rfl

end Value

end Library

open Library

/-- **Each setting comes from the highest layer that has it**, whatever library loads it, as long
as that does what is expected of it. In each layer the groups have to be tables. The file is the
one that the caller names, or else the environment, if it is used; without a name it is looked for
at `forkjoin`, and need not be there. What becomes of a setting depends on what the layers say of
that setting alone, the highest first. Loading fails just if the file that is named is missing, or
the file is not well formed, or what comes of some setting cannot be read; the number of threads is
objected to just if all that is well and the number is zero; and otherwise the settings are what
has been read. Nothing else can happen, except for a fault, which takes a name with a position in
it. -/
theorem load_layered {L : Library} {V : L.View} {F : L.Search}
    {parse? : String → Option (List (String × Toml))} (hfiles : L.FindsFiles V F)
    (hmerges : L.Merges V) (hreads : L.ReadsSettings V) (hvariables : L.ReadsVariables V)
    (hdocuments : L.TakesDocuments V F parse?) {surroundings : Surroundings}
    {request : SettingsRequest}
    (horderly : ∀ file, FileGives F surroundings request file →
      ∀ layer ∈ L.sources surroundings request file, V.Orderly layer) :
    LoadsLayered V F surroundings request parse? where
  leads {path ending text} hpath h := by
    obtain ⟨file, origin, hfound, hread⟩ := hfiles.leads h
    refine ⟨origin, fun layer => ?_, ?_, not_fileMissing hpath hfound⟩
    · rw [fileGives_iff hpath hfound, hread]
    · rw [fileMalformed_iff hpath hfound, hread]
  nowhere {path} hpath h := by
    have hfree := hfiles.nowhere h
    exact ⟨fileMissing_iff hpath hfree, not_fileMalformed hpath hfree,
      fun layer => tells_of_free hpath hfiles hfree⟩
  malformed {path text} hpath hleads hparse := by
    obtain ⟨file, origin, hfound, hread⟩ := hfiles.leads hleads
    exact (fileMalformed_iff hpath hfound).mpr (hread ▸ hdocuments.malformed hparse origin)
  highest {file key above below value} hsayings habove := by
    rw [View.valueIn, hsayings]
    exact hmerges.effective_of_highest habove value below
  environment {key text before after} huse hoverride hbindings hothers file :=
    valueIn_of_variable hmerges hvariables huse hoverride hbindings hothers
  document {key path text groups file} hoverride hsilent hpath hleads hplain hparse hgives := by
    obtain ⟨found, origin, hfound, hread⟩ := hfiles.leads hleads
    obtain ⟨layer, hlayer, -, -, htells⟩ := hdocuments.document hplain hparse origin
    -- The file gives nothing but what the document says.
    have hfile := (fileGives_iff hpath hfound file).mp hgives
    obtain rfl := Except.ok.inj (hfile.symm.trans (hread.trans hlayer))
    rw [valueIn_of_silent hoverride fun huse => hvariables.unsaid (hsilent huse), htells,
      effective_field hmerges]
  broken h := exists_hasPosition_of_broken hfiles hmerges hreads horderly h
  loading_iff hcalm := (ends_of_calm hfiles hmerges hreads horderly hcalm).1
  noWorkers_iff hcalm := (ends_of_calm hfiles hmerges hreads horderly hcalm).2.1
  ok_iff hcalm := (ends_of_calm hfiles hmerges hreads horderly hcalm).2.2

instance (name : String) : Decidable (Setting.StaysPath name) :=
  inferInstanceAs (Decidable (_ → _))

instance (layer : List (String × Setting)) : Decidable (Setting.Orderly layer) :=
  decidable_of_iff ((∀ entry ∈ layer, ∀ group ∈ Setting.groups,
    Setting.keepsGroup group entry = true) ∧ ∀ entry ∈ layer, Setting.StaysPath entry.1)
    ⟨fun h => ⟨h.1, h.2⟩, fun h => ⟨h.keeps, h.stays⟩⟩

/-- A file with nothing but bad values, two of which are hidden by other layers. -/
def hidingLayers : Surroundings where
  files := [("forkjoin.toml",
    "[runtime]\nspawner = \"green\"\nworker_threads = 0\n\n[log]\nfilter = 5\n")]
  bindings := [("FORKJOIN_RUNTIME__WORKER_THREADS", "4")]

/-- Bad values that are hidden do no harm. -/
theorem load_layered_hiding :
    (∀ file, FileGives search hidingLayers { spawner := some .pool } file →
      ∀ layer ∈ library.sources hidingLayers { spawner := some .pool } file,
        view.Orderly layer) ∧
    (∀ fault, library.load hidingLayers { spawner := some .pool } ≠ .error (.broken fault)) ∧
    LayersRead view search hidingLayers { spawner := some .pool } ⟨⟨.pool, some 4⟩, "5"⟩ := by
  have hload : library.load hidingLayers { spawner := some .pool } =
      .ok ⟨⟨.pool, some 4⟩, "5"⟩ := by
    decide +kernel
  have hcalm : ∀ fault,
      library.load hidingLayers { spawner := some .pool } ≠ .error (.broken fault) :=
    fun fault h => nomatch hload.symm.trans h
  have horderly : ∀ file, FileGives search hidingLayers { spawner := some .pool } file →
      ∀ layer ∈ library.sources hidingLayers { spawner := some .pool } file,
        view.Orderly layer := by
    intro file hgives
    have hall : (library.fileLayer hidingLayers { spawner := some .pool }).toOption.all
        (fun file => (library.sources hidingLayers { spawner := some .pool } file).all
          fun layer => decide (Setting.Orderly layer)) = true := by
      decide +kernel
    rw [library_findsFiles.fileLayer_of_gives hgives] at hall
    exact fun layer hlayer => of_decide_eq_true (List.all_eq_true.mp hall layer hlayer)
  have hlayered := load_layered library_findsFiles library_merges library_readsSettings
    library_readsVariables library_takesDocuments horderly
  exact ⟨horderly, hcalm, ((hlayered.ok_iff hcalm _).mp hload).1⟩

/-- What the highest layer says is not all that counts. Without a name other files are found, too,
and a name is found with an ending added. A table with one name is a setting, but merged with
another it is none. Another character may be a letter in lower case, and a position in a name may
be a fault. -/
theorem not_highest_layer :
    load { files := [("forkjoin.json", "\x7b\"log\": \x7b\"filter\": \"debug\"\x7d\x7d")] } {} =
      .ok ⟨{}, "debug"⟩ ∧
    load { files := [("c.toml", "[log]\nfilter = \"debug\"\n")] } { path := some "c" } =
      .ok ⟨{}, "debug"⟩ ∧
    load { bindings := [("FORKJOIN_RUNTIME__SPAWNER__INLINE", "1")] } {} =
      .ok ⟨⟨.inline, none⟩, "info"⟩ ∧
    load { files := [("forkjoin.toml", "[runtime.spawner]\nthread = 1\n")],
           bindings := [("FORKJOIN_RUNTIME__SPAWNER__INLINE", "1")] } {} =
      .error .noSpawnerForm ∧
    load { files := [("forkjoin.toml", "\"runtime.wor\u212aer_threads\" = 0\n")] } {} =
      .error .noWorkers ∧
    ∃ fault, load { files := [("forkjoin.toml", "\"a[-1]\" = 1\n")] } {} =
      .error (.broken fault) := by
  refine ⟨?_, ?_, ?_, ?_, ?_, .text "attempt to subtract with overflow", ?_⟩
  all_goals decide +kernel

end Settings

end FiberPrograms
