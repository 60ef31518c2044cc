import FiberPrograms.Proofs.LoadedSettings
import FiberPrograms.Proofs.WrittenDocuments

/-!
# Settings, written and read

Settings are written as a document of two groups with plain names. Whatever library writes it, as
long as it reads what it writes, a file that holds what is written gives the same settings again.
But numbers are written as signed ones, so settings with a large number of threads are loaded, and
yet cannot be written.

## Main definitions

* `Settings.Writable`: whether the number of threads can be written

## Main results

* `Settings.library_readsWritten`: what the library writes it reads
* `Settings.written_loads_back`: what is written of settings that were loaded loads as the same
  settings
-/

namespace FiberPrograms

namespace Settings

open Library

/-! ## The document -/

/-- Whether the number of threads can be written. -/
def Writable (settings : Settings) : Prop :=
  ∀ n, settings.runtime.workerThreads = some n → n.toNat < Toml.signedBound

theorem plain_document (settings : Settings) : settings.document.plain = true := by
  obtain ⟨⟨spawner, workers⟩, filter⟩ := settings
  have hgroups : Toml.arePlain ["runtime", "log"] = true := by decide +kernel
  have hlog : Toml.arePlain ["filter"] = true := by decide +kernel
  cases workers with
  | none =>
    have hruntime : Toml.arePlain ["spawner"] = true := by decide +kernel
    simp [document, Toml.Groups.plain, hgroups, hruntime, hlog]
  | some n =>
    have hruntime : Toml.arePlain ["spawner", "worker_threads"] = true := by decide +kernel
    simp [document, Toml.Groups.plain, hgroups, hruntime, hlog]

theorem fit_document_iff (settings : Settings) :
    settings.document.fit = true ↔ settings.Writable := by
  obtain ⟨⟨spawner, workers⟩, filter⟩ := settings
  cases workers <;> simp [document, Toml.Groups.fit, Toml.Field.fits, Writable]

/-- What stands in the document of a setting. -/
theorem field?_document (settings : Settings) :
    settings.document.field? .spawner = some (.str settings.runtime.spawner.name) ∧
      settings.document.field? .workerThreads =
        (settings.runtime.workerThreads.map fun n => .nat n.toNat) ∧
      settings.document.field? .filter = some (.str settings.filter) := by
  obtain ⟨⟨spawner, workers⟩, filter⟩ := settings
  cases workers <;> exact ⟨rfl, rfl, rfl⟩

theorem library_readsWritten : library.ReadsWritten tableOf? where
  parse_print {groups} hplain hfit := by
    refine ⟨String.ofList (Toml.lines groups), if_pos hfit, ?_⟩
    have hmark : FileFormat.withoutMark (String.ofList (Toml.lines groups)) =
        String.ofList (Toml.lines groups) := by
      rw [FileFormat.withoutMark, String.toList_ofList]
      -- The first character, if there is one, opens a header.
      obtain _ | ⟨group, _ | ⟨next, groups⟩⟩ := groups <;> rfl
    rw [tableOf?, hmark, Toml.parse?_lines hplain hfit]
  print_large {groups} hfit text h := by
    change Toml.print? groups = .ok text at h
    rw [Toml.print?, hfit] at h
    cases h

/-! ## Loading what is written -/

section Load

variable {L : Library} {V : L.View} {F : L.Search} {parse? : String → Option (List (String × Toml))}
  {surroundings : Surroundings} {request : SettingsRequest} {settings : Settings}

/-- Settings are only loaded if there is a thread to run fibers. -/
theorem workerThreads_ne_of_load (h : L.load surroundings request = .ok settings) :
    settings.runtime.workerThreads ≠ some 0 := by
  obtain ⟨file, -, h⟩ := exists_of_bind_eq_ok h
  obtain ⟨tree, -, h⟩ := exists_of_bind_eq_ok h
  obtain ⟨read, -, h⟩ := exists_of_bind_eq_ok h
  obtain ⟨rfl, hpos⟩ := check_eq_ok_iff.mp h
  exact hpos

/-- A layer that says what stands in the document of settings is read as these settings, if nothing
else is said. -/
theorem readAs_of_document (hmerges : L.Merges V) (hfields : L.ReadsFields V) {path : String}
    {file : L.Layer} (htells : ∀ key, V.tells file key =
      (settings.document.field? key).map fun field => V.whole (V.ofField field)) :
    V.ReadAs (V.valueIn surroundings { path := some path, useEnvironment := false } file)
      settings := by
  obtain ⟨hspawner, hworkers, hfilter⟩ := settings.field?_document
  have hvalue (key : SettingKey) :
      V.valueIn surroundings { path := some path, useEnvironment := false } file key =
        ((settings.document.field? key).map V.ofField <|> key.default?.map V.text) := by
    rw [valueIn_of_silent (by cases key <;> rfl) (fun huse => absurd huse Bool.false_ne_true),
      htells, effective_field hmerges]
  refine ⟨?_, ?_, ?_⟩
  · rw [hvalue, hspawner]
    exact hfields.spawner _
  · rw [hvalue, hworkers]
    cases settings.runtime.workerThreads with
    | none => rfl
    | some n => exact hfields.workers n
  · rw [hvalue, hfilter]
    exact hfields.filter _

/-- A file that holds the document of settings gives these settings. -/
theorem load_of_document (hfiles : L.FindsFiles V F) (hmerges : L.Merges V)
    (hreads : L.ReadsSettings V) (hdocuments : L.TakesDocuments V F parse?)
    (hfields : L.ReadsFields V) (hpos : settings.runtime.workerThreads ≠ some 0)
    {path text : String} (hleads : F.Leads surroundings path "toml" text)
    (hparse : parse? text = some (Toml.ofGroups settings.document)) :
    L.load surroundings { path := some path, useEnvironment := false } = .ok settings := by
  obtain ⟨found, origin, hfound, hread⟩ := hfiles.leads hleads
  obtain ⟨layer, hlayer, horderly, hposition, htells⟩ :=
    hdocuments.document settings.plain_document hparse origin
  have hgives : FileGives F surroundings { path := some path, useEnvironment := false } layer :=
    .file (.inl (.inl rfl)) hfound (hread.trans hlayer)
  have hreadAs := @readAs_of_document _ _ surroundings _ hmerges hfields path _ htells
  -- The file is the only source.
  have hsources : L.sources surroundings { path := some path, useEnvironment := false } layer =
      [layer] := rfl
  obtain ⟨fault, -, layer', hlayer', hposition'⟩ | ⟨settings', hreadAs', hload⟩ | ⟨hnone, -⟩ :=
    load_ends hfiles hmerges hreads hgives (by simpa [hsources] using horderly)
  · rw [hsources] at hlayer'
    exact absurd (List.mem_singleton.mp hlayer' ▸ hposition') hposition
  · obtain rfl := hreadAs'.unique hreadAs
    rw [hload, check_eq_ok_iff]
    exact ⟨rfl, hpos⟩
  · exact absurd hreadAs (hnone settings)

end Load

/-- **What is written of settings loads as the same settings**, whatever library writes and loads
it, as long as that does what is expected of it. Whatever the layers are that settings come from,
if the number of threads has 63 bits or is not set, the settings can be written, and a file that
holds just what is written, named by the caller and read without the environment, gives equal
settings. If the number of threads has 64 bits, the settings are loaded all the same, but cannot be
written. -/
theorem written_loads_back {L : Library} {V : L.View} {F : L.Search}
    {parse? : String → Option (List (String × Toml))} (hfiles : L.FindsFiles V F)
    (hmerges : L.Merges V) (hreads : L.ReadsSettings V) (hdocuments : L.TakesDocuments V F parse?)
    (hwritten : L.ReadsWritten parse?) (hfields : L.ReadsFields V) {surroundings : Surroundings}
    {request : SettingsRequest} {settings : Settings}
    (h : L.load surroundings request = .ok settings) :
    (settings.Writable → ∃ text, L.write settings = .ok text ∧
      ∀ (elsewhere : Surroundings) (path : String), F.Leads elsewhere path "toml" text →
        L.load elsewhere { path := some path, useEnvironment := false } = .ok settings) ∧
    (¬settings.Writable → ∀ text, L.write settings ≠ .ok text) := by
  refine ⟨fun hwritable => ?_, fun hlarge => ?_⟩
  · obtain ⟨text, htext, hparse⟩ := hwritten.parse_print settings.plain_document
      (settings.fit_document_iff.mpr hwritable)
    exact ⟨text, htext, fun elsewhere path hleads => load_of_document hfiles hmerges hreads
      hdocuments hfields (workerThreads_ne_of_load h) hleads hparse⟩
  · exact hwritten.print_large (Bool.eq_false_iff.mpr (mt settings.fit_document_iff.mp hlarge))

/-- The environment sets the number of threads, and the caller sets the rest, with a filter that
has quotes and a line break in it. -/
theorem written_loads_back_four :
    ∃ settings, library.load { bindings := [("FORKJOIN_RUNTIME__WORKER_THREADS", "4")] }
        { spawner := some .pool, filter := some "a = \"b\"\n" } = .ok settings ∧
      settings.Writable ∧
      ∃ text, library.write settings = .ok text ∧
        library.load { files := [("c.toml", text)] }
          { path := some "c.toml", useEnvironment := false } = .ok settings := by
  have hload : library.load { bindings := [("FORKJOIN_RUNTIME__WORKER_THREADS", "4")] }
      { spawner := some .pool, filter := some "a = \"b\"\n" } =
        .ok ⟨⟨.pool, some 4⟩, "a = \"b\"\n"⟩ := by decide +kernel
  have hwritable : Writable ⟨⟨.pool, some 4⟩, "a = \"b\"\n"⟩ := fun n hn =>
    Option.some.inj hn ▸ by decide
  have htext : library.write ⟨⟨.pool, some 4⟩, "a = \"b\"\n"⟩ = .ok
      ("[runtime]\nspawner = \"tokio\"\nworker_threads = 4\n\n[log]\n" ++
        "filter = \"\"\"\na = \"b\"\n\"\"\"\n") := by
    decide +kernel
  obtain ⟨text, hwritten, hback⟩ := (written_loads_back library_findsFiles library_merges
    library_readsSettings library_takesDocuments library_readsWritten library_readsFields
    hload).1 hwritable
  obtain rfl := Except.ok.inj (htext.symm.trans hwritten)
  exact ⟨_, hload, hwritable, _, htext,
    hback _ "c.toml" (.itself (by decide +kernel) (by decide +kernel) (by decide))⟩

/-- A number of threads that has 64 bits is taken from the environment, but cannot be written. -/
theorem large_not_written :
    ∃ settings, load { bindings := [("FORKJOIN_RUNTIME__WORKER_THREADS", "9223372036854775808")] }
        {} = .ok settings ∧ ∀ text, settings.toToml? ≠ .ok text := by
  refine ⟨⟨⟨.thread, some 9223372036854775808⟩, "info"⟩, by decide +kernel, fun text h => ?_⟩
  have hfails : toToml? ⟨⟨.thread, some 9223372036854775808⟩, "info"⟩ =
      .error Toml.outOfRange := by
    decide +kernel
  exact nomatch hfails.symm.trans h

end Settings

end FiberPrograms
