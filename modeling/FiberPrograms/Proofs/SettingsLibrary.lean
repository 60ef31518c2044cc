import FiberPrograms.Proofs.Layering
import FiberPrograms.Proofs.Libraries

/-!
# The library of settings

The library does what is expected of it when settings are loaded. A file is found under the very
name that is asked for, or with an ending besides. What is merged is told setting by setting, and
what is read of a setting depends on no more than what is seen of it.

## Main definitions

* `Settings.view`, `Settings.search`: what is seen of layers and of files

## Main results

* `Settings.library_findsFiles`: files are found by their names
* `Settings.library_merges`: layers are merged one by one and setting by setting
* `Settings.library_readsSettings`, `Settings.library_readsFields`: settings are read one by one
-/

namespace FiberPrograms

/-! ## Reading -/

/-- A value that looks so. -/
def Face.setting : Face → Setting
  | atom value => .atom none value
  | list => .list none []
  | table names => .table none (names.map fun name => (name, .empty))

namespace Setting

/-- What is read of a value depends on what is seen of it. -/
def Reads {α : Type} (reader : Setting → Except SettingsError α) : Prop :=
  ∀ value : Setting, (reader value).toOption = (reader value.face.setting).toOption

theorem reads_spawner : Reads spawner? := by
  rintro (⟨_, value⟩ | _ | ⟨_, _ | ⟨_, _ | _⟩⟩)
  · cases value <;> rfl
  all_goals rfl

theorem reads_workers (key : String) : Reads (workers? key) := by
  rintro (⟨_, value⟩ | _ | _)
  · cases value with
    | int n => simp only [workers?, face, Face.setting]; split <;> rfl
    | str s => simp only [workers?, face, Face.setting]; split <;> rfl
    | _ => rfl
  all_goals rfl

theorem reads_text (key : String) : Reads (text? key) := by
  rintro (⟨_, value⟩ | _ | _)
  · cases value <;> rfl
  all_goals rfl

/-- Read a setting that may be missing. -/
def readAt {α : Type} (reader : Setting → Except SettingsError α) (default : α)
    (value : Option Setting) : Except SettingsError α :=
  (value.map reader).getD (.ok default)

/-- What is read of the runtime. -/
def runtimeAt (spawner workers : Option Setting) : Except SettingsError RuntimeSettings := do
  let spawner ← readAt spawner? SpawnerKind.thread spawner
  let workers ← readAt (workers? "runtime.worker_threads") none workers
  return ⟨spawner, workers⟩

/-- The groups of settings are read setting by setting. -/
theorem Laid.settings?_eq {root : Setting} (h : Laid root) :
    root.settings? =
      (runtimeAt (root.at? "runtime" "spawner") (root.at? "runtime" "worker_threads")).bind
        fun runtime => (readAt (text? "log.filter") "info" (root.at? "log" "filter")).bind
          fun filter => .ok ⟨runtime, filter⟩ := by
  have hruntime : ((root.entries.lookup "runtime").map runtime?).getD (.ok {}) =
      runtimeAt (root.at? "runtime" "spawner") (root.at? "runtime" "worker_threads") := by
    rw [at?, at?]
    cases hlookup : root.entries.lookup "runtime" with
    | none => rfl
    | some value =>
      have htable := (h.group "runtime" (by decide) value hlookup).1
      cases value with
      | table origin entries => rfl
      | _ => cases htable
  have hfilter : ((root.entries.lookup "log").map filter?).getD (.ok "info") =
      readAt (text? "log.filter") "info" (root.at? "log" "filter") := by
    rw [at?]
    cases hlookup : root.entries.lookup "log" with
    | none => rfl
    | some value =>
      have htable := (h.group "log" (by decide) value hlookup).1
      cases value with
      | table origin entries => rfl
      | _ => cases htable
  rw [← hruntime, ← hfilter]
  rfl

end Setting

namespace Settings

open Setting

/-! ## What is seen -/

/-- What is seen of the layers of the library, and of trees. -/
abbrev view : library.View where
  Value := Face
  Said := Said
  whole := .whole
  lay := Said.over
  tells layer key := given layer key.group key.name
  holds tree key := tree.slot key.group key.name
  text s := .atom (.str s)
  number n := .atom (.int n)
  spawner? face := (spawner? face.setting).toOption
  workers? face := (workers? "runtime.worker_threads" face.setting).toOption
  filter? face := (text? "log.filter" face.setting).toOption
  Orderly := Orderly
  HasPosition := HasPosition
  Grouped := Laid

/-- What is seen of files. -/
abbrev search : library.Search where
  File := FileFormat × String × String
  endings := FileFormat.all.map FileFormat.ending
  find? surroundings path := (surroundings.locate path).toOption
  read file := file.1.read file.2.1 file.2.2
  document ending origin text :=
    match FileFormat.ofEnding? ending with
    | some format => format.read origin text
    | none => .error .malformed

/-! ## Reading trees -/

/-- What is read of a setting that may be missing is what is read of its face. -/
theorem toOption_readAt {α : Type} {reader : Setting → Except SettingsError α}
    (h : Reads reader) (default : α) (value : Option Setting) :
    (readAt reader default value).toOption =
      view.readOr (fun face => (reader face.setting).toOption) default (value.map face) := by
  cases value with
  | none => rfl
  | some value => exact h value

theorem toOption_eq_some_iff {ε α : Type} {result : Except ε α} {a : α} :
    result.toOption = some a ↔ result = .ok a := by
  cases result <;> simp [Except.toOption]

theorem exists_of_toOption_eq_none {ε α : Type} {result : Except ε α}
    (h : result.toOption = none) : ∃ error, result = .error error := by
  cases result with
  | ok a => cases h
  | error error => exact ⟨error, rfl⟩

theorem exists_of_bind_eq_ok {ε α β : Type} {result : Except ε α} {f : α → Except ε β} {b : β}
    (h : (result >>= f) = .ok b) : ∃ a, result = .ok a ∧ f a = .ok b := by
  cases result with
  | ok a => exact ⟨a, rfl, h⟩
  | error error => cases h

theorem library_readsSettings : library.ReadsSettings view where
  read_eq_ok_iff {tree} hgrouped settings := by
    obtain ⟨⟨spawner, workers⟩, filter⟩ := settings
    have hread : library.read tree = .ok ⟨⟨spawner, workers⟩, filter⟩ ↔
        readAt spawner? .thread (tree.at? "runtime" "spawner") = .ok spawner ∧
          readAt (workers? "runtime.worker_threads") none (tree.at? "runtime" "worker_threads") =
            .ok workers ∧
          readAt (text? "log.filter") "info" (tree.at? "log" "filter") = .ok filter := by
      rw [show library.read tree = tree.settings? from rfl, hgrouped.settings?_eq, runtimeAt]
      cases readAt spawner? SpawnerKind.thread (tree.at? "runtime" "spawner") <;>
        cases readAt (workers? "runtime.worker_threads") none
          (tree.at? "runtime" "worker_threads") <;>
        cases readAt (text? "log.filter") "info" (tree.at? "log" "filter") <;>
        simp [bind, Except.bind, pure, Except.pure, and_assoc]
    rw [hread, ← toOption_eq_some_iff, ← toOption_eq_some_iff, ← toOption_eq_some_iff,
      toOption_readAt reads_spawner, toOption_readAt (reads_workers _),
      toOption_readAt (reads_text _)]
    constructor
    · rintro ⟨hspawner, hworkers, hfilter⟩
      exact ⟨hspawner, hworkers, hfilter⟩
    · rintro ⟨hspawner, hworkers, hfilter⟩
      exact ⟨hspawner, hworkers, hfilter⟩

theorem ofInt?_toNat (n : UInt64) : UInt64.ofInt? n.toNat = some n := by
  have hbound := n.toNat_lt
  have hsize : UInt64.size = 2 ^ 64 := rfl
  rw [UInt64.ofInt?, if_pos ⟨by omega, by omega⟩, Int.toNat_natCast, UInt64.ofNat_toNat]

theorem workers?_int (key : String) (n : UInt64) :
    workers? key (.atom none (.int n.toNat)) = .ok (some n) := by
  rw [workers?, ofInt?_toNat]

theorem library_readsFields : library.ReadsFields view where
  spawner kind := by cases kind <;> decide +kernel
  workers n := by
    dsimp only [Face.setting]
    rw [workers?_int]
    rfl
  filter _ := rfl

/-! ## Merging -/

/-- One more text takes the place of whatever there is. -/
theorem foldl_lay_ofTexts_append (texts : List (SettingKey × String)) (key : SettingKey)
    (text : String) (other : SettingKey) (below : Option Face) :
    (mentionsOf other.group other.name (ofTexts (atPaths (texts ++ [(key, text)])))).foldl Said.lay
        below =
      if other = key then some (.atom (.str text))
      else (mentionsOf other.group other.name (ofTexts (atPaths texts))).foldl Said.lay below := by
  rw [mentionsOf_ofTexts_append, List.foldl_append]
  split <;> rfl

theorem orderly_of_mem_nil : ∀ layer ∈ ([] : List (List (String × Setting))), Orderly layer :=
  fun _ h => absurd h List.not_mem_nil

theorem library_merges : library.Merges view where
  lay_whole _ _ := rfl
  nothing h key := @slot_merge [] [] [] _ orderly_of_mem_nil h key
  default {texts key text tree} h := by
    obtain ⟨below, hbelow⟩ := @exists_merge [] _ orderly_of_mem_nil rfl texts []
    refine ⟨below, hbelow, fun other => ?_⟩
    have htree := @slot_merge _ [] _ _ orderly_of_mem_nil h other
    have hholds := @slot_merge _ [] _ _ orderly_of_mem_nil hbelow other
    exact htree.trans ((foldl_lay_ofTexts_append texts key text other none).trans (hholds ▸ rfl))
  source {texts layers layer tree} horderly h := by
    have hearlier : ∀ earlier ∈ layers, Orderly earlier := fun earlier hearlier =>
      horderly earlier (List.mem_append_left _ hearlier)
    obtain ⟨-, between, -, hbetween, -⟩ := (@merge_eq_ok_iff _ [] _ _).mp h
    -- What has been laid has been laid up to the last source, too.
    obtain ⟨before, hbefore⟩ : ∃ before, overlay layers.flatten .empty = .ok before := by
      rw [List.flatten_append, overlay, List.foldlM_append] at hbetween
      exact (exists_of_bind_eq_ok hbetween).imp fun _ => And.left
    obtain ⟨below, hbelow⟩ := exists_merge hearlier hbefore texts []
    refine ⟨below, hbelow, fun key => ?_⟩
    have htree := @slot_merge _ [] _ _ horderly h key
    have hholds := @slot_merge _ [] _ _ hearlier hbelow key
    rw [List.flatten_append, List.flatten_singleton, mentionsOf_append, List.foldl_append] at htree
    have honto : view.onto (below.slot key.group key.name) (given layer key.group key.name) =
        Said.onto (below.slot key.group key.name) (given layer key.group key.name) := by
      cases given layer key.group key.name <;> rfl
    exact (htree.trans (foldl_mentionsOf layer key.group key.name _)).trans
      ((congrArg (Said.onto · _) hholds.symm).trans honto.symm)
  override {texts more layers key text tree} horderly h := by
    obtain ⟨-, between, -, hbetween, -⟩ := merge_eq_ok_iff.mp h
    obtain ⟨below, hbelow⟩ := exists_merge horderly hbetween texts more
    refine ⟨below, hbelow, fun other => ?_⟩
    have htree := slot_merge horderly h other
    have hholds := slot_merge horderly hbelow other
    exact htree.trans ((foldl_lay_ofTexts_append more key text other _).trans (hholds ▸ rfl))
  grouped horderly h := laid_merge horderly h
  fault {texts more layers fault} horderly h := by
    by_contra hnone
    have hflat : ¬HasPosition layers.flatten := by
      rintro ⟨entry, hentry, hposition⟩
      obtain ⟨layer, hlayer, hentry⟩ := List.mem_flatten.mp hentry
      exact hnone ⟨layer, hlayer, entry, hentry, hposition⟩
    obtain ⟨between, hbetween⟩ := exists_overlay_of_not_hasPosition hflat .empty
    obtain ⟨root, hroot⟩ := exists_merge horderly hbetween texts more
    cases h.symm.trans hroot

/-! ## Files -/

theorem ofEnding?_ending (format : FileFormat) :
    FileFormat.ofEnding? format.ending = some format := by
  cases format <;> decide

theorem exists_ending_eq {ending : String} (h : ending ∈ search.endings) :
    ∃ format : FileFormat, format.ending = ending :=
  List.exists_of_mem_map h |>.imp fun _ => And.right

theorem ending_mem (format : FileFormat) : format.ending ∈ search.endings :=
  List.mem_map_of_mem (by cases format <;> decide)

/-- If the file of one format is there and those of the others are not, it is found. -/
theorem findSome?_all {α : Type} {found : FileFormat → Option α} {format : FileFormat} {a : α}
    (h : found format = some a) (hothers : ∀ other, other ≠ format → found other = none) :
    FileFormat.all.findSome? found = some a := by
  cases format with
  | toml => simp [FileFormat.all, h]
  | json => simp [FileFormat.all, List.findSome?, h, hothers .toml (by decide)]

/-- A path leads to a file just as it does for the library. -/
theorem locate_of_leads {surroundings : Surroundings} {path ending text : String}
    (h : search.Leads surroundings path ending text) :
    ∃ (format : FileFormat) (origin : String), format.ending = ending ∧
      surroundings.locate path = .ok (format, origin, text) := by
  cases h with
  | itself hfile hending hknown =>
    obtain ⟨format, rfl⟩ := exists_ending_eq hknown
    refine ⟨format, Surroundings.plainPath path, rfl, ?_⟩
    simp only [Surroundings.locate, hfile, hending, Option.bind_some, ofEnding?_ending]
  | ended hfree hnamed hfile hknown hothers =>
    obtain ⟨format, rfl⟩ := exists_ending_eq hknown
    refine ⟨format, Surroundings.endedPath path format.ending, rfl, ?_⟩
    have hfound : FileFormat.all.findSome? (fun format => (surroundings.file?
        (Surroundings.endedPath path format.ending)).map fun text =>
          (format, Surroundings.endedPath path format.ending, text)) =
        some (format, Surroundings.endedPath path format.ending, text) := by
      refine findSome?_all (by rw [hfile, Option.map_some]) fun other hother => ?_
      have hending : other.ending ≠ format.ending := fun heq =>
        hother (Option.some.inj (by rw [← ofEnding?_ending, heq, ofEnding?_ending]))
      rw [hothers _ (ending_mem other) hending, Option.map_none]
    simp only [Surroundings.locate, hfree, hnamed, hfound, Bool.not_true, Bool.false_eq_true,
      if_false]

theorem locate_of_leadsNowhere {surroundings : Surroundings} {path : String}
    (h : search.LeadsNowhere surroundings path) : (surroundings.locate path).toOption = none := by
  cases h with
  | unknown hfile hending =>
    have hnone : ((pathSteps path).getLast?.bind endingOf).bind FileFormat.ofEnding? = none := by
      refine Option.eq_none_iff_forall_ne_some.mpr fun format hformat => ?_
      obtain ⟨ending, hlast, hformat⟩ := Option.bind_eq_some_iff.mp hformat
      have hknown := List.find?_some hformat
      exact hending _ (ending_mem format) (eq_of_beq hknown ▸ hlast)
    simp only [Surroundings.locate, hfile, hnone]
    rfl
  | free hfree hothers =>
    have hended : ∀ format : FileFormat,
        surroundings.file? (Surroundings.endedPath path format.ending) = none := fun format =>
      hothers _ (ending_mem format)
    simp only [Surroundings.locate, hfree, FileFormat.all, List.findSome?, hended, Option.map_none]
    split <;> rfl

theorem library_findsFiles : library.FindsFiles view search where
  leads h := by
    obtain ⟨format, origin, rfl, hlocate⟩ := locate_of_leads h
    refine ⟨(format, origin, _), origin, toOption_eq_some_iff.mpr hlocate, ?_⟩
    simp only [ofEnding?_ending]
  nowhere h := locate_of_leadsNowhere h
  found {surroundings path file} h required := by
    obtain ⟨format, origin, text⟩ := file
    simp only [toOption_eq_some_iff.mp h]
  missing h := by
    obtain ⟨error, hlocate⟩ := exists_of_toOption_eq_none h
    exact ⟨error, by simp [hlocate]⟩
  spared h := by
    obtain ⟨error, hlocate⟩ := exists_of_toOption_eq_none h
    exact ⟨[], by simp [hlocate], fun key => rfl⟩

end Settings

end FiberPrograms
