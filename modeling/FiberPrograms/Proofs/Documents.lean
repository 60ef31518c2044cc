import FiberPrograms.Proofs.SettingsLibrary

/-!
# What documents of groups say

A document of groups is a source of settings in which each group is a table. As long as its names
are plain, they are what they are in lower case, and paths of one step. No name comes up twice, so
of each setting the document says one thing at most, namely what stands there.

## Main definitions

* `Toml.IsPlainName`: names that are read alike everywhere

## Main results

* `Toml.IsPlainName.ofName_eq`, `Toml.IsPlainName.lower_eq`: plain names are read as they are
* `Setting.mentionsOf_ofGroups`: what a document of groups says of a setting
* `Settings.library_takesDocuments`: documents of groups are sources of settings
-/

namespace FiberPrograms

open Text (lower)

/-! ## Plain names -/

namespace Toml

/-- A name that can be written as it is and is read alike everywhere. -/
structure IsPlainName (name : String) : Prop where
  ne_nil : name.toList ≠ []
  isPlain : ∀ c ∈ name.toList, (c.isLower || c == '_') = true

theorem isNameChar_of_isPlain {c : Char} (h : (c.isLower || c == '_') = true) :
    SettingPath.isNameChar c = true := by
  have halpha : c.isAlpha = (c.isUpper || c.isLower) := rfl
  simp only [Bool.or_eq_true, beq_iff_eq] at h
  obtain h | rfl := h
  · simp [SettingPath.isNameChar, Char.isAlphanum, halpha, h]
  · decide

/-- Lower case leaves plain characters alone, and they can stand in keys without quotes. -/
theorem isLower_and_isBare_of_isPlain {c : Char} (h : (c.isLower || c == '_') = true) :
    Text.IsLower c ∧ isBare c = true := by
  have hall : ∀ n < 128, ((Char.ofNat n).isLower || Char.ofNat n == '_') = true →
      Text.IsLower (.ofNat n) ∧ isBare (.ofNat n) = true := by
    decide +kernel
  have hc := hall c.toNat (SettingPath.lt_of_isNameChar (isNameChar_of_isPlain h))
  rw [Char.ofNat_toNat] at hc
  exact hc h

namespace IsPlainName

variable {name : String} (h : IsPlainName name)
include h

theorem ofName_eq : SettingPath.ofName name = [.name name] := by
  have hparse := SettingPath.parse?_of_isNameChar h.ne_nil fun c hc =>
    isNameChar_of_isPlain (h.isPlain c hc)
  rw [String.ofList_toList] at hparse
  rw [SettingPath.ofName, hparse, Option.getD_some]

theorem lower_eq : lower name = name := by
  have hlower : ∀ c ∈ name.toList, Text.IsLower c := fun c hc =>
    (isLower_and_isBare_of_isPlain (h.isPlain c hc)).1
  rw [lower, Text.lowerAfter_of_isLower hlower, String.ofList_toList]

theorem isBare : name.toList.all isBare = true :=
  List.all_eq_true.mpr fun c hc => (isLower_and_isBare_of_isPlain (h.isPlain c hc)).2

end IsPlainName

theorem of_arePlain {names : List String} (h : arePlain names = true) :
    names.Nodup ∧ ∀ name ∈ names, IsPlainName name := by
  simp only [arePlain, Bool.and_eq_true, decide_eq_true_eq, List.all_eq_true] at h
  refine ⟨h.1, fun name hname => ⟨?_, ?_⟩⟩
  · simpa using (h.2 name hname).1
  · exact (h.2 name hname).2

end Toml

/-! ## Sources -/

namespace Setting

open Toml (Field Groups IsPlainName ofFields ofGroups arePlain of_arePlain)

variable (origin : String)

/-- What stands under a key is not changed by changing all that stands under keys. -/
theorem lookup_map_snd {α β : Type} (f : α → β) (key : String) (entries : List (String × α)) :
    (entries.map fun entry => (entry.1, f entry.2)).lookup key = (entries.lookup key).map f := by
  induction entries with
  | nil => rfl
  | cons entry entries ih =>
    rw [List.map_cons, List.lookup_cons, List.lookup_cons]
    cases key == entry.1 with
    | true => rfl
    | false => exact ih

theorem ofTomlEntries_eq_map (entries : List (String × Toml)) :
    ofTomlEntries origin entries = entries.map fun entry => (entry.1, ofToml origin entry.2) := by
  induction entries with
  | nil => rfl
  | cons entry entries ih => exact congrArg (_ :: ·) ih

/-- The tree of an entry. -/
def ofField (field : Field) : Setting :=
  ofToml origin field.toToml

/-- The tree of a group. -/
def ofGroup (fields : List (String × Field)) : Setting :=
  .table (some origin) (fields.map fun entry => (entry.1, ofField origin entry.2))

theorem ofTomlEntries_ofGroups (groups : Groups) :
    ofTomlEntries origin (ofGroups groups) =
      groups.map fun group => (group.1, ofGroup origin group.2) := by
  rw [ofTomlEntries_eq_map, ofGroups, List.map_map]
  refine List.map_congr_left fun group _ => ?_
  rw [Function.comp_apply, ofToml, ofTomlEntries_eq_map, ofFields, List.map_map]
  rfl

/-- What is said of a setting that is an entry. -/
def saidField : Field → Said
  | .str s => .whole (.atom (.str s))
  | .nat n => .whole (.atom (.int n))

theorem said_ofField (field : Field) : (ofField origin field).said = saidField field := by
  cases field <;> rfl

theorem map_fst_map_snd {α β : Type} (f : α → β) (entries : List (String × α)) :
    (entries.map fun entry => (entry.1, f entry.2)).map Prod.fst = entries.map Prod.fst := by
  rw [List.map_map]
  rfl

/-- Plain names are neat. -/
theorem neat_of_arePlain {entries : List (String × Setting)}
    (h : arePlain (entries.map Prod.fst) = true) : Neat entries :=
  ⟨(of_arePlain h).1, fun name hname => ((of_arePlain h).2 name hname).lower_eq⟩

/-- A document of groups is like a tree in which sources have been laid. -/
theorem laid_ofGroups {groups : Groups} (hplain : groups.plain = true) :
    Laid (.table (some origin) (ofTomlEntries origin (ofGroups groups))) := by
  obtain ⟨hnames, hfields⟩ := Bool.and_eq_true_iff.mp hplain
  rw [ofTomlEntries_ofGroups]
  refine ⟨neat_of_arePlain ?_, fun name hname => ?_, fun group _ value hlookup => ?_⟩
  · rw [entries, map_fst_map_snd]
    exact hnames
  · rw [entries, map_fst_map_snd] at hname
    exact ((of_arePlain hnames).2 name hname).ofName_eq
  · rw [entries, lookup_map_snd] at hlookup
    obtain ⟨fields, hfound, rfl⟩ := Option.map_eq_some_iff.mp hlookup
    obtain ⟨before, after, rfl, -⟩ := List.lookup_eq_some_iff.mp hfound
    refine ⟨rfl, neat_of_arePlain ?_⟩
    rw [ofGroup, entries, map_fst_map_snd]
    exact List.all_eq_true.mp hfields (group, fields) (by simp)

/-- A document of groups says of a setting what stands there. -/
theorem given_ofGroups {groups : Groups} (hplain : groups.plain = true) (key : SettingKey) :
    given (ofTomlEntries origin (ofGroups groups)) key.group key.name =
      (groups.field? key).map saidField := by
  have hfound : (at? (.table (some origin) (ofTomlEntries origin (ofGroups groups))) key.group
      key.name).map said = (groups.field? key).map saidField := by
    rw [at?, entries, ofTomlEntries_ofGroups, lookup_map_snd, Groups.field?]
    cases groups.lookup key.group with
    | none => rfl
    | some fields =>
      rw [Option.map_some, Option.bind_some, Option.bind_some, ofGroup, entries, lookup_map_snd,
        Option.map_map]
      exact Option.map_congr fun field _ => said_ofField origin field
  rw [given, ← entries.eq_1 (some origin) (ofTomlEntries origin (ofGroups groups)),
    (laid_ofGroups origin hplain).mentionsOf_eq (group_mem key), hfound]
  cases groups.field? key <;> rfl

end Setting

/-! ## Dates in disguise -/

namespace Toml

theorem datedEntries?_eq_some {entries : List (String × Toml)}
    (h : ∀ entry ∈ entries, entry.2.dated? = some entry.2) :
    datedEntries? entries = some entries := by
  induction entries with
  | nil => rfl
  | cons entry entries ih =>
    rw [datedEntries?, h entry List.mem_cons_self,
      ih fun other hother => h other (List.mem_cons_of_mem _ hother)]
    rfl

/-- No plain name is the mark of a date. -/
theorem dated?_table {entries : List (String × Toml)}
    (hnames : arePlain (entries.map Prod.fst) = true)
    (h : ∀ entry ∈ entries, entry.2.dated? = some entry.2) :
    (table entries).dated? = some (table entries) := by
  cases entries with
  | nil => rfl
  | cons entry entries =>
    have hmark : entry.1 ≠ dateMark := by
      intro heq
      have hplain := ((of_arePlain hnames).2 entry.1 List.mem_cons_self).isPlain
      exact absurd (hplain '$' (heq ▸ by decide)) (by decide)
    have hothers := datedEntries?_eq_some fun other hother =>
      h other (List.mem_cons_of_mem _ hother)
    simp [dated?, hmark, h entry List.mem_cons_self, hothers]

/-- There are no dates in groups. -/
theorem dated?_ofGroups {groups : Groups} (hplain : groups.plain = true) :
    (table (ofGroups groups)).dated? = some (table (ofGroups groups)) := by
  obtain ⟨hnames, hfields⟩ := Bool.and_eq_true_iff.mp hplain
  refine dated?_table (by rwa [ofGroups, List.map_map]) fun entry hentry => ?_
  obtain ⟨group, hgroup, rfl⟩ := List.mem_map.mp hentry
  have hnames := List.all_eq_true.mp hfields group hgroup
  refine dated?_table (by rwa [ofFields, List.map_map]) fun field hfield => ?_
  obtain ⟨⟨key, value⟩, -, rfl⟩ := List.mem_map.mp hfield
  cases value <;> rfl

end Toml

namespace Settings

open Setting

/-- The table that the text of a TOML file is. -/
def tableOf? (text : String) : Option (List (String × Toml)) :=
  Toml.parse? (FileFormat.withoutMark text)

theorem library_takesDocuments : library.TakesDocuments view search tableOf? where
  malformed {text} h origin := by
    refine ⟨.malformed, ?_⟩
    change FileFormat.toml.read origin text = _
    rw [tableOf?] at h
    simp only [FileFormat.read, h, Option.bind_none]
  document {groups} hplain {text} h origin := by
    have hlaid := laid_ofGroups origin hplain
    refine ⟨Setting.ofTomlEntries origin (Toml.ofGroups groups), ?_, orderly_of_laid hlaid,
      not_hasPosition_of_laid hlaid, fun key => ?_⟩
    · change FileFormat.toml.read origin text = _
      rw [tableOf?] at h
      simp only [FileFormat.read, h, Option.bind_some, Toml.dated?_ofGroups hplain]
    · change given _ _ _ = _
      rw [given_ofGroups origin hplain]
      exact Option.map_congr fun field _ => by cases field <;> rfl

end Settings

end FiberPrograms
