import FiberPrograms.Proofs.Overlays
import Mathlib.Data.List.Induction

/-!
# Sources one after the other

The sources are laid over one another on their own first, and only then is the tree that they make
laid over the defaults, with the overrides on top. This comes to the same as laying everything in
its order: what the tree of the sources says of a setting is the upshot of what the sources say of
it, and there is no table among the defaults that it could be merged into. So what becomes of a
setting can be told source by source.

## Main definitions

* `Said.after`, `Said.onto`: things said one after the other, and what comes of them
* `Setting.given`: what a source says of a setting, all in all
* `Setting.Orderly`: sources in which groups are tables

## Main results

* `Said.onto_foldl_lay`: laying in two goes is laying in one
* `Setting.exists_merge`: sources that have been laid can be merged with texts below and above
* `Setting.slot_merge`: what becomes of a setting, one thing said after the other
-/

namespace FiberPrograms

open Text (lower lower_lower)

/-! ## What layers give -/

namespace Said

/-- Something said after something else, in one. -/
def after (said : Said) : Option Said → Said
  | none => said
  | some earlier =>
    match said, earlier with
    | whole face, _ => whole face
    | merged names, merged others => merged (others ++ names)
    | merged names, whole face => whole ((merged names).over (some face))

/-- What comes of a setting of which a layer may say something. -/
def onto (below : Option Face) : Option Said → Option Face
  | none => below
  | some said => some (said.over below)

theorem over_merged {names : List String} (h : names ≠ []) (below : Option Face) :
    (merged names).over below =
      .table (names.foldl insertName ((below.map Face.names).getD [])) := by
  cases names with
  | nil => exact absurd rfl h
  | cons name names => rfl

/-- Saying two things in one comes to saying one after the other. -/
theorem over_after (said : Said) (earlier : Option Said) (below : Option Face) :
    (said.after earlier).over below = said.over (onto below earlier) := by
  cases earlier with
  | none => rfl
  | some earlier =>
    cases said with
    | whole face => rfl
    | merged names =>
      cases earlier with
      | whole face => rfl
      | merged others =>
        cases names with
        | nil =>
          rw [after, List.append_nil]
          rfl
        | cons name names =>
          cases others with
          | nil => cases below <;> rfl
          | cons other others =>
            rw [after, over_merged (by simp), onto, over_merged (by simp), over_merged (by simp),
              List.foldl_append]
            rfl

theorem foldl_lay (sayings : List Said) (earlier : Option Said) (below : Option Face) :
    sayings.foldl lay (onto below earlier) =
      onto below (sayings.foldl (fun earlier said => some (said.after earlier)) earlier) := by
  induction sayings generalizing earlier with
  | nil => rfl
  | cons said sayings ih =>
    rw [List.foldl_cons, List.foldl_cons, ← ih, lay, ← over_after]
    rfl

/-! ### Laying in two goes -/

theorem mem_insertName {names : List String} {name other : String} :
    other ∈ insertName names name ↔ other ∈ names ∨ other = lower name := by
  rw [insertName]
  split
  next h => exact ⟨.inl, fun hother => hother.elim id fun heq => heq ▸ h⟩
  next h => simp

theorem mem_foldl_insertName {base names : List String} {other : String} :
    other ∈ names.foldl insertName base ↔ other ∈ base ∨ ∃ name ∈ names, other = lower name := by
  induction names generalizing base with
  | nil => simp
  | cons name names ih => simp [ih, mem_insertName, or_assoc]

theorem insertName_lower (names : List String) (name : String) :
    insertName names (lower name) = insertName names name := by
  rw [insertName, insertName, lower_lower]

/-- It does not matter whether names are added to others at once, or to some of them before. -/
theorem foldl_insertName (base names more : List String) :
    (more.foldl insertName names).foldl insertName base =
      more.foldl insertName (names.foldl insertName base) := by
  induction more generalizing names with
  | nil => rfl
  | cons name more ih =>
    rw [List.foldl_cons, List.foldl_cons, ih]
    congr 1
    -- The name is only added if it is not there yet, and then it is there already.
    by_cases h : lower name ∈ names
    · have hmem : lower name ∈ names.foldl insertName base :=
        mem_foldl_insertName.mpr (.inr ⟨lower name, h, (lower_lower name).symm⟩)
      rw [insertName, if_pos h, insertName, if_pos hmem]
    · rw [insertName, if_neg h, List.foldl_append, List.foldl_cons, List.foldl_nil,
        insertName_lower]

end Said

/-- What a value that looks so says of the setting that it is laid over. -/
def Face.said : Face → Said
  | atom value => .whole (.atom value)
  | list => .whole .list
  | table names => .merged names

theorem Setting.said_eq (value : Setting) : value.said = value.face.said := by
  cases value <;> rfl

/-- What a source says at a time: no table as a whole. -/
def Said.IsPlain : Said → Prop
  | whole (.table _) => False
  | _ => True

namespace Said

/-- What is said of a setting comes to the same whether it is said of what is there, or the upshot
of it is, as long as no table is there. -/
theorem onto_lay {said : Said} (hsaid : said.IsPlain) {below : Option Face}
    (hbelow : (below.map Face.names).getD [] = []) (face : Option Face) :
    onto below ((lay face said).map Face.said) = lay (onto below (face.map Face.said)) said := by
  cases said with
  | whole whole =>
    cases whole with
    | table names => cases hsaid
    | _ => rfl
  | merged names =>
    cases names with
    | nil => cases face <;> rfl
    | cons name names =>
      have hne : (name :: names).foldl insertName ((face.map Face.names).getD []) ≠ [] :=
        List.ne_nil_of_mem (mem_foldl_insertName.mpr (.inr ⟨name, List.mem_cons_self, rfl⟩))
      have hnames : ((onto below (face.map Face.said)).map Face.names).getD [] =
          ((face.map Face.names).getD []).foldl insertName [] := by
        -- A table without names says nothing, so then what is below shows, which has none either.
        rcases face with _ | _ | _ | ⟨_ | ⟨other, others⟩⟩
        · exact hbelow
        · rfl
        · rfl
        · cases below with
          | none => rfl
          | some below => exact hbelow
        · simp [onto, Face.said, over_merged, hbelow, Face.names]
      rw [lay, lay, over_merged (List.cons_ne_nil _ _), over_merged (List.cons_ne_nil _ _), hnames,
        ← foldl_insertName, Option.map_some, Face.said, onto, over_merged hne, hbelow]

theorem onto_foldl_lay {sayings : List Said} (hsayings : ∀ said ∈ sayings, said.IsPlain)
    {below : Option Face} (hbelow : (below.map Face.names).getD [] = []) (face : Option Face) :
    onto below ((sayings.foldl lay face).map Face.said) =
      sayings.foldl lay (onto below (face.map Face.said)) := by
  induction sayings generalizing face with
  | nil => rfl
  | cons said sayings ih =>
    rw [List.foldl_cons, ih (fun said h => hsayings said (List.mem_cons_of_mem _ h)),
      onto_lay (hsayings said List.mem_cons_self) hbelow, List.foldl_cons]

theorem foldl_lay_toList (below : Option Face) (said : Option Said) :
    said.toList.foldl lay below = onto below said := by
  cases said <;> rfl

end Said

/-! ## Sources -/

namespace Setting

/-- What a source says of a setting, all in all. -/
def given (layer : List (String × Setting)) (group key : String) : Option Said :=
  (mentionsOf group key layer).foldl (fun earlier said => some (said.after earlier)) none

theorem foldl_mentionsOf (layer : List (String × Setting)) (group key : String)
    (below : Option Face) :
    (mentionsOf group key layer).foldl Said.lay below = Said.onto below (given layer group key) :=
  Said.foldl_lay _ none below

theorem isPlain_said (value : Setting) : value.said.IsPlain := by
  cases value <;> trivial

theorem isPlain_of_mem_mentionsOf {group key : String} {layer : List (String × Setting)}
    {said : Said} (h : said ∈ mentionsOf group key layer) : said.IsPlain := by
  obtain ⟨entry, -, h⟩ := List.mem_flatMap.mp h
  rw [mentionsAt] at h
  split at h
  · split at h
    · obtain ⟨⟨name, value⟩, -, hsaid⟩ := List.mem_filterMap.mp h
      obtain ⟨-, hsaid⟩ := Option.ite_none_right_eq_some.mp hsaid
      exact Option.some.inj hsaid ▸ isPlain_said value
    · cases h
  next rest _ =>
    split at h
    · obtain rfl := List.mem_singleton.mp h
      cases rest with
      | nil => exact isPlain_said entry.2
      | cons step rest => cases step <;> trivial
    · cases h
  · cases h

theorem mentionsOf_append (group key : String) (source more : List (String × Setting)) :
    mentionsOf group key (source ++ more) =
      mentionsOf group key source ++ mentionsOf group key more :=
  List.flatMap_append

theorem mentionsOf_singleton (group key : String) (entry : String × Setting) :
    mentionsOf group key [entry] = mentionsAt group key entry :=
  List.flatMap_singleton ..

/-- A source in which groups are tables, and whose names do not become paths in lower case only. -/
structure Orderly (source : List (String × Setting)) : Prop where
  keeps : ∀ entry ∈ source, ∀ group ∈ groups, keepsGroup group entry = true
  stays : ∀ entry ∈ source, StaysPath entry.1

theorem Orderly.append {source more : List (String × Setting)} (h : Orderly source)
    (h' : Orderly more) : Orderly (source ++ more) where
  keeps entry hentry := (List.mem_append.mp hentry).elim (h.keeps entry) (h'.keeps entry)
  stays entry hentry := (List.mem_append.mp hentry).elim (h.stays entry) (h'.stays entry)

theorem orderly_flatten {sources : List (List (String × Setting))}
    (h : ∀ source ∈ sources, Orderly source) : Orderly sources.flatten where
  keeps entry hentry := by
    obtain ⟨source, hsource, hentry⟩ := List.mem_flatten.mp hentry
    exact (h source hsource).keeps entry hentry
  stays entry hentry := by
    obtain ⟨source, hsource, hentry⟩ := List.mem_flatten.mp hentry
    exact (h source hsource).stays entry hentry

theorem staysPath_of_lower {name : String} (h : lower name = name) : StaysPath name := by
  intro hnone
  rw [h, hnone]

theorem orderly_of_laid {root : Setting} (h : Laid root) : Orderly root.entries where
  keeps _ hentry _ hgroup := h.keepsGroup hgroup hentry
  stays entry hentry :=
    staysPath_of_lower (h.neat.lower_eq entry.1 (List.mem_map_of_mem (f := Prod.fst) hentry))

/-- Some name in a source is a path with a position in a list. -/
def HasPosition (source : List (String × Setting)) : Prop :=
  ∃ entry ∈ source, ∃ n, .index n ∈ SettingPath.ofName entry.1

/-! ### Texts at paths -/

open Settings (atPaths)

/-- The path to a setting leads into its group, to its key. -/
theorem ofName_path (key : SettingKey) :
    SettingPath.ofName key.path = [.name key.group, .name key.name] := by
  cases key <;> decide +kernel

theorem lower_path (key : SettingKey) : lower key.path = key.path := by
  cases key <;> decide +kernel

theorem group_mem (key : SettingKey) : key.group ∈ groups := by
  cases key <;> decide

theorem lower_group (key : SettingKey) : lower key.group = key.group := by
  cases key <;> exact lower_known _ (by decide)

theorem lower_name (key : SettingKey) : lower key.name = key.name := by
  cases key <;> exact lower_known _ (by decide)

/-- A text at the path of a setting says of that setting, and of no other, that it is the text. -/
theorem mentionsAt_path (key other : SettingKey) (origin : Option String) (text : String) :
    mentionsAt other.group other.name (key.path, .atom origin (.str text)) =
      if other = key then [.whole (.atom (.str text))] else [] := by
  simp only [mentionsAt, ofName_path, lower_group, lower_name]
  cases key <;> cases other <;> rfl

variable {texts more : List (SettingKey × String)} {sources : List (List (String × Setting))}

theorem exists_of_mem_ofTexts {entry : String × Setting} (h : entry ∈ ofTexts (atPaths texts)) :
    ∃ (key : SettingKey) (text : String), entry = (key.path, .atom none (.str text)) := by
  rw [ofTexts, atPaths, List.map_map] at h
  obtain ⟨⟨key, text⟩, -, rfl⟩ := List.mem_map.mp h
  exact ⟨key, text, rfl⟩

theorem orderly_ofTexts (texts : List (SettingKey × String)) :
    Orderly (ofTexts (atPaths texts)) where
  keeps entry hentry group _ := by
    obtain ⟨key, text, rfl⟩ := exists_of_mem_ofTexts hentry
    simp [keepsGroup, ofName_path]
  stays entry hentry := by
    obtain ⟨key, text, rfl⟩ := exists_of_mem_ofTexts hentry
    exact staysPath_of_lower (lower_path key)

theorem not_hasPosition_ofTexts (texts : List (SettingKey × String)) :
    ¬HasPosition (ofTexts (atPaths texts)) := by
  rintro ⟨entry, hentry, n, hn⟩
  obtain ⟨key, text, rfl⟩ := exists_of_mem_ofTexts hentry
  simp [ofName_path] at hn

/-- One more text says one more thing of one setting. -/
theorem mentionsOf_ofTexts_append (texts : List (SettingKey × String)) (key : SettingKey)
    (text : String) (other : SettingKey) :
    mentionsOf other.group other.name (ofTexts (atPaths (texts ++ [(key, text)]))) =
      mentionsOf other.group other.name (ofTexts (atPaths texts)) ++
        if other = key then [.whole (.atom (.str text))] else [] := by
  have hlast : ofTexts (atPaths (texts ++ [(key, text)])) =
      ofTexts (atPaths texts) ++ [(key.path, .atom none (.str text))] := by
    simp [ofTexts, atPaths]
  rw [hlast, mentionsOf_append, mentionsOf_singleton, mentionsAt_path]

/-- There is no table among texts. -/
theorem names_foldl_texts (texts : List (SettingKey × String)) (key : SettingKey) :
    (((mentionsOf key.group key.name (ofTexts (atPaths texts))).foldl Said.lay none).map
      Face.names).getD [] = [] := by
  induction texts using List.reverseRecOn with
  | nil => rfl
  | append_singleton texts entry ih =>
    rw [mentionsOf_ofTexts_append, List.foldl_append]
    split
    · rfl
    · exact ih

/-! ### Merging -/

theorem exists_overlay_of_not_hasPosition {source : List (String × Setting)}
    (h : ¬HasPosition source) (root : Setting) : ∃ root', overlay source root = .ok root' :=
  exists_overlay (fun entry hentry n hn => h ⟨entry, hentry, n, hn⟩) root

theorem not_hasPosition_append {source other : List (String × Setting)} (h : ¬HasPosition source)
    (h' : ¬HasPosition other) : ¬HasPosition (source ++ other) := by
  rintro ⟨entry, hentry, hposition⟩
  obtain hentry | hentry := List.mem_append.mp hentry
  · exact h ⟨entry, hentry, hposition⟩
  · exact h' ⟨entry, hentry, hposition⟩

theorem not_hasPosition_of_laid {root : Setting} (h : Laid root) : ¬HasPosition root.entries := by
  rintro ⟨entry, hentry, n, hn⟩
  rw [h.path entry.1 (List.mem_map_of_mem (f := Prod.fst) hentry)] at hn
  simp at hn

/-- Merging goes through three trees. -/
theorem merge_eq_ok_iff {root : Setting} :
    merge (atPaths texts) sources (atPaths more) = .ok root ↔
      ∃ below between, overlay (ofTexts (atPaths texts)) .empty = .ok below ∧
        overlay sources.flatten .empty = .ok between ∧
        overlay (between.entries ++ ofTexts (atPaths more)) below = .ok root := by
  simp only [merge, bind, Except.bind]
  cases overlay (ofTexts (atPaths texts)) .empty with
  | error fault => simp
  | ok below => cases overlay sources.flatten .empty <;> simp

/-- Sources that have been laid over nothing can be merged with texts below and above them. -/
theorem exists_merge {between : Setting} (horderly : ∀ source ∈ sources, Orderly source)
    (h : overlay sources.flatten .empty = .ok between) (texts more : List (SettingKey × String)) :
    ∃ root, merge (atPaths texts) sources (atPaths more) = .ok root := by
  have hflat := orderly_flatten horderly
  have hlaid := Laid.empty.overlay hflat.keeps hflat.stays h
  obtain ⟨below, hbelow⟩ := exists_overlay_of_not_hasPosition (not_hasPosition_ofTexts texts) .empty
  obtain ⟨root, hroot⟩ := exists_overlay_of_not_hasPosition
    (not_hasPosition_append (not_hasPosition_of_laid hlaid) (not_hasPosition_ofTexts more)) below
  exact ⟨root, merge_eq_ok_iff.mpr ⟨below, between, hbelow, h, hroot⟩⟩

variable {root : Setting} (horderly : ∀ source ∈ sources, Orderly source)
  (h : merge (atPaths texts) sources (atPaths more) = .ok root)
include horderly h

/-- In what comes of merging, groups are tables. -/
theorem laid_merge : Laid root := by
  obtain ⟨below, between, hbelow, hbetween, habove⟩ := merge_eq_ok_iff.mp h
  have hflat := orderly_flatten horderly
  have hlaid := Laid.empty.overlay hflat.keeps hflat.stays hbetween
  have htexts := orderly_ofTexts texts
  have hall := (orderly_of_laid hlaid).append (orderly_ofTexts more)
  exact (Laid.empty.overlay htexts.keeps htexts.stays hbelow).overlay hall.keeps hall.stays habove

/-- **What becomes of a setting.** Sources and texts are laid over one another in two goes, and what
comes of a setting depends on what is said of it, one thing after the other. -/
theorem slot_merge (key : SettingKey) : root.slot key.group key.name =
    (mentionsOf key.group key.name (ofTexts (atPaths more))).foldl Said.lay
      ((mentionsOf key.group key.name sources.flatten).foldl Said.lay
        ((mentionsOf key.group key.name (ofTexts (atPaths texts))).foldl Said.lay none)) := by
  obtain ⟨below, between, hbelow, hbetween, habove⟩ := merge_eq_ok_iff.mp h
  have hgroup := group_mem key
  have hflat := orderly_flatten horderly
  have hlaid := Laid.empty.overlay hflat.keeps hflat.stays hbetween
  have hempty : Setting.empty.slot key.group key.name = none := rfl
  have hslot := slot_of_overlay (fun entry h => hflat.keeps entry h _ hgroup) hbetween key.name
  have htexts := slot_of_overlay
    (fun entry h => (orderly_ofTexts texts).keeps entry h _ hgroup) hbelow key.name
  have hkeeps : ∀ entry ∈ between.entries ++ ofTexts (atPaths more),
      keepsGroup key.group entry = true := fun entry hentry =>
    ((orderly_of_laid hlaid).append (orderly_ofTexts more)).keeps entry hentry _ hgroup
  have hplain : ∀ said ∈ mentionsOf key.group key.name sources.flatten, said.IsPlain := fun _ =>
    isPlain_of_mem_mentionsOf
  -- What the tree of the sources says is the upshot of what the sources say.
  have hsaid : (between.at? key.group key.name).map said =
      ((mentionsOf key.group key.name sources.flatten).foldl Said.lay none).map Face.said := by
    rw [← hempty, ← hslot, slot, Option.map_map]
    exact Option.map_congr fun value _ => said_eq value
  rw [slot_of_overlay hkeeps habove, mentionsOf_append, List.foldl_append,
    hlaid.mentionsOf_eq hgroup, Said.foldl_lay_toList, hsaid, htexts, hempty,
    Said.onto_foldl_lay hplain (names_foldl_texts texts key), Option.map_none, Said.onto]

end Setting

end FiberPrograms
