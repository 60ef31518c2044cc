import FiberPrograms.Proofs.LowerCase
import FiberPrograms.Settings.Load
import Mathlib.Data.List.TakeWhile

/-!
# Layers laid over one another

Laying a source over a tree changes what stands under each name on its own. A value that is no
table takes the place of what was there, and of a table only the names go there, next to those
that were there already. So it is enough to know what a source says of a setting, one mention
after the other, to know what becomes of the setting.

## Main definitions

* `Face`: what a value looks like from outside
* `Said`, `Said.over`: what is said of a setting, and what comes of it
* `Setting.mentions`, `Setting.mentionsOf`: all that a source says of a setting
* `Setting.at?`, `Setting.slot`: a setting in its group, and what is seen of it
* `Setting.Neat`, `Setting.Laid`: trees that sources have been laid over

## Main results

* `Setting.slot_of_overlay`: what a source leaves of a setting
* `Setting.Laid.overlay`: the names in a tree stay in lower case, and no name comes up twice
-/

namespace FiberPrograms

open Text (lower lower_lower)

/-- The names that the settings stand under are in lower case. -/
theorem lower_known : ∀ name ∈ ["runtime", "log", "spawner", "worker_threads", "filter"],
    lower name = name := by
  decide +kernel

/-! ## Names of settings -/

namespace SettingPath

/-- A text of characters that stand in names is a path of one step. -/
theorem parse?_of_isNameChar {cs : List Char} (hne : cs ≠ [])
    (hcs : ∀ c ∈ cs, isNameChar c = true) :
    parse? (String.ofList cs) = some [.name (String.ofList cs)] := by
  have htake : cs.takeWhile isNameChar = cs := List.takeWhile_eq_self_iff.mpr hcs
  have hdrop : cs.dropWhile isNameChar = [] := List.dropWhile_eq_nil_iff.mpr hcs
  have hname : name? cs = some (.name (String.ofList cs), []) := by
    rw [name?, hdrop, htake]
    cases cs with
    | nil => exact absurd rfl hne
    | cons c cs => rfl
  rw [parse?, String.toList_ofList, hname]
  rfl

theorem exists_of_name?_eq_some {cs rest : List Char} {step : SettingStep}
    (h : name? cs = some (step, rest)) :
    ∃ name, name ≠ [] ∧ (∀ c ∈ name, isNameChar c = true) ∧ step = .name (String.ofList name) := by
  rw [name?] at h
  split at h
  · cases h
  next hne =>
    obtain ⟨rfl, -⟩ := Prod.mk.inj (Option.some.inj h)
    exact ⟨_, hne, fun c hc => List.all_eq_true.mp List.all_takeWhile c hc, rfl⟩

/-- A path begins with a name: a part of the text, or all of it if the text has not the form of a
path. -/
theorem ofName_cases (name : String) :
    (parse? name = none ∧ ofName name = [.name name]) ∨
      ∃ cs rest, cs ≠ [] ∧ (∀ c ∈ cs, isNameChar c = true) ∧
        ofName name = .name (String.ofList cs) :: rest := by
  rw [ofName]
  cases hparse : parse? name with
  | none => exact .inl ⟨rfl, rfl⟩
  | some path =>
    right
    obtain ⟨⟨step, behind⟩, hfirst, hrest⟩ := Option.bind_eq_some_iff.mp hparse
    obtain ⟨rest, -, hpath⟩ := Option.bind_eq_some_iff.mp hrest
    obtain ⟨cs, hne, hcs, rfl⟩ := exists_of_name?_eq_some hfirst
    exact ⟨cs, rest, hne, hcs, (Option.some.inj hpath).symm⟩

theorem exists_ofName_eq (name : String) :
    ∃ first rest, ofName name = .name first :: rest := by
  obtain ⟨-, hname⟩ | ⟨cs, rest, -, -, hname⟩ := ofName_cases name
  · exact ⟨_, _, hname⟩
  · exact ⟨_, _, hname⟩

theorem lt_of_isNameChar {c : Char} (hc : isNameChar c = true) : c.toNat < 128 := by
  have hupper (h : c.isUpper = true) : c.toNat ≤ 'Z'.toNat :=
    UInt32.le_iff_toNat_le.mp (of_decide_eq_true h).2
  have hlower (h : c.isLower = true) : c.toNat ≤ 'z'.toNat :=
    UInt32.le_iff_toNat_le.mp (of_decide_eq_true (Bool.and_eq_true_iff.mp h).2)
  have hdigit (h : c.isDigit = true) : c.toNat ≤ '9'.toNat :=
    UInt32.le_iff_toNat_le.mp (of_decide_eq_true (Bool.and_eq_true_iff.mp h).2)
  have hlast : 'Z'.toNat < 128 ∧ 'z'.toNat < 128 ∧ '9'.toNat < 128 := by decide
  have halpha : c.isAlpha = (c.isUpper || c.isLower) := rfl
  simp only [isNameChar, Char.isAlphanum, halpha, Bool.or_eq_true, beq_iff_eq] at hc
  obtain ((((h | h) | h) | rfl) | rfl) | rfl := hc
  · exact (hupper h).trans_lt hlast.1
  · exact (hlower h).trans_lt hlast.2.1
  · exact (hdigit h).trans_lt hlast.2.2
  · decide
  · decide
  · decide

/-- The lower case of a character that stands in names stands in names. -/
theorem lowerChar_of_isNameChar {c : Char} (hc : isNameChar c = true) :
    Text.lowerChar c ≠ [] ∧ ∀ d ∈ Text.lowerChar c, isNameChar d = true := by
  have hall : ∀ n < 128, isNameChar (.ofNat n) = true →
      Text.lowerChar (.ofNat n) ≠ [] ∧ (Text.lowerChar (.ofNat n)).all isNameChar = true := by
    decide +kernel
  have h := hall c.toNat (lt_of_isNameChar hc)
  rw [Char.ofNat_toNat, List.all_eq_true] at h
  exact h hc

/-- The lower case of a name of such characters is one, too. -/
theorem lower_of_isNameChar {cs : List Char} (hne : cs ≠ [])
    (hcs : ∀ c ∈ cs, isNameChar c = true) :
    ∃ ds, ds ≠ [] ∧ (∀ d ∈ ds, isNameChar d = true) ∧
      lower (String.ofList cs) = String.ofList ds := by
  have hsigma : ∀ c ∈ cs, c ≠ 'Σ' := by
    rintro c hc rfl
    exact absurd (hcs _ hc) (by decide)
  -- No sigma stands in a name, so each character has its lower case wherever it stands.
  have hnames : ∀ before, ∀ d ∈ Text.lowerAfter before cs, isNameChar d = true := by
    clear hne
    induction cs with
    | nil => exact fun _ _ hd => absurd hd List.not_mem_nil
    | cons c cs ih =>
      intro before d hd
      have hc := lowerChar_of_isNameChar (hcs c List.mem_cons_self)
      simp only [Text.lowerAfter, beq_iff_eq, hsigma c List.mem_cons_self, if_false] at hd
      obtain hd | hd := List.mem_append.mp hd
      · exact hc.2 d hd
      · exact ih (fun e he => hcs e (List.mem_cons_of_mem c he))
          (fun e he => hsigma e (List.mem_cons_of_mem c he)) _ d hd
  refine ⟨Text.lowerAfter [] cs, ?_, hnames [], by rw [lower, String.toList_ofList]⟩
  cases cs with
  | nil => exact absurd rfl hne
  | cons c cs =>
    have hc := lowerChar_of_isNameChar (hcs c List.mem_cons_self)
    simp [Text.lowerAfter, hsigma c List.mem_cons_self, hc.1]

/-- A name is a path of one step when it is in lower case, unless it only becomes a path so. -/
theorem ofName_lower {name first : String} {rest : SettingPath}
    (h : ofName name = .name first :: rest)
    (hstays : parse? name = none → parse? (lower name) = none) :
    ofName (lower first) = [.name (lower first)] := by
  obtain ⟨hnone, hname⟩ | ⟨cs, rest', hne, hcs, hname⟩ := ofName_cases name
  · obtain ⟨hfirst, -⟩ := List.cons.inj (hname.symm.trans h)
    obtain rfl := SettingStep.name.inj hfirst
    rw [ofName, hstays hnone]
    rfl
  · obtain ⟨hfirst, -⟩ := List.cons.inj (hname.symm.trans h)
    obtain rfl := SettingStep.name.inj hfirst
    obtain ⟨ds, hne', hds, hlower⟩ := lower_of_isNameChar hne hcs
    rw [hlower, ofName, parse?_of_isNameChar hne' hds]
    rfl

end SettingPath

/-! ## What is said of a setting -/

/-- What a value looks like from outside; of a table the names are seen. -/
inductive Face where
  | atom (value : Atom)
  | list
  | table (names : List String)
deriving DecidableEq, Repr

/-- The names in a table; anything else has none. -/
def Face.names : Face → List String
  | table names => names
  | _ => []

/-- Names and one more, in lower case, unless that is among them. -/
def insertName (names : List String) (name : String) : List String :=
  if lower name ∈ names then names else names ++ [lower name]

/-- What is said of a setting: what it is as a whole, or which names it has besides others. -/
inductive Said where
  | whole (face : Face)
  | merged (names : List String)
deriving DecidableEq, Repr

/-- What comes of a setting of which something is said. A table without names leaves what is
there. -/
def Said.over (said : Said) (below : Option Face) : Face :=
  match said with
  | whole face => face
  | merged [] => below.getD (.table [])
  | merged names => .table (names.foldl insertName ((below.map Face.names).getD []))

/-- What comes of a setting when one more thing is said of it. -/
def Said.lay (below : Option Face) (said : Said) : Option Face :=
  some (said.over below)

namespace Setting

/-- Whether a value is a table. -/
def isTable : Setting → Bool
  | table _ _ => true
  | _ => false

/-- What a value looks like from outside. -/
def face : Setting → Face
  | atom _ value => .atom value
  | list _ _ => .list
  | table _ entries => .table (entries.map Prod.fst)

/-- What a value says of the setting that it is laid over. -/
def said : Setting → Said
  | atom _ value => .whole (.atom value)
  | list _ _ => .whole .list
  | table _ entries => .merged (entries.map Prod.fst)

theorem names_face (value : Setting) : value.face.names = value.entries.map Prod.fst := by
  cases value <;> rfl

/-! ## Under one name -/

section Names

variable {entries : List (String × Setting)}

@[simp]
theorem entries_withEntries (root : Setting) (entries : List (String × Setting)) :
    (root.withEntries entries).entries = entries := by
  cases root <;> rfl

theorem face_withEntries (root : Setting) (entries : List (String × Setting)) :
    (root.withEntries entries).face = .table (entries.map Prod.fst) := by
  cases root <;> rfl

theorem isTable_withEntries (root : Setting) (entries : List (String × Setting)) :
    (root.withEntries entries).isTable = true := by
  cases root <;> rfl

theorem lookup_cons_eq (name key : String) (value : Setting) :
    ((name, value) :: entries).lookup key =
      if key = name then some value else entries.lookup key := by
  rw [List.lookup_cons]
  by_cases h : key = name
  · simp [h]
  · simp [h, beq_false_of_ne h]

theorem lookup_replace (name key : String) (value : Setting) :
    (replace name value entries).lookup key =
      if key = name then some value else entries.lookup key := by
  induction entries with
  | nil => exact lookup_cons_eq name key value
  | cons entry entries ih =>
    obtain ⟨other, old⟩ := entry
    by_cases hother : other = name
    · simp only [replace, hother, beq_self_eq_true, if_true, lookup_cons_eq]
      split <;> rfl
    · simp only [replace, beq_iff_eq, hother, if_false, lookup_cons_eq, ih]
      by_cases h : key = other
      · simp [h, hother]
      · simp [h]

theorem map_fst_replace (name : String) (value : Setting) :
    (replace (lower name) value entries).map Prod.fst =
      insertName (entries.map Prod.fst) name := by
  induction entries with
  | nil => simp [replace, insertName]
  | cons entry entries ih =>
    obtain ⟨other, old⟩ := entry
    by_cases hother : other = lower name
    · simp [replace, insertName, hother]
    · simp only [replace, beq_iff_eq, hother, if_false, List.map_cons, ih, insertName,
        List.mem_cons, Ne.symm hother, false_or]
      split <;> rfl

/-- What a value leaves of the one that it is laid over. -/
def laidOver (value : Setting) (old : Option Setting) : Setting :=
  match value with
  | table _ incoming => putAll incoming (old.getD empty)
  | value => value

theorem put_eq (root : Setting) (name : String) (value : Setting) :
    root.put name value = root.withEntries
      (replace (lower name) (value.laidOver (root.entries.lookup (lower name))) root.entries) := by
  cases value <;> simp only [put, laidOver]

/-- Of a table only the names are laid over what is there. -/
theorem map_fst_putAll (incoming : List (String × Setting)) (root : Setting) :
    (putAll incoming root).entries.map Prod.fst =
      (incoming.map Prod.fst).foldl insertName (root.entries.map Prod.fst) := by
  induction incoming generalizing root with
  | nil => rw [putAll]; rfl
  | cons entry incoming ih =>
    rw [putAll, ih, put_eq, entries_withEntries, map_fst_replace]
    rfl

theorem isTable_putAll {root : Setting} (hroot : root.isTable = true)
    (incoming : List (String × Setting)) : (putAll incoming root).isTable = true := by
  induction incoming generalizing root with
  | nil => rwa [putAll]
  | cons entry incoming ih =>
    rw [putAll, put_eq]
    exact ih (isTable_withEntries _ _)

theorem face_of_isTable {value : Setting} (h : value.isTable = true) :
    value.face = .table (value.entries.map Prod.fst) := by
  cases value with
  | table origin entries => rfl
  | _ => cases h

/-- What is seen of a setting changes as it is said. -/
theorem face_laidOver (value : Setting) (old : Option Setting) :
    (value.laidOver old).face = value.said.over (old.map face) := by
  cases value with
  | atom origin value => rfl
  | list origin items => rfl
  | table origin incoming =>
    have hnames : (old.getD empty).entries.map Prod.fst =
        (((old.map face).map Face.names).getD []) := by
      cases old with
      | none => rfl
      | some old => exact (names_face old).symm
    -- A table without names does not even make a table of what is there.
    cases incoming with
    | nil =>
      rw [laidOver, putAll]
      cases old <;> rfl
    | cons entry incoming =>
      have htable : (putAll (entry :: incoming) (old.getD empty)).isTable = true := by
        rw [putAll, put_eq]
        exact isTable_putAll (isTable_withEntries _ _) incoming
      rw [laidOver, face_of_isTable htable, map_fst_putAll, hnames]
      rfl

end Names

/-! ## At a path -/

/-- What a value leaves where a path goes on. -/
def layAt (old : Option Setting) (value : Setting) : SettingPath → Except Fault Setting
  | [] => .ok (value.laidOver old)
  | path => putAt (old.getD (atom none .none)) value path

/-- What a value says of the setting where a path goes on. -/
def saidAt (value : Setting) : SettingPath → Said
  | [] => value.said
  | .name name :: _ => .merged [name]
  | .index _ :: _ => .whole .list

theorem putAt_name (root value : Setting) (name : String) (rest : SettingPath) :
    root.putAt value (.name name :: rest) =
      (layAt (root.entries.lookup (lower name)) value rest).map fun inner =>
        root.withEntries (replace (lower name) inner root.entries) := by
  cases rest with
  | nil => rw [putAt, put_eq]; rfl
  | cons step rest =>
    rw [putAt, layAt]
    · cases putAt ((root.entries.lookup (lower name)).getD (atom none .none)) value
        (step :: rest) <;> rfl
    · exact List.cons_ne_nil _ _
    · exact List.cons_ne_nil _ _

theorem exists_of_putAt_name {root value root' : Setting} {name : String} {rest : SettingPath}
    (h : root.putAt value (.name name :: rest) = .ok root') :
    ∃ inner, layAt (root.entries.lookup (lower name)) value rest = .ok inner ∧
      root' = root.withEntries (replace (lower name) inner root.entries) := by
  rw [putAt_name] at h
  cases hinner : layAt (root.entries.lookup (lower name)) value rest with
  | error fault => rw [hinner] at h; cases h
  | ok inner =>
    rw [hinner] at h
    exact ⟨inner, rfl, (Except.ok.inj h).symm⟩

/-- What is seen of a setting changes as it is said, wherever the path goes on. -/
theorem face_of_layAt {old : Option Setting} {value inner : Setting} {rest : SettingPath}
    (h : layAt old value rest = .ok inner) :
    inner.face = (saidAt value rest).over (old.map face) := by
  cases rest with
  | nil =>
    obtain rfl := Except.ok.inj h
    exact face_laidOver value old
  | cons step rest =>
    cases step with
    | name name =>
      obtain ⟨deeper, -, rfl⟩ := exists_of_putAt_name h
      rw [face_withEntries, map_fst_replace]
      cases old with
      | none => rfl
      | some old => simp [saidAt, Said.over, names_face]
    | index n =>
      -- Whatever there was has become a list.
      have hitems (root : Setting) (items : List Setting) :
          (root.withItems items).face = .list := by
        cases root <;> rfl
      rw [layAt, putAt] at h
      · simp only [bind, Except.bind, pure, Except.pure] at h
        split at h
        · cases h
        · split at h
          · cases h
          · obtain rfl := Except.ok.inj h
            exact hitems _ _
      · exact List.cons_ne_nil _ _

/-- Only a position can end in a fault. -/
theorem exists_putAt {path : SettingPath} (h : ∀ n, .index n ∉ path) (root value : Setting) :
    ∃ root', root.putAt value path = .ok root' := by
  induction path generalizing root with
  | nil => exact ⟨value, by rw [putAt]⟩
  | cons step rest ih =>
    cases step with
    | index n => exact absurd List.mem_cons_self (h n)
    | name name =>
      obtain ⟨inner, hinner⟩ : ∃ inner,
          layAt (root.entries.lookup (lower name)) value rest = .ok inner := by
        cases rest with
        | nil => exact ⟨_, rfl⟩
        | cons step rest => exact ih (fun n hn => h n (List.mem_cons_of_mem _ hn)) _
      exact ⟨_, by rw [putAt_name, hinner]; rfl⟩

theorem exists_overlay {source : List (String × Setting)}
    (h : ∀ entry ∈ source, ∀ n, .index n ∉ SettingPath.ofName entry.1) (root : Setting) :
    ∃ root', overlay source root = .ok root' := by
  induction source generalizing root with
  | nil => exact ⟨root, rfl⟩
  | cons entry source ih =>
    obtain ⟨between, hput⟩ := exists_putAt (h entry List.mem_cons_self) root entry.2
    obtain ⟨root', hrest⟩ :=
      ih (fun entry hentry => h entry (List.mem_cons_of_mem _ hentry)) between
    refine ⟨root', ?_⟩
    simp only [overlay, List.foldlM_cons, hput] at hrest ⊢
    exact hrest

/-! ## A setting in its group -/

/-- What entries say of the setting under a key. -/
def mentions (key : String) (entries : List (String × Setting)) : List Said :=
  entries.filterMap fun (name, value) => if lower name = key then some value.said else none

/-- What an entry of a source says of a setting: an entry for its group, or one that leads into
the group. -/
def mentionsAt (group key : String) (entry : String × Setting) : List Said :=
  match SettingPath.ofName entry.1 with
  | [.name first] => if lower first = group then mentions key entry.2.entries else []
  | .name first :: .name second :: rest =>
    if lower first = group ∧ lower second = key then [saidAt entry.2 rest] else []
  | _ => []

/-- What a source says of a setting, one thing after the other. -/
def mentionsOf (group key : String) (source : List (String × Setting)) : List Said :=
  source.flatMap (mentionsAt group key)

/-- Whether an entry of a source leaves a group a group: it is a table, or leads into the group by
a name. -/
def keepsGroup (group : String) (entry : String × Setting) : Bool :=
  match SettingPath.ofName entry.1 with
  | [.name first] => lower first != group || entry.2.isTable
  | .name first :: .index _ :: _ => lower first != group
  | _ => true

/-- A setting in its group. -/
def at? (root : Setting) (group key : String) : Option Setting :=
  (root.entries.lookup group).bind fun value => value.entries.lookup key

/-- What is seen of a setting in its group. -/
def slot (root : Setting) (group key : String) : Option Face :=
  (root.at? group key).map face

theorem mentions_cons (key name : String) (value : Setting) (entries : List (String × Setting)) :
    mentions key ((name, value) :: entries) =
      if lower name = key then value.said :: mentions key entries else mentions key entries := by
  rw [mentions, List.filterMap_cons]
  by_cases h : lower name = key <;> simp only [h, if_true, if_false] <;> rfl

/-- Entries do with a setting what they say of it. -/
theorem lookup_putAll (key : String) (incoming : List (String × Setting)) (root : Setting) :
    ((putAll incoming root).entries.lookup key).map face =
      (mentions key incoming).foldl Said.lay ((root.entries.lookup key).map face) := by
  induction incoming generalizing root with
  | nil => rw [putAll]; rfl
  | cons entry incoming ih =>
    obtain ⟨name, value⟩ := entry
    rw [putAll, ih, put_eq, entries_withEntries, lookup_replace, mentions_cons]
    by_cases h : key = lower name
    · subst h
      simp only [if_true, List.foldl_cons, Option.map_some, face_laidOver, Said.lay]
    · simp only [h, Ne.symm h, if_false]

theorem entries_getD (old : Option Setting) (key : String) :
    (old.getD empty).entries.lookup key = old.bind fun value => value.entries.lookup key := by
  cases old <;> rfl

theorem entries_getD_atom (old : Option Setting) (key : String) :
    (old.getD (atom none .none)).entries.lookup key =
      old.bind fun value => value.entries.lookup key := by
  cases old <;> rfl

/-- An entry of a source does with a setting what it says of it. -/
theorem slot_of_putAt {root value root' : Setting} {name group : String}
    (hkeeps : keepsGroup group (name, value) = true)
    (h : root.putAt value (SettingPath.ofName name) = .ok root') (key : String) :
    root'.slot group key =
      (mentionsAt group key (name, value)).foldl Said.lay (root.slot group key) := by
  obtain ⟨first, rest, hname⟩ := SettingPath.exists_ofName_eq name
  rw [hname] at h
  obtain ⟨inner, hinner, rfl⟩ := exists_of_putAt_name h
  simp only [keepsGroup, hname] at hkeeps
  simp only [slot, at?, mentionsAt, hname, entries_withEntries, lookup_replace]
  by_cases hgroup : group = lower first
  · subst hgroup
    simp only [if_true, Option.bind_some]
    -- The entry is for the group as a whole, or leads to one of its settings.
    cases rest with
    | nil =>
      obtain rfl := Except.ok.inj hinner
      cases value with
      | table origin incoming =>
        rw [laidOver, lookup_putAll, entries_getD]
        simp [entries]
      | _ => simp [isTable] at hkeeps
    | cons step rest =>
      cases step with
      | name second =>
        obtain ⟨deeper, hdeeper, rfl⟩ := exists_of_putAt_name hinner
        have hface := face_of_layAt hdeeper
        rw [entries_withEntries, lookup_replace]
        by_cases hkey : key = lower second
        · subst hkey
          rw [entries_getD_atom] at hface
          simp [hface, Said.lay]
        · simp [hkey, Ne.symm hkey, entries_getD_atom]
      | index n => simp at hkeeps
  · -- Another name is laid over, so the group stays as it is.
    simp only [hgroup, if_false]
    cases rest with
    | nil => simp [Ne.symm hgroup]
    | cons step rest =>
      cases step with
      | name second => simp [Ne.symm hgroup]
      | index n => rfl

theorem overlay_cons_eq_ok {name : String} {value root root' : Setting}
    {source : List (String × Setting)} (h : overlay ((name, value) :: source) root = .ok root') :
    ∃ between, root.putAt value (SettingPath.ofName name) = .ok between ∧
      overlay source between = .ok root' := by
  simp only [overlay, List.foldlM_cons] at h
  cases hput : root.putAt value (SettingPath.ofName name) with
  | error fault => rw [hput] at h; cases h
  | ok between => rw [hput] at h; exact ⟨between, rfl, h⟩

/-- **A source does with a setting what it says of it.** As long as the source leaves the group a
group, what becomes of a setting depends on what was there and on what the source says of that
setting alone, one thing after the other. -/
theorem slot_of_overlay {group : String} {source : List (String × Setting)}
    (hkeeps : ∀ entry ∈ source, keepsGroup group entry = true) {root root' : Setting}
    (h : overlay source root = .ok root') (key : String) :
    root'.slot group key = (mentionsOf group key source).foldl Said.lay (root.slot group key) := by
  induction source generalizing root with
  | nil =>
    obtain rfl := Except.ok.inj h
    rfl
  | cons entry source ih =>
    obtain ⟨name, value⟩ := entry
    obtain ⟨between, hput, hrest⟩ := overlay_cons_eq_ok h
    rw [ih (fun entry hentry => hkeeps entry (List.mem_cons_of_mem _ hentry)) hrest,
      slot_of_putAt (hkeeps _ List.mem_cons_self) hput, mentionsOf, mentionsOf,
      List.flatMap_cons, List.foldl_append]

/-! ## Trees that have been laid -/

/-- Names are in lower case, and none comes up twice. -/
structure Neat (entries : List (String × Setting)) : Prop where
  nodup : (entries.map Prod.fst).Nodup
  lower_eq : ∀ name ∈ entries.map Prod.fst, lower name = name

theorem Neat.nil : Neat [] :=
  ⟨List.nodup_nil, fun _ h => absurd h List.not_mem_nil⟩

theorem Neat.replace {entries : List (String × Setting)} (h : Neat entries) (name : String)
    (value : Setting) : Neat (replace (lower name) value entries) := by
  obtain ⟨hnodup, hlower⟩ := h
  have hnames := @map_fst_replace entries name value
  by_cases hmem : lower name ∈ entries.map Prod.fst
  · rw [insertName, if_pos hmem] at hnames
    exact ⟨hnames ▸ hnodup, hnames ▸ hlower⟩
  · rw [insertName, if_neg hmem] at hnames
    refine ⟨?_, fun other hother => ?_⟩
    · rw [hnames]
      refine List.nodup_append.mpr ⟨hnodup, List.pairwise_singleton _ _, ?_⟩
      rintro other hother _ hname rfl
      exact hmem (List.mem_singleton.mp hname ▸ hother)
    · rw [hnames] at hother
      obtain hother | hother := List.mem_append.mp hother
      · exact hlower other hother
      · rw [List.mem_singleton.mp hother, lower_lower]

theorem Neat.putAll {root : Setting} (h : Neat root.entries)
    (incoming : List (String × Setting)) : Neat (putAll incoming root).entries := by
  induction incoming generalizing root with
  | nil => rwa [Setting.putAll]
  | cons entry incoming ih =>
    rw [Setting.putAll, put_eq]
    exact ih (by rw [entries_withEntries]; exact h.replace _ _)

/-- The groups of settings. -/
def groups : List String := ["runtime", "log"]

/-- Sources have been laid over nothing: the names in the tree and in its groups are neat, those in
the tree stand for themselves, and the groups are tables. -/
structure Laid (root : Setting) : Prop where
  neat : Neat root.entries
  path : ∀ name ∈ root.entries.map Prod.fst, SettingPath.ofName name = [.name name]
  group : ∀ group ∈ groups, ∀ value, root.entries.lookup group = some value →
    value.isTable = true ∧ Neat value.entries

theorem Laid.empty : Laid empty :=
  ⟨.nil, fun _ h => absurd h List.not_mem_nil, fun _ _ _ h => nomatch h⟩

/-- A name is a path, or does not become one in lower case either. -/
def StaysPath (name : String) : Prop :=
  SettingPath.parse? name = none → SettingPath.parse? (lower name) = none

/-- What an entry leaves of a group is a table with neat names. -/
theorem neat_of_layAt {old : Option Setting} {value inner : Setting} {name first : String}
    {rest : SettingPath} (hold : ∀ value, old = some value → value.isTable = true ∧
      Neat value.entries) (hname : SettingPath.ofName name = .name first :: rest)
    (hkeeps : keepsGroup (lower first) (name, value) = true)
    (h : layAt old value rest = .ok inner) : inner.isTable = true ∧ Neat inner.entries := by
  simp only [keepsGroup, hname] at hkeeps
  cases rest with
  | nil =>
    obtain rfl := Except.ok.inj h
    cases value with
    | table origin incoming =>
      cases old with
      | none => exact ⟨isTable_putAll rfl incoming, Laid.empty.neat.putAll incoming⟩
      | some old =>
        obtain ⟨htable, hneat⟩ := hold old rfl
        exact ⟨isTable_putAll htable incoming, hneat.putAll incoming⟩
    | _ => simp [isTable] at hkeeps
  | cons step rest =>
    cases step with
    | name second =>
      obtain ⟨deeper, -, rfl⟩ := exists_of_putAt_name h
      refine ⟨isTable_withEntries _ _, ?_⟩
      rw [entries_withEntries]
      cases old with
      | none => exact Neat.nil.replace second deeper
      | some old => exact (hold old rfl).2.replace second deeper
    | index n => simp at hkeeps

theorem Laid.putAt {root value root' : Setting} (h : Laid root) {name : String}
    (hkeeps : ∀ group ∈ groups, keepsGroup group (name, value) = true) (hstays : StaysPath name)
    (hput : root.putAt value (SettingPath.ofName name) = .ok root') : Laid root' := by
  obtain ⟨first, rest, hname⟩ := SettingPath.exists_ofName_eq name
  rw [hname] at hput
  obtain ⟨inner, hinner, rfl⟩ := exists_of_putAt_name hput
  refine ⟨?_, ?_, ?_⟩
  · rw [entries_withEntries]
    exact h.neat.replace first inner
  · intro other hother
    rw [entries_withEntries, map_fst_replace, insertName] at hother
    split at hother
    · exact h.path other hother
    · obtain hother | hother := List.mem_append.mp hother
      · exact h.path other hother
      · rw [List.mem_singleton.mp hother]
        exact SettingPath.ofName_lower hname hstays
  · intro group hgroup new hnew
    rw [entries_withEntries, lookup_replace] at hnew
    split at hnew
    next heq =>
      obtain rfl := Option.some.inj hnew
      subst heq
      exact neat_of_layAt (h.group _ hgroup) hname (hkeeps _ hgroup) hinner
    next => exact h.group group hgroup new hnew

/-- Laying a source over a tree leaves the names in it neat. -/
theorem Laid.overlay {source : List (String × Setting)} {root root' : Setting} (h : Laid root)
    (hkeeps : ∀ entry ∈ source, ∀ group ∈ groups, keepsGroup group entry = true)
    (hstays : ∀ entry ∈ source, StaysPath entry.1) (hlaid : overlay source root = .ok root') :
    Laid root' := by
  induction source generalizing root with
  | nil => exact Except.ok.inj hlaid ▸ h
  | cons entry source ih =>
    obtain ⟨name, value⟩ := entry
    obtain ⟨between, hput, hrest⟩ := overlay_cons_eq_ok hlaid
    exact ih (h.putAt (hkeeps _ List.mem_cons_self) (hstays _ List.mem_cons_self) hput)
      (fun entry hentry => hkeeps entry (List.mem_cons_of_mem _ hentry))
      (fun entry hentry => hstays entry (List.mem_cons_of_mem _ hentry)) hrest

/-! ### A tree as a source -/

section Neat

variable {entries : List (String × Setting)} {key : String}

theorem Neat.tail {entry : String × Setting} (h : Neat (entry :: entries)) :
    Neat entries ∧ entry.1 ∉ entries.map Prod.fst := by
  obtain ⟨hnotMem, hnodup⟩ := List.nodup_cons.mp h.nodup
  exact ⟨⟨hnodup, fun name hname => h.lower_eq name (List.mem_cons_of_mem _ hname)⟩, hnotMem⟩

theorem lookup_eq_none_of_not_mem {α : Type} {entries : List (String × α)}
    (h : key ∉ entries.map Prod.fst) : entries.lookup key = none :=
  List.lookup_eq_none_iff.mpr fun _ hentry =>
    bne_iff_ne.mpr fun heq => h (heq ▸ List.mem_map_of_mem hentry)

theorem lookup_eq_some_of_mem (h : Neat entries) {name : String} {value : Setting}
    (hmem : (name, value) ∈ entries) : entries.lookup name = some value := by
  induction entries with
  | nil => cases hmem
  | cons entry entries ih =>
    obtain ⟨hneat, hnotMem⟩ := h.tail
    obtain rfl | hmem := List.mem_cons.mp hmem
    · rw [lookup_cons_eq, if_pos rfl]
    · have hne : name ≠ entry.1 := fun heq =>
        hnotMem (heq ▸ List.mem_map_of_mem (f := Prod.fst) hmem)
      rw [lookup_cons_eq, if_neg hne, ih hneat hmem]

/-- Of each setting a neat table says one thing at most. -/
theorem Neat.mentions_eq (h : Neat entries) (key : String) :
    mentions key entries = ((entries.lookup key).map said).toList := by
  induction entries with
  | nil => rfl
  | cons entry entries ih =>
    obtain ⟨name, value⟩ := entry
    obtain ⟨hneat, hnotMem⟩ := h.tail
    rw [mentions_cons, lookup_cons_eq, h.lower_eq name List.mem_cons_self, ih hneat]
    by_cases hkey : key = name
    · subst hkey
      simp [lookup_eq_none_of_not_mem hnotMem]
    · simp [hkey, Ne.symm hkey]

/-- Of the settings in a group a neat tree speaks under the name of the group only. -/
theorem Neat.mentionsOf_eq (h : Neat entries)
    (hpath : ∀ name ∈ entries.map Prod.fst, SettingPath.ofName name = [.name name])
    (group key : String) : mentionsOf group key entries =
      ((entries.lookup group).map fun value => mentions key value.entries).getD [] := by
  induction entries with
  | nil => rfl
  | cons entry entries ih =>
    obtain ⟨name, value⟩ := entry
    obtain ⟨hneat, hnotMem⟩ := h.tail
    have hrest := ih hneat fun name hname => hpath name (List.mem_cons_of_mem _ hname)
    have hlower := h.lower_eq name List.mem_cons_self
    rw [mentionsOf, List.flatMap_cons, ← mentionsOf, hrest, mentionsAt,
      hpath name List.mem_cons_self, lookup_cons_eq]
    by_cases hname : group = name
    · subst hname
      simp [hlower, lookup_eq_none_of_not_mem hnotMem]
    · simp [hname, Ne.symm hname, hlower]

end Neat

theorem Laid.mentionsOf_eq {root : Setting} (h : Laid root) {group : String}
    (hgroup : group ∈ groups) (key : String) :
    mentionsOf group key root.entries = ((root.at? group key).map said).toList := by
  rw [h.neat.mentionsOf_eq h.path, at?]
  cases hlookup : root.entries.lookup group with
  | none => rfl
  | some value => exact (h.group group hgroup value hlookup).2.mentions_eq key

theorem Laid.keepsGroup {root : Setting} (h : Laid root) {group : String} (hgroup : group ∈ groups)
    {entry : String × Setting} (hentry : entry ∈ root.entries) :
    keepsGroup group entry = true := by
  have hname := List.mem_map_of_mem (f := Prod.fst) hentry
  rw [Setting.keepsGroup, h.path entry.1 hname]
  by_cases heq : entry.1 = group
  · have htable := (h.group group hgroup entry.2 (heq ▸ lookup_eq_some_of_mem h.neat hentry)).1
    simp [htable]
  · simp [h.neat.lower_eq entry.1 hname, heq]

end Setting

end FiberPrograms
