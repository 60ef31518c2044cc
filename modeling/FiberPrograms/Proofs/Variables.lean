import FiberPrograms.Proofs.SettingsLibrary

/-!
# What variables say

The name of a variable is read in lower case, with a dot for every mark between two steps. What the
path that it stands for has in it has been in the name of the variable before: reading a path only
cuts it into pieces, and a piece without a dot has no mark in it that a dot could stand for. So a
variable in whose name a setting does not occur has nothing to say of that setting.

## Main definitions

* `SettingPath.IsPiece`: names that are cut out of a text

## Main results

* `SettingPath.isPiece_of_mem`: the names in a path are cut out of what stands for the path
* `Setting.infix_of_infix_dotted`: what has no dot in it has been there before
* `Setting.mentionsAt_of_misses`: other variables say nothing of a setting
* `Settings.library_readsVariables`: variables say what their settings are
-/

namespace FiberPrograms

/-! ## Pieces -/

namespace SettingPath

/-- A name that is cut out of a text. -/
structure IsPiece (name : String) (text : List Char) : Prop where
  isInfix : name.toList <:+: text
  isName : ∀ c ∈ name.toList, isNameChar c = true

variable {name : String} {cs rest text : List Char} {step : SettingStep}

theorem IsPiece.mono (h : IsPiece name cs) (hcs : cs <:+ text) : IsPiece name text :=
  ⟨h.isInfix.trans hcs.isInfix, h.isName⟩

theorem skipBlanks_suffix (cs : List Char) : skipBlanks cs <:+ cs :=
  List.dropWhile_suffix _

theorem isPiece_of_name? (h : name? cs = some (step, rest)) :
    ∃ name, step = .name name ∧ IsPiece name cs ∧ rest <:+ cs := by
  rw [name?] at h
  split at h
  · cases h
  · obtain ⟨rfl, rfl⟩ := Prod.mk.inj (Option.some.inj h)
    refine ⟨_, rfl, ⟨?_, fun c hc => ?_⟩, List.dropWhile_suffix _⟩
    · rw [String.toList_ofList]
      exact (List.takeWhile_prefix _).isInfix
    · rw [String.toList_ofList] at hc
      exact List.all_eq_true.mp List.all_takeWhile c hc

/-- What is behind a position is behind its digits. -/
theorem suffix_of_closed (hcs : cs <:+ text)
    (hclosed : skipBlanks (cs.dropWhile Char.isDigit) = ']' :: rest) : rest <:+ text :=
  (List.suffix_cons ']' rest).trans <| hclosed ▸
    (skipBlanks_suffix _).trans ((List.dropWhile_suffix _).trans hcs)

theorem suffix_of_index? (h : index? cs = some (step, rest)) :
    (∃ n, step = .index n) ∧ rest <:+ cs := by
  simp only [index?] at h
  split at h
  next behind hclosed =>
    obtain ⟨-, h⟩ := Option.ite_none_left_eq_some.mp h
    obtain ⟨rfl, rfl⟩ := Prod.mk.inj (Option.some.inj h)
    refine ⟨⟨_, rfl⟩, suffix_of_closed ?_ hclosed⟩
    -- In front of the digits there may be blanks and a sign.
    split
    next more hsign => exact (List.suffix_cons '-' more).trans (hsign ▸ skipBlanks_suffix cs)
    next => exact skipBlanks_suffix cs
  next => cases h

theorem isPiece_of_mem_steps {fuel : Nat} {path : SettingPath} (h : steps? fuel cs = some path)
    (hname : .name name ∈ path) : IsPiece name cs := by
  induction fuel generalizing cs path with
  | zero =>
    cases cs with
    | nil => exact absurd (Option.some.inj h ▸ hname) List.not_mem_nil
    | cons c cs => simp [steps?] at h
  | succ fuel ih =>
    unfold steps? at h
    split at h
    next => exact absurd (Option.some.inj h ▸ hname) List.not_mem_nil
    next n text heq =>
      obtain rfl := Nat.succ.inj heq
      obtain ⟨⟨step, rest⟩, hstep, h⟩ := Option.bind_eq_some_iff.mp h
      obtain ⟨steps, hsteps, h⟩ := Option.bind_eq_some_iff.mp h
      obtain ⟨first, rfl, hpiece, hrest⟩ := isPiece_of_name? hstep
      obtain rfl := Option.some.inj h
      obtain hname | hname := List.mem_cons.mp hname
      · exact SettingStep.name.inj hname ▸ hpiece.mono (List.suffix_cons _ _)
      · exact (ih hsteps hname).mono (hrest.trans (List.suffix_cons _ _))
    next n text heq =>
      obtain rfl := Nat.succ.inj heq
      obtain ⟨⟨step, rest⟩, hstep, h⟩ := Option.bind_eq_some_iff.mp h
      obtain ⟨steps, hsteps, h⟩ := Option.bind_eq_some_iff.mp h
      obtain ⟨⟨n, rfl⟩, hrest⟩ := suffix_of_index? hstep
      obtain rfl := Option.some.inj h
      obtain hname | hname := List.mem_cons.mp hname
      · cases hname
      · exact (ih hsteps hname).mono (hrest.trans (List.suffix_cons _ _))
    next => cases h

/-- The names in a path are cut out of the text that stands for the path. -/
theorem isPiece_of_mem {text : String} {path : SettingPath} (h : parse? text = some path)
    (hname : .name name ∈ path) : IsPiece name text.toList := by
  obtain ⟨⟨step, rest⟩, hfirst, h⟩ := Option.bind_eq_some_iff.mp h
  obtain ⟨steps, hsteps, h⟩ := Option.bind_eq_some_iff.mp h
  obtain ⟨first, rfl, hpiece, hrest⟩ := isPiece_of_name? hfirst
  obtain rfl := Option.some.inj h
  obtain hname | hname := List.mem_cons.mp hname
  · exact SettingStep.name.inj hname ▸ hpiece
  · exact (isPiece_of_mem_steps hsteps hname).mono hrest

end SettingPath

/-! ## Variables -/

namespace Setting

variable {between piece cs : List Char}

theorem prefix_of_prefix_dotted (hdot : '.' ∉ piece) (h : piece <+: dotted between 0 cs) :
    piece <+: cs := by
  induction cs generalizing piece with
  | nil => exact h
  | cons c cs ih =>
    cases piece with
    | nil => exact List.nil_prefix
    | cons d piece =>
      rw [dotted] at h
      split at h
      · obtain ⟨rfl, -⟩ := List.cons_prefix_cons.mp h
        exact absurd List.mem_cons_self hdot
      · obtain ⟨hd, h⟩ := List.cons_prefix_cons.mp h
        exact List.cons_prefix_cons.mpr
          ⟨hd, ih (fun hmem => hdot (List.mem_cons_of_mem d hmem)) h⟩

/-- What has no dot in it has been there before dots took the place of marks. -/
theorem infix_of_infix_dotted (hdot : '.' ∉ piece) {skip : Nat}
    (h : piece <:+: dotted between skip cs) : piece <:+: cs := by
  induction cs generalizing skip with
  | nil =>
    rw [dotted] at h
    exact h
  | cons c cs ih =>
    cases skip with
    | succ skip => exact List.infix_cons (ih (dotted.eq_2 between skip c cs ▸ h))
    | zero =>
      -- There is one character more, whatever it is.
      obtain ⟨d, skip, heq⟩ :
          ∃ d skip, dotted between 0 (c :: cs) = d :: dotted between skip cs := by
        rw [dotted]
        split
        · exact ⟨_, _, rfl⟩
        · exact ⟨_, _, rfl⟩
      obtain hprefix | hbehind := List.infix_cons_iff.mp (heq ▸ h)
      · exact (prefix_of_prefix_dotted hdot (heq ▸ hprefix)).isInfix
      · exact List.infix_cons (ih hbehind)

theorem nameOf?_binding (key : SettingKey) :
    nameOf? "FORKJOIN" "_" "__" key.binding = some key.path := by
  cases key <;> decide +kernel

/-- The names in the path that a variable stands for have been in its own name in lower case. -/
theorem infix_of_nameOf? {word mark between variableName text name : String} {path : SettingPath}
    (h : nameOf? word mark between variableName = some text)
    (hpath : SettingPath.parse? text = some path) (hname : .name name ∈ path) :
    name.toList <:+: (Text.lower variableName).toList := by
  obtain ⟨-, h⟩ := Option.ite_none_right_eq_some.mp h
  obtain rfl := Option.some.inj h
  have hpiece := SettingPath.isPiece_of_mem hpath hname
  rw [String.toList_ofList] at hpiece
  have hdot : '.' ∉ name.toList := fun hmem => absurd (hpiece.isName '.' hmem) (by decide)
  exact (infix_of_infix_dotted hdot hpiece.isInfix).trans (List.drop_suffix _ _).isInfix

theorem lower_eq_of_isInfix {name text : String} (h : name.toList <:+: (Text.lower text).toList) :
    Text.lower name = name := by
  have hlower : ∀ c ∈ name.toList, Text.IsLower c := fun c hc =>
    Text.isLower_of_mem_lowerAfter (by simpa [Text.lower] using h.subset hc)
  rw [Text.lower, Text.lowerAfter_of_isLower hlower, String.ofList_toList]

/-- A variable says nothing of a setting that does not occur in its name. -/
theorem mentionsAt_of_misses {key : SettingKey} {word mark between variableName text : String}
    (hmisses : key.Misses variableName) (h : nameOf? word mark between variableName = some text)
    (origin : Option String) (value : Atom) :
    mentionsAt key.group key.name (text, .atom origin value) = [] := by
  rw [mentionsAt]
  split
  next => split <;> rfl
  next first second rest hname =>
    refine if_neg ?_
    rintro ⟨-, hsecond⟩
    -- A path of two steps is no mere name.
    obtain ⟨path, hpath⟩ : ∃ path, SettingPath.parse? text = some path := by
      cases hpath : SettingPath.parse? text with
      | some path => exact ⟨path, rfl⟩
      | none => simp [SettingPath.ofName, hpath] at hname
    have hmem : .name second ∈ path := by
      rw [SettingPath.ofName, hpath, Option.getD_some] at hname
      simp [hname]
    have hinfix := infix_of_nameOf? h hpath hmem
    exact hmisses (hsecond ▸ (lower_eq_of_isInfix hinfix).symm ▸ hinfix)
  next => rfl

theorem mentionsOf_ofVariables_of_misses {key : SettingKey} {word mark between : String}
    {bindings : List (String × String)} (h : ∀ binding ∈ bindings, key.Misses binding.1) :
    mentionsOf key.group key.name (ofVariables word mark between bindings) = [] := by
  refine List.flatMap_eq_nil_iff.mpr fun entry hentry => ?_
  obtain ⟨binding, hbinding, hentry⟩ := List.mem_filterMap.mp hentry
  obtain ⟨text, htext, rfl⟩ := Option.map_eq_some_iff.mp hentry
  exact mentionsAt_of_misses (h binding hbinding) htext _ _

/-- The variable of a setting says what it is, if no other says anything of it. -/
theorem mentionsOf_ofVariables {key : SettingKey} {text : String}
    {before after : List (String × String)}
    (h : ∀ binding ∈ before ++ after, key.Misses binding.1) :
    mentionsOf key.group key.name
        (ofVariables "FORKJOIN" "_" "__" (before ++ (key.binding, text) :: after)) =
      [.whole (.atom (.str text))] := by
  have hbefore : ∀ binding ∈ before, key.Misses binding.1 := fun binding hbinding =>
    h binding (List.mem_append_left after hbinding)
  have hafter : ∀ binding ∈ after, key.Misses binding.1 := fun binding hbinding =>
    h binding (List.mem_append_right before hbinding)
  have hsplit : ofVariables "FORKJOIN" "_" "__" (before ++ (key.binding, text) :: after) =
      ofVariables "FORKJOIN" "_" "__" before ++
        (key.path, .atom (some "the environment") (.str text)) ::
          ofVariables "FORKJOIN" "_" "__" after := by
    simp [ofVariables, nameOf?_binding]
  rw [hsplit, mentionsOf_append, mentionsOf_ofVariables_of_misses hbefore, List.nil_append,
    mentionsOf, List.flatMap_cons, mentionsAt_path, if_pos rfl, ← mentionsOf,
    mentionsOf_ofVariables_of_misses hafter]
  rfl

end Setting

namespace Settings

open Setting

theorem library_readsVariables : library.ReadsVariables view where
  alone hothers := by
    change given _ _ _ = _
    rw [given, mentionsOf_ofVariables hothers]
    rfl
  unsaid h := by
    change given _ _ _ = _
    rw [given, mentionsOf_ofVariables_of_misses h]
    rfl

end Settings

end FiberPrograms
