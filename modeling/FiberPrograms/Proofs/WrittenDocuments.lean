import FiberPrograms.Proofs.Documents
import FiberPrograms.Proofs.WrittenStrings

/-!
# Documents of groups, written and read

What is written of groups is read line by line: a header opens a table at the end of the document,
and each line under it adds an entry to that table, whose value is the text or the number that was
written. So as long as no name comes up twice and all numbers have 63 bits, the document that is
read is the one that was written.

## Main definitions

* `Toml.readFields`, `Toml.readGroups`: what has been read of entries and groups

## Main results

* `Toml.plainValue?_toString`: a number that has 63 bits is read back
* `Toml.lines?_fieldLines`, `Toml.lines?_groupLines`: what the lines of a group add to a document
* `Toml.parse?_lines`: what is written of groups is read as these groups
-/

namespace FiberPrograms

namespace Toml

/-! ## Numbers -/

theorem isDigitIn_of_isDigit {c : Char} (h : c.isDigit = true) : isDigitIn 10 c = true := by
  simp only [Char.isDigit, Bool.and_eq_true, decide_eq_true_eq] at h
  simp only [isDigitIn, Text.hexValue?]
  have hlow : '0' ≤ c := h.1
  have hhigh : c ≤ '9' := h.2
  have hnat : c.toNat ≤ '9'.toNat := hhigh
  simp [hlow, hhigh]
  have : '9'.toNat = 57 := rfl
  omega

theorem hexValue?_of_isDigit {c : Char} (h : c.isDigit = true) :
    Text.hexValue? c = some (c.toNat - '0'.toNat) := by
  simp only [Char.isDigit, Bool.and_eq_true, decide_eq_true_eq] at h
  exact if_pos h

/-- The digits that a number is written in. -/
theorem isDigit_of_mem_toDigits {n : Nat} {c : Char} (h : c ∈ Nat.toDigits 10 n) :
    c.isDigit = true :=
  Nat.isDigit_of_mem_toDigits (by decide) (by decide) h

theorem ofDigits_toDigits (n : Nat) : ofDigits 10 (Nat.toDigits 10 n) = n := by
  have hread : Nat.ofDigitChars 10 (Nat.toDigits 10 n) 0 = n :=
    Nat.ofDigitChars_toDigits (by decide) (by decide)
  rw [Nat.ofDigitChars_eq_foldl] at hread
  refine Eq.trans (List.foldl_ext _ _ _ fun m c hc => ?_) hread
  rw [hexValue?_of_isDigit (isDigit_of_mem_toDigits hc), Option.getD_some, Nat.mul_comm]

/-- A positive number is not written with a zero in front. -/
theorem head?_toDigits_ne {n : Nat} (hn : 0 < n) : (Nat.toDigits 10 n).head? ≠ some '0' := by
  induction n using Nat.strongRecOn with
  | ind n ih =>
    rw [Nat.toDigits_eq_if (by decide)]
    split
    next hsmall =>
      have hall : ∀ m < 10, 0 < m → [Nat.digitChar m].head? ≠ some '0' := by decide
      exact hall n hsmall hn
    next hlarge =>
      rw [List.head?_append_of_ne_nil _ Nat.toDigits_ne_nil]
      exact ih (n / 10) (by omega) (by omega)

/-- Zero has one digit, and other numbers have no zero in front. -/
theorem leading_toDigits (n : Nat) :
    (decide ((Nat.toDigits 10 n).length > 1) && (Nat.toDigits 10 n).head? == some '0') = false := by
  obtain rfl | hpos := Nat.eq_zero_or_pos n
  · decide
  · simp [head?_toDigits_ne hpos]

/-- Digits end where something else follows. -/
theorem moreDigits_append {digits rest : List Char}
    (hdigits : ∀ c ∈ digits, isDigitIn 10 c = true) :
    moreDigits (isDigitIn 10) (digits ++ '\n' :: rest) = (digits, '\n' :: rest) := by
  induction digits with
  | nil => simp [moreDigits, show isDigitIn 10 '\n' = false by decide]
  | cons c digits ih =>
    have hc := hdigits c List.mem_cons_self
    have hunderscore : c ≠ '_' := fun heq => absurd (heq ▸ hc) (by decide)
    rw [List.cons_append, moreDigits]
    · simp [hc, ih fun d hd => hdigits d (List.mem_cons_of_mem c hd)]
    · exact fun _ _ heq _ => hunderscore heq

/-- What begins with a digit is a number, unless it can only be a date or a time. -/
theorem plainValue?_of_isDigitIn {c : Char} {cs : List Char} (hc : isDigitIn 10 c = true)
    (hmoment : looksLikeMoment (c :: cs) = false) : plainValue? (c :: cs) = number? (c :: cs) := by
  have hother {d : Char} (hd : isDigitIn 10 d = false) : c ≠ d := fun heq =>
    absurd (heq ▸ hc) (by simp [hd])
  unfold plainValue?
  split
  case h_7 => rw [hmoment]; rfl
  all_goals
    next heq => exact absurd (List.cons.inj heq).1 (hother (by decide))

/-- A number that begins with a digit is in base ten, unless the mark of another base follows. -/
theorem number?_of_isDigitIn {c : Char} {cs : List Char} (hc : isDigitIn 10 c = true)
    (hcs : ∀ d ∈ cs.head?, isDigitIn 10 d = true ∨ d = '\n') :
    number? (c :: cs) = decimal? false (c :: cs) := by
  have hother {d : Char} (hd : isDigitIn 10 d = false) : c ≠ d := fun heq =>
    absurd (heq ▸ hc) (by simp [hd])
  have hmark {d : Char} (hd : isDigitIn 10 d = false) (hbreak : d ≠ '\n') {more : List Char} :
      cs ≠ d :: more := by
    rintro rfl
    obtain h | h := hcs d rfl
    · exact absurd h (by simp [hd])
    · exact hbreak h
  unfold number?
  split
  next heq => exact absurd (List.cons.inj heq).2 (hmark (by decide) (by decide))
  next heq => exact absurd (List.cons.inj heq).2 (hmark (by decide) (by decide))
  next heq => exact absurd (List.cons.inj heq).2 (hmark (by decide) (by decide))
  next =>
    -- The first character is a digit, so there is no sign, nor one of the words that stand for a
    -- number.
    have hsign : sign (c :: cs) = (false, c :: cs) := by
      unfold sign
      split
      next heq => exact absurd (List.cons.inj heq).1 (hother (by decide))
      next heq => exact absurd (List.cons.inj heq).1 (hother (by decide))
      next => rfl
    simp only [hsign]
    split
    next heq => exact absurd (List.cons.inj heq).1 (hother (by decide))
    next heq => exact absurd (List.cons.inj heq).1 (hother (by decide))
    next => rfl

section Digits

variable {digits rest : List Char} (hdigits : ∀ c ∈ digits, isDigitIn 10 c = true)
include hdigits

theorem digits?_append (hne : digits ≠ []) :
    digits? (isDigitIn 10) (digits ++ '\n' :: rest) = some (digits, '\n' :: rest) := by
  cases digits with
  | nil => exact absurd rfl hne
  | cons c digits =>
    have hc := hdigits c List.mem_cons_self
    simp [digits?, hc, moreDigits_append fun d hd => hdigits d (List.mem_cons_of_mem c hd)]

/-- A number of fixed length among the digits of a line is followed by a digit or the end of the
line. -/
theorem fixed?_append {count n : Nat} {more : List Char}
    (h : fixed? count (digits ++ '\n' :: rest) = some (n, more)) :
    ∀ c ∈ more.head?, isDigitIn 10 c = true ∨ c = '\n' := by
  simp only [fixed?] at h
  split at h
  next hfixed =>
    obtain rfl := (Prod.mk.inj (Option.some.inj h)).2
    obtain hshort | hlong := Nat.lt_or_ge digits.length count
    rotate_left
    · rw [List.drop_append_of_le_length hlong]
      intro c hc
      cases hdrop : digits.drop count with
      | nil =>
        rw [hdrop] at hc
        exact .inr (Option.some.inj hc).symm
      | cons d more =>
        rw [hdrop] at hc
        have hmem : d ∈ digits := List.mem_of_mem_drop (hdrop ▸ List.mem_cons_self)
        exact .inl ((Option.some.inj hc) ▸ hdigits d hmem)
    · -- So many characters reach beyond the end of the line, which is no digit.
      have hmem : '\n' ∈ (digits ++ '\n' :: rest).take count := by
        rw [List.take_append, List.mem_append]
        right
        obtain ⟨extra, hextra⟩ := Nat.exists_eq_add_of_lt hshort
        rw [show count - digits.length = extra + 1 by omega]
        exact List.mem_cons_self
      exact absurd (List.all_eq_true.mp hfixed.2 _ hmem) (by decide)
  next => cases h

theorem looksLikeMoment_append : looksLikeMoment (digits ++ '\n' :: rest) = false := by
  unfold looksLikeMoment
  split
  next h => exact absurd (fixed?_append hdigits h '-' rfl) (by decide)
  next h _ => exact absurd (fixed?_append hdigits h ':' rfl) (by decide)
  next => rfl

/-- Digits up to the end of a line, without a zero in front, are their number, if it is in range. -/
theorem decimal?_append (hne : digits ≠ [])
    (hzero : (decide (digits.length > 1) && digits.head? == some '0') = false) :
    decimal? false (digits ++ '\n' :: rest) =
      (inRange? (ofDigits 10 digits)).map fun n => (n, '\n' :: rest) := by
  have hexponent : exponent? ('\n' :: rest) = some (none, '\n' :: rest) := rfl
  have hfraction : fraction? ('\n' :: rest) = some (none, '\n' :: rest) := rfl
  rw [decimal?, digits?_append hdigits hne]
  simp only [Option.bind_eq_bind, Option.bind_some, hzero, hfraction, hexponent,
    Bool.false_eq_true, if_false, Option.isNone_none, Bool.and_self, if_true, Option.map_eq_bind]
  rfl

end Digits

/-- A number that has 63 bits is read back. -/
theorem plainValue?_toString {n : Nat} (hn : n < signedBound) (rest : List Char) :
    plainValue? ((toString n).toList ++ '\n' :: rest) = some (.int n, '\n' :: rest) := by
  have hdigits : ∀ c ∈ Nat.toDigits 10 n, isDigitIn 10 c = true := fun c hc =>
    isDigitIn_of_isDigit (isDigit_of_mem_toDigits hc)
  have hmoment := @looksLikeMoment_append _ rest hdigits
  have hdecimal := @decimal?_append _ rest hdigits Nat.toDigits_ne_nil (leading_toDigits n)
  have hrange : inRange? n = some (.int n) := by
    have hmax : Int64.maxValue.toInt = 9223372036854775807 := by decide
    have hmin : Int64.minValue.toInt = -9223372036854775808 := by decide
    have hbound : signedBound = 9223372036854775808 := rfl
    exact if_pos ⟨by omega, by omega⟩
  rw [ofDigits_toDigits, hrange] at hdecimal
  rw [Nat.toString_eq_ofList_toDigits, String.toList_ofList]
  -- Its first characters tell what kind of value it is.
  cases hcs : Nat.toDigits 10 n with
  | nil => exact absurd hcs Nat.toDigits_ne_nil
  | cons c digits =>
    rw [hcs] at hdigits hmoment hdecimal
    have hc := hdigits c List.mem_cons_self
    have hfollows : ∀ d ∈ (digits ++ '\n' :: rest).head?, isDigitIn 10 d = true ∨ d = '\n' := by
      cases digits with
      | nil => simp
      | cons d digits => simpa using .inl (hdigits d (List.mem_cons_of_mem c List.mem_cons_self))
    rw [List.cons_append] at hmoment hdecimal ⊢
    rw [plainValue?_of_isDigitIn hc hmoment, number?_of_isDigitIn hc hfollows, hdecimal]
    rfl

/-! ## Lines -/

section Lines

variable {key : List Char}

theorem skipBlanks_cons {c : Char} (hc : isBlank c = false) (cs : List Char) :
    skipBlanks (c :: cs) = c :: cs := by
  simp [skipBlanks, hc]

theorem isBlank_of_isBare {c : Char} (h : isBare c = true) : isBlank c = false := by
  have hother {d : Char} (hd : isBare d = false) : c ≠ d := fun heq =>
    absurd (heq ▸ h) (by simp [hd])
  simp [isBlank, hother (d := ' ') (by decide), hother (d := '\t') (by decide)]

/-- A key without quotes and without dots is read back. -/
theorem key?_append (hkey : ∀ c ∈ key, isBare c = true) (hne : key ≠ []) {rest : List Char}
    (hrest : ∀ c ∈ rest.head?, isBare c = false) (hdot : ∀ more, skipBlanks rest ≠ '.' :: more) :
    key? (key ++ rest) = some (([], String.ofList key), skipBlanks rest) := by
  cases key with
  | nil => exact absurd rfl hne
  | cons c key =>
    have hc := hkey c List.mem_cons_self
    have hother {d : Char} (hd : isBare d = false) : c ≠ d := fun heq =>
      absurd (heq ▸ hc) (by simp [hd])
    have hblank : isBlank c = false := isBlank_of_isBare hc
    obtain ⟨htake, hdrop⟩ := takeWhile_dropWhile_append hkey hrest
    have hsimple : simpleKey? ((c :: key) ++ rest) = some (String.ofList (c :: key), rest) := by
      unfold simpleKey?
      split
      next heq => exact absurd (List.cons.inj heq).1 (hother (by decide))
      next heq => exact absurd (List.cons.inj heq).1 (hother (by decide))
      next => rw [htake, hdrop]
    have hparts : keyParts? ((c :: key) ++ rest).length ((c :: key) ++ rest) =
        some (([], String.ofList (c :: key)), skipBlanks rest) := by
      rw [List.cons_append, List.length_cons, keyParts?, skipBlanks_cons hblank,
        ← List.cons_append, hsimple]
      simp only
    rw [key?, hparts]
    simp

/-- A header. -/
theorem lines?_header (hbare : key.all isBare = true) (hne : key ≠ []) (draft : Draft)
    (fuel : Nat) (rest : List Char) :
    lines? draft (fuel + 1) ('[' :: (key ++ ']' :: '\n' :: rest)) =
      (draft.entries.openTable [] (String.ofList key)).bind fun entries =>
        lines? ⟨entries, [String.ofList key]⟩ fuel rest := by
  have hkey : ∀ c ∈ key, isBare c = true := List.all_eq_true.mp hbare
  have hread : key? (key ++ ']' :: '\n' :: rest) =
      some (([], String.ofList key), ']' :: '\n' :: rest) :=
    key?_append hkey hne (by simpa using by decide) (by simp [skipBlanks, isBlank])
  have hheader : header? [']'] (key ++ ']' :: '\n' :: rest) =
      some (([], String.ofList key), '\n' :: rest) := by
    rw [header?, hread]
    rfl
  have hline : line? draft ('[' :: (key ++ ']' :: '\n' :: rest)) =
      (draft.entries.openTable [] (String.ofList key)).map fun entries =>
        (⟨entries, [String.ofList key]⟩, '\n' :: rest) := by
    cases key with
    | nil => exact absurd rfl hne
    | cons c key =>
      have hc : c ≠ '[' := fun heq => absurd (heq ▸ hkey c List.mem_cons_self) (by decide)
      rw [List.cons_append, line?, ← List.cons_append, hheader]
      · rw [Option.map_eq_bind]
        rfl
      · exact fun _ heq => hc (List.cons.inj heq).1
  rw [lines?, skipBlanks_cons (by decide), hline]
  · cases draft.entries.openTable [] (String.ofList key) <;> rfl
  · exact List.cons_ne_nil _ _

/-- An entry. -/
theorem lines?_entry (hbare : key.all isBare = true) (hne : key ≠ []) (draft : Draft)
    (fuel : Nat) {value rest : List Char} {v : Toml}
    (hblank : ∀ c ∈ (value ++ '\n' :: rest).head?, isBlank c = false)
    (hvalue : value? depthLimit (value ++ '\n' :: rest) = some (v, '\n' :: rest)) :
    lines? draft (fuel + 1) (key ++ ' ' :: '=' :: ' ' :: (value ++ '\n' :: rest)) =
      (draft.entries.within false draft.path (fun _ table => table.add [] (String.ofList key) v)
        none).bind fun entries => lines? ⟨entries, draft.path⟩ fuel rest := by
  have hkey : ∀ c ∈ key, isBare c = true := List.all_eq_true.mp hbare
  -- The key goes as far as the blank, and the value as far as the end of the line.
  have hread : key? (key ++ ' ' :: '=' :: ' ' :: (value ++ '\n' :: rest)) =
      some (([], String.ofList key), '=' :: ' ' :: (value ++ '\n' :: rest)) :=
    key?_append hkey hne (by simpa using by decide) (by simp [skipBlanks, isBlank])
  have hskip : skipBlanks (' ' :: (value ++ '\n' :: rest)) = value ++ '\n' :: rest := by
    cases hcs : value ++ '\n' :: rest with
    | nil => simp at hcs
    | cons c cs =>
      rw [hcs] at hblank
      have hc : isBlank c = false := hblank c rfl
      simp [skipBlanks, hc, show isBlank ' ' = true by decide]
  have hentry : entry? (value? depthLimit) (key ++ ' ' :: '=' :: ' ' :: (value ++ '\n' :: rest)) =
      some ((([], String.ofList key), v), '\n' :: rest) := by
    unfold entry?
    rw [hread]
    simp [skipBlanks_cons (show isBlank '=' = false by decide), expect?, hskip, hvalue]
  have hline : line? draft (key ++ ' ' :: '=' :: ' ' :: (value ++ '\n' :: rest)) =
      (draft.entries.within false draft.path (fun _ table => table.add [] (String.ofList key) v)
        none).map fun entries => (⟨entries, draft.path⟩, '\n' :: rest) := by
    cases key with
    | nil => exact absurd rfl hne
    | cons c key =>
      -- The line is neither a header nor a comment, and it is not empty.
      have hother {d : Char} (hd : isBare d = false) : c ≠ d := fun heq =>
        absurd (heq ▸ hkey c List.mem_cons_self) (by simp [hd])
      rw [List.cons_append, line?, ← List.cons_append, hentry]
      · rw [Option.map_eq_bind]
        rfl
      all_goals
        simp [hother (d := '[') (by decide), hother (d := '#') (by decide),
          hother (d := '\n') (by decide), hother (d := '\r') (by decide)]
  have hfirst : skipBlanks (key ++ ' ' :: '=' :: ' ' :: (value ++ '\n' :: rest)) =
      key ++ ' ' :: '=' :: ' ' :: (value ++ '\n' :: rest) := by
    cases key with
    | nil => exact absurd rfl hne
    | cons c key => exact skipBlanks_cons (isBlank_of_isBare (hkey c List.mem_cons_self)) _
  rw [lines?, hfirst, hline]
  · cases draft.entries.within false draft.path
      (fun _ table => table.add [] (String.ofList key) v) none <;> rfl
  · simp

/-- An empty line. -/
theorem lines?_blank (draft : Draft) (fuel : Nat) (rest : List Char) :
    lines? draft (fuel + 1) ('\n' :: rest) = lines? draft fuel rest := rfl

end Lines

theorem value?_of_ne {c : Char} (hlist : c ≠ '[') (htable : c ≠ '\x7b') (cs : List Char) :
    value? depthLimit (c :: cs) = plainValue? (c :: cs) := by
  rw [depthLimit, value?]
  · exact fun _ heq => hlist (List.cons.inj heq).1
  · exact fun _ heq => htable (List.cons.inj heq).1

theorem exists_quoteChars_eq (cs : List Char) :
    ∃ c more, quoteChars cs = c :: more ∧ (c = '"' ∨ c = '\'') := by
  have hquotes : ∀ form : Form, ∃ c more, form.quotes = c :: more ∧ (c = '"' ∨ c = '\'') := by
    intro form
    cases form <;> exact ⟨_, _, rfl, by decide⟩
  obtain ⟨c, more, hform, hc⟩ := hquotes (form cs)
  by_cases hlines : ((form cs).isLong && cs.contains '\n') = true
  · exact ⟨c, _, by simp only [quoteChars, hlines, if_true, hform, List.cons_append]; rfl, hc⟩
  · exact ⟨c, _, by simp only [quoteChars, hlines, hform, List.cons_append]; rfl, hc⟩

/-- A string in writing is the value of an entry. -/
theorem value?_quoteChars (cs rest : List Char) :
    value? depthLimit (quoteChars cs ++ '\n' :: rest) =
        some (.str (String.ofList cs), '\n' :: rest) ∧
      ∀ c ∈ (quoteChars cs ++ '\n' :: rest).head?, isBlank c = false := by
  have hread := plainValue?_quoteChars cs rest
  obtain ⟨c, more, hcs, hc⟩ := exists_quoteChars_eq cs
  rw [hcs, List.cons_append] at hread ⊢
  obtain rfl | rfl := hc
  · exact ⟨(value?_of_ne (by decide) (by decide) _).trans hread, by simp; decide⟩
  · exact ⟨(value?_of_ne (by decide) (by decide) _).trans hread, by simp; decide⟩

/-- A number that has 63 bits is the value of an entry. -/
theorem value?_toString {n : Nat} (hn : n < signedBound) (rest : List Char) :
    value? depthLimit ((toString n).toList ++ '\n' :: rest) = some (.int n, '\n' :: rest) ∧
      ∀ c ∈ ((toString n).toList ++ '\n' :: rest).head?, isBlank c = false := by
  have hread := plainValue?_toString hn rest
  rw [Nat.toString_eq_ofList_toDigits, String.toList_ofList] at hread ⊢
  cases hcs : Nat.toDigits 10 n with
  | nil => exact absurd hcs Nat.toDigits_ne_nil
  | cons c digits =>
    have hc : c.isDigit = true := isDigit_of_mem_toDigits (hcs ▸ List.mem_cons_self)
    have hother {d : Char} (hd : d.isDigit = false) : c ≠ d := fun heq =>
      absurd (heq ▸ hc) (by simp [hd])
    rw [hcs, List.cons_append] at hread
    refine ⟨(value?_of_ne (hother (by decide)) (hother (by decide)) _).trans hread, ?_⟩
    simp [isBlank, hother (d := ' ') (by decide), hother (d := '\t') (by decide)]

/-! ## Groups -/

/-- What is written of an entry is its value. -/
theorem value?_chars {field : Field} (h : field.fits = true) (rest : List Char) :
    value? depthLimit (field.chars ++ '\n' :: rest) = some (field.toToml, '\n' :: rest) ∧
      ∀ c ∈ (field.chars ++ '\n' :: rest).head?, isBlank c = false := by
  cases field with
  | str s =>
    have hread := value?_quoteChars s.toList rest
    rwa [String.ofList_toList] at hread
  | nat n => exact value?_toString (of_decide_eq_true h) rest

/-- What has been read of entries. -/
def readFields (fields : List (String × Field)) : Entries :=
  fields.map fun entry => (entry.1, .value entry.2.toToml)

/-- What has been read of groups. -/
def readGroups (groups : Groups) : Entries :=
  groups.map fun group => (group.1, .table .header (readFields group.2))

@[simp]
theorem map_fst_readFields (fields : List (String × Field)) :
    (readFields fields).map Prod.fst = fields.map Prod.fst := by
  rw [readFields, List.map_map]
  rfl

@[simp]
theorem map_fst_readGroups (groups : Groups) :
    (readGroups groups).map Prod.fst = groups.map Prod.fst := by
  rw [readGroups, List.map_map]
  rfl

/-! ### What is new stands at the end -/

section New

variable {entries : Entries} {key : String} (hnew : entries.lookup key = none)
include hnew

theorem lookup_append_new (item : Item) : (entries ++ [(key, item)]).lookup key = some item := by
  rw [List.lookup_append, hnew]
  simp

theorem put_append (item : Item) (more : Entries) :
    Entries.put key item (entries ++ more) = entries ++ Entries.put key item more := by
  induction entries with
  | nil => rfl
  | cons entry entries ih =>
    obtain ⟨hne, hrest⟩ := List.forall_mem_cons.mp (List.lookup_eq_none_iff.mp hnew)
    have hother : entry.1 ≠ key := (bne_iff_ne.mp hne).symm
    simp [Entries.put, hother, ih (List.lookup_eq_none_iff.mpr hrest)]

theorem put_new (item : Item) : Entries.put key item entries = entries ++ [(key, item)] := by
  have hput := put_append hnew item []
  rwa [List.append_nil] at hput

/-- A header opens a table at the end. -/
theorem openTable_new :
    entries.openTable [] key = some (entries ++ [(key, .table .header [])]) := by
  simp [Entries.openTable, Entries.within, hnew, put_new]

/-- An entry is added at the end. -/
theorem add_new (value : Toml) :
    entries.add [] key value = some (entries ++ [(key, .value value)]) := by
  simp [Entries.add, Entries.within, hnew]

/-- What is added to the last table is added to that table only. -/
theorem within_last (inner : Entries) (change : Option Origin → Entries → Option Entries) :
    Entries.within false [key] change none (entries ++ [(key, .table .header inner)]) =
      (change (some .header) inner).map fun inner => entries ++ [(key, .table .header inner)] := by
  simp [Entries.within, lookup_append_new hnew, put_append hnew, Entries.put]

end New

/-! ### Line by line -/

open Setting (lookup_eq_none_of_not_mem)

/-- Where no name comes up twice, no entry before has the name of another. -/
theorem fst_notMem_of_nodup {α : Type} {earlier more : List (String × α)} {entry : String × α}
    (h : ((earlier ++ entry :: more).map Prod.fst).Nodup) : entry.1 ∉ earlier.map Prod.fst := by
  rw [List.map_append, List.map_cons] at h
  exact fun hmem => (List.nodup_append.mp h).2.2 _ hmem _ List.mem_cons_self rfl

/-- The line of an entry adds it to the last table. -/
theorem lines?_fieldLine {before read : Entries} {name key : String} {field : Field}
    (hname : before.lookup name = none) (hkey : IsPlainName key) (hnew : read.lookup key = none)
    (hfits : field.fits = true) (fuel : Nat) (rest : List Char) :
    lines? ⟨before ++ [(name, .table .header read)], [name]⟩ (fuel + 1)
        (key.toList ++ ' ' :: '=' :: ' ' :: (field.chars ++ '\n' :: rest)) =
      lines? ⟨before ++ [(name, .table .header (read ++ [(key, .value field.toToml)]))], [name]⟩
        fuel rest := by
  obtain ⟨hvalue, hblank⟩ := value?_chars hfits rest
  rw [lines?_entry hkey.isBare hkey.ne_nil _ _ hblank hvalue, String.ofList_toList,
    within_last hname, add_new hnew]
  rfl

/-- The lines of entries add them to the last table, one after the other. -/
theorem lines?_fieldLines {before : Entries} {name : String} (hname : before.lookup name = none)
    {earlier fields : List (String × Field)}
    (hnodup : ((earlier ++ fields).map Prod.fst).Nodup)
    (hplain : ∀ entry ∈ fields, IsPlainName entry.1) (hfits : ∀ entry ∈ fields, entry.2.fits = true)
    {fuel : Nat} {rest : List Char} (hfuel : (fieldLines fields rest).length < fuel) :
    ∃ fuel', rest.length < fuel' ∧
      lines? ⟨before ++ [(name, .table .header (readFields earlier))], [name]⟩ fuel
          (fieldLines fields rest) =
        lines? ⟨before ++ [(name, .table .header (readFields (earlier ++ fields)))], [name]⟩ fuel'
          rest := by
  induction fields generalizing earlier fuel with
  | nil => exact ⟨fuel, hfuel, by rw [List.append_nil, fieldLines]⟩
  | cons entry fields ih =>
    obtain ⟨key, field⟩ := entry
    obtain ⟨fuel, rfl⟩ := Nat.exists_eq_add_of_le' (Nat.one_le_of_lt hfuel)
    have hnew : (readFields earlier).lookup key = none := by
      refine lookup_eq_none_of_not_mem ?_
      rw [map_fst_readFields]
      exact fst_notMem_of_nodup hnodup
    have hsplit := List.append_cons earlier (key, field) fields
    have hread : readFields (earlier ++ [(key, field)]) =
        readFields earlier ++ [(key, .value field.toToml)] := by
      simp [readFields]
    rw [fieldLines, lines?_fieldLine hname (hplain _ List.mem_cons_self) hnew
      (hfits _ List.mem_cons_self), ← hread, hsplit]
    refine ih (hsplit ▸ hnodup) (fun entry hentry => hplain entry (List.mem_cons_of_mem _ hentry))
      (fun entry hentry => hfits entry (List.mem_cons_of_mem _ hentry)) ?_
    simp only [fieldLines, List.length_append, List.length_cons] at hfuel
    omega

/-- The lines of a group add it to the document. -/
theorem lines?_groupLines {before : Entries} {name : String} {fields : List (String × Field)}
    (hname : IsPlainName name) (hnew : before.lookup name = none)
    (hplain : arePlain (fields.map Prod.fst) = true) (hfits : ∀ entry ∈ fields, entry.2.fits = true)
    (path : List String) {fuel : Nat} {rest : List Char}
    (hfuel : (groupLines name fields rest).length < fuel) :
    ∃ fuel', rest.length < fuel' ∧
      lines? ⟨before, path⟩ fuel (groupLines name fields rest) =
        lines? ⟨before ++ [(name, .table .header (readFields fields))], [name]⟩ fuel' rest := by
  obtain ⟨fuel, rfl⟩ := Nat.exists_eq_add_of_le' (Nat.one_le_of_lt hfuel)
  obtain ⟨hnodup, hnames⟩ := of_arePlain hplain
  rw [groupLines, lines?_header hname.isBare hname.ne_nil, String.ofList_toList, openTable_new hnew,
    Option.bind_some]
  refine @lines?_fieldLines _ _ hnew [] _ hnodup (fun entry hentry =>
    hnames _ (List.mem_map_of_mem (f := Prod.fst) hentry)) hfits _ _ ?_
  simp only [groupLines, List.length_append, List.length_cons] at hfuel
  omega

/-- The lines of groups add them to the document, one after the other. -/
theorem lines?_lines {earlier groups : Groups} (hnodup : ((earlier ++ groups).map Prod.fst).Nodup)
    (hplain : ∀ group ∈ groups, IsPlainName group.1 ∧ arePlain (group.2.map Prod.fst) = true)
    (hfits : ∀ group ∈ groups, ∀ entry ∈ group.2, entry.2.fits = true) (path : List String)
    {fuel : Nat} (hfuel : (lines groups).length < fuel) :
    ∃ path', lines? ⟨readGroups earlier, path⟩ fuel (lines groups) =
      some ⟨readGroups (earlier ++ groups), path'⟩ := by
  induction groups generalizing earlier path fuel with
  | nil =>
    obtain ⟨fuel, rfl⟩ := Nat.exists_eq_add_of_le' (Nat.one_le_of_lt hfuel)
    exact ⟨path, by rw [List.append_nil, lines, lines?]⟩
  | cons group groups ih =>
    obtain ⟨name, fields⟩ := group
    have hnew : (readGroups earlier).lookup name = none := by
      refine lookup_eq_none_of_not_mem ?_
      rw [map_fst_readGroups]
      exact fst_notMem_of_nodup hnodup
    have hsplit := List.append_cons earlier (name, fields) groups
    have hread : readGroups (earlier ++ [(name, fields)]) =
        readGroups earlier ++ [(name, .table .header (readFields fields))] := by
      simp [readGroups]
    obtain ⟨hname, hfields⟩ := hplain _ List.mem_cons_self
    have hgroup {rest : List Char} (hfuel : (groupLines name fields rest).length < fuel) :=
      lines?_groupLines hname hnew hfields (hfits _ List.mem_cons_self) path hfuel
    rw [← hread] at hgroup
    cases groups with
    | nil =>
      obtain ⟨fuel', hfuel', hrun⟩ := hgroup hfuel
      obtain ⟨fuel', rfl⟩ := Nat.exists_eq_add_of_le' (Nat.one_le_of_lt hfuel')
      exact ⟨[name], by rw [lines, hrun, lines?]⟩
    | cons next groups =>
      obtain ⟨fuel', hfuel', hrun⟩ := hgroup hfuel
      rw [List.length_cons] at hfuel'
      obtain ⟨fuel', rfl⟩ := Nat.exists_eq_add_of_le' (Nat.one_le_of_lt hfuel')
      rw [lines, hrun, lines?_blank, hsplit]
      exact ih (hsplit ▸ hnodup) (fun group hgroup => hplain group (List.mem_cons_of_mem _ hgroup))
        (fun group hgroup => hfits group (List.mem_cons_of_mem _ hgroup)) [name] (by omega)

theorem closeEntries_readFields (fields : List (String × Field)) :
    closeEntries (readFields fields) = ofFields fields := by
  induction fields with
  | nil => rfl
  | cons entry fields ih => exact congrArg (_ :: ·) ih

theorem closeEntries_readGroups (groups : Groups) :
    closeEntries (readGroups groups) = ofGroups groups := by
  induction groups with
  | nil => rfl
  | cons group groups ih =>
    rw [readGroups, List.map_cons, closeEntries, ← readGroups, ih, Item.close,
      closeEntries_readFields]
    rfl

/-- **What is written of groups is read as these groups.** -/
theorem parse?_lines {groups : Groups} (hplain : groups.plain = true) (hfit : groups.fit = true) :
    parse? (String.ofList (lines groups)) = some (ofGroups groups) := by
  obtain ⟨hnames, hfields⟩ := Bool.and_eq_true_iff.mp hplain
  obtain ⟨hnodup, hgroups⟩ := of_arePlain hnames
  have hfits : ∀ group ∈ groups, ∀ entry ∈ group.2, entry.2.fits = true := fun group hgroup =>
    List.all_eq_true.mp (List.all_eq_true.mp hfit group hgroup)
  obtain ⟨path, hrun⟩ := @lines?_lines [] groups hnodup (fun group hgroup =>
    ⟨hgroups _ (List.mem_map_of_mem (f := Prod.fst) hgroup),
      List.all_eq_true.mp hfields group hgroup⟩) hfits [] _ (Nat.lt_succ_self _)
  rw [parse?, String.toList_ofList]
  exact (congrArg (Option.map _) hrun).trans (congrArg some (closeEntries_readGroups groups))

end Toml

end FiberPrograms
