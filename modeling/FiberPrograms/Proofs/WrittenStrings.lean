import FiberPrograms.Toml.Parser
import FiberPrograms.Toml.Quoted

/-!
# TOML strings, written and read

A string is written in one of four forms: between one or three quotes, single or double ones.
Between double quotes some characters are written as escapes; between three quotes the string may
go over several lines and have up to two of the quotes in a row. Whichever form is taken, the
string is read back, whatever follows it.

## Main definitions

* `Escapes`: what stands behind a backslash stands for a character
* `WrittenWithin`: how a string is written between three quotes

## Main results

* `basicString_escaped`, `literalString_append`: strings between one quote of a kind are read back
* `longStringBody_written`: strings between three quotes of a kind are read back
* `plainValue?_quoteChars`: a string is read back from the form that it is written in
-/

namespace FiberPrograms.Toml

open Text (hexValue? charOf?)

/-! ## Characters -/

theorem isText_of_needsEscape_eq_false {c : Char} (h : needsEscape c = false) (hbreak : c ≠ '\n') :
    isText c = true := by
  simp only [needsEscape, isText] at h ⊢
  simp at h ⊢
  grind

/-- A character between quotes is no line break, nor the first half of one. -/
theorem newline?_of_isText {c : Char} (h : isText c = true) (rest : List Char) :
    newline? (c :: rest) = none := by
  unfold newline?
  split
  next heq =>
    obtain rfl := (List.cons.inj heq).1
    exact absurd h (by decide)
  next heq =>
    obtain rfl := (List.cons.inj heq).1
    exact absurd h (by decide)
  next => rfl

/-- Behind the digits of a code anything may stand. -/
theorem codeEscape?_append {count : Nat} {digits : List Char} {c : Char}
    (hdigits : digits.length = count) (hcode : codeEscape? count digits = some (c, []))
    (rest : List Char) : codeEscape? count (digits ++ rest) = some (c, rest) := by
  simp only [codeEscape?, List.take_left' hdigits, List.drop_left' hdigits,
    List.take_of_length_le (Nat.le_of_eq hdigits), hdigits, Nat.lt_irrefl, if_false,
    Option.bind_eq_bind] at hcode ⊢
  obtain ⟨code, hvalue, hchar⟩ := Option.bind_eq_some_iff.mp hcode
  obtain ⟨d, hd, hpair⟩ := Option.bind_eq_some_iff.mp hchar
  obtain rfl : d = c := (Prod.mk.inj (Option.some.inj hpair)).1
  simp [hvalue, hd]

/-- What stands behind a backslash is an escape for a character. -/
structure Escapes (tail : List Char) (c : Char) : Prop where
  escape? : ∀ rest, escape? (tail ++ rest) = some (c, rest)
  newline? : ∀ rest, newline? (skipBlanks (tail ++ rest)) = none

/-- A character that can only be written as an escape is the one that its code stands for. -/
theorem escapes_codeEscape {c : Char} (h : needsEscape c = true) :
    Escapes (codeEscape c).tail c := by
  have hall : ∀ n < 128, codeEscape? 4 ((codeEscape (Char.ofNat n)).drop 2) =
      some (Char.ofNat n, []) := by
    decide +kernel
  have hsmall : c.toNat < 128 := by
    simp [needsEscape] at h
    omega
  have hcode := hall c.toNat hsmall
  rw [Char.ofNat_toNat] at hcode
  exact ⟨fun rest => codeEscape?_append (by rfl) hcode rest, fun rest => rfl⟩

/-- In which ways a character of a string can be written between double quotes. -/
theorem escaped_cons (long : Bool) (run : Nat) (c : Char) (cs : List Char) :
    (∃ tail, escaped long run (c :: cs) = '\\' :: tail ++ escaped long 0 cs ∧ Escapes tail c) ∨
    (escaped long run (c :: cs) = c :: escaped long 0 cs ∧ c ≠ '"' ∧ c ≠ '\\' ∧
      (isText c = true ∨ long = true ∧ c = '\n')) ∨
    (long = true ∧ run < 2 ∧ c = '"' ∧
      escaped long run (c :: cs) = '"' :: escaped long (run + 1) cs) := by
  simp only [escaped]
  split
  next hquote =>
    obtain rfl := eq_of_beq hquote
    split
    next hraw =>
      obtain ⟨hlong, hrun⟩ : long = true ∧ run < 2 := by simpa using hraw
      exact .inr (.inr ⟨hlong, hrun, rfl, rfl⟩)
    next => exact .inl ⟨['"'], rfl, fun _ => rfl, fun _ => rfl⟩
  split
  next h => exact .inl ⟨['b'], rfl, fun _ => eq_of_beq h ▸ rfl, fun _ => rfl⟩
  split
  next h => exact .inl ⟨['t'], rfl, fun _ => eq_of_beq h ▸ rfl, fun _ => rfl⟩
  split
  next h =>
    simp only [Bool.and_eq_true, beq_iff_eq] at h
    exact .inl ⟨['n'], rfl, fun _ => h.1 ▸ rfl, fun _ => rfl⟩
  split
  next h => exact .inl ⟨['f'], rfl, fun _ => eq_of_beq h ▸ rfl, fun _ => rfl⟩
  split
  next h => exact .inl ⟨['r'], rfl, fun _ => eq_of_beq h ▸ rfl, fun _ => rfl⟩
  split
  next h => exact .inl ⟨['\\'], rfl, fun _ => by rw [eq_of_beq h]; rfl, fun _ => rfl⟩
  split
  next h => exact .inl ⟨(codeEscape c).tail, rfl, escapes_codeEscape h⟩
  -- The character is written as it is, since none of the tests before has been met.
  next hquote _ _ hbreak _ _ hbackslash hescape =>
    refine .inr (.inl ⟨rfl, by simpa using hquote, by simpa using hbackslash, ?_⟩)
    by_cases hc : c = '\n'
    · exact .inr ⟨by simpa [hc] using hbreak, hc⟩
    · exact .inl (isText_of_needsEscape_eq_false (by simpa using hescape) hc)

theorem length_le_escaped (long : Bool) (run : Nat) (cs : List Char) :
    cs.length ≤ (escaped long run cs).length := by
  induction cs generalizing run with
  | nil => exact Nat.zero_le _
  | cons c cs ih =>
    obtain ⟨tail, h, -⟩ | ⟨h, -⟩ | ⟨-, -, -, h⟩ := escaped_cons long run c cs <;>
      simp only [h, List.length_cons, List.length_append] <;> have := ih 0 <;>
      have := ih (run + 1) <;> omega

/-! ## Strings of one line -/

/-- A string between double quotes is read back. -/
theorem basicString_escaped (cs rest : List Char) (run : Nat) (read : List Char) {fuel : Nat}
    (hfuel : cs.length < fuel) :
    basicString read fuel (escaped false run cs ++ '"' :: rest) =
      some (String.ofList (read.reverse ++ cs), rest) := by
  induction cs generalizing run read fuel with
  | nil =>
    obtain ⟨fuel, rfl⟩ := Nat.exists_eq_add_of_lt hfuel
    simp [escaped, basicString]
  | cons c cs ih =>
    obtain ⟨fuel, rfl⟩ := Nat.exists_eq_add_of_le' (Nat.succ_le_of_lt (Nat.zero_lt_of_lt hfuel))
    have hrest : ∀ read, basicString read fuel (escaped false 0 cs ++ '"' :: rest) =
        some (String.ofList (read.reverse ++ cs), rest) := fun read =>
      ih 0 read (Nat.lt_of_succ_lt_succ hfuel)
    obtain ⟨tail, hwritten, hescape⟩ | ⟨hwritten, hquote, hbackslash, htext⟩ | ⟨hlong, -⟩ :=
      escaped_cons false run c cs
    · rw [hwritten, List.cons_append, List.cons_append, List.append_assoc, basicString,
        hescape.escape?]
      simp [hrest]
    · replace htext : isText c = true := by simpa using htext
      rw [hwritten, List.cons_append, basicString]
      · simp [htext, hrest]
      · simpa using hquote
      · simpa using hbackslash
    · exact absurd hlong Bool.false_ne_true

/-- Where characters of a kind end is told by what follows them. -/
theorem takeWhile_dropWhile_append {p : Char → Bool} {cs rest : List Char}
    (hcs : ∀ c ∈ cs, p c = true) (hrest : ∀ c ∈ rest.head?, p c = false) :
    (cs ++ rest).takeWhile p = cs ∧ (cs ++ rest).dropWhile p = rest := by
  rw [List.takeWhile_append_of_pos hcs, List.dropWhile_append_of_pos hcs]
  cases rest with
  | nil => simp
  | cons c rest =>
    have hc : p c = false := hrest c rfl
    simp [hc]

/-- A string between single quotes is read back. -/
theorem literalString_append {cs : List Char} (hcs : ∀ c ∈ cs, c ≠ '\'' ∧ isText c = true)
    (rest : List Char) : literalString (cs ++ '\'' :: rest) = some (String.ofList cs, rest) := by
  have hall : ∀ c ∈ cs, (c != '\'' && isText c) = true := fun c hc => by simpa using hcs c hc
  have hend : ∀ c ∈ ('\'' :: rest).head?, (c != '\'' && isText c) = false := by simp
  obtain ⟨htake, hdrop⟩ := takeWhile_dropWhile_append hall hend
  rw [literalString, hdrop, htake]
  rfl

/-! ## Strings of several lines -/

/-- A string is written between three quotes of a kind. At most two of them in a row stand as they
are, of which `run` come before; any other character is read in one go, whatever follows it. -/
inductive WrittenWithin (quote : Char) (escapes : Bool) :
    (run : Nat) → List Char → (written : List Char) → Prop
  | nil (run : Nat) : WrittenWithin quote escapes run [] []
  | quote {run : Nat} {cs written : List Char} (hrun : run < 2)
      (rest : WrittenWithin quote escapes (run + 1) cs written) :
      WrittenWithin quote escapes run (quote :: cs) (quote :: written)
  | char {run : Nat} {c first : Char} {more cs written : List Char} (hfirst : first ≠ quote)
      (hread : ∀ read fuel tail,
        longString quote escapes read (fuel + 1) (first :: more ++ tail) =
          longString quote escapes (c :: read) fuel tail)
      (rest : WrittenWithin quote escapes 0 cs written) :
      WrittenWithin quote escapes run (c :: cs) (first :: more ++ written)

section Within

variable {quote : Char} {escapes : Bool} {run : Nat} {cs written : List Char}

/-- A character that stands for itself. -/
theorem WrittenWithin.itself {c : Char} (hc : c ≠ quote)
    (hread : ∀ read fuel tail, longString quote escapes read (fuel + 1) (c :: tail) =
      longString quote escapes (c :: read) fuel tail)
    (rest : WrittenWithin quote escapes 0 cs written) :
    WrittenWithin quote escapes run (c :: cs) (c :: written) :=
  @char quote escapes run c c [] cs written hc hread rest

theorem WrittenWithin.length_le (h : WrittenWithin quote escapes run cs written) :
    cs.length ≤ written.length := by
  induction h with
  | nil run => exact Nat.le_refl 0
  | quote hrun rest ih => exact Nat.succ_le_succ ih
  | char hfirst hread rest ih =>
    simp only [List.length_cons, List.length_append]
    omega

/-- What is written begins with at most two quotes, as many as are left, and then either ends or
goes on with something else. -/
theorem WrittenWithin.leading (h : WrittenWithin quote escapes run cs written) (hrun : run ≤ 2) :
    ∃ count ≤ 2 - run,
      (cs = List.replicate count quote ∧ written = List.replicate count quote) ∨
      ∃ c more, c ≠ quote ∧ written = List.replicate count quote ++ c :: more := by
  induction h with
  | nil run => exact ⟨0, Nat.zero_le _, .inl ⟨rfl, rfl⟩⟩
  | char hfirst hread rest ih => exact ⟨0, Nat.zero_le _, .inr ⟨_, _, hfirst, rfl⟩⟩
  | quote hless rest ih =>
    obtain ⟨count, hcount, ⟨rfl, rfl⟩ | ⟨c, more, hc, rfl⟩⟩ := ih hless
    · exact ⟨count + 1, by omega, .inl ⟨rfl, rfl⟩⟩
    · exact ⟨count + 1, by omega, .inr ⟨c, more, hc, rfl⟩⟩

/-- Fewer than three quotes are a part of the string. -/
theorem longString_quote {count : Nat} (hcount : count < 2) {c : Char} (hc : c ≠ quote)
    (read more : List Char) (fuel : Nat) :
    longString quote escapes read (fuel + 1) (quote :: (List.replicate count quote ++ c :: more)) =
      longString quote escapes (quote :: read) fuel (List.replicate count quote ++ c :: more) := by
  have hquotes : (quote :: (List.replicate count quote ++ c :: more)).takeWhile (· == quote) =
      quote :: List.replicate count quote := by
    simp [hc]
  rw [longString]
  simp [hquotes]
  omega

variable (escapes) in
/-- The string ends with the last three of up to five quotes. -/
theorem longString_end (count : Nat) (hcount : count ≤ 2) {rest : List Char}
    (hrest : rest.head? ≠ some quote) (read : List Char) (fuel : Nat) :
    longString quote escapes read (fuel + 1)
        (List.replicate count quote ++ quote :: quote :: quote :: rest) =
      some (String.ofList (read.reverse ++ List.replicate count quote), rest) := by
  have hquotes : (List.replicate (count + 3) quote ++ rest).takeWhile (· == quote) =
      List.replicate (count + 3) quote := by
    refine (takeWhile_dropWhile_append (by simp) fun c hc => ?_).1
    have hother : c ≠ quote := fun heq => hrest (heq ▸ hc)
    simpa using hother
  have hsplit : List.replicate count quote ++ quote :: quote :: quote :: rest =
      List.replicate (count + 3) quote ++ rest := by
    simp [List.replicate_succ']
  have hdrop : (List.replicate (count + 3) quote ++ rest).drop (count + 3) = rest :=
    List.drop_left' (List.length_replicate)
  have hmore : min count 2 = count := Nat.min_eq_left hcount
  rw [hsplit]
  rw [List.replicate_succ, List.cons_append] at hquotes hdrop ⊢
  have hlength : ¬(count + 2 + 1 < 3) := by omega
  rw [longString]
  simp [hquotes, hdrop, hmore, hlength]

/-- A string between three quotes is read back. -/
theorem longString_written (h : WrittenWithin quote escapes run cs written) (hrun : run ≤ 2)
    {rest : List Char} (hrest : rest.head? ≠ some quote) (read : List Char) {fuel : Nat}
    (hfuel : cs.length < fuel) :
    longString quote escapes read fuel (written ++ quote :: quote :: quote :: rest) =
      some (String.ofList (read.reverse ++ cs), rest) := by
  induction h generalizing read fuel with
  | nil run =>
    obtain ⟨fuel, rfl⟩ := Nat.exists_eq_add_of_lt hfuel
    have hend := longString_end escapes 0 (Nat.zero_le 2) hrest read (0 + fuel)
    simpa using hend
  | @char run c first more cs written hfirst hread within ih =>
    obtain ⟨fuel, rfl⟩ := Nat.exists_eq_add_of_le' (Nat.succ_le_of_lt (Nat.zero_lt_of_lt hfuel))
    rw [List.append_assoc, hread, ih (Nat.zero_le 2) (c :: read) (Nat.lt_of_succ_lt_succ hfuel)]
    simp
  | @quote run cs written hless within ih =>
    obtain ⟨fuel, rfl⟩ := Nat.exists_eq_add_of_le' (Nat.succ_le_of_lt (Nat.zero_lt_of_lt hfuel))
    -- Whether the quote is a part of the string or of its end depends on all quotes that follow.
    obtain ⟨count, hcount, ⟨rfl, rfl⟩ | ⟨c, more, hc, rfl⟩⟩ := within.leading hless
    · have hend := longString_end escapes (count + 1) (by omega) hrest read fuel
      rwa [List.replicate_succ] at hend
    · have hrest := ih hless (quote :: read) (Nat.lt_of_succ_lt_succ hfuel)
      rw [List.append_assoc, List.cons_append] at hrest
      rw [List.cons_append, List.append_assoc, List.cons_append,
        longString_quote (by omega) hc, hrest]
      simp

/-- A string between three quotes is read back, whether it starts on a line of its own or not; it
has to do so if it begins with a line break. -/
theorem longStringBody_written (h : WrittenWithin quote escapes 0 cs written)
    {rest opening : List Char} (hrest : rest.head? ≠ some quote)
    (hopening : opening = ['\n'] ∨
      opening = [] ∧ newline? (written ++ quote :: quote :: quote :: rest) = none) :
    longStringBody quote escapes (opening ++ (written ++ quote :: quote :: quote :: rest)) =
      some (String.ofList cs, rest) := by
  have hfuel : cs.length < (written ++ quote :: quote :: quote :: rest).length + 1 := by
    have hlength := h.length_le
    rw [List.length_append]
    omega
  have hread := longString_written h (Nat.zero_le 2) hrest [] hfuel
  obtain rfl | ⟨rfl, hbreak⟩ := hopening
  · exact hread
  · rw [List.nil_append, longStringBody, hbreak]
    exact hread

/-- A character of a text. -/
theorem longString_text {c : Char} (hquote : c ≠ quote) (hescapes : escapes = true → c ≠ '\\')
    (htext : isText c = true) (read rest : List Char) (fuel : Nat) :
    longString quote escapes read (fuel + 1) (c :: rest) =
      longString quote escapes (c :: read) fuel rest := by
  rw [longString]
  simp [hquote, newline?_of_isText htext rest, htext]
  exact fun hesc hbackslash => absurd hbackslash (hescapes hesc)

/-- A line break. -/
theorem longString_break (hquote : quote ≠ '\n') (read rest : List Char) (fuel : Nat) :
    longString quote escapes read (fuel + 1) ('\n' :: rest) =
      longString quote escapes ('\n' :: read) fuel rest := by
  rw [longString]
  simp [hquote.symm, newline?]

end Within

/-- A string is written between three double quotes. -/
theorem writtenWithin_escaped (cs : List Char) {run : Nat} :
    WrittenWithin '"' true run cs (escaped true run cs) := by
  induction cs generalizing run with
  | nil => exact .nil run
  | cons c cs ih =>
    obtain ⟨tail, hwritten, hescape⟩ | ⟨hwritten, hquote, hbackslash, htext⟩ |
      ⟨-, hrun, rfl, hwritten⟩ := escaped_cons true run c cs
    · rw [hwritten]
      refine .char (by decide) (fun read fuel rest => ?_) ih
      rw [List.cons_append, longString]
      simp [hescape.escape?, hescape.newline?]
    · rw [hwritten]
      refine .itself hquote (fun read fuel rest => ?_) ih
      obtain htext | ⟨-, rfl⟩ := htext
      · exact longString_text hquote (fun _ => hbackslash) htext read rest fuel
      · exact longString_break (by decide) read rest fuel
    · rw [hwritten]
      exact .quote hrun ih

theorem le_longestRun (c : Char) (before : Nat) (cs : List Char) :
    before ≤ longestRun c before cs := by
  induction cs generalizing before with
  | nil => exact Nat.le_refl before
  | cons d cs ih =>
    rw [longestRun]
    split
    · exact Nat.le_of_succ_le (ih (before + 1))
    · exact Nat.le_max_left _ _

/-- A string is written between three single quotes as it is, if it has no more than two of them in
a row and nothing that cannot be seen. -/
theorem writtenWithin_literal {cs : List Char} (hcs : ∀ c ∈ cs, needsEscape c = false) {run : Nat}
    (hrun : longestRun '\'' run cs ≤ 2) : WrittenWithin '\'' false run cs cs := by
  induction cs generalizing run with
  | nil => exact .nil run
  | cons c cs ih =>
    have hcs' : ∀ c ∈ cs, needsEscape c = false := fun d hd => hcs d (List.mem_cons_of_mem c hd)
    rw [longestRun] at hrun
    split at hrun
    next h =>
      obtain rfl := eq_of_beq h
      exact .quote (Nat.le_trans (le_longestRun '\'' (run + 1) cs) hrun) (ih hcs' hrun)
    next h =>
      have hquote : c ≠ '\'' := by simpa using h
      refine .itself hquote (fun read fuel rest => ?_)
        (ih hcs' (Nat.le_trans (Nat.le_max_right _ _) hrun))
      by_cases hbreak : c = '\n'
      · obtain rfl := hbreak
        exact longString_break (by decide) read rest fuel
      · have htext := isText_of_needsEscape_eq_false (hcs c List.mem_cons_self) hbreak
        exact longString_text hquote (fun h => absurd h Bool.false_ne_true) htext read rest fuel

/-! ## The form that is taken -/

theorem form_eq_or (cs : List Char) :
    form cs = .basic ∨ form cs = .longBasic ∨
      (form cs = .literal ∧ fits cs .literal = true) ∨
      (form cs = .longLiteral ∧ fits cs .longLiteral = true) := by
  rw [form]
  split
  next taken hfind =>
    have hfits := List.find?_some hfind
    cases taken with
    | basic => exact .inl rfl
    | longBasic => exact .inr (.inl rfl)
    | literal => exact .inr (.inr (.inl ⟨rfl, hfits⟩))
    | longLiteral => exact .inr (.inr (.inr ⟨rfl, hfits⟩))
  next =>
    split
    · exact .inr (.inl rfl)
    · exact .inl rfl

/-- Two quotes that a third does not follow are not three. -/
theorem plainValue?_basic {cs : List Char} (h : ∀ more, cs ≠ '"' :: '"' :: more) :
    plainValue? ('"' :: cs) =
      (basicString [] (cs.length + 1) cs).map fun (s, rest) => (.str s, rest) := by
  unfold plainValue?
  split <;> simp_all

theorem plainValue?_literal {cs : List Char} (h : ∀ more, cs ≠ '\'' :: '\'' :: more) :
    plainValue? ('\'' :: cs) = (literalString cs).map fun (s, rest) => (.str s, rest) := by
  unfold plainValue?
  split <;> simp_all

/-- A string between double quotes does not begin with one. -/
theorem escaped_append_ne (cs rest more : List Char) :
    escaped false 0 cs ++ '"' :: '\n' :: rest ≠ '"' :: '"' :: more := by
  intro h
  cases cs with
  | nil => simp [escaped] at h
  | cons c cs =>
    obtain ⟨tail, hwritten, -⟩ | ⟨hwritten, hquote, -⟩ | ⟨hlong, -⟩ := escaped_cons false 0 c cs
    · simp [hwritten] at h
    · simp [hwritten, hquote] at h
    · exact absurd hlong Bool.false_ne_true

/-- A string between three double quotes does not begin with a line break if it has none. -/
theorem newline?_escaped {cs : List Char} (h : '\n' ∉ cs) (rest : List Char) :
    newline? (escaped true 0 cs ++ '"' :: rest) = none := by
  cases cs with
  | nil => rfl
  | cons c cs =>
    obtain ⟨tail, hwritten, -⟩ | ⟨hwritten, -, -, htext⟩ | ⟨-, -, -, hwritten⟩ :=
      escaped_cons true 0 c cs
    · rw [hwritten]
      exact newline?_of_isText (by decide) _
    · obtain htext | ⟨-, rfl⟩ := htext
      · rw [hwritten]
        exact newline?_of_isText htext _
      · exact absurd List.mem_cons_self h
    · rw [hwritten]
      exact newline?_of_isText (by decide) _

/-- Neither does one between three single quotes. -/
theorem newline?_literal {cs : List Char} (hcs : ∀ c ∈ cs, needsEscape c = false) (h : '\n' ∉ cs)
    (rest : List Char) : newline? (cs ++ '\'' :: rest) = none := by
  cases cs with
  | nil => rfl
  | cons c cs =>
    have hbreak : c ≠ '\n' := fun heq => h (heq ▸ List.mem_cons_self)
    exact newline?_of_isText
      (isText_of_needsEscape_eq_false (hcs c List.mem_cons_self) hbreak) _

/-- **What is written as a string is read as that string**, in whatever form it is written. -/
theorem plainValue?_quoteChars (cs rest : List Char) :
    plainValue? (quoteChars cs ++ '\n' :: rest) = some (.str (String.ofList cs), '\n' :: rest) := by
  -- A line break right behind three quotes is skipped, so a string with line breaks gets one there;
  -- a string without any gets none, and then none can come first.
  have hopening : (if cs.contains '\n' then ['\n'] else []) = ['\n'] ∨
      (if cs.contains '\n' then ['\n'] else []) = [] ∧ '\n' ∉ cs := by
    by_cases hbreak : '\n' ∈ cs <;> simp [hbreak]
  obtain hform | hform | ⟨hform, hfits⟩ | ⟨hform, hfits⟩ := form_eq_or cs
  · -- Between two quotes, with escapes.
    have hwritten : quoteChars cs ++ '\n' :: rest =
        '"' :: (escaped false 0 cs ++ '"' :: '\n' :: rest) := by
      simp [quoteChars, hform, Form.isLong, Form.quotes]
    have hfuel : cs.length < (escaped false 0 cs ++ '"' :: '\n' :: rest).length + 1 := by
      have hlength := length_le_escaped false 0 cs
      rw [List.length_append]
      omega
    rw [hwritten, plainValue?_basic (escaped_append_ne cs rest), basicString_escaped _ _ _ _ hfuel]
    rfl
  · -- Between two runs of three quotes, with escapes.
    have hwritten : quoteChars cs ++ '\n' :: rest =
        '"' :: '"' :: '"' :: ((if cs.contains '\n' then ['\n'] else []) ++
          (escaped true 0 cs ++ '"' :: '"' :: '"' :: '\n' :: rest)) := by
      by_cases hbreak : '\n' ∈ cs <;> simp [quoteChars, hform, Form.isLong, Form.quotes, hbreak]
    rw [hwritten, plainValue?, longStringBody_written (writtenWithin_escaped cs) (by simp)
      (hopening.imp_right fun h => ⟨h.1, newline?_escaped h.2 _⟩)]
    rfl
  · -- As it is, between single quotes, of which there is none inside.
    obtain ⟨⟨hseen, hquote⟩, hbreak⟩ : ((∀ c ∈ cs, needsEscape c = false) ∧ '\'' ∉ cs) ∧
        '\n' ∉ cs := by
      simpa [fits] using hfits
    have hwritten : quoteChars cs ++ '\n' :: rest = '\'' :: (cs ++ '\'' :: '\n' :: rest) := by
      simp [quoteChars, hform, Form.isLong, Form.quotes]
    have hplain : ∀ c ∈ cs, c ≠ '\'' ∧ isText c = true := fun c hc =>
      ⟨fun heq => hquote (heq ▸ hc),
        isText_of_needsEscape_eq_false (hseen c hc) fun heq => hbreak (heq ▸ hc)⟩
    have hfirst : ∀ more, cs ++ '\'' :: '\n' :: rest ≠ '\'' :: '\'' :: more := by
      intro more h
      cases cs with
      | nil => simp at h
      | cons c cs => exact hquote ((List.cons.inj h).1 ▸ List.mem_cons_self)
    rw [hwritten, plainValue?_literal hfirst, literalString_append hplain]
    rfl
  · -- As it is, between two runs of three single quotes, with at most two in a row inside.
    obtain ⟨hseen, hrun⟩ : (∀ c ∈ cs, needsEscape c = false) ∧ longestRun '\'' 0 cs ≤ 2 := by
      simpa [fits] using hfits
    have hwritten : quoteChars cs ++ '\n' :: rest =
        '\'' :: '\'' :: '\'' :: ((if cs.contains '\n' then ['\n'] else []) ++
          (cs ++ '\'' :: '\'' :: '\'' :: '\n' :: rest)) := by
      by_cases hbreak : '\n' ∈ cs <;> simp [quoteChars, hform, Form.isLong, Form.quotes, hbreak]
    rw [hwritten, plainValue?, longStringBody_written (writtenWithin_literal hseen hrun) (by simp)
      (hopening.imp_right fun h => ⟨h.1, newline?_literal hseen h.2 _⟩)]
    rfl

end FiberPrograms.Toml
