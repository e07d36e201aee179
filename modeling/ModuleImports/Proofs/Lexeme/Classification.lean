import ModuleImports.Proofs.Lexeme.BrokenLiteral
import ModuleImports.Proofs.Lexeme.LongestNumeral
import ModuleImports.Proofs.Lexeme.Written

/-!
# Proofs/Lexeme/Classification — what the front of a text decides for

A letter, `_` or `$` starts a word, which is the longest run of word characters (`Word.LongestIn`).
The operators are looked for by their length, the longest first, so what is found is the longest
entry of the table that the text starts with, but for `?.` in front of a digit
(`Operator.read?_eq_some_iff`).  Nothing is found only where the text starts with no entry at all
(`Operator.read?_eq_none_iff`).

`Lexeme.Unread` lists the ways of reading that fail: in a numeral, in a literal, or at a character
that starts nothing, and that last one shows in the kind of the error
(`Lexeme.read_eq_unexpected_iff`).
-/

namespace ModuleImports

open Vocabulary

variable {c : Char} {cs rest : List Char} {l : Lexeme} {m : Misread} {op : String} {n : Nat}

/-! ## The longest operator -/

namespace Operator

/-- **An entry of the table that a text starts with.**  The point of `?.` belongs to a number if a
digit follows. -/
structure StandsIn (op : String) (cs : List Char) : Prop where
  mem : op ∈ operators
  front : op.toList <+: cs
  point : ¬(op = "?." ∧ (cs[2]?).any Char.isDigit = true)

/-- **The longest operator that a text starts with.** -/
structure LongestIn (op : String) (cs : List Char) : Prop extends StandsIn op cs where
  longest : ∀ op', StandsIn op' cs → op'.toList.length ≤ op.toList.length

/-- The lengths that fit are those of the entries. -/
theorem fits_iff_standsIn : fits cs n = true ↔ ∃ op, StandsIn op cs ∧ op.toList.length = n := by
  rw [fits_iff]
  constructor
  · rintro ⟨hlen, hop, hpoint⟩
    refine ⟨_, ⟨hop, ?_, hpoint⟩, ?_⟩
    · rw [String.toList_ofList]
      exact List.take_prefix _ _
    · rw [String.toList_ofList, hlen]
  · rintro ⟨op, ⟨hop, hfront, hpoint⟩, rfl⟩
    rw [← List.prefix_iff_eq_take.1 hfront, String.ofList_toList]
    exact ⟨rfl, hop, hpoint⟩

theorem mem_lengths_of_fits (h : fits cs n = true) : n ∈ lengths := by
  obtain ⟨op, hop, rfl⟩ := fits_iff_standsIn.1 h
  have hlengths : ∀ op ∈ operators, op.toList.length ∈ lengths := by decide
  exact hlengths op hop.mem

/-- The search goes down, so it finds the greatest length that fits. -/
theorem length?_eq_some_iff : length? cs = some n ↔
    fits cs n = true ∧ ∀ k, fits cs k = true → k ≤ n := by
  have hgreatest : ∀ {k}, length? cs = some k → fits cs k = true ∧
      ∀ m, fits cs m = true → m ≤ k := fun {k} h => by
    obtain ⟨hfits, above, below, hlengths, habove⟩ := List.find?_eq_some_iff_append.1 h
    have hsorted : lengths.Pairwise (· > ·) := by decide
    rw [hlengths, List.pairwise_append, List.pairwise_cons] at hsorted
    refine ⟨hfits, fun m hm => ?_⟩
    have hmem := hlengths ▸ mem_lengths_of_fits hm
    rcases List.mem_append.1 hmem with hmem | hmem
    · simpa [hm] using habove m hmem
    · rcases List.mem_cons.1 hmem with rfl | hmem
      · exact le_rfl
      · exact (hsorted.2.1.1 m hmem).le
  refine ⟨hgreatest, fun ⟨hfits, hmost⟩ => ?_⟩
  rcases hfound : length? cs with _ | k
  · exact absurd hfits (List.find?_eq_none.1 hfound n (mem_lengths_of_fits hfits))
  · obtain ⟨hk, hmost'⟩ := hgreatest hfound
    rw [le_antisymm (hmost k hk) (hmost' n hfits)]

/-- **The operator that is found is the longest** that the text starts with. -/
theorem read?_eq_some_iff : read? cs = some l ↔
    ∃ op, LongestIn op cs ∧ l = ⟨.operator, .text op, op.toList.length⟩ := by
  simp only [read?, Option.map_eq_some_iff, length?_eq_some_iff]
  constructor
  · rintro ⟨n, ⟨hfits, hmost⟩, rfl⟩
    obtain ⟨op, hop, rfl⟩ := fits_iff_standsIn.1 hfits
    refine ⟨op, ⟨hop, fun op' hop' => hmost _ (fits_iff_standsIn.2 ⟨op', hop', rfl⟩)⟩, ?_⟩
    rw [← List.prefix_iff_eq_take.1 hop.front, String.ofList_toList]
  · rintro ⟨op, hop, rfl⟩
    refine ⟨_, ⟨fits_iff_standsIn.2 ⟨op, hop.toStandsIn, rfl⟩, fun k hk => ?_⟩, ?_⟩
    · obtain ⟨op', hop', rfl⟩ := fits_iff_standsIn.1 hk
      exact hop.longest op' hop'
    · rw [← List.prefix_iff_eq_take.1 hop.front, String.ofList_toList]

/-- Where `?.` is left out there still is `?`. -/
theorem exists_standsIn (hop : op ∈ operators) (hfront : op.toList <+: cs) :
    ∃ op', StandsIn op' cs := by
  by_cases hpoint : op = "?." ∧ (cs[2]?).any Char.isDigit = true
  · obtain ⟨rfl, -⟩ := hpoint
    have hshort : "?".toList <+: "?.".toList := by decide
    exact ⟨"?", by decide, hshort.trans hfront, fun h => absurd h.1 (by decide)⟩
  · exact ⟨op, hop, hfront, hpoint⟩

/-- A text that starts with an entry of the table has a longest operator in front. -/
theorem exists_longestIn (hop : op ∈ operators) (hfront : op.toList <+: cs) :
    ∃ op', LongestIn op' cs := by
  obtain ⟨op', hop'⟩ := exists_standsIn hop hfront
  have hfits := fits_iff_standsIn.2 ⟨op', hop', rfl⟩
  rcases hread : read? cs with _ | l
  · rw [read?, Option.map_eq_none_iff] at hread
    exact absurd hfits (List.find?_eq_none.1 hread _ (mem_lengths_of_fits hfits))
  · obtain ⟨longest, hlongest, -⟩ := read?_eq_some_iff.1 hread
    exact ⟨longest, hlongest⟩

/-- **No operator is found** just where the text starts with no entry of the table. -/
theorem read?_eq_none_iff : read? cs = none ↔ ∀ op ∈ operators, ¬op.toList <+: cs := by
  constructor
  · intro h op hop hfront
    obtain ⟨op', hop'⟩ := exists_longestIn hop hfront
    exact nomatch h.symm.trans (read?_eq_some_iff.2 ⟨op', hop', rfl⟩)
  · intro h
    rcases hread : read? cs with _ | l
    · rfl
    · obtain ⟨op, hop, -⟩ := read?_eq_some_iff.1 hread
      exact absurd hop.front (h op hop.mem)

end Operator

/-! ## Words -/

theorem isWordPart_of_start (h : isWordStart c = true) : isWordPart c = true := by
  rw [isWordPart_iff, Char.isAlphanum, Bool.or_eq_true]
  rw [isWordStart_iff] at h
  tauto

namespace Word

/-- **The longest run of word characters** that a text starts with. -/
structure LongestIn (run cs : List Char) : Prop where
  front : run <+: cs
  chars : ∀ d ∈ run, d.isAlphanum = true ∨ d = '_' ∨ d = '$'
  longest : ∀ run' : List Char, run' <+: cs →
    (∀ d ∈ run', d.isAlphanum = true ∨ d = '_' ∨ d = '$') → run'.length ≤ run.length

theorem longestIn_takeWhile (cs : List Char) : LongestIn (cs.takeWhile isWordPart) cs := by
  refine ⟨List.takeWhile_prefix _, fun d hd => isWordPart_iff.1 (List.mem_takeWhile_imp hd), ?_⟩
  rintro run' ⟨rest, rfl⟩ hrun
  rw [List.takeWhile_append_of_pos fun d hd => isWordPart_iff.2 (hrun d hd), List.length_append]
  exact Nat.le_add_right _ _

theorem kind_eq (word : String) : kind word = if word ∈ keywords then .keyword
    else if word ∈ wordOperators then .operator else .identifier := by
  simp only [kind, isKeyword, isWordOperator, List.contains_iff_mem]

end Word

/-! ## What fails -/

/-- A numeral that is read always is a decimal, so only its parts can be missing. -/
theorem Numeral.readLexeme_eq_error_iff
    (hc : c = '-' ∧ ¬Stops Char.isDigit cs ∨ c.isDigit = true) :
    Numeral.readLexeme (c :: cs) = .error m ↔ Numeral.read (c :: cs) = .error m := by
  rw [Numeral.readLexeme]
  rcases hread : Numeral.read (c :: cs) with m' | n
  · simp only [Except.bind, Except.error.injEq]
  · rw [Except.bind, ((Numeral.read_eq_ok_iff hc).1 hread).1.ofDecimal?_spelling]
    exact ⟨nofun, nofun⟩

namespace Lexeme

/-- **A character that starts nothing.** -/
structure Unknown (c : Char) (cs : List Char) : Prop where
  word : ¬(c.isAlpha = true ∨ c = '_' ∨ c = '$')
  operator : ∀ op ∈ operators, ¬op.toList <+: c :: cs
  delimiter : c ∉ delimiters
  digit : c.isDigit = false
  quote : c ∉ ['"', '\'', '\x60']

/-- **The ways of reading that fail**: in a numeral, in a literal, and at a character that starts
nothing. -/
inductive Unread (c : Char) (cs : List Char) : Misread → Prop
  | numeral {n : Numeral} {rest : List Char} {m : Misread} : c :: cs = n.spelling ++ rest →
      n.WellFormed → n.Outcome rest (.error m) → Unread c cs m
  | literal {body rest : List Char} {m : Misread} : cs = body ++ rest →
      Literal.Broken c (1 + body.length) rest m → Unread c cs m
  | unknown : Unknown c cs → Unread c cs (.of .unexpectedCharacter [c.toString] ⟨0, 1⟩ 0)

theorem unread_of_readLexeme (hc : c = '-' ∧ ¬Stops Char.isDigit cs ∨ c.isDigit = true)
    (h : Numeral.readLexeme (c :: cs) = .error m) : Unread c cs m := by
  obtain ⟨n, hn⟩ := Numeral.exists_longestIn hc
  obtain ⟨rest, hrest⟩ := hn.front
  rw [← hrest] at hn
  have houtcome := hn.outcome
  rw [hrest, (Numeral.readLexeme_eq_error_iff hc).1 h] at houtcome
  exact .numeral hrest.symm hn.wellFormed houtcome

/-- **Whatever is not read** fails in one of the ways. -/
theorem unread_of_read (h : read c cs = .error m) : Unread c cs m := by
  unfold read at h
  split at h
  · simp at h
  next hstart =>
  split at h
  · next hminus =>
    exact unread_of_readLexeme (.inl ⟨hminus.1, Numeral.head?_any_iff.1 hminus.2⟩) h
  split at h
  · simp at h
  next hop =>
  split at h
  · simp at h
  next hdelim =>
  split at h
  · next hdigit => exact unread_of_readLexeme (.inr hdigit) h
  next hdigit =>
  split at h
  · obtain ⟨body, content, rest, hcs, -, hbroken⟩ := Literal.exists_broken_of_read h
    exact .literal hcs hbroken
  next hquote =>
  obtain rfl := Except.error.inj h
  refine .unknown ⟨fun hword => hstart (isWordStart_iff.2 hword), Operator.read?_eq_none_iff.1 hop,
    by simpa [isDelimiter] using hdelim, Bool.not_eq_true _ ▸ hdigit, fun hmem => ?_⟩
  exact hquote (isQuote_iff.2 (by simpa using hmem))

/-! ## What each class is read as -/

/-- A letter, `_` or `$` is read as a word, the longest there. -/
theorem exists_longestIn_of_word (h : c.isAlpha = true ∨ c = '_' ∨ c = '$') :
    ∃ run, Word.LongestIn run (c :: cs) ∧ read c cs =
      .ok ⟨Word.kind (String.ofList run), .text (String.ofList run), run.length⟩ := by
  have hstart := isWordStart_iff.2 h
  have htake := List.takeWhile_cons_of_pos (l := cs) (isWordPart_of_start hstart)
  refine ⟨c :: cs.takeWhile isWordPart, htake ▸ Word.longestIn_takeWhile (c :: cs), ?_⟩
  rw [read, if_pos hstart]
  rfl

/-- **The longest operator is read**, unless it is a minus in front of a digit. -/
theorem read_of_longestIn (h : Operator.LongestIn op (c :: cs))
    (hminus : ¬(c = '-' ∧ ¬Stops Char.isDigit cs)) :
    read c cs = .ok ⟨.operator, .text op, op.toList.length⟩ := by
  have hmark : c ∈ marks := by
    obtain ⟨d, ds, hop⟩ := List.exists_cons_of_ne_nil (Operator.toList_ne_nil h.mem)
    have hfront := h.front
    rw [hop, List.cons_prefix_cons] at hfront
    exact hfront.1 ▸ Operator.mem_marks h.mem (hop ▸ List.mem_cons_self)
  have hstart : isWordStart c = false := eq_false_of_mem hmark (by decide)
  have hread : Operator.read? (c :: cs) = some ⟨.operator, .text op, op.toList.length⟩ :=
    Operator.read?_eq_some_iff.2 ⟨op, h, rfl⟩
  rw [read, hstart, if_neg Bool.false_ne_true, if_neg fun h => hminus ⟨h.1,
    Numeral.head?_any_iff.1 h.2⟩, hread]

/-- A character that starts nothing is an error. -/
theorem Unknown.read (h : Unknown c cs) :
    Lexeme.read c cs = .error (.of .unexpectedCharacter [c.toString] ⟨0, 1⟩ 0) := by
  have hmark : c ≠ '-' := by
    rintro rfl
    exact h.operator "-" (by decide) ⟨cs, rfl⟩
  have hdelim : ¬isDelimiter c = true := by simpa [isDelimiter] using h.delimiter
  have hquote : ¬isQuote c = true := fun hq => h.quote (by simpa using isQuote_iff.1 hq)
  rw [Lexeme.read, if_neg fun hw => h.word (isWordStart_iff.1 hw), if_neg fun hm => hmark hm.1,
    Operator.read?_eq_none_iff.2 h.operator]
  simp only [hdelim, h.digit, hquote, if_false, Bool.false_eq_true]

/-- **Only there**: the errors of numerals and of literals are of other kinds. -/
theorem read_eq_unexpected_iff : read c cs = .error m ∧ m.error.kind = .unexpectedCharacter ↔
    Unknown c cs ∧ m = .of .unexpectedCharacter [c.toString] ⟨0, 1⟩ 0 := by
  constructor
  · rintro ⟨hread, hkind⟩
    cases unread_of_read hread with
    | numeral _ _ houtcome => cases houtcome <;> simp [Misread.of] at hkind
    | literal _ hbroken =>
      have hopen : ∀ k, (Literal.unterminated c k).error.kind ≠ .unexpectedCharacter := fun k => by
        simp only [Literal.unterminated, Misread.of]
        split <;> decide
      cases hbroken with
      | ended => exact absurd hkind (hopen _)
      | cut => exact absurd hkind (hopen _)
      | unknown => simp [Misread.of] at hkind
      | malformed => simp [Misread.of] at hkind
    | unknown h => exact ⟨h, rfl⟩
  · rintro ⟨h, rfl⟩
    exact ⟨h.read, rfl⟩

end Lexeme

end ModuleImports
