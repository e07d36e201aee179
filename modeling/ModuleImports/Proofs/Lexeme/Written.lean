import ModuleImports.Lexeme.Read
import ModuleImports.Proofs.Lexeme.Gap
import ModuleImports.Proofs.Lexeme.NumeralForm
import ModuleImports.Proofs.Lexeme.Spelling

/-!
# Proofs/Lexeme/Written — lexemes and how they are written

`Lexeme.Written` says of each form of lexeme what its characters are.  Whatever is read is written
in front of the rest of the text (`Lexeme.exists_written_of_read`).  Conversely what is written is
read back if nothing follows it (`Lexeme.Written.read`); otherwise the text may go on with a longer
lexeme.
-/

namespace ModuleImports

open Vocabulary

/-- **How a lexeme is written.** -/
inductive Lexeme.Written : List Char → Lexeme → Prop
  | word {c : Char} {cs : List Char} : isWordStart c = true → (∀ d ∈ cs, isWordPart d = true) →
      Written (c :: cs)
        ⟨Word.kind (String.ofList (c :: cs)), .text (String.ofList (c :: cs)), cs.length + 1⟩
  | operator {op : String} : op ∈ operators →
      Written op.toList ⟨.operator, .text op, op.toList.length⟩
  | delimiter {c : Char} : c ∈ delimiters → Written [c] ⟨.delimiter, .text c.toString, 1⟩
  | numeral {n : Numeral} : n.WellFormed →
      Written n.spelling ⟨.numericLiteral, .number n.value, n.spelling.length⟩
  | literal {quote : Char} {body content : List Char} : isQuote quote = true →
      Literal.Content quote body content → Written (quote :: (body ++ [quote]))
        ⟨Literal.kind quote, .text (String.ofList content), body.length + 2⟩

/-! ## Character classes -/

/-- The decimal digits. -/
def digits : List Char := "0123456789".toList

/-- The characters that operators are made of. -/
def marks : List Char := "+-*/%=&|^~<>!?.".toList

theorem mem_digits_of_isDigit {c : Char} (h : c.isDigit = true) : c ∈ digits := by
  have hsmall : ∀ n < 58, (Char.ofNat n).isDigit = true → Char.ofNat n ∈ digits := by decide
  have hc : c.toNat < 58 := by
    simp only [Char.isDigit, Bool.and_eq_true, decide_eq_true_eq] at h
    exact Nat.lt_succ_of_le h.2
  exact of_forall_ofNat (P := fun c => c.isDigit = true → c ∈ digits) hsmall hc h

theorem isQuote_iff {c : Char} : isQuote c = true ↔ c = '"' ∨ c = '\'' ∨ c = '\x60' := by
  simp [isQuote, templateQuote, or_assoc]

variable {c : Char} {cs w rest : List Char} {l : Lexeme}

/-! ## Operators -/

namespace Operator

variable {op : String}

theorem toList_ne_nil (hop : op ∈ operators) : op.toList ≠ [] := by
  have hne : ∀ op ∈ operators, op.toList ≠ [] := by decide
  exact hne op hop

theorem mem_marks (hop : op ∈ operators) (hc : c ∈ op.toList) : c ∈ marks := by
  have hmarks : ∀ op ∈ operators, op.toList.all marks.contains = true := by decide
  exact List.contains_iff_mem.1 (List.all_eq_true.1 (hmarks op hop) c hc)

theorem fits_iff {n : Nat} : fits cs n = true ↔ (cs.take n).length = n ∧
    String.ofList (cs.take n) ∈ operators ∧
    ¬(String.ofList (cs.take n) = "?." ∧ (cs[2]?).any Char.isDigit = true) := by
  simp [fits, isOperator, and_assoc, imp_iff_not_or]

/-- An operator that is found is one that the text starts with. -/
theorem exists_of_read? (h : read? cs = some l) : ∃ op rest, op ∈ operators ∧
    cs = op.toList ++ rest ∧ l = ⟨.operator, .text op, op.toList.length⟩ := by
  simp only [read?, Option.map_eq_some_iff] at h
  obtain ⟨n, hn, rfl⟩ := h
  obtain ⟨hlen, hop, -⟩ := fits_iff.1 (List.find?_some hn)
  refine ⟨_, cs.drop n, hop, ?_, ?_⟩
  · rw [String.toList_ofList, List.take_append_drop]
  · rw [String.toList_ofList, hlen]

theorem read?_eq_none (h : c ∉ marks) : read? (c :: cs) = none := by
  rcases hread : read? (c :: cs) with _ | l
  · rfl
  · obtain ⟨op, rest, hop, hcs, -⟩ := exists_of_read? hread
    obtain ⟨d, ds, hd⟩ := List.exists_cons_of_ne_nil (toList_ne_nil hop)
    have hmark := mem_marks hop (hd ▸ List.mem_cons_self)
    rw [hd] at hcs
    exact absurd ((List.cons.inj hcs).1 ▸ hmark) h

/-- An operator is found by itself. -/
theorem read?_toList (hop : op ∈ operators) :
    read? op.toList = some ⟨.operator, .text op, op.toList.length⟩ := by
  have hread : ∀ op ∈ operators,
      read? op.toList = some ⟨.operator, .text op, op.toList.length⟩ := by decide +kernel
  exact hread op hop

end Operator

/-! ## Words, numerals and literals as lexemes -/

theorem Numeral.readLexeme_eq_ok_iff (hc : c = '-' ∧ ¬Stops Char.isDigit cs ∨ c.isDigit = true) :
    Numeral.readLexeme (c :: cs) = .ok l ↔ ∃ n : Numeral, n.WellFormed ∧
      (∃ rest, c :: cs = n.spelling ++ rest ∧ n.EndsBefore rest) ∧
      l = ⟨.numericLiteral, .number n.value, n.spelling.length⟩ := by
  constructor
  · intro h
    obtain ⟨n, hread, hlexeme⟩ := Except.bind_eq_ok_iff.1 h
    obtain ⟨hn, hrest⟩ := (Numeral.read_eq_ok_iff hc).1 hread
    rw [hn.ofDecimal?_spelling] at hlexeme
    exact ⟨n, hn, hrest, (Except.ok.inj hlexeme).symm⟩
  · rintro ⟨n, hn, hrest, rfl⟩
    refine Except.bind_eq_ok_iff.2 ⟨n, (Numeral.read_eq_ok_iff hc).2 ⟨hn, hrest⟩, ?_⟩
    rw [hn.ofDecimal?_spelling]

theorem Word.kind_ne_numericLiteral (word : String) : Word.kind word ≠ .numericLiteral := by
  unfold Word.kind
  split
  · exact nofun
  · split <;> exact nofun

theorem Literal.kind_eq_or (quote : Char) :
    Literal.kind quote = .templateLiteral ∨ Literal.kind quote = .stringLiteral := by
  unfold Literal.kind
  split
  · exact .inl rfl
  · exact .inr rfl

theorem Literal.ne_slash {quote : Char} (h : isQuote quote = true) : quote ≠ '\\' := by
  rintro rfl
  exact absurd h (by decide)

/-- **Whatever characters** can stand between quotes: with a backslash, the quote and the backslash
itself stand for themselves too. -/
theorem Literal.exists_content {quote : Char} (h : isQuote quote = true) (content : List Char) :
    ∃ body, Content quote body content := by
  induction content with
  | nil => exact ⟨[], .nil⟩
  | cons c content ih =>
    obtain ⟨body, hbody⟩ := ih
    by_cases hc : c = quote ∨ c = '\\'
    · have hmark : c ∈ ['"', '\'', '\x60', '\\'] := by
        rcases hc with rfl | rfl
        · rcases isQuote_iff.1 h with rfl | rfl | rfl <;> decide
        · decide
      exact ⟨_, .cons (.escape (.mark hmark)) hbody⟩
    · rw [not_or] at hc
      exact ⟨_, .cons (.raw hc.1 hc.2) hbody⟩

namespace Lexeme

/-! ## Reading is writing backwards -/

theorem Written.length_eq (h : Written w l) : w.length = l.length := by
  rcases h with _ | _ | _ | _ | _ <;> simp

theorem Written.ne_nil (h : Written w l) : w ≠ [] := by
  rcases h with _ | @⟨op, hop⟩ | _ | @⟨n, hn⟩ | _
  · exact List.cons_ne_nil _ _
  · exact Operator.toList_ne_nil hop
  · exact List.cons_ne_nil _ _
  · simp [Numeral.spelling, hn.whole.1]
  · exact List.cons_ne_nil _ _

/-- The kinds of token that stand for their written form. -/
def plainKinds : List TokenKind := [.keyword, .identifier, .operator, .delimiter]

theorem Written.value_eq (h : Written w l) (hkind : l.kind ∈ plainKinds) :
    l.value = .text (String.ofList w) := by
  rcases h with _ | _ | _ | _ | @⟨quote, _, _, _, _⟩
  · rfl
  · rw [String.ofList_toList]
  · rfl
  · simp [plainKinds] at hkind
  · rcases Literal.kind_eq_or quote with hq | hq <;> simp [plainKinds, hq] at hkind

theorem Written.number_iff (h : Written w l) :
    (∃ x, l.value = .number x) ↔ l.kind = .numericLiteral := by
  rcases h with @⟨c, cs, _, _⟩ | _ | _ | _ | @⟨quote, _, _, _, _⟩
  · simp [Word.kind_ne_numericLiteral]
  · simp
  · simp
  · simp
  · rcases Literal.kind_eq_or quote with hq | hq <;> simp [hq]

/-- **What is read stands written** at the front of the text. -/
theorem exists_written_of_read (h : read c cs = .ok l) :
    ∃ w rest, c :: cs = w ++ rest ∧ Written w l := by
  unfold read at h
  split at h
  · next hstart =>
    obtain rfl := Except.ok.inj h
    obtain ⟨run, rest, rfl, hrun, -, htake, -⟩ := exists_run isWordPart cs
    refine ⟨c :: run, rest, rfl, ?_⟩
    rw [Word.read, htake]
    exact .word hstart hrun
  have hnumeral : ∀ (hc : c = '-' ∧ ¬Stops Char.isDigit cs ∨ c.isDigit = true),
      Numeral.readLexeme (c :: cs) = .ok l → ∃ w rest, c :: cs = w ++ rest ∧ Written w l := by
    intro hc hread
    obtain ⟨n, hn, ⟨rest, hcs, -⟩, rfl⟩ := (Numeral.readLexeme_eq_ok_iff hc).1 hread
    exact ⟨_, rest, hcs, .numeral hn⟩
  split at h
  · next hminus => exact hnumeral (.inl ⟨hminus.1, Numeral.head?_any_iff.1 hminus.2⟩) h
  split at h
  · next hread =>
    obtain rfl := Except.ok.inj h
    obtain ⟨op, rest, hop, hcs, rfl⟩ := Operator.exists_of_read? hread
    exact ⟨_, rest, hcs, .operator hop⟩
  split at h
  · next hdelim =>
    obtain rfl := Except.ok.inj h
    exact ⟨[c], cs, rfl, .delimiter (by simpa [isDelimiter] using hdelim)⟩
  split at h
  · next hdigit => exact hnumeral (.inr hdigit) h
  split at h
  · next hquote =>
    obtain ⟨body, content, rest, rfl, hbody, rfl⟩ :=
      (Literal.read_eq_ok_iff (Literal.ne_slash hquote)).1 h
    exact ⟨c :: (body ++ [c]), rest, by simp, .literal hquote hbody⟩
  · simp at h

/-- A character that starts neither a word nor an operator stands for its own class. -/
theorem read_of_other (hstart : isWordStart c = false) (hmark : c ∉ marks) : read c cs =
    if isDelimiter c then .ok ⟨.delimiter, .text c.toString, 1⟩
      else if c.isDigit then Numeral.readLexeme (c :: cs)
      else if isQuote c then Literal.read c cs
      else .error (.of .unexpectedCharacter [c.toString] ⟨0, 1⟩ 0) := by
  have hminus : c ≠ '-' := by
    rintro rfl
    exact hmark (by decide)
  rw [read, hstart, if_neg Bool.false_ne_true, if_neg fun h => hminus h.1,
    Operator.read?_eq_none hmark]

/-- A quote is read as a literal. -/
theorem read_quote (h : isQuote c = true) : read c cs = Literal.read c cs := by
  rcases isQuote_iff.1 h with rfl | rfl | rfl <;>
    exact (read_of_other (by decide) (by decide)).trans rfl

theorem read_delimiter (h : c ∈ delimiters) :
    read c cs = .ok ⟨.delimiter, .text c.toString, 1⟩ := by
  have hstart : isWordStart c = false := eq_false_of_mem h (by decide)
  have hmark : marks.contains c = false := eq_false_of_mem h (by decide)
  rw [read_of_other hstart (by simpa using hmark), if_pos (by simpa [isDelimiter] using h)]

/-- A digit, or a minus before one, is read as a numeral. -/
theorem read_digit (h : c = '-' ∧ ¬Stops Char.isDigit cs ∨ c.isDigit = true) :
    read c cs = Numeral.readLexeme (c :: cs) := by
  rcases h with ⟨rfl, hdigit⟩ | hdigit
  · rw [read, if_neg (by decide), if_pos ⟨rfl, Numeral.head?_any_iff.2 hdigit⟩]
  · have hc := mem_digits_of_isDigit hdigit
    have hstart : isWordStart c = false := eq_false_of_mem hc (by decide)
    have hmark : marks.contains c = false := eq_false_of_mem hc (by decide)
    have hdelim : isDelimiter c = false := eq_false_of_mem hc (by decide)
    rw [read_of_other hstart (by simpa using hmark), hdelim, if_neg Bool.false_ne_true,
      if_pos hdigit]

theorem read_operator {op : String} (hop : op ∈ operators) (hw : op.toList = c :: w) :
    read c w = .ok ⟨.operator, .text op, op.toList.length⟩ := by
  have hmarks : ∀ d ∈ c :: w, d ∈ marks := fun d hd => Operator.mem_marks hop (hw ▸ hd)
  have hstart : isWordStart c = false := eq_false_of_mem (hmarks c List.mem_cons_self) (by decide)
  have hread := Operator.read?_toList hop
  rw [hw] at hread
  have hminus : ¬(c = '-' ∧ (w.head?).any Char.isDigit = true) := by
    rintro ⟨-, hany⟩
    rw [Numeral.head?_any_iff] at hany
    refine hany fun d hd => ?_
    exact eq_false_of_mem (hmarks d (List.mem_cons_of_mem _ (List.mem_of_mem_head? hd))) (by decide)
  rw [read, hstart, if_neg Bool.false_ne_true, if_neg hminus, hread, hw]

/-- **What is written is read back** by itself. -/
theorem Written.read (h : Written (c :: w) l) : Lexeme.read c w = .ok l := by
  generalize hcw : c :: w = text at h
  rcases h with @⟨c', cs, hstart, hcs⟩ | @⟨op, hop⟩ | @⟨c', hdelim⟩ | @⟨n, hn⟩ |
    @⟨quote, body, content, hquote, hbody⟩
  · obtain ⟨rfl, rfl⟩ := List.cons.inj hcw
    rw [Lexeme.read, if_pos hstart, Word.read, List.takeWhile_eq_self_iff.2 hcs]
  · exact read_operator hop hcw.symm
  · obtain ⟨rfl, rfl⟩ := List.cons.inj hcw
    exact read_delimiter hdelim
  · have hspelling : c :: w = n.spelling ++ [] := hcw.trans (List.append_nil _).symm
    have hstart := hn.start hspelling.symm
    rw [read_digit hstart, Numeral.readLexeme_eq_ok_iff hstart]
    exact ⟨n, hn, ⟨[], hspelling, stops_nil, fun _ => stops_nil, fun _ _ => stops_nil⟩, rfl⟩
  · obtain ⟨rfl, rfl⟩ := List.cons.inj hcw
    rw [read_quote hquote, Literal.read_eq_ok_iff (Literal.ne_slash hquote)]
    exact ⟨body, content, [], rfl, hbody, rfl⟩

end Lexeme

end ModuleImports
