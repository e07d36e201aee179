import ModuleImports.Proofs.Diagnostic.Wording
import ModuleImports.Proofs.Lexeme.Classification
import ModuleImports.Proofs.Token.Account

/-!
# Proofs/Token/Classification — words, operators, delimiters, and what is none of them

Where skipping trivia stops before the end of a text, the character there decides what is read, and
an error names it only if it starts nothing at all (`Scanner.next_eq_by_class`).  Numerals and
literals have modules of their own.
-/

namespace ModuleImports

open Vocabulary

namespace Scanner

variable {s : Scanner} {c : Char} {n : Nat}

/-- **Words, operators and delimiters are told apart by longest match over the tables.**  Where
skipping trivia stops before the end of a text, a letter, `_` or `$` gives a word; else the longest
operator there is given, unless it is a minus before a digit; else a delimiter; and an error names
the character just if it is none of these, no digit and no quote. -/
theorem next_eq_by_class (hgoing : s.finished = false)
    (hskip : Trivia.length s.options.skipComments s.rest = .ok n)
    (hat : s.source.charAt? (s.place + n) = some c) :
    let place := s.place + n
    let text := s.source.chars.drop place
    (c.isAlpha = true ∨ c = '_' ∨ c = '$' → ∃ run, Word.LongestIn run text ∧
      let word := String.ofList run
      s.next.1 = .ok (some ⟨if word ∈ keywords then .keyword else if word ∈ wordOperators then
        .operator else .identifier, .text word, ⟨place, run.length⟩⟩)) ∧
    (¬(c = '-' ∧ (s.source.charAt? (place + 1)).any Char.isDigit = true) →
      (∃ op ∈ operators, op.toList <+: text) → ∃ op, Operator.LongestIn op text ∧
        s.next.1 = .ok (some ⟨.operator, .text op, ⟨place, op.toList.length⟩⟩)) ∧
    (c ∈ delimiters → s.next.1 = .ok (some ⟨.delimiter, .text c.toString, ⟨place, 1⟩⟩)) ∧
    ∀ e, s.next.1 = .error e ∧ e.kind = .unexpectedCharacter ↔
      Lexeme.Unknown c (text.drop 1) ∧ e = ⟨.unexpectedCharacter, [c.toString], ⟨place, 1⟩⟩ ∧
        e.text = "Unexpected character '" ++ c.toString ++ "'." := by
  intro place text
  obtain ⟨cs, htext⟩ : ∃ cs, text = c :: cs := ⟨_, SourceText.drop_of_charAt? hat⟩
  have hnext := next_eq_of_skip hgoing hskip htext
  have hbehind : s.source.charAt? (place + 1) = cs.head? :=
    SourceText.charAt?_add_length (w := [c]) htext 0
  rw [htext]
  refine ⟨fun hword => ?_, fun hminus hop => ?_, fun hdelim => ?_, fun e => ?_⟩
  · obtain ⟨run, hrun, hread⟩ := Lexeme.exists_longestIn_of_word hword
    refine ⟨run, hrun, ?_⟩
    rw [hnext, hread, Word.kind_eq]
    rfl
  · obtain ⟨op, hop, hfront⟩ := hop
    obtain ⟨op', hlongest⟩ := Operator.exists_longestIn hop hfront
    rw [hbehind, Numeral.head?_any_iff] at hminus
    refine ⟨op', hlongest, ?_⟩
    rw [hnext, Lexeme.read_of_longestIn hlongest hminus]
    rfl
  · rw [hnext, Lexeme.read_delimiter hdelim]
    rfl
  · rw [hnext, List.drop_one, List.tail_cons, resultAt_eq_error_iff]
    constructor
    · rintro ⟨⟨m, hread, rfl⟩, hkind⟩
      obtain ⟨hunknown, rfl⟩ := Lexeme.read_eq_unexpected_iff.1 ⟨hread, hkind⟩
      exact ⟨hunknown, rfl, LexicalError.text_of_unexpectedCharacter _ _⟩
    · rintro ⟨hunknown, rfl, -⟩
      exact ⟨⟨_, hunknown.read, rfl⟩, rfl⟩

/-- The point of `?.5` belongs to the number, so the longest operator there is `?`. -/
theorem next_eq_by_class_of_conditional :
    Operator.LongestIn "?" "?.5:1".toList ∧
      ((start (.ofString "a?.5:1") ⟨true⟩).after 1).next.1 =
        .ok (some ⟨.operator, .text "?", ⟨1, 1⟩⟩) := by
  have hnext : ((start (.ofString "a?.5:1") ⟨true⟩).after 1).next.1 =
      .ok (some ⟨.operator, .text "?", ⟨1, 1⟩⟩) := by decide +kernel
  have htext : (SourceText.ofString "a?.5:1").chars.drop 1 = "?.5:1".toList := by decide
  have hclass := (next_eq_by_class (s := (start (.ofString "a?.5:1") ⟨true⟩).after 1) (n := 0)
    (c := '?') (by decide +kernel) (by decide +kernel) (by decide +kernel)).2.1
  have hplace : ((start (.ofString "a?.5:1") ⟨true⟩).after 1).place = 1 := by decide +kernel
  rw [source_after, hplace] at hclass
  obtain ⟨op, hlongest, hop⟩ := hclass (fun h => absurd h.1 (by decide))
    ⟨"?", by decide, by decide +kernel⟩
  obtain ⟨rfl, -⟩ : op = "?" ∧ _ := by simpa using hop.symm.trans hnext
  exact ⟨htext ▸ hlongest, hnext⟩

end Scanner

end ModuleImports
