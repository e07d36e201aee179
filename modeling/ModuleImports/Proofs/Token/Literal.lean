import ModuleImports.Proofs.Token.Account

/-!
# Proofs/Token/Literal — quoted literals where they stand in a text

A scanner that comes to a quote gives a literal just if the text goes on with spellings up to the
same quote (`Scanner.next_eq_literal_iff`).  This is `Literal.read_eq_ok_iff` in its place: the
spellings are a slice of the text, and the literal is the stretch around it.
-/

namespace ModuleImports

namespace Scanner

variable {s : Scanner} {place : Nat} {quote : Char} {t : Token}

/-- **At a quote** a scanner gives what is read there as a literal. -/
theorem next_eq_of_quote (hgoing : s.finished = false)
    (hgap : s.source.Gap s.options.skipComments s.place place)
    (hat : s.source.charAt? place = some quote) (hquote : Vocabulary.isQuote quote = true) :
    s.next.1 = resultAt place (Literal.read quote (s.source.chars.drop (place + 1))) := by
  rw [next_eq_of_gap hgoing hgap (SourceText.drop_of_charAt? hat)
    (Trivia.noTrivia_of_class hquote (by decide)), Lexeme.read_quote hquote]

theorem next_eq_ok_iff_of_quote (hgoing : s.finished = false)
    (hgap : s.source.Gap s.options.skipComments s.place place)
    (hat : s.source.charAt? place = some quote) (hquote : Vocabulary.isQuote quote = true) :
    s.next.1 = .ok (some t) ↔ ∃ l,
      Literal.read quote (s.source.chars.drop (place + 1)) = .ok l ∧ l.toToken place = t := by
  rw [next_eq_of_quote hgoing hgap hat hquote]
  rcases Literal.read quote (s.source.chars.drop (place + 1)) with m | l <;> simp [resultAt]

/-- **A quoted literal is recognized and decoded exactly.**  A scanner that comes to a quote gives a
literal up to just those places where the characters between are spellings and the same quote comes
next, and it gives nothing else there. -/
theorem next_eq_literal_iff (hgoing : s.finished = false)
    (hgap : s.source.Gap s.options.skipComments s.place place)
    (hat : s.source.charAt? place = some quote) (hquote : quote ∈ ['"', '\'', '\x60']) :
    (∀ stop content, s.next.1 = .ok (some ⟨if quote = '\x60' then .templateLiteral else
        .stringLiteral, .text content, .ofBounds place stop⟩) ↔
      place + 1 < stop ∧ s.source.charAt? (stop - 1) = some quote ∧
        Literal.Content quote (s.source.slice (place + 1) (stop - 1)) content.toList) ∧
    ∀ t, s.next.1 = .ok (some t) → ∃ stop content, t = ⟨if quote = '\x60' then .templateLiteral else
      .stringLiteral, .text content, .ofBounds place stop⟩ := by
  have hquote : Vocabulary.isQuote quote = true := isQuote_iff.2 (by simpa using hquote)
  have hnext := fun t => next_eq_ok_iff_of_quote (t := t) hgoing hgap hat hquote
  simp only [hnext, Literal.read_eq_ok_iff (Literal.ne_slash hquote)]
  refine ⟨fun stop content => ⟨?_, ?_⟩, ?_⟩
  · rintro ⟨l, ⟨body, content', rest, hcs, hbody, rfl⟩, ht⟩
    obtain ⟨hslice, hdrop⟩ := SourceText.slice_of_drop hcs
    simp only [Lexeme.toToken, Token.mk.injEq, TokenValue.text.injEq, Span.ofBounds,
      Span.mk.injEq, true_and] at ht
    obtain ⟨-, rfl, hlen⟩ := ht
    have hstop : stop - 1 = place + 1 + body.length := by omega
    rw [hstop, hslice, String.toList_ofList]
    exact ⟨by omega, SourceText.charAt?_of_drop hdrop, hbody⟩
  · rintro ⟨hlt, hend, hbody⟩
    have hle : place + 1 ≤ stop - 1 := by omega
    have hinside : stop - 1 ≤ s.source.length := (List.getElem?_eq_some_iff.1 hend).1.le
    have hcs := s.source.drop_eq_slice_append hle
    rw [SourceText.drop_of_charAt? hend] at hcs
    refine ⟨_, ⟨_, _, _, hcs, hbody, rfl⟩, ?_⟩
    rw [SourceText.length_slice hinside, String.ofList_toList]
    have hlen : stop - 1 - (place + 1) + 2 = stop - place := by omega
    rw [Lexeme.toToken, hlen]
    rfl
  · rintro t ⟨l, ⟨body, content, rest, hcs, hbody, rfl⟩, rfl⟩
    refine ⟨place + (body.length + 2), String.ofList content, ?_⟩
    rw [Span.ofBounds, Nat.add_sub_cancel_left]
    rfl

/-- The code point `61` between braces is the letter that it is the code of. -/
theorem next_eq_literal_of_code :
    (start (.ofString "'\\u{61}'") ⟨false⟩).next.1 =
      .ok (some ⟨.stringLiteral, .text "a", .ofBounds 0 8⟩) := by
  have hat : (SourceText.ofString "'\\u{61}'").charAt? 0 = some '\'' := by decide
  have hspelling : Escape.Spelling "\\u{61}".toList 'a' :=
    .bracedUnit (by decide) ⟨[6, 1], .cons (by decide) (.cons (by decide) .nil), by decide⟩
  have hliteral := (next_eq_literal_iff (s := start (.ofString "'\\u{61}'") ⟨false⟩) rfl
    ⟨le_rfl, Nat.zero_le _, .nil⟩ hat (by decide)).1 8 "a"
  exact hliteral.2 ⟨by decide, by decide, .cons (.escape hspelling) .nil⟩

end Scanner

end ModuleImports
