import ModuleImports.Proofs.Lexeme.LongestNumeral
import ModuleImports.Proofs.Token.Account

/-!
# Proofs/Token/Numeral — numerals where they stand in a text

A scanner that comes to a digit, or to a minus before one, looks at the longest numeral there.  How
the text goes on behind it decides whether that is the token or what is wrong
(`Scanner.next_eq_of_longestIn`).  A numeral always is a decimal, so it has a number.
-/

namespace ModuleImports

namespace Numeral

/-- **What a numeral that ends at `stop` comes to** if it is the longest at its place: the token with
its number, or what is wrong, told by the two characters behind it. -/
def verdict (n : Numeral) (x : Binary64) (place stop : Nat) (behind second : Option Char) :
    Except LexicalError (Option Token) :=
  if (n.spelling = ['0'] ∨ n.spelling = ['-', '0']) ∧ behind.any Char.isDigit then
    .error ⟨.leadingZero, [], ⟨stop - 1, 2⟩⟩
  else if n.fraction = none ∧ n.exponent = none ∧ behind = some '.' then
    .error ⟨.digitExpected, [], ⟨stop + 1, 1⟩⟩
  else if n.exponent = none ∧ (behind = some 'e' ∨ behind = some 'E') then
    if second = some '+' ∨ second = some '-' then .error ⟨.digitExpected, [], ⟨stop + 2, 1⟩⟩
    else .error ⟨.digitExpected, [], ⟨stop + 1, 1⟩⟩
  else .ok (some ⟨.numericLiteral, .number x, .ofBounds place stop⟩)

variable {n : Numeral} {cs rest : List Char} {r : Except Misread Numeral}

theorem spelling_of_zero (hwhole : n.whole = ['0']) (hf : n.fraction = none)
    (he : n.exponent = none) : n.spelling = ['0'] ∨ n.spelling = ['-', '0'] := by
  rw [spelling, hwhole, hf, he]
  rcases n.negative
  · exact .inl rfl
  · exact .inr rfl

theorem length_readSign (cs : List Char) : (readSign cs).1.toList.length =
    if cs.head? = some '+' ∨ cs.head? = some '-' then 1 else 0 := by
  rcases cs with _ | ⟨c, cs⟩
  · rfl
  · rw [readSign]
    split
    · next hc => rw [if_pos (by simpa using hc)]; rfl
    · next hc => rw [if_neg (by simpa using hc)]; rfl

end Numeral

namespace Scanner

variable {s : Scanner} {place : Nat} {c d : Char} {cs : List Char}

/-- **At a digit**, or at a minus before one, a scanner gives what is read there as a numeral. -/
theorem next_eq_of_digit (hgoing : s.finished = false)
    (hgap : s.source.Gap s.options.skipComments s.place place)
    (hat : s.source.chars.drop place = c :: cs)
    (hc : c = '-' ∧ ¬Stops Char.isDigit cs ∨ c.isDigit = true) :
    s.next.1 = resultAt place (Numeral.readLexeme (c :: cs)) := by
  have hclass : (c == '-' || c.isDigit) = true := by
    rcases hc with ⟨rfl, -⟩ | hdigit
    · rfl
    · rw [hdigit, Bool.or_true]
  have hno : Trivia.NoTrivia s.options.skipComments (c :: cs) :=
    Trivia.noTrivia_of_class (p := fun c => c == '-' || c.isDigit) hclass (by decide)
  rw [next_eq_of_gap hgoing hgap hat hno, Lexeme.read_digit hc]

/-- Reading gives the verdict on the longest numeral. -/
theorem resultAt_of_longestIn {n : Numeral} {rest : List Char} {x : Binary64}
    (hn : n.LongestIn (n.spelling ++ rest)) (hvalue : Binary64.ofDecimal? n.spelling = some x)
    (place : Nat) : resultAt place (Numeral.readLexeme (n.spelling ++ rest)) =
      n.verdict x place (place + n.spelling.length) rest.head? rest.tail.head? := by
  have houtcome := hn.outcome
  rw [Numeral.readLexeme, Numeral.verdict]
  generalize Numeral.read (n.spelling ++ rest) = r at houtcome ⊢
  cases houtcome with
  | ends hend =>
    rw [if_neg fun h => Numeral.head?_any_iff.1 h.2 hend.digit,
      if_neg fun h => absurd (hend.fraction h.2.1 h.1 '.' h.2.2) (by decide),
      if_neg fun h => h.2.elim (fun he => absurd (hend.exponent h.1 'e' he) (by decide))
        fun he => absurd (hend.exponent h.1 'E' he) (by decide)]
    simp only [Except.bind, hvalue, Span.ofBounds, Nat.add_sub_cancel_left]
    rfl
  | zero hwhole hf he hdigit =>
    rw [if_pos ⟨Numeral.spelling_of_zero hwhole hf he, hdigit⟩]
    have hpos := List.length_pos_iff.2 hn.wellFormed.spelling_ne_nil
    rw [Nat.add_sub_assoc hpos]
    rfl
  | @point rest hf he hstops =>
    have hdigit : ¬(('.' :: rest).head?.any Char.isDigit = true) := by simp
    rw [if_neg fun h => hdigit h.2, if_pos ⟨hf, he, rfl⟩]
    rfl
  | @mark c cs rest sign he hmark hsign hstops =>
    have hc : c = 'e' ∨ c = 'E' := by simpa [isExponentMark] using hmark
    have hdigit : ¬((c :: cs).head?.any Char.isDigit = true) := by
      rcases hc with rfl | rfl <;> simp
    have hpoint : (c :: cs).head? ≠ some '.' := by rcases hc with rfl | rfl <;> simp
    have hlen := Numeral.length_readSign cs
    rw [if_neg fun h => hdigit h.2, if_neg fun h => hpoint h.2.2, if_pos ⟨he, by simpa using hc⟩,
      List.tail_cons]
    rw [hsign] at hlen
    split <;> next hsigned =>
      simp only [hsigned, if_true, if_false] at hlen
      rw [hlen]
      rfl

/-- **Numerals are scanned exactly.**  Where a scanner comes to a digit, or to a minus before one,
there is a longest numeral.  It is the token, with the number that it is read as, unless it is a
zero in front of a digit or the text goes on as only a longer numeral could. -/
theorem next_eq_of_longestIn (hgoing : s.finished = false)
    (hgap : s.source.Gap s.options.skipComments s.place place) (hd : d.isDigit = true)
    (hat : s.source.charAt? place = some d ∨
      s.source.charAt? place = some '-' ∧ s.source.charAt? (place + 1) = some d) :
    ∃ n : Numeral, n.LongestIn (s.source.chars.drop place) ∧
      (∀ m : Numeral, m.LongestIn (s.source.chars.drop place) → m = n) ∧
      ∃ x, Binary64.ofDecimal? n.spelling = some x ∧
        let stop := place + n.spelling.length
        s.next.1 = n.verdict x place stop (s.source.charAt? stop) (s.source.charAt? (stop + 1)) := by
  obtain ⟨c, cs, hdrop, hc⟩ : ∃ c cs, s.source.chars.drop place = c :: cs ∧
      (c = '-' ∧ ¬Stops Char.isDigit cs ∨ c.isDigit = true) := by
    rcases hat with hat | ⟨hat, hnext⟩
    · exact ⟨d, _, SourceText.drop_of_charAt? hat, .inr hd⟩
    · refine ⟨'-', _, SourceText.drop_of_charAt? hat, .inl ⟨rfl, ?_⟩⟩
      rw [SourceText.drop_of_charAt? hnext, stops_cons, hd]
      decide
  have hnext := next_eq_of_digit hgoing hgap hdrop hc
  obtain ⟨n, hn⟩ := Numeral.exists_longestIn hc
  obtain ⟨rest, hrest⟩ := hn.front
  have hvalue := hn.wellFormed.ofDecimal?_spelling
  refine ⟨n, hdrop ▸ hn, fun m hm => hn.eq (hdrop ▸ hm), n.value, hvalue, ?_⟩
  rw [← hrest] at hn hnext hdrop
  intro stop
  have hfirst : s.source.charAt? stop = rest.head? := SourceText.charAt?_add_length hdrop 0
  have hsecond : s.source.charAt? (stop + 1) = rest.tail.head? := by
    rw [SourceText.charAt?_add_length hdrop 1, List.drop_one]
  rw [hnext, hfirst, hsecond]
  exact resultAt_of_longestIn hn hvalue place

/-- The numeral of `-0.5e+x` ends before its mark, and a digit is missing behind the sign. -/
theorem next_eq_of_open_exponent :
    (⟨true, ['0'], some ['5'], none⟩ : Numeral).LongestIn "-0.5e+x".toList ∧
      (start (.ofString "-0.5e+x") ⟨true⟩).next.1 =
        .error ⟨.digitExpected, [], ⟨6, 1⟩⟩ := by
  have hlongest : (⟨true, ['0'], some ['5'], none⟩ : Numeral).LongestIn "-0.5e+x".toList := by
    refine ⟨?_, by decide, fun m hm hfront => ?_⟩
    · refine ⟨Numeral.digits_singleton (by decide), fun _ => rfl, ?_, nofun⟩
      rintro _ ⟨⟩
      exact Numeral.digits_singleton (by decide)
    · have hread := hm.read_spelling
      rw [List.prefix_iff_eq_take.1 hfront] at hread
      by_contra hlt
      have hcases : m.spelling.length = 5 ∨ m.spelling.length = 6 ∨ m.spelling.length = 7 := by
        have hlt : 4 < m.spelling.length := Nat.lt_of_not_le hlt
        have hle : m.spelling.length ≤ 7 := hfront.length_le
        omega
      rcases hcases with hlen | hlen | hlen <;> rw [hlen] at hread <;> exact nomatch hread
  have hgap : (SourceText.ofString "-0.5e+x").Gap true 0 0 := ⟨le_rfl, Nat.zero_le _, .nil⟩
  obtain ⟨n, -, hunique, x, -, hnext⟩ := next_eq_of_longestIn (d := '0')
    (s := start (.ofString "-0.5e+x") ⟨true⟩) rfl hgap (by decide) (.inr ⟨by decide, by decide⟩)
  obtain rfl := hunique _ hlongest
  exact ⟨hlongest, hnext⟩

end Scanner

end ModuleImports
