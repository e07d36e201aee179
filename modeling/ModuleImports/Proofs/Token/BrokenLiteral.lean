import Mathlib.Order.Bounds.Basic
import ModuleImports.Proofs.Diagnostic.Wording
import ModuleImports.Proofs.Lexeme.BrokenLiteral
import ModuleImports.Proofs.Token.Literal

/-!
# Proofs/Token/BrokenLiteral — the error of a literal that is not read

A literal that is not read has one of three flaws, and it is the first thing that is wrong with it:
what is in front of it are spellings, as many as there can be (`SourceText.spellingEnds`).  Which
flaw it is shows in the text there, and decides the kind of the error and its span
(`Scanner.next_eq_error_of_quote`).
-/

namespace ModuleImports

/-- **Where spellings can end** that start at a place: what is between is a run of them. -/
def SourceText.spellingEnds (source : SourceText) (quote : Char) (start : Nat) : Set Nat :=
  {stop | start ≤ stop ∧ stop ≤ source.length ∧
    ∃ content, Literal.Content quote (source.slice start stop) content}

namespace Literal

/-- What can be wrong with a literal. -/
inductive Flaw where
  /-- The text ends, maybe after a backslash. -/
  | unterminated
  /-- A backslash stands before a character that starts no escape. -/
  | unknownEscape
  /-- An escape by code is no character, or the text ends inside it. -/
  | malformedEscape
deriving DecidableEq, Repr

/-- **What a flaw says** of a literal that starts at a place: how the text goes on where its
spellings end, and which error it is. -/
def Flaw.Explains (source : SourceText) (quote : Char) (place stop : Nat) (e : LexicalError) :
    Flaw → Prop
  | unterminated =>
    (stop = source.length ∨ source.charAt? stop = some '\\' ∧ stop + 1 = source.length) ∧
      e = ⟨if quote = '\x60' then .unterminatedTemplate else .unterminatedString, [],
        .ofBounds place source.length⟩
  | unknownEscape =>
    source.charAt? stop = some '\\' ∧ ∃ c, source.charAt? (stop + 1) = some c ∧
      ¬Escape.Starts c ∧ e = ⟨.invalidEscape, [c.toString], ⟨stop, 2⟩⟩ ∧
      e.text = "Invalid escape sequence '\\" ++ c.toString ++ "'."
  | malformedEscape =>
    source.charAt? stop = some '\\' ∧
      (source.charAt? (stop + 1) = some 'u' ∨ source.charAt? (stop + 1) = some '{') ∧
      ∃ length, e = ⟨.invalidUnicodeEscape, [], ⟨stop, length⟩⟩ ∧ 2 ≤ length ∧
        stop + length ≤ source.length

/-- The flaw that an error of a kind is about. -/
def Flaw.ofKind : LexicalErrorKind → Flaw
  | .invalidEscape => unknownEscape
  | .invalidUnicodeEscape => malformedEscape
  | _ => unterminated

variable {source : SourceText} {quote : Char} {place stop n : Nat} {e : LexicalError} {flaw : Flaw}
  {body content rest : List Char} {m : Misread}

theorem Flaw.Explains.eq_ofKind (h : flaw.Explains source quote place stop e) :
    flaw = .ofKind e.kind := by
  cases flaw with
  | unterminated =>
    obtain ⟨-, rfl⟩ := h
    split <;> rfl
  | unknownEscape =>
    obtain ⟨-, c, -, -, rfl, -⟩ := h
    rfl
  | malformedEscape =>
    obtain ⟨-, -, length, rfl, -⟩ := h
    rfl

/-- **A literal that breaks off** has the flaw that shows there. -/
theorem Broken.exists_explains (h : Broken quote n rest m)
    (hdrop : source.chars.drop (place + n) = rest)
    (hlen : place + n + rest.length = source.length) :
    ∃ flaw : Flaw, flaw.Explains source quote place (place + n) (m.error.shift place) := by
  have hspan : ∀ {k}, place + k = source.length → Span.ofBounds place source.length = ⟨place, k⟩ :=
    fun hk => by rw [Span.ofBounds, ← hk, Nat.add_sub_cancel_left]
  cases h with
  | ended =>
    refine ⟨.unterminated, .inl hlen, ?_⟩
    rw [hspan hlen]
    rfl
  | cut =>
    refine ⟨.unterminated, .inr ⟨SourceText.charAt?_of_drop hdrop, hlen⟩, ?_⟩
    rw [hspan (k := n + 1) hlen]
    rfl
  | @unknown c cs _ hstarts =>
    have hnext : source.chars.drop (place + n + 1) = c :: cs :=
      (SourceText.slice_of_drop (w := ['\\']) hdrop).2
    exact ⟨.unknownEscape, SourceText.charAt?_of_drop hdrop, c, SourceText.charAt?_of_drop hnext,
      hstarts, rfl, LexicalError.text_of_invalidEscape _ _⟩
  | @malformed c cs k hc _ hleast hmost =>
    have hnext : source.chars.drop (place + n + 1) = c :: cs :=
      (SourceText.slice_of_drop (w := ['\\']) hdrop).2
    have hcode := SourceText.charAt?_of_drop hnext
    refine ⟨.malformedEscape, SourceText.charAt?_of_drop hdrop, ?_, k, rfl, hleast, ?_⟩
    · rcases hc with rfl | rfl
      · exact .inl hcode
      · exact .inr hcode
    · simp only [List.length_cons] at hlen
      omega

/-- Spellings up to where there is none go as far as they can. -/
theorem Content.isGreatest_spellingEnds (hbody : Content quote body content)
    (hrest : ∀ w c, Spelling quote w c → ¬w <+: rest)
    (hdrop : source.chars.drop place = body ++ rest)
    (hlen : place + body.length + rest.length = source.length) :
    IsGreatest (source.spellingEnds quote place) (place + body.length) := by
  have hslice := (SourceText.slice_of_drop hdrop).1
  refine ⟨⟨Nat.le_add_right _ _, by omega, content, by rwa [hslice]⟩, ?_⟩
  rintro stop ⟨hle, hinside, content', hcontent'⟩
  have hfront : source.slice place stop <+: body ++ rest :=
    ⟨_, (hdrop ▸ source.drop_eq_slice_append hle).symm⟩
  have hshort := hbody.length_le hrest hcontent' hfront
  rw [SourceText.length_slice hinside] at hshort
  omega

end Literal

namespace Scanner

variable {s : Scanner} {place : Nat} {quote : Char} {e : LexicalError}

/-- **A malformed literal gets the right error at the right place.**  Where a scanner comes to a
quote and gives an error, the spellings behind the quote end somewhere, and just one flaw explains
the error by what stands there. -/
theorem next_eq_error_of_quote (hgoing : s.finished = false)
    (hgap : s.source.Gap s.options.skipComments s.place place)
    (hat : s.source.charAt? place = some quote) (hquote : quote ∈ ['"', '\'', '\x60'])
    (h : s.next.1 = .error e) :
    ∃ stop, IsGreatest (s.source.spellingEnds quote (place + 1)) stop ∧
      ∃! flaw : Literal.Flaw, flaw.Explains s.source quote place stop e := by
  have hquote : Vocabulary.isQuote quote = true := isQuote_iff.2 (by simpa using hquote)
  rw [next_eq_of_quote hgoing hgap hat hquote, resultAt_eq_error_iff] at h
  obtain ⟨m, hread, rfl⟩ := h
  obtain ⟨body, content, rest, hdrop, hbody, hbroken⟩ := Literal.exists_broken_of_read hread
  have hinside := (List.getElem?_eq_some_iff.1 hat).1
  have hlen : place + 1 + body.length + rest.length = s.source.length := by
    have hlen := congrArg List.length hdrop
    rw [List.length_drop, List.length_append] at hlen
    rw [SourceText.length]
    omega
  have hbehind := (SourceText.slice_of_drop hdrop).2
  rw [Nat.add_assoc place 1 body.length] at hbehind hlen
  obtain ⟨flaw, hflaw⟩ := hbroken.exists_explains hbehind hlen
  rw [← Nat.add_assoc] at hflaw hlen
  refine ⟨_, hbody.isGreatest_spellingEnds (fun _ _ => hbroken.not_isPrefix) hdrop hlen, flaw,
    hflaw, fun flaw' hflaw' => ?_⟩
  rw [hflaw'.eq_ofKind, hflaw.eq_ofKind]

/-- The braces of an escape may be looked for behind the closing quote, up to the end of the text. -/
theorem next_eq_error_of_open_brace :
    (start (.ofString r"'a\{41' b") ⟨false⟩).next.1 =
        .error ⟨.invalidUnicodeEscape, [], ⟨2, 7⟩⟩ ∧
      ∃ stop, IsGreatest ((SourceText.ofString r"'a\{41' b").spellingEnds '\'' 1) stop ∧
        ∃! flaw : Literal.Flaw, flaw.Explains (.ofString r"'a\{41' b") '\'' 0 stop
          ⟨.invalidUnicodeEscape, [], ⟨2, 7⟩⟩ := by
  have hnext : (start (.ofString r"'a\{41' b") ⟨false⟩).next.1 =
      .error ⟨.invalidUnicodeEscape, [], ⟨2, 7⟩⟩ := by decide +kernel
  exact ⟨hnext, next_eq_error_of_quote rfl ⟨le_rfl, Nat.zero_le _, .nil⟩ rfl (by decide) hnext⟩

end Scanner

end ModuleImports
