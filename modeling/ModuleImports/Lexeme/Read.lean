import ModuleImports.Lexeme.Trivia
import ModuleImports.Lexeme.Word
import ModuleImports.Lexeme.Numeral
import ModuleImports.Lexeme.Literal

/-!
# Lexeme/Read — the next lexeme of a text

The first character, and for a minus the one after it, decides which reader is in charge.  `Next.of`
adds the trivia in front, so that it says what a text holds next.
-/

namespace ModuleImports

open Vocabulary

namespace Lexeme

/-- **The lexeme at the front of a text** that starts with `c`.  A minus before a digit belongs to
the numeral, so it is looked at before the operators. -/
def read (c : Char) (cs : List Char) : Except Misread Lexeme :=
  if isWordStart c then .ok (Word.read c cs)
  else if c = '-' ∧ (cs.head?).any Char.isDigit then Numeral.readLexeme (c :: cs)
  else match Operator.read? (c :: cs) with
    | some l => .ok l
    | none =>
      if isDelimiter c then .ok ⟨.delimiter, .text c.toString, 1⟩
      else if c.isDigit then Numeral.readLexeme (c :: cs)
      else if isQuote c then Literal.read c cs
      else .error (.of .unexpectedCharacter [c.toString] ⟨0, 1⟩ 0)

theorem length_read_pos {c : Char} {cs : List Char} {l : Lexeme} (h : read c cs = .ok l) :
    0 < l.length := by
  unfold read at h
  split at h
  · cases h; exact Nat.succ_pos _
  · split at h
    · next hm => exact Numeral.length_readLexeme_pos h (.inl hm.1)
    · split at h
      · next l' hop =>
        cases h
        simp only [Operator.read?, Option.map_eq_some_iff] at hop
        obtain ⟨n, hn, rfl⟩ := hop
        exact Operator.length?_pos hn
      · split at h
        · cases h; exact Nat.one_pos
        · split at h
          · next hd => exact Numeral.length_readLexeme_pos h (.inr hd)
          · split at h
            · exact Literal.length_read_pos h
            · cases h

end Lexeme

/-- What a text holds next. -/
inductive Next where
  /-- Nothing but trivia, this many characters. -/
  | done (trivia : Nat)
  /-- A lexeme, after this much trivia. -/
  | lexeme (trivia : Nat) (l : Lexeme)
  /-- Something that is no token. -/
  | misread (m : Misread)
deriving DecidableEq, Repr

/-- **What a text holds next.** -/
def Next.of (comments : Bool) (cs : List Char) : Next :=
  match Trivia.length comments cs with
  | .error m => .misread m
  | .ok n =>
    match cs.drop n with
    | [] => .done n
    | c :: rest =>
      match Lexeme.read c rest with
      | .ok l => .lexeme n l
      | .error m => .misread (m.shift n)

/-- **Progress**: reading a lexeme leaves less text. -/
theorem Next.length_drop_lt {comments : Bool} {cs : List Char} {trivia : Nat} {l : Lexeme}
    (h : Next.of comments cs = .lexeme trivia l) :
    (cs.drop (trivia + l.length)).length < cs.length := by
  unfold Next.of at h
  split at h
  · cases h
  · split at h
    · cases h
    · next c rest hdrop =>
      split at h
      · next hread =>
        cases h
        have hlen : (cs.drop trivia).length = rest.length + 1 := by rw [hdrop]; rfl
        have hpos := Lexeme.length_read_pos hread
        simp only [List.length_drop] at hlen ⊢
        omega
      · cases h

end ModuleImports
