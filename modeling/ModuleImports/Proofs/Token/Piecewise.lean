import ModuleImports.Proofs.Lexeme.Upcoming
import ModuleImports.Token.Scan

/-!
# Proofs/Token/Piecewise — the scan of a text, piece by piece

Where a scan starts only moves what it gives (`scanFrom_add`).  Of a text in pieces, trivia in front
only move the scan of the rest (`scanFrom_gap_append`), and a lexeme in front adds its token
(`scanFrom_read`).

A text that scans without error can be continued after a line feed: no lexeme reaches over the
break, and a comment at the end of a line ends there, so its tokens come first and then all that the
continuation gives (`scanFrom_append_lineFeed`).
-/

namespace ModuleImports

variable {comments : Bool} {place n : Nat} {c : Char} {cs gap w rest : List Char} {l : Lexeme}

/-! ## Scans in their place -/

theorem LexicalError.shift_shift (m n : Nat) (e : LexicalError) :
    (e.shift m).shift n = e.shift (n + m) := by
  simp [LexicalError.shift, Span.shift_shift]

/-- The same scan of a text with `n` more characters in front. -/
def Scan.shift (n : Nat) (s : Scan) : Scan :=
  ⟨s.tokens.map (Token.shift n), s.failure.map (LexicalError.shift n)⟩

/-- **A scan may start anywhere.** -/
theorem scanFrom_add (comments : Bool) (n place : Nat) (cs : List Char) :
    scanFrom comments (n + place) cs = (scanFrom comments place cs).shift n := by
  induction hlen : cs.length using Nat.strongRecOn generalizing place cs with
  | _ k ih =>
    rcases hnext : Next.of comments cs with trivia | ⟨trivia, l⟩ | m
    · rw [scanFrom_done hnext, scanFrom_done hnext]
      rfl
    · rw [scanFrom_lexeme hnext, scanFrom_lexeme hnext, Nat.add_assoc n place (trivia + l.length),
        ih _ (hlen ▸ Next.length_drop_lt hnext) _ _ rfl]
      simp [Scan.shift, Scan.prepend, Lexeme.toToken, Token.shift, Span.shift, Nat.add_assoc]
    · rw [scanFrom_misread hnext, scanFrom_misread hnext]
      simp [Scan.shift, LexicalError.shift_shift]

/-- **Trivia in front** only move a scan. -/
theorem scanFrom_gap_append (place : Nat) (hgap : Trivia.Gap comments rest gap) :
    scanFrom comments place (gap ++ rest) = scanFrom comments (place + gap.length) rest := by
  have hnext := Next.of_gap_append hgap
  rcases h : Next.of comments rest with n | ⟨n, l⟩ | m <;> rw [h] at hnext
  · rw [scanFrom_done hnext, scanFrom_done h]
  · rw [scanFrom_lexeme hnext, scanFrom_lexeme h, Nat.add_assoc gap.length, ← List.drop_drop,
      List.drop_left]
    simp only [Nat.add_assoc]
  · rw [scanFrom_misread hnext, scanFrom_misread h]
    simp [Misread.shift, LexicalError.shift_shift]

theorem scanFrom_nil (comments : Bool) (place : Nat) :
    scanFrom comments place [] = ⟨[], none⟩ := by
  have hdone : Next.of comments [] = .done 0 := by
    simp [Next.of, Trivia.length, Trivia.lengthFrom]
  exact scanFrom_done hdone

/-- **A lexeme in front** adds its token. -/
theorem scanFrom_read (place : Nat) (hno : Trivia.NoTrivia comments (c :: (w ++ rest)))
    (hread : Lexeme.read c (w ++ rest) = .ok l) (hlen : l.length = w.length + 1) :
    scanFrom comments place (c :: (w ++ rest)) =
      (scanFrom comments (place + l.length) rest).prepend [l.toToken place] := by
  have hnext := Next.of_append .nil hno
  rw [List.nil_append, hread] at hnext
  have hdrop : (c :: (w ++ rest)).drop l.length = rest := by
    rw [hlen, List.drop_succ_cons, List.drop_left]
  rw [scanFrom_lexeme hnext, List.length_nil, Nat.zero_add, hdrop, Nat.add_zero]

/-- A lexeme as it is written adds its token, if a blank follows it or nothing. -/
theorem scanFrom_written (place : Nat) (hw : Lexeme.Written w l) (hrest : Separates rest) :
    scanFrom comments place (w ++ rest) =
      (scanFrom comments (place + l.length) rest).prepend [l.toToken place] := by
  obtain ⟨c, w, rfl⟩ := List.exists_cons_of_ne_nil hw.ne_nil
  have hno : Trivia.NoTrivia comments (c :: (w ++ rest)) := hw.noTrivia.append hrest.not_comment
  exact scanFrom_read place hno (hw.read_append hrest) hw.length_eq.symm

/-- What cannot be read ends the scan. -/
theorem scanFrom_unread {m : Misread} (place : Nat) (hno : Trivia.NoTrivia comments (c :: rest))
    (hread : Lexeme.read c rest = .error m) :
    scanFrom comments place (c :: rest) = ⟨[], some (m.error.shift place)⟩ := by
  have hnext := Next.of_append .nil hno
  rw [List.nil_append, hread] at hnext
  rw [scanFrom_misread hnext, List.length_nil, Misread.shift, LexicalError.shift_shift,
    Nat.add_zero]

/-! ## Going on after a line feed -/

theorem breaks_lineFeed (cs : List Char) : Breaks ('\n' :: cs) := by
  rintro c ⟨⟩
  decide

/-- Trivia up to the end of a text, and the line feed after it. -/
theorem gap_lineFeed (h : Trivia.Gap comments [] gap) (rest : List Char) :
    Trivia.Gap comments ('\n' :: rest) gap ∧ Trivia.Gap comments rest ['\n'] := by
  refine ⟨h.of_head? ?_, .blank (by decide) .nil⟩
  rintro c ⟨⟩
  exact .inr rfl

/-- A lexeme that comes next does so when the text goes on after a line feed. -/
theorem next_append_lineFeed (h : Next.of comments cs = .lexeme n l) (rest : List Char) :
    Next.of comments (cs ++ '\n' :: rest) = .lexeme n l ∧ n + l.length ≤ cs.length := by
  have hfound := Next.found_of comments cs
  rw [h] at hfound
  cases hfound with
  | @lexeme gap t c _ hgap hno hread =>
    obtain ⟨hread', hlen⟩ := (Lexeme.read_append_iff (breaks_lineFeed rest)).2 hread
    have hgap' : Trivia.Gap comments (c :: (t ++ '\n' :: rest)) gap :=
      hgap.of_head? fun d hd => .inl hd
    have hno' : Trivia.NoTrivia comments (c :: (t ++ '\n' :: rest)) :=
      hno.append (by rintro d ⟨⟩; decide)
    refine ⟨?_, ?_⟩
    · rw [List.append_assoc, List.cons_append, Next.of_append hgap' hno', hread']
    · rw [List.length_append, List.length_cons]
      omega

/-- **A text that scans without error goes on after a line feed** with what the continuation gives
by itself. -/
theorem scanFrom_append_lineFeed (h : (scanFrom comments place cs).failure = none)
    (rest : List Char) : scanFrom comments place (cs ++ '\n' :: rest) =
      (scanFrom comments (place + (cs.length + 1)) rest).prepend
        (scanFrom comments place cs).tokens := by
  induction hlen : cs.length using Nat.strongRecOn generalizing place cs with
  | _ k ih =>
    rcases hnext : Next.of comments cs with trivia | ⟨trivia, l⟩ | m
    · obtain ⟨hgap, hbreak⟩ := gap_lineFeed (Next.gap_of_done hnext).1 rest
      rw [scanFrom_gap_append place hgap, ← List.singleton_append,
        scanFrom_gap_append _ hbreak, scanFrom_done hnext, hlen]
      rfl
    · obtain ⟨hnext', hle⟩ := next_append_lineFeed hnext rest
      rw [scanFrom_lexeme hnext] at h
      have hdrop : (cs ++ '\n' :: rest).drop (trivia + l.length) =
          cs.drop (trivia + l.length) ++ '\n' :: rest := List.drop_append_of_le_length hle
      have hend : place + (trivia + l.length) + ((cs.drop (trivia + l.length)).length + 1) =
          place + (k + 1) := by
        rw [List.length_drop]
        omega
      rw [scanFrom_lexeme hnext', hdrop, ih _ (hlen ▸ Next.length_drop_lt hnext) h rfl, hend,
        scanFrom_lexeme hnext, Scan.prepend_prepend]
      rfl
    · rw [scanFrom_misread hnext] at h
      exact absurd h (Option.some_ne_none _)

end ModuleImports
