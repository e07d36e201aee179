import ModuleImports.Proofs.Lexeme.Classification
import ModuleImports.Proofs.Lexeme.Upcoming

/-!
# Proofs/Lexeme/Bounds — errors lie in the text that is read

Every reader builds the span of its error in its own way.  All of them stay inside the text, and
reading stops inside it; only where a digit is missing at the end of the text the span is the place
behind it (`Misread.Within`).
-/

namespace ModuleImports

variable {m : Misread} {c quote : Char} {cs rest : List Char} {comments : Bool} {k n : Nat}

/-- **An error inside a text of `n` characters**, or at its end if that is where a digit is
missing. -/
structure Misread.Within (n : Nat) (m : Misread) : Prop where
  stop_le : m.stop ≤ n
  start_le : m.error.span.start ≤ n
  span : m.error.span.stop ≤ n ∨ m.error.kind = .digitExpected ∧ m.error.span = ⟨n, 1⟩

namespace Misread

theorem within_of_stop_le (hstop : m.stop ≤ n) (hspan : m.error.span.stop ≤ n) : m.Within n :=
  ⟨hstop, (Nat.le_add_right _ _).trans hspan, .inl hspan⟩

/-- A missing digit is looked for inside the text or at its end. -/
theorem within_of_digitExpected (h : k ≤ n) : (of .digitExpected [] ⟨k, 1⟩ k).Within n := by
  refine ⟨h, h, ?_⟩
  rcases h.lt_or_eq with hlt | rfl
  · exact .inl hlt
  · exact .inr ⟨rfl, rfl⟩

theorem Within.shift (h : m.Within n) (k : Nat) : (m.shift k).Within (k + n) := by
  refine ⟨Nat.add_le_add_left h.stop_le k, Nat.add_le_add_left h.start_le k, ?_⟩
  rcases h.span with hstop | ⟨hkind, hspan⟩
  · rw [Misread.shift, LexicalError.shift, Span.stop_shift]
    exact .inl (Nat.add_le_add_left hstop k)
  · refine .inr ⟨hkind, ?_⟩
    rw [Misread.shift, LexicalError.shift, hspan]
    rfl

end Misread

/-- The error of a comment without an end reaches to the end of the text. -/
theorem Trivia.within_of_lengthFrom (h : lengthFrom comments n cs = .error m) :
    m.Within (n + cs.length) := by
  fun_induction lengthFrom comments n cs with
  | case1 => simp at h
  | case2 n c cs _ ih =>
    have hwithin := ih h
    rwa [Nat.add_assoc, Nat.add_comm 1, ← List.length_cons (a := c)] at hwithin
  | case3 => simp at h
  | case4 n c cs =>
    obtain rfl := Except.error.inj h
    exact Misread.within_of_stop_le le_rfl le_rfl
  | case5 n c cs _ _ k hcomment ih =>
    obtain ⟨w, rest, hcs, rfl, -⟩ := gap_of_comment hcomment
    obtain ⟨rfl, rfl⟩ := List.cons.inj hcs
    have hwithin := ih h
    rw [Nat.add_sub_cancel, List.drop_left] at hwithin
    have hlen : n + ('/' :: (w ++ rest)).length = n + (w.length + 1) + rest.length := by
      rw [List.length_cons, List.length_append]
      omega
    rwa [hlen]
  | case6 => simp at h

/-- What goes on behind a numeral is wrong before it ends. -/
theorem Numeral.Outcome.within {n : Numeral} (hn : n.WellFormed)
    (h : n.Outcome rest (.error m)) : m.Within (n.spelling.length + rest.length) := by
  have hpos := List.length_pos_iff.2 hn.spelling_ne_nil
  cases h with
  | zero =>
    refine Misread.within_of_stop_le (Nat.le_add_right _ _) ?_
    simp only [Misread.of, Span.stop, List.length_cons]
    omega
  | point => exact Misread.within_of_digitExpected (by simp)
  | @mark c cs rest sign _ _ hsign _ =>
    obtain ⟨rfl, -⟩ := append_of_readSign hsign
    refine Misread.within_of_digitExpected ?_
    rw [List.length_cons, List.length_append]
    omega

theorem Literal.within_unterminated (quote : Char) (h : k ≤ n) :
    (unterminated quote k).Within n := by
  refine Misread.within_of_stop_le h ?_
  rwa [unterminated, Misread.of, Span.stop, Nat.zero_add]

/-- A literal breaks off before the text ends. -/
theorem Literal.Broken.within (h : Literal.Broken quote n rest m) :
    m.Within (n + rest.length) := by
  cases h with
  | ended => exact within_unterminated quote le_rfl
  | cut => exact within_unterminated quote le_rfl
  | unknown =>
    refine Misread.within_of_stop_le ?_ ?_ <;>
      simp only [Misread.of, Span.stop, List.length_cons] <;> omega
  | malformed _ _ _ hmost =>
    refine Misread.within_of_stop_le ?_ ?_ <;>
      simp only [Misread.of, Span.stop, List.length_cons] <;> omega

theorem Lexeme.within_of_read (h : read c cs = .error m) : m.Within (cs.length + 1) := by
  cases unread_of_read h with
  | @numeral n rest _ hcs hn houtcome =>
    rw [← List.length_cons (a := c), hcs, List.length_append]
    exact houtcome.within hn
  | @literal body rest _ hcs hbroken =>
    have hwithin := hbroken.within
    rwa [Nat.add_assoc, ← List.length_append, ← hcs, Nat.add_comm] at hwithin
  | unknown => exact Misread.within_of_stop_le (Nat.zero_le _) (Nat.succ_le_succ (Nat.zero_le _))

/-- **Whatever is wrong next** is wrong inside the text. -/
theorem Next.within_of_misread (h : Next.of comments cs = .misread m) : m.Within cs.length := by
  have hfound := found_of comments cs
  rw [h] at hfound
  cases hfound with
  | @misread gap t c m' _ _ hread =>
    rw [List.length_append, List.length_cons]
    exact (Lexeme.within_of_read hread).shift gap.length
  | unclosed hlength => simpa using Trivia.within_of_lengthFrom hlength

end ModuleImports
