import ModuleImports.Proofs.Lexeme.Locality

/-!
# Proofs/Lexeme/Upcoming — what a text holds next, in its parts

`Next.Found` lists what a text can hold next.  A text that holds a lexeme next is a gap, the lexeme
as it is written, and a rest (`Next.exists_of_lexeme`); a text that holds nothing more is a gap
(`Next.gap_of_done`).  Conversely `Next.of_append` says what comes next after a gap that ends, and
`Next.of_gap_append` that a gap in front only moves what comes next.
-/

namespace ModuleImports

open Vocabulary

variable {comments : Bool} {c : Char} {cs gap w rest : List Char} {l : Lexeme} {n : Nat}

/-! ## The parts of a text -/

theorem Misread.shift_shift (m n : Nat) (e : Misread) : (e.shift m).shift n = e.shift (n + m) := by
  simp [Misread.shift, LexicalError.shift, Span.shift_shift, Nat.add_assoc]

namespace Next

/-- What comes after a gap that is as long as can be. -/
theorem of_append (hgap : Trivia.Gap comments (c :: cs) gap)
    (hno : Trivia.NoTrivia comments (c :: cs)) : Next.of comments (gap ++ c :: cs) =
      match Lexeme.read c cs with
      | .ok l => .lexeme gap.length l
      | .error m => .misread (m.shift gap.length) := by
  have hlength := Trivia.length_eq_ok_iff.2 ⟨gap, c :: cs, rfl, rfl, hgap, hno⟩
  unfold Next.of
  rw [hlength]
  rcases hread : Lexeme.read c cs with m | l <;> simp only [List.drop_left, hread]

/-- **What a text can hold next**: nothing but trivia, trivia and something that is read as a lexeme
or cannot be, or a comment without an end. -/
inductive Found (comments : Bool) : List Char → Next → Prop
  | done {gap : List Char} : Trivia.Gap comments [] gap → Found comments gap (.done gap.length)
  | lexeme {gap t : List Char} {c : Char} {l : Lexeme} : Trivia.Gap comments (c :: t) gap →
      Trivia.NoTrivia comments (c :: t) → Lexeme.read c t = .ok l →
      Found comments (gap ++ c :: t) (.lexeme gap.length l)
  | misread {gap t : List Char} {c : Char} {m : Misread} : Trivia.Gap comments (c :: t) gap →
      Trivia.NoTrivia comments (c :: t) → Lexeme.read c t = .error m →
      Found comments (gap ++ c :: t) (.misread (m.shift gap.length))
  | unclosed {cs : List Char} {m : Misread} : Trivia.length comments cs = .error m →
      Found comments cs (.misread m)

theorem found_of (comments : Bool) (cs : List Char) : Found comments cs (Next.of comments cs) := by
  rcases hlength : Trivia.length comments cs with m | n
  · rw [Next.of, hlength]
    exact .unclosed hlength
  · obtain ⟨gap, rest, rfl, rfl, hgap, hno⟩ := Trivia.length_eq_ok_iff.1 hlength
    rcases rest with _ | ⟨c, t⟩
    · rw [Next.of, hlength, List.append_nil]
      simpa using Found.done hgap
    · rw [of_append hgap hno]
      rcases hread : Lexeme.read c t with m | l
      · exact .misread hgap hno hread
      · exact .lexeme hgap hno hread

theorem gap_of_done (h : Next.of comments cs = .done n) :
    Trivia.Gap comments [] cs ∧ n = cs.length := by
  have hfound := found_of comments cs
  rw [h] at hfound
  cases hfound with | done hgap => exact ⟨hgap, rfl⟩

/-- **A lexeme comes next** only after a gap, and as it is written. -/
theorem exists_of_lexeme (h : Next.of comments cs = .lexeme n l) : ∃ gap w rest,
    cs = gap ++ (w ++ rest) ∧ n = gap.length ∧ Trivia.Gap comments (w ++ rest) gap ∧
      Lexeme.Written w l := by
  have hfound := found_of comments cs
  rw [h] at hfound
  cases hfound with
  | lexeme hgap _ hread =>
    obtain ⟨w, rest, hcs, hw⟩ := Lexeme.exists_written_of_read hread
    exact ⟨_, w, rest, by rw [hcs], rfl, hcs ▸ hgap, hw⟩

/-! ## Trivia in front -/

/-- The same after `n` more characters of trivia. -/
def shift (n : Nat) : Next → Next
  | done k => done (n + k)
  | lexeme k l => lexeme (n + k) l
  | misread m => misread (m.shift n)

/-- **Trivia in front** only move what comes next. -/
theorem of_gap_append (hgap : Trivia.Gap comments rest gap) :
    Next.of comments (gap ++ rest) = (Next.of comments rest).shift gap.length := by
  have hlength : Trivia.length comments (gap ++ rest) =
      Trivia.lengthFrom comments (gap.length + 0) rest := by
    rw [Trivia.length, Trivia.lengthFrom_gap_append 0 hgap, Nat.add_comm]
  rw [Trivia.lengthFrom_add] at hlength
  unfold Next.of
  rw [hlength, Trivia.length]
  rcases Trivia.lengthFrom comments 0 rest with m | n
  · rfl
  · simp only [← List.drop_drop, List.drop_left]
    rcases rest.drop n with _ | ⟨c, cs⟩
    · rfl
    · rcases hread : Lexeme.read c cs with m | l
      · simp only [hread, shift, Misread.shift_shift]
      · simp only [hread, shift]

end Next

/-! ## Where a gap ends -/

theorem Trivia.comment_eq_absent_iff :
    Trivia.comment (c :: cs) = .absent ↔ (c = '/' → ∀ d ∈ cs.head?, d ≠ '/' ∧ d ≠ '*') := by
  unfold Trivia.comment
  split
  · next heq =>
    obtain ⟨rfl, rfl⟩ := List.cons.inj heq
    simp
  · next heq =>
    obtain ⟨rfl, rfl⟩ := List.cons.inj heq
    refine iff_of_false ?_ (by simp)
    split <;> exact Trivia.Comment.noConfusion
  · next hline hblock =>
    refine iff_of_true rfl ?_
    rintro rfl d hd
    obtain ⟨tail, rfl⟩ := List.head?_eq_some_iff.1 hd
    constructor
    · rintro rfl
      exact hline tail rfl
    · rintro rfl
      exact hblock tail rfl

/-- What ends a gap does so whatever the text goes on with, as long as it is no comment. -/
theorem Trivia.NoTrivia.append (h : Trivia.NoTrivia comments (c :: cs))
    (hrest : ∀ d ∈ rest.head?, d ≠ '/' ∧ d ≠ '*') :
    Trivia.NoTrivia comments (c :: (cs ++ rest)) := by
  refine ⟨h.1, fun hcomments => Trivia.comment_eq_absent_iff.2 fun hc d hd => ?_⟩
  rcases cs with _ | ⟨d', cs⟩
  · exact hrest d hd
  · exact Trivia.comment_eq_absent_iff.1 (h.2 hcomments) hc d hd

/-- No trivia start with a character of a class without blanks and slashes. -/
theorem Trivia.noTrivia_of_class {p : Char → Bool} (hc : p c = true)
    (hp : ('/' :: Trivia.blanks).any p = false) : Trivia.NoTrivia comments (c :: cs) := by
  have hne : c ∉ '/' :: Trivia.blanks := fun hmem => by simp [eq_false_of_mem hmem hp] at hc
  rw [List.mem_cons, not_or, ← Trivia.isBlank_iff, Bool.not_eq_true] at hne
  exact ⟨by simpa using hne.2, fun _ => Trivia.comment_eq_absent_iff.2 fun h => absurd h hne.1⟩

/-- A lexeme starts with no trivia. -/
theorem Lexeme.Written.noTrivia (h : Lexeme.Written (c :: w) l) :
    Trivia.NoTrivia comments (c :: w) := by
  generalize hcw : c :: w = text at h
  rcases h with @⟨c', cs, hstart, -⟩ | @⟨op, hop⟩ | @⟨c', hdelim⟩ | @⟨n, hn⟩ |
    @⟨quote, body, content, hquote, -⟩
  · exact Trivia.noTrivia_of_class hstart (by decide)
  · have htails : ∀ op ∈ operators, op.toList.head? = some '/' →
        op.toList.tail.head? ≠ some '/' ∧ op.toList.tail.head? ≠ some '*' := by decide
    have htail := htails op hop
    have hmark : c ∈ marks := Operator.mem_marks hop (hcw ▸ List.mem_cons_self)
    have hblank : isBlank c = false := eq_false_of_mem hmark (by decide)
    rw [← hcw] at htail ⊢
    refine ⟨by simpa using hblank, fun _ => Trivia.comment_eq_absent_iff.2 fun hslash d hd => ?_⟩
    obtain ⟨hline, hblock⟩ := htail (congrArg some hslash)
    constructor
    · rintro rfl
      exact hline hd
    · rintro rfl
      exact hblock hd
  · exact Trivia.noTrivia_of_class (p := isDelimiter) (by simpa [isDelimiter] using hdelim)
      (by decide)
  · have hc : (c == '-' || c.isDigit) = true := by
      rcases hn.start ((List.append_nil _).trans hcw.symm) with ⟨rfl, -⟩ | hdigit
      · rfl
      · simp [hdigit]
    rw [← hcw]
    exact Trivia.noTrivia_of_class (p := fun c => c == '-' || c.isDigit) hc (by decide)
  · exact Trivia.noTrivia_of_class hquote (by decide)

end ModuleImports
