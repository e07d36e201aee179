import ModuleImports.Lexeme.Trivia
import ModuleImports.Proofs.Text.Run

/-!
# Proofs/Lexeme/Gap — what trivia are made of

A `Gap` is a stretch of blanks and, on request, of complete comments.  Whether a line comment is
complete depends on what follows it, so a gap is one only in front of a given rest of the text.

`Trivia.length_eq_ok_iff` says that the trivia at the front of a text are its longest gap: a gap in
front of a rest that starts with neither a blank nor a comment.
-/

namespace ModuleImports.Trivia

open Vocabulary

/-- The characters that separate tokens. -/
def blanks : List Char := [' ', '\t', '\n', '\x0b', '\x0c', '\r']

/-- **A stretch between two tokens**, in front of `rest`.  A line comment goes up to the next line
break or the end of the text, and a block comment up to the first `*/` after its opening. -/
inductive Gap (comments : Bool) (rest : List Char) : List Char → Prop
  | nil : Gap comments rest []
  | blank {c : Char} {gap : List Char} : c ∈ blanks → Gap comments rest gap →
      Gap comments rest (c :: gap)
  | line {body gap : List Char} : comments = true → (∀ c ∈ body, c ≠ '\n' ∧ c ≠ '\r') →
      (∀ c ∈ (gap ++ rest).head?, c = '\n' ∨ c = '\r') → Gap comments rest gap →
      Gap comments rest ('/' :: '/' :: (body ++ gap))
  | block {body gap : List Char} : comments = true → ¬['*', '/'] <:+: body →
      Gap comments rest gap → Gap comments rest ('/' :: '*' :: (body ++ '*' :: '/' :: gap))

/-- A text that starts with no trivia. -/
def NoTrivia (comments : Bool) (cs : List Char) : Prop :=
  (∀ c ∈ cs.head?, isBlank c = false) ∧ (comments = true → comment cs = .absent)

theorem isBlank_iff {c : Char} : isBlank c = true ↔ c ∈ blanks := by
  simp [isBlank, blanks, or_assoc]

theorem isLineBreak_iff {c : Char} : isLineBreak c = true ↔ c = '\n' ∨ c = '\r' := by
  simp [isLineBreak]

/-! ## Comments -/

theorem not_infix_cons_iff {c : Char} {cs : List Char} : ¬['*', '/'] <:+: c :: cs ↔
    ¬(c = '*' ∧ cs.head? = some '/') ∧ ¬['*', '/'] <:+: cs := by
  rw [List.infix_cons_iff, not_or]
  refine and_congr_left fun _ => not_congr ?_
  rcases cs with _ | ⟨d, cs⟩ <;> simp [List.cons_prefix_cons, eq_comm]

/-- The length of a block comment counts up to its first end. -/
theorem exists_of_blockLength? {cs : List Char} {n m : Nat} (h : blockLength? n cs = some m) :
    ∃ body rest, cs = body ++ '*' :: '/' :: rest ∧ ¬['*', '/'] <:+: body ∧
      m = n + (body.length + 2) := by
  fun_induction blockLength? n cs with
  | case1 n rest => exact ⟨[], rest, rfl, by simp, (Option.some.inj h).symm⟩
  | case2 n c cs hne ih =>
    obtain ⟨body, rest, rfl, hbody, rfl⟩ := ih h
    refine ⟨c :: body, rest, rfl, not_infix_cons_iff.2 ⟨?_, hbody⟩, ?_⟩
    · rintro ⟨hc, hhead⟩
      obtain ⟨body, rfl⟩ := List.head?_eq_some_iff.1 hhead
      exact hne _ hc rfl
    · simp only [List.length_cons]
      omega
  | case3 => simp at h

theorem blockLength?_append {body : List Char} (rest : List Char) (n : Nat)
    (h : ¬['*', '/'] <:+: body) :
    blockLength? n (body ++ '*' :: '/' :: rest) = some (n + (body.length + 2)) := by
  induction body generalizing n with
  | nil => rfl
  | cons c body ih =>
    obtain ⟨hhead, hbody⟩ := not_infix_cons_iff.1 h
    rw [List.cons_append, blockLength?, ih _ hbody]
    · simp only [List.length_cons, Option.some.injEq]
      omega
    · rintro tail hc htail
      rcases body with _ | ⟨d, body⟩
      · simp at htail
      · exact hhead ⟨hc, congrArg List.head? htail⟩

/-- A comment starts with a slash, and its first characters with what follows them are a gap. -/
theorem gap_of_comment {cs : List Char} {k : Nat} (h : comment cs = .closed k) :
    ∃ w rest, cs = '/' :: (w ++ rest) ∧ w.length + 1 = k ∧
      ∀ {gap after : List Char}, rest = gap ++ after → Gap true after gap →
        Gap true after ('/' :: (w ++ gap)) := by
  unfold comment at h
  split at h
  · next cs =>
    obtain ⟨body, rest, rfl, hbody, hrest, hrun, -⟩ := exists_run (!isLineBreak ·) cs
    rw [hrun, Comment.closed.injEq] at h
    refine ⟨'/' :: body, rest, rfl, by simp only [List.length_cons]; omega, ?_⟩
    rintro gap after rfl hgap
    refine .line rfl (fun c hc => ?_) (fun c hc => isLineBreak_iff.1 ?_) hgap
    · simpa [isLineBreak] using hbody c hc
    · simpa using hrest c hc
  · next cs =>
    split at h
    · next k' hk =>
      obtain ⟨body, rest, rfl, hbody, rfl⟩ := exists_of_blockLength? hk
      rw [Comment.closed.injEq] at h
      refine ⟨'*' :: (body ++ ['*', '/']), rest, by simp, ?_, ?_⟩
      · simp only [List.length_cons, List.length_append, List.length_nil]
        omega
      · rintro gap after rfl hgap
        simpa using Gap.block rfl hbody hgap
    · exact absurd h Comment.noConfusion
  · exact absurd h Comment.noConfusion

theorem comment_line {body rest : List Char} (hbody : ∀ c ∈ body, c ≠ '\n' ∧ c ≠ '\r')
    (hrest : ∀ c ∈ rest.head?, c = '\n' ∨ c = '\r') :
    comment ('/' :: '/' :: (body ++ rest)) = .closed (2 + body.length) := by
  rw [comment, takeWhile_append_of_stops]
  · simpa [isLineBreak] using hbody
  · exact fun c hc => by rw [isLineBreak_iff.2 (hrest c hc), Bool.not_true]

theorem comment_block {body : List Char} (rest : List Char) (hbody : ¬['*', '/'] <:+: body) :
    comment ('/' :: '*' :: (body ++ '*' :: '/' :: rest)) = .closed (body.length + 4) := by
  rw [comment, blockLength?_append rest 0 hbody]
  exact congrArg Comment.closed (by omega)

/-! ## Gaps -/

/-- The trivia at the front of a text are a gap, and end where no more can follow. -/
theorem exists_gap_of_lengthFrom {comments : Bool} {n m : Nat} {cs : List Char}
    (h : lengthFrom comments n cs = .ok m) : ∃ gap rest, cs = gap ++ rest ∧ m = n + gap.length ∧
      Gap comments rest gap ∧ NoTrivia comments rest := by
  fun_induction lengthFrom comments n cs with
  | case1 n => exact ⟨[], [], rfl, (Except.ok.inj h).symm, .nil, by simp [NoTrivia, comment]⟩
  | case2 n c cs hc ih =>
    obtain ⟨gap, rest, rfl, rfl, hgap, hrest⟩ := ih h
    refine ⟨c :: gap, rest, rfl, ?_, .blank (isBlank_iff.1 hc) hgap, hrest⟩
    simp only [List.length_cons]
    omega
  | case3 n c cs hc _ hcomment =>
    refine ⟨[], c :: cs, rfl, (Except.ok.inj h).symm, .nil, ?_⟩
    exact ⟨by simpa using hc, fun _ => hcomment⟩
  | case4 => simp at h
  | case5 n c cs _ hcomments k hcomment ih =>
    obtain ⟨w, after, hcs, rfl, hw⟩ := gap_of_comment hcomment
    obtain ⟨rfl, rfl⟩ := List.cons.inj hcs
    obtain ⟨gap, rest, hrest, rfl, hgap, hno⟩ := ih h
    rw [Nat.add_sub_cancel, List.drop_left] at hrest
    obtain rfl := hcomments
    refine ⟨'/' :: (w ++ gap), rest, by simp [hrest], ?_, hw hrest hgap, hno⟩
    simp only [List.length_cons, List.length_append]
    omega
  | case6 n c cs hc hcomments =>
    refine ⟨[], c :: cs, rfl, (Except.ok.inj h).symm, .nil, ?_⟩
    exact ⟨by simpa using hc, fun h => absurd h hcomments⟩

theorem lengthFrom_of_noTrivia {comments : Bool} {cs : List Char} (n : Nat)
    (h : NoTrivia comments cs) : lengthFrom comments n cs = .ok n := by
  obtain ⟨hblank, hcomment⟩ := h
  rcases cs with _ | ⟨c, cs⟩
  · rw [lengthFrom]
  · rw [lengthFrom, if_neg (by simp [hblank c rfl])]
    split
    · next hcomments => rw [hcomment hcomments]
    · rfl

/-- A comment is passed over as a whole. -/
theorem lengthFrom_of_comment {cs : List Char} {k : Nat} (n : Nat)
    (h : comment ('/' :: cs) = .closed (k + 1)) :
    lengthFrom true n ('/' :: cs) = lengthFrom true (n + (k + 1)) (cs.drop k) := by
  rw [lengthFrom, if_neg (by decide), if_pos rfl, h]
  rfl

/-- A gap is counted, and then what follows it. -/
theorem lengthFrom_gap_append {comments : Bool} {gap rest : List Char} (n : Nat)
    (hgap : Gap comments rest gap) :
    lengthFrom comments n (gap ++ rest) = lengthFrom comments (n + gap.length) rest := by
  induction hgap generalizing n with
  | nil => rfl
  | blank hc _ ih =>
    rw [List.cons_append, lengthFrom, if_pos (isBlank_iff.2 hc), ih, List.length_cons]
    congr 1
    omega
  | @line body gap hcomments hbody hbreak _ ih =>
    obtain rfl := hcomments
    have hcomment := comment_line hbody hbreak
    rw [Nat.add_comm] at hcomment
    rw [List.cons_append, List.cons_append, List.append_assoc, lengthFrom_of_comment n hcomment,
      ← List.cons_append, List.drop_left' (by simp), ih]
    simp only [List.length_cons, List.length_append]
    congr 1
    omega
  | @block body gap hcomments hbody _ ih =>
    obtain rfl := hcomments
    have hcomment := comment_block (gap ++ rest) hbody
    have hsplit : '/' :: '*' :: (body ++ '*' :: '/' :: gap) ++ rest =
        '/' :: ('*' :: (body ++ ['*', '/']) ++ (gap ++ rest)) := by simp
    rw [hsplit, lengthFrom_of_comment (k := body.length + 3) n (by simpa using hcomment),
      List.drop_left' (by simp), ih]
    simp only [List.length_cons, List.length_append]
    congr 1
    omega

/-- Blanks alone are a gap in front of anything. -/
theorem gap_of_blanks {comments : Bool} {gap : List Char} (h : ∀ c ∈ gap, c ∈ blanks)
    (rest : List Char) : Gap comments rest gap := by
  induction gap with
  | nil => exact .nil
  | cons c gap ih =>
    exact .blank (h c List.mem_cons_self) (ih fun d hd => h d (List.mem_cons_of_mem _ hd))

/-- A gap is one in front of another rest too, if that starts alike or with a line break. -/
theorem Gap.of_head? {comments : Bool} {gap rest rest' : List Char} (h : Gap comments rest gap)
    (hrest : ∀ c ∈ rest'.head?, c ∈ rest.head? ∨ isLineBreak c = true) : Gap comments rest' gap := by
  induction h with
  | nil => exact .nil
  | blank hc _ ih => exact .blank hc ih
  | @line body gap hcomments hbody hbreak _ ih =>
    refine .line hcomments hbody (fun c hc => ?_) ih
    rcases gap with _ | ⟨d, gap⟩
    · rcases hrest c hc with hc | hc
      · exact hbreak c hc
      · exact isLineBreak_iff.1 hc
    · exact hbreak c hc
  | block hcomments hbody _ ih => exact .block hcomments hbody ih

/-- Counting may start anywhere. -/
theorem lengthFrom_add (comments : Bool) (m n : Nat) (cs : List Char) :
    lengthFrom comments (m + n) cs =
      match lengthFrom comments n cs with
      | .ok k => .ok (m + k)
      | .error e => .error (e.shift m) := by
  fun_induction lengthFrom comments n cs with
  | case1 n => rw [lengthFrom]
  | case2 n c cs hc ih => rw [lengthFrom, if_pos hc, ← ih, Nat.add_assoc]
  | case3 n c cs hc hcomments hcomment =>
    rw [lengthFrom, if_neg hc, if_pos hcomments, hcomment]
  | case4 n c cs hc hcomments hcomment =>
    rw [lengthFrom, if_neg hc, if_pos hcomments, hcomment]
    simp [Misread.of, Misread.shift, LexicalError.shift, Span.shift, Nat.add_assoc]
  | case5 n c cs hc hcomments k hcomment ih =>
    rw [lengthFrom, if_neg hc, if_pos hcomments, hcomment]
    simp only
    rw [← ih, Nat.add_assoc]
  | case6 n c cs hc hcomments => rw [lengthFrom, if_neg hc, if_neg hcomments]

/-- Only a comment without an end keeps trivia from having a length. -/
theorem kind_of_lengthFrom_eq_error {comments : Bool} {n : Nat} {cs : List Char} {m : Misread}
    (h : lengthFrom comments n cs = .error m) : m.error.kind = .unterminatedComment := by
  fun_induction lengthFrom comments n cs with
  | case1 => simp at h
  | case2 _ _ _ _ ih => exact ih h
  | case3 => simp at h
  | case4 => exact Except.error.inj h ▸ rfl
  | case5 _ _ _ _ _ _ _ ih => exact ih h
  | case6 => simp at h

/-- **The trivia at the front of a text are its longest gap.** -/
theorem length_eq_ok_iff {comments : Bool} {cs : List Char} {n : Nat} :
    length comments cs = .ok n ↔ ∃ gap rest, cs = gap ++ rest ∧ n = gap.length ∧
      Gap comments rest gap ∧ NoTrivia comments rest := by
  constructor
  · intro h
    obtain ⟨gap, rest, hcs, hn, hgap, hrest⟩ := exists_gap_of_lengthFrom h
    exact ⟨gap, rest, hcs, by omega, hgap, hrest⟩
  · rintro ⟨gap, rest, rfl, rfl, hgap, hrest⟩
    rw [length, lengthFrom_gap_append 0 hgap, lengthFrom_of_noTrivia _ hrest, Nat.zero_add]

end ModuleImports.Trivia
