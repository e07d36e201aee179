import ModuleImports.Proofs.Lexeme.Written

/-!
# Proofs/Lexeme/Locality — how far reading looks

A lexeme that is read may depend on the characters behind it: an operator is the longest that fits,
a numeral must not go on, and `?.` is looked past.  But no lexeme goes on with a blank or a slash
after its first character, so nothing from the first such character on has a say
(`Lexeme.read_append_iff`): up to there a text may be cut off, and go on in any other way.  So what
is written is read back if a blank follows it (`Lexeme.Written.read_append`).
-/

namespace ModuleImports

open Vocabulary

/-- A text that no lexeme goes on with, whatever the lexeme: it is empty, or starts with a blank or
a slash. -/
def Breaks (rest : List Char) : Prop := ∀ c ∈ rest.head?, c ∈ '/' :: Trivia.blanks

/-- A text that starts with a blank, or is empty. -/
def Separates (rest : List Char) : Prop := ∀ c ∈ rest.head?, isBlank c = true

variable {c : Char} {t v w rest : List Char} {l : Lexeme}

theorem Separates.breaks (h : Separates rest) : Breaks rest :=
  fun c hc => List.mem_cons_of_mem _ (Trivia.isBlank_iff.1 (h c hc))

theorem Separates.not_comment (h : Separates rest) : ∀ d ∈ rest.head?, d ≠ '/' ∧ d ≠ '*' := by
  intro d hd
  have hblank := h d hd
  constructor <;> rintro rfl <;> exact absurd hblank (by decide)

theorem Breaks.stops {p : Char → Bool} (h : Breaks v) (hp : ('/' :: Trivia.blanks).any p = false) :
    Stops p v :=
  fun c hc => eq_false_of_mem (h c hc) hp

namespace Numeral

theorem endsBefore_append_iff {n : Numeral} (hv : Breaks v) :
    n.EndsBefore (rest ++ v) ↔ n.EndsBefore rest := by
  have hdigit := stops_append_iff (hv.stops (p := Char.isDigit) (by decide)) rest
  have hmark := stops_append_iff (hv.stops (p := isExponentMark) (by decide)) rest
  have hpoint := stops_append_iff (hv.stops (p := (· == '.')) (by decide)) rest
  constructor
  · rintro ⟨h₁, h₂, h₃⟩
    exact ⟨hdigit.1 h₁, fun he => hmark.1 (h₂ he), fun he hf => hpoint.1 (h₃ he hf)⟩
  · rintro ⟨h₁, h₂, h₃⟩
    exact ⟨hdigit.2 h₁, fun he => hmark.2 (h₂ he), fun he hf => hpoint.2 (h₃ he hf)⟩

theorem readLexeme_append_iff (hv : Breaks v)
    (hc : c = '-' ∧ ¬Stops Char.isDigit t ∨ c.isDigit = true) :
    readLexeme (c :: (t ++ v)) = .ok l ∧ l.length ≤ t.length + 1 ↔
      readLexeme (c :: t) = .ok l := by
  have hc' : c = '-' ∧ ¬Stops Char.isDigit (t ++ v) ∨ c.isDigit = true := by
    rwa [stops_append_iff (hv.stops (by decide))]
  rw [readLexeme_eq_ok_iff hc, readLexeme_eq_ok_iff hc']
  constructor
  · rintro ⟨⟨n, hn, ⟨rest, hcs, hend⟩, rfl⟩, hlen⟩
    rw [← List.cons_append] at hcs
    obtain ⟨r, hr, rfl⟩ := exists_append_of_length_le hcs hlen
    exact ⟨n, hn, ⟨r, hr, (endsBefore_append_iff hv).1 hend⟩, rfl⟩
  · rintro ⟨n, hn, ⟨rest, hcs, hend⟩, rfl⟩
    have hlen := congrArg List.length hcs
    simp only [List.length_cons, List.length_append] at hlen
    refine ⟨⟨n, hn, ⟨rest ++ v, ?_, (endsBefore_append_iff hv).2 hend⟩, rfl⟩, by simp only; omega⟩
    rw [← List.cons_append, hcs, List.append_assoc]

end Numeral

theorem Literal.read_append_iff {quote : Char} (hquote : quote ≠ '\\') (v : List Char) :
    read quote (t ++ v) = .ok l ∧ l.length ≤ t.length + 1 ↔ read quote t = .ok l := by
  rw [read_eq_ok_iff hquote, read_eq_ok_iff hquote]
  constructor
  · rintro ⟨⟨body, content, rest, hcs, hbody, rfl⟩, hlen⟩
    rw [← List.singleton_append, ← List.append_assoc] at hcs
    obtain ⟨r, rfl, rfl⟩ := exists_append_of_length_le hcs (by simp only at hlen; simp; omega)
    exact ⟨body, content, r, by simp, hbody, rfl⟩
  · rintro ⟨body, content, rest, rfl, hbody, rfl⟩
    refine ⟨⟨body, content, rest ++ v, by simp, hbody, rfl⟩, ?_⟩
    simp only [List.length_append, List.length_cons]
    omega

namespace Operator

/-- No operator has a blank or a slash after its first character. -/
theorem not_mem_tail {op : String} (hop : op ∈ operators) (hc : c ∈ '/' :: Trivia.blanks) :
    c ∉ op.toList.tail := by
  have htails : ∀ op ∈ operators, op.toList.tail.any ('/' :: Trivia.blanks).contains = false := by
    decide
  intro hmem
  exact absurd (List.contains_iff_mem.2 hc) (by rw [eq_false_of_mem hmem (htails op hop)]; decide)

/-- What fits at the front of a text lies before the first break after its first character. -/
theorem fits_append_breaks (hv : Breaks v) (k : Nat) :
    fits (c :: (t ++ v)) k = fits (c :: t) k := by
  rw [Bool.eq_iff_iff, fits_iff, fits_iff]
  rcases le_or_gt k (t.length + 1) with hk | hk
  · have htake : (c :: (t ++ v)).take k = (c :: t).take k := by
      rw [← List.cons_append, List.take_append_of_le_length hk]
    rw [htake]
    refine and_congr_right fun hlen => and_congr_right fun _ => not_congr ?_
    refine and_congr_right fun hpoint => ?_
    -- The look past `?.` finds the break, or a character in front of it.
    obtain ⟨d, t, rfl⟩ : ∃ d t', t = d :: t' := by
      refine List.exists_cons_of_ne_nil ?_
      rintro rfl
      have hlong := congrArg String.length hpoint
      rw [String.length_ofList, hlen] at hlong
      rw [hlong] at hk
      exact absurd hk (by decide)
    have hdigit := stops_append_iff (hv.stops (p := Char.isDigit) (by decide)) t
    simp only [List.cons_append, List.getElem?_cons_succ, ← List.head?_eq_getElem?,
      Numeral.head?_any_iff, hdigit]
  · have hshort : ((c :: t).take k).length ≠ k := by
      rw [List.length_take, List.length_cons]
      omega
    refine iff_of_false ?_ fun h => hshort h.1
    rintro ⟨hlen, hop, -⟩
    rcases v with _ | ⟨b, v⟩
    · exact hshort (by rwa [List.append_nil] at hlen)
    · obtain ⟨j, rfl⟩ := Nat.exists_eq_add_of_lt hk
      refine not_mem_tail hop (hv b rfl) ?_
      rw [String.toList_ofList, List.take_succ_cons, List.tail_cons, Nat.add_assoc, Nat.add_comm 1]
      simp [List.take_append]

theorem read?_append_breaks (hv : Breaks v) : read? (c :: (t ++ v)) = read? (c :: t) := by
  have hfits : fits (c :: (t ++ v)) = fits (c :: t) := funext (fits_append_breaks hv)
  rw [read?, read?, length?, length?, hfits]
  refine Option.map_congr fun n hn => ?_
  have hlen := (fits_iff.1 (List.find?_some hn)).1
  rw [List.length_take, List.length_cons] at hlen
  rw [← List.cons_append, List.take_append_of_le_length (by rw [List.length_cons]; omega)]

end Operator

namespace Lexeme

/-- **What is read depends on nothing after a break.** -/
theorem read_append_iff (hv : Breaks v) :
    read c (t ++ v) = .ok l ∧ l.length ≤ t.length + 1 ↔ read c t = .ok l := by
  have hhead : ((t ++ v).head?).any Char.isDigit = (t.head?).any Char.isDigit := by
    rw [Bool.eq_iff_iff, Numeral.head?_any_iff, Numeral.head?_any_iff,
      stops_append_iff (hv.stops (by decide))]
  -- A lexeme that both texts give lies in front of the break.
  have hsame : ∀ {l' : Lexeme}, l'.length ≤ t.length + 1 →
      ((.ok l' : Except Misread Lexeme) = .ok l ∧ l.length ≤ t.length + 1 ↔
        (.ok l' : Except Misread Lexeme) = .ok l) :=
    fun hlen => and_iff_left_of_imp fun h => Except.ok.inj h ▸ hlen
  unfold read
  rw [hhead, Operator.read?_append_breaks hv]
  split
  · rw [Word.read, Word.read, takeWhile_append_stops (hv.stops (by decide))]
    exact hsame (Nat.succ_le_succ (List.takeWhile_prefix _).length_le)
  split
  · next hminus =>
    exact Numeral.readLexeme_append_iff hv (.inl ⟨hminus.1, Numeral.head?_any_iff.1 hminus.2⟩)
  split
  · next hread =>
    obtain ⟨op, rest, -, hcs, rfl⟩ := Operator.exists_of_read? hread
    have hlen := congrArg List.length hcs
    rw [List.length_cons, List.length_append] at hlen
    exact hsame (Nat.le.intro hlen.symm)
  split
  · exact hsame (Nat.succ_le_succ (Nat.zero_le _))
  split
  · next hdigit => exact Numeral.readLexeme_append_iff hv (.inr hdigit)
  split
  · next hquote => exact Literal.read_append_iff (Literal.ne_slash hquote) v
  · simp

/-- **What is written is read back** if a blank follows, or nothing. -/
theorem Written.read_append (h : Written (c :: w) l) (hrest : Separates rest) :
    Lexeme.read c (w ++ rest) = .ok l :=
  ((read_append_iff hrest.breaks).2 h.read).1

end Lexeme

end ModuleImports
