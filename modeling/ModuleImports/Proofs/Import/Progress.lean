import ModuleImports.Proofs.Import.DescentReader
import ModuleImports.Proofs.Token.Calls

/-!
# Proofs/Import/Progress — reading a text comes to an end

Every move of the descent is a call of the scanner, and while the cursor holds a token each call so
far has given one (`Descent.Even`).  A move past a token keeps that.  Only a last move that fails, or
one to the end of the text, is given none, and the descent makes no other moves because it is orderly.
-/

namespace ModuleImports

namespace Descent

variable {α : Type} {g : ImportGrammar} {s : Scanner} {m m' : Metered} {t : Token} {ts : List Token}
  {moved : Option Token}

/-! ## Moves and the tokens they are given -/

/-- **Moves are calls** of a scanner, and all but one have been given tokens. -/
structure Counted (s : Scanner) (m : Metered) : Prop where
  scanner : m.cursor.scanner = s.after m.moves
  le : m.moves ≤ (s.given m.moves).length + 1

/-- **While a token is held** every move has been given one. -/
structure Even (s : Scanner) (m : Metered) : Prop extends Counted s m where
  all : m.cursor.current.isSome → (s.given m.moves).length = m.moves

theorem scanner_advanced (m : Metered) : m.advanced.cursor.scanner = m.cursor.scanner.next.2 := by
  rw [Metered.advanced]
  rcases hnext : m.cursor.scanner.next.1 with e | next
  · simp only [Cursor.advance_of_error hnext]
  · simp only [Cursor.advance_of_ok hnext]

/-- One more move, whatever it comes to. -/
theorem Counted.advanced (h : Counted s m) (hall : (s.given m.moves).length = m.moves) :
    Counted s m.advanced where
  scanner := by rw [scanner_advanced, h.scanner]; rfl
  le := by
    have hmono : (s.given m.moves).length ≤ (s.given (m.moves + 1)).length := by
      rw [Scanner.given]
      split
      · rw [List.length_append]
        exact Nat.le_add_right _ _
      · exact Nat.le_refl _
    exact Nat.succ_le_succ (hall ▸ hmono)

/-- One more move that succeeds: if it is given no token, none is held after it. -/
theorem Counted.even_of_move (h : Counted s m) (hall : (s.given m.moves).length = m.moves)
    (hmove : move m = .ok moved m') : Even s m' := by
  obtain ⟨⟨next, hnext⟩, -, rfl⟩ := move_eq_ok_iff.1 hmove
  refine ⟨h.advanced hall, fun hheld => ?_⟩
  have hcurrent : m.advanced.cursor.current = next := by
    simp only [Metered.advanced, Cursor.advance_of_ok hnext]
  obtain ⟨t, rfl⟩ := Option.isSome_iff_exists.1 (hcurrent ▸ hheld)
  rw [h.scanner] at hnext
  change (s.given (m.moves + 1)).length = m.moves + 1
  rw [Scanner.given, hnext, List.length_append, hall, List.length_singleton]

theorem Even.past (h : Even s m) (hpast : Past m ts m') : Even s m' := by
  induction hpast with
  | nil => exact h
  | cons hmove _ ih =>
    obtain ⟨-, ht, -⟩ := move_eq_ok_iff.1 hmove
    exact ih (h.even_of_move (h.all (ht ▸ rfl)) hmove)

/-- **The rounds over a text** move while a token is held. -/
theorem Even.counted_items (h : Even s m) (found : List Recognized) :
    Counted s (items g found m).2 := by
  induction hn : m.left using Nat.strongRecOn generalizing found m with
  | _ n ih =>
    rw [items]
    split
    · next hm =>
      have horderly := orderly_item g hm
      split
      · next rs m' hitem =>
        have hlt := left_lt_of_orderly horderly hitem
        rw [hitem] at horderly
        obtain ⟨ts, -, hpast⟩ := horderly
        exact ih _ (hn ▸ hlt) (h.past hpast) _ rfl
      · next e m' hitem =>
        -- A round fails where it stands past tokens, or in one more move, in front of a token.
        rw [hitem] at horderly
        obtain ⟨ts, stop, hpast, rfl | ⟨hheld, hmove⟩⟩ := horderly
        · exact (h.past hpast).toCounted
        · have hstop := h.past hpast
          rw [eq_advanced_of_move_error hmove]
          exact hstop.advanced (hstop.all hheld)
    · exact h.toCounted

/-- **Reading a text** moves at most once more than it is given tokens. -/
theorem counted_read (options : ImportOptions) (source : SourceText) :
    Counted (.start source options.scanOptions) (read options source).2 := by
  have hstart : Counted (.start source options.scanOptions) (.start source options.scanOptions) :=
    ⟨rfl, Nat.zero_le _⟩
  rw [read]
  cases hmove : move (.start source options.scanOptions) with
  | ok moved m => exact (hstart.even_of_move rfl hmove).counted_items []
  | error e m =>
    rw [eq_advanced_of_move_error hmove]
    exact hstart.advanced rfl

/-! ## Expressions -/

theorem isAtKind_of_isAt {kind kind' : TokenKind} {word : String}
    (h : m.cursor.isAt kind word = true) : m.cursor.isAtKind kind' = (kind == kind') := by
  obtain ⟨t, ht, hkind, -⟩ := Cursor.isAt_iff.1 h
  rw [Cursor.isAtKind, ht, Option.any_some, hkind]

theorem isAt_of_isAt {kind kind' : TokenKind} {word word' : String}
    (h : m.cursor.isAt kind word = true) :
    m.cursor.isAt kind' word' = (kind == kind' && word == word') := by
  obtain ⟨t, ht, hkind, htext⟩ := Cursor.isAt_iff.1 h
  rw [Cursor.isAt, ht, Option.any_some, Token.is, hkind, htext]
  rfl

/-- The continuation of an expression is no clause, and is not passed. -/
theorem clause_of_continuation
    (h : m.cursor.isAt .delimiter "(" = true ∨ m.cursor.isAt .operator "." = true) :
    clause .full m = .ok [] m := by
  rw [clause, ite_of_ok isAtKind_eq, ite_of_ok isAt_eq, ite_of_ok isAt_eq, bare,
    ite_of_ok isAtKind_eq, ite_of_ok isAt_eq, ite_of_ok isAt_eq]
  rcases h with h | h
  · simp only [isAtKind_of_isAt h, isAt_of_isAt h]
    rfl
  · simp only [isAtKind_of_isAt h, isAt_of_isAt h]
    rfl

/-- **An `import` that starts an expression** is passed, and the token after it is not. -/
theorem item_of_continuation (himport : m.cursor.isAt .keyword "import" = true)
    (hmove : move m = .ok moved m')
    (h : m'.cursor.isAt .delimiter "(" = true ∨ m'.cursor.isAt .operator "." = true) :
    item .full m = .ok [] m' := by
  have hexpect : expect .keyword "import" m = .ok () m' := by
    rw [expect, ite_of_ok isAt_eq, if_pos himport, bind_of_ok hmove]
    rfl
  rw [item, ite_of_ok isAt_eq, if_pos himport, declaration_eq, bind_of_ok hexpect,
    bind_of_ok (clause_of_continuation h)]
  rfl

/-! ## Progress -/

/-- **Reading a text makes progress.**  Every call of a scanner that gives a token moves it on, so
it gives no more tokens than the text has characters, and has finished after one call more than
that.  Every round of the descent over a list or over the text that does not fail moves past a token
at least, and an `import` that starts an expression is passed alone.  The descent comes to what is
to be recognized in the text, with at most one move more than it has been given tokens. -/
theorem read_progresses (options : ImportOptions) (source : SourceText) :
    let s := Scanner.start source options.scanOptions
    let stop := (read options source).2
    (∀ calls,
      (∀ c t, ((s.run calls).2.call c).1 = .token t →
        (s.run calls).2.place < ((s.run calls).2.call c).2.place) ∧
      ((s.run calls).1.filterMap Scanner.Answer.token?).length ≤ source.length ∧
      (source.length < calls.length → (s.run calls).2.finished = true)) ∧
    (∀ m r m', round options.grammar m = .ok r m' → ∃ t ts, Past m (t :: ts) m') ∧
    (∀ m rs m', m.cursor.current.isSome → item options.grammar m = .ok rs m' →
      ∃ t ts, Past m (t :: ts) m') ∧
    (∀ m t m', options.grammar = .full → m.cursor.isAt .keyword "import" = true →
      move m = .ok (some t) m' →
      (m'.cursor.isAt .delimiter "(" = true ∨ m'.cursor.isAt .operator "." = true) →
      item options.grammar m = .ok [] m' ∧ Past m [t] m') ∧
    (read options source).1 = Recognition.of options source ∧
    stop.cursor.scanner = s.after stop.moves ∧ stop.moves ≤ (s.given stop.moves).length + 1 := by
  intro s stop
  have hcounted := counted_read options source
  refine ⟨fun calls => Scanner.run_progresses source options.scanOptions calls,
    fun m r m' h => exists_past (takes_round _ m) h,
    fun m rs m' hm h => exists_past (orderly_item _ hm) h, fun m t m' hg himport hmove h => ?_,
    read_eq options source, hcounted.scanner, hcounted.le⟩
  exact ⟨hg ▸ item_of_continuation himport hmove h, .single hmove⟩

/-- In `import(x)` the round for `import` passes that alone. -/
theorem read_progresses_of_call :
    let m := (Metered.start (.ofString "import(x)") ⟨false⟩).advanced
    item .full m = .ok [] m.advanced ∧ ∃ t, Past m [t] m.advanced := by
  intro m
  have hread := read_progresses ⟨.full, false⟩ (.ofString "import(x)")
  have hnext : m.cursor.scanner.next.1 = .ok (some ⟨.delimiter, .text "(", ⟨6, 1⟩⟩) := by
    decide +kernel
  have hheld : some ⟨.keyword, .text "import", ⟨0, 6⟩⟩ = m.cursor.current := by decide +kernel
  have hmove := move_eq_ok_iff.2 ⟨⟨_, hnext⟩, hheld, rfl⟩
  have hitem := hread.2.2.2.1 m _ _ rfl (by decide +kernel) hmove (.inl (by decide +kernel))
  exact ⟨hitem.1, _, hitem.2⟩

end Descent

end ModuleImports
