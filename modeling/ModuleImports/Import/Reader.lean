import ModuleImports.Import.Recognition
import ModuleImports.Token.Cursor

/-!
# Import/Reader — the imports of a text, in one pass

A `Reader` takes tokens from a cursor only as it needs them, so nothing after the first fault of a
text is looked at.  A step either moves past one token or ends the reading.  `Recognition.of_eq`
says that the outcome is what all tokens of the text say together.
-/

namespace ModuleImports

/-- A reading under way. -/
structure Reader where
  cursor : Cursor
  /-- Where reading stands in front of the current token. -/
  state : ReadingState
  /-- The records that count already, the last one first. -/
  found : List Recognized

namespace Reader

/-- What a step comes to. -/
inductive Step where
  | goOn (r : Reader)
  | over (r : Recognition)

/-- **One step**: past the current token, if there is one and it can come here. -/
def step (g : ImportGrammar) (r : Reader) : Step :=
  match r.cursor.current with
  | none => .over ((r.state.finish g r.cursor.source.length).prepend r.found.reverse)
  | some t =>
    match r.state.next g t with
    | none => .over ((r.state.refusal g t).prepend r.found.reverse)
    | some after =>
      let found := r.state.ended.reverseAux r.found
      match r.cursor.advance with
      | (.ok _, cursor) => .goOn ⟨cursor, after, found⟩
      | (.error e, _) => .over ⟨found.reverse, some (.lexical e)⟩

/-- How much there is still to read.  A token that has been taken from the text counts less than the
text it came from. -/
def left (r : Reader) : Nat := 2 * r.cursor.scanner.rest.length + r.cursor.current.toList.length

/-- A move past a token leaves less to read. -/
theorem left_lt_of_advance {r r' : Reader} {t : Token} {moved : Option Token}
    (ht : r.cursor.current = some t) (hadv : r.cursor.advance = (.ok moved, r'.cursor)) :
    r'.left < r.left := by
  unfold Cursor.advance at hadv
  split at hadv
  · next upcoming scanner hnext =>
    obtain ⟨-, hcursor⟩ := Prod.mk.inj hadv
    simp only [left, ← hcursor, ht, Option.toList_some, List.length_singleton]
    cases upcoming with
    | none =>
      have := r.cursor.scanner.length_rest_le
      rw [hnext] at this
      simp only [Option.toList_none, List.length_nil] at this ⊢
      omega
    | some t' =>
      have := Scanner.length_rest_lt hnext
      simp only [Option.toList_some, List.length_singleton]
      omega
  · cases hadv

/-- **Progress**: every step leaves less to read. -/
theorem left_lt_of_step {g : ImportGrammar} {r r' : Reader} (h : r.step g = .goOn r') :
    r'.left < r.left := by
  unfold step at h
  split at h
  · cases h
  · next t ht =>
    split at h
    · cases h
    · split at h
      · next hadv =>
        cases h
        exact left_lt_of_advance ht hadv
      · cases h

/-- All steps up to the end. -/
def run (g : ImportGrammar) (r : Reader) : Recognition :=
  match _hstep : r.step g with
  | .over outcome => outcome
  | .goOn further => run g further
termination_by r.left
decreasing_by exact left_lt_of_step _hstep

end Reader

/-- **Reading a text.** -/
def Recognition.of (options : ImportOptions) (source : SourceText) : Recognition :=
  match (Cursor.start (Scanner.start source options.scanOptions)).advance with
  | (.error e, _) => ⟨[], some (.lexical e)⟩
  | (.ok _, cursor) => Reader.run options.grammar ⟨cursor, .between [], []⟩

/-- **The imports of a text**, or why it has none. -/
def SourceText.imports (source : SourceText) (options : ImportOptions) :
    Except ImportError (List ImportRecord) :=
  (Recognition.of options source).records

/-! ## The outcome is what the tokens say -/

namespace Reader

theorem run_of_over {g : ImportGrammar} {r : Reader} {outcome : Recognition}
    (h : r.step g = .over outcome) : r.run g = outcome := by
  rw [run]
  split <;> simp_all

theorem run_of_goOn {g : ImportGrammar} {r further : Reader} (h : r.step g = .goOn further) :
    r.run g = further.run g := by
  rw [run]
  split <;> simp_all

/-- Without a current token the text has ended. -/
theorem run_of_current_none {g : ImportGrammar} {r : Reader} (h : r.cursor.current = none) :
    r.run g = (r.state.finish g r.cursor.source.length).prepend r.found.reverse :=
  run_of_over (by simp only [step, h])

/-- **What a reader comes to**, in terms of its current token and those after it. -/
theorem run_eq_read {g : ImportGrammar} {r : Reader} {t : Token} (h : r.cursor.current = some t) :
    r.run g =
      (r.state.read g r.cursor.scanner.remaining.failure r.cursor.source.length
        (t :: r.cursor.scanner.remaining.tokens)).prepend r.found.reverse := by
  induction hn : r.left using Nat.strongRecOn generalizing r t with
  | _ n ih =>
    cases hs : r.state.next g t with
    | none =>
      rw [run_of_over (by simp only [step, h, hs]; rfl)]
      simp only [ReadingState.read, hs]
    | some after =>
      rcases hnext : r.cursor.scanner.next with ⟨result, scanner⟩
      have hsource : scanner.source = r.cursor.source := by
        have := r.cursor.scanner.source_next
        rw [hnext] at this
        exact this
      cases result with
      | error e =>
        have hrem := (Scanner.remaining_of_next_error hnext).1
        rw [run_of_over (by simp only [step, h, hs, Cursor.advance, hnext]; rfl), hrem]
        simp [ReadingState.read, hs, ReadingState.finishOr, Recognition.prepend,
          List.reverseAux_eq]
      | ok upcoming =>
        have hstep : r.step g =
            .goOn ⟨⟨scanner, upcoming⟩, after, r.state.ended.reverseAux r.found⟩ := by
          simp only [step, h, hs, Cursor.advance, hnext]
        rw [run_of_goOn hstep]
        cases upcoming with
        | none =>
          have hrem := (Scanner.remaining_of_next_none hnext).1
          rw [run_of_current_none rfl, hrem]
          simp [ReadingState.read, hs, ReadingState.finishOr, List.reverseAux_eq, Cursor.source,
            hsource]
        | some t' =>
          have hrem := Scanner.remaining_of_next_token hnext
          rw [ih _ (hn ▸ left_lt_of_step hstep) rfl rfl, hrem]
          simp [ReadingState.read, hs, List.reverseAux_eq, Cursor.source, hsource, Scan.prepend]

end Reader

/-- **Reading a text in one pass gives what all its tokens say.** -/
theorem Recognition.of_eq (options : ImportOptions) (source : SourceText) :
    Recognition.of options source =
      (source.scan options.scanOptions).recognition options.grammar source.length := by
  rcases hnext : (Scanner.start source options.scanOptions).next with ⟨result, scanner⟩
  have hsource : scanner.source = source := by
    have := (Scanner.start source options.scanOptions).source_next
    rw [hnext] at this
    exact this
  rw [← Scanner.remaining_start]
  unfold Recognition.of Scan.recognition
  cases result with
  | error e =>
    rw [(Scanner.remaining_of_next_error hnext).1]
    simp [Cursor.advance, Cursor.start, hnext, ReadingState.read, ReadingState.finishOr]
  | ok upcoming =>
    simp only [Cursor.advance, Cursor.start, hnext]
    cases upcoming with
    | none =>
      rw [Reader.run_of_current_none rfl, (Scanner.remaining_of_next_none hnext).1]
      simp [ReadingState.read, ReadingState.finishOr, Cursor.source, hsource]
    | some t =>
      rw [Reader.run_eq_read rfl, Scanner.remaining_of_next_token hnext]
      simp [Cursor.source, hsource, Scan.prepend]

end ModuleImports
