import ModuleImports.Token.Scan

/-!
# Token/Scanner — a text split one token at a time

A `Scanner` stands at a place of its source.  Each call of `next` gives one token and moves past it;
the end of the text and the first error finish the scanner, which stays where it is from then on.
A scanner is a stream of tokens as well, and `pull` takes the next item off it.
-/

namespace ModuleImports

/-- A source, and how far it has been split. -/
structure Scanner where
  source : SourceText
  options : ScanOptions
  /-- How many characters have been read: up to the end of the last token, the end of the text, or
  the place where an error stopped reading. -/
  place : Nat
  /-- The characters that have not been read. -/
  rest : List Char
  /-- Whether the end or an error has been reached. -/
  finished : Bool
  rest_eq : rest = source.chars.drop place

namespace Scanner

/-- A scanner in front of a text. -/
def start (source : SourceText) (options : ScanOptions) : Scanner :=
  ⟨source, options, 0, source.chars, false, rfl⟩

/-- The same scanner, `n` characters further on. -/
def move (s : Scanner) (n : Nat) (finished : Bool) : Scanner :=
  { s with
    place := s.place + n
    rest := s.rest.drop n
    finished
    rest_eq := by rw [s.rest_eq, List.drop_drop] }

/-- **The next token**, and the scanner after it.  There is none at the end of the text, nor after
an error has been given once. -/
def next (s : Scanner) : Except LexicalError (Option Token) × Scanner :=
  if s.finished then (.ok none, s)
  else match Next.of s.options.skipComments s.rest with
    | .done trivia => (.ok none, s.move trivia true)
    | .misread m => (.error (m.error.shift s.place), s.move m.stop true)
    | .lexeme trivia l =>
      (.ok (some (l.toToken (s.place + trivia))), s.move (trivia + l.length) false)

/-- What a call gives, as an item of a stream; the stream is over where there is no token. -/
def item? : Except LexicalError (Option Token) → Option (Except LexicalError Token)
  | .ok (some t) => some (.ok t)
  | .ok none => none
  | .error e => some (.error e)

/-- **The next item** of the stream, and the scanner after it. -/
def pull (s : Scanner) : Option (Except LexicalError Token) × Scanner := (item? s.next.1, s.next.2)

@[simp] theorem place_move (s : Scanner) (n : Nat) (finished : Bool) :
    (s.move n finished).place = s.place + n := rfl

theorem source_next (s : Scanner) : s.next.2.source = s.source := by
  unfold next
  split
  · rfl
  · split <;> rfl

/-! ## What a scanner has still to give -/

/-- The tokens and the error that a scanner has not given yet. -/
def remaining (s : Scanner) : Scan :=
  if s.finished then ⟨[], none⟩ else scanFrom s.options.skipComments s.place s.rest

@[simp] theorem remaining_start (source : SourceText) (options : ScanOptions) :
    (start source options).remaining = source.scan options := rfl

theorem next_of_finished {s : Scanner} (h : s.finished = true) : s.next = (.ok none, s) := by
  simp [next, h]

/-- **A scanner gives what remains of the scan, one token at a time.** -/
theorem remaining_of_next_token {s s' : Scanner} {t : Token} (h : s.next = (.ok (some t), s')) :
    s.remaining = s'.remaining.prepend [t] := by
  unfold next at h
  split at h
  · cases h
  · next hf =>
    split at h
    · cases h
    · cases h
    · next trivia l hnext =>
      cases h
      rw [remaining, if_neg hf, scanFrom_lexeme hnext]
      rfl

/-- A scanner that gives no token has none left, and no error either. -/
theorem remaining_of_next_none {s s' : Scanner} (h : s.next = (.ok none, s')) :
    s.remaining = ⟨[], none⟩ ∧ s'.remaining = ⟨[], none⟩ := by
  unfold next at h
  split at h
  · next hf =>
    cases h
    rw [remaining, if_pos hf]
    exact ⟨rfl, rfl⟩
  · next hf =>
    split at h
    · next trivia hnext =>
      cases h
      rw [remaining, if_neg hf, scanFrom_done hnext]
      exact ⟨rfl, rfl⟩
    · cases h
    · cases h

/-- An error comes where the scan ends with it, and nothing follows. -/
theorem remaining_of_next_error {s s' : Scanner} {e : LexicalError} (h : s.next = (.error e, s')) :
    s.remaining = ⟨[], some e⟩ ∧ s'.remaining = ⟨[], none⟩ := by
  unfold next at h
  split at h
  · cases h
  · next hf =>
    split at h
    · cases h
    · next m hnext =>
      cases h
      rw [remaining, if_neg hf, scanFrom_misread hnext]
      exact ⟨rfl, rfl⟩
    · cases h

/-- **Progress**: every token given leaves less text. -/
theorem length_rest_lt {s s' : Scanner} {t : Token} (h : s.next = (.ok (some t), s')) :
    s'.rest.length < s.rest.length := by
  unfold next at h
  split at h
  · cases h
  · split at h
    · cases h
    · cases h
    · next trivia l hnext =>
      cases h
      exact Next.length_drop_lt hnext

theorem length_rest_le (s : Scanner) : s.next.2.rest.length ≤ s.rest.length := by
  unfold next
  split
  · exact Nat.le_refl _
  · split <;> simp only [move, List.length_drop] <;> omega

end Scanner

end ModuleImports
