import ModuleImports.Lexeme.Read

/-!
# Token/Scan — the tokens of a whole text

A `Scan` is all that splitting a text gives: its tokens in order, and the lexical error that cut
them short, if one did.  The equations `scanFrom_lexeme`, `scanFrom_done` and `scanFrom_misread` say
how each next thing in the text contributes.
-/

namespace ModuleImports

/-- How a text is to be split into tokens. -/
structure ScanOptions where
  /-- Whether comments count as blanks.  If not, a slash is always an operator. -/
  skipComments : Bool := false
deriving DecidableEq, Repr, Inhabited

/-- The tokens of a text, up to its first lexical error if it has one. -/
structure Scan where
  tokens : List Token
  failure : Option LexicalError
deriving DecidableEq, Repr

namespace Scan

/-- The same scan with more tokens in front. -/
def prepend (ts : List Token) (s : Scan) : Scan := { s with tokens := ts ++ s.tokens }

@[simp] theorem prepend_nil (s : Scan) : prepend [] s = s := rfl

@[simp] theorem prepend_prepend (ts us : List Token) (s : Scan) :
    prepend ts (prepend us s) = prepend (ts ++ us) s := by
  simp [prepend]

end Scan

/-- The scan of a text whose remaining characters, from `place` on, are `cs`; `found` holds the
tokens before them, the last one first. -/
def scanOnto (comments : Bool) (found : List Token) (place : Nat) (cs : List Char) : Scan :=
  match _hnext : Next.of comments cs with
  | .done _ => ⟨found.reverse, none⟩
  | .misread m => ⟨found.reverse, some (m.error.shift place)⟩
  | .lexeme trivia l =>
    scanOnto comments (l.toToken (place + trivia) :: found) (place + (trivia + l.length))
      (cs.drop (trivia + l.length))
termination_by cs.length
decreasing_by exact Next.length_drop_lt _hnext

/-- The scan of the characters `cs`, the first of which is at `place`. -/
def scanFrom (comments : Bool) (place : Nat) (cs : List Char) : Scan :=
  scanOnto comments [] place cs

/-- **The scan of a text.** -/
def SourceText.scan (source : SourceText) (options : ScanOptions) : Scan :=
  scanFrom options.skipComments 0 source.chars

/-! ## What comes next, and what it contributes -/

theorem scanOnto_eq_prepend (comments : Bool) (found : List Token) (place : Nat) (cs : List Char) :
    scanOnto comments found place cs = (scanFrom comments place cs).prepend found.reverse := by
  induction h : cs.length using Nat.strongRecOn generalizing found place cs with
  | _ n ih =>
    unfold scanFrom scanOnto
    split
    · simp [Scan.prepend]
    · simp [Scan.prepend]
    · next trivia l hnext =>
      have hlt := h ▸ Next.length_drop_lt hnext
      rw [ih _ hlt _ _ _ rfl, ih _ hlt [_] _ _ rfl]
      simp

theorem scanFrom_done {comments : Bool} {place trivia : Nat} {cs : List Char}
    (h : Next.of comments cs = .done trivia) : scanFrom comments place cs = ⟨[], none⟩ := by
  rw [scanFrom, scanOnto]
  split <;> simp_all

theorem scanFrom_misread {comments : Bool} {place : Nat} {cs : List Char} {m : Misread}
    (h : Next.of comments cs = .misread m) :
    scanFrom comments place cs = ⟨[], some (m.error.shift place)⟩ := by
  rw [scanFrom, scanOnto]
  split <;> simp_all

theorem scanFrom_lexeme {comments : Bool} {place trivia : Nat} {cs : List Char} {l : Lexeme}
    (h : Next.of comments cs = .lexeme trivia l) :
    scanFrom comments place cs =
      (scanFrom comments (place + (trivia + l.length)) (cs.drop (trivia + l.length))).prepend
        [l.toToken (place + trivia)] := by
  rw [scanFrom, scanOnto]
  split
  · simp_all
  · simp_all
  · next trivia' l' h' =>
    rw [h] at h'
    cases h'
    rw [scanOnto_eq_prepend]
    rfl

end ModuleImports
