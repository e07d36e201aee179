import ModuleImports.Token.Scanner

/-!
# Token/Cursor — one token of lookahead

A `Cursor` holds the current token of a text and takes the next one from a scanner when it moves.
A new cursor stands before the first token, so it has to move once to hold it.
-/

namespace ModuleImports

/-- A scanner, and the last token taken from it. -/
structure Cursor where
  scanner : Scanner
  current : Option Token

namespace Cursor

/-- A cursor before the first token of a scanner. -/
def start (scanner : Scanner) : Cursor := ⟨scanner, none⟩

/-- The text that the tokens come from. -/
def source (c : Cursor) : SourceText := c.scanner.source

/-- **Moves to the next token** and gives the one moved past.  If the next token cannot be read, the
current one stays. -/
def advance (c : Cursor) : Except LexicalError (Option Token) × Cursor :=
  match c.scanner.next with
  | (.ok next, scanner) => (.ok c.current, ⟨scanner, next⟩)
  | (.error e, scanner) => (.error e, ⟨scanner, c.current⟩)

/-- Whether the current token is the one of that kind with that text. -/
def isAt (c : Cursor) (kind : TokenKind) (text : String) : Bool :=
  c.current.any (·.is kind text)

/-- Whether the current token has that kind. -/
def isAtKind (c : Cursor) (kind : TokenKind) : Bool := c.current.any (·.kind == kind)

/-- The span of the current token, or the empty one at the end of the text. -/
def span (c : Cursor) : Span :=
  match c.current with
  | some t => t.span
  | none => Span.empty c.source.length

end Cursor

end ModuleImports
