import ModuleImports.Diagnostic.Fault
import ModuleImports.Token.Basic

/-!
# Lexeme/Basic — what reading at the front of a text finds

A reader looks at the front of a text only and does not know where in a larger text it stands, so
what it finds has a length and no place.  `Lexeme.toToken` puts it in its place.
-/

namespace ModuleImports

/-- A token without its place: kind, value, and how many characters its written form has. -/
structure Lexeme where
  kind : TokenKind
  value : TokenValue
  length : Nat
deriving DecidableEq, Repr

/-- The token that a lexeme at a given place is. -/
def Lexeme.toToken (place : Nat) (l : Lexeme) : Token := ⟨l.kind, l.value, ⟨place, l.length⟩⟩

/-- A lexical error found at the front of a text, its span counted from there, and where reading
stopped. -/
structure Misread where
  error : LexicalError
  stop : Nat
deriving DecidableEq, Repr

namespace Misread

/-- The error of a kind, with what its message names. -/
def of (kind : LexicalErrorKind) (args : List String) (span : Span) (stop : Nat) : Misread :=
  ⟨⟨kind, args, span⟩, stop⟩

/-- The same error in a text with `n` more characters in front. -/
def shift (n : Nat) (m : Misread) : Misread := ⟨m.error.shift n, n + m.stop⟩

end Misread

end ModuleImports
