import ModuleImports.Text.Span
import ModuleImports.Number.Shortest

/-!
# Token/Basic — the pieces a text is split into

A `Token` has one of seven kinds, a value and the span of its written form.  The value of a numeric
literal is its number, that of a string or template literal its decoded content, and that of any
other token its written form.
-/

namespace ModuleImports

/-- The kinds of token. -/
inductive TokenKind where
  | keyword
  | identifier
  | operator
  | delimiter
  | numericLiteral
  | stringLiteral
  | templateLiteral
deriving DecidableEq, Repr

namespace TokenKind

/-- What a message calls tokens of this kind. -/
def name : TokenKind → String
  | keyword => "keyword"
  | identifier => "identifier"
  | operator => "operator"
  | delimiter => "delimiter"
  | numericLiteral => "numeric literal"
  | stringLiteral => "string literal"
  | templateLiteral => "template literal"

/-- How a message names the token of this kind with this text. -/
def quoting (k : TokenKind) (text : String) : String := k.name ++ " '" ++ text ++ "'"

end TokenKind

/-- What a token stands for. -/
inductive TokenValue where
  | number (x : Binary64)
  | text (s : String)
deriving DecidableEq, Repr

/-- A piece of a text. -/
structure Token where
  kind : TokenKind
  value : TokenValue
  span : Span
deriving DecidableEq, Repr

namespace Token

/-- The text a token stands for, unless it stands for a number. -/
def text? (t : Token) : Option String :=
  match t.value with
  | .text s => some s
  | .number _ => none

/-- Whether this is the token of that kind with that text. -/
def is (t : Token) (kind : TokenKind) (text : String) : Bool :=
  t.kind == kind && t.text? == some text

/-- What a message calls this token. -/
def describe (t : Token) : String :=
  match t.value with
  | .text s => t.kind.quoting s
  | .number x => t.kind.name ++ " " ++ x.toDecimal

/-- The same token in a text with `n` more characters in front. -/
def shift (n : Nat) (t : Token) : Token := { t with span := t.span.shift n }

@[simp] theorem is_shift (n : Nat) (t : Token) (kind : TokenKind) (text : String) :
    (t.shift n).is kind text = t.is kind text := rfl

end Token

end ModuleImports
