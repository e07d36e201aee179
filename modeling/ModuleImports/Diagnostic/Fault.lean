import ModuleImports.Text.Source
import ModuleImports.Diagnostic.Template

/-!
# Diagnostic/Fault — what can be wrong with a text, and how it is said

There are two kinds of fault: a text may not split into tokens (`LexicalError`), or its tokens may
not form import declarations (`SyntaxError`).  An error holds its cause and its place; the wording,
the context window and the label are functions of these, so each is stated once.

Every message has a stable code: 1001 to 1008 for lexical faults, 1100 for a missing token.
-/

namespace ModuleImports

/-- A message: its code, and its text with a hole for each argument. -/
structure Message where
  code : Nat
  template : String
deriving DecidableEq, Repr

/-- The text with its holes filled. -/
def Message.text (m : Message) (args : List String) : String := Template.fill m.template args

/-- The text that follows a message wherever an error is shown on one line. -/
def atPosition (text : String) (s : Span) : String :=
  text ++ " (at position " ++ toString s.start ++ ")"

/-- The written form of an error code. -/
def codeName (code : Nat) : String := "ES" ++ toString code

/-- A piece of advice on a stretch of the text's UTF-8 form. -/
structure Label where
  text : String
  offset : Nat
  length : Nat
deriving DecidableEq, Repr

/-- The label that says something about a span of a text. -/
def Label.on (source : SourceText) (s : Span) (text : String) : Label :=
  ⟨text, (source.byteRange s).1, (source.byteRange s).2⟩

/-! ## Lexical faults -/

/-- The ways in which a text can fail to split into tokens. -/
inductive LexicalErrorKind where
  | unexpectedCharacter
  | digitExpected
  | leadingZero
  | unterminatedString
  | unterminatedTemplate
  | unterminatedComment
  | invalidEscape
  | invalidUnicodeEscape
deriving DecidableEq, Repr

namespace LexicalErrorKind

/-- The message of each lexical fault; those about a character have a hole for it. -/
def message : LexicalErrorKind → Message
  | unexpectedCharacter => ⟨1001, "Unexpected character '{0}'."⟩
  | digitExpected => ⟨1002, "Digit expected."⟩
  | leadingZero => ⟨1003, "Decimals with leading zeros are not allowed."⟩
  | unterminatedString => ⟨1004, "Unterminated string literal."⟩
  | unterminatedTemplate => ⟨1005, "Unterminated template literal."⟩
  | unterminatedComment => ⟨1006, "'*/' expected."⟩
  | invalidEscape => ⟨1007, "Invalid escape sequence '\\{0}'."⟩
  | invalidUnicodeEscape => ⟨1008, "Invalid Unicode escape sequence."⟩

/-- What the label at the fault says. -/
def label : LexicalErrorKind → String
  | unexpectedCharacter => "not part of any token"
  | digitExpected => "a digit is required here"
  | leadingZero => "leading zero"
  | unterminatedString | unterminatedTemplate => "literal starts here"
  | unterminatedComment => "comment starts here"
  | invalidEscape | invalidUnicodeEscape => "escape"

end LexicalErrorKind

/-- A stretch of text that is no part of any token, with what its message names. -/
structure LexicalError where
  kind : LexicalErrorKind
  args : List String
  span : Span
deriving DecidableEq, Repr

namespace LexicalError

/-- The stable code of the fault. -/
def code (e : LexicalError) : Nat := e.kind.message.code

/-- The filled message. -/
def text (e : LexicalError) : String := e.kind.message.text e.args

/-- The message and the place, on one line. -/
def display (e : LexicalError) : String := atPosition e.text e.span

/-- The context window at the start of the fault. -/
def context (e : LexicalError) (source : SourceText) : String :=
  String.ofList (source.contextWindow e.span.start)

/-- The label at the fault. -/
def label (e : LexicalError) (source : SourceText) : Label :=
  Label.on source e.span e.kind.label

/-- The same fault in a text with `n` more characters in front. -/
def shift (n : Nat) (e : LexicalError) : LexicalError := { e with span := e.span.shift n }

@[simp] theorem text_shift (n : Nat) (e : LexicalError) : (e.shift n).text = e.text := rfl

end LexicalError

/-! ## Missing tokens -/

/-- A token that had to come next in an import declaration did not. -/
structure SyntaxError where
  /-- What was required, such as `identifier 'from'`. -/
  expected : String
  /-- What stood there instead, such as `identifier 'b'` or `end of input`. -/
  found : String
  span : Span
deriving DecidableEq, Repr

namespace SyntaxError

/-- The message about a missing token has holes for what was required and for what stood there. -/
def message : Message := ⟨1100, "Expected {0} but found {1}."⟩

/-- The stable code of a missing token. -/
def code (_ : SyntaxError) : Nat := message.code

/-- The filled message. -/
def text (e : SyntaxError) : String := message.text [e.expected, e.found]

/-- The message and the place, on one line. -/
def display (e : SyntaxError) : String := atPosition e.text e.span

/-- The label at the token that stood there instead. -/
def label (e : SyntaxError) (source : SourceText) : Label :=
  Label.on source e.span ("expected " ++ e.expected)

end SyntaxError

/-! ## Either fault -/

/-- Why a text has no list of imports. -/
inductive ImportError where
  | lexical (e : LexicalError)
  | syntactic (e : SyntaxError)
deriving DecidableEq, Repr

namespace ImportError

/-- Where the fault is. -/
def span : ImportError → Span
  | lexical e => e.span
  | syntactic e => e.span

/-- The stable code of the fault. -/
def code : ImportError → Nat
  | lexical e => e.code
  | syntactic e => e.code

/-- Whether the text does not even split into tokens. -/
def isLexical : ImportError → Bool
  | lexical _ => true
  | syntactic _ => false

end ImportError

end ModuleImports
