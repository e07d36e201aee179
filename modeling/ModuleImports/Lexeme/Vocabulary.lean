/-!
# Lexeme/Vocabulary — the character classes and the fixed words of the language

How a text splits into tokens depends on these classes and tables alone.  All classes are made of
ASCII characters: a character outside ASCII occurs only inside literals and comments.

Words such as `from` and `as`, which mean something only inside an import declaration, are not in
any table.
-/

namespace ModuleImports.Vocabulary

/-! ## Characters -/

/-- Space, tab, line feed, vertical tab, form feed, carriage return. -/
def isBlank (c : Char) : Bool :=
  c == ' ' || c == '\t' || c == '\n' || c == '\x0b' || c == '\x0c' || c == '\r'

/-- Line feed and carriage return. -/
def isLineBreak (c : Char) : Bool := c == '\n' || c == '\r'

/-- What a word can start with. -/
def isWordStart (c : Char) : Bool := c == '_' || c == '$' || c.isAlpha

/-- What a word can go on with. -/
def isWordPart (c : Char) : Bool := c == '_' || c == '$' || c.isAlphanum

theorem isWordStart_iff {c : Char} :
    isWordStart c = true ↔ c.isAlpha = true ∨ c = '_' ∨ c = '$' := by
  simp only [isWordStart, Bool.or_eq_true, beq_iff_eq]
  grind

theorem isWordPart_iff {c : Char} :
    isWordPart c = true ↔ c.isAlphanum = true ∨ c = '_' ∨ c = '$' := by
  simp only [isWordPart, Bool.or_eq_true, beq_iff_eq]
  grind

/-- The mark that delimits a template literal. -/
def templateQuote : Char := '\x60'

/-- Double quote, single quote and the template mark. -/
def isQuote (c : Char) : Bool := c == '"' || c == '\'' || c == templateQuote

/-- The value of a hexadecimal digit of either case. -/
def hexDigit? (c : Char) : Option Nat :=
  if '0' ≤ c ∧ c ≤ '9' then some (c.toNat - '0'.toNat)
  else if 'a' ≤ c ∧ c ≤ 'f' then some (c.toNat - 'a'.toNat + 10)
  else if 'A' ≤ c ∧ c ≤ 'F' then some (c.toNat - 'A'.toNat + 10)
  else none

/-- A digit of either case. -/
def isHexDigit (c : Char) : Bool := (hexDigit? c).isSome

/-- The value of a run of hexadecimal digits. -/
def hexValue (ds : List Char) : Nat := ds.foldl (fun n d => 16 * n + (hexDigit? d).getD 0) 0

/-! ## Tables -/

/-- The reserved words, but for those that are operators. -/
def keywords : List String :=
  ["await", "break", "case", "catch", "class", "const", "continue", "debugger", "default", "do",
    "else", "enum", "export", "extends", "false", "finally", "for", "function", "if", "implements",
    "import", "interface", "let", "new", "null", "package", "private", "protected", "public",
    "return", "static", "super", "switch", "this", "throw", "true", "try", "var", "void", "while",
    "with", "yield"]

/-- The words that are operators. -/
def wordOperators : List String := ["typeof", "delete", "in", "instanceof"]

/-- The operators that are no words. -/
def operators : List String :=
  ["+", "-", "*", "/", "%", "**", "++", "--",
    "=", "+=", "-=", "*=", "/=", "%=", "**=", "<<=", ">>=", ">>>=", "&=", "|=", "^=",
    "&&=", "||=", "??=",
    "==", "!=", "===", "!==", "<", ">", "<=", ">=",
    "&", "|", "^", "~", "<<", ">>", ">>>",
    "!", "&&", "||", "??",
    "?", "?.", ".", "...", "=>"]

/-- The length of the longest of the operators. -/
def longestOperator : Nat := 4

/-- The characters that are tokens by themselves. -/
def delimiters : List Char := ['{', '}', '(', ')', '[', ']', ',', ';', ':']

/-- Whether a word is reserved. -/
def isKeyword (word : String) : Bool := keywords.contains word

/-- Whether a word is an operator. -/
def isWordOperator (word : String) : Bool := wordOperators.contains word

/-- Whether some characters are an operator. -/
def isOperator (lexeme : String) : Bool := operators.contains lexeme

/-- Whether a character is a delimiter. -/
def isDelimiter (c : Char) : Bool := delimiters.contains c

end ModuleImports.Vocabulary
