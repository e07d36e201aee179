import ModuleImports.Json.Value

/-!
# Json/Writer — the written form of a JSON document

There are two layouts.  The compact one has no blanks at all; the spread one puts every item and
member on a line of its own, two spaces further in than what it belongs to, and a space after each
colon.  Both keep the order of members.
-/

namespace ModuleImports.Json

/-- A hexadecimal digit, in lower case. -/
def hexDigit (n : Nat) : Char := Nat.digitChar n

/-- How a character is written in a string: marks and control characters as escapes, the shortest
there is. -/
def writeChar (c : Char) : List Char :=
  match c with
  | '"' => ['\\', '"']
  | '\\' => ['\\', '\\']
  | '\x08' => ['\\', 'b']
  | '\x0c' => ['\\', 'f']
  | '\n' => ['\\', 'n']
  | '\r' => ['\\', 'r']
  | '\t' => ['\\', 't']
  | c =>
    if c.toNat < 0x20 then ['\\', 'u', '0', '0', hexDigit (c.toNat / 16), hexDigit (c.toNat % 16)]
    else [c]

/-- A string.  One that stands for no text is written as a surrogate alone. -/
def writeString : Option String → List Char
  | some s => '"' :: s.toList.flatMap writeChar ++ ['"']
  | none => '"' :: '\\' :: "ud800".toList ++ ['"']

/-- A truth value. -/
def writeBool (b : Bool) : List Char := if b then "true".toList else "false".toList

/-! ## The compact layout -/

mutual

/-- **The compact form of a document.** -/
def compact : Json → List Char
  | .null => "null".toList
  | .bool b => writeBool b
  | .number n => n.spelling
  | .string s => writeString s
  | .array items => '[' :: compactItems items ++ [']']
  | .object members => '{' :: compactMembers members ++ ['}']
termination_by structural v => v

/-- Items with commas between them. -/
def compactItems : List Json → List Char
  | [] => []
  | [v] => v.compact
  | v :: w :: vs => v.compact ++ ',' :: compactItems (w :: vs)
termination_by structural vs => vs

/-- Members with commas between them. -/
def compactMembers : List (Option String × Json) → List Char
  | [] => []
  | [(k, v)] => writeString k ++ ':' :: v.compact
  | (k, v) :: m :: ms => writeString k ++ ':' :: v.compact ++ ',' :: compactMembers (m :: ms)
termination_by structural ms => ms

end

/-! ## The spread layout -/

/-- A new line, `depth` levels in. -/
def newLine (depth : Nat) : List Char := '\n' :: List.replicate (2 * depth) ' '

mutual

/-- The spread form of a document `depth` levels in.  What is empty stays on its line. -/
def spreadAt (depth : Nat) : Json → List Char
  | .null => "null".toList
  | .bool b => writeBool b
  | .number n => n.spelling
  | .string s => writeString s
  | .array [] => ['[', ']']
  | .array (v :: vs) =>
    '[' :: spreadItems (depth + 1) (v :: vs) ++ newLine depth ++ [']']
  | .object [] => ['{', '}']
  | .object (m :: ms) =>
    '{' :: spreadMembers (depth + 1) (m :: ms) ++ newLine depth ++ ['}']

/-- Items, each on a line, with commas between them. -/
def spreadItems (depth : Nat) : List Json → List Char
  | [] => []
  | [v] => newLine depth ++ v.spreadAt depth
  | v :: w :: vs => newLine depth ++ v.spreadAt depth ++ ',' :: spreadItems depth (w :: vs)

/-- Members, each on a line, with commas between them. -/
def spreadMembers (depth : Nat) : List (Option String × Json) → List Char
  | [] => []
  | [(k, v)] => newLine depth ++ writeString k ++ ':' :: ' ' :: v.spreadAt depth
  | (k, v) :: m :: ms =>
    newLine depth ++ writeString k ++ ':' :: ' ' :: v.spreadAt depth ++
      ',' :: spreadMembers depth (m :: ms)

end

/-- **The spread form of a document.** -/
def spread (v : Json) : List Char := v.spreadAt 0

/-- The compact form as a text. -/
def toCompactString (v : Json) : String := String.ofList v.compact

/-- The spread form as a text. -/
def toSpreadString (v : Json) : String := String.ofList v.spread

end ModuleImports.Json
