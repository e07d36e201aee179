import ModuleImports.Text.DefaultIgnorable
import ModuleImports.Text.ExtendingMark
import ModuleImports.Text.Unprintable

/-!
# Text/Quoted — a text between double quotes

The quoted form shows any text on one line and so that nothing in it is mistaken: marks, line breaks
and everything that does not print by itself are written as escapes.
-/

namespace ModuleImports.Quoted

/-- Whether a code point is in one of some ranges. -/
def inRanges (ranges : List (Nat × Nat)) (code : Nat) : Bool :=
  ranges.any fun r => r.1 ≤ code && code ≤ r.2

/-- Whether a character prints by itself: it has a look, and one that does not hang on the character
before it. -/
def isPrintable (c : Char) : Bool :=
  !inRanges ExtendingMark.ranges c.toNat && !inRanges DefaultIgnorable.ranges c.toNat &&
    !inRanges Unprintable.ranges c.toNat

/-- A code point as an escape, `\\u{…}` with lower-case digits. -/
def codeEscape (c : Char) : List Char :=
  '\\' :: 'u' :: '{' :: Nat.toDigits 16 c.toNat ++ ['}']

/-- How a character is written between quotes. -/
def writeChar (c : Char) : List Char :=
  match c with
  | '"' => ['\\', '"']
  | '\\' => ['\\', '\\']
  | '\n' => ['\\', 'n']
  | '\r' => ['\\', 'r']
  | '\t' => ['\\', 't']
  | '\x00' => ['\\', '0']
  | c => if isPrintable c then [c] else codeEscape c

/-- **The quoted form of a text.** -/
def quote (s : String) : String :=
  String.ofList ('"' :: s.toList.flatMap writeChar ++ ['"'])

end ModuleImports.Quoted
