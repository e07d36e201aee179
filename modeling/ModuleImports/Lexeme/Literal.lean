import ModuleImports.Lexeme.Basic
import ModuleImports.Lexeme.Vocabulary
import ModuleImports.Text.CodePoint

/-!
# Lexeme/Literal — quoted literals and their escapes

A literal runs from its quote to the next one that no backslash announces.  Line breaks may stand in
it as they are.  A backslash starts an **escape**, which stands for one character:

* `\"`, `\'`, `` \` ``, `\\` for the mark itself, and `\n`, `\r`, `\t`, `\b`, `\f`;
* `\uXXXX` for a UTF-16 code unit, where a high surrogate needs a low one after it, `\uXXXX\uXXXX`;
* `\u{H…}` and `\{H…}` for a code point, with any number of digits.
-/

namespace ModuleImports

open Vocabulary CodePoint

/-- What a backslash turns out to be.  Lengths and stops count from the backslash. -/
inductive Escape where
  /-- A complete escape. -/
  | decoded (c : Char) (length : Nat)
  /-- No escape starts with this character. -/
  | unknown (c : Char)
  /-- An escape by code that is no character; reading it stopped there. -/
  | malformed (stop : Nat)
  /-- The backslash is the last character of the text. -/
  | cut
deriving DecidableEq, Repr

namespace Escape

/-- The characters that have an escape of one letter or mark. -/
def short? (c : Char) : Option Char :=
  if isQuote c ∨ c = '\\' then some c
  else match c with
    | 'n' => some '\n'
    | 'r' => some '\r'
    | 't' => some '\t'
    | 'b' => some '\x08'
    | 'f' => some '\x0c'
    | _ => none

/-- Four hexadecimal digits, or how many there are before something else. -/
def codeUnit (cs : List Char) : Except Nat Nat :=
  let ds := (cs.take 4).takeWhile isHexDigit
  if ds.length = 4 then .ok (hexValue ds) else .error ds.length

/-- The second half of a surrogate pair: what follows the four digits of the first. -/
def readLow (high : Nat) : List Char → Escape
  | '\\' :: 'u' :: cs =>
    match codeUnit cs with
    | .error k => .malformed (8 + k)
    | .ok low =>
      if isLowSurrogate low then
        match char? (combine high low) with
        | some c => .decoded c 12
        | none => .malformed 12
      else .malformed 12
  | _ => .malformed 6

/-- How many characters come before the brace that closes `depth` inner braces and the outer one;
`n` have been seen. -/
def beforeClose? (depth n : Nat) : List Char → Option Nat
  | [] => none
  | c :: cs =>
    if c = '{' then beforeClose? (depth + 1) (n + 1) cs
    else if c = '}' then
      match depth with
      | 0 => some n
      | d + 1 => beforeClose? d (n + 1) cs
    else beforeClose? depth (n + 1) cs

/-- The code point that a text between braces stands for. -/
def braced? (ds : List Char) : Option Char :=
  if ds ≠ [] ∧ ds.all isHexDigit then char? (hexValue ds) else none

/-- A code point in braces, after an opening of `opening` characters.  Braces inside count, so the
escape ends at the matching one, although no brace is a digit. -/
def readBraced (opening : Nat) (cs : List Char) : Escape :=
  match beforeClose? 0 0 cs with
  | none => .malformed (opening + cs.length)
  | some k =>
    match braced? (cs.take k) with
    | some c => .decoded c (opening + k + 1)
    | none => .malformed (opening + k + 1)

/-- What follows `\u`. -/
def readCode : List Char → Escape
  | '{' :: cs => readBraced 3 cs
  | cs =>
    match codeUnit cs with
    | .error k => .malformed (2 + k)
    | .ok unit =>
      if isHighSurrogate unit then readLow unit (cs.drop 4)
      else match char? unit with
        | some c => .decoded c 6
        | none => .malformed 6

/-- **The escape at a backslash**, given what follows it. -/
def read : List Char → Escape
  | [] => .cut
  | 'u' :: cs => readCode cs
  | '{' :: cs => readBraced 2 cs
  | c :: _ =>
    match short? c with
    | some d => .decoded d 2
    | none => .unknown c

end Escape

namespace Literal

/-- The kind of token that a literal between such quotes is. -/
def kind (quote : Char) : TokenKind :=
  if quote = templateQuote then .templateLiteral else .stringLiteral

/-- A literal whose text ends after `n` characters. -/
def unterminated (quote : Char) (n : Nat) : Misread :=
  .of (if quote = templateQuote then .unterminatedTemplate else .unterminatedString) [] ⟨0, n⟩ n

/-- The rest of a literal of which `n` characters have been read: the whole content, of which
`content` has been decoded, last character first, and the length of the literal with its quotes. -/
def readFrom (quote : Char) (content : List Char) (n : Nat) :
    List Char → Except Misread (List Char × Nat)
  | [] => .error (unterminated quote n)
  | c :: cs =>
    if c = quote then .ok (content.reverse, n + 1)
    else if c = '\\' then
      match Escape.read cs with
      | .decoded d k => readFrom quote (d :: content) (n + k) (cs.drop (k - 1))
      | .unknown d => .error (.of .invalidEscape [d.toString] ⟨n, 2⟩ (n + 1))
      | .malformed k => .error (.of .invalidUnicodeEscape [] ⟨n, k⟩ (n + k))
      | .cut => .error (unterminated quote (n + 1))
    else readFrom quote (c :: content) (n + 1) cs
termination_by cs => cs.length
decreasing_by all_goals simp only [List.length_cons, List.length_drop]; omega

/-- **The literal at the front of a text**, given its quote and what follows it. -/
def read (quote : Char) (cs : List Char) : Except Misread Lexeme :=
  (readFrom quote [] 1 cs).map fun (content, n) =>
    ⟨kind quote, .text (String.ofList content), n⟩

theorem lt_of_readFrom {quote : Char} {content cs content' : List Char} {n n' : Nat}
    (h : readFrom quote content n cs = .ok (content', n')) : n < n' := by
  fun_induction readFrom quote content n cs with
  | case1 => cases h
  | case2 => cases h; omega
  | case3 _ _ _ _ _ _ _ ih => have := ih h; omega
  | case4 => cases h
  | case5 => cases h
  | case6 => cases h
  | case7 _ _ _ _ _ _ ih => have := ih h; omega

theorem length_read_pos {quote : Char} {cs : List Char} {l : Lexeme}
    (h : read quote cs = .ok l) : 0 < l.length := by
  unfold read at h
  cases hr : readFrom quote [] 1 cs with
  | error m => rw [hr] at h; cases h
  | ok r =>
    rw [hr] at h
    cases h
    exact Nat.lt_of_le_of_lt (Nat.zero_le 1) (lt_of_readFrom hr)

end Literal

end ModuleImports
