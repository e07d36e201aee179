import ModuleImports.Lexeme.Basic
import ModuleImports.Lexeme.Vocabulary

/-!
# Lexeme/Word — words, operators and delimiters

A word is the longest run of word characters, and its kind is a look-up.  An operator is the longest
entry of the operator table that the text starts with.
-/

namespace ModuleImports

open Vocabulary

namespace Word

/-- The kind of token that a word is. -/
def kind (word : String) : TokenKind :=
  if isKeyword word then .keyword else if isWordOperator word then .operator else .identifier

/-- The word at the front of a text, given its first character. -/
def read (c : Char) (cs : List Char) : Lexeme :=
  let word := String.ofList (c :: cs.takeWhile isWordPart)
  ⟨kind word, .text word, (cs.takeWhile isWordPart).length + 1⟩

end Word

namespace Operator

/-- Whether the first `n` characters of a text are an operator.  In `a?.5:1` the point belongs to
the number, so `?.` is none before a digit. -/
def fits (cs : List Char) (n : Nat) : Bool :=
  let candidate := String.ofList (cs.take n)
  (cs.take n).length == n && isOperator candidate &&
    !(candidate == "?." && (cs[2]?).any Char.isDigit)

/-- The lengths an operator can have, the longest first. -/
def lengths : List Nat := (List.range' 1 longestOperator).reverse

/-- The length of the longest operator at the front of a text. -/
def length? (cs : List Char) : Option Nat := lengths.find? (fits cs)

/-- The operator at the front of a text. -/
def read? (cs : List Char) : Option Lexeme :=
  (length? cs).map fun n => ⟨.operator, .text (String.ofList (cs.take n)), n⟩

theorem length?_pos {cs : List Char} {n : Nat} (h : length? cs = some n) : 0 < n := by
  have := List.mem_of_find?_eq_some h
  simp only [lengths, List.mem_reverse, List.mem_range'_1] at this
  omega

end Operator

end ModuleImports
