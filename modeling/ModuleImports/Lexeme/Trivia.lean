import ModuleImports.Lexeme.Basic
import ModuleImports.Lexeme.Vocabulary

/-!
# Lexeme/Trivia — what may stand between two tokens

Blanks always separate tokens; comments do so on request.  A line comment runs up to the next line
break, which is not part of it, and a block comment up to its first `*/`.  Without the request a
slash has no special meaning, and what looks like a comment is read as operators and words.
-/

namespace ModuleImports.Trivia

open Vocabulary

/-- How many characters there are up to and with the first `*/`; `n` come before. -/
def blockLength? (n : Nat) : List Char → Option Nat
  | '*' :: '/' :: _ => some (n + 2)
  | _ :: cs => blockLength? (n + 1) cs
  | [] => none

/-- What a text starts with, as far as comments are concerned. -/
inductive Comment where
  | absent
  | unclosed
  | closed (length : Nat)
deriving DecidableEq, Repr

/-- The comment at the front of a text. -/
def comment : List Char → Comment
  | '/' :: '/' :: cs => .closed (2 + (cs.takeWhile fun c => !isLineBreak c).length)
  | '/' :: '*' :: cs =>
    match blockLength? 0 cs with
    | some k => .closed (2 + k)
    | none => .unclosed
  | _ => .absent

/-- How long the trivia at the front of a text are, `n` characters of which have been seen.  A block
comment without an end is an error that reaches to the end of the text. -/
def lengthFrom (comments : Bool) (n : Nat) : List Char → Except Misread Nat
  | [] => .ok n
  | c :: cs =>
    if isBlank c then lengthFrom comments (n + 1) cs
    else if comments then
      match comment (c :: cs) with
      | .absent => .ok n
      | .unclosed =>
        .error (.of .unterminatedComment [] ⟨n, cs.length + 1⟩ (n + (cs.length + 1)))
      | .closed k => lengthFrom comments (n + k) (cs.drop (k - 1))
    else .ok n
termination_by cs => cs.length
decreasing_by all_goals simp only [List.length_cons, List.length_drop]; omega

/-- **The length of the trivia at the front of a text.** -/
def length (comments : Bool) (cs : List Char) : Except Misread Nat := lengthFrom comments 0 cs

end ModuleImports.Trivia
