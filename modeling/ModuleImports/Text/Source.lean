import ModuleImports.Text.Span

/-!
# Text/Source — a text addressed by character

Places in a `SourceText` count characters.  Two other measures are derived from them:

* `byteOffset` — how many UTF-8 bytes precede a place;
* `contextWindow` — two lines that show a place: the few characters around it, and a caret under it.

Every function accepts places past the end and clamps them.
-/

namespace ModuleImports

/-- An input text as the list of its characters. -/
structure SourceText where
  chars : List Char
deriving DecidableEq, Repr, Inhabited

namespace SourceText

/-- The characters of a text. -/
def ofString (text : String) : SourceText := ⟨text.toList⟩

/-- How many characters the text has. -/
def length (t : SourceText) : Nat := t.chars.length

/-- The character at a place, if the place is inside the text. -/
def charAt? (t : SourceText) (place : Nat) : Option Char := t.chars[place]?

/-- The characters from `start` up to `stop`, as far as the text has them. -/
def slice (t : SourceText) (start stop : Nat) : List Char :=
  (t.chars.take stop).drop start

/-- Whether `pattern` is what the text continues with at `place`.  The empty pattern is found
everywhere, past the end as well. -/
def startsWithAt (t : SourceText) (place : Nat) (pattern : List Char) : Bool :=
  pattern.isPrefixOf (t.chars.drop place)

/-- How many bytes of the text's UTF-8 form come before `place`. -/
def byteOffset (t : SourceText) (place : Nat) : Nat :=
  (String.ofList (t.chars.take place)).utf8ByteSize

/-! ## The context window -/

/-- How many characters before a place its context window shows. -/
def contextReach : Nat := 10

/-- What opens a window that leaves out some of the text before it. -/
def contextEllipsis (start : Nat) : List Char := if start > 0 then ['.', '.', '.'] else []

/-- A line break inside a window shows as a space. -/
def showOnLine (c : Char) : Char := if c = '\n' ∨ c = '\r' then ' ' else c

/-- **The context window of a place**: the ten characters before it and the character at it, on one
line, and a caret in the next line under that character.  A place past the end shows the end. -/
def contextWindow (t : SourceText) (place : Nat) : List Char :=
  let shown := min place t.length
  let start := shown - contextReach
  let lead := contextEllipsis start
  lead ++ (t.slice start (shown + 1)).map showOnLine ++
    '\n' :: List.replicate (lead.length + (shown - start)) ' ' ++ ['^']

/-- The byte offset and byte length of a span, both ends clamped to the text. -/
def byteRange (t : SourceText) (s : Span) : Nat × Nat :=
  (t.byteOffset s.start, t.byteOffset s.stop - t.byteOffset s.start)

end SourceText

end ModuleImports
