/-!
# Text/Span — stretches of a text, counted in characters

A `Span` is a place and a length.  Nothing ties a span to a text: one may lie partly or wholly past
the end of the text it is read against, and the functions that read it clamp.
-/

namespace ModuleImports

/-- A stretch of text: the place of its first character and how many characters it covers. -/
structure Span where
  start : Nat
  length : Nat
deriving DecidableEq, Repr, Inhabited

namespace Span

/-- The place just after the last character. -/
def stop (s : Span) : Nat := s.start + s.length

/-- The stretch from one place up to another, empty if the second comes first. -/
def ofBounds (start stop : Nat) : Span := ⟨start, stop - start⟩

/-- The empty stretch at a place. -/
def empty (place : Nat) : Span := ⟨place, 0⟩

/-- Whether no character is covered. -/
def isEmpty (s : Span) : Bool := s.length == 0

/-- The same stretch of a text that has `n` more characters in front. -/
def shift (n : Nat) (s : Span) : Span := ⟨n + s.start, s.length⟩

/-- `5..15` -/
def toRangeString (s : Span) : String := toString s.start ++ ".." ++ toString s.stop

/-- `[5, 15)` -/
def toIntervalString (s : Span) : String :=
  "[" ++ toString s.start ++ ", " ++ toString s.stop ++ ")"

theorem stop_shift (n : Nat) (s : Span) : (s.shift n).stop = n + s.stop :=
  Nat.add_assoc n s.start s.length

theorem shift_shift (m n : Nat) (s : Span) : (s.shift m).shift n = s.shift (n + m) := by
  simp [shift, Nat.add_assoc]

end Span

end ModuleImports
