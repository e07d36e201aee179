/-!
# Text/CodePoint — code points and surrogate pairs

A code point above `0xffff` is written in UTF-16 as two units, a **high** surrogate and a **low**
one after it.  A surrogate that stands alone is no character.
-/

namespace ModuleImports.CodePoint

/-- The character with this code point, unless it is a surrogate or too large. -/
def char? (code : Nat) : Option Char := if code.isValidChar then some (Char.ofNat code) else none

/-- The first half of a pair. -/
def isHighSurrogate (unit : Nat) : Bool := 0xd800 ≤ unit && unit ≤ 0xdbff

/-- The second half of a pair. -/
def isLowSurrogate (unit : Nat) : Bool := 0xdc00 ≤ unit && unit ≤ 0xdfff

/-- The code point that a pair of surrogates stands for. -/
def combine (high low : Nat) : Nat := 0x10000 + (high - 0xd800) * 0x400 + (low - 0xdc00)

/-- The characters that some units stand for, if no surrogate among them is alone.  A unit may also
be a whole code point. -/
def decode? : List Nat → Option (List Char)
  | [] => some []
  | [u] => (char? u).map ([·])
  | u :: v :: us =>
    if isHighSurrogate u && isLowSurrogate v then
      (char? (combine u v)).bind fun c => (decode? us).map (c :: ·)
    else (char? u).bind fun c => (decode? (v :: us)).map (c :: ·)

/-- A character is its own code point. -/
theorem char?_toNat (c : Char) : char? c.toNat = some c := by
  have h : c.toNat.isValidChar := c.valid
  simp [char?, h]

/-- A character is no surrogate. -/
theorem isHighSurrogate_toNat (c : Char) : isHighSurrogate c.toNat = false := by
  have h : c.toNat < 0xd800 ∨ 0xdfff < c.toNat ∧ c.toNat < 0x110000 := c.valid
  simp only [isHighSurrogate, Bool.and_eq_false_iff, decide_eq_false_iff_not]
  omega

/-- **A text is read back from its code points.** -/
theorem decode?_map_toNat : ∀ cs : List Char, decode? (cs.map Char.toNat) = some cs
  | [] => rfl
  | [c] => by simp [decode?, char?_toNat]
  | c :: d :: cs => by
    have ih := decode?_map_toNat (d :: cs)
    rw [List.map_cons] at ih
    simp [decode?, isHighSurrogate_toNat, char?_toNat, ih]

end ModuleImports.CodePoint
