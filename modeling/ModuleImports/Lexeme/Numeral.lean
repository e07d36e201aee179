import ModuleImports.Lexeme.Basic
import ModuleImports.Lexeme.Vocabulary
import ModuleImports.Number.Decimal

/-!
# Lexeme/Numeral — decimal numerals

A numeral is a whole part without needless zeros, and may have a sign in front, a fraction and an
exponent.  `Numeral.spelling` writes one down and `Numeral.read` takes the longest one off the front
of a text; where the text goes on in a way that only a longer numeral could, reading fails.
-/

namespace ModuleImports

/-- The exponent of a numeral: its mark, its sign if it has one, and its digits. -/
structure Exponent where
  mark : Char
  sign : Option Char
  digits : List Char
deriving DecidableEq, Repr

/-- A numeral, part by part. -/
structure Numeral where
  negative : Bool
  whole : List Char
  /-- The digits after the point, if there is a point. -/
  fraction : Option (List Char)
  exponent : Option Exponent
deriving DecidableEq, Repr

namespace Exponent

/-- The written form of an exponent. -/
def spelling (e : Exponent) : List Char := e.mark :: e.sign.toList ++ e.digits

/-- The power of ten that an exponent stands for. -/
def value (e : Exponent) : Int :=
  if e.sign = some '-' then -(Binary64.digitsValue e.digits : Int)
  else Binary64.digitsValue e.digits

end Exponent

namespace Numeral

/-- **The written form of a numeral.** -/
def spelling (n : Numeral) : List Char :=
  (if n.negative then ['-'] else []) ++ n.whole ++
    (n.fraction.elim [] fun ds => '.' :: ds) ++ n.exponent.elim [] Exponent.spelling

/-- **The number a numeral stands for**: the double nearest to it. -/
def value (n : Numeral) : Binary64 :=
  let behind := n.fraction.getD []
  Binary64.ofDigits n.negative (n.whole ++ behind)
    ((n.exponent.elim 0 Exponent.value) - (behind.length : Int))

/-! ## Reading

Each part is read from the text that follows the part before it; `place` counts the characters up to
there.  A reader returns its part and the text after it. -/

/-- The digits at a place where there has to be one. -/
def readDigits (place : Nat) (cs : List Char) : Except Misread (List Char × List Char) :=
  if (cs.head?).any Char.isDigit then
    .ok (cs.takeWhile Char.isDigit, cs.dropWhile Char.isDigit)
  else .error (.of .digitExpected [] ⟨place, 1⟩ place)

/-- The whole part.  A zero in front of other digits is an error. -/
def readWhole (place : Nat) : List Char → Except Misread (List Char × List Char)
  | '0' :: cs =>
    if (cs.head?).any Char.isDigit then .error (.of .leadingZero [] ⟨place, 2⟩ (place + 1))
    else .ok (['0'], cs)
  | cs => .ok (cs.takeWhile Char.isDigit, cs.dropWhile Char.isDigit)

/-- The fraction, which a point announces. -/
def readFraction (place : Nat) : List Char → Except Misread (Option (List Char) × List Char)
  | '.' :: cs => (readDigits (place + 1) cs).map fun (ds, rest) => (some ds, rest)
  | cs => .ok (none, cs)

/-- The sign of an exponent. -/
def readSign : List Char → Option Char × List Char
  | [] => (none, [])
  | c :: cs => if c = '+' ∨ c = '-' then (some c, cs) else (none, c :: cs)

/-- The exponent, which an `e` of either case announces. -/
def readExponent (place : Nat) : List Char → Except Misread (Option Exponent)
  | [] => .ok none
  | c :: cs =>
    if c = 'e' ∨ c = 'E' then
      let (sign, after) := readSign cs
      (readDigits (place + 1 + sign.toList.length) after).map fun (ds, _) => some ⟨c, sign, ds⟩
    else .ok none

/-- What follows the sign of a numeral. -/
def readUnsigned (negative : Bool) (place : Nat) (cs : List Char) : Except Misread Numeral := do
  let (whole, afterWhole) ← readWhole place cs
  let place := place + whole.length
  let (fraction, afterFraction) ← readFraction place afterWhole
  let place := place + fraction.elim 0 (·.length + 1)
  let exponent ← readExponent place afterFraction
  return ⟨negative, whole, fraction, exponent⟩

/-- **The numeral at the front of a text** that starts with a digit, or with a minus and a digit. -/
def read : List Char → Except Misread Numeral
  | '-' :: cs => readUnsigned true 1 cs
  | cs => readUnsigned false 0 cs

/-- The numeral at the front of a text, as a lexeme.  Its number is read off its written form; one
that is no decimal would be an error as a whole. -/
def readLexeme (cs : List Char) : Except Misread Lexeme :=
  (read cs).bind fun n =>
    match Binary64.ofDecimal? n.spelling with
    | some x => .ok ⟨.numericLiteral, .number x, n.spelling.length⟩
    | none => .error (.of .digitExpected [] ⟨0, n.spelling.length⟩ n.spelling.length)

/-! ## A numeral is never empty -/

theorem readUnsigned_eq_ok {negative : Bool} {place : Nat} {cs : List Char} {n : Numeral}
    (h : readUnsigned negative place cs = .ok n) :
    n.negative = negative ∧ ∃ after, readWhole place cs = .ok (n.whole, after) := by
  simp only [readUnsigned, bind, Except.bind, pure, Except.pure] at h
  split at h
  · cases h
  · next whole hw =>
    split at h
    · cases h
    · split at h
      · cases h
      · cases h
        exact ⟨rfl, whole.2, hw⟩

theorem spelling_ne_nil {c : Char} {cs : List Char} {n : Numeral} (h : read (c :: cs) = .ok n)
    (hc : c = '-' ∨ c.isDigit) : n.spelling ≠ [] := by
  unfold read at h
  split at h
  · have := (readUnsigned_eq_ok h).1
    simp [spelling, this]
  · next hminus =>
    obtain ⟨-, after, hw⟩ := readUnsigned_eq_ok h
    have hd : c.isDigit := hc.resolve_left fun he => hminus cs (by rw [he])
    have : n.whole ≠ [] := by
      unfold readWhole at hw
      split at hw
      · split at hw
        · cases hw
        · simp only [Except.ok.injEq, Prod.mk.injEq] at hw
          simp [← hw.1]
      · simp only [Except.ok.injEq, Prod.mk.injEq] at hw
        simp [← hw.1, hd]
    simp [spelling, this]

theorem length_readLexeme_pos {c : Char} {cs : List Char} {l : Lexeme}
    (h : readLexeme (c :: cs) = .ok l) (hc : c = '-' ∨ c.isDigit) : 0 < l.length := by
  unfold readLexeme at h
  cases hr : read (c :: cs) with
  | error m => rw [hr] at h; cases h
  | ok n =>
    rw [hr] at h
    have hpos := List.length_pos_iff.2 (spelling_ne_nil hr hc)
    simp only [Except.bind] at h
    split at h
    · cases h
      exact hpos
    · cases h

end Numeral

end ModuleImports
