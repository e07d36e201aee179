import ModuleImports.Number.Binary64

/-!
# Number/Decimal — numbers as they are written

A decimal has a sign if it needs one, digits with a point in front of, between or behind them, and
an exponent if it needs one.  `ofDecimal?` takes such a text as a whole and gives the number that is
nearest to it; any other text is refused.
-/

namespace ModuleImports.Binary64

/-- Whether a minus stands in front, and what follows the sign. -/
def splitSign : List Char → Bool × List Char
  | '-' :: cs => (true, cs)
  | '+' :: cs => (false, cs)
  | cs => (false, cs)

/-- The digits behind a point, if there is one, and what follows them. -/
def splitFraction : List Char → List Char × List Char
  | '.' :: cs => (cs.takeWhile Char.isDigit, cs.dropWhile Char.isDigit)
  | cs => ([], cs)

/-- The power of ten at the end of a decimal: nothing, or a mark and a whole number. -/
def exponent? : List Char → Option Int
  | [] => some 0
  | c :: cs =>
    let (negative, ds) := splitSign cs
    if (c = 'e' ∨ c = 'E') ∧ ds ≠ [] ∧ ds.all Char.isDigit then
      some (if negative then -(digitsValue ds : Int) else digitsValue ds)
    else none

/-- **The number nearest to a decimal as it is written.**  There have to be digits on one side of
the point at least. -/
def ofDecimal? (cs : List Char) : Option Binary64 :=
  let (negative, unsigned) := splitSign cs
  let whole := unsigned.takeWhile Char.isDigit
  let (fraction, rest) := splitFraction (unsigned.dropWhile Char.isDigit)
  if whole = [] ∧ fraction = [] then none
  else (exponent? rest).map fun e => ofDigits negative (whole ++ fraction) (e - fraction.length)

end ModuleImports.Binary64
