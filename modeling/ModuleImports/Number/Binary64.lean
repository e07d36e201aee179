import ModuleImports.Number.Power

/-!
# Number/Binary64 — double-precision numbers, and the one nearest to a decimal

A `Binary64` is its 64 bits.  A finite one stands for `significand · 2 ^ scale`, with the sign of
its top bit.  `ofDigits` rounds a decimal to the nearest of them by exact integer arithmetic; a
decimal half way between two goes to the one with the even significand, and one past the largest by
half a step or more to infinity.
-/

namespace ModuleImports

/-- A double-precision number, given by its bits. -/
structure Binary64 where
  bits : UInt64
deriving DecidableEq, Repr, Inhabited

namespace Binary64

/-- How many bits the fraction field has. -/
def fractionBits : Nat := 52

/-- The exponent field that marks infinities and what is not a number. -/
def exponentTop : Nat := 2047

/-- The scale of the finest numbers. -/
def leastScale : Int := -1074

/-- Whether the sign bit is set. -/
def isNegative (x : Binary64) : Bool := x.bits.toNat / twoTo 63 == 1

/-- The eleven bits below the sign. -/
def exponentField (x : Binary64) : Nat := x.bits.toNat / twoTo fractionBits % 2048

/-- The bits below the exponent field. -/
def fractionField (x : Binary64) : Nat := x.bits.toNat % twoTo fractionBits

/-- Whether this is a number, and no infinity. -/
def isFinite (x : Binary64) : Bool := x.exponentField != exponentTop

/-- Whether this is no number at all. -/
def isNaN (x : Binary64) : Bool := !x.isFinite && x.fractionField != 0

/-- The integer factor of a finite number: the fraction field, with its leading bit unless the
exponent field is zero. -/
def significand (x : Binary64) : Nat :=
  if x.exponentField = 0 then x.fractionField else twoTo fractionBits + x.fractionField

/-- The power of two in a finite number. -/
def scale (x : Binary64) : Int :=
  if x.exponentField = 0 then leastScale else leastScale + (x.exponentField - 1 : Nat)

/-- The number with a given sign and given lower 63 bits. -/
def ofSignMagnitude (negative : Bool) (magnitude : Nat) : Binary64 :=
  ⟨(if negative then twoTo 63 + magnitude else magnitude).toUInt64⟩

/-- Zero, with a sign. -/
def zero (negative : Bool) : Binary64 := ofSignMagnitude negative 0

/-- Infinity, with a sign. -/
def infinity (negative : Bool) : Binary64 :=
  ofSignMagnitude negative (exponentTop * twoTo fractionBits)

/-! ## Rounding -/

/-- The integer nearest to `num / den`; a half goes to the even neighbour. -/
def divToEven (num den : Nat) : Nat :=
  let down := num / den
  let rest := 2 * (num % den)
  if rest < den then down else if den < rest then down + 1 else down + down % 2

/-- The greatest `e` with `2 ^ e ≤ num / den`, for positive `num` and `den`. -/
def floorLog2 (num den : Nat) : Int :=
  let e : Int := num.log2 - den.log2
  if den * twoTo e.toNat ≤ num * twoTo (-e).toNat then e else e - 1

/-- The number nearest to `num / den`.  Rounding up to the next power of two carries from the
fraction field into the exponent field, which is the right number again. -/
def ofRatio (negative : Bool) (num den : Nat) : Binary64 :=
  if num = 0 then zero negative
  else
    let scale := max leastScale (floorLog2 num den - fractionBits)
    let rounded := divToEven (num * twoTo (-scale).toNat) (den * twoTo scale.toNat)
    let magnitude := (scale - leastScale).toNat * twoTo fractionBits + rounded
    if exponentTop * twoTo fractionBits ≤ magnitude then infinity negative
    else ofSignMagnitude negative magnitude

/-! ## Decimals -/

/-- The value of a run of decimal digits. -/
def digitsValue (ds : List Char) : Nat := ds.foldl (fun n d => 10 * n + (d.toNat - '0'.toNat)) 0

/-- **The number nearest to `digits · 10 ^ exponent`.**  The place of the first digit other than
zero decides the extremes before any power of ten is computed: below `10 ^ -330` all is zero, and
from `10 ^ 310` on all is infinite. -/
def ofDigits (negative : Bool) (digits : List Char) (exponent : Int) : Binary64 :=
  let significant := digits.dropWhile (· == '0')
  let place := significant.length + exponent
  if significant.isEmpty || place < -330 then zero negative
  else if 310 < place then infinity negative
  else
    ofRatio negative (digitsValue significant * tenTo exponent.toNat) (tenTo (-exponent).toNat)

end Binary64

end ModuleImports
