import ModuleImports.Number.Binary64

/-!
# Number/Shortest — the fewest decimal digits that read back

The decimals that round to a given finite double form an interval around it.  `shortest` takes the
coarsest power of ten with a multiple in that interval, and of its multiples the one nearest to the
number; of two equally near ones the larger.  `toDecimal` writes the result out in full: no
exponent, and a point only where digits follow it.
-/

namespace ModuleImports.Binary64

/-- The interval of reals that round to a finite number, in quarters of the number's last place. -/
structure Neighbourhood where
  low : Nat
  value : Nat
  high : Nat
  /-- Whether the two ends round to the number as well. -/
  closed : Bool
  /-- The power of two that a quarter is. -/
  scale : Int
deriving Repr

/-- The interval ends half way to the neighbours.  Below a power of two the lower neighbour is twice
as near.  A half rounds to the even significand, so the ends belong to the interval exactly then. -/
def neighbourhood (x : Binary64) : Neighbourhood :=
  let m := x.significand
  let quarter := if x.fractionField = 0 ∧ 1 < x.exponentField then 1 else 2
  ⟨4 * m - quarter, 4 * m, 4 * m + 2, m % 2 == 0, x.scale - 2⟩

/-- The multiple of `10 ^ place` in the interval that is nearest to its number, if there is one. -/
def Neighbourhood.multiple? (n : Neighbourhood) (place : Int) : Option Nat :=
  let grid := tenTo place.toNat * twoTo (-n.scale).toNat
  let unit := twoTo n.scale.toNat * tenTo (-place).toNat
  let inside (k : Nat) : Bool :=
    if n.closed then n.low * unit ≤ k * grid && k * grid ≤ n.high * unit
    else n.low * unit < k * grid && k * grid < n.high * unit
  let below := n.value * unit / grid
  let rest := 2 * (n.value * unit % grid)
  if inside below && (!inside (below + 1) || rest < grid) then some below
  else if inside (below + 1) then some (below + 1)
  else none

/-- A power of ten above the number `m · 2 ^ scale`, at most two places too high. -/
def placeAbove (m : Nat) (scale : Int) : Int := (m.log2 + 1 + scale) * 30103 / 100000 + 1

/-- The digits of a finite number other than zero, and the place of the last of them. -/
def shortest (x : Binary64) : Nat × Int :=
  let top := placeAbove x.significand x.scale
  let found := (List.range 25).findSome? fun i : Nat =>
    (x.neighbourhood.multiple? (top - i)).map fun k => (k, top - i)
  found.getD (0, 0)

/-- Digits written out in full, the last of them at the given place. -/
def positional (digits : List Char) (place : Int) : List Char :=
  let behind := (-place).toNat
  if behind = 0 then digits ++ List.replicate place.toNat '0'
  else if behind < digits.length then
    digits.take (digits.length - behind) ++ '.' :: digits.drop (digits.length - behind)
  else '0' :: '.' :: List.replicate (behind - digits.length) '0' ++ digits

/-- **The written form of a number.** -/
def toDecimal (x : Binary64) : String :=
  if x.isNaN then "NaN"
  else
    let sign := if x.isNegative then "-" else ""
    if !x.isFinite then sign ++ "inf"
    else if x.significand = 0 then sign ++ "0"
    else
      let (digits, place) := x.shortest
      sign ++ String.ofList (positional (Nat.toDigits 10 digits) place)

end ModuleImports.Binary64
