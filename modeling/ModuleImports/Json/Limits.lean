import ModuleImports.Json.Value
import ModuleImports.Number.Binary64

/-!
# Json/Limits — documents that can be held in memory

Some readers look at a document only after they have taken it in as a whole.  That needs more than
good form: every string has to stand for a text, every number has to fit into a double, and arrays
and objects may not be nested too deeply.
-/

namespace ModuleImports

namespace Numeral

/-- The largest number of one machine word. -/
def wordMax : Nat := 0xffffffffffffffff

/-- The value of a decimal digit. -/
def digit (c : Char) : Nat := c.toNat - '0'.toNat

/-- Takes digits of a whole part as long as the value fits into a word: the value, and how many
digits are left. -/
def fitWhole (value : Nat) : List Char → Nat × Nat
  | [] => (value, 0)
  | d :: ds =>
    if 10 * value + digit d ≤ wordMax then fitWhole (10 * value + digit d) ds
    else (value, ds.length + 1)

/-- Takes digits of a fraction as long as the value fits into a word: the value, and how many digits
were taken. -/
def fitFraction (value taken : Nat) : List Char → Nat × Nat
  | [] => (value, taken)
  | d :: ds =>
    if 10 * value + digit d ≤ wordMax then fitFraction (10 * value + digit d) (taken + 1) ds
    else (value, taken)

/-- The greatest exponent that is looked at. -/
def exponentMax : Int := 0x7fffffff

/-- The greatest power of ten below infinity. -/
def placeMax : Int := 308

/-- Whether the double nearest to a word, times the double nearest to a power of ten, is finite. -/
def productIsFinite (word place : Nat) : Bool :=
  let a := Binary64.ofRatio false word 1
  let b := Binary64.ofRatio false (tenTo place) 1
  let scale := a.scale + b.scale
  (Binary64.ofRatio false (a.significand * b.significand * twoTo scale.toNat)
    (twoTo (-scale).toNat)).isFinite

/-- **Whether a number fits into a double**, if its leading digits, as many as fit into a word, are
rounded first and then scaled by a power of ten. -/
def fitsDouble (n : Numeral) : Bool :=
  let (whole, left) := fitWhole 0 n.whole
  let (word, taken) := fitFraction whole 0 (n.fraction.getD [])
  let exponent := n.exponent.elim 0 Exponent.value
  let place := (left : Int) - taken + exponent
  word == 0 || exponent < -exponentMax || place < 0 ||
    (exponent ≤ exponentMax && place ≤ placeMax && productIsFinite word place.toNat)

end Numeral

namespace Json

/-- How deeply arrays and objects may be nested. -/
def depthMax : Nat := 127

mutual

/-- Whether a document with room for `depth` more levels can be held. -/
def fitsIn (depth : Nat) : Json → Bool
  | .null => true
  | .bool _ => true
  | .number n => n.fitsDouble
  | .string s => s.isSome
  | .array items => 0 < depth && itemsFitIn (depth - 1) items
  | .object members => 0 < depth && membersFitIn (depth - 1) members
termination_by structural v => v

def itemsFitIn (depth : Nat) : List Json → Bool
  | [] => true
  | v :: vs => v.fitsIn depth && itemsFitIn depth vs
termination_by structural vs => vs

def membersFitIn (depth : Nat) : List (Option String × Json) → Bool
  | [] => true
  | (k, v) :: ms => k.isSome && v.fitsIn depth && membersFitIn depth ms
termination_by structural ms => ms

end

/-- **Whether a document can be held as a whole.** -/
def canBeHeld (v : Json) : Bool := v.fitsIn depthMax

end Json

end ModuleImports
