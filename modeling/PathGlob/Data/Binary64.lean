/-! # Numbers with a fraction

Floating-point numbers of 64 bits in exact arithmetic: how a decimal number is rounded to one, and
the shortest decimal number that is rounded to a given one. A finite number is `significand · 2 ^
exponent` with a significand below `2 ^ 53`.
-/

namespace PathGlob

/-- A floating-point number of 64 bits. -/
inductive Binary64 where
  | finite (negative : Bool) (significand : Nat) (exponent : Int)
  | infinite (negative : Bool)
  | notANumber
  deriving DecidableEq, Repr

namespace Binary64

def minExponent : Int := -1074

def maxExponent : Int := 971

/-- The significands of 53 bits are below this bound. -/
def significandBound : Nat := Nat.pow 2 53

/-- A power whose exponent counts only as far as it is positive. -/
def power (base : Nat) (exponent : Int) : Nat :=
  Nat.pow base exponent.toNat

/-- A quotient rounded to the nearest natural number, a half to the even neighbour. -/
def roundedQuotient (dividend divisor : Nat) : Nat :=
  let quotient := dividend / divisor
  let excess := 2 * (dividend % divisor)
  if excess > divisor ∨ (excess = divisor ∧ quotient % 2 = 1) then quotient + 1 else quotient

/-- A ratio in units of `2 ^ exponent`, as a ratio. -/
def inUnits (numerator denominator : Nat) (exponent : Int) : Nat × Nat :=
  (numerator * power 2 (-exponent), denominator * power 2 exponent)

/-- The number nearest to a ratio, if it is not too large. -/
def ofRatio? (negative : Bool) (numerator denominator : Nat) : Option Binary64 :=
  if numerator = 0 then some (.finite negative 0 minExponent)
  else
    let magnitude : Int := Nat.log2 numerator - Nat.log2 denominator
    let low := max (magnitude - 53) minExponent
    let (lowTop, lowBottom) := inUnits numerator denominator low
    let exponent := if lowTop / lowBottom ≥ significandBound then low + 1 else low
    let (top, bottom) := inUnits numerator denominator exponent
    let rounded := roundedQuotient top bottom
    let (significand, exponent) :=
      if rounded = significandBound then (rounded / 2, exponent + 1) else (rounded, exponent)
    if exponent > maxExponent then none else some (.finite negative significand exponent)

/-- The number nearest to `digits · 10 ^ exponent`, if it is not too large. -/
def ofDecimal? (negative : Bool) (digits : Nat) (exponent : Int) : Option Binary64 :=
  let size : Int := (Nat.toDigits 10 digits).length
  if digits = 0 ∨ size + exponent < -340 then some (.finite negative 0 minExponent)
  else if size + exponent > 320 then none
  else ofRatio? negative (digits * power 10 exponent) (power 10 (-exponent))

/-- Whether `count · 10 ^ place` is rounded to a number with the given positive significand. The
decimal is compared with the ends of the interval in quarters of the significand's unit. -/
def isRoundedFrom (significand : Nat) (exponent : Int) (count : Nat) (place : Int) : Bool :=
  let quarters : Int := exponent - 2
  let scaled := count * power 10 place * power 2 (-quarters)
  let unit := power 2 quarters * power 10 (-place)
  let below := if significand = significandBound / 2 ∧ exponent > minExponent then 1 else 2
  let low := (4 * significand - below) * unit
  let high := (4 * significand + 2) * unit
  if significand % 2 = 0 then low ≤ scaled && scaled ≤ high else low < scaled && scaled < high

/-- On the grid of the multiples of `10 ^ place`, a neighbour of the number that is rounded to it:
the nearer of the two if both are. -/
def neighbour? (significand : Nat) (exponent : Int) (place : Int) : Option Nat :=
  let top := significand * power 2 exponent * power 10 (-place)
  let bottom := power 2 (-exponent) * power 10 place
  let under := top / bottom
  let nearer := if 2 * (top % bottom) > bottom then under + 1 else under
  let farther := if nearer = under then under + 1 else under
  if nearer ≠ 0 ∧ isRoundedFrom significand exponent nearer place then some nearer
  else if isRoundedFrom significand exponent farther place then some farther
  else none

/-- The coarsest grid from `10 ^ place` downwards with a neighbour that is rounded to the number. -/
def shortest (significand : Nat) (exponent : Int) : Nat → Int → Nat × Int
  | 0, place => (significand, place)
  | fuel + 1, place =>
    match neighbour? significand exponent place with
    | some count => (count, place)
    | none => shortest significand exponent fuel (place - 1)

/-- A multiple of a power of ten in positional notation, with at least one digit on each side of the
point. -/
def positional (count : Nat) (place : Int) : List Char :=
  let digits := Nat.toDigits 10 count
  if place ≥ 0 then digits ++ List.replicate place.toNat '0' ++ ['.', '0']
  else
    let places := (-place).toNat
    let padded := List.replicate (places + 1 - digits.length) '0' ++ digits
    padded.take (padded.length - places) ++ '.' :: padded.drop (padded.length - places)

/-- The text of a number: the shortest decimal that is rounded to it, in positional notation. -/
def text : Binary64 → List Char
  | .finite negative significand exponent =>
    let sign := if negative then ['-'] else []
    if significand = 0 then sign ++ ['0', '.', '0']
    else
      let (count, place) := shortest significand exponent 660 310
      sign ++ positional count place
  | .infinite negative => (if negative then ['-'] else []) ++ ['i', 'n', 'f']
  | .notANumber => ['N', 'a', 'N']

end Binary64

end PathGlob
