import SieveChain.Number.Double
import SieveChain.Text.Numeral

/-!
# Shortest decimals

The shortest decimal that reads back as a given number, and of those of that length
the nearest. Between two neighbours of the number on a decimal grid that are
equally near, the greater one is taken.
-/

namespace SieveChain.Double

/-- The decimals that round to a number, between two bounds; the bounds belong to
them exactly if the mantissa is even. All three are over one denominator. -/
structure Neighbourhood where
  low : Nat
  value : Nat
  high : Nat
  den : Nat
  closed : Bool

/-- The neighbourhood of a positive number. Below a power of two numbers lie twice as
close, but for the least ones. -/
def neighbourhood (mantissa : Nat) (exponent : Int) : Neighbourhood :=
  let below := if mantissa = Nat.pow 2 52 ∧ leastExponent < exponent then 1 else 2
  let scale := if 0 ≤ exponent then Nat.pow 2 exponent.toNat else 1
  let den := 4 * (if 0 ≤ exponent then 1 else Nat.pow 2 (-exponent).toNat)
  { low := (4 * mantissa - below) * scale, value := 4 * mantissa * scale,
    high := (4 * mantissa + 2) * scale, den, closed := mantissa % 2 = 0 }

def Neighbourhood.holds (n : Neighbourhood) (count stepNum stepDen : Nat) : Bool :=
  let x := count * stepNum * n.den
  if n.closed then n.low * stepDen ≤ x && x ≤ n.high * stepDen
  else n.low * stepDen < x && x < n.high * stepDen

/-- The power of ten next above a positive quotient, searched upwards from a lower
bound: it is `p` if the quotient is below `10 ^ p` and not below `10 ^ (p - 1)`. -/
def magnitude (num den : Nat) : Nat → Int → Int
  | 0, p => p
  | n + 1, p =>
    let under :=
      if 0 ≤ p then num < den * Nat.pow 10 p.toNat else num * Nat.pow 10 (-p).toNat < den
    if under then p else magnitude num den n (p + 1)

/-- The neighbour on the grid of so many digits that is to be taken, if one reads back. -/
def gridPoint? (n : Neighbourhood) (p : Int) (digits : Nat) : Option Nat :=
  let power := p - digits
  let stepNum := if 0 ≤ power then Nat.pow 10 power.toNat else 1
  let stepDen := if 0 ≤ power then 1 else Nat.pow 10 (-power).toNat
  let lower := n.value * stepDen / (n.den * stepNum)
  let down := n.holds lower stepNum stepDen
  let up := n.holds (lower + 1) stepNum stepDen
  let nearerUp := (2 * lower + 1) * stepNum * n.den ≤ 2 * n.value * stepDen
  if down && up then some (if nearerUp then lower + 1 else lower)
  else if down then some lower
  else if up then some (lower + 1)
  else none

/-- The first grid, from one digit to seventeen, with a point that reads back. -/
def search (n : Neighbourhood) (p : Int) : Nat → Nat → Nat × Nat
  | 0, digits => (n.value / n.den, digits)
  | k + 1, digits =>
    match gridPoint? n p digits with
    | some point => (point, digits)
    | none => search n p k (digits + 1)

def stripZeros : List Char → List Char
  | cs => (cs.reverse.dropWhile (· == '0')).reverse

/-- The digits of the shortest decimal of a positive number, without zeros at the end,
and the power of ten such that the number is `0.digits` times it. -/
def shortest (mantissa : Nat) (exponent : Int) : List Char × Int :=
  let n := neighbourhood mantissa exponent
  let p := magnitude n.value n.den 700 (-330)
  let (point, digits) := search n p 17 1
  let text := Numeral.ofNat point
  -- A point that is a power of ten may have one digit more than its grid.
  (stripZeros text, p + ((text.length : Int) - digits))

/-- Digits in positional notation, always with a point and a digit on either side. -/
def positional (digits : List Char) (p : Int) : List Char :=
  if p ≤ 0 then '0' :: '.' :: List.replicate (-p).toNat '0' ++ digits
  else
    let n := p.toNat
    if digits.length ≤ n then digits ++ List.replicate (n - digits.length) '0' ++ ['.', '0']
    else digits.take n ++ '.' :: digits.drop n

def text : Double → List Char
  | .notANumber => "NaN".toList
  | .infinite negative => (if negative then "-inf" else "inf").toList
  | .finite negative mantissa exponent =>
    let magnitude :=
      if mantissa = 0 then "0.0".toList
      else
        let (digits, p) := shortest mantissa exponent
        positional digits p
    if negative then '-' :: magnitude else magnitude

end SieveChain.Double
