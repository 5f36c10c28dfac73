/-!
# Double-precision numbers

The binary numbers of 64 bits, as what they stand for: zero, a 53-bit mantissa
times a power of two, an infinity, or no number. A decimal is read by rounding it
to the nearest of them, a tie going to the even mantissa.
-/

namespace SieveChain

/-- A double-precision number. A finite one stands for `mantissa * 2 ^ exponent`. -/
inductive Double
  | finite (negative : Bool) (mantissa : Nat) (exponent : Int)
  | infinite (negative : Bool)
  | notANumber
  deriving DecidableEq, Repr

namespace Double

def leastExponent : Int := -1074

def greatestExponent : Int := 971

/-- A quotient of natural numbers, rounded to the nearest; a tie goes to the even one. -/
def roundQuotient (num den : Nat) : Nat :=
  let q := num / den
  let r := num % den
  if 2 * r < den then q
  else if den < 2 * r then q + 1
  else if q % 2 = 0 then q
  else q + 1

/-- A positive quotient rounded to a multiple of `2 ^ exponent`. -/
def mantissaAt (num den : Nat) (exponent : Int) : Nat :=
  if 0 ≤ exponent then roundQuotient num (den * Nat.pow 2 exponent.toNat)
  else roundQuotient (num * Nat.pow 2 (-exponent).toNat) den

/-- The exponent at which a positive quotient has a mantissa of 53 bits, but for those
too small for it. -/
def exponentOf (num den : Nat) : Int :=
  let estimate : Int := (Nat.log2 num : Int) - (Nat.log2 den : Int) - 53
  -- The quotient lies between two powers of two, so one of two exponents fits.
  let whole := if 0 ≤ estimate then num / (den * Nat.pow 2 estimate.toNat)
    else num * Nat.pow 2 (-estimate).toNat / den
  let exponent := if whole < Nat.pow 2 53 then estimate else estimate + 1
  max exponent leastExponent

def ofQuotient (negative : Bool) (num den : Nat) : Double :=
  let exponent := exponentOf num den
  let mantissa := mantissaAt num den exponent
  let (mantissa, exponent) :=
    if mantissa = Nat.pow 2 53 then (Nat.pow 2 52, exponent + 1) else (mantissa, exponent)
  if greatestExponent < exponent then .infinite negative
  else .finite negative mantissa exponent

/-- The nearest number to a decimal, given by its digits as a whole number of so many
digits and a power of ten. Powers far outside the range are not worked out. -/
def ofDecimal (negative : Bool) (digits : Nat) (length : Nat) (power : Int) : Double :=
  if digits = 0 then .finite negative 0 leastExponent
  else if 400 < power + length then .infinite negative
  else if power + length < -400 then .finite negative 0 leastExponent
  else if 0 ≤ power then ofQuotient negative (digits * Nat.pow 10 power.toNat) 1
  else ofQuotient negative digits (Nat.pow 10 (-power).toNat)

end Double

end SieveChain
