/-!
# Signed decimal numerals

A numeral is an optional sign followed by one or more ASCII digits. Leading
zeros are allowed; a lone sign, a second sign and digits of other scripts are
not. Reading undoes printing on every integer.
-/

namespace SieveChain.Numeral

def digit? (c : Char) : Option Nat :=
  if '0' ≤ c ∧ c ≤ '9' then some (c.toNat - '0'.toNat) else none

/-- A nonempty run of ASCII digits, most significant first. -/
def natural? : List Char → Option Nat
  | [] => none
  | ds => ds.foldl (fun acc c => acc.bind fun n => (digit? c).map (10 * n + ·)) (some 0)

def integer? : List Char → Option Int
  | '+' :: ds => (natural? ds).map Int.ofNat
  | '-' :: ds => (natural? ds).map fun n => -Int.ofNat n
  | ds => (natural? ds).map Int.ofNat

/-- An integer as a 32-bit word, if it fits. -/
def narrow? (n : Int) : Option Int32 :=
  if -2147483648 ≤ n ∧ n ≤ 2147483647 then some (Int32.ofInt n) else none

def int32? (cs : List Char) : Option Int32 := (integer? cs).bind narrow?

def digit (n : Nat) : Char := Char.ofNat ('0'.toNat + n)

/-- The digits of a natural number, without leading zeros. -/
def ofNat (n : Nat) : List Char :=
  if n < 10 then [digit n] else ofNat (n / 10) ++ [digit (n % 10)]

/-- The shortest numeral of an integer: a sign only if it is negative. -/
def ofInt : Int → List Char
  | .ofNat n => ofNat n
  | .negSucc n => '-' :: ofNat (n + 1)

/-- The numeral of a word, as a string. -/
def text (v : Int32) : String := String.ofList (ofInt v.toInt)

/-- The numeral of a count, as a string. -/
def countText (n : Nat) : String := String.ofList (ofNat n)

end SieveChain.Numeral
