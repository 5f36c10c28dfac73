import SieveChain.Toml.Value
import SieveChain.Toml.Text

/-!
# TOML numbers, dates and times

Integers have 64 bits; decimal ones may have a sign and no zero in front, others say
their base first. A float that is too large is refused. Single underscores may stand
between digits.
-/

namespace SieveChain.Toml

def moreDigits (p : Char → Bool) : List Char → List Char × List Char
  | '_' :: c :: cs =>
    if p c then
      let (ds, cs) := moreDigits p cs
      (c :: ds, cs)
    else ([], '_' :: c :: cs)
  | c :: cs =>
    if p c then
      let (ds, cs) := moreDigits p cs
      (c :: ds, cs)
    else ([], c :: cs)
  | [] => ([], [])

def digits? (p : Char → Bool) : List Char → Option (List Char × List Char)
  | c :: cs =>
    if p c then
      let (ds, cs) := moreDigits p cs
      some (c :: ds, cs)
    else none
  | [] => none

def valueOf (base : Nat) (ds : List Char) : Nat := ds.foldl (fun n c => base * n + hexValue c) 0

def integer? (n : Int) : Option Value :=
  if -9223372036854775808 ≤ n ∧ n ≤ 9223372036854775807 then some (.integer n) else none

def based? (base : Nat) (p : Char → Bool) (cs : List Char) : Option (Value × List Char) := do
  let (ds, cs) ← digits? p cs
  return (← integer? (valueOf base ds), cs)

/-- Takes a sign, if there is one, and says whether it is a minus. -/
def sign : List Char → Bool × List Char
  | '+' :: cs => (false, cs)
  | '-' :: cs => (true, cs)
  | cs => (false, cs)

/-- Reads the digits before a point: a zero stands alone. -/
def wholeDigits? : List Char → Option (List Char × List Char)
  | '0' :: cs => some (['0'], cs)
  | cs => digits? isDigit cs

/-- Reads the digits behind a point, if there is one. -/
def fraction? : List Char → Option (List Char × List Char)
  | '.' :: cs => digits? isDigit cs
  | cs => some ([], cs)

/-- Reads a power of ten, if there is one. -/
def power? : List Char → Option (Int × List Char)
  | c :: cs =>
    if c == 'e' || c == 'E' then do
      let (negative, cs) := sign cs
      let (ds, cs) ← digits? isDigit cs
      let n : Int := valueOf 10 ds
      return (if negative then -n else n, cs)
    else some (0, c :: cs)
  | [] => some (0, [])

/-- A point or a power of ten behind the digits makes a float of them. -/
def isFloat : List Char → Bool
  | c :: _ => c == '.' || c == 'e' || c == 'E'
  | [] => false

/-- The float of a decimal, unless it is too large. -/
def float? (negative : Bool) (whole fraction : List Char) (power : Int) : Option Value :=
  let ds := (whole ++ fraction).dropWhile (· == '0')
  match Double.ofDecimal negative (valueOf 10 ds) ds.length (power - fraction.length) with
  | .infinite false => none
  | x => some (.float x)

def decimal? (cs : List Char) : Option (Value × List Char) :=
  let (negative, cs) := sign cs
  match cs with
  | 'i' :: 'n' :: 'f' :: cs => some (.float (.infinite negative), cs)
  | 'n' :: 'a' :: 'n' :: cs => some (.float .notANumber, cs)
  | cs => do
    let (whole, cs) ← wholeDigits? cs
    if isFloat cs then
      let (fraction, cs) ← fraction? cs
      let (power, cs) ← power? cs
      return (← float? negative whole fraction power, cs)
    else
      let n : Int := valueOf 10 whole
      return (← integer? (if negative then -n else n), cs)

/-- Reads two digits that stand for a number of at most so much. -/
def twoDigits? (least most : Nat) : List Char → Option (Nat × List Char)
  | a :: b :: cs =>
    let n := valueOf 10 [a, b]
    if isDigit a && isDigit b && least ≤ n && n ≤ most then some (n, cs) else none
  | _ => none

def expect? (c : Char) : List Char → Option (List Char)
  | d :: cs => if c = d then some cs else none
  | [] => none

/-- Reads the fraction of a second, if there is one. -/
def secondFraction? : List Char → Option (List Char)
  | '.' :: cs => if (cs.takeWhile isDigit).isEmpty then none else some (cs.dropWhile isDigit)
  | cs => some cs

/-- Reads a time of day. A minute may have a leap second. -/
def time? (cs : List Char) : Option (List Char) := do
  let (_, cs) ← twoDigits? 0 23 cs
  let (_, cs) ← twoDigits? 0 59 (← expect? ':' cs)
  let (_, cs) ← twoDigits? 0 60 (← expect? ':' cs)
  secondFraction? cs

/-- Reads an offset from universal time, if there is one. -/
def offset? : List Char → Option (List Char)
  | c :: cs =>
    if c == 'Z' || c == 'z' then some cs
    else if c == '+' || c == '-' then do
      let (_, cs) ← twoDigits? 0 23 cs
      let (_, cs) ← twoDigits? 0 59 (← expect? ':' cs)
      return cs
    else some (c :: cs)
  | [] => some []

def daysOf (year month : Nat) : Nat :=
  if month = 2 then
    if year % 4 = 0 ∧ (year % 100 ≠ 0 ∨ year % 400 = 0) then 29 else 28
  else if month = 4 ∨ month = 6 ∨ month = 9 ∨ month = 11 then 30
  else 31

def date? : List Char → Option (List Char)
  | a :: b :: c :: d :: '-' :: cs =>
    if [a, b, c, d].all isDigit then do
      let (month, cs) ← twoDigits? 1 12 cs
      let (_, cs) ← twoDigits? 1 (daysOf (valueOf 10 [a, b, c, d]) month) (← expect? '-' cs)
      return cs
    else none
  | _ => none

/-- Reads the time that belongs to a date, if there is one. A blank that no time follows
does not belong to the date. -/
def timeOfDate? : List Char → Option (List Char)
  | c :: cs =>
    if c == 'T' || c == 't' || c == ' ' then
      match time? cs with
      | some cs => offset? cs
      | none => some (c :: cs)
    else some (c :: cs)
  | [] => some []

/-- Four digits and a hyphen begin a date, two digits and a colon a time. -/
def looksDated : List Char → Bool
  | a :: b :: c :: d :: e :: _ =>
    [a, b, c, d].all isDigit && e == '-' || [a, b].all isDigit && c == ':'
  | _ => false

/-- Reads a date, a time or both. -/
def dateTime? (cs : List Char) : Option (Value × List Char) :=
  let behind := match date? cs with
    | some cs => timeOfDate? cs
    | none => time? cs
  behind.map fun cs => (.dateTime, cs)

/-- Reads a number, a date or a time. -/
def number? : List Char → Option (Value × List Char)
  | '0' :: 'x' :: cs => based? 16 isHexDigit cs
  | '0' :: 'o' :: cs => based? 8 (fun c => '0' ≤ c && c ≤ '7') cs
  | '0' :: 'b' :: cs => based? 2 (fun c => c == '0' || c == '1') cs
  | cs => if looksDated cs then dateTime? cs else decimal? cs

end SieveChain.Toml
