import SieveChain.Text.Numeral
import SieveChain.Text.Property
import SieveChain.Text.Utf8

/-!
# Record lines

The record holds one line `prime v` for each stage that owns a prime. Reading a
record keeps the lines of that shape and skips all others; white space at the
end of a line, carriage returns included, does not matter.
-/

namespace SieveChain.Record

def opening : List Char := "prime".toList

/-- The line of a value, with its end. -/
def line (v : Int32) : List Char := opening ++ ' ' :: Numeral.ofInt v.toInt ++ ['\n']

def after? : List Char → List Char → Option (List Char)
  | [], cs => some cs
  | _ :: _, [] => none
  | p :: ps, c :: cs => if p = c then after? ps cs else none

/-- The value of a line, if it is one. -/
def parseLine? (cs : List Char) : Option Int32 :=
  (after? (opening ++ [' ']) (Text.trimEnd cs)).bind Numeral.int32?

def splitLines : List Char → List (List Char)
  | [] => [[]]
  | c :: cs =>
    if c = '\n' then [] :: splitLines cs
    else
      match splitLines cs with
      | [] => [[c]]
      | l :: ls => (c :: l) :: ls

/-- The values of a record, in order. -/
def parse (cs : List Char) : List Int32 := (splitLines cs).filterMap parseLine?

end SieveChain.Record
