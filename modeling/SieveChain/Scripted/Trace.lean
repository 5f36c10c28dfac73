import SieveChain.Scripted.Surroundings
import SieveChain.Text.Numeral
import SieveChain.Text.Utf8

/-!
# Traces in words

A trace as a list of lines. Reads, and operations that accepted nothing, leave no
line; bytes accepted one after the other in the same place share one.
-/

namespace SieveChain.Event

/-- One line of a trace before its text is put together. -/
inductive Mark
  | text (line : String)
  | record (bytes : List UInt8)
  | output (index count : Nat)

def mark? : Event → Option Mark
  | .read _ => none
  | .recorded [] _ => none
  | .recorded bytes _ => some (.record bytes)
  | .committed _ => some (.text "record flush")
  | .launched (.ok child) => some (.text ("launch " ++ Numeral.countText child.index))
  | .launched (.error _) => some (.text "launch failed")
  | .sent _ [] _ => none
  | .sent child bytes _ => some (.output child.index bytes.length)
  | .shut child => some (.text ("output " ++ Numeral.countText child.index ++ " released"))
  | .left => some (.text "input released")
  | .reaped child _ => some (.text ("reap " ++ Numeral.countText child.index))
  | .forsaken child =>
      some (.text ("child " ++ Numeral.countText child.index ++ " never reaped"))

/-- Puts a mark before others, joined with the first of them if they belong together. -/
def Mark.join : Mark → List Mark → List Mark
  | .record a, .record b :: rest => .record (a ++ b) :: rest
  | .output i m, .output j n :: rest =>
    if i = j then .output i (m + n) :: rest else .output i m :: .output j n :: rest
  | m, rest => m :: rest

def Mark.line : Mark → String
  | .text line => line
  | .record bytes => "record " ++ String.ofList (Utf8.lossy bytes)
  | .output index count =>
      "output " ++ Numeral.countText index ++ " " ++ Numeral.countText count ++ " bytes"

def lines (events : List Event) : List String :=
  ((events.filterMap mark?).foldr Mark.join []).map Mark.line

end SieveChain.Event
