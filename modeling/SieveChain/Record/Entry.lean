import SieveChain.Record.Line
import SieveChain.Fault.Io

/-!
# Writing a record line

A line is written in pieces, each offered again until all of it has been taken,
and then flushed once. An interrupted write is repeated; any other failure, and
a write that takes nothing, ends the attempt where it stands.
-/

namespace SieveChain.Record

/-- What is still to be written of a line, piece by piece. No piece is empty. -/
structure Entry where
  pieces : List (List UInt8)
  deriving Repr

namespace Entry

/-- A line as it is handed to the writer: the word, the blank, the sign if the
value is negative, the digits and the line end. -/
def ofValue (v : Int32) : Entry :=
  let number : List (List Char) :=
    match Numeral.ofInt v.toInt with
    | '-' :: digits => [['-'], digits]
    | digits => [digits]
  ⟨([opening, [' ']] ++ number ++ [['\n']]).map Utf8.encode⟩

def bytes (e : Entry) : List UInt8 := e.pieces.flatten

/-- A line that cannot be written because its writer takes no bytes. -/
def stuck : IoError := ⟨.writeZero, some "failed to write whole buffer"⟩

/-- How one write moves a line on: what remains, or why writing ends here. -/
def absorb (e : Entry) : WriteReply → Except IoError Entry
  | .failed error => if error.isInterrupted then .ok e else .error error
  | .took 0 => .error stuck
  | .took (n + 1) =>
    match e.pieces with
    | [] => .ok e
    | piece :: rest =>
      if piece.length ≤ n + 1 then .ok ⟨rest⟩ else .ok ⟨piece.drop (n + 1) :: rest⟩

end Entry

end SieveChain.Record
