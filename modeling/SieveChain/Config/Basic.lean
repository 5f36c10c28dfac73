import SieveChain.Sieve
import SieveChain.Fault.Basic
import SieveChain.Fault.Os
import SieveChain.Text.Property

/-!
# Configurations

A configuration says which candidates are sieved and where stages run. Zero and one
are no candidates, so the lower bound is at least two; an empty range is allowed. The
upper bound is also the ceiling of every stage.
-/

namespace SieveChain

/-- Where stages run: each in a process of its own, or each in a thread. -/
inductive Backend
  | process
  | thread
  deriving DecidableEq, Repr

namespace Backend

def name : Backend → String
  | .process => "process"
  | .thread => "thread"

def ofName? (name : String) : Option Backend :=
  if name = "process" then some .process
  else if name = "thread" then some .thread
  else none

end Backend

/-- The bounds of the candidates, the upper one excluded, and the backend. -/
structure Config where
  low : Int32 := 2
  high : Int32 := 35
  backend : Backend := .process
  deriving DecidableEq, Repr

namespace Config

/-- Where the text of a configuration does not fit a configuration. -/
inductive Mismatch
  /-- There is something else where a word should be. -/
  | notWord (found : List Char)
  /-- A whole number is no word. -/
  | outOfRange (n : Int)
  /-- A backend is not known. -/
  | unknownVariant (name : List Char)
  /-- A backend is neither named nor given as a table. -/
  | notVariant
  /-- A table for a backend is empty. -/
  | noVariant
  /-- A table for a backend names more than one. -/
  | manyVariants
  /-- A backend is given with contents. -/
  | tableNotEmpty
  /-- A backend is given with a list of contents. -/
  | listNotEmpty
  /-- A backend is given with contents that are no table. -/
  | notTable (found : String)
  deriving DecidableEq, Repr

namespace Mismatch

def message : Mismatch → List Char
  | .notWord found => "invalid type: ".toList ++ found ++ ", expected i32".toList
  | .outOfRange n =>
      "invalid value: integer `".toList ++ Numeral.ofInt n ++ "`, expected i32".toList
  | .unknownVariant name =>
      "unknown variant `".toList ++ name ++ "`, expected `process` or `thread`".toList
  | .notVariant => "wanted string or table".toList
  | .noVariant => "wanted exactly 1 element, found 0 elements".toList
  | .manyVariants => "wanted exactly 1 element, more than 1 element".toList
  | .tableNotEmpty => "expected empty table".toList
  | .listNotEmpty => "expected empty array".toList
  | .notTable found => "expected table, found ".toList ++ found.toList

end Mismatch

/-- Why there is no valid configuration. -/
inductive Flaw
  /-- The lower bound is below two. -/
  | lowTooSmall (low : Int32)
  /-- A backend is not known by its name. -/
  | unknownBackend (name : String)
  /-- A file cannot be read. -/
  | unreadable (path : List Char) (reason : Unreadable)
  /-- A text is no document. -/
  | malformed
  /-- A document is no configuration. -/
  | mismatched (m : Mismatch)
  deriving DecidableEq, Repr

namespace Flaw

def message : Flaw → String
  | .lowTooSmall low => "low bound must be at least 2, got " ++ Numeral.text low
  | .unknownBackend name => "Unknown backend '" ++ name ++ "'"
  | .unreadable path reason =>
      "Failed to read config file " ++ String.ofList (Text.quoted path) ++ ": " ++ reason.message
  | .malformed => "Failed to parse config: <syntax>"
  | .mismatched m => "Failed to parse config: " ++ String.ofList m.message

def fault (f : Flaw) : Fault := .config f.message

end Flaw

def leastLow : Int32 := 2

def validate (c : Config) : Except Flaw Unit :=
  if c.low < leastLow then .error (.lowTooSmall c.low) else .ok ()

def candidates (c : Config) : Candidates :=
  { start := c.low, stop := if c.high < c.low then c.low else c.high }

def ceiling (c : Config) : Int32 := c.high

def render (c : Config) : List Char :=
  "low = ".toList ++ Numeral.ofInt c.low.toInt ++ "\nhigh = ".toList
    ++ Numeral.ofInt c.high.toInt ++ "\nbackend = \"".toList ++ c.backend.name.toList
    ++ "\"\n".toList

end Config

/-- The backend of a name in letters of either case. -/
def Backend.parse (text : String) : Except Config.Flaw Backend :=
  let name := text.map Char.toLower
  match ofName? name with
  | some b => .ok b
  | none => .error (.unknownBackend name)

end SieveChain
