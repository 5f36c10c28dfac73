/-!
# Input and output

What a single read, write or flush of a byte stream can answer. An empty read means
that the stream has ended; a write may take fewer bytes than it was offered. An error
has a kind, and possibly words of its own that are shown instead of the standard
description of the kind.
-/

namespace SieveChain

/-- The kinds of error that a byte stream can report. -/
inductive IoKind
  | brokenPipe
  | interrupted
  | unexpectedEof
  | writeZero
  | other
  | notFound
  | permissionDenied
  | connectionReset
  | wouldBlock
  | timedOut
  | invalidData
  | invalidInput
  | alreadyExists
  | storageFull
  /-- Any other kind, by its description. -/
  | further (description : String)
  deriving DecidableEq, Repr

def IoKind.description : IoKind → String
  | .brokenPipe => "broken pipe"
  | .interrupted => "operation interrupted"
  | .unexpectedEof => "unexpected end of file"
  | .writeZero => "write zero"
  | .other => "other error"
  | .notFound => "entity not found"
  | .permissionDenied => "permission denied"
  | .connectionReset => "connection reset"
  | .wouldBlock => "operation would block"
  | .timedOut => "timed out"
  | .invalidData => "invalid data"
  | .invalidInput => "invalid input parameter"
  | .alreadyExists => "entity already exists"
  | .storageFull => "no storage space"
  | .further description => description

/-- What an error says in words of its own, and the texts of what has caused it in turn, one
behind the other. -/
structure Words where
  text : String
  behind : List String := []
  deriving DecidableEq, Repr

instance : Coe String Words := ⟨fun text => { text }⟩

/-- An error of one operation on a byte stream. -/
structure IoError where
  kind : IoKind
  words : Option Words := none
  deriving DecidableEq, Repr

namespace IoError

/-- The error's own words if it has any, otherwise the description of its kind. -/
def message (e : IoError) : String :=
  match e.words with
  | none => e.kind.description
  | some words => words.text

/-- The texts of what is behind the error. There is nothing behind one without words. -/
def behind (e : IoError) : List String :=
  match e.words with
  | none => []
  | some words => words.behind

def isInterrupted (e : IoError) : Bool := e.kind == .interrupted

end IoError

/-- The answer to one read. -/
inductive ReadReply
  | got (bytes : List UInt8)
  | failed (error : IoError)
  deriving DecidableEq, Repr

/-- The answer to one write. -/
inductive WriteReply
  | took (count : Nat)
  | failed (error : IoError)
  deriving DecidableEq, Repr

end SieveChain
