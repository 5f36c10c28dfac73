import SieveChain.Record.Emit

/-!
# Shared records

Records kept in memory. A handle is a reference to a buffer; a clone of a handle
refers to the same buffer, a new handle to one of its own.
-/

namespace SieveChain.Record

/-- Buffers, and for each handle the buffer it refers to. -/
structure Shelf where
  buffers : Array (Array UInt8) := #[#[]]
  handles : Array Nat := #[0]

namespace Shelf

def bytes (s : Shelf) (handle : Nat) : Array UInt8 :=
  (s.handles[handle]?.bind (s.buffers[·]?)).getD #[]

def contents (s : Shelf) (handle : Nat) : List Char := Utf8.lossy (s.bytes handle).toList

/-- The values recorded behind a handle, in the order they were written. -/
def primes (s : Shelf) (handle : Nat) : List Int32 := parse (s.contents handle)

/-- Appends bytes behind a handle; a record in memory takes them all. -/
def write (s : Shelf) (handle : Nat) (bytes : List UInt8) : Shelf :=
  match s.handles[handle]? with
  | none => s
  | some i => { s with buffers := s.buffers.modify i (· ++ bytes) }

def emit (s : Shelf) (handle : Nat) (v : Int32) : Except IoError Unit × Shelf :=
  match Record.emit v { accepted := s.bytes handle } with
  | (r, sink) =>
    match s.handles[handle]? with
    | none => (r, s)
    | some i => (r, { s with buffers := s.buffers.modify i fun _ => sink.accepted })

def clone (s : Shelf) (handle : Nat) : Nat × Shelf :=
  (s.handles.size, { s with handles := s.handles.push (s.handles[handle]?.getD 0) })

def fresh (s : Shelf) : Nat × Shelf :=
  (s.handles.size,
    { buffers := s.buffers.push #[], handles := s.handles.push s.buffers.size })

end Shelf

end SieveChain.Record
