import SieveChain.Fault.Io

/-!
# Byte pipes

A pipe in memory hands on chunks of bytes in the order they were written. A read
takes bytes from one chunk only and finds the stream ended exactly when the
writing end is gone and nothing is pending; while there is a writer, a read that
finds nothing waits. Writing to a pipe whose reading end is gone fails. An empty
write never does anything.
-/

namespace SieveChain

/-- A pipe: what is left of the chunk being read, the chunks behind it, and which of
its ends are still held. -/
structure Pipe where
  current : List UInt8 := []
  queue : List (List UInt8) := []
  writer : Bool := true
  reader : Bool := true
  deriving DecidableEq, Repr

namespace Pipe

def readerGone : IoError := ⟨.brokenPipe, some "pipe reader released"⟩

def pending (p : Pipe) : List UInt8 := p.current ++ p.queue.flatten

def write (p : Pipe) (bytes : List UInt8) : WriteReply × Pipe :=
  if bytes.isEmpty then (.took 0, p)
  else if p.reader then (.took bytes.length, { p with queue := p.queue ++ [bytes] })
  else (.failed readerGone, p)

/-- One read by the holder of the reading end; `none` if it has to wait. -/
def read (p : Pipe) (room : Nat) : Option (List UInt8) × Pipe :=
  if room = 0 then (some [], p)
  else
    match p.current, p.queue with
    | [], [] => (if p.writer then none else some [], p)
    | [], chunk :: queue =>
      (some (chunk.take room), { p with current := chunk.drop room, queue })
    | current, _ => (some (current.take room), { p with current := current.drop room })

end Pipe

/-- Pipes under one count of the ends that are still held. -/
structure Pipes where
  pipes : Array Pipe := #[]
  openEnds : Nat := 0

namespace Pipes

def create (ps : Pipes) : Nat × Pipes :=
  (ps.pipes.size, { pipes := ps.pipes.push {}, openEnds := ps.openEnds + 2 })

def get (ps : Pipes) (i : Nat) : Pipe := (ps.pipes[i]?).getD { writer := false, reader := false }

def set (ps : Pipes) (i : Nat) (p : Pipe) : Pipes := { ps with pipes := ps.pipes.set! i p }

/-- Writes to a pipe; `none` if its writing end is gone. -/
def write (ps : Pipes) (i : Nat) (bytes : List UInt8) : Option WriteReply × Pipes :=
  let p := ps.get i
  if p.writer then
    let (reply, p) := p.write bytes
    (some reply, ps.set i p)
  else (none, ps)

/-- How an attempt to read from a pipe comes out. -/
inductive Read
  | closed
  | waits
  | got (bytes : List UInt8)

def read (ps : Pipes) (i : Nat) (room : Nat) : Read × Pipes :=
  let p := ps.get i
  if p.reader then
    match p.read room with
    | (none, _) => (.waits, ps)
    | (some bytes, p) => (.got bytes, ps.set i p)
  else (.closed, ps)

/-- Gives up the writing end of a pipe, and says whether it was held. -/
def dropWriter (ps : Pipes) (i : Nat) : Bool × Pipes :=
  let p := ps.get i
  if p.writer then
    (true, { ps.set i { p with writer := false } with openEnds := ps.openEnds - 1 })
  else (false, ps)

/-- Gives up the reading end of a pipe, and says whether it was held. -/
def dropReader (ps : Pipes) (i : Nat) : Bool × Pipes :=
  let p := ps.get i
  if p.reader then
    (true, { ps.set i { p with reader := false } with openEnds := ps.openEnds - 1 })
  else (false, ps)

end Pipes

end SieveChain
