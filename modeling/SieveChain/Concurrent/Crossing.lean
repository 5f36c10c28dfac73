import SieveChain.Channel.Intake
import SieveChain.Channel.Pipe
import SieveChain.Channel.Send

/-!
# Values that cross a pipe

One party sends values into a pipe and closes it, another receives from it for ever. Each moves
by one operation at a time, and they move in any order. A party that has to wait, or has nothing
left to do, lets its turn pass.
-/

namespace SieveChain

/-- What a sender writes to, and gives up when it is done. -/
class Writer (ω : Type) where
  write : ω → List UInt8 → WriteReply × ω
  release : ω → ω

instance : Writer Pipe := ⟨Pipe.write, fun p => { p with writer := false }⟩

instance : Writer Scripted.Sink := ⟨Scripted.Sink.write, id⟩

/-- Where a sender stands. -/
inductive Sender
  /-- Between two calls, with values left to send. -/
  | sending (output : Outbox) (left : List Int32)
  /-- Sending a value for which there is no room yet. -/
  | makingRoom (output : Outbox) (v : Int32) (left : List Int32)
  /-- Closing, with bytes left to write. -/
  | closing (output : Outbox)
  /-- Dropped after an error, with bytes left to write. -/
  | emptying (output : Outbox) (error : IoError)
  /-- About to give up what it writes to. -/
  | releasing (result : Except IoError Nat)
  | closed (result : Except IoError Nat)

namespace Sender

def start (vs : List Int32) : Sender := .sending .empty vs

/-- A call has failed, so the channel is dropped. -/
def failed (o : Outbox) (e : IoError) : Sender :=
  if o.isEmpty then .releasing (.error e) else .emptying o e

/-- What follows when room for a value has been made, or could not be made. The value is sent
in the former case. -/
def madeRoom (v : Int32) (left : List Int32) (o : Outbox) :
    Except IoError Unit → Sender × Option Int32
  | .ok () => (.sending (o.put v) left, some v)
  | .error e => (failed o e, none)

/-- What follows when all has been written before closing, or could not be written. -/
def wroteAll (o : Outbox) : Except IoError Unit → Sender × Option Int32
  | .ok () => (.releasing (.ok o.taken), none)
  | .error e => (failed o e, none)

variable {ω : Type} [Writer ω]

/-- One write of all that is held back, which is made again until it has come to an end. -/
def writeOut (w : ω) (o : Outbox) (again : Outbox → Sender)
    (next : Outbox → Except IoError Unit → Sender × Option Int32) :
    Sender × Option Int32 × ω :=
  let (reply, w) := Writer.write w o.bytes
  match o.absorb reply with
  | (o, none) => (again o, none, w)
  | (o, some r) => ((next o r).1, (next o r).2, w)

/-- One operation of a sender, and the value that has been sent with it if there is one. -/
def step (w : ω) : Sender → Option (Sender × Option Int32 × ω)
  | .sending o (v :: left) =>
    if o.hasRoom then some (.sending (o.put v) left, some v, w)
    else some (.makingRoom o v left, none, w)
  | .sending o [] =>
    some (if o.isEmpty then .releasing (.ok o.taken) else .closing o, none, w)
  | .makingRoom o v left => some (writeOut w o (.makingRoom · v left) (madeRoom v left))
  | .closing o => some (writeOut w o .closing wroteAll)
  | .emptying o e => some (writeOut w o (.emptying · e) fun _ _ => (.releasing (.error e), none))
  | .releasing result => some (.closed result, none, Writer.release w)
  | .closed _ => none

end Sender

/-- A sender and a receiver with a pipe between them, the values whose sending has succeeded,
and what the receiver has been given so far. -/
structure Crossing where
  pipe : Pipe := {}
  sender : Sender
  sent : List Int32 := []
  receiver : Intake := {}
  receipts : List Receipt := []

namespace Crossing

inductive Side
  | sender
  | receiver
  deriving DecidableEq, Repr

def start (vs : List Int32) : Crossing := { sender := .start vs }

/-- One operation of one side; `none` if it has to wait or has nothing left to do. -/
def perform (c : Crossing) : Side → Option Crossing
  | .sender =>
    (c.sender.step c.pipe).map fun (sender, v, pipe) =>
      { c with sender, pipe, sent := c.sent ++ v.toList }
  | .receiver =>
    match c.pipe.read c.receiver.room with
    | (none, _) => none
    | (some bytes, pipe) =>
      let (receiver, receipt) := c.receiver.absorb (.got bytes)
      some { c with pipe, receiver, receipts := c.receipts ++ receipt.toList }

/-- The turn of one side, which passes if it can do nothing. -/
def turn (c : Crossing) (side : Side) : Crossing := (c.perform side).getD c

/-- What comes of turns in any order. -/
def follow (c : Crossing) (schedule : List Side) : Crossing := schedule.foldl turn c

end Crossing

end SieveChain
