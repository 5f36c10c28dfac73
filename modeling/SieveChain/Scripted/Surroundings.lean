import SieveChain.Move
import SieveChain.Scripted.Source
import SieveChain.Scripted.Sink

/-!
# Scripted surroundings

Surroundings that answer the moves of a party from a script: a source to read
from, a sink for the record, and for each launch the fault it fails with or the
channel and the child it gives. Everything that happens is put on a trace.

How a child ends may be left open. A party that waits for such a child pauses
until its end has been settled.
-/

namespace SieveChain

/-- What has happened: an operation and how it came out. Of a write, the bytes
that were accepted are kept. -/
inductive Event
  | read (reply : ReadReply)
  | recorded (accepted : List UInt8) (reply : WriteReply)
  | committed (result : Except IoError Unit)
  | launched (result : Except Fault Child)
  | sent (child : Child) (accepted : List UInt8) (reply : WriteReply)
  | shut (child : Child)
  | left
  | reaped (child : Child) (result : Except Fault Unit)
  | forsaken (child : Child)

namespace Scripted

/-- What a launch that succeeds gives: the sink behind the channel, the name of the
child, and how the child ends, if that is known. -/
structure Start where
  sink : Sink := {}
  label : String := "mock"
  ending : Option (Except Fault Unit) := some (.ok ())

/-- What a launch gives. -/
inductive Launch
  | refused (fault : Fault)
  | started (start : Start)

/-- The interruptions that the channel of a launch brings. -/
def Launch.patience : Launch → Nat
  | .refused _ => 0
  | .started start => start.sink.patience

/-- The surroundings of one party. Launches that are not scripted succeed; children
are numbered from `first`. -/
structure Surroundings where
  source : Source := {}
  record : Sink := {}
  launches : List Launch := []
  first : Nat := 0
  channels : Array Start := #[]
  trace : Array Event := #[]

namespace Surroundings

def see (w : Surroundings) (e : Event) : Surroundings := { w with trace := w.trace.push e }

def accepted (bytes : List UInt8) : WriteReply → List UInt8
  | .took n => bytes.take n
  | .failed _ => []

def channel (w : Surroundings) (child : Child) : Start :=
  (w.channels[child.index - w.first]?).getD {}

def changeChannel (w : Surroundings) (child : Child) (change : Start → Start) : Surroundings :=
  { w with channels := w.channels.modify (child.index - w.first) change }

def start (w : Surroundings) (start : Start) : Child × Surroundings :=
  let child : Child := { index := w.first + w.channels.size, label := start.label }
  (child, { w with channels := w.channels.push start }.see (.launched (.ok child)))

def launch (w : Surroundings) : Except Fault Child × Surroundings :=
  match w.launches with
  | [] => let (child, w) := w.start {}; (.ok child, w)
  | .started start :: launches =>
    let (child, w) := { w with launches }.start start
    (.ok child, w)
  | .refused fault :: launches => (.error fault, { w with launches }.see (.launched (.error fault)))

def send (w : Surroundings) (child : Child) (bytes : List UInt8) : WriteReply × Surroundings :=
  let answer := (w.channel child).sink.answer bytes
  let w := w.changeChannel child fun start => { start with sink := start.sink.after bytes answer }
  (answer.1, w.see (.sent child (accepted bytes answer.1) answer.1))

/-- Answers a move. There is no next state at rest, nor while the end of a child is not
known. -/
def answer {σ : Type} (w : Surroundings) : Move σ → Option σ × Surroundings
  | .read room next =>
    let (reply, source) := w.source.read room
    (some (next reply), { w with source }.see (.read reply))
  | .record bytes next =>
    let (reply, record) := w.record.write bytes
    (some (next reply), { w with record }.see (.recorded (accepted bytes reply) reply))
  | .commit next =>
    let (result, record) := w.record.flush
    (some (next result), { w with record }.see (.committed result))
  | .launch next =>
    let (result, w) := w.launch
    (some (next result), w)
  | .send child bytes next =>
    let (reply, w) := w.send child bytes
    (some (next reply), w)
  | .shut child next => (some next, w.see (.shut child))
  | .leave next => (some next, w.see .left)
  | .reap child next =>
    match (w.channel child).ending with
    | some result => (some (next result), w.see (.reaped child result))
    | none => (none, w)
  | .forsake child next => (some next, w.see (.forsaken child))
  | .proceed next => (some next, w)
  | .rest => (none, w)

def settle (w : Surroundings) (child : Child) (result : Except Fault Unit) : Surroundings :=
  w.changeChannel child fun start => { start with ending := some result }

def accepts (w : Surroundings) (child : Child) : List UInt8 :=
  (w.channel child).sink.accepted.toList

/-- Answers one move after the other until the party rests or pauses, at most so
many times. -/
def drive {σ : Type} [Party σ] : Nat → σ → Surroundings → σ × Surroundings
  | 0, party, w => (party, w)
  | n + 1, party, w =>
    match w.answer (Party.move party) with
    | (none, w) => (party, w)
    | (some party, w) => drive n party w

def patience (w : Surroundings) : Nat :=
  let ofChannels := w.channels.toList.foldr (fun c n => c.sink.patience + n) 0
  let ofLaunches := w.launches.foldr (fun l n => l.patience + n) 0
  w.record.patience + ofChannels + ofLaunches

/-- More moves than any call on a stage with so many bytes in hand can make: each of
them takes something from the source, the bytes in hand, or the interruptions
still to come, but for a bounded number. -/
def allowance (w : Surroundings) (inHand : Nat) : Nat :=
  4 * (w.source.remaining + inHand + w.patience) + 100

end Surroundings

end Scripted

end SieveChain
