import SieveChain.Sieve
import SieveChain.Move
import SieveChain.Notice

/-!
# The feeder

The feeder launches the first stage, sends it every candidate of a range in
ascending order, closes the channel, and reaps the stage. The first stage ends
only after all below it have, so when a feeder is done the whole chain is. The
channel is given up before the stage is reaped, after a failure too.
-/

namespace SieveChain

namespace Feeder

/-- Where a feeder stands. Values still to be fed are given by their number and the
next of them. -/
inductive Task
  | launch
  | feed (child : Child) (output : Outbox) (left : Nat) (next : Int32)
  | makeRoom (child : Child) (output : Outbox) (left : Nat) (next : Int32)
  | close (child : Child) (output : Outbox)
  | empty (child : Child) (output : Outbox) (fault : Fault)
  | shut (child : Child) (fed : Except Fault Nat)
  | reap (child : Child) (fed : Except Fault Nat)
  | finished (result : Except Fault Nat)

/-- A feeder at work on a range. -/
structure Run where
  candidates : Candidates
  notices : Array Notice := #[]
  task : Task := .launch

namespace Run

def go (r : Run) (task : Task) : Run := { r with task }

def note (r : Run) (n : Notice) : Run := { r with notices := r.notices.push n }

/-- Puts values into an outbox as long as there are any and there is room. -/
def fill : Nat → Int32 → Outbox → Nat × Int32 × Outbox
  | 0, v, o => (0, v, o)
  | n + 1, v, o => if o.hasRoom then fill n (v + 1) (o.put v) else (n + 1, v, o)

/-- The first stage is there, or could not be launched. -/
def launched (r : Run) : Except Fault Child → Run
  | .error f => r.go (.finished (.error (.within "Spawning first stage" f)))
  | .ok child =>
    (r.note (.feeding r.candidates.start r.candidates.stop child.label)).go
      (.feed child .empty r.candidates.count r.candidates.start)

def feed (r : Run) (child : Child) (output : Outbox) (left : Nat) (next : Int32) : Run :=
  match fill left next output with
  | (0, _, output) =>
    if output.isEmpty then r.go (.shut child (.ok output.taken)) else r.go (.close child output)
  | (left + 1, next, output) => r.go (.makeRoom child output (left + 1) next)

/-- The channel is to be given up after a fault, once what it holds has been tried
again. -/
def failed (r : Run) (child : Child) (output : Outbox) (fault : Fault) : Run :=
  if output.isEmpty then r.go (.shut child (.error fault)) else r.go (.empty child output fault)

def madeRoom (r : Run) (child : Child) (output : Outbox) (left : Nat) (next : Int32)
    (reply : WriteReply) : Run :=
  match output.absorb reply with
  | (output, none) => r.go (.makeRoom child output left next)
  | (output, some (.ok ())) => r.go (.feed child output left next)
  | (output, some (.error e)) =>
    r.failed child output (.within ("Feeding " ++ Numeral.text next) (.io e))

def closed (r : Run) (child : Child) (output : Outbox) (reply : WriteReply) : Run :=
  match output.absorb reply with
  | (output, none) => r.go (.close child output)
  | (output, some (.ok ())) => r.go (.shut child (.ok output.taken))
  | (output, some (.error e)) => r.failed child output (.within "Closing feed channel" (.io e))

/-- Goes on emptying the outbox; how it goes does not matter. -/
def emptied (r : Run) (child : Child) (output : Outbox) (fault : Fault)
    (reply : WriteReply) : Run :=
  match output.absorb reply with
  | (output, none) => r.go (.empty child output fault)
  | (_, some _) => r.go (.shut child (.error fault))

/-- The first stage has been reaped. A broken pipe only says that the stage is gone,
and the stage's own fault is the one to report; next to any other fault it is noted. -/
def reaped (r : Run) (child : Child) : Except Fault Nat → Except Fault Unit → Run
  | .ok n, .ok () => r.go (.finished (.ok n))
  | .ok _, .error f => r.go (.finished (.error (.within ("First stage " ++ child.label) f)))
  | .error fault, .ok () => r.go (.finished (.error fault))
  | .error fault, .error f =>
    if fault.isBrokenPipe then r.go (.finished (.error f))
    else (r.note (.firstStageFailedToo child.label f)).go (.finished (.error fault))

def move (r : Run) : Move Run :=
  match r.task with
  | .launch => .launch r.launched
  | .feed child output left next => .proceed (r.feed child output left next)
  | .makeRoom child output left next =>
    .send child output.bytes (r.madeRoom child output left next)
  | .close child output => .send child output.bytes (r.closed child output)
  | .empty child output fault => .send child output.bytes (r.emptied child output fault)
  | .shut child fed => .shut child (r.go (.reap child fed))
  | .reap child fed => .reap child (r.reaped child fed)
  | .finished _ => .rest

instance : Party Run := ⟨move⟩

def outcome? (r : Run) : Option (Except Fault Nat) :=
  match r.task with
  | .finished result => some result
  | _ => none

end Run

def run (candidates : Candidates) : Run := { candidates }

end Feeder

end SieveChain
