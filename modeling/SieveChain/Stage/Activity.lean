import SieveChain.Move
import SieveChain.Notice

/-!
# A stage at work

A call on a stage is a *task* that moves on one operation at a time. There are
three calls: taking the step of the current phase, giving the stage up after a
fault, and letting it go. Whatever the call, the output is given up before the
input, the input before the child is reaped, and an outbox is emptied into its
channel, or tried once more, before the channel is given up.

A step that fails leaves the stage in its phase, with whatever it still holds.
-/

namespace SieveChain

namespace Stage

/-- What a stage is and has counted, apart from its state, and what it has noted, the last
notice first. -/
structure Ledger where
  ceiling : Option Int32 := none
  forwarded : Nat := 0
  discarded : Nat := 0
  noted : List Notice := []
  deriving Repr

namespace Ledger

def note (l : Ledger) (n : Notice) : Ledger := { l with noted := n :: l.noted }

def notices (l : Ledger) : List Notice := l.noted.reverse

/-- Notes the bytes of an incomplete value at the end of a stream, if there are any. -/
def noteTorn (l : Ledger) (torn : Nat) : Ledger := if torn = 0 then l else l.note (.torn torn)

end Ledger

/-- What follows once the output of a link has been given up. -/
inductive Shutting
  /-- An earlier output has made way for that of a new child. -/
  | replaced (input : Intake) (old : Child) (prime : Int32) (link : Link)
  /-- All values have been handed on. -/
  | drained (input : Intake) (prime : Int32) (child : Child) (forwarded : Nat)
  /-- Handing on the last values has failed. -/
  | severed (input : Intake) (prime : Int32) (child : Child) (fault : Fault)
  /-- The stage is given up because of a fault. -/
  | givenUp (input : Bool) (prime : Option Int32) (child : Child) (fault : Fault)
  /-- The stage is let go. -/
  | letGo (prime : Option Int32) (child : Child)
  deriving Repr

namespace Shutting

def child : Shutting → Child
  | .replaced _ old _ _ => old
  | .drained _ _ child _ => child
  | .severed _ _ child _ => child
  | .givenUp _ _ child _ => child
  | .letGo _ child => child

end Shutting

/-- What follows once the input has been given up. -/
inductive Leaving
  /-- There was nothing to sieve. -/
  | idle (earlier : Option (Int32 × Link))
  /-- The child can be reaped. -/
  | drained (prime : Int32) (child : Child)
  /-- The stage is given up because of a fault. -/
  | givenUp (prime : Option Int32) (child : Option Child) (fault : Fault)
  /-- The stage is let go, with what it has left of a link. -/
  | letGo (prime : Option Int32) (left : Option Link)
  /-- The stage is let go after its output. -/
  | letGoSevered (prime : Int32) (child : Child)
  deriving Repr

/-- What follows once the child has been reaped. -/
inductive Reaping
  /-- The work is done. -/
  | drained (prime : Int32)
  /-- The stage is given up because of a fault. -/
  | givenUp (prime : Option Int32) (fault : Fault)
  deriving Repr

/-- Where a call stands: each task but the last waits for one operation. -/
inductive Task
  /-- Receiving the first value. -/
  | first (input : Intake) (earlier : Option (Int32 × Link))
  /-- Skipping the rest of a stream whose first value is not accepted. -/
  | skip (input : Intake) (earlier : Option (Int32 × Link)) (skipped : Nat)
  /-- Launching the child of a stage that owns a value. -/
  | launch (input : Intake) (earlier : Option (Int32 × Link)) (prime : Int32)
  /-- Writing the record line. -/
  | record (input : Intake) (prime : Int32) (link : Link) (entry : Record.Entry)
  /-- Receiving the next value to filter. -/
  | next (input : Intake) (prime : Int32) (link : Link)
  /-- Making room in the outbox for a value to forward. -/
  | forward (input : Intake) (prime : Int32) (link : Link) (v : Int32)
  /-- Handing on the last values. -/
  | close (input : Intake) (prime : Int32) (link : Link)
  /-- Trying once more to hand on what an output holds that is to be given up. -/
  | empty (output : Outbox) (after : Shutting)
  /-- Giving up an output. -/
  | shut (after : Shutting)
  /-- Giving up a child that a new one has replaced. -/
  | replace (input : Intake) (old : Child) (prime : Int32) (link : Link)
  /-- Giving up the input. -/
  | leave (after : Leaving)
  /-- Waiting for the child to finish. -/
  | reap (child : Child) (after : Reaping)
  /-- Giving up the child of a stage that is let go. -/
  | forsake (prime : Option Int32) (child : Child)
  /-- The call has come to its end. -/
  | ended (state : State) (result : Except Fault Phase)

/-- A call under way: the phase it began in, the ledger, and the task at hand. -/
structure Activity where
  phase : Phase
  ledger : Ledger
  task : Task

namespace Activity

def go (a : Activity) (task : Task) : Activity := { a with task }

def note (a : Activity) (n : Notice) : Activity := { a with ledger := a.ledger.note n }

/-- The call succeeds: the stage moves to a state. -/
def settle (a : Activity) (state : State) : Activity :=
  let a := if state.phase = a.phase then a else a.note (.moved state.prime? a.phase state.phase)
  a.go (.ended state (.ok state.phase))

/-- The call fails, and leaves the stage in a state. -/
def fail (a : Activity) (state : State) (fault : Fault) : Activity :=
  a.go (.ended state (.error fault))

/-- The call fails for an error of its input, its record or its channel. -/
def failIo (a : Activity) (state : State) (context : String) (e : IoError) : Activity :=
  a.fail state (.within context (.io e))

/-- Gives up an output, after a last attempt to hand on what it holds. -/
def giveUpOutput (a : Activity) (output : Outbox) (after : Shutting) : Activity :=
  if output.isEmpty then a.go (.shut after) else a.go (.empty output after)

/-- The first value decides whether the stage has work to do. -/
def gotFirst (a : Activity) (input : Intake) (earlier : Option (Int32 × Link)) :
    Receipt → Activity
  | .value v =>
    if accepts a.ledger.ceiling v then a.go (.launch input earlier v)
    else (a.note (.refused v)).go (.skip input earlier 0)
  | .ended torn => { a with ledger := a.ledger.noteTorn torn, task := .leave (.idle earlier) }
  | .failed e => a.failIo (.awaitFirst input earlier) "Reading first value" e

/-- Values behind a first value that was not accepted are counted. -/
def gotSkipped (a : Activity) (input : Intake) (earlier : Option (Int32 × Link))
    (skipped : Nat) : Receipt → Activity
  | .value _ => a.go (.skip input earlier (skipped + 1))
  | .ended torn =>
    { a with ledger := { a.ledger.noteTorn torn with discarded := 1 + skipped },
             task := .leave (.idle earlier) }
  | .failed e => a.failIo (.awaitFirst input earlier) "Draining input" e

/-- With a child, the stage owns its value; the line is recorded once the output of
an earlier child has been given up. -/
def launched (a : Activity) (input : Intake) (earlier : Option (Int32 × Link))
    (prime : Int32) : Except Fault Child → Activity
  | .error f => a.fail (.awaitFirst input earlier) (.within ("Stage " ++ Numeral.text prime) f)
  | .ok child =>
    match earlier with
    | none => a.go (.record input prime ⟨.empty, child⟩ (.ofValue prime))
    | some (_, old) => a.giveUpOutput old.output (.replaced input old.child prime ⟨.empty, child⟩)

/-- Recording has failed: the child is there, the line is not. -/
def unrecorded (a : Activity) (input : Intake) (prime : Int32) (link : Link)
    (e : IoError) : Activity :=
  a.failIo (.awaitFirst input (some (prime, link))) "Writing record" e

def wrote (a : Activity) (input : Intake) (prime : Int32) (link : Link)
    (entry : Record.Entry) (reply : WriteReply) : Activity :=
  match entry.absorb reply with
  | .ok entry => a.go (.record input prime link entry)
  | .error e => a.unrecorded input prime link e

/-- A line that has been flushed is in the record for good: filtering may begin. -/
def committed (a : Activity) (input : Intake) (prime : Int32) (link : Link) :
    Except IoError Unit → Activity
  | .ok () => a.settle (.filtering input prime link)
  | .error e => a.unrecorded input prime link e

/-- Takes a value for the child, and goes on receiving. -/
def pass (a : Activity) (input : Intake) (prime : Int32) (link : Link) (v : Int32) : Activity :=
  a.go (.next input prime { link with output := link.output.put v })

/-- Multiples are dropped; all else is forwarded. -/
def gotNext (a : Activity) (input : Intake) (prime : Int32) (link : Link) :
    Receipt → Activity
  | .value v =>
    if passes prime v then
      if link.output.hasRoom then a.pass input prime link v
      else a.go (.forward input prime link v)
    else
      let ledger := a.ledger.note (.dropped prime v)
      { a with ledger := { ledger with discarded := ledger.discarded + 1 },
               task := .next input prime link }
  | .ended torn =>
    settle { a with ledger := a.ledger.noteTorn torn } (.draining input prime link)
  | .failed e => a.failIo (.filtering input prime link) "Reading input" e

def madeRoom (a : Activity) (input : Intake) (prime : Int32) (link : Link) (v : Int32)
    (reply : WriteReply) : Activity :=
  match link.output.absorb reply with
  | (output, none) => a.go (.forward input prime { link with output } v)
  | (output, some (.ok ())) => a.pass input prime { link with output } v
  | (output, some (.error e)) =>
    a.failIo (.filtering input prime { link with output }) ("Forwarding " ++ Numeral.text v) e

def closed (a : Activity) (input : Intake) (prime : Int32) (link : Link)
    (reply : WriteReply) : Activity :=
  match link.output.absorb reply with
  | (output, none) => a.go (.close input prime { link with output })
  | (output, some (.ok ())) => a.go (.shut (.drained input prime link.child output.taken))
  | (output, some (.error e)) =>
    a.giveUpOutput output
      (.severed input prime link.child (.within "Closing output" (.io e)))

/-- Goes on emptying an output that is to be given up; how it goes does not matter. -/
def emptied (a : Activity) (output : Outbox) (after : Shutting) (reply : WriteReply) :
    Activity :=
  match output.absorb reply with
  | (output, none) => a.go (.empty output after)
  | (_, some _) => a.go (.shut after)

def outputGone (a : Activity) : Shutting → Activity
  | .replaced input old prime link => a.go (.replace input old prime link)
  | .drained _ prime child forwarded =>
    { a with ledger := { a.ledger with forwarded }, task := .leave (.drained prime child) }
  | .severed input prime child fault => a.fail (.severed input prime child) fault
  | .givenUp true prime child fault => a.go (.leave (.givenUp prime (some child) fault))
  | .givenUp false prime child fault => a.go (.reap child (.givenUp prime fault))
  | .letGo prime child => a.go (.forsake prime child)

def inputGone (a : Activity) : Leaving → Activity
  | .idle earlier => a.settle (.done (earlier.map (·.1)) (earlier.map (·.2)))
  | .drained prime child => a.go (.reap child (.drained prime))
  | .givenUp prime (some child) fault => a.go (.reap child (.givenUp prime fault))
  | .givenUp prime none fault => a.fail (.done prime none) fault
  | .letGo prime (some link) => a.giveUpOutput link.output (.letGo prime link.child)
  | .letGo prime none => a.go (.ended (.done prime none) (.ok .done))
  | .letGoSevered prime child => a.go (.forsake prime child)

/-- The child has been reaped. When the stage is given up because of a broken pipe,
that only says that the child is gone, and the child's own fault is the one to
report; next to any other fault it is noted. -/
def reaped (a : Activity) (child : Child) : Reaping → Except Fault Unit → Activity
  | .drained prime, .ok () => a.settle (.childReaped prime)
  | .drained prime, .error f => a.fail (.spent prime) f
  | .givenUp prime fault, .ok () => a.fail (.done prime none) fault
  | .givenUp prime fault, .error f =>
    if fault.isBrokenPipe then a.fail (.done prime none) f
    else (a.note (.childFailedToo child.label f)).fail (.done prime none) fault

def move (a : Activity) : Move Activity :=
  match a.task with
  | .first input earlier =>
    .read input.room fun reply =>
      match input.absorb reply with
      | (input, none) => a.go (.first input earlier)
      | (input, some receipt) => a.gotFirst input earlier receipt
  | .skip input earlier skipped =>
    .read input.room fun reply =>
      match input.absorb reply with
      | (input, none) => a.go (.skip input earlier skipped)
      | (input, some receipt) => a.gotSkipped input earlier skipped receipt
  | .launch input earlier prime => .launch (a.launched input earlier prime)
  | .record input prime link entry =>
    match entry.pieces with
    | [] => .commit (a.committed input prime link)
    | piece :: _ => .record piece (a.wrote input prime link entry)
  | .next input prime link =>
    .read input.room fun reply =>
      match input.absorb reply with
      | (input, none) => a.go (.next input prime link)
      | (input, some receipt) => a.gotNext input prime link receipt
  | .forward input prime link v =>
    .send link.child link.output.bytes (a.madeRoom input prime link v)
  | .close input prime link => .send link.child link.output.bytes (a.closed input prime link)
  | .empty output after => .send after.child output.bytes (a.emptied output after)
  | .shut after => .shut after.child (a.outputGone after)
  | .replace input old prime link =>
    .forsake old (a.go (.record input prime link (.ofValue prime)))
  | .leave after => .leave (a.inputGone after)
  | .reap child after => .reap child (a.reaped child after)
  | .forsake prime child => .forsake child (a.go (.ended (.done prime none) (.ok .done)))
  | .ended _ _ => .rest

instance : Party Activity := ⟨move⟩

end Activity

end Stage

end SieveChain
