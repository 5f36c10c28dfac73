import SieveChain.Stage.Calls

/-!
# Stages by their slots

What a stage holds, it keeps in slots that are filled and emptied one at a time: its input, the
value it owns, its output and its child. In no phase is any of them sure to be filled. So each call
looks into the slots it needs, and a step that finds one of them empty fails with a fault of its
own; giving a stage up, or letting it go, passes over an empty slot.

Between two calls the slots hold what a state of a stage holds, whatever calls have been made, and
every call goes on as it does on that state.
-/

namespace SieveChain

namespace Stage

/-- A stage between two calls, by its slots. An output tells by a child whose channel it feeds. -/
structure Slots where
  phase : Phase := .awaitFirst
  input : Option Intake := some {}
  prime : Option Int32 := none
  output : Option Link := none
  child : Option Child := none
  ledger : Ledger := {}

namespace Slots

/-- A stage that has not begun, under a ceiling if there is one. -/
def new (ceiling : Option Int32) : Slots := { ledger := { ceiling } }

def report (s : Slots) : Report :=
  { prime := s.prime, forwarded := s.ledger.forwarded, discarded := s.ledger.discarded }

/-- A stage that awaits its first value without an input cannot go on. -/
def noInput : Fault := .channel "stage input already released"

/-- A stage that filters without a value, an input or an output cannot go on. -/
def unready : Fault := .channel "filtering without a prime or channel"

/-- A stage that has drained its input without having a child cannot go on. -/
def noChild : Fault := .channel "no child to reap"

/-- What follows once an output has been given up. -/
inductive Shutting
  /-- An earlier output has made way, and so will an earlier child. -/
  | replaced (old : Option Child) (prime : Int32)
  /-- All values have been handed on. -/
  | drained (forwarded : Nat)
  /-- Handing on the last values has failed. -/
  | severed (fault : Fault)
  /-- The stage is given up because of a fault. -/
  | givenUp (fault : Fault)
  /-- The stage is let go. -/
  | letGo

/-- What follows once the input has been given up. -/
inductive Leaving
  /-- There was nothing to sieve. -/
  | idle
  /-- The child can be reaped. -/
  | drained
  /-- The stage is given up because of a fault. -/
  | givenUp (fault : Fault)
  /-- The stage is let go. -/
  | letGo

/-- What follows once the child has been reaped. -/
inductive Reaping
  /-- The work is done. -/
  | drained
  /-- The stage is given up because of a fault. -/
  | givenUp (fault : Fault)

/-- Where a call stands, and what it has at hand: what it has found in slots that stay filled, or
taken out of slots that are empty now. -/
inductive Task
  /-- Receiving the first value. -/
  | first (input : Intake)
  /-- Skipping the rest of a stream whose first value is not accepted. -/
  | skip (input : Intake) (skipped : Nat)
  /-- Launching the child of a stage that is to own a value. -/
  | launch (prime : Int32)
  /-- Writing the record line. -/
  | record (entry : Record.Entry)
  /-- Receiving the next value to filter. -/
  | next (input : Intake) (prime : Int32) (output : Link)
  /-- Making room in the outbox for a value to forward. -/
  | forward (input : Intake) (prime : Int32) (output : Link) (v : Int32)
  /-- Handing on the last values. -/
  | close (output : Link)
  /-- Trying once more to hand on what an output holds that is to be given up. -/
  | empty (output : Link) (after : Shutting)
  /-- Giving up an output. -/
  | shut (child : Child) (after : Shutting)
  /-- Giving up a child that a new one has replaced. -/
  | replace (old : Child) (prime : Int32)
  /-- Giving up the input. -/
  | leave (after : Leaving)
  /-- Waiting for the child to finish. -/
  | reap (child : Child) (after : Reaping)
  /-- Giving up the child of a stage that is let go. -/
  | forsake (child : Child)
  /-- The call has come to its end. -/
  | ended (result : Except Fault Phase)

/-- The value by which a task divides those that come in. -/
def Task.divisor? : Task → Option Int32
  | .next _ p _ | .forward _ p _ _ => some p
  | _ => none

/-- A call under way: the slots, and the task at hand. -/
structure Activity where
  slots : Slots
  task : Task

namespace Activity

def go (a : Activity) (task : Task) : Activity := { a with task }

/-- The call goes on with other slots. -/
def put (a : Activity) (slots : Slots) : Activity := { a with slots }

def keep (a : Activity) (ledger : Ledger) : Activity := a.put { a.slots with ledger }

def note (a : Activity) (n : Notice) : Activity := a.keep (a.slots.ledger.note n)

/-- The call succeeds: the stage moves to a phase. -/
def settle (a : Activity) (phase : Phase) : Activity :=
  let a := if phase = a.slots.phase then a else a.note (.moved a.slots.prime a.slots.phase phase)
  (a.put { a.slots with phase }).go (.ended (.ok phase))

/-- The call fails, and leaves all slots as they are. -/
def fail (a : Activity) (fault : Fault) : Activity := a.go (.ended (.error fault))

/-- The call fails for an error of its input, its record or its channel. -/
def failIo (a : Activity) (context : String) (e : IoError) : Activity :=
  a.fail (.within context (.io e))

/-- The input has been read from. -/
def received (a : Activity) (input : Intake) : Activity :=
  a.put { a.slots with input := some input }

/-- The output has taken a value, or handed some on. -/
def sent (a : Activity) (output : Link) : Activity :=
  a.put { a.slots with output := some output }

/-- Gives up an output, after a last attempt to hand on what it holds. -/
def giveUpOutput (a : Activity) (output : Link) (after : Shutting) : Activity :=
  if output.output.isEmpty then a.go (.shut output.child after) else a.go (.empty output after)

/-- Empties the slot of the input and gives it up. -/
def leaveInput (a : Activity) (after : Leaving) : Activity :=
  (a.put { a.slots with input := none }).go (.leave after)

/-- The first value decides whether the stage has work to do. -/
def gotFirst (a : Activity) (input : Intake) : Receipt → Activity
  | .value v =>
    if accepts a.slots.ledger.ceiling v then a.go (.launch v)
    else (a.note (.refused v)).go (.skip input 0)
  | .ended torn => (a.keep (a.slots.ledger.noteTorn torn)).leaveInput .idle
  | .failed e => a.failIo "Reading first value" e

/-- Values behind a first value that was not accepted are counted. -/
def gotSkipped (a : Activity) (input : Intake) (skipped : Nat) : Receipt → Activity
  | .value _ => a.go (.skip input (skipped + 1))
  | .ended torn =>
    (a.keep { a.slots.ledger.noteTorn torn with discarded := 1 + skipped }).leaveInput .idle
  | .failed e => a.failIo "Draining input" e

/-- An earlier child makes way, if there is one, and then the line is recorded. -/
def replaceChild (a : Activity) (old : Option Child) (prime : Int32) : Activity :=
  match old with
  | none => a.go (.record (.ofValue prime))
  | some old => a.go (.replace old prime)

/-- With a child, the stage owns its value. What was in the slots of the output and the child is
given up. -/
def launched (a : Activity) (prime : Int32) : Except Fault Child → Activity
  | .error f => a.fail (.within ("Stage " ++ Numeral.text prime) f)
  | .ok child =>
    let slots := { a.slots with
      prime := some prime, output := some ⟨.empty, child⟩, child := some child }
    match a.slots.output with
    | none => (a.put slots).replaceChild a.slots.child prime
    | some old => (a.put slots).giveUpOutput old (.replaced a.slots.child prime)

def wrote (a : Activity) (entry : Record.Entry) (reply : WriteReply) : Activity :=
  match entry.absorb reply with
  | .ok entry => a.go (.record entry)
  | .error e => a.failIo "Writing record" e

/-- A line that has been flushed is in the record for good: filtering may begin. -/
def committed (a : Activity) : Except IoError Unit → Activity
  | .ok () => a.settle .filtering
  | .error e => a.failIo "Writing record" e

/-- Takes a value for the child, and goes on receiving. -/
def pass (a : Activity) (input : Intake) (prime : Int32) (output : Link) (v : Int32) : Activity :=
  let output := { output with output := output.output.put v }
  (a.sent output).go (.next input prime output)

/-- Multiples are dropped; all else is forwarded. -/
def gotNext (a : Activity) (input : Intake) (prime : Int32) (output : Link) : Receipt → Activity
  | .value v =>
    if passes prime v then
      if output.output.hasRoom then a.pass input prime output v
      else a.go (.forward input prime output v)
    else
      let ledger := a.slots.ledger.note (.dropped prime v)
      (a.keep { ledger with discarded := ledger.discarded + 1 }).go (.next input prime output)
  | .ended torn => (a.keep (a.slots.ledger.noteTorn torn)).settle .draining
  | .failed e => a.failIo "Reading input" e

def madeRoom (a : Activity) (input : Intake) (prime : Int32) (output : Link) (v : Int32)
    (reply : WriteReply) : Activity :=
  match output.output.absorb reply with
  | (o, none) =>
    let output := { output with output := o }
    (a.sent output).go (.forward input prime output v)
  | (o, some (.ok ())) => a.pass input prime { output with output := o } v
  | (o, some (.error e)) =>
    (a.sent { output with output := o }).failIo ("Forwarding " ++ Numeral.text v) e

/-- An output that has been taken out of its slot is closed. If that fails, it is given up all the
same. -/
def closed (a : Activity) (output : Link) (reply : WriteReply) : Activity :=
  match output.output.absorb reply with
  | (o, none) => a.go (.close { output with output := o })
  | (o, some (.ok ())) => a.go (.shut output.child (.drained o.taken))
  | (o, some (.error e)) =>
    a.giveUpOutput { output with output := o } (.severed (.within "Closing output" (.io e)))

/-- Goes on emptying an output that is to be given up; how it goes does not matter. -/
def emptied (a : Activity) (output : Link) (after : Shutting) (reply : WriteReply) : Activity :=
  match output.output.absorb reply with
  | (o, none) => a.go (.empty { output with output := o } after)
  | (_, some _) => a.go (.shut output.child after)

/-- Takes the child out of its slot and reaps it: the stage has drained its input. -/
def reapDrained (a : Activity) : Activity :=
  match a.slots.child with
  | none => a.fail noChild
  | some child => (a.put { a.slots with child := none }).go (.reap child .drained)

/-- Takes the child, if there is one, out of its slot and reaps it: the stage is given up. -/
def reapGivenUp (a : Activity) (fault : Fault) : Activity :=
  let a := a.put { a.slots with phase := .done }
  match a.slots.child with
  | none => a.fail fault
  | some child => (a.put { a.slots with child := none }).go (.reap child (.givenUp fault))

/-- Gives up the child, if there is one: the stage is let go. -/
def forsakeChild (a : Activity) : Activity :=
  let a := a.put { a.slots with phase := .done }
  match a.slots.child with
  | none => a.go (.ended (.ok .done))
  | some child => (a.put { a.slots with child := none }).go (.forsake child)

/-- Gives up the output, if there is one, and then the child: the stage is let go. -/
def letOutputGo (a : Activity) : Activity :=
  match a.slots.output with
  | none => a.forsakeChild
  | some output => (a.put { a.slots with output := none }).giveUpOutput output .letGo

def inputGone (a : Activity) : Leaving → Activity
  | .idle => a.settle .done
  | .drained => a.reapDrained
  | .givenUp fault => a.reapGivenUp fault
  | .letGo => a.letOutputGo

/-- Gives up the input, if it is there. -/
def emptyInput (a : Activity) (after : Leaving) : Activity :=
  match a.slots.input with
  | none => a.inputGone after
  | some _ => a.leaveInput after

def outputGone (a : Activity) : Shutting → Activity
  | .replaced old prime => a.replaceChild old prime
  | .drained forwarded => (a.keep { a.slots.ledger with forwarded }).emptyInput .drained
  | .severed fault => a.fail fault
  | .givenUp fault => a.emptyInput (.givenUp fault)
  | .letGo => a.forsakeChild

/-- The child has been reaped. When the stage is given up because of a broken pipe, that only says
that the child is gone, and the child's own fault is the one to report; next to any other fault it
is noted. -/
def reaped (a : Activity) (child : Child) : Reaping → Except Fault Unit → Activity
  | .drained, .ok () => a.settle .childReaped
  | .drained, .error f => a.fail f
  | .givenUp fault, .ok () => a.fail fault
  | .givenUp fault, .error f =>
    if fault.isBrokenPipe then a.fail f
    else (a.note (.childFailedToo child.label f)).fail fault

def move (a : Activity) : Move Activity :=
  match a.task with
  | .first input =>
    .read input.room fun reply =>
      match input.absorb reply with
      | (input, none) => (a.received input).go (.first input)
      | (input, some receipt) => (a.received input).gotFirst input receipt
  | .skip input skipped =>
    .read input.room fun reply =>
      match input.absorb reply with
      | (input, none) => (a.received input).go (.skip input skipped)
      | (input, some receipt) => (a.received input).gotSkipped input skipped receipt
  | .launch prime => .launch (a.launched prime)
  | .record entry =>
    match entry.pieces with
    | [] => .commit a.committed
    | piece :: _ => .record piece (a.wrote entry)
  | .next input prime output =>
    .read input.room fun reply =>
      match input.absorb reply with
      | (input, none) => (a.received input).go (.next input prime output)
      | (input, some receipt) => (a.received input).gotNext input prime output receipt
  | .forward input prime output v =>
    .send output.child output.output.bytes (a.madeRoom input prime output v)
  | .close output => .send output.child output.output.bytes (a.closed output)
  | .empty output after => .send output.child output.output.bytes (a.emptied output after)
  | .shut child after => .shut child (a.outputGone after)
  | .replace old prime => .forsake old (a.go (.record (.ofValue prime)))
  | .leave after => .leave (a.inputGone after)
  | .reap child after => .reap child (a.reaped child after)
  | .forsake child => .forsake child (a.go (.ended (.ok .done)))
  | .ended _ => .rest

instance : Party Activity := ⟨move⟩

/-- The slots and the result of a call that has come to its end. -/
def outcome? (a : Activity) : Option (Slots × Except Fault Phase) :=
  match a.task with
  | .ended result => some (a.slots, result)
  | _ => none

end Activity

def begin (s : Slots) (task : Task) : Activity := { slots := s, task }

/-- Takes the step of the phase, if the slots hold what it needs. -/
def step (s : Slots) : Activity :=
  match s.phase with
  | .awaitFirst =>
    match s.input with
    | none => s.begin (.ended (.error noInput))
    | some input => s.begin (.first input)
  | .filtering =>
    match s.prime, s.input, s.output with
    | some prime, some input, some output => s.begin (.next input prime output)
    | _, _, _ => s.begin (.ended (.error unready))
  | .draining =>
    match s.output with
    | none => s.begin (.ended (.error noOutput))
    | some output =>
      let s := { s with output := none }
      if output.output.isEmpty then
        s.begin (.shut output.child (.drained output.output.taken))
      else s.begin (.close output)
  | .childReaped => (s.begin (.ended (.ok .done))).settle .done
  | .done => (s.begin (.ended (.ok .done))).settle .done

/-- Gives the stage up after a fault: both channel ends are given up and the child, if there is one,
is reaped. The call ends with the fault to report. -/
def giveUp (s : Slots) (fault : Fault) : Activity :=
  let a := s.begin (.ended (.error fault))
  match s.output with
  | none => a.emptyInput (.givenUp fault)
  | some output => (a.put { s with output := none }).giveUpOutput output (.givenUp fault)

/-- Lets the stage go: whatever it holds is given up, and no child is waited for. -/
def letGo (s : Slots) : Activity := (s.begin (.ended (.ok .done))).emptyInput .letGo

/-- A stage that runs to its end: it takes step after step, is given up after the first fault, and
finishes with a report or a fault. -/
inductive Run
  | stepping (call : Activity)
  | givingUp (call : Activity)
  | finished (slots : Slots) (result : Except Fault Report)

namespace Run

def start (s : Slots) : Run := .stepping s.step

def afterStep (s : Slots) : Except Fault Phase → Run
  | .ok .done => .finished { s with ledger := s.ledger.note (.reported s.report) } (.ok s.report)
  | .ok _ => .stepping s.step
  | .error f => .givingUp (s.giveUp f)

def afterGivingUp (s : Slots) : Except Fault Phase → Run
  | .ok _ => .finished s (.ok s.report)
  | .error f => .finished s (.error f)

def move : Run → Move Run
  | .stepping call =>
    match call.outcome? with
    | some (s, result) => .proceed (afterStep s result)
    | none => call.move.map .stepping
  | .givingUp call =>
    match call.outcome? with
    | some (s, result) => .proceed (afterGivingUp s result)
    | none => call.move.map .givingUp
  | .finished _ _ => .rest

instance : Party Run := ⟨move⟩

def outcome? : Run → Option (Slots × Except Fault Report)
  | .finished s result => some (s, result)
  | _ => none

end Run

end Slots

end Stage

end SieveChain
