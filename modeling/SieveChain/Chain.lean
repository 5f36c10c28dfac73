import SieveChain.Scripted.Perform

/-!
# The chain of stages

A stage grows the chain by one when it launches its child. The child reads exactly
what its parent's channel has accepted, and it is over when its parent has reaped
it; so a chain can be run from the first stage downwards, the run of each stage
pausing where it waits for its child until the chain below has been run.

Around each stage some things may go wrong. They are given by its depth.
-/

namespace SieveChain

open Scripted

/-- Where stages run: the names they go by, the ceiling that a stage has when its parent
passes one on, and what whoever waits for a stage learns of the result of its run. -/
structure Host where
  label : Nat → String
  heir : Option Int32 → Option Int32
  verdict : Nat → Except Fault Stage.Report → Except Fault Unit

/-- The conditions under which one stage runs: how its input is served, how its record
takes what is written, and whether its launch succeeds and how the channel it gives
takes what is written. -/
structure Conditions where
  perRead : Option Nat := none
  readFault : Option (Nat × IoError) := none
  record : Sink := {}
  refusal : Option Fault := none
  channel : Sink := {}

namespace Conditions

/-- The source of a stage to which chunks of bytes have been written. A read fault
strikes behind so many bytes. -/
def deliver (c : Conditions) (chunks : List (List UInt8)) : Source :=
  { perRead := c.perRead
    items := match c.readFault with
      | none => chunks.map .chunk
      | some (n, e) => [.chunk (chunks.flatten.take n), .error e] }

/-- The launch of the stage's child, if all goes well under a name. -/
def launch (c : Conditions) (label : String) : Launch :=
  match c.refusal with
  | some f => .refused f
  | none => .started { sink := c.channel, label, ending := none }

end Conditions

/-- The run of one stage of a chain. -/
structure StageRun where
  stage : Stage
  result : Except Fault Stage.Report
  surroundings : Surroundings

namespace StageRun

def recorded (r : StageRun) : List UInt8 := r.surroundings.record.accepted.toList

def trace (r : StageRun) : List Event := r.surroundings.trace.toList

end StageRun

namespace Chain

/-- A fault that no run meets: a stage would have to stop in the middle. -/
def stalled : Fault := .channel "stage stalled"

/-- Drives a run on, and takes it for stalled if it does not end. -/
def conclude (run : Stage.Run) (w : Surroundings) : StageRun :=
  let (run, w) := w.drive (w.allowance Outbox.capacity) run
  match run.outcome? with
  | some (stage, result) => { stage, result, surroundings := w }
  | none => { stage := {}, result := .error stalled, surroundings := w }

/-- Runs a stage under a ceiling and the chain it grows, at most so many stages, from a
depth on. The stages come in order from the first, and those launched are numbered from
`next`. -/
def grow (host : Host) (conditions : Nat → Conditions) (next : Nat) :
    Nat → Nat → Option Int32 → List (List UInt8) → List StageRun
  | 0, _, _, _ => []
  | n + 1, depth, ceiling, chunks =>
    let here := conditions depth
    let below := next + depth
    let w : Surroundings :=
      { source := here.deliver chunks, record := here.record, first := below,
        launches := [here.launch (host.label below)] }
    let (run, w) := w.drive (w.allowance Outbox.capacity) (Stage.Run.start (Stage.new ceiling))
    match run.move with
    | .reap child _ =>
      let rest := grow host conditions next n (depth + 1) (host.heir ceiling) [w.accepts child]
      let verdict := match rest with
        | [] => .ok ()
        | r :: _ => host.verdict child.index r.result
      conclude run (w.settle child verdict) :: rest
    | _ => [conclude run w]

/-- Runs the chain that begins with a stage under a ceiling to which chunks of bytes have
been written. Every stage keeps a value for itself, so there are no more stages than
bytes, but for the last, which finds nothing. -/
def run (host : Host) (conditions : Nat → Conditions) (ceiling : Option Int32) (next : Nat)
    (chunks : List (List UInt8)) : List StageRun :=
  grow host conditions next (chunks.flatten.length + 1) 0 ceiling chunks

/-- What the stages of a chain have written to their record. -/
def recorded (runs : List StageRun) : List UInt8 := runs.flatMap StageRun.recorded

def trace (runs : List StageRun) : List Event := runs.flatMap StageRun.trace

/-- A feeder and the chain below it, when both have run. -/
structure Fed where
  result : Except Fault Nat
  notices : List Notice
  trace : List Event
  runs : List StageRun

/-- Runs a feeder over a range, and the chain it feeds. The conditions of the feeder are
those for launching the first stage and for the channel to it; the ceiling is the one
that it passes on. -/
def feed (host : Host) (feeder : Conditions) (conditions : Nat → Conditions)
    (ceiling : Option Int32) (first : Nat) (c : Candidates) : Fed :=
  let w : Surroundings := { first, launches := [feeder.launch (host.label first)] }
  let (party, w) := w.drive (w.allowance (Wire.width * c.count)) (Feeder.run c)
  let (runs, w) : List StageRun × Surroundings :=
    match party.move with
    | .reap child _ =>
      let runs := run host conditions (host.heir ceiling) (first + 1) [w.accepts child]
      let verdict := match runs with
        | [] => .ok ()
        | r :: _ => host.verdict child.index r.result
      (runs, w.settle child verdict)
    | _ => ([], w)
  let (party, w) := w.drive (w.allowance 0) party
  { result := party.outcome?.getD (.error stalled), notices := party.notices.toList,
    trace := w.trace.toList, runs }

end Chain

end SieveChain
