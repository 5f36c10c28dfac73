import SieveChain.Channel.Pipe
import SieveChain.Host.Threads

/-!
# Threads at work together

Feeders and stages as parties that move one after the other in any order, over pipes and
on one record. A party waits while its pipe is empty and can still be written to, while
the pipe to its child is full, and while the child that it reaps has not finished.

Whoever else uses the same threads may launch stages, make pipes, and use the ends that
it holds.
-/

namespace SieveChain.Concurrent

/-- A launch: the pipe that the stage reads, the run of the stage, and whether its thread
has finished. A thread that could not be started leaves no run. -/
structure Job where
  pipe : Nat
  run : Option Stage.Run
  ended : Bool := false

/-- All that runs together. Launches are numbered in their order. -/
structure System where
  ceiling : Option Int32 := none
  capacity : Option Nat := none
  pipes : Pipes := {}
  jobs : Array Job := #[]
  feeders : Array Feeder.Run := #[]
  record : Array UInt8 := #[]
  live : Nat := 0
  writers : List Nat := []
  readers : List Nat := []

/-- Why a thread could not be started, if it could not. -/
abbrev Refusal := Option String

namespace System

def counters (s : System) : Counters :=
  { launched := s.jobs.size, live := s.live, openEnds := s.pipes.openEnds }

/-- Launches a stage. It counts as live before its thread is started. If the thread cannot be
started, all that it was given goes with it, its reading end among that, and then the writing end
is given up; but its number is used up. -/
def launch (s : System) (refusal : Refusal) : Except Fault Child × System :=
  let index := s.jobs.size
  let (pipe, pipes) := s.pipes.create
  let live := s.live + 1
  match refusal with
  | none =>
    let run := Stage.Run.start (Stage.new s.ceiling)
    (.ok ⟨index, threadLabel index⟩,
      { s with pipes, jobs := s.jobs.push { pipe, run := some run }, live })
  | some reason =>
    let pipes := ((pipes.dropReader pipe).2.dropWriter pipe).2
    (.error (.spawn ("stage " ++ threadLabel index ++ ": " ++ reason)),
      { s with pipes, jobs := s.jobs.push { pipe, run := none, ended := true }, live := live - 1 })

def pipeOf? (s : System) (child : Child) : Option Nat := (s.jobs[child.index]?).map (·.pipe)

/-- Writes to a pipe, as much of what is offered as there is room for; `none` while there
is no room. -/
def offer (s : System) (pipe : Nat) (bytes : List UInt8) : Option (WriteReply × System) :=
  let p := s.pipes.get pipe
  let room := match s.capacity with
    | none => bytes.length
    | some most => min bytes.length (most - p.pending.length)
  if p.reader ∧ room = 0 ∧ bytes ≠ [] then none
  else
    match s.pipes.write pipe (if p.reader then bytes.take room else bytes) with
    | (some reply, pipes) => some (reply, { s with pipes })
    | (none, _) => none

/-- What whoever reaps a child learns; `none` while the thread has not finished. -/
def verdict (s : System) (child : Child) : Option (Except Fault Unit) :=
  match s.jobs[child.index]? with
  | some { run := some (.finished _ result), ended := true, .. } =>
    some (threads.verdict child.index result)
  | _ => none

/-- Answers the move of a party that reads a pipe, if the party need not wait. -/
def answer {σ : Type} (s : System) (pipe : Option Nat) (refusal : Refusal) :
    Move σ → Option (σ × System)
  | .read room next =>
    match pipe with
    | none => none
    | some i =>
      match s.pipes.read i room with
      | (.got bytes, pipes) => some (next (.got bytes), { s with pipes })
      | _ => none
  | .record bytes next =>
    some (next (.took bytes.length), { s with record := s.record ++ bytes })
  | .commit next => some (next (.ok ()), s)
  | .launch next =>
    let (result, s) := s.launch refusal
    some (next result, s)
  | .send child bytes next =>
    match s.pipeOf? child with
    | none => none
    | some i => (s.offer i bytes).map fun (reply, s) => (next reply, s)
  | .shut child next =>
    (s.pipeOf? child).map fun i => (next, { s with pipes := (s.pipes.dropWriter i).2 })
  | .leave next => pipe.map fun i => (next, { s with pipes := (s.pipes.dropReader i).2 })
  | .reap child next => (s.verdict child).map fun result => (next result, s)
  | .forsake _ next => some (next, s)
  | .proceed next => some (next, s)
  | .rest => none

/-- One step of the system. -/
inductive Action
  /-- A stage moves on. -/
  | stage (job : Nat) (refusal : Refusal)
  /-- The thread of a stage that has nothing left to do finishes. -/
  | finish (job : Nat)
  /-- A feeder moves on. -/
  | feeder (n : Nat) (refusal : Refusal)
  /-- A feeder is set to work on a range. -/
  | feed (c : Candidates)
  /-- A stage is launched from outside, which gets the writing end of its pipe. -/
  | launch (refusal : Refusal)
  /-- A pipe is made from outside, which gets both its ends. -/
  | create
  /-- One write from outside. -/
  | write (pipe : Nat) (bytes : List UInt8)
  /-- One read from outside. -/
  | read (pipe room : Nat)
  /-- A writing end is given up outside. -/
  | dropWriter (pipe : Nat)
  /-- A reading end is given up outside. -/
  | dropReader (pipe : Nat)

/-- Takes a step, if it is possible. -/
def perform (s : System) : Action → Option System
  | .stage n refusal =>
    match s.jobs[n]? with
    | some { pipe, run := some run, ended := false } =>
      (s.answer (some pipe) refusal run.move).map fun (run, s) =>
        { s with jobs := s.jobs.modify n fun job => { job with run := some run } }
    | _ => none
  | .finish n =>
    match s.jobs[n]? with
    | some { run := some (.finished _ _), ended := false, .. } =>
      some { s with jobs := s.jobs.modify n fun job => { job with ended := true },
                    live := s.live - 1 }
    | _ => none
  | .feeder n refusal =>
    match s.feeders[n]? with
    | some run =>
      (s.answer none refusal run.move).map fun (run, s) =>
        { s with feeders := s.feeders.modify n fun _ => run }
    | none => none
  | .feed c => some { s with feeders := s.feeders.push (Feeder.run c) }
  | .launch refusal =>
    match s.launch refusal with
    | (.ok child, s) =>
      (s.pipeOf? child).map fun i => { s with writers := i :: s.writers }
    | (.error _, s) => some s
  | .create =>
    let (i, pipes) := s.pipes.create
    some { s with pipes, writers := i :: s.writers, readers := i :: s.readers }
  | .write i bytes => if i ∈ s.writers then (s.offer i bytes).map (·.2) else none
  | .read i room =>
    if i ∈ s.readers then
      match s.pipes.read i room with
      | (.got _, pipes) => some { s with pipes }
      | _ => none
    else none
  | .dropWriter i =>
    if i ∈ s.writers then
      some { s with pipes := (s.pipes.dropWriter i).2, writers := s.writers.erase i }
    else none
  | .dropReader i =>
    if i ∈ s.readers then
      some { s with pipes := (s.pipes.dropReader i).2, readers := s.readers.erase i }
    else none

/-- What can come of a system in any number of steps that meet a condition. -/
inductive Reaches (allowed : System → Action → Prop) (s : System) : System → Prop
  | refl : Reaches allowed s s
  | step {t u : System} {a : Action} (before : Reaches allowed s t) (may : allowed t a)
      (does : t.perform a = some u) : Reaches allowed s u

end System

end SieveChain.Concurrent
