import SieveChain.Chain
import SieveChain.Record.Line

/-!
# Stages as threads

Stages that run within one process, over pipes in memory, on one record that they
share. Launches are counted, and so are the stages that have not finished and the
channel ends that are still held; when a run is over, the latter two are what they
were before it.
-/

namespace SieveChain

/-- Stages launched so far, stages that have not finished, and channel ends held. -/
structure Counters where
  launched : Nat := 0
  live : Nat := 0
  openEnds : Nat := 0
  deriving DecidableEq, Repr

namespace Counters

/-- A thread has been launched: both ends of its channel are held. -/
def start (c : Counters) : Counters :=
  { launched := c.launched + 1, live := c.live + 1, openEnds := c.openEnds + 2 }

def release (c : Counters) : Counters := { c with openEnds := c.openEnds - 1 }

def finish (c : Counters) : Counters := { c with live := c.live - 1 }

/-- A thread could not be started. The stage is gone before it has run, and so are both ends of its
channel, but its number is used up. -/
def miss (c : Counters) : Counters := c.start.finish.release.release

@[simp] theorem miss_eq (c : Counters) : c.miss = { c with launched := c.launched + 1 } := rfl

/-- Counts an event. -/
def observe (c : Counters) : Event → Counters
  | .launched (.ok _) => c.start
  | .launched (.error _) => c.miss
  | .shut _ => c.release
  | .left => c.release
  | .reaped _ _ => c.finish
  | _ => c

end Counters

def threadLabel (index : Nat) : String := "thread " ++ Numeral.countText index

/-- Threads share one ceiling, and hand their fault to whoever waits for them. -/
def threads : Host where
  label := threadLabel
  heir ceiling := ceiling
  verdict index
    | .ok _ => .ok ()
    | .error f => .error (.within ("Stage " ++ threadLabel index) f)

/-- A stage launched from outside the chain: its number, what has been written to it,
whether its channel is still held, and whether it has been waited for. -/
structure Thread where
  index : Nat
  chunks : Array (List UInt8) := #[]
  writer : Bool := true
  reaped : Bool := false

/-- Threads on one record. -/
structure Threads where
  ceiling : Option Int32 := none
  record : Array UInt8 := #[]
  counters : Counters := {}
  handles : Array Thread := #[]

namespace Threads

def contents (t : Threads) : List Char := Utf8.lossy t.record.toList

def primes (t : Threads) : List Int32 := Record.parse t.contents

/-- Takes in what a chain has written and what has happened in it. -/
def absorb (t : Threads) (runs : List StageRun) (trace : List Event) : Threads :=
  { t with record := t.record ++ Chain.recorded runs,
           counters := trace.foldl Counters.observe t.counters }

/-- Launches a stage from outside; its handle is its place among those. -/
def launch (t : Threads) : Nat × Threads :=
  (t.handles.size,
    { t with handles := t.handles.push { index := t.counters.launched },
             counters := t.counters.start })

/-- Writes to a stage; `none` if its channel has been given up. -/
def write (t : Threads) (handle : Nat) (bytes : List UInt8) : Option Nat × Threads :=
  match t.handles[handle]? with
  | some { writer := true, .. } =>
    (some bytes.length,
      { t with handles := t.handles.modify handle fun h =>
          { h with chunks := h.chunks.push bytes } })
  | _ => (none, t)

/-- Gives up the channel to a stage, and says whether it was held. -/
def close (t : Threads) (handle : Nat) : Bool × Threads :=
  match t.handles[handle]? with
  | some { writer := true, .. } =>
    (true,
      { t with handles := t.handles.modify handle fun h => { h with writer := false },
               counters := t.counters.release })
  | _ => (false, t)

/-- Waits for a stage. -/
def reap (t : Threads) (handle : Nat) : Except Fault Unit × Threads :=
  match t.handles[handle]? with
  | none => (.ok (), t)
  | some h =>
    if h.reaped then (.error (.reap (threadLabel h.index) "already reaped"), t)
    else
      let runs := Chain.run threads (fun _ => {}) t.ceiling t.counters.launched h.chunks.toList
      let verdict := match runs with
        | [] => .ok ()
        | r :: _ => threads.verdict h.index r.result
      let t := t.absorb runs (Chain.trace runs)
      (verdict,
        { t with handles := t.handles.modify handle fun h => { h with reaped := true },
                 counters := t.counters.finish })

/-- Every stage launched from outside has been waited for. -/
def settled (t : Threads) : Bool := t.handles.all (·.reaped)

def feed (t : Threads) (c : Candidates) : Except Fault Nat × Threads :=
  let fed := Chain.feed threads {} (fun _ => {}) t.ceiling t.counters.launched c
  (fed.result, t.absorb fed.runs (fed.trace ++ Chain.trace fed.runs))

end Threads

end SieveChain
