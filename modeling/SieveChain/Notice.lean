import SieveChain.Stage.Basic
import SieveChain.Text.Numeral

/-!
# Notices

What stages, feeders and launchers note while they work, by level of detail.
-/

namespace SieveChain

/-- Levels of detail, from the gravest. -/
inductive Level
  | error
  | warn
  | info
  | debug
  | trace
  deriving DecidableEq, Repr

namespace Level

def name : Level → String
  | .error => "ERROR"
  | .warn => "WARN"
  | .info => "INFO"
  | .debug => "DEBUG"
  | .trace => "TRACE"

def rank : Level → Nat
  | .error => 1
  | .warn => 2
  | .info => 3
  | .debug => 4
  | .trace => 5

end Level

/-- Something worth noting. -/
inductive Notice
  | torn (bytes : Nat)
  | refused (v : Int32)
  | dropped (prime v : Int32)
  | moved (prime : Option Int32) (before after : Stage.Phase)
  | reported (report : Stage.Report)
  | childFailedToo (label : String) (fault : Fault)
  | feeding (start stop : Int32) (label : String)
  | firstStageFailedToo (label : String) (fault : Fault)
  | launched (label : String)
  | sieving (low high : Int32) (backend : String)
  | finished (values : Nat)
  | gaveUp (text : String)
  deriving Repr

namespace Notice

def level : Notice → Level
  | .torn _ => .debug
  | .refused _ => .debug
  | .dropped _ _ => .trace
  | .moved _ _ _ => .trace
  | .reported _ => .debug
  | .childFailedToo _ _ => .warn
  | .feeding _ _ _ => .debug
  | .firstStageFailedToo _ _ => .warn
  | .launched _ => .debug
  | .sieving _ _ _ => .info
  | .finished _ => .info
  | .gaveUp _ => .error

/-- A value that may be missing, as it is shown in a notice. -/
def optional : Option Int32 → String
  | none => "None"
  | some v => "Some(" ++ Numeral.text v ++ ")"

/-- The part of the program that a notice comes from, as it is named in a log. -/
def origin : Notice → String
  | .torn _ => "pipe_sieve::channel"
  | .refused _ => "pipe_sieve::stage"
  | .dropped _ _ => "pipe_sieve::stage"
  | .moved _ _ _ => "pipe_sieve::stage"
  | .reported _ => "pipe_sieve::stage"
  | .childFailedToo _ _ => "pipe_sieve::stage"
  | .feeding _ _ _ => "pipe_sieve::feeder"
  | .firstStageFailedToo _ _ => "pipe_sieve::feeder"
  | .launched _ => "pipe_sieve::backend::process"
  | .sieving _ _ _ => "pipe_sieve"
  | .finished _ => "pipe_sieve"
  | .gaveUp _ => "pipe_sieve"

def message : Notice → String
  | .torn n =>
      "Truncated value (" ++ Numeral.countText n ++ " of " ++ Numeral.countText Wire.width
        ++ " bytes) treated as end-of-stream"
  | .refused v => "Value " ++ Numeral.text v ++ " is not a candidate, draining input"
  | .dropped p v => "Stage " ++ Numeral.text p ++ " drops " ++ Numeral.text v
  | .moved p before after =>
      "Stage " ++ optional p ++ ": " ++ before.name ++ " -> " ++ after.name
  | .reported r =>
      "Stage " ++ optional r.prime ++ " done: forwarded " ++ Numeral.countText r.forwarded
        ++ ", discarded " ++ Numeral.countText r.discarded
  | .childFailedToo label f => "Child " ++ label ++ " also failed: " ++ f.message
  | .feeding start stop label =>
      "Feeding [" ++ Numeral.text start ++ ", " ++ Numeral.text stop ++ ") into stage " ++ label
  | .firstStageFailedToo label f => "First stage " ++ label ++ " also failed: " ++ f.message
  | .launched label => "Launched stage " ++ label
  | .sieving low high backend =>
      "Sieving [" ++ Numeral.text low ++ ", " ++ Numeral.text high ++ ") with the " ++ backend
        ++ " backend"
  | .finished n => "Pipeline finished after " ++ Numeral.countText n ++ " values"
  | .gaveUp text => text

def line (n : Notice) : String := n.level.name ++ " " ++ n.message

def fullLine (n : Notice) : String := n.level.name ++ " " ++ n.origin ++ ": " ++ n.message

/-- The notices at most as detailed as a level, as lines. -/
def lines (most : Level) (notices : List Notice) : List String :=
  (notices.filter fun n => n.level.rank ≤ most.rank).map line

end Notice

end SieveChain
