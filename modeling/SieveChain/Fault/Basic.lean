import SieveChain.Fault.Io

/-!
# Faults

Why a stage, a feeder or a configuration failed. A fault may be wrapped in any
number of contexts; its *root* is the innermost fault, and only the root decides
whether the fault is a broken pipe.
-/

namespace SieveChain

/-- A failure of the pipeline. -/
inductive Fault
  | config (text : String)
  | spawn (text : String)
  | reap (stage text : String)
  | stageFailed (stage status : String)
  | channel (text : String)
  | io (error : IoError)
  | within (context : String) (source : Fault)
  deriving DecidableEq, Repr

namespace Fault

/-- The kinds of fault, as they are named to a user of the library. -/
inductive Kind
  | config
  | spawn
  | reap
  | stageFailed
  | channel
  | io
  | within
  deriving DecidableEq, Repr

def kind : Fault → Kind
  | .config _ => .config
  | .spawn _ => .spawn
  | .reap _ _ => .reap
  | .stageFailed _ _ => .stageFailed
  | .channel _ => .channel
  | .io _ => .io
  | .within _ _ => .within

def root : Fault → Fault
  | .within _ source => source.root
  | f => f

/-- A channel's reader is gone: the party behind it has more to say about why. -/
def isBrokenPipe : Fault → Bool
  | .io e => e.kind == .brokenPipe
  | .within _ source => source.isBrokenPipe
  | _ => false

/-- The text shown for a fault; a context stands before what it wraps. -/
def message : Fault → String
  | .config text => "Configuration error: " ++ text
  | .spawn text => "Failed to spawn stage: " ++ text
  | .reap stage text => "Failed to reap stage " ++ stage ++ ": " ++ text
  | .stageFailed stage status =>
      "Stage " ++ stage ++ " exited unsuccessfully (" ++ status ++ ")"
  | .channel text => "Channel error: " ++ text
  | .io e => "IO error: " ++ e.message
  | .within context source => context ++ ": " ++ source.message

/-- The texts of the successive causes of a fault, outermost first. -/
def sources : Fault → List String
  | .io e => e.message :: e.behind
  | .within _ source => source.message :: source.sources
  | _ => []

/-- The fault's own text followed by those of all its causes. -/
def chainText (f : Fault) : String := ": ".intercalate (f.message :: f.sources)

end Fault

end SieveChain
