import SieveChain.Channel.Intake
import SieveChain.Channel.Outbox
import SieveChain.Fault.Basic
import SieveChain.Record.Entry

/-!
# Stages

A stage owns the first value it receives, launches the next stage of the chain,
records its value, and forwards whatever that value does not divide. Its states
are ordered: awaiting the first value, filtering, draining, child reaped, done.
What a stage holds is part of its state, so a state in which it filters without
a value, or waits for a child it has not got, cannot be written down.
-/

namespace SieveChain

/-- A stage or process that was launched: its number in the order of launches,
and the name it goes by. -/
structure Child where
  index : Nat
  label : String
  deriving DecidableEq, Repr

/-- The sending end of the channel to a child, and the child behind it. -/
structure Link where
  output : Outbox
  child : Child
  deriving Repr

namespace Stage

/-- The phases of a stage, in order. -/
inductive Phase
  | awaitFirst
  | filtering
  | draining
  | childReaped
  | done
  deriving DecidableEq, Repr

def Phase.name : Phase → String
  | .awaitFirst => "AwaitFirst"
  | .filtering => "Filtering"
  | .draining => "Draining"
  | .childReaped => "ChildReaped"
  | .done => "Done"

def Phase.rank : Phase → Nat
  | .awaitFirst => 0
  | .filtering => 1
  | .draining => 2
  | .childReaped => 3
  | .done => 4

/-- What a stage holds between two calls.

A stage that awaits its first value may have launched a child already: recording
failed after that. `severed` and `spent` are what a failure leaves of a draining
stage: the output is gone and the child still to be reaped, or both are gone. -/
inductive State
  | awaitFirst (input : Intake) (earlier : Option (Int32 × Link))
  | filtering (input : Intake) (prime : Int32) (link : Link)
  | draining (input : Intake) (prime : Int32) (link : Link)
  | severed (input : Intake) (prime : Int32) (child : Child)
  | spent (prime : Int32)
  | childReaped (prime : Int32)
  | done (prime : Option Int32) (left : Option Link)
  deriving Repr

namespace State

def phase : State → Phase
  | .awaitFirst _ _ => .awaitFirst
  | .filtering _ _ _ => .filtering
  | .draining _ _ _ => .draining
  | .severed _ _ _ => .draining
  | .spent _ => .draining
  | .childReaped _ => .childReaped
  | .done _ _ => .done

/-- The value a stage owns, if it has one. -/
def prime? : State → Option Int32
  | .awaitFirst _ earlier => earlier.map (·.1)
  | .filtering _ p _ => some p
  | .draining _ p _ => some p
  | .severed _ p _ => some p
  | .spent p => some p
  | .childReaped p => some p
  | .done p _ => p

end State

/-- What a finished stage has to say: the value it owned, how many values it
forwarded, and how many it dropped as multiples or skipped. -/
structure Report where
  prime : Option Int32 := none
  forwarded : Nat := 0
  discarded : Nat := 0
  deriving DecidableEq, Repr

/-- The smallest value that a stage accepts as its own. -/
def smallest : Int32 := 2

/-- A value that a stage under this ceiling accepts as its own. -/
def accepts (ceiling : Option Int32) (v : Int32) : Bool :=
  smallest ≤ v && (match ceiling with
    | none => true
    | some c => v < c)

/-- A value that a stage owning a prime forwards. -/
def passes (prime v : Int32) : Bool := v % prime != 0

end Stage

end SieveChain
