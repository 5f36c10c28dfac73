import SieveChain.Fault.Io
import SieveChain.Stage.Basic

/-!
# Moves

A stage and a feeder do their work one operation at a time. A *move* is the next
operation of such a party, together with what becomes of the party for each
answer that its surroundings may give. Parties know nothing of their
surroundings: the same moves are answered by a script, by the chain of stages
that grows below a stage, or by any interleaving of concurrent parties.
-/

namespace SieveChain

/-- The next operation of a party in state `σ`. -/
inductive Move (σ : Type)
  /-- One read from the input, of at most so many bytes. -/
  | read (room : Nat) (next : ReadReply → σ)
  /-- One write to the record. -/
  | record (bytes : List UInt8) (next : WriteReply → σ)
  /-- One flush of the record. -/
  | commit (next : Except IoError Unit → σ)
  /-- Launching a child on a fresh channel. -/
  | launch (next : Except Fault Child → σ)
  /-- One write to the channel of a child. -/
  | send (child : Child) (bytes : List UInt8) (next : WriteReply → σ)
  /-- Giving up the sending end of a child's channel. -/
  | shut (child : Child) (next : σ)
  /-- Giving up the input. -/
  | leave (next : σ)
  /-- Waiting for a child to finish. -/
  | reap (child : Child) (next : Except Fault Unit → σ)
  /-- Giving up a child without waiting for it. -/
  | forsake (child : Child) (next : σ)
  /-- A step that touches nothing outside the party. -/
  | proceed (next : σ)
  /-- Nothing is left to do. -/
  | rest

namespace Move

/-- The same operation, with the state of the party seen as part of another. -/
def map {σ τ : Type} (f : σ → τ) : Move σ → Move τ
  | .read room next => .read room fun a => f (next a)
  | .record bytes next => .record bytes fun a => f (next a)
  | .commit next => .commit fun a => f (next a)
  | .launch next => .launch fun a => f (next a)
  | .send child bytes next => .send child bytes fun a => f (next a)
  | .shut child next => .shut child (f next)
  | .leave next => .leave (f next)
  | .reap child next => .reap child fun a => f (next a)
  | .forsake child next => .forsake child (f next)
  | .proceed next => .proceed (f next)
  | .rest => .rest

end Move

/-- States of a party that say what the party does next. -/
class Party (σ : Type) where
  move : σ → Move σ

end SieveChain
