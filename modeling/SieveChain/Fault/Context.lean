import SieveChain.Fault.Basic

/-!
# Putting faults into context

A context is given either as a text or as an action that yields one. The action
runs only if there is a fault to wrap.
-/

namespace SieveChain

/-- A result, with a context around its fault if it is one. -/
def inContext {α : Type} (context : String) : Except Fault α → Except Fault α
  | .ok a => .ok a
  | .error f => .error (.within context f)

/-- A result, with a context made on demand around its fault. -/
def inContextOf {m : Type → Type} [Monad m] {α : Type} (context : m String) :
    Except Fault α → m (Except Fault α)
  | .ok a => pure (.ok a)
  | .error f => do return .error (.within (← context) f)

/-- A failed operation on a byte stream, as a fault. -/
def ofIo {α : Type} : Except IoError α → Except Fault α
  | .ok a => .ok a
  | .error e => .error (.io e)

/-- A context together with the way it is handed over. -/
structure Wrapping where
  text : String
  onDemand : Bool
  deriving Repr

/-- Applies contexts from the innermost outwards. The state counts how often a
context was made on demand. -/
def wrapAll {α : Type} : List Wrapping → Except Fault α → StateM Nat (Except Fault α)
  | [], r => pure r
  | w :: ws, r => do
    if w.onDemand then
      wrapAll ws (← inContextOf (do modify (· + 1); pure w.text) r)
    else
      wrapAll ws (inContext w.text r)

end SieveChain
