import SieveChain.Fault.Io
import SieveChain.Wire.Value

/-!
# Receiving values

The receiving end of a channel puts values together from the bytes of successive
reads. A stream that ends, or fails, in the middle of a value loses the bytes of
that value; an ending is then reported like a clean one. Interrupted reads are
repeated.
-/

namespace SieveChain

/-- The bytes of the value under way, and how many values have been received. -/
structure Intake where
  held : List UInt8 := []
  received : Nat := 0
  deriving DecidableEq, Repr

/-- How an attempt to receive a value comes out. A stream may end with up to three
bytes of an incomplete value. -/
inductive Receipt
  | value (v : Int32)
  | ended (torn : Nat)
  | failed (error : IoError)
  deriving DecidableEq, Repr

namespace Intake

def room (r : Intake) : Nat := Wire.width - r.held.length

/-- What one read means for the value under way. No receipt means that another
read is due. -/
def absorb (r : Intake) : ReadReply → Intake × Option Receipt
  | .failed e => if e.isInterrupted then (r, none) else ({ r with held := [] }, some (.failed e))
  | .got [] => ({ r with held := [] }, some (.ended r.held.length))
  | .got (b :: bs) =>
    match Wire.decode? (r.held ++ b :: bs) with
    | some v => ({ held := [], received := r.received + 1 }, some (.value v))
    | none => ({ r with held := r.held ++ b :: bs }, none)

/-- Only bytes or an interruption call for another read. -/
theorem absorb_none {r r' : Intake} {reply : ReadReply} (h : r.absorb reply = (r', none)) :
    reply ≠ .got [] := by
  rintro rfl
  simp [absorb] at h

/-- Only bytes complete a value. -/
theorem absorb_value {r r' : Intake} {reply : ReadReply} {v : Int32}
    (h : r.absorb reply = (r', some (.value v))) : reply ≠ .got [] := by
  rintro rfl
  simp [absorb] at h

end Intake

end SieveChain
