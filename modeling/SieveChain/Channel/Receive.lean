import SieveChain.Channel.Intake
import SieveChain.Scripted.Source

/-!
# Receiving from a source

Receiving one value, and draining a stream to its end, over a scripted source.
-/

namespace SieveChain.Intake

open Scripted

/-- Reads until a value is complete, the stream has ended or a read has failed. -/
def receive (r : Intake) (s : Source) : Receipt × Intake × Source :=
  match _hr : r.absorb (s.read r.room).1 with
  | (r', some receipt) => (receipt, r', (s.read r.room).2)
  | (r', none) => receive r' (s.read r.room).2
termination_by s.remaining
decreasing_by exact Source.remaining_read rfl (absorb_none _hr)

/-- A received value has used up some of the source. -/
theorem remaining_receive {r r' : Intake} {s s' : Source} {v : Int32}
    (h : r.receive s = (.value v, r', s')) : s'.remaining < s.remaining := by
  fun_induction receive r s with
  | case1 r s q receipt hr =>
    simp only [Prod.mk.injEq] at h
    obtain ⟨rfl, rfl, rfl⟩ := h
    exact Source.remaining_read rfl (absorb_value hr)
  | case2 r s q hr ih =>
    exact Nat.lt_trans (ih h) (Source.remaining_read rfl (absorb_none hr))

/-- How draining a stream comes out: the values skipped before its end, and the
bytes of an incomplete value there, or the error that stopped it. -/
inductive Drained
  | ended (skipped torn : Nat)
  | failed (error : IoError)

/-- Receives and skips values until the stream ends or a read fails. -/
def drain (r : Intake) (s : Source) (skipped : Nat) : Drained × Intake × Source :=
  match _h : r.receive s with
  | (.value _, r', s') => drain r' s' (skipped + 1)
  | (.ended torn, r', s') => (.ended skipped torn, r', s')
  | (.failed e, r', s') => (.failed e, r', s')
termination_by s.remaining
decreasing_by exact remaining_receive _h

end SieveChain.Intake
