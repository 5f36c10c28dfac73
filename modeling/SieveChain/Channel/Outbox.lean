import SieveChain.Fault.Io
import SieveChain.Wire.Value

/-!
# Sending values

The sending end of a channel collects the bytes of values and hands them on in
large writes. A value is only taken once there is room for it; to make room, the
whole of what is held is written out first. Bytes leave the outbox as soon as
they are accepted, so a failed write loses and repeats nothing.
-/

namespace SieveChain

/-- The bytes held back, and how many values have been taken. The bytes are a queue:
those in front are in their order, and of those behind the last comes first. -/
structure Outbox where
  front : List UInt8 := []
  behind : List UInt8 := []
  size : Nat := 0
  size_eq : size = front.length + behind.length := by rfl
  taken : Nat := 0
  deriving Repr

namespace Outbox

def empty : Outbox := {}

/-- The most bytes an outbox holds back. -/
def capacity : Nat := 8192

/-- There is room for one more value. -/
def hasRoom (o : Outbox) : Bool := o.size + Wire.width ≤ capacity

/-- Nothing is held back. -/
def isEmpty (o : Outbox) : Bool := o.size == 0

/-- The bytes offered to a write: all that are held back. -/
def bytes (o : Outbox) : List UInt8 :=
  if o.behind.isEmpty then o.front else o.front ++ o.behind.reverse

theorem bytes_eq (o : Outbox) : o.bytes = o.front ++ o.behind.reverse := by
  unfold bytes
  split
  · next h => simp [List.isEmpty_iff.1 h]
  · rfl

@[simp] theorem length_bytes (o : Outbox) : o.bytes.length = o.size := by
  simp [bytes_eq, o.size_eq]

def put (o : Outbox) (v : Int32) : Outbox :=
  { front := o.front
    behind := (Wire.encode v).reverse ++ o.behind
    size := o.size + Wire.width
    size_eq := by simp [o.size_eq]; omega
    taken := o.taken + 1 }

/-- The bytes of a value come behind all others. -/
theorem bytes_put (o : Outbox) (v : Int32) : (o.put v).bytes = o.bytes ++ Wire.encode v := by
  simp [bytes_eq, put]

def advance (o : Outbox) (n : Nat) : Outbox :=
  { front := o.bytes.drop n, behind := [], size := o.size - n, size_eq := by simp,
    taken := o.taken }

theorem bytes_advance (o : Outbox) (n : Nat) : (o.advance n).bytes = o.bytes.drop n := rfl

def stuck : IoError := ⟨.writeZero, some "failed to write the buffered data"⟩

/-- What one write means for the bytes held. No result means that another write is
due; success means that all has been written. -/
def absorb (o : Outbox) : WriteReply → Outbox × Option (Except IoError Unit)
  | .failed e => if e.isInterrupted then (o, none) else (o, some (.error e))
  | .took 0 => (o, some (.error stuck))
  | .took (n + 1) =>
    let o' := o.advance (n + 1)
    (o', if o'.isEmpty then some (.ok ()) else none)

theorem absorb_none {o o' : Outbox} {reply : WriteReply} (h : o.absorb reply = (o', none))
    (hne : o.isEmpty = false) :
    o'.size < o.size ∨
      (o' = o ∧ ∃ e, reply = .failed e ∧ e.isInterrupted = true) := by
  cases reply with
  | failed e =>
    simp only [absorb] at h
    split at h
    · next hi =>
      simp only [Prod.mk.injEq, and_true] at h
      exact Or.inr ⟨h.symm, e, rfl, hi⟩
    · simp at h
  | took n =>
    cases n with
    | zero => simp [absorb] at h
    | succ n =>
      simp only [absorb, Prod.mk.injEq] at h
      obtain ⟨rfl, -⟩ := h
      have : o.size ≠ 0 := by
        simpa [isEmpty] using hne
      simp only [advance]; omega

end Outbox

end SieveChain
