import SieveChain.Fault.Io

/-!
# Scripted sinks

A byte sink that behaves as its script says: it may take only so many bytes per
call, refuse calls once it has taken a given number of bytes, for a while or for
good, and fail whenever it is flushed. Interruptions come in finite numbers, so
whoever repeats an interrupted write comes to an end.
-/

namespace SieveChain.Scripted

/-- How a sink refuses writes: how often, or for good. -/
inductive Hurdle
  | interruptions (times : Nat)
  | failures (error : IoError) (lasting : error.isInterrupted = false) (times : Option Nat)
  | zeros (times : Option Nat)

/-- A hurdle that stands once so many more bytes have been taken. -/
structure Barrier where
  distance : Nat
  hurdle : Hurdle

/-- One fewer of a counted number of times; `none` when they are used up. -/
def countdown : Option Nat → Option (Option Nat)
  | none => some none
  | some 0 => none
  | some (n + 1) => some (some n)

/-- The answer to an offer of so many bytes, and the barriers that remain. -/
def respond (offer : Nat) : List Barrier → WriteReply × List Barrier
  | [] => (.took offer, [])
  | ⟨d + 1, h⟩ :: rest =>
    let n := min offer (d + 1)
    (.took n, ⟨d + 1 - n, h⟩ :: rest)
  | ⟨0, .interruptions 0⟩ :: rest => respond offer rest
  | ⟨0, .interruptions (n + 1)⟩ :: rest =>
    (.failed ⟨.interrupted, none⟩, ⟨0, .interruptions n⟩ :: rest)
  | ⟨0, .failures e hard times⟩ :: rest =>
    match countdown times with
    | none => respond offer rest
    | some left => (.failed e, ⟨0, .failures e hard left⟩ :: rest)
  | ⟨0, .zeros times⟩ :: rest =>
    match countdown times with
    | none => respond offer rest
    | some left => (.took 0, ⟨0, .zeros left⟩ :: rest)

def patience : List Barrier → Nat
  | [] => 0
  | ⟨_, .interruptions n⟩ :: rest => n + patience rest
  | _ :: rest => patience rest

/-- Every interruption uses one up. -/
theorem patience_respond {offer : Nat} {bs bs' : List Barrier} {e : IoError}
    (h : respond offer bs = (.failed e, bs')) (he : e.isInterrupted = true) :
    patience bs' < patience bs := by
  fun_induction respond offer bs with
  | case1 => simp at h
  | case2 => simp at h
  | case3 rest ih => simpa [patience] using ih h
  | case4 n rest =>
    simp only [Prod.mk.injEq, WriteReply.failed.injEq] at h
    obtain ⟨-, rfl⟩ := h
    simp only [patience]; omega
  | case5 e' hard times rest hc ih => simpa [patience] using ih h
  | case6 e' hard times rest left hc =>
    simp only [Prod.mk.injEq, WriteReply.failed.injEq] at h
    obtain ⟨rfl, -⟩ := h
    simp [hard] at he
  | case7 times rest hc ih => simpa [patience] using ih h
  | case8 => simp at h

/-- A byte sink with its script, and what it has taken so far. -/
structure Sink where
  perCall : Option Nat := none
  barriers : List Barrier := []
  flushing : Option IoError := none
  accepted : Array UInt8 := #[]
  flushes : Nat := 0

namespace Sink

/-- How many of the bytes of an offer a sink looks at in one call. -/
def share (s : Sink) (bytes : List UInt8) : Nat :=
  match s.perCall with
  | none => bytes.length
  | some most => (bytes.take most).length

/-- The answer to an offer, and the barriers that remain. -/
def answer (s : Sink) (bytes : List UInt8) : WriteReply × List Barrier :=
  respond (s.share bytes) s.barriers

def after (s : Sink) (bytes : List UInt8) : WriteReply × List Barrier → Sink
  | (.took n, barriers) => { s with barriers, accepted := s.accepted ++ bytes.take n }
  | (.failed _, barriers) => { s with barriers }

def write (s : Sink) (bytes : List UInt8) : WriteReply × Sink :=
  let answer := s.answer bytes
  (answer.1, s.after bytes answer)

def flush (s : Sink) : Except IoError Unit × Sink :=
  let s := { s with flushes := s.flushes + 1 }
  match s.flushing with
  | none => (.ok (), s)
  | some e => (.error e, s)

def patience (s : Sink) : Nat := Scripted.patience s.barriers

theorem patience_write {s s' : Sink} {bytes : List UInt8} {e : IoError}
    (h : s.write bytes = (.failed e, s')) (he : e.isInterrupted = true) :
    s'.patience < s.patience := by
  unfold write at h
  match ha : s.answer bytes with
  | (.took n, barriers) => simp [ha] at h
  | (.failed e', barriers) =>
    simp only [ha, after, Prod.mk.injEq, WriteReply.failed.injEq] at h
    obtain ⟨rfl, rfl⟩ := h
    exact patience_respond ha he

end Sink

end SieveChain.Scripted
