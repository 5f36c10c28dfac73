import SieveChain.Scripted.Surroundings
import SieveChain.Stage.Slots
import SieveChain.Feeder

/-!
# Calls and runs in scripted surroundings

A call on a stage, the run of a stage and the run of a feeder, driven to their end; a stage is
given by its state or by its slots. There is no outcome while a child is waited for whose end is
not known.
-/

namespace SieveChain

open Scripted

def Stage.Activity.perform (a : Stage.Activity) (w : Surroundings) :
    Option (Stage × Except Fault Stage.Phase) × Surroundings :=
  let (a, w) := w.drive (w.allowance Outbox.capacity) a
  (a.outcome?, w)

def Stage.run (s : Stage) (w : Surroundings) :
    Option (Stage × Except Fault Stage.Report) × Surroundings :=
  let (r, w) := w.drive (w.allowance Outbox.capacity) (Stage.Run.start s)
  (r.outcome?, w)

def Stage.Slots.Activity.perform (a : Stage.Slots.Activity) (w : Surroundings) :
    Option (Stage.Slots × Except Fault Stage.Phase) × Surroundings :=
  let (a, w) := w.drive (w.allowance Outbox.capacity) a
  (a.outcome?, w)

def Stage.Slots.run (s : Stage.Slots) (w : Surroundings) :
    Option (Stage.Slots × Except Fault Stage.Report) × Surroundings :=
  let (r, w) := w.drive (w.allowance Outbox.capacity) (Stage.Slots.Run.start s)
  (r.outcome?, w)

/-- How a feeder has run. -/
structure Feeder.Outcome where
  result : Except Fault Nat
  notices : List Notice

def Feeder.perform (c : Candidates) (w : Surroundings) : Option Feeder.Outcome × Surroundings :=
  let (r, w) := w.drive (w.allowance (Wire.width * c.count)) (Feeder.run c)
  (r.outcome?.map fun result => { result, notices := r.notices.toList }, w)

end SieveChain
