import SieveChain.Record.Entry
import SieveChain.Scripted.Sink

/-!
# Emitting a record line

A whole line is written to a sink and committed by one flush. The result is good
exactly when both succeed; the sink never holds more than the line.
-/

namespace SieveChain.Record

open Scripted

/-- What is left of a line, counted so that every accepted write lowers it. -/
def Entry.weight (e : Entry) : Nat := e.pieces.flatten.length + e.pieces.length

theorem Entry.absorb_took {e e' : Entry} {n : Nat} (h : e.absorb (.took n) = .ok e')
    (hp : e.pieces ≠ []) : e'.weight < e.weight := by
  cases n with
  | zero => simp [absorb] at h
  | succ n =>
    cases hpieces : e.pieces with
    | nil => exact absurd hpieces hp
    | cons piece rest =>
      simp only [absorb, hpieces] at h
      split at h <;> simp only [Except.ok.injEq] at h <;> subst h <;>
        simp only [weight, hpieces, List.flatten_cons, List.length_append, List.length_cons,
          List.length_drop] <;> omega

def writeEntry (e : Entry) (s : Sink) : Except IoError Unit × Sink :=
  match _hp : e.pieces with
  | [] => (.ok (), s)
  | piece :: _ =>
    match _hw : s.write piece with
    | (reply, s') =>
      match _ha : e.absorb reply with
      | .error error => (.error error, s')
      | .ok e' => writeEntry e' s'
termination_by (e.weight, s.patience)
decreasing_by
  cases reply with
  | took n =>
    exact Prod.Lex.left _ _ (Entry.absorb_took _ha (by simp [_hp]))
  | failed error =>
    simp only [Entry.absorb] at _ha
    split at _ha
    · next hi =>
      simp only [Except.ok.injEq] at _ha
      subst _ha
      exact Prod.Lex.right _ (Sink.patience_write _hw hi)
    · simp at _ha

def emit (v : Int32) (s : Sink) : Except IoError Unit × Sink :=
  match writeEntry (Entry.ofValue v) s with
  | (.error e, s) => (.error e, s)
  | (.ok (), s) => s.flush

end SieveChain.Record
