import SieveChain.Channel.Outbox
import SieveChain.Scripted.Sink

/-!
# Sending into a sink

Sending, closing and dropping an outbox over a scripted sink. Dropping makes one
attempt to write what is held and forgets how it went; closing does the same
after its own attempt has failed.
-/

namespace SieveChain.Outbox

open Scripted

/-- Writes out all that is held, as far as the sink allows. -/
def flush (o : Outbox) (s : Sink) : Except IoError Unit × Outbox × Sink :=
  match _he : o.isEmpty with
  | true => (.ok (), o, s)
  | false =>
    match _hs : s.write o.bytes with
    | (reply, s') =>
      match _ho : o.absorb reply with
      | (o', some r) => (r, o', s')
      | (o', none) => flush o' s'
termination_by (o.size, s.patience)
decreasing_by
  rcases absorb_none _ho _he with hlt | ⟨rfl, e, rfl, hi⟩
  · exact Prod.Lex.left _ _ hlt
  · exact Prod.Lex.right _ (Sink.patience_write _hs hi)

/-- Sends one value. If room has to be made and that fails, the value is not taken. -/
def send (o : Outbox) (v : Int32) (s : Sink) : Except IoError Unit × Outbox × Sink :=
  if o.hasRoom then (.ok (), o.put v, s)
  else
    match o.flush s with
    | (.ok (), o, s) => (.ok (), o.put v, s)
    | (.error e, o, s) => (.error e, o, s)

/-- Sends values up to the first failure, and counts those sent. -/
def sendAll (o : Outbox) (s : Sink) : List Int32 → Nat → Option IoError × Nat × Outbox × Sink
  | [], sent => (none, sent, o, s)
  | v :: vs, sent =>
    match o.send v s with
    | (.ok (), o, s) => sendAll o s vs (sent + 1)
    | (.error e, o, s) => (some e, sent, o, s)

def drop (o : Outbox) (s : Sink) : Sink := (o.flush s).2.2

def close (o : Outbox) (s : Sink) : Except IoError Nat × Sink :=
  match o.flush s with
  | (.ok (), o, s) => (.ok o.taken, s)
  | (.error e, o, s) => (.error e, o.drop s)

end SieveChain.Outbox
