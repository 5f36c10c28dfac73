import SieveChain.Scripted.Surroundings

/-!
# Accounts

Whatever surrounds a party, its moves are answered one after the other. An account sums up
what these answers have been: the bytes that came in, what was put on the record, what was
sent to the child, and which ends have been given up. It forgets how the bytes were divided
among reads and writes. An account is *smooth* as long as no operation has failed.
-/

namespace SieveChain

open Scripted

/-- No read brings more bytes than there is room for. -/
def ReadReply.Fits (room : Nat) : ReadReply → Prop
  | .got bytes => bytes.length ≤ room
  | .failed _ => True

/-- No write takes more bytes than it is offered. -/
def WriteReply.Fits (bytes : List UInt8) : WriteReply → Prop
  | .took n => n ≤ bytes.length
  | .failed _ => True

/-- A write goes well if it takes some bytes, or is only interrupted. -/
def WriteReply.goesWell : WriteReply → Bool
  | .took n => n != 0
  | .failed e => e.isInterrupted

namespace Move

variable {σ τ : Type}

/-- An answer to a move: what happens, if anything does, and how the party goes on. -/
inductive Answered : Move σ → Option Event → σ → Prop
  | read {room : Nat} {next : ReadReply → σ} {reply : ReadReply} (fits : reply.Fits room) :
      Answered (.read room next) (some (.read reply)) (next reply)
  | record {bytes : List UInt8} {next : WriteReply → σ} {reply : WriteReply}
      (fits : reply.Fits bytes) :
      Answered (.record bytes next)
        (some (.recorded (Surroundings.accepted bytes reply) reply)) (next reply)
  | commit {next : Except IoError Unit → σ} (result : Except IoError Unit) :
      Answered (.commit next) (some (.committed result)) (next result)
  | launch {next : Except Fault Child → σ} (result : Except Fault Child) :
      Answered (.launch next) (some (.launched result)) (next result)
  | send {child : Child} {bytes : List UInt8} {next : WriteReply → σ} {reply : WriteReply}
      (fits : reply.Fits bytes) :
      Answered (.send child bytes next)
        (some (.sent child (Surroundings.accepted bytes reply) reply)) (next reply)
  | shut {child : Child} {next : σ} : Answered (.shut child next) (some (.shut child)) next
  | leave {next : σ} : Answered (.leave next) (some .left) next
  | reap {child : Child} {next : Except Fault Unit → σ} (result : Except Fault Unit) :
      Answered (.reap child next) (some (.reaped child result)) (next result)
  | forsake {child : Child} {next : σ} :
      Answered (.forsake child next) (some (.forsaken child)) next
  | proceed {next : σ} : Answered (.proceed next) none next

theorem Answered.of_map {f : σ → τ} {m : Move σ} {e : Option Event} {q : τ}
    (h : (m.map f).Answered e q) : ∃ p, m.Answered e p ∧ q = f p := by
  cases m <;> cases h
  case read next _ fits => exact ⟨_, .read fits, rfl⟩
  case record next _ fits => exact ⟨_, .record fits, rfl⟩
  case commit next result => exact ⟨_, .commit result, rfl⟩
  case launch next result => exact ⟨_, .launch result, rfl⟩
  case send next _ fits => exact ⟨_, .send fits, rfl⟩
  case shut next => exact ⟨_, .shut, rfl⟩
  case leave next => exact ⟨_, .leave, rfl⟩
  case reap next result => exact ⟨_, .reap result, rfl⟩
  case forsake next => exact ⟨_, .forsake, rfl⟩
  case proceed next => exact ⟨_, .proceed, rfl⟩

theorem Answered.map {m : Move σ} {e : Option Event} {q : σ} (h : m.Answered e q) (f : σ → τ) :
    (m.map f).Answered e (f q) := by
  cases h with
  | read fits => exact .read fits
  | record fits => exact .record fits
  | commit result => exact .commit result
  | launch result => exact .launch result
  | send fits => exact .send fits
  | shut => exact .shut
  | leave => exact .leave
  | reap result => exact .reap result
  | forsake => exact .forsake
  | proceed => exact .proceed

end Move

/-- What has happened around a party, summed up. -/
structure Account where
  received : List UInt8 := []
  /-- A read has found the stream ended. -/
  ended : Bool := false
  recorded : List UInt8 := []
  committed : Bool := false
  launches : Nat := 0
  child : Option Child := none
  sent : List UInt8 := []
  shut : Bool := false
  left : Bool := false
  reaped : Bool := false
  smooth : Bool := true

namespace Account

/-- Adds an event. -/
def add (a : Account) : Event → Account
  | .read (.got []) => { a with ended := true }
  | .read (.got bytes) => { a with received := a.received ++ bytes }
  | .read (.failed e) => { a with smooth := a.smooth && e.isInterrupted }
  | .recorded accepted reply =>
    { a with recorded := a.recorded ++ accepted, smooth := a.smooth && reply.goesWell }
  | .committed result =>
    { a with committed := result.isOk, smooth := a.smooth && result.isOk }
  | .launched (.ok child) => { a with launches := a.launches + 1, child := some child }
  | .launched (.error _) => { a with launches := a.launches + 1, smooth := false }
  | .sent _ accepted reply =>
    { a with sent := a.sent ++ accepted, smooth := a.smooth && reply.goesWell }
  | .shut _ => { a with shut := true }
  | .left => { a with left := true }
  | .reaped _ result => { a with reaped := true, smooth := a.smooth && result.isOk }
  | .forsaken _ => a

/-- Adds an event, if there is one. -/
def after (a : Account) : Option Event → Account
  | none => a
  | some e => a.add e

/-- The account of a trace. -/
def ofTrace (events : List Event) : Account := events.foldl add {}

theorem ofTrace_append (events : List Event) (e : Option Event) :
    ofTrace (events ++ e.toList) = (ofTrace events).after e := by
  cases e with
  | none => rw [Option.toList_none, List.append_nil, after]
  | some e => rw [ofTrace, List.foldl_append]; rfl

section Events

variable (a : Account)

/-! How the single events change an account. -/

theorem add_bytes (b : UInt8) (bs : List UInt8) :
    a.add (.read (.got (b :: bs))) = { a with received := a.received ++ b :: bs } := rfl

theorem add_end : a.add (.read (.got [])) = { a with ended := true } := rfl

theorem add_read_interrupted {e : IoError} (hi : e.isInterrupted = true) :
    a.add (.read (.failed e)) = a := by
  rw [add, hi, Bool.and_true]

theorem add_read_failed {e : IoError} (hi : e.isInterrupted = false) :
    a.add (.read (.failed e)) = { a with smooth := false } := by
  rw [add, hi, Bool.and_false]

theorem add_recorded_interrupted (bytes : List UInt8) {e : IoError}
    (hi : e.isInterrupted = true) :
    a.add (.recorded (Surroundings.accepted bytes (.failed e)) (.failed e)) = a := by
  rw [add, WriteReply.goesWell, hi, Bool.and_true, Surroundings.accepted, List.append_nil]

theorem add_recorded_failed (bytes : List UInt8) {e : IoError} (hi : e.isInterrupted = false) :
    a.add (.recorded (Surroundings.accepted bytes (.failed e)) (.failed e)) =
      { a with smooth := false } := by
  rw [add, WriteReply.goesWell, hi, Bool.and_false, Surroundings.accepted, List.append_nil]

theorem add_recorded_stuck (bytes : List UInt8) :
    a.add (.recorded (Surroundings.accepted bytes (.took 0)) (.took 0)) =
      { a with smooth := false } := by
  rw [add, WriteReply.goesWell, bne_self_eq_false, Bool.and_false, Surroundings.accepted,
    List.take_zero, List.append_nil]

/-- A read that brings anything or finds the end changes nothing else. -/
theorem add_got (bytes : List UInt8) :
    (a.add (.read (.got bytes))).sent = a.sent ∧ (a.add (.read (.got bytes))).shut = a.shut ∧
      (a.add (.read (.got bytes))).child = a.child ∧
      (a.add (.read (.got bytes))).recorded = a.recorded ∧
      (a.add (.read (.got bytes))).smooth = a.smooth := by
  cases bytes <;> exact ⟨rfl, rfl, rfl, rfl, rfl⟩

theorem add_recorded_took (bytes : List UInt8) (n : Nat) :
    a.add (.recorded (Surroundings.accepted bytes (.took (n + 1))) (.took (n + 1))) =
      { a with recorded := a.recorded ++ bytes.take (n + 1) } := by
  have hg : (WriteReply.took (n + 1)).goesWell = true := rfl
  rw [add, hg, Bool.and_true, Surroundings.accepted]

theorem add_recorded_all {bytes : List UInt8} (hne : bytes ≠ []) :
    a.add (.recorded (Surroundings.accepted bytes (.took bytes.length)) (.took bytes.length)) =
      { a with recorded := a.recorded ++ bytes } := by
  obtain ⟨n, hn⟩ := Nat.exists_eq_succ_of_ne_zero fun hz => hne (List.length_eq_zero_iff.1 hz)
  rw [hn, Nat.succ_eq_add_one, add_recorded_took, ← Nat.succ_eq_add_one, ← hn, List.take_length]

theorem add_sent_interrupted (child : Child) (bytes : List UInt8) {e : IoError}
    (hi : e.isInterrupted = true) :
    a.add (.sent child (Surroundings.accepted bytes (.failed e)) (.failed e)) = a := by
  rw [add, WriteReply.goesWell, hi, Bool.and_true, Surroundings.accepted, List.append_nil]

theorem add_sent_failed (child : Child) (bytes : List UInt8) {e : IoError}
    (hi : e.isInterrupted = false) :
    a.add (.sent child (Surroundings.accepted bytes (.failed e)) (.failed e)) =
      { a with smooth := false } := by
  rw [add, WriteReply.goesWell, hi, Bool.and_false, Surroundings.accepted, List.append_nil]

theorem add_sent_stuck (child : Child) (bytes : List UInt8) :
    a.add (.sent child (Surroundings.accepted bytes (.took 0)) (.took 0)) =
      { a with smooth := false } := by
  rw [add, WriteReply.goesWell, bne_self_eq_false, Bool.and_false, Surroundings.accepted,
    List.take_zero, List.append_nil]

theorem add_sent_took (child : Child) (bytes : List UInt8) (n : Nat) :
    a.add (.sent child (Surroundings.accepted bytes (.took (n + 1))) (.took (n + 1))) =
      { a with sent := a.sent ++ bytes.take (n + 1) } := by
  have hg : (WriteReply.took (n + 1)).goesWell = true := rfl
  rw [add, hg, Bool.and_true, Surroundings.accepted]

theorem add_sent_all (child : Child) {bytes : List UInt8} (hne : bytes ≠ []) :
    a.add (.sent child (Surroundings.accepted bytes (.took bytes.length)) (.took bytes.length)) =
      { a with sent := a.sent ++ bytes } := by
  obtain ⟨n, hn⟩ := Nat.exists_eq_succ_of_ne_zero fun hz => hne (List.length_eq_zero_iff.1 hz)
  rw [hn, Nat.succ_eq_add_one, add_sent_took, ← Nat.succ_eq_add_one, ← hn, List.take_length]

theorem add_committed : a.add (.committed (.ok ())) = { a with committed := true } := by
  rw [add, Except.isOk, Except.toBool, Bool.and_true]

theorem add_uncommitted (e : IoError) :
    a.add (.committed (.error e)) = { a with committed := false, smooth := false } := by
  rw [add, Except.isOk, Except.toBool, Bool.and_false]

theorem add_reaped_ok (child : Child) :
    a.add (.reaped child (.ok ())) = { a with reaped := true } := by
  rw [add, Except.isOk, Except.toBool, Bool.and_true]

theorem add_reaped_error (child : Child) (f : Fault) :
    a.add (.reaped child (.error f)) = { a with reaped := true, smooth := false } := by
  rw [add, Except.isOk, Except.toBool, Bool.and_false]

end Events

theorem reaped_after {a : Account} (h : a.reaped = true) (e : Option Event) :
    (a.after e).reaped = true := by
  cases e with
  | none => exact h
  | some e =>
    cases e with
    | read reply =>
      cases reply with
      | got bytes => cases bytes <;> exact h
      | failed e => exact h
    | launched result => cases result <;> exact h
    | reaped child result => rfl
    | _ => exact h

/-- A failure is never made good. -/
theorem not_smooth_after {a : Account} (h : a.smooth = false) (e : Option Event) :
    (a.after e).smooth = false := by
  have hand : ∀ b : Bool, (a.smooth && b) = false := by
    intro b
    rw [h]
    rfl
  cases e with
  | none => exact h
  | some e =>
    cases e with
    | read reply =>
      cases reply with
      | got bytes => cases bytes <;> exact h
      | failed e => exact hand _
    | recorded accepted reply => exact hand _
    | committed result => exact hand _
    | launched result =>
      cases result with
      | ok child => exact h
      | error f => rfl
    | sent child accepted reply => exact hand _
    | reaped child result => exact hand _
    | shut child => exact h
    | left => exact h
    | forsaken child => exact h

/-- Nothing has come of the party but reads. -/
structure Bare (a : Account) : Prop where
  recorded : a.recorded = []
  committed : a.committed = false
  child : a.child = none
  sent : a.sent = []
  shut : a.shut = false
  reaped : a.reaped = false

/-- Everything is still held. -/
structure Holding (a : Account) : Prop where
  shut : a.shut = false
  left : a.left = false
  reaped : a.reaped = false

end Account

/-- What a party may ask for with what has happened so far: the record is open to it from
the launch of its child until it has committed its line, the channel to the child from then
on until it is given up; the input is given up after the channel, and the child is reaped
last. -/
def Move.Permitted {σ : Type} (a : Account) : Move σ → Prop
  | .read room _ => 0 < room ∧ a.left = false ∧ a.ended = false ∧ a.smooth = true
  | .record bytes _ => bytes ≠ [] ∧ a.child.isSome = true ∧ a.sent = [] ∧ a.shut = false
  | .commit _ => a.child.isSome = true ∧ a.sent = [] ∧ a.shut = false
  | .launch _ => a.launches = 0 ∧ a.child = none ∧ a.sent = [] ∧ a.shut = false
  | .send child bytes _ => bytes ≠ [] ∧ a.child = some child ∧ a.shut = false
  | .shut child _ => a.child = some child ∧ a.shut = false
  | .leave _ => a.left = false ∧ (a.child.isSome = true → a.shut = true)
  | .reap child _ => a.child = some child ∧ a.shut = true ∧ a.reaped = false
  | .forsake _ _ => False
  | .proceed _ => True
  | .rest => True

namespace Move

variable {σ τ : Type} {a : Account}

theorem Permitted.map {f : σ → τ} {m : Move σ} (h : m.Permitted a) : (m.map f).Permitted a := by
  cases m <;> exact h

/-- Once the channel has been given up, nothing more is sent or recorded, and no other
child is launched. -/
theorem Permitted.sealed {m : Move σ} {e : Option Event} {q : σ} (h : m.Permitted a)
    (hm : m.Answered e q) (hs : a.shut = true) :
    (a.after e).shut = true ∧ (a.after e).sent = a.sent ∧
      (a.after e).recorded = a.recorded ∧ (a.after e).child = a.child := by
  cases hm with
  | @read room next reply fits =>
    cases reply with
    | got bytes => cases bytes <;> exact ⟨hs, rfl, rfl, rfl⟩
    | failed e => exact ⟨hs, rfl, rfl, rfl⟩
  | record fits => exact absurd hs (by rw [h.2.2.2]; exact Bool.false_ne_true)
  | send fits => exact absurd hs (by rw [h.2.2]; exact Bool.false_ne_true)
  | launch result => exact absurd hs (by rw [h.2.2.2]; exact Bool.false_ne_true)
  | commit result => exact ⟨hs, rfl, rfl, rfl⟩
  | shut => exact ⟨rfl, rfl, rfl, rfl⟩
  | leave => exact ⟨hs, rfl, rfl, rfl⟩
  | reap result => exact ⟨hs, rfl, rfl, rfl⟩
  | forsake => exact ⟨hs, rfl, rfl, rfl⟩
  | proceed => exact ⟨hs, rfl, rfl, rfl⟩

end Move

/-! ## What replies bring -/

/-- What a read brings that may call for further moves. -/
def ReadReply.brings : ReadReply → Nat
  | .got bytes => 2 * bytes.length
  | .failed _ => 1

/-- What a write brings that may call for further moves: an interruption. -/
def WriteReply.brings : WriteReply → Nat
  | .took _ => 0
  | .failed e => if e.isInterrupted then 1 else 0

/-- What an event brings that may call for further moves. -/
def Event.brings : Option Event → Nat
  | some (.read reply) => reply.brings
  | some (.recorded _ reply) => reply.brings
  | some (.sent _ _ reply) => reply.brings
  | _ => 0

theorem Event.brings_recorded {accepted : List UInt8} {e : IoError}
    (hi : e.isInterrupted = true) : brings (some (.recorded accepted (.failed e))) = 1 :=
  if_pos hi

theorem Event.brings_sent {child : Child} {accepted : List UInt8} {e : IoError}
    (hi : e.isInterrupted = true) : brings (some (.sent child accepted (.failed e))) = 1 :=
  if_pos hi

end SieveChain
