import SieveChain.Channel.Receive
import SieveChain.Proofs.Driving
import SieveChain.Proofs.Sieving
import SieveChain.Scripted.Perform
import Mathlib.Data.List.Induction

/-!
# The order of a run

A stage takes and gives up what it holds in one order, whichever of its operations fails.
Each event of its trace is allowed by the events before it; what is allowed only once is
counted by the flag that it sets. So the trace of a run can be read from either end: a
launch comes before the line, the line before anything is sent, both channel ends go
before the child is reaped, and a run that has finished holds nothing.
-/

namespace SieveChain

/-! ## Tallies -/

namespace Event

def isLaunch : Event → Bool
  | .launched _ => true
  | _ => false

/-- A launch that has given a child. -/
def isStart : Event → Bool
  | .launched (.ok _) => true
  | _ => false

def isShut : Event → Bool
  | .shut _ => true
  | _ => false

def isLeft : Event → Bool
  | .left => true
  | _ => false

def isReap : Event → Bool
  | .reaped _ _ => true
  | _ => false

end Event

namespace Account

theorem ofTrace_concat (events : List Event) (e : Event) :
    ofTrace (events ++ [e]) = (ofTrace events).add e := ofTrace_append events (some e)

/-- Each event of a trace is allowed by the account of those before it. -/
def Lawful (allows : Account → Event → Prop) (events : List Event) : Prop :=
  ∀ before e after, events = before ++ e :: after → allows (ofTrace before) e

variable {allows : Account → Event → Prop} {events : List Event} {e : Event}

theorem Lawful.nil : Lawful allows [] := by
  intro before e after h
  simp at h

theorem Lawful.concat (h : Lawful allows events) (he : allows (ofTrace events) e) :
    Lawful allows (events ++ [e]) := by
  intro before e' after heq
  rcases List.eq_nil_or_concat after with rfl | ⟨after, e'', rfl⟩
  · obtain ⟨rfl, hlast⟩ := List.append_inj' heq rfl
    cases hlast
    exact he
  · rw [List.concat_eq_append, ← List.cons_append, ← List.append_assoc] at heq
    exact h before e' after (List.append_inj' heq rfl).1

theorem Lawful.last (h : Lawful allows (events ++ [e])) : allows (ofTrace events) e :=
  h events e [] rfl

theorem Lawful.of_append {before after : List Event} (h : Lawful allows (before ++ after)) :
    Lawful allows before := by
  intro before' e after' heq
  apply h before' e (after' ++ after)
  rw [heq, List.append_assoc, List.cons_append]

/-- Each flag of an account is raised by events of its own kind, and lowered by none. -/
theorem flags_add (a : Account) (e : Event) :
    (a.add e).child.isSome = (a.child.isSome || e.isStart) ∧
      (a.add e).shut = (a.shut || e.isShut) ∧ (a.add e).left = (a.left || e.isLeft) ∧
      (a.add e).reaped = (a.reaped || e.isReap) := by
  cases e with
  | read reply =>
    cases reply with
    | got bytes =>
      cases bytes <;> simp [add, Event.isStart, Event.isShut, Event.isLeft, Event.isReap]
    | failed e => simp [add, Event.isStart, Event.isShut, Event.isLeft, Event.isReap]
  | launched result =>
    cases result <;> simp [add, Event.isStart, Event.isShut, Event.isLeft, Event.isReap]
  | _ => simp [add, Event.isStart, Event.isShut, Event.isLeft, Event.isReap]

/-- What raises a flag, and is allowed only while the flag is down, happens as often as the
flag says. -/
theorem Lawful.countP_eq (kind : Event → Bool) (flag : Account → Bool)
    (h : Lawful allows events) (hfirst : flag {} = false)
    (hadd : ∀ a e, flag (a.add e) = (flag a || kind e))
    (hdown : ∀ a e, allows a e → kind e = true → flag a = false) :
    events.countP kind = (flag (ofTrace events)).toNat := by
  induction events using List.reverseRecOn with
  | nil =>
    rw [ofTrace, List.foldl_nil, hfirst]
    rfl
  | append_singleton events e ih =>
    rw [List.countP_append, List.countP_singleton, ih h.of_append, ofTrace_concat, hadd]
    cases hk : kind e with
    | true =>
      rw [hdown _ e h.last hk]
      rfl
    | false =>
      rw [Bool.or_false]
      rfl

/-- Every launch is counted. -/
theorem countP_isLaunch (events : List Event) :
    events.countP Event.isLaunch = (ofTrace events).launches := by
  induction events using List.reverseRecOn with
  | nil => rfl
  | append_singleton events e ih =>
    rw [List.countP_append, List.countP_singleton, ih, ofTrace_concat]
    cases e with
    | read reply =>
      cases reply with
      | got bytes => cases bytes <;> rfl
      | failed e => rfl
    | launched result => cases result <;> rfl
    | _ => rfl

/-- A child that an account tells of has been launched. -/
theorem mem_of_child {child : Child} (h : (ofTrace events).child = some child) :
    Event.launched (.ok child) ∈ events := by
  induction events using List.reverseRecOn with
  | nil => cases h
  | append_singleton events e ih =>
    rw [ofTrace_concat] at h
    rw [List.mem_append, List.mem_singleton]
    cases e with
    | read reply =>
      cases reply with
      | got bytes => cases bytes <;> exact .inl (ih h)
      | failed e => exact .inl (ih h)
    | launched result =>
      cases result with
      | ok child' =>
        obtain rfl := Option.some.inj h
        exact .inr rfl
      | error f => exact .inl (ih h)
    | _ => exact .inl (ih h)

/-- A line that counts as committed has been flushed. -/
theorem mem_of_committed (h : (ofTrace events).committed = true) :
    Event.committed (.ok ()) ∈ events := by
  induction events using List.reverseRecOn with
  | nil => cases h
  | append_singleton events e ih =>
    rw [ofTrace_concat] at h
    rw [List.mem_append, List.mem_singleton]
    cases e with
    | read reply =>
      cases reply with
      | got bytes => cases bytes <;> exact .inl (ih h)
      | failed e => exact .inl (ih h)
    | launched result => cases result <;> exact .inl (ih h)
    | committed result =>
      cases result with
      | ok u => exact .inr rfl
      | error e => cases h
    | _ => exact .inl (ih h)

end Account

/-! ## What is allowed around a stage -/

namespace Stage

open Wire Record

variable {ceiling : Option Int32} {a : Account} {σ : Type}

/-- The line of the first value received is on the record, and nothing else is. -/
def Lined (a : Account) : Prop :=
  ∃ p vs, values a.received = p :: vs ∧ a.recorded = lineBytes p

/-- What a stage waits for before an operation, beyond what any party waits for. -/
def Timely (ceiling : Option Int32) (a : Account) : Move σ → Prop
  | .launch _ => ∃ v, accepts ceiling v = true ∧ a.received = encode v
  | .commit _ => Lined a
  | .send _ _ _ => Lined a ∧ a.committed = true
  | .reap _ _ => a.left = true
  | _ => True

theorem Timely.map {τ : Type} {f : σ → τ} {m : Move σ} (h : Timely ceiling a m) :
    Timely ceiling a (m.map f) := by
  cases m <;> exact h

theorem Torn.timely {p : Int32} {vs : List Int32} {child : Child} {heldBack : List UInt8}
    (h : Torn ceiling a p vs child heldBack) (hne : heldBack ≠ []) :
    Lined a ∧ a.committed = true := by
  obtain ⟨hline, hc⟩ := h.order fun hn => hne (List.append_eq_nil_iff.1 hn).2
  exact ⟨⟨p, vs, h.received, hline⟩, hc⟩

theorem GivingUp.timely {call : Activity} (h : GivingUp ceiling a call.task) :
    Timely ceiling a call.move := by
  obtain ⟨phase, l, task⟩ := call
  cases h with
  | empty h hh hne => exact h.timely hne
  | reap h hs hl hr => exact hl
  | leaveAlone | endedAlone | shut | leave | ended => trivial

theorem Stepping.timely {call : Activity} (h : Stepping ceiling a call.ledger call.task) :
    Timely ceiling a call.move := by
  obtain ⟨phase, l, task⟩ := call
  cases h with
  | launch h he hv hr hi hd => exact ⟨_, hv, hr⟩
  | @record input p child entry hv hr hi hb hne hcm hn hk hs hh he hsm hf hd =>
    dsimp only [Activity.move]
    split
    · next hp =>
      refine ⟨p, [], by rw [hr, values_encode], ?_⟩
      rw [← hb, Entry.bytes, hp, List.flatten_nil, List.append_nil]
    · trivial
  | @forward input p v vs link h he hr hi hv hne =>
    refine ⟨⟨p, vs ++ [v], ?_, h.recorded⟩, h.committed⟩
    rw [hr, values_encodeAll_append, values_encode]
    rfl
  | close h he hr hne => exact ⟨⟨_, _, hr, h.recorded⟩, h.committed⟩
  | reap h hl hr => exact hl
  | emptySevered h hh hne => exact h.timely hne
  | first | skip | idle | idled | next | shut | leave | done | shutSevered | settled
  | failed => trivial

theorem Run.timely {r : Run} (h : r.Accords ceiling a) : Timely ceiling a r.move := by
  cases r with
  | stepping call =>
    rw [Run.move]
    split
    · trivial
    · exact h.2.timely.map
  | givingUp call =>
    rw [Run.move]
    split
    · trivial
    · exact (GivingUp.timely h).map
  | finished s result => trivial

/-- What may happen around a stage with an account. -/
def Allows (ceiling : Option Int32) (a : Account) : Event → Prop
  | .read _ => a.left = false
  | .recorded _ _ => a.child.isSome = true ∧ a.sent = []
  | .committed _ => a.child.isSome = true ∧ a.sent = [] ∧ Lined a
  | .launched _ => a.launches = 0 ∧ a.child = none ∧
      ∃ v, accepts ceiling v = true ∧ a.received = encode v
  | .sent child _ _ => a.child = some child ∧ a.shut = false ∧ Lined a ∧ a.committed = true
  | .shut child => a.child = some child ∧ a.shut = false
  | .left => a.left = false ∧ (a.child.isSome = true → a.shut = true)
  | .reaped child _ => a.child = some child ∧ a.shut = true ∧ a.left = true ∧ a.reaped = false
  | .forsaken _ => False

/-- What answers a move is allowed. -/
theorem allows_of_answered {m : Move σ} {e : Event} {q : σ} (hp : m.Permitted a)
    (ht : Timely ceiling a m) (hm : m.Answered (some e) q) : Allows ceiling a e := by
  cases hm with
  | read fits => exact hp.2.1
  | record fits => exact ⟨hp.2.1, hp.2.2.1⟩
  | commit result => exact ⟨hp.1, hp.2.1, ht⟩
  | launch result => exact ⟨hp.1, hp.2.1, ht⟩
  | send fits => exact ⟨hp.2.1, hp.2.2, ht⟩
  | shut => exact hp
  | leave => exact hp
  | reap result => exact ⟨hp.1, hp.2.1, ht, hp.2.2⟩
  | forsake => exact hp.elim

/-! ## Runs in any surroundings -/

/-- The runs of a stage, whatever surrounds it, with all that has happened around them. -/
inductive Course (ceiling : Option Int32) : List Event → Run → Prop
  | start : Course ceiling [] (Run.start (Stage.new ceiling))
  | step {events : List Event} {e : Option Event} {r r' : Run} (h : Course ceiling events r)
      (hm : r.move.Answered e r') : Course ceiling (events ++ e.toList) r'

namespace Course

variable {events : List Event} {r : Run}

theorem accords (h : Course ceiling events r) :
    r.Accords ceiling (Account.ofTrace events) := by
  induction h with
  | start => exact Run.accords_start ceiling
  | step h hm ih =>
    rw [Account.ofTrace_append]
    exact Run.accords_step ih hm

theorem lawful (h : Course ceiling events r) : Account.Lawful (Allows ceiling) events := by
  induction h with
  | start => exact .nil
  | @step events e r r' h hm ih =>
    cases e with
    | none =>
      rw [Option.toList_none, List.append_nil]
      exact ih
    | some e =>
      have hacc := h.accords
      exact ih.concat (allows_of_answered (Run.permitted hacc) (Run.timely hacc) hm)

end Course

/-- Everything in a trace is in its order. -/
structure InOrder (events : List Event) : Prop where
  /-- At most one launch. -/
  launches : events.countP Event.isLaunch ≤ 1
  /-- The record is written and flushed only after a launch that has succeeded. -/
  recorded : ∀ before bytes reply after, events = before ++ .recorded bytes reply :: after →
    ∃ child, .launched (.ok child) ∈ before
  /-- The record is flushed only once it has accepted the whole line of the first value. -/
  committed : ∀ before result after, events = before ++ .committed result :: after →
    Lined (Account.ofTrace before) ∧ ∃ child, .launched (.ok child) ∈ before
  /-- Bytes are offered only to the channel of the child while it is held, and only after
  the flush of the whole line has succeeded. -/
  sent : ∀ before child bytes reply after, events = before ++ .sent child bytes reply :: after →
    .launched (.ok child) ∈ before ∧ before.countP Event.isShut = 0 ∧
      Lined (Account.ofTrace before) ∧ .committed (.ok ()) ∈ before
  /-- Only the channel of the child is given up, and only once. -/
  shut : ∀ before child after, events = before ++ .shut child :: after →
    .launched (.ok child) ∈ before ∧ before.countP Event.isShut = 0
  /-- The input is given up only once, and nothing is read behind that. -/
  left : ∀ before after, events = before ++ .left :: after → before.countP Event.isLeft = 0
  read : ∀ before reply after, events = before ++ .read reply :: after →
    before.countP Event.isLeft = 0
  /-- Only the child is reaped, only once, and after both channel ends have gone. -/
  reaped : ∀ before child result after, events = before ++ .reaped child result :: after →
    .launched (.ok child) ∈ before ∧ before.countP Event.isShut = 1 ∧
      before.countP Event.isLeft = 1 ∧ before.countP Event.isReap = 0
  /-- No child is given up without being waited for. -/
  forsaken : ∀ child, .forsaken child ∉ events

/-- What was taken in the course of a trace has been given up, each thing once. -/
structure Released (events : List Event) : Prop where
  shut : events.countP Event.isShut = events.countP Event.isStart
  left : events.countP Event.isLeft = 1
  reaped : events.countP Event.isReap = events.countP Event.isStart

/-- The flags of an account count what has happened. -/
structure Tallied (events : List Event) : Prop where
  starts : events.countP Event.isStart = (Account.ofTrace events).child.isSome.toNat
  shuts : events.countP Event.isShut = (Account.ofTrace events).shut.toNat
  lefts : events.countP Event.isLeft = (Account.ofTrace events).left.toNat
  reaps : events.countP Event.isReap = (Account.ofTrace events).reaped.toNat

theorem tallied {events : List Event} (h : Account.Lawful (Allows ceiling) events) :
    Tallied events where
  starts := by
    refine h.countP_eq Event.isStart (fun a => a.child.isSome) rfl
      (fun a e => (a.flags_add e).1) fun a e he hk => ?_
    cases e with
    | launched result => simp [he.2.1]
    | _ => cases hk
  shuts := by
    refine h.countP_eq Event.isShut Account.shut rfl
      (fun a e => (a.flags_add e).2.1) fun a e he hk => ?_
    cases e with
    | shut child => exact he.2
    | _ => cases hk
  lefts := by
    refine h.countP_eq Event.isLeft Account.left rfl
      (fun a e => (a.flags_add e).2.2.1) fun a e he hk => ?_
    cases e with
    | left => exact he.1
    | _ => cases hk
  reaps := by
    refine h.countP_eq Event.isReap Account.reaped rfl
      (fun a e => (a.flags_add e).2.2.2) fun a e he hk => ?_
    cases e with
    | reaped child result => exact he.2.2.2
    | _ => cases hk

theorem Course.inOrder {events : List Event} {r : Run} (h : Course ceiling events r) :
    InOrder events where
  launches := by
    rw [Account.countP_isLaunch]
    exact (Run.sound h.accords).launches
  recorded := by
    intro before bytes reply after heq
    obtain ⟨hk, -⟩ := h.lawful before _ after heq
    obtain ⟨child, hk⟩ := Option.isSome_iff_exists.1 hk
    exact ⟨child, Account.mem_of_child hk⟩
  committed := by
    intro before result after heq
    obtain ⟨hk, -, hline⟩ := h.lawful before _ after heq
    obtain ⟨child, hk⟩ := Option.isSome_iff_exists.1 hk
    exact ⟨hline, child, Account.mem_of_child hk⟩
  sent := by
    intro before child bytes reply after heq
    obtain ⟨hk, hs, hline, hc⟩ := h.lawful before _ after heq
    have ht := tallied (heq ▸ h.lawful).of_append
    refine ⟨Account.mem_of_child hk, ?_, hline, Account.mem_of_committed hc⟩
    rw [ht.shuts, hs]
    rfl
  shut := by
    intro before child after heq
    obtain ⟨hk, hs⟩ := h.lawful before _ after heq
    have ht := tallied (heq ▸ h.lawful).of_append
    refine ⟨Account.mem_of_child hk, ?_⟩
    rw [ht.shuts, hs]
    rfl
  left := by
    intro before after heq
    obtain ⟨hl, -⟩ := h.lawful before _ after heq
    have ht := tallied (heq ▸ h.lawful).of_append
    rw [ht.lefts, hl]
    rfl
  read := by
    intro before reply after heq
    have hl : (Account.ofTrace before).left = false := h.lawful before _ after heq
    have ht := tallied (heq ▸ h.lawful).of_append
    rw [ht.lefts, hl]
    rfl
  reaped := by
    intro before child result after heq
    obtain ⟨hk, hs, hl, hr⟩ := h.lawful before _ after heq
    have ht := tallied (heq ▸ h.lawful).of_append
    refine ⟨Account.mem_of_child hk, ?_, ?_, ?_⟩
    · rw [ht.shuts, hs]
      rfl
    · rw [ht.lefts, hl]
      rfl
    · rw [ht.reaps, hr]
      rfl
  forsaken := by
    intro child hmem
    obtain ⟨before, after, heq⟩ := List.append_of_mem hmem
    exact h.lawful before _ after heq

/-! ## Runs that have finished -/

/-- A run that has finished has given up all that it held. -/
theorem Run.released_of_finished {s : Stage} {result : Except Fault Report}
    (h : (Run.finished s result).Accords ceiling a) :
    a.left = true ∧ a.shut = a.child.isSome ∧ a.reaped = a.child.isSome := by
  cases result with
  | ok report =>
    cases h with
    | idle h hn hs he hl hv =>
      rw [h.child]
      exact ⟨hl, h.shut, h.reaped⟩
    | owner h hl hr =>
      rw [h.child]
      exact ⟨hl, h.shut, hr⟩
  | error f =>
    cases h with
    | alone h hl =>
      rw [h.child]
      exact ⟨hl, h.shut, h.reaped⟩
    | owner h hs hl hr =>
      rw [h.child]
      exact ⟨hl, hs, hr⟩

theorem Course.released {events : List Event} {s : Stage} {result : Except Fault Report}
    (h : Course ceiling events (.finished s result)) : Released events := by
  obtain ⟨hl, hs, hr⟩ := Run.released_of_finished h.accords
  have ht := tallied h.lawful
  refine ⟨?_, ?_, ?_⟩
  · rw [ht.shuts, ht.starts, hs]
  · rw [ht.lefts, hl]
    rfl
  · rw [ht.reaps, ht.starts, hr]

/-- A run comes to its end in a state that holds nothing, and knows the value of the stage. -/
theorem Run.spent_step {r : Run} {e : Option Event} {s : Stage} {result : Except Fault Report}
    (h : r.Accords ceiling a) (hm : r.move.Answered e (.finished s result)) :
    s.state = .done (ownValue? ceiling (a.after e)) none := by
  cases r with
  | stepping call =>
    obtain ⟨-, h⟩ := h
    cases hout : call.outcome? with
    | none =>
      simp only [Run.move, hout] at hm
      obtain ⟨call', -, hcall⟩ := hm.of_map
      cases hcall
    | some outcome =>
      obtain ⟨⟨l, state⟩, outcome⟩ := outcome
      obtain ⟨ht, -⟩ := Activity.outcome_eq_some hout
      simp only [Run.move, hout] at hm
      dsimp only at ht
      rw [ht] at h
      -- Only a step that has led to the last phase ends a run.
      generalize hnext : Run.afterStep { ledger := l, state } outcome = next at hm
      cases hm
      cases h with
      | idled h hn hs he hl hv hf hd =>
        cases hnext
        rw [Account.after, ownValue?_alone h.child]
      | @done p vs child h hl hr =>
        cases hnext
        rw [Account.after, ownValue?_owning h.accepted h.child h.received]
      | settled hp h =>
        exfalso
        cases hphase : state.phase with
        | done => exact hp hphase
        | _ =>
          rw [hphase] at hnext
          cases hnext
      | failed h => cases hnext
  | givingUp call =>
    cases hout : call.outcome? with
    | none =>
      simp only [Run.move, hout] at hm
      obtain ⟨call', -, hcall⟩ := hm.of_map
      cases hcall
    | some outcome =>
      obtain ⟨⟨l, state⟩, outcome⟩ := outcome
      obtain ⟨ht, -⟩ := Activity.outcome_eq_some hout
      simp only [Run.move, hout] at hm
      dsimp only at ht
      rw [Run.Accords, ht] at h
      generalize hnext : Run.afterGivingUp { ledger := l, state } outcome = next at hm
      cases hm
      cases h with
      | endedAlone h hl =>
        cases hnext
        rw [Account.after, ownValue?_alone h.child]
      | @ended p vs child f h hs hl hr =>
        cases hnext
        rw [Account.after, ownValue?_owning h.accepted h.child h.received]
  | finished s' result' => cases hm

theorem Course.state_eq {events : List Event} {s : Stage} {result : Except Fault Report}
    (h : Course ceiling events (.finished s result)) :
    s.state = .done (ownValue? ceiling (Account.ofTrace events)) none := by
  generalize hr : Run.finished s result = r at h
  cases h with
  | start => cases hr
  | step h hm =>
    rw [← hr] at hm
    rw [Account.ofTrace_append]
    exact Run.spent_step h.accords hm

theorem Course.spent {events : List Event} {s : Stage} {result : Except Fault Report}
    (h : Course ceiling events (.finished s result)) : ∃ p, s.state = .done p none :=
  ⟨_, h.state_eq⟩

/-! ## The first value -/

theorem read_of_map {τ : Type} {f : σ → τ} {m : Move σ} {room : Nat} {next : ReadReply → τ}
    (h : m.map f = .read room next) : ∃ next', m = .read room next' := by
  cases m with
  | read room' next' =>
    cases h
    exact ⟨next', rfl⟩
  | _ => cases h

/-- While its first value is incomplete, a stage has room for the rest of it only. -/
theorem Stepping.room_eq {call : Activity} {room : Nat} {next : ReadReply → Activity}
    (h : Stepping ceiling a call.ledger call.task) (hm : call.move = .read room next)
    (hl : a.received.length < width) : room = width - a.received.length := by
  obtain ⟨phase, l, task⟩ := call
  -- Behind the first value there are the bytes of at least one.
  have late : ∀ v vs torn, a.received = encodeAll (v :: vs) ++ torn → False := by
    intro v vs torn hr
    rw [hr, List.length_append, length_encodeAll, List.length_cons, width] at hl
    omega
  cases h with
  | first h he hr hh hd =>
    cases hm
    rw [hr]
    rfl
  | skip h he hv hr hh hn => exact (late _ _ _ hr).elim
  | next h he hr hh => exact (late _ _ _ hr).elim
  | record =>
    dsimp only [Activity.move] at hm
    split at hm <;> cases hm
  | _ => cases hm

theorem GivingUp.not_read {call : Activity} {room : Nat} {next : ReadReply → Activity}
    (h : GivingUp ceiling a call.task) : call.move ≠ .read room next := by
  intro hm
  obtain ⟨phase, l, task⟩ := call
  cases h <;> cases hm

theorem Run.room_eq {r : Run} {room : Nat} {next : ReadReply → Run}
    (h : r.Accords ceiling a) (hm : r.move = .read room next) (hl : a.received.length < width) :
    room = width - a.received.length := by
  cases r with
  | stepping call =>
    rw [Run.move] at hm
    split at hm
    · cases hm
    · obtain ⟨next', hm⟩ := read_of_map hm
      exact h.2.room_eq hm hl
  | givingUp call =>
    rw [Run.move] at hm
    split at hm
    · cases hm
    · obtain ⟨next', hm⟩ := read_of_map hm
      exact (GivingUp.not_read h hm).elim
  | finished s result => cases hm

end Stage

namespace Intake

open Scripted

/-- One read of a value that is received. -/
theorem receive_fst (r : Intake) (s : Source) :
    (r.receive s).1 =
      match r.absorb (s.read r.room).1 with
      | (_, some receipt) => receipt
      | (r', none) => (r'.receive (s.read r.room).2).1 := by
  rw [receive]
  split
  · next heq => rw [heq]
  · next heq => rw [heq]

end Intake

namespace Stage

open Wire Record Scripted

variable {ceiling : Option Int32} {a : Account}

/-- What becomes of the first value: as long as a stage waits for it the source tells, and
then the bytes received do. -/
structure Foretold (fate : Receipt) (a : Account) (s : Source) : Prop where
  waiting : a.received.length < width → a.smooth = true → a.ended = false →
    (Intake.receive { held := a.received } s).1 = fate
  decided : ∀ v vs, values a.received = v :: vs → fate = .value v

theorem Foretold.of_eq {fate : Receipt} {s : Source} {a' : Account} (h : Foretold fate a s)
    (hr : a'.received = a.received) (he : a'.ended = a.ended)
    (hs : a.smooth = false → a'.smooth = false) : Foretold fate a' s where
  waiting := by
    intro hl hsm hen
    rw [hr]
    refine h.waiting (hr ▸ hl) ?_ (he ▸ hen)
    cases hold : a.smooth with
    | true => rfl
    | false =>
      rw [hs hold] at hsm
      cases hsm
  decided := by
    rw [hr]
    exact h.decided

/-- A read while the first value is incomplete. -/
theorem Foretold.read_first {fate : Receipt} {s : Source} {room : Nat} (h : Foretold fate a s)
    (hroom : room = width - a.received.length) (hl : a.received.length < width)
    (hs : a.smooth = true) (he : a.ended = false) (fits : (s.read room).1.Fits room) :
    Foretold fate (a.add (.read (s.read room).1)) (s.read room).2 := by
  have hfate := h.waiting hl hs he
  have hnone := values_eq_nil hl
  rw [Intake.receive_fst] at hfate
  change (match Intake.absorb { held := a.received } (s.read (width - a.received.length)).1 with
    | (_, some receipt) => receipt
    | (r', none) => (r'.receive (s.read (width - a.received.length)).2).1) = fate at hfate
  subst hroom
  have hcame := @Intake.absorb_came { held := a.received } _ fits hl
  generalize s.read (width - a.received.length) = answer at hfate hcame ⊢
  obtain ⟨reply, s'⟩ := answer
  dsimp only at hfate hcame ⊢
  generalize Intake.absorb { held := a.received } reply = outcome at hfate hcame
  cases hcame with
  | interrupted hi =>
    rw [Account.add_read_interrupted _ hi]
    exact ⟨fun _ _ _ => hfate, h.decided⟩
  | failed hi =>
    rw [Account.add_read_failed _ hi]
    exact ⟨fun _ hsm _ => Bool.noConfusion hsm, h.decided⟩
  | ended =>
    rw [Account.add_end]
    exact ⟨fun _ _ hen => Bool.noConfusion hen, h.decided⟩
  | more hl' =>
    rw [Account.add_bytes]
    refine ⟨fun _ _ _ => hfate, fun v vs hv => ?_⟩
    rw [values_eq_nil hl'] at hv
    cases hv
  | @value b bs v hv =>
    rw [Account.add_bytes]
    dsimp only at hv
    refine ⟨fun hlt => ?_, fun w vs hw => ?_⟩
    · dsimp only at hlt
      rw [hv, length_encode] at hlt
      exact absurd hlt (Nat.lt_irrefl _)
    · dsimp only at hw
      rw [hv, values_encode] at hw
      cases hw
      exact hfate.symm

theorem received_isPrefix (a : Account) (reply : ReadReply) :
    a.received <+: (a.add (.read reply)).received := by
  cases reply with
  | got bytes =>
    cases bytes with
    | nil => exact List.prefix_refl _
    | cons b bs => exact List.prefix_append _ _
  | failed e => exact List.prefix_refl _

/-- What has been received is never lost. -/
theorem received_add (a : Account) (e : Event) : a.received <+: (a.add e).received := by
  cases e with
  | read reply => exact received_isPrefix a reply
  | launched result => cases result <;> exact List.prefix_refl _
  | _ => exact List.prefix_refl _

/-- Once the first value is complete, reads do not change it. -/
theorem Foretold.read_on {fate : Receipt} {s s' : Source} (h : Foretold fate a s)
    (hl : width ≤ a.received.length) (reply : ReadReply) :
    Foretold fate (a.add (.read reply)) s' := by
  have hpre := received_isPrefix a reply
  have hvalues := values_mono hpre
  refine ⟨fun hlt => absurd hpre.length_le (by omega), fun v vs hv => ?_⟩
  obtain ⟨torn, htorn, hbytes⟩ := eq_encodeAll_values a.received
  cases hold : values a.received with
  | nil =>
    rw [hold, encodeAll_nil, List.nil_append] at hbytes
    rw [hbytes] at hl
    omega
  | cons w ws =>
    rw [hold, hv] at hvalues
    obtain ⟨rfl, -⟩ := List.cons_prefix_cons.1 hvalues
    exact h.decided w ws hold

/-! ## Runs in scripted surroundings -/

/-- Surroundings in which nothing has happened yet. However their source, their record and
the channel of a child behave, a child that is launched comes to some end. -/
structure Untouched (w : Surroundings) : Prop where
  trace : w.trace = #[]
  channels : w.channels = #[]
  sinks : ∀ s, .started s ∈ w.launches → s.sink.accepted = #[]
  endings : ∀ s, .started s ∈ w.launches → s.ending ≠ none

/-- Surroundings that are to launch one child, whose end is known. -/
theorem Untouched.of_child {w : Surroundings} {s : Start} (htrace : w.trace = #[])
    (hchannels : w.channels = #[]) (hl : w.launches = [.started s]) (hs : s.sink.accepted = #[])
    (he : s.ending ≠ none) : Untouched w := by
  refine ⟨htrace, hchannels, fun s' hs' => ?_, fun s' hs' => ?_⟩
  · rw [hl] at hs'
    cases List.mem_singleton.1 hs'
    exact hs
  · rw [hl] at hs'
    cases List.mem_singleton.1 hs'
    exact he

/-- A run under way in surroundings that were untouched at first. -/
structure Underway (ceiling : Option Int32) (fate : Receipt) (r : Run) (w : Surroundings) :
    Prop where
  course : Course ceiling w.trace.toList r
  linked : w.Linked (Account.ofTrace w.trace.toList)
  sinks : ∀ s, .started s ∈ w.launches → s.sink.accepted = #[]
  known : ∀ s ∈ w.channels, s.ending ≠ none
  endings : ∀ s, .started s ∈ w.launches → s.ending ≠ none
  foretold : Foretold fate (Account.ofTrace w.trace.toList) w.source

theorem Underway.start {w : Surroundings} (hw : Untouched w) :
    Underway ceiling (Intake.receive {} w.source).1 (Run.start (Stage.new ceiling)) w where
  course := by
    rw [hw.trace]
    exact .start
  linked := by
    rw [hw.trace]
    exact .none rfl hw.channels
  sinks := hw.sinks
  known := by
    intro s hs
    rw [hw.channels] at hs
    exact absurd hs (Array.not_mem_empty s)
  endings := hw.endings
  foretold := by
    rw [hw.trace]
    exact ⟨fun _ _ _ => rfl, fun v vs hv => by cases hv⟩

/-- How a child ends stays known. -/
theorem known_answer {σ : Type} {w w' : Surroundings} {m : Move σ} {q : σ}
    (hk : ∀ s ∈ w.channels, s.ending ≠ none)
    (hl : ∀ s, .started s ∈ w.launches → s.ending ≠ none)
    (h : w.answer m = (some q, w')) : ∀ s ∈ w'.channels, s.ending ≠ none := by
  cases m with
  | launch next =>
    obtain rfl : w' = w.launch.2 := by cases h; rfl
    have pushed : ∀ s : Start, s.ending ≠ none → ∀ s' ∈ w.channels.push s, s'.ending ≠ none := by
      intro s hs s' hmem
      rcases Array.mem_push.1 hmem with hmem | rfl
      · exact hk s' hmem
      · exact hs
    unfold Surroundings.launch
    split
    · exact pushed {} (Option.some_ne_none _)
    · next s launches heq => exact pushed s (hl s (by rw [heq]; exact List.mem_cons_self))
    · exact hk
  | send child bytes next =>
    obtain rfl : w' = (w.send child bytes).2 := by cases h; rfl
    intro s hs
    obtain ⟨i, hi, rfl⟩ := Array.mem_iff_getElem.1 hs
    dsimp only [Surroundings.send, Surroundings.see, Surroundings.changeChannel] at hi ⊢
    rw [Array.size_modify] at hi
    rw [Array.getElem_modify]
    have hold := hk _ (Array.getElem_mem hi)
    split
    · exact hold
    · exact hold
  | reap child next =>
    rw [Surroundings.answer] at h
    split at h
    · cases h
      exact hk
    · cases h
  | rest => cases h
  | _ =>
    cases h
    exact hk

/-- A move other than a read leaves the source and what has been received. -/
theorem quiet_answer {σ : Type} {w w' : Surroundings} {m : Move σ} {q : σ}
    (hm : ∀ room next, m ≠ .read room next) (h : w.answer m = (some q, w')) :
    w'.source = w.source ∧ (a.after (w.event m)).received = a.received ∧
      (a.after (w.event m)).ended = a.ended := by
  cases m with
  | read room next => exact absurd rfl (hm room next)
  | launch next =>
    obtain rfl : w' = w.launch.2 := by cases h; rfl
    refine ⟨?_, ?_⟩
    · rw [Surroundings.launch]
      split <;> rfl
    · rw [Surroundings.event, Account.after]
      cases w.launch.1 <;> exact ⟨rfl, rfl⟩
  | reap child next =>
    rw [Surroundings.answer] at h
    split at h
    · next result hend =>
      cases h
      rw [Surroundings.event, hend]
      exact ⟨rfl, rfl, rfl⟩
    · cases h
  | rest => cases h
  | _ =>
    cases h
    exact ⟨rfl, rfl, rfl⟩

theorem Underway.answer {fate : Receipt} {r r' : Run} {w w' : Surroundings}
    (h : Underway ceiling fate r w) (ha : w.answer r.move = (some r', w')) :
    Underway ceiling fate r' w' := by
  have hacc := h.course.accords
  have hperm := Run.permitted hacc
  obtain ⟨hm, htrace⟩ := Surroundings.answered ha
  have haccount := Surroundings.ofTrace_answer ha
  refine
    { course := by rw [htrace]; exact h.course.step hm
      linked := by rw [haccount]; exact h.linked.answer hperm h.sinks ha
      sinks := fun s hs => h.sinks s (Surroundings.launches_answer ha _ hs)
      known := known_answer h.known h.endings ha
      endings := fun s hs => h.endings s (Surroundings.launches_answer ha _ hs)
      foretold := ?_ }
  rw [haccount]
  by_cases hread : ∃ room next, r.move = .read room next
  · obtain ⟨room, next, hread⟩ := hread
    rw [hread] at ha hm hperm ⊢
    obtain rfl : w' = { w with source := (w.source.read room).2 }.see
        (.read (w.source.read room).1) := by
      cases ha
      rfl
    obtain ⟨-, -, he, hs⟩ := hperm
    rcases Nat.lt_or_ge (Account.ofTrace w.trace.toList).received.length width with hl | hl
    · refine h.foretold.read_first (Run.room_eq hacc hread hl) hl hs he ?_
      cases hm with
      | read fits => exact fits
    · exact h.foretold.read_on hl _
  · obtain ⟨hsource, hr, he⟩ :=
      quiet_answer (fun room next heq => hread ⟨room, next, heq⟩) ha
    rw [hsource]
    exact h.foretold.of_eq hr he fun hs => Account.not_smooth_after hs _

end Stage

/-! ## Driving -/

namespace Scripted.Surroundings

variable {σ : Type} [Party σ] {keeps : σ → Surroundings → Prop}

/-- What every answer keeps, driving keeps; and where every answer uses something up, driving
long enough leads to a move that has no answer. -/
theorem drive_keeps (measure : σ → Surroundings → Nat)
    (hstep : ∀ {p q : σ} {w w' : Surroundings}, keeps p w →
      w.answer (Party.move p) = (some q, w') → keeps q w' ∧ measure q w' < measure p w)
    (n : Nat) {p : σ} {w : Surroundings} (h : keeps p w) :
    keeps (w.drive n p).1 (w.drive n p).2 ∧
      (measure p w < n → ((w.drive n p).2.answer (Party.move (w.drive n p).1)).1 = none) := by
  induction n generalizing p w with
  | zero => exact ⟨h, fun hn => absurd hn (Nat.not_lt_zero _)⟩
  | succ n ih =>
    unfold Surroundings.drive
    split
    · next w' ha =>
      obtain ⟨rfl, -⟩ := unanswered ha
      exact ⟨h, fun _ => by rw [ha]⟩
    · next q w' ha =>
      obtain ⟨hq, hlt⟩ := hstep h ha
      obtain ⟨hkept, hpauses⟩ := ih hq
      exact ⟨hkept, fun hn => hpauses (by omega)⟩

end Scripted.Surroundings

namespace Stage

open Wire Record Scripted

variable {ceiling : Option Int32}

/-- Every answer uses up some of what a stage can do and its surroundings hold in stock. -/
theorem Underway.spends {fate : Receipt} {r r' : Run} {w w' : Surroundings}
    (h : Underway ceiling fate r w) (ha : w.answer r.move = (some r', w')) :
    r'.effort + w'.stock < r.effort + w.stock := by
  have hacc := h.course.accords
  have heffort := Run.effort_step hacc (Surroundings.answered ha).1
  have hstock := Surroundings.stock_answer h.linked (Run.permitted hacc) ha
  omega

/-- A stage whose move has no answer has finished. -/
theorem Underway.finished {fate : Receipt} {r : Run} {w : Surroundings}
    (h : Underway ceiling fate r w) (hend : (w.answer r.move).1 = none) :
    ∃ s result, r = .finished s result := by
  obtain ⟨-, hrest | ⟨child, next, -, hunknown⟩⟩ := Surroundings.unanswered (Prod.ext hend rfl)
  · exact Run.finished_of_rest hrest
  · exact absurd hunknown (Surroundings.ending_channel h.known child)

/-- The run of a stage comes to its end, in whatever surroundings, and with it all that its
answers keep. -/
theorem run_keeps (ceiling : Option Int32) {w : Surroundings} (hw : Untouched w)
    (keeps : Run → Surroundings → Prop) (hstart : keeps (Run.start (Stage.new ceiling)) w)
    (hstep : ∀ {fate : Receipt} {r r' : Run} {w w' : Surroundings}, Underway ceiling fate r w →
      keeps r w → w.answer r.move = (some r', w') → keeps r' w') :
    ∃ s result, ((Stage.new ceiling).run w).1 = some (s, result) ∧
      Underway ceiling (Intake.receive {} w.source).1 (.finished s result)
        ((Stage.new ceiling).run w).2 ∧
      keeps (.finished s result) ((Stage.new ceiling).run w).2 := by
  have hn : (Run.start (Stage.new ceiling)).effort + w.stock <
      w.allowance Outbox.capacity := by
    rw [Run.effort_start, Surroundings.stock, Surroundings.allowance]
    omega
  let kept (r : Run) (w' : Surroundings) : Prop :=
    Underway ceiling (Intake.receive {} w.source).1 r w' ∧ keeps r w'
  have hstarted : kept (Run.start (Stage.new ceiling)) w := ⟨Underway.start hw, hstart⟩
  obtain ⟨⟨hu, hk⟩, hpauses⟩ :=
    Surroundings.drive_keeps (fun (r : Run) w => r.effort + w.stock)
      (fun h ha => ⟨⟨Underway.answer h.1 ha, hstep h.1 h.2 ha⟩, h.1.spends ha⟩)
      (w.allowance Outbox.capacity) hstarted
  obtain ⟨s, result, hfinished⟩ := hu.finished (hpauses hn)
  rw [hfinished] at hu hk
  refine ⟨s, result, ?_, hu, hk⟩
  have hrun : ((Stage.new ceiling).run w).1 =
    (w.drive (w.allowance Outbox.capacity) (Run.start (Stage.new ceiling))).1.outcome? := rfl
  rw [hrun, hfinished]
  rfl

theorem run_underway (ceiling : Option Int32) {w : Surroundings} (hw : Untouched w) :
    ∃ s result, ((Stage.new ceiling).run w).1 = some (s, result) ∧
      Underway ceiling (Intake.receive {} w.source).1 (.finished s result)
        ((Stage.new ceiling).run w).2 := by
  obtain ⟨s, result, hrun, hu, -⟩ :=
    run_keeps ceiling hw (fun _ _ => True) trivial fun _ _ _ => trivial
  exact ⟨s, result, hrun, hu⟩

theorem received_mono (before after : List Event) :
    (Account.ofTrace before).received <+: (Account.ofTrace (before ++ after)).received := by
  induction after using List.reverseRecOn with
  | nil => exact ⟨[], by rw [List.append_nil, List.append_nil]⟩
  | append_singleton after e ih =>
    rw [← List.append_assoc, Account.ofTrace_concat]
    exact ih.trans (received_add _ e)

/-- A stage launches a child only for a first value that is a candidate. -/
theorem Underway.candidate {fate : Receipt} {r : Run} {w : Surroundings}
    (h : Underway ceiling fate r w) {result : Except Fault Child}
    (hmem : .launched result ∈ w.trace.toList) : ∃ v, fate = .value v ∧ IsCandidate ceiling v := by
  obtain ⟨before, after, heq⟩ := List.append_of_mem hmem
  obtain ⟨-, -, v, hv, hr⟩ := h.course.lawful before _ after heq
  refine ⟨v, ?_, (accepts_iff ceiling v).1 hv⟩
  have hvalues := values_mono (received_mono before (.launched result :: after))
  rw [← heq, hr, values_encode] at hvalues
  obtain ⟨vs, hvs⟩ := hvalues
  exact h.foretold.decided v vs hvs.symm

/-- Where the first value is no candidate, or does not come, no child is launched, and the
record is neither written nor flushed. -/
theorem Underway.idle {fate : Receipt} {r : Run} {w : Surroundings}
    (h : Underway ceiling fate r w) (hf : ∀ v, fate = .value v → ¬IsCandidate ceiling v) :
    (∀ result, .launched result ∉ w.trace.toList) ∧
      (∀ bytes reply, .recorded bytes reply ∉ w.trace.toList) ∧
      ∀ result, .committed result ∉ w.trace.toList := by
  have hnone : ∀ result, .launched result ∉ w.trace.toList := by
    intro result hmem
    obtain ⟨v, hv, hc⟩ := h.candidate hmem
    exact hf v hv hc
  refine ⟨hnone, fun bytes reply hmem => ?_, fun result hmem => ?_⟩
  · obtain ⟨before, after, heq⟩ := List.append_of_mem hmem
    obtain ⟨child, hchild⟩ := h.course.inOrder.recorded before bytes reply after heq
    refine hnone (.ok child) ?_
    rw [heq]
    exact List.mem_append_left _ hchild
  · obtain ⟨before, after, heq⟩ := List.append_of_mem hmem
    obtain ⟨-, child, hchild⟩ := h.course.inOrder.committed before result after heq
    refine hnone (.ok child) ?_
    rw [heq]
    exact List.mem_append_left _ hchild

/-- However its input, its record, the launch and its child behave, the run of a stage comes
to its end and leaves nothing held. Its trace is in order, and releases what it takes; and a
stage whose first value is no candidate, or does not come, launches and records nothing. -/
theorem run_in_order (ceiling : Option Int32) (w : Surroundings) (hw : Untouched w) :
    ∃ s result, ((Stage.new ceiling).run w).1 = some (s, result) ∧
      (∃ p, s.state = .done p none) ∧
      InOrder ((Stage.new ceiling).run w).2.trace.toList ∧
      Released ((Stage.new ceiling).run w).2.trace.toList ∧
      ((∀ v, (Intake.receive {} w.source).1 = .value v → ¬IsCandidate ceiling v) →
        (∀ result, .launched result ∉ ((Stage.new ceiling).run w).2.trace.toList) ∧
          (∀ bytes reply, .recorded bytes reply ∉ ((Stage.new ceiling).run w).2.trace.toList) ∧
          ∀ result, .committed result ∉ ((Stage.new ceiling).run w).2.trace.toList) := by
  obtain ⟨s, result, hrun, hu⟩ := run_underway ceiling hw
  exact ⟨s, result, hrun, hu.course.spent, hu.course.inOrder, hu.course.released, hu.idle⟩

/-- A stage whose record takes three bytes of the line of 2 and then no more, and whose child
fails as well: both channel ends are given up, and then the child is reaped. -/
theorem run_in_order_full_record :
    let w : Surroundings :=
      { source := { items := [.chunk [2, 0], .error ⟨.interrupted, none⟩, .chunk [0, 0, 3, 0]] }
        record := { barriers := [⟨3, .zeros none⟩] }
        launches := [.started { ending := some (.error (.channel "gone")) }] }
    ∃ s result, ((Stage.new none).run w).1 = some (s, result) ∧ (∃ p, s.state = .done p none) ∧
      ((Stage.new none).run w).2.trace.toList.countP Event.isShut = 1 ∧
      ((Stage.new none).run w).2.trace.toList.countP Event.isLeft = 1 ∧
      ((Stage.new none).run w).2.trace.toList.countP Event.isReap = 1 := by
  intro w
  have hw : Untouched w := by
    refine ⟨rfl, rfl, fun s hs => ?_, fun s hs => ?_⟩
    · cases List.mem_singleton.1 hs
      rfl
    · cases List.mem_singleton.1 hs
      exact Option.some_ne_none _
  have hstarts : ((Stage.new none).run w).2.trace.toList.countP Event.isStart = 1 := by
    decide +kernel
  obtain ⟨s, result, hrun, hspent, -, hreleased, -⟩ := run_in_order none w hw
  exact ⟨s, result, hrun, hspent, hreleased.shut.trans hstarts, hreleased.left,
    hreleased.reaped.trans hstarts⟩

end Stage

end SieveChain
