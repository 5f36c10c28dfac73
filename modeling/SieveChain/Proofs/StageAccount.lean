import SieveChain.Proofs.Replies
import SieveChain.Stage.Calls

/-!
# Accounts of stages

What has happened around a stage can be told from the task at hand. As long as all goes
well the account is determined by the bytes received: the line of the first value is on the
record before anything is sent, and what has been sent and what the outbox still holds are
together the values that this value does not divide. After a failure the account still
never holds anything else; it may only fall short.
-/

namespace SieveChain.Stage

open Wire Record

/-- The value that a stage comes to own of those it receives. -/
def owned? (ceiling : Option Int32) : List Int32 → Option Int32
  | [] => none
  | v :: _ => if accepts ceiling v then some v else none

/-- The values that a stage hands on of those it receives. -/
def handedOn (ceiling : Option Int32) : List Int32 → List Int32
  | [] => []
  | v :: vs => if accepts ceiling v then vs.filter (passes v) else []

/-! ## Stances -/

/-- A stage that has only read so far. -/
structure Waiting (a : Account) (l : Ledger) : Prop extends a.Bare where
  launches : a.launches = 0
  left : a.left = false
  smooth : a.smooth = true
  forwarded : l.forwarded = 0

/-- A stage whose line is on the record. -/
structure Committed (ceiling : Option Int32) (a : Account) (p : Int32) (child : Child) :
    Prop where
  accepted : accepts ceiling p = true
  recorded : a.recorded = lineBytes p
  committed : a.committed = true
  launches : a.launches = 1
  child : a.child = some child
  smooth : a.smooth = true

/-- A stage that filters: what it has sent and what it holds back are together the values
to hand on of those that it has received behind its own. -/
structure Filtering (ceiling : Option Int32) (a : Account) (l : Ledger) (p : Int32)
    (vs : List Int32) (link : Link) : Prop
    extends Committed ceiling a p link.child, a.Holding where
  sent : a.sent ++ link.output.bytes = encodeAll (vs.filter (passes p))
  taken : link.output.taken = (vs.filter (passes p)).length
  counted : l.discarded + link.output.taken = vs.length

/-- A stage that has handed on all there was. -/
structure HandedOn (ceiling : Option Int32) (a : Account) (l : Ledger) (p : Int32)
    (vs : List Int32) (child : Child) : Prop extends Committed ceiling a p child where
  received : values a.received = p :: vs
  ended : a.ended = true
  sent : a.sent = encodeAll (vs.filter (passes p))
  forwarded : l.forwarded = (vs.filter (passes p)).length
  counted : l.discarded + l.forwarded = vs.length
  shut : a.shut = true

/-- What a failure has left of a stage with a child: all is a beginning of what it should
have been, and nothing is sent before the line is complete. -/
structure Torn (ceiling : Option Int32) (a : Account) (p : Int32) (vs : List Int32)
    (child : Child) (heldBack : List UInt8) : Prop where
  accepted : accepts ceiling p = true
  received : values a.received = p :: vs
  launches : a.launches = 1
  child : a.child = some child
  recorded : a.recorded <+: lineBytes p
  sent : a.sent ++ heldBack <+: encodeAll (vs.filter (passes p))
  order : a.sent ++ heldBack ≠ [] → a.recorded = lineBytes p ∧ a.committed = true
  smooth : a.smooth = false

/-- What a failure has left of a stage without a child. -/
structure Childless (a : Account) : Prop extends a.Bare where
  launches : a.launches ≤ 1
  smooth : a.smooth = false

/-- The tasks of a stage that is given up, and its account at each of them. -/
inductive GivingUp (ceiling : Option Int32) (a : Account) : Task → Prop
  | leaveAlone {f : Fault} (h : Childless a) (hl : a.left = false) :
      GivingUp ceiling a (.leave (.givenUp none none f))
  | endedAlone {f : Fault} (h : Childless a) (hl : a.left = true) :
      GivingUp ceiling a (.ended (.done none none) (.error f))
  | empty {p : Int32} {vs : List Int32} {child : Child} {o : Outbox} {f : Fault}
      (h : Torn ceiling a p vs child o.bytes) (hh : a.Holding) (hne : o.bytes ≠ []) :
      GivingUp ceiling a (.empty o (.givenUp true (some p) child f))
  | shut {p : Int32} {vs : List Int32} {child : Child} {f : Fault}
      (h : Torn ceiling a p vs child []) (hh : a.Holding) :
      GivingUp ceiling a (.shut (.givenUp true (some p) child f))
  | leave {p : Int32} {vs : List Int32} {child : Child} {f : Fault}
      (h : Torn ceiling a p vs child []) (hs : a.shut = true) (hl : a.left = false)
      (hr : a.reaped = false) :
      GivingUp ceiling a (.leave (.givenUp (some p) (some child) f))
  | reap {p : Int32} {vs : List Int32} {child : Child} {f : Fault}
      (h : Torn ceiling a p vs child []) (hs : a.shut = true) (hl : a.left = true)
      (hr : a.reaped = false) :
      GivingUp ceiling a (.reap child (.givenUp (some p) f))
  | ended {p : Int32} {vs : List Int32} {child : Child} {f : Fault}
      (h : Torn ceiling a p vs child []) (hs : a.shut = true) (hl : a.left = true)
      (hr : a.reaped = true) :
      GivingUp ceiling a (.ended (.done (some p) none) (.error f))

/-- The tasks of the steps of a stage, and its account and ledger at each of them. A step
that has come to its end is told by what follows it. -/
inductive Stepping (ceiling : Option Int32) (a : Account) (l : Ledger) : Task → Prop
  | first {input : Intake} (h : Waiting a l) (he : a.ended = false)
      (hr : a.received = input.held) (hh : input.held.length < width)
      (hd : l.discarded = 0) : Stepping ceiling a l (.first input none)
  | skip {input : Intake} {v : Int32} {vs : List Int32} {n : Nat} (h : Waiting a l)
      (he : a.ended = false) (hv : accepts ceiling v = false)
      (hr : a.received = encodeAll (v :: vs) ++ input.held) (hh : input.held.length < width)
      (hn : vs.length = n) : Stepping ceiling a l (.skip input none n)
  | idle (h : Waiting a l) (he : a.ended = true)
      (hv : owned? ceiling (values a.received) = none)
      (hd : l.discarded = (values a.received).length) :
      Stepping ceiling a l (.leave (.idle none))
  | idled (h : a.Bare) (hn : a.launches = 0) (hs : a.smooth = true) (he : a.ended = true)
      (hl : a.left = true) (hv : owned? ceiling (values a.received) = none)
      (hf : l.forwarded = 0) (hd : l.discarded = (values a.received).length) :
      Stepping ceiling a l (.ended (.done none none) (.ok .done))
  | launch {input : Intake} {v : Int32} (h : Waiting a l) (he : a.ended = false)
      (hv : accepts ceiling v = true) (hr : a.received = encode v) (hi : input.held = [])
      (hd : l.discarded = 0) : Stepping ceiling a l (.launch input none v)
  | record {input : Intake} {p : Int32} {child : Child} {entry : Entry}
      (hv : accepts ceiling p = true) (hr : a.received = encode p) (hi : input.held = [])
      (hb : a.recorded ++ entry.bytes = lineBytes p)
      (hne : ∀ piece ∈ entry.pieces, piece ≠ []) (hc : a.committed = false)
      (hn : a.launches = 1) (hk : a.child = some child) (hs : a.sent = [])
      (hh : a.Holding) (he : a.ended = false) (hsm : a.smooth = true)
      (hf : l.forwarded = 0) (hd : l.discarded = 0) :
      Stepping ceiling a l (.record input p ⟨.empty, child⟩ entry)
  | next {input : Intake} {p : Int32} {vs : List Int32} {link : Link}
      (h : Filtering ceiling a l p vs link) (he : a.ended = false)
      (hr : a.received = encodeAll (p :: vs) ++ input.held)
      (hh : input.held.length < width) : Stepping ceiling a l (.next input p link)
  | forward {input : Intake} {p v : Int32} {vs : List Int32} {link : Link}
      (h : Filtering ceiling a l p vs link) (he : a.ended = false)
      (hr : a.received = encodeAll (p :: vs) ++ encode v) (hi : input.held = [])
      (hv : passes p v = true) (hne : link.output.bytes ≠ []) :
      Stepping ceiling a l (.forward input p link v)
  | close {input : Intake} {p : Int32} {vs : List Int32} {link : Link}
      (h : Filtering ceiling a l p vs link) (he : a.ended = true)
      (hr : values a.received = p :: vs) (hne : link.output.bytes ≠ []) :
      Stepping ceiling a l (.close input p link)
  | shut {input : Intake} {p : Int32} {vs : List Int32} {link : Link}
      (h : Filtering ceiling a l p vs link) (he : a.ended = true)
      (hr : values a.received = p :: vs) (hb : link.output.bytes = []) :
      Stepping ceiling a l (.shut (.drained input p link.child link.output.taken))
  | leave {p : Int32} {vs : List Int32} {child : Child}
      (h : HandedOn ceiling a l p vs child) (hl : a.left = false) (hr : a.reaped = false) :
      Stepping ceiling a l (.leave (.drained p child))
  | reap {p : Int32} {vs : List Int32} {child : Child}
      (h : HandedOn ceiling a l p vs child) (hl : a.left = true) (hr : a.reaped = false) :
      Stepping ceiling a l (.reap child (.drained p))
  | done {p : Int32} {vs : List Int32} {child : Child}
      (h : HandedOn ceiling a l p vs child) (hl : a.left = true) (hr : a.reaped = true) :
      Stepping ceiling a l (.ended (.done (some p) none) (.ok .done))
  | emptySevered {input : Intake} {p : Int32} {vs : List Int32} {child : Child} {o : Outbox}
      {f : Fault} (h : Torn ceiling a p vs child o.bytes) (hh : a.Holding)
      (hne : o.bytes ≠ []) : Stepping ceiling a l (.empty o (.severed input p child f))
  | shutSevered {input : Intake} {p : Int32} {vs : List Int32} {child : Child} {f : Fault}
      (h : Torn ceiling a p vs child []) (hh : a.Holding) :
      Stepping ceiling a l (.shut (.severed input p child f))
  | settled {state : State} (hp : state.phase ≠ .done)
      (h : Stepping ceiling a l (step { ledger := l, state }).task) :
      Stepping ceiling a l (.ended state (.ok state.phase))
  | failed {state : State} {f : Fault}
      (h : GivingUp ceiling a (giveUp { ledger := l, state } f).task) :
      Stepping ceiling a l (.ended state (.error f))

/-- The account of a stage whose run has succeeded, and its report. -/
inductive Completed (ceiling : Option Int32) (a : Account) : Report → Prop
  | idle (h : a.Bare) (hn : a.launches = 0) (hs : a.smooth = true) (he : a.ended = true)
      (hl : a.left = true) (hv : owned? ceiling (values a.received) = none) :
      Completed ceiling a { prime := none, discarded := (values a.received).length }
  | owner {l : Ledger} {p : Int32} {vs : List Int32} {child : Child}
      (h : HandedOn ceiling a l p vs child) (hl : a.left = true) (hr : a.reaped = true) :
      Completed ceiling a
        { prime := some p, forwarded := l.forwarded, discarded := l.discarded }

/-- The account of a stage whose run has failed. -/
inductive Broken (ceiling : Option Int32) (a : Account) : Prop
  | alone (h : Childless a) (hl : a.left = true)
  | owner {p : Int32} {vs : List Int32} {child : Child} (h : Torn ceiling a p vs child [])
      (hs : a.shut = true) (hl : a.left = true) (hr : a.reaped = true)

/-- An account is that of a run of a stage. -/
def Run.Accords (ceiling : Option Int32) (a : Account) : Run → Prop
  | .stepping call => call.ledger.ceiling = ceiling ∧ Stepping ceiling a call.ledger call.task
  | .givingUp call => GivingUp ceiling a call.task
  | .finished _ (.ok report) => Completed ceiling a report
  | .finished _ (.error _) => Broken ceiling a

end SieveChain.Stage
