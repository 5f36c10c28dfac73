import SieveChain.Proofs.StageMoves
import SieveChain.Scripted.Perform

/-!
# Stages by their slots and by their states

A call that looks into the slots it needs, and one that is given a state that has them, ask for the
same and go on alike whatever they are answered. So a stage does by its slots what it does by its
state, in a single call and in a run: each of its slots is filled just when the state has something
to fill it with.
-/

namespace SieveChain

namespace Move

variable {σ τ σ' τ' : Type} {R : σ → τ → Prop} {m : Move σ} {m' : Move τ}

/-- Two moves that ask for the same, and go on alike whatever the answer. -/
inductive Alike (R : σ → τ → Prop) : Move σ → Move τ → Prop
  | read {room : Nat} {next : ReadReply → σ} {next' : ReadReply → τ}
      (h : ∀ reply, R (next reply) (next' reply)) : Alike R (.read room next) (.read room next')
  | record {bytes : List UInt8} {next : WriteReply → σ} {next' : WriteReply → τ}
      (h : ∀ reply, R (next reply) (next' reply)) :
      Alike R (.record bytes next) (.record bytes next')
  | commit {next : Except IoError Unit → σ} {next' : Except IoError Unit → τ}
      (h : ∀ result, R (next result) (next' result)) : Alike R (.commit next) (.commit next')
  | launch {next : Except Fault Child → σ} {next' : Except Fault Child → τ}
      (h : ∀ result, R (next result) (next' result)) : Alike R (.launch next) (.launch next')
  | send {child : Child} {bytes : List UInt8} {next : WriteReply → σ} {next' : WriteReply → τ}
      (h : ∀ reply, R (next reply) (next' reply)) :
      Alike R (.send child bytes next) (.send child bytes next')
  | shut {child : Child} {p : σ} {q : τ} (h : R p q) : Alike R (.shut child p) (.shut child q)
  | leave {p : σ} {q : τ} (h : R p q) : Alike R (.leave p) (.leave q)
  | reap {child : Child} {next : Except Fault Unit → σ} {next' : Except Fault Unit → τ}
      (h : ∀ result, R (next result) (next' result)) :
      Alike R (.reap child next) (.reap child next')
  | forsake {child : Child} {p : σ} {q : τ} (h : R p q) :
      Alike R (.forsake child p) (.forsake child q)
  | proceed {p : σ} {q : τ} (h : R p q) : Alike R (.proceed p) (.proceed q)
  | rest : Alike R .rest .rest

theorem Alike.answered {e : Option Event} {p : σ} (h : Alike R m m') (hm : m.Answered e p) :
    ∃ q, m'.Answered e q ∧ R p q := by
  cases hm with
  | read fits => cases h with | read h => exact ⟨_, .read fits, h _⟩
  | record fits => cases h with | record h => exact ⟨_, .record fits, h _⟩
  | commit result => cases h with | commit h => exact ⟨_, .commit result, h _⟩
  | launch result => cases h with | launch h => exact ⟨_, .launch result, h _⟩
  | send fits => cases h with | send h => exact ⟨_, .send fits, h _⟩
  | shut => cases h with | shut h => exact ⟨_, .shut, h⟩
  | leave => cases h with | leave h => exact ⟨_, .leave, h⟩
  | reap result => cases h with | reap h => exact ⟨_, .reap result, h _⟩
  | forsake => cases h with | forsake h => exact ⟨_, .forsake, h⟩
  | proceed => cases h with | proceed h => exact ⟨_, .proceed, h⟩

theorem Alike.map {S : σ' → τ' → Prop} {f : σ → σ'} {g : τ → τ'} (h : Alike R m m')
    (hfg : ∀ {p q}, R p q → S (f p) (g q)) : Alike S (m.map f) (m'.map g) := by
  cases h with
  | read h => exact .read fun reply => hfg (h reply)
  | record h => exact .record fun reply => hfg (h reply)
  | commit h => exact .commit fun result => hfg (h result)
  | launch h => exact .launch fun result => hfg (h result)
  | send h => exact .send fun reply => hfg (h reply)
  | shut h => exact .shut (hfg h)
  | leave h => exact .leave (hfg h)
  | reap h => exact .reap fun result => hfg (h result)
  | forsake h => exact .forsake (hfg h)
  | proceed h => exact .proceed (hfg h)
  | rest => exact .rest

end Move

namespace Stage

/-- The slots of a stage in a state. -/
def State.slots (l : Ledger) : State → Slots
  | .awaitFirst input earlier =>
    ⟨.awaitFirst, some input, earlier.map (·.1), earlier.map (·.2), earlier.map (·.2.child), l⟩
  | .filtering input p link => ⟨.filtering, some input, some p, some link, some link.child, l⟩
  | .draining input p link => ⟨.draining, some input, some p, some link, some link.child, l⟩
  | .severed input p child => ⟨.draining, some input, some p, none, some child, l⟩
  | .spent p => ⟨.draining, none, some p, none, none, l⟩
  | .childReaped p => ⟨.childReaped, none, some p, none, none, l⟩
  | .done p left => ⟨.done, none, p, left, left.map (·.child), l⟩

def slots (s : Stage) : Slots := s.state.slots s.ledger

@[simp] theorem State.phase_slots (l : Ledger) (state : State) :
    (state.slots l).phase = state.phase := by
  cases state <;> rfl

@[simp] theorem State.prime_slots (l : Ledger) (state : State) :
    (state.slots l).prime = state.prime? := by
  cases state <;> rfl

@[simp] theorem State.ledger_slots (l : Ledger) (state : State) :
    (state.slots l).ledger = l := by
  cases state <;> rfl

namespace Slots

/-- What follows on slots once an output has been given up, and what follows on a state. -/
inductive Shuts : Slots → Shutting → Stage.Shutting → Prop
  | replaced {l : Ledger} {input : Intake} {p : Int32} {link : Link} {old : Child} :
      Shuts (State.slots l (.awaitFirst input (some (p, link)))) (.replaced (some old) p)
        (.replaced input old p link)
  | drained {l : Ledger} {input : Intake} {p : Int32} {child : Child} {n : Nat} :
      Shuts (State.slots l (.severed input p child)) (.drained n) (.drained input p child n)
  | severed {l : Ledger} {input : Intake} {p : Int32} {child : Child} {f : Fault} :
      Shuts (State.slots l (.severed input p child)) (.severed f) (.severed input p child f)
  | givenUp {l : Ledger} {phase : Phase} {input : Option Intake} {prime : Option Int32}
      {child : Child} {f : Fault} :
      Shuts ⟨phase, input, prime, none, some child, l⟩ (.givenUp f)
        (.givenUp input.isSome prime child f)
  | letGo {l : Ledger} {phase : Phase} {prime : Option Int32} {child : Child} :
      Shuts ⟨phase, none, prime, none, some child, l⟩ .letGo (.letGo prime child)

/-- What follows on slots once the input has been given up, and what follows on a state. -/
inductive Leaves : Slots → Leaving → Stage.Leaving → Prop
  | idle {l : Ledger} {earlier : Option (Int32 × Link)} :
      Leaves
        ⟨.awaitFirst, none, earlier.map (·.1), earlier.map (·.2), earlier.map (·.2.child), l⟩
        .idle (.idle earlier)
  | drained {l : Ledger} {p : Int32} {child : Child} :
      Leaves ⟨.draining, none, some p, none, some child, l⟩ .drained (.drained p child)
  | givenUp {l : Ledger} {phase : Phase} {prime : Option Int32} {child : Option Child} {f : Fault} :
      Leaves ⟨phase, none, prime, none, child, l⟩ (.givenUp f) (.givenUp prime child f)
  | letGo {l : Ledger} {phase : Phase} {prime : Option Int32} {left : Option Link} :
      Leaves ⟨phase, none, prime, left, left.map (·.child), l⟩ .letGo (.letGo prime left)
  | letGoSevered {l : Ledger} {phase : Phase} {p : Int32} {child : Child} :
      Leaves ⟨phase, none, some p, none, some child, l⟩ .letGo (.letGoSevered p child)

/-- A call on slots stands where a call on a state stands. -/
inductive Mirrors : Activity → Stage.Activity → Prop
  | first {l : Ledger} {input : Intake} {earlier : Option (Int32 × Link)} :
      Mirrors ⟨State.slots l (.awaitFirst input earlier), .first input⟩
        ⟨.awaitFirst, l, .first input earlier⟩
  | skip {l : Ledger} {input : Intake} {earlier : Option (Int32 × Link)} {n : Nat} :
      Mirrors ⟨State.slots l (.awaitFirst input earlier), .skip input n⟩
        ⟨.awaitFirst, l, .skip input earlier n⟩
  | launch {l : Ledger} {input : Intake} {earlier : Option (Int32 × Link)} {v : Int32} :
      Mirrors ⟨State.slots l (.awaitFirst input earlier), .launch v⟩
        ⟨.awaitFirst, l, .launch input earlier v⟩
  | record {l : Ledger} {input : Intake} {p : Int32} {link : Link} {entry : Record.Entry} :
      Mirrors ⟨State.slots l (.awaitFirst input (some (p, link))), .record entry⟩
        ⟨.awaitFirst, l, .record input p link entry⟩
  | next {l : Ledger} {input : Intake} {p : Int32} {link : Link} :
      Mirrors ⟨State.slots l (.filtering input p link), .next input p link⟩
        ⟨.filtering, l, .next input p link⟩
  | forward {l : Ledger} {input : Intake} {p : Int32} {link : Link} {v : Int32} :
      Mirrors ⟨State.slots l (.filtering input p link), .forward input p link v⟩
        ⟨.filtering, l, .forward input p link v⟩
  | close {l : Ledger} {input : Intake} {p : Int32} {link : Link} :
      Mirrors ⟨State.slots l (.severed input p link.child), .close link⟩
        ⟨.draining, l, .close input p link⟩
  | empty {s : Slots} {o : Outbox} {after : Shutting} {after' : Stage.Shutting}
      (h : Shuts s after after') :
      Mirrors ⟨s, .empty ⟨o, after'.child⟩ after⟩ ⟨s.phase, s.ledger, .empty o after'⟩
  | shut {s : Slots} {after : Shutting} {after' : Stage.Shutting} (h : Shuts s after after') :
      Mirrors ⟨s, .shut after'.child after⟩ ⟨s.phase, s.ledger, .shut after'⟩
  | replace {l : Ledger} {input : Intake} {p : Int32} {link : Link} {old : Child} :
      Mirrors ⟨State.slots l (.awaitFirst input (some (p, link))), .replace old p⟩
        ⟨.awaitFirst, l, .replace input old p link⟩
  | leave {s : Slots} {after : Leaving} {after' : Stage.Leaving} (h : Leaves s after after') :
      Mirrors ⟨s, .leave after⟩ ⟨s.phase, s.ledger, .leave after'⟩
  | reapDrained {l : Ledger} {p : Int32} {child : Child} :
      Mirrors ⟨State.slots l (.spent p), .reap child .drained⟩
        ⟨.draining, l, .reap child (.drained p)⟩
  /-- The phase in which a stage was given up or let go does not matter any more. -/
  | reapGivenUp {l : Ledger} {phase : Phase} {prime : Option Int32} {child : Child} {f : Fault} :
      Mirrors ⟨State.slots l (.done prime none), .reap child (.givenUp f)⟩
        ⟨phase, l, .reap child (.givenUp prime f)⟩
  | forsake {l : Ledger} {phase : Phase} {prime : Option Int32} {child : Child} :
      Mirrors ⟨State.slots l (.done prime none), .forsake child⟩
        ⟨phase, l, .forsake prime child⟩
  | ended {s : Slots} {l : Ledger} {phase : Phase} {state : State} {result : Except Fault Phase}
      (h : s = state.slots l) : Mirrors ⟨s, .ended result⟩ ⟨phase, l, .ended state result⟩

namespace Mirrors

variable {l : Ledger} {phase : Phase} {s : Slots} {input : Intake} {p v : Int32}
  {prime : Option Int32} {earlier : Option (Int32 × Link)} {link : Link} {child : Child}
  {f : Fault} {t : Task} {t' : Stage.Task} {o : Outbox} {after : Shutting}
  {after' : Stage.Shutting}

theorem giveUpOutput (h : Shuts s after after') :
    Mirrors (Activity.giveUpOutput ⟨s, t⟩ ⟨o, after'.child⟩ after)
      (Stage.Activity.giveUpOutput ⟨s.phase, s.ledger, t'⟩ o after') := by
  dsimp only [Activity.giveUpOutput, Stage.Activity.giveUpOutput]
  split
  · exact .shut h
  · exact .empty h

/-- A call succeeds on slots that, but for the phase, hold what the new state holds. -/
theorem settle (state : State) (hp : s.prime = state.prime?)
    (hs : ∀ l, { s with phase := state.phase, ledger := l } = state.slots l) :
    Mirrors (Activity.settle ⟨s, t⟩ state.phase)
      (Stage.Activity.settle ⟨s.phase, s.ledger, t'⟩ state) := by
  dsimp only [Activity.settle, Stage.Activity.settle]
  by_cases hphase : state.phase = s.phase
  · rw [if_pos hphase, if_pos hphase]
    exact .ended (hs _)
  · rw [if_neg hphase, if_neg hphase, ← hp]
    exact .ended (hs _)

theorem gotFirst (receipt : Receipt) :
    Mirrors (Activity.gotFirst ⟨State.slots l (.awaitFirst input earlier), t⟩ input receipt)
      (Stage.Activity.gotFirst ⟨.awaitFirst, l, t'⟩ input earlier receipt) := by
  cases receipt with
  | value v =>
    dsimp only [Activity.gotFirst, Stage.Activity.gotFirst, State.slots]
    by_cases hv : accepts l.ceiling v = true
    · rw [if_pos hv, if_pos hv]
      exact .launch
    · rw [if_neg hv, if_neg hv]
      exact .skip
  | ended torn => exact .leave .idle
  | failed e => exact .ended rfl

theorem gotSkipped (n : Nat) (receipt : Receipt) :
    Mirrors (Activity.gotSkipped ⟨State.slots l (.awaitFirst input earlier), t⟩ input n receipt)
      (Stage.Activity.gotSkipped ⟨.awaitFirst, l, t'⟩ input earlier n receipt) := by
  cases receipt with
  | value v => exact .skip
  | ended torn => exact .leave .idle
  | failed e => exact .ended rfl

theorem launched (result : Except Fault Child) :
    Mirrors (Activity.launched ⟨State.slots l (.awaitFirst input earlier), t⟩ v result)
      (Stage.Activity.launched ⟨.awaitFirst, l, t'⟩ input earlier v result) := by
  cases result with
  | error f => exact .ended rfl
  | ok child =>
    cases earlier with
    | none => exact .record
    | some earlier => exact giveUpOutput .replaced

theorem wrote (entry : Record.Entry) (reply : WriteReply) :
    Mirrors (Activity.wrote ⟨State.slots l (.awaitFirst input (some (p, link))), t⟩ entry reply)
      (Stage.Activity.wrote ⟨.awaitFirst, l, t'⟩ input p link entry reply) := by
  dsimp only [Activity.wrote, Stage.Activity.wrote]
  cases entry.absorb reply with
  | ok entry => exact .record
  | error e => exact .ended rfl

theorem committed (result : Except IoError Unit) :
    Mirrors (Activity.committed ⟨State.slots l (.awaitFirst input (some (p, link))), t⟩ result)
      (Stage.Activity.committed ⟨.awaitFirst, l, t'⟩ input p link result) := by
  cases result with
  | ok u => exact settle (.filtering input p link) rfl fun _ => rfl
  | error e => exact .ended rfl

theorem gotNext (receipt : Receipt) :
    Mirrors (Activity.gotNext ⟨State.slots l (.filtering input p link), t⟩ input p link receipt)
      (Stage.Activity.gotNext ⟨.filtering, l, t'⟩ input p link receipt) := by
  cases receipt with
  | value v =>
    dsimp only [Activity.gotNext, Stage.Activity.gotNext]
    by_cases hv : passes p v = true
    · rw [if_pos hv, if_pos hv]
      by_cases hroom : link.output.hasRoom = true
      · rw [if_pos hroom, if_pos hroom]
        exact .next
      · rw [if_neg hroom, if_neg hroom]
        exact .forward
    · rw [if_neg hv, if_neg hv]
      exact .next
  | ended torn =>
    exact @settle (State.slots (l.noteTorn torn) (.filtering input p link)) _ _
      (.draining input p link) rfl fun _ => rfl
  | failed e => exact .ended rfl

theorem madeRoom (reply : WriteReply) :
    Mirrors (Activity.madeRoom ⟨State.slots l (.filtering input p link), t⟩ input p link v reply)
      (Stage.Activity.madeRoom ⟨.filtering, l, t'⟩ input p link v reply) := by
  dsimp only [Activity.madeRoom, Stage.Activity.madeRoom]
  obtain ⟨o, result⟩ := link.output.absorb reply
  cases result with
  | none => exact .forward
  | some result =>
    cases result with
    | ok u => exact .next
    | error e => exact .ended rfl

theorem closed (reply : WriteReply) :
    Mirrors (Activity.closed ⟨State.slots l (.severed input p link.child), t⟩ link reply)
      (Stage.Activity.closed ⟨.draining, l, t'⟩ input p link reply) := by
  dsimp only [Activity.closed, Stage.Activity.closed]
  obtain ⟨o, result⟩ := link.output.absorb reply
  cases result with
  | none => exact @close l input p ⟨o, link.child⟩
  | some result =>
    cases result with
    | ok u => exact .shut .drained
    | error e => exact giveUpOutput .severed

theorem emptied (h : Shuts s after after') (reply : WriteReply) :
    Mirrors (Activity.emptied ⟨s, t⟩ ⟨o, after'.child⟩ after reply)
      (Stage.Activity.emptied ⟨s.phase, s.ledger, t'⟩ o after' reply) := by
  dsimp only [Activity.emptied, Stage.Activity.emptied]
  obtain ⟨o, result⟩ := o.absorb reply
  cases result with
  | none => exact .empty h
  | some result => exact .shut h

theorem outputGone (h : Shuts s after after') :
    Mirrors (Activity.outputGone ⟨s, t⟩ after)
      (Stage.Activity.outputGone ⟨s.phase, s.ledger, t'⟩ after') := by
  cases h with
  | replaced => exact .replace
  | drained => exact .leave .drained
  | severed => exact .ended rfl
  | @givenUp l phase input prime child f =>
    cases input with
    | none => exact .reapGivenUp
    | some input => exact .leave .givenUp
  | letGo => exact .forsake

theorem inputGone {after : Leaving} {after' : Stage.Leaving} (h : Leaves s after after') :
    Mirrors (Activity.inputGone ⟨s, t⟩ after)
      (Stage.Activity.inputGone ⟨s.phase, s.ledger, t'⟩ after') := by
  cases h with
  | @idle l earlier =>
    refine @settle ⟨.awaitFirst, none, _, _, _, l⟩ _ _
      (.done (earlier.map (·.1)) (earlier.map (·.2))) rfl fun _ => ?_
    cases earlier <;> rfl
  | drained => exact .reapDrained
  | @givenUp l phase prime child f =>
    cases child with
    | none => exact .ended rfl
    | some child => exact .reapGivenUp
  | @letGo l phase prime left =>
    cases left with
    | none => exact .ended rfl
    | some link => exact giveUpOutput .letGo
  | letGoSevered => exact .forsake

theorem reapedDrained (result : Except Fault Unit) :
    Mirrors (Activity.reaped ⟨State.slots l (.spent p), t⟩ child .drained result)
      (Stage.Activity.reaped ⟨.draining, l, t'⟩ child (.drained p) result) := by
  cases result with
  | ok u => exact settle (.childReaped p) rfl fun _ => rfl
  | error f => exact .ended rfl

theorem reapedGivenUp (result : Except Fault Unit) :
    Mirrors (Activity.reaped ⟨State.slots l (.done prime none), t⟩ child (.givenUp f) result)
      (Stage.Activity.reaped ⟨phase, l, t'⟩ child (.givenUp prime f) result) := by
  cases result with
  | ok u => exact .ended rfl
  | error f' =>
    dsimp only [Activity.reaped, Stage.Activity.reaped]
    by_cases hf : f.isBrokenPipe = true
    · rw [if_pos hf, if_pos hf]
      exact .ended rfl
    · rw [if_neg hf, if_neg hf]
      exact .ended rfl

/-- Calls that stand alike ask for the same and, whatever the answer, stand alike after it. -/
theorem move {a : Activity} {b : Stage.Activity} (h : Mirrors a b) :
    a.move.Alike Mirrors b.move := by
  cases h with
  | @first l input earlier =>
    refine .read fun reply => ?_
    obtain ⟨input', receipt⟩ := input.absorb reply
    cases receipt with
    | none => exact .first
    | some receipt => exact gotFirst _
  | @skip l input earlier n =>
    refine .read fun reply => ?_
    obtain ⟨input', receipt⟩ := input.absorb reply
    cases receipt with
    | none => exact .skip
    | some receipt => exact gotSkipped _ _
  | launch => exact .launch launched
  | @record l input p link entry =>
    dsimp only [Activity.move, Stage.Activity.move]
    cases entry.pieces with
    | nil => exact .commit committed
    | cons piece rest => exact .record (wrote _)
  | @next l input p link =>
    refine .read fun reply => ?_
    obtain ⟨input', receipt⟩ := input.absorb reply
    cases receipt with
    | none => exact .next
    | some receipt => exact gotNext _
  | forward => exact .send madeRoom
  | close => exact .send closed
  | empty h => exact .send (emptied h)
  | shut h => exact .shut (outputGone h)
  | replace => exact .forsake .record
  | leave h => exact .leave (inputGone h)
  | reapDrained => exact .reap reapedDrained
  | reapGivenUp => exact .reap reapedGivenUp
  | forsake => exact .forsake (.ended rfl)
  | ended => exact .rest

/-- The call has come to its end on both sides, or on none. -/
theorem outcome?_eq {a : Activity} {b : Stage.Activity} (h : Mirrors a b) :
    a.outcome? = b.outcome?.map fun (s, result) => (s.slots, result) := by
  cases h with
  | ended h => rw [h]; rfl
  | _ => rfl

end Mirrors

/-! ## Calls -/

theorem mirrors_step (s : Stage) : Mirrors s.slots.step s.step := by
  obtain ⟨l, state⟩ := s
  cases state with
  | awaitFirst input earlier => exact .first
  | filtering input p link => exact .next
  | draining input p link =>
    dsimp only [slots, State.slots, step, Stage.step]
    by_cases he : link.output.isEmpty = true
    · rw [if_pos he, if_pos he]
      exact .shut .drained
    · rw [if_neg he, if_neg he]
      exact .close
  | severed input p child => exact .ended rfl
  | spent p => exact .ended rfl
  | childReaped p =>
    exact @Mirrors.settle (State.slots l (.childReaped p)) _ _ (.done (some p) none) rfl
      fun _ => rfl
  | done p left => exact .ended rfl

theorem mirrors_giveUp (s : Stage) (f : Fault) : Mirrors (s.slots.giveUp f) (s.giveUp f) := by
  obtain ⟨l, state⟩ := s
  cases state with
  | awaitFirst input earlier =>
    cases earlier with
    | none => exact .leave .givenUp
    | some earlier => exact Mirrors.giveUpOutput (@Shuts.givenUp l _ (some input) _ _ _)
  | filtering input p link => exact Mirrors.giveUpOutput .givenUp
  | draining input p link => exact Mirrors.giveUpOutput .givenUp
  | severed input p child => exact .leave .givenUp
  | spent p => exact .ended rfl
  | childReaped p => exact .ended rfl
  | done p left =>
    cases left with
    | none => exact .ended rfl
    | some link => exact Mirrors.giveUpOutput .givenUp

theorem mirrors_letGo (s : Stage) : Mirrors s.slots.letGo s.letGo := by
  obtain ⟨l, state⟩ := s
  cases state with
  | awaitFirst input earlier =>
    cases earlier with
    | none => exact .leave .letGo
    | some earlier => exact .leave (@Leaves.letGo l _ _ (some earlier.2))
  | filtering input p link => exact .leave .letGo
  | draining input p link => exact .leave .letGo
  | severed input p child => exact .leave .letGoSevered
  | spent p => exact .ended rfl
  | childReaped p => exact .ended rfl
  | done p left =>
    cases left with
    | none => exact .ended rfl
    | some link => exact Mirrors.giveUpOutput .letGo

/-! ## Runs -/

/-- A run by slots has got as far as a run by states. -/
inductive Run.Mirrors : Run → Stage.Run → Prop
  | stepping {a : Activity} {b : Stage.Activity} (h : Slots.Mirrors a b) :
      Mirrors (.stepping a) (.stepping b)
  | givingUp {a : Activity} {b : Stage.Activity} (h : Slots.Mirrors a b) :
      Mirrors (.givingUp a) (.givingUp b)
  | finished {s : Slots} {t : Stage} {result : Except Fault Report} (h : s = t.slots) :
      Mirrors (.finished s result) (.finished t result)

theorem report_slots (s : Stage) : s.slots.report = s.report := by
  obtain ⟨l, state⟩ := s
  cases state <;> rfl

theorem slots_note (s : Stage) (n : Notice) :
    { s.slots with ledger := s.slots.ledger.note n } =
      Stage.slots { s with ledger := s.ledger.note n } := by
  obtain ⟨l, state⟩ := s
  cases state <;> rfl

theorem Run.Mirrors.afterStep (s : Stage) (result : Except Fault Phase) :
    Mirrors (Run.afterStep s.slots result) (Stage.Run.afterStep s result) := by
  cases result with
  | error f => exact .givingUp (mirrors_giveUp s f)
  | ok phase =>
    cases phase with
    | done =>
      dsimp only [Run.afterStep, Stage.Run.afterStep]
      rw [report_slots]
      exact .finished (slots_note s _)
    | _ => exact .stepping (mirrors_step s)

theorem Run.Mirrors.afterGivingUp (s : Stage) (result : Except Fault Phase) :
    Mirrors (Run.afterGivingUp s.slots result) (Stage.Run.afterGivingUp s result) := by
  cases result with
  | error f => exact .finished rfl
  | ok phase =>
    dsimp only [Run.afterGivingUp, Stage.Run.afterGivingUp]
    rw [report_slots]
    exact .finished rfl

theorem Run.Mirrors.move {r : Run} {q : Stage.Run} (h : Mirrors r q) :
    r.move.Alike Mirrors q.move := by
  cases h with
  | @stepping a b h =>
    rw [Run.move, Stage.Run.move, h.outcome?_eq]
    cases b.outcome? with
    | none => exact h.move.map .stepping
    | some out => exact .proceed (afterStep _ _)
  | @givingUp a b h =>
    rw [Run.move, Stage.Run.move, h.outcome?_eq]
    cases b.outcome? with
    | none => exact h.move.map .givingUp
    | some out => exact .proceed (afterGivingUp _ _)
  | finished h => exact .rest

theorem Run.Mirrors.outcome?_eq {r : Run} {q : Stage.Run} (h : Mirrors r q) :
    r.outcome? = q.outcome?.map fun (s, result) => (s.slots, result) := by
  cases h with
  | finished h => rw [h]; rfl
  | _ => rfl

end Slots

end Stage

open Scripted

section Driving

variable {σ τ : Type} {R : σ → τ → Prop}

theorem Scripted.Surroundings.answer_alike {m : Move σ} {m' : Move τ} (w : Surroundings)
    (h : m.Alike R m') :
    (w.answer m).2 = (w.answer m').2 ∧ Option.Rel R (w.answer m).1 (w.answer m').1 := by
  cases h with
  | read h => exact ⟨rfl, .some (h _)⟩
  | record h => exact ⟨rfl, .some (h _)⟩
  | commit h => exact ⟨rfl, .some (h _)⟩
  | launch h => exact ⟨rfl, .some (h _)⟩
  | send h => exact ⟨rfl, .some (h _)⟩
  | shut h => exact ⟨rfl, .some h⟩
  | leave h => exact ⟨rfl, .some h⟩
  | @reap child next next' h =>
    dsimp only [Surroundings.answer]
    cases (w.channel child).ending with
    | none => exact ⟨rfl, .none⟩
    | some result => exact ⟨rfl, .some (h _)⟩
  | forsake h => exact ⟨rfl, .some h⟩
  | proceed h => exact ⟨rfl, .some h⟩
  | rest => exact ⟨rfl, .none⟩

theorem Scripted.Surroundings.drive_alike [Party σ] [Party τ]
    (hR : ∀ {p q}, R p q → (Party.move p).Alike R (Party.move q)) (n : Nat) {p : σ} {q : τ}
    (w : Surroundings) (h : R p q) :
    (w.drive n p).2 = (w.drive n q).2 ∧ R (w.drive n p).1 (w.drive n q).1 := by
  induction n generalizing p q w with
  | zero => exact ⟨rfl, h⟩
  | succ n ih =>
    obtain ⟨hw, hr⟩ := w.answer_alike (hR h)
    dsimp only [drive]
    revert hw hr
    generalize w.answer (Party.move p) = x
    generalize w.answer (Party.move q) = y
    obtain ⟨x, w'⟩ := x
    obtain ⟨y, w''⟩ := y
    rintro rfl hr
    cases hr with
    | none => exact ⟨rfl, h⟩
    | some hr => exact ih _ hr

end Driving

namespace Stage.Slots

theorem Mirrors.perform_eq {a : Activity} {b : Stage.Activity} (h : Mirrors a b)
    (w : Surroundings) :
    a.perform w = ((b.perform w).1.map fun (s, result) => (s.slots, result), (b.perform w).2) := by
  obtain ⟨hw, hr⟩ := w.drive_alike Mirrors.move (w.allowance Outbox.capacity) h
  exact Prod.ext hr.outcome?_eq hw

/-- In the same surroundings, a stage runs by its slots as it runs by its state. -/
theorem run_slots (s : Stage) (w : Surroundings) :
    s.slots.run w = ((s.run w).1.map fun (s, result) => (s.slots, result), (s.run w).2) := by
  have hstart : Run.Mirrors (Run.start s.slots) (Stage.Run.start s) := .stepping (mirrors_step s)
  obtain ⟨hw, hr⟩ := w.drive_alike Run.Mirrors.move (w.allowance Outbox.capacity) hstart
  exact Prod.ext hr.outcome?_eq hw

end Stage.Slots

end SieveChain
