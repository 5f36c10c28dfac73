import SieveChain.Proofs.FeederAccount
import SieveChain.Proofs.StageConduct

/-!
# Where faults come from

A party that fails carries a fault to its end. The fault arises from the first operation that
fails; the attempts to clean up that follow it add nothing. When the child is reaped and has
failed too, a broken pipe gives way to the child's fault, and any other fault is kept.
-/

namespace SieveChain

/-- The error of a read, a write or a flush that fails. What has been interrupted is tried
again. -/
def Event.error? : Event → Option IoError
  | .read (.failed e) => if e.isInterrupted then none else some e
  | .recorded _ (.failed e) => if e.isInterrupted then none else some e
  | .recorded _ (.took 0) => some Record.Entry.stuck
  | .committed (.error e) => some e
  | .sent _ _ (.failed e) => if e.isInterrupted then none else some e
  | .sent _ _ (.took 0) => some Outbox.stuck
  | _ => none

/-- What is done with bytes and ends, and not with a child. -/
def Event.isPlain : Event → Bool
  | .launched _ => false
  | .reaped _ _ => false
  | _ => true

theorem Event.isPlain_of_error {e : Event} {error : IoError} (he : e.error? = some error) :
    e.isPlain = true := by
  cases e with
  | launched result => cases he
  | reaped child result => cases he
  | _ => rfl

/-- What becomes of the fault that a party carries, if it carries one, when it meets an event. -/
inductive Carries : Option Event → Option Fault → Option Fault → Prop
  | proceed {fault : Option Fault} : Carries none fault fault
  | done {e : Event} {fault : Option Fault} (hp : e.isPlain = true) (hn : e.error? = none) :
      Carries (some e) fault fault
  | failed {e : Event} {error : IoError} {context : String} (hp : e.isPlain = true)
      (he : e.error? = some error) : Carries (some e) none (some (.within context (.io error)))
  /-- To clean up has failed as well. -/
  | again {e : Event} {error : IoError} {f : Fault} (hp : e.isPlain = true)
      (he : e.error? = some error) : Carries (some e) (some f) (some f)
  | launched {child : Child} : Carries (some (.launched (.ok child))) none none
  | refused {f : Fault} {context : String} :
      Carries (some (.launched (.error f))) none (some (.within context f))
  | reaped {child : Child} {fault : Option Fault} :
      Carries (some (.reaped child (.ok ()))) fault fault
  | handed {child : Child} {f : Fault} : Carries (some (.reaped child (.error f))) none (some f)
  | within {child : Child} {f : Fault} {context : String} :
      Carries (some (.reaped child (.error f))) none (some (.within context f))
  | gaveWay {child : Child} {own f : Fault} (h : own.isBrokenPipe = true) :
      Carries (some (.reaped child (.error f))) (some own) (some f)
  | kept {child : Child} {own f : Fault} (h : own.isBrokenPipe = false) :
      Carries (some (.reaped child (.error f))) (some own) (some own)

section Errors

variable {e : IoError}

theorem Event.error?_read_interrupted (hi : e.isInterrupted = true) :
    (Event.read (.failed e)).error? = none := if_pos hi

theorem Event.error?_read_failed (hi : e.isInterrupted = false) :
    (Event.read (.failed e)).error? = some e := by
  rw [error?, hi]
  rfl

theorem Event.error?_recorded_interrupted {accepted : List UInt8} (hi : e.isInterrupted = true) :
    (Event.recorded accepted (.failed e)).error? = none := if_pos hi

theorem Event.error?_recorded_failed {accepted : List UInt8} (hi : e.isInterrupted = false) :
    (Event.recorded accepted (.failed e)).error? = some e := by
  rw [error?, hi]
  rfl

theorem Event.error?_sent_interrupted {child : Child} {accepted : List UInt8}
    (hi : e.isInterrupted = true) : (Event.sent child accepted (.failed e)).error? = none :=
  if_pos hi

theorem Event.error?_sent_failed {child : Child} {accepted : List UInt8}
    (hi : e.isInterrupted = false) : (Event.sent child accepted (.failed e)).error? = some e := by
  rw [error?, hi]
  rfl

end Errors

/-! ## Writes -/

/-- How a write comes out, by the error of its event. -/
inductive Outbox.Told (child : Child) (o : Outbox) (e : Event) :
    Outbox × Option (Except IoError Unit) → Prop
  | more {o' : Outbox} (hn : e.error? = none) : Told child o e (o', none)
  | all {o' : Outbox} (hn : e.error? = none) : Told child o e (o', some (.ok ()))
  | failed {error : IoError} (he : e.error? = some error) : Told child o e (o, some (.error error))

theorem Outbox.absorb_told {o : Outbox} (hne : o.bytes ≠ []) (child : Child)
    (accepted : List UInt8) (reply : WriteReply) :
    Told child o (.sent child accepted reply) (o.absorb reply) := by
  have hg := absorb_gone hne reply
  generalize o.absorb reply = outcome at hg ⊢
  cases hg with
  | interrupted hi => exact .more (Event.error?_sent_interrupted hi)
  | failed hi => exact .failed (Event.error?_sent_failed hi)
  | stuck => exact .failed rfl
  | more hb ht hs hne' => exact .more rfl
  | all hb he ht => exact .all rfl

/-! ## Stages -/

namespace Stage

open Wire Record

variable {ceiling : Option Int32} {a : Account} {e : Option Event} {call call' : Activity}

def Shutting.fault? : Shutting → Option Fault
  | .severed _ _ _ f => some f
  | .givenUp _ _ _ f => some f
  | _ => none

def Leaving.fault? : Leaving → Option Fault
  | .givenUp _ _ f => some f
  | _ => none

def Reaping.fault? : Reaping → Option Fault
  | .givenUp _ f => some f
  | _ => none

/-- The fault of a step from a state: a failure may have left the state without what a step
needs. -/
def State.fault? : State → Option Fault
  | .severed _ _ _ => some noOutput
  | .spent _ => some noOutput
  | _ => none

/-- The fault that a call carries at a task. -/
def Task.fault? : Task → Option Fault
  | .empty _ after => after.fault?
  | .shut after => after.fault?
  | .leave after => after.fault?
  | .reap _ after => after.fault?
  | .ended _ (.error f) => some f
  | .ended state (.ok _) => state.fault?
  | _ => none

/-- The fault that a run carries. -/
def Run.fault? : Run → Option Fault
  | .stepping call => call.task.fault?
  | .givingUp call => call.task.fault?
  | .finished _ (.error f) => some f
  | .finished _ (.ok _) => none

theorem Activity.fault?_giveUpOutput (b : Activity) (o : Outbox) (after : Shutting) :
    (b.giveUpOutput o after).task.fault? = after.fault? := by
  unfold Activity.giveUpOutput
  split <;> rfl

theorem Activity.fault?_settle (b : Activity) (state : State) :
    (b.settle state).task.fault? = state.fault? := by
  rw [Activity.task_settle]
  rfl

theorem fault?_step (l : Ledger) (state : State) :
    (step { ledger := l, state }).task.fault? = state.fault? := by
  cases state with
  | draining input p link =>
    dsimp only [step]
    split <;> rfl
  | childReaped p =>
    rw [step, Activity.fault?_settle]
    rfl
  | _ => rfl

theorem fault?_giveUp (s : Stage) (f : Fault) : (s.giveUp f).task.fault? = some f := by
  obtain ⟨l, state⟩ := s
  cases state with
  | awaitFirst input earlier =>
    cases earlier with
    | none => rfl
    | some earlier => exact Activity.fault?_giveUpOutput _ _ _
  | filtering input p link => exact Activity.fault?_giveUpOutput _ _ _
  | draining input p link => exact Activity.fault?_giveUpOutput _ _ _
  | severed input p child => rfl
  | spent p => rfl
  | childReaped p => rfl
  | done p left =>
    cases left with
    | none => rfl
    | some link => exact Activity.fault?_giveUpOutput _ _ _

/-- Emptying an output that is given up for a fault keeps the fault, however it goes. -/
theorem carries_emptied {phase : Phase} {l : Ledger} {o : Outbox} {after : Shutting} {f : Fault}
    (hf : after.fault? = some f) (hne : o.bytes ≠ [])
    (hm : (Activity.move ⟨phase, l, .empty o after⟩).Answered e call') :
    Carries e (some f) call'.task.fault? := by
  cases hm with
  | @send _ _ _ reply fits =>
  have htold := Outbox.absorb_told hne after.child
    (Scripted.Surroundings.accepted o.bytes reply) reply
  dsimp only [Activity.emptied]
  generalize o.absorb reply = outcome at htold ⊢
  cases htold with
  | more hn =>
    show Carries _ _ after.fault?
    rw [hf]
    exact .done rfl hn
  | all hn =>
    show Carries _ _ after.fault?
    rw [hf]
    exact .done rfl hn
  | failed he =>
    show Carries _ _ after.fault?
    rw [hf]
    exact .again rfl he

theorem GivingUp.carries (h : GivingUp ceiling a call.task)
    (hm : call.move.Answered e call') : Carries e call.task.fault? call'.task.fault? := by
  obtain ⟨phase, l, task⟩ := call
  cases h with
  | leaveAlone h hl =>
    cases hm
    exact .done rfl rfl
  | endedAlone => cases hm
  | empty h hh hne => exact carries_emptied rfl hne hm
  | shut h hh =>
    cases hm
    exact .done rfl rfl
  | leave h hs hl hr =>
    cases hm
    exact .done rfl rfl
  | @reap p vs child f h hs hl hr =>
    cases hm with
    | reap result =>
    cases result with
    | ok u => exact .reaped
    | error f' =>
      dsimp only [Activity.reaped]
      cases hb : f.isBrokenPipe with
      | true => exact .gaveWay hb
      | false => exact .kept hb
  | ended => cases hm

/-! ### What a stage was doing -/

/-- What a stage reads for. -/
def readingFor (ceiling : Option Int32) (a : Account) : String :=
  match values a.received with
  | [] => "Reading first value"
  | v :: _ => if accepts ceiling v then "Reading input" else "Draining input"

/-- What a stage sends for: it makes room for the value that it has received last, until it has
found the end of its input. -/
def sendingFor (a : Account) : String :=
  if a.ended then "Closing output"
  else "Forwarding " ++ Numeral.text ((values a.received).getLastD 0)

/-- What a stage was doing when something happened. -/
def doing (ceiling : Option Int32) (a : Account) : Event → String
  | .read _ => readingFor ceiling a
  | .recorded _ _ => "Writing record"
  | .committed _ => "Writing record"
  | .launched _ => "Stage " ++ Numeral.text ((values a.received).headD 0)
  | .sent _ _ _ => sendingFor a
  | _ => ""

/-! ### The step that fails -/

/-- A task that carries no fault goes on to one that carries what arises from its event. -/
inductive Arises (ceiling : Option Int32) (a : Account) : Option Event → Option Fault → Prop
  | proceed : Arises ceiling a none none
  | done {e : Event} (hp : e.isPlain = true) (hn : e.error? = none) :
      Arises ceiling a (some e) none
  | failed {e : Event} {error : IoError} {context : String} (he : e.error? = some error)
      (hc : doing ceiling a e = context) :
      Arises ceiling a (some e) (some (.within context (.io error)))
  | launched {child : Child} : Arises ceiling a (some (.launched (.ok child))) none
  | refused {f : Fault} {context : String} (hc : doing ceiling a (.launched (.error f)) = context) :
      Arises ceiling a (some (.launched (.error f))) (some (.within context f))
  | reaped {child : Child} : Arises ceiling a (some (.reaped child (.ok ()))) none
  | handed {child : Child} {f : Fault} :
      Arises ceiling a (some (.reaped child (.error f))) (some f)

theorem Arises.carries {fault : Option Fault} (h : Arises ceiling a e fault) :
    Carries e none fault := by
  cases h with
  | proceed => exact .proceed
  | done hp hn => exact .done hp hn
  | failed he hc => exact .failed (Event.isPlain_of_error he) he
  | launched => exact .launched
  | refused hc => exact .refused
  | reaped => exact .reaped
  | handed => exact .handed

theorem readingFor_accepted {p : Int32} {vs : List Int32} (hv : accepts ceiling p = true)
    (hr : values a.received = p :: vs) : readingFor ceiling a = "Reading input" := by
  rw [readingFor, hr]
  exact if_pos hv

/-- The fault that a receipt brings: none, unless the read has failed for good. -/
def receiptFault? (context : String) : Receipt → Option Fault
  | .failed error => some (.within context (.io error))
  | _ => none

theorem Activity.fault?_gotFirst (b : Activity) (input : Intake)
    (earlier : Option (Int32 × Link)) (receipt : Receipt) :
    (b.gotFirst input earlier receipt).task.fault? =
      receiptFault? "Reading first value" receipt := by
  cases receipt with
  | value v =>
    dsimp only [gotFirst]
    split <;> rfl
  | _ => rfl

theorem Activity.fault?_gotSkipped (b : Activity) (input : Intake)
    (earlier : Option (Int32 × Link)) (n : Nat) (receipt : Receipt) :
    (b.gotSkipped input earlier n receipt).task.fault? =
      receiptFault? "Draining input" receipt := by
  cases receipt <;> rfl

theorem Activity.fault?_gotNext (b : Activity) (input : Intake) (p : Int32) (link : Link)
    (receipt : Receipt) :
    (b.gotNext input p link receipt).task.fault? = receiptFault? "Reading input" receipt := by
  cases receipt with
  | value v =>
    dsimp only [gotNext]
    split
    · split <;> rfl
    · rfl
  | ended torn => exact Activity.fault?_settle _ _
  | failed error => rfl

/-- A read that is replied to brings the fault of what has been received, if anything has been. -/
theorem arises_received {input : Intake} {reply : ReadReply} {outcome : Intake × Option Receipt}
    {again : Intake → Activity} {got : Intake → Receipt → Activity} {context : String}
    (hcame : input.Came reply outcome) (hfor : readingFor ceiling a = context)
    (hagain : ∀ i, (again i).task.fault? = none)
    (hgot : ∀ i receipt, (got i receipt).task.fault? = receiptFault? context receipt) :
    Arises ceiling a (some (.read reply))
      (match outcome with
        | (i, none) => again i
        | (i, some receipt) => got i receipt).task.fault? := by
  cases hcame with
  | interrupted hi =>
    rw [hagain]
    exact .done rfl (Event.error?_read_interrupted hi)
  | failed hi =>
    rw [hgot]
    exact .failed (Event.error?_read_failed hi) hfor
  | more hl =>
    rw [hagain]
    exact .done rfl rfl
  | _ =>
    rw [hgot]
    exact .done rfl rfl

theorem arises_recorded {phase : Phase} {l : Ledger} {input : Intake} {p : Int32} {link : Link}
    {entry : Record.Entry} (hne : ∀ piece ∈ entry.pieces, piece ≠ [])
    (hm : (Activity.move ⟨phase, l, .record input p link entry⟩).Answered e call') :
    Arises ceiling a e call'.task.fault? := by
  dsimp only [Activity.move] at hm
  split at hm
  · cases hm with
    | commit result =>
    cases result with
    | ok u =>
      dsimp only [Activity.committed]
      rw [Activity.fault?_settle]
      exact .done rfl rfl
    | error error => exact .failed rfl rfl
  · next piece rest hp =>
    cases hm with
    | @record _ _ reply fits =>
    have hw := Record.Entry.absorb_wrote hp hne reply
    dsimp only [Activity.wrote]
    generalize entry.absorb reply = outcome at hw ⊢
    cases hw with
    | interrupted hi => exact .done rfl (Event.error?_recorded_interrupted hi)
    | failed hi => exact .failed (Event.error?_recorded_failed hi) rfl
    | stuck => exact .failed rfl rfl
    | some hb hne' hlt => exact .done rfl rfl

theorem arises_forward {phase : Phase} {l : Ledger} {input : Intake} {p v : Int32}
    {vs : List Int32} {link : Link} (he : a.ended = false)
    (hr : a.received = encodeAll (p :: vs) ++ encode v) (hne : link.output.bytes ≠ [])
    (hm : (Activity.move ⟨phase, l, .forward input p link v⟩).Answered e call') :
    Arises ceiling a e call'.task.fault? := by
  have hlast : sendingFor a = "Forwarding " ++ Numeral.text v := by
    rw [sendingFor, he, if_neg Bool.false_ne_true, hr, values_encodeAll_append, values_encode,
      List.getLastD_concat]
  cases hm with
  | @send _ _ _ reply fits =>
  have htold := Outbox.absorb_told hne link.child
    (Scripted.Surroundings.accepted link.output.bytes reply) reply
  dsimp only [Activity.madeRoom]
  generalize link.output.absorb reply = outcome at htold ⊢
  cases htold with
  | more hn => exact .done rfl hn
  | all hn => exact .done rfl hn
  | failed herror => exact .failed herror hlast

theorem arises_closed {phase : Phase} {l : Ledger} {input : Intake} {p : Int32} {link : Link}
    (he : a.ended = true) (hne : link.output.bytes ≠ [])
    (hm : (Activity.move ⟨phase, l, .close input p link⟩).Answered e call') :
    Arises ceiling a e call'.task.fault? := by
  have hclose : sendingFor a = "Closing output" := by rw [sendingFor, if_pos he]
  cases hm with
  | @send _ _ _ reply fits =>
  have htold := Outbox.absorb_told hne link.child
    (Scripted.Surroundings.accepted link.output.bytes reply) reply
  dsimp only [Activity.closed]
  generalize link.output.absorb reply = outcome at htold ⊢
  cases htold with
  | more hn => exact .done rfl hn
  | all hn => exact .done rfl hn
  | failed herror =>
    dsimp only
    rw [Activity.fault?_giveUpOutput]
    exact .failed herror hclose

theorem Stepping.arises (h : Stepping ceiling a call.ledger call.task)
    (hm : call.move.Answered e call') (hf : call.task.fault? = none) :
    Arises ceiling a e call'.task.fault? := by
  obtain ⟨phase, l, task⟩ := call
  cases h with
  | @first input h he hr hh hd =>
    have hfor : readingFor ceiling a = "Reading first value" := by
      rw [readingFor, values_eq_nil (by rw [hr]; exact hh)]
    cases hm with
    | read fits =>
    exact arises_received (Intake.absorb_came fits hh) hfor (fun i => rfl)
      fun i => Activity.fault?_gotFirst _ i none
  | @skip input v vs n h he hv hr hh hn =>
    have hfor : readingFor ceiling a = "Draining input" := by
      rw [readingFor, hr, values_torn _ hh]
      exact if_neg (by rw [hv]; exact Bool.false_ne_true)
    cases hm with
    | read fits =>
    exact arises_received (Intake.absorb_came fits hh) hfor (fun i => rfl)
      fun i => Activity.fault?_gotSkipped _ i none n
  | idle h he hv hd =>
    cases hm
    dsimp only [Activity.inputGone]
    rw [Activity.fault?_settle]
    exact .done rfl rfl
  | @launch input v h he hv hr hi hd =>
    cases hm with
    | launch result =>
    cases result with
    | ok child => exact .launched
    | error f =>
      refine .refused ?_
      show "Stage " ++ Numeral.text ((values a.received).headD 0) = "Stage " ++ Numeral.text v
      rw [hr, values_encode, List.headD_cons]
  | record hv hr hi hb hne hcm hn hk hs hh he hsm hf hd => exact arises_recorded hne hm
  | @next input p vs link h he hr hh =>
    have hfor : readingFor ceiling a = "Reading input" :=
      readingFor_accepted h.accepted (by rw [hr, values_torn _ hh])
    cases hm with
    | read fits =>
    exact arises_received (Intake.absorb_came fits hh) hfor (fun i => rfl)
      fun i => Activity.fault?_gotNext _ i p link
  | forward h he hr hi hv hne => exact arises_forward he hr hne hm
  | close h he hr hne => exact arises_closed he hne hm
  | shut h he hr hb =>
    cases hm
    exact .done rfl rfl
  | leave h hl hr =>
    cases hm
    exact .done rfl rfl
  | reap h hl hr =>
    cases hm with
    | reap result =>
    cases result with
    | ok u =>
      dsimp only [Activity.reaped]
      rw [Activity.fault?_settle]
      exact .reaped
    | error f => exact .handed
  | emptySevered h hh hne => cases hf
  | shutSevered h hh => cases hf
  | idled => cases hm
  | done => cases hm
  | settled => cases hm
  | failed => cases hm

/-- A step carries no fault, or has lost its output and carries the fault of that. -/
theorem Stepping.carries (h : Stepping ceiling a call.ledger call.task)
    (hm : call.move.Answered e call') : Carries e call.task.fault? call'.task.fault? := by
  cases hf : call.task.fault? with
  | none => exact (h.arises hm hf).carries
  | some f =>
    obtain ⟨phase, l, task⟩ := call
    cases h with
    | emptySevered h hh hne =>
      cases hf
      exact carries_emptied rfl hne hm
    | shutSevered h hh =>
      cases hf
      cases hm
      exact .done rfl rfl
    | settled => cases hm
    | failed => cases hm
    | _ => cases hf

/-- What becomes of the fault of a stage is decided by what the stage meets. -/
theorem Run.carries {r r' : Run} (h : r.Accords ceiling a) (hm : r.move.Answered e r') :
    Carries e r.fault? r'.fault? := by
  cases r with
  | stepping call =>
    obtain ⟨-, h⟩ := h
    cases hout : call.outcome? with
    | none =>
      simp only [Run.move, hout] at hm
      obtain ⟨call', hcall, rfl⟩ := hm.of_map
      exact h.carries hcall
    | some result =>
      obtain ⟨⟨l, state⟩, result⟩ := result
      obtain ⟨ht, -⟩ := Activity.outcome_eq_some hout
      simp only [Run.move, hout] at hm
      cases hm
      dsimp only at ht
      rw [Run.fault?, ht]
      rw [ht] at h
      cases h with
      | idled => exact .proceed
      | done => exact .proceed
      | settled hp h =>
        have hnext := fault?_step l state
        cases hphase : state.phase with
        | done => exact absurd hphase hp
        | awaitFirst | filtering | draining | childReaped =>
          show Carries none state.fault? (step { ledger := l, state }).task.fault?
          rw [hnext]
          exact .proceed
      | @failed _ f h =>
        show Carries none (some f) (giveUp { ledger := l, state } f).task.fault?
        rw [fault?_giveUp]
        exact .proceed
  | givingUp call =>
    cases hout : call.outcome? with
    | none =>
      simp only [Run.move, hout] at hm
      obtain ⟨call', hcall, rfl⟩ := hm.of_map
      exact GivingUp.carries h hcall
    | some result =>
      obtain ⟨⟨l, state⟩, result⟩ := result
      obtain ⟨ht, -⟩ := Activity.outcome_eq_some hout
      simp only [Run.move, hout] at hm
      cases hm
      dsimp only at ht
      rw [Run.fault?, ht]
      rw [Run.Accords, ht] at h
      cases h with
      | endedAlone => exact .proceed
      | ended => exact .proceed
  | finished s result => cases hm

/-- As long as all goes well, a step carries no fault. -/
theorem Stepping.fault?_eq {l : Ledger} {t : Task} (h : Stepping ceiling a l t)
    (hs : a.smooth = true) : t.fault? = none := by
  have whole : ∀ t : Task, a.smooth = false → t.fault? = none := by
    intro t hn
    rw [hs] at hn
    cases hn
  induction h with
  | emptySevered h hh hne => exact whole _ h.smooth
  | shutSevered h hh => exact whole _ h.smooth
  | settled hp h ih => exact (fault?_step _ _).symm.trans ih
  | failed h => exact whole _ h.not_smooth
  | _ => rfl

theorem Run.not_smooth_of_fault {r : Run} (h : r.Accords ceiling a)
    (hf : r.fault?.isSome = true) : a.smooth = false := by
  rw [← Bool.not_eq_true]
  intro hs
  cases r with
  | stepping call =>
    rw [Run.fault?, h.2.fault?_eq hs] at hf
    cases hf
  | givingUp call =>
    rw [GivingUp.not_smooth h] at hs
    cases hs
  | finished s result =>
    have hok := Run.isOk_of_finished h
    rw [hs] at hok
    cases result with
    | ok report => cases hf
    | error f' => cases hok

end Stage

/-! ## Feeders -/

namespace Feeder

variable {c : Candidates} {a : Account} {e : Option Event}

/-- The fault that a feeder carries at a task. -/
def Task.fault? : Task → Option Fault
  | .empty _ _ f => some f
  | .shut _ (.error f) => some f
  | .reap _ (.error f) => some f
  | .finished (.error f) => some f
  | _ => none

/-- The fault that a run carries. -/
def Run.fault? (r : Run) : Option Fault := r.task.fault?

theorem Run.fault?_failed (r : Run) (child : Child) (o : Outbox) (f : Fault) :
    (r.failed child o f).fault? = some f := by
  unfold failed
  split <;> rfl

theorem Run.fault?_feed (r : Run) (child : Child) (o : Outbox) (left : Nat) (next : Int32) :
    (r.feed child o left next).fault? = none := by
  unfold feed
  split
  · split <;> rfl
  · rfl

theorem Run.carries_reaped (r : Run) (child : Child) (fed : Except Fault Nat)
    (result : Except Fault Unit) :
    Carries (some (.reaped child result)) (Task.reap child fed).fault?
      (r.reaped child fed result).fault? := by
  cases fed with
  | ok n =>
    cases result with
    | ok u => exact .reaped
    | error f => exact .within
  | error own =>
    cases result with
    | ok u => exact .reaped
    | error f =>
      dsimp only [Run.reaped]
      cases hb : own.isBrokenPipe with
      | true => exact .gaveWay hb
      | false => exact .kept hb

/-- What becomes of the fault of a feeder is decided by what the feeder meets. -/
theorem Run.carries {r r' : Run} (h : r.Accords c a) (hm : r.move.Answered e r') :
    Carries e r.fault? r'.fault? := by
  obtain ⟨candidates, notices, task⟩ := r
  obtain ⟨-, h⟩ := h
  cases h with
  | launch h hn hs hl =>
    cases hm with
    | launch result =>
    cases result with
    | ok child => exact .launched
    | error f => exact .refused
  | feed h =>
    cases hm
    rw [Run.fault?_feed]
    exact .proceed
  | @makeRoom child o todo next h hne =>
    cases hm with
    | @send _ _ _ reply fits =>
    have htold := Outbox.absorb_told hne child
      (Scripted.Surroundings.accepted o.bytes reply) reply
    dsimp only [Run.madeRoom]
    generalize o.absorb reply = outcome at htold ⊢
    cases htold with
    | more hn => exact .done rfl hn
    | all hn => exact .done rfl hn
    | failed he =>
      dsimp only
      rw [Run.fault?_failed]
      exact .failed rfl he
  | @close child o next h hne =>
    cases hm with
    | @send _ _ _ reply fits =>
    have htold := Outbox.absorb_told hne child
      (Scripted.Surroundings.accepted o.bytes reply) reply
    dsimp only [Run.closed]
    generalize o.absorb reply = outcome at htold ⊢
    cases htold with
    | more hn => exact .done rfl hn
    | all hn => exact .done rfl hn
    | failed he =>
      dsimp only
      rw [Run.fault?_failed]
      exact .failed rfl he
  | shut h hs hr =>
    cases hm
    exact .done rfl rfl
  | reap h hs hr =>
    cases hm with
    | reap result => exact Run.carries_reaped _ _ _ _
  | done h hs hr => cases hm
  | @emptyTorn child o f h hs hr hne =>
    cases hm with
    | @send _ _ _ reply fits =>
    have htold := Outbox.absorb_told hne child
      (Scripted.Surroundings.accepted o.bytes reply) reply
    dsimp only [Run.emptied]
    generalize o.absorb reply = outcome at htold ⊢
    cases htold with
    | more hn => exact .done rfl hn
    | all hn => exact .done rfl hn
    | failed he => exact .again rfl he
  | shutTorn h hs hr =>
    cases hm
    exact .done rfl rfl
  | reapTorn h hs hr =>
    cases hm with
    | reap result => exact Run.carries_reaped _ _ _ _
  | failed h hs hr => cases hm
  | refused h hn hs hl => cases hm

theorem Run.not_smooth_of_fault {r : Run} (h : r.Accords c a)
    (hf : r.fault?.isSome = true) : a.smooth = false := by
  obtain ⟨candidates, notices, task⟩ := r
  obtain ⟨-, h⟩ := h
  cases h with
  | emptyTorn h hs hr hne => exact h.smooth
  | shutTorn h hs hr => exact h.smooth
  | reapTorn h hs hr => exact h.smooth
  | failed h hs hr => exact h.smooth
  | refused h hn hs hl => exact hs
  | _ => cases hf

end Feeder

/-! ## Whose fault it is -/

/-- A party that carries a fault carries a broken pipe as long as it has not reaped its child,
and a fault of a certain kind from then on. -/
def Blamed (kind : Fault → Prop) (a : Account) (f : Fault) : Prop :=
  if a.child.isSome = true ∧ a.reaped = false then f.isBrokenPipe = true else kind f

/-- A party meets no failures but broken pipes, and faults of a certain kind of its launch and
its child; a child reports one if anything has failed before. -/
structure Attributable (kind : Fault → Prop) (a : Account) (e : Option Event) : Prop where
  broken : ∀ {event : Event} {error : IoError}, e = some event → event.error? = some error →
    error.kind = .brokenPipe ∧ a.child.isSome = true ∧ a.reaped = false
  refused : ∀ {f : Fault}, e = some (.launched (.error f)) → kind f ∧ a.child = none
  reaped : ∀ {child : Child}, e = some (.reaped child (.ok ())) → a.smooth = true
  failed : ∀ {child : Child} {f : Fault}, e = some (.reaped child (.error f)) →
    kind f ∧ a.child.isSome = true ∧ a.reaped = false

/-- Whoever has reaped its child, or has none, does not blame a broken pipe any more. -/
theorem Blamed.settled {kind : Fault → Prop} {a : Account} {f : Fault} (h : Blamed kind a f)
    (hr : a.child.isSome = true → a.reaped = true) : kind f := by
  rw [Blamed, if_neg] at h
  · exact h
  · intro hn
    rw [hr hn.1] at hn
    cases hn.2

theorem Account.add_plain (a : Account) {e : Event} (hp : e.isPlain = true) :
    (a.add e).child = a.child ∧ (a.add e).reaped = a.reaped := by
  cases e with
  | read reply =>
    cases reply with
    | got bytes => cases bytes <;> exact ⟨rfl, rfl⟩
    | failed e => exact ⟨rfl, rfl⟩
  | launched result => cases hp
  | reaped child result => cases hp
  | _ => exact ⟨rfl, rfl⟩

theorem Blamed.add_plain {kind : Fault → Prop} {a : Account} {f : Fault} {e : Event}
    (h : Blamed kind a f) (hp : e.isPlain = true) : Blamed kind (a.add e) f := by
  obtain ⟨hchild, hreaped⟩ := a.add_plain hp
  rw [Blamed, hchild, hreaped]
  exact h

/-- Once the child has been reaped, it does not matter how. -/
theorem Blamed.after_reaped {kind : Fault → Prop} {a : Account} {child : Child}
    {result : Except Fault Unit} {f : Fault} (h : kind f) :
    Blamed kind (a.after (some (.reaped child result))) f := by
  rw [Blamed, if_neg fun hn => by cases hn.2]
  exact h

/-- A party to which nothing else happens carries no other faults. -/
theorem Carries.blamed {kind : Fault → Prop} {a : Account} {e : Option Event}
    {fault fault' : Option Fault} (hkind : ∀ context f, kind f → kind (.within context f))
    (hc : Carries e fault fault') (he : Attributable kind a e)
    (hs : fault.isSome = true → a.smooth = false)
    (h : ∀ f, fault = some f → Blamed kind a f) :
    ∀ f, fault' = some f → Blamed kind (a.after e) f := by
  intro f hf
  cases hc with
  | proceed => exact h f hf
  | done hp hn => exact (h f hf).add_plain hp
  | again hp herror => exact (h f hf).add_plain hp
  | @failed event error context hp herror =>
    obtain ⟨hpipe, hchild, hreaped⟩ := he.broken rfl herror
    obtain ⟨hchild', hreaped'⟩ := a.add_plain hp
    cases hf
    show Blamed kind (a.add event) _
    rw [Blamed, hchild', hreaped', if_pos ⟨hchild, hreaped⟩]
    show (error.kind == .brokenPipe) = true
    rw [hpipe]
    rfl
  | launched => cases hf
  | refused =>
    obtain ⟨hown, hchild⟩ := he.refused rfl
    cases hf
    rw [Blamed, if_neg]
    · exact hkind _ _ hown
    · intro hn
      have hchild' : a.child.isSome = true := hn.1
      rw [hchild] at hchild'
      cases hchild'
  | reaped =>
    have hsmooth := he.reaped rfl
    rw [hs (by rw [hf]; rfl)] at hsmooth
    cases hsmooth
  | handed =>
    obtain ⟨hchild, -⟩ := he.failed rfl
    cases hf
    exact .after_reaped hchild
  | within =>
    obtain ⟨hchild, -⟩ := he.failed rfl
    cases hf
    exact .after_reaped (hkind _ _ hchild)
  | gaveWay hb =>
    obtain ⟨hchild, -⟩ := he.failed rfl
    cases hf
    exact .after_reaped hchild
  | kept hb =>
    have hown := h _ rfl
    rw [Blamed, if_pos (he.failed rfl).2, hb] at hown
    cases hown

end SieveChain
