import SieveChain.Proofs.Faults

/-!
# What stages note

The ledger of a stage goes with it from the first move of its run to the last. Its ceiling stays
what it was. A run notes much, but it warns of one thing only: of a child that has failed when the
stage keeps a fault of its own.
-/

namespace SieveChain

def Notice.isWarning (n : Notice) : Bool := n.level == .warn

namespace Stage

variable {ceiling : Option Int32} {a : Account} {e : Option Event} {call call' : Activity}

namespace Ledger

def warnings (l : Ledger) : List Notice := l.notices.filter Notice.isWarning

theorem warnings_note (l : Ledger) (n : Notice) :
    (l.note n).warnings = l.warnings ++ [n].filter Notice.isWarning := by
  rw [warnings, notices, note, List.reverse_cons, List.filter_append]
  rfl

theorem warnings_note_quiet (l : Ledger) {n : Notice} (h : n.isWarning = false) :
    (l.note n).warnings = l.warnings := by
  rw [warnings_note, List.filter_cons_of_neg (by rw [h]; exact Bool.false_ne_true),
    List.filter_nil, List.append_nil]

theorem warnings_noteTorn (l : Ledger) (n : Nat) : (l.noteTorn n).warnings = l.warnings := by
  unfold noteTorn
  split
  · rfl
  · exact l.warnings_note_quiet rfl

end Ledger

namespace Activity

/-! ### Replies that bring no warning -/

variable (b : Activity)

theorem warnings_settle (state : State) : (b.settle state).ledger.warnings = b.ledger.warnings := by
  unfold settle
  split
  · rfl
  · exact b.ledger.warnings_note_quiet rfl

theorem warnings_giveUpOutput (o : Outbox) (after : Shutting) :
    (b.giveUpOutput o after).ledger.warnings = b.ledger.warnings := by
  unfold giveUpOutput
  split <;> rfl

theorem warnings_gotFirst (input : Intake) (earlier : Option (Int32 × Link)) (receipt : Receipt) :
    (b.gotFirst input earlier receipt).ledger.warnings = b.ledger.warnings := by
  cases receipt with
  | value v =>
    dsimp only [gotFirst]
    split
    · rfl
    · exact b.ledger.warnings_note_quiet rfl
  | ended torn => exact b.ledger.warnings_noteTorn torn
  | failed e => rfl

theorem warnings_gotSkipped (input : Intake) (earlier : Option (Int32 × Link)) (n : Nat)
    (receipt : Receipt) :
    (b.gotSkipped input earlier n receipt).ledger.warnings = b.ledger.warnings := by
  cases receipt with
  | value v => rfl
  | ended torn => exact b.ledger.warnings_noteTorn torn
  | failed e => rfl

theorem warnings_launched (input : Intake) (earlier : Option (Int32 × Link)) (p : Int32)
    (result : Except Fault Child) :
    (b.launched input earlier p result).ledger.warnings = b.ledger.warnings := by
  cases result with
  | error f => rfl
  | ok child =>
    cases earlier with
    | none => rfl
    | some old => exact b.warnings_giveUpOutput _ _

variable (input : Intake) (p : Int32) (link : Link)

theorem warnings_committed (result : Except IoError Unit) :
    (b.committed input p link result).ledger.warnings = b.ledger.warnings := by
  cases result with
  | ok u => exact b.warnings_settle _
  | error e => rfl

theorem warnings_wrote (entry : Record.Entry) (reply : WriteReply) :
    (b.wrote input p link entry reply).ledger.warnings = b.ledger.warnings := by
  unfold wrote
  split <;> rfl

theorem warnings_gotNext (receipt : Receipt) :
    (b.gotNext input p link receipt).ledger.warnings = b.ledger.warnings := by
  cases receipt with
  | value v =>
    dsimp only [gotNext]
    split
    · split <;> rfl
    · exact b.ledger.warnings_note_quiet rfl
  | ended torn => exact (warnings_settle _ _).trans (b.ledger.warnings_noteTorn torn)
  | failed e => rfl

theorem warnings_madeRoom (v : Int32) (reply : WriteReply) :
    (b.madeRoom input p link v reply).ledger.warnings = b.ledger.warnings := by
  unfold madeRoom
  split <;> rfl

theorem warnings_closed (reply : WriteReply) :
    (b.closed input p link reply).ledger.warnings = b.ledger.warnings := by
  unfold closed
  split
  · rfl
  · rfl
  · exact b.warnings_giveUpOutput _ _

theorem warnings_emptied (o : Outbox) (after : Shutting) (reply : WriteReply) :
    (b.emptied o after reply).ledger.warnings = b.ledger.warnings := by
  unfold emptied
  split <;> rfl

theorem warnings_outputGone (after : Shutting) :
    (b.outputGone after).ledger.warnings = b.ledger.warnings := by
  unfold outputGone
  split <;> rfl

theorem warnings_inputGone (after : Leaving) :
    (b.inputGone after).ledger.warnings = b.ledger.warnings := by
  unfold inputGone
  split
  case h_1 => exact b.warnings_settle _
  case h_5 => exact b.warnings_giveUpOutput _ _
  all_goals rfl

end Activity

/-! ### The one warning -/

/-- The warning of a stage that carries a fault, or none, when something happens. -/
def warning? (fault : Option Fault) : Option Event → Option Notice
  | some (.reaped child (.error f)) =>
    fault.bind fun own => if own.isBrokenPipe then none else some (.childFailedToo child.label f)
  | _ => none

/-- The stage warns of a child that has failed beside it, unless the fault of the child takes the
place of its own. -/
theorem Activity.warnings_reaped (b : Activity) (child : Child) (after : Reaping)
    (result : Except Fault Unit) :
    (b.reaped child after result).ledger.warnings =
      b.ledger.warnings ++ (warning? after.fault? (some (.reaped child result))).toList := by
  cases result with
  | ok u =>
    rw [show warning? after.fault? (some (.reaped child (.ok u))) = none from rfl,
      Option.toList_none, List.append_nil]
    cases after with
    | drained p => exact b.warnings_settle _
    | givenUp p own => rfl
  | error f =>
    cases after with
    | drained p => exact (List.append_nil _).symm
    | givenUp p own =>
      dsimp only [reaped, warning?, Reaping.fault?, Option.bind_some]
      cases own.isBrokenPipe with
      | true => exact (List.append_nil _).symm
      | false => exact b.ledger.warnings_note _

/-- A call warns when it has reaped a child that has failed, and at no other time. -/
theorem Activity.warnings_answered (hm : call.move.Answered e call') :
    call'.ledger.warnings = call.ledger.warnings ++ (warning? call.task.fault? e).toList := by
  -- All tasks but that of reaping are answered by events that bring no warning.
  have quiet : call'.ledger.warnings = call.ledger.warnings → warning? call.task.fault? e = none →
      call'.ledger.warnings = call.ledger.warnings ++ (warning? call.task.fault? e).toList := by
    intro hl hn
    rw [hl, hn, Option.toList_none, List.append_nil]
  obtain ⟨phase, l, task⟩ := call
  cases task with
  | first input earlier =>
    cases hm
    refine quiet ?_ rfl
    dsimp only
    split
    · rfl
    · exact warnings_gotFirst _ _ _ _
  | skip input earlier n =>
    cases hm
    refine quiet ?_ rfl
    dsimp only
    split
    · rfl
    · exact warnings_gotSkipped _ _ _ _ _
  | launch input earlier p =>
    cases hm
    exact quiet (warnings_launched _ _ _ _ _) rfl
  | record input p link entry =>
    dsimp only [Activity.move] at hm
    split at hm
    · cases hm
      exact quiet (warnings_committed _ _ _ _ _) rfl
    · cases hm
      exact quiet (warnings_wrote _ _ _ _ _ _) rfl
  | next input p link =>
    cases hm
    refine quiet ?_ rfl
    dsimp only
    split
    · rfl
    · exact warnings_gotNext _ _ _ _ _
  | forward input p link v =>
    cases hm
    exact quiet (warnings_madeRoom _ _ _ _ _ _) rfl
  | close input p link =>
    cases hm
    exact quiet (warnings_closed _ _ _ _ _) rfl
  | empty o after =>
    cases hm
    exact quiet (warnings_emptied _ _ _ _) rfl
  | shut after =>
    cases hm
    exact quiet (warnings_outputGone _ _) rfl
  | replace input old p link =>
    cases hm
    exact quiet rfl rfl
  | leave after =>
    cases hm
    exact quiet (warnings_inputGone _ _) rfl
  | reap child after =>
    cases hm
    exact warnings_reaped _ child after _
  | forsake p child =>
    cases hm
    exact quiet rfl rfl
  | ended state result => cases hm

/-! ## Runs -/

def Run.ledger : Run → Ledger
  | .stepping call => call.ledger
  | .givingUp call => call.ledger
  | .finished s _ => s.ledger

/-- To begin a step changes neither the ceiling nor what has been warned of. -/
theorem ledger_step (s : Stage) :
    s.step.ledger.ceiling = s.ledger.ceiling ∧ s.step.ledger.warnings = s.ledger.warnings := by
  obtain ⟨l, state⟩ := s
  cases state with
  | draining input p link =>
    dsimp only [step]
    split <;> exact ⟨rfl, rfl⟩
  | childReaped p => exact ⟨Activity.ceiling_settle _ _, Activity.warnings_settle _ _⟩
  | _ => exact ⟨rfl, rfl⟩

theorem ledger_giveUp (s : Stage) (f : Fault) :
    (s.giveUp f).ledger.ceiling = s.ledger.ceiling ∧
      (s.giveUp f).ledger.warnings = s.ledger.warnings := by
  have output : ∀ (b : Activity) (o : Outbox) (after : Shutting), b.ledger = s.ledger →
      (b.giveUpOutput o after).ledger.ceiling = s.ledger.ceiling ∧
        (b.giveUpOutput o after).ledger.warnings = s.ledger.warnings := by
    intro b o after hb
    rw [Activity.ceiling_giveUpOutput, Activity.warnings_giveUpOutput, hb]
    exact ⟨rfl, rfl⟩
  obtain ⟨l, state⟩ := s
  cases state with
  | awaitFirst input earlier =>
    cases earlier with
    | none => exact ⟨rfl, rfl⟩
    | some earlier => exact output _ _ _ rfl
  | filtering input p link => exact output _ _ _ rfl
  | draining input p link => exact output _ _ _ rfl
  | done p left =>
    cases left with
    | none => exact ⟨rfl, rfl⟩
    | some link => exact output _ _ _ rfl
  | _ => exact ⟨rfl, rfl⟩

/-- What follows a call that has come to its end begins with the ledger of the call. -/
theorem Run.ledger_afterStep (s : Stage) (result : Except Fault Phase) :
    (Run.afterStep s result).ledger.ceiling = s.ledger.ceiling ∧
      (Run.afterStep s result).ledger.warnings = s.ledger.warnings := by
  cases result with
  | error f => exact ledger_giveUp s f
  | ok phase =>
    cases phase with
    | done => exact ⟨rfl, s.ledger.warnings_note_quiet rfl⟩
    | _ => exact ledger_step s

theorem Run.ledger_afterGivingUp (s : Stage) (result : Except Fault Phase) :
    (Run.afterGivingUp s result).ledger = s.ledger := by
  cases result <;> rfl

/-- No move of a run changes its ceiling, and a run warns when it has reaped a child that has
failed beside it. -/
theorem Run.ledger_answered {r r' : Run} (hm : r.move.Answered e r') :
    r'.ledger.ceiling = r.ledger.ceiling ∧
      r'.ledger.warnings = r.ledger.warnings ++ (warning? r.fault? e).toList := by
  cases r with
  | stepping call =>
    cases hout : call.outcome? with
    | none =>
      simp only [Run.move, hout] at hm
      obtain ⟨call', hcall, rfl⟩ := hm.of_map
      exact ⟨Activity.ceiling_answered hcall, Activity.warnings_answered hcall⟩
    | some result =>
      obtain ⟨s, result⟩ := result
      obtain ⟨-, hl⟩ := Activity.outcome_eq_some hout
      simp only [Run.move, hout] at hm
      cases hm
      dsimp only at hl
      obtain ⟨hceiling, hwarnings⟩ := ledger_afterStep s result
      rw [hceiling, hwarnings, hl]
      exact ⟨rfl, (List.append_nil _).symm⟩
  | givingUp call =>
    cases hout : call.outcome? with
    | none =>
      simp only [Run.move, hout] at hm
      obtain ⟨call', hcall, rfl⟩ := hm.of_map
      exact ⟨Activity.ceiling_answered hcall, Activity.warnings_answered hcall⟩
    | some result =>
      obtain ⟨s, result⟩ := result
      obtain ⟨-, hl⟩ := Activity.outcome_eq_some hout
      simp only [Run.move, hout] at hm
      cases hm
      dsimp only at hl
      rw [ledger_afterGivingUp, hl]
      exact ⟨rfl, (List.append_nil _).symm⟩
  | finished s result => cases hm

end Stage

end SieveChain
