import SieveChain.Proofs.StageConduct

/-!
# How long a stage can go on

Every move of a stage uses something up: bytes of its input, bytes of its outbox or its
line, an interruption, or one of a bounded number of further tasks. Its effort is a bound
for the moves to come; it grows only by what a reply brings.
-/

namespace SieveChain

namespace Stage

open Wire Record

variable {ceiling : Option Int32} {a : Account} {e : Option Event} {call call' : Activity}

/-- The bytes that a state holds back for a child. -/
def State.heldBack : State → Nat
  | .awaitFirst _ (some (_, link)) => link.output.size
  | .filtering _ _ link => link.output.size
  | .draining _ _ link => link.output.size
  | .done _ (some link) => link.output.size
  | _ => 0

/-- What is left to do of a call, and of the steps behind it. -/
def Task.effort : Task → Nat
  | .first input _ => input.held.length + 33
  | .skip input _ _ => input.held.length + 5
  | .launch _ _ _ => 33
  | .record input _ link entry => entry.weight + input.held.length + link.output.size + 9
  | .next input _ link => input.held.length + link.output.size + 7
  | .forward _ _ link _ => link.output.size + 11
  | .close _ _ link => link.output.size + 5
  | .empty o _ => o.size + 4
  | .shut _ => 4
  | .replace _ _ _ _ => 33
  | .leave _ => 3
  | .reap _ _ => 2
  | .forsake _ _ => 1
  | .ended state (.error _) => state.heldBack + 1
  | .ended (.awaitFirst input _) (.ok _) => input.held.length + 34
  | .ended (.filtering input _ link) (.ok _) => input.held.length + link.output.size + 8
  | .ended (.draining _ _ link) (.ok _) => link.output.size + 6
  | .ended (.childReaped _) (.ok _) => 1
  | .ended (.done _ _) (.ok _) => 0
  | .ended _ (.ok _) => 2

/-- What is left to do of a run. Giving the stage up comes after all steps. -/
def Run.effort : Run → Nat
  | .stepping call => call.task.effort + 10
  | .givingUp call => call.task.effort
  | .finished _ _ => 0

theorem Activity.effort_giveUpOutput (b : Activity) (o : Outbox) (after : Shutting) :
    (b.giveUpOutput o after).task.effort ≤ o.size + 4 := by
  unfold Activity.giveUpOutput
  split
  · exact Nat.le_add_left _ _
  · exact Nat.le_refl _

theorem effort_emptied {phase : Phase} {l : Ledger} {o : Outbox} {after : Shutting}
    (hne : o.bytes ≠ [])
    (hm : (Activity.move ⟨phase, l, .empty o after⟩).Answered e call') :
    call'.task.effort + 1 ≤ o.size + 4 + Event.brings e := by
  have hpos := Outbox.size_pos hne
  cases hm with
  | @send _ _ _ reply fits =>
  have hspent := Outbox.absorb_spent hne after.child
    (Scripted.Surroundings.accepted o.bytes reply) reply
  dsimp only [Activity.emptied]
  generalize Event.brings _ = n, o.absorb reply = outcome at hspent ⊢
  cases hspent with
  | more hle hs => dsimp only [Activity.go, Task.effort]; omega
  | all hs => dsimp only [Activity.go, Task.effort]; omega
  | failed => dsimp only [Activity.go, Task.effort]; omega

theorem GivingUp.effort_step (h : GivingUp ceiling a call.task)
    (hm : call.move.Answered e call') :
    call'.task.effort + 1 ≤ call.task.effort + Event.brings e := by
  obtain ⟨phase, l, task⟩ := call
  cases h with
  | leaveAlone h hl =>
    cases hm
    exact Nat.le_succ 2
  | endedAlone => cases hm
  | empty h hh hne => exact effort_emptied hne hm
  | shut h hh =>
    cases hm
    exact Nat.le_refl 4
  | leave h hs hl hr =>
    cases hm
    exact Nat.le_refl 3
  | reap h hs hl hr =>
    cases hm with
    | reap result =>
    dsimp only [Activity.reaped]
    cases result with
    | ok u => exact Nat.le_refl 2
    | error f' =>
      dsimp only
      split
      · exact Nat.le_refl 2
      · exact Nat.le_refl 2
  | ended => cases hm

theorem Activity.effort_settle (b : Activity) (state : State) :
    (b.settle state).task.effort = (Task.ended state (.ok state.phase)).effort := by
  rw [Activity.task_settle]

theorem Activity.effort_unrecorded (b : Activity) (input : Intake) (p : Int32) (link : Link)
    (e : IoError) : (b.unrecorded input p link e).task.effort = link.output.size + 1 := rfl

/-- Receiving a value that is forwarded costs less than the bytes of the value bring. -/
theorem Stepping.effort_next {phase : Phase} {l : Ledger} {input : Intake} {p : Int32}
    {link : Link} (hh : input.held.length < width)
    (hm : (Activity.move ⟨phase, l, .next input p link⟩).Answered e call') :
    call'.task.effort + 1 ≤ input.held.length + link.output.size + 7 + Event.brings e := by
  cases hm with
  | @read _ _ reply fits =>
  have hcame := Intake.absorb_came fits hh
  dsimp only
  generalize input.absorb reply = outcome at hcame ⊢
  cases hcame with
  | interrupted hi => exact Nat.le_refl _
  | failed hi =>
    dsimp only [Activity.gotNext, Activity.failIo, Activity.fail, Activity.go, Task.effort,
      State.heldBack, Event.brings, ReadReply.brings]
    omega
  | ended =>
    dsimp only [Activity.gotNext]
    rw [Activity.effort_settle]
    dsimp only [Task.effort, Event.brings, ReadReply.brings]
    omega
  | more hl =>
    dsimp only [Activity.go, Task.effort, Event.brings, ReadReply.brings]
    rw [List.length_append, List.length_cons]
    omega
  | @value b bs v hv =>
    have hlen : input.held.length + (b :: bs).length = 4 := by
      rw [← List.length_append, hv]
      rfl
    rw [List.length_cons] at hlen
    dsimp only [Activity.gotNext, Event.brings, ReadReply.brings]
    rw [List.length_cons]
    split
    · split
      · dsimp only [Activity.pass, Activity.go, Task.effort, Outbox.put, width]
        rw [List.length_nil]
        omega
      · dsimp only [Activity.go, Task.effort]
        omega
    · dsimp only [Task.effort]
      rw [List.length_nil]
      omega

theorem Stepping.effort_first {phase : Phase} {l : Ledger} {input : Intake}
    (hh : input.held.length < width)
    (hm : (Activity.move ⟨phase, l, .first input none⟩).Answered e call') :
    call'.task.effort + 1 ≤ input.held.length + 33 + Event.brings e := by
  cases hm with
  | @read _ _ reply fits =>
  have hcame := Intake.absorb_came fits hh
  dsimp only
  generalize input.absorb reply = outcome at hcame ⊢
  cases hcame with
  | interrupted hi => exact Nat.le_refl _
  | failed hi =>
    dsimp only [Activity.gotFirst, Activity.failIo, Activity.fail, Activity.go, Task.effort,
      State.heldBack, Event.brings, ReadReply.brings]
    omega
  | ended =>
    dsimp only [Activity.gotFirst, Activity.go, Task.effort, Event.brings, ReadReply.brings]
    omega
  | more hl =>
    dsimp only [Activity.go, Task.effort, Event.brings, ReadReply.brings]
    rw [List.length_append, List.length_cons]
    omega
  | value hv =>
    dsimp only [Activity.gotFirst, Event.brings, ReadReply.brings]
    rw [List.length_cons]
    split
    · dsimp only [Activity.go, Task.effort]
      omega
    · dsimp only [Activity.go, Task.effort]
      rw [List.length_nil]
      omega

theorem Stepping.effort_skip {phase : Phase} {l : Ledger} {input : Intake} {n : Nat}
    (hh : input.held.length < width)
    (hm : (Activity.move ⟨phase, l, .skip input none n⟩).Answered e call') :
    call'.task.effort + 1 ≤ input.held.length + 5 + Event.brings e := by
  cases hm with
  | @read _ _ reply fits =>
  have hcame := Intake.absorb_came fits hh
  dsimp only
  generalize input.absorb reply = outcome at hcame ⊢
  cases hcame with
  | interrupted hi => exact Nat.le_refl _
  | failed hi =>
    dsimp only [Activity.gotSkipped, Activity.failIo, Activity.fail, Activity.go, Task.effort,
      State.heldBack, Event.brings, ReadReply.brings]
    omega
  | ended =>
    dsimp only [Activity.gotSkipped, Activity.go, Task.effort, Event.brings, ReadReply.brings]
    omega
  | more hl =>
    dsimp only [Activity.go, Task.effort, Event.brings, ReadReply.brings]
    rw [List.length_append, List.length_cons]
    omega
  | value hv =>
    dsimp only [Activity.gotSkipped, Activity.go, Task.effort, Event.brings, ReadReply.brings]
    rw [List.length_cons, List.length_nil]
    omega

theorem Stepping.effort_record {phase : Phase} {l : Ledger} {input : Intake} {p : Int32}
    {link : Link} {entry : Entry} (hne : ∀ piece ∈ entry.pieces, piece ≠ [])
    (hm : (Activity.move ⟨phase, l, .record input p link entry⟩).Answered e call') :
    call'.task.effort + 1 ≤
      entry.weight + input.held.length + link.output.size + 9 + Event.brings e := by
  dsimp only [Activity.move] at hm
  split at hm
  · cases hm with
    | commit result =>
    cases result with
    | ok u =>
      dsimp only [Activity.committed]
      rw [Activity.effort_settle]
      dsimp only [Task.effort]
      omega
    | error e =>
      dsimp only [Activity.committed]
      rw [Activity.effort_unrecorded]
      omega
  · next piece rest hp =>
    cases hm with
    | @record _ _ reply fits =>
    have hw := Entry.absorb_wrote hp hne reply
    dsimp only [Activity.wrote]
    generalize entry.absorb reply = outcome at hw ⊢
    cases hw with
    | interrupted hi =>
      rw [Event.brings_recorded hi]
      exact Nat.le_refl _
    | failed hi =>
      rw [Activity.effort_unrecorded]
      omega
    | stuck =>
      rw [Activity.effort_unrecorded]
      omega
    | some hb hne' hlt =>
      dsimp only [Activity.go, Task.effort]
      omega

theorem Stepping.effort_forward {phase : Phase} {l : Ledger} {input : Intake} {p v : Int32}
    {link : Link} (hi : input.held = []) (hne : link.output.bytes ≠ [])
    (hm : (Activity.move ⟨phase, l, .forward input p link v⟩).Answered e call') :
    call'.task.effort + 1 ≤ link.output.size + 11 + Event.brings e := by
  have hpos := Outbox.size_pos hne
  cases hm with
  | @send _ _ _ reply fits =>
  have hspent := Outbox.absorb_spent hne link.child
    (Scripted.Surroundings.accepted link.output.bytes reply) reply
  dsimp only [Activity.madeRoom]
  generalize Event.brings _ = n, link.output.absorb reply = outcome at hspent ⊢
  cases hspent with
  | more hle hs =>
    dsimp only [Activity.go, Task.effort]
    omega
  | all hs =>
    dsimp only [Activity.pass, Activity.go, Task.effort, Outbox.put, width]
    rw [hi, List.length_nil, hs]
    omega
  | failed =>
    dsimp only [Activity.failIo, Activity.fail, Activity.go, Task.effort, State.heldBack]
    omega

theorem Stepping.effort_close {phase : Phase} {l : Ledger} {input : Intake} {p : Int32}
    {link : Link} (hne : link.output.bytes ≠ [])
    (hm : (Activity.move ⟨phase, l, .close input p link⟩).Answered e call') :
    call'.task.effort + 1 ≤ link.output.size + 5 + Event.brings e := by
  cases hm with
  | @send _ _ _ reply fits =>
  have hspent := Outbox.absorb_spent hne link.child
    (Scripted.Surroundings.accepted link.output.bytes reply) reply
  dsimp only [Activity.closed]
  generalize Event.brings _ = n, link.output.absorb reply = outcome at hspent ⊢
  cases hspent with
  | more hle hs =>
    dsimp only [Activity.go, Task.effort]
    omega
  | all hs =>
    dsimp only [Activity.go, Task.effort]
    omega
  | failed =>
    exact Nat.le_add_right_of_le (Nat.succ_le_succ (Activity.effort_giveUpOutput _ _ _))

theorem Stepping.effort_step (h : Stepping ceiling a call.ledger call.task)
    (hm : call.move.Answered e call') :
    call'.task.effort + 1 ≤ call.task.effort + Event.brings e := by
  obtain ⟨phase, l, task⟩ := call
  cases h with
  | first h he hr hh hd => exact effort_first hh hm
  | skip h he hv hr hh hn => exact effort_skip hh hm
  | idle h he hv hd =>
    cases hm
    dsimp only [Activity.inputGone]
    rw [Activity.effort_settle]
    exact Nat.le_add_left 1 2
  | launch h he hv hr hi hd =>
    cases hm with
    | launch result =>
    cases result with
    | ok child =>
      have hw := Entry.weight_ofValue_le
      rename_i input v
      have hw := hw v
      dsimp only [Activity.launched, Activity.go, Task.effort, Outbox.empty]
      rw [hi, List.length_nil]
      omega
    | error f =>
      dsimp only [Activity.launched, Activity.fail, Activity.go, Task.effort, State.heldBack]
      omega
  | record hv hr hi hb hne hcm hn hk hs hh he hsm hf hd => exact effort_record hne hm
  | next h he hr hh => exact effort_next hh hm
  | forward h he hr hi hv hne => exact effort_forward hi hne hm
  | close h he hr hne => exact effort_close hne hm
  | shut h he hr hb =>
    cases hm
    exact Nat.le_refl 4
  | leave h hl hr =>
    cases hm
    exact Nat.le_refl 3
  | reap h hl hr =>
    cases hm with
    | reap result =>
    cases result with
    | ok u =>
      dsimp only [Activity.reaped]
      rw [Activity.effort_settle]
      exact Nat.le_refl 2
    | error f => exact Nat.le_refl 2
  | emptySevered h hh hne => exact effort_emptied hne hm
  | shutSevered h hh =>
    cases hm
    exact Nat.le_add_left 2 2
  | idled => cases hm
  | done => cases hm
  | settled => cases hm
  | failed => cases hm

/-- The step that follows a step is part of the effort of the latter. -/
theorem effort_step_next {s : Stage} (hp : s.phase ≠ .done) :
    s.step.task.effort + 1 ≤ (Task.ended s.state (.ok s.phase)).effort := by
  obtain ⟨l, state⟩ := s
  cases state with
  | awaitFirst input earlier => exact Nat.le_refl _
  | filtering input p link => exact Nat.le_refl _
  | draining input p link =>
    dsimp only [Stage.step]
    split
    · exact Nat.le_succ_of_le (Nat.le_add_left 5 _)
    · exact Nat.le_refl _
  | severed input p child => exact Nat.le_refl 2
  | spent p => exact Nat.le_refl 2
  | childReaped p =>
    rw [Stage.step, Activity.effort_settle]
    exact Nat.le_refl 1
  | done p left => exact absurd rfl hp

theorem effort_giveUp (s : Stage) (f : Fault) :
    (s.giveUp f).task.effort ≤ s.state.heldBack + 4 := by
  obtain ⟨l, state⟩ := s
  cases state with
  | awaitFirst input earlier =>
    cases earlier with
    | none => exact Nat.le_succ 3
    | some earlier => exact Activity.effort_giveUpOutput _ _ _
  | filtering input p link => exact Activity.effort_giveUpOutput _ _ _
  | draining input p link => exact Activity.effort_giveUpOutput _ _ _
  | severed input p child => exact Nat.le_succ 3
  | spent p => exact Nat.le_add_left 1 3
  | childReaped p => exact Nat.le_add_left 1 3
  | done p left =>
    cases left with
    | none => exact Nat.le_add_left 1 3
    | some link => exact Activity.effort_giveUpOutput _ _ _

/-- Every move of a stage uses something up. -/
theorem Run.effort_step {r r' : Run} (h : r.Accords ceiling a) (hm : r.move.Answered e r') :
    r'.effort + 1 ≤ r.effort + Event.brings e := by
  cases r with
  | stepping call =>
    obtain ⟨-, h⟩ := h
    cases hout : call.outcome? with
    | none =>
      simp only [Run.move, hout] at hm
      obtain ⟨call', hcall, rfl⟩ := hm.of_map
      have := h.effort_step hcall
      dsimp only [Run.effort]
      omega
    | some result =>
      obtain ⟨⟨l, state⟩, result⟩ := result
      obtain ⟨ht, -⟩ := Activity.outcome_eq_some hout
      simp only [Run.move, hout] at hm
      cases hm
      dsimp only at ht
      rw [ht] at h
      have hr : (Run.stepping call).effort = (Task.ended state result).effort + 10 := by
        rw [Run.effort, ht]
      rw [hr]
      cases h with
      | idled => exact Nat.le_add_left 1 _
      | done => exact Nat.le_add_left 1 _
      | settled hp h =>
        have hnext := @effort_step_next { ledger := l, state } hp
        dsimp only [Stage.phase] at hnext
        cases hphase : state.phase with
        | done => exact absurd hphase hp
        | awaitFirst | filtering | draining | childReaped =>
          rw [hphase] at hnext
          dsimp only [Run.afterStep, Run.effort]
          omega
      | failed h =>
        rename_i f
        have hg := effort_giveUp { ledger := l, state } f
        have he : (Task.ended state (.error f)).effort = state.heldBack + 1 := rfl
        dsimp only [Run.afterStep, Run.effort] at hg ⊢
        omega
  | givingUp call =>
    cases hout : call.outcome? with
    | none =>
      simp only [Run.move, hout] at hm
      obtain ⟨call', hcall, rfl⟩ := hm.of_map
      exact GivingUp.effort_step h hcall
    | some result =>
      obtain ⟨⟨l, state⟩, result⟩ := result
      obtain ⟨ht, -⟩ := Activity.outcome_eq_some hout
      simp only [Run.move, hout] at hm
      cases hm
      dsimp only at ht
      rw [Run.Accords, ht] at h
      have hr : (Run.givingUp call).effort = (Task.ended state result).effort := by
        rw [Run.effort, ht]
      rw [hr]
      cases h with
      | endedAlone => exact Nat.le_add_left 1 _
      | ended => exact Nat.le_add_left 1 _
  | finished s result => cases hm

theorem Run.effort_start (ceiling : Option Int32) :
    (Run.start (Stage.new ceiling)).effort = 43 := rfl

end Stage

end SieveChain
