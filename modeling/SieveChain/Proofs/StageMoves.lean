import SieveChain.Proofs.Faults
import SieveChain.Proofs.StageNotices
import SieveChain.Proofs.StageOrder

/-!
# The moves of a call

All that a call on a stage can do next, whatever the answer, told once: the task at hand, what
happens, and the task that follows. What holds of every call under every behaviour of its
surroundings is read off these moves.
-/

namespace SieveChain

/-! ## Events -/

/-- What is read, written or flushed. -/
def Event.isIo : Event → Bool
  | .read _ | .recorded _ _ | .committed _ | .sent _ _ _ => true
  | _ => false

/-- A read, a write or a flush that does not fail. -/
structure Event.Quiet (e : Event) : Prop where
  io : e.isIo = true
  fine : e.error? = none

theorem Event.isIo_of_error {e : Event} {error : IoError} (h : e.error? = some error) :
    e.isIo = true := by
  cases e <;> first | rfl | cases h

/-- What a read brings to a stage that receives values: it fails only if the read does. -/
inductive Receipt.Comes (e : Event) : Option Receipt → Prop
  | more (hq : e.Quiet) : Comes e none
  | value {v : Int32} (hq : e.Quiet) : Comes e (some (.value v))
  | ended {torn : Nat} (hq : e.Quiet) : Comes e (some (.ended torn))
  | failed {error : IoError} (he : e.error? = some error) : Comes e (some (.failed error))

theorem Intake.absorb_comes (r : Intake) (reply : ReadReply) :
    Receipt.Comes (.read reply) (r.absorb reply).2 := by
  cases reply with
  | failed e =>
    rw [absorb]
    cases hi : e.isInterrupted with
    | true => exact .more ⟨rfl, Event.error?_read_interrupted hi⟩
    | false => exact .failed (Event.error?_read_failed hi)
  | got bytes =>
    cases bytes with
    | nil => exact .ended ⟨rfl, rfl⟩
    | cons b bs =>
      rw [absorb]
      split
      · exact .value ⟨rfl, rfl⟩
      · exact .more ⟨rfl, rfl⟩

/-- What a write makes of an outbox: it fails only if the write does. -/
inductive Outbox.Comes (e : Event) : Option (Except IoError Unit) → Prop
  | more (hq : e.Quiet) : Comes e none
  | all (hq : e.Quiet) : Comes e (some (.ok ()))
  | failed {error : IoError} (he : e.error? = some error) : Comes e (some (.error error))

theorem Outbox.absorb_comes (o : Outbox) (child : Child) (accepted : List UInt8)
    (reply : WriteReply) : Comes (.sent child accepted reply) (o.absorb reply).2 := by
  cases reply with
  | failed e =>
    rw [absorb]
    cases hi : e.isInterrupted with
    | true => exact .more ⟨rfl, Event.error?_sent_interrupted hi⟩
    | false => exact .failed (Event.error?_sent_failed hi)
  | took n =>
    cases n with
    | zero => exact .failed rfl
    | succ n =>
      dsimp only [absorb]
      split
      · exact .all ⟨rfl, rfl⟩
      · exact .more ⟨rfl, rfl⟩

/-- A write that takes something moves a line on. -/
theorem Record.Entry.exists_absorb (entry : Record.Entry) (n : Nat) :
    ∃ entry', entry.absorb (.took (n + 1)) = .ok entry' := by
  rw [absorb]
  split
  · exact ⟨_, rfl⟩
  · split
    · exact ⟨_, rfl⟩
    · exact ⟨_, rfl⟩

namespace Stage

/-! ## Moves -/

/-- The tasks of a call that gives up an output: it is tried once more if it holds anything. -/
inductive GivesUp (after : Shutting) : Task → Prop
  | shut : GivesUp after (.shut after)
  | empty {output : Outbox} : GivesUp after (.empty output after)

theorem Activity.givesUp (a : Activity) (output : Outbox) (after : Shutting) :
    GivesUp after (a.giveUpOutput output after).task := by
  rw [giveUpOutput]
  split
  · exact .shut
  · exact .empty

/-- The calls that can be made on a stage as often as one likes. -/
inductive Call
  | step
  | giveUp (fault : Fault)

def Call.on (s : Stage) : Call → Activity
  | .step => s.step
  | .giveUp f => s.giveUp f

/-- Where a call begins. -/
inductive Begins : Call → State → Task → Prop
  | first {input : Intake} {earlier : Option (Int32 × Link)} :
      Begins .step (.awaitFirst input earlier) (.first input earlier)
  | next {input : Intake} {p : Int32} {link : Link} :
      Begins .step (.filtering input p link) (.next input p link)
  | close {input : Intake} {p : Int32} {link : Link} :
      Begins .step (.draining input p link) (.close input p link)
  | closed {input : Intake} {p : Int32} {link : Link} {n : Nat} :
      Begins .step (.draining input p link) (.shut (.drained input p link.child n))
  | severed {input : Intake} {p : Int32} {child : Child} :
      Begins .step (.severed input p child) (.ended (.severed input p child) (.error noOutput))
  | spent {p : Int32} : Begins .step (.spent p) (.ended (.spent p) (.error noOutput))
  | childReaped {p : Int32} :
      Begins .step (.childReaped p) (.ended (.done (some p) none) (.ok .done))
  | done {p : Option Int32} {left : Option Link} :
      Begins .step (.done p left) (.ended (.done p left) (.ok .done))
  /-- Giving up a stage that has not launched, or one that has. -/
  | alone {f : Fault} {input : Intake} :
      Begins (.giveUp f) (.awaitFirst input none) (.leave (.givenUp none none f))
  | givesUp {f : Fault} {state : State} {input : Intake} {p : Int32} {link : Link} {t : Task}
      (hs : state = .awaitFirst input (some (p, link)) ∨ state = .filtering input p link ∨
        state = .draining input p link)
      (ht : GivesUp (.givenUp true (some p) link.child f) t) : Begins (.giveUp f) state t
  | givesUpSevered {f : Fault} {input : Intake} {p : Int32} {child : Child} :
      Begins (.giveUp f) (.severed input p child) (.leave (.givenUp (some p) (some child) f))
  | givesUpLeft {f : Fault} {p : Option Int32} {link : Link} {t : Task}
      (ht : GivesUp (.givenUp false p link.child f) t) : Begins (.giveUp f) (.done p (some link)) t
  | nothing {f : Fault} {state : State} {p : Option Int32}
      (hs : state = .done p none ∨ ∃ q, p = some q ∧ (state = .spent q ∨ state = .childReaped q)) :
      Begins (.giveUp f) state (.ended (.done p none) (.error f))

theorem begins_step (s : Stage) : Begins .step s.state s.step.task := by
  obtain ⟨l, state⟩ := s
  cases state with
  | awaitFirst input earlier => exact .first
  | filtering input p link => exact .next
  | draining input p link =>
    dsimp only [step]
    split
    · exact .closed
    · exact .close
  | severed input p child => exact .severed
  | spent p => exact .spent
  | childReaped p =>
    rw [step, Activity.task_settle]
    exact .childReaped
  | done p left => exact .done

theorem begins_giveUp (s : Stage) (f : Fault) :
    Begins (.giveUp f) s.state (s.giveUp f).task := by
  obtain ⟨l, state⟩ := s
  cases state with
  | awaitFirst input earlier =>
    cases earlier with
    | none => exact .alone
    | some earlier => exact .givesUp (.inl rfl) (Activity.givesUp _ _ _)
  | filtering input p link => exact .givesUp (.inr (.inl rfl)) (Activity.givesUp _ _ _)
  | draining input p link => exact .givesUp (.inr (.inr rfl)) (Activity.givesUp _ _ _)
  | severed input p child => exact .givesUpSevered
  | spent p => exact .nothing (.inr ⟨p, rfl, .inl rfl⟩)
  | childReaped p => exact .nothing (.inr ⟨p, rfl, .inr rfl⟩)
  | done p left =>
    cases left with
    | none => exact .nothing (.inl rfl)
    | some link => exact .givesUpLeft (Activity.givesUp _ _ _)

theorem Call.begins (call : Call) (s : Stage) : Begins call s.state (call.on s).task := by
  cases call with
  | step => exact begins_step s
  | giveUp f => exact begins_giveUp s f

/-- What a call under a ceiling does next. -/
inductive Goes (ceiling : Option Int32) : Task → Event → Task → Prop
  /-- Awaiting the first value. -/
  | first {e : Event} {i i' : Intake} {q : Option (Int32 × Link)} (hq : e.Quiet) :
      Goes ceiling (.first i q) e (.first i' q)
  | accepted {e : Event} {i i' : Intake} {q : Option (Int32 × Link)} {v : Int32} (hq : e.Quiet)
      (hv : accepts ceiling v = true) : Goes ceiling (.first i q) e (.launch i' q v)
  | refused {e : Event} {i i' : Intake} {q : Option (Int32 × Link)} (hq : e.Quiet) :
      Goes ceiling (.first i q) e (.skip i' q 0)
  | nothing {e : Event} {i : Intake} {q : Option (Int32 × Link)} (hq : e.Quiet) :
      Goes ceiling (.first i q) e (.leave (.idle q))
  | unread {e : Event} {i i' : Intake} {q : Option (Int32 × Link)} {error : IoError}
      {context : String} (he : e.error? = some error) :
      Goes ceiling (.first i q) e
        (.ended (.awaitFirst i' q) (.error (.within context (.io error))))
  /-- Skipping what stands behind a first value that is refused. -/
  | skip {e : Event} {i i' : Intake} {q : Option (Int32 × Link)} {n n' : Nat} (hq : e.Quiet) :
      Goes ceiling (.skip i q n) e (.skip i' q n')
  | skipped {e : Event} {i : Intake} {q : Option (Int32 × Link)} {n : Nat} (hq : e.Quiet) :
      Goes ceiling (.skip i q n) e (.leave (.idle q))
  | unskipped {e : Event} {i i' : Intake} {q : Option (Int32 × Link)} {n : Nat} {error : IoError}
      {context : String} (he : e.error? = some error) :
      Goes ceiling (.skip i q n) e
        (.ended (.awaitFirst i' q) (.error (.within context (.io error))))
  /-- Launching the child; one that is there from an earlier attempt is replaced. -/
  | unlaunched {i : Intake} {q : Option (Int32 × Link)} {v : Int32} {f : Fault}
      {context : String} :
      Goes ceiling (.launch i q v) (.launched (.error f))
        (.ended (.awaitFirst i q) (.error (.within context f)))
  | launched {i : Intake} {v : Int32} {child : Child} :
      Goes ceiling (.launch i none v) (.launched (.ok child))
        (.record i v ⟨.empty, child⟩ (.ofValue v))
  | relaunched {i : Intake} {p v : Int32} {old : Link} {child : Child} {t : Task}
      (ht : GivesUp (.replaced i old.child v ⟨.empty, child⟩) t) :
      Goes ceiling (.launch i (some (p, old)) v) (.launched (.ok child)) t
  | replaced {i : Intake} {old : Child} {p : Int32} {link : Link} :
      Goes ceiling (.replace i old p link) (.forsaken old) (.record i p link (.ofValue p))
  /-- Recording the value. -/
  | record {e : Event} {i : Intake} {p : Int32} {link : Link} {entry entry' : Record.Entry}
      (hq : e.Quiet) : Goes ceiling (.record i p link entry) e (.record i p link entry')
  | committed {e : Event} {i : Intake} {p : Int32} {link : Link} {entry : Record.Entry}
      (hq : e.Quiet) :
      Goes ceiling (.record i p link entry) e (.ended (.filtering i p link) (.ok .filtering))
  | unrecorded {e : Event} {i : Intake} {p : Int32} {link : Link} {entry : Record.Entry}
      {error : IoError} {context : String} (he : e.error? = some error) :
      Goes ceiling (.record i p link entry) e
        (.ended (.awaitFirst i (some (p, link))) (.error (.within context (.io error))))
  /-- Filtering. -/
  | next {e : Event} {i i' : Intake} {p : Int32} {link link' : Link} (hq : e.Quiet)
      (hc : link'.child = link.child) : Goes ceiling (.next i p link) e (.next i' p link')
  | full {e : Event} {i i' : Intake} {p v : Int32} {link : Link} (hq : e.Quiet) :
      Goes ceiling (.next i p link) e (.forward i' p link v)
  | exhausted {e : Event} {i i' : Intake} {p : Int32} {link : Link} (hq : e.Quiet) :
      Goes ceiling (.next i p link) e (.ended (.draining i' p link) (.ok .draining))
  | unreadable {e : Event} {i i' : Intake} {p : Int32} {link : Link} {error : IoError}
      {context : String} (he : e.error? = some error) :
      Goes ceiling (.next i p link) e
        (.ended (.filtering i' p link) (.error (.within context (.io error))))
  | forward {e : Event} {i : Intake} {p v : Int32} {link link' : Link} (hq : e.Quiet)
      (hc : link'.child = link.child) :
      Goes ceiling (.forward i p link v) e (.forward i p link' v)
  | forwarded {e : Event} {i : Intake} {p v : Int32} {link link' : Link} (hq : e.Quiet)
      (hc : link'.child = link.child) : Goes ceiling (.forward i p link v) e (.next i p link')
  | unforwarded {e : Event} {i : Intake} {p v : Int32} {link link' : Link} {error : IoError}
      {context : String} (he : e.error? = some error) (hc : link'.child = link.child) :
      Goes ceiling (.forward i p link v) e
        (.ended (.filtering i p link') (.error (.within context (.io error))))
  /-- Draining: the output is closed, and given up if that fails. -/
  | close {e : Event} {i : Intake} {p : Int32} {link link' : Link} (hq : e.Quiet)
      (hc : link'.child = link.child) : Goes ceiling (.close i p link) e (.close i p link')
  | closed {e : Event} {i : Intake} {p : Int32} {link : Link} {n : Nat} (hq : e.Quiet) :
      Goes ceiling (.close i p link) e (.shut (.drained i p link.child n))
  | unclosed {e : Event} {i : Intake} {p : Int32} {link : Link} {error : IoError}
      {context : String} {t : Task} (he : e.error? = some error)
      (ht : GivesUp (.severed i p link.child (.within context (.io error))) t) :
      Goes ceiling (.close i p link) e t
  /-- Giving up an output. -/
  | empty {e : Event} {o o' : Outbox} {after : Shutting} (hio : e.isIo = true) :
      Goes ceiling (.empty o after) e (.empty o' after)
  | emptied {e : Event} {o : Outbox} {after : Shutting} (hio : e.isIo = true) :
      Goes ceiling (.empty o after) e (.shut after)
  | shutReplaced {i : Intake} {old : Child} {p : Int32} {link : Link} :
      Goes ceiling (.shut (.replaced i old p link)) (.shut old) (.replace i old p link)
  | shutDrained {i : Intake} {p : Int32} {child : Child} {n : Nat} :
      Goes ceiling (.shut (.drained i p child n)) (.shut child) (.leave (.drained p child))
  | shutSevered {i : Intake} {p : Int32} {child : Child} {f : Fault} :
      Goes ceiling (.shut (.severed i p child f)) (.shut child)
        (.ended (.severed i p child) (.error f))
  | shutGivenUp {prime : Option Int32} {child : Child} {f : Fault} :
      Goes ceiling (.shut (.givenUp true prime child f)) (.shut child)
        (.leave (.givenUp prime (some child) f))
  | shutLast {prime : Option Int32} {child : Child} {f : Fault} :
      Goes ceiling (.shut (.givenUp false prime child f)) (.shut child)
        (.reap child (.givenUp prime f))
  | shutLetGo {prime : Option Int32} {child : Child} :
      Goes ceiling (.shut (.letGo prime child)) (.shut child) (.forsake prime child)
  /-- Giving up the input. -/
  | leftIdle {q : Option (Int32 × Link)} :
      Goes ceiling (.leave (.idle q)) .left (.ended (.done (q.map (·.1)) (q.map (·.2))) (.ok .done))
  | leftDrained {p : Int32} {child : Child} :
      Goes ceiling (.leave (.drained p child)) .left (.reap child (.drained p))
  | leftGivenUp {prime : Option Int32} {child : Child} {f : Fault} :
      Goes ceiling (.leave (.givenUp prime (some child) f)) .left (.reap child (.givenUp prime f))
  | leftAlone {prime : Option Int32} {f : Fault} :
      Goes ceiling (.leave (.givenUp prime none f)) .left (.ended (.done prime none) (.error f))
  | leftLetGo {prime : Option Int32} {link : Link} {t : Task}
      (ht : GivesUp (.letGo prime link.child) t) :
      Goes ceiling (.leave (.letGo prime (some link))) .left t
  | leftLast {prime : Option Int32} :
      Goes ceiling (.leave (.letGo prime none)) .left (.ended (.done prime none) (.ok .done))
  | leftSevered {p : Int32} {child : Child} :
      Goes ceiling (.leave (.letGoSevered p child)) .left (.forsake (some p) child)
  /-- Parting from the child. -/
  | reaped {p : Int32} {child : Child} :
      Goes ceiling (.reap child (.drained p)) (.reaped child (.ok ()))
        (.ended (.childReaped p) (.ok .childReaped))
  | handed {p : Int32} {child : Child} {f : Fault} :
      Goes ceiling (.reap child (.drained p)) (.reaped child (.error f))
        (.ended (.spent p) (.error f))
  | reapedGivenUp {prime : Option Int32} {child : Child} {f : Fault} :
      Goes ceiling (.reap child (.givenUp prime f)) (.reaped child (.ok ()))
        (.ended (.done prime none) (.error f))
  | gaveWay {prime : Option Int32} {child : Child} {f f' : Fault}
      (hf : f.isBrokenPipe = true) :
      Goes ceiling (.reap child (.givenUp prime f)) (.reaped child (.error f'))
        (.ended (.done prime none) (.error f'))
  | kept {prime : Option Int32} {child : Child} {f f' : Fault} (hf : f.isBrokenPipe = false) :
      Goes ceiling (.reap child (.givenUp prime f)) (.reaped child (.error f'))
        (.ended (.done prime none) (.error f))
  | forsaken {prime : Option Int32} {child : Child} :
      Goes ceiling (.forsake prime child) (.forsaken child)
        (.ended (.done prime none) (.ok .done))

section Answers

variable {b call' : Activity} {e : Option Event} {phase : Phase} {l : Ledger} {input : Intake}
  {earlier : Option (Int32 × Link)} {p v : Int32} {link : Link}

theorem goes_first (hm : (Activity.move ⟨phase, l, .first input earlier⟩).Answered e call') :
    ∃ ev, e = some ev ∧ Goes l.ceiling (.first input earlier) ev call'.task := by
  cases hm with
  | @read _ _ reply fits =>
  refine ⟨_, rfl, ?_⟩
  have hcomes := input.absorb_comes reply
  dsimp only
  generalize input.absorb reply = outcome at hcomes ⊢
  obtain ⟨input', receipt⟩ := outcome
  cases hcomes with
  | more hq => exact .first hq
  | @value v hq =>
    dsimp only [Activity.gotFirst]
    split
    · next hv => exact .accepted hq hv
    · exact .refused hq
  | ended hq => exact .nothing hq
  | failed he => exact .unread he

theorem goes_skip {n : Nat}
    (hm : (Activity.move ⟨phase, l, .skip input earlier n⟩).Answered e call') :
    ∃ ev, e = some ev ∧ Goes l.ceiling (.skip input earlier n) ev call'.task := by
  cases hm with
  | @read _ _ reply fits =>
  refine ⟨_, rfl, ?_⟩
  have hcomes := input.absorb_comes reply
  dsimp only
  generalize input.absorb reply = outcome at hcomes ⊢
  obtain ⟨input', receipt⟩ := outcome
  cases hcomes with
  | more hq => exact .skip hq
  | value hq => exact .skip hq
  | ended hq => exact .skipped hq
  | failed he => exact .unskipped he

theorem goes_launch (hm : (Activity.move ⟨phase, l, .launch input earlier v⟩).Answered e call') :
    ∃ ev, e = some ev ∧ Goes l.ceiling (.launch input earlier v) ev call'.task := by
  cases hm with
  | launch result =>
  refine ⟨_, rfl, ?_⟩
  cases result with
  | error f => exact .unlaunched
  | ok child =>
    cases earlier with
    | none => exact .launched
    | some earlier => exact .relaunched (Activity.givesUp _ _ _)

theorem goes_record {entry : Record.Entry}
    (hm : (Activity.move ⟨phase, l, .record input p link entry⟩).Answered e call') :
    ∃ ev, e = some ev ∧ Goes l.ceiling (.record input p link entry) ev call'.task := by
  dsimp only [Activity.move] at hm
  split at hm
  · cases hm with
    | commit result =>
    refine ⟨_, rfl, ?_⟩
    cases result with
    | ok u =>
      dsimp only [Activity.committed]
      rw [Activity.task_settle]
      exact .committed ⟨rfl, rfl⟩
    | error error => exact .unrecorded rfl
  · cases hm with
    | @record _ _ reply fits =>
    refine ⟨_, rfl, ?_⟩
    dsimp only [Activity.wrote]
    cases reply with
    | failed error =>
      rw [Record.Entry.absorb]
      cases hi : error.isInterrupted with
      | true => exact .record ⟨rfl, Event.error?_recorded_interrupted hi⟩
      | false => exact .unrecorded (Event.error?_recorded_failed hi)
    | took n =>
      cases n with
      | zero => exact .unrecorded rfl
      | succ n =>
        obtain ⟨entry', hentry⟩ := Record.Entry.exists_absorb entry n
        rw [hentry]
        exact .record ⟨rfl, rfl⟩

theorem goes_next (hm : (Activity.move ⟨phase, l, .next input p link⟩).Answered e call') :
    ∃ ev, e = some ev ∧ Goes l.ceiling (.next input p link) ev call'.task := by
  cases hm with
  | @read _ _ reply fits =>
  refine ⟨_, rfl, ?_⟩
  have hcomes := input.absorb_comes reply
  dsimp only
  generalize input.absorb reply = outcome at hcomes ⊢
  obtain ⟨input', receipt⟩ := outcome
  cases hcomes with
  | more hq => exact .next hq rfl
  | value hq =>
    dsimp only [Activity.gotNext]
    split
    · split
      · exact .next hq rfl
      · exact .full hq
    · exact .next hq rfl
  | ended hq =>
    dsimp only [Activity.gotNext]
    rw [Activity.task_settle]
    exact .exhausted hq
  | failed he => exact .unreadable he

theorem goes_forward (hm : (Activity.move ⟨phase, l, .forward input p link v⟩).Answered e call') :
    ∃ ev, e = some ev ∧ Goes l.ceiling (.forward input p link v) ev call'.task := by
  cases hm with
  | @send _ _ _ reply fits =>
  refine ⟨_, rfl, ?_⟩
  have hcomes := link.output.absorb_comes link.child
    (Scripted.Surroundings.accepted link.output.bytes reply) reply
  dsimp only [Activity.madeRoom]
  generalize link.output.absorb reply = outcome at hcomes ⊢
  obtain ⟨output, result⟩ := outcome
  cases hcomes with
  | more hq => exact .forward hq rfl
  | all hq => exact .forwarded hq rfl
  | failed he => exact .unforwarded he rfl

theorem goes_close (hm : (Activity.move ⟨phase, l, .close input p link⟩).Answered e call') :
    ∃ ev, e = some ev ∧ Goes l.ceiling (.close input p link) ev call'.task := by
  cases hm with
  | @send _ _ _ reply fits =>
  refine ⟨_, rfl, ?_⟩
  have hcomes := link.output.absorb_comes link.child
    (Scripted.Surroundings.accepted link.output.bytes reply) reply
  dsimp only [Activity.closed]
  generalize link.output.absorb reply = outcome at hcomes ⊢
  obtain ⟨output, result⟩ := outcome
  cases hcomes with
  | more hq => exact .close hq rfl
  | all hq => exact .closed hq
  | failed he => exact .unclosed he (Activity.givesUp _ _ _)

theorem goes_empty {output : Outbox} {after : Shutting}
    (hm : (Activity.move ⟨phase, l, .empty output after⟩).Answered e call') :
    ∃ ev, e = some ev ∧ Goes l.ceiling (.empty output after) ev call'.task := by
  cases hm with
  | @send _ _ _ reply fits =>
  refine ⟨_, rfl, ?_⟩
  dsimp only [Activity.emptied]
  split
  · exact .empty rfl
  · exact .emptied rfl

theorem goes_shut {after : Shutting}
    (hm : (Activity.move ⟨phase, l, .shut after⟩).Answered e call') :
    ∃ ev, e = some ev ∧ Goes l.ceiling (.shut after) ev call'.task := by
  cases hm with
  | shut =>
  refine ⟨_, rfl, ?_⟩
  cases after with
  | replaced input old p link => exact .shutReplaced
  | drained input p child n => exact .shutDrained
  | severed input p child f => exact .shutSevered
  | givenUp held prime child f =>
    cases held with
    | true => exact .shutGivenUp
    | false => exact .shutLast
  | letGo prime child => exact .shutLetGo

theorem goes_leave {after : Leaving}
    (hm : (Activity.move ⟨phase, l, .leave after⟩).Answered e call') :
    ∃ ev, e = some ev ∧ Goes l.ceiling (.leave after) ev call'.task := by
  cases hm with
  | leave =>
  refine ⟨_, rfl, ?_⟩
  cases after with
  | idle earlier =>
    dsimp only [Activity.inputGone]
    rw [Activity.task_settle]
    exact .leftIdle
  | drained p child => exact .leftDrained
  | givenUp prime child f =>
    cases child with
    | none => exact .leftAlone
    | some child => exact .leftGivenUp
  | letGo prime left =>
    cases left with
    | none => exact .leftLast
    | some link => exact .leftLetGo (Activity.givesUp _ _ _)
  | letGoSevered p child => exact .leftSevered

theorem goes_reap {child : Child} {after : Reaping}
    (hm : (Activity.move ⟨phase, l, .reap child after⟩).Answered e call') :
    ∃ ev, e = some ev ∧ Goes l.ceiling (.reap child after) ev call'.task := by
  cases hm with
  | reap result =>
  refine ⟨_, rfl, ?_⟩
  cases after with
  | drained p =>
    cases result with
    | ok u =>
      dsimp only [Activity.reaped]
      rw [Activity.task_settle]
      exact .reaped
    | error f => exact .handed
  | givenUp prime f =>
    cases result with
    | ok u => exact .reapedGivenUp
    | error f' =>
      dsimp only [Activity.reaped]
      cases hf : f.isBrokenPipe with
      | true => exact .gaveWay hf
      | false => exact .kept hf

/-- Every answer to a call under way is one of its moves. -/
theorem Activity.goes (hm : b.move.Answered e call') :
    ∃ ev, e = some ev ∧ Goes b.ledger.ceiling b.task ev call'.task := by
  obtain ⟨phase, l, task⟩ := b
  cases task with
  | first input earlier => exact goes_first hm
  | skip input earlier n => exact goes_skip hm
  | launch input earlier v => exact goes_launch hm
  | record input p link entry => exact goes_record hm
  | next input p link => exact goes_next hm
  | forward input p link v => exact goes_forward hm
  | close input p link => exact goes_close hm
  | empty output after => exact goes_empty hm
  | shut after => exact goes_shut hm
  | replace input old p link =>
    cases hm with
    | forsake => exact ⟨_, rfl, .replaced⟩
  | leave after => exact goes_leave hm
  | reap child after => exact goes_reap hm
  | forsake prime child =>
    cases hm with
    | forsake => exact ⟨_, rfl, .forsaken⟩
  | ended state result => cases hm

end Answers

end Stage

end SieveChain
